import Mathlib.Data.List.GetD
import Xlibre.Xkb.CoreTypes

/-! A key with one group, from its row of the core keymap back to its type and symbols. -/
namespace Xlibre.Xkb
open CaseEnv

def ComesBack (g : List KeySym) (most mapWidth : ℕ) : Prop :=
  (∀ i < g.length, g.getD i noSymbol = noSymbol) ∨ g.length = 2 ∨
  g.length = 1 ∧ (most ≤ 3 ∨ mapWidth < 6) ∨
  3 ≤ g.length ∧
    ((most = 4 ∨ mapWidth < (max most 2+1)*g.length) ∧
        (∀ i < g.length, 2 ≤ i → mapWidth ≤ g.length+i → g.getD i noSymbol = noSymbol) ∨
      ∀ i < min g.length 6, (i < 2 ∨ g.length+i < mapWidth) → g.getD i noSymbol = noSymbol)

/-- How wide a map is that has a key with this group. -/
structure Roomy (g : List KeySym) (most mapWidth : ℕ) : Prop where
  groups : 1 ≤ most ∧ most ≤ 4
  two : 2 ≤ mapWidth ∧ mapWidth ≠ 3
  many : 2 ≤ most → 4 ≤ mapWidth
  wide : 2 < g.length → g.length+2 ≤ mapWidth
  all : most*g.length ≤ mapWidth

variable {g l row : List KeySym} {m n w i j k N W t : ℕ} {env : CaseEnv} {s : Decoding}

lemma coreSym_fit : coreSym (fit m l) k = if k < m then l.getD k noSymbol else noSymbol := by
  unfold coreSym fit
  simp only [List.getD_eq_getElem?_getD,List.getElem?_take,List.getElem?_append]
  split_ifs with hk hl
  · rfl
  · rw [List.getElem?_eq_none (by omega : l.length ≤ k)]
    by_cases hin : k-l.length < m
    · rw [List.getElem?_replicate_of_lt hin]
      rfl
    · rw [List.getElem?_eq_none (by rw [List.length_replicate]; omega)]
  · rfl

lemma coreSym_start {gs : List (List KeySym)} (hm : 2 ≤ m) (hk : k < 2) (hrow : row = fit m (coreLayout g g gs)) :
    coreSym row k = g.getD k noSymbol := by
  rw [hrow,coreSym_fit,if_pos (by omega)]
  obtain rfl | rfl : k = 0 ∨ k = 1 := by omega
  all_goals rcases g with _ | ⟨a,_ | ⟨b,l⟩⟩ <;> rfl

lemma coreLayout_wide {gs : List (List KeySym)} (hw : 2 ≤ g.length) :
    coreLayout g g gs = g.take 2 ++ (g ++ (g.drop 2 ++ gs.flatten)) := by
  have htwo : firstTwo g = g.take 2 := by
    unfold firstTwo
    rw [List.take_append_of_le_length hw]
  unfold coreLayout
  rw [htwo]
  conv_rhs => rw [← List.take_append_drop 2 g]
  simp only [List.append_assoc,List.take_append_drop]

lemma getD_append (l l' : List KeySym) (k : ℕ) :
    (l ++ l').getD k noSymbol = if k < l.length then l.getD k noSymbol else l'.getD (k-l.length) noSymbol := by
  simp only [List.getD_eq_getElem?_getD,List.getElem?_append]
  split_ifs <;> rfl

lemma getD_layout (hw : 2 ≤ g.length) : (coreLayout g g (List.replicate n g)).getD k noSymbol =
    if k < 2 then g.getD k noSymbol else if k < g.length+2 then g.getD (k-2) noSymbol
    else if k < 2*g.length then g.getD (k-g.length) noSymbol
    else (List.replicate n g).flatten.getD (k-2*g.length) noSymbol := by
  rw [coreLayout_wide hw,getD_append,getD_append,getD_append,List.length_take,List.length_drop,Nat.min_eq_left hw]
  split_ifs with h₁ h₂ h₃ h₄
  all_goals try omega
  · simp [h₁]
  · rfl
  · rw [List.getD_eq_getElem?_getD,List.getElem?_drop,List.getD_eq_getElem?_getD]
    congr 2
    omega
  · congr 1
    omega

lemma coreSym_wide (hw : 2 ≤ g.length) (hrow : row = fit m (coreLayout g g (List.replicate n g))) (hi : i < g.length) :
    (firstPlace i < m → coreSym row (firstPlace i) = g.getD i noSymbol) ∧
    (i < 2 → coreSym row (2+i) = if 2+i < m then g.getD i noSymbol else noSymbol) ∧
    (2 ≤ i → coreSym row (g.length+i) = if g.length+i < m then g.getD i noSymbol else noSymbol) ∧
    (coreSym row (g.length*2+i) = if g.length*2+i < m ∧ 1 ≤ n then g.getD i noSymbol else noSymbol) ∧
    (n ≤ 2 → coreSym row (g.length*3+i) = if g.length*3+i < m ∧ 2 ≤ n then g.getD i noSymbol else noSymbol) := by
  subst hrow
  simp only [coreSym_fit,getD_layout hw]
  refine ⟨fun hm => ?_,fun hlow => ?_,fun hhigh => ?_,?_,fun hn => ?_⟩
  · unfold firstPlace at hm ⊢
    rw [if_pos hm]
    split_ifs <;> first | rfl | omega | (congr 1; omega)
  · rw [if_neg (by omega : ¬ 2+i < 2),if_pos (by omega : 2+i < g.length+2),Nat.add_sub_cancel_left]
  · rw [if_neg (by omega : ¬ g.length+i < 2),if_neg (by omega : ¬ g.length+i < g.length+2),
      if_pos (by omega : g.length+i < 2*g.length),Nat.add_sub_cancel_left]
  · rw [if_neg (by omega : ¬ g.length*2+i < 2),if_neg (by omega : ¬ g.length*2+i < g.length+2),
      if_neg (by omega : ¬ g.length*2+i < 2*g.length),show g.length*2+i-2*g.length = i by omega]
    obtain rfl | ⟨k,rfl⟩ : n = 0 ∨ ∃ k, n = k+1 := by cases n <;> simp
    · simp
    · rw [List.replicate_succ,List.flatten_cons,getD_append,if_pos hi]
      simp
  · rw [if_neg (by omega : ¬ g.length*3+i < 2),if_neg (by omega : ¬ g.length*3+i < g.length+2),
      if_neg (by omega : ¬ g.length*3+i < 2*g.length),show g.length*3+i-2*g.length = g.length+i by omega]
    obtain rfl | rfl | rfl : n = 0 ∨ n = 1 ∨ n = 2 := by omega
    · simp
    · simp
    · simp [hi]

lemma coreSym_blank (hg : ∀ i < g.length, g.getD i noSymbol = noSymbol) (hrow : row = fit m (coreLayout g g (List.replicate n g))) :
    coreSym row k = noSymbol := by
  have hall : ∀ x ∈ g, x = noSymbol := by
    intro x hx
    obtain ⟨i,hi,rfl⟩ := List.getElem_of_mem hx
    rw [← List.getD_eq_getElem g noSymbol hi,hg i hi]
  have hlayout : ∀ x ∈ coreLayout g g (List.replicate n g), x = noSymbol := by
    intro x hx
    unfold coreLayout firstTwo at hx
    simp only [List.mem_append,List.mem_flatten,List.mem_replicate] at hx
    obtain (((hx | hx) | hx) | hx) | ⟨l,⟨-,rfl⟩,hx⟩ := hx
    · have hin := List.mem_of_mem_take hx
      simp at hin
      exact hin.elim (hall x) id
    · have hin := List.mem_of_mem_take hx
      simp at hin
      exact hin.elim (hall x) id
    · exact hall x (List.mem_of_mem_drop hx)
    · exact hall x (List.mem_of_mem_drop hx)
    · exact hall x hx
  rw [hrow,coreSym_fit]
  split_ifs
  · obtain hk | hk := Nat.lt_or_ge k (coreLayout g g (List.replicate n g)).length
    · rw [List.getD_eq_getElem _ _ hk]
      exact hlayout _ (List.getElem_mem hk)
    · exact List.getD_eq_default _ _ hk
  · rfl

lemma coreSym_one {a : KeySym} (hm : 2 ≤ m) (hrow : row = fit m (coreLayout [a] [a] (List.replicate n [a]))) :
    coreSym row 0 = a ∧ (coreSym row 1 = noSymbol ∧ coreSym row 3 = noSymbol) ∧
    coreSym row 2 = (if 2 < m then a else noSymbol) ∧ coreSym row 4 = (if 4 < m ∧ 1 ≤ n then a else noSymbol) ∧
    (n ≤ 2 → coreSym row 5 = (if 5 < m ∧ 2 ≤ n then a else noSymbol) ∧ coreSym row 6 = noSymbol ∧ coreSym row 7 = noSymbol) := by
  subst hrow
  simp only [coreSym_fit]
  refine ⟨?_,⟨?_,?_⟩,?_,?_,fun hn => ?_⟩
  · rw [if_pos (by omega)]
    rfl
  · rw [if_pos (by omega)]
    rfl
  · split_ifs <;> rfl
  · rfl
  · cases n with
    | zero => split_ifs <;> first | rfl | omega
    | succ n => split_ifs <;> first | rfl | omega
  · obtain rfl | rfl | rfl : n = 0 ∨ n = 1 ∨ n = 2 := by omega
    all_goals refine ⟨?_,?_,?_⟩ <;> split_ifs <;> first | rfl | omega

section Row
variable (hroomy : Roomy g N m) (hrow : row = fit m (coreLayout g g (List.replicate (max 2 N-2) g)))
include hroomy hrow

lemma replicated_wide (hw : 3 ≤ g.length) (hfull : ∃ i < g.length, g.getD i noSymbol ≠ noSymbol) :
    Replicated row g.length ↔ (N = 4 ∨ m < (max N 2+1)*g.length) ∧
      ∀ i < g.length, 2 ≤ i → m ≤ g.length+i → g.getD i noSymbol = noSymbol := by
  have hwide := hroomy.wide (by omega)
  have hgroups := hroomy.groups
  have hsyms := fun i (hi : i < g.length) => coreSym_wide (by omega) hrow hi
  have hfirst : ∀ i < g.length, coreSym row (firstPlace i) = g.getD i noSymbol := by
    intro i hi
    apply (hsyms i hi).1
    unfold firstPlace
    split_ifs <;> omega
  have hpair : coreSym row 0 = coreSym row 2 ∧ coreSym row 1 = coreSym row 3 := by
    constructor
    · exact (hfirst 0 (by omega)).trans (((hsyms 0 (by omega)).2.1 (by decide)).trans (if_pos (by omega))).symm
    · exact (hfirst 1 (by omega)).trans (((hsyms 1 (by omega)).2.1 (by decide)).trans (if_pos (by omega))).symm
  have hrest : (∀ i < g.length, 2 ≤ i → coreSym row (2+i) = coreSym row (i+g.length)) ↔
      ∀ i < g.length, 2 ≤ i → m ≤ g.length+i → g.getD i noSymbol = noSymbol := by
    refine forall_congr' fun i => forall_congr' fun hi => forall_congr' fun hge => ?_
    have hown := hfirst i hi
    unfold firstPlace at hown
    rw [if_neg (by omega)] at hown
    rw [hown,Nat.add_comm i,(hsyms i hi).2.2.1 hge]
    split_ifs with hlt
    · exact iff_of_true rfl fun hle => absurd hle (by omega)
    · exact ⟨fun h _ => h,fun h => h (by omega)⟩
  have hcopies : (∀ j < 4, 2 ≤ j → row.length ≥ g.length*(j+1) → ∀ i < g.length,
      coreSym row (firstPlace i) = coreSym row (i+g.length*j)) ↔ N = 4 ∨ m < (max N 2+1)*g.length := by
    rw [hrow,length_fit,← hrow]
    constructor
    · intro hall
      by_contra hnot
      obtain ⟨i,hi,hne⟩ := hfull
      obtain hN | hN : N ≤ 2 ∨ N = 3 := by omega
      · have hcopy := hall 2 (by decide) le_rfl (by rw [Nat.max_eq_right hN] at hnot; omega) i hi
        rw [hfirst i hi,Nat.add_comm,(hsyms i hi).2.2.2.1,if_neg (by omega)] at hcopy
        exact hne hcopy
      · subst hN
        have hcopy := hall 3 (by decide) (by decide) (by simp at hnot; omega) i hi
        rw [hfirst i hi,Nat.add_comm,(hsyms i hi).2.2.2.2 (by decide),if_neg fun h => absurd h.2 (by decide)] at hcopy
        exact hne hcopy
    · intro hN j hj hge hlen i hi
      have hmany : j+1 ≤ N := by
        obtain rfl | hlt := hN
        · omega
        · rw [Nat.mul_comm] at hlt
          have hless : j+1 < max N 2+1 := Nat.lt_of_mul_lt_mul_left (hlen.trans_lt hlt)
          omega
      obtain rfl | rfl : j = 2 ∨ j = 3 := by omega
      · rw [hfirst i hi,Nat.add_comm,(hsyms i hi).2.2.2.1,if_pos (by omega)]
      · rw [hfirst i hi,Nat.add_comm,(hsyms i hi).2.2.2.2 (by omega),if_pos (by omega)]
  unfold Replicated
  rw [hrest,hcopies]
  exact ⟨fun h => ⟨h.2.2,h.2.1⟩,fun h => ⟨hpair,h.2,h.1⟩⟩

lemma blank_wide (hw : 3 ≤ g.length) : (∀ j < laterGroups g.length m, 1 ≤ j → Blank row g.length j) ↔
    ∀ i < min g.length 6, (i < 2 ∨ g.length+i < m) → g.getD i noSymbol = noSymbol := by
  have hwide := hroomy.wide (by omega)
  have hsyms := fun i (hi : i < g.length) => coreSym_wide (by omega) hrow hi
  have hlow : ∀ i < 2, coreSym row (2+i) = g.getD i noSymbol := by
    intro i hi
    rw [(hsyms i (by omega)).2.1 hi,if_pos (by omega)]
  unfold Blank
  constructor
  · intro hall i hi hin
    have hone := hall 1 (by unfold laterGroups; split_ifs <;> omega) le_rfl
    obtain rfl | rfl | hge : i = 0 ∨ i = 1 ∨ 2 ≤ i := by omega
    · exact (hlow 0 (by decide)).symm.trans hone.1
    · exact (hlow 1 (by decide)).symm.trans hone.2
    · have hat := (hsyms i (by omega)).2.2.1 hge
      rw [if_pos (by omega)] at hat
      rw [← hat]
      obtain hi | hi : i < 4 ∨ 4 ≤ i := by omega
      · have htwo := hall 2 (by unfold laterGroups; split_ifs <;> omega) (by decide)
        obtain rfl | rfl : i = 2 ∨ i = 3 := by omega
        · exact htwo.1
        · exact htwo.2
      · have hthree := hall 3 (by unfold laterGroups; split_ifs <;> omega) (by decide)
        obtain rfl | rfl : i = 4 ∨ i = 5 := by omega
        · exact hthree.1
        · exact hthree.2
  · intro hall
    have hzero : ∀ i < 2, g.getD i noSymbol = noSymbol := fun i hi => hall i (by omega) (.inl hi)
    have hmore : ∀ i < 6, 2 ≤ i → coreSym row (g.length+i) = noSymbol := by
      intro i hi hge
      obtain hin | hout := Nat.lt_or_ge i g.length
      · rw [(hsyms i hin).2.2.1 hge]
        split_ifs with hm
        · exact hall i (by omega) (.inr hm)
        · rfl
      · obtain ⟨k,rfl⟩ := Nat.exists_eq_add_of_le hout
        rw [show g.length+(g.length+k) = g.length*2+k by omega,(hsyms k (by omega)).2.2.2.1]
        split_ifs with hm
        · exact hall k (by omega) (by omega)
        · rfl
    intro j hj hge
    obtain rfl | rfl | rfl : j = 1 ∨ j = 2 ∨ j = 3 := by
      unfold laterGroups at hj
      split_ifs at hj <;> omega
    · exact ⟨(hlow 0 (by decide)).trans (hzero 0 (by decide)),(hlow 1 (by decide)).trans (hzero 1 (by decide))⟩
    · exact ⟨hmore 2 (by decide) (by decide),hmore 3 (by decide) (by decide)⟩
    · exact ⟨hmore 4 (by decide) (by decide),hmore 5 (by decide) (by decide)⟩

/-- Only the first group is left, with its type and the symbols it had. -/
def Restored (g : List KeySym) (t : ℕ) (s : Decoding) : Prop :=
  s.nGroups = 1 ∧ s.types 0 = t ∧ ∀ i < g.length, s.syms i = g.getD i noSymbol

lemma firstPlace_row (hi : i < g.length) : coreSym row (firstPlace i) = g.getD i noSymbol := by
  obtain hone | hw : g.length = 1 ∨ 2 ≤ g.length := by omega
  · obtain ⟨a,rfl⟩ := List.length_eq_one_iff.1 hone
    obtain rfl : i = 0 := by omega
    exact (coreSym_one hroomy.two.1 hrow).1
  · apply (coreSym_wide hw hrow hi).1
    have hm := hroomy.two.1
    have hwide := hroomy.wide
    unfold firstPlace
    split_ifs <;> omega

lemma restored (hW : g.length ≤ W) (h : Survives row W t s) : Restored g t s :=
  ⟨h.1,h.2.1,fun i hi => (h.2.2 i (hi.trans_le hW)).trans (firstPlace_row hroomy hrow hi)⟩

lemma wide_iff (hw : 3 ≤ g.length) (hout : Outcome env row g.length t s)
    (hfull : ∃ i < g.length, g.getD i noSymbol ≠ noSymbol) : Restored g t s ↔
    (N = 4 ∨ m < (max N 2+1)*g.length) ∧ (∀ i < g.length, 2 ≤ i → m ≤ g.length+i → g.getD i noSymbol = noSymbol) ∨
      ∀ i < min g.length 6, (i < 2 ∨ g.length+i < m) → g.getD i noSymbol = noSymbol := by
  have hm : row.length = m := by rw [hrow,length_fit]
  rw [← replicated_wide hroomy hrow hw hfull,← blank_wide hroomy hrow hw]
  constructor
  · intro hback
    by_contra hnot
    obtain ⟨hrep,hblank⟩ := not_or.1 hnot
    obtain ⟨j,hj,hpos,hne⟩ : ∃ j < laterGroups g.length m, 1 ≤ j ∧ ¬ Blank row g.length j := by
      by_contra hnone
      exact hblank fun j hj hpos => by_contra fun hne => hnone ⟨j,hj,hpos,hne⟩
    exact hout.wide hrep hw j (hm ▸ hj) hpos hne hback.1
  · intro h
    by_cases hrep : Replicated row g.length
    · exact restored hroomy hrow le_rfl (hout.replicated hrep)
    · exact restored hroomy hrow le_rfl (hout.blank hrep (hm ▸ h.resolve_left hrep))

lemma two_restored (hw : g.length = 2) (hout : Outcome env row 2 t s)
    (hcase : env.expands (g.getD 0 noSymbol) (g.getD 1 noSymbol) = false)
    (hfull : ∃ i < g.length, g.getD i noSymbol ≠ noSymbol) : Restored g t s := by
  have hm : row.length = m := by rw [hrow,length_fit]
  obtain ⟨htwo,hthree⟩ := hroomy.two
  have hgroups := hroomy.groups
  have hall := hroomy.all
  have hmany := hroomy.many
  rw [hw] at hall
  obtain ⟨ha,hc2,-,hc4,hc6⟩ := coreSym_wide (i := 0) (by omega) hrow (by omega)
  obtain ⟨hb,hc3,-,hc5,hc7⟩ := coreSym_wide (i := 1) (by omega) hrow (by omega)
  rw [hw] at hc4 hc5 hc6 hc7
  replace ha : coreSym row 0 = g.getD 0 noSymbol := ha (show 0 < m by omega)
  replace hb : coreSym row 1 = g.getD 1 noSymbol := hb (show 1 < m by omega)
  replace hc2 := hc2 (by decide)
  replace hc3 := hc3 (by decide)
  replace hc6 := hc6 (by omega)
  replace hc7 := hc7 (by omega)
  have hkeep : env.two (g.getD 0 noSymbol) (g.getD 1 noSymbol) = (g.getD 0 noSymbol,g.getD 1 noSymbol) :=
    if_neg (by rw [hcase]; decide)
  by_cases hrep : Replicated row 2
  · exact restored hroomy hrow hw.le (hout.replicated hrep)
  obtain hnarrow | hwide : m = 2 ∨ 4 ≤ m := by omega
  · apply restored hroomy hrow hw.le
    apply hout.blank hrep
    intro j hj hpos
    rw [hm,hnarrow] at hj
    replace hj : j < 2 := hj
    obtain rfl : j = 1 := by omega
    rw [if_neg (by omega)] at hc2 hc3
    exact ⟨hc2,hc3⟩
  · rw [if_pos (by omega)] at hc2 hc3
    apply restored hroomy hrow hw.le
    apply hout.same hrep rfl (max 2 N)
    · rw [hm]
      unfold laterGroups
      split_ifs <;> omega
    · omega
    · rintro ⟨hzero,hone⟩
      obtain ⟨i,hi,hne⟩ := hfull
      obtain rfl | rfl : i = 0 ∨ i = 1 := by omega
      · exact hne (hc2.symm.trans hzero)
      · exact hne (hc3.symm.trans hone)
    · intro j hj hpos
      rw [ha,hb]
      obtain rfl | rfl | rfl : j = 1 ∨ j = 2 ∨ j = 3 := by omega
      · exact (congrArg₂ env.two hc2 hc3).trans hkeep
      · rw [if_pos (by omega)] at hc4 hc5
        exact (congrArg₂ env.two hc4 hc5).trans hkeep
      · rw [if_pos (by omega)] at hc6 hc7
        exact (congrArg₂ env.two hc6 hc7).trans hkeep
    · intro j hj hge
      obtain rfl | rfl : j = 2 ∨ j = 3 := by
        unfold laterGroups at hj
        split_ifs at hj <;> omega
      · rw [if_neg (by omega)] at hc4 hc5
        exact ⟨hc4,hc5⟩
      · rw [if_neg (by omega)] at hc6 hc7
        exact ⟨hc6,hc7⟩

lemma one_iff (hw : g.length = 1) (hout : Outcome env row 2 t s)
    (hcase : env.expands (g.getD 0 noSymbol) (g.getD 1 noSymbol) = false)
    (hfull : ∃ i < g.length, g.getD i noSymbol ≠ noSymbol) : Restored g t s ↔ N ≤ 3 ∨ m < 6 := by
  have hm : row.length = m := by rw [hrow,length_fit]
  obtain ⟨a,rfl⟩ := List.length_eq_one_iff.1 hw
  obtain ⟨htwo,hthree⟩ := hroomy.two
  have hgroups := hroomy.groups
  obtain ⟨h0,⟨h1,h3⟩,h2,h4,h567⟩ := coreSym_one htwo hrow
  obtain ⟨h5,h6,h7⟩ := h567 (by omega)
  obtain ⟨i,hi,hne⟩ := hfull
  obtain rfl : i = 0 := by rw [hw] at hi; omega
  replace hne : a ≠ noSymbol := hne
  replace hcase : env.expands a noSymbol = false := hcase
  have hkeep : env.two a noSymbol = (a,noSymbol) := if_neg (by rw [hcase]; decide)
  constructor
  · intro hback
    by_contra hnot
    rw [if_pos (by omega)] at h2 h4 h5
    have hrep : ¬ Replicated row 2 := by
      intro hrep
      have hsame := hrep.2.2 2 (by decide) le_rfl (by omega) 1 (by decide)
      exact hne (h5.symm.trans (hsame.symm.trans h1))
    refine hout.different hrep rfl (fun h => hne (h2.symm.trans h.1)) 2 ?_ (by decide) (fun h => hne (h4.symm.trans h.1)) ?_ hback.1
    · unfold laterGroups
      split_ifs <;> omega
    · have hpair : env.two a a = (a,a) := if_neg (by simp [expands,hne])
      intro hsame
      have htwo : env.two (coreSym row (laterPlace 2 2)) (coreSym row (laterPlace 2 2+1)) = (a,a) :=
        (congrArg₂ env.two h4 h5).trans hpair
      rw [htwo,h0,h1] at hsame
      exact hne (Prod.mk.inj hsame).2
  · intro hfits
    by_cases hrep : Replicated row 2
    · exact restored hroomy hrow (by simp : [a].length ≤ 2) (hout.replicated hrep)
    obtain hnarrow | hwide : m = 2 ∨ 4 ≤ m := by omega
    · apply restored hroomy hrow (by simp : [a].length ≤ 2)
      apply hout.blank hrep
      intro j hj hpos
      rw [hm,hnarrow] at hj
      replace hj : j < 2 := hj
      obtain rfl : j = 1 := by omega
      rw [if_neg (by omega)] at h2
      exact ⟨h2,h3⟩
    · rw [if_pos (by omega)] at h2
      have hsix : 6 ≤ m := by
        by_contra hlt
        refine hrep ⟨⟨h0.trans h2.symm,h1.trans h3.symm⟩,fun i hi hge => by omega,fun j hj hge hlen => ?_⟩
        omega
      apply restored hroomy hrow (by simp : [a].length ≤ 2)
      apply hout.same hrep rfl (max 2 N)
      · rw [hm]
        unfold laterGroups
        split_ifs <;> omega
      · omega
      · exact fun h => hne (h2.symm.trans h.1)
      · intro j hj hpos
        rw [h0,h1]
        obtain rfl | rfl : j = 1 ∨ j = 2 := by omega
        · exact (congrArg₂ env.two h2 h3).trans hkeep
        · rw [if_pos (by omega)] at h4
          rw [if_neg (by omega)] at h5
          exact (congrArg₂ env.two h4 h5).trans hkeep
      · intro j hj hge
        rw [if_neg (by omega)] at h5
        obtain rfl | rfl : j = 2 ∨ j = 3 := by
          unfold laterGroups at hj
          split_ifs at hj <;> omega
        · rw [if_neg (by omega)] at h4
          exact ⟨h4,h5⟩
        · exact ⟨h6,h7⟩

lemma comesBack_iff (hW : W = max 2 g.length) (hout : Outcome env row W t s)
    (hcase : env.expands (g.getD 0 noSymbol) (g.getD 1 noSymbol) = false) : Restored g t s ↔ ComesBack g N m := by
  by_cases hblank : ∀ i < g.length, g.getD i noSymbol = noSymbol
  · have hrow0 : ∀ k, coreSym row k = noSymbol := fun k => coreSym_blank hblank hrow
    refine iff_of_true (restored hroomy hrow (by omega) (hout.replicated ?_)) (.inl hblank)
    refine ⟨⟨by rw [hrow0,hrow0],by rw [hrow0,hrow0]⟩,fun i _ _ => by rw [hrow0,hrow0],fun j _ _ _ i _ => by rw [hrow0,hrow0]⟩
  · have hfull : ∃ i < g.length, g.getD i noSymbol ≠ noSymbol := by
      by_contra hnone
      exact hblank fun i hi => by_contra fun hne => hnone ⟨i,hi,hne⟩
    obtain ⟨i,hi,-⟩ := id hfull
    unfold ComesBack
    obtain hone | htwo | hthree : g.length = 1 ∨ g.length = 2 ∨ 3 ≤ g.length := by omega
    · obtain rfl : W = 2 := by omega
      rw [one_iff hroomy hrow hone hout hcase hfull]
      constructor
      · exact fun h => .inr (.inr (.inl ⟨hone,h⟩))
      · rintro (h | h | h | h)
        · exact absurd h hblank
        · omega
        · exact h.2
        · omega
    · obtain rfl : W = 2 := by omega
      exact iff_of_true (two_restored hroomy hrow htwo hout hcase hfull) (.inr (.inl htwo))
    · obtain rfl : W = g.length := by omega
      rw [wide_iff hroomy hrow hthree hout hfull]
      constructor
      · exact fun h => .inr (.inr (.inr ⟨hthree,h⟩))
      · rintro (h | h | h | h)
        · exact absurd h hblank
        · omega
        · omega
        · exact h.2

end Row

namespace SymsDesc
variable {d : SymsDesc} {key n : ℕ} {lower upper : KeySym → KeySym} {isKeypad : KeySym → Bool} {types : ℕ → ℕ}
  {syms : ℕ → KeySym} {core : KeySymsRec}

/-- A key with one group whose type is explicit goes into the core map and comes back with one group, the same type and the
same symbols, exactly when it has two levels or no symbols; or one level, but not next to a key with four groups; or more
levels, when no symbol is cut off and the copies reach the end of the row, or the row has nothing in the places of the
other groups. -/
theorem oneGroup_comesBack_iff (hd : d.WellFormed) (hfour : ∀ key ∈ d.keys, d.numGroups key ≤ 4) (hkey : key ∈ d.keys)
    (hone : d.numGroups key = 1) (hcore : d.getCoreMap = some (some core))
    (hmost : IsGreatest {k | ∃ key ∈ d.keys, d.numGroups key = k} n)
    (htype : types 0 = (d.keySymMap key).ktIndex (Fin.ofNat 4 0))
    (hcase : CaseEnv.expands ⟨d.types,lower,upper,isKeypad⟩ ((d.groupSyms key 0).getD 0 noSymbol)
      ((d.groupSyms key 0).getD 1 noSymbol) = false) :
    Restored (d.groupSyms key 0) (types 0)
      (CaseEnv.keyTypesForCoreSymbols ⟨d.types,lower,upper,isKeypad⟩ (core.row key) first types syms) ↔
      ComesBack (d.groupSyms key 0) n core.mapWidth := by
  obtain ⟨core',most',hcore',hmost',hlength,hlays,hwidths,hall,hthree⟩ := getCoreMap_row hd hfour hkey (by omega)
  obtain rfl : core = core' := Option.some.inj (Option.some.inj (hcore.symm.trans hcore'))
  obtain rfl : n = most' := le_antisymm (hmost'.2 hmost.1) (hmost.2 hmost'.1)
  have hlevels : (d.groupSyms key 0).length = d.groupWidth key 0 := (hd.readGroup hkey (by omega)).2
  have hwidth := hwidths key hkey
  rw [hone] at hwidth hlays
  have hsingle : 2 ≤ coreWidth 1 (d.groupWidth key) ∧ (2 < d.groupWidth key 0 → d.groupWidth key 0+2 ≤ coreWidth 1 (d.groupWidth key)) :=
    coreWidth_one
  have hroomy : Roomy (d.groupSyms key 0) n core.mapWidth := by
    obtain ⟨k,hk,hkmost⟩ := hmost.1
    refine ⟨⟨hone ▸ hmost.2 ⟨key,hkey,rfl⟩,hkmost ▸ hfour k hk⟩,⟨by omega,hthree⟩,fun htwo => ?_,by omega,by rwa [hlevels]⟩
    have hmany := hwidths k hk
    rw [coreWidth_two (hkmost ▸ htwo)] at hmany
    omega
  have ht : types 0 < d.types.length := by
    rw [htype]
    exact hd.types key hkey 0 (by omega)
  have hrow : core.row key = fit core.mapWidth (coreLayout (d.groupSyms key 0) (d.groupSyms key 0)
      (List.replicate (max 2 n-2) (d.groupSyms key 0))) := hlays
  have hW : max 2 (d.groupSyms key 0).length = max 2 (d.types.getD (types 0) 0) := by
    rw [hlevels,htype]
    rfl
  have hstart := fun k hk => coreSym_start (k := k) hroomy.two.1 hk hrow
  refine comesBack_iff hroomy hrow rfl (@outcome ⟨d.types,lower,upper,isKeypad⟩ _ _ _ _ ht hW ?_) hcase
  rwa [hstart 0 (by decide),hstart 1 (by decide)]

def fiveBesideTwo : KeySymsRec :=
  ⟨8,9,10,[0x41,0x42,0x41,0x42,0x43,0x44,0x45,0x43,0x44,0x45,0x61,0,0x62,0,0,0,0,0,0,0]⟩

theorem oneGroup_comesBack_iff_fiveBesideTwo : oneBesideTwo.getCoreMap = some (some fiveBesideTwo) ∧
    Restored (oneBesideTwo.groupSyms 8 0) 1 (CaseEnv.keyTypesForCoreSymbols ⟨oneBesideTwo.types,id,id,fun _ => false⟩
      (fiveBesideTwo.row 8) first (fun _ => 1) fun _ => 0) := by
  refine ⟨rfl,(oneGroup_comesBack_iff (d := oneBesideTwo) ⟨by decide,by decide,by decide,by decide⟩ (by decide) (by decide)
    (by decide) rfl (n := 2) ⟨⟨9,by decide,rfl⟩,?_⟩ rfl (by decide)).2 ?_⟩
  · rintro _ ⟨key,hkey,rfl⟩
    revert key
    decide
  · exact .inr (.inr (.inr ⟨by decide,.inl ⟨by decide,by decide⟩⟩))

def fourLevels : SymsDesc where
  minKeyCode := 8
  maxKeyCode := 8
  types := [1,2,2,2,4]
  keySymMap _ := { ktIndex := fun _ => 4, groupInfo := 1, width := 4 }
  syms := [0x41,0x42,0x43,0x44]

/-- It comes back with two groups. -/
theorem fourLevels_lost : ¬ ∀ (d : SymsDesc) (lower upper : KeySym → KeySym) (isKeypad : KeySym → Bool) (types : ℕ → ℕ)
    (syms : ℕ → KeySym) (key : ℕ) (core : KeySymsRec), d.WellFormed → (∀ key ∈ d.keys, d.numGroups key ≤ 4) → key ∈ d.keys →
    d.numGroups key = 1 → d.getCoreMap = some (some core) → types 0 = (d.keySymMap key).ktIndex (Fin.ofNat 4 0) →
    CaseEnv.expands ⟨d.types,lower,upper,isKeypad⟩ ((d.groupSyms key 0).getD 0 noSymbol)
      ((d.groupSyms key 0).getD 1 noSymbol) = false →
    Restored (d.groupSyms key 0) (types 0)
      (CaseEnv.keyTypesForCoreSymbols ⟨d.types,lower,upper,isKeypad⟩ (core.row key) first types syms) := by
  intro h
  have hlost := h fourLevels id id (fun _ => false) (fun _ => 4) (fun _ => 0) 8 ⟨8,8,6,[0x41,0x42,0x41,0x42,0x43,0x44]⟩
    ⟨by decide,by decide,by decide,by decide⟩ (by decide) (by decide) (by decide) rfl (by decide) (by decide)
  exact absurd hlost.1 (by decide)

end SymsDesc

end Xlibre.Xkb
