import Xlibre.Dix.Region.Box

/-! `QuickSortRects`: in-place sorting of boxes by their upper left corners. Every access is
checked against the part of the array being sorted; `none` is an access outside it. -/
namespace Xlibre.Dix.Region

/-- The sorting order: by top side, then by left side. -/
def boxLt (a b : Box) : Prop := a.y1 < b.y1 ∨ (a.y1 = b.y1 ∧ a.x1 < b.x1)

instance (a b : Box) : Decidable (boxLt a b) := inferInstanceAs (Decidable (_ ∨ _))

def exchangeRects (rects : List Box) (a b : ℕ) : Option (List Box) := do
  let ra ← rects[a]?
  let rb ← rects[b]?
  some ((rects.set a rb).set b ra)

/-- The upward scan from behind `i`, for a box not before the partition element. -/
def scanUp (p : Box) (rects : List Box) : ℕ → ℕ → Option ℕ
  | 0,_ => none
  | n+1,i =>
    if i+1 = rects.length then some (i+1) else do
    let r ← rects[i+1]?
    if boxLt r p then scanUp p rects n (i+1) else some (i+1)

/-- The downward scan from before `j`, for a box not behind the partition element. -/
def scanDown (p : Box) (rects : List Box) : ℕ → ℕ → Option ℕ
  | 0,_ => none
  | _,0 => none
  | n+1,j+1 => do
    let r ← rects[j]?
    if boxLt p r then scanDown p rects n j else some j

/-- Exchange boxes on the wrong sides until the scans meet. -/
def partitionRects (p : Box) : ℕ → List Box → ℕ → ℕ → Option (List Box × ℕ)
  | 0,_,_,_ => none
  | n+1,rects,i,j => do
    let i ← scanUp p rects rects.length i
    let j ← scanDown p rects rects.length j
    if i < j then do
      let rects ← exchangeRects rects i j
      partitionRects p n rects i j
    else some (rects,j)

/-- The part behind the partition element is sorted by a call, the part before it by the next
pass of the outer loop; the fuel bounds the number of boxes. -/
def quickSortRects : ℕ → List Box → Option (List Box)
  | 0,_ => none
  | n+1,rects => do
    if rects.length = 2 then do
      let r0 ← rects[0]?
      let r1 ← rects[1]?
      if boxLt r1 r0 then exchangeRects rects 0 1 else some rects
    else do
      let rects ← exchangeRects rects 0 (rects.length/2)
      let p ← rects[0]?
      let (rects,j) ← partitionRects p rects.length rects 0 rects.length
      let rects ← exchangeRects rects 0 j
      Option.bind (if rects.length-j-1 > 1 then quickSortRects n (rects.drop (j+1))
          else some (rects.drop (j+1))) fun right =>
        Option.bind (if j > 1 then quickSortRects n (rects.take j) else some (rects.take j)) fun left =>
          some (left ++ p::right)

lemma not_boxLt_trans {a b c : Box} (h₁ : ¬ boxLt b a) (h₂ : ¬ boxLt c b) : ¬ boxLt c a := by
  simp only [boxLt] at *
  omega

lemma not_boxLt_of_boxLt {a b : Box} (h : boxLt a b) : ¬ boxLt b a := by
  simp only [boxLt] at *
  omega

lemma exchangeRects_spec (rects : List Box) {a b : ℕ} (ha : a < rects.length) (hb : b < rects.length) :
    ∃ rects', exchangeRects rects a b = some rects' ∧ rects'.Perm rects ∧
      ∀ k, rects'[k]? = if k = b then rects[a]? else if k = a then rects[b]? else rects[k]? := by
  refine ⟨_,?_,List.set_set_perm ha hb,fun k => ?_⟩
  · simp [exchangeRects,ha,hb]
  · rw [List.getElem?_set,List.length_set,List.getElem?_set]
    by_cases hkb : b = k
    · subst k
      simp [ha,hb]
    · by_cases hka : a = k
      · subst k
        simp [hkb,ha,hb,Ne.symm hkb]
      · simp [hkb,hka,Ne.symm hkb,Ne.symm hka]

lemma scanUp_spec (p : Box) (rects : List Box) (n i : ℕ) (hi : i < rects.length)
    (hn : rects.length - i ≤ n) : ∃ i', scanUp p rects n i = some i' ∧ i < i' ∧ i' ≤ rects.length ∧
      (∀ k r, i < k → k < i' → rects[k]? = some r → boxLt r p) ∧
      (∀ r, rects[i']? = some r → ¬ boxLt r p) := by
  induction n generalizing i with
  | zero => omega
  | succ n ih =>
    rw [scanUp]
    by_cases he : i+1 = rects.length
    · rw [if_pos he]
      refine ⟨i+1,rfl,by omega,by omega,fun k r h₁ h₂ => by omega,fun r hr => ?_⟩
      rw [List.getElem?_eq_none (by omega)] at hr
      cases hr
    · have hlt : i+1 < rects.length := by omega
      rw [if_neg he,List.getElem?_eq_getElem hlt]
      simp only [Option.bind_eq_bind,Option.bind_some]
      by_cases hr : boxLt rects[i+1] p
      · rw [if_pos hr]
        obtain ⟨i',h₁,h₂,h₃,h₄,h₅⟩ := ih (i+1) hlt (by omega)
        refine ⟨i',h₁,by omega,h₃,fun k r hk hk' hkr => ?_,h₅⟩
        rcases Nat.lt_or_ge (i+1) k with hik | hik
        · exact h₄ k r hik hk' hkr
        · obtain rfl : k = i+1 := by omega
          rw [List.getElem?_eq_getElem hlt] at hkr
          cases hkr
          exact hr
      · rw [if_neg hr]
        refine ⟨i+1,rfl,by omega,by omega,fun k r h₁ h₂ => by omega,fun r hkr => ?_⟩
        rw [List.getElem?_eq_getElem hlt] at hkr
        cases hkr
        exact hr

lemma scanDown_spec (p : Box) (rects : List Box) (n j : ℕ) (hj : j ≤ rects.length) (hj0 : 0 < j)
    (hn : j ≤ n) (hp : rects[0]? = some p) :
    ∃ j', scanDown p rects n j = some j' ∧ j' < j ∧
      (∀ k r, j' < k → k < j → rects[k]? = some r → boxLt p r) ∧
      (∀ r, rects[j']? = some r → ¬ boxLt p r) := by
  induction n generalizing j with
  | zero => omega
  | succ n ih =>
    obtain ⟨j,rfl⟩ := Nat.exists_eq_add_of_lt hj0
    simp only [Nat.zero_add] at hj hn ⊢
    have hlt : j < rects.length := by omega
    rw [scanDown,List.getElem?_eq_getElem hlt]
    simp only [Option.bind_eq_bind,Option.bind_some]
    by_cases hr : boxLt p rects[j]
    · rw [if_pos hr]
      -- The partition element itself stops the scan at the latest.
      have hj1 : 0 < j := by
        rcases Nat.eq_zero_or_pos j with rfl | h
        · rw [List.getElem?_eq_getElem hlt] at hp
          cases hp
          simp [boxLt] at hr
        · exact h
      obtain ⟨j',h₁,h₂,h₃,h₄⟩ := ih j (by omega) hj1 (by omega)
      refine ⟨j',h₁,by omega,fun k r hk hk' hkr => ?_,h₄⟩
      rcases Nat.lt_or_ge k j with hkj | hkj
      · exact h₃ k r hk hkj hkr
      · obtain rfl : k = j := by omega
        rw [List.getElem?_eq_getElem hlt] at hkr
        cases hkr
        exact hr
    · rw [if_neg hr]
      refine ⟨j,rfl,by omega,fun k r h₁ h₂ => by omega,fun r hkr => ?_⟩
      rw [List.getElem?_eq_getElem hlt] at hkr
      cases hkr
      exact hr

lemma partitionRects_spec (p : Box) (n : ℕ) (rects : List Box) (i j : ℕ) (hij : i < j)
    (hj : j ≤ rects.length) (hn : j - i ≤ n) (hp : rects[0]? = some p)
    (hlo : ∀ k r, 1 ≤ k → k ≤ i → rects[k]? = some r → ¬ boxLt p r)
    (hhi : ∀ k r, j ≤ k → rects[k]? = some r → ¬ boxLt r p) :
    ∃ rects' j', partitionRects p n rects i j = some (rects',j') ∧ rects'.Perm rects ∧
      rects'[0]? = some p ∧ j' < rects.length ∧
      (∀ k r, 1 ≤ k → k ≤ j' → rects'[k]? = some r → ¬ boxLt p r) ∧
      (∀ k r, j' < k → rects'[k]? = some r → ¬ boxLt r p) := by
  induction n generalizing rects i j with
  | zero => omega
  | succ n ih =>
    obtain ⟨i',hi',hii,hil,hup,hui⟩ := scanUp_spec p rects rects.length i (by omega) (by omega)
    obtain ⟨j',hj',hjj,hdown,hdj⟩ := scanDown_spec p rects rects.length j hj (by omega) hj hp
    rw [partitionRects,hi',hj']
    simp only [Option.bind_eq_bind,Option.bind_some]
    by_cases hlt : i' < j'
    · rw [if_pos hlt]
      obtain ⟨rects₁,he,hperm,hget⟩ := exchangeRects_spec rects (a := i') (b := j') (by omega) (by omega)
      have hlen := hperm.length_eq
      rw [he]
      simp only [Option.bind_some]
      obtain ⟨rects',j'',h₁,h₂,h₃,h₄,h₅,h₆⟩ := ih rects₁ i' j' hlt (by omega) (by omega)
        (by rw [hget,if_neg (by omega),if_neg (by omega)]; exact hp)
        (by
          intro k r hk hk' hkr
          rw [hget,if_neg (by omega)] at hkr
          by_cases hki : k = i'
          · rw [if_pos hki] at hkr
            exact hdj r hkr
          · rw [if_neg hki] at hkr
            rcases Nat.lt_or_ge i k with hik | hik
            · exact not_boxLt_of_boxLt (hup k r hik (by omega) hkr)
            · exact hlo k r hk hik hkr)
        (by
          intro k r hk hkr
          rw [hget] at hkr
          by_cases hkj : k = j'
          · rw [if_pos hkj] at hkr
            exact hui r hkr
          · rw [if_neg hkj,if_neg (by omega)] at hkr
            rcases Nat.lt_or_ge k j with hk' | hk'
            · exact not_boxLt_of_boxLt (hdown k r (by omega) hk' hkr)
            · exact hhi k r hk' hkr)
      exact ⟨rects',j'',h₁,h₂.trans hperm,h₃,by omega,h₅,h₆⟩
    · rw [if_neg hlt]
      refine ⟨rects,j',rfl,List.Perm.refl _,hp,by omega,fun k r hk hk' hkr => ?_,fun k r hk hkr => ?_⟩
      · rcases Nat.lt_or_ge i k with hik | hik
        · rcases Nat.lt_or_ge k j' with hkj | hkj
          · exact not_boxLt_of_boxLt (hup k r hik (by omega) hkr)
          · obtain rfl : k = j' := by omega
            exact hdj r hkr
        · exact hlo k r hk hik hkr
      · rcases Nat.lt_or_ge k j with hk' | hk'
        · exact not_boxLt_of_boxLt (hdown k r hk hk' hkr)
        · exact hhi k r hk' hkr

lemma sorted_around {p : Box} {left right : List Box} (hl : left.Pairwise (fun a b => ¬ boxLt b a))
    (hr : right.Pairwise (fun a b => ¬ boxLt b a)) (hlp : ∀ r ∈ left, ¬ boxLt p r)
    (hrp : ∀ r ∈ right, ¬ boxLt r p) : (left ++ p::right).Pairwise (fun a b => ¬ boxLt b a) := by
  refine List.pairwise_append.mpr ⟨hl,List.pairwise_cons.mpr ⟨hrp,hr⟩,fun a ha b hb => ?_⟩
  rcases List.mem_cons.mp hb with rfl | hb
  · exact hlp a ha
  · exact not_boxLt_trans (hlp a ha) (hrp b hb)

/-- Sorting returns on every array, without an access outside it, and leaves its boxes in order. -/
theorem quickSortRects_spec (n : ℕ) (rects : List Box) (hpos : 0 < rects.length)
    (hn : rects.length ≤ n) : ∃ out, quickSortRects n rects = some out ∧ out.Perm rects ∧
      out.Pairwise (fun a b => ¬ boxLt b a) := by
  induction n generalizing rects with
  | zero => omega
  | succ n ih =>
    rw [quickSortRects]
    by_cases h2 : rects.length = 2
    · rw [if_pos h2]
      obtain ⟨r0,r1,rfl⟩ := List.length_eq_two.mp h2
      simp only [List.getElem?_cons_zero,List.getElem?_cons_succ,Option.bind_eq_bind,Option.bind_some]
      split_ifs with hlt
      · refine ⟨[r1,r0],by simp [exchangeRects],List.Perm.swap _ _ _,?_⟩
        simpa using not_boxLt_of_boxLt hlt
      · exact ⟨[r0,r1],rfl,List.Perm.refl _,by simpa using hlt⟩
    · rw [if_neg h2]
      obtain ⟨rects₁,he₁,hperm₁,_⟩ := exchangeRects_spec rects (a := 0) (b := rects.length/2) hpos
        (by omega)
      have hlen₁ := hperm₁.length_eq
      have hlt₁ : 0 < rects₁.length := by omega
      rw [he₁]
      simp only [Option.bind_eq_bind,Option.bind_some,List.getElem?_eq_getElem hlt₁]
      obtain ⟨rects₂,j,he₂,hperm₂,hp₂,hj,hle,hge⟩ := partitionRects_spec rects₁[0] rects₁.length rects₁ 0
        rects₁.length hlt₁ le_rfl (by omega) (List.getElem?_eq_getElem hlt₁) (fun k r h₁ h₂ => by omega)
        (fun k r hk hkr => by
          rw [List.getElem?_eq_none hk] at hkr
          cases hkr)
      rw [he₂]
      simp only [Option.bind_some]
      generalize rects₁[0] = p at hp₂ hle hge
      have hlen₂ := hperm₂.length_eq
      obtain ⟨rects₃,he₃,hperm₃,hget⟩ := exchangeRects_spec rects₂ (a := 0) (b := j) (by omega) (by omega)
      have hlen₃ := hperm₃.length_eq
      rw [he₃]
      simp only [Option.bind_some]
      have hpj : rects₃[j]? = some p := by rw [hget,if_pos rfl,hp₂]
      have hsplit : rects₃ = rects₃.take j ++ p::rects₃.drop (j+1) := by
        have hjl : j < rects₃.length := by omega
        rw [List.getElem?_eq_getElem hjl] at hpj
        cases hpj
        rw [List.getElem_cons_drop,List.take_append_drop]
      have hleft : ∀ r ∈ rects₃.take j, ¬ boxLt p r := by
        intro r hr
        obtain ⟨k,hk⟩ := List.mem_iff_getElem?.mp hr
        have hkj : k < j := by
          by_contra hc
          rw [List.getElem?_take,if_neg hc] at hk
          cases hk
        rw [List.getElem?_take_of_lt hkj,hget,if_neg (by omega)] at hk
        rcases Nat.eq_zero_or_pos k with h0 | hk0
        · rw [if_pos h0] at hk
          rcases Nat.eq_zero_or_pos j with hj0 | hj0
          · omega
          · exact hle j r hj0 le_rfl hk
        · rw [if_neg (by omega)] at hk
          exact hle k r hk0 hkj.le hk
      have hright : ∀ r ∈ rects₃.drop (j+1), ¬ boxLt r p := by
        intro r hr
        obtain ⟨k,hk⟩ := List.mem_iff_getElem?.mp hr
        rw [List.getElem?_drop,hget,if_neg (by omega),if_neg (by omega)] at hk
        exact hge (j+1+k) r (by omega) hk
      -- A part of at most one box is left as it is.
      have hsort : ∀ l : List Box, l.length ≤ n → ∃ out, (if l.length > 1 then quickSortRects n l
          else some l) = some out ∧ out.Perm l ∧ out.Pairwise (fun a b => ¬ boxLt b a) := by
        intro l hl
        by_cases h1 : l.length > 1
        · rw [if_pos h1]
          exact ih l (by omega) hl
        · rw [if_neg h1]
          refine ⟨l,rfl,List.Perm.refl _,?_⟩
          match l with
          | [] => simp
          | [r] => simp
          | _::_::_ => simp at h1
      obtain ⟨right,hr₁,hr₂,hr₃⟩ := hsort (rects₃.drop (j+1)) (by rw [List.length_drop]; omega)
      obtain ⟨left,hl₁,hl₂,hl₃⟩ := hsort (rects₃.take j) (by rw [List.length_take]; omega)
      rw [List.length_drop,show rects₃.length-(j+1) = rects₃.length-j-1 by omega] at hr₁
      rw [List.length_take,min_eq_left (by omega)] at hl₁
      rw [hr₁]
      simp only [Option.bind_some]
      rw [hl₁]
      refine ⟨left ++ p::right,rfl,?_,?_⟩
      · have hpm : (left ++ p::right).Perm rects₃ := by
          conv_rhs => rw [hsplit]
          exact hl₂.append (hr₂.cons p)
        exact ((hpm.trans hperm₃).trans hperm₂).trans hperm₁
      · exact sorted_around hl₃ hr₃ (fun r hr => hleft r (hl₂.mem_iff.mp hr))
          (fun r hr => hright r (hr₂.mem_iff.mp hr))

/-- Every array of at least one box is sorted by the top sides and then by the left sides, with accesses inside only; no more
rounds are needed than there are boxes. -/
theorem quickSortRects_sorted (rects : List Box) (hpos : 0 < rects.length) (n : ℕ) (hn : rects.length ≤ n) :
    ∃ out, quickSortRects n rects = some out ∧ out.Perm rects ∧
      out.Pairwise fun a b => a.y1 < b.y1 ∨ a.y1 = b.y1 ∧ a.x1 ≤ b.x1 := by
  obtain ⟨out,hsort,hperm,hord⟩ := quickSortRects_spec n rects hpos hn
  refine ⟨out,hsort,hperm,hord.imp fun {a b} hab => ?_⟩
  unfold boxLt at hab
  omega

/-- Equal tops. -/
theorem quickSortRects_sorted_three : ∃ out, quickSortRects 3 [⟨5,0,6,1⟩,⟨1,0,2,1⟩,⟨3,-1,4,0⟩] = some out ∧
    out.Perm [⟨5,0,6,1⟩,⟨1,0,2,1⟩,⟨3,-1,4,0⟩] ∧ out.Pairwise fun a b => a.y1 < b.y1 ∨ a.y1 = b.y1 ∧ a.x1 ≤ b.x1 :=
  quickSortRects_sorted [⟨5,0,6,1⟩,⟨1,0,2,1⟩,⟨3,-1,4,0⟩] (by decide) 3 (by decide)

end Xlibre.Dix.Region
