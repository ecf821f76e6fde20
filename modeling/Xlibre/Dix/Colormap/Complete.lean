import Xlibre.Dix.Colormap.Reach

/-! `AllocCP` finds planes whenever there are some, among the masks it is allowed to return. -/
namespace Xlibre.Dix.Colormap

open Xlibre.Lib.Submasks Xlibre.Lib.Tally

variable (ent : ℕ → Entry)

/-- There are `count` base pixels apart from the mask whose combinations are free cells of the table. -/
def Admits (size mask count : ℕ) : Prop :=
  ∃ bases : Finset ℕ, bases.card = count ∧
    ∀ b ∈ bases, Apart b mask ∧ ∀ s, Within s mask → b+s < size ∧ (ent (b+s)).refcnt = 0

def Consecutive (mask : ℕ) : Prop := ∃ p k, mask = (2^p-1)*2^k

/-- A mask that a request may get: so many of the visual's planes, and consecutive ones if asked for. -/
structure Eligible (v : Visual) (planes : ℕ) (contig : Bool) (mask : ℕ) : Prop where
  lt : mask < 2^v.nplanes
  popEq : pop mask = planes
  consecutive : contig = true → Consecutive mask

section Masks

lemma block_lt {d p k : ℕ} (h : k+p ≤ d) : (2^p-1)*2^k < 2^d := by
  calc (2^p-1)*2^k < 2^p*2^k := Nat.mul_lt_mul_of_pos_right (by have := Nat.two_pow_pos p; omega) (Nat.two_pow_pos k)
    _ = 2^(p+k) := (Nat.pow_add 2 p k).symm
    _ ≤ 2^d := Nat.pow_le_pow_right (by omega) (by omega)

lemma le_of_block_lt {d p k : ℕ} (hp : 0 < p) (h : (2^p-1)*2^k < 2^d) : k+p ≤ d := by
  by_contra hlt
  have hhigh : 2^(p-1)*2^k ≤ (2^p-1)*2^k := by
    refine Nat.mul_le_mul_right _ ?_
    have : 2^p = 2*2^(p-1) := by
      rw [← pow_succ',Nat.sub_add_cancel hp]
    have := Nat.two_pow_pos (p-1)
    omega
  have hpow : 2^d ≤ 2^(p-1)*2^k := by
    rw [← pow_add]
    exact Nat.pow_le_pow_right (by omega) (by omega)
  omega

lemma Consecutive.block {mask p : ℕ} (h : Consecutive mask) (hp : pop mask = p) : ∃ k, mask = (2^p-1)*2^k := by
  obtain ⟨p',k,rfl⟩ := h
  rw [pop_two_pow_mul,pop_ones] at hp
  exact ⟨k,by rw [hp]⟩

lemma block_or_between {d p mask : ℕ} (hp : 2 ≤ p) (hd : p < d) (hlt : mask < 2^d) (hpop : pop mask = p) :
    (∃ k, mask = (2^p-1)*2^k) ∨
      (3*2^(p-1)-1 ≤ mask ∧ mask ≤ (2^(p-1)-1) <<< (d-p+1)+1 <<< (d-p-1)) := by
  obtain ⟨p,rfl⟩ := Nat.exists_eq_add_of_le' (show 1 ≤ p by omega)
  obtain ⟨q,rfl⟩ := Nat.exists_eq_add_of_le (show p+1+1 ≤ d by omega)
  rw [Nat.add_sub_cancel,Nat.shiftLeft_eq,Nat.shiftLeft_eq,Nat.one_mul,show p+1+1+q-(p+1)+1 = q+2 by omega,
    show p+1+1+q-(p+1)-1 = q by omega]
  rcases Nat.lt_or_ge mask (3*2^p-1) with hlow | hge
  · exact .inl ⟨0,by rw [eq_ones_of_lt hpop hlow,pow_zero,Nat.mul_one]⟩
  · rcases Nat.lt_or_ge ((2^p-1)*2^(q+2)+2^q) mask with hhigh | hle
    · refine .inl ⟨q+1,eq_block_of_gt hpop ?_ hhigh⟩
      rwa [show p+1+(q+1) = p+1+1+q by omega]
    · exact .inr ⟨hge,hle⟩

end Masks

section Blocks

lemma Admits.fits {size p k count : ℕ} (h : Admits ent size ((2^p-1)*2^k) count) (hmask : (2^p-1)*2^k < size) :
    Fits ent size p k count := by
  obtain ⟨bases,rfl,hbases⟩ := h
  refine ⟨hmask,Finset.card_le_card fun b hb => ?_⟩
  obtain ⟨hap,hfree⟩ := hbases b hb
  refine (mem_goods ent).mpr ⟨Nat.zero_le b,(hfree _ fun _ hi => hi).1,(apart_block b p k).mp hap,fun j hj => ?_⟩
  refine (hfree (j*2^k) fun i hi => ?_).2
  -- The multiples of the lowest bit are submasks.
  rw [Nat.mul_comm,Nat.testBit_two_pow_mul] at hi ⊢
  simp only [Bool.and_eq_true,decide_eq_true_eq] at hi ⊢
  refine ⟨hi.1,?_⟩
  rw [Nat.testBit_two_pow_sub_one,decide_eq_true_iff]
  by_contra hge
  have := Nat.testBit_lt_two_pow (lt_of_lt_of_le hj (Nat.pow_le_pow_right (by omega) (not_lt.mp hge)))
  rw [this] at hi
  exact absurd hi.2 (by decide)

lemma contigPlanes_mask {lim entries count p : ℕ} (n k : ℕ) {r : CPResult}
    (hmask : ∀ i < n, (2^p-1)*2^(k+i) < 2^31) (hbase : ∀ i < n, 2^(k+i) < 2^31)
    (h : contigPlanes lim entries count ent n ((2^p-1)*2^k) (2^k) = some (some r)) :
    ∃ i < n, r.mask = (2^p-1)*2^(k+i) := by
  induction n generalizing k with
  | zero => simp [contigPlanes] at h
  | succ n ih =>
    rw [contigPlanes] at h
    obtain ⟨o,ho,h⟩ := Option.bind_eq_some_iff.mp h
    cases o with
    | some found =>
      obtain ⟨m,hm,h⟩ := Option.bind_eq_some_iff.mp h
      obtain rfl := Option.some.inj (Option.some.inj h)
      exact ⟨0,Nat.succ_pos n,rfl⟩
    | none =>
      have h₁ := hmask 0 (Nat.succ_pos n)
      have h₂ := hbase 0 (Nat.succ_pos n)
      rw [Nat.add_zero] at h₁ h₂
      simp only at h
      rw [wrap_of_lt (by omega),wrap_of_lt (by omega),show (2^p-1)*2^k+(2^p-1)*2^k = (2^p-1)*2^(k+1) by ring,
        show 2^k+2^k = 2^(k+1) by ring] at h
      obtain ⟨i,hi,hr⟩ := ih (k+1)
        (fun i hi => by
          have := hmask (i+1) (by omega)
          rwa [show k+(i+1) = k+1+i by omega] at this)
        (fun i hi => by
          have := hbase (i+1) (by omega)
          rwa [show k+(i+1) = k+1+i by omega] at this) h
      exact ⟨i+1,by omega,by rw [hr,show k+1+i = k+(i+1) by omega]⟩

end Blocks

section Combos

def goodCombo (mask b : ℕ) : Prop := b &&& mask = 0 ∧ ∀ s ∈ submasks 32 mask, (ent (b+s)).refcnt = 0

instance (mask b : ℕ) : Decidable (goodCombo ent mask b) := by
  unfold goodCombo
  infer_instance

/-- Those of them from `x` on whose combinations are in the table. -/
def goodCombos (size mask x : ℕ) : Finset ℕ := (Finset.Ico x (size-mask)).filter fun b => goodCombo ent mask b

lemma goodCombos_step {size mask x : ℕ} (hx : x < size-mask) :
    (goodCombos ent size mask x).card = (goodCombos ent size mask (x+1)).card + if goodCombo ent mask x then 1 else 0 := by
  have hinsert : Finset.Ico x (size-mask) = insert x (Finset.Ico (x+1) (size-mask)) := by
    ext b
    rw [Finset.mem_insert,Finset.mem_Ico,Finset.mem_Ico]
    omega
  have hnot : x ∉ goodCombos ent size mask (x+1) := by
    simp [goodCombos]
  conv_lhs => rw [goodCombos,hinsert,Finset.filter_insert]
  split
  · exact Finset.card_insert_of_notMem hnot
  · rfl

lemma Admits.le_goodCombos {size mask count : ℕ} (h : Admits ent size mask count) (hmask : mask < 2^32) :
    count ≤ (goodCombos ent size mask 0).card := by
  obtain ⟨bases,rfl,hbases⟩ := h
  refine Finset.card_le_card fun b hb => ?_
  obtain ⟨hap,hfree⟩ := hbases b hb
  have hlast := (hfree mask fun _ hi => hi).1
  rw [goodCombos,Finset.mem_filter,Finset.mem_Ico]
  exact ⟨by omega,(apart_iff_and b mask).mp hap,fun s hs => (hfree s ((mem_submasks hmask).mp hs)).2⟩

variable {lim : ℕ} (hlim : lim ≤ 2^16)

include hlim in
lemma comboSearch_none {mask count : ℕ} (hmask : mask < lim) (fuel pixel : ℕ) (found : List ℕ) (hcount : found.length < count)
    (h : comboSearch lim ent mask (lim-mask) count fuel pixel found = some none) :
    found.length + (goodCombos ent lim mask pixel).card < count := by
  induction fuel generalizing pixel found with
  | zero => simp [comboSearch] at h
  | succ fuel ih =>
    rw [comboSearch] at h
    by_cases hlt : pixel < lim-mask
    · rw [if_pos hlt] at h
      rw [goodCombos_step ent hlt]
      by_cases hand : pixel &&& mask ≠ 0
      · rw [if_pos hand] at h
        have hbad : ¬goodCombo ent mask pixel := fun hg => hand hg.1
        rw [if_neg hbad,Nat.add_zero]
        exact ih (pixel+1) found hcount h
      · rw [if_neg hand,combosFree_eq hlim ent pixel _ fun s hs => by
          have := ((mem_submasks (show mask < 2^32 by omega)).mp hs).le
          omega] at h
        simp only [Option.bind_eq_bind,Option.bind_some] at h
        by_cases hall : ∀ s ∈ submasks 32 mask, (ent (pixel+s)).refcnt = 0
        · have hgood : goodCombo ent mask pixel := ⟨by simpa using hand,hall⟩
          rw [decide_eq_true hall] at h
          simp only [if_true,true_and,List.length_append,List.length_singleton] at h
          rw [if_pos hgood]
          by_cases hdone : found.length+1 = count
          · rw [if_pos hdone] at h
            cases h
          · rw [if_neg hdone] at h
            have hmore := ih (pixel+1) (found ++ [pixel]) (by rw [List.length_append,List.length_singleton]; omega) h
            rw [List.length_append,List.length_singleton] at hmore
            omega
        · have hbad : ¬goodCombo ent mask pixel := fun hg => hall hg.2
          rw [decide_eq_false hall] at h
          simp only [Bool.false_eq_true,if_false,false_and] at h
          rw [if_neg hbad,Nat.add_zero]
          exact ih (pixel+1) found hcount h
    · have hempty : goodCombos ent lim mask pixel = ∅ := by
        rw [goodCombos,Finset.Ico_eq_empty_of_le (by omega),Finset.filter_empty]
      rw [hempty,Finset.card_empty]
      omega

include hlim in
lemma comboPlanes_none {planes count : ℕ} (hcount : 0 < count) (fuel mask : ℕ) (hin : mask+fuel ≤ lim)
    (h : comboPlanes lim lim count planes ent fuel mask = some none) :
    ∀ m, mask ≤ m → m < mask+fuel → pop m = planes → ¬Admits ent lim m count := by
  induction fuel generalizing mask with
  | zero => omega
  | succ fuel ih =>
    rw [comboPlanes] at h
    intro m hm hm' hpop hadmits
    by_cases hskip : hakmem mask ≠ planes
    · rw [if_pos hskip] at h
      rcases Nat.eq_or_lt_of_le hm with rfl | hlt
      · rw [hakmem_eq_pop mask (by omega)] at hskip
        exact hskip hpop
      · exact ih (mask+1) (by omega) h m hlt (by omega) hpop hadmits
    · rw [if_neg hskip] at h
      have hwrap : wrap (lim+2^32-mask) = lim-mask := by
        unfold wrap
        omega
      simp only [hwrap] at h
      obtain ⟨o,ho,h⟩ := Option.bind_eq_some_iff.mp h
      cases o with
      | some found =>
        obtain ⟨_,_,h⟩ := Option.bind_eq_some_iff.mp h
        cases h
      | none =>
        rcases Nat.eq_or_lt_of_le hm with rfl | hlt
        · have hfew := comboSearch_none ent hlim (by omega) _ 0 [] (by simpa using hcount) ho
          have hmany := hadmits.le_goodCombos ent (by omega)
          rw [List.length_nil] at hfew
          omega
        · exact ih (mask+1) (by omega) h m hlt (by omega) hpop hadmits

lemma comboPlanes_mask {lim entries planes count : ℕ} (fuel mask : ℕ) {r : CPResult}
    (h : comboPlanes lim entries count planes ent fuel mask = some (some r)) : mask ≤ r.mask ∧ r.mask < mask+fuel := by
  induction fuel generalizing mask with
  | zero => simp [comboPlanes] at h
  | succ fuel ih =>
    rw [comboPlanes] at h
    split at h
    · have := ih (mask+1) h
      omega
    · obtain ⟨o,ho,h⟩ := Option.bind_eq_some_iff.mp h
      cases o with
      | some found =>
        obtain ⟨m,hm,h⟩ := Option.bind_eq_some_iff.mp h
        obtain rfl := Option.some.inj (Option.some.inj h)
        exact ⟨le_rfl,by simp only; omega⟩
      | none =>
        have := ih (mask+1) h
        omega

end Combos

section AllocCP
variable {ent} {v : Visual} {count planes : ℕ} {contig : Bool}

lemma allocCP_loops {lim : ℕ} (hp : 0 < planes) (hd : planes ≤ v.nplanes) {o : Option CPResult}
    (h : allocCP lim v ent count planes contig = some o) :
    ∃ o', contigPlanes lim v.colormapEntries count ent (v.nplanes-(planes-1)) (wrap (2^planes-1)) 1 = some o' ∧
      (o' = o ∧ o.isSome = true ∨ o' = none ∧
        ((contig = true ∨ planes = 1 ∨ v.nplanes < 3) ∧ o = none ∨
          ¬(contig = true ∨ planes = 1 ∨ v.nplanes < 3) ∧ ∃ final, finalMask v.nplanes planes = some final ∧
            comboPlanes lim v.colormapEntries count planes ent (final+1-wrap (3*2^(planes-1)-1)) (wrap (3*2^(planes-1)-1)) =
              some o)) := by
  rw [allocCP,if_neg (by omega),if_neg (by omega)] at h
  obtain ⟨o',ho',h⟩ := Option.bind_eq_some_iff.mp h
  refine ⟨o',ho',?_⟩
  cases o' with
  | some r =>
    obtain rfl := Option.some.inj h
    exact .inl ⟨rfl,rfl⟩
  | none =>
    refine .inr ⟨rfl,?_⟩
    simp only at h
    split at h
    · next hstop => exact .inl ⟨hstop,(Option.some.inj h).symm⟩
    · next hstop =>
      obtain ⟨final,hfinal,h⟩ := Option.bind_eq_some_iff.mp h
      exact .inr ⟨hstop,final,hfinal,h⟩

lemma contigPlanes_isSome (hv : v.colormapEntries = 2^v.nplanes) (hshort : v.colormapEntries < 2^15) (hcount : 0 < count)
    (hp : 0 < planes) {k : ℕ} (hk : k+planes ≤ v.nplanes)
    (hadmits : Admits ent v.colormapEntries ((2^planes-1)*2^k) count) {o : Option CPResult}
    (ho : contigPlanes v.colormapEntries v.colormapEntries count ent (v.nplanes-(planes-1)) (wrap (2^planes-1)) 1 = some o) :
    o.isSome = true := by
  have hsafe : ∀ i ≤ k, (2^planes-1)*2^(0+i) < v.colormapEntries := fun i hi => by
    rw [hv]
    exact block_lt (by omega)
  have hfirst : wrap (2^planes-1) = (2^planes-1)*2^0 := by
    have := hsafe 0 (Nat.zero_le k)
    rw [pow_zero,Nat.mul_one] at this ⊢
    exact wrap_of_lt (by omega)
  have hfits : Fits ent v.colormapEntries planes (0+k) count := by
    rw [Nat.zero_add]
    exact hadmits.fits ent (by simpa using hsafe k le_rfl)
  obtain ⟨o',h₁,-,h₃⟩ := contigPlanes_spec (show v.colormapEntries ≤ 2^16 by omega) ent v.colormapEntries planes
    v.colormapEntries count hp le_rfl (by omega) hcount k (v.nplanes-(planes-1)) 0
    (fun i hi => ⟨(hsafe i (by omega)).le,le_rfl⟩) (.inr ⟨by omega,le_rfl,hfits⟩)
  rw [← hfirst,pow_zero] at h₁
  obtain rfl := Option.some.inj (ho.symm.trans h₁)
  exact h₃ (by omega)

lemma first_le_pow {d : ℕ} (hp : 0 < planes) (hd : planes < d) : 3*2^(planes-1)-1 ≤ 2^d := by
  have h₁ : 2^(planes-1)*4 = 2^(planes+1) := by
    rw [show planes+1 = (planes-1)+2 by omega,pow_add]
    rfl
  have h₂ : 2^(planes+1) ≤ 2^d := Nat.pow_le_pow_right (by omega) (by omega)
  omega

lemma final_lt_pow {d : ℕ} (hp : 0 < planes) (hd : planes < d) :
    (2^(planes-1)-1) <<< (d-planes+1)+1 <<< (d-planes-1) < 2^d := by
  rw [Nat.shiftLeft_eq,Nat.shiftLeft_eq,Nat.one_mul,Nat.sub_mul,Nat.one_mul,← Nat.pow_add,
    show planes-1+(d-planes+1) = d by omega]
  have h₁ : 2^(d-planes-1) < 2^(d-planes+1) := Nat.pow_lt_pow_right (by omega) (by omega)
  have h₂ : 2^(d-planes+1) ≤ 2^d := Nat.pow_le_pow_right (by omega) (by omega)
  omega

lemma finalMask_eq (hv : v.colormapEntries = 2^v.nplanes) (hshort : v.colormapEntries < 2^15) (hp : 0 < planes) {final : ℕ}
    (h : finalMask v.nplanes planes = some final) :
    planes < v.nplanes ∧ final = (2^(planes-1)-1) <<< (v.nplanes-planes+1)+1 <<< (v.nplanes-planes-1) ∧
      wrap (3*2^(planes-1)-1) = 3*2^(planes-1)-1 := by
  unfold finalMask at h
  split at h
  · next hd =>
    obtain rfl := Option.some.inj h
    have h₁ := first_le_pow hp hd
    have h₂ := final_lt_pow hp hd
    exact ⟨hd,wrap_of_lt (by omega),wrap_of_lt (by omega)⟩
  · cases h

lemma eligible_of_success (hv : v.colormapEntries = 2^v.nplanes) (hshort : v.colormapEntries < 2^15) (hp : 0 < planes)
    (hd : planes ≤ v.nplanes) {r : CPResult} (hpop : pop r.mask = planes)
    (h : allocCP v.colormapEntries v ent count planes contig = some (some r)) : Eligible v planes contig r.mask := by
  obtain ⟨o',ho',⟨rfl,-⟩ | ⟨rfl,⟨-,hnone⟩ | ⟨hgo,final,hfinal,hr⟩⟩⟩ := allocCP_loops hp hd h
  · have hblock : ∀ i < v.nplanes-(planes-1), (2^planes-1)*2^(0+i) < 2^v.nplanes := fun i hi => block_lt (by omega)
    have hbase : ∀ i < v.nplanes-(planes-1), 2^(0+i) ≤ 2^v.nplanes := fun i hi => Nat.pow_le_pow_right (by omega) (by omega)
    have hfirst : wrap (2^planes-1) = (2^planes-1)*2^0 := by
      have := hblock 0 (by omega)
      rw [pow_zero,Nat.mul_one] at this ⊢
      exact wrap_of_lt (by omega)
    rw [hfirst,← pow_zero 2] at ho'
    obtain ⟨i,hi,hmask⟩ := contigPlanes_mask ent _ 0
      (fun i hi => by have := hblock i hi; omega) (fun i hi => by have := hbase i hi; omega) ho'
    exact ⟨hmask ▸ hblock i hi,hpop,fun _ => ⟨planes,0+i,hmask⟩⟩
  · cases hnone
  · obtain ⟨hlt,rfl,hwrap⟩ := finalMask_eq hv hshort hp hfinal
    have hfin := final_lt_pow hp hlt
    obtain ⟨hlow,hhigh⟩ := comboPlanes_mask ent _ _ hr
    exact ⟨by omega,hpop,fun hc => absurd (.inl hc) hgo⟩

lemma none_of_failure (hv : v.colormapEntries = 2^v.nplanes) (hshort : v.colormapEntries < 2^15) (hcount : 0 < count)
    (hp : 0 < planes) (hd : planes ≤ v.nplanes) (h : allocCP v.colormapEntries v ent count planes contig = some none)
    {mask : ℕ} (hmask : Eligible v planes contig mask) : ¬Admits ent v.colormapEntries mask count := by
  obtain ⟨o',ho',⟨-,hsome⟩ | ⟨rfl,hcases⟩⟩ := allocCP_loops hp hd h
  · cases hsome
  -- The first loop has not missed any block of planes.
  have hblock : ∀ k, mask = (2^planes-1)*2^k → ¬Admits ent v.colormapEntries mask count := by
    rintro k rfl hadmits
    have hk := le_of_block_lt hp hmask.lt
    have hsome := contigPlanes_isSome hv hshort hcount hp hk hadmits ho'
    cases hsome
  rcases hcases with ⟨hstop,-⟩ | ⟨hgo,final,hfinal,hr⟩
  · have hall : ∃ k, mask = (2^planes-1)*2^k := by
      rcases hstop with hc | rfl | hsmall
      · exact (hmask.consecutive hc).block hmask.popEq
      · obtain ⟨k,rfl⟩ := pop_eq_one hmask.popEq
        exact ⟨k,by simp⟩
      · -- One or two planes of at most two: one bit, or all of them.
        rcases Nat.lt_or_ge 1 planes with htwo | hone
        · have hle := ones_le mask
          have hlt := hmask.lt
          rw [hmask.popEq] at hle
          rw [show v.nplanes = planes by omega] at hlt
          exact ⟨0,by rw [pow_zero,Nat.mul_one]; omega⟩
        · obtain ⟨k,rfl⟩ := pop_eq_one (hmask.popEq.trans (show planes = 1 by omega))
          exact ⟨k,by rw [show planes = 1 by omega]; simp⟩
    obtain ⟨k,hk⟩ := hall
    exact hblock k hk
  · obtain ⟨hlt,rfl,hwrap⟩ := finalMask_eq hv hshort hp hfinal
    have hfin := final_lt_pow hp hlt
    have hfst := first_le_pow hp hlt
    rw [hwrap] at hr
    rcases block_or_between (by omega) hlt hmask.lt hmask.popEq with ⟨k,hk⟩ | ⟨hlow,hhigh⟩
    · exact hblock k hk
    · exact comboPlanes_none ent (by omega) hcount _ _ (by omega) hr mask hlow (by omega) hmask.popEq

end AllocCP

variable {n : ℕ} {pmap : ColormapRec n}

/-- `AllocCP` on a `PseudoColor` map with the right counter. Its caller has checked that so many cells are free, which the
search relies on without planes and with all of them. -/
theorem allocCP_exact (hok : VisualOk pmap.visual) (hpseudo : pmap.visual.cls.direct = false)
    (hfree : pmap.red.free = tally pmap.visual.colormapEntries pmap.red.cells isFree) {count planes : ℕ} (contig : Bool)
    (hcount : 1 ≤ count)
    (hcheck : planes = 0 ∨ (planes = pmap.visual.nplanes ∧ contig = false ∧ 3 ≤ pmap.visual.nplanes) →
      (count*2^planes : ℕ) ≤ pmap.red.free) :
    let run := allocCP pmap.visual.colormapEntries pmap.visual pmap.red.cells count planes contig
    (∃ r, run = some (some r) ∧ Picked pmap.visual.colormapEntries pmap.red.cells count planes r ∧
      Eligible pmap.visual planes contig r.mask) ∨
    (run = some none ∧ ∀ mask, Eligible pmap.visual planes contig mask →
      ¬Admits pmap.red.cells pmap.visual.colormapEntries mask count) := by
  have hv := hok.pseudo hpseudo
  have hcells : planes = 0 ∨ (planes = pmap.visual.nplanes ∧ contig = false ∧ 3 ≤ pmap.visual.nplanes) →
      count*2^planes ≤ tally pmap.visual.colormapEntries pmap.red.cells isFree := fun h => by
    have := hcheck h
    rw [hfree] at this
    exact_mod_cast this
  obtain ⟨o,ho,hpicked⟩ := allocCP_pseudo pmap.visual contig hv hok.short hcount hcells
  rcases Nat.eq_zero_or_pos planes with rfl | hp
  · obtain ⟨r,hr,hpick⟩ := allocCP_plain pmap.visual contig le_rfl (by simpa using hcells (.inl rfl))
    refine .inl ⟨r,hr,hpick,?_,hpick.popEq,fun _ => ⟨0,0,?_⟩⟩
    · rw [pop_eq_zero hpick.popEq]
      exact Nat.two_pow_pos _
    · rw [pop_eq_zero hpick.popEq]
      rfl
  · rcases Nat.lt_or_ge pmap.visual.nplanes planes with hbig | hd
    · refine .inr ⟨by rw [allocCP,if_neg (by omega),if_pos hbig],fun mask hmask _ => ?_⟩
      have hpop := pop_complement hmask.lt
      rw [hmask.popEq] at hpop
      omega
    · cases o with
      | some r => exact .inl ⟨r,ho,hpicked r rfl,eligible_of_success hv hok.short hp hd (hpicked r rfl).popEq ho⟩
      | none => exact .inr ⟨ho,fun mask hmask => none_of_failure hv hok.short hcount hp hd ho hmask⟩

def fourCells : ColormapRec 1 := dixCreateColormap ⟨.pseudoColor,4,2,0,0,0,0,0,0⟩ false ⟨0,Nat.one_pos⟩

lemma fourCells_ok : VisualOk fourCells.visual := by
  have hno : VisualClass.direct .pseudoColor ≠ true := by decide
  exact ⟨rfl,by decide,fun _ => rfl,fun h => absurd h hno,fun h => absurd h hno,fun h => absurd h hno,fun h => absurd h hno,
    fun h => absurd h hno,fun h => absurd h hno⟩

/-- Two base pixels and one plane take all four cells. -/
theorem allocCP_exact_fourCells : ∃ r, allocCP 4 fourCells.visual fourCells.red.cells 2 1 true = some (some r) ∧
    Picked 4 fourCells.red.cells 2 1 r ∧ Eligible fourCells.visual 1 true r.mask := by
  have hfree : fourCells.red.free = tally fourCells.visual.colormapEntries fourCells.red.cells isFree := by decide +kernel
  have hsome : ((allocCP 4 fourCells.visual fourCells.red.cells 2 1 true).map Option.isSome) = some true := by decide +kernel
  have hcheck : ((2*2^1 : ℕ) : ℤ) ≤ fourCells.red.free := by decide +kernel
  rcases allocCP_exact fourCells_ok rfl hfree true (show 1 ≤ 2 by decide) (fun _ => hcheck) with hr | ⟨hnone,-⟩
  · exact hr
  · have hnone : allocCP 4 fourCells.visual fourCells.red.cells 2 1 true = some none := hnone
    rw [hnone] at hsome
    exact absurd hsome (by decide)

end Xlibre.Dix.Colormap
