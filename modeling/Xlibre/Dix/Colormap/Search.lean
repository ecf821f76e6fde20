import Xlibre.Dix.Colormap.Masks
import Xlibre.Lib.Tally

/-! What `AllocCP` picks, and that it stays inside the table while it looks. -/
namespace Xlibre.Dix.Colormap

open Xlibre.Lib.Submasks Xlibre.Lib.Tally

/-- A cell that `AllocCP` may take. -/
def isFree (e : Entry) : Bool := e.refcnt = 0

/-- The table after taking these cells. -/
def taken (ent : ℕ → Entry) (l : List ℕ) : ℕ → Entry := fun i =>
  if i ∈ l then { ent i with refcnt := allocPrivate, fShared := false } else ent i

lemma taken_taken (ent : ℕ → Entry) (l l' : List ℕ) : taken (taken ent l) l' = taken ent (l ++ l') := by
  funext i
  by_cases h : i ∈ l <;> by_cases h' : i ∈ l' <;> simp [taken,h,h']

lemma taken_congr (ent : ℕ → Entry) {l l' : List ℕ} (h : ∀ i, i ∈ l ↔ i ∈ l') : taken ent l = taken ent l' := by
  funext i
  simp [taken,h i]

@[simp] lemma taken_nil (ent : ℕ → Entry) : taken ent [] = ent := by
  funext i
  simp [taken]

lemma takeCell_eq {lim i : ℕ} (ent : ℕ → Entry) (h : i < lim) : takeCell lim ent i = some (taken ent [i]) := by
  rw [takeCell,if_pos h]
  congr 1
  funext j
  by_cases hj : j = i
  · simp [taken,hj]
  · simp [taken,hj]

lemma cellAt_eq {lim i : ℕ} (ent : ℕ → Entry) (h : i < lim) : cellAt lim ent i = some (ent i) := if_pos h

lemma wrap_of_lt {x : ℕ} (h : x < 2^32) : wrap x = x := Nat.mod_eq_of_lt h

/-- What `AllocCP` returns: `count` base pixels apart from a mask of `planes` bits, with all their
combinations, which were free cells below `size` and are taken now. -/
structure Picked (size : ℕ) (ent : ℕ → Entry) (count planes : ℕ) (r : CPResult) : Prop where
  lt : r.mask < 2^32
  popEq : pop r.mask = planes
  length : (r.pixels.take count).length = count
  nodup : (r.pixels.take count).Nodup
  apart : ∀ b ∈ r.pixels.take count, Apart b r.mask
  perm : r.pixels.Perm ((r.pixels.take count).flatMap fun b => (submasks 32 r.mask).map (b+·))
  free : ∀ p ∈ r.pixels, p < size ∧ (ent p).refcnt = 0
  ent_eq : r.ent = taken ent r.pixels

lemma nodup_combos {mask : ℕ} (hmask : mask < 2^32) {bases : List ℕ} (hnd : bases.Nodup)
    (hap : ∀ b ∈ bases, Apart b mask) : (bases.flatMap fun b => (submasks 32 mask).map (b+·)).Nodup := by
  refine List.nodup_flatMap.mpr ⟨fun b _ => (nodup_submasks hmask).map fun x y h => by omega,?_⟩
  refine hnd.imp_of_mem fun ha hb hne => ?_
  intro x hxa hxb
  obtain ⟨s,hs,rfl⟩ := List.mem_map.mp hxa
  obtain ⟨t,ht,heq⟩ := List.mem_map.mp hxb
  rw [mem_submasks hmask] at hs ht
  -- Off the mask the two sums are their base pixels.
  have hoff : ∀ {b s}, Apart b mask → Within s mask → andNot (b+s) mask = b := by
    intro b s hb hs
    rw [Apart.add_eq_or (hb.mono (fun _ h => h) hs)]
    apply Nat.eq_of_testBit_eq
    intro i
    have h₁ := hb i
    have h₂ := hs i
    rw [testBit_andNot,Nat.testBit_or]
    cases hbi : b.testBit i <;> cases hsi : s.testBit i <;> cases hmi : mask.testBit i <;> simp_all
  apply hne
  rw [← hoff (hap _ ha) hs,← hoff (hap _ hb) ht,heq]

namespace Picked

variable {size count planes : ℕ} {ent : ℕ → Entry} {r : CPResult} (h : Picked size ent count planes r)

include h

lemma nodup_pixels : r.pixels.Nodup := h.perm.nodup_iff.mpr (nodup_combos h.lt h.nodup h.apart)

lemma length_pixels : r.pixels.length = count*2^planes := by
  rw [h.perm.length_eq,List.length_flatMap]
  simp only [List.length_map,length_submasks h.lt,h.popEq]
  rw [List.map_const',List.sum_replicate,Nat.nsmul_eq_mul,h.length]

end Picked

section Mark

variable {lim : ℕ} (hlim : lim ≤ 2^16)

lemma submasks_eq_cons (mask : ℕ) : submasks 32 mask = 0::(submasks 32 mask).tail := by
  cases mask with
  | zero => rfl
  | succ m =>
    rw [submasks,countFrom]
    split_ifs <;> rfl

include hlim in
lemma markCombos_eq (p : ℕ) (l : List ℕ) (ent : ℕ → Entry) (h : ∀ s ∈ l, p+s < lim) :
    markCombos lim p l ent = some (taken ent (l.map (p+·))) := by
  induction l generalizing ent with
  | nil => simp [markCombos]
  | cons s l ih =>
    have hs := h s (by simp)
    rw [markCombos,wrap_of_lt (by omega),takeCell_eq ent hs,Option.bind_eq_bind,Option.bind_some,
      ih _ fun t ht => h t (by simp [ht]),taken_taken]
    rfl

include hlim in
lemma markAllCombos_eq (mask : ℕ) (ps : List ℕ) (ent : ℕ → Entry)
    (h : ∀ p ∈ ps, ∀ s ∈ submasks 32 mask, p+s < lim) :
    markAllCombos lim mask ps ent =
      some (ps.flatMap fun p => (submasks 32 mask).tail.map (p+·),
        taken ent (ps.flatMap fun p => (submasks 32 mask).map (p+·))) := by
  induction ps generalizing ent with
  | nil => simp [markAllCombos]
  | cons p ps ih =>
    have hp := h p (by simp)
    have hmap : (submasks 32 mask).tail.map (fun bits => wrap (p+bits)) = (submasks 32 mask).tail.map (p+·) := by
      apply List.map_congr_left
      intro s hs
      have := hp s (List.mem_of_mem_tail hs)
      exact wrap_of_lt (by omega)
    rw [markAllCombos,markCombos_eq hlim p _ ent hp,Option.bind_eq_bind,Option.bind_some,
      ih _ fun q hq => h q (by simp [hq])]
    simp only [Option.bind_eq_bind,Option.bind_some,hmap,taken_taken,List.flatMap_cons]

include hlim in
lemma markBlock_eq (base : ℕ) (k pixel fuel : ℕ) (ent : ℕ → Entry) (hb : 0 < base) (hf : k < fuel)
    (h : pixel+k*base < lim) :
    markBlock lim base (pixel+k*base) fuel pixel ent =
      some ((List.range k).map (fun j => pixel+(j+1)*base),
        taken ent ((List.range (k+1)).map (fun j => pixel+j*base))) := by
  induction k generalizing pixel fuel ent with
  | zero =>
    cases fuel with
    | zero => omega
    | succ fuel => simp [markBlock,takeCell_eq ent (show pixel < lim by omega)]
  | succ k ih =>
    cases fuel with
    | zero => omega
    | succ fuel =>
      have hk : (k+1)*base = base+k*base := by ring
      have hne : ¬ pixel = pixel+(k+1)*base := by omega
      have hmap : (List.range (k+1)).map (fun j => pixel+(j+1)*base) =
          (pixel+base)::(List.range k).map (fun j => pixel+base+(j+1)*base) := by
        rw [List.range_succ_eq_map,List.map_cons,List.map_map]
        congr 1
        · ring
        · apply List.map_congr_left
          intro j _
          simp only [Function.comp,Nat.succ_eq_add_one]
          ring
      have htaken : (List.range (k+1+1)).map (fun j => pixel+j*base) =
          pixel::(List.range (k+1)).map (fun j => pixel+base+j*base) := by
        rw [List.range_succ_eq_map,List.map_cons,List.map_map]
        congr 1
        · ring
        · apply List.map_congr_left
          intro j _
          simp only [Function.comp,Nat.succ_eq_add_one]
          ring
      rw [markBlock,takeCell_eq ent (by omega)]
      simp only [Option.bind_eq_bind,Option.bind_some]
      rw [if_neg hne,wrap_of_lt (by omega),show pixel+(k+1)*base = pixel+base+k*base by omega,
        ih (pixel+base) fuel _ (by omega) (by omega)]
      simp only [Option.bind_some,taken_taken]
      rw [hmap,htaken]
      rfl

lemma block_eq_submasks {p k : ℕ} (hmask : (2^p-1)*2^k < 2^32) (b : ℕ) :
    (List.range (2^p)).map (fun j => b+j*2^k) = (submasks 32 ((2^p-1)*2^k)).map (b+·) := by
  rw [submasks_block hmask,List.map_map]
  rfl

include hlim in
lemma markBlocks_eq {p k : ℕ} (ps : List ℕ) (ent : ℕ → Entry) (h : ∀ b ∈ ps, b+(2^p-1)*2^k < lim) :
    markBlocks lim ((2^p-1)*2^k) (2^k) ps ent =
      some (ps.flatMap fun b => (submasks 32 ((2^p-1)*2^k)).tail.map (b+·),
        taken ent (ps.flatMap fun b => (submasks 32 ((2^p-1)*2^k)).map (b+·))) := by
  induction ps generalizing ent with
  | nil => simp [markBlocks]
  | cons b ps ih =>
    have hb := h b (by simp)
    have hpos := Nat.two_pow_pos p
    have hmask : (2^p-1)*2^k < 2^32 := by omega
    have hfuel : 2^p-1 ≤ (2^p-1)*2^k := Nat.le_mul_of_pos_right _ (Nat.two_pow_pos k)
    have hall : (List.range (2^p-1+1)).map (fun j => b+j*2^k) = (submasks 32 ((2^p-1)*2^k)).map (b+·) := by
      rw [Nat.sub_add_cancel hpos]
      exact block_eq_submasks hmask b
    have htail : (List.range (2^p-1)).map (fun j => b+(j+1)*2^k) =
        (submasks 32 ((2^p-1)*2^k)).tail.map (b+·) := by
      rw [List.map_tail,← hall,List.range_succ_eq_map,List.map_cons,List.tail_cons,List.map_map]
      rfl
    rw [markBlocks,wrap_of_lt (by omega),markBlock_eq hlim (2^k) (2^p-1) b _ ent (Nat.two_pow_pos k) (by omega) hb,
      Option.bind_eq_bind,Option.bind_some,ih _ fun q hq => h q (by simp [hq])]
    simp only [Option.bind_some,taken_taken,hall,htail,List.flatMap_cons]

lemma perm_combos (mask : ℕ) (bases : List ℕ) :
    (bases ++ bases.reverse.flatMap fun b => (submasks 32 mask).tail.map (b+·)).Perm
      (bases.flatMap fun b => (submasks 32 mask).map (b+·)) := by
  have hrev : (bases.reverse.flatMap fun b => (submasks 32 mask).tail.map (b+·)).Perm
      (bases.flatMap fun b => (submasks 32 mask).tail.map (b+·)) :=
    (List.reverse_perm bases).flatMap_right _
  have hcons : ∀ b, (submasks 32 mask).map (b+·) = [b] ++ (submasks 32 mask).tail.map (b+·) := by
    intro b
    conv_lhs => rw [submasks_eq_cons]
    rfl
  simp only [hcons]
  refine (List.Perm.append_left bases hrev).trans ?_
  have := List.flatMap_append_perm bases (fun b => [b]) (fun b => (submasks 32 mask).tail.map (b+·))
  rwa [List.flatMap_singleton'] at this

lemma picked_of_found {size count planes mask : ℕ} {ent : ℕ → Entry} {found : List ℕ} (hmask : mask < 2^32)
    (hpop : pop mask = planes) (hlen : found.length = count) (hnd : found.Nodup)
    (hap : ∀ b ∈ found, Apart b mask)
    (hfree : ∀ b ∈ found, ∀ s ∈ submasks 32 mask, b+s < size ∧ (ent (b+s)).refcnt = 0) :
    Picked size ent count planes
      ⟨taken ent (found.reverse.flatMap fun b => (submasks 32 mask).map (b+·)),
        found ++ found.reverse.flatMap fun b => (submasks 32 mask).tail.map (b+·),mask⟩ := by
  have htake : (found ++ found.reverse.flatMap fun b => (submasks 32 mask).tail.map (b+·)).take count = found := by
    rw [← hlen]
    exact List.take_left' rfl
  have hperm := perm_combos mask found
  refine ⟨hmask,hpop,?_,?_,?_,?_,?_,?_⟩
  · rw [htake,hlen]
  · rwa [htake]
  · rwa [htake]
  · rwa [htake]
  · intro q hq
    obtain ⟨b,hb,hq⟩ := List.mem_flatMap.mp (hperm.mem_iff.mp hq)
    obtain ⟨s,hs,rfl⟩ := List.mem_map.mp hq
    exact hfree b hb s hs
  · apply taken_congr
    intro i
    rw [hperm.mem_iff]
    simp

end Mark

section Plain

variable {size lim : ℕ} (hsize : size ≤ lim)

include hsize in
lemma nextFree_spec {ent : ℕ → Entry} (fuel pixel : ℕ) {i : ℕ} (hi : i < size) (hpi : pixel ≤ i) (hfree : (ent i).refcnt = 0)
    (hf : i < pixel+fuel) :
    ∃ q, nextFree lim ent fuel pixel = some q ∧ pixel ≤ q ∧ q ≤ i ∧ (ent q).refcnt = 0 ∧
      ∀ j, pixel ≤ j → j < q → (ent j).refcnt ≠ 0 := by
  induction fuel generalizing pixel with
  | zero => omega
  | succ fuel ih =>
    rw [nextFree,cellAt_eq ent (by omega)]
    simp only [Option.bind_eq_bind,Option.bind_some]
    by_cases hz : (ent pixel).refcnt = 0
    · rw [if_neg (by simp [hz])]
      exact ⟨pixel,rfl,le_rfl,hpi,hz,fun j h₁ h₂ => by omega⟩
    · rw [if_pos hz]
      have hne : pixel ≠ i := by
        rintro rfl
        exact hz hfree
      obtain ⟨q,h₁,h₂,h₃,h₄,h₅⟩ := ih (pixel+1) (by omega) (by omega)
      refine ⟨q,h₁,by omega,h₃,h₄,fun j hj hjq => ?_⟩
      rcases Nat.eq_or_lt_of_le hj with rfl | hlt
      · exact hz
      · exact h₅ j hlt hjq

include hsize in
lemma allocPlain_spec (count pixel : ℕ) (ent : ℕ → Entry) (hcount : count ≤ tally size ent isFree)
    (hbelow : ∀ j < pixel, (ent j).refcnt ≠ 0) :
    ∃ l, allocPlain lim count pixel ent = some (l,taken ent l) ∧ l.length = count ∧ l.Nodup ∧
      ∀ p ∈ l, p < size ∧ (ent p).refcnt = 0 := by
  induction count generalizing pixel ent with
  | zero => exact ⟨[],by simp [allocPlain],rfl,by simp,by simp⟩
  | succ count ih =>
    obtain ⟨i,hi,hfree⟩ := exists_of_tally_pos (show 0 < tally size ent isFree by omega)
    simp only [isFree,decide_eq_true_eq] at hfree
    have hpi : pixel ≤ i := by
      by_contra hlt
      exact hbelow i (by omega) hfree
    obtain ⟨q,h₁,h₂,h₃,h₄,h₅⟩ := nextFree_spec hsize (lim+1) pixel hi hpi hfree (by omega)
    have htally : tally size (taken ent [q]) isFree+1 = tally size ent isFree := by
      refine tally_patch ent (taken ent [q]) isFree [q] (by simp) (by simp; omega) (by simp [isFree,h₄])
        (by simp [taken,isFree,allocPrivate]) ?_
      intro j hj
      simp [taken,hj]
    obtain ⟨l,h₆,h₇,h₈,h₉⟩ := ih q (taken ent [q]) (by omega) (by
      intro j hj
      have hjq : j ∉ [q] := by simp; omega
      simp only [taken,hjq,if_false]
      rcases Nat.lt_or_ge j pixel with hlt | hge
      · exact hbelow j hlt
      · exact h₅ j hge hj)
    have hql : q ∉ l := by
      intro hq
      have := (h₉ q hq).2
      simp [taken,allocPrivate] at this
    refine ⟨q::l,?_,by simp [h₇],List.nodup_cons.mpr ⟨hql,h₈⟩,?_⟩
    · rw [allocPlain,h₁]
      simp only [Option.bind_eq_bind,Option.bind_some]
      rw [takeCell_eq ent (by omega)]
      simp only [Option.bind_some,h₆,taken_taken]
      rfl
    · intro p hp
      rcases List.mem_cons.mp hp with rfl | hp
      · exact ⟨by omega,h₄⟩
      · have hpq : p ∉ [q] := by
          intro h
          rw [List.mem_singleton] at h
          exact hql (h ▸ hp)
        have := h₉ p hp
        simpa [taken,hpq] using this

end Plain

section Contig

variable {lim : ℕ} (hlim : lim ≤ 2^16) (ent : ℕ → Entry)

include hlim in
lemma blockFree_eq {base : ℕ} (hb : 0 < base) (hbase : base ≤ 2^16) (k pixel fuel : ℕ) (hf : k < fuel)
    (h : ∀ j < k, pixel+j*base < lim) :
    blockFree lim ent base (pixel+k*base) fuel pixel =
      some (decide (∀ j < k, (ent (pixel+j*base)).refcnt = 0)) := by
  induction k generalizing pixel fuel with
  | zero =>
    cases fuel with
    | zero => omega
    | succ fuel => simp [blockFree]
  | succ k ih =>
    cases fuel with
    | zero => omega
    | succ fuel =>
      have hk : (k+1)*base = base+k*base := by ring
      have h₀ := h 0 (by omega)
      rw [Nat.zero_mul,Nat.add_zero] at h₀
      rw [blockFree,if_neg (by omega),cellAt_eq ent h₀]
      simp only [Option.bind_eq_bind,Option.bind_some]
      rw [wrap_of_lt (by omega),show pixel+(k+1)*base = pixel+base+k*base by omega,
        ih (pixel+base) fuel (by omega) fun j hj => by
          have := h (j+1) (by omega)
          rwa [show pixel+(j+1)*base = pixel+base+j*base by ring] at this]
      have hshift : (∀ j < k, (ent (pixel+base+j*base)).refcnt = 0) ↔
          ∀ j, 1 ≤ j → j < k+1 → (ent (pixel+j*base)).refcnt = 0 := by
        constructor
        · intro hall j hj₁ hj₂
          have := hall (j-1) (by omega)
          rwa [show pixel+base+(j-1)*base = pixel+j*base by
            obtain ⟨i,rfl⟩ := Nat.exists_eq_add_of_le hj₁
            rw [Nat.add_sub_cancel_left]
            ring] at this
        · intro hall j hj
          have := hall (j+1) (by omega) (by omega)
          rwa [show pixel+(j+1)*base = pixel+base+j*base by ring] at this
      by_cases hz : (ent pixel).refcnt = 0
      · rw [if_pos hz]
        congr 1
        rw [decide_eq_decide,hshift]
        constructor
        · intro hall j hj
          rcases Nat.eq_zero_or_pos j with rfl | hpos
          · simpa using hz
          · exact hall j hpos hj
        · exact fun hall j _ hj => hall j hj
      · rw [if_neg hz]
        congr 1
        symm
        rw [decide_eq_false_iff_not]
        intro hall
        exact hz (by simpa using hall 0 (by omega))

/-- A pixel where a block of `p` planes at position `k` starts and is free. -/
def goodBlock (p k b : ℕ) : Prop := b/2^k % 2^p = 0 ∧ ∀ j < 2^p, (ent (b+j*2^k)).refcnt = 0

instance (p k b : ℕ) : Decidable (goodBlock ent p k b) := by
  unfold goodBlock
  infer_instance

/-- The free blocks that start at `x` or later and end before `size`. -/
def goods (size p k x : ℕ) : Finset ℕ :=
  (Finset.Ico x (size-(2^p-1)*2^k)).filter fun b => goodBlock ent p k b

lemma mem_goods {size p k x b : ℕ} :
    b ∈ goods ent size p k x ↔ x ≤ b ∧ b+(2^p-1)*2^k < size ∧ goodBlock ent p k b := by
  rw [goods,Finset.mem_filter,Finset.mem_Ico,and_assoc,Nat.lt_sub_iff_add_lt]

lemma next_aligned {p k pixel : ℕ} (hp : 0 < p) (ha : pixel/2^k % 2^p = 0) (hlt : pixel+(2^p-1)*2^k < 2^16) :
    let next := wrap (pixel+1)
    let q := if next &&& ((2^p-1)*2^k) ≠ 0 then wrap (next+(2^p-1)*2^k) else next
    pixel < q ∧ q/2^k % 2^p = 0 ∧ ∀ b, pixel < b → b < q → b/2^k % 2^p ≠ 0 := by
  have hB := Nat.two_pow_pos k
  have hP : 2 ≤ 2^p := by
    calc 2 = 2^1 := rfl
      _ ≤ 2^p := Nat.pow_le_pow_right (by omega) hp
  have hand : pixel+1 &&& ((2^p-1)*2^k) ≠ 0 ↔ (pixel+1)/2^k % 2^p ≠ 0 := by
    rw [Ne,Ne,← apart_block,apart_iff_and]
  dsimp only
  rw [wrap_of_lt (show pixel+1 < 2^32 by omega),wrap_of_lt (show pixel+1+(2^p-1)*2^k < 2^32 by omega)]
  generalize 2^k = B at *
  generalize 2^p = P at *
  -- `pixel` is a multiple of the block length plus something below the step.
  obtain ⟨u,hu⟩ : ∃ u, pixel/B = P*u := ⟨pixel/B/P,by have := Nat.div_add_mod (pixel/B) P; omega⟩
  have hdiv := Nat.div_add_mod pixel B
  have hmod := Nat.mod_lt pixel hB
  rw [hu] at hdiv
  by_cases hlast : pixel % B+1 = B
  · have hnext : (pixel+1)/B = P*u+1 := by
      rw [show pixel+1 = B*(P*u+1) by rw [Nat.mul_add]; omega,Nat.mul_div_cancel_left _ hB]
    have hmis : (P*u+1) % P = 1 := by rw [Nat.mul_add_mod,Nat.mod_eq_of_lt hP]
    rw [if_pos (hand.mpr (by rw [hnext,hmis]; omega))]
    have hjump : pixel+1+(P-1)*B = B*(P*(u+1)) := by
      obtain ⟨P',rfl⟩ := Nat.exists_eq_add_of_le' (show 1 ≤ P by omega)
      rw [Nat.add_sub_cancel]
      have : B*((P'+1)*(u+1)) = B*((P'+1)*u)+P'*B+B := by ring
      omega
    rw [hjump]
    refine ⟨by omega,by rw [Nat.mul_div_cancel_left _ hB,Nat.mul_mod_right],fun b hb₁ hb₂ hb => ?_⟩
    obtain ⟨t,ht⟩ : ∃ t, b/B = P*t := ⟨b/B/P,by have := Nat.div_add_mod (b/B) P; omega⟩
    have h₁ : P*u+1 ≤ b/B := (Nat.le_div_iff_mul_le hB).mpr (by
      rw [Nat.mul_comm,Nat.mul_add]
      omega)
    have h₂ : b/B < P*(u+1) := Nat.div_lt_of_lt_mul hb₂
    rw [ht] at h₁ h₂
    have h₃ : t < u+1 := Nat.lt_of_mul_lt_mul_left h₂
    have h₄ : P*t ≤ P*u := Nat.mul_le_mul_left P (by omega)
    omega
  · have hnext : (pixel+1)/B = P*u := by
      rw [show pixel+1 = B*(P*u)+(pixel % B+1) by omega,Nat.mul_add_div hB,Nat.div_eq_of_lt (by omega)]
      rfl
    have hal : (pixel+1)/B % P = 0 := by rw [hnext,Nat.mul_mod_right]
    rw [if_neg (by rw [hand]; exact fun h => h hal)]
    exact ⟨by omega,hal,fun b h₁ h₂ => by omega⟩

lemma goods_step {size p k x q : ℕ} (hx : x+(2^p-1)*2^k < size) (hq : x < q)
    (hskip : ∀ b, x < b → b < q → b/2^k % 2^p ≠ 0) :
    (goods ent size p k x).card = (goods ent size p k q).card+if goodBlock ent p k x then 1 else 0 := by
  have hmem : ∀ b, b ∈ goods ent size p k x ↔ b ∈ goods ent size p k q ∨ (b = x ∧ goodBlock ent p k x) := by
    intro b
    rw [mem_goods,mem_goods]
    constructor
    · rintro ⟨h₁,h₂,h₃⟩
      rcases Nat.eq_or_lt_of_le h₁ with rfl | hlt
      · exact .inr ⟨rfl,h₃⟩
      · refine .inl ⟨?_,h₂,h₃⟩
        by_contra hbq
        exact hskip b hlt (by omega) h₃.1
    · rintro (⟨h₁,h₂,h₃⟩ | ⟨rfl,h⟩)
      · exact ⟨by omega,h₂,h₃⟩
      · exact ⟨le_rfl,hx,h⟩
  have hnot : x ∉ goods ent size p k q := by
    rw [mem_goods]
    omega
  by_cases hg : goodBlock ent p k x
  · rw [if_pos hg,← Finset.card_insert_of_notMem hnot]
    congr 1
    ext b
    rw [hmem b,Finset.mem_insert]
    tauto
  · rw [if_neg hg,Nat.add_zero]
    congr 1
    ext b
    rw [hmem b]
    tauto

structure FoundBlocks (size p k pixel : ℕ) (found : List ℕ) : Prop where
  nodup : found.Nodup
  good : ∀ b ∈ found, goodBlock ent p k b ∧ b+(2^p-1)*2^k < size ∧ b < pixel

/-- There are enough free blocks of this shape inside the table. -/
def Fits (size p k count : ℕ) : Prop := (2^p-1)*2^k < size ∧ count ≤ (goods ent size p k 0).card

include hlim in
lemma contigSearch_spec (size p k entries count : ℕ) (hp : 0 < p) (hsize : size ≤ lim) (fuel pixel : ℕ)
    (found : List ℕ) (hf : lim < pixel+fuel) (hpos : 0 < fuel) (ha : pixel/2^k % 2^p = 0)
    (hcount : found.length < count) (hfound : FoundBlocks ent size p k pixel found)
    (hin : entries+(2^p-1)*2^k ≤ size ∨
      (size ≤ entries+(2^p-1)*2^k ∧ count ≤ found.length+(goods ent size p k pixel).card)) :
    ∃ o, contigSearch lim ent ((2^p-1)*2^k) (2^k) entries count fuel pixel found = some o ∧
      (∀ l, o = some l → l.length = count ∧ ∃ x, FoundBlocks ent size p k x l) ∧
      (count ≤ found.length+(goods ent size p k pixel).card → size ≤ entries+(2^p-1)*2^k → o.isSome = true) := by
  induction fuel generalizing pixel found with
  | zero => omega
  | succ fuel ih =>
    -- With too few blocks found, the next one ends inside the table, and so does this one.
    have hnext : count ≤ found.length+(goods ent size p k pixel).card →
        ∃ b, pixel ≤ b ∧ b+(2^p-1)*2^k < size := by
      intro henough
      obtain ⟨b,hb⟩ := Finset.card_pos.mp (show 0 < (goods ent size p k pixel).card by omega)
      rw [mem_goods] at hb
      exact ⟨b,hb.1,hb.2.1⟩
    rw [contigSearch]
    by_cases hlt : pixel < entries
    · have hinside : pixel+(2^p-1)*2^k < size := by
        rcases hin with hin | ⟨_,henough⟩
        · omega
        · obtain ⟨b,h₁,h₂⟩ := hnext henough
          omega
      have hP := Nat.two_pow_pos p
      have hB := Nat.two_pow_pos k
      have hPB : (2^p-1)*2^k+2^k = 2^p*2^k := by
        rw [Nat.sub_mul,Nat.one_mul,Nat.sub_add_cancel (Nat.le_mul_of_pos_left _ hP)]
      have hPp : 2 ≤ 2^p := by
        calc 2 = 2^1 := rfl
          _ ≤ 2^p := Nat.pow_le_pow_right (by omega) hp
      have hBle : 2^k ≤ (2^p-1)*2^k := Nat.le_mul_of_pos_left _ (by omega)
      have hPle : 2^p-1 ≤ (2^p-1)*2^k := Nat.le_mul_of_pos_right _ hB
      have hblock : blockFree lim ent (2^k) (wrap (pixel+(2^p-1)*2^k+2^k)) (lim+1) pixel =
          some (decide (∀ j < 2^p, (ent (pixel+j*2^k)).refcnt = 0)) := by
        rw [wrap_of_lt (by omega),Nat.add_assoc,hPB]
        refine blockFree_eq hlim ent hB (by omega) (2^p) pixel (lim+1) (by omega) fun j hj => ?_
        have : j*2^k ≤ (2^p-1)*2^k := Nat.mul_le_mul_right _ (by omega)
        omega
      obtain ⟨hq₁,hq₂,hq₃⟩ := next_aligned hp ha (show pixel+(2^p-1)*2^k < 2^16 by omega)
      rw [if_pos hlt,hblock]
      simp only [Option.bind_eq_bind,Option.bind_some]
      generalize (if wrap (pixel+1) &&& ((2^p-1)*2^k) ≠ 0 then wrap (wrap (pixel+1)+(2^p-1)*2^k)
        else wrap (pixel+1)) = q at *
      have hstep := goods_step ent hinside hq₁ hq₃
      by_cases hall : ∀ j < 2^p, (ent (pixel+j*2^k)).refcnt = 0
      · have hgood : goodBlock ent p k pixel := ⟨ha,hall⟩
        have hnew : FoundBlocks ent size p k q (found ++ [pixel]) := by
          refine ⟨?_,?_⟩
          · rw [List.nodup_append]
            refine ⟨hfound.nodup,by simp,?_⟩
            intro a ha b hb
            have := (hfound.good a ha).2.2
            rw [List.mem_singleton] at hb
            omega
          · intro b hb
            rcases List.mem_append.mp hb with hb | hb
            · obtain ⟨h₁,h₂,h₃⟩ := hfound.good b hb
              exact ⟨h₁,h₂,by omega⟩
            · rw [List.mem_singleton] at hb
              subst hb
              exact ⟨hgood,hinside,hq₁⟩
        rw [if_pos hgood] at hstep
        rw [decide_eq_true hall]
        simp only [if_true,true_and]
        by_cases hdone : (found ++ [pixel]).length = count
        · rw [if_pos hdone]
          exact ⟨_,rfl,by rintro l ⟨⟩; exact ⟨hdone,q,hnew⟩,fun _ _ => rfl⟩
        · rw [if_neg hdone]
          rw [List.length_append,List.length_singleton] at hdone
          obtain ⟨o,h₁,h₂,h₃⟩ := ih q (found ++ [pixel]) (by omega) (by omega) hq₂
            (by rw [List.length_append,List.length_singleton]; omega) hnew (by
              rw [List.length_append,List.length_singleton]
              omega)
          refine ⟨o,h₁,h₂,fun h => h₃ ?_⟩
          rw [List.length_append,List.length_singleton]
          omega
      · have hbad : ¬ goodBlock ent p k pixel := fun h => hall h.2
        have hkeep : FoundBlocks ent size p k q found := by
          refine ⟨hfound.nodup,fun b hb => ?_⟩
          obtain ⟨h₁,h₂,h₃⟩ := hfound.good b hb
          exact ⟨h₁,h₂,by omega⟩
        rw [if_neg hbad,Nat.add_zero] at hstep
        rw [decide_eq_false hall]
        simp only [Bool.false_eq_true,if_false,false_and]
        rw [hstep]
        exact ih q found (by omega) (by omega) hq₂ hcount hkeep (by rwa [hstep] at hin)
    · rw [if_neg hlt]
      refine ⟨none,rfl,by simp,fun henough hle => ?_⟩
      obtain ⟨b,h₁,h₂⟩ := hnext henough
      omega

lemma foundBlocks_nil (size p k : ℕ) : FoundBlocks ent size p k 0 [] := ⟨by simp,by simp⟩

include hlim in
lemma markFound_spec {size p k x : ℕ} {found : List ℕ} (hsize : size ≤ lim) (hne : found ≠ [])
    (h : FoundBlocks ent size p k x found) :
    ∃ r, (do
        let m ← markBlocks lim ((2^p-1)*2^k) (2^k) found.reverse ent
        some (some (⟨m.2,found ++ m.1,(2^p-1)*2^k⟩ : CPResult))) = some (some r) ∧
      Picked size ent found.length p r := by
  obtain ⟨b₀,hb₀⟩ := List.exists_mem_of_ne_nil found hne
  have hmask : (2^p-1)*2^k < 2^32 := by
    have := (h.good b₀ hb₀).2.1
    omega
  rw [markBlocks_eq hlim found.reverse ent fun b hb => by
    have := (h.good b (by simpa using hb)).2.1
    omega]
  refine ⟨_,rfl,picked_of_found hmask (by rw [pop_two_pow_mul,pop_ones]) rfl h.nodup ?_ ?_⟩
  · intro b hb
    exact (apart_block b p k).mpr (h.good b hb).1.1
  · intro b hb s hs
    obtain ⟨⟨_,hfree⟩,hlast,_⟩ := h.good b hb
    have hle := ((mem_submasks hmask).mp hs).le
    rw [submasks_block hmask] at hs
    obtain ⟨j,hj,rfl⟩ := List.mem_map.mp hs
    exact ⟨by omega,hfree j (List.mem_range.mp hj)⟩

include hlim in
/-- The first loop of `AllocCP`: `safe` positions of the mask where no block leaves the table, then
either the end or a position with enough blocks. -/
lemma contigPlanes_spec (size p entries count : ℕ) (hp : 0 < p) (hsize : size ≤ lim) (hentries : entries ≤ 2^16)
    (hcount : 0 < count) (safe n k : ℕ)
    (hsafe : ∀ i < safe, (2^p-1)*2^(k+i) ≤ entries ∧ entries ≤ size)
    (hend : n = safe ∨ (safe < n ∧ size ≤ entries ∧ Fits ent size p (k+safe) count)) :
    ∃ o, contigPlanes lim entries count ent n ((2^p-1)*2^k) (2^k) = some o ∧
      (∀ r, o = some r → Picked size ent count p r) ∧ (safe < n → o.isSome = true) := by
  -- One position: the search, and what is taken when it finds enough.
  have hone : ∀ k, ((2^p-1)*2^k ≤ entries ∧ entries ≤ size) ∨ (size ≤ entries ∧ Fits ent size p k count) →
      ∃ o, contigSearch lim ent ((2^p-1)*2^k) (2^k) (wrap (entries+2^32-(2^p-1)*2^k)) count (lim+1) 0 [] = some o ∧
        (∀ l, o = some l → l.length = count ∧ ∃ x, FoundBlocks ent size p k x l) ∧
        (size ≤ entries → Fits ent size p k count → o.isSome = true) := by
    intro k h
    have hle : (2^p-1)*2^k ≤ entries := by
      rcases h with h | ⟨h,hfit⟩
      · exact h.1
      · have := hfit.1
        omega
    have hwrap : wrap (entries+2^32-(2^p-1)*2^k) = entries-(2^p-1)*2^k := by
      unfold wrap
      omega
    rw [hwrap]
    obtain ⟨o,h₁,h₂,h₃⟩ := contigSearch_spec hlim ent size p k (entries-(2^p-1)*2^k) count hp hsize (lim+1) 0 []
      (by omega) (by omega) (by simp) (by simpa using hcount) (foundBlocks_nil ent size p k) (by
        rcases h with h | ⟨h,hfit⟩
        · exact .inl (by omega)
        · exact .inr ⟨by omega,by simpa using hfit.2⟩)
    exact ⟨o,h₁,h₂,fun hse hfit => h₃ (by simpa using hfit.2) (by omega)⟩
  induction safe generalizing n k with
  | zero =>
    rcases hend with rfl | ⟨hn,hse,hfit⟩
    · exact ⟨none,by rw [contigPlanes],by simp,by omega⟩
    · obtain ⟨n,rfl⟩ := Nat.exists_eq_succ_of_ne_zero (show n ≠ 0 by omega)
      rw [Nat.add_zero] at hfit
      obtain ⟨o,h₁,h₂,h₃⟩ := hone k (.inr ⟨hse,hfit⟩)
      obtain ⟨l,rfl⟩ := Option.isSome_iff_exists.mp (h₃ hse hfit)
      obtain ⟨hlen,x,hx⟩ := h₂ l rfl
      obtain ⟨r,h₄,h₅⟩ := markFound_spec hlim ent hsize (by rintro rfl; simp at hlen; omega) hx
      rw [contigPlanes,h₁]
      rw [hlen] at h₅
      exact ⟨some r,h₄,by rintro _ ⟨⟩; exact h₅,fun _ => rfl⟩
  | succ safe ih =>
    obtain ⟨n,rfl⟩ := Nat.exists_eq_succ_of_ne_zero (show n ≠ 0 by omega)
    have hk := hsafe 0 (by omega)
    rw [Nat.add_zero] at hk
    obtain ⟨o,h₁,h₂,_⟩ := hone k (.inl hk)
    rw [contigPlanes,h₁]
    cases o with
    | some l =>
      obtain ⟨hlen,x,hx⟩ := h₂ l rfl
      obtain ⟨r,h₄,h₅⟩ := markFound_spec hlim ent hsize (by rintro rfl; simp at hlen; omega) hx
      rw [hlen] at h₅
      exact ⟨some r,h₄,by rintro _ ⟨⟩; exact h₅,fun _ => rfl⟩
    | none =>
      have hBle : 2^k ≤ (2^p-1)*2^k := Nat.le_mul_of_pos_left _ (by
        have : 2^1 ≤ 2^p := Nat.pow_le_pow_right (by omega) hp
        omega)
      simp only [Option.bind_eq_bind,Option.bind_some]
      rw [wrap_of_lt (by omega),wrap_of_lt (by omega),show (2^p-1)*2^k+(2^p-1)*2^k = (2^p-1)*2^(k+1) by ring,
        show 2^k+2^k = 2^(k+1) by ring]
      obtain ⟨o,h₁,h₂,h₃⟩ := ih n (k+1)
        (fun i hi => by
          have := hsafe (i+1) (by omega)
          rwa [show k+(i+1) = k+1+i by omega] at this)
        (by
          rcases hend with hend | ⟨h₁,h₂,h₃⟩
          · exact .inl (by omega)
          · exact .inr ⟨by omega,h₂,by rwa [show k+(safe+1) = k+1+safe by omega] at h₃⟩)
      exact ⟨o,h₁,h₂,fun h => h₃ (by omega)⟩

end Contig

section Combos

variable {lim : ℕ} (hlim : lim ≤ 2^16) (ent : ℕ → Entry)

include hlim in
lemma combosFree_eq (pixel : ℕ) (l : List ℕ) (h : ∀ s ∈ l, pixel+s < lim) :
    combosFree lim ent pixel l = some (decide (∀ s ∈ l, (ent (pixel+s)).refcnt = 0)) := by
  induction l with
  | nil => simp [combosFree]
  | cons s l ih =>
    have hs := h s (by simp)
    rw [combosFree,wrap_of_lt (by omega),cellAt_eq ent hs]
    simp only [Option.bind_eq_bind,Option.bind_some]
    by_cases hz : (ent (pixel+s)).refcnt = 0
    · rw [if_pos hz,ih fun t ht => h t (by simp [ht])]
      simp [hz]
    · rw [if_neg hz]
      simp [hz]

structure FoundCombos (lim : ℕ) (ent : ℕ → Entry) (mask pixel : ℕ) (found : List ℕ) : Prop where
  nodup : found.Nodup
  good : ∀ b ∈ found, Apart b mask ∧ (∀ s ∈ submasks 32 mask, (ent (b+s)).refcnt = 0) ∧ b+mask < lim ∧ b < pixel

include hlim in
lemma comboSearch_spec (mask entries count : ℕ) (hmask : mask < 2^32) (hin : entries+mask ≤ lim) (fuel pixel : ℕ)
    (found : List ℕ) (hf : entries < pixel+fuel) (hpos : 0 < fuel) (hfound : FoundCombos lim ent mask pixel found) :
    ∃ o, comboSearch lim ent mask entries count fuel pixel found = some o ∧
      ∀ l, o = some l → l.length = count ∧ ∃ x, FoundCombos lim ent mask x l := by
  induction fuel generalizing pixel found with
  | zero => omega
  | succ fuel ih =>
    have hkeep : FoundCombos lim ent mask (pixel+1) found := by
      refine ⟨hfound.nodup,fun b hb => ?_⟩
      obtain ⟨h₁,h₂,h₃,h₄⟩ := hfound.good b hb
      exact ⟨h₁,h₂,h₃,by omega⟩
    rw [comboSearch]
    by_cases hlt : pixel < entries
    · rw [if_pos hlt]
      by_cases hand : pixel &&& mask ≠ 0
      · rw [if_pos hand]
        exact ih (pixel+1) found (by omega) (by omega) hkeep
      · rw [if_neg hand]
        have hap : Apart pixel mask := (apart_iff_and _ _).mpr (by simpa using hand)
        rw [combosFree_eq hlim ent pixel _ fun s hs => by
          have := ((mem_submasks hmask).mp hs).le
          omega]
        simp only [Option.bind_eq_bind,Option.bind_some]
        by_cases hall : ∀ s ∈ submasks 32 mask, (ent (pixel+s)).refcnt = 0
        · have hnew : FoundCombos lim ent mask (pixel+1) (found ++ [pixel]) := by
            refine ⟨?_,?_⟩
            · rw [List.nodup_append]
              refine ⟨hfound.nodup,by simp,?_⟩
              intro a ha b hb
              have := (hfound.good a ha).2.2.2
              rw [List.mem_singleton] at hb
              omega
            · intro b hb
              rcases List.mem_append.mp hb with hb | hb
              · exact hkeep.good b hb
              · rw [List.mem_singleton] at hb
                subst hb
                exact ⟨hap,hall,by omega,by omega⟩
          rw [decide_eq_true hall]
          simp only [if_true,true_and]
          by_cases hdone : (found ++ [pixel]).length = count
          · rw [if_pos hdone]
            exact ⟨_,rfl,by rintro l ⟨⟩; exact ⟨hdone,pixel+1,hnew⟩⟩
          · rw [if_neg hdone]
            exact ih (pixel+1) (found ++ [pixel]) (by omega) (by omega) hnew
        · rw [decide_eq_false hall]
          simp only [Bool.false_eq_true,if_false,false_and]
          exact ih (pixel+1) found (by omega) (by omega) hkeep
    · rw [if_neg hlt]
      exact ⟨none,rfl,by simp⟩

include hlim in
lemma comboPlanes_spec {planes count : ℕ} (fuel mask : ℕ) (hmask : mask+fuel ≤ lim+1) :
    ∃ o, comboPlanes lim lim count planes ent fuel mask = some o ∧
      ∀ r, o = some r → Picked lim ent count planes r := by
  induction fuel generalizing mask with
  | zero => exact ⟨none,by rw [comboPlanes],by simp⟩
  | succ fuel ih =>
    rw [comboPlanes]
    by_cases hpop : hakmem mask ≠ planes
    · rw [if_pos hpop]
      exact ih (mask+1) (by omega)
    · rw [if_neg hpop]
      have hwrap : wrap (lim+2^32-mask) = lim-mask := by
        unfold wrap
        omega
      obtain ⟨o,h₁,h₂⟩ := comboSearch_spec hlim ent mask (lim-mask) count (by omega) (by omega) (lim-mask+1) 0 [] (by omega) (by omega) ⟨by simp,by simp⟩
      dsimp only
      rw [hwrap,h₁]
      cases o with
      | none =>
        simp only [Option.bind_eq_bind,Option.bind_some]
        exact ih (mask+1) (by omega)
      | some found =>
        obtain ⟨hlen,x,hx⟩ := h₂ found rfl
        rw [Ne,not_not,hakmem_eq_pop mask (by omega)] at hpop
        have hle : ∀ b ∈ found, ∀ s ∈ submasks 32 mask, b+s < lim := by
          intro b hb s hs
          have h₁ := (hx.good b hb).2.2.1
          have h₂ := ((mem_submasks (show mask < 2^32 by omega)).mp hs).le
          omega
        simp only [Option.bind_eq_bind,Option.bind_some]
        rw [markAllCombos_eq hlim mask found.reverse ent fun b hb => hle b (by simpa using hb)]
        refine ⟨_,rfl,?_⟩
        rintro r ⟨⟩
        refine picked_of_found (by omega) hpop hlen hx.nodup (fun b hb => (hx.good b hb).1) fun b hb s hs => ?_
        exact ⟨hle b hb s hs,(hx.good b hb).2.1 s hs⟩

end Combos

section AllocCP

variable (v : Visual) {ent : ℕ → Entry} {count planes : ℕ} (contig : Bool)

/-- The easy case: enough free cells, wherever they are. -/
theorem allocCP_plain {size lim : ℕ} (hsize : size ≤ lim) (h : count ≤ tally size ent isFree) :
    ∃ r, allocCP lim v ent count 0 contig = some (some r) ∧ Picked size ent count 0 r := by
  obtain ⟨l,h₁,h₂,h₃,h₄⟩ := allocPlain_spec hsize count 0 ent h (by simp)
  refine ⟨⟨taken ent l,l,0⟩,by simp [allocCP,h₁],?_⟩
  have htake : l.take count = l := List.take_of_length_le (by omega)
  refine ⟨Nat.two_pow_pos 32,by simp,by rw [htake,h₂],by rwa [htake],?_,?_,h₄,rfl⟩
  · intro b _ i _
    simp
  · have hzero : submasks 32 0 = [0] := rfl
    rw [htake,hzero]
    simp

/-- `AllocCP` on a map of `2^nplanes` cells never leaves it: only with no planes, or with all of
them, does it depend on how many cells are free. -/
theorem allocCP_pseudo (hv : v.colormapEntries = 2^v.nplanes) (hshort : v.colormapEntries < 2^15)
    (hcount : 0 < count)
    (hfree : planes = 0 ∨ (planes = v.nplanes ∧ contig = false ∧ 3 ≤ v.nplanes) →
      count*2^planes ≤ tally v.colormapEntries ent isFree) :
    ∃ o, allocCP v.colormapEntries v ent count planes contig = some o ∧
      ∀ r, o = some r → Picked v.colormapEntries ent count planes r := by
  rcases Nat.eq_zero_or_pos planes with rfl | hp
  · obtain ⟨r,h₁,h₂⟩ := allocCP_plain v contig (le_refl v.colormapEntries)
      (by simpa using hfree (.inl rfl))
    exact ⟨some r,h₁,by rintro _ ⟨⟩; exact h₂⟩
  rw [allocCP,if_neg (by omega)]
  by_cases hbig : planes > v.nplanes
  · rw [if_pos hbig]
    exact ⟨none,rfl,by simp⟩
  rw [if_neg hbig]
  have hmask : ∀ k, k+planes ≤ v.nplanes → (2^planes-1)*2^k < 2^v.nplanes := by
    intro k hk
    calc (2^planes-1)*2^k < 2^planes*2^k :=
          Nat.mul_lt_mul_of_pos_right (by have := Nat.two_pow_pos planes; omega) (Nat.two_pow_pos k)
      _ = 2^(planes+k) := (Nat.pow_add 2 planes k).symm
      _ ≤ 2^v.nplanes := Nat.pow_le_pow_right (by omega) (by omega)
  have hfirst : wrap (2^planes-1) = 2^planes-1 := by
    have := hmask 0 (by omega)
    rw [pow_zero,Nat.mul_one] at this
    exact wrap_of_lt (by omega)
  -- With all planes and a free table there is nothing left to try behind the first loop.
  have hsome : planes = v.nplanes ∧ contig = false ∧ 3 ≤ v.nplanes →
      Fits ent v.colormapEntries planes 0 count := by
    rintro ⟨rfl,hc,h3⟩
    have hmany := hfree (.inr ⟨rfl,hc,h3⟩)
    have hall := tally_le v.colormapEntries ent isFree
    rw [← hv] at hmany
    have hone : count = 1 := by
      by_contra hne
      have : 2*v.colormapEntries ≤ count*v.colormapEntries := Nat.mul_le_mul_right _ (by omega)
      have := Nat.two_pow_pos v.nplanes
      omega
    subst hone
    have hcells := tally_eq_self (show v.colormapEntries ≤ tally v.colormapEntries ent isFree by omega)
    refine ⟨by have := hmask 0 (by omega); omega,?_⟩
    refine Finset.card_pos.mpr ⟨0,?_⟩
    refine (mem_goods ent).mpr ⟨le_rfl,by have := hmask 0 (by omega); omega,by simp,fun j hj => ?_⟩
    have := hcells (0+j*2^0) (by simp; omega)
    simpa [isFree] using this
  obtain ⟨o,h₁,h₂,h₃⟩ := contigPlanes_spec (show v.colormapEntries ≤ 2^16 by omega) ent v.colormapEntries planes
    v.colormapEntries count hp le_rfl (by omega) hcount
    (if planes = v.nplanes ∧ contig = false ∧ 3 ≤ v.nplanes then 0 else v.nplanes-(planes-1))
    (v.nplanes-(planes-1)) 0
    (by
      intro i hi
      have := hmask (0+i) (by split_ifs at hi <;> omega)
      omega)
    (by
      split_ifs with h
      · exact .inr ⟨by omega,le_rfl,hsome h⟩
      · exact .inl rfl)
  rw [pow_zero,Nat.mul_one] at h₁
  rw [hfirst,h₁]
  cases o with
  | some r => exact ⟨some r,rfl,by rintro _ ⟨⟩; exact h₂ r rfl⟩
  | none =>
    simp only [Option.bind_eq_bind,Option.bind_some]
    by_cases hstop : contig = true ∨ planes = 1 ∨ v.nplanes < 3
    · rw [if_pos (by simpa using hstop)]
      exact ⟨none,rfl,by simp⟩
    · rw [if_neg (by simpa using hstop)]
      have hlt : planes < v.nplanes := by
        by_contra hge
        have hcond : planes = v.nplanes ∧ contig = false ∧ 3 ≤ v.nplanes :=
          ⟨by omega,by simpa using fun h => hstop (.inl h),by omega⟩
        rw [if_pos hcond] at h₃
        simpa using h₃ (by omega)
      have hfinal : (2^(planes-1)-1) <<< (v.nplanes-planes+1)+1 <<< (v.nplanes-planes-1) < 2^v.nplanes := by
        rw [Nat.shiftLeft_eq,Nat.shiftLeft_eq,Nat.one_mul,Nat.sub_mul,Nat.one_mul,← Nat.pow_add,
          show planes-1+(v.nplanes-planes+1) = v.nplanes by omega]
        have h₁ : 2^(v.nplanes-planes-1) < 2^(v.nplanes-planes+1) := Nat.pow_lt_pow_right (by omega) (by omega)
        have h₂ : 2^(v.nplanes-planes+1) ≤ 2^v.nplanes := Nat.pow_le_pow_right (by omega) (by omega)
        omega
      rw [finalMask,if_pos hlt]
      simp only [Option.bind_some]
      rw [wrap_of_lt (by omega)]
      obtain ⟨o,h₄,h₅⟩ := comboPlanes_spec (show v.colormapEntries ≤ 2^16 by omega) ent
        ((2^(planes-1)-1) <<< (v.nplanes-planes+1)+1 <<< (v.nplanes-planes-1)+1-wrap (3*2^(planes-1)-1))
        (wrap (3*2^(planes-1)-1)) (by
          have hw : wrap (3*2^(planes-1)-1) ≤ v.colormapEntries := by
            have h₁ : 2^(planes-1)*4 = 2^(planes+1) := by
              rw [show planes+1 = (planes-1)+2 by omega,pow_add]
              rfl
            have h₂ : 2^(planes+1) ≤ 2^v.nplanes := Nat.pow_le_pow_right (by omega) (by omega)
            rw [wrap_of_lt (by omega)]
            omega
          omega)
      exact ⟨o,h₄,h₅⟩

/-- `AllocCP` on a channel of a `DirectColor` map stays inside its `size` cells and succeeds when
the first loop finds enough blocks there. -/
theorem allocCP_direct {size lim k : ℕ} (hsize : size ≤ lim) (hlim : lim ≤ v.colormapEntries)
    (hshort : v.colormapEntries < 2^15) (hp : 0 < planes) (hcount : 0 < count) (hk : k+planes ≤ v.nplanes)
    (hwide : k = 0 ∨ size = v.colormapEntries) (hfit : Fits ent size planes k count) :
    ∃ r, allocCP lim v ent count planes contig = some (some r) ∧ Picked size ent count planes r := by
  have hmask := hfit.1
  have hle : 2^planes-1 ≤ (2^planes-1)*2^k := Nat.le_mul_of_pos_right _ (Nat.two_pow_pos k)
  obtain ⟨o,h₁,h₂,h₃⟩ := contigPlanes_spec (show lim ≤ 2^16 by omega) ent size planes v.colormapEntries count hp
    hsize (by omega) hcount k (v.nplanes-(planes-1)) 0
    (by
      intro i hi
      have : (2^planes-1)*2^(0+i) ≤ (2^planes-1)*2^k :=
        Nat.mul_le_mul_left _ (Nat.pow_le_pow_right (by omega) (by omega))
      omega)
    (.inr ⟨by omega,by omega,by rwa [Nat.zero_add]⟩)
  obtain ⟨r,rfl⟩ := Option.isSome_iff_exists.mp (h₃ (by omega))
  refine ⟨r,?_,h₂ r rfl⟩
  rw [allocCP,if_neg (by omega),if_neg (by omega),wrap_of_lt (by omega)]
  rw [pow_zero,Nat.mul_one] at h₁
  rw [h₁]
  rfl

end AllocCP

end Xlibre.Dix.Colormap
