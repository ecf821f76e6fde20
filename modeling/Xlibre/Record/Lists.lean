import Xlibre.Record.Vectors

/-! Sets as interval lists: sorting and merging make a separated list that covers the same numbers, and the
binary search finds what it covers. -/
namespace Xlibre.Record

open Xlibre.Lib.Runs

section Create

/-- Intervals in the order of their first members. -/
def Sorted (l : List RecordSetInterval) : Prop := l.Pairwise fun a b => a.first ≤ b.first

lemma insertInterval_perm (l : List RecordSetInterval) (i : RecordSetInterval) : (insertInterval l i).Perm (i::l) := by
  induction l with
  | nil => exact .refl _
  | cons s l ih =>
    rw [insertInterval]
    split_ifs
    · exact .refl _
    · exact (ih.cons s).trans (.swap i s l)

lemma Sorted.insert {l : List RecordSetInterval} (h : Sorted l) (i : RecordSetInterval) : Sorted (insertInterval l i) := by
  induction l with
  | nil => exact List.pairwise_singleton _ i
  | cons s l ih =>
    have hs := List.pairwise_cons.mp h
    rw [insertInterval]
    split_ifs with hlt
    · refine List.pairwise_cons.mpr ⟨fun j hj => ?_,h⟩
      rcases List.mem_cons.mp hj with rfl | hj
      · omega
      · have := hs.1 j hj
        omega
    · refine List.pairwise_cons.mpr ⟨fun j hj => ?_,ih hs.2⟩
      rcases List.mem_cons.mp ((insertInterval_perm l i).mem_iff.mp hj) with rfl | hj
      · omega
      · exact hs.1 j hj

lemma insertAll_spec (l sorted : List RecordSetInterval) (h : Sorted sorted) :
    Sorted (l.foldl insertInterval sorted) ∧ (l.foldl insertInterval sorted).Perm (l ++ sorted) := by
  induction l generalizing sorted with
  | nil => exact ⟨h,.refl _⟩
  | cons i l ih =>
    obtain ⟨h₁,h₂⟩ := ih _ (h.insert i)
    refine ⟨h₁,h₂.trans ?_⟩
    exact ((insertInterval_perm sorted i).append_left l).trans List.perm_middle

lemma mergeIntervals_spec (l : List RecordSetInterval) (i : RecordSetInterval) (hs : Sorted (i::l))
    (hle : ∀ j ∈ i::l, j.first ≤ j.last) :
    Separated (mergeIntervals i l) ∧ (∀ x, Covers (mergeIntervals i l) x ↔ Covers (i::l) x) ∧
      ∀ j ∈ mergeIntervals i l, i.first ≤ j.first := by
  induction l generalizing i with
  | nil =>
    refine ⟨separated_nil.cons (hle i (by simp)) (by simp),fun x => Iff.rfl,fun j hj => ?_⟩
    rw [mergeIntervals,List.mem_singleton] at hj
    rw [hj]
  | cons next l ih =>
    have hsorted := List.pairwise_cons.mp hs
    have hfirst := hsorted.1 next (by simp)
    have hi := hle i (by simp)
    have hnext := hle next (by simp)
    rw [mergeIntervals]
    split_ifs with hgap
    · obtain ⟨h₁,h₂,h₃⟩ := ih next hsorted.2 fun j hj => hle j (by simp [hj])
      refine ⟨h₁.cons hi fun j hj => ?_,fun x => ?_,fun j hj => ?_⟩
      · have := h₃ j hj
        omega
      · rw [covers_cons,h₂,covers_cons i]
      · rcases List.mem_cons.mp hj with rfl | hj
        · exact Nat.le_refl _
        · have := h₃ j hj
          omega
    · -- The two intervals meet, so their union is an interval.
      have hmerged : Sorted ({ i with last := max i.last next.last }::l) :=
        List.pairwise_cons.mpr ⟨fun j hj => hsorted.1 j (by simp [hj]),(List.pairwise_cons.mp hsorted.2).2⟩
      obtain ⟨h₁,h₂,h₃⟩ := ih { i with last := max i.last next.last } hmerged fun j hj => by
        rcases List.mem_cons.mp hj with rfl | hj
        · dsimp only
          omega
        · exact hle j (by simp [hj])
      refine ⟨h₁,fun x => ?_,h₃⟩
      rw [h₂,covers_cons,covers_cons,covers_cons,← or_assoc]
      refine or_congr_left ?_
      simp only [Lib.Runs.Interval.Has]
      omega

/-- `IntervalListCreateSet` makes a separated list that covers the given intervals. -/
theorem intervalListCreateSet_spec {l : List RecordSetInterval} (hle : ∀ i ∈ l, i.first ≤ i.last) :
    Separated (intervalListCreateSet l) ∧ ∀ x, Covers (intervalListCreateSet l) x ↔ Covers l x := by
  obtain ⟨hsorted,hperm⟩ := insertAll_spec l [] List.Pairwise.nil
  rw [List.append_nil] at hperm
  have hcover := covers_perm hperm
  have hall : ∀ i ∈ l.foldl insertInterval [], i.first ≤ i.last := fun i hi => hle i (hperm.mem_iff.mp hi)
  rw [intervalListCreateSet]
  cases hl : l.foldl insertInterval [] with
  | nil =>
    rw [hl] at hcover
    exact ⟨separated_nil,hcover⟩
  | cons i rest =>
    rw [hl] at hcover hsorted hall
    obtain ⟨h₁,h₂,_⟩ := mergeIntervals_spec rest i hsorted hall
    exact ⟨h₁,fun x => (h₂ x).trans (hcover x)⟩

end Create

section Search

variable {l : List RecordSetInterval}

lemma separated_getElem (h : Separated l) {i j : ℕ} {a b : RecordSetInterval} (ha : l[i]? = some a) (hb : l[j]? = some b)
    (hij : i < j) : a.last+1 < b.first := by
  obtain ⟨hi,rfl⟩ := List.getElem?_eq_some_iff.mp ha
  obtain ⟨hj,rfl⟩ := List.getElem?_eq_some_iff.mp hb
  exact List.pairwise_iff_getElem.mp h.gap i j hi hj hij

lemma searchIntervals_spec (h : Separated l) (pm : ℕ) (lo hi : ℤ) (hlo : 0 ≤ lo) (hhi : hi < l.length) :
    ∃ r, searchIntervals l pm lo hi = some r ∧
      (r = true ↔ ∃ (k : ℕ) (a : RecordSetInterval), lo ≤ (k : ℤ) ∧ (k : ℤ) ≤ hi ∧ l[k]? = some a ∧ a.Has pm) := by
  fun_induction searchIntervals l pm lo hi with
  | case1 lo hi hle probe hnone =>
    exfalso
    have : probe = (hi+lo)/2 := rfl
    rw [List.getElem?_eq_none_iff] at hnone
    omega
  | case2 lo hi hle probe a ha hhas =>
    have : probe = (hi+lo)/2 := rfl
    exact ⟨true,rfl,iff_of_true rfl ⟨probe.toNat,a,by omega,by omega,ha,hhas⟩⟩
  | case3 lo hi hle probe a ha hnot hlt ih =>
    have : probe = (hi+lo)/2 := rfl
    obtain ⟨r,hr,hiff⟩ := ih hlo (by omega)
    refine ⟨r,hr,hiff.trans ⟨?_,?_⟩⟩
    · rintro ⟨k,b,h₁,h₂,hb,hhas⟩
      exact ⟨k,b,h₁,by omega,hb,hhas⟩
    · rintro ⟨k,b,h₁,h₂,hb,hhas⟩
      refine ⟨k,b,h₁,?_,hb,hhas⟩
      -- Interval `k` starts no later than `pm`, so it comes before the probe.
      by_contra hk
      have hfirst := hhas.1
      rcases Nat.lt_or_ge probe.toNat k with hpk | hpk
      · have := separated_getElem h ha hb hpk
        have := h.le a (List.mem_of_getElem? ha)
        omega
      · obtain rfl : k = probe.toNat := by omega
        obtain rfl : a = b := Option.some.inj (ha.symm.trans hb)
        omega
  | case4 lo hi hle probe a ha hnot hge ih =>
    have : probe = (hi+lo)/2 := rfl
    obtain ⟨r,hr,hiff⟩ := ih (by omega) hhi
    refine ⟨r,hr,hiff.trans ⟨?_,?_⟩⟩
    · rintro ⟨k,b,h₁,h₂,hb,hhas⟩
      exact ⟨k,b,by omega,h₂,hb,hhas⟩
    · rintro ⟨k,b,h₁,h₂,hb,hhas⟩
      refine ⟨k,b,?_,h₂,hb,hhas⟩
      by_contra hk
      obtain ⟨hfirst,hlast⟩ := hhas
      rcases Nat.lt_or_ge k probe.toNat with hpk | hpk
      · have := separated_getElem h hb ha hpk
        omega
      · obtain rfl : k = probe.toNat := by omega
        obtain rfl : a = b := Option.some.inj (ha.symm.trans hb)
        exact hnot ⟨hfirst,hlast⟩
  | case5 lo hi hle => exact ⟨false,rfl,iff_of_false (by simp) (by rintro ⟨k,a,h₁,h₂,_⟩; omega)⟩

/-- `IntervalListIsMemberOfSet` finds what a separated list covers. -/
theorem intervalListIsMemberOfSet_spec (h : Separated l) (pm : ℕ) :
    ∃ r, intervalListIsMemberOfSet l pm = some r ∧ (r = true ↔ Covers l pm) := by
  obtain ⟨r,hr,hiff⟩ := searchIntervals_spec h pm 0 (l.length-1) (by omega) (by omega)
  refine ⟨r,hr,hiff.trans ⟨?_,?_⟩⟩
  · rintro ⟨k,a,_,_,ha,hhas⟩
    exact ⟨a,List.mem_of_getElem? ha,hhas⟩
  · rintro ⟨a,ha,hhas⟩
    obtain ⟨k,hk⟩ := List.getElem?_of_mem ha
    have := (List.getElem?_eq_some_iff.mp hk).1
    exact ⟨k,a,by omega,by omega,hk,hhas⟩

end Search

lemma iterates_intervalList {w : ℕ} (l : List RecordSetInterval) (k : ℕ) :
    Iterates (RecordSet.intervalList l : RecordSet w) k (l.drop k) := by
  rcases Nat.lt_or_ge k l.length with hk | hk
  · rw [List.drop_eq_getElem_cons hk]
    refine .next ?_ (iterates_intervalList l (k+1))
    simp [RecordSet.iterateSet,intervalListIterateSet,hk]
  · rw [List.drop_eq_nil_of_le hk]
    refine .done ?_
    simp [RecordSet.iterateSet,intervalListIterateSet,Nat.not_lt.mpr hk]
termination_by l.length-k

end Xlibre.Record

/-! `RecordCreateSet` makes a set with the given members, whichever representation it picks. -/
namespace Xlibre.Record

open Xlibre.Lib.Runs

variable {w : ℕ} {S : ℕ → Prop} {pSet pSet' : RecordSet w}

lemma Iterates.unique {p : ℕ} {l l' : List RecordSetInterval} (h : Iterates pSet p l) (h' : Iterates pSet p l') : l = l' := by
  induction h generalizing l' with
  | done hdone =>
    cases h' with
    | done _ => rfl
    | next hnext _ => simp [hdone] at hnext
  | next hnext _ ih =>
    cases h' with
    | done hdone => simp [hnext] at hdone
    | next hnext' hrest =>
      rw [hnext] at hnext'
      simp only [Option.some.injEq,Prod.mk.injEq] at hnext'
      obtain ⟨rfl,rfl⟩ := hnext'
      rw [ih hrest]

/-- A set answers for the members of `S`: `IsMemberOfSet` decides `S`, and `IterateSet` from the null pointer on
gives the maximal runs of `S` and comes to an end. -/
structure Represents (S : ℕ → Prop) (pSet : RecordSet w) : Prop where
  member : ∀ pm, ∃ r, pSet.isMemberOfSet pm = some r ∧ (r = true ↔ S pm)
  ends : ∃ l, Iterates pSet 0 l
  runs : ∀ l, Iterates pSet 0 l ↔ RunsOf S l

lemma represents_of_iterates (hmember : ∀ pm, ∃ r, pSet.isMemberOfSet pm = some r ∧ (r = true ↔ S pm))
    {l : List RecordSetInterval} (hl : Iterates pSet 0 l) (hruns : RunsOf S l) : Represents S pSet := by
  refine ⟨hmember,⟨l,hl⟩,fun l' => ⟨fun h => ?_,fun h => ?_⟩⟩
  · rwa [h.unique hl]
  · rwa [h.unique hruns]

lemma Represents.same (h : Represents S pSet) (h' : Represents S pSet') :
    (∀ pm, pSet.isMemberOfSet pm = pSet'.isMemberOfSet pm) ∧ ∀ l, Iterates pSet 0 l ↔ Iterates pSet' 0 l := by
  refine ⟨fun pm => ?_,fun l => (h.runs l).trans (h'.runs l).symm⟩
  obtain ⟨r,hr,hiff⟩ := h.member pm
  obtain ⟨r',hr',hiff'⟩ := h'.member pm
  rw [hr,hr',Option.some.injEq,Bool.eq_iff_iff]
  exact hiff.trans hiff'.symm

variable {l : List RecordSetInterval}

lemma represents_intervalList (hle : ∀ i ∈ l, i.first ≤ i.last) :
    Represents (Covers l) (.intervalList (intervalListCreateSet l) : RecordSet w) := by
  obtain ⟨hsep,hcover⟩ := intervalListCreateSet_spec hle
  refine represents_of_iterates (fun pm => ?_) (iterates_intervalList (intervalListCreateSet l) 0) (hsep.runsOf.congr hcover)
  obtain ⟨r,hr,hiff⟩ := intervalListIsMemberOfSet_spec hsep pm
  exact ⟨r,hr,hiff.trans (hcover pm)⟩

lemma represents_bitVector (hw : 0 < w) (hl : ∀ i ∈ l, i.last < 2^16) :
    ∃ pbvs, bitVectorCreateSet w l = some pbvs ∧ Represents (Covers l) (.bitVector pbvs) := by
  obtain ⟨pbvs,hcreate,hok,hmax,hbit⟩ := bitVectorCreateSet_spec hw l
  obtain ⟨runs,hiter,hsep,_,hcover⟩ := iterates_bitVector hok (by rw [hmax]; exact maxMember_lt hl) 0
  refine ⟨pbvs,hcreate,represents_of_iterates (fun pm => ?_) hiter (hsep.runsOf.congr fun x => ?_)⟩
  · exact ⟨_,bitVectorIsMemberOfSet_spec hok pm,hbit pm⟩
  · rw [hcover,hbit]
    simp

/-- For every list of intervals, `RecordCreateSet` makes a set that has exactly their members and whose
iteration gives their maximal runs, unless the memory it is given does not fit; both representations would do,
and give the same answers. -/
theorem recordCreateSet_represents (mc : Machine) (l : List RecordSetInterval)
    (hl : ∀ i ∈ l, i.first ≤ i.last ∧ i.last ≤ 65535) :
    (∀ pMem, ∃ r, recordCreateSet mc l pMem = some r ∧
      (r.isSome = true ↔ memoryFits mc (recordSetMemoryRequirements mc l).1 pMem = true) ∧
      ∀ pSet, r = some pSet → Represents (Covers l) pSet) ∧
    ∃ pbvs, bitVectorCreateSet mc.bitsPerLong l = some pbvs ∧
      ∀ bv il : RecordSet mc.bitsPerLong, bv = .bitVector pbvs → il = .intervalList (intervalListCreateSet l) →
        Represents (Covers l) bv ∧ Represents (Covers l) il ∧
        (∀ pm, bv.isMemberOfSet pm = il.isMemberOfSet pm) ∧ ∀ runs, Iterates bv 0 runs ↔ Iterates il 0 runs := by
  obtain ⟨pbvs,hcreate,hvector⟩ := represents_bitVector mc.bitsPos (l := l) fun i hi => by
    have := (hl i hi).2
    omega
  have hlist : Represents (Covers l) (.intervalList (intervalListCreateSet l) : RecordSet mc.bitsPerLong) :=
    represents_intervalList fun i hi => (hl i hi).1
  refine ⟨fun pMem => ?_,pbvs,hcreate,?_⟩
  · simp only [recordCreateSet]
    cases hfits : memoryFits mc (recordSetMemoryRequirements mc l).1 pMem with
    | false => exact ⟨none,rfl,by simp,by simp⟩
    | true =>
      cases (recordSetMemoryRequirements mc l).2 with
      | true =>
        refine ⟨some (.bitVector pbvs),by simp [hcreate],by simp,fun pSet hp => ?_⟩
        obtain rfl := Option.some.inj hp
        exact hvector
      | false =>
        refine ⟨some (.intervalList (intervalListCreateSet l)),by simp,by simp,fun pSet hp => ?_⟩
        obtain rfl := Option.some.inj hp
        exact hlist
  · rintro bv il rfl rfl
    exact ⟨hvector,hlist,hvector.same hlist⟩

/-- Three intervals that overlap and abut, on a machine with words of 64 bits. -/
theorem recordCreateSet_represents_overlap :
    ∃ pSet, recordCreateSet ⟨8,16,8,by decide⟩ [⟨60,70⟩,⟨3,9⟩,⟨71,71⟩] none = some (some pSet) ∧
      Represents (Covers [⟨60,70⟩,⟨3,9⟩,⟨71,71⟩]) pSet := by
  obtain ⟨r,hr,hsome,hrep⟩ := (recordCreateSet_represents ⟨8,16,8,by decide⟩ [⟨60,70⟩,⟨3,9⟩,⟨71,71⟩] (by decide)).1 none
  obtain ⟨pSet,rfl⟩ := Option.isSome_iff_exists.mp (hsome.mpr rfl)
  exact ⟨pSet,hr,hrep pSet rfl⟩

end Xlibre.Record
