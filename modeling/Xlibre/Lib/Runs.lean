import Mathlib.Data.List.Pairwise
import Mathlib.Data.List.Nodup
import Mathlib.Data.List.Perm.Basic

/-! Sets of natural numbers as ascending lists of intervals with gaps between them: such a list consists of the
maximal runs of the set it covers, and is determined by that set. -/
namespace Xlibre.Lib.Runs

/-- The numbers from `first` to `last`, both included. -/
structure Interval where
  first : ℕ
  last : ℕ
deriving DecidableEq, Repr

def Interval.Has (i : Interval) (x : ℕ) : Prop := i.first ≤ x ∧ x ≤ i.last

instance (i : Interval) (x : ℕ) : Decidable (i.Has x) := inferInstanceAs (Decidable (_ ∧ _))

/-- The numbers in one of the intervals of a list. -/
def Covers (l : List Interval) (x : ℕ) : Prop := ∃ i ∈ l, i.Has x

@[simp] lemma covers_nil (x : ℕ) : ¬ Covers [] x := by simp [Covers]

@[simp] lemma covers_cons (i : Interval) (l : List Interval) (x : ℕ) : Covers (i::l) x ↔ i.Has x ∨ Covers l x := by
  simp [Covers]

lemma covers_perm {l l' : List Interval} (h : l.Perm l') (x : ℕ) : Covers l x ↔ Covers l' x := by
  simp only [Covers,h.mem_iff]

/-- A run of consecutive members of `S` that no member extends. -/
structure MaximalRun (S : ℕ → Prop) (i : Interval) : Prop where
  le : i.first ≤ i.last
  mem : ∀ x, i.Has x → S x
  before : ∀ x, x+1 = i.first → ¬ S x
  after : ¬ S (i.last+1)

/-- All maximal runs of `S`, in ascending order. -/
structure RunsOf (S : ℕ → Prop) (l : List Interval) : Prop where
  ascending : l.Pairwise fun a b => a.last < b.first
  mem_iff : ∀ i, i ∈ l ↔ MaximalRun S i

/-- Intervals in ascending order that neither overlap nor abut. -/
structure Separated (l : List Interval) : Prop where
  gap : l.Pairwise fun a b => a.last+1 < b.first
  le : ∀ i ∈ l, i.first ≤ i.last

lemma separated_nil : Separated [] := ⟨List.Pairwise.nil,by simp⟩

lemma Separated.cons {l : List Interval} {i : Interval} (h : Separated l) (hle : i.first ≤ i.last)
    (hgap : ∀ j ∈ l, i.last+1 < j.first) : Separated (i::l) :=
  ⟨h.gap.cons hgap,by simpa using ⟨hle,h.le⟩⟩

lemma Separated.tail {l : List Interval} {i : Interval} (h : Separated (i::l)) : Separated l :=
  ⟨(List.pairwise_cons.mp h.gap).2,fun j hj => h.le j (by simp [hj])⟩

/-- Two intervals of a separated list are equal or have a gap between them. -/
lemma Separated.eq_or_gap {l : List Interval} (h : Separated l) {i j : Interval} (hi : i ∈ l) (hj : j ∈ l) :
    i = j ∨ i.last+1 < j.first ∨ j.last+1 < i.first := by
  induction l with
  | nil => simp at hi
  | cons a l ih =>
    have hgap := (List.pairwise_cons.mp h.gap).1
    rcases List.mem_cons.mp hi with rfl | hi'
    · rcases List.mem_cons.mp hj with rfl | hj'
      · exact .inl rfl
      · exact .inr (.inl (hgap j hj'))
    · rcases List.mem_cons.mp hj with rfl | hj'
      · exact .inr (.inr (hgap i hi'))
      · exact ih h.tail hi' hj'

lemma Separated.maximal {l : List Interval} (h : Separated l) {i : Interval} (hi : i ∈ l) : MaximalRun (Covers l) i := by
  refine ⟨h.le i hi,fun x hx => ⟨i,hi,hx⟩,fun x hx => ?_,?_⟩
  · rintro ⟨j,hj,hxj⟩
    have hle := h.le i hi
    simp only [Interval.Has] at hxj
    rcases h.eq_or_gap hi hj with rfl | hgap | hgap
    · omega
    · omega
    · omega
  · rintro ⟨j,hj,hxj⟩
    have hle := h.le i hi
    simp only [Interval.Has] at hxj
    rcases h.eq_or_gap hi hj with rfl | hgap | hgap
    · omega
    · omega
    · omega

/-- A run of members of the covered set stays in the interval it begins in. -/
lemma Separated.run_inside {l : List Interval} (h : Separated l) {i : Interval} (hi : i ∈ l) {a b : ℕ} (ha : i.Has a)
    (hrun : ∀ x, a ≤ x → x ≤ b → Covers l x) : b ≤ i.last := by
  by_contra hb
  exact (h.maximal hi).after (hrun (i.last+1) (by have := ha.2; omega) (by omega))

/-- A separated list consists of the maximal runs of what it covers. -/
theorem Separated.runsOf {l : List Interval} (h : Separated l) : RunsOf (Covers l) l := by
  refine ⟨h.gap.imp fun hgap => by omega,fun i => ⟨h.maximal,fun hmax => ?_⟩⟩
  obtain ⟨j,hj,hfirst⟩ := hmax.mem i.first ⟨Nat.le_refl _,hmax.le⟩
  have hjmax := h.maximal hj
  -- Both ends agree: neither run goes on beyond the other.
  have hlast : i.last = j.last := by
    refine Nat.le_antisymm (h.run_inside hj hfirst fun x h₁ h₂ => hmax.mem x ⟨h₁,h₂⟩) ?_
    by_contra hlt
    have := hfirst.1
    exact hmax.after (hjmax.mem _ ⟨by have := hmax.le; omega,by omega⟩)
  have hstart : i.first = j.first := by
    refine Nat.le_antisymm ?_ hfirst.1
    by_contra hlt
    have := hfirst.2
    exact hmax.before (i.first-1) (by omega) (hjmax.mem _ ⟨by omega,by omega⟩)
  have hij : i = j := by
    cases i
    cases j
    simp_all
  rwa [hij]

/-- A list in an order that no two of its members have both ways is given by its members. -/
theorem ordered_unique {α : Type*} {r : α → α → Prop} {l l' : List α} (h : l.Pairwise r) (h' : l'.Pairwise r)
    (hasymm : ∀ a ∈ l, ∀ b ∈ l, r a b → ¬ r b a) (hmem : ∀ a, a ∈ l ↔ a ∈ l') : l = l' := by
  have hnodup : ∀ {m : List α}, m.Pairwise r → (∀ a, a ∈ m → a ∈ l) → m.Nodup := by
    intro m hm hml
    refine hm.imp_of_mem fun {a b} ha _ hab => ?_
    rintro rfl
    exact hasymm a (hml a ha) a (hml a ha) hab hab
  have hperm : l.Perm l' :=
    (List.perm_ext_iff_of_nodup (hnodup h fun a ha => ha) (hnodup h' fun a ha => (hmem a).mpr ha)).mpr hmem
  refine List.Perm.eq_of_pairwise (fun a b ha hb hab hba => ?_) h h' hperm
  exact absurd hba (hasymm a ha b ((hmem b).mpr hb) hab)

/-- There is only one list of the maximal runs of a set. -/
theorem RunsOf.unique {S : ℕ → Prop} {l l' : List Interval} (h : RunsOf S l) (h' : RunsOf S l') : l = l' := by
  refine ordered_unique h.ascending h'.ascending (fun a ha b hb hab hba => ?_) fun i => by rw [h.mem_iff,h'.mem_iff]
  have h₁ := ((h.mem_iff a).mp ha).le
  have h₂ := ((h.mem_iff b).mp hb).le
  omega

lemma RunsOf.congr {S S' : ℕ → Prop} {l : List Interval} (h : RunsOf S l) (hS : ∀ x, S x ↔ S' x) : RunsOf S' l := by
  have : S = S' := funext fun x => propext (hS x)
  exact this ▸ h

end Xlibre.Lib.Runs
