import Mathlib.Data.List.Chain
import Mathlib.Order.Lattice

/-! Lists of items that tile a range of integers, and lists of which no two neighbours are free. -/
namespace Xlibre.Lib.Tiling

variable {α : Type*}

section Tiles
variable (start len : α → ℤ)

/-- The items begin at `lo`, each begins where the one before ends, none is empty, and they end at `hi`. -/
def Tiles : ℤ → List α → ℤ → Prop
  | lo, [], hi => lo = hi
  | lo, a::l, hi => start a = lo ∧ 0 < len a ∧ Tiles (lo + len a) l hi

/-- A place lies in an item. -/
def Has (a : α) (x : ℤ) : Prop := start a ≤ x ∧ x < start a + len a

instance (a : α) (x : ℤ) : Decidable (Has start len a x) := inferInstanceAs (Decidable (_ ∧ _))

variable {start len} {lo hi x : ℤ} {l l' m m' : List α} {a b : α}

@[simp] lemma tiles_nil : Tiles start len lo [] hi ↔ lo = hi := Iff.rfl

@[simp] lemma tiles_cons :
    Tiles start len lo (a::l) hi ↔ start a = lo ∧ 0 < len a ∧ Tiles start len (lo + len a) l hi := Iff.rfl

lemma tiles_append : Tiles start len lo (l ++ l') hi ↔ ∃ mid, Tiles start len lo l mid ∧ Tiles start len mid l' hi := by
  induction l generalizing lo with
  | nil => simp
  | cons a l ih =>
    rw [List.cons_append,tiles_cons,ih]
    constructor
    · rintro ⟨hstart,hlen,mid,hl,hl'⟩
      exact ⟨mid,⟨hstart,hlen,hl⟩,hl'⟩
    · rintro ⟨mid,⟨hstart,hlen,hl⟩,hl'⟩
      exact ⟨hstart,hlen,mid,hl,hl'⟩

lemma Tiles.congr {start' len' : α → ℤ} (h : Tiles start len lo l hi)
    (heq : ∀ a ∈ l, start' a = start a ∧ len' a = len a) : Tiles start' len' lo l hi := by
  induction l generalizing lo with
  | nil => exact h
  | cons a l ih =>
    obtain ⟨hstart,hlen⟩ := heq a List.mem_cons_self
    rw [tiles_cons,hstart,hlen]
    exact ⟨h.1,h.2.1,ih h.2.2 fun b hb => heq b (List.mem_cons_of_mem a hb)⟩

/-- The last item ends where the range does. -/
lemma Tiles.last (h : Tiles start len lo l hi) (ha : a ∈ l.getLast?) : start a + len a = hi := by
  obtain ⟨l,rfl⟩ := List.getLast?_eq_some_iff.1 ha
  obtain ⟨mid,-,rfl,-,hend⟩ := tiles_append.1 h
  exact hend

/-- A part of a tiling may be exchanged for another one of the same range. -/
lemma Tiles.replace (h : Tiles start len lo (l ++ m ++ l') hi)
    (hm : ∀ p q, Tiles start len p m q → Tiles start len p m' q) : Tiles start len lo (l ++ m' ++ l') hi := by
  obtain ⟨q,hq,hl'⟩ := tiles_append.1 h
  obtain ⟨p,hl,hpart⟩ := tiles_append.1 hq
  exact tiles_append.2 ⟨q,tiles_append.2 ⟨p,hl,hm p q hpart⟩,hl'⟩

lemma Tiles.le (h : Tiles start len lo l hi) : lo ≤ hi := by
  induction l generalizing lo with
  | nil => exact (tiles_nil.1 h).le
  | cons a l ih =>
    have := ih h.2.2
    have := h.2.1
    omega

/-- The items lie in the range. -/
lemma Tiles.within (h : Tiles start len lo l hi) (ha : a ∈ l) : lo ≤ start a ∧ 0 < len a ∧ start a + len a ≤ hi := by
  induction l generalizing lo with
  | nil => cases ha
  | cons b l ih =>
    obtain ⟨hstart,hlen,hl⟩ := h
    obtain rfl | ha := List.mem_cons.1 ha
    · have := hl.le
      omega
    · have := ih hl ha
      omega

/-- Each item ends before the later ones begin. -/
lemma Tiles.ordered (h : Tiles start len lo l hi) : l.Pairwise fun a b => start a + len a ≤ start b := by
  induction l generalizing lo with
  | nil => exact List.Pairwise.nil
  | cons a l ih =>
    obtain ⟨hstart,-,hl⟩ := h
    refine (ih hl).cons fun b hb => ?_
    have := (hl.within hb).1
    omega

/-- The range consists of the places in the items. -/
lemma Tiles.covers (h : Tiles start len lo l hi) : lo ≤ x ∧ x < hi ↔ ∃ a ∈ l, Has start len a x := by
  induction l generalizing lo with
  | nil =>
    rw [tiles_nil] at h
    simp only [List.not_mem_nil,false_and,exists_false,iff_false]
    omega
  | cons a l ih =>
    obtain ⟨hstart,hlen,hl⟩ := h
    rw [List.exists_mem_cons_iff,← ih hl,Has]
    have := hl.le
    omega

/-- No place lies in two items. -/
lemma Tiles.eq_of_has (h : Tiles start len lo l hi) (ha : a ∈ l) (hb : b ∈ l) (hax : Has start len a x)
    (hbx : Has start len b x) : a = b := by
  induction l generalizing lo with
  | nil => cases ha
  | cons c l ih =>
    obtain ⟨hbefore,-⟩ := List.pairwise_cons.1 h.ordered
    obtain ⟨hax₁,hax₂⟩ := hax
    obtain ⟨hbx₁,hbx₂⟩ := hbx
    obtain rfl | hal := List.mem_cons.1 ha
    · obtain rfl | hbl := List.mem_cons.1 hb
      · rfl
      · have := hbefore b hbl
        omega
    · obtain rfl | hbl := List.mem_cons.1 hb
      · have := hbefore a hal
        omega
      · exact ih h.2.2 hal hbl

end Tiles

section Apart
variable (free : α → Bool)

/-- No two neighbours are free. -/
def Apart (l : List α) : Prop := l.IsChain fun a b => ¬(free a ∧ free b)

instance (l : List α) : Decidable (Apart free l) := inferInstanceAs (Decidable (l.IsChain _))

variable {free} {l l' m : List α} {a : α}

@[simp] lemma apart_nil : Apart free [] := List.isChain_nil

@[simp] lemma apart_singleton : Apart free [a] := List.isChain_singleton a

lemma apart_append : Apart free (l ++ l') ↔ Apart free l ∧ Apart free l' ∧
    ∀ a ∈ l.getLast?, ∀ b ∈ l'.head?, ¬(free a ∧ free b) := List.isChain_append

lemma apart_cons : Apart free (a::l) ↔ Apart free l ∧ ∀ b ∈ l.head?, ¬(free a ∧ free b) := by
  rw [← List.singleton_append,apart_append]
  simp

lemma Apart.left (h : Apart free (l ++ l')) : Apart free l := (apart_append.1 h).1

lemma Apart.right (h : Apart free (l ++ l')) : Apart free l' := (apart_append.1 h).2.1

lemma Apart.congr {free' : α → Bool} (h : Apart free l) (heq : ∀ a ∈ l, free' a = free a) : Apart free' l := by
  induction l with
  | nil => exact apart_nil
  | cons a l ih =>
    obtain ⟨hl,hhead⟩ := apart_cons.1 h
    refine apart_cons.2 ⟨ih hl fun b hb => heq b (List.mem_cons_of_mem a hb),fun b hb => ?_⟩
    rw [heq a List.mem_cons_self,heq b (List.mem_cons_of_mem a (List.mem_of_mem_head? hb))]
    exact hhead b hb

/-- A list between two that the neighbours of are not free. -/
lemma Apart.between (hl : Apart free l) (hm : Apart free m) (hl' : Apart free l')
    (hlast : ∀ b ∈ l.getLast?, free b = false) (hhead : ∀ b ∈ l'.head?, free b = false) :
    Apart free (l ++ m ++ l') := by
  refine apart_append.2 ⟨apart_append.2 ⟨hl,hm,fun b hb c _ h => ?_⟩,hl',fun b _ c hc h => ?_⟩
  · rw [hlast b hb] at h
    exact absurd h.1 Bool.false_ne_true
  · rw [hhead c hc] at h
    exact absurd h.2 Bool.false_ne_true

/-- The neighbours of a free item are not free. -/
lemma Apart.neighbours (h : Apart free (l ++ a::l')) (ha : free a) :
    (∀ b ∈ l.getLast?, free b = false) ∧ ∀ b ∈ l'.head?, free b = false := by
  constructor
  · intro b hb
    have := (apart_append.1 h).2.2 b hb a rfl
    simpa [ha] using this
  · intro b hb
    have := (apart_cons.1 h.right).2 b hb
    simpa [ha] using this

/-- A free item may be exchanged for any items of which no two neighbours are free. -/
lemma Apart.replace (h : Apart free (l ++ a::l')) (ha : free a) (hm : Apart free m) : Apart free (l ++ m ++ l') :=
  have hneighbours := h.neighbours ha
  h.left.between hm (apart_cons.1 h.right).1 hneighbours.1 hneighbours.2

/-- If everything is free there is only one item. -/
lemma Apart.singleton (h : Apart free l) (hfree : ∀ a ∈ l, free a) (hne : l ≠ []) : ∃ a, l = [a] := by
  obtain _ | ⟨a,_ | ⟨b,l⟩⟩ := l
  · exact absurd rfl hne
  · exact ⟨a,rfl⟩
  · exact absurd ⟨hfree a (by simp),hfree b (by simp)⟩ (List.isChain_cons_cons.1 h).1

end Apart

end Xlibre.Lib.Tiling
