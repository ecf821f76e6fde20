import Mathlib.Logic.Basic

/-! Computations that can fault, with conditions that are evaluated from the left. -/
namespace Xlibre.Lib.Checked

universe u

variable {ε : Type*} {α β : Type u} {e : ε}

lemma ok_bind (a : α) (f : α → Except ε β) : (Except.ok a : Except ε α).bind f = f a := rfl

/-- A sequence ends well when each part does. -/
lemma bind_eq_ok {x : Except ε α} {f : α → Except ε β} {b : β} : (x >>= f) = .ok b ↔ ∃ a, x = .ok a ∧ f a = .ok b := by
  constructor
  · intro h
    cases x with
    | error e => cases h
    | ok a => exact ⟨a,rfl,h⟩
  · rintro ⟨a,rfl,h⟩
    exact h

lemma map_eq_ok {x : Except ε α} {f : α → β} {b : β} : f <$> x = .ok b ↔ ∃ a, x = .ok a ∧ f a = b := by
  constructor
  · intro h
    cases x with
    | error e => cases h
    | ok a =>
      cases h
      exact ⟨a,rfl,rfl⟩
  · rintro ⟨a,rfl,rfl⟩
    rfl

lemma or_ok {x y : Except ε Bool} {a b : Bool} (hx : x = .ok a) (hy : y = .ok b) : (x <||> y) = .ok (a || b) := by
  rw [hx,hy]
  cases a <;> rfl

lemma and_error {x y : Except ε Bool} (h : x = .error e) : (x <&&> y) = .error e := by
  rw [h]
  rfl

lemma and_ok {x y : Except ε Bool} {a b : Bool} (hx : x = .ok a) (hy : y = .ok b) : (x <&&> y) = .ok (a && b) := by
  rw [hx,hy]
  cases a <;> rfl

lemma and_eq_ok_true {x y : Except ε Bool} (h : (x <&&> y) = .ok true) : x = .ok true ∧ y = .ok true := by
  cases x with
  | error e => cases h
  | ok a =>
    cases a with
    | false => cases h
    | true => exact ⟨rfl,h⟩

/-- A computation that does not end in one of some faults. -/
def Avoids (bad : ε → Prop) (x : Except ε α) : Prop := ∀ e, bad e → x ≠ .error e

variable {bad : ε → Prop}

lemma Avoids.ok (a : α) : Avoids bad (.ok a : Except ε α) := fun _ _ h => nomatch h

lemma Avoids.of_ok {x : Except ε α} {a : α} (h : x = .ok a) : Avoids bad x := by
  rw [h]
  exact Avoids.ok a

lemma Avoids.error {e : ε} (he : ¬bad e) : Avoids bad (.error e : Except ε α) := by
  intro e' hbad h
  cases h
  exact he hbad

lemma Avoids.bind {x : Except ε α} {f : α → Except ε β} (hx : Avoids bad x) (hf : ∀ a, x = .ok a → Avoids bad (f a)) :
    Avoids bad (x >>= f) := by
  intro e hbad h
  cases x with
  | error e' =>
    cases h
    exact hx _ hbad rfl
  | ok a => exact hf a rfl e hbad h

lemma Avoids.map {x : Except ε α} (f : α → β) (hx : Avoids bad x) : Avoids bad (f <$> x) := by
  intro e hbad h
  cases x with
  | error e' =>
    cases h
    exact hx _ hbad rfl
  | ok a => cases h

lemma Avoids.ite {c : Prop} [Decidable c] {x y : Except ε α} (hx : c → Avoids bad x) (hy : ¬c → Avoids bad y) :
    Avoids bad (if c then x else y) := by
  by_cases h : c
  · rw [if_pos h]
    exact hx h
  · rw [if_neg h]
    exact hy h

end Xlibre.Lib.Checked
