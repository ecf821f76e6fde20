import Mathlib.Order.Lattice

/-! A value of an ordered type that is looked at only when it reaches a mark above it or below it. -/
namespace Xlibre.Lib.Watch

section Quiet

variable {α : Type*} [LinearOrder α] {up down : Prop} {above below : Set α} {v₀ u v c : α}

/-- A move of a value that may rise if `up`, and fall if `down`. -/
def Allowed (up down : Prop) (u v : α) : Prop := (u < v → up) ∧ (v < u → down)

/-- Strictly between the marks. -/
def Inside (above below : Set α) (v : α) : Prop := (∀ a ∈ above, v < a) ∧ ∀ b ∈ below, b < v

/-- Allowed moves that reach no mark. -/
def Quiet (up down : Prop) (above below : Set α) : α → α → Prop :=
  Relation.ReflTransGen fun u v => Allowed up down u v ∧ Inside above below v

lemma Quiet.inside (h : Quiet up down above below v₀ u) : u = v₀ ∨ Inside above below u := by
  induction h with
  | refl => exact .inl rfl
  | tail _ hlast => exact .inr hlast.2

lemma Quiet.le (hdown : ¬down) (h : Quiet up down above below v₀ u) : v₀ ≤ u := by
  induction h with
  | refl => exact le_rfl
  | tail _ hlast ih => exact ih.trans (not_lt.1 fun hlt => hdown (hlast.1.2 hlt))

lemma Quiet.ge (hup : ¬up) (h : Quiet up down above below v₀ u) : u ≤ v₀ := by
  induction h with
  | refl => exact le_rfl
  | tail _ hlast ih => exact (not_lt.1 fun hlt => hup (hlast.1.1 hlt)).trans ih

/-- The same moves seen upside down. -/
lemma quiet_dual : Quiet (α := αᵒᵈ) down up below above v₀ u ↔ Quiet up down above below v₀ u := by
  have hstep : (fun u v => Allowed (α := αᵒᵈ) down up u v ∧ Inside (α := αᵒᵈ) below above v) =
      fun u v : α => Allowed up down u v ∧ Inside above below v := by
    funext u v
    exact propext (and_congr and_comm and_comm)
  exact iff_of_eq (congrArg (fun r => Relation.ReflTransGen r v₀ u) hstep)

end Quiet

section Crossing

variable {α : Type*} [LinearOrder α] {up down : Prop} {above below : Set α} {v₀ c : α}

/-- Getting to a level from below reaches a mark exactly when one is on the way. -/
theorem level_iff (hc : v₀ < c) (hbelow : ∀ b ∈ below, b ≤ v₀) :
    (∀ u v, Quiet up down above below v₀ u → Allowed up down u v → c ≤ v → ¬Inside above below v) ↔
      (up → ∃ a ∈ above, a ≤ c) := by
  constructor
  · intro h hup
    have hout := h v₀ c .refl ⟨fun _ => hup,fun hlt => absurd hlt hc.asymm⟩ le_rfl
    by_contra hno
    push Not at hno
    exact hout ⟨hno,fun b hb => (hbelow b hb).trans_lt hc⟩
  · intro h u v hquiet hmove hv hin
    have hup : up := by
      obtain hle | hlt := le_or_gt v u
      · by_contra hup
        exact absurd (hc.trans_le (hv.trans (hle.trans (hquiet.ge hup)))) (lt_irrefl _)
      · exact hmove.1 hlt
    obtain ⟨a,ha,hac⟩ := h hup
    exact absurd (hin.1 a ha) (hac.trans hv).not_gt

/-- Crossing a level upwards reaches a mark exactly when one is on the way, or no value that reaches none is below it. -/
theorem rise_iff (habove : ∀ a ∈ above, v₀ ≤ a) (hbelow : ∀ b ∈ below, b ≤ v₀) :
    (∀ u v, Quiet up down above below v₀ u → Allowed up down u v → u < c → c ≤ v → ¬Inside above below v) ↔
      (up → (v₀ < c ∨ down ∧ ∃ u < c, ∀ b ∈ below, b < u) → ∃ a ∈ above, a ≤ c) := by
  constructor
  · intro h hup hlow
    by_contra hno
    push Not at hno
    obtain hc | hc := lt_or_ge v₀ c
    · exact h v₀ c .refl ⟨fun _ => hup,fun hlt => absurd hlt hc.asymm⟩ hc le_rfl ⟨hno,fun b hb => (hbelow b hb).trans_lt hc⟩
    · obtain hlow | ⟨hdown,u,hu,hin⟩ := hlow
      · exact absurd hlow hc.not_gt
      -- first down below the level, then up to it
      have hinside : Inside above below u := ⟨fun a ha => hu.trans_le (hc.trans (habove a ha)),hin⟩
      exact h u c (.single ⟨⟨fun _ => hup,fun _ => hdown⟩,hinside⟩) ⟨fun _ => hup,fun _ => hdown⟩ hu le_rfl
        ⟨hno,fun b hb => (hin b hb).trans hu⟩
  · intro h u v hquiet hmove hu hv hin
    have hlow : v₀ < c ∨ down ∧ ∃ u < c, ∀ b ∈ below, b < u := by
      obtain hc | hc := lt_or_ge v₀ c
      · exact .inl hc
      have hbelow₀ : u < v₀ := hu.trans_le hc
      refine .inr ⟨?_,u,hu,?_⟩
      · by_contra hdown
        exact absurd hbelow₀ (hquiet.le hdown).not_gt
      · obtain rfl | hin := hquiet.inside
        · exact absurd hbelow₀ (lt_irrefl _)
        · exact hin.2
    obtain ⟨a,ha,hac⟩ := h (hmove.1 (hu.trans_le hv)) hlow
    exact absurd (hin.1 a ha) (hac.trans hv).not_gt

/-- `level_iff` upside down. -/
theorem level_iff' (hc : c < v₀) (habove : ∀ a ∈ above, v₀ ≤ a) :
    (∀ u v, Quiet up down above below v₀ u → Allowed up down u v → v ≤ c → ¬Inside above below v) ↔
      (down → ∃ b ∈ below, c ≤ b) := by
  refine Iff.trans ?_ (@level_iff αᵒᵈ _ down up below above v₀ c hc habove)
  exact forall₂_congr fun u v => imp_congr quiet_dual.symm (imp_congr and_comm (imp_congr Iff.rfl (not_congr and_comm)))

/-- `rise_iff` upside down. -/
theorem fall_iff (habove : ∀ a ∈ above, v₀ ≤ a) (hbelow : ∀ b ∈ below, b ≤ v₀) :
    (∀ u v, Quiet up down above below v₀ u → Allowed up down u v → c < u → v ≤ c → ¬Inside above below v) ↔
      (down → (c < v₀ ∨ up ∧ ∃ u > c, ∀ a ∈ above, u < a) → ∃ b ∈ below, c ≤ b) := by
  refine Iff.trans ?_ (@rise_iff αᵒᵈ _ down up below above v₀ c hbelow habove)
  exact forall₂_congr fun u v => imp_congr quiet_dual.symm
    (imp_congr and_comm (imp_congr Iff.rfl (imp_congr Iff.rfl (not_congr and_comm))))

end Crossing

end Xlibre.Lib.Watch
