import Mathlib.Data.List.Induction
import Xlibre.Lib.Watch
import Xlibre.Sync.Lifecycle

/-! The brackets of a system counter, and the triggers that become true between them. -/
namespace Xlibre.Sync

section Code

def syncUpdateCounter (w : World) (x : XID) (newval : Int64) : World :=
  match w.objs x with
  | some ⟨.counter _ sys,l,d⟩ => w.setObj x ⟨.counter newval sys,l,d⟩
  | _ => w

/-- The test of `IdleTimeCheckBrackets`. -/
def reachesBracket (less greater : Option Int64) (idle : Int64) : Bool :=
  greater.any (fun greater => decide (greater ≤ idle)) || less.any (fun less => decide (idle ≤ less))

def idleTimeCheckBrackets (w : World) (x : XID) (idle : Int64) (less greater : Option Int64) : World :=
  if reachesBracket less greater idle then syncChangeCounter w x idle else syncUpdateCounter w x idle

/-- `ServertimeWakeupHandler`, with the bracket that it has as `pnext_time`. -/
def servertimeWakeupHandler (w : World) (x : XID) (now : Int64) : Option Int64 → World
  | none => w
  | some next => if next ≤ now then syncChangeCounter w x now else w

end Code

section Purpose

/-- Where the type lets a counter go. -/
def Permitted : SyncCounterType → Int64 → Int64 → Prop
  | .neverChanges,u,v => v = u
  | .neverIncreases,u,v => v ≤ u
  | .neverDecreases,u,v => u ≤ v
  | .unrestricted,_,_ => True

/-- A system counter goes to a value that is strictly between its brackets, and nobody looks at its triggers. -/
inductive Unwatched (x : XID) : World → World → Prop
  | move {w : World} {u v : Int64} {sys : SysCounterInfo} {l : List (Option TrigRef)} {d : Bool}
      (ho : w.objs x = some ⟨.counter u (some sys),l,d⟩) (hmove : Permitted sys.counterType u v)
      (hin : reachesBracket sys.handed.1 sys.handed.2 v = false) : Unwatched x w (syncUpdateCounter w x v)

/-- However the counter goes on between its brackets, a trigger on its list can be true only where a bracket is reached. -/
def NothingHidden (w : World) (x : XID) : Prop :=
  ∀ w₁, Relation.ReflTransGen (Unwatched x) w w₁ → ∀ u sys l d, w₁.objs x = some ⟨.counter u (some sys),l,d⟩ →
    ∀ v, Permitted sys.counterType u v → ∀ t, some t ∈ l → check (syncUpdateCounter w₁ x v) (w₁.trig t) u = true →
      reachesBracket sys.handed.1 sys.handed.2 v = true

end Purpose

section Marks

/-- A test value from `value` upwards that `SyncComputeBracketValues` looks at. -/
def BoundsAbove (ct : SyncCounterType) (value : Int64) (t : SyncTrigger) : Prop :=
  t.testValue < Int64.maxValue ∧
    (value < t.testValue ∧ (t.testType = positiveComparison ∧ ct ≠ .neverIncreases ∨
        t.testType = negativeComparison ∧ ct ≠ .neverDecreases ∨ t.testType = negativeTransition ∧ ct ≠ .neverIncreases) ∨
      value ≤ t.testValue ∧ t.testType = positiveTransition ∧ ct ≠ .neverDecreases)

/-- A test value from `value` downwards that `SyncComputeBracketValues` looks at. -/
def BoundsBelow (ct : SyncCounterType) (value : Int64) (t : SyncTrigger) : Prop :=
  Int64.minValue < t.testValue ∧
    (t.testValue < value ∧ (t.testType = positiveComparison ∧ ct ≠ .neverIncreases ∨
        t.testType = negativeComparison ∧ ct ≠ .neverDecreases ∨ t.testType = positiveTransition ∧ ct ≠ .neverDecreases) ∨
      t.testValue ≤ value ∧ t.testType = negativeTransition ∧ ct ≠ .neverIncreases)

instance (ct : SyncCounterType) (value : Int64) : DecidablePred (BoundsAbove ct value) := fun _ => instDecidableAnd

instance (ct : SyncCounterType) (value : Int64) : DecidablePred (BoundsBelow ct value) := fun _ => instDecidableAnd

def upperMarks (ct : SyncCounterType) (value : Int64) (ts : List SyncTrigger) : Set Int64 :=
  {c | ∃ t ∈ ts, BoundsAbove ct value t ∧ t.testValue = c}

def lowerMarks (ct : SyncCounterType) (value : Int64) (ts : List SyncTrigger) : Set Int64 :=
  {c | ∃ t ∈ ts, BoundsBelow ct value t ∧ t.testValue = c}

/-- Wherever the trigger can become true, some trigger of the list gives a bracket that has been reached. -/
def Noticed (ct : SyncCounterType) (value : Int64) (ts : List SyncTrigger) (t : SyncTrigger) : Prop :=
  match t.checkTrigger with
  | .positiveComparison => ct ≠ .neverIncreases → ∃ c ∈ upperMarks ct value ts, c ≤ t.testValue
  | .negativeComparison => ct ≠ .neverDecreases → ∃ c ∈ lowerMarks ct value ts, t.testValue ≤ c
  | .positiveTransition => ct ≠ .neverIncreases →
    (value < t.testValue ∨ ct ≠ .neverDecreases ∧ ∃ u < t.testValue, ∀ c ∈ lowerMarks ct value ts, c < u) →
      ∃ c ∈ upperMarks ct value ts, c ≤ t.testValue
  | .negativeTransition => ct ≠ .neverDecreases →
    (t.testValue < value ∨ ct ≠ .neverIncreases ∧ ∃ u > t.testValue, ∀ c ∈ upperMarks ct value ts, u < c) →
      ∃ c ∈ lowerMarks ct value ts, t.testValue ≤ c
  | .fence => True

end Marks

section Brackets

variable {ct : SyncCounterType} {value : Int64} {b : Brackets} {t : SyncTrigger} {ts : List SyncTrigger}

lemma add_greater (ct : SyncCounterType) (value : Int64) (b : Brackets) (t : SyncTrigger) :
    ((b.add ct value t).greater,(b.add ct value t).newGreater) =
      if BoundsAbove ct value t ∧ t.testValue < b.greater then (t.testValue,true) else (b.greater,b.newGreater) := by
  have := Int64.le_maxValue b.greater
  simp only [Brackets.add,BoundsAbove,positiveComparison,negativeComparison,negativeTransition,positiveTransition,
    Brackets.lower,Brackets.raise]
  grind

lemma add_less (ct : SyncCounterType) (value : Int64) (b : Brackets) (t : SyncTrigger) :
    ((b.add ct value t).less,(b.add ct value t).newLess) =
      if BoundsBelow ct value t ∧ b.less < t.testValue then (t.testValue,true) else (b.less,b.newLess) := by
  have := Int64.minValue_le b.less
  simp only [Brackets.add,BoundsBelow,positiveComparison,negativeComparison,negativeTransition,positiveTransition,
    Brackets.lower,Brackets.raise]
  grind

/-- The brackets after some triggers of the list. -/
structure Brackets.Of (ct : SyncCounterType) (value : Int64) (ts : List SyncTrigger) (b : Brackets) : Prop where
  greater : ∀ z, (b.newGreater = true ∧ b.greater ≤ z) ↔ ∃ t ∈ ts, BoundsAbove ct value t ∧ t.testValue ≤ z
  less : ∀ z, (b.newLess = true ∧ z ≤ b.less) ↔ ∃ t ∈ ts, BoundsBelow ct value t ∧ z ≤ t.testValue
  unsetGreater : b.newGreater = false → b.greater = Int64.maxValue
  unsetLess : b.newLess = false → b.less = Int64.minValue

lemma Brackets.Of.start : Brackets.Of ct value [] .start where
  greater z := by simp [Brackets.start]
  less z := by simp [Brackets.start]
  unsetGreater _ := rfl
  unsetLess _ := rfl

lemma exists_upperMarks {p : Int64 → Prop} :
    (∃ c ∈ upperMarks ct value ts, p c) ↔ ∃ t ∈ ts, BoundsAbove ct value t ∧ p t.testValue := by
  constructor
  · rintro ⟨-,⟨t,ht,hb,rfl⟩,hp⟩
    exact ⟨t,ht,hb,hp⟩
  · rintro ⟨t,ht,hb,hp⟩
    exact ⟨_,⟨t,ht,hb,rfl⟩,hp⟩

lemma exists_lowerMarks {p : Int64 → Prop} :
    (∃ c ∈ lowerMarks ct value ts, p c) ↔ ∃ t ∈ ts, BoundsBelow ct value t ∧ p t.testValue := by
  constructor
  · rintro ⟨-,⟨t,ht,hb,rfl⟩,hp⟩
    exact ⟨t,ht,hb,hp⟩
  · rintro ⟨t,ht,hb,hp⟩
    exact ⟨_,⟨t,ht,hb,rfl⟩,hp⟩

lemma exists_concat {p : SyncTrigger → Prop} : (∃ s ∈ ts ++ [t], p s) ↔ (∃ s ∈ ts, p s) ∨ p t := by
  simp only [List.mem_append,List.mem_singleton,or_and_right,exists_or,exists_eq_left]

lemma Brackets.Of.add (h : b.Of ct value ts) (t : SyncTrigger) : (b.add ct value t).Of ct value (ts ++ [t]) := by
  have hgreater : (b.add ct value t).greater = _ := congrArg Prod.fst (add_greater ct value b t)
  have hnewGreater : (b.add ct value t).newGreater = _ := congrArg Prod.snd (add_greater ct value b t)
  have hless : (b.add ct value t).less = _ := congrArg Prod.fst (add_less ct value b t)
  have hnewLess : (b.add ct value t).newLess = _ := congrArg Prod.snd (add_less ct value b t)
  refine ⟨fun z => ?_,fun z => ?_,fun hnew => ?_,fun hnew => ?_⟩
  · rw [exists_concat,← h.greater z,hgreater,hnewGreater]
    have := h.unsetGreater
    have hbound : BoundsAbove ct value t → t.testValue < Int64.maxValue := And.left
    grind
  · rw [exists_concat,← h.less z,hless,hnewLess]
    have := h.unsetLess
    have hbound : BoundsBelow ct value t → Int64.minValue < t.testValue := And.left
    grind
  · have := h.unsetGreater
    grind
  · have := h.unsetLess
    grind

lemma brackets_of (ct : SyncCounterType) (value : Int64) (ts : List SyncTrigger) :
    (ts.foldl (Brackets.add ct value) .start).Of ct value ts := by
  induction ts using List.reverseRec with
  | nil => exact .start
  | append_singleton ts t ih =>
    rw [List.foldl_append]
    exact ih.add t

lemma reaches_greater {z : Int64} : (bracketValues ct value ts).2.any (fun greater => decide (greater ≤ z)) = true ↔
    ∃ c ∈ upperMarks ct value ts, c ≤ z := by
  rw [exists_upperMarks,← (brackets_of ct value ts).greater z,bracketValues]
  grind

lemma reaches_less {z : Int64} : (bracketValues ct value ts).1.any (fun less => decide (z ≤ less)) = true ↔
    ∃ c ∈ lowerMarks ct value ts, z ≤ c := by
  rw [exists_lowerMarks,← (brackets_of ct value ts).less z,bracketValues]
  grind

lemma reachesBracket_iff {z : Int64} :
    reachesBracket (bracketValues ct value ts).1 (bracketValues ct value ts).2 z = true ↔
      (∃ c ∈ upperMarks ct value ts, c ≤ z) ∨ ∃ c ∈ lowerMarks ct value ts, z ≤ c := by
  rw [reachesBracket,Bool.or_eq_true,reaches_greater,reaches_less]

lemma le_of_mem_upperMarks {c : Int64} (h : c ∈ upperMarks ct value ts) : value ≤ c := by
  obtain ⟨t,-,⟨-,⟨hlt,-⟩ | ⟨hle,-⟩⟩,rfl⟩ := h
  · exact Int64.le_of_lt hlt
  · exact hle

lemma le_of_mem_lowerMarks {c : Int64} (h : c ∈ lowerMarks ct value ts) : c ≤ value := by
  obtain ⟨t,-,⟨-,⟨hlt,-⟩ | ⟨hle,-⟩⟩,rfl⟩ := h
  · exact Int64.le_of_lt hlt
  · exact hle

end Brackets

section Moves

@[reducible] def int64LinearOrder : LinearOrder Int64 where
  le_refl a := Int64.le_refl a
  le_trans _ _ _ := Int64.le_trans
  lt_iff_le_not_ge a b := by grind
  le_antisymm _ _ := Int64.le_antisymm
  le_total := Int64.le_total
  toDecidableLE := inferInstance

attribute [local instance] int64LinearOrder

open Lib

variable {w w₁ : World} {x : XID} {u v value : Int64} {sys : SysCounterInfo} {l : List (Option TrigRef)} {d : Bool}
  {ct : SyncCounterType}

lemma permitted_iff (hct : ct ≠ .neverChanges) : Permitted ct u v ↔ Watch.Allowed (ct ≠ .neverIncreases) (ct ≠ .neverDecreases) u v := by
  cases ct with
  | neverChanges => exact absurd rfl hct
  | neverIncreases => simp [Permitted,Watch.Allowed]
  | neverDecreases => simp [Permitted,Watch.Allowed]
  | unrestricted => simp [Permitted,Watch.Allowed]

lemma objs_update (ho : w.objs x = some ⟨.counter value (some sys),l,d⟩) (v : Int64) :
    (syncUpdateCounter w x v).objs x = some ⟨.counter v (some sys),l,d⟩ := by
  simp only [syncUpdateCounter,ho,World.setObj,Function.update_self]

lemma trig_update (w : World) (x : XID) (v : Int64) : (syncUpdateCounter w x v).trig = w.trig := by
  unfold syncUpdateCounter
  split <;> rfl

lemma update_update (ho : w.objs x = some ⟨.counter value (some sys),l,d⟩) (u v : Int64) :
    syncUpdateCounter (syncUpdateCounter w x u) x v = syncUpdateCounter w x v := by
  rw [syncUpdateCounter,objs_update ho]
  simp only [syncUpdateCounter,ho,World.setObj,Function.update_idem]

lemma update_value (ho : w.objs x = some ⟨.counter value (some sys),l,d⟩) : syncUpdateCounter w x value = w := by
  simp only [syncUpdateCounter,ho,World.setObj]
  rw [← ho,Function.update_eq_self]

lemma unwatched_iff (ho : w.objs x = some ⟨.counter value (some sys),l,d⟩) :
    Relation.ReflTransGen (Unwatched x) w w₁ ↔ ∃ u, w₁ = syncUpdateCounter w x u ∧
      Relation.ReflTransGen (fun u v => Permitted sys.counterType u v ∧ reachesBracket sys.handed.1 sys.handed.2 v = false)
        value u := by
  constructor
  · intro h
    induction h with
    | refl => exact ⟨value,(update_value ho).symm,.refl⟩
    | tail _ hlast ih =>
      obtain ⟨u,rfl,hu⟩ := ih
      cases hlast with
      | move ho' hmove hin =>
        rw [objs_update ho u] at ho'
        cases ho'
        exact ⟨_,update_update ho u _,hu.tail ⟨hmove,hin⟩⟩
  · rintro ⟨u,rfl,hu⟩
    induction hu with
    | refl => rw [update_value ho]
    | tail _ hlast ih =>
      rw [← update_update ho]
      exact ih.tail (.move (objs_update ho _) hlast.1 hlast.2)

/-- A trigger of a counter that went from one value to another. -/
def TrueAt (t : SyncTrigger) (u v : Int64) : Prop :=
  match t.checkTrigger with
  | .positiveComparison => t.testValue ≤ v
  | .negativeComparison => v ≤ t.testValue
  | .positiveTransition => u < t.testValue ∧ t.testValue ≤ v
  | .negativeTransition => t.testValue < u ∧ v ≤ t.testValue
  | .fence => False

lemma check_counter {t : SyncTrigger} (ho : w.objs x = some ⟨.counter v (some sys),l,d⟩) (ht : t.pSync = some x) :
    check w t u = true ↔ TrueAt t u v := by
  unfold check TrueAt checkCounter counterPtr
  simp only [ht,ho]
  cases t.checkTrigger <;> simp

lemma not_trueAt {t : SyncTrigger} (ho : w.objs x = some ⟨.counter value (some sys),l,d⟩) (ht : t.pSync = some x)
    (hfalse : t.checkTrigger = .positiveComparison ∨ t.checkTrigger = .negativeComparison → check w t value = false) :
    ¬TrueAt t value value := by
  intro htrue
  have hcheck : ¬check w t value = false := by
    rw [(check_counter ho ht).2 htrue]
    decide
  unfold TrueAt at htrue
  cases hc : t.checkTrigger with
  | positiveComparison => exact hcheck (hfalse (.inl hc))
  | negativeComparison => exact hcheck (hfalse (.inr hc))
  | positiveTransition =>
    rw [hc] at htrue
    exact htrue.1.not_ge htrue.2
  | negativeTransition =>
    rw [hc] at htrue
    exact htrue.1.not_ge htrue.2
  | fence =>
    rw [hc] at htrue
    exact htrue

lemma nothingHidden_values (ho : w.objs x = some ⟨.counter value (some sys),l,d⟩)
    (hsync : ∀ t, some t ∈ l → (w.trig t).pSync = some x) :
    NothingHidden w x ↔ ∀ t, some t ∈ l → ∀ u v,
      Relation.ReflTransGen (fun u v => Permitted sys.counterType u v ∧ reachesBracket sys.handed.1 sys.handed.2 v = false)
        value u → Permitted sys.counterType u v → TrueAt (w.trig t) u v → reachesBracket sys.handed.1 sys.handed.2 v = true := by
  constructor
  · intro h t ht u v hu hmove htrue
    refine h _ ((unwatched_iff ho).2 ⟨u,rfl,hu⟩) u sys l d (objs_update ho u) v hmove t ht ?_
    rw [update_update ho,trig_update]
    exact (check_counter (objs_update ho v) (hsync t ht)).2 htrue
  · intro h w₁ hw₁ u' sys' l' d' ho' v hmove t ht hcheck
    obtain ⟨u,rfl,hu⟩ := (unwatched_iff ho).1 hw₁
    rw [objs_update ho u] at ho'
    cases ho'
    rw [update_update ho,trig_update] at hcheck
    exact h t ht _ v hu hmove ((check_counter (objs_update ho v) (hsync t ht)).1 hcheck)

lemma noticed_iff {ts : List SyncTrigger} {t : SyncTrigger}
    (hpos : t.checkTrigger = .positiveComparison → value < t.testValue)
    (hneg : t.checkTrigger = .negativeComparison → t.testValue < value) :
    (∀ u v, Watch.Quiet (ct ≠ .neverIncreases) (ct ≠ .neverDecreases) (upperMarks ct value ts) (lowerMarks ct value ts) value u →
      Watch.Allowed (ct ≠ .neverIncreases) (ct ≠ .neverDecreases) u v → TrueAt t u v →
        ¬Watch.Inside (upperMarks ct value ts) (lowerMarks ct value ts) v) ↔ Noticed ct value ts t := by
  have habove : ∀ c ∈ upperMarks ct value ts, value ≤ c := fun c => le_of_mem_upperMarks
  have hbelow : ∀ c ∈ lowerMarks ct value ts, c ≤ value := fun c => le_of_mem_lowerMarks
  unfold Noticed TrueAt
  cases hc : t.checkTrigger with
  | positiveComparison => exact Watch.level_iff (hpos hc) hbelow
  | negativeComparison => exact Watch.level_iff' (hneg hc) habove
  | positiveTransition =>
    refine Iff.trans ?_ (Watch.rise_iff habove hbelow)
    exact forall₄_congr fun u v _ _ => and_imp
  | negativeTransition =>
    refine Iff.trans ?_ (Watch.fall_iff habove hbelow)
    exact forall₄_congr fun u v _ _ => and_imp
  | fence => exact iff_of_true (fun _ _ _ _ h => h.elim) trivial

lemma objs_brackets (ho : w.objs x = some ⟨.counter value (some sys),l,d⟩) (hct : sys.counterType ≠ .neverChanges) :
    (syncComputeBracketValues w x).objs x = some ⟨.counter value (some { sys with
      handed := bracketValues sys.counterType value (l.filterMap id |>.map w.trig) }),l,d⟩ := by
  simp only [syncComputeBracketValues,ho,if_neg hct,World.setObj,Function.update_self]

lemma noticed_self {ts : List SyncTrigger} {t : SyncTrigger} (hcheck : checkOf t.testType = some t.checkTrigger) (hmem : t ∈ ts)
    (hmax : t.testValue < Int64.maxValue) (hmin : Int64.minValue < t.testValue)
    (hpos : t.checkTrigger = .positiveComparison → value < t.testValue)
    (hneg : t.checkTrigger = .negativeComparison → t.testValue < value)
    (hrise : t.checkTrigger = .positiveTransition → ct = .neverDecreases → t.testValue ≤ value)
    (hfall : t.checkTrigger = .negativeTransition → ct = .neverIncreases → value ≤ t.testValue) : Noticed ct value ts t := by
  have habove : BoundsAbove ct value t → t.testValue ∈ upperMarks ct value ts := fun h => ⟨t,hmem,h,rfl⟩
  have hbelow : BoundsBelow ct value t → t.testValue ∈ lowerMarks ct value ts := fun h => ⟨t,hmem,h,rfl⟩
  unfold checkOf at hcheck
  unfold Noticed
  cases hc : t.checkTrigger with
  | positiveComparison =>
    intro hct
    have htype : t.testType = positiveComparison := by grind
    exact ⟨_,habove ⟨hmax,.inl ⟨hpos hc,.inl ⟨htype,hct⟩⟩⟩,le_rfl⟩
  | negativeComparison =>
    intro hct
    have htype : t.testType = negativeComparison := by grind
    exact ⟨_,hbelow ⟨hmin,.inl ⟨hneg hc,.inr (.inl ⟨htype,hct⟩)⟩⟩,le_rfl⟩
  | positiveTransition =>
    have htype : t.testType = positiveTransition := by grind
    rintro hct (hlt | ⟨hnd,u,hu,hin⟩)
    · have hnd : ct ≠ .neverDecreases := fun hnd => absurd (hrise hc hnd) hlt.not_ge
      exact ⟨_,habove ⟨hmax,.inr ⟨hlt.le,htype,hnd⟩⟩,le_rfl⟩
    · obtain hle | hlt := le_or_gt value t.testValue
      · exact ⟨_,habove ⟨hmax,.inr ⟨hle,htype,hnd⟩⟩,le_rfl⟩
      · exact absurd (hin _ (hbelow ⟨hmin,.inl ⟨hlt,.inr (.inr ⟨htype,hnd⟩)⟩⟩)) hu.asymm
  | negativeTransition =>
    have htype : t.testType = negativeTransition := by grind
    rintro hct (hlt | ⟨hni,u,hu,hin⟩)
    · have hni : ct ≠ .neverIncreases := fun hni => absurd (hfall hc hni) hlt.not_ge
      exact ⟨_,hbelow ⟨hmin,.inr ⟨hlt.le,htype,hni⟩⟩,le_rfl⟩
    · obtain hle | hlt := le_or_gt t.testValue value
      · exact ⟨_,hbelow ⟨hmin,.inr ⟨hle,htype,hni⟩⟩,le_rfl⟩
      · exact absurd (hin _ (habove ⟨hmax,.inl ⟨hlt,.inr (.inr ⟨htype,hni⟩)⟩⟩)) hu.asymm
  | fence => trivial

lemma servertimeWakeupHandler_walks (ho : w.objs x = some ⟨.counter value (some sys),l,d⟩) (hct : sys.counterType = .neverDecreases)
    (hsync : ∀ t, some t ∈ l → (w.trig t).pSync = some x)
    (hfalse : ∀ t, some t ∈ l → (w.trig t).checkTrigger = .positiveComparison ∨
      (w.trig t).checkTrigger = .negativeComparison → check w (w.trig t) value = false)
    (h : NothingHidden (syncComputeBracketValues w x) x) {now : Int64} (hnow : value ≤ now) {t : TrigRef} (ht : some t ∈ l)
    (htrue : check (syncUpdateCounter (syncComputeBracketValues w x) x now) (w.trig t) value = true) :
    servertimeWakeupHandler (syncComputeBracketValues w x) x now
        (bracketValues sys.counterType value (l.filterMap id |>.map w.trig)).2 =
      syncChangeCounter (syncComputeBracketValues w x) x now := by
  have hobj := objs_brackets ho (by rw [hct]; decide)
  have htrig : (syncComputeBracketValues w x).trig = w.trig := (OnlyObjs.brackets w x).trig
  have hreach := h _ .refl value _ l d hobj now (by rwa [hct]) t ht (by rwa [htrig])
  rw [check_counter (objs_update hobj now) (hsync t ht)] at htrue
  rw [reachesBracket,Bool.or_eq_true,reaches_less] at hreach
  obtain hgreater | ⟨c,hc,hle⟩ := hreach
  · cases hnext : (bracketValues sys.counterType value (l.filterMap id |>.map w.trig)).2 with
    | none =>
      rw [hnext] at hgreater
      cases hgreater
    | some next =>
      rw [hnext,Option.any_some] at hgreater
      exact if_pos (of_decide_eq_true hgreater)
  -- the counter has not moved, and at its old value nothing was true
  · obtain rfl : now = value := le_antisymm (hle.trans (le_of_mem_lowerMarks hc)) hnow
    exact absurd htrue (not_trueAt ho (hsync t ht) (hfalse t ht))

/-- The brackets that `SyncComputeBracketValues` publishes hide no trigger of the counter exactly when every trigger is
noticed. -/
theorem nothingHidden_iff (ho : w.objs x = some ⟨.counter value (some sys),l,d⟩) (hct : sys.counterType ≠ .neverChanges)
    (hsync : ∀ t, some t ∈ l → (w.trig t).pSync = some x)
    (hfalse : ∀ t, some t ∈ l → (w.trig t).checkTrigger = .positiveComparison ∨
      (w.trig t).checkTrigger = .negativeComparison → check w (w.trig t) value = false) :
    NothingHidden (syncComputeBracketValues w x) x ↔
      ∀ t, some t ∈ l → Noticed sys.counterType value (l.filterMap id |>.map w.trig) (w.trig t) := by
  set ts := l.filterMap id |>.map w.trig with hts
  have hobj := objs_brackets ho hct
  rw [← hts] at hobj
  have htrig : (syncComputeBracketValues w x).trig = w.trig := (OnlyObjs.brackets w x).trig
  rw [nothingHidden_values hobj (by rwa [htrig]),htrig]
  refine forall₂_congr fun t ht => ?_
  have hnot := not_trueAt ho (hsync t ht) (hfalse t ht)
  have hinside : ∀ z, reachesBracket (bracketValues sys.counterType value ts).1 (bracketValues sys.counterType value ts).2 z =
      true ↔ ¬Watch.Inside (upperMarks sys.counterType value ts) (lowerMarks sys.counterType value ts) z := by
    intro z
    rw [reachesBracket_iff,Watch.Inside,not_and_or]
    push Not
    rfl
  rw [← noticed_iff]
  · have hstep : (fun u v => Permitted sys.counterType u v ∧ reachesBracket (bracketValues sys.counterType value ts).1
        (bracketValues sys.counterType value ts).2 v = false) = fun u v => Watch.Allowed (sys.counterType ≠ .neverIncreases)
        (sys.counterType ≠ .neverDecreases) u v ∧
          Watch.Inside (upperMarks sys.counterType value ts) (lowerMarks sys.counterType value ts) v := by
      funext u v
      rw [permitted_iff hct,← Bool.not_eq_true,hinside,not_not]
    dsimp only
    rw [hstep]
    exact forall₃_congr fun u v _ => by rw [permitted_iff hct,hinside]
  · intro hc
    by_contra hle
    refine hnot ?_
    rw [TrueAt,hc]
    exact not_lt.1 hle
  · intro hc
    by_contra hle
    refine hnot ?_
    rw [TrueAt,hc]
    exact not_lt.1 hle

end Moves

section Examples

def systemAlarm (ct : SyncCounterType) (testType : ℕ) (checkTrigger : CheckTrigger) (testValue : Int64) : World :=
  (emptyWorld.setObj 1 ⟨.counter 10 (some ⟨ct,none,none⟩),[some (.alarm 5)],false⟩).setTrig (.alarm 5)
    ⟨some 1,testValue,absolute,testType,testValue,checkTrigger⟩

/-- An alarm that waits for an idle time of 20. -/
theorem nothingHidden_iff_idle :
    NothingHidden (syncComputeBracketValues (systemAlarm .unrestricted positiveComparison .positiveComparison 20) 1) 1 := by
  have hone : ∀ t : TrigRef, some t ∈ [some (TrigRef.alarm 5)] → t = .alarm 5 := fun t ht => by simpa using ht
  refine (nothingHidden_iff (x := 1) (d := false) rfl (by decide) ?_ ?_).2 ?_
  · intro t ht
    obtain rfl := hone t ht
    decide
  · intro t ht _
    obtain rfl := hone t ht
    decide
  · intro t ht
    obtain rfl := hone t ht
    exact noticed_self (by decide) (by decide) (by decide) (by decide) (by decide) (by decide) (by decide) (by decide)

/-- SERVERTIME never decreases, and the code overlooks a positive transition on it: nothing is published, and at 20 the
transition is true. -/
theorem transition_hidden :
    (systemAlarm .neverDecreases positiveTransition .positiveTransition 20).objs 1 =
        some ⟨.counter 10 (some ⟨.neverDecreases,none,none⟩),[some (.alarm 5)],false⟩ ∧
      check (systemAlarm .neverDecreases positiveTransition .positiveTransition 20)
        ((systemAlarm .neverDecreases positiveTransition .positiveTransition 20).trig (.alarm 5)) 10 = false ∧
      ¬NothingHidden (syncComputeBracketValues (systemAlarm .neverDecreases positiveTransition .positiveTransition 20) 1) 1 := by
  refine ⟨rfl,by decide,fun h => ?_⟩
  have hreach := h _ .refl 10 ⟨.neverDecreases,none,none⟩ [some (.alarm 5)] false rfl 20 (by unfold Permitted; decide) (.alarm 5)
    (by decide) (by decide)
  cases hreach

end Examples

end Xlibre.Sync
