import Xlibre.Dix.Pointer.Events
import Xlibre.Xinput.BarrierCounts

/-! Whether the barriers that stop a pointer, and those that it leaves, fit the event list beside the other events. -/
namespace Xlibre.Dix.Pointer
open Xlibre.Xinput

section Room
variable {F D A : Type} [MachineNumber F] [MachineNumber D]

/-- The barriers of a fill: those that stop the pointer, and those that it leaves. -/
def crossedBy (env : Server F D A) (dev : Device D) (f : Fill D) (σ : PointerState D A) : ℕ :=
  match dev.valuator with
  | none => 0
  | some v =>
    if v.numAxes < 2 ∨ f.flags.absolute then 0
    else
      let i := σ.pointer.pScreen
      let screen := env.screens i
      let (_,dest) := env.aim σ.last σ.pointer f
      crossed env.ops env.ms dev.id screen.root dev.master (σ.barriers i)
        (σ.pointer.x - screen.x,σ.pointer.y - screen.y) (dest.1 - screen.x,dest.2 - screen.y)

def slots (env : Server F D A) (dev : Device D) (f : Fill D) (σ : PointerState D A) : ℕ :=
  if refused dev f then 0
  else (if f.flags.noRaw then 0 else 1) + crossedBy env dev f σ + (if f.flags.rawOnly then 0 else 1)

/-- A fill that a call makes: in which state, and how many slots are in use before it. -/
structure Visit (D A : Type) where
  state : PointerState D A
  fill : Fill D
  used : ℕ

/-- Where a call is: the state, the slots in use, and the fills so far. -/
structure Course (D A : Type) where
  state : PointerState D A
  used : ℕ
  visits : List (Visit D A)

namespace Course

def fill (env : Server F D A) (dev : Device D) (r : Course D A) (f : Fill D) : Course D A :=
  ⟨(fillPointerEvents env dev f r.state).1,r.used + slots env dev f r.state,r.visits ++ [⟨r.state,f,r.used⟩]⟩

def scroll (env : Server F D A) (dev : Device D) (s : Scroll D) (forward : Bool) :
    ℕ → Course D A → D → Course D A × D × Bool
  | 0, r, lastScroll => (r,lastScroll,false)
  | rounds+1, r, lastScroll =>
    let next := lastScroll + s.signed forward
    if s.beyond forward next then (r,lastScroll,true)
    else scroll env dev s forward rounds
      (if r.used + 4 < getMaximumEventsNum then (s.round forward).foldl (fill env dev) r else r) next

def emulate (env : Server F D A) (dev : Device D) (s : Scroll D) (rounds : ℕ) (r : Course D A) : Course D A × Bool :=
  if s.info.scrollType = .none then (r,true)
  else if s.info.increment == ((0 : ℤ) : D) then (r,true)
  else
    let lastScroll := (r.state.last.scroll s.axis).getD ((0 : ℤ) : D)
    let forward := s.forward lastScroll
    let (r',last,ended) := scroll env dev s forward rounds r (s.start forward lastScroll)
    let σ := r'.state
    ({ r' with state := { σ with
        last := { σ.last with scroll := Function.update σ.last.scroll s.axis (some last) } } },ended)

def emulateAll (env : Server F D A) (dev : Device D) (v : ValuatorClass D) (before : Fin maxValuators → D)
    (realType : EventKind) (rounds : ℕ) : List (Fin maxValuators) → Course D A → Course D A
  | [], r => r
  | i::is, r =>
    let (r',ended) := emulate env dev ⟨i,v.axes i,before i,r.state.last.valuators i,realType⟩ rounds r
    if ended then emulateAll env dev v before realType rounds is r' else r'

/-- The fills that `GetPointerEvents` makes. -/
def ofCall (env : Server F D A) (dev : Device D) (f : Fill D) (rounds : ℕ) (σ : PointerState D A) : Course D A :=
  if f.buttons ≥ maxButtons ∨ dev.enabled = false ∨ σ.onScreen = false then ⟨σ,0,[]⟩
  else
    let (σ₁,changed) := updateFromMaster env dev σ
    let before (i : Fin maxValuators) : D := if i.val < σ₁.last.numValuators then σ₁.last.valuators i else ((0 : ℤ) : D)
    let (f',mask,σ₂) := smooth dev f (f.mask.getD fun _ => none) σ₁
    let r := fill env dev ⟨σ₂,changed.length,[]⟩ f'
    match dev.valuator with
    | none => r
    | some v => emulateAll env dev v before f.type rounds (scrolledAxes v mask) r

end Course

def BarriersFit (env : Server F D A) (dev : Device D) (f : Fill D) (σ : PointerState D A) : Prop :=
  ∀ rounds, ∀ v ∈ (Course.ofCall env dev f rounds σ).visits, v.used + slots env dev v.fill v.state ≤ getMaximumEventsNum

end Room

end Xlibre.Dix.Pointer

/-! The events of a call fit the event list exactly if the barriers that it crosses do. -/
namespace Xlibre.Dix.Pointer
open Xlibre.Xinput

variable {F D A : Type} [MachineNumber F] [MachineNumber D]
  {env : Server F D A} {dev : Device D} {f : Fill D} {σ : PointerState D A} {dest : ℤ × ℤ} {relative : Bool}
  {r : Course D A} {out : PointerState D A × List InternalEvent} {base : ℕ}

/-- No barrier is marked. -/
abbrev PointerState.Calm (σ : PointerState D A) : Prop := BarrierScreens.AllCalm σ.barriers

lemma update_calm {σ : BarrierScreens} {screen : ℕ} {cs : List PointerBarrierClient} (h : σ.AllCalm)
    (hcs : ∀ c ∈ cs, Xinput.Calm c) : BarrierScreens.AllCalm (Function.update σ screen cs) := h.set hcs

lemma setPosition_calm (h : σ.Calm) : (setPosition env dev relative dest σ).1.Calm := by
  unfold setPosition
  cases relative with
  | true => exact update_calm h (inputConstrainCursor_calm (h σ.pointer.pScreen))
  | false => exact update_calm h (h σ.pointer.pScreen)

variable (env dev dest relative) in
lemma setPosition_length (h : σ.Calm) : (setPosition env dev relative dest σ).2.2.length =
    if relative then
      crossed env.ops env.ms dev.id (env.screens σ.pointer.pScreen).root dev.master (σ.barriers σ.pointer.pScreen)
        (σ.pointer.x - (env.screens σ.pointer.pScreen).x,σ.pointer.y - (env.screens σ.pointer.pScreen).y)
        (dest.1 - (env.screens σ.pointer.pScreen).x,dest.2 - (env.screens σ.pointer.pScreen).y)
    else 0 := by
  unfold setPosition
  rw [List.length_map]
  cases relative with
  | true => exact inputConstrainCursor_length (h σ.pointer.pScreen)
  | false => rfl

lemma positionSprite_calm (h : σ.Calm) : (positionSprite env dev relative dest σ).1.Calm := by
  unfold positionSprite
  cases dev.valuator with
  | none => exact h
  | some v =>
    dsimp only
    split
    · exact h
    · exact setPosition_calm h

lemma fill_calm (h : σ.Calm) : (fillPointerEvents env dev f σ).1.Calm := by
  unfold fillPointerEvents
  split
  · exact h
  · exact positionSprite_calm (σ := { σ with last := (env.aim σ.last σ.pointer f).1 }) h

lemma fill_length (h : σ.Calm) : (fillPointerEvents env dev f σ).2.length = slots env dev f σ := by
  unfold fillPointerEvents slots
  split
  · rfl
  · dsimp only
    rw [List.length_append,List.length_append,List.length_map]
    have hcross : (positionSprite env dev (!f.flags.absolute) (env.aim σ.last σ.pointer f).2
        { σ with last := (env.aim σ.last σ.pointer f).1 }).2.2.length = crossedBy env dev f σ := by
      unfold positionSprite crossedBy
      cases dev.valuator with
      | none => rfl
      | some v =>
        dsimp only
        by_cases haxes : v.numAxes < 2
        · rw [if_pos haxes,if_pos (.inl haxes)]
          rfl
        · have hlength := setPosition_length env dev (env.aim σ.last σ.pointer f).2 (!f.flags.absolute)
            (show PointerState.Calm { σ with last := (env.aim σ.last σ.pointer f).1 } from h)
          rw [if_neg haxes,hlength]
          cases habs : f.flags.absolute with
          | true => simp
          | false => simp [haxes]
    rw [hcross]
    cases f.flags.noRaw <;> cases f.flags.rawOnly <;> rfl

namespace Course

/-- The slots in use are those up to the end of some fill, or at most one for a device change. -/
structure Tight (env : Server F D A) (dev : Device D) (r : Course D A) : Prop where
  calm : r.state.Calm
  le : ∀ v ∈ r.visits, v.used + slots env dev v.fill v.state ≤ r.used
  attained : r.used ≤ 1 ∨ ∃ v ∈ r.visits, v.used + slots env dev v.fill v.state = r.used

/-- A course is where the call is, which has written `base` events before. -/
structure Follows (env : Server F D A) (dev : Device D) (base : ℕ) (r : Course D A)
    (out : PointerState D A × List InternalEvent) : Prop where
  state : r.state = out.1
  used : r.used = base + out.2.length
  tight : r.Tight env dev

lemma Tight.fill (h : r.Tight env dev) : (r.fill env dev f).Tight env dev := by
  refine ⟨fill_calm h.calm,fun v hv => ?_,.inr ⟨⟨r.state,f,r.used⟩,?_,rfl⟩⟩
  · obtain hv | hv := List.mem_append.1 hv
    · exact Nat.le_trans (h.le v hv) (Nat.le_add_right _ _)
    · obtain rfl := List.mem_singleton.1 hv
      exact Nat.le_refl _
  · exact List.mem_append_right _ List.mem_cons_self

lemma Tight.last {last : Last D A} (h : r.Tight env dev) :
    Tight env dev { r with state := { r.state with last } } := ⟨h.calm,h.le,h.attained⟩

lemma Follows.fillAll {fs : List (Fill D)} (h : Follows env dev base r out) :
    Follows env dev base (fs.foldl (fill env dev) r) (fillAll env dev fs out) := by
  induction fs generalizing r out with
  | nil => exact h
  | cons f fs ih =>
    obtain ⟨σ,events⟩ := out
    refine ih ⟨?_,?_,h.tight.fill⟩
    · change (fillPointerEvents env dev f r.state).1 = (fillPointerEvents env dev f σ).1
      rw [h.state]
    · change r.used + slots env dev f r.state = base + (events ++ (fillPointerEvents env dev f σ).2).length
      have hstate : r.state = σ := h.state
      have hused : r.used = base + events.length := h.used
      have hcalm : σ.Calm := hstate ▸ h.tight.calm
      rw [List.length_append,fill_length hcalm,hused,hstate]
      omega

variable (s : Scroll D) (forward : Bool) (rounds : ℕ) (lastScroll : D) in
lemma Follows.scrollLoop (h : Follows env dev base r out) :
    let r' := scroll env dev s forward rounds r lastScroll
    let out' := Pointer.scrollLoop env dev s forward ((getMaximumEventsNum : ℤ) - base) rounds out.1 out.2 lastScroll
    Follows env dev base r'.1 (out'.state,out'.events) ∧ r'.2.1 = out'.lastScroll ∧ r'.2.2 = out'.ended := by
  induction rounds generalizing r out lastScroll with
  | zero => exact ⟨h,rfl,rfl⟩
  | succ rounds ih =>
    simp only [scroll,Pointer.scrollLoop]
    split
    · exact ⟨h,rfl,rfl⟩
    · have hroom : r.used + 4 < getMaximumEventsNum ↔
          ((out.2.length : ℤ) + 4 < (getMaximumEventsNum : ℤ) - base) := by
        rw [h.used]
        omega
      by_cases hlt : r.used + 4 < getMaximumEventsNum
      · rw [if_pos hlt,if_pos (hroom.1 hlt)]
        exact ih _ h.fillAll
      · rw [if_neg hlt,if_neg fun hlt' => hlt (hroom.2 hlt')]
        exact ih _ h

variable (s : Scroll D) (rounds : ℕ) in
lemma Follows.emulate (h : Follows env dev base r (σ,[])) :
    let r' := emulate env dev s rounds r
    let out' := emulateScrollButtonEvents env dev s ((getMaximumEventsNum : ℤ) - base) rounds σ
    Follows env dev base r'.1 (out'.1,out'.2.1) ∧ r'.2 = out'.2.2 := by
  obtain rfl : r.state = σ := h.state
  simp only [Course.emulate,emulateScrollButtonEvents]
  split
  · exact ⟨h,rfl⟩
  · split
    · exact ⟨h,rfl⟩
    · obtain ⟨hfollows,hlast,hended⟩ := h.scrollLoop s (s.forward ((r.state.last.scroll s.axis).getD ((0 : ℤ) : D)))
        rounds (s.start (s.forward ((r.state.last.scroll s.axis).getD ((0 : ℤ) : D)))
          ((r.state.last.scroll s.axis).getD ((0 : ℤ) : D)))
      refine ⟨⟨?_,hfollows.used,hfollows.tight.last⟩,hended⟩
      dsimp only at hlast ⊢
      rw [hlast,hfollows.state]

lemma Follows.emulateAll {v : ValuatorClass D} {before : Fin maxValuators → D} {realType : EventKind} {rounds : ℕ}
    {axes : List (Fin maxValuators)} (h : Follows env dev 0 r out) :
    Follows env dev 0 (emulateAll env dev v before realType rounds axes r)
      (Pointer.emulateAll env dev v before realType rounds axes out.1 out.2) := by
  induction axes generalizing r out with
  | nil => exact h
  | cons i axes ih =>
    obtain ⟨σ,events⟩ := out
    obtain rfl : r.state = σ := h.state
    have hused : r.used = events.length := h.used.trans (Nat.zero_add _)
    have hstart : Follows env dev events.length r (r.state,[]) := ⟨rfl,hused,h.tight⟩
    obtain ⟨hafter,hended⟩ := hstart.emulate ⟨i,v.axes i,before i,r.state.last.valuators i,realType⟩ rounds
    simp only [Course.emulateAll,Pointer.emulateAll]
    have hfollows : Follows env dev 0 (Course.emulate env dev ⟨i,v.axes i,before i,r.state.last.valuators i,realType⟩ rounds r).1
        ((emulateScrollButtonEvents env dev ⟨i,v.axes i,before i,r.state.last.valuators i,realType⟩
          ((getMaximumEventsNum : ℤ) - events.length) rounds r.state).1,
        events ++ (emulateScrollButtonEvents env dev ⟨i,v.axes i,before i,r.state.last.valuators i,realType⟩
          ((getMaximumEventsNum : ℤ) - events.length) rounds r.state).2.1) := by
      refine ⟨hafter.state,?_,hafter.tight⟩
      rw [List.length_append,Nat.zero_add]
      exact hafter.used
    rw [hended]
    split
    · exact ih hfollows
    · exact hfollows

end Course

omit [MachineNumber F] [MachineNumber D] in
lemma changed_length : (updateFromMaster env dev σ).2.length ≤ 1 := by
  unfold updateFromMaster
  cases dev.master with
  | none => exact Nat.zero_le 1
  | some master =>
    dsimp only
    split
    · exact Nat.le_refl 1
    · exact Nat.zero_le 1

omit [MachineNumber F] [MachineNumber D] in
lemma changed_calm (h : σ.Calm) : (updateFromMaster env dev σ).1.Calm := by
  unfold updateFromMaster
  cases dev.master with
  | none => exact h
  | some master =>
    dsimp only
    split
    · exact h
    · exact h

lemma smooth_calm {mask : ValuatorMask D} (h : σ.Calm) : (smooth dev f mask σ).2.2.Calm := by
  unfold smooth
  split
  · exact h
  · exact h

lemma call_follows {rounds : ℕ} (h : σ.Calm) :
    Course.Follows env dev 0 (Course.ofCall env dev f rounds σ) (getPointerEvents env dev f rounds σ) := by
  have hnothing : Course.Follows env dev 0 ⟨σ,0,[]⟩ (σ,[]) := ⟨rfl,rfl,h,by simp,.inl (Nat.zero_le 1)⟩
  unfold Course.ofCall getPointerEvents
  by_cases hbuttons : f.buttons ≥ maxButtons
  · rw [if_pos (.inl hbuttons),if_pos hbuttons]
    exact hnothing
  · rw [if_neg hbuttons]
    cases henabled : dev.enabled with
    | false =>
      rw [if_pos (.inr (.inl rfl))]
      exact hnothing
    | true =>
      cases hscreen : σ.onScreen with
      | false =>
        rw [if_pos (.inr (.inr rfl))]
        exact hnothing
      | true =>
        rw [if_neg (by simp [hbuttons])]
        simp only [Bool.not_true,Bool.false_eq_true,if_false]
        have hcalm₁ : (updateFromMaster env dev σ).1.Calm := changed_calm h
        have hlength : (updateFromMaster env dev σ).2.length ≤ 1 := changed_length
        generalize updateFromMaster env dev σ = change at hcalm₁ hlength ⊢
        obtain ⟨σ₁,changed⟩ := change
        have hcalm₂ : (smooth dev f (f.mask.getD fun _ => none) σ₁).2.2.Calm := smooth_calm hcalm₁
        dsimp only
        generalize smooth dev f (f.mask.getD fun _ => none) σ₁ = start at hcalm₂ ⊢
        obtain ⟨f',mask,σ₂⟩ := start
        have hstart : Course.Tight env dev ⟨σ₂,changed.length,[]⟩ := ⟨hcalm₂,by simp,.inl hlength⟩
        have hfill : Course.Follows env dev 0 (Course.fill env dev ⟨σ₂,changed.length,[]⟩ f')
            ((fillPointerEvents env dev f' σ₂).1,changed ++ (fillPointerEvents env dev f' σ₂).2) := by
          refine ⟨rfl,?_,hstart.fill⟩
          rw [List.length_append,fill_length hcalm₂,Nat.zero_add]
          rfl
        cases dev.valuator with
        | none => exact hfill
        | some v => exact hfill.emulateAll

/-- The events of a call fit the event list if and only if, whenever the pointer is moved, there is room for the barriers
that stop it and those that it leaves. -/
theorem events_fit_iff (h : BarrierScreens.AllCalm σ.barriers) :
    (∀ rounds, (getPointerEvents env dev f rounds σ).2.length ≤ getMaximumEventsNum) ↔ BarriersFit env dev f σ := by
  refine forall_congr' fun rounds => ?_
  have hfollows : Course.Follows env dev 0 (Course.ofCall env dev f rounds σ) (getPointerEvents env dev f rounds σ) :=
    call_follows h
  have hused := hfollows.used
  rw [Nat.zero_add] at hused
  rw [← hused]
  constructor
  · exact fun hle v hv => Nat.le_trans (hfollows.tight.le v hv) hle
  · intro hroom
    obtain hle | ⟨v,hv,heq⟩ := hfollows.tight.attained
    · exact Nat.le_trans hle (by decide)
    · exact heq ▸ hroom v hv

end Xlibre.Dix.Pointer
