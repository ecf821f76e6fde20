import Xlibre.Xinput.Barriers

/-! The events that a pointer device's movement or button makes: `GetPointerEvents`. -/
namespace Xlibre.Dix.Pointer
open Xlibre.Xinput

inductive EventKind
  | motionNotify
  | buttonPress
  | buttonRelease
  | other
  deriving DecidableEq, Repr

structure Flags where
  absolute : Bool
  accelerate : Bool
  screen : Bool
  noRaw : Bool
  emulated : Bool
  desktop : Bool
  rawOnly : Bool
  deriving DecidableEq, Repr

abbrev maxValuators : ℕ := 36
def maxButtons : ℕ := 256

abbrev ValuatorMask (D : Type) := Fin maxValuators → Option D

def ValuatorMask.isEmpty {D : Type} (mask : ValuatorMask D) : Bool := ∀ i, (mask i).isNone

/-- The arguments of `fill_pointer_events`. -/
structure Fill (D : Type) where
  type : EventKind
  buttons : ℕ
  flags : Flags
  mask : Option (ValuatorMask D)

inductive ScrollType
  | none
  | vertical
  | horizontal
  deriving DecidableEq, Repr

structure AxisInfo (D : Type) where
  scrollType : ScrollType
  increment : D

structure ValuatorClass (D : Type) where
  numAxes : ℕ
  axes : Fin maxValuators → AxisInfo D
  hScrollAxis : Option (Fin maxValuators)
  vScrollAxis : Option (Fin maxValuators)

structure Device (D : Type) where
  id : ℕ
  enabled : Bool
  button : Bool
  valuator : Option (ValuatorClass D)
  master : Option ℕ

structure Last (D A : Type) where
  numValuators : ℕ
  valuators : Fin maxValuators → D
  scroll : ValuatorMask D
  rest : A

structure Box where
  x1 : ℤ
  y1 : ℤ
  x2 : ℤ
  y2 : ℤ
  deriving DecidableEq, Repr

/-- `miPointerRec`. -/
structure MiPointer where
  pScreen : ℕ
  x : ℤ
  y : ℤ
  limits : Box
  confined : Bool
  deriving DecidableEq, Repr

structure Screen where
  x : ℤ
  y : ℤ
  width : ℤ
  height : ℤ
  root : ℕ
  deriving DecidableEq, Repr

/-- `point_on_screen`. -/
def Screen.contains (screen : Screen) (x y : ℤ) : Bool :=
  x ≥ screen.x ∧ x < screen.x + screen.width ∧ y ≥ screen.y ∧ y < screen.y + screen.height

structure PointerState (D A : Type) where
  barriers : ℕ → List PointerBarrierClient
  pointer : MiPointer
  onScreen : Bool
  last : Last D A
  lastSlave : Option ℕ

/-- Machine numbers, the time, the screens and their hooks, and the arithmetic on valuators: `aim` stands for everything from
the device's numbers to the floor of the desktop coordinates, `land` for the way back, and `fromMaster` for
`updateSlaveDeviceCoords`. -/
structure Server (F D A : Type) where
  ops : Floats F D
  ms : BitVec 32
  screens : ℕ → Screen
  cursorOffScreen : ℕ → ℤ × ℤ → ℕ × ℤ × ℤ
  constrainCursorHarder : ℕ → Bool → ℤ × ℤ → ℤ × ℤ
  aim : Last D A → MiPointer → Fill D → Last D A × ℤ × ℤ
  land : Last D A → MiPointer → Fill D → ℤ × ℤ → Last D A
  fromMaster : Last D A → Last D A

inductive InternalEvent
  | deviceChanged (master slave : ℕ)
  | raw (type : EventKind) (button : ℕ) (emulated : Bool)
  | barrier (event : BarrierEvent)
  | device (type : EventKind) (button : ℕ) (emulated : Bool)
  deriving DecidableEq

/-- `GetMaximumEventsNum`, the number of events that fit the list. -/
def getMaximumEventsNum : ℕ := 100

section Events
variable {F D A : Type} [MachineNumber F] [MachineNumber D]

def updateFromMaster (env : Server F D A) (dev : Device D) (σ : PointerState D A) : PointerState D A × List InternalEvent :=
  match dev.master with
  | none => (σ,[])
  | some master =>
    if σ.lastSlave ≠ some dev.id then
      ({ σ with last := env.fromMaster σ.last, lastSlave := some dev.id },[.deviceChanged master dev.id])
    else (σ,[])

def switchScreen (env : Server F D A) (pointer : MiPointer) (p : ℤ × ℤ) : MiPointer × ℕ × ℤ × ℤ :=
  if pointer.confined then (pointer,pointer.pScreen,p)
  else
    let (newScreen,p) := env.cursorOffScreen pointer.pScreen p
    if newScreen ≠ pointer.pScreen then
      let screen := env.screens newScreen
      ({ pointer with limits := { pointer.limits with x2 := screen.width, y2 := screen.height } },newScreen,p)
    else (pointer,pointer.pScreen,p)

/-- The end of `v` that the limits allow. -/
def limit (lo hi v : ℤ) : ℤ :=
  let v := if v < lo then lo else v
  if v ≥ hi then hi - 1 else v

/-- `miPointerSetPosition`, from and to the floor of desktop coordinates. Barriers constrain relative movements. -/
def setPosition (env : Server F D A) (dev : Device D) (relative : Bool) (dest : ℤ × ℤ) (σ : PointerState D A) :
    PointerState D A × (ℤ × ℤ) × List BarrierEvent :=
  let i := σ.pointer.pScreen
  let screen := env.screens i
  let local' := (dest.1 - screen.x,dest.2 - screen.y)
  let (cs,p,events) :=
    if relative then
      inputConstrainCursor env.ops env.ms dev.id screen.root dev.master (σ.barriers i)
        (σ.pointer.x - screen.x,σ.pointer.y - screen.y) local'
    else (σ.barriers i,local',[])
  let (pointer,pScreen,x,y) :=
    if screen.contains dest.1 dest.2 then (σ.pointer,i,p) else switchScreen env σ.pointer p
  -- constrain the sprite to the current limits
  let x := limit pointer.limits.x1 pointer.limits.x2 x
  let y := limit pointer.limits.y1 pointer.limits.y2 y
  let (x,y) := env.constrainCursorHarder pScreen relative (x,y)
  ({ σ with barriers := Function.update σ.barriers i cs, pointer := { pointer with pScreen, x, y } },
    (x + (env.screens pScreen).x,y + (env.screens pScreen).y),events.map fun e => { e with rootX := x, rootY := y })

def positionSprite (env : Server F D A) (dev : Device D) (relative : Bool) (dest : ℤ × ℤ) (σ : PointerState D A) :
    PointerState D A × (ℤ × ℤ) × List BarrierEvent :=
  match dev.valuator with
  | none => (σ,dest,[])
  | some v => if v.numAxes < 2 then (σ,dest,[]) else setPosition env dev relative dest σ

/-- What `fill_pointer_events` refuses. -/
def refused (dev : Device D) (f : Fill D) : Bool :=
  match f.type with
  | .motionNotify => dev.valuator.isNone || match f.mask with
    | none => true
    | some mask => mask.isEmpty
  | .buttonPress | .buttonRelease => !dev.button || f.buttons = 0 || match f.mask with
    | none => false
    | some mask => !mask.isEmpty && dev.valuator.isNone
  | .other => true

def fillPointerEvents (env : Server F D A) (dev : Device D) (f : Fill D) (σ : PointerState D A) :
    PointerState D A × List InternalEvent :=
  if refused dev f then (σ,[])
  else
    let raw := if f.flags.noRaw then [] else [.raw f.type f.buttons f.flags.emulated]
    let (last,dest) := env.aim σ.last σ.pointer f
    let (σ',p,events) := positionSprite env dev (!f.flags.absolute) dest { σ with last }
    let button := if f.type = .motionNotify then 0 else f.buttons
    let device := if f.flags.rawOnly then [] else [.device f.type button f.flags.emulated]
    ({ σ' with last := env.land σ'.last σ'.pointer f p },raw ++ events.map .barrier ++ device)

/-- `add_to_scroll_valuator`. On overflow the axis starts again from 0, and so does the last scroll value. -/
def addToScrollValuator (mask : ValuatorMask D) (axis : Fin maxValuators) (value : D) (last : Last D A) :
    ValuatorMask D × Last D A :=
  match mask axis with
  | none => (mask,last)
  | some v =>
    let zero : D := ((0 : ℤ) : D)
    if zero < value ∧ ((2^31-1 : ℤ) : D) - value < v ∨ value < zero ∧ v < ((-2^31 : ℤ) : D) - value then
      (Function.update mask axis (some zero),{ last with scroll := Function.update last.scroll axis (some zero) })
    else (Function.update mask axis (some (v + value)),last)

structure Scroll (D : Type) where
  axis : Fin maxValuators
  info : AxisInfo D
  before : D
  now : D
  realType : EventKind

namespace Scroll

/-- Whether the clicks go down or right. -/
def forward (s : Scroll D) (lastScroll : D) : Bool := ((0 : ℤ) : D) < (s.now - lastScroll) * s.info.increment

def signed (s : Scroll D) (forward : Bool) : D := ((if forward then 1 else -1 : ℤ) : D) * s.info.increment

def clickButton (s : Scroll D) (forward : Bool) : ℕ :=
  (if s.info.scrollType = .vertical then 5 else 7) - (if forward then 0 else 1)

def beyond (s : Scroll D) (forward : Bool) (next : D) : Bool :=
  let zero : D := ((0 : ℤ) : D)
  (if forward then zero < s.info.increment else s.info.increment < zero) && s.now < next ||
    (if forward then s.info.increment < zero else zero < s.info.increment) && next < s.now

def click (s : Scroll D) (forward : Bool) (type : EventKind) : Fill D :=
  let emulated : Bool := s.realType ≠ .buttonPress ∧ s.realType ≠ .buttonRelease
  ⟨type,s.clickButton forward,⟨false,false,false,false,emulated,false,false⟩,none⟩

def round (s : Scroll D) (forward : Bool) : List (Fill D) :=
  (if s.realType ≠ .buttonRelease then [s.click forward .buttonPress] else []) ++
    (if s.realType ≠ .buttonPress then [s.click forward .buttonRelease] else [])

end Scroll

def fillAll (env : Server F D A) (dev : Device D) :
    List (Fill D) → PointerState D A × List InternalEvent → PointerState D A × List InternalEvent
  | [], r => r
  | f::fs, (σ,events) =>
    let (σ',more) := fillPointerEvents env dev f σ
    fillAll env dev fs (σ',events ++ more)

structure Scrolled (D A : Type) where
  state : PointerState D A
  events : List InternalEvent
  lastScroll : D
  ended : Bool

/-- The loop of `emulate_scroll_button_events`, for a number of rounds. -/
def scrollLoop (env : Server F D A) (dev : Device D) (s : Scroll D) (forward : Bool) (maxEvents : ℤ) :
    ℕ → PointerState D A → List InternalEvent → D → Scrolled D A
  | 0, σ, events, lastScroll => ⟨σ,events,lastScroll,false⟩
  | n+1, σ, events, lastScroll =>
    let next := lastScroll + s.signed forward
    if s.beyond forward next then ⟨σ,events,lastScroll,true⟩
    else
      -- the room for one round without barrier events
      let (σ',events') := if events.length + 4 < maxEvents then fillAll env dev (s.round forward) (σ,events) else (σ,events)
      scrollLoop env dev s forward maxEvents n σ' events' next

/-- The last scroll value is an increment back if the movement has turned and crosses it. -/
def Scroll.start (s : Scroll D) (forward : Bool) (lastScroll : D) : D :=
  if s.now < lastScroll ∧ lastScroll < s.before ∨ s.before < lastScroll ∧ lastScroll < s.now then
    lastScroll - s.signed forward
  else lastScroll

def emulateScrollButtonEvents (env : Server F D A) (dev : Device D) (s : Scroll D) (maxEvents : ℤ) (rounds : ℕ)
    (σ : PointerState D A) : PointerState D A × List InternalEvent × Bool :=
  if s.info.scrollType = .none then (σ,[],true)
  else if s.info.increment == ((0 : ℤ) : D) then (σ,[],true)
  else
    let lastScroll := (σ.last.scroll s.axis).getD ((0 : ℤ) : D)
    let forward := s.forward lastScroll
    let r := scrollLoop env dev s forward maxEvents rounds σ [] (s.start forward lastScroll)
    ({ r.state with last := { r.state.last with scroll := Function.update r.state.last.scroll s.axis (some r.lastScroll) } },
      r.events,r.ended)

/-- Clicks for one axis after another, as long as each loop ends. -/
def emulateAll (env : Server F D A) (dev : Device D) (v : ValuatorClass D) (before : Fin maxValuators → D)
    (realType : EventKind) (rounds : ℕ) :
    List (Fin maxValuators) → PointerState D A → List InternalEvent → PointerState D A × List InternalEvent
  | [], σ, events => (σ,events)
  | i::is, σ, events =>
    let s : Scroll D := ⟨i,v.axes i,before i,σ.last.valuators i,realType⟩
    let (σ',more,ended) :=
      emulateScrollButtonEvents env dev s ((getMaximumEventsNum : ℤ) - events.length) rounds σ
    if ended then emulateAll env dev v before realType rounds is σ' (events ++ more) else (σ',events ++ more)

def scrollAxis (dev : Device D) (buttons : ℕ) : Option (ValuatorClass D × Fin maxValuators × ℤ) :=
  match dev.valuator with
  | none => none
  | some v => match buttons with
    | 4 => v.vScrollAxis.map fun axis => (v,axis,-1)
    | 5 => v.vScrollAxis.map fun axis => (v,axis,1)
    | 6 => v.hScrollAxis.map fun axis => (v,axis,-1)
    | 7 => v.hScrollAxis.map fun axis => (v,axis,1)
    | _ => none

def smooth (dev : Device D) (f : Fill D) (mask : ValuatorMask D) (σ : PointerState D A) :
    Fill D × ValuatorMask D × PointerState D A :=
  match if f.type = .buttonPress then scrollAxis dev f.buttons else none with
  | none => ({ f with mask := some mask },mask,σ)
  | some (v,axis,adj) =>
    let mask := if (mask axis).isSome then mask else Function.update mask axis (some ((0 : ℤ) : D))
    let (mask,last) := addToScrollValuator mask axis (((adj : ℤ) : D) * (v.axes axis).increment) σ.last
    (⟨.motionNotify,0,{ f.flags with emulated := true },some mask⟩,mask,{ σ with last })

def scrolledAxes (v : ValuatorClass D) (mask : ValuatorMask D) : List (Fin maxValuators) :=
  (List.finRange maxValuators).filter fun i => i.val < v.numAxes && (mask i).isSome

/-- `GetPointerEvents`, with the loops over scroll clicks cut after a number of rounds. -/
def getPointerEvents (env : Server F D A) (dev : Device D) (f : Fill D) (rounds : ℕ) (σ : PointerState D A) :
    PointerState D A × List InternalEvent :=
  if f.buttons ≥ maxButtons then (σ,[])
  -- refuse events from disabled devices
  else if !dev.enabled then (σ,[])
  else if !σ.onScreen then (σ,[])
  else
    let (σ₁,changed) := updateFromMaster env dev σ
    let before (i : Fin maxValuators) : D := if i.val < σ₁.last.numValuators then σ₁.last.valuators i else ((0 : ℤ) : D)
    let (f',mask,σ₂) := smooth dev f (f.mask.getD fun _ => none) σ₁
    -- first the original event, with smooth-scrolling axes
    let (σ₃,events) := fillPointerEvents env dev f' σ₂
    match dev.valuator with
    | none => (σ₃,changed ++ events)
    | some v => emulateAll env dev v before f.type rounds (scrolledAxes v mask) σ₃ (changed ++ events)

end Events

end Xlibre.Dix.Pointer
