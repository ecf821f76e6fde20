import Mathlib.Data.List.Basic
import Mathlib.Data.Int.Notation

/-! Frozen devices: the grabs that freeze them, and the queue that their events wait in. -/
namespace Xlibre.Dix.Freeze

structure TimeStamp where
  months : ℕ
  milliseconds : ℕ
  deriving DecidableEq, Repr

def compareTimeStamps (a b : TimeStamp) : Ordering :=
  if a.months < b.months then .lt
  else if b.months < a.months then .gt
  else if a.milliseconds < b.milliseconds then .lt
  else if b.milliseconds < a.milliseconds then .gt
  else .eq

inductive GrabMode
  | sync
  | async
  deriving DecidableEq, Repr

structure Grab where
  addr : ℕ
  client : ℕ
  window : ℕ
  pointerMode : GrabMode
  keyboardMode : GrabMode
  deriving DecidableEq, Repr

inductive GrabState
  | notGrabbed
  | thawed
  | thawedBoth
  | freezeNextEvent
  | freezeBothNextEvent
  | frozenNoEvent
  | frozenWithEvent
  | thawOthers
  deriving DecidableEq, Repr

def GrabState.frozen : GrabState → Bool
  | .frozenNoEvent | .frozenWithEvent | .thawOthers => true
  | _ => false

structure GrabInfo where
  grab : Option Grab
  grabTime : TimeStamp
  fromPassiveGrab : Bool
  implicitGrab : Bool
  frozen : Bool
  state : GrabState
  other : Option Grab
  deriving Repr

def samePtr (a b : Option Grab) : Bool := a.map Grab.addr == b.map Grab.addr

structure InternalEvent where
  motion : Bool
  time : ℕ
  rootX : ℤ
  rootY : ℤ
  body : ℕ
  deriving DecidableEq, Repr

/-- An event that EnqueueEvent is called with: its device, the screen of the device's sprite, and itself. -/
structure Arrival (D : Type*) where
  device : D
  screen : ℕ
  event : InternalEvent
  deriving Repr

structure QdEvent (D : Type*) where
  device : D
  screen : ℕ
  months : ℕ
  event : InternalEvent
  absorbed : List (Arrival D)
  deriving Repr

/-- Where a ComputeFreezes that plays events is: in the replayed event, at the head of the queue, in a played event. -/
inductive Phase
  | idle
  | replaying
  | scanning
  | inEvent
  deriving DecidableEq, Repr

structure Devices (D : Type*) where
  list : List D
  mem_list : ∀ d, d ∈ list
  isMaster : D → Bool
  paired : D → D
  paired_ne : ∀ d, isMaster d = true → paired d ≠ d

/-- The grabs of the devices and the state of syncEvents. The last three fields record the run: whether ComputeFreezes has
returned with no event playing and no device has been frozen or thawed since, and what was enqueued and played. -/
structure State (D : Type*) where
  deviceGrab : D → GrabInfo
  pending : List (QdEvent D)
  replayDev : Option D
  replayWin : Option ℕ
  playingEvents : Bool
  time : TimeStamp
  phase : Phase
  settled : Bool
  enqueued : List (Arrival D)
  played : List (QdEvent D)

variable {D : Type*} [DecidableEq D]

def freezeThaw (s : State D) (dev : D) (frozen : Bool) : State D :=
  { s with
    deviceGrab := Function.update s.deviceGrab dev { s.deviceGrab dev with frozen := frozen }
    settled := false }

/-- The loop of ComputeFreezes over the devices. -/
def freezeAll (s : State D) : State D :=
  { s with
    deviceGrab := fun dev =>
      { s.deviceGrab dev with frozen := (s.deviceGrab dev).other.isSome || (s.deviceGrab dev).state.frozen }
    settled := false }

/-- ComputeFreezes up to the first event that it plays, or to its return when there is none to play. With no event to
replay the walk through the queue comes next; it plays nothing when all devices are frozen. -/
def computeFreezes (s : State D) : State D :=
  let s := freezeAll s
  if s.playingEvents || (s.replayDev.isNone && s.pending.isEmpty) then { s with settled := !s.playingEvents }
  else { s with
    playingEvents := true
    phase := if s.replayDev.isSome then .replaying else .scanning
    replayDev := none }

/-- Both grabs are there and belong to one client. -/
def ownedBySame (grab other : Option Grab) : Bool :=
  match other, grab with
  | some o, some g => o.client == g.client
  | _, _ => false

def syncThis (grab : Option Grab) (thisMode : GrabMode) (info : GrabInfo) : GrabInfo :=
  match thisMode with
  | .sync => { info with state := .frozenNoEvent }
  | .async => { info with state := .thawed, other := if ownedBySame grab info.other then none else info.other }

def syncPaired (grab : Option Grab) (otherMode : GrabMode) (info : GrabInfo) : GrabInfo :=
  match otherMode with
  | .sync => { info with other := grab }
  | .async => { info with other := if ownedBySame grab info.other then none else info.other }

def checkGrabForSyncs (V : Devices D) (s : State D) (thisDev : D) (thisMode otherMode : GrabMode) : State D :=
  let grab := (s.deviceGrab thisDev).grab
  let infos := Function.update s.deviceGrab thisDev (syncThis grab thisMode (s.deviceGrab thisDev))
  let infos :=
    if V.isMaster thisDev then
      Function.update infos (V.paired thisDev) (syncPaired grab otherMode (infos (V.paired thisDev)))
    else infos
  computeFreezes { s with deviceGrab := infos }

structure AutoGrab where
  passive : Bool
  implicit : Bool
  deriving Repr

def setGrab (s : State D) (dev : D) (grab : Grab) (time : TimeStamp) (passive implicit : Bool) : State D :=
  { s with
    deviceGrab := Function.update s.deviceGrab dev
      { s.deviceGrab dev with
        grabTime := if s.playingEvents then s.time else time
        grab := some grab
        fromPassiveGrab := passive
        implicitGrab := implicit } }

/-- The grab is the copy that AllocGrab made. -/
def activatePointerGrab (V : Devices D) (s : State D) (mouse : D) (grab : Grab) (time : TimeStamp)
    (autoGrab : AutoGrab) : State D :=
  checkGrabForSyncs V (setGrab s mouse grab time autoGrab.passive autoGrab.implicit) mouse grab.pointerMode
    grab.keyboardMode

def activateKeyboardGrab (V : Devices D) (s : State D) (keybd : D) (grab : Grab) (time : TimeStamp)
    (passive : AutoGrab) : State D :=
  checkGrabForSyncs V (setGrab s keybd grab time (passive.passive || passive.implicit) passive.implicit) keybd
    grab.keyboardMode grab.pointerMode

def deactivateGrab (s : State D) (dev : D) : State D :=
  let grab := (s.deviceGrab dev).grab
  let released (info : GrabInfo) : GrabInfo := { info with grab := none, state := .notGrabbed, fromPassiveGrab := false }
  let infos := Function.update s.deviceGrab dev (released (s.deviceGrab dev))
  computeFreezes { s with
    deviceGrab := fun d =>
      { infos d with other := if samePtr (infos d).other grab then none else (infos d).other } }

structure Others where
  otherGrabbed : Bool
  thisSynced : Bool
  othersFrozen : Bool
  grabTime : TimeStamp

def sameClient (grab : Option Grab) (client : ℕ) : Bool := grab.any fun g => g.client == client

def scanOthers (s : State D) (client : ℕ) (thisDev : D) (thisGrabbed : Bool) (o : Others) (dev : D) : Others :=
  let info := s.deviceGrab dev
  if dev = thisDev then o
  else if sameClient info.grab client then
    { otherGrabbed := true
      thisSynced := o.thisSynced || samePtr (s.deviceGrab thisDev).other info.grab
      othersFrozen := o.othersFrozen || info.state.frozen
      grabTime :=
        if !(thisGrabbed || o.otherGrabbed) || compareTimeStamps info.grabTime o.grabTime == .gt then info.grabTime
        else o.grabTime }
  else o

def releaseClient (s : State D) (client : ℕ) (newState : GrabState) (skip : D → Bool) : State D :=
  { s with
    deviceGrab := fun dev =>
      let info := s.deviceGrab dev
      if skip dev then info
      else
        { info with
          state := if sameClient info.grab client then newState else info.state
          other := if sameClient info.other client then none else info.other } }

/-- A new state for the device, freed from the other's grab when the client is the one that holds it. -/
def setSync (s : State D) (dev : D) (newState : GrabState) (thisSynced : Bool) : State D :=
  { s with
    deviceGrab := Function.update s.deviceGrab dev
      { s.deviceGrab dev with
        state := newState
        other := if thisSynced then none else (s.deviceGrab dev).other } }

def allowMode (s : State D) (client : ℕ) (thisDev : D) (thisGrabbed : Bool) (o : Others) : GrabState → State D
  | .thawed =>
    computeFreezes (setSync s thisDev (if thisGrabbed then .thawed else (s.deviceGrab thisDev).state) o.thisSynced)
  | .freezeNextEvent =>
    if thisGrabbed then computeFreezes (setSync s thisDev .freezeNextEvent o.thisSynced) else s
  | .thawedBoth => if o.othersFrozen then computeFreezes (releaseClient s client .thawed fun _ => false) else s
  | .freezeBothNextEvent =>
    if o.othersFrozen then computeFreezes (releaseClient s client .freezeBothNextEvent fun _ => false) else s
  | .notGrabbed =>
    if thisGrabbed && (s.deviceGrab thisDev).state == .frozenWithEvent then
      let s := setSync s thisDev (s.deviceGrab thisDev).state o.thisSynced
      let s := { s with replayDev := some thisDev, replayWin := (s.deviceGrab thisDev).grab.map Grab.window }
      { deactivateGrab s thisDev with replayDev := none }
    else s
  | .thawOthers =>
    if o.othersFrozen then computeFreezes (releaseClient s client .thawed fun dev => decide (dev = thisDev)) else s
  | _ => s

def allowSome (V : Devices D) (s : State D) (client : ℕ) (time currentTime : TimeStamp) (thisDev : D)
    (newState : GrabState) : State D :=
  let info := s.deviceGrab thisDev
  let thisGrabbed := sameClient info.grab client
  let o := V.list.foldl (scanOthers s client thisDev thisGrabbed) ⟨false,false,false,info.grabTime⟩
  if !((thisGrabbed && info.state.frozen) || o.thisSynced) then s
  else if compareTimeStamps time currentTime == .gt || compareTimeStamps time o.grabTime == .lt then s
  else allowMode s client thisDev thisGrabbed o newState

/-- What a queued motion takes from a later one: its place and its time. -/
def InternalEvent.moveTo (e event : InternalEvent) : InternalEvent :=
  { e with rootX := event.rootX, rootY := event.rootY, time := event.time }

def QdEvent.merge (qe : QdEvent D) (a : Arrival D) (months : ℕ) : QdEvent D :=
  { qe with event := qe.event.moveTo a.event, months := months, absorbed := qe.absorbed ++ [a] }

def mergesInto (a : Arrival D) (tail : QdEvent D) : Bool :=
  a.event.motion && tail.event.motion && decide (tail.device = a.device) && tail.screen == a.screen

def appendEvent (s : State D) (a : Arrival D) (months : ℕ) (memory : Bool) : State D :=
  if memory then
    { s with pending := s.pending ++ [⟨a.device,a.screen,months,a.event,[a]⟩], enqueued := s.enqueued ++ [a] }
  else s

def enqueueEvent (s : State D) (a : Arrival D) (months : ℕ) (memory : Bool) : State D :=
  match s.pending.getLast? with
  | some tail =>
    if mergesInto a tail then
      { s with pending := s.pending.dropLast ++ [tail.merge a months], enqueued := s.enqueued ++ [a] }
    else appendEvent s a months memory
  | none => appendEvent s a months memory

def donePlaying (s : State D) : State D := { s with playingEvents := false, phase := .idle, settled := true }

def afterReplay (V : Devices D) (s : State D) : State D :=
  if V.list.any fun dev => !(s.deviceGrab dev).frozen then { s with phase := .scanning } else donePlaying s

def playReleasedEvents (s : State D) : State D :=
  match s.pending.find? fun qe => !(s.deviceGrab qe.device).frozen with
  | none => donePlaying s
  | some qe =>
    { s with
      pending := s.pending.eraseP fun qe => !(s.deviceGrab qe.device).frozen
      time := ⟨qe.months,qe.event.time⟩
      phase := .inEvent
      played := s.played ++ [qe] }

def afterEvent (V : Devices D) (s : State D) : State D :=
  if V.list.all fun dev => (s.deviceGrab dev).frozen then donePlaying s else { s with phase := .scanning }

/-- What happens to the devices and the queue. While an event is replayed or played, its processing does so, too. The
delivery of an event changes the sync state of the device it comes from. -/
inductive Op (D : Type*)
  | activatePointerGrab (mouse : D) (grab : Grab) (time : TimeStamp) (autoGrab : AutoGrab)
  | activateKeyboardGrab (keybd : D) (grab : Grab) (time : TimeStamp) (passive : AutoGrab)
  | deactivateGrab (dev : D)
  | allowSome (client : ℕ) (time currentTime : TimeStamp) (thisDev : D) (newState : GrabState)
  | computeFreezes
  | freezeThaw (dev : D) (frozen : Bool)
  | syncState (dev : D) (state : GrabState)
  | enqueueEvent (a : Arrival D) (months : ℕ) (memory : Bool)
  | afterReplay
  | playReleasedEvents
  | afterEvent

def setState (s : State D) (dev : D) (state : GrabState) : State D :=
  { s with deviceGrab := Function.update s.deviceGrab dev { s.deviceGrab dev with state := state } }

def apply (V : Devices D) (s : State D) : Op D → State D
  | .activatePointerGrab mouse grab time autoGrab => Freeze.activatePointerGrab V s mouse grab time autoGrab
  | .activateKeyboardGrab keybd grab time passive => Freeze.activateKeyboardGrab V s keybd grab time passive
  | .deactivateGrab dev => Freeze.deactivateGrab s dev
  | .allowSome client time currentTime thisDev newState =>
    Freeze.allowSome V s client time currentTime thisDev newState
  | .computeFreezes => Freeze.computeFreezes s
  | .freezeThaw dev frozen => Freeze.freezeThaw s dev frozen
  | .syncState dev state => setState s dev state
  | .enqueueEvent a months memory => Freeze.enqueueEvent s a months memory
  | .afterReplay => Freeze.afterReplay V s
  | .playReleasedEvents => Freeze.playReleasedEvents s
  | .afterEvent => Freeze.afterEvent V s

/-- When an operation can come: EnqueueEvent is the processing of a device's events only while it is frozen, and a grab is
there to be deactivated. -/
def Enabled (s : State D) : Op D → Prop
  | .deactivateGrab dev => (s.deviceGrab dev).grab ≠ none
  | .enqueueEvent a _ _ => (s.deviceGrab a.device).frozen = true
  | .afterReplay => s.phase = .replaying
  | .playReleasedEvents => s.phase = .scanning
  | .afterEvent => s.phase = .inEvent
  | _ => True

def SameClientRegrab (s : State D) : Op D → Prop
  | .activatePointerGrab dev grab _ _ | .activateKeyboardGrab dev grab _ _ =>
    ∀ old, (s.deviceGrab dev).grab = some old → old.client = grab.client
  | _ => True

/-- No device is grabbed or frozen, and the queue is empty. -/
def State.initial : State D where
  deviceGrab _ := ⟨none,⟨0,0⟩,false,false,false,.notGrabbed,none⟩
  pending := []
  replayDev := none
  replayWin := none
  playingEvents := false
  time := ⟨0,0⟩
  phase := .idle
  settled := true
  enqueued := []
  played := []

/-- The states that operations lead to, each of which could come and is allowed. -/
inductive Reach (V : Devices D) (allowed : State D → Op D → Prop) : State D → Prop
  | initial : Reach V allowed State.initial
  | step {s : State D} (op : Op D) (h : Reach V allowed s) (enabled : Enabled s op) (ok : allowed s op) :
    Reach V allowed (apply V s op)

end Xlibre.Dix.Freeze
