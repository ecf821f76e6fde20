import Mathlib.Algebra.Group.Nat.Defs
import Mathlib.Data.Int.Basic

/-! The SYNC extension: counters and fences with the triggers on them, alarms and awaits. -/
namespace Xlibre.Sync

abbrev XID := ℕ

inductive Status
  | success | badValue | badMatch | badAlloc | badLength | badAccess | badIDChoice | badCounter | badAlarm | badFence
deriving DecidableEq, Repr

/-- The functions plugged into `CheckTrigger`. -/
inductive CheckTrigger
  | positiveComparison | negativeComparison | positiveTransition | negativeTransition | fence
deriving DecidableEq, Repr

inductive TrigRef
  | alarm (id : XID)
  | await (a i : ℕ)
deriving DecidableEq, Repr

instance : LawfulBEq (Option TrigRef) := inferInstance

structure SyncTrigger where
  pSync : Option XID
  waitValue : Int64
  valueType : ℕ
  testType : ℕ
  testValue : Int64
  checkTrigger : CheckTrigger
deriving DecidableEq, Repr

inductive SyncCounterType
  | neverChanges | neverIncreases | neverDecreases | unrestricted
deriving DecidableEq, Repr

/-- `SysCounterInfo`; `handed` are the two pointers last given to `BracketValues` (less, greater). -/
structure SysCounterInfo where
  counterType : SyncCounterType
  handed : Option Int64 × Option Int64
deriving DecidableEq, Repr

/-- What a sync object is: a counter, of the system if it has `sys`, or a fence. -/
inductive SyncData
  | counter (value : Int64) (sys : Option SysCounterInfo)
  | fence (triggered : Bool)
deriving DecidableEq, Repr

/-- `SyncObject`. A trigger is on a list once, so a node of the list is known by its trigger; `none` is a node
whose trigger is gone. -/
structure SyncObject where
  data : SyncData
  pTriglist : List (Option TrigRef)
  beingDestroyed : Bool
deriving DecidableEq, Repr

inductive AlarmState
  | active | inactive | destroyed
deriving DecidableEq, Repr

/-- `SyncAlarm` without its trigger. -/
structure SyncAlarm where
  client : ℕ
  delta : Int64
  events : Bool
  state : AlarmState
  pEventClients : List ℕ
deriving DecidableEq, Repr

structure SyncAwaitHeader where
  client : ℕ
  numWaitconditions : ℕ
deriving DecidableEq, Repr

/-- What the server is doing: waiting for a request, or inside one of the walks over a trigger list. -/
inductive Phase
  | idle
  /-- `SyncChangeCounter`, about to look at a node. -/
  | change (x : XID) (oldval : Int64) (ptl : Option (Option TrigRef))
  /-- `miSyncTriggerFence`. -/
  | trigger (x : XID)
  /-- `FreeCounter` or `miSyncDestroyFence`. -/
  | destroy (x : XID)
deriving DecidableEq, Repr

/-- The server: resources, the memory of the triggers, the awaits whose client was unblocked, and the phase. -/
structure World where
  objs : XID → Option SyncObject
  alarms : XID → Option SyncAlarm
  awaits : ℕ → Option SyncAwaitHeader
  trig : TrigRef → SyncTrigger
  nextAwait : ℕ
  attended : List ℕ
  phase : Phase

section Constants

def absolute : ℕ := 0
def relative : ℕ := 1
def positiveTransition : ℕ := 0
def negativeTransition : ℕ := 1
def positiveComparison : ℕ := 2
def negativeComparison : ℕ := 3

/-- The bits of `XSyncCACounter` and so on. -/
def caCounter : ℕ := 0
def caValueType : ℕ := 1
def caValue : ℕ := 2
def caTestType : ℕ := 3
def caDelta : ℕ := 4
def caEvents : ℕ := 5

/-- `XSyncCAAllTrigger`. -/
def caAllTrigger : ℕ := 2^caCounter+2^caValueType+2^caValue+2^caTestType

end Constants

section Arithmetic

/-- `checked_int64_add`: the wrapped sum, and whether it overflowed. -/
def checkedInt64Add (a b : Int64) : Int64 × Bool :=
  let result := a+b
  (result,decide (a < 0) == decide (b < 0) && decide (a < 0) != decide (result < 0))

def int64OfWords (hi lo : UInt32) : Int64 := (hi.toUInt64 <<< 32 ||| lo.toUInt64).toInt64

end Arithmetic

section Check

variable (w : World)

inductive CounterPtr
  | null
  | counter (value : Int64)
  | other

def counterPtr : Option XID → CounterPtr
  | none => .null
  | some x =>
    match w.objs x with
    | some ⟨.counter value _,_,_⟩ => .counter value
    | _ => .other

def checkCounter (pSync : Option XID) (p : Int64 → Bool) : Bool :=
  match counterPtr w pSync with
  | .null => true
  | .counter value => p value
  | .other => false

/-- `CheckTrigger` of a trigger. -/
def check (t : SyncTrigger) (oldval : Int64) : Bool :=
  match t.checkTrigger with
  | .positiveComparison => checkCounter w t.pSync fun value => t.testValue ≤ value
  | .negativeComparison => checkCounter w t.pSync fun value => value ≤ t.testValue
  | .positiveTransition => checkCounter w t.pSync fun value => oldval < t.testValue && t.testValue ≤ value
  | .negativeTransition => checkCounter w t.pSync fun value => t.testValue < oldval && value ≤ t.testValue
  | .fence =>
    match t.pSync with
    | none => true
    | some x =>
      match w.objs x with
      | some ⟨.fence triggered,_,_⟩ => triggered
      | _ => false

end Check

section Update

def World.setObj (w : World) (x : XID) (o : SyncObject) : World := { w with objs := Function.update w.objs x (some o) }

def World.setTrig (w : World) (t : TrigRef) (tr : SyncTrigger) : World := { w with trig := Function.update w.trig t tr }

def World.setAlarm (w : World) (id : XID) (al : SyncAlarm) : World :=
  { w with alarms := Function.update w.alarms id (some al) }

def World.setAwait (w : World) (a : ℕ) (h : SyncAwaitHeader) : World :=
  { w with awaits := Function.update w.awaits a (some h) }

def World.triglist (w : World) (x : XID) : List (Option TrigRef) :=
  match w.objs x with
  | none => []
  | some o => o.pTriglist

def World.setTriglist (w : World) (x : XID) (l : List (Option TrigRef)) : World :=
  match w.objs x with
  | none => w
  | some o => w.setObj x { o with pTriglist := l }

end Update

section Brackets

/-- The brackets while `SyncComputeBracketValues` runs, with whether each pointer is set. -/
structure Brackets where
  greater : Int64
  less : Int64
  newGreater : Bool
  newLess : Bool
deriving DecidableEq

def Brackets.start : Brackets := ⟨Int64.maxValue,Int64.minValue,false,false⟩

def Brackets.raise (b : Brackets) (v : Int64) : Brackets := { b with less := v, newLess := true }

def Brackets.lower (b : Brackets) (v : Int64) : Brackets := { b with greater := v, newGreater := true }

/-- One trigger in `SyncComputeBracketValues`. -/
def Brackets.add (ct : SyncCounterType) (value : Int64) (b : Brackets) (t : SyncTrigger) : Brackets :=
  if t.testType = positiveComparison ∧ ct ≠ .neverIncreases then
    if value < t.testValue ∧ t.testValue < b.greater then b.lower t.testValue
    else if t.testValue < value ∧ b.less < t.testValue then b.raise t.testValue
    else b
  else if t.testType = negativeComparison ∧ ct ≠ .neverDecreases then
    if t.testValue < value ∧ b.less < t.testValue then b.raise t.testValue
    else if value < t.testValue ∧ t.testValue < b.greater then b.lower t.testValue
    else b
  else if t.testType = negativeTransition ∧ ct ≠ .neverIncreases then
    if t.testValue ≤ value ∧ b.less < t.testValue then b.raise t.testValue
    else if value < t.testValue ∧ t.testValue < b.greater then b.lower t.testValue
    else b
  else if t.testType = positiveTransition ∧ ct ≠ .neverDecreases then
    if value ≤ t.testValue ∧ t.testValue < b.greater then b.lower t.testValue
    else if t.testValue < value ∧ b.less < t.testValue then b.raise t.testValue
    else b
  else b

/-- The pointers that `SyncComputeBracketValues` hands to `BracketValues`. -/
def bracketValues (ct : SyncCounterType) (value : Int64) (triggers : List SyncTrigger) : Option Int64 × Option Int64 :=
  let b := triggers.foldl (Brackets.add ct value) Brackets.start
  (if b.newLess then some b.less else none,if b.newGreater then some b.greater else none)

/-- `SyncComputeBracketValues`, where the object is a system counter. -/
def syncComputeBracketValues (w : World) (x : XID) : World :=
  match w.objs x with
  | some ⟨.counter value (some sys),l,d⟩ =>
    if sys.counterType = .neverChanges then w
    else
      w.setObj x ⟨.counter value (some { sys with
        handed := bracketValues sys.counterType value (l.filterMap id |>.map w.trig) }),l,d⟩
  | _ => w

end Brackets

section Triglists

def syncDeleteTriggerFromSyncObject (w : World) (t : TrigRef) : World :=
  match (w.trig t).pSync with
  | none => w
  | some x => syncComputeBracketValues (w.setTriglist x ((w.triglist x).erase (some t))) x

def syncAddTriggerToSyncObject (w : World) (t : TrigRef) : World :=
  match (w.trig t).pSync with
  | none => w
  | some x =>
    if some t ∈ w.triglist x then w
    else syncComputeBracketValues (w.setTriglist x (some t::w.triglist x)) x

inductive ResType
  | counter | fence
deriving DecidableEq

def SyncObject.resType (o : SyncObject) : ResType :=
  match o.data with
  | .counter _ _ => .counter
  | .fence _ => .fence

/-- `dixLookupResourceByType` for sync objects. -/
def lookupSync (w : World) (x : XID) (resType : ResType) : Except Status XID :=
  match w.objs x with
  | some o => if o.resType = resType then .ok x else .error (match resType with | .counter => .badCounter | .fence => .badFence)
  | none => .error (match resType with | .counter => .badCounter | .fence => .badFence)

/-- `QueryValue` of a system counter, which says `now`. -/
def queryValue (w : World) (pSync : Option XID) (now : Int64) : World :=
  match pSync with
  | none => w
  | some x =>
    match w.objs x with
    | some ⟨.counter _ (some sys),l,d⟩ => w.setObj x ⟨.counter now (some sys),l,d⟩
    | _ => w

/-- The test value that `SyncInitTrigger` stores, with the status. -/
def initTestValue (w : World) (tr : SyncTrigger) (pSync : Option XID) (changes : ℕ) : Status × Int64 :=
  if changes.testBit caValueType ∨ changes.testBit caValue then
    if tr.valueType = absolute then (.success,tr.waitValue)
    else
      match counterPtr w pSync with
      | .counter value =>
        let sum := checkedInt64Add value tr.waitValue
        (if sum.2 then .badValue else .success,sum.1)
      | _ => (.badMatch,tr.testValue)
  else (.success,tr.testValue)

/-- The function for a test-type of a counter. -/
def checkOf (testType : ℕ) : Option CheckTrigger :=
  if testType = positiveTransition then some .positiveTransition
  else if testType = negativeTransition then some .negativeTransition
  else if testType = positiveComparison then some .positiveComparison
  else if testType = negativeComparison then some .negativeComparison
  else none

/-- The function that `SyncInitTrigger` plugs in; `none` when there is none for the test-type. -/
def initCheck (w : World) (tr : SyncTrigger) (pSync : Option XID) (changes : ℕ) : Option CheckTrigger :=
  if changes.testBit caTestType then
    match pSync.bind w.objs with
    | some ⟨.fence _,_,_⟩ => some .fence
    | _ => checkOf tr.testType
  else some tr.checkTrigger

/-- The end of `SyncInitTrigger`, when nothing can fail any more. -/
def registerTrigger (w : World) (t : TrigRef) (pSync : Option XID) (changes : ℕ) : World :=
  if changes.testBit caCounter ∧ pSync ≠ (w.trig t).pSync then
    let w := syncDeleteTriggerFromSyncObject w t
    syncAddTriggerToSyncObject (w.setTrig t { w.trig t with pSync := pSync }) t
  else
    match pSync with
    | none => w
    | some x => syncComputeBracketValues w x

/-- The object that `SyncInitTrigger` gives to a trigger, or why there is none. -/
def initTarget (w : World) (t : TrigRef) (syncObject : XID) (resType : ResType) (changes : ℕ) : Except Status (Option XID) :=
  if changes.testBit caCounter then
    if syncObject = 0 then .ok none else (lookupSync w syncObject resType).map some
  else .ok (w.trig t).pSync

def syncInitTrigger (w : World) (t : TrigRef) (syncObject : XID) (resType : ResType) (changes : ℕ) (now : Int64) :
    Status × World :=
  match initTarget w t syncObject resType changes with
  | .error e => (e,w)
  | .ok pSync =>
    let w := queryValue w pSync now
    let tr := w.trig t
    if changes.testBit caValueType ∧ tr.valueType ≠ relative ∧ tr.valueType ≠ absolute then (.badValue,w)
    else
      let v := initTestValue w tr pSync changes
      let w := w.setTrig t { tr with testValue := v.2 }
      if v.1 ≠ .success then (v.1,w)
      else
        match initCheck w (w.trig t) pSync changes with
        | none => (.badValue,w)
        | some c => (.success,registerTrigger (w.setTrig t { w.trig t with checkTrigger := c }) t pSync changes)

end Triglists

end Xlibre.Sync
