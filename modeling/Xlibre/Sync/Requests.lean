import Mathlib.Logic.Relation
import Xlibre.Sync.Objects

/-! The requests of the SYNC extension, and the walks over trigger lists one node at a time. -/
namespace Xlibre.Sync

section Alarm

/-- The loop of `SyncAlarmTriggerFired`: add `delta` until the trigger is false or the sum overflows. Each round
takes one unit of fuel. -/
def alarmLoop (isTrue : Int64 → Bool) (delta : Int64) : ℕ → Int64 → Option (Int64 × Bool)
  | 0,_ => none
  | fuel+1,testValue =>
    let sum := checkedInt64Add testValue delta
    if sum.2 = false ∧ isTrue sum.1 = true then alarmLoop isTrue delta fuel sum.1 else some sum

/-- `SyncAlarmTriggerFired` without the events it sends; `none` when the loop runs out of fuel. -/
def syncAlarmTriggerFired (fuel : ℕ) (w : World) (id : XID) : Option World :=
  match w.alarms id with
  | none => some w
  | some al =>
    let tr := w.trig (.alarm id)
    match counterPtr w tr.pSync with
    | .other => some w
    | .null => if al.state = .active then some (w.setAlarm id { al with state := .inactive }) else some w
    | .counter value =>
      if al.state ≠ .active then some w
      else if al.delta = 0 ∧ (tr.testType = positiveComparison ∨ tr.testType = negativeComparison) then
        some (w.setAlarm id { al with state := .inactive })
      else do
        let r ← alarmLoop (fun v => check w { tr with testValue := v } value) al.delta fuel tr.testValue
        if r.2 then some (w.setAlarm id { al with state := .inactive })
        else some (w.setTrig (.alarm id) { tr with testValue := r.1 })

/-- `SyncEventSelectForAlarm`; `alloc` tells whether its allocations succeed. -/
def syncEventSelectForAlarm (al : SyncAlarm) (client : ℕ) (wantevents alloc : Bool) : Status × SyncAlarm :=
  if client = al.client then (.success,{ al with events := wantevents })
  else if client ∈ al.pEventClients then
    (.success,if wantevents then al else { al with pEventClients := al.pEventClients.erase client })
  else if wantevents = false then (.success,al)
  else if alloc = false then (.badAlloc,al)
  else (.success,{ al with pEventClients := client::al.pEventClients })

/-- The attributes that `SyncChangeAlarmAttributes` reads before it changes anything. -/
structure Attributes where
  counter : XID
  trigger : SyncTrigger
  delta : Int64
  selectEvents : Option Bool

def readAttribute (mask bit words : ℕ) (store : Attributes → List UInt32 → Attributes) (s : Attributes × List UInt32) :
    Attributes × List UInt32 :=
  if mask.testBit bit then (store s.1 s.2,s.2.drop words) else s

def firstWord (values : List UInt32) : UInt32 := values.headD 0

def firstInt64 (values : List UInt32) : Int64 := int64OfWords (firstWord values) (firstWord values.tail)

/-- The loop over the value mask, from the lowest bit on; `none` is `BadValue`. -/
def readAttributes (mask : ℕ) (values : List UInt32) (a : Attributes) : Option Attributes :=
  let s := readAttribute mask caCounter 1 (fun a v => { a with counter := (firstWord v).toNat }) (a,values)
  let s := readAttribute mask caValueType 1 (fun a v => { a with trigger.valueType := (firstWord v).toNat }) s
  let s := readAttribute mask caValue 2 (fun a v => { a with trigger.waitValue := firstInt64 v }) s
  let s := readAttribute mask caTestType 1 (fun a v => { a with trigger.testType := (firstWord v).toNat }) s
  let s := readAttribute mask caDelta 2 (fun a v => { a with delta := firstInt64 v }) s
  if mask.testBit caEvents ∧ firstWord s.2 ≠ 0 ∧ firstWord s.2 ≠ 1 then none
  else if 2^(caEvents+1) ≤ mask then none
  else some (readAttribute mask caEvents 1 (fun a v => { a with selectEvents := some (firstWord v = 1) }) s).1

/-- The signs that the test-type and `delta` must not have together. -/
def signMismatch (testType : ℕ) (delta : Int64) : Bool :=
  ((testType = positiveComparison ∨ testType = positiveTransition) ∧ delta < 0) ∨
    ((testType = negativeComparison ∨ testType = negativeTransition) ∧ 0 < delta)

/-- The selection of events in `SyncChangeAlarmAttributes`, if the mask asks for one. -/
def changeSelection (al : SyncAlarm) (client : ℕ) (alloc : Bool) : Option Bool → Status × SyncAlarm
  | none => (.success,al)
  | some wantevents => syncEventSelectForAlarm al client wantevents alloc

/-- `delta` and the trigger are stored before `SyncInitTrigger` can fail. -/
def storeAttributes (w : World) (id : XID) (al : SyncAlarm) (a : Attributes) : World :=
  (w.setAlarm id { al with delta := a.delta }).setTrig (.alarm id) a.trigger

def syncChangeAlarmAttributes (w : World) (client : ℕ) (id : XID) (al : SyncAlarm) (mask : ℕ) (values : List UInt32)
    (alloc : Bool) (now : Int64) : Status × World :=
  let tr := w.trig (.alarm id)
  match readAttributes mask values ⟨tr.pSync.getD 0,tr,al.delta,none⟩ with
  | none => (.badValue,w)
  | some a =>
    let sel := changeSelection al client alloc a.selectEvents
    if sel.1 ≠ .success then (sel.1,w.setAlarm id sel.2)
    else if (mask.testBit caDelta ∨ mask.testBit caTestType) ∧ signMismatch a.trigger.testType a.delta then
      (.badMatch,w.setAlarm id sel.2)
    else
      let r := syncInitTrigger (storeAttributes w id sel.2 a) (.alarm id) a.counter .counter (mask%2^(caTestType+1)) now
      if r.1 ≠ .success then r
      else (.success,r.2.setAlarm id { sel.2 with delta := a.delta, state := .active })

def valueWords (mask : ℕ) : ℕ :=
  ((List.range 32).filter mask.testBit).length+((List.range 32).filter fun i => mask.testBit i && (i == caValue || i == caDelta)).length

def freeAlarm (w : World) (id : XID) : World :=
  let w := syncDeleteTriggerFromSyncObject w (.alarm id)
  { w with alarms := Function.update w.alarms id none }

def syncAlarmCounterDestroyed (w : World) (id : XID) : World :=
  match w.alarms id with
  | none => w
  | some al =>
    (w.setAlarm id { al with state := .inactive }).setTrig (.alarm id) { w.trig (.alarm id) with pSync := none }

end Alarm

section Await

/-- One trigger in `FreeAwait`: off the list, or out of its node if the object is being destroyed. -/
def dropTrigger (w : World) (t : TrigRef) : World :=
  match (w.trig t).pSync with
  | none => w
  | some x =>
    match w.objs x with
    | none => w
    | some o =>
      if o.beingDestroyed = false then syncDeleteTriggerFromSyncObject w t
      else w.setTriglist x (o.pTriglist.replace (some t) none)

def freeAwait (w : World) (a : ℕ) : World :=
  match w.awaits a with
  | none => w
  | some h =>
    let w := (List.range h.numWaitconditions).foldl (fun w i => dropTrigger w (.await a i)) w
    { w with awaits := Function.update w.awaits a none }

/-- `SyncAwaitTriggerFired` without its events: unblock the client and free the await. -/
def syncAwaitTriggerFired (w : World) (a : ℕ) : World := freeAwait { w with attended := w.attended ++ [a] } a

/-- `TriggerFired` of a trigger. -/
def triggerFired (fuel : ℕ) (w : World) : TrigRef → Option World
  | .alarm id => syncAlarmTriggerFired fuel w id
  | .await a _ => some (syncAwaitTriggerFired w a)

/-- `CounterDestroyed` of a trigger. -/
def counterDestroyed (w : World) : TrigRef → World
  | .alarm id => syncAlarmCounterDestroyed w id
  | .await a _ => syncAwaitTriggerFired w a

/-- A wait condition of `Await`; `now` is what `QueryValue` says. -/
structure WaitCondition where
  counter : XID
  valueType : ℕ
  waitValue : Int64
  testType : ℕ
  now : Int64

/-- `num_waitconditions++`. -/
def World.countCondition (w : World) (a : ℕ) : World :=
  let header := (w.awaits a).map fun h => { h with numWaitconditions := h.numWaitconditions+1 }
  { w with awaits := Function.update w.awaits a header }

/-- The trigger of a wait condition before `SyncInitTrigger`. -/
def WaitCondition.trigger (c : WaitCondition) : SyncTrigger :=
  ⟨none,c.waitValue,c.valueType,c.testType,0,.positiveComparison⟩

/-- One round of the loop of `ProcSyncAwait` or `ProcSyncAwaitFence`, for the trigger with number `i`. -/
def addCondition (resType : ResType) (w : World) (a i : ℕ) (c : WaitCondition) : Status × World :=
  if c.counter = 0 then (match resType with | .counter => .badCounter | .fence => .badFence,w)
  else
    let r := syncInitTrigger (w.setTrig (.await a i) c.trigger) (.await a i) c.counter resType caAllTrigger c.now
    if r.1 ≠ .success then r else (.success,r.2.countCondition a)

/-- The loop of `ProcSyncAwait`; on an error the await is freed. -/
def addConditions (resType : ResType) (w : World) (a : ℕ) : ℕ → List WaitCondition → Status × World
  | _,[] => (.success,w)
  | i,c::rest =>
    let r := addCondition resType w a i c
    if r.1 ≠ .success then (r.1,freeAwait r.2 a) else addConditions resType r.2 a (i+1) rest

/-- `SyncAwaitEpilogue`: fire the first trigger that is true already. -/
def syncAwaitEpilogue (w : World) (a : ℕ) : List ℕ → World
  | [] => w
  | i::rest =>
    let tr := w.trig (.await a i)
    let value := match counterPtr w tr.pSync with
      | .counter value => value
      | _ => 0
    if check w tr value then syncAwaitTriggerFired w a else syncAwaitEpilogue w a rest

/-- `ProcSyncAwait` and `ProcSyncAwaitFence`. -/
def procSyncAwait (resType : ResType) (w : World) (client : ℕ) (conds : List WaitCondition) : Status × World :=
  if conds = [] then (.badValue,w)
  else
    let a := w.nextAwait
    let w := { w.setAwait a ⟨client,0⟩ with nextAwait := a+1 }
    let r := addConditions resType w a 0 conds
    if r.1 ≠ .success then r else (.success,syncAwaitEpilogue r.2 a (List.range conds.length))

end Await

section Walk

def nodeAfter (l : List (Option TrigRef)) (t : TrigRef) : Option (Option TrigRef) := (l.dropWhile (· ≠ some t)).tail.head?

/-- One node of `SyncChangeCounter`. After a trigger fired, the next node may be gone: then the walk starts over. -/
def changeNode (fuel : ℕ) (w : World) (x : XID) (oldval : Int64) (t : TrigRef) : Option World :=
  let pnext := nodeAfter (w.triglist x) t
  if check w (w.trig t) oldval then do
    let w' ← triggerFired fuel w t
    let pnext := match pnext with
      | none => none
      | some p => if p ∈ w'.triglist x then some p else (w'.triglist x).head?
    some { w' with phase := .change x oldval pnext }
  else some { w with phase := .change x oldval pnext }

/-- The start of `SyncChangeCounter`. -/
def syncChangeCounter (w : World) (x : XID) (newval : Int64) : World :=
  match w.objs x with
  | some ⟨.counter oldval sys,l,d⟩ => { w.setObj x ⟨.counter newval sys,l,d⟩ with phase := .change x oldval l.head? }
  | _ => w

def firstTrue (w : World) (l : List (Option TrigRef)) : Option (Option TrigRef) :=
  l.find? fun p => match p with
    | none => true
    | some t => check w (w.trig t) 0

/-- One callback of the walk that the server is in; `none` when it follows a null pointer or runs out of fuel. -/
def next (fuel : ℕ) (w : World) : Option World :=
  match w.phase with
  | .idle => none
  | .change x _ none => some { syncComputeBracketValues w x with phase := .idle }
  | .change _ _ (some none) => none
  | .change x oldval (some (some t)) => changeNode fuel w x oldval t
  | .trigger x =>
    match firstTrue w (w.triglist x) with
    | none => some { w with phase := .idle }
    | some none => none
    | some (some t) => triggerFired fuel w t
  | .destroy x =>
    match w.triglist x with
    | [] => some { w with objs := Function.update w.objs x none, phase := .idle }
    | p::rest =>
      let w := w.setTriglist x rest
      match p with
      | none => some w
      | some t => some (counterDestroyed w t)

/-- The start of `FreeCounter` and `miSyncDestroyFence`. -/
def freeSync (w : World) (x : XID) : World :=
  match w.objs x with
  | none => w
  | some o => { w.setObj x { o with beingDestroyed := true } with phase := .destroy x }

end Walk

section Requests

/-- Requests, and `SyncChangeCounter` by the server for a system counter. -/
inductive Req
  | createCounter (cid : XID) (value : Int64)
  | setCounter (cid : XID) (value : Int64)
  | changeCounter (cid : XID) (value : Int64)
  | destroyCounter (cid : XID)
  | systemChange (x : XID) (value : Int64)
  | createAlarm (client : ℕ) (id : XID) (mask : ℕ) (values : List UInt32) (alloc : Bool) (now : Int64)
  | changeAlarm (client : ℕ) (id : XID) (mask : ℕ) (values : List UInt32) (alloc : Bool) (now : Int64)
  | destroyAlarm (id : XID)
  | await (client : ℕ) (conds : List WaitCondition)
  | createFence (fid : XID) (triggered : Bool)
  | awaitFence (client : ℕ) (fences : List XID)
  | triggerFence (fid : XID)
  | resetFence (fid : XID)
  | destroyFence (fid : XID)

/-- The client that an `Await` or `AwaitFence` request blocks, and the number of its wait conditions. -/
def Req.asksFor : Req → Option (ℕ × ℕ)
  | .await client conds => some (client,conds.length)
  | .awaitFence client fences => some (client,fences.length)
  | _ => none

/-- `LEGAL_NEW_RESOURCE`: the id is not in use. -/
def World.isNew (w : World) (id : XID) : Bool := decide (w.objs id = none) && decide (w.alarms id = none) && decide (id ≠ 0)

def clientCounter (w : World) (cid : XID) : Except Status Int64 :=
  match w.objs cid with
  | some ⟨.counter value none,_,_⟩ => .ok value
  | some ⟨.counter _ (some _),_,_⟩ => .error .badAccess
  | _ => .error .badCounter

/-- The alarm of `ProcSyncCreateAlarm` with its defaults. -/
def defaultAlarm (client : ℕ) : SyncAlarm := ⟨client,1,true,.inactive,[]⟩

def defaultTrigger : SyncTrigger := ⟨none,0,absolute,positiveComparison,0,.positiveComparison⟩

def procSyncCreateAlarm (fuel : ℕ) (w : World) (client : ℕ) (id : XID) (mask : ℕ) (values : List UInt32) (alloc : Bool)
    (now : Int64) : Option (Status × World) :=
  if w.isNew id = false then some (.badIDChoice,w)
  else if values.length ≠ valueWords mask then some (.badLength,w)
  else
    let w₁ := w.setTrig (.alarm id) defaultTrigger
    let w₂ := (syncInitTrigger w₁ (.alarm id) 0 .counter caAllTrigger now).2
    let w₃ := w₂.setAlarm id (defaultAlarm client)
    let r := syncChangeAlarmAttributes w₃ client id (defaultAlarm client) mask values alloc now
    if r.1 ≠ .success then some (r.1,{ r.2 with alarms := Function.update r.2.alarms id none })
    else
      let w := r.2
      let tr := w.trig (.alarm id)
      match counterPtr w tr.pSync with
      | .null =>
        match w.alarms id with
        | none => some (.success,w)
        | some al => some (.success,w.setAlarm id { al with state := .inactive })
      | .other => some (.badAlloc,freeAlarm w id)
      | .counter value =>
        if check w tr value then do
          let w ← syncAlarmTriggerFired fuel w id
          some (.success,w)
        else some (.success,w)

def procSyncChangeAlarm (fuel : ℕ) (w : World) (client : ℕ) (id : XID) (mask : ℕ) (values : List UInt32) (alloc : Bool)
    (now : Int64) : Option (Status × World) :=
  match w.alarms id with
  | none => some (.badAlarm,w)
  | some al =>
    if values.length ≠ valueWords mask then some (.badLength,w)
    else
      let r := syncChangeAlarmAttributes w client id al mask values alloc now
      if r.1 ≠ .success then some r
      else
        let w := r.2
        let tr := w.trig (.alarm id)
        let fires := match counterPtr w tr.pSync with
          | .counter value => check w tr value
          | _ => true
        if fires then do
          let w ← syncAlarmTriggerFired fuel w id
          some (.success,w)
        else some (.success,w)

/-- A request, up to the first node of the walk it starts; `none` when a loop runs out of fuel. -/
def start (fuel : ℕ) (w : World) : Req → Option (Status × World)
  | .createCounter cid value =>
    if w.isNew cid = false then some (.badIDChoice,w)
    else some (.success,w.setObj cid ⟨.counter value none,[],false⟩)
  | .setCounter cid value =>
    match clientCounter w cid with
    | .error e => some (e,w)
    | .ok _ => some (.success,syncChangeCounter w cid value)
  | .changeCounter cid value =>
    match clientCounter w cid with
    | .error e => some (e,w)
    | .ok old =>
      let sum := checkedInt64Add value old
      if sum.2 then some (.badValue,w) else some (.success,syncChangeCounter w cid sum.1)
  | .destroyCounter cid =>
    match clientCounter w cid with
    | .error e => some (e,w)
    | .ok _ => some (.success,freeSync w cid)
  | .systemChange x value =>
    match w.objs x with
    | some ⟨.counter _ (some _),_,_⟩ => some (.success,syncChangeCounter w x value)
    | _ => some (.success,w)
  | .createAlarm client id mask values alloc now => procSyncCreateAlarm fuel w client id mask values alloc now
  | .changeAlarm client id mask values alloc now => procSyncChangeAlarm fuel w client id mask values alloc now
  | .destroyAlarm id =>
    match w.alarms id with
    | none => some (.badAlarm,w)
    | some _ => some (.success,freeAlarm w id)
  | .await client conds => some (procSyncAwait .counter w client conds)
  | .createFence fid triggered =>
    if w.isNew fid = false then some (.badIDChoice,w)
    else some (.success,w.setObj fid ⟨.fence triggered,[],false⟩)
  | .awaitFence client fences => some (procSyncAwait .fence w client (fences.map fun f => ⟨f,absolute,0,0,0⟩))
  | .triggerFence fid =>
    match w.objs fid with
    | some ⟨.fence _,l,d⟩ => some (.success,{ w.setObj fid ⟨.fence true,l,d⟩ with phase := .trigger fid })
    | _ => some (.badFence,w)
  | .resetFence fid =>
    match w.objs fid with
    | some ⟨.fence triggered,l,d⟩ =>
      if triggered = false then some (.badMatch,w) else some (.success,w.setObj fid ⟨.fence false,l,d⟩)
    | _ => some (.badFence,w)
  | .destroyFence fid =>
    match w.objs fid with
    | some ⟨.fence _,_,_⟩ => some (.success,freeSync w fid)
    | _ => some (.badFence,w)

/-- A server with nothing but system counters. -/
structure Fresh (w : World) : Prop where
  objs : ∀ x o, w.objs x = some o → ∃ value sys, o = ⟨.counter value (some sys),[],false⟩
  alarms : ∀ id, w.alarms id = none
  awaits : ∀ a, w.awaits a = none
  zero : w.objs 0 = none
  attended : w.attended = []
  phase : w.phase = .idle

/-- One step of a run: a request that meets `ok`, up to its first callback, or one callback. -/
inductive Step (ok : World → Req → Prop) : World → World → Prop
  | request {w w' : World} {req : Req} {status : Status} {fuel : ℕ} : w.phase = .idle → ok w req →
    start fuel w req = some (status,w') → Step ok w w'
  | callback {w w' : World} {fuel : ℕ} : next fuel w = some w' → Step ok w w'

def Reach (ok : World → Req → Prop) (w : World) : Prop := ∃ w₀, Fresh w₀ ∧ Relation.ReflTransGen (Step ok) w₀ w

end Requests

end Xlibre.Sync
