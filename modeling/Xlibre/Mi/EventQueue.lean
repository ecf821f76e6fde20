import Xlibre.Lib.Checked
import Xlibre.Lib.Ring

/-! The queue of input events between the devices and the dispatch loop. -/
namespace Xlibre.Mi
open Xlibre.Lib

/-- What the queue's integers can run into. -/
inductive Fault
  | signedOverflow
  | intConversion
  | badIndex
  deriving DecidableEq, Repr

/-- `x+1` in `int`. -/
def succInt (x : ℤ) : Except Fault ℤ := if x+1 < 2^31 then .ok (x+1) else .error .signedOverflow

/-- `x-y` in `int`. -/
def subInt (x y : ℤ) : Except Fault ℤ :=
  if -2^31 ≤ x-y ∧ x-y < 2^31 then .ok (x-y) else .error .signedOverflow

/-- A `size_t` stored in an `int`. -/
def toInt (n : ℕ) : Except Fault ℤ := if n < 2^31 then .ok n else .error .intConversion

def toUnsigned (x : ℤ) : ℕ := (x % 2^32).toNat

def toSize (x : ℤ) : ℕ := (x % 2^64).toNat

structure Device where
  id : ℕ
  enqueueScreen : ℕ
  id_ne : id ≠ 0
  deriving DecidableEq

structure InternalEvent where
  motion : Bool
  time : ℕ
  body : ℕ
  deriving DecidableEq, Repr

/-- An event that a device enqueues. Only events that are no motion come without a device. -/
structure Arrival where
  pDev : Option Device
  event : InternalEvent
  device_of_motion : event.motion = true → pDev.isSome = true

/-- A bucket of the queue. -/
structure EventRec where
  event : InternalEvent
  pScreen : Option ℕ
  pDev : Option Device
  deriving DecidableEq

/-- A bucket that no event has been stored in. -/
def EventRec.unused : EventRec := ⟨⟨false,0,0⟩,none,none⟩

/-- The queue: the slots of its array from `nevents` on do not exist. -/
structure EventQueue where
  head : ℤ
  tail : ℤ
  lastEventTime : ℕ
  lastMotion : ℕ
  events : ℕ → EventRec
  nevents : ℕ

def Arrival.isMotion (a : Arrival) : ℕ := if a.event.motion then (a.pDev.map Device.id).getD 0 else 0

def Arrival.record (a : Arrival) : EventRec := ⟨a.event,a.pDev.map Device.enqueueScreen,a.pDev⟩

def mieqNumEnqueued (q : EventQueue) : Except Fault ℕ :=
  if q.nevents = 0 then .ok 0
  else
    (subInt q.tail q.head).bind fun d =>
      let n := (toSize d+q.nevents) % 2^64
      .ok (if q.nevents ≤ n then n-q.nevents else n)

/-- The new ring starts with the old one's buckets from its head on. `none` when the new size is not larger. -/
def mieqGrowQueue (q : EventQueue) (newNevents : ℕ) : Except Fault (Option EventQueue) :=
  if newNevents ≤ q.nevents then .ok none
  else
    (mieqNumEnqueued q).bind fun n =>
      (toInt n).bind fun tail =>
        let head := toSize q.head
        let firstHunk := q.nevents-head
        .ok (some { q with
          events := fun i =>
            if i < firstHunk then q.events (head+i)
            else if i < q.nevents then q.events (i-firstHunk)
            else EventRec.unused
          tail := tail
          head := 0
          nevents := newNevents })

/-- The end of mieqEnqueue: the event goes to bucket `i`, and the tail behind it. -/
def storeEvent (q : EventQueue) (a : Arrival) (i : ℕ) : Except Fault EventQueue :=
  if i < q.nevents then
    (toInt ((i+1) % 2^32 % q.nevents)).bind fun tail =>
      .ok { q with
        events := Function.update q.events i a.record
        lastEventTime := a.event.time
        lastMotion := a.isMotion
        tail := tail }
  else .error .badIndex

/-- The event is a motion of the device whose motion was the last event, and the queue is not empty. -/
def merges (q : EventQueue) (a : Arrival) : Bool :=
  decide (a.isMotion ≠ 0) && decide (a.isMotion = q.lastMotion) &&
    decide (toUnsigned q.tail ≠ toUnsigned q.head)

def mieqEnqueue (q : EventQueue) (a : Arrival) : Except Fault EventQueue :=
  let oldtail := toUnsigned q.tail
  (mieqNumEnqueued q).bind fun n =>
    if merges q a then storeEvent q a ((oldtail+(2^32-1)) % 2^32 % q.nevents)
    else if n+1 = q.nevents then
      (mieqGrowQueue q (q.nevents*2 % 2^64)).bind fun grown =>
        match grown with
        | none => .ok q
        | some q => storeEvent q a (toUnsigned q.tail)
    else storeEvent q a oldtail

def mieqDequeue (q : EventQueue) : Except Fault (EventQueue × Option EventRec) :=
  if q.head = q.tail then .ok (q,none)
  else if 0 ≤ q.head ∧ toSize q.head < q.nevents then
    (succInt q.head).bind fun next =>
      (toInt (toSize next % q.nevents)).bind fun head =>
        .ok ({ q with head := head },some (q.events (toSize q.head)))
  else .error .badIndex

def mieqInit (time : ℕ) : EventQueue where
  head := 0
  tail := 0
  lastEventTime := time
  lastMotion := 0
  events _ := EventRec.unused
  nevents := 512

inductive Op
  | enqueue (a : Arrival)
  | dequeue

def step (q : EventQueue) : Op → Except Fault (EventQueue × Option EventRec)
  | .enqueue a => (mieqEnqueue q a).map fun q => (q,none)
  | .dequeue => mieqDequeue q

def dequeued (q : EventQueue) : List Op → Except Fault (List EventRec)
  | [] => .ok []
  | op :: ops => (step q op).bind fun r => (dequeued r.1 ops).map fun l => r.2.toList ++ l

/-- A queue that numbers the events as they come: those still in it, how many have come, and the last of them. -/
structure Fifo where
  queue : List (ℕ × EventRec)
  count : ℕ
  previous : Option EventRec

def EventRec.sameDevice (e e' : EventRec) : Bool := e.pDev.map Device.id == e'.pDev.map Device.id

/-- A motion overwrites the event that came before it, if that is a motion of the same device and still in the queue. -/
def Fifo.enqueue (f : Fifo) (e : EventRec) : Fifo :=
  let overwrites := e.event.motion && (f.previous.any fun p => p.event.motion && e.sameDevice p) &&
    f.queue.any fun x => decide (x.1+1 = f.count)
  { queue :=
      if overwrites then f.queue.map fun x => if x.1+1 = f.count then (f.count,e) else x
      else f.queue ++ [(f.count,e)]
    count := f.count+1
    previous := some e }

def Fifo.step (f : Fifo) : Op → Fifo × Option EventRec
  | .enqueue a => (f.enqueue a.record,none)
  | .dequeue => ({ f with queue := f.queue.tail },f.queue.head?.map Prod.snd)

def Fifo.dequeued (f : Fifo) : List Op → List EventRec
  | [] => []
  | op :: ops => (f.step op).2.toList ++ Fifo.dequeued (f.step op).1 ops

def Fifo.empty : Fifo := ⟨[],0,none⟩

/-- The slots that the next step needs have numbers in `int`: the head is not at the largest one when an event is
dequeued, and the ring need not grow beyond 2^31 slots when one is enqueued. -/
def Fits (q : EventQueue) : Op → Prop
  | .enqueue a => ¬(q.nevents = 2^31 ∧ mieqNumEnqueued q = .ok (2^31-1) ∧ merges q a = false)
  | .dequeue => q.head = 2^31-1 → q.head = q.tail

/-- Every step of a run meets its condition. -/
def FitsAlong (q : EventQueue) : List Op → Prop
  | [] => True
  | op :: ops => Fits q op ∧ ∀ r, step q op = .ok r → FitsAlong r.1 ops

end Xlibre.Mi
