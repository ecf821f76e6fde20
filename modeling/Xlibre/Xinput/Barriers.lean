import Mathlib.Algebra.Group.Nat.Defs
import Mathlib.Algebra.Group.Int.Defs
import Mathlib.Data.Int.Basic

/-! Pointer barriers: what stops a pointer on its way, and the events that are sent when it hits a barrier or leaves one. -/
namespace Xlibre.Xinput

/-- Arithmetic on the numbers of a machine. It need not have any laws. -/
class MachineNumber (N : Type) extends IntCast N, Add N, Sub N, Mul N, Div N, LT N, BEq N where
  decidableLT : DecidableLT N

attribute [instance] MachineNumber.decidableLT

/-- What is done with machine numbers of single precision `F` and of double precision `D` beyond arithmetic. -/
structure Floats (F D : Type) where
  toInt : F → ℤ
  toDouble : F → D
  pow : D → ℕ → D
  sqrt : D → D

structure PointerBarrier where
  x1 : ℤ
  x2 : ℤ
  y1 : ℤ
  y2 : ℤ
  directions : BitVec 4
  deriving DecidableEq, Repr

def barrierPositiveX : BitVec 4 := 1
def barrierPositiveY : BitVec 4 := 2
def barrierNegativeX : BitVec 4 := 4
def barrierNegativeY : BitVec 4 := 8

/-- The directions that a movement has. -/
def barrierGetDirection (x1 y1 x2 y2 : ℤ) : BitVec 4 :=
  (if x2 > x1 then barrierPositiveX else 0) ||| (if x2 < x1 then barrierNegativeX else 0) |||
    (if y2 > y1 then barrierPositiveY else 0) ||| (if y2 < y1 then barrierNegativeY else 0)

def insideSegment (v v1 v2 : ℤ) : Bool :=
  if v1 < 0 ∧ v2 < 0 then true
  else if v1 < 0 then v ≤ v2
  else if v2 < 0 then v ≥ v1
  else v ≥ v1 ∧ v ≤ v2

def hitEdgeExtents : ℤ := 2

namespace PointerBarrier

def isHorizontal (b : PointerBarrier) : Bool := b.y1 = b.y2

def isVertical (b : PointerBarrier) : Bool := b.x1 = b.x2

/-- Barriers define which way is ok. -/
def isBlockingDirection (b : PointerBarrier) (direction : BitVec 4) : Bool := b.directions &&& direction ≠ direction

section Blocking
variable {F D : Type} [MachineNumber F] [MachineNumber D]

/-- The distance to a barrier at `line`, between `lo` and `hi` on the other axis, for a movement from `(a₁,b₁)` to
`(a₂,b₂)`. -/
def crossing (ops : Floats F D) (line lo hi a₁ b₁ a₂ b₂ : ℤ) : Option D :=
  let t : F := ((line : F) - (a₁ : F)) / ((a₂ - a₁ : ℤ) : F)
  if t < ((0 : ℤ) : F) ∨ ((1 : ℤ) : F) < t then none
  -- edge case: moving away from the barrier
  else if a₂ > a₁ ∧ t == ((0 : ℤ) : F) then none
  else
    let b := t * ((b₁ - b₂ : ℤ) : F) + (b₁ : F)
    if insideSegment (ops.toInt b) lo hi then
      some (ops.sqrt (ops.pow (ops.toDouble (b - (b₁ : F))) 2 + ops.pow ((line - a₁ : ℤ) : D) 2))
    else none

/-- `barrier_is_blocking`, with the distance. -/
def isBlocking (ops : Floats F D) (b : PointerBarrier) (x1 y1 x2 y2 : ℤ) : Option D :=
  if b.isVertical then crossing ops b.x1 b.y1 b.y2 x1 y1 x2 y2 else crossing ops b.y1 b.x1 b.x2 y1 x1 y2 x2

end Blocking

def insideHitBox (b : PointerBarrier) (x y : ℤ) : Bool :=
  let dir := ~~~b.directions
  let edge (side : Bool) (bit : BitVec 4) : ℤ := if side && dir &&& bit ≠ 0 then hitEdgeExtents else 0
  let x1 := b.x1 - edge b.isVertical barrierPositiveX
  let x2 := b.x2 + edge b.isVertical barrierNegativeX
  let y1 := b.y1 - edge b.isHorizontal barrierPositiveY
  let y2 := b.y2 + edge b.isHorizontal barrierNegativeY
  x ≥ x1 ∧ x ≤ x2 ∧ y ≥ y1 ∧ y ≤ y2

def clampAxis (blocks : BitVec 4) (negative positive : BitVec 4) (line v : ℤ) : ℤ :=
  if blocks &&& positive ≠ 0 then line - 1 else if blocks &&& negative ≠ 0 then line else v

/-- `barrier_clamp_to_barrier`. -/
def clamp (b : PointerBarrier) (dir : BitVec 4) (p : ℤ × ℤ) : ℤ × ℤ :=
  let blocks := dir &&& ~~~b.directions
  (if b.isVertical then clampAxis blocks barrierNegativeX barrierPositiveX b.x1 p.1 else p.1,
    if b.isHorizontal then clampAxis blocks barrierNegativeY barrierPositiveY b.y1 p.2 else p.2)

end PointerBarrier

structure PointerBarrierDevice where
  deviceid : ℕ
  lastTimestamp : BitVec 32
  barrierEventId : BitVec 32
  releaseEventId : BitVec 32
  hit : Bool
  seen : Bool
  deriving DecidableEq, Repr

def allocBarrierDevice (deviceid : ℕ) : PointerBarrierDevice := ⟨deviceid,0,1,0,false,false⟩

/-- The client has let the pointer through since it hit the barrier. -/
def PointerBarrierDevice.released (pbd : PointerBarrierDevice) : Bool := pbd.barrierEventId = pbd.releaseEventId

def setDevice (pbd : PointerBarrierDevice) : List PointerBarrierDevice → List PointerBarrierDevice
  | [] => []
  | p::devices => if p.deviceid = pbd.deviceid then pbd::devices else p::setDevice pbd devices

structure PointerBarrierClient where
  id : ℕ
  window : ℕ
  barrier : PointerBarrier
  deviceIds : List ℕ
  perDevice : List PointerBarrierDevice
  deriving DecidableEq, Repr

namespace PointerBarrierClient

/-- `GetBarrierDevice`. -/
def device (c : PointerBarrierClient) (deviceid : ℕ) : Option PointerBarrierDevice :=
  c.perDevice.find? fun p => p.deviceid = deviceid

def set (c : PointerBarrierClient) (pbd : PointerBarrierDevice) : PointerBarrierClient :=
  { c with perDevice := setDevice pbd c.perDevice }

/-- `barrier_blocks_device` for a master; 0 stands for all devices and 1 for all masters. -/
def blocksDevice (c : PointerBarrierClient) (master : ℕ) : Bool :=
  c.deviceIds.isEmpty || c.deviceIds.any fun deviceId => deviceId = 0 || deviceId = 1 || deviceId = master

end PointerBarrierClient

inductive BarrierEventType
  | hit
  | leave
  deriving DecidableEq, Repr

structure BarrierEvent where
  type : BarrierEventType
  time : BitVec 32
  deviceid : ℕ
  sourceid : ℕ
  dx : ℤ
  dy : ℤ
  root : ℕ
  rootX : ℤ
  rootY : ℤ
  barrierid : ℕ
  window : ℕ
  dt : BitVec 16
  eventId : BitVec 32
  released : Bool
  deriving DecidableEq, Repr

/-- A pointer on its way: the directions left, where it is and where it goes, and the events so far. -/
structure Walk where
  barriers : List PointerBarrierClient
  dir : BitVec 4
  current : ℤ × ℤ
  dest : ℤ × ℤ
  events : List BarrierEvent
  deriving DecidableEq

section Walk
variable {F D : Type} [MachineNumber F] [MachineNumber D]

/-- How far a barrier is if it is to be looked at. -/
def PointerBarrierClient.distance (ops : Floats F D) (master : ℕ) (dir : BitVec 4) (x1 y1 x2 y2 : ℤ)
    (c : PointerBarrierClient) : Option D :=
  match c.device master with
  | none => none
  | some pbd =>
    if !pbd.seen && c.barrier.isBlockingDirection dir && c.blocksDevice master then
      c.barrier.isBlocking ops x1 y1 x2 y2
    else none

def nearestFrom (distance : PointerBarrierClient → Option D) : List PointerBarrierClient → ℕ → D → Option ℕ → Option ℕ
  | [], _, _, nearest => nearest
  | c::cs, i, minDistance, nearest =>
    match distance c with
    | some d => if d < minDistance then nearestFrom distance cs (i+1) d (some i)
        else nearestFrom distance cs (i+1) minDistance nearest
    | none => nearestFrom distance cs (i+1) minDistance nearest

/-- `barrier_find_nearest`, as an index. -/
def Walk.findNearest (ops : Floats F D) (master : ℕ) (w : Walk) : Option ℕ :=
  nearestFrom (PointerBarrierClient.distance ops master w.dir w.current.1 w.current.2 w.dest.1 w.dest.2) w.barriers 0
    ((2^31-1 : ℤ) : D) none

def Walk.meet (ev : BarrierEvent) (w : Walk) (i : ℕ) (c : PointerBarrierClient) (pbd : PointerBarrierDevice) :
    Walk :=
  let met := { pbd with seen := true, hit := true }
  if pbd.released then { w with barriers := w.barriers.set i (c.set met) }
  else
    let dest := c.barrier.clamp w.dir w.dest
    let (dir,current) :=
      if c.barrier.isVertical then (w.dir &&& ~~~(barrierNegativeX ||| barrierPositiveX),(dest.1,w.current.2))
      else if c.barrier.isHorizontal then (w.dir &&& ~~~(barrierNegativeY ||| barrierPositiveY),(w.current.1,dest.2))
      else (w.dir,w.current)
    let dt := if pbd.hit then (ev.time - pbd.lastTimestamp).setWidth 16 else 0
    { barriers := w.barriers.set i (c.set { met with lastTimestamp := ev.time })
      dir, current, dest
      events := w.events ++ [{ ev with
        type := .hit, released := false, eventId := pbd.barrierEventId, barrierid := c.id, dt, window := c.window }] }

def hitLoop (ops : Floats F D) (master : ℕ) (ev : BarrierEvent) : ℕ → Walk → Walk
  | 0, w => w
  | n+1, w =>
    if w.dir = 0 then w
    else match w.findNearest ops master with
      | none => w
      | some i => match w.barriers[i]? with
        | none => w
        | some c => match c.device master with
          | none => w
          | some pbd => hitLoop ops master ev n (w.meet ev i c pbd)

/-- A barrier that was hit is left if the pointer ends outside of its hit box. Then its next event id begins. -/
def PointerBarrierClient.leave (master : ℕ) (ev : BarrierEvent) (dest : ℤ × ℤ) (c : PointerBarrierClient) :
    PointerBarrierClient × Option BarrierEvent :=
  match c.device master with
  | none => (c,none)
  | some pbd =>
    if !pbd.hit || c.barrier.insideHitBox dest.1 dest.2 then (c.set { pbd with seen := false },none)
    else
      (c.set { pbd with
        seen := false, hit := false, lastTimestamp := ev.time, barrierEventId := pbd.barrierEventId + 1 },
      some { ev with
        type := .leave, released := pbd.released, eventId := pbd.barrierEventId, barrierid := c.id
        dt := (ev.time - pbd.lastTimestamp).setWidth 16, window := c.window })

/-- How the pointer starts on its way, and where the first loop brings it. -/
def walk (ops : Floats F D) (master : ℕ) (ev : BarrierEvent) (cs : List PointerBarrierClient) (current dest : ℤ × ℤ) : Walk :=
  hitLoop ops master ev cs.length ⟨cs,barrierGetDirection current.1 current.2 dest.1 dest.2,current,dest,[]⟩

def barrierEvent (ms : BitVec 32) (deviceid root : ℕ) (current dest : ℤ × ℤ) : BarrierEvent :=
  ⟨.hit,ms,deviceid,deviceid,dest.1 - current.1,dest.2 - current.2,root,0,0,0,0,0,0,false⟩

/-- `input_constrain_cursor`. A floating device has no master, and no barriers stop it. -/
def inputConstrainCursor (ops : Floats F D) (ms : BitVec 32) (deviceid root : ℕ) (master : Option ℕ)
    (cs : List PointerBarrierClient) (current dest : ℤ × ℤ) : List PointerBarrierClient × (ℤ × ℤ) × List BarrierEvent :=
  match master with
  | none => (cs,dest,[])
  | some master =>
    if cs.isEmpty then (cs,dest,[])
    else
      let ev := barrierEvent ms deviceid root current dest
      let w := walk ops master ev cs current dest
      let left := w.barriers.map (PointerBarrierClient.leave master ev w.dest)
      (left.map Prod.fst,w.dest,w.events ++ left.filterMap Prod.snd)

end Walk

end Xlibre.Xinput
