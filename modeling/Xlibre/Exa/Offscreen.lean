import Xlibre.Lib.Linked
import Xlibre.Lib.Tiling
import Mathlib.Data.BitVec

/-! EXA's offscreen memory: `exaOffscreenAlloc`, `exaOffscreenFree`, `ExaOffscreenMarkUsed`, `ExaOffscreenDefragment`. -/
namespace Xlibre.Exa
open Xlibre.Lib

inductive OffscreenState
  | avail
  | removable
  | locked
  deriving DecidableEq, Repr

/-- The fields that a list node does not have. `save` is whether the callback is `exaPixmapSave`. -/
structure ExaOffscreenArea where
  baseOffset : ℤ
  offset : ℤ
  size : ℤ
  lastUse : BitVec 32
  save : Bool
  state : OffscreenState
  evictionCost : BitVec 32
  align : ℤ
  deriving DecidableEq, Repr

inductive Fault
  | assertion
  | divisionByZero
  | signedOverflow
  | nullPointer
  | endlessLoop
  | notEnabled
  deriving DecidableEq, Repr

structure ExaDriver where
  memoryBase : ℤ
  offScreenBase : ℤ
  memorySize : ℤ
  supportsOffscreenOverlaps : Bool

/-- The areas by their addresses, with the pointers of the list and the address that the next allocation returns. -/
structure ExaScreen where
  area : ℕ → ExaOffscreenArea
  links : Links ℕ
  fresh : ℕ
  offScreenCounter : BitVec 32
  numOffscreenAvailable : ℤ

namespace ExaScreen

def areas (σ : ExaScreen) : List ℕ := σ.links.walk σ.fresh (some σ.links.head)

/-- An area's fields are changed. -/
def set (σ : ExaScreen) (i : ℕ) (a : ExaOffscreenArea) : ExaScreen := { σ with area := Function.update σ.area i a }

def avail (σ : ExaScreen) (i : ℕ) : Bool := (σ.area i).state = .avail

def locked (σ : ExaScreen) (i : ℕ) : Bool := (σ.area i).state = .locked

def baseOffset (σ : ExaScreen) (i : ℕ) : ℤ := (σ.area i).baseOffset

def size (σ : ExaScreen) (i : ℕ) : ℤ := (σ.area i).size

/-- Each area begins where the one before ends. -/
def abut (σ : ExaScreen) : List ℕ → Bool
  | a::b::l => σ.baseOffset a + σ.size a = σ.baseOffset b && σ.abut (b::l)
  | _ => true

/-- `ExaOffscreenValidate`. -/
def validate (info : ExaDriver) (σ : ExaScreen) : Except Fault Unit :=
  if σ.baseOffset σ.links.head = info.offScreenBase &&
      σ.areas.all (fun i => σ.baseOffset i ≤ (σ.area i).offset && (σ.area i).offset < σ.baseOffset i + σ.size i) &&
      σ.abut σ.areas && σ.areas.getLast?.all fun i => σ.baseOffset i + σ.size i = info.memorySize
  then .ok () else .error .assertion

def realSize (σ : ExaScreen) (size align : ℤ) (i : ℕ) : ℤ := size + (σ.baseOffset i + σ.size i - size).tmod align

/-- `exaUpdateEvictionCost`. -/
def updateEvictionCost (area : ExaOffscreenArea) (offScreenCounter : BitVec 32) : Except Fault ExaOffscreenArea :=
  if area.state = .avail then .ok area
  else
    let age := offScreenCounter - area.lastUse
    let long := 0x7fffffff#32
    let (age,area) := if age > long then (long,{ area with lastUse := offScreenCounter - long }) else (age,area)
    if age = 0 then .error .divisionByZero
    else .ok { area with evictionCost := BitVec.ofInt 32 area.size / age }

/-- `exaFindAreaToEvict` from where more areas are looked at until there is room: the areas left, how much there is and
what it costs, and whether there is a locked area in the way. -/
def gather (real : ℤ) : List ℕ → ℤ → BitVec 32 → ExaScreen → Except Fault (List ℕ × ℤ × BitVec 32 × Bool × ExaScreen)
  | [], avail, cost, σ => .ok ([],avail,cost,false,σ)
  | i::rest, avail, cost, σ =>
    if avail < real then
      if σ.locked i then .ok (i::rest,avail,cost,true,σ)
      else do
        let area ← updateEvictionCost (σ.area i) σ.offScreenCounter
        gather real rest (avail + σ.size i) (cost + area.evictionCost) (σ.set i area)
    else .ok (i::rest,avail,cost,false,σ)

/-- The loop of `exaFindAreaToEvict`: areas from `begin` on up to those from `end` on. -/
def findLoop (size align : ℤ) :
    ℕ → List ℕ → List ℕ → ℤ → BitVec 32 → Option ℕ → BitVec 32 → ExaScreen → Except Fault (Option ℕ × ExaScreen)
  | 0, _, _, _, _, _, _, _ => .error .endlessLoop
  | _+1, _, [], _, _, best, _, σ => .ok (best,σ)
  | _+1, [], _::_, _, _, best, _, σ => .ok (best,σ)
  | n+1, b::begins, e::ends, avail, cost, best, bestCost, σ =>
    if σ.locked b then findLoop size align n begins begins avail cost best bestCost σ
    else do
      let real := σ.realSize size align b
      let (ends,avail,cost,restart,σ) ← gather real (e::ends) avail cost σ
      if restart then findLoop size align n ends ends 0 0 best bestCost σ
      else
        let better := real ≤ avail && cost < bestCost
        findLoop size align n begins ends (avail - σ.size b) (cost - (σ.area b).evictionCost)
          (if better then some b else best) (if better then cost else bestCost) σ

/-- `exaFindAreaToEvict`. -/
def findAreaToEvict (σ : ExaScreen) (size align : ℤ) : Except Fault (Option ℕ × ExaScreen) :=
  findLoop size align (σ.areas.length + 1) σ.areas σ.areas 0 0 none (BitVec.allOnes 32) σ

/-- `ExaOffscreenMerge` with the next area. -/
def mergeWith (σ : ExaScreen) (i next : ℕ) : ExaScreen :=
  { σ.set i { σ.area i with size := σ.size i + σ.size next } with
    links := σ.links.removeNext i
    numOffscreenAvailable := σ.numOffscreenAvailable - 1 }

/-- `ExaOffscreenMerge`. -/
def merge (σ : ExaScreen) (i : ℕ) : Except Fault ExaScreen :=
  match σ.links.next i with
  | none => .error .nullPointer
  | some next => .ok (σ.mergeWith i next)

/-- `exaOffscreenFree` where an area is linked with the next one, if that is available. -/
def linkNext (σ : ExaScreen) (i : ℕ) : Except Fault ExaScreen :=
  match σ.links.next i with
  | none => .ok σ
  | some next => if σ.avail next then σ.merge i else .ok σ

/-- `exaOffscreenFree` where an area is linked with the previous one, if that is available. -/
def linkPrev (σ : ExaScreen) (i : ℕ) : Option ℕ → Except Fault (ℕ × ExaScreen)
  | none => .ok (i,σ)
  | some prev => if σ.avail prev then do return (prev,← σ.merge prev) else .ok (i,σ)

/-- `exaOffscreenFree` from where the area has been marked. -/
def link (σ : ExaScreen) (i : ℕ) : Except Fault (ℕ × ExaScreen) := do
  let prev := if i = σ.links.head then none else some (σ.links.prev i)
  let σ ← σ.linkNext i
  σ.linkPrev i prev

/-- `exaOffscreenFree` where the area is marked as available. -/
def release (σ : ExaScreen) (i : ℕ) : ExaScreen :=
  { σ.set i { σ.area i with state := .avail, save := false, lastUse := 0, evictionCost := 0 } with
    numOffscreenAvailable := σ.numOffscreenAvailable + 1 }

/-- `exaOffscreenFree`. -/
def free (info : ExaDriver) (σ : ExaScreen) (i : ℕ) : Except Fault (ℕ × ExaScreen) := do
  σ.validate info
  let joined ← (σ.release i).link i
  joined.2.validate info
  return joined

def evict (info : ExaDriver) (i : ℕ) (real : ℤ) : ℕ → ExaScreen → Except Fault ExaScreen
  | 0, _ => .error .endlessLoop
  | n+1, σ =>
    if σ.size i < real then
      match σ.links.next i with
      | none => .error .assertion
      | some next =>
        if (σ.area next).state = .removable then do
          let (_,σ) ← σ.free info next
          evict info i real n σ
        else .error .assertion
    else .ok σ

/-- `exaOffscreenAlloc` where the first area is kicked out, if it is in use. -/
def kickOut (info : ExaDriver) (σ : ExaScreen) (i : ℕ) : Except Fault (ℕ × ExaScreen) :=
  if σ.avail i then .ok (i,σ) else σ.free info i

/-- `exaOffscreenAlloc` where the areas to be evicted are merged. -/
def makeRoom (info : ExaDriver) (σ : ExaScreen) (i : ℕ) (real : ℤ) : Except Fault (ℕ × ExaScreen) := do
  let freed ← σ.kickOut info i
  let σ ← evict info freed.1 real (freed.2.fresh + 1) freed.2
  return (freed.1,σ)

/-- `exaOffscreenAlloc` where the space before the allocation becomes an area of its own. -/
def cut (σ : ExaScreen) (i : ℕ) (real : ℤ) : ExaScreen :=
  let area := σ.area i
  if real < area.size then
    let new := σ.fresh
    let rest := ⟨area.baseOffset,area.baseOffset,area.size - real,0,false,.avail,0,0⟩
    { (σ.set new rest).set i { area with baseOffset := area.baseOffset + (area.size - real), size := real } with
      links := σ.links.insertBefore new i
      fresh := new + 1 }
  else { σ with numOffscreenAvailable := σ.numOffscreenAvailable - 1 }

/-- `exaOffscreenAlloc` where the area is marked as in use. -/
def occupy (σ : ExaScreen) (i : ℕ) (align : ℤ) (isLocked save : Bool) : ExaScreen :=
  let area := σ.area i
  let offset := area.baseOffset + align - 1
  let offset := offset - offset.tmod align
  let state := if isLocked then .locked else .removable
  { σ.set i { area with state, save, lastUse := σ.offScreenCounter, offset, align } with
    offScreenCounter := σ.offScreenCounter + 1 }

/-- `exaOffscreenAlloc` from where an area that is large enough has been found. `calloc` returns a record or not. -/
def place (info : ExaDriver) (σ : ExaScreen) (i : ℕ) (real align : ℤ) (isLocked save calloc : Bool) :
    Except Fault (Option ℕ × ExaScreen) :=
  if real < σ.size i && !calloc then .ok (none,σ)
  else
    let σ := σ.cut i real
    if 2^31 ≤ σ.baseOffset i + align then .error .signedOverflow
    else do
      let σ := σ.occupy i align isLocked save
      σ.validate info
      return (some i,σ)

def fits (σ : ExaScreen) (size align : ℤ) (i : ℕ) : Bool := σ.avail i && σ.realSize size align i ≤ σ.size i

/-- `exaOffscreenAlloc` from where requests that cannot fit have been thrown out. -/
def search (info : ExaDriver) (σ : ExaScreen) (size align : ℤ) (isLocked save calloc : Bool) :
    Except Fault (Option ℕ × ExaScreen) :=
  match σ.areas.find? (σ.fits size align) with
  | some i => σ.place info i (σ.realSize size align i) align isLocked save calloc
  | none => do
    let (found,σ) ← σ.findAreaToEvict size align
    match found with
    | none =>
      σ.validate info
      return (none,σ)
    | some i =>
      let real := σ.realSize size align i
      let room ← σ.makeRoom info i real
      room.2.place info room.1 real align isLocked save calloc

/-- `exaOffscreenAlloc`. The size is compared as an `unsigned long`. -/
def alloc (info : ExaDriver) (σ : ExaScreen) (size align : ℤ) (isLocked save calloc : Bool) :
    Except Fault (Option ℕ × ExaScreen) := do
  σ.validate info
  let align := if align = 0 then 1 else align
  if size ≤ 0 || info.memorySize - info.offScreenBase < size then return (none,σ)
  else σ.search info size align isLocked save calloc

/-- `ExaOffscreenMarkUsed` for a pixmap with an area. -/
def markUsed (σ : ExaScreen) (i : ℕ) : ExaScreen :=
  { σ.set i { σ.area i with lastUse := σ.offScreenCounter } with offScreenCounter := σ.offScreenCounter + 1 }

/-- Where the area after one begins, or where the memory ends. -/
def nextBase (info : ExaDriver) (σ : ExaScreen) (i : ℕ) : ℤ :=
  match σ.links.next i with
  | some next => σ.baseOffset next
  | none => info.memorySize

/-- `ExaOffscreenDefragment` where an area and the one before it, `p`, change places: `p` goes from `offset` to `last`. -/
def swap (σ : ExaScreen) (i p : ℕ) (offset last : ℤ) : ExaScreen :=
  let base := σ.baseOffset p
  let area := { σ.area i with baseOffset := base, offset := base, size := offset - base }
  let prev := { σ.area p with baseOffset := offset, offset, size := last - offset }
  { (σ.set i area).set p prev with links := σ.links.swapPrev i }

/-- The loop of `ExaOffscreenDefragment`, and the largest area and its size. An area's pixmap is at the area's offset. -/
def defragmentLoop (info : ExaDriver) (prepareCopy : ℕ → Bool) :
    ℕ → ℕ → Option ℕ → ℤ → ExaScreen → Except Fault (Option ℕ × ExaScreen)
  | 0, _, _, _, _ => .error .endlessLoop
  | n+1, i, largest, largestSize, σ =>
    if i = σ.links.head then
      .ok (if σ.avail i && largestSize < σ.size i then some i else largest,σ)
    else
      let area := σ.area i
      let p := σ.links.prev i
      let prev := σ.area p
      if area.state ≠ .avail || prev.state = .locked || (prev.state = .removable && !prev.save) then
        defragmentLoop info prepareCopy n p largest largestSize σ
      else if prev.state = .avail then do
        let isLargest := largest = some i
        let σ ← σ.merge p
        defragmentLoop info prepareCopy n p (if isLargest then some p else largest)
          (if isLargest then largestSize + prev.size else largestSize) σ
      else
        let isLarger := largestSize < area.size
        let largest := if isLarger then some i else largest
        let largestSize := if isLarger then area.size else largestSize
        if prev.align = 0 then .error .divisionByZero
        else
          let src := info.memoryBase + prev.offset
          let dst := info.memoryBase + area.baseOffset + area.size - prev.size + prev.baseOffset - prev.offset
          let dst := dst - dst % prev.align
          if dst ≤ src || (!info.supportsOffscreenOverlaps && dst < src + prev.size) || !prepareCopy p then
            defragmentLoop info prepareCopy n p largest largestSize σ
          else
            let offset := prev.offset + (dst - src)
            -- the offset is compared as an `unsigned long`
            if offset < info.offScreenBase || info.memorySize ≤ offset then .error .assertion
            else
              defragmentLoop info prepareCopy n i largest largestSize (σ.swap i p offset (σ.nextBase info i))

/-- `ExaOffscreenDefragment`. There may be no memory for the pixmap. -/
def defragment (info : ExaDriver) (σ : ExaScreen) (createPixmap : Bool) (prepareCopy : ℕ → Bool) :
    Except Fault (Option ℕ × ExaScreen) :=
  if createPixmap then defragmentLoop info prepareCopy (σ.fresh + 1) (σ.links.prev σ.links.head) none 0 σ
  else .ok (none,σ)

/-- One available area takes all the memory. -/
def whole (info : ExaDriver) : ExaScreen :=
  ⟨fun _ => ⟨info.offScreenBase,info.offScreenBase,info.memorySize - info.offScreenBase,0,false,.avail,0,0⟩,
    ⟨0,fun _ => none,fun _ => 0⟩,1,1,1⟩

/-- `exaOffscreenInit`. Offsets and sizes are stored as `int`s. -/
def init (info : ExaDriver) : Except Fault ExaScreen :=
  if info.memorySize < 2^31 then do
    validate info (whole info)
    return whole info
  else .error .signedOverflow

end ExaScreen

inductive Call
  | alloc (size align : ℤ) (isLocked save calloc : Bool)
  | free (i : ℕ)
  | markUsed (i : ℕ)
  | defragment (createPixmap : Bool) (prepareCopy : ℕ → Bool)

namespace ExaScreen

/-- Areas are freed and marked that are in use. -/
def Enabled (σ : ExaScreen) : Call → Prop
  | .free i => i ∈ σ.areas ∧ σ.avail i = false
  | .markUsed i => i ∈ σ.areas ∧ σ.avail i = false
  | _ => True

def step (info : ExaDriver) (σ : ExaScreen) : Call → Except Fault ExaScreen
  | .alloc size align isLocked save calloc => do return (← σ.alloc info size align isLocked save calloc).2
  | .free i => do return (← σ.free info i).2
  | .markUsed i => .ok (σ.markUsed i)
  | .defragment createPixmap prepareCopy => do return (← σ.defragment info createPixmap prepareCopy).2

structure Partitioned (info : ExaDriver) (σ : ExaScreen) : Prop where
  linked : σ.links.Lists σ.areas
  tiles : Tiling.Tiles σ.baseOffset σ.size info.offScreenBase σ.areas info.memorySize
  apart : Tiling.Apart σ.avail σ.areas
  counted : σ.numOffscreenAvailable = (σ.areas.filter σ.avail).length

def KeepsLocked (σ σ' : ExaScreen) : Prop := ∀ i ∈ σ.areas, σ.locked i → i ∈ σ'.areas ∧ σ'.area i = σ.area i

/-- How large an area becomes when those after it are evicted until there is enough room. -/
def reach (σ : ExaScreen) (real : ℤ) : ℤ → List ℕ → ℤ
  | size, [] => size
  | size, i::rest => if σ.avail i || size < real then σ.reach real (size + σ.size i) rest else size

def before (σ : ExaScreen) (i : ℕ) (pre : List ℕ) : ℤ :=
  if σ.avail i then 0 else ((pre.getLast?.filter σ.avail).map σ.size).getD 0

inductive CutFrom (σ : ExaScreen) (size align : ℤ) : ℤ → ℤ → ℤ → Prop
  | free (i : ℕ) (h : σ.areas.find? (σ.fits size align) = some i) :
      CutFrom σ size align (σ.realSize size align i) (σ.size i) (σ.baseOffset i + σ.size i)
  | evicted (pre post : List ℕ) (i : ℕ) (total : ℤ) {σ' : ExaScreen} (h : σ.areas.find? (σ.fits size align) = none)
      (hfind : σ.findAreaToEvict size align = .ok (some i,σ')) (heq : σ.areas = pre ++ i::post)
      (htotal : total = σ.reach (σ.realSize size align i) (σ.before i pre + σ.size i) post) :
      CutFrom σ size align (σ.realSize size align i) total (σ.baseOffset i - σ.before i pre + total)

/-- If the memory has to be searched for areas to evict, none was used as many calls ago as there are counter values; and
the place for the allocation, rounded up to the alignment, is still in the area. -/
def Fits (info : ExaDriver) (σ : ExaScreen) : Call → Prop
  | .alloc size align _ _ calloc => 0 < size → size ≤ info.memorySize - info.offScreenBase →
      let align := if align = 0 then 1 else align
      (σ.areas.find? (σ.fits size align) = none →
        ∀ i ∈ σ.areas, (σ.area i).state = .removable → (σ.area i).lastUse ≠ σ.offScreenCounter) ∧
      ∀ real total last, σ.CutFrom size align real total last → (calloc ∨ real = total) →
        0 < align ∧ (real - last) % align < real ∧ last - real + align < 2^31
  | _ => True

/-- The states that calls lead to that meet a condition. -/
inductive Reaches (info : ExaDriver) (meets : ExaScreen → Call → Prop) : ExaScreen → Prop
  | init {σ : ExaScreen} (h : init info = .ok σ) : Reaches info meets σ
  | step {σ σ' : ExaScreen} (call : Call) (h : Reaches info meets σ) (henabled : σ.Enabled call) (hmeets : meets σ call)
      (hstep : σ.step info call = .ok σ') : Reaches info meets σ'

end ExaScreen

end Xlibre.Exa
