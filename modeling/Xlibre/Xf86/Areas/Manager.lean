import Mathlib
import Xlibre.Xf86.Linear.Manager
import Xlibre.Dix.Region.Box

/-! Rectangular areas of offscreen memory: `AllocateArea`, and how areas are freed, resized and purged. -/
namespace Xlibre.Xf86.Areas
open Xlibre.Dix.Region Linear

def Box.points (b : Box) : Set (ℤ × ℤ) := { p | b.x1 ≤ p.1 ∧ p.1 < b.x2 ∧ b.y1 ≤ p.2 ∧ p.2 < b.y2 }

structure RegionOps (R : Type) where
  rects : R → List Box
  ofBox : Box → R
  union : R → R → R
  subtract : R → R → R
  append : R → R → R
  validate : R → R

namespace RegionOps
variable {R : Type}

def points (ops : RegionOps R) (r : R) : Set (ℤ × ℤ) := { p | ∃ b ∈ ops.rects r, p ∈ Box.points b }

/-- The operations do to the points of regions what their names say. -/
structure Exact (ops : RegionOps R) : Prop where
  ofBox : ∀ b, ops.points (ops.ofBox b) = Box.points b
  union : ∀ r s, ops.points (ops.union r s) = ops.points r ∪ ops.points s
  subtract : ∀ r s, ops.points (ops.subtract r s) = ops.points r \ ops.points s
  append : ∀ r s, ops.points (ops.append r s) = ops.points r ∪ ops.points s
  validate : ∀ r, ops.points (ops.validate r) = ops.points r

end RegionOps

structure Callbacks where
  move : Option ℕ
  remove : Option ℕ
  devPrivate : ℕ
  deriving DecidableEq, Repr

structure FBArea where
  box : Box
  granularity : ℤ
  callbacks : Callbacks
  deriving DecidableEq, Repr

/-- A record of the list of areas in use. The id is the address. -/
structure FBLink where
  id : ℕ
  area : FBArea
  deriving DecidableEq, Repr

def FBLink.removable (link : FBLink) : Bool := link.area.callbacks.remove.isSome

structure FBManager (R : Type) where
  initialBoxes : R
  freeBoxes : R
  usedAreas : List FBLink
  numUsedAreas : ℤ
  next : ℕ

/-- What a box keeps of an `int`. -/
def short (x : ℤ) : ℤ := (x + 2^15) % 2^16 - 2^15

def leftIn (w h granularity : ℤ) (boxp : Box) : Except Fault (Option ℤ) := do
  let x ← firstOffset boxp.x1 granularity
  if boxp.y2 - boxp.y1 < h then return none
  else do
    let width ← int (boxp.x2 - x)
    return if width < w then none else some x

def searchBoxes (w h granularity : ℤ) : List Box → Except Fault (Option (ℤ × Box))
  | [] => .ok none
  | boxp::boxes => do
    match ← leftIn w h granularity boxp with
    | some x => return some (x,boxp)
    | none => searchBoxes w h granularity boxes

def leftOf (w h granularity : ℤ) (link : FBLink) : Except Fault (Option ℤ) :=
  if link.removable then leftIn w h granularity link.area.box else .ok none

/-- The loop through the areas in use, for a removable one. -/
def searchUsed (w h granularity : ℤ) : List FBLink → Except Fault (Option (List FBLink × FBLink × ℤ × List FBLink))
  | [] => .ok none
  | link::links => do
    match ← leftOf w h granularity link with
    | some x => return some ([],link,x,links)
    | none => return (← searchUsed w h granularity links).map fun found => (link::found.1,found.2)

/-- What is written into the record. -/
def newArea (w h granularity x : ℤ) (callbacks : Callbacks) (boxp : Box) : Except Fault FBArea := do
  let x2 ← int (x + w)
  let y2 ← int (boxp.y1 + h)
  return ⟨⟨short x,boxp.y1,short x2,short y2⟩,granularity,callbacks⟩

/-- The record with an address, and what is before and after it. -/
def findLink (id : ℕ) : List FBLink → Option (List FBLink × FBLink × List FBLink)
  | [] => none
  | link::links => if link.id = id then some ([],link,links)
      else (findLink id links).map fun found => (link::found.1,found.2)

/-- Takes removable areas out of the list and puts their boxes in the region. -/
def purgeLoop {R : Type} (ops : RegionOps R) : List FBLink → R → ℤ → R × List FBLink × ℤ
  | [], freeBoxes, num => (freeBoxes,[],num)
  | link::links, freeBoxes, num =>
    if link.removable then purgeLoop ops links (ops.append freeBoxes (ops.ofBox link.area.box)) (num - 1)
    else
      let (freeBoxes,links,num) := purgeLoop ops links freeBoxes num
      (freeBoxes,link::links,num)

namespace FBManager
variable {R : Type} (ops : RegionOps R)

/-- `xf86InitFBManagerRegion`. -/
def init (fullRegion : R) : FBManager R := ⟨fullRegion,fullRegion,[],0,0⟩

/-- A new record for a place in a free box. -/
def take (σ : FBManager R) (w h granularity : ℤ) (callbacks : Callbacks) (x : ℤ) (boxp : Box) :
    Except Fault (Option FBLink × FBManager R) := do
  let area ← newArea w h granularity x callbacks boxp
  let link : FBLink := ⟨σ.next,area⟩
  return (some link,{ σ with
    freeBoxes := ops.subtract σ.freeBoxes (ops.ofBox area.box)
    usedAreas := link::σ.usedAreas, numUsedAreas := σ.numUsedAreas + 1, next := σ.next + 1 })

/-- Boots a removable area out and takes its record. -/
def evict (σ : FBManager R) (w h granularity : ℤ) (callbacks : Callbacks) :
    List FBLink × FBLink × ℤ × List FBLink → Except Fault (Option FBLink × FBManager R)
  | (before,link,x,after) => do
    let area ← newArea w h granularity x callbacks link.area.box
    let freeBoxes := ops.union σ.freeBoxes (ops.ofBox link.area.box)
    return (some { link with area },{ σ with
      freeBoxes := ops.subtract freeBoxes (ops.ofBox area.box)
      usedAreas := before ++ { link with area }::after })

/-- `AllocateArea`. An area that is removable itself does not boot others out. -/
def allocateArea (σ : FBManager R) (w h granularity : ℤ) (callbacks : Callbacks) :
    Except Fault (Option FBLink × FBManager R) := do
  let granularity := if granularity ≤ 1 then 0 else granularity
  match ← searchBoxes w h granularity (ops.rects σ.freeBoxes) with
  | some (x,boxp) => σ.take ops w h granularity callbacks x boxp
  | none =>
    if callbacks.remove.isSome then return (none,σ)
    else match ← searchUsed w h granularity σ.usedAreas with
      | some found => σ.evict ops w h granularity callbacks found
      | none => return (none,σ)

/-- `localFreeOffscreenArea`. -/
def freeArea (σ : FBManager R) (id : ℕ) : FBManager R :=
  match findLink id σ.usedAreas with
  | none => σ
  | some (before,link,after) =>
    { σ with
      freeBoxes := ops.union σ.freeBoxes (ops.ofBox link.area.box)
      usedAreas := before ++ after, numUsedAreas := σ.numUsedAreas - 1 }

/-- A resize to a smaller size. -/
def shrink (σ : FBManager R) (w h : ℤ) : List FBLink × FBLink × List FBLink → Except Fault (Bool × FBManager R)
  | (before,link,after) => do
    let orig := link.area.box
    let x2 ← int (orig.x1 + w)
    let y2 ← int (orig.y1 + h)
    let box := { orig with x2 := short x2, y2 := short y2 }
    let usedAreas := before ++ { link with area := { link.area with box } }::after
    return (true,if box.y2 = orig.y2 ∧ box.x2 = orig.x2 then { σ with usedAreas }
      else { σ with
        usedAreas, freeBoxes := ops.union σ.freeBoxes (ops.subtract (ops.ofBox orig) (ops.ofBox box)) })

/-- The record of the new area is freed, and the old record takes its data. -/
def exchange (σ : FBManager R) (link new : FBLink) : FBManager R :=
  match findLink new.id σ.usedAreas with
  | none => σ
  | some (before,_,after) =>
    { σ with usedAreas := { link with area := new.area }::(before ++ after), numUsedAreas := σ.numUsedAreas - 1 }

/-- A resize to a size that is not smaller: the area is freed and a new one allocated. -/
def grow (σ : FBManager R) (w h : ℤ) : List FBLink × FBLink × List FBLink → Except Fault (Bool × FBManager R)
  | (before,link,after) => do
    let freedReg := ops.ofBox link.area.box
    let removed := { σ with freeBoxes := ops.union σ.freeBoxes freedReg, usedAreas := before ++ after }
    match ← removed.allocateArea ops w h link.area.granularity link.area.callbacks with
    | (some new,σ') => return (true,σ'.exchange link new)
    -- reinstate the old region
    | (none,σ') => return (false,{ σ' with
        freeBoxes := ops.subtract σ'.freeBoxes freedReg, usedAreas := link::σ'.usedAreas })

/-- `localResizeOffscreenArea`. -/
def resizeArea (σ : FBManager R) (id : ℕ) (w h : ℤ) : Except Fault (Bool × FBManager R) :=
  match findLink id σ.usedAreas with
  | none => .ok (false,σ)
  | some (before,link,after) =>
    if w ≤ link.area.box.x2 - link.area.box.x1 ∧ h ≤ link.area.box.y2 - link.area.box.y1 then
      σ.shrink ops w h (before,link,after)
    else σ.grow ops w h (before,link,after)

/-- `localPurgeUnlockedOffscreenAreas`. -/
def purgeAreas (σ : FBManager R) : FBManager R :=
  let (freeBoxes,usedAreas,numUsedAreas) := purgeLoop ops σ.usedAreas σ.freeBoxes σ.numUsedAreas
  { σ with
    freeBoxes := if σ.usedAreas.any FBLink.removable then ops.validate freeBoxes else freeBoxes
    usedAreas, numUsedAreas }

end FBManager

inductive Call
  | allocate (w h granularity : ℤ) (callbacks : Callbacks)
  | free (id : ℕ)
  | resize (id : ℕ) (w h : ℤ)
  | purge
  deriving DecidableEq, Repr

/-- The manager, and the size last requested for each record. -/
structure Session (R : Type) where
  manager : FBManager R
  requested : ℕ → ℤ × ℤ

namespace Session
variable {R : Type} (ops : RegionOps R)

def step (s : Session R) : Call → Except Fault (Session R)
  | .allocate w h granularity callbacks => do
    match ← s.manager.allocateArea ops w h granularity callbacks with
    | (some link,manager) => return ⟨manager,Function.update s.requested link.id (w,h)⟩
    | (none,manager) => return { s with manager }
  | .free id => .ok { s with manager := s.manager.freeArea ops id }
  | .resize id w h => do
    match ← s.manager.resizeArea ops id w h with
    | (true,manager) => return ⟨manager,Function.update s.requested id (w,h)⟩
    | (false,manager) => return { s with manager }
  | .purge => .ok { s with manager := s.manager.purgeAreas ops }

/-- The areas and the free boxes split the memory, are as large as requested and lie where their granularity allows. -/
structure Partitioned (s : Session R) : Prop where
  disjoint : s.manager.usedAreas.Pairwise fun a b => Disjoint (Box.points a.area.box) (Box.points b.area.box)
  apart : ∀ link ∈ s.manager.usedAreas, Disjoint (Box.points link.area.box) (ops.points s.manager.freeBoxes)
  covers : ops.points s.manager.freeBoxes ∪ { p | ∃ link ∈ s.manager.usedAreas, p ∈ Box.points link.area.box } =
    ops.points s.manager.initialBoxes
  counted : s.manager.numUsedAreas = s.manager.usedAreas.length
  sized : ∀ link ∈ s.manager.usedAreas, (s.requested link.id).1 ≤ link.area.box.x2 - link.area.box.x1 ∧
    (s.requested link.id).2 ≤ link.area.box.y2 - link.area.box.y1
  aligned : ∀ link ∈ s.manager.usedAreas, link.area.granularity = 0 ∨ link.area.granularity ∣ link.area.box.x1

end Session

def InInt (x : ℤ) : Prop := -2^31 ≤ x ∧ x < 2^31

def InShort (x : ℤ) : Prop := -2^15 ≤ x ∧ x < 2^15

/-- The area fits in the box. -/
def Room (w h granularity : ℤ) (b : Box) : Prop := h ≤ b.y2 - b.y1 ∧ w ≤ b.x2 - firstMultiple granularity b.x1

/-- What is computed for a box stays within `int`, and if the area fits in it, within the coordinates of a box. -/
structure InRange (w h granularity : ℤ) (b : Box) : Prop where
  rounded : InInt b.x1 ∧ (1 < granularity → InInt (b.x1 + granularity))
  width : h ≤ b.y2 - b.y1 → InInt (b.x2 - firstMultiple granularity b.x1)
  stored : Room w h granularity b →
    InShort (firstMultiple granularity b.x1) ∧ InShort (firstMultiple granularity b.x1 + w) ∧ InShort (b.y1 + h)

/-- The boxes that are looked at are in range: all up to the first with room. -/
def Safe (w h granularity : ℤ) (boxes : List Box) : Prop :=
  ∀ before b after, boxes = before ++ b::after → (∀ c ∈ before, ¬ Room w h granularity c) → InRange w h granularity b

namespace FBManager
variable {R : Type} (ops : RegionOps R)

/-- The boxes that `AllocateArea` looks at, in order. -/
def candidates (σ : FBManager R) (removable : Bool) : List Box :=
  ops.rects σ.freeBoxes ++ if removable then [] else (σ.usedAreas.filter FBLink.removable).map fun link => link.area.box

/-- The condition on a call. For a resize it is that the smaller box has coordinates of a box, or that the allocation that
is made is in range. -/
def Fits (σ : FBManager R) : Call → Prop
  | .allocate w h granularity callbacks => Safe w h granularity (σ.candidates ops callbacks.remove.isSome)
  | .resize id w h => ∀ before link after, findLink id σ.usedAreas = some (before,link,after) →
      if w ≤ link.area.box.x2 - link.area.box.x1 ∧ h ≤ link.area.box.y2 - link.area.box.y1 then
        InShort (link.area.box.x1 + w) ∧ InShort (link.area.box.y1 + h)
      else
        Safe w h link.area.granularity
          ({ σ with
            freeBoxes := ops.union σ.freeBoxes (ops.ofBox link.area.box), usedAreas := before ++ after }.candidates ops
            link.removable)
  | _ => True

end FBManager

/-- The states that calls lead to that meet a condition. -/
inductive Reaches {R : Type} (ops : RegionOps R) (fullRegion : R) (meets : FBManager R → Call → Prop) : Session R → Prop
  | init (requested : ℕ → ℤ × ℤ) : Reaches ops fullRegion meets ⟨.init fullRegion,requested⟩
  | step {s s' : Session R} (call : Call) (h : Reaches ops fullRegion meets s) (hmeets : meets s.manager call)
      (hstep : s.step ops call = .ok s') : Reaches ops fullRegion meets s'

end Xlibre.Xf86.Areas
