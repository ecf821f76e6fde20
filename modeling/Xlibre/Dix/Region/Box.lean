import Xlibre.Lib.Bands

/-! Boxes, rectangle arrays and regions: allocation, appending to an array in place, and the
coalescing of its last two bands. -/
namespace Xlibre.Dix.Region
open Xlibre.Lib.Bands

structure Box where
  x1 : ℤ
  y1 : ℤ
  x2 : ℤ
  y2 : ℤ
  deriving DecidableEq, Repr

def emptyBox : Box := ⟨0,0,0,0⟩

/-- An allocated rectangle array: all boxes of the allocation, of which `numRects` are in use. -/
structure RegData where
  boxes : List Box
  numRects : ℕ
  deriving DecidableEq, Repr

inductive DataPtr
  | null
  | emptyData
  | brokenData
  | heap (d : RegData)
  deriving DecidableEq, Repr

structure RegionRec where
  extents : Box
  data : DataPtr
  deriving DecidableEq, Repr

namespace RegData

def size (d : RegData) : ℕ := d.boxes.length

/-- The boxes in use. -/
def rects (d : RegData) : List Box := d.boxes.take d.numRects

/-- Reading an entry; entries beyond the allocation are never read. -/
def box (d : RegData) (i : ℕ) : Box := d.boxes.getD i emptyBox

/-- `RegionRectAlloc` for an array that exists or is one of the empty ones. -/
def realloc (d : RegData) (n : ℕ) : RegData :=
  if d.size = 0 then ⟨List.replicate n emptyBox,0⟩ else
  let n := if n = 1 then (if d.numRects > 500 then 250 else d.numRects) else n
  let n := n + d.numRects
  ⟨d.boxes.take n ++ List.replicate (n-d.size) emptyBox,d.numRects⟩

/-- Make room for `n` more boxes. -/
def rectAlloc (d : RegData) (n : ℕ) : RegData :=
  if d.numRects + n > d.size then d.realloc n else d

/-- Store one box at the top. -/
def addRect (d : RegData) (b : Box) : RegData := ⟨d.boxes.set d.numRects b,d.numRects+1⟩

/-- Make room for one box and store it. -/
def newRect (d : RegData) (b : Box) : RegData := (d.rectAlloc 1).addRect b

def setLast (d : RegData) (b : Box) : RegData := { d with boxes := d.boxes.set (d.numRects-1) b }

/-- Give up the unused half of a large array. -/
def downsize (d : RegData) : RegData :=
  if d.numRects < d.size/2 ∧ d.size > 50 then { d with boxes := d.boxes.take d.numRects } else d

/-- The comparison loop of `RegionCoalesce`, over `n` boxes of both bands. -/
def sameSpans (boxes : List Box) : ℕ → ℕ → ℕ → Bool
  | _,_,0 => true
  | prev,cur,n+1 =>
    let p := boxes.getD prev emptyBox
    let c := boxes.getD cur emptyBox
    if p.x1 ≠ c.x1 ∨ p.x2 ≠ c.x2 then false else sameSpans boxes (prev+1) (cur+1) n

/-- The second loop of `RegionCoalesce`, which goes back over the previous band. -/
def setBottoms (y2 : ℤ) (prevStart : ℕ) : ℕ → List Box → List Box
  | 0,boxes => boxes
  | n+1,boxes =>
    setBottoms y2 prevStart n (boxes.modify (prevStart+n) (fun b => { b with y2 := y2 }))

def regionCoalesce (d : RegData) (prevStart curStart : ℕ) : RegData × ℕ :=
  let numRects := curStart-prevStart
  if numRects = 0 then (d,curStart) else
  if (d.box prevStart).y2 ≠ (d.box curStart).y1 then (d,curStart) else
  if sameSpans d.boxes prevStart curStart numRects then
    (⟨setBottoms (d.box curStart).y2 prevStart numRects d.boxes,d.numRects-numRects⟩,prevStart)
  else (d,curStart)

/-- Bands of different sizes are not compared at all. -/
def coalesce (d : RegData) (prevBand curBand : ℕ) : RegData × ℕ :=
  if curBand-prevBand = d.numRects-curBand then d.regionCoalesce prevBand curBand else (d,curBand)

/-- `RegionAppendNonO`: the boxes of a band, cut to the rows from `y1` to `y2`. -/
def appendNonO (d : RegData) (r : List Box) (y1 y2 : ℤ) : RegData :=
  r.foldl (fun d b => d.addRect ⟨b.x1,y1,b.x2,y2⟩) (d.rectAlloc r.length)

/-- `AppendRegions`: a block of boxes as they are. -/
def appendRegions (d : RegData) (r : List Box) : RegData :=
  if r = [] then d else r.foldl RegData.addRect (d.rectAlloc r.length)

end RegData

namespace RegionRec

def rects (reg : RegionRec) : List Box :=
  match reg.data with
  | .null => [reg.extents]
  | .emptyData | .brokenData => []
  | .heap d => d.rects

/-- The array of a region that has one. -/
def regData (reg : RegionRec) : RegData :=
  match reg.data with
  | .heap d => d
  | _ => ⟨[],0⟩

def regionRectAlloc (reg : RegionRec) (n : ℕ) : RegionRec :=
  match reg.data with
  | .null => { reg with data := .heap ⟨reg.extents::List.replicate n emptyBox,1⟩ }
  | _ => { reg with data := .heap (reg.regData.realloc n) }

/-- The tests between consecutive boxes of `RegionIsValid`, with the hull they accumulate. -/
def validFrom (prev : Box) : List Box → Box → Option Box
  | [],hull => some hull
  | next::rest,hull =>
    if next.x1 ≥ next.x2 ∨ next.y1 ≥ next.y2 then none else
    let hull := { hull with
      x1 := if next.x1 < hull.x1 then next.x1 else hull.x1
      x2 := if next.x2 > hull.x2 then next.x2 else hull.x2 }
    if next.y1 < prev.y1 ∨ (next.y1 = prev.y1 ∧ (next.x1 < prev.x2 ∨ next.y2 ≠ prev.y2)) then none
    else validFrom next rest hull

def regionIsValid (reg : RegionRec) : Bool :=
  if reg.extents.x1 > reg.extents.x2 ∨ reg.extents.y1 > reg.extents.y2 then false else
  match reg.rects with
  | [] => reg.extents.x1 = reg.extents.x2 ∧ reg.extents.y1 = reg.extents.y2 ∧
      (reg.regData.size ≠ 0 ∨ reg.data = .emptyData)
  | [_] => reg.data = .null
  | first::rest =>
    match validFrom first rest { first with y2 := ((first::rest).getLast (by simp)).y2 } with
    | none => false
    | some hull => hull = reg.extents

end RegionRec
end Xlibre.Dix.Region
