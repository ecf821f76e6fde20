import Xlibre.Lib.Submasks

/-! Colormaps: visuals, cells, channel maps, creating a map, freeing cells and pixels. -/
namespace Xlibre.Dix.Colormap

open Xlibre.Lib.Submasks

def allOnes : ℕ := 2^32-1

/-- Storing an `int` in a `short`. -/
def toShort (x : ℤ) : ℤ := x.bmod (2^16)

def allocPrivate : ℤ := -1
def allocTemporary : ℤ := -2

inductive VisualClass
  | staticGray | grayScale | staticColor | pseudoColor | trueColor | directColor
deriving DecidableEq

/-- `class & DynamicClass`. -/
def VisualClass.dynamic : VisualClass → Bool
  | grayScale | pseudoColor | directColor => true
  | staticGray | staticColor | trueColor => false

/-- `(class | DynamicClass) == DirectColor`. -/
def VisualClass.direct : VisualClass → Bool
  | trueColor | directColor => true
  | staticGray | grayScale | staticColor | pseudoColor => false

structure Visual where
  cls : VisualClass
  colormapEntries : ℕ
  nplanes : ℕ
  redMask : ℕ
  greenMask : ℕ
  blueMask : ℕ
  offsetRed : ℕ
  offsetGreen : ℕ
  offsetBlue : ℕ

/-- The `channel` argument of the routines below; `PSEUDOMAP` works on the red table. -/
inductive Channel
  | redMap | greenMap | blueMap | pseudoMap
deriving DecidableEq

namespace Visual

variable (v : Visual)

def mask : Channel → ℕ
  | .redMap => v.redMask
  | .greenMap => v.greenMask
  | .blueMap => v.blueMask
  | .pseudoMap => allOnes

def offset : Channel → ℕ
  | .redMap => v.offsetRed
  | .greenMap => v.offsetGreen
  | .blueMap => v.offsetBlue
  | .pseudoMap => 0

/-- `NUMRED`, `NUMGREEN`, `NUMBLUE`; all entries for the pseudo map. -/
def numEntries : Channel → ℕ
  | .pseudoMap => v.colormapEntries
  | ch => (v.mask ch >>> v.offset ch)+1

def alphaMask : ℕ :=
  if v.nplanes < 32 then 0 else allOnes ^^^ (v.redMask ||| v.greenMask ||| v.blueMask)

def rgbMask : ℕ := v.redMask ||| v.greenMask ||| v.blueMask ||| v.alphaMask

def channels : List Channel := if v.cls.direct then [.redMap,.greenMap,.blueMap] else [.pseudoMap]

end Visual

structure Rgb where
  red : ℕ
  green : ℕ
  blue : ℕ
deriving DecidableEq

/-- Three pointers to shared colours. -/
structure Shco where
  red : ℕ
  green : ℕ
  blue : ℕ
deriving DecidableEq

/-- A colour cell; `fShared` says whether the union holds `co.shco` or `co.local`. -/
structure Entry where
  co : Rgb
  shco : Shco
  refcnt : ℤ
  fShared : Bool
deriving DecidableEq

def emptyEntry : Entry := ⟨⟨0,0,0⟩,⟨0,0,0⟩,0,false⟩

structure SharedColor where
  color : ℕ
  refcnt : ℤ
deriving DecidableEq

/-- The shared colours in memory; addresses from `next` on were never handed out. -/
structure Heap where
  recs : ℕ → Option SharedColor
  next : ℕ

/-- `if (--p->refcnt == 0) free(p)`. -/
def Heap.release (h : Heap) (p : ℕ) : Heap :=
  match h.recs p with
  | none => h
  | some c =>
    let k := toShort (c.refcnt-1)
    { h with recs := Function.update h.recs p (if k = 0 then none else some { c with refcnt := k }) }

/-- One cell table with its free counter and, for each client, the pixels it holds there. -/
structure SubMap (n : ℕ) where
  cells : ℕ → Entry
  free : ℤ
  pixels : Fin n → List ℕ

/-- A colormap; `owner` is the client its id belongs to. -/
structure ColormapRec (n : ℕ) where
  visual : Visual
  owner : Fin n
  allAllocated : Bool
  beingCreated : Bool
  red : SubMap n
  green : SubMap n
  blue : SubMap n

variable {n : ℕ}

namespace SubMap

def setCell (s : SubMap n) (i : ℕ) (e : Entry) : SubMap n :=
  { s with cells := Function.update s.cells i e }

def setPixels (s : SubMap n) (client : Fin n) (l : List ℕ) : SubMap n :=
  { s with pixels := Function.update s.pixels client l }

/-- A table of `size` cells without clients, all free or all private to `client`. -/
def create (size : ℕ) (allocAll : Bool) (client : Fin n) : SubMap n :=
  if allocAll then
    ⟨fun i => if i < size then { emptyEntry with refcnt := allocPrivate } else emptyEntry,0,
      Function.update (fun _ => []) client (List.range size)⟩
  else ⟨fun _ => emptyEntry,size,fun _ => []⟩

end SubMap

def ColormapRec.sub (pmap : ColormapRec n) : Channel → SubMap n
  | .redMap | .pseudoMap => pmap.red
  | .greenMap => pmap.green
  | .blueMap => pmap.blue

def ColormapRec.setSub (pmap : ColormapRec n) (s : SubMap n) : Channel → ColormapRec n
  | .redMap | .pseudoMap => { pmap with red := s }
  | .greenMap => { pmap with green := s }
  | .blueMap => { pmap with blue := s }

/-- The map that `dixCreateColormap` builds when nothing fails. -/
def dixCreateColormap (v : Visual) (allocAll : Bool) (client : Fin n) : ColormapRec n :=
  let unused : SubMap n := ⟨fun _ => emptyEntry,0,fun _ => []⟩
  if v.cls.direct then
    ⟨v,client,allocAll && v.cls.dynamic,false,.create (v.numEntries .redMap) allocAll client,
      .create (v.numEntries .greenMap) allocAll client,.create (v.numEntries .blueMap) allocAll client⟩
  else
    ⟨v,client,allocAll && v.cls.dynamic,false,.create v.colormapEntries allocAll client,unused,unused⟩

def freeCell (h : Heap) (s : SubMap n) (i : ℕ) : Heap × SubMap n :=
  let pent := s.cells i
  if pent.refcnt > 1 then (h,s.setCell i { pent with refcnt := toShort (pent.refcnt-1) })
  else
    let h := if pent.fShared then ((h.release pent.shco.red).release pent.shco.green).release pent.shco.blue else h
    (h,{ s.setCell i { pent with refcnt := 0, fShared := false } with free := s.free+1 })

inductive Status
  | success
  | badAlloc
  | badAccess
  | badMatch
  | badColor
  | badValue (errorValue : ℕ)
deriving DecidableEq

/-- What `FreeCo` works on: the table, the client's pixel array and how many of it are zapped. -/
structure FreeCoState (n : ℕ) where
  heap : Heap
  sub : SubMap n
  pixClient : List ℕ
  zapped : ℕ
  errVal : Status

/-- The body of the pixel loop of `FreeCo`. -/
def freeCoPixel (v : Visual) (color : Channel) (bits : ℕ) (st : FreeCoState n) (p : ℕ) : FreeCoState n :=
  let rgbbad := if color = .pseudoMap then 0 else allOnes ^^^ v.rgbMask
  let pixTest := ((p ||| bits) &&& v.mask color) >>> v.offset color
  if pixTest ≥ v.numEntries color ∨ p &&& rgbbad ≠ 0 then { st with errVal := .badValue (p ||| bits) }
  else if pixTest ∈ st.pixClient then
    let r := if v.cls.dynamic then freeCell st.heap st.sub pixTest else (st.heap,st.sub)
    { st with heap := r.1, sub := r.2, pixClient := st.pixClient.replace pixTest allOnes, zapped := st.zapped+1 }
  else { st with errVal := .badAccess }

/-- `FreeCo`: free all combinations of the pixels and mask bits that the client has. -/
def freeCo (h : Heap) (pmap : ColormapRec n) (client : Fin n) (color : Channel) (pixIn : List ℕ)
    (mask : ℕ) : Status × Heap × ColormapRec n :=
  if pixIn = [] then (.success,h,pmap)
  else
    let pixClient := (pmap.sub color).pixels client
    let st := (submasks 32 mask).foldl
      (fun st bits => pixIn.foldl (freeCoPixel pmap.visual color bits) st)
      ⟨h,pmap.sub color,pixClient,0,.success⟩
    -- delete freed pixels from client pixel list
    let left := (st.pixClient.filter (· ≠ allOnes)).take (pixClient.length-st.zapped)
    let sub := if st.zapped ≠ 0 then st.sub.setPixels client left else st.sub
    (st.errVal,st.heap,pmap.setSub sub color)

def freeColors (h : Heap) (pmap : ColormapRec n) (client : Fin n) (pixels : List ℕ) (mask : ℕ) :
    Status × Heap × ColormapRec n :=
  if pmap.allAllocated then (.badAccess,h,pmap)
  else
    let v := pmap.visual
    let r :=
      if v.cls.direct then
        let red := freeCo h pmap client .redMap pixels (mask &&& v.redMask)
        let green := freeCo red.2.1 red.2.2 client .greenMap pixels (mask &&& v.greenMask)
        let blue := freeCo green.2.1 green.2.2 client .blueMap pixels (mask &&& v.blueMask)
        let result := if green.1 ≠ .success then green.1 else red.1
        (mask &&& v.rgbMask,if blue.1 ≠ .success then blue.1 else result,blue.2)
      else
        let rmask := mask &&& (2^v.nplanes-1)
        (rmask,freeCo h pmap client .pseudoMap pixels rmask)
    match pixels with
    | p::_ => if mask ≠ r.1 then (.badValue (p ||| mask),r.2.2) else r.2
    | [] => r.2

/-- The loop of `FreePixels` over one channel. -/
def freePixelsOf (dynamic : Bool) (client : Fin n) (h : Heap) (s : SubMap n) : Heap × SubMap n :=
  let r := if dynamic then (s.pixels client).foldl (fun r i => freeCell r.1 r.2 i) (h,s) else (h,s)
  (r.1,r.2.setPixels client [])

def freePixels (h : Heap) (pmap : ColormapRec n) (client : Fin n) : Heap × ColormapRec n :=
  let red := freePixelsOf pmap.visual.cls.dynamic client h pmap.red
  if pmap.visual.cls.direct then
    let green := freePixelsOf pmap.visual.cls.dynamic client red.1 pmap.green
    let blue := freePixelsOf pmap.visual.cls.dynamic client green.1 pmap.blue
    (blue.1,{ pmap with red := red.2, green := green.2, blue := blue.2 })
  else (red.1,{ pmap with red := red.2 })

/-- What the loop of `CopyFree` works on. -/
structure CopyState (n : ℕ) where
  heap : Heap
  src : SubMap n
  dst : SubMap n
  nalloc : ℕ

/-- The body of the loop of `CopyFree`. -/
def copyPixel (st : CopyState n) (i : ℕ) : CopyState n :=
  let pentSrc := st.src.cells i
  let pentDst := st.dst.cells i
  let st :=
    if pentDst.refcnt > 0 then
      { st with dst := st.dst.setCell i { pentDst with refcnt := toShort (pentDst.refcnt+1) } }
    else if pentSrc.refcnt > 0 then
      { st with dst := st.dst.setCell i { pentSrc with refcnt := 1 }, nalloc := st.nalloc+1 }
    else
      { st with
        src := st.src.setCell i { pentSrc with fShared := false }
        dst := st.dst.setCell i pentSrc
        nalloc := st.nalloc+1 }
  let r := freeCell st.heap st.src i
  { st with heap := r.1, src := r.2 }

/-- `CopyFree` on one channel: move the client's cells from one table to the other. -/
def copyFree (dynamic : Bool) (client : Fin n) (h : Heap) (src dst : SubMap n) : CopyState n :=
  let st := if dynamic then (src.pixels client).foldl copyPixel ⟨h,src,dst,0⟩ else ⟨h,src,dst,0⟩
  { st with
    dst := { st.dst.setPixels client (src.pixels client) with free := st.dst.free-st.nalloc }
    src := st.src.setPixels client [] }

/-- `CopyColormapAndFree` once the new map exists: the heap, the old map and the new one. -/
def copyColormapAndFree (h : Heap) (pSrc : ColormapRec n) (client : Fin n) :
    Heap × ColormapRec n × ColormapRec n :=
  let allocAll := pSrc.allAllocated && pSrc.owner = client
  let pmap := dixCreateColormap pSrc.visual allocAll client
  if allocAll then
    let size := pSrc.visual.colormapEntries
    let copy (src dst : SubMap n) : SubMap n :=
      { dst with cells := fun i => if i < size then src.cells i else dst.cells i }
    let pmap :=
      if pSrc.visual.cls.direct then
        { pmap with
          red := copy pSrc.red pmap.red
          green := copy pSrc.green pmap.green
          blue := copy pSrc.blue pmap.blue }
      else { pmap with red := copy pSrc.red pmap.red }
    let r := freePixels h { pSrc with allAllocated := false } client
    (r.1,r.2,pmap)
  else
    let dynamic := pSrc.visual.cls.dynamic
    let red := copyFree dynamic client h pSrc.red pmap.red
    if pSrc.visual.cls.direct then
      let green := copyFree dynamic client red.heap pSrc.green pmap.green
      let blue := copyFree dynamic client green.heap pSrc.blue pmap.blue
      (blue.heap,{ pSrc with red := red.src, green := green.src, blue := blue.src },
        { pmap with red := red.dst, green := green.dst, blue := blue.dst })
    else (red.heap,{ pSrc with red := red.src },{ pmap with red := red.dst })

end Xlibre.Dix.Colormap
