import Xlibre.Dix.Colormap.Cells

/-! Private cells: the search of `AllocCP`, its two callers, and shared colours. -/
namespace Xlibre.Dix.Colormap

open Xlibre.Lib.Submasks

/-- 32-bit arithmetic. -/
def wrap (x : ℕ) : ℕ := x % 2^32

/-- A cell of a table of `lim` cells; nothing is read outside of it. -/
def cellAt (lim : ℕ) (ent : ℕ → Entry) (i : ℕ) : Option Entry := if i < lim then some (ent i) else none

/-- Write `AllocPrivate` into a cell of a table of `lim` cells. -/
def takeCell (lim : ℕ) (ent : ℕ → Entry) (i : ℕ) : Option (ℕ → Entry) :=
  if i < lim then some (Function.update ent i { ent i with refcnt := allocPrivate, fShared := false })
  else none

/-- `while (ent->refcnt) ent++`. -/
def nextFree (lim : ℕ) (ent : ℕ → Entry) : ℕ → ℕ → Option ℕ
  | 0,_ => none
  | fuel+1,pixel => do
    let e ← cellAt lim ent pixel
    if e.refcnt ≠ 0 then nextFree lim ent fuel (pixel+1) else some pixel

/-- The easy case of `AllocCP`: `count` cells, wherever they are. -/
def allocPlain (lim : ℕ) : ℕ → ℕ → (ℕ → Entry) → Option (List ℕ × (ℕ → Entry))
  | 0,_,ent => some ([],ent)
  | count+1,pixel,ent => do
    let pixel ← nextFree lim ent (lim+1) pixel
    let ent ← takeCell lim ent pixel
    let r ← allocPlain lim count pixel ent
    some (pixel::r.1,r.2)

/-- `while (pixel != maxp && ent[pixel].refcnt == 0) pixel += base`, and whether it got to `maxp`. -/
def blockFree (lim : ℕ) (ent : ℕ → Entry) (base maxp : ℕ) : ℕ → ℕ → Option Bool
  | 0,_ => none
  | fuel+1,pixel =>
    if pixel = maxp then some true
    else do
      let e ← cellAt lim ent pixel
      if e.refcnt = 0 then blockFree lim ent base maxp fuel (wrap (pixel+base)) else some false

/-- The search for `count` free blocks of a mask of consecutive bits, from `pixel` on. -/
def contigSearch (lim : ℕ) (ent : ℕ → Entry) (mask base entries count : ℕ) :
    ℕ → ℕ → List ℕ → Option (Option (List ℕ))
  | 0,_,_ => none
  | fuel+1,pixel,found =>
    if pixel < entries then do
      let ok ← blockFree lim ent base (wrap (pixel+mask+base)) (lim+1) pixel
      let found := if ok then found ++ [pixel] else found
      if ok ∧ found.length = count then some (some found)
      else
        let next := wrap (pixel+1)
        contigSearch lim ent mask base entries count fuel
          (if next &&& mask ≠ 0 then wrap (next+mask) else next) found
    else some none

/-- Take the cells from `pixel` to `maxp`; all but the first go to the output. -/
def markBlock (lim : ℕ) (base maxp : ℕ) :
    ℕ → ℕ → (ℕ → Entry) → Option (List ℕ × (ℕ → Entry))
  | 0,_,_ => none
  | fuel+1,pixel,ent => do
    let ent ← takeCell lim ent pixel
    if pixel = maxp then some ([],ent)
    else do
      let r ← markBlock lim base maxp fuel (wrap (pixel+base)) ent
      some (wrap (pixel+base)::r.1,r.2)

def markBlocks (lim : ℕ) (mask base : ℕ) :
    List ℕ → (ℕ → Entry) → Option (List ℕ × (ℕ → Entry))
  | [],ent => some ([],ent)
  | p::ps,ent => do
    let r ← markBlock lim base (wrap (p+mask)) (lim+1) p ent
    let rs ← markBlocks lim mask base ps r.2
    some (r.1 ++ rs.1,rs.2)

/-- What `AllocCP` leaves behind when it returns `TRUE`. -/
structure CPResult where
  ent : ℕ → Entry
  pixels : List ℕ
  mask : ℕ

/-- The first loop of `AllocCP`, over `dplanes` positions of the mask. -/
def contigPlanes (lim entries count : ℕ) (ent : ℕ → Entry) : ℕ → ℕ → ℕ → Option (Option CPResult)
  | 0,_,_ => some none
  | dplanes+1,mask,base => do
    match ← contigSearch lim ent mask base (wrap (entries+2^32-mask)) count (lim+1) 0 [] with
    | some found =>
      let r ← markBlocks lim mask base found.reverse ent
      some (some ⟨r.2,found ++ r.1,mask⟩)
    | none => contigPlanes lim entries count ent dplanes (wrap (mask+mask)) (wrap (base+base))

def hakmem (mask : ℕ) : ℕ :=
  let pixel := (mask >>> 1) &&& 0o33333333333
  let pixel := mask-pixel-((pixel >>> 1) &&& 0o33333333333)
  ((pixel+(pixel >>> 3)) &&& 0o30707070707) % 0o77

/-- Are the cells at `pixel` plus each of these bits free? -/
def combosFree (lim : ℕ) (ent : ℕ → Entry) (pixel : ℕ) : List ℕ → Option Bool
  | [] => some true
  | bits::rest => do
    let e ← cellAt lim ent (wrap (pixel+bits))
    if e.refcnt = 0 then combosFree lim ent pixel rest else some false

/-- The search for `count` pixels with all combinations of the mask free. -/
def comboSearch (lim : ℕ) (ent : ℕ → Entry) (mask entries count : ℕ) :
    ℕ → ℕ → List ℕ → Option (Option (List ℕ))
  | 0,_,_ => none
  | fuel+1,pixel,found =>
    if pixel < entries then
      if pixel &&& mask ≠ 0 then comboSearch lim ent mask entries count fuel (pixel+1) found
      else do
        let ok ← combosFree lim ent pixel (submasks 32 mask)
        let found := if ok then found ++ [pixel] else found
        if ok ∧ found.length = count then some (some found)
        else comboSearch lim ent mask entries count fuel (pixel+1) found
    else some none

/-- Take the cells at `pixel` plus each of these bits. -/
def markCombos (lim : ℕ) (pixel : ℕ) : List ℕ → (ℕ → Entry) → Option (ℕ → Entry)
  | [],ent => some ent
  | bits::rest,ent => do
    let ent ← takeCell lim ent (wrap (pixel+bits))
    markCombos lim pixel rest ent

def markAllCombos (lim : ℕ) (mask : ℕ) :
    List ℕ → (ℕ → Entry) → Option (List ℕ × (ℕ → Entry))
  | [],ent => some ([],ent)
  | p::ps,ent => do
    let ent ← markCombos lim p (submasks 32 mask) ent
    let rs ← markAllCombos lim mask ps ent
    some ((submasks 32 mask).tail.map (fun bits => wrap (p+bits)) ++ rs.1,rs.2)

/-- The second loop of `AllocCP`, over all masks up to `finalmask`. -/
def comboPlanes (lim entries count planes : ℕ) (ent : ℕ → Entry) : ℕ → ℕ → Option (Option CPResult)
  | 0,_ => some none
  | fuel+1,mask =>
    if hakmem mask ≠ planes then comboPlanes lim entries count planes ent fuel (mask+1)
    else do
      let entries' := wrap (entries+2^32-mask)
      match ← comboSearch lim ent mask entries' count (entries'+1) 0 [] with
      | some found =>
        let r ← markAllCombos lim mask found.reverse ent
        some (some ⟨r.2,found ++ r.1,mask⟩)
      | none => comboPlanes lim entries count planes ent fuel (mask+1)

/-- The largest mask of `planes` bits that is not contiguous; no shift count may be negative. -/
def finalMask (dplanes planes : ℕ) : Option ℕ :=
  if planes < dplanes then
    some (wrap (((2^(planes-1)-1) <<< (dplanes-planes+1))+(1 <<< (dplanes-planes-1))))
  else none

/-- `AllocCP` on a table of `lim` cells: `none` when it would leave the table, `some none` for
`FALSE`. -/
def allocCP (lim : ℕ) (v : Visual) (ent : ℕ → Entry) (count planes : ℕ) (contig : Bool) :
    Option (Option CPResult) :=
  if planes = 0 then do
    let r ← allocPlain lim count 0 ent
    some (some ⟨r.2,r.1,0⟩)
  else if planes > v.nplanes then some none
  else do
    match ← contigPlanes lim v.colormapEntries count ent (v.nplanes-(planes-1)) (wrap (2^planes-1)) 1 with
    | some r => some (some r)
    | none =>
      if contig ∨ planes = 1 ∨ v.nplanes < 3 then some none
      else do
        let final ← finalMask v.nplanes planes
        let first := wrap (3*2^(planes-1)-1)
        comboPlanes lim v.colormapEntries count planes ent (final+1-first) first

structure Allocs where
  pcr : Bool
  temp : Bool
  red : Bool
  green : Bool
  blue : Bool
  shared : Bool
  addResource : Bool

variable {n : ℕ}

/-- `c << r` as an `int`. -/
def shiftInt (c r : ℕ) : ℤ := (c*2^r : ℤ).bmod (2^32)

/-- Give cells back after a failed allocation: `refcnt = 0`. -/
def clearCells (ent : ℕ → Entry) (pixels : List ℕ) : ℕ → Entry :=
  pixels.foldl (fun ent p => Function.update ent p { ent p with refcnt := 0 }) ent

/-- Enter new pixels of a client: list, free counter and cells. -/
def SubMap.take (s : SubMap n) (client : Fin n) (r : CPResult) (npix : ℤ) : SubMap n :=
  ⟨r.ent,s.free-npix,Function.update s.pixels client (s.pixels client ++ r.pixels)⟩

/-- The results of `AllocPseudo`; `pixFirst` are the client's new pixels. -/
structure PseudoReply (n : ℕ) where
  status : Status
  pmap : ColormapRec n
  pixels : List ℕ
  mask : ℕ
  pixFirst : List ℕ

def allocPseudo (al : Allocs) (client : Fin n) (pmap : ColormapRec n) (c r : ℕ) (contig : Bool) :
    Option (PseudoReply n) :=
  let npix := shiftInt c r
  if r ≥ 32 ∨ npix > pmap.red.free ∨ npix < c ∨ al.temp = false then some ⟨.badAlloc,pmap,[],0,[]⟩
  else do
    match ← allocCP pmap.visual.colormapEntries pmap.visual pmap.red.cells c r contig with
    | none => some ⟨.badAlloc,pmap,[],0,[]⟩
    | some cp =>
      if al.red = false then
        some ⟨.badAlloc,{ pmap with red := { pmap.red with cells := clearCells cp.ent cp.pixels } },[],0,[]⟩
      else
        some ⟨.success,{ pmap with red := pmap.red.take client cp npix },cp.pixels.take c,cp.mask,cp.pixels⟩

/-- The results of `AllocDirect`. -/
structure DirectReply (n : ℕ) where
  status : Status
  pmap : ColormapRec n
  pixels : List ℕ
  rmask : ℕ
  gmask : ℕ
  bmask : ℕ

/-- The table after a failed `AllocDirect`: what `AllocCP` took is given back. -/
def SubMap.undo (s : SubMap n) (r : Option CPResult) : SubMap n :=
  match r with
  | none => s
  | some cp => { s with cells := clearCells cp.ent cp.pixels }

def allocDirect (al : Allocs) (client : Fin n) (pmap : ColormapRec n) (c r g b : ℕ) (contig : Bool) :
    Option (DirectReply n) :=
  let npixR := shiftInt c r
  let npixG := shiftInt c g
  let npixB := shiftInt c b
  if r ≥ 32 ∨ g ≥ 32 ∨ b ≥ 32 ∨ npixR > pmap.red.free ∨ npixR < c ∨ npixG > pmap.green.free ∨ npixG < c ∨
      npixB > pmap.blue.free ∨ npixB < c ∨ al.temp = false then some ⟨.badAlloc,pmap,[],0,0,0⟩
  else do
    let v := pmap.visual
    let okR ← allocCP v.colormapEntries v pmap.red.cells c r contig
    let okG ← allocCP v.colormapEntries v pmap.green.cells c g contig
    let okB ← allocCP v.colormapEntries v pmap.blue.cells c b contig
    match okR,okG,okB with
    | some cr,some cg,some cb =>
      if al.red ∧ al.green ∧ al.blue then
        some
          { status := .success
            pmap :=
              { pmap with
                red := pmap.red.take client cr npixR
                green := pmap.green.take client cg npixG
                blue := pmap.blue.take client cb npixB }
            pixels := (List.range c).map fun i =>
              (cr.pixels.getD i 0 <<< v.offsetRed) ||| (cg.pixels.getD i 0 <<< v.offsetGreen) |||
                (cb.pixels.getD i 0 <<< v.offsetBlue) ||| v.alphaMask
            rmask := wrap (cr.mask <<< v.offsetRed)
            gmask := wrap (cg.mask <<< v.offsetGreen)
            bmask := wrap (cb.mask <<< v.offsetBlue) }
      else
        some ⟨.badAlloc,{ pmap with red := pmap.red.undo okR, green := pmap.green.undo okG, blue := pmap.blue.undo okB },
          [],0,0,0⟩
    | _,_,_ =>
      some ⟨.badAlloc,{ pmap with red := pmap.red.undo okR, green := pmap.green.undo okG, blue := pmap.blue.undo okB },
        [],0,0,0⟩

/-- `while (!(mask & shift)) shift += shift`. -/
def skipTo (mask : ℕ) : ℕ → ℕ → ℕ
  | 0,shift => shift
  | fuel+1,shift => if mask &&& shift ≠ 0 then shift else skipTo mask fuel (shift+shift)

/-- The next `n` bits of a mask from `shift` on, and where they end. -/
def nextBits (mask : ℕ) : ℕ → ℕ → List ℕ × ℕ
  | 0,shift => ([],shift)
  | n+1,shift =>
    let s := skipTo mask 32 shift
    let r := nextBits mask n (s+s)
    (s::r.1,r.2)

/-- What the loops of `AllocShared` work on; `used` records of the list are filled in. -/
structure ShareState where
  heap : Heap
  cells : ℕ → Entry
  used : ℕ

def shareRecord (start : ℕ) (set : Entry → ℕ → Entry) (others : ℕ) (pixFirst : List ℕ) (refcnt : ℤ)
    (key : ℕ) (st : ShareState) : ShareState :=
  let pshared := start+st.used
  { heap := { st.heap with
      recs := Function.update st.heap.recs pshared (some ⟨0,toShort refcnt⟩) }
    cells := pixFirst.foldl (fun cells cptr =>
      if andNot cptr others = key then Function.update cells cptr (set (cells cptr) pshared) else cells) st.cells
    used := st.used+1 }

/-- One colour of one base pixel in `AllocShared`: `others` are the two other masks. -/
def shareColour (start : ℕ) (set : Entry → ℕ → Entry) (mask others : ℕ) (pixFirst : List ℕ)
    (refcnt refcntNoMask : ℤ) (p : ℕ) (st : ShareState) : ShareState :=
  let common := andNot p others
  if mask ≠ 0 then
    (submasks 32 mask).foldl (fun st bits =>
      shareRecord start set others pixFirst refcnt (common ||| bits) st) st
  else shareRecord start set others pixFirst refcntNoMask common st

def setShcoRed (e : Entry) (p : ℕ) : Entry := { e with fShared := true, shco := { e.shco with red := p } }
def setShcoGreen (e : Entry) (p : ℕ) : Entry := { e with shco := { e.shco with green := p } }
def setShcoBlue (e : Entry) (p : ℕ) : Entry := { e with shco := { e.shco with blue := p } }

/-- The body of the pixel loop of `AllocShared`. -/
def sharePixel (start r g b : ℕ) (rmask gmask bmask : ℕ) (pixFirst : List ℕ) (st : ShareState)
    (p : ℕ) : ShareState :=
  let st := shareColour start setShcoRed rmask (gmask ||| bmask) pixFirst (2^(g+b)) (2^(g+b)) p st
  let st := shareColour start setShcoGreen gmask (rmask ||| bmask) pixFirst (2^(r+b)) (2^(g+b)) p st
  shareColour start setShcoBlue bmask (rmask ||| gmask) pixFirst (2^(r+g)) (2^(g+b)) p st

/-- `AllocShared`, with all its records allocated. -/
def allocShared (h : Heap) (cells : ℕ → Entry) (ppix : List ℕ) (c r g b : ℕ) (rmask gmask bmask : ℕ)
    (pixFirst : List ℕ) : Heap × (ℕ → Entry) :=
  let npixShared := c*2^r+c*2^g+c*2^b
  let h' : Heap :=
    ⟨fun a => if h.next ≤ a ∧ a < h.next+npixShared then some ⟨0,0⟩ else h.recs a,h.next+npixShared⟩
  let st := ppix.foldl (sharePixel h.next r g b rmask gmask bmask pixFirst) ⟨h',cells,0⟩
  (st.heap,st.cells)

/-- The results of a request for private cells; `entry` tells that a `CMAPENTRY` resource was added. -/
structure CellsReply (n : ℕ) where
  status : Status
  heap : Heap
  pmap : ColormapRec n
  pixels : List ℕ
  masks : List ℕ
  entry : Bool

def firstPixels (pmap : ColormapRec n) (client : Fin n) : Bool :=
  let oldcount := (pmap.red.pixels client).length +
    if pmap.visual.cls = .directColor then
      (pmap.green.pixels client).length+(pmap.blue.pixels client).length else 0
  oldcount = 0 && pmap.owner ≠ client

/-- The end of `AllocColorCells` and `AllocColorPlanes`; when `AddResource` fails, it calls
`FreeClientPixels`. -/
def addCmapEntry (al : Allocs) (client : Fin n) (pcr : Bool) (r : CellsReply n) : CellsReply n :=
  if r.status = .success ∧ pcr then
    if al.addResource then { r with entry := true }
    else
      let f := freePixels r.heap r.pmap client
      { r with status := .badAlloc, heap := f.1, pmap := f.2 }
  else r

def allocColorCells (al : Allocs) (client : Fin n) (h : Heap) (pmap : ColormapRec n) (colors planes : ℕ)
    (contig : Bool) : Option (CellsReply n) :=
  if pmap.visual.cls.dynamic = false then some ⟨.badAlloc,h,pmap,[],[],false⟩
  else if firstPixels pmap client ∧ al.pcr = false then some ⟨.badAlloc,h,pmap,[],[],false⟩
  else if pmap.visual.cls = .directColor then do
    let r ← allocDirect al client pmap colors planes planes planes contig
    let masks :=
      List.zipWith (fun r gb => r ||| gb) (nextBits r.rmask planes 1).1
        (List.zipWith (fun g b => g ||| b) (nextBits r.gmask planes 1).1 (nextBits r.bmask planes 1).1)
    some (addCmapEntry al client (firstPixels pmap client)
      ⟨r.status,h,r.pmap,r.pixels,if r.status = .success then masks else [],false⟩)
  else do
    let r ← allocPseudo al client pmap colors planes contig
    some (addCmapEntry al client (firstPixels pmap client)
      ⟨r.status,h,r.pmap,r.pixels,if r.status = .success then (nextBits r.mask planes 1).1 else [],false⟩)

/-- The or of some words. -/
def orAll (l : List ℕ) : ℕ := l.foldl (· ||| ·) 0

/-- The three masks that `AllocColorPlanes` cuts out of the mask it got. -/
def splitMask (mask : ℕ) (r g b : ℕ) : ℕ × ℕ × ℕ :=
  let red := nextBits mask r 1
  let green := nextBits mask g red.2
  let blue := nextBits mask b green.2
  (orAll red.1,orAll green.1,orAll blue.1)

/-- `AllocColorPlanes`; the masks of the reply are red, green and blue. -/
def allocColorPlanes (al : Allocs) (client : Fin n) (h : Heap) (pmap : ColormapRec n) (colors r g b : ℕ)
    (contig : Bool) : Option (CellsReply n) :=
  if pmap.visual.cls.dynamic = false then some ⟨.badAlloc,h,pmap,[],[],false⟩
  else if firstPixels pmap client ∧ al.pcr = false then some ⟨.badAlloc,h,pmap,[],[],false⟩
  else if pmap.visual.cls = .directColor then do
    let d ← allocDirect al client pmap colors r g b contig
    some (addCmapEntry al client (firstPixels pmap client)
      ⟨d.status,h,d.pmap,d.pixels,[d.rmask,d.gmask,d.bmask],false⟩)
  else do
    let d ← allocPseudo al client pmap colors (r+g+b) contig
    if d.status = .success then
      let m := splitMask d.mask r g b
      if al.shared then
        let s := allocShared h d.pmap.red.cells d.pixels colors r g b m.1 m.2.1 m.2.2 d.pixFirst
        some (addCmapEntry al client (firstPixels pmap client)
          ⟨.success,s.1,{ d.pmap with red := { d.pmap.red with cells := s.2 } },d.pixels,[m.1,m.2.1,m.2.2],false⟩)
      else
        let f := freeColors h d.pmap client d.pixels d.mask
        some ⟨.badAlloc,f.2.1,f.2.2,d.pixels,[],false⟩
    else some ⟨d.status,h,d.pmap,[],[],false⟩

end Xlibre.Dix.Colormap
