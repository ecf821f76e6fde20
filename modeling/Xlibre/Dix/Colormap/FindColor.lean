import Xlibre.Dix.Colormap.AllocCells

/-! Read-only colours: `FindColor`, `AllocColor` and the temporary cells of `FakeAllocColor`. -/
namespace Xlibre.Dix.Colormap

variable {n : ℕ}

/-- `AllComp`, `RedComp`, `GreenComp` and `BlueComp`, by the channel they are passed for. -/
def compare : Channel → Entry → Rgb → Bool
  | .pseudoMap,pent,rgb => pent.co.red = rgb.red && pent.co.green = rgb.green && pent.co.blue = rgb.blue
  | .redMap,pent,rgb => pent.co.red = rgb.red
  | .greenMap,pent,rgb => pent.co.green = rgb.green
  | .blueMap,pent,rgb => pent.co.blue = rgb.blue

def storeColor : Channel → Rgb → Rgb → Rgb
  | .pseudoMap,_,rgb => rgb
  | .redMap,co,rgb => { co with red := rgb.red }
  | .greenMap,co,rgb => { co with green := rgb.green }
  | .blueMap,co,rgb => { co with blue := rgb.blue }

/-- What the search of `FindColor` ends with: a match, the first free cell, or neither. -/
inductive Found
  | hit (pixel : ℕ)
  | empty (pixel : ℕ)
  | nothing

/-- The search loop of `FindColor`. -/
def findLoop (cells : ℕ → Entry) (size : ℕ) (isMatch : Entry → Bool) (beingCreated : Bool) :
    ℕ → ℕ → Option ℕ → Found
  | 0,_,some f => .empty f
  | 0,_,none => .nothing
  | count+1,pixel,free =>
    let pent := cells pixel
    let next := if pixel+1 ≥ size then 0 else pixel+1
    if pent.refcnt > 0 then
      if isMatch pent then .hit pixel else findLoop cells size isMatch beingCreated count next free
    else if free = none ∧ pent.refcnt = 0 then
      if beingCreated then .empty pixel else findLoop cells size isMatch beingCreated count next (some pixel)
    else findLoop cells size isMatch beingCreated count next free

/-- `FindColor` for a client, or for none (`-1`); `realloc` tells whether its list can grow. -/
def findColor (pmap : ColormapRec n) (channel : Channel) (rgb : Rgb) (pPixel : ℕ)
    (client : Option (Fin n)) (realloc : Bool) : Status × ℕ × ColormapRec n :=
  let v := pmap.visual
  let s := pmap.sub channel
  let size := v.numEntries channel
  let start := if pPixel ≥ size then 0 else pPixel
  match findLoop s.cells size (compare channel · rgb) pmap.beingCreated size start none,client with
  | .nothing,_ => (.badAlloc,pPixel,pmap)
  | .hit pixel,none => (.success,pixel <<< v.offset channel,pmap)
  | .hit pixel,some client =>
    let pent := s.cells pixel
    let pent := { pent with refcnt := toShort (pent.refcnt+1) }
    if pmap.beingCreated then
      (.success,pixel <<< v.offset channel,pmap.setSub (s.setCell pixel pent) channel)
    else if realloc then
      (.success,pixel <<< v.offset channel,
        pmap.setSub ((s.setCell pixel pent).setPixels client (s.pixels client ++ [pixel])) channel)
    else
      let back := { pent with refcnt := toShort (pent.refcnt-1) }
      let free := if pent.fShared then s.free else s.free+1
      (.badAlloc,pixel <<< v.offset channel,pmap.setSub { s.setCell pixel back with free := free } channel)
  | .empty pixel,none =>
    let pent := { s.cells pixel with
      fShared := false
      refcnt := allocTemporary
      co := storeColor channel (s.cells pixel).co rgb }
    (.success,pixel <<< v.offset channel,pmap.setSub (s.setCell pixel pent) channel)
  | .empty pixel,some client =>
    let pent := { s.cells pixel with
      fShared := false
      refcnt := 1
      co := storeColor channel (s.cells pixel).co rgb }
    let s' := { s.setCell pixel pent with free := s.free-1 }
    if pmap.beingCreated then (.success,pixel <<< v.offset channel,pmap.setSub s' channel)
    else if realloc then
      (.success,pixel <<< v.offset channel,
        pmap.setSub (s'.setPixels client (s.pixels client ++ [pixel])) channel)
    else
      let s'' := s'.setCell pixel { pent with refcnt := 0 }
      (.badAlloc,pixel <<< v.offset channel,pmap.setSub { s'' with free := s'.free+1 } channel)

/-- The two-digit numbers in which `FindBestPixel` adds up its squares. -/
structure BigNum where
  upper : ℕ
  lower : ℕ

def BigNum.greater (x y : BigNum) : Bool := x.upper > y.upper || (x.upper = y.upper && x.lower > y.lower)

def BigNum.ofNat (u : ℕ) : BigNum := ⟨(u >>> 24) % 2^16,u % 2^24⟩

def BigNum.max : BigNum := ⟨2^16-1,2^24-1⟩

def BigNum.add (x y : BigNum) : BigNum :=
  let lower := x.lower+y.lower
  if lower ≥ 2^24 then ⟨(x.upper+y.upper+1) % 2^16,lower-2^24⟩ else ⟨(x.upper+y.upper) % 2^16,lower⟩

/-- The square of a difference of two `unsigned short`. -/
def squareDiff (x y : ℕ) : ℕ := ((x : ℤ)-y).natAbs^2

/-- The distance `FindBestPixel` minimises. -/
def colorDistance : Channel → Entry → Rgb → BigNum
  | .pseudoMap,pent,rgb =>
    ((BigNum.ofNat (squareDiff pent.co.red rgb.red)).add (.ofNat (squareDiff pent.co.green rgb.green))).add
      (.ofNat (squareDiff pent.co.blue rgb.blue))
  | .redMap,pent,rgb => .ofNat (squareDiff pent.co.red rgb.red)
  | .greenMap,pent,rgb => .ofNat (squareDiff pent.co.green rgb.green)
  | .blueMap,pent,rgb => .ofNat (squareDiff pent.co.blue rgb.blue)

def findBestPixel (cells : ℕ → Entry) (size : ℕ) (rgb : Rgb) (channel : Channel) : ℕ :=
  ((List.range size).foldl (fun best pixel =>
    let sum := colorDistance channel (cells pixel) rgb
    if best.2.greater sum then (pixel,sum) else best) ((0 : ℕ),BigNum.max)).1

/-- The loop of `FindColorInRootCmap`; after a match `pixel` keeps the shifted value. -/
def rootLoop (v : Visual) (cells : ℕ → Entry) (size : ℕ) (rgb : Rgb) (channel : Channel) :
    ℕ → ℕ → ℕ → ℕ → ℕ
  | 0,_,_,pPixel => pPixel
  | count+1,pent,pixel,pPixel =>
    let isHit := (cells pent).refcnt > 0 ∧ compare channel (cells pent) rgb = true
    let pixel := if isHit then wrap (pixel <<< v.offset channel) else pixel
    let pPixel := if isHit then pixel else pPixel
    if wrap (pixel+1) ≥ size then rootLoop v cells size rgb channel count 0 0 pPixel
    else rootLoop v cells size rgb channel count (pent+1) (wrap (pixel+1)) pPixel

/-- `FindColorInRootCmap`: where the root map has the colour. -/
def findColorInRootCmap (root : ColormapRec n) (channel : Channel) (rgb : Rgb) (pPixel : ℕ) : ℕ :=
  let size := root.visual.colormapEntries
  let start := if pPixel ≥ size then 0 else pPixel
  rootLoop root.visual (root.sub channel).cells size rgb channel size start start pPixel

/-- The results of `AllocColor`. -/
structure ColorReply (n : ℕ) where
  status : Status
  heap : Heap
  pmap : ColormapRec n
  pixel : ℕ
  rgb : Rgb
  entry : Bool

/-- `(pixel & mask) >> offset` for a channel. -/
def Visual.field (v : Visual) (channel : Channel) (pixel : ℕ) : ℕ :=
  (pixel &&& v.mask channel) >>> v.offset channel

/-- Where `AllocColor` starts to look: where the default map of the screen has the colour, if this is
another map of its visual. -/
def rootHint (pmap : ColormapRec n) (root : Option (ColormapRec n)) (rgb : Rgb) (pixel : ℕ) : ℕ :=
  match root with
  | none => pixel
  | some root =>
    if pmap.visual.cls ≠ root.visual.cls then pixel
    else if pmap.visual.cls = .directColor then
      findColorInRootCmap root .redMap rgb (pmap.visual.field .redMap pixel) |||
        findColorInRootCmap root .greenMap rgb (pmap.visual.field .greenMap pixel) |||
        findColorInRootCmap root .blueMap rgb (pmap.visual.field .blueMap pixel)
    else findColorInRootCmap root .pseudoMap rgb pixel

/-- The end of `AllocColor`: the first pixel of a client in somebody else's map needs a resource. -/
def addColorEntry (al : Allocs) (client : Fin n) (r : ColorReply n) : ColorReply n :=
  if (r.pmap.red.pixels client).length = 1 ∧ r.pmap.owner ≠ client ∧ r.pmap.beingCreated = false then
    if al.pcr = false then
      let f := freeColors r.heap r.pmap client [r.pixel] 0
      { r with status := .badAlloc, heap := f.2.1, pmap := f.2.2 }
    else if al.addResource = false then
      let f := freePixels r.heap r.pmap client
      { r with status := .badAlloc, heap := f.1, pmap := f.2 }
    else { r with entry := true }
  else r

/-- The `DirectColor` case of `AllocColor`: the three channels in turn, undone on failure. -/
def allocColorDirect (al : Allocs) (client : Fin n) (h : Heap) (pmap : ColormapRec n) (rgb : Rgb)
    (pixel : ℕ) : ColorReply n :=
  let v := pmap.visual
  let red := findColor pmap .redMap rgb (v.field .redMap pixel) (some client) al.red
  if red.1 ≠ .success then ⟨.badAlloc,h,red.2.2,pixel,rgb,false⟩
  else
    let green := findColor red.2.2 .greenMap rgb (v.field .greenMap pixel) (some client) al.green
    if green.1 ≠ .success then
      let f := freeCo h green.2.2 client .redMap [red.2.1] 0
      ⟨.badAlloc,f.2.1,f.2.2,pixel,rgb,false⟩
    else
      let blue := findColor green.2.2 .blueMap rgb (v.field .blueMap pixel) (some client) al.blue
      if blue.1 ≠ .success then
        let f := freeCo h blue.2.2 client .greenMap [green.2.1] 0
        let f' := freeCo f.2.1 f.2.2 client .redMap [red.2.1] 0
        ⟨.badAlloc,f'.2.1,f'.2.2,pixel,rgb,false⟩
      else
        addColorEntry al client
          ⟨.success,h,blue.2.2,red.2.1 ||| green.2.1 ||| blue.2.1 ||| v.alphaMask,rgb,false⟩

/-- The classes of one table with read-only cells: the closest colour. -/
def allocColorStatic (al : Allocs) (client : Fin n) (h : Heap) (pmap : ColormapRec n) (rgb : Rgb) :
    ColorReply n :=
  let pixR := findBestPixel pmap.red.cells pmap.visual.colormapEntries rgb .pseudoMap
  let out := (pmap.red.cells pixR).co
  if al.red = false then ⟨.badAlloc,h,pmap,pixR,out,false⟩
  else
    addColorEntry al client
      ⟨.success,h,{ pmap with red := pmap.red.setPixels client (pmap.red.pixels client ++ [pixR]) },pixR,out,false⟩

/-- The `TrueColor` case of `AllocColor`: the closest colour in each channel. -/
def allocColorTrue (al : Allocs) (client : Fin n) (h : Heap) (pmap : ColormapRec n) (rgb : Rgb) :
    ColorReply n :=
  let v := pmap.visual
  let pixR := findBestPixel pmap.red.cells (v.numEntries .redMap) rgb .redMap
  let pixG := findBestPixel pmap.green.cells (v.numEntries .greenMap) rgb .greenMap
  let pixB := findBestPixel pmap.blue.cells (v.numEntries .blueMap) rgb .blueMap
  let pixel := (pixR <<< v.offsetRed) ||| (pixG <<< v.offsetGreen) ||| (pixB <<< v.offsetBlue) ||| v.alphaMask
  let out : Rgb := ⟨(pmap.red.cells pixR).co.red,(pmap.green.cells pixG).co.green,(pmap.blue.cells pixB).co.blue⟩
  if al.red = false ∨ al.green = false ∨ al.blue = false then ⟨.badAlloc,h,pmap,pixel,out,false⟩
  else
    addColorEntry al client
      ⟨.success,h,
        { pmap with
          red := pmap.red.setPixels client (pmap.red.pixels client ++ [pixR])
          green := pmap.green.setPixels client (pmap.green.pixels client ++ [pixG])
          blue := pmap.blue.setPixels client (pmap.blue.pixels client ++ [pixB]) },pixel,out,false⟩

/-- `AllocColor` on the colour that the screen resolved; `root` is the default map of the screen when
this is another map of the root visual. -/
def allocColor (al : Allocs) (client : Fin n) (h : Heap) (pmap : ColormapRec n) (root : Option (ColormapRec n))
    (rgb : Rgb) (pixel : ℕ) : ColorReply n :=
  let dynamic := pmap.visual.cls.dynamic || pmap.beingCreated
  if pmap.visual.cls.direct then
    if dynamic then allocColorDirect al client h pmap rgb (rootHint pmap root rgb pixel)
    else allocColorTrue al client h pmap rgb
  else if dynamic then
    let r := findColor pmap .pseudoMap rgb (rootHint pmap root rgb pixel) (some client) al.red
    if r.1 ≠ .success then ⟨.badAlloc,h,r.2.2,r.2.1,rgb,false⟩
    else addColorEntry al client ⟨.success,h,r.2.2,r.2.1,rgb,false⟩
  else allocColorStatic al client h pmap rgb

/-- `FakeAllocColor`: the pixel and the map. -/
def fakeAllocColor (pmap : ColormapRec n) (rgb : Rgb) (pixel : ℕ) : ℕ × ColormapRec n :=
  let v := pmap.visual
  let find (pmap : ColormapRec n) (ch : Channel) (pixel : ℕ) : ℕ × ColormapRec n :=
    let r := findColor pmap ch rgb pixel none true
    if r.1 = .success then r.2
    else (findBestPixel (r.2.2.sub ch).cells (v.numEntries ch) rgb ch <<< v.offset ch,r.2.2)
  match v.cls with
  | .grayScale | .pseudoColor => find pmap .pseudoMap 0
  | .staticColor | .staticGray => (findBestPixel pmap.red.cells v.colormapEntries rgb .pseudoMap,pmap)
  | .directColor =>
    let r := find pmap .redMap (v.field .redMap pixel)
    let g := find r.2 .greenMap (v.field .greenMap pixel)
    let b := find g.2 .blueMap (v.field .blueMap pixel)
    (r.1 ||| g.1 ||| b.1,b.2)
  | .trueColor =>
    ((findBestPixel pmap.red.cells (v.numEntries .redMap) rgb .redMap <<< v.offsetRed) |||
      (findBestPixel pmap.green.cells (v.numEntries .greenMap) rgb .greenMap <<< v.offsetGreen) |||
      (findBestPixel pmap.blue.cells (v.numEntries .blueMap) rgb .blueMap <<< v.offsetBlue),pmap)

def freeTemporary (s : SubMap n) (i : ℕ) : SubMap n :=
  if (s.cells i).refcnt = allocTemporary then s.setCell i { s.cells i with refcnt := 0 } else s

def fakeFreeColor (pmap : ColormapRec n) (pixel : ℕ) : ColormapRec n :=
  let v := pmap.visual
  match v.cls with
  | .grayScale | .pseudoColor => { pmap with red := freeTemporary pmap.red pixel }
  | .directColor =>
    { pmap with
      red := freeTemporary pmap.red (v.field .redMap pixel)
      green := freeTemporary pmap.green (v.field .greenMap pixel)
      blue := freeTemporary pmap.blue (v.field .blueMap pixel) }
  | .staticColor | .staticGray | .trueColor => pmap

end Xlibre.Dix.Colormap
