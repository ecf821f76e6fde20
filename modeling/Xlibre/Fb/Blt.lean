import Xlibre.Fb.MaskBits

/-! `fbBlt`: rectangles of bits from one place of the memory to another under a raster operation. -/
namespace Xlibre.Fb

/-- The memory, and the source words read so far, the latest first. -/
structure Store where
  mem : ℤ → FbBits
  reads : List ℤ

/-- The locals of one row: `src`, `dst`, `bits1`, and the memory. -/
structure Row extends Store where
  src : ℤ
  dst : ℤ
  bits1 : FbBits

/-- `READ(--src)` or `READ(src++)` -/
def Row.readSrc (reverse : Bool) (r : Row) : FbBits × Row :=
  if reverse then (r.mem (r.src-1), { r with reads := (r.src-1) :: r.reads, src := r.src-1 })
  else (r.mem r.src, { r with reads := r.src :: r.reads, src := r.src+1 })

/-- A store through `--dst`, or through `dst` which then moves on. -/
def Row.store (reverse : Bool) (f : FbBits → FbBits) (r : Row) : Row :=
  if reverse then { r with mem := Function.update r.mem (r.dst-1) (f (r.mem (r.dst-1))), dst := r.dst-1 }
  else { r with mem := Function.update r.mem r.dst (f (r.mem r.dst)), dst := r.dst+1 }

/-- What stays fixed over the rows of a call. -/
structure Plan where
  o : BitOrder
  rop : FbMergeRopRec
  reverse : Bool
  srcX : ℤ
  dstX : ℤ
  masks : MaskBits

namespace Plan

variable (p : Plan)

/-- `InitializeShifts`: `leftShift`. -/
def leftShift : ℕ := if p.dstX < p.srcX then (p.srcX-p.dstX).toNat else 32-(p.dstX-p.srcX).toNat

/-- `InitializeShifts`: `rightShift`. -/
def rightShift : ℕ := if p.dstX < p.srcX then 32-(p.srcX-p.dstX).toNat else (p.dstX-p.srcX).toNat

def needs (mask : FbBits) : Bool :=
  if p.reverse then fbScrRight p.o mask p.leftShift != 0 else fbScrLeft p.o mask p.rightShift != 0

/-- The source bits for one destination word; `need` tells whether a shifted row reads its next word for them. -/
def fetch (need : Bool) (r : Row) : FbBits × Row :=
  if p.srcX = p.dstX then r.readSrc p.reverse
  else if p.reverse then
    let bits := fbScrRight p.o r.bits1 p.rightShift
    if need then
      let (bits1, r) := r.readSrc p.reverse
      (bits ||| fbScrLeft p.o bits1 p.leftShift, { r with bits1 := bits1 })
    else (bits, r)
  else
    let bits := fbScrLeft p.o r.bits1 p.leftShift
    if need then
      let (bits1, r) := r.readSrc p.reverse
      (bits ||| fbScrRight p.o bits1 p.rightShift, { r with bits1 := bits1 })
    else (bits, r)

/-- `FbDoLeftMaskByteMergeRop(dst, bits, startbyte, startmask)` -/
def leftMerge (bits old : FbBits) : FbBits :=
  fbDoLeftMaskByteRRop p.o old p.masks.startbyte p.masks.startmask (p.rop.and bits) (p.rop.xor bits)

/-- `FbDoRightMaskByteMergeRop(dst, bits, endbyte, endmask)` -/
def rightMerge (bits old : FbBits) : FbBits :=
  fbDoRightMaskByteRRop p.o old p.masks.endbyte p.masks.endmask (p.rop.and bits) (p.rop.xor bits)

def middleMerge (bits old : FbBits) : FbBits :=
  if p.rop.destInvarient then p.rop.xor bits else p.rop.doMergeRop bits old

/-- The word of `startmask`. -/
def startWord (r : Row) : Row :=
  if p.masks.startmask ≠ 0 then
    let (bits, r) := p.fetch (p.needs p.masks.startmask) r
    r.store p.reverse (p.leftMerge bits)
  else r

/-- `while (n--)`: the whole words. -/
def middleWords : ℕ → Row → Row
  | 0, r => r
  | n+1, r =>
    let (bits, r) := p.fetch true r
    middleWords n (r.store p.reverse (p.middleMerge bits))

/-- The word of `endmask`. -/
def endWord (r : Row) : Row :=
  if p.masks.endmask ≠ 0 then
    let (bits, r) := p.fetch (p.needs p.masks.endmask) r
    r.store p.reverse (p.rightMerge bits)
  else r

/-- `bits1` before the first word of a shifted row. -/
def lookAhead (r : Row) : Row :=
  if p.srcX = p.dstX then r
  else if (if p.reverse then p.srcX < p.dstX else p.dstX < p.srcX) then
    let (bits1, r) := r.readSrc p.reverse
    { r with bits1 := bits1 }
  else r

/-- The body of `while (height--)`. -/
def row (srcLine dstLine : ℤ) (s : Store) : Store :=
  let r := p.lookAhead ⟨s,srcLine,dstLine,0⟩
  if p.reverse then (p.startWord (p.middleWords p.masks.nmiddle (p.endWord r))).toStore
  else (p.endWord (p.middleWords p.masks.nmiddle (p.startWord r))).toStore

/-- `while (height--)` -/
def rows (srcStride dstStride : ℤ) : ℕ → ℤ → ℤ → Store → Store
  | 0, _, _, s => s
  | h+1, srcLine, dstLine, s =>
    rows srcStride dstStride h (srcLine+srcStride) (dstLine+dstStride) (p.row srcLine dstLine s)

end Plan

/-- The arguments of `fbBlt`. Lines and strides count words, offsets and the width count bits. -/
structure Blt where
  srcLine : ℤ
  srcStride : ℤ
  srcX : ℤ
  dstLine : ℤ
  dstStride : ℤ
  dstX : ℤ
  width : ℕ
  height : ℕ
  alu : Alu
  pm : FbBits
  reverse : Bool
  upsidedown : Bool

section Bytes

variable (o : BitOrder)

/-- The byte at byte address `k`. -/
def getByte (m : ℤ → FbBits) (k : ℤ) : BitVec 8 := ((m (k/4)) >>> byteShift o (k%4).toNat 1).setWidth 8

/-- A byte stored at byte address `k`. -/
def setByte (m : ℤ → FbBits) (k : ℤ) (v : BitVec 8) : ℤ → FbBits :=
  let s := byteShift o (k%4).toNat 1
  Function.update m (k/4) ((m (k/4) &&& ~~~((BitVec.allOnes 8).setWidth 32 <<< s)) ||| (v.setWidth 32 <<< s))

/-- The bytes that `memcpy(dst, src, size)` moves. -/
def copyBytes (dst src : ℤ) : ℕ → Store → Store
  | 0, s => s
  | n+1, s =>
    let s := copyBytes dst src n s
    { mem := setByte o s.mem (dst+n) (getByte o s.mem (src+n)), reads := (src+n)/4 :: s.reads }

/-- `memcpy(dst, src, size)`, which is undefined for ranges that overlap. -/
def memcpy (dst src : ℤ) (size : ℕ) (s : Store) : Option Store :=
  if src+size ≤ dst ∨ dst+size ≤ src then some (copyBytes o dst src size s) else none

end Bytes

namespace Blt

variable (o : BitOrder) (b : Blt)

/-- What `fbBlt` computes before the loop over the rows. -/
def plan : Plan :=
  let rop := fbInitializeMergeRop b.alu b.pm
  { o, rop, reverse := b.reverse
    srcX := if b.reverse then (b.srcX+b.width-1)%32 else b.srcX%32
    dstX := if b.reverse then (b.dstX+b.width-1)%32 else b.dstX%32
    masks := fbMaskBitsBytes o b.dstX b.width rop.destInvarient }

def firstLine (line stride x : ℤ) : ℤ :=
  (if b.upsidedown then line+(b.height-1)*stride else line) + if b.reverse then (x+b.width-1)/32+1 else x/32

def lineStep (stride : ℤ) : ℤ := if b.upsidedown then -stride else stride

/-- The part of `fbBlt` after the fast path. -/
def general (mem : ℤ → FbBits) : Store :=
  (b.plan o).rows (b.lineStep b.srcStride) (b.lineStep b.dstStride) b.height
    (b.firstLine b.srcLine b.srcStride b.srcX) (b.firstLine b.dstLine b.dstStride b.dstX) ⟨mem,[]⟩

def srcByte : ℤ := 4*b.srcLine+b.srcX/8

def dstByte : ℤ := 4*b.dstLine+b.dstX/8

def widthByte : ℕ := b.width/8

/-- Whether the rows can be copied as bytes. -/
def fast : Bool :=
  b.alu == .copy && b.pm == fbAllOnes && b.srcX%8 == 0 && b.dstX%8 == 0 && b.width%8 == 0 &&
    (b.srcByte+b.widthByte ≤ b.dstByte || b.dstByte+b.widthByte ≤ b.srcByte)

def rowOrder : List ℕ := if b.upsidedown then (List.range b.height).reverse else List.range b.height

/-- The fast path. -/
def copyRows (mem : ℤ → FbBits) : Option Store :=
  b.rowOrder.foldlM (fun s (i : ℕ) =>
    memcpy o (b.dstByte+i*(4*b.dstStride)) (b.srcByte+i*(4*b.srcStride)) b.widthByte s) ⟨mem,[]⟩

end Blt

/-- `fbBlt`; `none` where the code calls `memcpy` on ranges that overlap. -/
def fbBlt (o : BitOrder) (b : Blt) (mem : ℤ → FbBits) : Option Store :=
  if b.fast then b.copyRows o mem else some (b.general o mem)

end Xlibre.Fb
