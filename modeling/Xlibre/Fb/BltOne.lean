import Xlibre.Fb.Sweep

/-! `fbBltOne`: a bitmap expanded to pixels. Its words are in a memory of their own, which is only read. -/
namespace Xlibre.Fb

open Lib.BitMemory

/-- `FbLeftStipBits(x, n)` -/
def fbLeftStipBits (o : BitOrder) (x : FbBits) (n : ℕ) : ℕ :=
  match o with
  | .lsbFirst => (x &&& ((1 : FbBits) <<< n - 1)).toNat
  | .msbFirst => (x >>> (32-n)).toNat

/-- `BitsMask(x, w)` -/
def bitsMask (x w : ℕ) : FbBits := (fbAllOnes <<< (x%32)) &&& (fbAllOnes >>> ((32-(x+w))%32))

/-- `SelMask(b, n, w)` -/
def selMask (b n w : ℕ) : FbBits := BitVec.ofNat 32 ((b >>> n) &&& 1) * bitsMask (n*w) w

/-- `C1`, `C2`, `C4` and `C8`, for so many bits of `b`. -/
def expandBits (n b w : ℕ) : FbBits := (List.range n).foldl (fun m i => m ||| selMask b i w) 0

/-- An entry of the table `fbStipple8Bits`. -/
def fbStipple8Bits (b : ℕ) : FbBits := expandBits 8 b 4

/-- An entry of the table `fbStipple4Bits`. -/
def fbStipple4Bits (b : ℕ) : FbBits := expandBits 4 b 8

/-- An entry of the table `fbStipple2Bits`. -/
def fbStipple2Bits (b : ℕ) : FbBits := expandBits 2 b 16

/-- An entry of the table `fbStipple1Bits`. -/
def fbStipple1Bits (b : ℕ) : FbBits := expandBits 1 b 32

/-- `FbOpaqueStipple(b, fg, bg)` -/
def fbOpaqueStipple (b fg bg : FbBits) : FbBits := (fg &&& b) ||| (bg &&& ~~~b)

/-- `FbStippleRRop(dst, b, fa, fx, ba, bx)` -/
def fbStippleRRop (dst b fa fx ba bx : FbBits) : FbBits := (fbDoRRop dst fa fx &&& b) ||| (fbDoRRop dst ba bx &&& ~~~b)

structure Expansion extends Cursor where
  src : ℤ
  bits : FbBits
  bitsLeft : FbBits
  reads : List ℤ

/-- The arguments of `fbBltOne`. Lines and strides count words, offsets and the width count bits. -/
structure BltOne where
  src : ℤ
  srcStride : ℤ
  srcX : ℤ
  dst : ℤ
  dstStride : ℤ
  dstX : ℤ
  dstBpp : ℕ
  width : ℕ
  height : ℕ
  fgand : FbBits
  fgxor : FbBits
  bgand : FbBits
  bgxor : FbBits

namespace BltOne

variable (o : BitOrder) (bitmap : ℤ → FbBits) (b : BltOne)

def srcEnd : ℤ := b.src+b.height*b.srcStride

def pixelsPerDst : ℕ := 32/b.dstBpp

def unitsPerSrc : ℕ := 32/b.pixelsPerDst

def copy : Bool := b.bgand == 0 && b.fgand == 0

def transparent : Bool := !b.copy && b.bgand == fbAllOnes && b.bgxor == 0

/-- What `FbMaskBitsBytes` sets. -/
def masks : MaskBits := fbMaskBitsBytes o (b.dstX%32) b.width b.copy

def dstS : ℤ := b.dstX%32/b.dstBpp

def leftShift : ℕ := if b.dstS ≤ b.srcX%32 then (b.srcX%32-b.dstS).toNat else 32-(b.dstS-b.srcX%32).toNat

def rightShift : ℕ := if b.dstS ≤ b.srcX%32 then 32-(b.srcX%32-b.dstS).toNat else (b.dstS-b.srcX%32).toNat

/-- `fbBits`; there is none for other depths. -/
def fbBits? : Option (ℕ → FbBits) :=
  match b.pixelsPerDst with
  | 8 => some fbStipple8Bits
  | 4 => some fbStipple4Bits
  | 2 => some fbStipple2Bits
  | 1 => some fbStipple1Bits
  | _ => none

def nDst : ℕ := (b.masks o).nmiddle + if (b.masks o).startmask ≠ 0 then 1 else 0

def endNeedsLoad : Bool := (b.masks o).endmask ≠ 0 && b.nDst o%b.unitsPerSrc == 0

def srcinc : ℕ :=
  (b.nDst o+b.unitsPerSrc-1)/b.unitsPerSrc + (if b.dstS < b.srcX%32 then 1 else 0) + if b.endNeedsLoad o then 1 else 0

/-- `src < srcEnd ? READ(src++) : 0` -/
def next (s : Expansion) : FbBits × Expansion :=
  if s.src < b.srcEnd then (bitmap s.src,{ s with src := s.src+1, reads := s.src::s.reads }) else (0,s)

def loadBits (s : Expansion) : Expansion :=
  let (right,s) := b.next bitmap s
  if b.leftShift ≠ 0 then
    { s with bits := fbScrLeft o s.bitsLeft b.leftShift ||| fbScrRight o right b.rightShift, bitsLeft := right }
  else { s with bits := right }

variable (fbBits : ℕ → FbBits)

/-- The pixels of the next word. -/
def mask (s : Expansion) : FbBits := fbBits (fbLeftStipBits o s.bits b.pixelsPerDst)

def useBits (write : Bool) (f : FbBits → FbBits) (s : Expansion) : Expansion :=
  { s with toCursor := if write then s.put f else s.skip, bits := fbScrLeft o s.bits b.pixelsPerDst }

/-- The word of `startmask`. -/
def startWord (s : Expansion) : Expansion :=
  if (b.masks o).startmask ≠ 0 then
    let mask := b.mask o fbBits s
    b.useBits o (mask ≠ 0 || !b.transparent) (fun old => fbDoLeftMaskByteRRop o old (b.masks o).startbyte
      (b.masks o).startmask (fbOpaqueStipple mask b.fgand b.bgand) (fbOpaqueStipple mask b.fgxor b.bgxor)) s
  else s

def middleWord (s : Expansion) : Expansion :=
  let mask := b.mask o fbBits s
  if b.copy then b.useBits o true (fun _ => fbOpaqueStipple mask b.fgxor b.bgxor) s
  else b.useBits o (fbLeftStipBits o s.bits b.pixelsPerDst ≠ 0 || !b.transparent)
    (fun old => fbStippleRRop old mask b.fgand b.fgxor b.bgand b.bgxor) s

/-- `while (n--)` -/
def middleWords : ℕ → Expansion → Expansion
  | 0, s => s
  | n+1, s => middleWords n (b.middleWord o fbBits s)

/-- `for (;;)`, for at most so many rounds after this one. -/
def sweep : ℕ → ℕ → ℕ → Expansion → Option Expansion
  | rounds, w, n, s =>
    let w := w-n
    let s := b.middleWords o fbBits n s
    if w = 0 then some s
    else
      match rounds with
      | 0 => none
      | rounds+1 => sweep rounds w (min b.unitsPerSrc w) (b.loadBits o bitmap s)

/-- The word of `endmask`. -/
def endWord (s : Expansion) : Expansion :=
  if (b.masks o).endmask ≠ 0 then
    let s := if b.endNeedsLoad o then b.loadBits o bitmap s else s
    let mask := b.mask o fbBits s
    if mask ≠ 0 || !b.transparent then
      { s with mem := (s.put fun old => fbDoRightMaskByteRRop o old (b.masks o).endbyte (b.masks o).endmask
        (fbOpaqueStipple mask b.fgand b.bgand) (fbOpaqueStipple mask b.fgxor b.bgxor)).mem }
    else s
  else s

/-- `if (n)`: the words in front of the one of `endmask`. -/
def words (s : Expansion) : Option Expansion :=
  let w := b.nDst o
  let n := min b.unitsPerSrc w
  if n ≠ 0 then
    let first := if (b.masks o).startmask ≠ 0 then 1 else 0
    b.sweep o bitmap fbBits w (w-first) (n-first) (b.startWord o fbBits (b.loadBits o bitmap s))
  else some s

/-- The body of `while (height--)`, without the steps to the next line. -/
def row (s : Expansion) : Option Expansion := do
  let s := if b.dstS < b.srcX%32 then { s with bitsLeft := bitmap s.src, src := s.src+1, reads := s.src::s.reads }
    else { s with bitsLeft := 0 }
  let s ← b.words o bitmap fbBits s
  some (b.endWord o bitmap fbBits s)

/-- `while (height--)` -/
def rows : ℕ → Expansion → Option Expansion
  | 0, s => some s
  | h+1, s => do
    let s ← b.row o bitmap fbBits s
    rows h { s with dst := s.dst+(b.dstStride-b.nDst o), src := s.src+(b.srcStride-b.srcinc o) }

end BltOne

/-- `fbBltOne`, with the words of the bitmap it has read; there is no result where a loop would not end. -/
def fbBltOne (o : BitOrder) (bitmap : ℤ → FbBits) (b : BltOne) (mem : ℤ → FbBits) : Option ((ℤ → FbBits) × List ℤ) :=
  match b.fbBits? with
  | none => some (mem,[])
  | some fbBits => do
    let s ← b.rows o bitmap fbBits b.height ⟨⟨mem,b.dst+b.dstX/32⟩,b.src+b.srcX/32,0,0,[]⟩
    some (s.mem,s.reads)

section Tables

def Depth (bpp n : ℕ) : Prop := bpp = 4 ∧ n = 8 ∨ bpp = 8 ∧ n = 4 ∨ bpp = 16 ∧ n = 2 ∨ bpp = 32 ∧ n = 1

variable {bpp n : ℕ} (h : Depth bpp n)
include h

lemma bitsMask_bit {i q : ℕ} (hi : i < n) (hq : q < 32) : (bitsMask (i*bpp) bpp).getLsbD q = decide (q/bpp = i) := by
  have hall : ∀ i < n, ∀ q < 32, (bitsMask (i*bpp) bpp).getLsbD q = decide (q/bpp = i) := by
    obtain ⟨rfl,rfl⟩ | ⟨rfl,rfl⟩ | ⟨rfl,rfl⟩ | ⟨rfl,rfl⟩ := h <;> decide
  exact hall i hi q hq

lemma selMask_bit (b : ℕ) {i q : ℕ} (hi : i < n) (hq : q < 32) :
    (selMask b i bpp).getLsbD q = (b.testBit i && decide (q/bpp = i)) := by
  have htest : b.testBit i = decide ((b >>> i) &&& 1 = 1) := by
    rw [Nat.testBit,Nat.and_comm]
    obtain hbit | hbit : (b >>> i) &&& 1 = 0 ∨ (b >>> i) &&& 1 = 1 := by
      rw [Nat.and_one_is_mod]
      omega
    · rw [hbit]
      rfl
    · rw [hbit]
      rfl
  unfold selMask
  obtain hbit | hbit : (b >>> i) &&& 1 = 0 ∨ (b >>> i) &&& 1 = 1 := by
    rw [Nat.and_one_is_mod]
    omega
  · rw [htest,hbit]
    simp
  · have hone : BitVec.ofNat 32 1*bitsMask (i*bpp) bpp = bitsMask (i*bpp) bpp := BitVec.one_mul _
    rw [htest,hbit,hone,bitsMask_bit h hi hq]
    simp

lemma expandBits_bit (b : ℕ) {q : ℕ} (hq : q < 32) : (expandBits n b bpp).getLsbD q = b.testBit (q/bpp) := by
  have hfold : ∀ k ≤ n, ((List.range k).foldl (fun m i => m ||| selMask b i bpp) 0).getLsbD q =
      (decide (q/bpp < k) && b.testBit (q/bpp)) := by
    intro k
    induction k with
    | zero => simp
    | succ k ih =>
      intro hk
      rw [List.range_succ,List.foldl_append,List.foldl_cons,List.foldl_nil,BitVec.getLsbD_or,ih (by omega),
        selMask_bit h b (by omega) hq]
      obtain hlt | heq | hgt := lt_trichotomy (q/bpp) k
      · simp [hlt,Nat.lt_succ_of_lt hlt,hlt.ne]
      · simp [heq]
      · simp [hgt.ne',Nat.not_lt_of_gt hgt,show ¬q/bpp < k+1 by omega]
  have hlt : q/bpp < n := by
    obtain ⟨rfl,rfl⟩ | ⟨rfl,rfl⟩ | ⟨rfl,rfl⟩ | ⟨rfl,rfl⟩ := h <;> omega
  unfold expandBits
  rw [hfold n le_rfl,decide_eq_true hlt,Bool.true_and]

lemma leftStip_bit (o : BitOrder) (x : FbBits) {p : ℕ} (hp : p < 32) :
    scrBit o (expandBits n (fbLeftStipBits o x n) bpp) p = scrBit o x (p/bpp) := by
  unfold scrBit
  rw [expandBits_bit h _ (place_lt o hp)]
  cases o with
  | lsbFirst =>
    have hmask : ∀ i < n, ((1 : FbBits) <<< n - 1).getLsbD i = true := by
      obtain ⟨rfl,rfl⟩ | ⟨rfl,rfl⟩ | ⟨rfl,rfl⟩ | ⟨rfl,rfl⟩ := h <;> decide
    have hlt : p/bpp < n := by obtain ⟨rfl,rfl⟩ | ⟨rfl,rfl⟩ | ⟨rfl,rfl⟩ | ⟨rfl,rfl⟩ := h <;> omega
    simp only [fbLeftStipBits,BitOrder.place]
    rw [BitVec.testBit_toNat,BitVec.getLsbD_and,hmask _ hlt,Bool.and_true]
  | msbFirst =>
    have hplace : 32-n+(31-p)/bpp = 31-p/bpp := by
      obtain ⟨rfl,rfl⟩ | ⟨rfl,rfl⟩ | ⟨rfl,rfl⟩ | ⟨rfl,rfl⟩ := h <;> omega
    simp only [fbLeftStipBits,BitOrder.place]
    rw [BitVec.testBit_toNat,BitVec.getLsbD_ushiftRight,hplace]

end Tables

namespace BltOne

variable (o : BitOrder) (bitmap : ℤ → FbBits) (b : BltOne)

def pixelOp (a : ℤ) (set old : Bool) : Bool :=
  if set then (old && scrBit o b.fgand (a%32).toNat) ^^ scrBit o b.fgxor (a%32).toNat
  else (old && scrBit o b.bgand (a%32).toNat) ^^ scrBit o b.bgxor (a%32).toNat

/-- The bit of the bitmap at `a`, none from `srcEnd` on. -/
def srcBitAt (a : ℤ) : Bool := decide (a/32 < b.srcEnd) && memBit o bitmap a

/-- The bit of row `r` and pixel `p` of the bitmap. -/
def srcBit (r p : ℕ) : ℤ := 32*(b.src+r*b.srcStride)+b.srcX+p

/-- Bit `i` of row `r` of the destination. -/
def dstBit (r i : ℕ) : ℤ := 32*(b.dst+r*b.dstStride)+b.dstX+i

/-- A row as bits that depend on those of the bitmap. -/
def expanded (r : ℕ) : Sweep :=
  ⟨o,b.dstBit r 0,b.width,fun a => b.pixelOp o a (b.srcBitAt o bitmap (b.srcBit r 0+(a-b.dstBit r 0)/b.dstBpp))⟩

/-- The depth is one that is dealt with, the rectangle is one of whole pixels, the rows of the bitmap are in its lines, and
those of the destination do not meet. -/
structure WellPlaced : Prop where
  depth : b.dstBpp = 4 ∨ b.dstBpp = 8 ∨ b.dstBpp = 16 ∨ b.dstBpp = 32
  dstX : b.dstX%b.dstBpp = 0
  width : b.width%b.dstBpp = 0
  srcLeft : 0 ≤ b.srcX
  srcRight : b.srcX+b.width/b.dstBpp ≤ 32*b.srcStride
  rows : ∀ r < b.height, ∀ r' < b.height, ∀ i < b.width, ∀ i' < b.width, b.dstBit r i = b.dstBit r' i' → r = r'

/-- The bit of the bitmap that would belong to the first pixel of the first word. -/
def base (r : ℕ) : ℤ := b.srcBit r 0-b.dstS

/-- The word that the first `LoadBits` of a row reads. -/
def firstLoad (r : ℕ) : ℤ := (b.base r+31)/32

def table (i : ℕ) : FbBits := expandBits b.pixelsPerDst i b.dstBpp

/-- The row so far: `j` words are done, `k` times bits were loaded, and those for `avail` more words are left. -/
structure Going (r : ℕ) (m : ℤ → FbBits) (j avail k : ℕ) (s : Expansion) : Prop where
  done : (b.expanded o bitmap r).At m (b.dstBit r 0/32+j) s.toCursor
  count : j*b.pixelsPerDst+avail*b.pixelsPerDst = 32*k
  room : avail*b.pixelsPerDst ≤ 32
  bits : ∀ i < avail*b.pixelsPerDst, b.srcBit r 0 ≤ b.base r+(j*b.pixelsPerDst : ℕ)+i →
    scrBit o s.bits i = b.srcBitAt o bitmap (b.base r+(j*b.pixelsPerDst : ℕ)+i)
  src : s.src = min (b.firstLoad r+k) b.srcEnd
  left : b.leftShift ≠ 0 → ∀ i : ℕ, i < 32 → b.srcBit r 0 ≤ 32*(b.firstLoad r+k-1)+i →
    scrBit o s.bitsLeft i = b.srcBitAt o bitmap (32*(b.firstLoad r+k-1)+i)
  reads : ∀ a ∈ s.reads, a < b.srcEnd

section Words

variable {o b bitmap} {m : ℤ → FbBits} {e : ℤ} {s : Expansion} {r j avail k : ℕ}

lemma opaqueStipple_bit (mask fg bg : FbBits) {p : ℕ} (hp : p < 32) :
    scrBit o (fbOpaqueStipple mask fg bg) p = if scrBit o mask p then scrBit o fg p else scrBit o bg p := by
  split_ifs with hm
  · unfold scrBit at hm ⊢
    simp only [fbOpaqueStipple,BitVec.getLsbD_or,BitVec.getLsbD_and,BitVec.getLsbD_not,hm,Bool.and_true,Bool.not_true,
      Bool.and_false,Bool.or_false]
  · rw [Bool.not_eq_true] at hm
    unfold scrBit at hm ⊢
    simp only [fbOpaqueStipple,BitVec.getLsbD_or,BitVec.getLsbD_and,BitVec.getLsbD_not,hm,place_lt o hp,decide_true,
      Bool.not_false,Bool.and_true,Bool.and_false,Bool.false_or]

lemma rrop_bit (mask old : FbBits) {p : ℕ} (hp : p < 32) :
    ((scrBit o old p && scrBit o (fbOpaqueStipple mask b.fgand b.bgand) p) ^^
      scrBit o (fbOpaqueStipple mask b.fgxor b.bgxor) p) = b.pixelOp o (32*e+p) (scrBit o mask p) (scrBit o old p) := by
  have hplace : ((32*e+p)%32).toNat = p := by omega
  rw [opaqueStipple_bit _ _ _ hp,opaqueStipple_bit _ _ _ hp,pixelOp,hplace]
  split_ifs <;> rfl

lemma stippleRRop_bit (mask old : FbBits) {p : ℕ} (hp : p < 32) :
    scrBit o (fbStippleRRop old mask b.fgand b.fgxor b.bgand b.bgxor) p =
      b.pixelOp o (32*e+p) (scrBit o mask p) (scrBit o old p) := by
  have hplace : ((32*e+p)%32).toNat = p := by omega
  have hrrop : ∀ and xor, scrBit o (fbDoRRop old and xor) p = ((scrBit o old p && scrBit o and p) ^^ scrBit o xor p) := by
    intro and xor
    simp only [fbDoRRop,scrBit,BitVec.getLsbD_xor,BitVec.getLsbD_and]
  have hpick : fbStippleRRop old mask b.fgand b.fgxor b.bgand b.bgxor =
      fbOpaqueStipple mask (fbDoRRop old b.fgand b.fgxor) (fbDoRRop old b.bgand b.bgxor) := rfl
  rw [hpick,opaqueStipple_bit _ _ _ hp,hrrop,hrrop,pixelOp,hplace]

lemma opaqueStipple_of_copy (mask : FbBits) (hcopy : b.copy = true) : fbOpaqueStipple mask b.fgand b.bgand = 0 := by
  simp only [copy,Bool.and_eq_true,beq_iff_eq] at hcopy
  simp [fbOpaqueStipple,hcopy.1,hcopy.2]

lemma masks_eq (r : ℕ) : b.masks o = fbMaskBitsBytes o (b.dstBit r 0) b.width b.copy := by
  have hplace : b.dstBit r 0 = 32*(b.dst+r*b.dstStride+b.dstX/32)+b.dstX%32 := by
    unfold dstBit
    push_cast
    omega
  rw [hplace,fbMaskBitsBytes_add]
  rfl

lemma nDst_eq (hw : 0 < b.width) (r : ℕ) : b.dstBit r 0/32+b.nDst o = firstFull (b.dstBit r 0)+(b.masks o).nmiddle ∧
    (b.dstBit r 0+b.width-1)/32+1 = b.dstBit r 0/32+b.nDst o+if (b.masks o).endmask ≠ 0 then 1 else 0 := by
  have hw' : (0 : ℤ) < b.width := by omega
  have hlast := last_word o (x := b.dstBit r 0) (c := b.copy) hw'
  have hfirst : b.dstBit r 0/32+b.nDst o = firstFull (b.dstBit r 0)+(b.masks o).nmiddle := by
    unfold nDst firstFull
    rw [masks_eq r,if_congr (startmask_ne_zero o hw') rfl rfl]
    split_ifs <;> push_cast <;> omega
  rw [← masks_eq r] at hlast
  exact ⟨hfirst,by rw [hfirst]; exact hlast⟩

variable (h : b.WellPlaced)
include h

lemma WellPlaced.pixels : Depth b.dstBpp b.pixelsPerDst := by
  unfold pixelsPerDst Depth
  obtain hb | hb | hb | hb := h.depth <;> rw [hb] <;> omega

lemma WellPlaced.table_zero : b.table 0 = 0 := by
  unfold table
  obtain ⟨hb,hn⟩ | ⟨hb,hn⟩ | ⟨hb,hn⟩ | ⟨hb,hn⟩ := h.pixels <;> rw [hb,hn] <;> decide

lemma WellPlaced.units : b.unitsPerSrc*b.pixelsPerDst = 32 := by
  unfold unitsPerSrc pixelsPerDst
  obtain hb | hb | hb | hb := h.depth <;> rw [hb]

lemma WellPlaced.dstS_eq : 0 ≤ b.dstS ∧ b.dstS < 8 ∧ b.dstS*b.dstBpp = b.dstX%32 := by
  have hx := h.dstX
  unfold dstS
  obtain hb | hb | hb | hb := h.depth <;> rw [hb] at hx ⊢ <;> omega

lemma WellPlaced.shifts (r : ℕ) : (b.leftShift : ℤ) = b.base r%32 ∧
    (b.leftShift ≠ 0 → b.rightShift = 32-b.leftShift) ∧ b.leftShift < 32 := by
  obtain ⟨hnonneg,hlt,-⟩ := h.dstS_eq
  have hbase : b.base r = 32*(b.src+r*b.srcStride)+(b.srcX-b.dstS) := by
    unfold base srcBit
    push_cast
    omega
  rw [hbase]
  unfold leftShift rightShift
  split_ifs <;> omega

lemma WellPlaced.source_eq (r j p : ℕ) : b.srcBit r 0+(32*(b.dstBit r 0/32+j)+p-b.dstBit r 0)/b.dstBpp =
    b.base r+(j*b.pixelsPerDst : ℕ)+(p/b.dstBpp : ℕ) := by
  obtain ⟨-,-,hmul⟩ := h.dstS_eq
  have hplace : b.dstBit r 0%32 = b.dstX%32 := by
    unfold dstBit
    omega
  have hdiff : 32*(b.dstBit r 0/32+j)+p-b.dstBit r 0 = 32*j+p-b.dstX%32 := by omega
  rw [hdiff,← hmul]
  unfold base
  obtain ⟨hb,hn⟩ | ⟨hb,hn⟩ | ⟨hb,hn⟩ | ⟨hb,hn⟩ := h.pixels <;> rw [hb,hn] <;> push_cast <;> omega

lemma Going.load (hs : b.Going o bitmap r m j 0 k s) :
    b.Going o bitmap r m j b.unitsPerSrc (k+1) (b.loadBits o bitmap s) := by
  obtain ⟨hleft,hright,hlt⟩ := h.shifts r
  have hunits := h.units
  have hcount := hs.count
  have hsrc := hs.src
  -- the word that is read, or nothing beyond the end
  have hword : ∀ i : ℕ, i < 32 → scrBit o (b.next bitmap s).1 i = b.srcBitAt o bitmap (32*(b.firstLoad r+k)+i) := by
    intro i hi
    have hdiv : (32*(b.firstLoad r+k)+i)/32 = b.firstLoad r+k := by omega
    have hbit : memBit o bitmap (32*(b.firstLoad r+k)+i) = scrBit o (bitmap (b.firstLoad r+k)) i :=
      bit_word 32 (scrBit o) bitmap _ hi
    unfold next srcBitAt
    rw [hdiv,hbit]
    split_ifs with hend
    · have hat : s.src = b.firstLoad r+k := by omega
      rw [decide_eq_true (by omega),Bool.true_and,hat]
    · rw [decide_eq_false (by omega),Bool.false_and]
      exact BitVec.getLsbD_zero
  have hnext : (b.next bitmap s).2.src = min (b.firstLoad r+(k+1 : ℕ)) b.srcEnd ∧
      (b.next bitmap s).2.toCursor = s.toCursor ∧ (b.next bitmap s).2.bitsLeft = s.bitsLeft ∧
      ∀ a ∈ (b.next bitmap s).2.reads, a < b.srcEnd := by
    unfold next
    split_ifs with hend
    · refine ⟨by dsimp only; omega,rfl,rfl,?_⟩
      intro a ha
      obtain rfl | ha := List.mem_cons.1 ha
      · exact hend
      · exact hs.reads a ha
    · exact ⟨by dsimp only; omega,rfl,rfl,hs.reads⟩
  have hleft' := hs.left
  have hdone := hs.done
  unfold loadBits
  generalize b.next bitmap s = q at hword hnext ⊢
  obtain ⟨right,t⟩ := q
  obtain ⟨hsrc',hcursor,hkept,hreads⟩ := hnext
  dsimp only at hword hsrc' hcursor hkept hreads ⊢
  rw [← hcursor] at hdone
  rw [← hkept] at hleft'
  by_cases hzero : b.leftShift = 0
  · rw [if_neg (not_not_intro hzero)]
    refine ⟨hdone,by omega,by omega,?_,hsrc',fun hne => absurd hzero hne,hreads⟩
    intro i hi _
    have hat : 32*(b.firstLoad r+k)+i = b.base r+(j*b.pixelsPerDst : ℕ)+i := by
      unfold firstLoad
      omega
    rw [← hat]
    exact hword i (by omega)
  · rw [if_pos hzero]
    have hshift := hright hzero
    refine ⟨hdone,by omega,by omega,?_,hsrc',?_,hreads⟩
    · intro i hi hfrom
      dsimp only
      rw [scrBit_or,fbScrLeft_bit o _ _ (by omega),fbScrRight_bit o _ _ (by omega)]
      by_cases hfit : b.leftShift+i < 32
      · have hat : 32*(b.firstLoad r+k-1)+(b.leftShift+i : ℕ) = b.base r+(j*b.pixelsPerDst : ℕ)+i := by
          unfold firstLoad
          push_cast
          omega
        have hbit := hleft' hzero (b.leftShift+i) hfit (by omega)
        rw [hat] at hbit
        simp [hfit,hbit,show ¬b.rightShift ≤ i by omega]
      · have hat : 32*(b.firstLoad r+k)+(i-b.rightShift : ℕ) = b.base r+(j*b.pixelsPerDst : ℕ)+i := by
          unfold firstLoad
          omega
        have hbit := hword (i-b.rightShift) (by omega)
        rw [hat] at hbit
        simp [hfit,hbit,show b.rightShift ≤ i by omega]
    · intro _ i hi _
      have hat : 32*(b.firstLoad r+(k+1 : ℕ)-1)+(i : ℤ) = 32*(b.firstLoad r+k)+i := by
        push_cast
        omega
      rw [hat]
      exact hword i hi

lemma Going.mask_bit (hs : b.Going o bitmap r m j (avail+1) k s) {p : ℕ} (hp : p < 32)
    (hcov : (b.expanded o bitmap r).Covers (32*(b.dstBit r 0/32+j)+p)) (old : Bool) :
    (b.expanded o bitmap r).op (32*(b.dstBit r 0/32+j)+p) old =
      b.pixelOp o (32*(b.dstBit r 0/32+j)+p) (scrBit o (b.mask o b.table s) p) old := by
  have hsource := h.source_eq r j p
  have hnonneg : 0 ≤ (32*(b.dstBit r 0/32+j)+p-b.dstBit r 0)/b.dstBpp :=
    Int.ediv_nonneg (by have hle : b.dstBit r 0 ≤ _ := hcov.1; omega) (Int.natCast_nonneg _)
  have hlt : p/b.dstBpp < b.pixelsPerDst := by
    obtain ⟨hb,hn⟩ | ⟨hb,hn⟩ | ⟨hb,hn⟩ | ⟨hb,hn⟩ := h.pixels <;> rw [hb,hn] <;> omega
  have hmore : b.pixelsPerDst ≤ (avail+1)*b.pixelsPerDst := Nat.le_mul_of_pos_left _ (Nat.succ_pos _)
  have hbit := hs.bits (p/b.dstBpp) (by omega) (by omega)
  rw [← hsource] at hbit
  unfold mask table
  rw [leftStip_bit h.pixels o _ hp,hbit]
  rfl

lemma Going.use (hs : b.Going o bitmap r m j (avail+1) k s) {write : Bool} {f : FbBits → FbBits}
    (hf : write = true → ∀ old, ∀ p : ℕ, p < 32 → scrBit o (f old) p =
      if (b.expanded o bitmap r).Covers (32*(b.dstBit r 0/32+j)+p) then
        b.pixelOp o (32*(b.dstBit r 0/32+j)+p) (scrBit o (b.mask o b.table s) p) (scrBit o old p)
      else scrBit o old p)
    (hskip : write = false → b.transparent = true ∧ b.mask o b.table s = 0) :
    b.Going o bitmap r m (j+1) avail k (b.useBits o write f s) := by
  have hsucc : (j+1)*b.pixelsPerDst = j*b.pixelsPerDst+b.pixelsPerDst := Nat.succ_mul _ _
  have hsucc' : (avail+1)*b.pixelsPerDst = avail*b.pixelsPerDst+b.pixelsPerDst := Nat.succ_mul _ _
  have hcount := hs.count
  have hroom := hs.room
  refine ⟨?_,by omega,by omega,?_,hs.src,hs.left,hs.reads⟩
  · rw [Nat.cast_succ,← add_assoc]
    cases write with
    | true =>
      apply hs.done.put
      intro old p hp
      refine (hf rfl old p hp).trans ?_
      split_ifs with hcov
      · exact (hs.mask_bit h hp hcov _).symm
      · rfl
    | false =>
      apply hs.done.skip
      intro p hp hcov old
      obtain ⟨htransparent,hzero⟩ := hskip rfl
      have hplace : ((32*(b.dstBit r 0/32+j)+p)%32).toNat = p := by omega
      simp only [transparent,Bool.and_eq_true,beq_iff_eq] at htransparent
      have hnone : scrBit o (0 : FbBits) p = false := BitVec.getLsbD_zero
      rw [hs.mask_bit h hp hcov,hzero,hnone,pixelOp,hplace,htransparent.1.2,htransparent.2,hnone,scrBit_allOnes o hp]
      simp
  · intro i hi hfrom
    unfold useBits
    dsimp only
    have hbit := hs.bits (b.pixelsPerDst+i) (by omega) (by omega)
    rw [fbScrLeft_bit o _ _ (by omega),decide_eq_true (by omega),Bool.true_and,hbit]
    congr 1
    omega

lemma Going.startWord (hw : 0 < b.width) (hs : b.Going o bitmap r m 0 (avail+1) k s) (hx : b.dstBit r 0%32 ≠ 0) :
    b.Going o bitmap r m 1 avail k (b.startWord o b.table s) := by
  have hw' : (0 : ℤ) < b.width := by omega
  have hstart : (b.masks o).startmask ≠ 0 := by
    rw [masks_eq r]
    exact (startmask_ne_zero o hw').mpr hx
  unfold BltOne.startWord
  rw [if_pos hstart]
  apply hs.use h
  · intro _ old p hp
    rw [masks_eq r,leftMask_rrop o hw' hx _ _ old (opaqueStipple_of_copy _) hp,Nat.cast_zero,add_zero]
    exact if_congr Iff.rfl (rrop_bit _ old hp) rfl
  · intro hskip
    simpa [and_comm] using hskip

lemma Going.middleWord (hs : b.Going o bitmap r m j (avail+1) k s)
    (hcov : ∀ p : ℕ, p < 32 → (b.expanded o bitmap r).Covers (32*(b.dstBit r 0/32+j)+p)) :
    b.Going o bitmap r m (j+1) avail k (b.middleWord o b.table s) := by
  unfold BltOne.middleWord
  dsimp only
  split_ifs with hcopy
  · apply hs.use h
    · intro _ old p hp
      have hbit := rrop_bit (b := b) (o := o) (e := b.dstBit r 0/32+j) (b.mask o b.table s) old hp
      have hnone : scrBit o (0 : FbBits) p = false := BitVec.getLsbD_zero
      rw [opaqueStipple_of_copy _ hcopy,hnone,Bool.and_false,Bool.false_xor] at hbit
      rw [if_pos (hcov p hp),hbit]
    · simp
  · apply hs.use h
    · intro _ old p hp
      rw [if_pos (hcov p hp),stippleRRop_bit (e := b.dstBit r 0/32+j) _ _ hp]
    · intro hskip
      simp only [Bool.or_eq_false_iff,decide_eq_false_iff_not,not_not,Bool.not_eq_false'] at hskip
      refine ⟨hskip.2,?_⟩
      unfold mask
      rw [hskip.1,h.table_zero]

lemma Going.middleWords (n : ℕ) (hs : b.Going o bitmap r m j (avail+n) k s)
    (hcov : ∀ i < n, ∀ p : ℕ, p < 32 → (b.expanded o bitmap r).Covers (32*(b.dstBit r 0/32+(j+i : ℕ))+p)) :
    b.Going o bitmap r m (j+n) avail k (b.middleWords o b.table n s) := by
  induction n generalizing j s with
  | zero => exact hs
  | succ n ih =>
    have hword := Going.middleWord h hs (hcov 0 (Nat.succ_pos n))
    have hrest := ih hword fun i hi p hp => by
      have hnext := hcov (i+1) (by omega) p hp
      rwa [show j+1+i = j+(i+1) by omega]
    rwa [show j+1+n = j+(n+1) by omega] at hrest

lemma Going.avail_le (hs : b.Going o bitmap r m j avail k s) :
    avail ≤ b.unitsPerSrc ∧ j+avail = b.unitsPerSrc*k := by
  have hroom := hs.room
  have hcount := hs.count
  have hunits := h.units
  have hpos : 0 < b.pixelsPerDst := Nat.pos_of_ne_zero fun hzero => by rw [hzero] at hunits; omega
  refine ⟨Nat.le_of_mul_le_mul_right (hunits.symm ▸ hroom) hpos,Nat.eq_of_mul_eq_mul_right hpos ?_⟩
  rw [Nat.add_mul,hcount,Nat.mul_right_comm,hunits]

lemma Going.sweep (rounds : ℕ) {w n : ℕ} (hs : b.Going o bitmap r m j avail k s) (hn : n = min avail w)
    (hrounds : w ≤ rounds+n) (hused : avail < b.unitsPerSrc ∨ 0 < n)
    (hcov : ∀ i < w, ∀ p : ℕ, p < 32 → (b.expanded o bitmap r).Covers (32*(b.dstBit r 0/32+(j+i : ℕ))+p)) :
    ∃ s' l k', b.sweep o bitmap b.table rounds w n s = some s' ∧ b.Going o bitmap r m (j+w) l k' s' ∧ l < b.unitsPerSrc := by
  induction rounds generalizing w n s j avail k with
  | zero =>
    have hle := (hs.avail_le h).1
    obtain ⟨l,rfl⟩ : ∃ l, avail = l+n := ⟨avail-n,by omega⟩
    have hdone := hs.middleWords h n fun i hi => hcov i (by omega)
    obtain rfl : n = w := by omega
    refine ⟨_,l,k,?_,hdone,by omega⟩
    unfold BltOne.sweep
    rw [if_pos (Nat.sub_self n)]
  | succ rounds ih =>
    have hle := (hs.avail_le h).1
    obtain ⟨l,rfl⟩ : ∃ l, avail = l+n := ⟨avail-n,by omega⟩
    have hdone := hs.middleWords h n fun i hi => hcov i (by omega)
    unfold BltOne.sweep
    dsimp only
    by_cases hlast : w-n = 0
    · rw [if_pos hlast]
      obtain rfl : n = w := by omega
      exact ⟨_,l,k,rfl,hdone,by omega⟩
    · rw [if_neg hlast]
      obtain rfl : l = 0 := by omega
      have hunits := h.units
      have hpos : 0 < b.unitsPerSrc := Nat.pos_of_ne_zero fun hzero => by rw [hzero] at hunits; omega
      obtain ⟨s',l,k',hs',hgoing,hl⟩ := ih (w := w-n) (hdone.load h) rfl (by omega) (by omega) fun i hi p hp => by
        have hnext := hcov (n+i) (by omega) p hp
        rwa [← Nat.add_assoc] at hnext
      refine ⟨s',l,k',hs',?_,hl⟩
      rwa [show j+n+(w-n) = j+w by omega] at hgoing

lemma Going.endWord (hw : 0 < b.width) (hs : b.Going o bitmap r m (b.nDst o) avail k s) (hused : avail < b.unitsPerSrc) :
    (∀ a, memBit o (b.endWord o bitmap b.table s).mem a = (b.expanded o bitmap r).value m a) ∧
    (b.endWord o bitmap b.table s).dst = b.dstBit r 0/32+b.nDst o ∧
    (b.endWord o bitmap b.table s).src = min (b.firstLoad r+(k+if b.endNeedsLoad o then 1 else 0 : ℕ)) b.srcEnd ∧
    ∀ a ∈ (b.endWord o bitmap b.table s).reads, a < b.srcEnd := by
  have hw' : (0 : ℤ) < b.width := by omega
  obtain ⟨hfirst,hlast⟩ := nDst_eq (o := o) hw r
  obtain ⟨-,hcount⟩ := hs.avail_le h
  unfold BltOne.endWord
  by_cases hend : (b.masks o).endmask = 0
  · have hno : b.endNeedsLoad o = false := by simp [endNeedsLoad,hend]
    rw [if_neg (not_not_intro hend)] at hlast
    rw [if_neg (not_not_intro hend),hno]
    refine ⟨fun a => hs.done.finish ?_ a,hs.done.dst,hs.src,hs.reads⟩
    change b.dstBit r 0+b.width ≤ _
    omega
  · rw [if_pos hend] at hlast
    rw [if_pos hend]
    obtain ⟨l,hmore⟩ : ∃ l, b.Going o bitmap r m (b.nDst o) (l+1) (k+if b.endNeedsLoad o then 1 else 0)
        (if b.endNeedsLoad o then b.loadBits o bitmap s else s) := by
      have hneeds : b.endNeedsLoad o = true ↔ avail = 0 := by
        have hmod : (b.nDst o+avail)%b.unitsPerSrc = 0 := by rw [hcount,Nat.mul_mod_right]
        simp only [endNeedsLoad,hend,ne_eq,not_false_eq_true,decide_true,Bool.true_and,beq_iff_eq]
        constructor
        · intro hzero
          rwa [Nat.add_mod,hzero,Nat.zero_add,Nat.mod_mod,Nat.mod_eq_of_lt hused] at hmod
        · rintro rfl
          exact hmod
      split_ifs with hload
      · obtain rfl := hneeds.1 hload
        refine ⟨b.unitsPerSrc-1,?_⟩
        rw [Nat.sub_add_cancel (by omega)]
        exact hs.load h
      · refine ⟨avail-1,?_⟩
        rw [Nat.sub_add_cancel (by have := mt hneeds.2 hload; omega)]
        exact hs
    dsimp only
    generalize (if b.endNeedsLoad o = true then b.loadBits o bitmap s else s) = t at hmore ⊢
    have hstore : ∀ old, ∀ p : ℕ, p < 32 → scrBit o (fbDoRightMaskByteRRop o old (b.masks o).endbyte (b.masks o).endmask
        (fbOpaqueStipple (b.mask o b.table t) b.fgand b.bgand) (fbOpaqueStipple (b.mask o b.table t) b.fgxor b.bgxor)) p =
        if (b.expanded o bitmap r).Covers (32*(b.dstBit r 0/32+b.nDst o)+p) then
          b.pixelOp o (32*(b.dstBit r 0/32+b.nDst o)+p) (scrBit o (b.mask o b.table t) p) (scrBit o old p)
        else scrBit o old p := by
      intro old p hp
      have hne : (fbMaskBitsBytes o (b.dstBit r 0) b.width b.copy).endmask ≠ 0 := masks_eq (o := o) (b := b) r ▸ hend
      have hright := rightMask_rrop o hw' _ (fbOpaqueStipple (b.mask o b.table t) b.fgxor b.bgxor) old
        (opaqueStipple_of_copy (b.mask o b.table t)) hp hne
      rw [← masks_eq r,← hfirst] at hright
      exact hright.trans (if_congr Iff.rfl (rrop_bit _ old hp) rfl)
    generalize hwrite : (decide (b.mask o b.table t ≠ 0) || !b.transparent) = write
    have hdone := (Going.use h hmore (fun _ : write = true => hstore) fun hskip => by
      rw [hskip] at hwrite
      simpa [and_comm] using hwrite).done
    have hle : (b.expanded o bitmap r).x+(b.expanded o bitmap r).width ≤ 32*(b.dstBit r 0/32+(b.nDst o+1 : ℕ)) := by
      change b.dstBit r 0+b.width ≤ _
      push_cast
      omega
    have hmem := hdone.finish hle
    cases write with
    | true => exact ⟨hmem,hmore.done.dst,hmore.src,hmore.reads⟩
    | false => exact ⟨hmem,hmore.done.dst,hmore.src,hmore.reads⟩

lemma Going.words (hw : 0 < b.width) (hs : b.Going o bitmap r m 0 0 0 s) :
    ∃ s' l k, b.words o bitmap b.table s = some s' ∧ b.Going o bitmap r m (b.nDst o) l k s' ∧ l < b.unitsPerSrc := by
  have hw' : (0 : ℤ) < b.width := by omega
  have hunits := h.units
  have hpos : 0 < b.unitsPerSrc := Nat.pos_of_ne_zero fun hzero => by rw [hzero] at hunits; omega
  obtain ⟨hfirst,-⟩ := nDst_eq (o := o) hw r
  have hmiddle : ∀ i < (b.masks o).nmiddle, ∀ p : ℕ, p < 32 →
      (b.expanded o bitmap r).Covers (32*(firstFull (b.dstBit r 0)+i)+p) := by
    intro i hi p hp
    rw [masks_eq r] at hi
    exact middle_covered o hi hp
  unfold BltOne.words
  dsimp only
  split_ifs with hn hx
  · obtain ⟨l,hl⟩ : ∃ l, b.unitsPerSrc = l+1 := ⟨b.unitsPerSrc-1,by omega⟩
    have hload := hs.load h
    rw [hl] at hload
    have hmod : b.dstBit r 0%32 ≠ 0 := by
      rw [masks_eq r] at hx
      exact (startmask_ne_zero o hw').mp hx
    have hnDst : b.nDst o = (b.masks o).nmiddle+1 := by rw [nDst,if_pos hx]
    have hword := hload.startWord h hw hmod
    obtain ⟨s',l',k',hs',hgoing,hused⟩ := hword.sweep h (b.nDst o) (w := b.nDst o-1) (n := min b.unitsPerSrc (b.nDst o)-1)
      (by omega) (by omega) (.inl (by omega)) fun i hi p hp => by
        have hcov := hmiddle i (by omega) p hp
        rwa [show b.dstBit r 0/32+((1+i : ℕ) : ℤ) = firstFull (b.dstBit r 0)+i by push_cast; omega]
    refine ⟨s',l',k',hs',?_,hused⟩
    rwa [show 1+(b.nDst o-1) = b.nDst o by omega] at hgoing
  · have hnDst : b.nDst o = (b.masks o).nmiddle := by rw [nDst,if_neg hx,add_zero]
    have hstart : b.startWord o b.table (b.loadBits o bitmap s) = b.loadBits o bitmap s := by
      unfold BltOne.startWord
      rw [if_neg hx]
    obtain ⟨s',l',k',hs',hgoing,hused⟩ := (hs.load h).sweep h (b.nDst o) (w := b.nDst o-0)
      (n := min b.unitsPerSrc (b.nDst o)-0) (by omega) (by omega) (.inr (by omega)) fun i hi p hp => by
        have hcov := hmiddle i (by omega) p hp
        rwa [show b.dstBit r 0/32+((0+i : ℕ) : ℤ) = firstFull (b.dstBit r 0)+i by push_cast; omega]
    refine ⟨s',l',k',by rw [hstart]; exact hs',?_,hused⟩
    rwa [show 0+(b.nDst o-0) = b.nDst o by omega] at hgoing
  · obtain hnone : b.nDst o = 0 := by omega
    exact ⟨s,0,0,rfl,by rwa [hnone],hpos⟩

lemma WellPlaced.row_within (hw : 0 < b.width) (hr : r < b.height) :
    b.srcBit r 0+b.width/b.dstBpp ≤ 32*(b.src+r*b.srcStride+b.srcStride) ∧ 0 < (b.width : ℤ)/b.dstBpp ∧ 0 < b.srcStride ∧
    b.src+r*b.srcStride+b.srcStride ≤ b.srcEnd ∧ (r+1 < b.height → b.src+r*b.srcStride+2*b.srcStride ≤ b.srcEnd) := by
  have hleft := h.srcLeft
  have hright := h.srcRight
  have hpixels : 0 < (b.width : ℤ)/b.dstBpp := by
    have hwidth := h.width
    obtain hb | hb | hb | hb := h.depth <;> rw [hb] at hwidth ⊢ <;> omega
  have hstride : 0 < b.srcStride := by omega
  have hmul : ∀ l : ℕ, l ≤ b.height → (l : ℤ)*b.srcStride ≤ b.height*b.srcStride := fun l hl =>
    Int.mul_le_mul_of_nonneg_right (by omega) hstride.le
  have hone := hmul (r+1) hr
  refine ⟨?_,hpixels,hstride,?_,fun hmore => ?_⟩
  · unfold srcBit
    push_cast
    omega
  · unfold srcEnd
    rw [Nat.cast_succ,Int.add_mul,Int.one_mul] at hone
    omega
  · have htwo := hmul (r+2) hmore
    unfold srcEnd
    rw [Nat.cast_add,Int.add_mul] at htwo
    push_cast at htwo
    omega

lemma row_expanded (o : BitOrder) (bitmap : ℤ → FbBits) (hw : 0 < b.width) (hr : r < b.height) (hdst : s.dst = b.dstBit r 0/32) (hsrc : s.src = b.srcBit r 0/32)
    (hreads : ∀ a ∈ s.reads, a < b.srcEnd) :
    ∃ s', b.row o bitmap b.table s = some s' ∧ (∀ a, memBit o s'.mem a = (b.expanded o bitmap r).value s.mem a) ∧
      s'.dst = b.dstBit r 0/32+b.nDst o ∧ s'.src = min (b.srcBit r 0/32+b.srcinc o) b.srcEnd ∧
      ∀ a ∈ s'.reads, a < b.srcEnd := by
  have hw' : (0 : ℤ) < b.width := by omega
  obtain ⟨hin,hpixels,hstride,hbefore,-⟩ := h.row_within hw hr
  obtain ⟨hleft,-,-⟩ := h.shifts r
  obtain ⟨hnonneg,hsmall,-⟩ := h.dstS_eq
  have hplace : b.srcBit r 0%32 = b.srcX%32 := by
    unfold srcBit
    omega
  have hbase : b.base r = b.srcBit r 0-b.dstS := rfl
  have hload : b.firstLoad r = b.srcBit r 0/32+if b.dstS < b.srcX%32 then 1 else 0 := by
    unfold firstLoad
    split_ifs <;> omega
  have hstart : b.Going o bitmap r s.mem 0 0 0 (if b.dstS < b.srcX%32 then
      { s with bitsLeft := bitmap s.src, src := s.src+1, reads := s.src::s.reads } else { s with bitsLeft := 0 }) := by
    have hdone : (b.expanded o bitmap r).At s.mem (b.dstBit r 0/32+(0 : ℕ)) s.toCursor := by
      refine ⟨by rw [hdst,Nat.cast_zero,add_zero],fun a ha => ?_,fun a _ => rfl⟩
      refine (if_neg fun hcov => ?_).symm
      have hle : b.dstBit r 0 ≤ a := hcov.1
      omega
    split_ifs at hload ⊢ with hlook
    · refine ⟨hdone,by omega,by omega,by omega,by dsimp only; omega,?_,?_⟩
      · intro _ i hi _
        have hdiv : (32*(b.firstLoad r+(0 : ℕ)-1)+i)/32 = s.src := by omega
        have hat : 32*(b.firstLoad r+(0 : ℕ)-1)+(i : ℤ) = 32*s.src+i := by omega
        have hbit : memBit o bitmap (32*s.src+i) = scrBit o (bitmap s.src) i := bit_word 32 (scrBit o) bitmap _ hi
        unfold srcBitAt
        rw [hdiv,hat,hbit,decide_eq_true (by omega),Bool.true_and]
      · intro a ha
        obtain rfl | ha := List.mem_cons.1 ha
        · omega
        · exact hreads a ha
    · exact ⟨hdone,by omega,by omega,by omega,by dsimp only; omega,fun _ i hi hfrom => by omega,hreads⟩
  obtain ⟨t,ht⟩ : ∃ t, t = (if b.dstS < b.srcX%32 then
      { s with bitsLeft := bitmap s.src, src := s.src+1, reads := s.src::s.reads } else { s with bitsLeft := 0 }) := ⟨_,rfl⟩
  rw [← ht] at hstart
  obtain ⟨s',l,k,hs',hgoing,hused⟩ := hstart.words h hw
  have hrow : b.row o bitmap b.table s = some (b.endWord o bitmap b.table s') := by
    unfold row
    rw [← ht]
    exact congrArg (Option.bind · fun s => some (b.endWord o bitmap b.table s)) hs'
  obtain ⟨-,hcount⟩ := hgoing.avail_le h
  obtain ⟨hmem,hdst',hsrc',hreads'⟩ := hgoing.endWord h hw hused
  refine ⟨_,hrow,hmem,hdst',?_,hreads'⟩
  have hloads : (b.nDst o+b.unitsPerSrc-1)/b.unitsPerSrc = k := by
    apply Nat.div_eq_of_lt_le
    · rw [Nat.mul_comm]
      omega
    · rw [Nat.succ_mul,Nat.mul_comm]
      omega
  rw [hsrc',hload,srcinc,hloads]
  push_cast
  split_ifs <;> omega

lemma WellPlaced.srcinc_le (hw : 0 < b.width) (hr : r < b.height) :
    b.srcBit r 0/32+b.srcinc o ≤ b.src+r*b.srcStride+b.srcStride+1 := by
  obtain ⟨hin,-,-⟩ := h.row_within hw hr
  obtain ⟨-,hlast⟩ := nDst_eq (o := o) hw r
  obtain ⟨hnonneg,-,hmul⟩ := h.dstS_eq
  have hwidth := h.width
  have hplace : b.dstBit r 0%32 = b.dstX%32 := by
    unfold dstBit
    omega
  have hplace' : b.srcBit r 0%32 = b.srcX%32 := by
    unfold srcBit
    omega
  have hunits : b.unitsPerSrc = b.dstBpp := by
    unfold unitsPerSrc
    obtain ⟨hb,hn⟩ | ⟨hb,hn⟩ | ⟨hb,hn⟩ | ⟨hb,hn⟩ := h.pixels <;> rw [hb,hn]
  unfold srcinc endNeedsLoad
  rw [hunits]
  simp only [Bool.and_eq_true,decide_eq_true_eq,beq_iff_eq]
  by_cases hend : (b.masks o).endmask = 0
  · rw [if_neg (not_not_intro hend)] at hlast
    simp only [hend,ne_eq,not_true_eq_false,false_and,if_false]
    obtain hb | hb | hb | hb := h.depth <;> rw [hb] at hin hmul hwidth ⊢ <;> split_ifs <;> push_cast <;> omega
  · rw [if_pos hend] at hlast
    obtain hb | hb | hb | hb := h.depth <;> rw [hb] at hin hmul hwidth ⊢ <;> split_ifs <;> push_cast <;> omega

lemma WellPlaced.covers_unique {r' : ℕ} {a : ℤ} (hr : r < b.height) (hr' : r' < b.height)
    (hcov : (b.expanded o bitmap r).Covers a) (hcov' : (b.expanded o bitmap r').Covers a) : r = r' := by
  obtain ⟨hle,hlt⟩ : b.dstBit r 0 ≤ a ∧ a < b.dstBit r 0+b.width := hcov
  obtain ⟨hle',hlt'⟩ : b.dstBit r' 0 ≤ a ∧ a < b.dstBit r' 0+b.width := hcov'
  apply h.rows r hr r' hr' (a-b.dstBit r 0).toNat (by omega) (a-b.dstBit r' 0).toNat (by omega)
  unfold dstBit at *
  omega

lemma rows_expanded (o : BitOrder) (bitmap : ℤ → FbBits) (hw : 0 < b.width) (n : ℕ) (hr : r+n = b.height) (hdst : s.dst = b.dstBit r 0/32)
    (hsrc : 0 < n → s.src = b.srcBit r 0/32) (hreads : ∀ a ∈ s.reads, a < b.srcEnd) :
    ∃ s', b.rows o bitmap b.table n s = some s' ∧
      (∀ r', r ≤ r' → r' < b.height → ∀ a, (b.expanded o bitmap r').Covers a →
        memBit o s'.mem a = (b.expanded o bitmap r').op a (memBit o s.mem a)) ∧
      (∀ a, (∀ r', r ≤ r' → r' < b.height → ¬(b.expanded o bitmap r').Covers a) →
        memBit o s'.mem a = memBit o s.mem a) ∧ ∀ a ∈ s'.reads, a < b.srcEnd := by
  induction n generalizing r s with
  | zero => exact ⟨s,rfl,fun r' hle hlt => by omega,fun _ _ => rfl,hreads⟩
  | succ n ih =>
    obtain ⟨t,ht,hvalue,htdst,htsrc,htreads⟩ := row_expanded h o bitmap hw (by omega) hdst (hsrc (Nat.succ_pos n)) hreads
    have hinc := h.srcinc_le (o := o) hw (r := r) (by omega)
    obtain ⟨-,-,hstride,-,hmore⟩ := h.row_within hw (r := r) (by omega)
    have hline : b.dstBit (r+1) 0 = b.dstBit r 0+32*b.dstStride := by
      unfold dstBit
      rw [Nat.cast_succ,Int.add_mul,Int.one_mul]
      omega
    have hline' : b.srcBit (r+1) 0 = b.srcBit r 0+32*b.srcStride := by
      unfold srcBit
      rw [Nat.cast_succ,Int.add_mul,Int.one_mul]
      omega
    obtain ⟨s',hs',hdone,hothers,hreads'⟩ := ih
      (s := { t with dst := t.dst+(b.dstStride-b.nDst o), src := t.src+(b.srcStride-b.srcinc o) }) (r := r+1) (by omega)
      (by dsimp only; omega) (fun hn => by have hend := hmore (by omega); dsimp only; omega) htreads
    refine ⟨s',?_,?_,?_,hreads'⟩
    · unfold rows
      rw [ht]
      exact hs'
    · intro r' hle hlt a hcov
      obtain rfl | hlater : r = r' ∨ r+1 ≤ r' := by omega
      · rw [hothers a fun r' hle' hlt' hcov' => by have := h.covers_unique hlt hlt' hcov hcov'; omega]
        exact (hvalue a).trans (if_pos hcov)
      · rw [hdone r' hlater hlt a hcov]
        congr 1
        exact (hvalue a).trans (if_neg fun hcov' => by have := h.covers_unique (by omega) hlt hcov' hcov; omega)
    · intro a hnone
      rw [hothers a fun r' hle hlt => hnone r' (by omega) hlt]
      exact (hvalue a).trans (if_neg (hnone r le_rfl (by omega)))

omit h in
lemma masks_empty (hw : b.width = 0) :
    (b.masks o).startmask = 0 ∧ (b.masks o).nmiddle = 0 ∧ (b.masks o).endmask = 0 := by
  unfold masks
  rw [hw,Nat.cast_zero]
  by_cases hx : b.dstX%32%32 = 0
  · obtain ⟨hstart,hmiddle,hend⟩ := masks_aligned o (w := 0) (c := b.copy) hx
    refine ⟨hstart,hmiddle,?_⟩
    rw [hend,add_zero]
    exact of_not_not fun hne => (fbRightMask_ne_zero o _).mp hne hx
  · obtain ⟨hstart,hmiddle,hend⟩ := masks_single o (w := 0) (c := b.copy) hx (by omega)
    refine ⟨?_,hmiddle,hend⟩
    rw [hstart,add_zero]
    refine of_not_not fun hne => ?_
    obtain ⟨q,hq,hbit⟩ := (ne_zero_iff_bit o _).mp hne
    rw [scrBit_and,Bool.and_eq_true,fbLeftMask_bit o _ hq,fbRightMask_bit o _ hq] at hbit
    omega

lemma rows_empty (o : BitOrder) (bitmap : ℤ → FbBits) (hw : b.width = 0) (n : ℕ) (hr : r+n = b.height)
    (hsrc : s.src = b.srcBit r 0/32) (hreads : ∀ a ∈ s.reads, a < b.srcEnd) :
    ∃ s', b.rows o bitmap b.table n s = some s' ∧ s'.mem = s.mem ∧ ∀ a ∈ s'.reads, a < b.srcEnd := by
  obtain ⟨hstart,hmiddle,hend⟩ := masks_empty (o := o) hw
  obtain ⟨hnonneg,-,-⟩ := h.dstS_eq
  have hleft := h.srcLeft
  have hright := h.srcRight
  rw [hw,Nat.cast_zero,Int.zero_ediv,add_zero] at hright
  have hn : b.nDst o = 0 := by
    unfold nDst
    rw [hmiddle,hstart]
    rfl
  have hunits := h.units
  have hpos : 0 < b.unitsPerSrc := Nat.pos_of_ne_zero fun hzero => by rw [hzero] at hunits; omega
  have hinc : b.srcinc o = if b.dstS < b.srcX%32 then 1 else 0 := by
    unfold srcinc endNeedsLoad
    rw [hn,hend,Nat.div_eq_of_lt (by omega)]
    simp
  induction n generalizing r s with
  | zero => exact ⟨s,rfl,rfl,hreads⟩
  | succ n ih =>
    have hrow : b.row o bitmap b.table s = some (if b.dstS < b.srcX%32 then
        { s with bitsLeft := bitmap s.src, src := s.src+1, reads := s.src::s.reads } else { s with bitsLeft := 0 }) := by
      have hwords : ∀ t, b.words o bitmap b.table t = some t := by
        intro t
        unfold words
        rw [hn]
        exact if_neg (not_not_intro (Nat.min_zero _))
      unfold row
      change Option.bind (b.words o bitmap b.table _) _ = _
      rw [hwords,Option.bind_some,endWord,if_neg (not_not_intro hend)]
    have hline : b.srcBit (r+1) 0 = b.srcBit r 0+32*b.srcStride := by
      unfold srcBit
      rw [Nat.cast_succ,Int.add_mul,Int.one_mul]
      omega
    have hbefore : b.dstS < b.srcX%32 → s.src < b.srcEnd := by
      intro hlook
      have hmul := Int.mul_le_mul_of_nonneg_right (show ((r+1 : ℕ) : ℤ) ≤ b.height by omega) (show 0 ≤ b.srcStride by omega)
      rw [hsrc]
      unfold srcEnd srcBit
      rw [Nat.cast_succ,Int.add_mul,Int.one_mul] at hmul
      push_cast
      omega
    unfold rows
    rw [hrow,hinc,hn]
    change ∃ s', b.rows o bitmap b.table n _ = some s' ∧ _
    split_ifs with hlook
    · refine ih (r := r+1) (by omega) (by dsimp only; push_cast; omega) fun a ha => ?_
      obtain rfl | ha := List.mem_cons.1 ha
      · exact hbefore hlook
      · exact hreads a ha
    · exact ih (r := r+1) (by omega) (by dsimp only; push_cast; omega) hreads

lemma WellPlaced.fbBits_eq : b.fbBits? = some b.table := by
  unfold fbBits?
  obtain ⟨hb,hn⟩ | ⟨hb,hn⟩ | ⟨hb,hn⟩ | ⟨hb,hn⟩ := h.pixels <;> rw [hn] <;>
    exact congrArg some (funext fun i => by rw [table,hb,hn]; rfl)

end Words

end BltOne

/-- `fbBltOne` expands every bit of the bitmap to its pixel, changes no other bit and does not read beyond the bitmap. -/
theorem fbBltOne_expands (o : BitOrder) (bitmap : ℤ → FbBits) (b : BltOne) (mem : ℤ → FbBits) (h : b.WellPlaced) :
    ∃ mem' reads, fbBltOne o bitmap b mem = some (mem',reads) ∧
      (∀ r < b.height, ∀ p < b.width/b.dstBpp, ∀ j < b.dstBpp, memBit o mem' (b.dstBit r (p*b.dstBpp+j)) =
        if memBit o bitmap (b.srcBit r p) then
          (memBit o mem (b.dstBit r (p*b.dstBpp+j)) && scrBit o b.fgand (b.dstBit r (p*b.dstBpp+j)%32).toNat) ^^
            scrBit o b.fgxor (b.dstBit r (p*b.dstBpp+j)%32).toNat
        else
          (memBit o mem (b.dstBit r (p*b.dstBpp+j)) && scrBit o b.bgand (b.dstBit r (p*b.dstBpp+j)%32).toNat) ^^
            scrBit o b.bgxor (b.dstBit r (p*b.dstBpp+j)%32).toNat) ∧
      (∀ a, (∀ r < b.height, ∀ i < b.width, a ≠ b.dstBit r i) → memBit o mem' a = memBit o mem a) ∧
      ∀ k ∈ reads, k < b.src+b.height*b.srcStride := by
  have hsrc : b.src+b.srcX/32 = b.srcBit 0 0/32 := by
    unfold BltOne.srcBit
    push_cast
    omega
  have hdst : b.dst+b.dstX/32 = b.dstBit 0 0/32 := by
    unfold BltOne.dstBit
    push_cast
    omega
  unfold fbBltOne
  rw [h.fbBits_eq]
  obtain hw | hw := Nat.eq_zero_or_pos b.width
  · obtain ⟨s,hs,hmem,hreads⟩ := BltOne.rows_empty (r := 0) (s := ⟨⟨mem,b.dst+b.dstX/32⟩,b.src+b.srcX/32,0,0,[]⟩) h o bitmap
      hw b.height (Nat.zero_add _) hsrc (by simp)
    refine ⟨s.mem,s.reads,congrArg (Option.bind · _) hs,?_,fun a _ => by rw [hmem],hreads⟩
    intro r _ p hp
    rw [hw,Nat.zero_div] at hp
    exact absurd hp (Nat.not_lt_zero p)
  · obtain ⟨s,hs,hdone,hothers,hreads⟩ := BltOne.rows_expanded (r := 0)
      (s := ⟨⟨mem,b.dst+b.dstX/32⟩,b.src+b.srcX/32,0,0,[]⟩) h o bitmap hw b.height (Nat.zero_add _) hdst (fun _ => hsrc)
      (by simp)
    refine ⟨s.mem,s.reads,congrArg (Option.bind · _) hs,?_,?_,hreads⟩
    · intro r hr p hp j hj
      obtain ⟨hin,-,-,hbefore,-⟩ := h.row_within hw hr
      have hbpp : 0 < b.dstBpp := by omega
      have hmul : (p+1)*b.dstBpp ≤ b.width := (Nat.mul_le_mul_right _ hp).trans (Nat.div_mul_le_self ..)
      rw [Nat.succ_mul] at hmul
      have hat : b.dstBit r (p*b.dstBpp+j) = b.dstBit r 0+(p*b.dstBpp+j : ℕ) := by
        unfold BltOne.dstBit
        rw [Nat.cast_zero,add_zero]
      have hcov : (b.expanded o bitmap r).Covers (b.dstBit r (p*b.dstBpp+j)) := by
        unfold Sweep.Covers BltOne.expanded
        dsimp only
        omega
      have hpixel : (b.dstBit r (p*b.dstBpp+j)-b.dstBit r 0)/b.dstBpp = p := by
        rw [hat,add_sub_cancel_left,← Int.natCast_div,Nat.mul_comm,Nat.mul_add_div hbpp,Nat.div_eq_of_lt hj,Nat.add_zero]
      have hsource : b.srcBit r 0+p = b.srcBit r p := by
        unfold BltOne.srcBit
        rw [Nat.cast_zero,add_zero]
      have hp' : (p : ℤ) < b.width/b.dstBpp := by exact_mod_cast hp
      have hset : b.srcBitAt o bitmap (b.srcBit r p) = memBit o bitmap (b.srcBit r p) := by
        unfold BltOne.srcBitAt
        rw [decide_eq_true (by omega),Bool.true_and]
      refine (hdone r (Nat.zero_le r) hr _ hcov).trans ?_
      unfold BltOne.expanded BltOne.pixelOp
      dsimp only
      rw [hpixel,hsource,hset]
    · intro a ha
      apply hothers
      intro r _ hr hcov
      obtain ⟨hle,hlt⟩ : b.dstBit r 0 ≤ a ∧ a < b.dstBit r 0+b.width := hcov
      refine ha r hr (a-b.dstBit r 0).toNat (by omega) ?_
      unfold BltOne.dstBit at *
      omega

def fivePixels : BltOne := ⟨0,1,13,0,3,8,8,40,2,0,0xAAAAAAAA,fbAllOnes,0⟩

theorem fbBltOne_expands_fivePixels :
    ∃ mem' reads, fbBltOne .lsbFirst (fun _ => 0x0001A000) fivePixels (fun _ => 0) = some (mem',reads) ∧
      memBit .lsbFirst mem' (fivePixels.dstBit 1 (2*8+3)) = true := by
  have hplaced : fivePixels.WellPlaced := by
    refine ⟨.inr (.inl rfl),by decide,by decide,by decide,by decide,?_⟩
    intro r hr r' hr' i hi i' hi' heq
    simp only [fivePixels,BltOne.dstBit] at *
    omega
  obtain ⟨mem',reads,hs,hbits,-⟩ := fbBltOne_expands .lsbFirst (fun _ => 0x0001A000) fivePixels (fun _ => 0) hplaced
  exact ⟨mem',reads,hs,(hbits 1 (by decide) 2 (by decide) 3 (by decide)).trans (by decide)⟩

end Xlibre.Fb
