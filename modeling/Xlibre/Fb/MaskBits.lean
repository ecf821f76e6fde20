import Mathlib.Data.BitVec
import Mathlib.Tactic.IntervalCases
import Mathlib.Tactic.Linarith

/-! The sixteen raster operations and the and-xor form that the frame buffer code gives them. -/
namespace Xlibre.Fb

/-- `FbBits`, one word of a frame buffer. -/
abbrev FbBits := BitVec 32

def fbAllOnes : FbBits := BitVec.allOnes 32

@[simp] lemma fbAllOnes_bit (p : ℕ) : fbAllOnes.getLsbD p = decide (p < 32) :=
  BitVec.getLsbD_allOnes

/-- The raster operations of `X.h`. -/
inductive Alu
  | clear | and | andReverse | copy | andInverted | noop | xor | or
  | nor | equiv | invert | orReverse | copyInverted | orInverted | nand | set
  deriving DecidableEq, Repr

/-- What an operation makes of one source and one destination bit. -/
def Alu.apply : Alu → Bool → Bool → Bool
  | .clear, _, _ => false
  | .and, s, d => s && d
  | .andReverse, s, d => s && !d
  | .copy, s, _ => s
  | .andInverted, s, d => !s && d
  | .noop, _, d => d
  | .xor, s, d => s ^^ d
  | .or, s, d => s || d
  | .nor, s, d => !s && !d
  | .equiv, s, d => !s ^^ d
  | .invert, _, d => !d
  | .orReverse, s, d => s || !d
  | .copyInverted, s, _ => !s
  | .orInverted, s, d => !s || d
  | .nand, s, d => !s || !d
  | .set, _, _ => true

/-- `FbMergeRopRec`: the `_ca1`, `_cx1`, `_ca2`, `_cx2` of the macros. -/
structure FbMergeRopRec where
  ca1 : FbBits
  cx1 : FbBits
  ca2 : FbBits
  cx2 : FbBits
  deriving DecidableEq, Repr

/-- The table `FbMergeRopBits`, with `O` and `I` for no bits and all bits. -/
def fbMergeRopBits (alu : Alu) : FbMergeRopRec :=
  let O : FbBits := 0
  let I := fbAllOnes
  match alu with
  | .clear => ⟨O,O,O,O⟩
  | .and => ⟨I,O,O,O⟩
  | .andReverse => ⟨I,O,I,O⟩
  | .copy => ⟨O,O,I,O⟩
  | .andInverted => ⟨I,I,O,O⟩
  | .noop => ⟨O,I,O,O⟩
  | .xor => ⟨O,I,I,O⟩
  | .or => ⟨I,I,I,O⟩
  | .nor => ⟨I,I,I,I⟩
  | .equiv => ⟨O,I,I,I⟩
  | .invert => ⟨O,I,O,I⟩
  | .orReverse => ⟨I,I,O,I⟩
  | .copyInverted => ⟨O,O,I,I⟩
  | .orInverted => ⟨I,O,I,I⟩
  | .nand => ⟨I,O,O,I⟩
  | .set => ⟨O,O,O,I⟩

/-- `FbInitializeMergeRop(alu, pm)` -/
def fbInitializeMergeRop (alu : Alu) (pm : FbBits) : FbMergeRopRec :=
  let b := fbMergeRopBits alu
  ⟨b.ca1 &&& pm, b.cx1 ||| ~~~pm, b.ca2 &&& pm, b.cx2 &&& pm⟩

namespace FbMergeRopRec

variable (rop : FbMergeRopRec)

/-- The `and` word that the macros compute from the source bits. -/
def and (src : FbBits) : FbBits := (src &&& rop.ca1) ^^^ rop.cx1

/-- The `xor` word that the macros compute from the source bits; this is also
`FbDoDestInvarientMergeRop(src)`. -/
def xor (src : FbBits) : FbBits := (src &&& rop.ca2) ^^^ rop.cx2

/-- `FbDestInvarientMergeRop()` -/
def destInvarient : Bool := rop.ca1 == 0 && rop.cx1 == 0

/-- `FbDoMergeRop(src, dst)` -/
def doMergeRop (src dst : FbBits) : FbBits := (dst &&& rop.and src) ^^^ rop.xor src

end FbMergeRopRec

/-- `FbDoRRop(dst, and, xor)` -/
def fbDoRRop (dst and xor : FbBits) : FbBits := (dst &&& and) ^^^ xor

/-- `FbDoMaskRRop(dst, and, xor, mask)` -/
def fbDoMaskRRop (dst and xor mask : FbBits) : FbBits := (dst &&& (and ||| ~~~mask)) ^^^ (xor &&& mask)

/-- The operation on one bit, where the plane mask has the bit `m`. -/
def merged (alu : Alu) (m s d : Bool) : Bool := if m then alu.apply s d else d

lemma and_xor_bit (alu : Alu) (pm src : FbBits) {p : ℕ} (hp : p < 32) (d : Bool) :
    ((d && ((fbInitializeMergeRop alu pm).and src).getLsbD p) ^^ ((fbInitializeMergeRop alu pm).xor src).getLsbD p) =
      merged alu (pm.getLsbD p) (src.getLsbD p) d := by
  have hzero : (0 : FbBits).getLsbD p = false := by simp
  cases alu <;>
    simp only [FbMergeRopRec.and,FbMergeRopRec.xor,merged,fbInitializeMergeRop,fbMergeRopBits,Alu.apply,
      BitVec.getLsbD_xor,BitVec.getLsbD_and,BitVec.getLsbD_or,BitVec.getLsbD_not,fbAllOnes_bit,hzero,hp] <;>
    generalize pm.getLsbD p = m <;> generalize src.getLsbD p = s <;>
    cases m <;> cases s <;> cases d <;> rfl

lemma doMergeRop_bit (alu : Alu) (pm src dst : FbBits) {p : ℕ} (hp : p < 32) :
    ((fbInitializeMergeRop alu pm).doMergeRop src dst).getLsbD p =
      merged alu (pm.getLsbD p) (src.getLsbD p) (dst.getLsbD p) := by
  rw [← and_xor_bit alu pm src hp]
  simp only [FbMergeRopRec.doMergeRop,BitVec.getLsbD_xor,BitVec.getLsbD_and]

lemma and_eq_zero {rop : FbMergeRopRec} (h : rop.destInvarient = true) (src : FbBits) : rop.and src = 0 := by
  simp only [FbMergeRopRec.destInvarient,Bool.and_eq_true,beq_iff_eq] at h
  simp [FbMergeRopRec.and,h.1,h.2]

lemma xor_bit_of_destInvarient (alu : Alu) (pm src : FbBits)
    (h : (fbInitializeMergeRop alu pm).destInvarient = true) {p : ℕ} (hp : p < 32) (d : Bool) :
    ((fbInitializeMergeRop alu pm).xor src).getLsbD p = merged alu (pm.getLsbD p) (src.getLsbD p) d := by
  rw [← and_xor_bit alu pm src hp d,and_eq_zero h]
  simp

end Xlibre.Fb

/-! The masks of the first and last word of a row, and the stores of whole bytes in their place. -/
namespace Xlibre.Fb

/-- `BITMAP_BIT_ORDER`: the host's byte order decides which end of a word is leftmost on the screen. -/
inductive BitOrder
  | lsbFirst | msbFirst
  deriving DecidableEq, Repr

/-- The place in a word of the bit that is `p`-th from the left. -/
def BitOrder.place : BitOrder → ℕ → ℕ
  | .lsbFirst, p => p
  | .msbFirst, p => 31-p

variable (o : BitOrder)

/-- The bit of a word that is `p`-th from the left on the screen. -/
def scrBit (x : FbBits) (p : ℕ) : Bool := x.getLsbD (o.place p)

/-- `FbScrLeft(x, n)` -/
def fbScrLeft (x : FbBits) (n : ℕ) : FbBits :=
  match o with
  | .lsbFirst => x >>> n
  | .msbFirst => x <<< n

/-- `FbScrRight(x, n)` -/
def fbScrRight (x : FbBits) (n : ℕ) : FbBits :=
  match o with
  | .lsbFirst => x <<< n
  | .msbFirst => x >>> n

/-- `FbLeftMask(x)` -/
def fbLeftMask (x : ℤ) : FbBits := if x%32 ≠ 0 then fbScrRight o fbAllOnes (x%32).toNat else 0

/-- `FbRightMask(x)` -/
def fbRightMask (x : ℤ) : FbBits := if (32-x)%32 ≠ 0 then fbScrLeft o fbAllOnes ((32-x)%32).toNat else 0

def fbByteMaskInvalid : ℕ := 0x10

/-- What `FbMaskBitsBytes` sets: `startmask`, `startbyte`, `nmiddle`, `endmask`, `endbyte`. -/
structure MaskBits where
  startmask : FbBits
  startbyte : ℕ
  nmiddle : ℕ
  endmask : FbBits
  endbyte : ℕ
  deriving DecidableEq, Repr

/-- `FbMaskBitsBytes(x, w, copy, l, lb, n, r, rb)` -/
def fbMaskBitsBytes (x w : ℤ) (copy : Bool) : MaskBits :=
  let r := fbRightMask o (x+w)
  let rb :=
    if r ≠ 0 then
      if copy = true ∧ (x+w)%8 = 0 then ((x+w)%32/8).toNat else fbByteMaskInvalid
    else 0
  let l := fbLeftMask o x
  if l ≠ 0 then
    let lb := if copy = true ∧ x%8 = 0 then (x%32/8).toNat else fbByteMaskInvalid
    -- subtract out the portion painted by leftMask
    let n := w-(32-x%32)
    if n < 0 then
      if lb ≠ fbByteMaskInvalid then
        if rb = fbByteMaskInvalid then ⟨l &&& r,fbByteMaskInvalid,0,0,rb⟩
        else if rb ≠ 0 then ⟨l &&& r,lb ||| ((rb-lb) <<< 2),0,0,0⟩
        else ⟨l &&& r,lb,0,0,rb⟩
      else ⟨l &&& r,lb,0,0,rb⟩
    else ⟨l,lb,(n/32).toNat,r,rb⟩
  else ⟨0,0,(w/32).toNat,r,rb⟩

/-- `FbPatternOffset(o, t)` for a type `t` of `size` bytes; `FbPatternOffsetBits` is 0 or 3. -/
def fbPatternOffset (off size : ℕ) : ℕ :=
  match o with
  | .lsbFirst => off
  | .msbFirst => off ^^^ (3 ^^^ (3 &&& (size-1)))

/-- Where the `size` bytes from byte address `off` of a word lie in it. -/
def byteShift (off size : ℕ) : ℕ :=
  match o with
  | .lsbFirst => 8*off
  | .msbFirst => 8*(4-off-size)

/-- `FbStorePart(dst, off, t, xor)`: the word that is left when `FbSelectPart(xor, off, t)` is stored at
byte `off`. -/
def fbStorePart (dst : FbBits) (off size : ℕ) (xor : FbBits) : FbBits :=
  let part := (xor >>> (fbPatternOffset o off size <<< 3)).setWidth (8*size)
  (dst &&& ~~~((BitVec.allOnes (8*size)).setWidth 32 <<< byteShift o off size)) |||
    (part.setWidth 32 <<< byteShift o off size)

/-- `FbDoLeftMaskByteRRop(dst, lb, l, and, xor)`: the word that is left at `dst`. -/
def fbDoLeftMaskByteRRop (dst : FbBits) (lb : ℕ) (l and xor : FbBits) : FbBits :=
  match lb with
  | 5 => fbStorePart o dst 1 1 xor
  | 9 => fbStorePart o (fbStorePart o dst 1 1 xor) 2 1 xor
  | 6 => fbStorePart o dst 2 1 xor
  | 1 => fbStorePart o (fbStorePart o dst 1 1 xor) 2 2 xor
  | 2 => fbStorePart o dst 2 2 xor
  | 3 => fbStorePart o dst 3 1 xor
  | _ => fbDoMaskRRop dst and xor l

/-- `FbDoRightMaskByteRRop(dst, rb, r, and, xor)`: the word that is left at `dst`. -/
def fbDoRightMaskByteRRop (dst : FbBits) (rb : ℕ) (r and xor : FbBits) : FbBits :=
  match rb with
  | 1 => fbStorePart o dst 0 1 xor
  | 2 => fbStorePart o dst 0 2 xor
  | 3 => fbStorePart o (fbStorePart o dst 0 2 xor) 2 1 xor
  | _ => fbDoMaskRRop dst and xor r

lemma place_lt {p : ℕ} (hp : p < 32) : o.place p < 32 := by
  cases o <;> simp only [BitOrder.place] <;> omega

lemma place_place {p : ℕ} (hp : p < 32) : o.place (o.place p) = p := by
  cases o with
  | lsbFirst => rfl
  | msbFirst =>
    simp only [BitOrder.place]
    omega

lemma ext_scrBit {x y : FbBits} (h : ∀ p < 32, scrBit o x p = scrBit o y p) : x = y := by
  apply BitVec.eq_of_getLsbD_eq
  intro i hi
  have := h (o.place i) (place_lt o hi)
  simpa only [scrBit,place_place o hi] using this

lemma ne_zero_iff_bit (m : FbBits) : m ≠ 0 ↔ ∃ p < 32, scrBit o m p = true := by
  constructor
  · intro hm
    by_contra hall
    push Not at hall
    apply hm
    apply ext_scrBit o
    intro p hp
    simpa [scrBit] using hall p hp
  · rintro ⟨p,-,hp⟩ rfl
    simp [scrBit] at hp

lemma scrBit_and (x y : FbBits) (p : ℕ) : scrBit o (x &&& y) p = (scrBit o x p && scrBit o y p) :=
  BitVec.getLsbD_and

lemma scrBit_or (x y : FbBits) (p : ℕ) : scrBit o (x ||| y) p = (scrBit o x p || scrBit o y p) :=
  BitVec.getLsbD_or

lemma scrBit_allOnes {p : ℕ} (hp : p < 32) : scrBit o fbAllOnes p = true := by
  simp [scrBit,place_lt o hp]

lemma fbScrLeft_bit (x : FbBits) (n : ℕ) {p : ℕ} (hp : p < 32) :
    scrBit o (fbScrLeft o x n) p = (decide (n+p < 32) && scrBit o x (n+p)) := by
  cases o with
  | lsbFirst =>
    simp only [scrBit,fbScrLeft,BitOrder.place,BitVec.getLsbD_ushiftRight]
    by_cases hn : n+p < 32
    · simp [hn]
    · simp only [hn,decide_false,Bool.false_and]
      exact BitVec.getLsbD_of_ge _ _ (by omega)
  | msbFirst =>
    simp only [scrBit,fbScrLeft,BitOrder.place,BitVec.getLsbD_shiftLeft]
    by_cases hn : n+p < 32
    · have h₁ : 31-p < 32 := by omega
      have h₂ : ¬31-p < n := by omega
      have h₃ : 31-(n+p) = 31-p-n := by omega
      simp [hn,h₁,h₂,h₃]
    · have h₂ : 31-p < n := by omega
      simp [hn,h₂]

lemma fbScrRight_bit (x : FbBits) (n : ℕ) {p : ℕ} (hp : p < 32) :
    scrBit o (fbScrRight o x n) p = (decide (n ≤ p) && scrBit o x (p-n)) := by
  cases o with
  | lsbFirst =>
    simp only [scrBit,fbScrRight,BitOrder.place,BitVec.getLsbD_shiftLeft]
    by_cases hn : n ≤ p
    · have h₂ : ¬p < n := by omega
      simp [hn,h₂,hp]
    · have h₂ : p < n := by omega
      simp [hn,h₂]
  | msbFirst =>
    simp only [scrBit,fbScrRight,BitOrder.place,BitVec.getLsbD_ushiftRight]
    by_cases hn : n ≤ p
    · have h₃ : 31-(p-n) = n+(31-p) := by omega
      simp [hn,h₃]
    · simp only [hn,decide_false,Bool.false_and]
      exact BitVec.getLsbD_of_ge _ _ (by omega)

lemma fbLeftMask_bit (x : ℤ) {p : ℕ} (hp : p < 32) :
    scrBit o (fbLeftMask o x) p = true ↔ x%32 ≠ 0 ∧ x%32 ≤ p := by
  unfold fbLeftMask
  split_ifs with hx
  · rw [fbScrRight_bit o _ _ hp,Bool.and_eq_true,decide_eq_true_eq]
    constructor
    · rintro ⟨h,-⟩
      exact ⟨hx,by omega⟩
    · intro h
      exact ⟨by omega,scrBit_allOnes o (by omega)⟩
  · simp [hx,scrBit]

lemma fbRightMask_bit (x : ℤ) {p : ℕ} (hp : p < 32) :
    scrBit o (fbRightMask o x) p = true ↔ (p : ℤ) < x%32 := by
  unfold fbRightMask
  split_ifs with hx
  · rw [fbScrLeft_bit o _ _ hp,Bool.and_eq_true,decide_eq_true_eq]
    constructor
    · rintro ⟨h,-⟩
      omega
    · intro h
      exact ⟨by omega,scrBit_allOnes o (by omega)⟩
  · simp only [scrBit,BitVec.ofNat_eq_ofNat,BitVec.getLsbD_zero,Bool.false_eq_true,false_iff]
    omega

lemma fbLeftMask_ne_zero (x : ℤ) : fbLeftMask o x ≠ 0 ↔ x%32 ≠ 0 := by
  rw [ne_zero_iff_bit o]
  constructor
  · rintro ⟨p,hp,hbit⟩
    exact ((fbLeftMask_bit o x hp).mp hbit).1
  · intro hx
    exact ⟨31,by omega,(fbLeftMask_bit o x (by omega)).mpr ⟨hx,by omega⟩⟩

lemma fbRightMask_ne_zero (x : ℤ) : fbRightMask o x ≠ 0 ↔ x%32 ≠ 0 := by
  rw [ne_zero_iff_bit o]
  constructor
  · rintro ⟨p,hp,hbit⟩
    have := (fbRightMask_bit o x hp).mp hbit
    omega
  · intro hx
    exact ⟨0,by omega,(fbRightMask_bit o x (by omega)).mpr (by omega)⟩

lemma insert_bit (dst : FbBits) {n : ℕ} (v : BitVec n) (s : ℕ) {p : ℕ} (hp : p < 32) :
    ((dst &&& ~~~((BitVec.allOnes n).setWidth 32 <<< s)) ||| (v.setWidth 32 <<< s)).getLsbD p =
      if s ≤ p ∧ p < s+n then v.getLsbD (p-s) else dst.getLsbD p := by
  simp only [BitVec.getLsbD_or,BitVec.getLsbD_and,BitVec.getLsbD_not,BitVec.getLsbD_shiftLeft,
    BitVec.getLsbD_setWidth,BitVec.getLsbD_allOnes,hp,decide_true,Bool.true_and]
  split_ifs with hin
  · have h₁ : ¬p < s := by omega
    have h₂ : p-s < 32 := by omega
    have h₃ : p-s < n := by omega
    simp [h₁,h₂,h₃]
  · by_cases h₁ : p < s
    · simp [h₁]
    · have h₃ : ¬p-s < n := by omega
      simp [h₃,BitVec.getLsbD_of_ge v (p-s) (by omega)]

lemma fbStorePart_bit (dst : FbBits) {off size : ℕ} (hsize : size = 1 ∧ off ≤ 3 ∨ size = 2 ∧ (off = 0 ∨ off = 2))
    (xor : FbBits) {p : ℕ} (hp : p < 32) :
    scrBit o (fbStorePart o dst off size xor) p =
      if 8*off ≤ p ∧ p < 8*(off+size) then scrBit o xor p else scrBit o dst p := by
  have hshift : fbPatternOffset o off size <<< 3 = byteShift o off size := by
    obtain ⟨rfl,hoff⟩ | ⟨rfl,rfl | rfl⟩ := hsize
    · cases o <;> interval_cases off <;> rfl
    · cases o <;> rfl
    · cases o <;> rfl
  simp only [scrBit,fbStorePart,hshift]
  rw [insert_bit dst _ _ (place_lt o hp)]
  have hin : byteShift o off size ≤ o.place p ∧ o.place p < byteShift o off size+8*size ↔
      8*off ≤ p ∧ p < 8*(off+size) := by
    cases o <;> simp only [BitOrder.place,byteShift] <;> omega
  rw [if_congr hin rfl rfl]
  split_ifs with h
  · have hplace : byteShift o off size+(o.place p-byteShift o off size) = o.place p := by omega
    have hlt : o.place p-byteShift o off size < 8*size := by omega
    simp only [BitVec.getLsbD_setWidth,BitVec.getLsbD_ushiftRight,hplace,hlt,decide_true,Bool.true_and]
  · rfl

/-- The code of `FbMaskBitsBytes` for bytes `i` up to `j` of a word. -/
def spanCode (i j : ℕ) : ℕ := if j = 4 then i else i ||| ((j-i) <<< 2)

lemma leftByte_span {i j : ℕ} (hi : 1 ≤ i) (hij : i < j) (hj : j ≤ 4) (dst l and xor : FbBits) {p : ℕ} (hp : p < 32) :
    scrBit o (fbDoLeftMaskByteRRop o dst (spanCode i j) l and xor) p =
      if 8*i ≤ p ∧ p < 8*j then scrBit o xor p else scrBit o dst p := by
  have hi' : i ≤ 3 := by omega
  interval_cases i <;> interval_cases j <;>
    simp only [spanCode,fbDoLeftMaskByteRRop,Nat.reduceEqDiff,if_true,if_false,Nat.reduceSub,Nat.reduceShiftLeft,
      Nat.reduceOr] <;>
    simp (disch := omega) only [fbStorePart_bit o _ _ _ hp] <;>
    split_ifs <;> first | rfl | omega

lemma rightByte_span {j : ℕ} (hj : 1 ≤ j) (hj' : j ≤ 3) (dst r and xor : FbBits) {p : ℕ} (hp : p < 32) :
    scrBit o (fbDoRightMaskByteRRop o dst j r and xor) p =
      if p < 8*j then scrBit o xor p else scrBit o dst p := by
  interval_cases j <;>
    simp only [fbDoRightMaskByteRRop] <;>
    simp (disch := omega) only [fbStorePart_bit o _ _ _ hp] <;>
    split_ifs <;> first | rfl | omega

end Xlibre.Fb
