import Xlibre.Fb.CopyBytes
import Xlibre.Fb.Sweep

/-! `fbTile`: a rectangle filled with a tile, with a rotated word for each row or with a copy for each place of the tile. -/
namespace Xlibre.Fb

open Lib.BitMemory

/-- The number of an operation in `X.h`. -/
def Alu.code : Alu → ℕ
  | .clear => 0 | .and => 1 | .andReverse => 2 | .copy => 3
  | .andInverted => 4 | .noop => 5 | .xor => 6 | .or => 7
  | .nor => 8 | .equiv => 9 | .invert => 10 | .orReverse => 11
  | .copyInverted => 12 | .orInverted => 13 | .nand => 14 | .set => 15

/-- `fbFillFromBit(b, FbBits)` -/
def fbFillFromBit (b : ℕ) : FbBits := ~~~(BitVec.ofNat 32 (b &&& 1) - 1)

/-- `fbXor(rop, fg, pm)` -/
def fbXor (rop : Alu) (fg pm : FbBits) : FbBits :=
  ((fg &&& fbFillFromBit (rop.code >>> 1)) ||| (~~~fg &&& fbFillFromBit (rop.code >>> 3))) &&& pm

/-- `fbAnd(rop, fg, pm)` -/
def fbAnd (rop : Alu) (fg pm : FbBits) : FbBits :=
  ((fg &&& fbFillFromBit (rop.code ^^^ (rop.code >>> 1))) |||
    (~~~fg &&& fbFillFromBit ((rop.code >>> 2) ^^^ (rop.code >>> 3)))) ||| ~~~pm

/-- `FbDestInvarientRop(alu, pm)` -/
def fbDestInvarientRop (alu : Alu) (pm : FbBits) : Bool := pm == fbAllOnes && (alu.code >>> 1) &&& 5 == alu.code &&& 5

/-- `FbRotLeft(x, n)` -/
def fbRotLeft (o : BitOrder) (x : FbBits) (n : ℕ) : FbBits :=
  fbScrLeft o x n ||| if n ≠ 0 then fbScrRight o x (32-n) else 0

/-- `FbEvenTile(w)` -/
def isEvenTile (w : ℕ) : Bool := w ≤ 32 && w &&& (w-1) == 0

/-- `modulus(a, b, d)` -/
def modulus (a b : ℤ) : ℤ :=
  let d := a.tmod b
  if d < 0 then d+b else d

/-- The arguments of `fbTile`. Lines and strides count words, offsets, rotations and widths count bits. -/
structure Tile where
  dst : ℤ
  dstStride : ℤ
  dstX : ℤ
  width : ℕ
  height : ℕ
  tile : ℤ
  tileStride : ℤ
  tileWidth : ℕ
  tileHeight : ℕ
  alu : Alu
  pm : FbBits
  xRot : ℤ
  yRot : ℤ

namespace Tile

variable (o : BitOrder) (t : Tile)

/-- What `FbMaskBitsBytes` sets for the rows. -/
def masks : MaskBits := fbMaskBitsBytes o (t.dstX%32) t.width (fbDestInvarientRop t.alu t.pm)

/-- A row of `fbEvenTile`, from the rotated bits of the tile. -/
def evenRow (bits : FbBits) (c : Cursor) : Cursor :=
  let m := t.masks o
  let and := fbAnd t.alu bits t.pm
  let xor := fbXor t.alu bits t.pm
  let c := if m.startmask ≠ 0 then c.put fun old => fbDoLeftMaskByteRRop o old m.startbyte m.startmask and xor else c
  let c := if and = 0 then c.putMany (fun _ => xor) m.nmiddle else c.putMany (fun old => fbDoRRop old and xor) m.nmiddle
  if m.endmask ≠ 0 then ⟨(c.put fun old => fbDoRightMaskByteRRop o old m.endbyte m.endmask and xor).mem,c.dst⟩ else c

def restStride : ℤ := t.dstStride - (if (t.masks o).startmask ≠ 0 then 1 else 0) - (t.masks o).nmiddle

/-- `while (height--)` of `fbEvenTile`, with the next line of the tile at `line`. -/
def evenRows : ℕ → ℤ → Cursor → Cursor
  | 0, _, c => c
  | h+1, line, c =>
    let bits := fbRotLeft o (c.mem line) (modulus (-t.xRot) 32).toNat
    let next := line+t.tileStride
    let c := t.evenRow o bits c
    evenRows h (if t.tile+t.tileHeight*t.tileStride ≤ next then t.tile else next) ⟨c.mem,c.dst+t.restStride o⟩

def fbEvenTile (mem : ℤ → FbBits) : ℤ → FbBits :=
  (t.evenRows o t.height (t.tile+modulus (-t.yRot) t.tileHeight*t.tileStride) ⟨mem,t.dst+t.dstX/32⟩).mem

/-- The copy of `h` rows of the tile, from row `tileY` and column `tileX` on. -/
def piece (y : ℤ) (tileY h : ℕ) (x : ℤ) (tileX w : ℕ) : Blt where
  srcLine := t.tile+tileY*t.tileStride
  srcStride := t.tileStride
  srcX := tileX
  dstLine := t.dst+y*t.dstStride
  dstStride := t.dstStride
  dstX := x
  width := w
  height := h
  alu := t.alu
  pm := t.pm
  reverse := false
  upsidedown := false

/-- `while (widthTmp)` of `fbOddTile`, for at most so many rounds. -/
def oddColumns (y : ℤ) (tileY h : ℕ) : ℕ → ℕ → ℤ → ℕ → (ℤ → FbBits) → Option (ℤ → FbBits)
  | _, 0, _, _, mem => some mem
  | 0, _+1, _, _, _ => none
  | n+1, widthTmp+1, x, tileX, mem => do
    let w := min (t.tileWidth-tileX) (widthTmp+1)
    let s ← fbBlt o (t.piece y tileY h x tileX w) mem
    oddColumns y tileY h n (widthTmp+1-w) (x+w) 0 s.mem

/-- `while (height)` of `fbOddTile`, for at most so many rounds. -/
def oddRows : ℕ → ℕ → ℤ → ℕ → (ℤ → FbBits) → Option (ℤ → FbBits)
  | _, 0, _, _, mem => some mem
  | 0, _+1, _, _, _ => none
  | n+1, height+1, y, tileY, mem => do
    let h := min (t.tileHeight-tileY) (height+1)
    let mem ← t.oddColumns o y tileY h t.width t.width t.dstX (modulus (t.dstX-t.xRot) t.tileWidth).toNat mem
    oddRows n (height+1-h) (y+h) 0 mem

/-- `fbOddTile`; there is no result where a loop would not end or `fbBlt` has none. -/
def fbOddTile (mem : ℤ → FbBits) : Option (ℤ → FbBits) :=
  t.oddRows o t.height t.height 0 (modulus (-t.yRot) t.tileHeight).toNat mem

def fbTile (mem : ℤ → FbBits) : Option (ℤ → FbBits) :=
  if isEvenTile t.tileWidth then some (t.fbEvenTile o mem) else t.fbOddTile o mem

/-- Bit `i` of row `y` of the destination rectangle. -/
def dstBit (y i : ℕ) : ℤ := 32*(t.dst+y*t.dstStride)+t.dstX+i

/-- The bit of the tile in row `v` and column `u`. -/
def tileBit (u v : ℤ) : ℤ := 32*(t.tile+v*t.tileStride)+u

/-- The bit of the tile that belongs to bit `i` of row `y`. -/
def place (y i : ℕ) : ℤ := t.tileBit ((t.dstX+i-t.xRot)%t.tileWidth) ((y-t.yRot)%t.tileHeight)

/-- The tile and the rectangle are there: the rows of the tile follow each other, those of the rectangle do not meet, and
no bit of the rectangle is in a word of the tile. -/
structure WellPlaced : Prop where
  tileWidth : 0 < t.tileWidth
  tileHeight : 0 < t.tileHeight
  tileStride : 0 < t.tileStride
  rows : ∀ y < t.height, ∀ y' < t.height, ∀ i < t.width, ∀ i' < t.width, t.dstBit y i = t.dstBit y' i' → y = y'
  apart : ∀ y < t.height, ∀ i < t.width, ∀ v < t.tileHeight, ∀ k : ℕ, 32*k < t.tileWidth →
    t.dstBit y i/32 ≠ t.tile+v*t.tileStride+k

/-- Every line of the tile is a word with the tile's bits in it over and over. -/
def Padded (mem : ℤ → FbBits) : Prop :=
  ∀ v < t.tileHeight, ∀ p < 32, memBit o mem (t.tileBit (p : ℕ) v) = memBit o mem (t.tileBit (p%t.tileWidth : ℕ) v)

instance (mem : ℤ → FbBits) : Decidable (t.Padded o mem) := by unfold Padded; infer_instance

/-- What tiling leaves. -/
structure Tiled (mem mem' : ℤ → FbBits) : Prop where
  bits : ∀ y < t.height, ∀ i < t.width, memBit o mem' (t.dstBit y i) =
    merged t.alu (scrBit o t.pm ((t.dstX+i)%32).toNat) (memBit o mem (t.place y i)) (memBit o mem (t.dstBit y i))
  others : ∀ a, (∀ y < t.height, ∀ i < t.width, a ≠ t.dstBit y i) → memBit o mem' a = memBit o mem a

end Tile

section Words

variable (o : BitOrder) (alu : Alu) (pm : FbBits)

lemma modulus_eq {a b : ℤ} (hb : 0 < b) : modulus a b = a%b := by
  have hlt := Int.emod_lt_of_pos a hb
  have hnonneg := Int.emod_nonneg a hb.ne'
  unfold modulus
  dsimp only
  rw [Int.tmod_eq_emod]
  split_ifs <;> omega

lemma fbFillFromBit_bit (b : ℕ) {p : ℕ} (hp : p < 32) : (fbFillFromBit b).getLsbD p = decide (b%2 = 1) := by
  unfold fbFillFromBit
  rw [Nat.and_one_is_mod]
  obtain h | h := Nat.mod_two_eq_zero_or_one b
  · have hones : ~~~(BitVec.ofNat 32 0 - 1) = 0 := by decide
    rw [h,hones]
    simp
  · have hones : ~~~(BitVec.ofNat 32 1 - 1) = fbAllOnes := by decide
    rw [h,hones,fbAllOnes_bit]
    simpa using hp

lemma fbAnd_eq (src : FbBits) : fbAnd alu src pm = (fbInitializeMergeRop alu pm).and src := by
  have hzero : ∀ p, (0 : FbBits).getLsbD p = false := fun p => BitVec.getLsbD_zero
  apply BitVec.eq_of_getLsbD_eq
  intro p hp
  cases alu <;>
    simp only [fbAnd,FbMergeRopRec.and,fbInitializeMergeRop,fbMergeRopBits,BitVec.getLsbD_xor,BitVec.getLsbD_and,
      BitVec.getLsbD_or,BitVec.getLsbD_not,fbAllOnes_bit,hzero,fbFillFromBit_bit _ hp,Alu.code,hp] <;>
    generalize pm.getLsbD p = m <;> generalize src.getLsbD p = s <;> cases m <;> cases s <;> rfl

lemma fbXor_eq (src : FbBits) : fbXor alu src pm = (fbInitializeMergeRop alu pm).xor src := by
  have hzero : ∀ p, (0 : FbBits).getLsbD p = false := fun p => BitVec.getLsbD_zero
  apply BitVec.eq_of_getLsbD_eq
  intro p hp
  cases alu <;>
    simp only [fbXor,FbMergeRopRec.xor,fbInitializeMergeRop,fbMergeRopBits,BitVec.getLsbD_xor,BitVec.getLsbD_and,
      BitVec.getLsbD_or,BitVec.getLsbD_not,fbAllOnes_bit,hzero,fbFillFromBit_bit _ hp,Alu.code,hp] <;>
    generalize pm.getLsbD p = m <;> generalize src.getLsbD p = s <;> cases m <;> cases s <;> rfl

lemma fbDestInvarientRop_eq : fbDestInvarientRop alu pm = (fbInitializeMergeRop alu pm).destInvarient := by
  by_cases hpm : pm = fbAllOnes
  · subst hpm
    cases alu <;> rfl
  · have hrest : (fbMergeRopBits alu).cx1 ||| ~~~pm ≠ 0 := by
      intro hzero
      apply hpm
      apply BitVec.eq_of_getLsbD_eq
      intro p hp
      have hbit : ((fbMergeRopBits alu).cx1 ||| ~~~pm).getLsbD p = (0#32).getLsbD p := congrArg (·.getLsbD p) hzero
      simp only [BitVec.getLsbD_or,BitVec.getLsbD_not,hp,BitVec.getLsbD_zero,decide_true,Bool.true_and,
        Bool.or_eq_false_iff,Bool.not_eq_false'] at hbit
      rw [hbit.2,fbAllOnes_bit,decide_eq_true hp]
    have hleft : (pm == fbAllOnes) = false := beq_false_of_ne hpm
    have hright : ((fbMergeRopBits alu).cx1 ||| ~~~pm == 0) = false := beq_false_of_ne hrest
    unfold fbDestInvarientRop FbMergeRopRec.destInvarient fbInitializeMergeRop
    rw [hleft,hright,Bool.false_and,Bool.and_false]

lemma fbRotLeft_bit (x : FbBits) {n p : ℕ} (hn : n < 32) (hp : p < 32) :
    scrBit o (fbRotLeft o x n) p = scrBit o x ((n+p)%32) := by
  unfold fbRotLeft
  rw [scrBit_or,fbScrLeft_bit o x n hp]
  obtain rfl | hpos := Nat.eq_zero_or_pos n
  · simp [scrBit,hp,Nat.mod_eq_of_lt hp]
  · rw [if_pos hpos.ne',fbScrRight_bit o x _ hp]
    by_cases hfit : n+p < 32
    · have hnot : ¬32-n ≤ p := by omega
      simp [hfit,hnot,Nat.mod_eq_of_lt hfit]
    · have hle : 32-n ≤ p := by omega
      have hmod : (n+p)%32 = p-(32-n) := by omega
      simp [hfit,hle,hmod]

end Words

namespace Tile

variable (o : BitOrder) (t : Tile)

/-- Row `y` as bits filled from a word. -/
def pattern (y : ℕ) (bits : FbBits) : Sweep :=
  ⟨o,t.dstBit y 0,t.width,fun a old => merged t.alu (scrBit o t.pm (a%32).toNat) (scrBit o bits (a%32).toNat) old⟩

variable {t} {y : ℕ}

lemma pattern_op (bits : FbBits) (e : ℤ) {p : ℕ} (hp : p < 32) (old : Bool) :
    (t.pattern o y bits).op (32*e+p) old = merged t.alu (scrBit o t.pm p) (scrBit o bits p) old := by
  have hplace : ((32*e+p)%32).toNat = p := by omega
  unfold pattern
  dsimp only
  rw [hplace]

lemma dstBit_add (i : ℕ) : t.dstBit y i = t.dstBit y 0+i := by
  unfold dstBit
  push_cast
  ring

lemma masks_eq (y : ℕ) :
    t.masks o = fbMaskBitsBytes o (t.dstBit y 0) t.width (fbInitializeMergeRop t.alu t.pm).destInvarient := by
  have hplace : t.dstBit y 0 = 32*(t.dst+y*t.dstStride+t.dstX/32)+t.dstX%32 := by
    unfold dstBit
    push_cast
    omega
  rw [hplace,fbMaskBitsBytes_add,← fbDestInvarientRop_eq]
  rfl

lemma evenRow_start (hw : 0 < t.width) (bits : FbBits) (m : ℤ → FbBits) :
    (t.pattern o y bits).At m (firstFull (t.dstBit y 0)) (if (t.masks o).startmask ≠ 0 then
      Cursor.put (fun old => fbDoLeftMaskByteRRop o old (t.masks o).startbyte (t.masks o).startmask (fbAnd t.alu bits t.pm)
        (fbXor t.alu bits t.pm)) ⟨m,t.dstBit y 0/32⟩ else ⟨m,t.dstBit y 0/32⟩) := by
  have hw' : (0 : ℤ) < t.width := by omega
  have hfirst : (t.pattern o y bits).At m (t.dstBit y 0/32) ⟨m,t.dstBit y 0/32⟩ := by
    refine ⟨rfl,fun a ha => ?_,fun a _ => rfl⟩
    exact (if_neg fun hcov => by unfold Sweep.Covers pattern at hcov; dsimp only at hcov; omega).symm
  rw [masks_eq o y,fbAnd_eq,fbXor_eq]
  by_cases hx : t.dstBit y 0%32 = 0
  · rw [if_neg ((startmask_ne_zero o hw').not.mpr (not_not_intro hx)),firstFull,if_pos hx]
    exact hfirst
  · rw [if_pos ((startmask_ne_zero o hw').mpr hx),firstFull,if_neg hx]
    exact hfirst.put fun old p hp => by
      rw [pattern_op o bits _ hp]
      exact leftMask_store o t.alu t.pm hw' hx bits old hp

lemma evenRow_middle {bits : FbBits} {m : ℤ → FbBits} {c : Cursor}
    (h : (t.pattern o y bits).At m (firstFull (t.dstBit y 0)) c) :
    (t.pattern o y bits).At m (firstFull (t.dstBit y 0)+(t.masks o).nmiddle)
      (if fbAnd t.alu bits t.pm = 0 then c.putMany (fun _ => fbXor t.alu bits t.pm) (t.masks o).nmiddle
      else c.putMany (fun old => fbDoRRop old (fbAnd t.alu bits t.pm) (fbXor t.alu bits t.pm)) (t.masks o).nmiddle) := by
  have hbits : ∀ old, ∀ p : ℕ, p < 32 → scrBit o (fbDoRRop old (fbAnd t.alu bits t.pm) (fbXor t.alu bits t.pm)) p =
      merged t.alu (scrBit o t.pm p) (scrBit o bits p) (scrBit o old p) := by
    intro old p hp
    rw [fbAnd_eq,fbXor_eq]
    exact doMergeRop_bit t.alu t.pm bits old (place_lt o hp)
  have hcov : ∀ k < (t.masks o).nmiddle, ∀ p : ℕ, p < 32 →
      t.dstBit y 0 ≤ 32*(firstFull (t.dstBit y 0)+k)+p ∧
      32*(firstFull (t.dstBit y 0)+k)+p < t.dstBit y 0+t.width := by
    intro k hk p hp
    rw [masks_eq o y] at hk
    exact middle_covered o hk hp
  split_ifs with hand
  · refine h.putMany _ (fun e old p hp => ?_) hcov
    rw [pattern_op o bits e hp]
    have hold := hbits old p hp
    have hxor : fbDoRRop old 0 (fbXor t.alu bits t.pm) = fbXor t.alu bits t.pm := by simp [fbDoRRop]
    rw [hand,hxor] at hold
    exact hold
  · refine h.putMany _ (fun e old p hp => ?_) hcov
    rw [pattern_op o bits e hp]
    exact hbits old p hp

lemma evenRow_end (hw : 0 < t.width) {bits : FbBits} {m : ℤ → FbBits} {c : Cursor}
    (h : (t.pattern o y bits).At m (firstFull (t.dstBit y 0)+(t.masks o).nmiddle) c) (a : ℤ) :
    memBit o (if (t.masks o).endmask ≠ 0 then
      ⟨(c.put fun old => fbDoRightMaskByteRRop o old (t.masks o).endbyte (t.masks o).endmask (fbAnd t.alu bits t.pm)
        (fbXor t.alu bits t.pm)).mem,c.dst⟩ else c : Cursor).mem a = (t.pattern o y bits).value m a := by
  have hw' : (0 : ℤ) < t.width := by omega
  have hlast := last_word o (x := t.dstBit y 0) (c := (fbInitializeMergeRop t.alu t.pm).destInvarient) hw'
  rw [masks_eq o y] at h
  rw [masks_eq o y,fbAnd_eq,fbXor_eq]
  split_ifs at hlast ⊢ with hend
  · have hlt : (t.pattern o y bits).x+(t.pattern o y bits).width ≤ 32*(firstFull (t.dstBit y 0)+
        (fbMaskBitsBytes o (t.dstBit y 0) t.width (fbInitializeMergeRop t.alu t.pm).destInvarient).nmiddle+1) := by
      change t.dstBit y 0+t.width ≤ _
      omega
    have hstore := fun old (p : ℕ) (hp : p < 32) =>
      (rightMask_store o t.alu t.pm (x := t.dstBit y 0) hw' bits old hp hend).trans
        (if_congr Iff.rfl (pattern_op o (y := y) bits (firstFull (t.dstBit y 0)+(fbMaskBitsBytes o (t.dstBit y 0) t.width
          (fbInitializeMergeRop t.alu t.pm).destInvarient).nmiddle) hp _).symm rfl)
    exact (h.put hstore).finish hlt a
  · refine h.finish ?_ a
    change t.dstBit y 0+t.width ≤ _
    omega

lemma evenRow_value (hw : 0 < t.width) (bits : FbBits) (m : ℤ → FbBits) :
    (∀ a, memBit o (t.evenRow o bits ⟨m,t.dstBit y 0/32⟩).mem a = (t.pattern o y bits).value m a) ∧
    (t.evenRow o bits ⟨m,t.dstBit y 0/32⟩).dst+t.restStride o = t.dstBit y 0/32+t.dstStride := by
  have hw' : (0 : ℤ) < t.width := by omega
  have hmiddle := evenRow_middle o (evenRow_start o (y := y) hw bits m)
  refine ⟨evenRow_end o hw hmiddle,?_⟩
  have hcount : firstFull (t.dstBit y 0) = t.dstBit y 0/32+if (t.masks o).startmask ≠ 0 then 1 else 0 := by
    rw [masks_eq o y,if_congr (startmask_ne_zero o hw') rfl rfl,firstFull]
    split_ifs <;> omega
  have hdst : (t.evenRow o bits ⟨m,t.dstBit y 0/32⟩).dst = firstFull (t.dstBit y 0)+(t.masks o).nmiddle := by
    unfold evenRow
    dsimp only
    rw [← hmiddle.dst]
    by_cases hend : (t.masks o).endmask = 0
    · rw [if_neg (not_not_intro hend)]
    · rw [if_pos hend]
  rw [hdst,hcount,restStride]
  omega

/-- What tiling leaves where it is done for some of the bits. -/
structure TiledOn (t : Tile) (P : ℕ → ℕ → Prop) (mem mem' : ℤ → FbBits) : Prop where
  bits : ∀ y < t.height, ∀ i < t.width, P y i → memBit o mem' (t.dstBit y i) =
    merged t.alu (scrBit o t.pm ((t.dstX+i)%32).toNat) (memBit o mem (t.place y i)) (memBit o mem (t.dstBit y i))
  others : ∀ a, (∀ y < t.height, ∀ i < t.width, P y i → a ≠ t.dstBit y i) → memBit o mem' a = memBit o mem a

variable {P Q : ℕ → ℕ → Prop} {m m₁ m₂ : ℤ → FbBits}

lemma TiledOn.congr (h : t.TiledOn o P m m₁) (hiff : ∀ y < t.height, ∀ i < t.width, (Q y i ↔ P y i)) :
    t.TiledOn o Q m m₁ where
  bits := fun y hy i hi hQ => h.bits y hy i hi ((hiff y hy i hi).mp hQ)
  others := fun a ha => h.others a fun y hy i hi hP => ha y hy i hi ((hiff y hy i hi).mpr hP)

lemma TiledOn.none (hnone : ∀ y < t.height, ∀ i < t.width, ¬P y i) : t.TiledOn o P m m where
  bits := fun y hy i hi hP => absurd hP (hnone y hy i hi)
  others := fun _ _ => rfl

lemma TiledOn.all (h : t.TiledOn o P m m₁) (hall : ∀ y < t.height, ∀ i < t.width, P y i) : t.Tiled o m m₁ where
  bits := fun y hy i hi => h.bits y hy i hi (hall y hy i hi)
  others := fun a ha => h.others a fun y hy i hi _ => ha y hy i hi

lemma Tiled.unique (h₁ : t.Tiled o m m₁) (h₂ : t.Tiled o m m₂) : m₁ = m₂ := by
  apply ext_bit (w := 32) (fun x y h => ext_scrBit o h)
  intro a
  change memBit o m₁ a = memBit o m₂ a
  by_cases ha : ∀ y < t.height, ∀ i < t.width, a ≠ t.dstBit y i
  · rw [h₁.others a ha,h₂.others a ha]
  · push Not at ha
    obtain ⟨y,hy,i,hi,rfl⟩ := ha
    rw [h₁.bits y hy i hi,h₂.bits y hy i hi]

section Placed

variable (h : t.WellPlaced)
include h

lemma WellPlaced.dstBit_inj {y y' i i' : ℕ} (hy : y < t.height) (hy' : y' < t.height) (hi : i < t.width) (hi' : i' < t.width)
    (heq : t.dstBit y i = t.dstBit y' i') : y = y' ∧ i = i' := by
  obtain rfl := h.rows y hy y' hy' i hi i' hi' heq
  rw [dstBit_add i,dstBit_add i'] at heq
  exact ⟨rfl,by omega⟩

lemma WellPlaced.tileBit_ne {v y i : ℕ} {u : ℤ} {k : ℕ} (hv : v < t.tileHeight) (hk : 32*k < t.tileWidth) (hu : u/32 = k)
    (hy : y < t.height) (hi : i < t.width) : t.tileBit u v ≠ t.dstBit y i := by
  intro heq
  apply h.apart y hy i hi v hv k hk
  rw [← heq,tileBit]
  omega

lemma WellPlaced.place_ne (y' i' : ℕ) {y i : ℕ} (hy : y < t.height) (hi : i < t.width) : t.place y' i' ≠ t.dstBit y i := by
  have hwidth : (0 : ℤ) < t.tileWidth := by exact_mod_cast h.tileWidth
  have hheight : (0 : ℤ) < t.tileHeight := by exact_mod_cast h.tileHeight
  have hu := Int.emod_nonneg (t.dstX+i'-t.xRot) hwidth.ne'
  have hu' := Int.emod_lt_of_pos (t.dstX+i'-t.xRot) hwidth
  have hv := Int.emod_nonneg (y'-t.yRot) hheight.ne'
  have hv' := Int.emod_lt_of_pos (y'-t.yRot) hheight
  unfold place
  rw [← Int.toNat_of_nonneg hv]
  exact h.tileBit_ne (k := ((t.dstX+i'-t.xRot)%t.tileWidth/32).toNat) (by omega) (by omega) (by omega) hy hi

lemma TiledOn.comp (h₁ : t.TiledOn o P m m₁) (h₂ : t.TiledOn o Q m₁ m₂) (hapart : ∀ y i, P y i → ¬Q y i) :
    t.TiledOn o (fun y i => P y i ∨ Q y i) m m₂ := by
  have hsource : ∀ y i, memBit o m₁ (t.place y i) = memBit o m (t.place y i) :=
    fun y i => h₁.others _ fun y' hy' i' hi' _ => h.place_ne y i hy' hi'
  refine ⟨?_,?_⟩
  · rintro y hy i hi (hP | hQ)
    · rw [h₂.others,h₁.bits y hy i hi hP]
      intro y' hy' i' hi' hQ' heq
      obtain ⟨rfl,rfl⟩ := h.dstBit_inj hy hy' hi hi' heq
      exact hapart y i hP hQ'
    · rw [h₂.bits y hy i hi hQ,hsource,h₁.others (t.dstBit y i)]
      intro y' hy' i' hi' hP' heq
      obtain ⟨rfl,rfl⟩ := h.dstBit_inj hy hy' hi hi' heq
      exact hapart y i hP' hQ
  · intro a ha
    rw [h₂.others a fun y hy i hi hQ => ha y hy i hi (.inr hQ),h₁.others a fun y hy i hi hP => ha y hy i hi (.inl hP)]

omit h in
lemma emod_within {a k n : ℤ} (hk : 0 ≤ k) (hn : 0 < n) (hlt : a%n+k < n) : (a+k)%n = a%n+k := by
  have hnonneg := Int.emod_nonneg a hn.ne'
  rw [← Int.emod_add_emod,Int.emod_eq_of_lt (by omega) hlt]

omit h in
lemma emod_around {a k n : ℤ} (heq : a%n+k = n) : (a+k)%n = 0 := by
  rw [← Int.emod_add_emod,heq,Int.emod_self]

lemma piece_tiled {y v r c u w : ℕ} (hw : 0 < w) (hr : y+r ≤ t.height) (hc : c+w ≤ t.width)
    (hY : (y-t.yRot)%t.tileHeight = v) (hX : (t.dstX+c-t.xRot)%t.tileWidth = u)
    (hYr : v+r ≤ t.tileHeight) (hXw : u+w ≤ t.tileWidth) (m : ℤ → FbBits) :
    ∃ s, fbBlt o (t.piece y v r (t.dstX+c) u w) m = some s ∧
      t.TiledOn o (fun y' i => (y ≤ y' ∧ y' < y+r) ∧ c ≤ i ∧ i < c+w) m s.mem := by
  have hwidth : (0 : ℤ) < t.tileWidth := by exact_mod_cast h.tileWidth
  have hheight : (0 : ℤ) < t.tileHeight := by exact_mod_cast h.tileHeight
  have hdst : ∀ k i : ℕ, (t.piece y v r (t.dstX+c) u w).dstBit k i = t.dstBit (y+k) (c+i) := by
    intro k i
    unfold Blt.dstBit dstBit piece
    push_cast
    ring
  have hsrc : ∀ k < r, ∀ i < w, (t.piece y v r (t.dstX+c) u w).srcBit k i = t.place (y+k) (c+i) := by
    intro k hk i hi
    have hrow : ((y+k : ℕ)-t.yRot)%t.tileHeight = v+k := by
      have hat : ((y+k : ℕ) : ℤ)-t.yRot = y-t.yRot+k := by push_cast; ring
      rw [hat,emod_within (by omega) hheight (by omega),hY]
    have hcolumn : (t.dstX+(c+i : ℕ)-t.xRot)%t.tileWidth = u+i := by
      have hat : t.dstX+(c+i : ℕ)-t.xRot = t.dstX+c-t.xRot+i := by push_cast; ring
      rw [hat,emod_within (by omega) hwidth (by omega),hX]
    unfold place
    rw [hrow,hcolumn]
    unfold Blt.srcBit tileBit piece
    push_cast
    ring
  have hapart : (t.piece y v r (t.dstX+c) u w).Apart := by
    refine ⟨?_,?_⟩
    · intro k hk k' hk' hne i hi i' hi' heq
      change k < r at hk
      change k' < r at hk'
      change i < w at hi
      change i' < w at hi'
      rw [hdst,hdst] at heq
      have hrow := h.rows _ (by omega) _ (by omega) _ (by omega) _ (by omega) heq
      omega
    · intro k hk k' hk' i hi i' hi' heq
      change k < r at hk
      change k' < r at hk'
      change i < w at hi
      change i' < w at hi'
      rw [hsrc k hk i hi,hdst] at heq
      exact h.place_ne _ _ (by omega) (by omega) heq
  obtain ⟨s,hs,hbits,hothers,-⟩ := fbBlt_rasterOp o (t.piece y v r (t.dstX+c) u w) m hw (.inl hapart)
  refine ⟨s,hs,?_,?_⟩
  · rintro y' hy' i hi ⟨⟨hy,hyr⟩,hci,hicw⟩
    obtain ⟨k,rfl⟩ := Nat.exists_eq_add_of_le hy
    obtain ⟨j,rfl⟩ := Nat.exists_eq_add_of_le hci
    have hbit := hbits k (show k < r by omega) j (show j < w by omega)
    rw [hdst,hsrc k (by omega) j (by omega)] at hbit
    have hplace : (t.dstX+(c+j : ℕ))%32 = (t.dstX+c+j)%32 := by push_cast; rw [add_assoc]
    rw [hbit,hplace]
    rfl
  · intro a ha
    apply hothers
    intro k hk i hi heq
    change k < r at hk
    change i < w at hi
    rw [hdst] at heq
    exact ha (y+k) (by omega) (c+i) (by omega) (by omega) heq

lemma oddColumns_tiled {y v r : ℕ} (hr : y+r ≤ t.height) (hY : (y-t.yRot)%t.tileHeight = v)
    (hYr : v+r ≤ t.tileHeight) (n : ℕ) {k c u : ℕ} (hn : k ≤ n) (hc : c+k = t.width)
    (hX : 0 < k → (t.dstX+c-t.xRot)%t.tileWidth = u) (m : ℤ → FbBits) :
    ∃ m', t.oddColumns o y v r n k (t.dstX+c) u m = some m' ∧
      t.TiledOn o (fun y' i => (y ≤ y' ∧ y' < y+r) ∧ c ≤ i) m m' := by
  induction n generalizing k c u m with
  | zero =>
    obtain rfl : k = 0 := by omega
    exact ⟨m,by simp [oddColumns],.none o (by omega)⟩
  | succ n ih =>
    obtain _ | k := k
    · exact ⟨m,by simp [oddColumns],.none o (by omega)⟩
    · have hwidth : (0 : ℤ) < t.tileWidth := by exact_mod_cast h.tileWidth
      have hlt := Int.emod_lt_of_pos (t.dstX+c-t.xRot) hwidth
      rw [hX (by omega)] at hlt
      obtain ⟨w,hwmin⟩ : ∃ w, w = min (t.tileWidth-u) (k+1) := ⟨_,rfl⟩
      obtain ⟨s,hs,hpiece⟩ := piece_tiled o h (y := y) (v := v) (r := r) (c := c) (u := u) (w := w)
        (by omega) hr (by omega) hY (hX (by omega)) hYr (by omega) m
      obtain ⟨m',hm',hrest⟩ := ih (k := k+1-w) (c := c+w) (u := 0) (by omega) (by omega) (fun hmore => by
        have hat : t.dstX+(c+w : ℕ)-t.xRot = t.dstX+c-t.xRot+w := by push_cast; ring
        rw [hat,Nat.cast_zero]
        apply emod_around
        rw [hX (by omega)]
        omega) s.mem
      refine ⟨m',?_,(hpiece.comp o h hrest (by omega)).congr o fun y' _ i _ => by omega⟩
      unfold oddColumns
      dsimp only
      rw [← hwmin,hs]
      rw [Nat.cast_add,← add_assoc] at hm'
      exact hm'

lemma oddRows_tiled (n : ℕ) {k y v : ℕ} (hn : k ≤ n) (hy : y+k = t.height)
    (hY : 0 < k → (y-t.yRot)%t.tileHeight = v) (m : ℤ → FbBits) :
    ∃ m', t.oddRows o n k y v m = some m' ∧ t.TiledOn o (fun y' _ => y ≤ y') m m' := by
  induction n generalizing k y v m with
  | zero =>
    obtain rfl : k = 0 := by omega
    exact ⟨m,by simp [oddRows],.none o (by omega)⟩
  | succ n ih =>
    obtain _ | k := k
    · exact ⟨m,by simp [oddRows],.none o (by omega)⟩
    · have hwidth : (0 : ℤ) < t.tileWidth := by exact_mod_cast h.tileWidth
      have hheight : (0 : ℤ) < t.tileHeight := by exact_mod_cast h.tileHeight
      have hlt := Int.emod_lt_of_pos (y-t.yRot) hheight
      rw [hY (by omega)] at hlt
      have hX : (t.dstX+(0 : ℕ)-t.xRot)%t.tileWidth = (modulus (t.dstX-t.xRot) t.tileWidth).toNat := by
        rw [modulus_eq hwidth,Int.toNat_of_nonneg (Int.emod_nonneg _ hwidth.ne'),Nat.cast_zero,add_zero]
      obtain ⟨r,hrmin⟩ : ∃ r, r = min (t.tileHeight-v) (k+1) := ⟨_,rfl⟩
      obtain ⟨m₁,hm₁,hband⟩ := oddColumns_tiled o h (y := y) (v := v) (r := r) (by omega) (hY (by omega)) (by omega)
        t.width le_rfl (Nat.zero_add _) (fun _ => hX) m
      obtain ⟨m₂,hm₂,hrest⟩ := ih (k := k+1-r) (y := y+r) (v := 0) (by omega) (by omega) (fun hmore => by
        have hat : ((y+r : ℕ) : ℤ)-t.yRot = y-t.yRot+r := by push_cast; ring
        rw [hat,Nat.cast_zero]
        apply emod_around
        rw [hY (by omega)]
        omega) m₁
      refine ⟨m₂,?_,(hband.comp o h hrest (by omega)).congr o fun y' _ i _ => by omega⟩
      unfold oddRows
      dsimp only
      rw [Nat.cast_zero,add_zero] at hm₁
      rw [← hrmin,hm₁]
      rw [Nat.cast_add] at hm₂
      exact hm₂

lemma fbOddTile_tiled (m : ℤ → FbBits) : ∃ m', t.fbOddTile o m = some m' ∧ t.Tiled o m m' := by
  have hheight : (0 : ℤ) < t.tileHeight := by exact_mod_cast h.tileHeight
  have hY : ((0 : ℕ)-t.yRot)%t.tileHeight = (modulus (-t.yRot) t.tileHeight).toNat := by
    rw [modulus_eq hheight,Int.toNat_of_nonneg (Int.emod_nonneg _ hheight.ne'),Nat.cast_zero,zero_sub]
  obtain ⟨m',hm',htiled⟩ := oddRows_tiled o h t.height le_rfl (Nat.zero_add _) (fun _ => hY) m
  exact ⟨m',hm',htiled.all o fun y _ i _ => Nat.zero_le y⟩

omit h in
lemma isEvenTile_dvd {w : ℕ} (hw : 0 < w) (heven : isEvenTile w = true) : w ≤ 32 ∧ w ∣ 32 := by
  have hle : w ≤ 32 := by
    simp only [isEvenTile,Bool.and_eq_true,decide_eq_true_eq] at heven
    exact heven.1
  have hall : ∀ w < 33, 0 < w → isEvenTile w = true → w ∣ 32 := by decide
  exact ⟨hle,hall w (by omega) hw heven⟩

lemma TiledOn.padded (htiled : t.TiledOn o P m m₁) (heven : isEvenTile t.tileWidth = true) (hpad : t.Padded o m) :
    t.Padded o m₁ := by
  have hkept : ∀ v < t.tileHeight, ∀ q : ℕ, q < 32 → memBit o m₁ (t.tileBit q v) = memBit o m (t.tileBit q v) := by
    intro v hv q hq
    apply htiled.others
    intro y hy i hi _
    exact h.tileBit_ne (k := 0) hv (by simpa using h.tileWidth) (by omega) hy hi
  intro v hv p hp
  have hle := (isEvenTile_dvd h.tileWidth heven).1
  have hlt := Nat.mod_lt p h.tileWidth
  rw [hkept v hv p hp,hkept v hv _ (by omega),hpad v hv p hp]

lemma rotated_bit (heven : isEvenTile t.tileWidth = true) (hpad : t.Padded o m) (y i : ℕ) :
    scrBit o (fbRotLeft o (m (t.tile+(y-t.yRot)%t.tileHeight*t.tileStride)) (modulus (-t.xRot) 32).toNat)
      ((t.dstX+i)%32).toNat = memBit o m (t.place y i) := by
  obtain ⟨hle,hdvd⟩ := isEvenTile_dvd h.tileWidth heven
  have hheight : (0 : ℤ) < t.tileHeight := by exact_mod_cast h.tileHeight
  have hv := Int.emod_nonneg (y-t.yRot) hheight.ne'
  have hv' := Int.emod_lt_of_pos (y-t.yRot) hheight
  rw [modulus_eq (by decide),fbRotLeft_bit o _ (by omega) (by omega)]
  obtain ⟨q,hq,hq'⟩ : ∃ q : ℕ, q < 32 ∧ (q : ℤ) = (t.dstX+i-t.xRot)%32 := ⟨((t.dstX+i-t.xRot)%32).toNat,by omega,by omega⟩
  have hplace : ((-t.xRot%32).toNat+((t.dstX+i)%32).toNat)%32 = q := by omega
  have hcolumn : ((q%t.tileWidth : ℕ) : ℤ) = (t.dstX+i-t.xRot)%t.tileWidth := by
    rw [Int.natCast_mod,hq']
    exact Int.emod_emod_of_dvd _ (by exact_mod_cast hdvd)
  have hword := hpad ((y-t.yRot)%t.tileHeight).toNat (by omega) q hq
  rw [Int.toNat_of_nonneg hv,hcolumn] at hword
  rw [hplace]
  refine Eq.trans ?_ hword
  exact (bit_word 32 (scrBit o) m _ hq).symm

lemma evenRow_tiled (hw : 0 < t.width) (heven : isEvenTile t.tileWidth = true) (hpad : t.Padded o m) {y : ℕ}
    (hy : y < t.height) : t.TiledOn o (fun y' _ => y' = y) m
      (t.evenRow o (fbRotLeft o (m (t.tile+(y-t.yRot)%t.tileHeight*t.tileStride)) (modulus (-t.xRot) 32).toNat)
        ⟨m,t.dstBit y 0/32⟩).mem := by
  have hvalue := (evenRow_value o (t := t) (y := y) hw
    (fbRotLeft o (m (t.tile+(y-t.yRot)%t.tileHeight*t.tileStride)) (modulus (-t.xRot) 32).toNat) m).1
  refine ⟨?_,?_⟩
  · rintro y hy i hi rfl
    have hcov : (t.pattern o y (fbRotLeft o (m (t.tile+(y-t.yRot)%t.tileHeight*t.tileStride))
        (modulus (-t.xRot) 32).toNat)).Covers (t.dstBit y i) := by
      unfold Sweep.Covers pattern
      rw [dstBit_add i]
      dsimp only
      omega
    have hplace : t.dstBit y i%32 = (t.dstX+i)%32 := by
      unfold dstBit
      omega
    have hbit := hvalue (t.dstBit y i)
    rw [Sweep.value,if_pos hcov] at hbit
    unfold pattern at hbit
    dsimp only at hbit
    rw [hplace,rotated_bit o h heven hpad] at hbit
    exact hbit
  · intro a ha
    rw [hvalue]
    refine if_neg fun hcov => ?_
    unfold Sweep.Covers pattern at hcov
    dsimp only at hcov
    refine ha y hy (a-t.dstBit y 0).toNat (by omega) rfl ?_
    rw [dstBit_add,Int.toNat_of_nonneg (by omega)]
    ring

lemma nextLine_eq (y : ℕ) : (if t.tile+t.tileHeight*t.tileStride ≤ t.tile+(y-t.yRot)%t.tileHeight*t.tileStride+t.tileStride
    then t.tile else t.tile+(y-t.yRot)%t.tileHeight*t.tileStride+t.tileStride) =
    t.tile+((y+1 : ℕ)-t.yRot)%t.tileHeight*t.tileStride := by
  have hheight : (0 : ℤ) < t.tileHeight := by exact_mod_cast h.tileHeight
  have hlt := Int.emod_lt_of_pos (y-t.yRot) hheight
  have hat : ((y+1 : ℕ) : ℤ)-t.yRot = y-t.yRot+1 := by push_cast; ring
  have hnext : t.tile+(y-t.yRot)%t.tileHeight*t.tileStride+t.tileStride =
      t.tile+((y-t.yRot)%t.tileHeight+1)*t.tileStride := by ring
  rw [hnext,hat]
  obtain hlast | hmore : (y-t.yRot)%t.tileHeight+1 = t.tileHeight ∨ (y-t.yRot)%t.tileHeight+1 < t.tileHeight := by omega
  · rw [hlast,if_pos (le_refl _),emod_around hlast]
    ring
  · have hmul := Int.mul_lt_mul_of_pos_right hmore h.tileStride
    rw [if_neg (by omega),emod_within (by decide) hheight hmore]

lemma evenRows_tiled (hw : 0 < t.width) (heven : isEvenTile t.tileWidth = true) (n : ℕ) {y : ℕ} (hy : y+n = t.height)
    (hpad : t.Padded o m) : t.TiledOn o (fun y' _ => y ≤ y') m
      (t.evenRows o n (t.tile+(y-t.yRot)%t.tileHeight*t.tileStride) ⟨m,t.dstBit y 0/32⟩).mem := by
  induction n generalizing y m with
  | zero => exact .none o (by omega)
  | succ n ih =>
    have hrow := evenRow_tiled o h hw heven hpad (y := y) (by omega)
    have hdst := (evenRow_value o (t := t) (y := y) hw
      (fbRotLeft o (m (t.tile+(y-t.yRot)%t.tileHeight*t.tileStride)) (modulus (-t.xRot) 32).toNat) m).2
    have hline : t.dstBit y 0/32+t.dstStride = t.dstBit (y+1) 0/32 := by
      unfold dstBit
      push_cast
      rw [add_mul,one_mul]
      omega
    have hrest := ih (y := y+1) (by omega) (hrow.padded o h heven hpad)
    unfold evenRows
    dsimp only
    rw [nextLine_eq h,hdst,hline]
    exact (hrow.comp o h hrest (by omega)).congr o fun y' _ i _ => by omega

lemma fbEvenTile_tiled (hw : 0 < t.width) (heven : isEvenTile t.tileWidth = true) (hpad : t.Padded o m) :
    t.Tiled o m (t.fbEvenTile o m) := by
  have hheight : (0 : ℤ) < t.tileHeight := by exact_mod_cast h.tileHeight
  have hrows := evenRows_tiled o h hw heven t.height (y := 0) (Nat.zero_add _) hpad
  have hstart : t.dstBit 0 0/32 = t.dst+t.dstX/32 := by
    unfold dstBit
    simp only [Nat.cast_zero,zero_mul,add_zero]
    omega
  rw [hstart,Nat.cast_zero,zero_sub,← modulus_eq hheight] at hrows
  exact hrows.all o fun y _ i _ => Nat.zero_le y

end Placed

/-- Tiling has one meaning: whatever the rotation, bit `i` of row `y` comes from the bit of the tile at its place modulo the
size of the tile, and where the rotated words do for the tile the copies give the same. -/
theorem fbTile_tiled (t : Tile) (m : ℤ → FbBits) (h : t.WellPlaced) (hw : 0 < t.width)
    (hpad : isEvenTile t.tileWidth = true → t.Padded o m) :
    ∃ m', t.fbTile o m = some m' ∧
      (∀ y < t.height, ∀ i < t.width, memBit o m' (t.dstBit y i) =
        if scrBit o t.pm ((t.dstX+i)%32).toNat then
          t.alu.apply (memBit o m (t.tileBit ((t.dstX+i-t.xRot)%t.tileWidth) ((y-t.yRot)%t.tileHeight)))
            (memBit o m (t.dstBit y i))
        else memBit o m (t.dstBit y i)) ∧
      (∀ a, (∀ y < t.height, ∀ i < t.width, a ≠ t.dstBit y i) → memBit o m' a = memBit o m a) ∧
      (isEvenTile t.tileWidth = true → t.fbOddTile o m = some (t.fbEvenTile o m)) := by
  obtain ⟨m',hm',htiled⟩ := fbOddTile_tiled o h m
  have hsame : isEvenTile t.tileWidth = true → t.fbOddTile o m = some (t.fbEvenTile o m) := by
    intro heven
    rw [hm',htiled.unique o (fbEvenTile_tiled o h hw heven (hpad heven))]
  refine ⟨m',?_,htiled.bits,htiled.others,hsame⟩
  unfold fbTile
  split_ifs with heven
  · rw [← hsame heven,hm']
  · exact hm'

def fourByTwo : Tile := ⟨0,2,5,40,3,100,1,4,2,.xor,fbAllOnes,-3,-1⟩

theorem fbTile_tiled_fourByTwo :
    ∃ m', fourByTwo.fbTile .lsbFirst (fun k => if k = 100 then 0xCCCCCCCC else 0) = some m' ∧
      memBit .lsbFirst m' (fourByTwo.dstBit 1 2) = true := by
  have hplaced : fourByTwo.WellPlaced := by
    refine ⟨by decide,by decide,by decide,?_,?_⟩
    · intro y hy y' hy' i hi i' hi' heq
      simp only [fourByTwo,dstBit] at *
      omega
    · intro y hy i hi v hv k hk
      simp only [fourByTwo,dstBit] at *
      omega
  obtain ⟨m',hm',hbits,-⟩ := fbTile_tiled .lsbFirst fourByTwo (fun k => if k = 100 then 0xCCCCCCCC else 0) hplaced
    (by decide) (fun _ => by decide)
  exact ⟨m',hm',(hbits 1 (by decide) 2 (by decide)).trans (by decide)⟩

end Tile

end Xlibre.Fb
