import Xlibre.Fb.Blt

/-! The words of a row of bits: what the masks of `FbMaskBitsBytes` cover, and what the stores at its edges leave. -/
namespace Xlibre.Fb

variable (o : BitOrder)

/-- The first whole word of the bits from `x`. -/
def firstFull (x : ℤ) : ℤ := if x%32 = 0 then x/32 else x/32+1

lemma le_firstFull (x : ℤ) : x ≤ 32*firstFull x := by
  unfold firstFull
  split_ifs <;> omega

lemma fbMaskBitsBytes_add (x l w : ℤ) (copy : Bool) :
    fbMaskBitsBytes o (32*l+x) w copy = fbMaskBitsBytes o x w copy := by
  have h₁ : (32*l+x+w)%32 = (x+w)%32 := by omega
  have h₂ : (32*l+x)%32 = x%32 := by omega
  have h₃ : (32*l+x+w)%8 = (x+w)%8 := by omega
  have h₄ : (32*l+x)%8 = x%8 := by omega
  have h₅ : (32-(32*l+x+w))%32 = (32-(x+w))%32 := by omega
  have hleft : fbLeftMask o (32*l+x) = fbLeftMask o x := by unfold fbLeftMask; rw [h₂]
  have hright : fbRightMask o (32*l+x+w) = fbRightMask o (x+w) := by unfold fbRightMask; rw [h₅]
  unfold fbMaskBitsBytes
  rw [hleft,hright,h₁,h₂,h₃,h₄]

section Values

variable {x w : ℤ} {c : Bool}

lemma masks_single (hx : x%32 ≠ 0) (hs : x%32+w < 32) :
    (fbMaskBitsBytes o x w c).startmask = fbLeftMask o x &&& fbRightMask o (x+w) ∧
    (fbMaskBitsBytes o x w c).nmiddle = 0 ∧ (fbMaskBitsBytes o x w c).endmask = 0 := by
  have hl : fbLeftMask o x ≠ 0 := (fbLeftMask_ne_zero o x).mpr hx
  have hn : w-(32-x%32) < 0 := by omega
  simp only [fbMaskBitsBytes,hl,hn,ne_eq,not_false_eq_true,if_true]
  split_ifs <;> exact ⟨rfl,rfl,rfl⟩

lemma masks_left (hx : x%32 ≠ 0) (hs : 32 ≤ x%32+w) :
    (fbMaskBitsBytes o x w c).startmask = fbLeftMask o x ∧
    (fbMaskBitsBytes o x w c).nmiddle = ((w-(32-x%32))/32).toNat ∧
    (fbMaskBitsBytes o x w c).endmask = fbRightMask o (x+w) := by
  have hl : fbLeftMask o x ≠ 0 := (fbLeftMask_ne_zero o x).mpr hx
  have hn : ¬w-(32-x%32) < 0 := by omega
  simp only [fbMaskBitsBytes,hl,hn,ne_eq,not_false_eq_true,if_true,if_false,and_self]

lemma masks_aligned (hx : x%32 = 0) :
    (fbMaskBitsBytes o x w c).startmask = 0 ∧ (fbMaskBitsBytes o x w c).nmiddle = (w/32).toNat ∧
    (fbMaskBitsBytes o x w c).endmask = fbRightMask o (x+w) := by
  have hl : ¬fbLeftMask o x ≠ 0 := fun h => (fbLeftMask_ne_zero o x).mp h hx
  simp only [fbMaskBitsBytes,hl,if_false,and_self]

lemma middle_covered {k : ℕ} (hk : k < (fbMaskBitsBytes o x w c).nmiddle) {p : ℕ} (hp : p < 32) :
    x ≤ 32*(firstFull x+k)+p ∧ 32*(firstFull x+k)+p < x+w := by
  unfold firstFull
  by_cases hx : x%32 = 0
  · rw [(masks_aligned o hx).2.1] at hk
    rw [if_pos hx]
    omega
  · rw [if_neg hx]
    by_cases hs : x%32+w < 32
    · rw [(masks_single o hx hs).2.1] at hk
      omega
    · rw [(masks_left o hx (by omega)).2.1] at hk
      omega

variable (hw : 0 < w)
include hw

lemma startmask_ne_zero : (fbMaskBitsBytes o x w c).startmask ≠ 0 ↔ x%32 ≠ 0 := by
  by_cases hx : x%32 = 0
  · simp [(masks_aligned o (c := c) hx).1,hx]
  · refine ⟨fun _ => hx,fun _ => ?_⟩
    by_cases hs : x%32+w < 32
    · rw [(masks_single o hx hs).1,ne_zero_iff_bit o]
      refine ⟨(x%32).toNat,by omega,?_⟩
      rw [scrBit_and,Bool.and_eq_true,fbLeftMask_bit o _ (by omega),fbRightMask_bit o _ (by omega)]
      omega
    · rw [(masks_left o hx (by omega)).1]
      exact (fbLeftMask_ne_zero o x).mpr hx

lemma startmask_bit (hx : x%32 ≠ 0) {p : ℕ} (hp : p < 32) :
    scrBit o (fbMaskBitsBytes o x w c).startmask p = true ↔ x ≤ 32*(x/32)+p ∧ 32*(x/32)+p < x+w := by
  by_cases hs : x%32+w < 32
  · rw [(masks_single o hx hs).1,scrBit_and,Bool.and_eq_true,fbLeftMask_bit o _ hp,fbRightMask_bit o _ hp]
    omega
  · rw [(masks_left o hx (by omega)).1,fbLeftMask_bit o _ hp]
    omega

lemma endmask_bit (he : (fbMaskBitsBytes o x w c).endmask ≠ 0) {p : ℕ} (hp : p < 32) :
    scrBit o (fbMaskBitsBytes o x w c).endmask p = true ↔
      x ≤ 32*(firstFull x+(fbMaskBitsBytes o x w c).nmiddle)+p ∧
      32*(firstFull x+(fbMaskBitsBytes o x w c).nmiddle)+p < x+w := by
  unfold firstFull
  by_cases hx : x%32 = 0
  · rw [(masks_aligned o hx).2.2] at he ⊢
    rw [(masks_aligned o hx).2.1,if_pos hx,fbRightMask_bit o _ hp]
    omega
  · by_cases hs : x%32+w < 32
    · exact absurd (masks_single o hx hs).2.2 he
    · rw [(masks_left o hx (by omega)).2.2] at he ⊢
      rw [(masks_left o hx (by omega)).2.1,if_neg hx,fbRightMask_bit o _ hp]
      omega

lemma last_word :
    (x+w-1)/32+1 = firstFull x+(fbMaskBitsBytes o x w c).nmiddle +
      if (fbMaskBitsBytes o x w c).endmask ≠ 0 then 1 else 0 := by
  have hr := fbRightMask_ne_zero o (x+w)
  unfold firstFull
  by_cases hx : x%32 = 0
  · rw [(masks_aligned o hx).2.1,(masks_aligned o hx).2.2,if_pos hx,if_congr hr rfl rfl]
    split_ifs <;> omega
  · rw [if_neg hx]
    by_cases hs : x%32+w < 32
    · rw [(masks_single o hx hs).2.1,(masks_single o hx hs).2.2,if_neg (by simp)]
      omega
    · rw [(masks_left o hx (by omega)).2.1,(masks_left o hx (by omega)).2.2,if_congr hr rfl rfl]
      split_ifs <;> omega

end Values

section Stores

variable {x w : ℤ} (alu : Alu) (pm : FbBits)

lemma doMaskRRop_scrBit (dst and xor mask : FbBits) {p : ℕ} (hp : p < 32) :
    scrBit o (fbDoMaskRRop dst and xor mask) p =
      if scrBit o mask p then (scrBit o dst p && scrBit o and p) ^^ scrBit o xor p else scrBit o dst p := by
  split_ifs with hm
  · unfold scrBit at hm ⊢
    simp only [fbDoMaskRRop,BitVec.getLsbD_xor,BitVec.getLsbD_and,BitVec.getLsbD_or,BitVec.getLsbD_not,hm,
      Bool.not_true,Bool.and_false,Bool.or_false,Bool.and_true]
  · rw [Bool.not_eq_true] at hm
    unfold scrBit at hm ⊢
    simp only [fbDoMaskRRop,BitVec.getLsbD_xor,BitVec.getLsbD_and,BitVec.getLsbD_or,BitVec.getLsbD_not,hm,
      place_lt o hp,Bool.not_false,decide_true,Bool.or_true,Bool.and_true,Bool.and_false,Bool.xor_false]

lemma xor_scrBit (src : FbBits) (h : (fbInitializeMergeRop alu pm).destInvarient = true) {p : ℕ} (hp : p < 32)
    (d : Bool) :
    scrBit o ((fbInitializeMergeRop alu pm).xor src) p = merged alu (scrBit o pm p) (scrBit o src p) d :=
  xor_bit_of_destInvarient alu pm src h (place_lt o hp) d

lemma startbyte_cases (hw : 0 < w) (hx : x%32 ≠ 0) (copy : Bool) :
    (fbMaskBitsBytes o x w copy).startbyte = fbByteMaskInvalid ∨
    copy = true ∧ ∃ i j : ℕ, 1 ≤ i ∧ i < j ∧ j ≤ 4 ∧ (fbMaskBitsBytes o x w copy).startbyte = spanCode i j ∧
      x = 32*(x/32)+8*i ∧ (x+w = 32*(x/32)+8*j ∨ j = 4 ∧ 32*(x/32)+32 ≤ x+w) := by
  have hl : fbLeftMask o x ≠ 0 := (fbLeftMask_ne_zero o x).mpr hx
  by_cases hbyte : copy = true ∧ x%8 = 0
  · have hlb : (x%32/8).toNat ≠ fbByteMaskInvalid := by
      simp only [fbByteMaskInvalid]
      omega
    by_cases hs : x%32+w < 32
    · have hn : w-(32-x%32) < 0 := by omega
      have hr : fbRightMask o (x+w) ≠ 0 := (fbRightMask_ne_zero o _).mpr (by omega)
      by_cases hright : (x+w)%8 = 0
      · right
        have hrb : ((x+w)%32/8).toNat ≠ fbByteMaskInvalid := by
          simp only [fbByteMaskInvalid]
          omega
        have hrb0 : ((x+w)%32/8).toNat ≠ 0 := by omega
        refine ⟨hbyte.1,(x%32/8).toNat,((x+w)%32/8).toNat,by omega,by omega,by omega,?_,by omega,by omega⟩
        have hj : ((x+w)%32/8).toNat ≠ 4 := by omega
        simp only [fbMaskBitsBytes,hl,hn,hr,hbyte.1,hbyte.2,hright,hlb,hrb,hrb0,spanCode,hj,ne_eq,
          not_false_eq_true,and_self,if_true,if_false]
      · left
        simp only [fbMaskBitsBytes,hl,hn,hr,hbyte.1,hbyte.2,hright,hlb,ne_eq,not_false_eq_true,and_self,
          and_false,if_true,if_false]
    · right
      have hn : ¬w-(32-x%32) < 0 := by omega
      refine ⟨hbyte.1,(x%32/8).toNat,4,by omega,by omega,by omega,?_,by omega,by omega⟩
      simp only [fbMaskBitsBytes,hl,hn,hbyte.1,hbyte.2,spanCode,ne_eq,not_false_eq_true,and_self,if_true,
        if_false]
  · left
    simp only [fbMaskBitsBytes,hl,hbyte,ne_eq,not_false_eq_true,if_true,if_false,not_true_eq_false]
    split_ifs <;> rfl

lemma endbyte_cases (copy : Bool) (he : (fbMaskBitsBytes o x w copy).endmask ≠ 0) :
    (fbMaskBitsBytes o x w copy).endbyte = fbByteMaskInvalid ∨
    copy = true ∧ ∃ j : ℕ, 1 ≤ j ∧ j ≤ 3 ∧ (fbMaskBitsBytes o x w copy).endbyte = j ∧ (x+w)%32 = 8*j := by
  have hr : fbRightMask o (x+w) ≠ 0 := by
    by_cases hx : x%32 = 0
    · rwa [(masks_aligned o hx).2.2] at he
    · by_cases hs : x%32+w < 32
      · exact absurd (masks_single o hx hs).2.2 he
      · rwa [(masks_left o hx (by omega)).2.2] at he
  have hx32 := (fbRightMask_ne_zero o _).mp hr
  have hvalue : (fbMaskBitsBytes o x w copy).endbyte =
      if copy = true ∧ (x+w)%8 = 0 then ((x+w)%32/8).toNat else fbByteMaskInvalid := by
    by_cases hl : fbLeftMask o x = 0
    · simp only [fbMaskBitsBytes,hl,hr,ne_eq,not_false_eq_true,if_true,if_false,not_true_eq_false]
    · by_cases hn : w-(32-x%32) < 0
      · exact absurd (masks_single o ((fbLeftMask_ne_zero o x).mp hl) (by omega)).2.2 he
      · simp only [fbMaskBitsBytes,hl,hn,hr,ne_eq,not_false_eq_true,if_true,if_false]
  by_cases hbyte : copy = true ∧ (x+w)%8 = 0
  · right
    rw [if_pos hbyte] at hvalue
    exact ⟨hbyte.1,((x+w)%32/8).toNat,by omega,by omega,hvalue,by omega⟩
  · left
    rwa [if_neg hbyte] at hvalue

lemma leftMask_rrop (hw : 0 < w) (hx : x%32 ≠ 0) {copy : Bool} (and xor dst : FbBits) (hand : copy = true → and = 0)
    {p : ℕ} (hp : p < 32) :
    scrBit o (fbDoLeftMaskByteRRop o dst (fbMaskBitsBytes o x w copy).startbyte (fbMaskBitsBytes o x w copy).startmask
      and xor) p =
      if x ≤ 32*(x/32)+p ∧ 32*(x/32)+p < x+w then (scrBit o dst p && scrBit o and p) ^^ scrBit o xor p
      else scrBit o dst p := by
  obtain hinv | ⟨hcopy,i,j,hi,hij,hj,hcode,hxi,hxj⟩ := startbyte_cases o hw hx copy
  · rw [hinv]
    exact (doMaskRRop_scrBit o dst and xor _ hp).trans (if_congr (startmask_bit o hw hx hp) rfl rfl)
  · have hzero : scrBit o (0 : FbBits) p = false := BitVec.getLsbD_zero
    rw [hcode,leftByte_span o hi hij hj _ _ _ _ hp,hand hcopy,hzero,Bool.and_false,Bool.false_xor]
    exact if_congr (by omega) rfl rfl

lemma rightMask_rrop (hw : 0 < w) {copy : Bool} (and xor dst : FbBits) (hand : copy = true → and = 0) {p : ℕ} (hp : p < 32)
    (he : (fbMaskBitsBytes o x w copy).endmask ≠ 0) :
    scrBit o (fbDoRightMaskByteRRop o dst (fbMaskBitsBytes o x w copy).endbyte (fbMaskBitsBytes o x w copy).endmask
      and xor) p =
      if x ≤ 32*(firstFull x+(fbMaskBitsBytes o x w copy).nmiddle)+p ∧
          32*(firstFull x+(fbMaskBitsBytes o x w copy).nmiddle)+p < x+w then
        (scrBit o dst p && scrBit o and p) ^^ scrBit o xor p
      else scrBit o dst p := by
  obtain hinv | ⟨hcopy,j,hj,hj',hcode,hxj⟩ := endbyte_cases o copy he
  · rw [hinv]
    exact (doMaskRRop_scrBit o dst and xor _ hp).trans (if_congr (endmask_bit o hw he hp) rfl rfl)
  · have hzero : scrBit o (0 : FbBits) p = false := BitVec.getLsbD_zero
    have hlast := last_word o (c := copy) (x := x) hw
    have hfirst := le_firstFull x
    rw [if_pos he] at hlast
    rw [hcode,rightByte_span o hj hj' _ _ _ _ hp,hand hcopy,hzero,Bool.and_false,Bool.false_xor]
    exact if_congr (by omega) rfl rfl

/-- The store of the first word is the operation on the bits in it. -/
theorem leftMask_store (hw : 0 < w) (hx : x%32 ≠ 0) (src dst : FbBits) {p : ℕ} (hp : p < 32) :
    let rop := fbInitializeMergeRop alu pm
    let mb := fbMaskBitsBytes o x w rop.destInvarient
    scrBit o (fbDoLeftMaskByteRRop o dst mb.startbyte mb.startmask (rop.and src) (rop.xor src)) p =
      if x ≤ 32*(x/32)+p ∧ 32*(x/32)+p < x+w then merged alu (scrBit o pm p) (scrBit o src p) (scrBit o dst p)
      else scrBit o dst p := by
  intro rop mb
  refine (leftMask_rrop o hw hx (rop.and src) (rop.xor src) dst (fun h => and_eq_zero h src) hp).trans ?_
  exact if_congr Iff.rfl (and_xor_bit alu pm src (place_lt o hp) _) rfl

/-- The store of the last word is the operation on the bits in it. -/
theorem rightMask_store (hw : 0 < w) (src dst : FbBits) {p : ℕ} (hp : p < 32) :
    let rop := fbInitializeMergeRop alu pm
    let mb := fbMaskBitsBytes o x w rop.destInvarient
    mb.endmask ≠ 0 →
    scrBit o (fbDoRightMaskByteRRop o dst mb.endbyte mb.endmask (rop.and src) (rop.xor src)) p =
      if x ≤ 32*(firstFull x+mb.nmiddle)+p ∧ 32*(firstFull x+mb.nmiddle)+p < x+w then
        merged alu (scrBit o pm p) (scrBit o src p) (scrBit o dst p)
      else scrBit o dst p := by
  intro rop mb he
  refine (rightMask_rrop o hw (rop.and src) (rop.xor src) dst (fun h => and_eq_zero h src) hp he).trans ?_
  exact if_congr Iff.rfl (and_xor_bit alu pm src (place_lt o hp) _) rfl

end Stores

end Xlibre.Fb
