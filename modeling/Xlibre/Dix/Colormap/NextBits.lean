import Mathlib.Data.BitVec
import Xlibre.Lib.Submasks

/-! `GetNextBitsOrBreak` in 32-bit words: counting in binary with the bits of a mask. -/
namespace Xlibre.Dix.Colormap
open Lib.Submasks

/-- `Pixel` -/
abbrev PixelWord := BitVec 32

/-- The macro `lowbit`. -/
def lowestBit (x : PixelWord) : PixelWord := x &&& (~~~x + 1)

/-- The inner loop. Nothing when it takes more rounds than it is given. -/
def addOutside (mask : PixelWord) : ℕ → PixelWord → Option PixelWord
  | 0, _ => none
  | rounds+1, bits => if bits &&& ~~~mask = 0 then some bits else addOutside mask rounds (bits + (bits &&& ~~~mask))

/-- `GetNextBitsOrBreak`; a break leaves no next value. -/
def getNextBitsOrBreak (mask base : PixelWord) (rounds : ℕ) (bits : PixelWord) : Option (Option PixelWord) :=
  if bits = mask then some none else (addOutside mask rounds (bits + base)).map some

/-- The values in a `while (1)` around it, with so many rounds of that loop and of the inner one. -/
def visited (mask base : PixelWord) (inner : ℕ) : ℕ → PixelWord → Option (List PixelWord)
  | 0, _ => none
  | rounds+1, bits =>
    match getNextBitsOrBreak mask base inner bits with
    | none => none
    | some none => some [bits]
    | some (some next) => (visited mask base inner rounds next).map (bits::·)

section Words
variable {mask bits s : PixelWord} {n i rounds inner : ℕ}

lemma toNat_outside : (bits &&& ~~~mask).toNat = andNot bits.toNat mask.toNat := by
  apply Nat.eq_of_testBit_eq
  intro i
  rw [testBit_andNot,BitVec.testBit_toNat,BitVec.testBit_toNat,BitVec.testBit_toNat,BitVec.getLsbD_and,BitVec.getLsbD_not]
  obtain hi | hi := Nat.lt_or_ge i 32
  · rw [decide_eq_true hi,Bool.true_and]
  · rw [BitVec.getLsbD_of_ge bits i hi,Bool.false_and,Bool.false_and]

lemma outside_eq_zero : bits &&& ~~~mask = 0 ↔ Within bits.toNat mask.toNat := by
  rw [within_iff_andNot,← toNat_outside,BitVec.toNat_eq]
  rfl

lemma toNat_lowestBit (hmask : mask ≠ 0) : (lowestBit mask).toNat = lowbit 32 mask.toNat := by
  have hpos : 0 < mask.toNat := Nat.pos_of_ne_zero fun h => hmask (BitVec.eq_of_toNat_eq h)
  have hlt := mask.isLt
  have hneg : ~~~mask + 1 = -mask := (BitVec.neg_eq_not_add mask).symm
  unfold lowestBit lowbit
  rw [hneg,BitVec.toNat_and,BitVec.toNat_neg,Nat.mod_eq_of_lt (by omega)]

lemma le_carry (mask fuel bits : ℕ) : bits ≤ carry mask fuel bits := by
  induction fuel generalizing bits with
  | zero => exact le_rfl
  | succ fuel ih =>
    rw [carry]
    split_ifs
    · exact le_rfl
    · exact (Nat.le_add_right _ _).trans (ih _)

lemma addOutside_eq {fuel : ℕ} (h : Within (carry mask.toNat fuel bits.toNat) mask.toNat) :
    addOutside mask (fuel+1) bits = some (BitVec.ofNat 32 (carry mask.toNat fuel bits.toNat)) := by
  induction fuel generalizing bits with
  | zero =>
    rw [addOutside,if_pos (outside_eq_zero.2 h)]
    exact congrArg some (BitVec.ofNat_toNat 32 bits).symm
  | succ fuel ih =>
    rw [addOutside]
    by_cases hin : Within bits.toNat mask.toNat
    · rw [if_pos (outside_eq_zero.2 hin),carry_of_within ((within_iff_andNot _ _).1 hin),BitVec.ofNat_toNat,BitVec.setWidth_eq]
    · rw [if_neg (mt outside_eq_zero.1 hin)]
      rw [carry,if_neg (mt (within_iff_andNot _ _).2 hin)] at h ⊢
      have hlt : bits.toNat + andNot bits.toNat mask.toNat < 2^32 :=
        Nat.lt_of_le_of_lt ((le_carry mask.toNat fuel _).trans h.le) mask.isLt
      have hsum : (bits + (bits &&& ~~~mask)).toNat = bits.toNat + andNot bits.toNat mask.toNat := by
        rw [BitVec.toNat_add,toNat_outside,Nat.mod_eq_of_lt hlt]
      rw [← hsum] at h ⊢
      exact ih h

/-- The `i`-th value: the bits of `i` in those of the mask. -/
def nth (mask : PixelWord) (i : ℕ) : PixelWord := BitVec.ofNat 32 (deposit mask.toNat i)

lemma toNat_nth : (nth mask i).toNat = deposit mask.toNat i := by
  unfold nth
  rw [BitVec.toNat_ofNat,Nat.mod_eq_of_lt (Nat.lt_of_le_of_lt (within_deposit _ _).le mask.isLt)]

lemma nth_inj {j : ℕ} (hi : i < 2^pop mask.toNat) (hj : j < 2^pop mask.toNat) (h : nth mask i = nth mask j) : i = j := by
  have hdeposit : deposit mask.toNat i = deposit mask.toNat j := by rw [← toNat_nth,h,toNat_nth]
  obtain hlt | rfl | hgt := Nat.lt_trichotomy i j
  · have := deposit_lt hlt hj
    omega
  · rfl
  · have := deposit_lt hgt hi
    omega

lemma nth_last : nth mask (2^pop mask.toNat - 1) = mask := by
  unfold nth
  rw [deposit_last,BitVec.ofNat_toNat,BitVec.setWidth_eq]

lemma getNextBits_nth (hmask : mask ≠ 0) (hinner : 33 ≤ inner) (hi : i < 2^pop mask.toNat) :
    getNextBitsOrBreak mask (lowestBit mask) inner (nth mask i) =
      some (if i + 1 = 2^pop mask.toNat then none else some (nth mask (i+1))) := by
  have hpos := Nat.two_pow_pos (pop mask.toNat)
  unfold getNextBitsOrBreak
  by_cases hlast : i + 1 = 2^pop mask.toNat
  · have hend : nth mask i = mask := by
      rw [show i = 2^pop mask.toNat - 1 by omega]
      exact nth_last
    rw [if_pos hend,if_pos hlast]
  · have hne : nth mask i ≠ mask := by
      intro he
      have := nth_inj hi (show 2^pop mask.toNat - 1 < 2^pop mask.toNat by omega) (he.trans nth_last.symm)
      omega
    obtain ⟨fuel,rfl⟩ := Nat.exists_eq_add_of_le' (show 1 ≤ inner by omega)
    have hcarry : carry mask.toNat fuel (deposit mask.toNat i + lowbit 32 mask.toNat) = deposit mask.toNat (i+1) :=
      carry_lowbit 32 mask.toNat i fuel (by omega) (Nat.lt_of_lt_of_le mask.isLt (Nat.pow_le_pow_right (by omega) (by omega)))
        mask.isLt
    have hsum : (nth mask i + lowestBit mask).toNat = deposit mask.toNat i + lowbit 32 mask.toNat := by
      have hle := le_carry mask.toNat fuel (deposit mask.toNat i + lowbit 32 mask.toNat)
      rw [hcarry] at hle
      rw [BitVec.toNat_add,toNat_nth,toNat_lowestBit hmask,
        Nat.mod_eq_of_lt (Nat.lt_of_le_of_lt (hle.trans (within_deposit _ _).le) mask.isLt)]
    rw [← hsum] at hcarry
    rw [if_neg hne,if_neg hlast,addOutside_eq (by rw [hcarry]; exact within_deposit _ _),hcarry]
    rfl

lemma visited_nth (hmask : mask ≠ 0) (hinner : 33 ≤ inner) (hi : i < 2^pop mask.toNat) (hrounds : 2^pop mask.toNat ≤ i + rounds) :
    visited mask (lowestBit mask) inner rounds (nth mask i) =
      some ((List.range' i (2^pop mask.toNat - i)).map (nth mask)) := by
  induction rounds generalizing i with
  | zero => omega
  | succ rounds ih =>
    rw [visited,getNextBits_nth hmask hinner hi]
    split_ifs with hlast
    · rw [show 2^pop mask.toNat - i = 1 by omega]
      rfl
    · dsimp only
      rw [ih (by omega) (by omega),show 2^pop mask.toNat - i = 2^pop mask.toNat - (i+1) + 1 by omega,List.range'_succ]
      rfl

lemma nth_zero : nth mask 0 = 0 := by
  obtain ⟨i,hi,hd⟩ := exists_deposit (show Within 0 mask.toNat by simp [Within])
  have hzero : deposit mask.toNat 0 = 0 := by
    obtain rfl | hpos := Nat.eq_zero_or_pos i
    · exact hd
    · have := deposit_lt hpos hi
      omega
  unfold nth
  rw [hzero]
  rfl

/-- The loop ends, and has had every submask, each once, from zero up to the mask itself. -/
theorem getNextBits_visits (mask : PixelWord) (hmask : mask ≠ 0) : ∃ values : List PixelWord,
    (∀ rounds inner, mask.toNat < rounds → 33 ≤ inner → visited mask (lowestBit mask) inner rounds 0 = some values) ∧
    values.Pairwise (· < ·) ∧ (∀ s, s ∈ values ↔ s &&& ~~~mask = 0) ∧ values.head? = some 0 ∧ values.getLast? = some mask := by
  have hpos := Nat.two_pow_pos (pop mask.toNat)
  have hones : 2^pop mask.toNat - 1 ≤ mask.toNat := ones_le mask.toNat
  obtain ⟨n,hn⟩ := Nat.exists_eq_succ_of_ne_zero hpos.ne'
  refine ⟨(List.range (2^pop mask.toNat)).map (nth mask),fun rounds inner hrounds hinner => ?_,?_,fun s => ?_,?_,?_⟩
  · have hrun : visited mask (lowestBit mask) inner rounds (nth mask 0) = some ((List.range' 0 (2^pop mask.toNat - 0)).map (nth mask)) :=
      visited_nth hmask hinner hpos (by omega)
    rwa [nth_zero,Nat.sub_zero,← List.range_eq_range'] at hrun
  · rw [List.pairwise_map]
    apply List.pairwise_lt_range.imp_of_mem
    intro i j _ hj hlt
    rw [BitVec.lt_def,toNat_nth,toNat_nth]
    exact deposit_lt hlt (List.mem_range.1 hj)
  · rw [outside_eq_zero,List.mem_map]
    constructor
    · rintro ⟨i,-,rfl⟩
      rw [toNat_nth]
      exact within_deposit mask.toNat i
    · intro h
      obtain ⟨i,hi,hd⟩ := exists_deposit h
      refine ⟨i,List.mem_range.2 hi,?_⟩
      unfold nth
      rw [hd,BitVec.ofNat_toNat,BitVec.setWidth_eq]
  · rw [hn,List.range_succ_eq_map,List.map_cons,nth_zero]
    rfl
  · have hend : nth mask n = mask := by
      rw [show n = 2^pop mask.toNat - 1 by omega]
      exact nth_last
    rw [hn,List.range_succ,List.map_append,List.map_singleton,List.getLast?_concat,hend]

/-- The mask of the example in the source. -/
theorem getNextBits_visits_ten : ∃ values : List PixelWord,
    (∀ rounds inner, (10 : PixelWord).toNat < rounds → 33 ≤ inner → visited 10 (lowestBit 10) inner rounds 0 = some values) ∧
    values.Pairwise (· < ·) ∧ (∀ s, s ∈ values ↔ s &&& ~~~10 = 0) ∧ values.head? = some 0 ∧ values.getLast? = some 10 :=
  getNextBits_visits 10 (by decide)

end Words

end Xlibre.Dix.Colormap
