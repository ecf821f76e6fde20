import Xlibre.Dix.Colormap.AllocCells

/-! The masks of `AllocCP` and `AllocColorPlanes`: counting their bits and cutting them in three. -/
namespace Xlibre.Dix.Colormap

open Xlibre.Lib.Submasks

section Hakmem

lemma and_digits (w a b x y : ℕ) (hx : x < 2^w) (hy : y < 2^w) :
    (2^w*a+x) &&& (2^w*b+y) = 2^w*(a &&& b)+(x &&& y) := by
  have hpos := Nat.two_pow_pos w
  have h₁ : ((2^w*a+x) &&& (2^w*b+y))/2^w = a &&& b := by
    rw [Nat.and_div_two_pow,Nat.mul_add_div hpos,Nat.mul_add_div hpos,Nat.div_eq_of_lt hx,
      Nat.div_eq_of_lt hy,Nat.add_zero,Nat.add_zero]
  have h₂ : ((2^w*a+x) &&& (2^w*b+y)) % 2^w = x &&& y := by
    rw [Nat.and_mod_two_pow,Nat.mul_add_mod,Nat.mul_add_mod,Nat.mod_eq_of_lt hx,Nat.mod_eq_of_lt hy]
  rw [← h₁,← h₂,Nat.div_add_mod]

/-- `k` octal digits 3. -/
def threes : ℕ → ℕ
  | 0 => 0
  | k+1 => 8*threes k+3

lemma halve_digits (k m x : ℕ) (hx : x < 8) :
    ((8*m+x) >>> 1) &&& threes (k+1) = 8*((m >>> 1) &&& threes k)+x/2 := by
  have h := and_digits 3 (m/2) (threes k) (4*(m % 2)+x/2) 3 (by omega) (by omega)
  have hlow : (4*(m % 2)+x/2) &&& 3 = x/2 := by
    rw [show (3 : ℕ) = 2^2-1 from rfl,Nat.and_two_pow_sub_one_eq_mod]
    omega
  rw [hlow] at h
  rw [Nat.shiftRight_one,Nat.shiftRight_one,threes,show (8*m+x)/2 = 2^3*(m/2)+(4*(m % 2)+x/2) by omega]
  exact h

def digitCounts (k m : ℕ) : ℕ :=
  m-((m >>> 1) &&& threes k)-((((m >>> 1) &&& threes k) >>> 1) &&& threes k)

lemma digitCounts_le (k m : ℕ) :
    ((m >>> 1) &&& threes k)+((((m >>> 1) &&& threes k) >>> 1) &&& threes k) ≤ m := by
  have h₁ : (m >>> 1) &&& threes k ≤ m/2 := by
    rw [Nat.shiftRight_one]
    exact Nat.and_le_left
  have h₂ : (((m >>> 1) &&& threes k) >>> 1) &&& threes k ≤ ((m >>> 1) &&& threes k)/2 := by
    rw [Nat.shiftRight_one ((m >>> 1) &&& threes k)]
    exact Nat.and_le_left
  omega

lemma digitCounts_succ (k m x : ℕ) (hx : x < 8) :
    digitCounts (k+1) (8*m+x) = 8*digitCounts k m+(x-x/2-x/4) := by
  have hle := digitCounts_le k m
  unfold digitCounts
  rw [halve_digits k m x hx,halve_digits k _ (x/2) (by omega)]
  omega

/-- Two digits in each of `k` groups, of which the lower is kept. -/
def sevens : ℕ → ℕ
  | 0 => 0
  | k+1 => 64*sevens k+7

lemma pop_octal (m x : ℕ) (hx : x < 8) : pop (8*m+x) = pop m+(x-x/2-x/4) := by
  rw [pop_div_two,pop_div_two ((8*m+x)/2),pop_div_two ((8*m+x)/2/2)]
  rw [show (8*m+x)/2/2/2 = m by omega]
  omega

lemma sumDigits (k m : ℕ) (hm : m < 64^k) :
    ((digitCounts (2*k) m+digitCounts (2*k) m >>> 3) &&& sevens k) % 63 = pop m % 63 ∧
      digitCounts (2*k) m % 8 ≤ 3 := by
  induction k generalizing m with
  | zero =>
    simp only [pow_zero] at hm
    simp [show m = 0 by omega,digitCounts,sevens]
  | succ k ih =>
    have hdiv : m = 8*(8*(m/64)+m/8 % 8)+m % 8 := by omega
    obtain ⟨h₁,h₂⟩ := ih (m/64) (by rw [pow_succ] at hm; omega)
    generalize hq : m/64 = q at *
    generalize hx : m/8 % 8 = x at *
    generalize hy : m % 8 = y at *
    have hx8 : x < 8 := by omega
    have hy8 : y < 8 := by omega
    have hs : digitCounts (2*(k+1)) m = 64*digitCounts (2*k) q+8*(x-x/2-x/4)+(y-y/2-y/4) := by
      rw [hdiv,show 2*(k+1) = 2*k+1+1 from rfl,digitCounts_succ _ _ _ hy8,digitCounts_succ _ _ _ hx8]
      omega
    have hp : pop m = pop q+(x-x/2-x/4)+(y-y/2-y/4) := by
      rw [hdiv,pop_octal _ _ hy8,pop_octal _ _ hx8]
    rw [Nat.shiftRight_eq_div_pow] at h₁
    rw [hs,hp,Nat.shiftRight_eq_div_pow]
    generalize digitCounts (2*k) q = d at *
    generalize hu : x-x/2-x/4 = u
    generalize hv : y-y/2-y/4 = v
    have hu3 : u ≤ 3 := by omega
    have hv3 : v ≤ 3 := by omega
    refine ⟨?_,by omega⟩
    have hsum : 64*d+8*u+v+(64*d+8*u+v)/2^3 = 2^6*(d+d/2^3)+(8*(u+d % 8)+(u+v)) := by omega
    have hlow : (8*(u+d % 8)+(u+v)) &&& 7 = u+v := by
      rw [show (7 : ℕ) = 2^3-1 from rfl,Nat.and_two_pow_sub_one_eq_mod]
      omega
    rw [hsum,sevens,show (64 : ℕ) = 2^6 from rfl,and_digits 6 _ _ _ _ (by omega) (by omega),hlow]
    omega

lemma digitCounts_bound (k m : ℕ) (hm : m < 8^k) : 7*digitCounts k m+3 ≤ 3*8^k := by
  induction k generalizing m with
  | zero => simp [digitCounts,show m = 0 by simpa using hm]
  | succ k ih =>
    have h₁ := ih (m/8) (by rw [pow_succ] at hm; omega)
    have h₂ := digitCounts_succ k (m/8) (m % 8) (by omega)
    rw [show 8*(m/8)+m % 8 = m by omega] at h₂
    rw [h₂,pow_succ]
    omega

lemma and_threes_succ (k x : ℕ) (hx : x < 8^k) : x &&& threes (k+1) = x &&& threes k := by
  have htop : threes (k+1) = 8^k*3+threes k ∧ threes k < 8^k := by
    clear hx
    induction k with
    | zero => simp [threes]
    | succ k ih =>
      have hsucc : threes (k+1) = 8*threes k+3 := rfl
      have hsucc' : threes (k+1+1) = 8*threes (k+1)+3 := rfl
      rw [pow_succ]
      omega
  have h := and_digits (3*k) 0 3 x (threes k) (by rw [pow_mul]; exact hx) (by rw [pow_mul]; exact htop.2)
  rw [pow_mul] at h
  rw [htop.1]
  simpa using h

lemma digitCounts_of_lt (k m : ℕ) (hm : m < 8^k) : digitCounts (k+1) m = digitCounts k m := by
  have h₁ : m >>> 1 < 8^k := by
    rw [Nat.shiftRight_one]
    omega
  have h₂ : ((m >>> 1) &&& threes k) >>> 1 < 8^k := by
    rw [Nat.shiftRight_one ((m >>> 1) &&& threes k)]
    have : (m >>> 1) &&& threes k ≤ m >>> 1 := Nat.and_le_left
    omega
  unfold digitCounts
  rw [and_threes_succ k _ h₁,and_threes_succ k _ h₂]

/-- The HAKMEM trick counts the ones of a 32-bit word. -/
theorem hakmem_eq_pop (mask : ℕ) (h : mask < 2^32) : hakmem mask = pop mask := by
  have hsum := (sumDigits 6 mask (by omega)).1
  have hpop : pop mask ≤ 32 := by
    have hle : 2^pop mask ≤ 2^32 := by
      have h₁ := le_deposit mask (2^pop mask-1) (by have := Nat.two_pow_pos (pop mask); omega)
      have h₂ := Nat.two_pow_pos (pop mask)
      rw [deposit_last] at h₁
      omega
    exact (Nat.pow_le_pow_iff_right (by omega)).mp hle
  have hbound := digitCounts_bound 11 mask (by omega)
  rw [show 2*6 = 11+1 from rfl,digitCounts_of_lt 11 mask (by omega)] at hsum
  have hrfl : hakmem mask =
      ((digitCounts 11 mask+digitCounts 11 mask >>> 3) &&& 0o30707070707) % 63 := rfl
  have htop : ((digitCounts 11 mask+digitCounts 11 mask >>> 3) &&& sevens 6) =
      ((digitCounts 11 mask+digitCounts 11 mask >>> 3) &&& 0o30707070707) := by
    rw [Nat.shiftRight_eq_div_pow]
    have := and_digits 32 0 1 (digitCounts 11 mask+digitCounts 11 mask/2^3) 0o30707070707 (by omega) (by omega)
    rw [show sevens 6 = 2^32*1+0o30707070707 from rfl]
    simpa using this
  rw [hrfl,← htop,hsum]
  omega

end Hakmem

section Split

lemma pop_shiftRight_succ (m j : ℕ) : pop (m >>> j) = pop (m >>> (j+1))+(m.testBit j).toNat := by
  rw [pop_div_two,Nat.shiftRight_succ,Nat.testBit_eq_decide_div_mod_eq,← Nat.shiftRight_eq_div_pow]
  rcases Nat.mod_two_eq_zero_or_one (m >>> j) with h | h <;> simp [h]

lemma skipTo_spec {mask fuel j : ℕ} (hpop : 0 < pop (mask >>> j)) (hf : mask < 2^(j+fuel)) :
    ∃ i, skipTo mask fuel (2^j) = 2^i ∧ j ≤ i ∧ mask.testBit i = true ∧
      (∀ k, j ≤ k → k < i → mask.testBit k = false) ∧ pop (mask >>> (i+1))+1 = pop (mask >>> j) := by
  induction fuel generalizing j with
  | zero =>
    rw [Nat.add_zero] at hf
    rw [Nat.shiftRight_eq_div_pow,Nat.div_eq_of_lt hf] at hpop
    simp at hpop
  | succ fuel ih =>
    have hsucc := pop_shiftRight_succ mask j
    rw [skipTo,Nat.and_two_pow]
    cases hbit : mask.testBit j with
    | true =>
      rw [if_pos (by simp)]
      rw [hbit,Bool.toNat_true] at hsucc
      exact ⟨j,rfl,le_rfl,hbit,fun k _ _ => by omega,hsucc.symm⟩
    | false =>
      rw [hbit,Bool.toNat_false,Nat.add_zero] at hsucc
      rw [if_neg (by simp),← Nat.two_mul,← Nat.pow_succ']
      obtain ⟨i,h₁,h₂,h₃,h₄,h₅⟩ := ih (hsucc ▸ hpop) (by rwa [show j+1+fuel = j+(fuel+1) by omega])
      refine ⟨i,h₁,by omega,h₃,fun k hk hki => ?_,by omega⟩
      rcases Nat.eq_or_lt_of_le hk with rfl | hlt
      · exact hbit
      · exact h₄ k hlt hki

lemma orAll_cons (a : ℕ) (l : List ℕ) : orAll (a::l) = a ||| orAll l := by
  have h : ∀ (l : List ℕ) (x y : ℕ), l.foldl (· ||| ·) (x ||| y) = x ||| l.foldl (· ||| ·) y := by
    intro l
    induction l with
    | nil => exact fun _ _ => rfl
    | cons b l ih =>
      intro x y
      rw [List.foldl_cons,List.foldl_cons,Nat.or_assoc,ih]
  rw [orAll,List.foldl_cons,Nat.or_comm 0 a,h,orAll]

lemma nextBits_spec {mask k j : ℕ} (hmask : mask < 2^32) (hk : k ≤ pop (mask >>> j)) :
    ∃ j', (nextBits mask k (2^j)).2 = 2^j' ∧ j ≤ j' ∧ pop (mask >>> j')+k = pop (mask >>> j) ∧
      pop (orAll (nextBits mask k (2^j)).1) = k ∧
      ∀ i, (orAll (nextBits mask k (2^j)).1).testBit i = (mask.testBit i && decide (j ≤ i) && decide (i < j')) := by
  induction k generalizing j with
  | zero =>
    refine ⟨j,rfl,le_rfl,rfl,by simp [nextBits,orAll],fun i => ?_⟩
    rcases Nat.lt_or_ge i j with h | h
    · simp [nextBits,orAll,show ¬ j ≤ i by omega]
    · simp [nextBits,orAll,show ¬ i < j by omega]
  | succ k ih =>
    have hlt : mask < 2^(j+32) := hmask.trans_le (Nat.pow_le_pow_right (by omega) (by omega))
    obtain ⟨i,h₁,h₂,h₃,h₄,h₅⟩ := skipTo_spec (by omega) hlt
    obtain ⟨j',h₆,h₇,h₈,h₉,h₁₀⟩ := ih (j := i+1) (by omega)
    have htail : nextBits mask (k+1) (2^j) =
        (2^i::(nextBits mask k (2^(i+1))).1,(nextBits mask k (2^(i+1))).2) := by
      rw [nextBits,h₁,← Nat.two_mul,← Nat.pow_succ']
    rw [htail]
    generalize nextBits mask k (2^(i+1)) = t at *
    have hapart : Apart (2^i) (orAll t.1) := by
      intro x hx
      rw [Nat.testBit_two_pow,decide_eq_true_eq] at hx
      rw [h₁₀,← hx]
      simp
    refine ⟨j',h₆,by omega,by omega,?_,fun x => ?_⟩
    · rw [orAll_cons,pop_or hapart,h₉,show 2^i = 1*2^i by omega,pop_two_pow_mul,show (1 : ℕ) = 2*0+1 from rfl,
        pop_two_mul_add_one,pop_zero]
      omega
    · rw [orAll_cons,Nat.testBit_or,Nat.testBit_two_pow,h₁₀]
      rcases Nat.lt_trichotomy x i with hx | rfl | hx
      · have hbit := h₄ x
        rcases Nat.lt_or_ge x j with hxj | hxj
        · simp [show ¬ i = x by omega,show ¬ i+1 ≤ x by omega,show ¬ j ≤ x by omega]
        · simp [show ¬ i = x by omega,hbit hxj hx]
      · simp [h₃,h₂,show x < j' by omega]
      · simp [show ¬ i = x by omega,show i+1 ≤ x by omega,show j ≤ x by omega]

/-- The three masks have as many bits as asked for, share none and make up the whole. -/
structure Splits (mask r g b : ℕ) (m : ℕ × ℕ × ℕ) : Prop where
  red : pop m.1 = r
  green : pop m.2.1 = g
  blue : pop m.2.2 = b
  redGreen : Apart m.1 m.2.1
  redBlue : Apart m.1 m.2.2
  greenBlue : Apart m.2.1 m.2.2
  whole : m.1 ||| m.2.1 ||| m.2.2 = mask

theorem splitMask_spec {mask r g b : ℕ} (hmask : mask < 2^32) (hpop : pop mask = r+g+b) :
    Splits mask r g b (splitMask mask r g b) := by
  have hstart : nextBits mask r 1 = nextBits mask r (2^0) := rfl
  obtain ⟨j₁,h₁,_,h₂,h₃,h₄⟩ := nextBits_spec (k := r) (j := 0) hmask (by rw [Nat.shiftRight_zero]; omega)
  rw [Nat.shiftRight_zero] at h₂
  obtain ⟨j₂,h₅,h₆,h₇,h₈,h₉⟩ := nextBits_spec (k := g) (j := j₁) hmask (by omega)
  obtain ⟨j₃,h₁₀,h₁₁,h₁₂,h₁₃,h₁₄⟩ := nextBits_spec (k := b) (j := j₂) hmask (by omega)
  have hsplit : splitMask mask r g b = (orAll (nextBits mask r (2^0)).1,orAll (nextBits mask g (2^j₁)).1,
      orAll (nextBits mask b (2^j₂)).1) := by
    simp only [splitMask,hstart,h₁,h₅]
  -- Nothing of the mask is left above the last position.
  have hrest : ∀ i, j₃ ≤ i → mask.testBit i = false := by
    intro i hi
    have hz : pop (mask >>> j₃) = 0 := by omega
    by_contra hbit
    have hle : Within (2^(i-j₃)) (mask >>> j₃) := by
      intro x hx
      rw [Nat.testBit_two_pow,decide_eq_true_eq] at hx
      rw [Nat.testBit_shiftRight,← hx,show j₃+(i-j₃) = i by omega]
      simpa using hbit
    have h := hle.le
    have hzero : mask >>> j₃ = 0 := by
      rw [← deposit_last (mask >>> j₃),hz]
      obtain ⟨k,hk,hd⟩ := exists_deposit (s := 0) (show Within 0 (mask >>> j₃) by simp [Within])
      rw [hz] at hk
      rw [show 2^0-1 = k by omega]
      exact hd
    have := Nat.two_pow_pos (i-j₃)
    omega
  rw [hsplit]
  refine ⟨h₃,h₈,h₁₃,?_,?_,?_,?_⟩
  · intro i hi
    rw [h₄] at hi
    rw [h₉]
    simp only [Bool.and_eq_true,decide_eq_true_eq] at hi
    simp [show ¬ j₁ ≤ i by omega]
  · intro i hi
    rw [h₄] at hi
    rw [h₁₄]
    simp only [Bool.and_eq_true,decide_eq_true_eq] at hi
    simp [show ¬ j₂ ≤ i by omega]
  · intro i hi
    rw [h₉] at hi
    rw [h₁₄]
    simp only [Bool.and_eq_true,decide_eq_true_eq] at hi
    simp [show ¬ j₂ ≤ i by omega]
  · apply Nat.eq_of_testBit_eq
    intro i
    rw [Nat.testBit_or,Nat.testBit_or,h₄,h₉,h₁₄]
    rcases Nat.lt_or_ge i j₁ with ha | ha
    · simp [ha,show ¬ j₁ ≤ i by omega,show ¬ j₂ ≤ i by omega]
    · rcases Nat.lt_or_ge i j₂ with hb | hb
      · simp [ha,hb,show ¬ i < j₁ by omega,show ¬ j₂ ≤ i by omega]
      · rcases Nat.lt_or_ge i j₃ with hc | hc
        · simp [hb,hc,show ¬ i < j₁ by omega,show ¬ i < j₂ by omega]
        · simp [hrest i hc]

end Split

end Xlibre.Dix.Colormap
