import Mathlib.Data.Nat.BitIndices
import Mathlib.Data.Nat.Bitwise
import Mathlib.Tactic.Linarith
import Mathlib.Tactic.Ring

/-! Counting through the submasks of a mask: the carry loop, the order it visits, how many there are. -/
namespace Xlibre.Lib.Submasks

/-- `x & ~m`. -/
def andNot (x m : ℕ) : ℕ := x ^^^ (x &&& m)

@[simp] lemma testBit_andNot (x m i : ℕ) : (andNot x m).testBit i = (x.testBit i && !m.testBit i) := by
  simp only [andNot,Nat.testBit_xor,Nat.testBit_and]
  cases x.testBit i <;> cases m.testBit i <;> rfl

/-- The lowest bit of `x` in words of `w` bits: `x & (~x + 1)`. -/
def lowbit (w x : ℕ) : ℕ := x &&& (2^w-x)

/-- The number of bits of a mask. -/
def pop (mask : ℕ) : ℕ := mask.bitIndices.length

@[simp] lemma pop_zero : pop 0 = 0 := by simp [pop]

@[simp] lemma pop_two_mul (m : ℕ) : pop (2*m) = pop m := by simp [pop]

@[simp] lemma pop_two_mul_add_one (m : ℕ) : pop (2*m+1) = pop m+1 := by simp [pop]

/-- All bits of `s` are bits of `m`. -/
def Within (s m : ℕ) : Prop := ∀ i, s.testBit i = true → m.testBit i = true

/-- `s` and `m` have no bit in common. -/
def Apart (s m : ℕ) : Prop := ∀ i, s.testBit i = true → m.testBit i = false

lemma within_iff_andNot (s m : ℕ) : Within s m ↔ andNot s m = 0 := by
  constructor
  · intro h
    apply Nat.eq_of_testBit_eq
    intro i
    have := h i
    rw [testBit_andNot,Nat.zero_testBit]
    cases hs : s.testBit i <;> simp_all
  · intro h i hi
    have := congrArg (Nat.testBit · i) h
    simp only [testBit_andNot,Nat.zero_testBit,hi] at this
    simpa using this

lemma within_iff_and (s m : ℕ) : Within s m ↔ s &&& m = s := by
  constructor
  · intro h
    apply Nat.eq_of_testBit_eq
    intro i
    have := h i
    rw [Nat.testBit_and]
    cases hs : s.testBit i <;> simp_all
  · intro h i hi
    have := congrArg (Nat.testBit · i) h
    simpa [Nat.testBit_and,hi] using this

lemma apart_iff_and (s m : ℕ) : Apart s m ↔ s &&& m = 0 := by
  constructor
  · intro h
    apply Nat.eq_of_testBit_eq
    intro i
    have := h i
    rw [Nat.testBit_and,Nat.zero_testBit]
    cases hs : s.testBit i <;> simp_all
  · intro h i hi
    have := congrArg (Nat.testBit · i) h
    simpa [Nat.testBit_and,hi] using this

lemma Apart.symm {s m : ℕ} (h : Apart s m) : Apart m s := by
  intro i hi
  have := h i
  cases hs : s.testBit i <;> simp_all

lemma Apart.mono {s m s' m' : ℕ} (h : Apart s m) (hs : Within s' s) (hm : Within m' m) : Apart s' m' := by
  intro i hi
  have h₁ := h i (hs i hi)
  have h₂ := hm i
  cases hm' : m'.testBit i <;> simp_all

lemma Within.trans {a b c : ℕ} (h : Within a b) (h' : Within b c) : Within a c := fun i hi => h' i (h i hi)

/-- Adding apart numbers is or-ing them. -/
lemma Apart.add_eq_or {s m : ℕ} (h : Apart s m) : s+m = s ||| m := by
  induction s using Nat.strong_induction_on generalizing m with
  | _ s ih =>
    rcases Nat.eq_zero_or_pos s with rfl | hpos
    · simp
    · have hhalf : Apart (s/2) (m/2) := fun i hi => by
        simpa [Nat.testBit_succ] using h (i+1) (by simpa [Nat.testBit_succ] using hi)
      have h₁ := ih (s/2) (by omega) hhalf
      have h₂ : (s ||| m)/2 = s/2 ||| m/2 := Nat.or_div_two
      have h₃ : (s ||| m) % 2 = 1 ↔ s % 2 = 1 ∨ m % 2 = 1 := Nat.or_mod_two_eq_one
      have h₄ := h 0
      simp only [Nat.testBit_zero,decide_eq_true_eq,decide_eq_false_iff_not] at h₄
      omega

lemma Within.le {s m : ℕ} (h : Within s m) : s ≤ m := by
  rw [← (within_iff_and s m).mp h]
  exact Nat.and_le_right

section Halves

variable (s m : ℕ)

lemma andNot_div_two : andNot s m/2 = andNot (s/2) (m/2) := by
  rw [andNot,Nat.xor_div_two,Nat.and_div_two,andNot]

lemma andNot_mod_two : andNot s m % 2 = s % 2*(1-m % 2) := by
  have h := testBit_andNot s m 0
  simp only [Nat.testBit_zero] at h
  have h₁ := Nat.mod_two_eq_zero_or_one s
  have h₂ := Nat.mod_two_eq_zero_or_one m
  rcases h₁ with h₁ | h₁ <;> rcases h₂ with h₂ | h₂ <;> simp [h₁,h₂] at h ⊢ <;> omega

lemma andNot_double (x : ℕ) (hx : x < 2) : andNot (2*s) (2*m+x) = 2*andNot s m := by
  have h₁ := andNot_div_two (2*s) (2*m+x)
  have h₂ := andNot_mod_two (2*s) (2*m+x)
  rw [show 2*s/2 = s by omega,show (2*m+x)/2 = m by omega] at h₁
  rw [show 2*s % 2 = 0 by omega,Nat.zero_mul] at h₂
  omega

lemma andNot_double_add_one_even : andNot (2*s+1) (2*m) = 2*andNot s m+1 := by
  have h₁ := andNot_div_two (2*s+1) (2*m)
  have h₂ := andNot_mod_two (2*s+1) (2*m)
  rw [show (2*s+1)/2 = s by omega,show 2*m/2 = m by omega] at h₁
  rw [show (2*s+1) % 2 = 1 by omega,show 2*m % 2 = 0 by omega] at h₂
  omega

lemma andNot_double_add_one_odd : andNot (2*s+1) (2*m+1) = 2*andNot s m := by
  have h₁ := andNot_div_two (2*s+1) (2*m+1)
  have h₂ := andNot_mod_two (2*s+1) (2*m+1)
  rw [show (2*s+1)/2 = s by omega,show (2*m+1)/2 = m by omega] at h₁
  rw [show (2*s+1) % 2 = 1 by omega,show (2*m+1) % 2 = 1 by omega] at h₂
  omega

end Halves

/-- The inner loop of counting in a mask: push the carry up until it lands in the mask. -/
def carry (mask : ℕ) : ℕ → ℕ → ℕ
  | 0,bits => bits
  | fuel+1,bits => if andNot bits mask = 0 then bits else carry mask fuel (bits+andNot bits mask)

lemma carry_of_within {mask bits : ℕ} (h : andNot bits mask = 0) (fuel : ℕ) : carry mask fuel bits = bits := by
  cases fuel with
  | zero => rfl
  | succ fuel => simp [carry,h]

lemma carry_double (m x : ℕ) (hx : x < 2) (fuel t : ℕ) : carry (2*m+x) fuel (2*t) = 2*carry m fuel t := by
  induction fuel generalizing t with
  | zero => rfl
  | succ fuel ih =>
    simp only [carry,andNot_double t m x hx]
    by_cases h : andNot t m = 0
    · simp [h]
    · rw [if_neg (by omega),if_neg h,show 2*t+2*andNot t m = 2*(t+andNot t m) by ring,ih]

/-- The number whose bits sit in the bits of `mask` as the bits of `i` sit in a word. -/
def deposit (mask i : ℕ) : ℕ :=
  if mask = 0 then 0
  else if mask % 2 = 0 then 2*deposit (mask/2) i
  else 2*deposit (mask/2) (i/2)+i % 2
termination_by mask
decreasing_by all_goals omega

@[simp] lemma deposit_zero (i : ℕ) : deposit 0 i = 0 := by rw [deposit]; simp

lemma deposit_even (m i : ℕ) : deposit (2*m) i = 2*deposit m i := by
  rw [deposit]
  split_ifs with h
  · simp [show m = 0 by omega]
  · rw [show 2*m/2 = m by omega]
  · omega

lemma deposit_odd (m i : ℕ) : deposit (2*m+1) i = 2*deposit m (i/2)+i % 2 := by
  rw [deposit,if_neg (by omega),if_neg (by omega),show (2*m+1)/2 = m by omega]

lemma andNot_deposit (mask i : ℕ) : andNot (deposit mask i) mask = 0 := by
  induction mask using Nat.strong_induction_on generalizing i with
  | _ mask ih =>
    rcases Nat.eq_zero_or_pos mask with rfl | hpos
    · simp [andNot]
    · obtain ⟨m,rfl | rfl⟩ := mask.even_or_odd' 
      · rw [deposit_even,show 2*m = 2*m+0 from rfl,andNot_double _ _ 0 (by omega),ih m (by omega)]
      · rw [deposit_odd]
        rcases Nat.mod_two_eq_zero_or_one i with h | h
        · rw [h,Nat.add_zero,andNot_double _ _ 1 (by omega),ih m (by omega)]
        · rw [h,andNot_double_add_one_odd,ih m (by omega)]

lemma within_deposit (mask i : ℕ) : Within (deposit mask i) mask := (within_iff_andNot _ _).mpr (andNot_deposit mask i)

/-- One round of the loop, started from the next number, goes to the next submask. -/
lemma carry_succ (mask i fuel : ℕ) (hi : i+1 < 2^pop mask) (hf : mask < 2^fuel) :
    carry mask fuel (deposit mask i+1) = deposit mask (i+1) := by
  induction mask using Nat.strong_induction_on generalizing i fuel with
  | _ mask ih =>
    rcases Nat.eq_zero_or_pos mask with rfl | hpos
    · simp at hi
    · cases fuel with
      | zero => simp at hf; omega
      | succ fuel =>
        rw [pow_succ] at hf
        obtain ⟨m,rfl | rfl⟩ := mask.even_or_odd'
        · have hd := andNot_deposit m i
          rw [pop_two_mul] at hi
          rw [deposit_even,deposit_even,carry,andNot_double_add_one_even,hd,if_neg (by omega),
            show 2*deposit m i+1+(2*0+1) = 2*(deposit m i+1) by ring,show 2*m = 2*m+0 from rfl,
            carry_double m 0 (by omega),ih m (by omega) i fuel hi (by omega)]
        · have hd := andNot_deposit m (i/2)
          rw [pop_two_mul_add_one,pow_succ] at hi
          rw [deposit_odd,deposit_odd]
          rcases Nat.mod_two_eq_zero_or_one i with h | h
          · rw [carry_of_within,h,show (i+1)/2 = i/2 by omega,show (i+1) % 2 = 1 by omega]
            rw [h,show 2*deposit m (i/2)+0+1 = 2*deposit m (i/2)+1 by ring,andNot_double_add_one_odd,hd]
          · rw [h,show 2*deposit m (i/2)+1+1 = 2*(deposit m (i/2)+1) by ring,carry_double m 1 (by omega),
              ih m (by omega) (i/2) (fuel+1) (by omega) (by rw [pow_succ]; omega),
              show (i+1)/2 = i/2+1 by omega,show (i+1) % 2 = 0 by omega]
            ring

lemma lowbit_even (w m : ℕ) : lowbit (w+1) (2*m) = 2*lowbit w m := by
  unfold lowbit
  rw [show 2^(w+1)-2*m = 2*(2^w-m) by rw [pow_succ]; omega]
  have h₁ : (2*m &&& 2*(2^w-m))/2 = 2*m/2 &&& 2*(2^w-m)/2 := Nat.and_div_two
  have h₂ : (2*m &&& 2*(2^w-m)) % 2 = 1 ↔ _ := Nat.and_mod_two_eq_one
  rw [show 2*m/2 = m by omega,show 2*(2^w-m)/2 = 2^w-m by omega] at h₁
  omega

lemma lowbit_odd (w m : ℕ) (h : m < 2^w) : lowbit (w+1) (2*m+1) = 1 := by
  unfold lowbit
  have hlow : 2^(w+1)-(2*m+1) = 2*(2^w-1-m)+1 := by rw [pow_succ]; omega
  have hapart : m &&& (2^w-1-m) = 0 := by
    refine (apart_iff_and _ _).mp fun i hi => ?_
    rw [show 2^w-1-m = 2^w-(m+1) by omega,Nat.testBit_two_pow_sub_succ h,hi]
    simp
  rw [hlow]
  have h₁ : (2*m+1 &&& 2*(2^w-1-m)+1)/2 = (2*m+1)/2 &&& (2*(2^w-1-m)+1)/2 := Nat.and_div_two
  have h₂ : (2*m+1 &&& 2*(2^w-1-m)+1) % 2 = 1 ↔ _ := Nat.and_mod_two_eq_one
  rw [show (2*m+1)/2 = m by omega,show (2*(2^w-1-m)+1)/2 = 2^w-1-m by omega,hapart] at h₁
  omega

/-- The same from the lowest bit of the mask, which is what the loop adds. -/
lemma carry_lowbit (w mask i fuel : ℕ) (hi : i+1 < 2^pop mask) (hf : mask < 2^fuel) (hw : mask < 2^w) :
    carry mask fuel (deposit mask i+lowbit w mask) = deposit mask (i+1) := by
  induction mask using Nat.strong_induction_on generalizing i fuel w with
  | _ mask ih =>
    rcases Nat.eq_zero_or_pos mask with rfl | hpos
    · simp at hi
    · cases w with
      | zero => simp at hw; omega
      | succ w =>
        obtain ⟨m,rfl | rfl⟩ := mask.even_or_odd'
        · rw [pow_succ] at hw
          rw [lowbit_even,deposit_even,deposit_even,
            show 2*deposit m i+2*lowbit w m = 2*(deposit m i+lowbit w m) by ring,show 2*m = 2*m+0 from rfl,
            carry_double m 0 (by omega),ih m (by omega) w i fuel (by simpa using hi) (by omega) (by omega)]
        · rw [lowbit_odd w m (by rw [pow_succ] at hw; omega)]
          exact carry_succ _ i fuel hi hf

/-- The values a counter in the bits of `mask` takes, from `bits` on. -/
def countFrom (w mask : ℕ) : ℕ → ℕ → List ℕ
  | 0,bits => [bits]
  | fuel+1,bits =>
    if bits = mask then [bits] else bits::countFrom w mask fuel (carry mask w (bits+lowbit w mask))

/-- All values, from zero; each step goes up, so there are at most `mask+1`. -/
def submasks (w mask : ℕ) : List ℕ := countFrom w mask mask 0

lemma deposit_lt {mask i j : ℕ} (hij : i < j) (hj : j < 2^pop mask) : deposit mask i < deposit mask j := by
  induction mask using Nat.strong_induction_on generalizing i j with
  | _ mask ih =>
    rcases Nat.eq_zero_or_pos mask with rfl | hpos
    · simp at hj; omega
    · obtain ⟨m,rfl | rfl⟩ := mask.even_or_odd'
      · rw [deposit_even,deposit_even]
        have := ih m (by omega) hij (by simpa using hj)
        omega
      · rw [deposit_odd,deposit_odd]
        rw [pop_two_mul_add_one,pow_succ] at hj
        rcases Nat.lt_or_ge (i/2) (j/2) with hlt | hge
        · have := ih m (by omega) hlt (by omega)
          omega
        · rw [show i/2 = j/2 by omega]
          omega

lemma exists_deposit {s mask : ℕ} (h : Within s mask) : ∃ i, i < 2^pop mask ∧ deposit mask i = s := by
  induction mask using Nat.strong_induction_on generalizing s with
  | _ mask ih =>
    rcases Nat.eq_zero_or_pos mask with rfl | hpos
    · have hs := h.le
      exact ⟨0,by simp,by rw [deposit_zero]; omega⟩
    · obtain ⟨m,hm⟩ := mask.even_or_odd'
      have hhalf : Within (s/2) m := by
        intro i hi
        have := h (i+1) (by rw [Nat.testBit_succ]; exact hi)
        rw [Nat.testBit_succ] at this
        rwa [show mask/2 = m by omega] at this
      obtain ⟨i,hi,hd⟩ := ih m (by omega) hhalf
      rcases hm with rfl | rfl
      · have heven : s % 2 = 0 := by
          have := h 0
          simp only [Nat.testBit_zero,decide_eq_true_eq] at this
          omega
        exact ⟨i,by simpa using hi,by rw [deposit_even,hd]; omega⟩
      · refine ⟨2*i+s % 2,?_,?_⟩
        · rw [pop_two_mul_add_one,pow_succ]
          omega
        · rw [deposit_odd,show (2*i+s % 2)/2 = i by omega,hd]
          omega

lemma deposit_last (mask : ℕ) : deposit mask (2^pop mask-1) = mask := by
  obtain ⟨i,hi,hd⟩ := exists_deposit (s := mask) (fun _ h => h)
  rcases Nat.lt_or_ge i (2^pop mask-1) with hlt | hge
  · have h₁ := deposit_lt hlt (show 2^pop mask-1 < 2^pop mask by omega)
    have h₂ := (within_deposit mask (2^pop mask-1)).le
    omega
  · rwa [show 2^pop mask-1 = i by omega]

lemma le_deposit (mask i : ℕ) (hi : i < 2^pop mask) : i ≤ deposit mask i := by
  induction i with
  | zero => omega
  | succ i ih =>
    have h₁ := ih (by omega)
    have h₂ := deposit_lt (show i < i+1 by omega) hi
    omega

lemma countFrom_eq (w mask : ℕ) (hw : mask < 2^w) (fuel i : ℕ) (hi : i < 2^pop mask)
    (hf : 2^pop mask ≤ i+fuel+1) :
    countFrom w mask fuel (deposit mask i) =
      (List.range' i (2^pop mask-i)).map (deposit mask) := by
  induction fuel generalizing i with
  | zero =>
    rw [show 2^pop mask-i = 1 by omega]
    rfl
  | succ fuel ih =>
    rw [countFrom]
    rcases Nat.lt_or_ge (i+1) (2^pop mask) with hlt | hge
    · have hne : deposit mask i ≠ mask := by
        have h₁ := deposit_lt (show i < i+1 by omega) hlt
        have h₂ := (within_deposit mask (i+1)).le
        omega
      rw [if_neg hne,carry_lowbit w mask i w hlt hw hw,ih (i+1) hlt (by omega),
        show 2^pop mask-i = (2^pop mask-(i+1))+1 by omega,List.range'_succ,List.map_cons]
    · have hlast : deposit mask i = mask := by
        rw [show i = 2^pop mask-1 by omega]
        exact deposit_last mask
      rw [if_pos hlast,show 2^pop mask-i = 1 by omega]
      rfl

theorem submasks_eq (w mask : ℕ) (hw : mask < 2^w) :
    submasks w mask = (List.range (2^pop mask)).map (deposit mask) := by
  have hzero : deposit mask 0 = 0 := by
    obtain ⟨i,hi,hd⟩ := exists_deposit (s := 0) (by simp [Within])
    rcases Nat.eq_zero_or_pos i with rfl | hpos
    · exact hd
    · have := deposit_lt hpos hi
      omega
  have hle := le_deposit mask (2^pop mask-1) (by have := Nat.two_pow_pos (pop mask); omega)
  rw [deposit_last] at hle
  have := countFrom_eq w mask hw mask 0 (Nat.two_pow_pos _) (by omega)
  rw [hzero] at this
  rw [submasks,this,List.range_eq_range',Nat.sub_zero]

lemma length_submasks {w mask : ℕ} (hw : mask < 2^w) : (submasks w mask).length = 2^pop mask := by
  rw [submasks_eq w mask hw,List.length_map,List.length_range]

lemma nodup_submasks {w mask : ℕ} (hw : mask < 2^w) : (submasks w mask).Nodup := by
  rw [submasks_eq w mask hw]
  refine List.Nodup.map_on (fun i hi j hj h => ?_) List.nodup_range
  rw [List.mem_range] at hi hj
  rcases Nat.lt_trichotomy i j with hlt | rfl | hgt
  · have := deposit_lt hlt hj
    omega
  · rfl
  · have := deposit_lt hgt hi
    omega

lemma mem_submasks {w mask s : ℕ} (hw : mask < 2^w) : s ∈ submasks w mask ↔ Within s mask := by
  rw [submasks_eq w mask hw,List.mem_map]
  constructor
  · rintro ⟨i,_,rfl⟩
    exact within_deposit mask i
  · intro h
    obtain ⟨i,hi,hd⟩ := exists_deposit h
    exact ⟨i,List.mem_range.mpr hi,hd⟩

section Count

lemma pop_div_two (m : ℕ) : pop m = pop (m/2)+m % 2 := by
  obtain ⟨k,rfl | rfl⟩ := m.even_or_odd'
  · rw [pop_two_mul,show 2*k/2 = k by omega]
    omega
  · rw [pop_two_mul_add_one,show (2*k+1)/2 = k by omega]
    omega

lemma pop_or {a b : ℕ} (h : Apart a b) : pop (a ||| b) = pop a+pop b := by
  induction a using Nat.strong_induction_on generalizing b with
  | _ a ih =>
    rcases Nat.eq_zero_or_pos a with rfl | hpos
    · simp
    · have hhalf : Apart (a/2) (b/2) := fun i hi => by
        simpa [Nat.testBit_succ] using h (i+1) (by simpa [Nat.testBit_succ] using hi)
      have h₁ := ih (a/2) (by omega) hhalf
      have h₂ : (a ||| b)/2 = a/2 ||| b/2 := Nat.or_div_two
      have h₃ : (a ||| b) % 2 = 1 ↔ a % 2 = 1 ∨ b % 2 = 1 := Nat.or_mod_two_eq_one
      have h₄ := h 0
      simp only [Nat.testBit_zero,decide_eq_true_eq,decide_eq_false_iff_not] at h₄
      rw [pop_div_two (a ||| b),pop_div_two a,pop_div_two b,h₂,h₁]
      omega

lemma pop_two_pow_mul (m k : ℕ) : pop (m*2^k) = pop m := by
  induction k with
  | zero => simp
  | succ k ih => rw [pow_succ,← mul_assoc,mul_comm,pop_two_mul,ih]

lemma ones_succ (p : ℕ) : 2^(p+1)-1 = 2*(2^p-1)+1 := by
  have := Nat.two_pow_pos p
  rw [pow_succ]
  omega

lemma pop_ones (p : ℕ) : pop (2^p-1) = p := by
  induction p with
  | zero => simp
  | succ p ih => rw [ones_succ,pop_two_mul_add_one,ih]

lemma pop_eq_zero {m : ℕ} (h : pop m = 0) : m = 0 := by
  have hsum := Nat.sum_map_two_pow_bitIndices m
  rw [List.length_eq_zero_iff.mp h] at hsum
  exact hsum.symm

lemma pop_eq_one {m : ℕ} (h : pop m = 1) : ∃ k, m = 2^k := by
  obtain ⟨k,hk⟩ := List.length_eq_one_iff.mp h
  have hsum := Nat.sum_map_two_pow_bitIndices m
  rw [hk,List.map_singleton,List.sum_singleton] at hsum
  exact ⟨k,hsum.symm⟩

/-- A number with `p` bits is at least that of the `p` lowest ones. -/
lemma ones_le (m : ℕ) : 2^pop m-1 ≤ m := by
  have h := le_deposit m (2^pop m-1) (by have := Nat.two_pow_pos (pop m); omega)
  rwa [deposit_last] at h

/-- The other bits of a word of `d` bits. -/
lemma pop_complement {d m : ℕ} (h : m < 2^d) : pop (2^d-1-m)+pop m = d := by
  induction d generalizing m with
  | zero => simp [show m = 0 by simpa using h]
  | succ d ih =>
    rw [pow_succ] at h
    have hih := ih (m := m/2) (by omega)
    have hhalf : (2^(d+1)-1-m)/2 = 2^d-1-m/2 := by
      rw [pow_succ]
      omega
    have hlow : (2^(d+1)-1-m) % 2 = 1-m % 2 := by
      rw [pow_succ]
      omega
    rw [pop_div_two m,pop_div_two (2^(d+1)-1-m),hhalf,hlow]
    omega

/-- Below the first mask with a gap there are only the lowest ones. -/
lemma eq_ones_of_lt {p m : ℕ} (hm : pop m = p+1) (hlt : m < 3*2^p-1) : m = 2^(p+1)-1 := by
  induction p generalizing m with
  | zero =>
    have hle := ones_le m
    rw [hm] at hle
    simp only [zero_add,pow_one,pow_zero] at *
    omega
  | succ p ih =>
    have hpos := Nat.two_pow_pos p
    have hdiv := pop_div_two m
    rw [pow_succ] at hlt
    rcases Nat.mod_two_eq_zero_or_one m with h0 | h1
    · -- An even number would have as many bits above the lowest one.
      have hle := ones_le (m/2)
      rw [show pop (m/2) = p+1+1 by omega,pow_succ,pow_succ] at hle
      omega
    · have heq := ih (m := m/2) (by omega) (by omega)
      rw [pow_succ] at heq ⊢
      rw [pow_succ]
      omega

/-- Above the last mask with a gap there are only the highest ones. -/
lemma eq_block_of_gt {p q m : ℕ} (hm : pop m = p+1) (hlt : m < 2^(p+1+(q+1)))
    (hgt : (2^p-1)*2^(q+2)+2^q < m) : m = (2^(p+1)-1)*2^(q+1) := by
  have hc := pop_complement hlt
  have hp := Nat.two_pow_pos p
  have hall : 2^(p+1+(q+1)) = 4*(2^p*2^q) := by
    rw [pow_add,pow_succ,pow_succ]
    ring
  have hfinal : (2^p-1)*2^(q+2) = 4*(2^p*2^q)-4*2^q := by
    rw [pow_add,Nat.sub_mul,Nat.one_mul]
    ring_nf
  have hblock : (2^(p+1)-1)*2^(q+1) = 4*(2^p*2^q)-2*2^q := by
    rw [Nat.sub_mul,Nat.one_mul,pow_succ,pow_succ]
    ring_nf
  have hle : 2^q ≤ 2^p*2^q := Nat.le_mul_of_pos_left _ hp
  have heq := eq_ones_of_lt (p := q) (m := 2^(p+1+(q+1))-1-m) (by omega) (by rw [hall]; omega)
  rw [pow_succ,hall] at heq
  rw [hblock]
  omega

lemma deposit_ones (p i : ℕ) (hi : i < 2^p) : deposit (2^p-1) i = i := by
  induction p generalizing i with
  | zero => simp at hi; simp [hi]
  | succ p ih =>
    rw [pow_succ] at hi
    rw [ones_succ,deposit_odd,ih (i/2) (by omega)]
    omega

lemma deposit_two_pow_mul (m k i : ℕ) : deposit (m*2^k) i = deposit m i*2^k := by
  induction k with
  | zero => simp
  | succ k ih => rw [pow_succ,← mul_assoc,mul_comm,deposit_even,ih,mul_comm,mul_assoc]

/-- The submasks of `p` consecutive bits are the multiples of the lowest. -/
theorem submasks_block {w p k : ℕ} (hw : (2^p-1)*2^k < 2^w) :
    submasks w ((2^p-1)*2^k) = (List.range (2^p)).map (·*2^k) := by
  rw [submasks_eq w _ hw,pop_two_pow_mul,pop_ones]
  apply List.map_congr_left
  intro i hi
  rw [deposit_two_pow_mul,deposit_ones p i (List.mem_range.mp hi)]

/-- Missing a block of bits is a matter of division. -/
lemma apart_block (b p k : ℕ) : Apart b ((2^p-1)*2^k) ↔ b/2^k % 2^p = 0 := by
  rw [apart_iff_and,← Nat.and_two_pow_sub_one_eq_mod]
  constructor
  · intro h
    have := congrArg (·/2^k) h
    simpa [Nat.and_div_two_pow,Nat.mul_div_cancel _ (Nat.two_pow_pos k)] using this
  · intro h
    apply Nat.eq_of_testBit_eq
    intro i
    rw [Nat.testBit_and,Nat.mul_comm,Nat.testBit_two_pow_mul,Nat.zero_testBit]
    rcases Nat.lt_or_ge i k with hlt | hge
    · simp [show ¬ k ≤ i by omega]
    · have := congrArg (Nat.testBit · (i-k)) h
      simp only [Nat.testBit_and,Nat.testBit_div_two_pow,Nat.zero_testBit] at this
      rw [show i-k+k = i by omega] at this
      simpa [hge] using this

end Count

/-- The submasks of two masks that agree with `bits` on the first are those of the second. -/
lemma countP_submasks {w m o bits : ℕ} (hw : m ||| o < 2^w) (hap : Apart m o) (hbits : Within bits m) :
    (submasks w (m ||| o)).countP (fun s => decide (s &&& m = bits)) = 2^pop o := by
  have ho : o < 2^w := Nat.lt_of_le_of_lt (Within.le fun i hi => by simp [hi]) hw
  have hperm : ((submasks w (m ||| o)).filter fun s => decide (s &&& m = bits)).Perm
      ((submasks w o).map (bits ||| ·)) := by
    refine (List.perm_ext_iff_of_nodup ((nodup_submasks hw).filter _) ?_).mpr fun s => ?_
    · refine List.Nodup.map_on (fun x hx y hy hxy => ?_) (nodup_submasks ho)
      rw [mem_submasks ho] at hx hy
      apply Nat.eq_of_testBit_eq
      intro i
      have h₁ := hbits i
      have h₂ := hap i
      have h₃ := hx i
      have h₄ := hy i
      have h₅ := congrArg (·.testBit i) hxy
      simp only [Nat.testBit_or] at h₅
      cases hb : bits.testBit i <;> cases hxi : x.testBit i <;> cases hyi : y.testBit i <;> simp_all
    · rw [List.mem_filter,mem_submasks hw,List.mem_map,decide_eq_true_eq]
      constructor
      · rintro ⟨hs,hbit⟩
        refine ⟨s &&& o,(mem_submasks ho).mpr fun i hi => ?_,?_⟩
        · rw [Nat.testBit_and,Bool.and_eq_true] at hi
          exact hi.2
        · apply Nat.eq_of_testBit_eq
          intro i
          have h₁ := hs i
          rw [Nat.testBit_or] at h₁
          rw [← hbit,Nat.testBit_or,Nat.testBit_and,Nat.testBit_and]
          cases hsi : s.testBit i <;> cases hmi : m.testBit i <;> cases hoi : o.testBit i <;> simp_all
      · rintro ⟨t,ht,rfl⟩
        rw [mem_submasks ho] at ht
        constructor
        · intro i hi
          rw [Nat.testBit_or,Bool.or_eq_true] at hi ⊢
          rcases hi with hi | hi
          · exact .inl (hbits i hi)
          · exact .inr (ht i hi)
        · apply Nat.eq_of_testBit_eq
          intro i
          have h₁ := hbits i
          have h₂ := ht i
          have h₃ := hap i
          rw [Nat.testBit_and,Nat.testBit_or]
          cases hb : bits.testBit i <;> cases hti : t.testBit i <;> cases hmi : m.testBit i <;> simp_all
  rw [List.countP_eq_length_filter,hperm.length_eq,List.length_map,length_submasks ho]

end Xlibre.Lib.Submasks
