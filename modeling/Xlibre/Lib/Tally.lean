import Mathlib.Algebra.BigOperators.Intervals
import Mathlib.Algebra.Order.BigOperators.Group.Finset

/-! How many entries of a table pass a test, and how the number changes with one entry. -/
namespace Xlibre.Lib.Tally

variable {α : Type*}

/-- The number of the first `n` entries of `f` that pass the test. -/
def tally (n : ℕ) (f : ℕ → α) (p : α → Bool) : ℕ := ∑ i ∈ Finset.range n, (p (f i)).toNat

lemma tally_congr {n : ℕ} {f g : ℕ → α} {p : α → Bool} (h : ∀ i < n, p (f i) = p (g i)) :
    tally n f p = tally n g p :=
  Finset.sum_congr rfl fun i hi => by rw [h i (Finset.mem_range.mp hi)]

/-- One changed summand. -/
lemma sum_update {ι : Type*} [DecidableEq ι] (s : Finset ι) (f : ι → α) (g : α → ℕ) {i : ι} (hi : i ∈ s) (e : α) :
    ∑ j ∈ s, g (Function.update f i e j)+g (f i) = ∑ j ∈ s, g (f j)+g e := by
  have hsame : ∑ j ∈ s.erase i, g (Function.update f i e j) = ∑ j ∈ s.erase i, g (f j) := by
    apply Finset.sum_congr rfl
    intro j hj
    rw [Function.update_of_ne (Finset.ne_of_mem_erase hj)]
  have hnew := Finset.add_sum_erase s (fun j => g (Function.update f i e j)) hi
  have hold := Finset.add_sum_erase s (fun j => g (f j)) hi
  simp only [Function.update_self,hsame] at hnew
  omega

lemma tally_update {n : ℕ} (f : ℕ → α) (p : α → Bool) {i : ℕ} (hi : i < n) (e : α) :
    tally n (Function.update f i e) p+(p (f i)).toNat = tally n f p+(p e).toNat :=
  sum_update (Finset.range n) f (fun a => (p a).toNat) (Finset.mem_range.mpr hi) e

lemma tally_le (n : ℕ) (f : ℕ → α) (p : α → Bool) : tally n f p ≤ n := by
  calc tally n f p ≤ ∑ _i ∈ Finset.range n, 1 := Finset.sum_le_sum fun i _ => Bool.toNat_le _
    _ = n := by rw [Finset.sum_const,Finset.card_range,Nat.nsmul_eq_mul,Nat.mul_one]

lemma exists_of_tally_pos {n : ℕ} {f : ℕ → α} {p : α → Bool} (h : 0 < tally n f p) :
    ∃ i < n, p (f i) = true := by
  by_contra hcon
  push Not at hcon
  have : tally n f p = 0 := Finset.sum_eq_zero fun i hi => by
    simp [hcon i (Finset.mem_range.mp hi)]
  omega

lemma tally_eq_self {n : ℕ} {f : ℕ → α} {p : α → Bool} (h : n ≤ tally n f p) : ∀ i < n, p (f i) = true := by
  intro i hi
  by_contra hcon
  have hlt : tally n f p < ∑ _i ∈ Finset.range n, 1 :=
    Finset.sum_lt_sum (fun j _ => Bool.toNat_le _) ⟨i,Finset.mem_range.mpr hi,by simp [hcon]⟩
  rw [Finset.sum_const,Finset.card_range,Nat.nsmul_eq_mul,Nat.mul_one] at hlt
  omega

/-- Changing the entries at distinct places, all failing before and passing afterwards or the other
way round, moves the number by their count. -/
lemma tally_patch {n : ℕ} (f g : ℕ → α) (p : α → Bool) (l : List ℕ) (hnd : l.Nodup) (hl : ∀ i ∈ l, i < n)
    (hf : ∀ i ∈ l, p (f i) = true) (hg : ∀ i ∈ l, p (g i) = false) (hout : ∀ i, i ∉ l → p (g i) = p (f i)) :
    tally n g p+l.length = tally n f p := by
  induction l generalizing f with
  | nil =>
    simp only [List.length_nil,Nat.add_zero]
    exact tally_congr fun i _ => hout i (by simp)
  | cons a l ih =>
    obtain ⟨ha,hnd'⟩ := List.nodup_cons.mp hnd
    have hstep := tally_update f p (hl a (by simp)) (g a)
    have hrest := ih (Function.update f a (g a)) hnd' (fun i hi => hl i (by simp [hi]))
      (fun i hi => by
        rw [Function.update_of_ne (by rintro rfl; exact ha hi)]
        exact hf i (by simp [hi]))
      (fun i hi => hg i (by simp [hi]))
      (fun i hi => by
        by_cases hia : i = a
        · rw [hia,Function.update_self]
        · rw [Function.update_of_ne hia]
          exact hout i (by simp [hia,hi]))
    have h₁ := hf a (by simp)
    have h₂ := hg a (by simp)
    simp only [h₁,h₂,Bool.toNat_true,Bool.toNat_false] at hstep
    rw [List.length_cons]
    omega

/-- Changing entries that all failed: those that pass now add to the number. -/
lemma tally_extend {n : ℕ} (f g : ℕ → α) (p : α → Bool) (l : List ℕ) (hnd : l.Nodup) (hl : ∀ i ∈ l, i < n)
    (hf : ∀ i ∈ l, p (f i) = false) (hout : ∀ i, i ∉ l → p (g i) = p (f i)) :
    tally n g p = tally n f p+l.countP fun i => p (g i) := by
  induction l generalizing f with
  | nil =>
    simp only [List.countP_nil,Nat.add_zero]
    exact tally_congr fun i _ => hout i (by simp)
  | cons a l ih =>
    obtain ⟨ha,hnd'⟩ := List.nodup_cons.mp hnd
    have hstep := tally_update f p (hl a (by simp)) (g a)
    have hrest := ih (Function.update f a (g a)) hnd' (fun i hi => hl i (by simp [hi]))
      (fun i hi => by
        rw [Function.update_of_ne (by rintro rfl; exact ha hi)]
        exact hf i (by simp [hi]))
      (fun i hi => by
        by_cases hia : i = a
        · rw [hia,Function.update_self]
        · rw [Function.update_of_ne hia]
          exact hout i (by simp [hia,hi]))
    rw [hf a (by simp)] at hstep
    rw [hrest,List.countP_cons]
    cases hp : p (g a) <;> simp only [hp,Bool.toNat_false,Bool.toNat_true] at hstep ⊢
    · simpa using hstep
    · simp only [if_true]
      omega

end Xlibre.Lib.Tally
