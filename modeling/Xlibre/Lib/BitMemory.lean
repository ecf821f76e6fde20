import Mathlib.Tactic.Linarith

/-! A memory of words as a sequence of bits: bit `a` is bit `a % w` of word `a / w`. -/
namespace Xlibre.Lib.BitMemory

variable {W : Type*} (w : ℕ) (get : W → ℕ → Bool)

/-- Bit `a` of the memory, counted from the first bit of word 0. -/
def bit (m : ℤ → W) (a : ℤ) : Bool := get (m (a/w)) (a%w).toNat

/-- Bit `i` of word `k`. -/
lemma bit_word (m : ℤ → W) (k : ℤ) {i : ℕ} (hi : i < w) : bit w get m (w*k+i) = get (m k) i := by
  have hw : (w : ℤ) ≠ 0 := by omega
  have hquot : (w*k+i : ℤ)/w = k := by
    rw [Int.mul_add_ediv_left _ _ hw,Int.ediv_eq_zero_of_lt (by omega) (by omega),add_zero]
  have hrem : (w*k+i : ℤ)%w = i := by
    rw [Int.mul_add_emod_self_left]
    exact Int.emod_eq_of_lt (by omega) (by omega)
  simp only [bit,hquot,hrem,Int.toNat_natCast]

/-- Storing a word changes the bits of that word. -/
lemma bit_update (m : ℤ → W) (k : ℤ) (v : W) (a : ℤ) :
    bit w get (Function.update m k v) a = if a/w = k then get v (a%w).toNat else bit w get m a := by
  unfold bit
  split_ifs with h
  · rw [h,Function.update_self]
  · rw [Function.update_of_ne h]

/-- Memories with the same bits have the same words, where words are their bits. -/
lemma ext_bit {w : ℕ} {get : W → ℕ → Bool} (hext : ∀ x y, (∀ i < w, get x i = get y i) → x = y) {m m' : ℤ → W}
    (h : ∀ a, bit w get m a = bit w get m' a) : m = m' := by
  funext k
  apply hext
  intro i hi
  rw [← bit_word w get m k hi,h,bit_word w get m' k hi]

end Xlibre.Lib.BitMemory
