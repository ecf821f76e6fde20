import Mathlib.Data.List.Basic

/-! Memories as functions from addresses, with runs of cells read and written as lists. -/
namespace Xlibre.Lib

variable {α : Type*}

/-- The cells from an address on. -/
def slice (m : ℕ → α) (a n : ℕ) : List α := (List.range n).map fun i => m (a+i)

/-- A list written to the cells from an address on. -/
def store (m : ℕ → α) (a : ℕ) (l : List α) : ℕ → α := fun i => if a ≤ i then l.getD (i-a) (m i) else m i

variable {m : ℕ → α} {a b n k : ℕ} {l : List α}

@[simp] lemma length_slice : (slice m a n).length = n := by simp [slice]

@[simp] lemma slice_zero : slice m a 0 = [] := rfl

lemma getElem?_slice (i : ℕ) : (slice m a n)[i]? = if i < n then some (m (a+i)) else none := by
  unfold slice
  rw [List.getElem?_map]
  split_ifs with h
  · rw [List.getElem?_range h]
    rfl
  · rw [List.getElem?_eq_none (by simpa using h)]
    rfl

lemma slice_add : slice m a (n+k) = slice m a n ++ slice m (a+n) k := by
  apply List.ext_getElem?
  intro i
  rw [List.getElem?_append,length_slice]
  simp only [getElem?_slice]
  by_cases h : i < n
  · rw [if_pos h,if_pos h,if_pos (by omega)]
  · rw [if_neg h]
    by_cases hk : i < n+k
    · rw [if_pos hk,if_pos (by omega),Nat.add_assoc,Nat.add_sub_cancel' (Nat.le_of_not_lt h)]
    · rw [if_neg hk,if_neg (by omega)]

/-- Two memories agree on a run of cells. -/
lemma slice_congr {m' : ℕ → α} (h : ∀ i < n, m (a+i) = m' (b+i)) : slice m a n = slice m' b n := by
  apply List.ext_getElem?
  intro i
  rw [getElem?_slice,getElem?_slice]
  split_ifs with hi
  · rw [h i hi]
  · rfl

lemma slice_store : slice (store m a l) a l.length = l := by
  apply List.ext_getElem?
  intro i
  rw [getElem?_slice]
  by_cases h : i < l.length
  · rw [if_pos h,store,if_pos (Nat.le_add_right a i),Nat.add_sub_cancel_left,List.getD_eq_getElem?_getD,
      List.getElem?_eq_getElem h]
    rfl
  · rw [if_neg h,List.getElem?_eq_none (Nat.le_of_not_lt h)]

/-- Cells before those written to. -/
lemma slice_store_before (h : b+n ≤ a) : slice (store m a l) b n = slice m b n := by
  apply slice_congr
  intro i hi
  rw [store,if_neg (by omega)]

/-- Cells behind those written to. -/
lemma slice_store_after (h : a+l.length ≤ b) : slice (store m a l) b n = slice m b n := by
  apply slice_congr
  intro i hi
  rw [store,if_pos (by omega),List.getD_eq_getElem?_getD,List.getElem?_eq_none (by omega),Option.getD_none]

lemma drop_slice : (slice m a n).drop k = slice m (a+k) (n-k) := by
  apply List.ext_getElem?
  intro i
  rw [List.getElem?_drop,getElem?_slice,getElem?_slice,Nat.add_assoc]
  by_cases h : k+i < n
  · rw [if_pos h,if_pos (by omega)]
  · rw [if_neg h,if_neg (by omega)]

lemma take_slice (h : k ≤ n) : (slice m a n).take k = slice m a k := by
  apply List.ext_getElem?
  intro i
  rw [List.getElem?_take,getElem?_slice,getElem?_slice]
  by_cases hi : i < k
  · rw [if_pos hi,if_pos hi,if_pos (by omega)]
  · rw [if_neg hi,if_neg hi]

/-- A run of cells that ends where a list is written, followed by the list. -/
lemma slice_store_append (h : n = b + a) : slice (store m n l) b (a+l.length) = slice m b a ++ l := by
  subst h
  rw [slice_add,slice_store_before (Nat.le_refl _),slice_store]

end Xlibre.Lib
