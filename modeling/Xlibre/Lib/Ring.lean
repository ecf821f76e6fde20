import Mathlib.Data.List.Range
import Mathlib.Data.Nat.ModEq

/-! Lists held in a ring of cells. -/
namespace Xlibre.Lib.Ring

variable {α : Type*}

/-- The cell of the i-th element of a ring that starts at `head`. -/
def cell (cap head i : ℕ) : ℕ := (head+i) % cap

/-- The first `len` elements of a ring. -/
def contents (cells : ℕ → α) (cap head len : ℕ) : List α := (List.range len).map fun i => cells (cell cap head i)

variable {cells : ℕ → α} {cap head len : ℕ}

@[simp] lemma contents_zero : contents cells cap head 0 = [] := rfl

@[simp] lemma length_contents : (contents cells cap head len).length = len := by simp [contents]

lemma contents_eq_nil : contents cells cap head len = [] ↔ len = 0 := by simp [contents]

lemma cell_lt (hcap : 0 < cap) (i : ℕ) : cell cap head i < cap := Nat.mod_lt _ hcap

lemma cell_zero (hhead : head < cap) : cell cap head 0 = head := Nat.mod_eq_of_lt hhead

lemma cell_cell (i j : ℕ) : cell cap (cell cap head i) j = cell cap head (i+j) := by
  unfold cell
  rw [Nat.mod_add_mod,Nat.add_assoc]

/-- Elements less than a turn apart have cells of their own. -/
lemma cell_ne {i j : ℕ} (hij : i < j) (hj : j < i+cap) : cell cap head i ≠ cell cap head j := by
  intro h
  have hmod : head+i ≡ head+j [MOD cap] := h
  have hmod : i ≡ j [MOD cap] := Nat.ModEq.add_left_cancel' head hmod
  have hdvd : cap ∣ j-i := (Nat.modEq_iff_dvd' hij.le).1 hmod
  have hle := Nat.le_of_dvd (by omega) hdvd
  omega

lemma contents_succ : contents cells cap head (len+1) = contents cells cap head len ++ [cells (cell cap head len)] := by
  simp [contents,List.range_succ]

/-- A new last element. -/
lemma contents_push (hlen : len < cap) (a : α) :
    contents (Function.update cells (cell cap head len) a) cap head (len+1) = contents cells cap head len ++ [a] := by
  rw [contents_succ,Function.update_self]
  congr 1
  apply List.map_congr_left
  intro i hi
  have hi := List.mem_range.1 hi
  exact Function.update_of_ne (cell_ne hi (by omega)) _ _

/-- A new value of the last element. -/
lemma contents_overwrite (hlen : len < cap) (a : α) :
    contents (Function.update cells (cell cap head len) a) cap head (len+1) =
      (contents cells cap head (len+1)).dropLast ++ [a] := by
  rw [contents_push hlen,contents_succ,List.dropLast_concat]

/-- The first element, and the ring without it. -/
lemma contents_pop (hhead : head < cap) :
    contents cells cap head (len+1) = cells head :: contents cells cap (cell cap head 1) len := by
  unfold contents
  rw [List.range_succ_eq_map,List.map_cons,List.map_map,cell_zero hhead]
  congr 1
  apply List.map_congr_left
  intro i _
  rw [Function.comp_apply,cell_cell,Nat.add_comm 1 i]

/-- The same elements from the first cell of a larger ring on. -/
lemma contents_grow {cells' : ℕ → α} {cap' : ℕ} (hlen : len ≤ cap')
    (h : ∀ i < len, cells' i = cells (cell cap head i)) : contents cells' cap' 0 len = contents cells cap head len := by
  apply List.map_congr_left
  intro i hi
  have hi := List.mem_range.1 hi
  rw [cell,Nat.zero_add,Nat.mod_eq_of_lt (by omega),h i hi]

end Xlibre.Lib.Ring
