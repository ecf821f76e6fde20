import Xlibre.Fb.Fetch

/-! A row of bits that is written word by word, each bit from the one before it. -/
namespace Xlibre.Fb

open Lib.BitMemory

/-- A memory, and the word in it that is written next. -/
structure Cursor where
  mem : ℤ → FbBits
  dst : ℤ

namespace Cursor

/-- A word is written, which may depend on the one before it, and the pointer goes on. -/
def put (f : FbBits → FbBits) (c : Cursor) : Cursor := ⟨Function.update c.mem c.dst (f (c.mem c.dst)),c.dst+1⟩

/-- A word is left as it is. -/
def skip (c : Cursor) : Cursor := ⟨c.mem,c.dst+1⟩

/-- `while (n--)` -/
def putMany (f : FbBits → FbBits) : ℕ → Cursor → Cursor
  | 0, c => c
  | n+1, c => putMany f n (c.put f)

end Cursor

/-- A row of bits, and what they become. -/
structure Sweep where
  o : BitOrder
  x : ℤ
  width : ℕ
  op : ℤ → Bool → Bool

namespace Sweep

variable (g : Sweep)

/-- `a` is a bit of the row. -/
def Covers (a : ℤ) : Prop := g.x ≤ a ∧ a < g.x+g.width

instance (a : ℤ) : Decidable (g.Covers a) := inferInstanceAs (Decidable (_ ∧ _))

/-- Bit `a` after the row, from the memory before it. -/
def value (m : ℤ → FbBits) (a : ℤ) : Bool := if g.Covers a then g.op a (memBit g.o m a) else memBit g.o m a

/-- The words before `e` are done, the others are as they were. -/
structure At (m : ℤ → FbBits) (e : ℤ) (c : Cursor) : Prop where
  dst : c.dst = e
  done : ∀ a, a/32 < e → memBit g.o c.mem a = g.value m a
  rest : ∀ a, e ≤ a/32 → memBit g.o c.mem a = memBit g.o m a

variable {g} {m : ℤ → FbBits} {e : ℤ} {c : Cursor}

lemma At.put (h : g.At m e c) {f : FbBits → FbBits}
    (hf : ∀ old, ∀ p : ℕ, p < 32 → scrBit g.o (f old) p =
      if g.Covers (32*e+p) then g.op (32*e+p) (scrBit g.o old p) else scrBit g.o old p) : g.At m (e+1) (c.put f) := by
  have hupdate : ∀ a, memBit g.o (c.put f).mem a =
      if a/32 = e then scrBit g.o (f (c.mem e)) (a%32).toNat else memBit g.o c.mem a := by
    intro a
    unfold Cursor.put memBit
    rw [h.dst]
    exact bit_update 32 (scrBit g.o) c.mem e _ a
  refine ⟨?_,?_,?_⟩
  · exact congrArg (· + 1) h.dst
  · intro a ha
    rw [hupdate]
    by_cases hword : a/32 = e
    · have hat : 32*e+((a%32).toNat : ℤ) = a := by omega
      have hold : scrBit g.o (c.mem e) (a%32).toNat = memBit g.o m a := by
        rw [← h.rest a (by omega),← hword]
        rfl
      rw [if_pos hword,hf _ _ (by omega),hat,hold]
      rfl
    · rw [if_neg hword]
      exact h.done a (by omega)
  · intro a ha
    rw [hupdate,if_neg (by omega)]
    exact h.rest a (by omega)

lemma At.skip (h : g.At m e c) (hsame : ∀ p : ℕ, p < 32 → g.Covers (32*e+p) → ∀ old, g.op (32*e+p) old = old) :
    g.At m (e+1) c.skip := by
  have hput := h.put (f := id) fun old p hp => by
    split_ifs with hcov
    · exact (hsame p hp hcov _).symm
    · rfl
  unfold Cursor.put at hput
  rwa [id_eq,Function.update_eq_self] at hput

lemma At.putMany (n : ℕ) (h : g.At m e c) {f : FbBits → FbBits}
    (hf : ∀ e old, ∀ p : ℕ, p < 32 → scrBit g.o (f old) p = g.op (32*e+p) (scrBit g.o old p))
    (hcov : ∀ k < n, ∀ p : ℕ, p < 32 → g.Covers (32*(e+k)+p)) : g.At m (e+n) (c.putMany f n) := by
  induction n generalizing e c with
  | zero => simpa [Cursor.putMany] using h
  | succ n ih =>
    have hfirst := hcov 0 (by omega)
    have hput := h.put fun old p hp => by rw [if_pos (by simpa using hfirst p hp),hf e old p hp]
    have hrest := ih hput fun k hk p hp => by
      have hnext := hcov (k+1) (by omega) p hp
      push_cast at hnext
      rwa [add_assoc e,add_comm 1 (k : ℤ)]
    rw [Nat.cast_succ,add_comm (n : ℤ),← add_assoc]
    exact hrest

lemma At.finish (h : g.At m e c) (he : g.x+g.width ≤ 32*e) (a : ℤ) : memBit g.o c.mem a = g.value m a := by
  by_cases ha : a/32 < e
  · exact h.done a ha
  · rw [h.rest a (by omega)]
    exact (if_neg fun hcov => ha (by unfold Covers at hcov; omega)).symm

end Sweep

end Xlibre.Fb
