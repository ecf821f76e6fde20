import Xlibre.Fb.Edges
import Xlibre.Lib.BitMemory

/-! One row of `fbBlt` word by word: what `fetch` finds for each destination word, in both directions. -/
namespace Xlibre.Fb

open Lib.BitMemory

/-- Bit `a` of the memory, in screen order. -/
def memBit (o : BitOrder) (m : ℤ → FbBits) (a : ℤ) : Bool := bit 32 (scrBit o) m a

/-- One row of bits: where the source and the destination bits start. -/
structure Span where
  o : BitOrder
  alu : Alu
  pm : FbBits
  reverse : Bool
  src : ℤ
  dst : ℤ
  width : ℕ

namespace Span

variable (g : Span)

/-- `a` is a destination bit of the row. -/
def Covers (a : ℤ) : Prop := g.dst ≤ a ∧ a < g.dst+g.width

instance (a : ℤ) : Decidable (g.Covers a) := by unfold Covers; infer_instance

/-- How far the source bits are from the destination bits. -/
def shift : ℤ := g.src-g.dst

/-- Bit `a` after the row, from the memory before it. -/
def value (m : ℤ → FbBits) (a : ℤ) : Bool :=
  if g.Covers a then merged g.alu (scrBit g.o g.pm (a%32).toNat) (memBit g.o m (a+g.shift)) (memBit g.o m a)
  else memBit g.o m a

/-- The plan of `fbBlt` for the row. -/
def plan : Plan :=
  let rop := fbInitializeMergeRop g.alu g.pm
  { o := g.o, rop, reverse := g.reverse
    srcX := if g.reverse then (g.src+g.width-1)%32 else g.src%32
    dstX := if g.reverse then (g.dst+g.width-1)%32 else g.dst%32
    masks := fbMaskBitsBytes g.o g.dst g.width rop.destInvarient }

/-- Word `k` is done when the row has come to word `e`. -/
def Passed (e k : ℤ) : Prop := if g.reverse then e < k else k < e

instance (e k : ℤ) : Decidable (g.Passed e k) := by unfold Passed; infer_instance

/-- The word after `e`. -/
def next (e : ℤ) : ℤ := if g.reverse then e-1 else e+1

/-- Some bit of the row is still to do from word `e` on. -/
def Pending (e : ℤ) : Prop := ∃ a, g.Covers a ∧ ¬g.Passed e (a/32)

def SourceWord (k : ℤ) : Prop := ∃ a, g.Covers a ∧ (a+g.shift)/32 = k

/-- The source pointer, and `bits1` in a shifted row, are right for word `e`. -/
structure Ready (m : ℤ → FbBits) (e : ℤ) (r : Row) : Prop where
  src : r.src = if g.shift%32 = 0 ∧ g.reverse = false then e+g.shift/32 else e+g.shift/32+1
  ahead : g.shift%32 ≠ 0 → g.reverse = false → ∀ p : ℕ, p < 32 → g.Covers (32*e+p) → p+(g.shift%32).toNat < 32 →
    scrBit g.o r.bits1 (p+(g.shift%32).toNat) = memBit g.o m (32*e+p+g.shift)
  behind : g.shift%32 ≠ 0 → g.reverse = true → ∀ p : ℕ, p < 32 → g.Covers (32*e+p) → 32 ≤ p+(g.shift%32).toNat →
    scrBit g.o r.bits1 (p+(g.shift%32).toNat-32) = memBit g.o m (32*e+p+g.shift)

/-- Before word `e`: the words passed have their new bits, the others the old ones `m`. -/
structure At (m : ℤ → FbBits) (seen : List ℤ) (e : ℤ) (r : Row) : Prop where
  done : ∀ a, g.Passed e (a/32) → memBit g.o r.mem a = g.value m a
  rest : ∀ a, ¬g.Passed e (a/32) → memBit g.o r.mem a = memBit g.o m a
  dst : r.dst = if g.reverse then e+1 else e
  ready : g.Pending e → g.Ready m e r
  reads : ∀ k ∈ r.reads, k ∈ seen ∨ g.SourceWord k

/-- The order of the row does not overwrite source bits it still has to read. -/
def Safe : Prop :=
  (∀ a c, g.Covers a → g.Covers c → a+g.shift ≠ c) ∨ (if g.reverse then g.shift ≤ 0 else 0 ≤ g.shift)

@[simp] lemma memBit_word (m : ℤ → FbBits) (k : ℤ) {i : ℕ} (hi : i < 32) :
    memBit g.o m (32*k+i) = scrBit g.o (m k) i :=
  bit_word 32 (scrBit g.o) m k hi

lemma memBit_update (m : ℤ → FbBits) (k : ℤ) (v : FbBits) (a : ℤ) :
    memBit g.o (Function.update m k v) a = if a/32 = k then scrBit g.o v (a%32).toNat else memBit g.o m a :=
  bit_update 32 (scrBit g.o) m k v a

lemma value_of_not_covers {m : ℤ → FbBits} {a : ℤ} (h : ¬g.Covers a) : g.value m a = memBit g.o m a := if_neg h

lemma source_kept {m : ℤ → FbBits} {seen : List ℤ} {e : ℤ} {r : Row} (hsafe : g.Safe) (h : g.At m seen e r) {a : ℤ}
    (ha : g.Covers a) (hrest : ¬g.Passed e (a/32)) : memBit g.o r.mem (a+g.shift) = memBit g.o m (a+g.shift) := by
  by_cases hpassed : g.Passed e ((a+g.shift)/32)
  · rw [h.done _ hpassed]
    apply value_of_not_covers
    obtain hdisjoint | horder := hsafe
    · exact fun hc => hdisjoint a _ ha hc rfl
    · unfold Passed at hpassed hrest
      cases hrev : g.reverse <;> simp only [hrev,if_true,if_false,Bool.false_eq_true] at * <;> omega
  · exact h.rest _ hpassed

lemma shifts (hshift : g.shift%32 ≠ 0) :
    g.plan.leftShift = (g.shift%32).toNat ∧ g.plan.rightShift = 32-(g.shift%32).toNat := by
  simp only [plan,Plan.leftShift,Plan.rightShift,shift] at *
  constructor <;> (split_ifs <;> omega)

lemma aligned_iff : g.plan.srcX = g.plan.dstX ↔ g.shift%32 = 0 := by
  simp only [plan,shift]
  split_ifs <;> omega

/-- When the code asks for another source word. -/
def Needs (e : ℤ) : Prop :=
  ∃ p : ℕ, p < 32 ∧ g.Covers (32*e+p) ∧
    if g.reverse then p+(g.shift%32).toNat < 32 else 32 ≤ p+(g.shift%32).toNat

lemma needs_mask (hshift : g.shift%32 ≠ 0) (e : ℤ) (mask : FbBits)
    (hmask : ∀ p : ℕ, p < 32 → (scrBit g.o mask p = true ↔ g.Covers (32*e+p))) :
    g.plan.needs mask = true ↔ g.Needs e := by
  obtain ⟨hls,hrs⟩ := g.shifts hshift
  unfold Plan.needs Needs
  have hrev : g.plan.reverse = g.reverse := rfl
  have ho : g.plan.o = g.o := rfl
  rw [hrev,ho,hls,hrs]
  cases g.reverse with
  | true =>
    simp only [if_true,bne_iff_ne]
    rw [ne_zero_iff_bit g.o]
    constructor
    · rintro ⟨p,hp,hbit⟩
      rw [fbScrRight_bit g.o _ _ hp,Bool.and_eq_true,decide_eq_true_eq,hmask _ (by omega)] at hbit
      exact ⟨p-(g.shift%32).toNat,by omega,hbit.2,by omega⟩
    · rintro ⟨p,hp,hc,hlt⟩
      refine ⟨p+(g.shift%32).toNat,hlt,?_⟩
      rw [fbScrRight_bit g.o _ _ hlt,Bool.and_eq_true,decide_eq_true_eq,Nat.add_sub_cancel,hmask _ hp]
      exact ⟨by omega,hc⟩
  | false =>
    simp only [Bool.false_eq_true,if_false,bne_iff_ne]
    rw [ne_zero_iff_bit g.o]
    constructor
    · rintro ⟨p,hp,hbit⟩
      rw [fbScrLeft_bit g.o _ _ hp,Bool.and_eq_true,decide_eq_true_eq] at hbit
      exact ⟨_,hbit.1,(hmask _ hbit.1).mp hbit.2,by omega⟩
    · rintro ⟨p,hp,hc,hle⟩
      have hplace : 32-(g.shift%32).toNat+(p+(g.shift%32).toNat-32) = p := by omega
      refine ⟨p+(g.shift%32).toNat-32,by omega,?_⟩
      rw [fbScrLeft_bit g.o _ _ (by omega),hplace,Bool.and_eq_true,decide_eq_true_eq]
      exact ⟨hp,(hmask p hp).mpr hc⟩

/-- What `fetch` must give for word `e`: the source bits of the word, and a pointer right for the next word. -/
structure Fetched (m : ℤ → FbBits) (seen : List ℤ) (e : ℤ) (r : Row) (f : FbBits × Row) : Prop where
  bits : ∀ p : ℕ, p < 32 → g.Covers (32*e+p) → scrBit g.o f.1 p = memBit g.o m (32*e+p+g.shift)
  mem : f.2.mem = r.mem
  dst : f.2.dst = r.dst
  ready : g.Pending (g.next e) → g.Ready m (g.next e) f.2
  reads : ∀ k ∈ f.2.reads, k ∈ seen ∨ g.SourceWord k

section Cases

variable {g : Span} {m : ℤ → FbBits} {seen : List ℤ} {e : ℤ} {r : Row}

lemma pending_of_covers {p : ℕ} (hp : p < 32) (hc : g.Covers (32*e+p)) : g.Pending e := by
  refine ⟨_,hc,?_⟩
  unfold Passed
  split_ifs <;> omega

lemma read_bit (hsafe : g.Safe) (h : g.At m seen e r) {p i : ℕ} {e' k : ℤ} (hp : p < 32) (hi : i < 32)
    (hc : g.Covers (32*e'+p)) (hrest : ¬g.Passed e e') (hk : 32*k+i = 32*e'+p+g.shift) :
    scrBit g.o (r.mem k) i = memBit g.o m (32*e'+p+g.shift) := by
  have hword : (32*e'+p)/32 = e' := by omega
  rw [← g.memBit_word r.mem k hi,hk]
  apply g.source_kept hsafe h hc
  rwa [hword]

lemma fetch_aligned (hsafe : g.Safe) (h : g.At m seen e r) (hcov : ∃ p : ℕ, p < 32 ∧ g.Covers (32*e+p))
    (hshift : g.shift%32 = 0) (need : Bool) : g.Fetched m seen e r (g.plan.fetch need r) := by
  obtain ⟨p₀,hp₀,hc₀⟩ := hcov
  have hsrc := (h.ready (pending_of_covers hp₀ hc₀)).src
  have hnot : ¬g.Passed e e := by unfold Passed; split_ifs <;> omega
  have hword : g.SourceWord (e+g.shift/32) := ⟨_,hc₀,by omega⟩
  have hfetch : g.plan.fetch need r = r.readSrc g.reverse := if_pos (g.aligned_iff.mpr hshift)
  rw [hfetch]
  cases hrev : g.reverse with
  | true =>
    simp only [hshift,hrev,Bool.true_eq_false,and_false,if_false] at hsrc
    have hat : r.src-1 = e+g.shift/32 := by omega
    simp only [Row.readSrc,if_true,hat]
    refine ⟨fun p hp hc => read_bit hsafe h hp hp hc hnot (by omega),rfl,rfl,fun _ => ?_,?_⟩
    · refine ⟨?_,fun hne => absurd hshift hne,fun hne => absurd hshift hne⟩
      simp only [next,hrev,if_true,Bool.true_eq_false,and_false,if_false]
      omega
    · intro k hk
      obtain rfl | hk := List.mem_cons.mp hk
      · exact Or.inr hword
      · exact h.reads k hk
  | false =>
    simp only [hshift,hrev,and_self,if_true] at hsrc
    simp only [Row.readSrc,Bool.false_eq_true,if_false,hsrc]
    refine ⟨fun p hp hc => read_bit hsafe h hp hp hc hnot (by omega),rfl,rfl,fun _ => ?_,?_⟩
    · refine ⟨?_,fun hne => absurd hshift hne,fun hne => absurd hshift hne⟩
      simp only [next,hrev,Bool.false_eq_true,if_false,hshift,and_self,if_true]
      omega
    · intro k hk
      obtain rfl | hk := List.mem_cons.mp hk
      · exact Or.inr hword
      · exact h.reads k hk

lemma fetch_forward (hsafe : g.Safe) (h : g.At m seen e r) (hcov : ∃ p : ℕ, p < 32 ∧ g.Covers (32*e+p))
    (hshift : g.shift%32 ≠ 0) (hrev : g.reverse = false) {need : Bool} (hneed : need = true ↔ g.Needs e) :
    g.Fetched m seen e r (g.plan.fetch need r) := by
  obtain ⟨p₀,hp₀,hc₀⟩ := hcov
  have hready := h.ready (pending_of_covers hp₀ hc₀)
  have hsrc := hready.src
  have hahead := hready.ahead hshift hrev
  have hnot : ∀ e', e ≤ e' → ¬g.Passed e e' := by
    intro e' he
    simp only [Passed,hrev,Bool.false_eq_true,if_false]
    omega
  obtain ⟨hls,hrs⟩ := g.shifts hshift
  have hne : g.plan.srcX ≠ g.plan.dstX := fun heq => hshift (g.aligned_iff.mp heq)
  have hprev : g.plan.reverse = false := hrev
  have ho : g.plan.o = g.o := rfl
  simp only [hshift,false_and,if_false] at hsrc
  simp only [Plan.fetch,if_neg hne,hprev,Bool.false_eq_true,if_false,Row.readSrc,hls,hrs,ho,hsrc]
  cases need with
  | true =>
    obtain ⟨p₁,hp₁,hc₁,hle⟩ := hneed.mp rfl
    simp only [hrev,Bool.false_eq_true,if_false] at hle
    simp only [if_true]
    refine ⟨?_,rfl,rfl,?_,?_⟩
    · intro p hp hc
      rw [scrBit_or,fbScrLeft_bit g.o _ _ hp,fbScrRight_bit g.o _ _ hp,Nat.add_comm (g.shift%32).toNat p]
      by_cases hlow : p+(g.shift%32).toNat < 32
      · have hhigh : ¬32-(g.shift%32).toNat ≤ p := by omega
        rw [hahead p hp hc hlow]
        simp [hlow,hhigh]
      · have hhigh : 32-(g.shift%32).toNat ≤ p := by omega
        simp only [hlow,hhigh,decide_false,decide_true,Bool.false_and,Bool.true_and,Bool.false_or]
        exact read_bit hsafe h hp (by omega) hc (hnot e le_rfl) (by omega)
    · intro _
      refine ⟨?_,fun _ _ p hp hc hlow => ?_,fun _ hr => by simp [hrev] at hr⟩
      · simp only [next,hrev,Bool.false_eq_true,if_false,hshift,false_and]
        omega
      · simp only [next,hrev,Bool.false_eq_true,if_false] at hc ⊢
        exact read_bit hsafe h hp hlow hc (hnot _ (by omega)) (by omega)
    · intro k hk
      obtain rfl | hk := List.mem_cons.mp hk
      · exact Or.inr ⟨_,hc₁,by omega⟩
      · exact h.reads k hk
  | false =>
    have hnone : ∀ p : ℕ, p < 32 → g.Covers (32*e+p) → p+(g.shift%32).toNat < 32 := by
      intro p hp hc
      by_contra hle
      have := hneed.mpr ⟨p,hp,hc,by simp only [hrev,Bool.false_eq_true,if_false]; omega⟩
      simp at this
    simp only [Bool.false_eq_true,if_false]
    refine ⟨?_,rfl,rfl,?_,h.reads⟩
    · intro p hp hc
      have hlow := hnone p hp hc
      rw [fbScrLeft_bit g.o _ _ hp,Nat.add_comm (g.shift%32).toNat p,hahead p hp hc hlow]
      simp [hlow]
    · -- the row goes on past the word, so its last bit needs the next source word
      rintro ⟨a,ha,hpend⟩
      simp only [next,Passed,hrev,Bool.false_eq_true,if_false] at hpend
      have hlast : g.Covers (32*e+(31:ℕ)) := by
        unfold Covers at ha hc₀ ⊢
        omega
      have := hnone 31 (by omega) hlast
      omega

lemma fetch_backward (hsafe : g.Safe) (h : g.At m seen e r) (hcov : ∃ p : ℕ, p < 32 ∧ g.Covers (32*e+p))
    (hshift : g.shift%32 ≠ 0) (hrev : g.reverse = true) {need : Bool} (hneed : need = true ↔ g.Needs e) :
    g.Fetched m seen e r (g.plan.fetch need r) := by
  obtain ⟨p₀,hp₀,hc₀⟩ := hcov
  have hready := h.ready (pending_of_covers hp₀ hc₀)
  have hsrc := hready.src
  have hbehind := hready.behind hshift hrev
  have hnot : ∀ e', e' ≤ e → ¬g.Passed e e' := by
    intro e' he
    simp only [Passed,hrev,if_true]
    omega
  obtain ⟨hls,hrs⟩ := g.shifts hshift
  have hne : g.plan.srcX ≠ g.plan.dstX := fun heq => hshift (g.aligned_iff.mp heq)
  have hprev : g.plan.reverse = true := hrev
  have ho : g.plan.o = g.o := rfl
  simp only [hshift,false_and,if_false] at hsrc
  have hat : r.src-1 = e+g.shift/32 := by omega
  simp only [Plan.fetch,if_neg hne,hprev,if_true,Row.readSrc,hls,hrs,ho,hat]
  cases need with
  | true =>
    obtain ⟨p₁,hp₁,hc₁,hlt⟩ := hneed.mp rfl
    simp only [hrev,if_true] at hlt
    simp only [if_true]
    refine ⟨?_,rfl,rfl,?_,?_⟩
    · intro p hp hc
      rw [scrBit_or,fbScrRight_bit g.o _ _ hp,fbScrLeft_bit g.o _ _ hp,Nat.add_comm (g.shift%32).toNat p]
      by_cases hlow : p+(g.shift%32).toNat < 32
      · have hhigh : ¬32-(g.shift%32).toNat ≤ p := by omega
        simp only [hlow,hhigh,decide_false,decide_true,Bool.false_and,Bool.true_and,Bool.false_or]
        exact read_bit hsafe h hp hlow hc (hnot e le_rfl) (by omega)
      · have hhigh : 32-(g.shift%32).toNat ≤ p := by omega
        have hplace : p-(32-(g.shift%32).toNat) = p+(g.shift%32).toNat-32 := by omega
        rw [hplace,hbehind p hp hc (by omega)]
        simp [hlow,hhigh]
    · intro _
      refine ⟨?_,fun _ hr => by simp [hrev] at hr,fun _ _ p hp hc hle => ?_⟩
      · simp only [next,hrev,if_true,hshift,false_and,if_false]
        omega
      · simp only [next,hrev,if_true] at hc ⊢
        exact read_bit hsafe h hp (by omega) hc (hnot _ (by omega)) (by omega)
    · intro k hk
      obtain rfl | hk := List.mem_cons.mp hk
      · exact Or.inr ⟨_,hc₁,by omega⟩
      · exact h.reads k hk
  | false =>
    have hnone : ∀ p : ℕ, p < 32 → g.Covers (32*e+p) → 32 ≤ p+(g.shift%32).toNat := by
      intro p hp hc
      by_contra hle
      have := hneed.mpr ⟨p,hp,hc,by simp only [hrev,if_true]; omega⟩
      simp at this
    simp only [Bool.false_eq_true,if_false]
    refine ⟨?_,rfl,rfl,?_,h.reads⟩
    · intro p hp hc
      have hhigh := hnone p hp hc
      have hplace : p-(32-(g.shift%32).toNat) = p+(g.shift%32).toNat-32 := by omega
      rw [fbScrRight_bit g.o _ _ hp,hplace,hbehind p hp hc hhigh]
      simp only [Bool.and_eq_right_iff_imp,decide_eq_true_eq]
      omega
    · -- the row goes on before the word, so its first bit needs the source word before
      rintro ⟨a,ha,hpend⟩
      simp only [next,Passed,hrev,if_true] at hpend
      have hfirst : g.Covers (32*e+(0:ℕ)) := by
        unfold Covers at ha hc₀ ⊢
        omega
      have := hnone 0 (by omega) hfirst
      omega

/-- The source bits of a word, in each of the loops. -/
theorem fetch_word (hsafe : g.Safe) (h : g.At m seen e r) (hcov : ∃ p : ℕ, p < 32 ∧ g.Covers (32*e+p)) {need : Bool}
    (hneed : g.shift%32 ≠ 0 → (need = true ↔ g.Needs e)) : g.Fetched m seen e r (g.plan.fetch need r) := by
  by_cases hshift : g.shift%32 = 0
  · exact fetch_aligned hsafe h hcov hshift need
  · cases hrev : g.reverse with
    | true => exact fetch_backward hsafe h hcov hshift hrev (hneed hshift)
    | false => exact fetch_forward hsafe h hcov hshift hrev (hneed hshift)

end Cases

end Span

end Xlibre.Fb
