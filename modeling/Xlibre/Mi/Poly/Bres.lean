import Mathlib.Tactic.FieldSimp
import Mathlib.Tactic.Linarith
import Mathlib.Tactic.Ring

/-! The error terms that run a polygon edge down the scanlines. -/
namespace Xlibre.Mi.Poly

structure BresInfo where
  minor : ℤ
  d : ℤ
  m : ℤ
  m1 : ℤ
  incr1 : ℤ
  incr2 : ℤ
  deriving DecidableEq, Repr

/-- `BRESINITPGON(dy, x1, x2, …)` for `dy ≠ 0`. -/
def bresInitPgon (dy x1 x2 : ℤ) : BresInfo :=
  let dx := x2-x1
  if dx < 0 then
    let m := dx.tdiv dy
    let m1 := m-1
    { minor := x1, m, m1, incr1 := -2*dx+2*dy*m1, incr2 := -2*dx+2*dy*m, d := 2*m*dy-2*dx-2*dy }
  else
    let m := dx.tdiv dy
    let m1 := m+1
    { minor := x1, m, m1, incr1 := 2*dx-2*dy*m1, incr2 := 2*dx-2*dy*m, d := -2*m*dy+2*dx }

def bresIncrPgon (b : BresInfo) : BresInfo :=
  if b.m1 > 0 then
    if b.d > 0 then { b with minor := b.minor+b.m1, d := b.d+b.incr1 }
    else { b with minor := b.minor+b.m, d := b.d+b.incr2 }
  else
    if b.d ≥ 0 then { b with minor := b.minor+b.m1, d := b.d+b.incr1 }
    else { b with minor := b.minor+b.m, d := b.d+b.incr2 }

/-- The terms of an edge `k` scanlines below its top: `minor` is the exact crossing rounded up, and `d` tells on
which side of a pixel the next crossing lies. -/
structure BresAt (dy x1 x2 k : ℤ) (b : BresInfo) : Prop where
  const : b.m = (bresInitPgon dy x1 x2).m ∧ b.m1 = (bresInitPgon dy x1 x2).m1 ∧
    b.incr1 = (bresInitPgon dy x1 x2).incr1 ∧ b.incr2 = (bresInitPgon dy x1 x2).incr2
  above : k*(x2-x1) ≤ dy*(b.minor-x1)
  below : dy*(b.minor-x1)-dy < k*(x2-x1)
  error : b.d = if x2-x1 < 0 then 2*(-(k*(x2-x1))+(-(x2-x1))%dy+dy*(b.minor-x1)-dy)
    else 2*(k*(x2-x1)+(x2-x1)%dy-dy*(b.minor-x1))

variable {dy x1 x2 k : ℤ} {b : BresInfo}

lemma tdiv_neg_eq (h : x2-x1 < 0) : (x2-x1).tdiv dy = -((-(x2-x1))/dy) := by
  have hneg : (x2-x1).tdiv dy = -((-(x2-x1)).tdiv dy) := by rw [Int.neg_tdiv,neg_neg]
  rw [hneg,Int.tdiv_eq_ediv_of_nonneg (by omega)]

lemma bresInitPgon_at (hdy : 0 < dy) : BresAt dy x1 x2 0 (bresInitPgon dy x1 x2) := by
  have hminor : (bresInitPgon dy x1 x2).minor = x1 := by
    by_cases hdx : x2-x1 < 0
    · simp only [bresInitPgon,if_pos hdx]
    · simp only [bresInitPgon,if_neg hdx]
  refine ⟨⟨rfl,rfl,rfl,rfl⟩,?_,?_,?_⟩
  · rw [hminor]
    simp
  · rw [hminor]
    simpa using hdy
  · rw [hminor,sub_self,mul_zero,zero_mul]
    split_ifs with hdx
    · have hsplit := Int.mul_ediv_add_emod (-(x2-x1)) dy
      simp only [bresInitPgon,if_pos hdx,tdiv_neg_eq hdx]
      linarith
    · have hsplit := Int.mul_ediv_add_emod (x2-x1) dy
      simp only [bresInitPgon,if_neg hdx,Int.tdiv_eq_ediv_of_nonneg (not_lt.mp hdx)]
      linarith

/-- One scanline further. -/
theorem bresIncrPgon_at (hdy : 0 < dy) (h : BresAt dy x1 x2 k b) : BresAt dy x1 x2 (k+1) (bresIncrPgon b) := by
  obtain ⟨⟨hm,hm1,hi1,hi2⟩,habove,hbelow,herror⟩ := h
  have hconst : ∀ b' : BresInfo, b'.m = b.m → b'.m1 = b.m1 → b'.incr1 = b.incr1 → b'.incr2 = b.incr2 →
      b'.m = (bresInitPgon dy x1 x2).m ∧ b'.m1 = (bresInitPgon dy x1 x2).m1 ∧
      b'.incr1 = (bresInitPgon dy x1 x2).incr1 ∧ b'.incr2 = (bresInitPgon dy x1 x2).incr2 :=
    fun b' h₁ h₂ h₃ h₄ => ⟨h₁.trans hm,h₂.trans hm1,h₃.trans hi1,h₄.trans hi2⟩
  by_cases hdx : x2-x1 < 0
  · have hq : 0 ≤ (-(x2-x1))/dy := Int.ediv_nonneg (by omega) hdy.le
    have hr := Int.emod_nonneg (-(x2-x1)) hdy.ne'
    have hr' := Int.emod_lt_of_pos (-(x2-x1)) hdy
    have hsplit := Int.mul_ediv_add_emod (-(x2-x1)) dy
    simp only [bresInitPgon,if_pos hdx,tdiv_neg_eq hdx] at hm hm1 hi1 hi2
    rw [if_pos hdx] at herror
    unfold bresIncrPgon
    rw [if_neg (by omega)]
    split_ifs with hd
    · refine ⟨hconst _ rfl rfl rfl rfl,?_,?_,?_⟩
      · simp only [hm1]
        linarith
      · simp only [hm1]
        linarith
      · simp only [if_pos hdx,hm1,hi1]
        linarith
    · refine ⟨hconst _ rfl rfl rfl rfl,?_,?_,?_⟩
      · simp only [hm]
        linarith
      · simp only [hm]
        linarith
      · simp only [if_pos hdx,hm,hi2]
        linarith
  · have hq : 0 ≤ (x2-x1)/dy := Int.ediv_nonneg (by omega) hdy.le
    have hr := Int.emod_nonneg (x2-x1) hdy.ne'
    have hr' := Int.emod_lt_of_pos (x2-x1) hdy
    have hsplit := Int.mul_ediv_add_emod (x2-x1) dy
    simp only [bresInitPgon,if_neg hdx,Int.tdiv_eq_ediv_of_nonneg (not_lt.mp hdx)] at hm hm1 hi1 hi2
    rw [if_neg hdx] at herror
    unfold bresIncrPgon
    rw [if_pos (by omega)]
    split_ifs with hd
    · refine ⟨hconst _ rfl rfl rfl rfl,?_,?_,?_⟩
      · simp only [hm1]
        linarith
      · simp only [hm1]
        linarith
      · simp only [if_neg hdx,hm1,hi1]
        linarith
    · refine ⟨hconst _ rfl rfl rfl rfl,?_,?_,?_⟩
      · simp only [hm]
        linarith
      · simp only [hm]
        linarith
      · simp only [if_neg hdx,hm,hi2]
        linarith

lemma BresAt.minor_le (hdy : 0 < dy) (h : BresAt dy x1 x2 k b) (x : ℤ) :
    b.minor ≤ x ↔ (x1+k*(x2-x1)/dy : ℚ) ≤ x := by
  have hdyq : (0 : ℚ) < dy := by exact_mod_cast hdy
  have habove := h.above
  have hbelow := h.below
  have hcross : (x1+k*(x2-x1)/dy : ℚ) ≤ x ↔ k*(x2-x1) ≤ dy*(x-x1) := by
    rw [← le_sub_iff_add_le',div_le_iff₀ hdyq,mul_comm _ (dy : ℚ)]
    exact_mod_cast Iff.rfl
  rw [hcross]
  constructor
  · intro hle
    have := mul_le_mul_of_nonneg_left (sub_le_sub_right hle x1) hdy.le
    linarith
  · intro hle
    by_contra hlt
    push Not at hlt
    have : dy*(x-x1) ≤ dy*(b.minor-1-x1) := mul_le_mul_of_nonneg_left (by omega) hdy.le
    linarith

lemma BresAt.between (hdy : 0 < dy) (h : BresAt dy x1 x2 k b) (hk : 0 ≤ k) (hk' : k ≤ dy) :
    min x1 x2 ≤ b.minor ∧ b.minor ≤ max x1 x2 := by
  have habove := h.above
  have hbelow := h.below
  obtain hle | hle := le_total x1 x2
  · rw [min_eq_left hle,max_eq_right hle]
    have h₁ : 0 ≤ k*(x2-x1) := mul_nonneg hk (by omega)
    have h₂ : k*(x2-x1) ≤ dy*(x2-x1) := mul_le_mul_of_nonneg_right hk' (by omega)
    constructor
    · have : 0 ≤ b.minor-x1 := nonneg_of_mul_nonneg_right (by linarith) hdy
      omega
    · by_contra hlt
      have : dy*(x2-x1) ≤ dy*(b.minor-1-x1) := mul_le_mul_of_nonneg_left (by omega) hdy.le
      linarith
  · rw [min_eq_right hle,max_eq_left hle]
    have h₁ : k*(x2-x1) ≤ 0 := mul_nonpos_of_nonneg_of_nonpos hk (by omega)
    have h₂ : dy*(x2-x1) ≤ k*(x2-x1) := mul_le_mul_of_nonpos_right hk' (by omega)
    constructor
    · by_contra hlt
      have : dy*(b.minor-x1) ≤ dy*(x2-1-x1) := mul_le_mul_of_nonneg_left (by omega) hdy.le
      linarith
    · by_contra hlt
      have : dy*1 ≤ dy*(b.minor-x1) := mul_le_mul_of_nonneg_left (by omega) hdy.le
      linarith

end Xlibre.Mi.Poly
