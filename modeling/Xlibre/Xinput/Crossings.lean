import Xlibre.Xinput.Barriers
import Mathlib.Data.Rat.Floor

/-! Movements that cross the line of a barrier, in exact arithmetic: the barrier looks at the mirror image of the point
where the line is met. -/
namespace Xlibre.Xinput

instance : MachineNumber ℚ := { decidableLT := inferInstance }

/-- Exact arithmetic. What becomes of the distance is open. -/
def rational {D : Type} (toDouble : ℚ → D) (pow : D → ℕ → D) (sqrt : D → D) : Floats ℚ D :=
  ⟨fun q => q.num.tdiv q.den,toDouble,pow,sqrt⟩

/-- A movement from `a₁` to `a₂` that gets from one side of the line onto it or to the other. -/
def Crosses (line a₁ a₂ : ℤ) : Prop := a₁ < line ∧ line ≤ a₂ ∨ a₂ < line ∧ line ≤ a₁

/-- How far the movement has got along the line when it meets it. -/
def drift (line a₁ b₁ a₂ b₂ : ℤ) : ℚ := (b₂ - b₁)*((line - a₁)/(a₂ - a₁))

/-- Whoever meets the line between `lo` and `hi` is stopped, whoever meets it more than one away is not. -/
def Stops (blocked : Bool) (lo hi : ℤ) (y : ℚ) : Prop :=
  (lo ≤ y ∧ y ≤ hi → blocked = true) ∧ (y < lo - 1 ∨ hi + 1 < y → blocked = false)

/-- A point that is between `lo` and `hi` when its fraction is cut off. -/
def OnSegment (lo hi : ℤ) (y : ℚ) : Prop := (lo ≤ y ∨ lo = 0 ∧ -1 < y) ∧ y < hi + 1

/-- A drift the other way is not told apart from the drift. -/
def Mirrors (lo hi b₁ : ℤ) (d : ℚ) : Prop :=
  (lo ≤ b₁ + d ∧ b₁ + d ≤ hi → OnSegment lo hi (b₁ - d)) ∧
    (b₁ + d < lo - 1 ∨ hi + 1 < b₁ + d → ¬OnSegment lo hi (b₁ - d))

variable {lo hi line a₁ b₁ a₂ b₂ : ℤ} {q : ℚ} {D : Type} [MachineNumber D] {toDouble : ℚ → D} {pow : D → ℕ → D} {sqrt : D → D}

lemma trunc_bounds (q : ℚ) : 0 ≤ q.num.tdiv q.den ∧ q.num.tdiv q.den ≤ q ∧ q < q.num.tdiv q.den + 1 ∨
    q.num.tdiv q.den ≤ 0 ∧ q.num.tdiv q.den - 1 < q ∧ q ≤ q.num.tdiv q.den := by
  have hd : (0 : ℚ) < q.den := by exact_mod_cast q.pos
  have hq : q*q.den = q.num := Rat.mul_den_eq_num q
  have hdiv : (q.den : ℤ)*q.num.tdiv q.den + q.num.tmod q.den = q.num := Int.mul_tdiv_add_tmod q.num q.den
  have hdiv' : (q.den : ℚ)*(q.num.tdiv q.den : ℤ) + (q.num.tmod q.den : ℤ) = q.num := by exact_mod_cast hdiv
  have hden : (0 : ℤ) < q.den := by exact_mod_cast q.pos
  obtain hn | hn := le_or_gt 0 q.num
  · have h₀ : (0 : ℚ) ≤ (q.num.tmod q.den : ℤ) := by exact_mod_cast Int.tmod_nonneg _ hn
    have h₁ : ((q.num.tmod q.den : ℤ) : ℚ) < q.den := by exact_mod_cast Int.tmod_lt_of_pos q.num hden
    exact .inl ⟨Int.tdiv_nonneg hn hden.le,by nlinarith,by nlinarith⟩
  · have hneg : 0 ≤ -q.num := by omega
    have hmod := Int.tmod_nonneg q.den hneg
    have hlt := Int.tmod_lt_of_pos (-q.num) hden
    have hquot := Int.tdiv_nonneg hneg hden.le
    rw [Int.neg_tmod] at hmod hlt
    rw [Int.neg_tdiv] at hquot
    have h₀ : ((q.num.tmod q.den : ℤ) : ℚ) ≤ 0 := Int.cast_nonpos.2 (by omega)
    have h₁ : ((-q.den : ℤ) : ℚ) < (q.num.tmod q.den : ℤ) := Int.cast_lt.2 (by omega)
    push_cast at h₁
    exact .inr ⟨by omega,by nlinarith,by nlinarith⟩

lemma le_trunc (h : 0 ≤ lo) : lo ≤ q.num.tdiv q.den ↔ lo ≤ q ∨ lo = 0 ∧ -1 < q := by
  generalize hcut : q.num.tdiv q.den = t
  have hbounds := trunc_bounds q
  rw [hcut] at hbounds
  obtain ⟨hpos,hle,hlt⟩ | ⟨hneg,hlt,hle⟩ := hbounds
  · constructor
    · exact fun hlo => .inl ((Int.cast_le.2 hlo).trans hle)
    · rintro (hlo | ⟨rfl,-⟩)
      · have : (lo : ℚ) < ((t + 1 : ℤ) : ℚ) := by push_cast; linarith
        exact Int.lt_add_one_iff.1 (Int.cast_lt.1 this)
      · exact hpos
  · constructor
    · intro hlo
      obtain rfl : t = 0 := by omega
      refine .inr ⟨by omega,?_⟩
      simpa using hlt
    · rintro (hlo | ⟨rfl,hq⟩)
      · exact Int.cast_le.1 (hlo.trans hle)
      · have : ((-1 : ℤ) : ℚ) < (t : ℚ) := by push_cast; linarith
        exact Int.cast_lt.1 this

lemma trunc_le (h : 0 ≤ hi) : q.num.tdiv q.den ≤ hi ↔ q < hi + 1 := by
  generalize hcut : q.num.tdiv q.den = t
  have hbounds := trunc_bounds q
  rw [hcut] at hbounds
  obtain ⟨-,hle,hlt⟩ | ⟨hneg,-,hle⟩ := hbounds
  · constructor
    · intro hhi
      have : (t : ℚ) ≤ hi := Int.cast_le.2 hhi
      linarith
    · intro hhi
      have : (t : ℚ) < ((hi + 1 : ℤ) : ℚ) := by push_cast; linarith
      exact Int.lt_add_one_iff.1 (Int.cast_lt.1 this)
  · have hhi : (0 : ℚ) ≤ hi := Int.cast_nonneg h
    have ht : (t : ℚ) ≤ 0 := Int.cast_nonpos.2 hneg
    exact ⟨fun _ => by linarith,fun _ => hneg.trans h⟩

lemma insideSegment_trunc (hlo : 0 ≤ lo) (hhi : 0 ≤ hi) :
    insideSegment (q.num.tdiv q.den) lo hi = true ↔ OnSegment lo hi q := by
  unfold insideSegment OnSegment
  rw [if_neg (by omega),if_neg (by omega),if_neg (by omega),decide_eq_true_iff]
  exact and_congr (le_trunc hlo) (trunc_le hhi)

lemma crossing_isSome (hlo : 0 ≤ lo) (hhi : 0 ≤ hi) (h : Crosses line a₁ a₂) :
    (PointerBarrier.crossing (rational toDouble pow sqrt) line lo hi a₁ b₁ a₂ b₂).isSome = true ↔
      OnSegment lo hi (b₁ - drift line a₁ b₁ a₂ b₂) := by
  have hparam : (0 : ℚ) ≤ (line - a₁)/(a₂ - a₁) ∧ ((line : ℚ) - a₁)/(a₂ - a₁) ≤ 1 ∧
      (a₁ < a₂ → ((line : ℚ) - a₁)/(a₂ - a₁) ≠ 0) := by
    obtain ⟨hlt,hle⟩ | ⟨hlt,hle⟩ := h
    · have h₁ : (a₁ : ℚ) < line := Int.cast_lt.2 hlt
      have h₂ : (line : ℚ) ≤ a₂ := Int.cast_le.2 hle
      exact ⟨div_nonneg (by linarith) (by linarith),(div_le_one (by linarith)).2 (by linarith),fun _ =>
        (div_pos (by linarith) (by linarith)).ne'⟩
    · have h₁ : (a₂ : ℚ) < line := Int.cast_lt.2 hlt
      have h₂ : (line : ℚ) ≤ a₁ := Int.cast_le.2 hle
      exact ⟨div_nonneg_of_nonpos (by linarith) (by linarith),(div_le_one_of_neg (by linarith)).2 (by linarith),
        fun hlt' => by omega⟩
  obtain ⟨hpos,hle,hne⟩ := hparam
  have hsub : ((a₂ - a₁ : ℤ) : ℚ) = a₂ - a₁ := Int.cast_sub a₂ a₁
  have hmirror : ((line : ℚ) - a₁)/(a₂ - a₁)*((b₁ - b₂ : ℤ) : ℚ) + b₁ = b₁ - drift line a₁ b₁ a₂ b₂ := by
    unfold drift
    push_cast
    ring
  unfold PointerBarrier.crossing
  dsimp only
  rw [hsub,hmirror,if_neg,if_neg,← insideSegment_trunc hlo hhi]
  · change (if insideSegment ((b₁ - drift line a₁ b₁ a₂ b₂).num.tdiv (b₁ - drift line a₁ b₁ a₂ b₂).den) lo hi = true then
      some _ else none : Option D).isSome = true ↔ _
    split_ifs with hin
    · exact iff_of_true rfl hin
    · exact iff_of_false Bool.false_ne_true hin
  · rintro ⟨hlt,hzero⟩
    exact hne hlt (by simpa using eq_of_beq hzero)
  · rintro (hlt | hlt)
    · exact absurd hlt (not_lt.2 (by simpa using hpos))
    · exact absurd hlt (not_lt.2 (by simpa using hle))

lemma stops_iff (hlo : 0 ≤ lo) (hlt : lo < hi) (h : Crosses line a₁ a₂) :
    Stops (PointerBarrier.crossing (rational toDouble pow sqrt) line lo hi a₁ b₁ a₂ b₂).isSome lo hi
        (b₁ + drift line a₁ b₁ a₂ b₂) ↔ Mirrors lo hi b₁ (drift line a₁ b₁ a₂ b₂) := by
  have hsome : (PointerBarrier.crossing (rational toDouble pow sqrt) line lo hi a₁ b₁ a₂ b₂).isSome = true ↔
      OnSegment lo hi (b₁ - drift line a₁ b₁ a₂ b₂) := crossing_isSome hlo (by omega) h
  unfold Stops Mirrors
  rw [← hsome,Bool.not_eq_true]

/-- A vertical and a horizontal barrier stop the movements that cross their line as they should if and only if the drift
along the barrier and the drift the other way are on the same side of its ends. -/
theorem stops_crossings_iff {D : Type} [MachineNumber D] (toDouble : ℚ → D) (pow : D → ℕ → D) (sqrt : D → D)
    (b : PointerBarrier) (x1 y1 x2 y2 : ℤ) :
    (b.x1 = b.x2 → 0 ≤ b.y1 → b.y1 < b.y2 → Crosses b.x1 x1 x2 →
      (Stops (b.isBlocking (rational toDouble pow sqrt) x1 y1 x2 y2).isSome b.y1 b.y2 (y1 + drift b.x1 x1 y1 x2 y2) ↔
        Mirrors b.y1 b.y2 y1 (drift b.x1 x1 y1 x2 y2))) ∧
    (b.y1 = b.y2 → 0 ≤ b.x1 → b.x1 < b.x2 → Crosses b.y1 y1 y2 →
      (Stops (b.isBlocking (rational toDouble pow sqrt) x1 y1 x2 y2).isSome b.x1 b.x2 (x1 + drift b.y1 y1 x1 y2 x2) ↔
        Mirrors b.x1 b.x2 x1 (drift b.y1 y1 x1 y2 x2))) := by
  constructor
  · intro hvertical hlo hlt hcross
    unfold PointerBarrier.isBlocking PointerBarrier.isVertical
    rw [if_pos (decide_eq_true hvertical)]
    exact stops_iff hlo hlt hcross
  · intro _ hlo hlt hcross
    have hvertical : ¬decide (b.x1 = b.x2) = true := fun h => hlt.ne (of_decide_eq_true h)
    unfold PointerBarrier.isBlocking PointerBarrier.isVertical
    rw [if_neg hvertical]
    exact stops_iff hlo hlt hcross

/-- A movement along the normal of the barrier does not drift. -/
theorem stops_crossings_iff_straight :
    Stops ((⟨100,100,50,150,0⟩ : PointerBarrier).isBlocking (rational (fun q => q) (fun q n => q^n) fun q => q) 95 70 105 70).isSome
        50 150 (70 + drift 100 95 70 105 70) ∧
      Stops ((⟨50,150,100,100,0⟩ : PointerBarrier).isBlocking (rational (fun q => q) (fun q n => q^n) fun q => q) 70 105 70 95).isSome
        50 150 (70 + drift 100 105 70 95 70) := by
  constructor
  · refine ((stops_crossings_iff (fun q : ℚ => q) (fun q n => q^n) (fun q => q) ⟨100,100,50,150,0⟩ 95 70 105 70).1 rfl
      (by decide) (by decide) (.inl (by decide))).2 ?_
    simp [Mirrors,OnSegment,drift]
    norm_num
  · refine ((stops_crossings_iff (fun q : ℚ => q) (fun q n => q^n) (fun q => q) ⟨50,150,100,100,0⟩ 70 105 70 95).2 rfl
      (by decide) (by decide) (.inr (by decide))).2 ?_
    simp [Mirrors,OnSegment,drift]
    norm_num

/-- From one end of a barrier towards the other, both inside: the line is met in the middle, and the barrier looks outside. -/
theorem slanted_passes : Crosses 100 95 105 ∧ (150 + drift 100 95 150 105 60 = 105) ∧
    ¬Stops ((⟨100,100,50,150,0⟩ : PointerBarrier).isBlocking (rational (fun q => q) (fun q n => q^n) fun q => q)
      95 150 105 60).isSome 50 150 (150 + drift 100 95 150 105 60) := by
  have hdrift : drift 100 95 150 105 60 = -45 := by norm_num [drift]
  refine ⟨.inl (by decide),by rw [hdrift]; norm_num,?_⟩
  have hsome : ((⟨100,100,50,150,0⟩ : PointerBarrier).isBlocking (rational (fun q => q) (fun q n => q^n) fun q => q)
      95 150 105 60).isSome = true ↔ OnSegment 50 150 ((150 : ℤ) - drift 100 95 150 105 60) :=
    crossing_isSome (by decide) (by decide) (.inl (by decide))
  rw [hdrift] at hsome ⊢
  intro h
  obtain ⟨-,hhi⟩ := hsome.1 (h.1 (by norm_num))
  norm_num at hhi

end Xlibre.Xinput
