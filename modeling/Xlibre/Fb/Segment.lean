import Mathlib.Data.List.Basic
import Mathlib.Tactic.IntervalCases
import Mathlib.Tactic.Linarith
import Mathlib.Tactic.Ring

/-! Zero-width lines: the pixels of `fbSegment` where no clip box cuts the line, and what the bias is for. -/
namespace Xlibre.Fb.Segment

def xDecreasing : ℕ := 4
def yDecreasing : ℕ := 2
def yMajor : ℕ := 1

/-- The set-up of a line: `CalcLineDeltas` and what follows it. -/
structure Bres where
  yAxis : Bool
  signdx : ℤ
  signdy : ℤ
  major : ℤ
  minor : ℤ
  octant : ℕ
  deriving DecidableEq

def calcLineDeltas (p q : ℤ × ℤ) : Bres :=
  let dx := q.1-p.1
  let dy := q.2-p.2
  let adx := if dx < 0 then -dx else dx
  let ady := if dy < 0 then -dy else dy
  let octant := (if dx < 0 then xDecreasing else 0) + (if dy < 0 then yDecreasing else 0)
  let yAxis := !decide (ady < adx)
  ⟨yAxis,if dx < 0 then -1 else 1,if dy < 0 then -1 else 1,if yAxis then ady else adx,if yAxis then adx else ady,
    octant + if yAxis then yMajor else 0⟩

/-- What `FIXUP_ERROR` takes off. -/
def fixup (bias octant : ℕ) : ℤ := ((bias >>> octant) % 2 : ℕ)

/-- The pixel so many steps along the axis and so many aside. -/
def Bres.pixel (l : Bres) (p : ℤ × ℤ) (k m : ℤ) : ℤ × ℤ :=
  if l.yAxis then (p.1 + l.signdx*m,p.2 + l.signdy*k) else (p.1 + l.signdx*k,p.2 + l.signdy*m)

/-- The loop of `fbBresSolid`, with the pixels that it draws. -/
def fbBres (l : Bres) (e1 e3 : ℤ) : ℕ → ℤ × ℤ → ℤ → List (ℤ × ℤ)
  | 0, _, _ => []
  | len+1, p, e =>
    let next := l.pixel p 1 0
    p :: if 0 ≤ e+e1 then fbBres l e1 e3 len (l.pixel next 0 1) (e+e1+e3) else fbBres l e1 e3 len next (e+e1)

def fbSegment (bias : ℕ) (p q : ℤ × ℤ) (drawLast : Bool) : List (ℤ × ℤ) :=
  let l := calcLineDeltas p q
  let e1 := 2*l.minor
  let e2 := e1-2*l.major
  let e := e1-l.major-fixup bias l.octant
  fbBres l e1 (e2-e1) (l.major.toNat + if drawLast then 1 else 0) p (e-e1)

/-- How far aside the line is after so many steps. -/
def aside (l : Bres) (b k : ℤ) : ℤ := (2*l.minor*k+l.major-b) / (2*l.major)

variable {l : Bres} {p q : ℤ × ℤ} {b k : ℤ} {bias : ℕ}

lemma pixel_pixel (l : Bres) (p : ℤ × ℤ) (k m i j : ℤ) : l.pixel (l.pixel p k m) i j = l.pixel p (k+i) (m+j) := by
  unfold Bres.pixel
  split_ifs <;> ring_nf

lemma aside_iff (hmajor : 0 < l.major) (m : ℤ) :
    aside l b k = m ↔ m*(2*l.major) ≤ 2*l.minor*k+l.major-b ∧ 2*l.minor*k+l.major-b < m*(2*l.major)+2*l.major :=
  Int.ediv_eq_iff_of_pos (by omega)

/-- From the `k`th pixel on, with the error that is left there. -/
lemma fbBres_eq (hmajor : 0 < l.major) (hminor : 0 ≤ l.minor ∧ l.minor ≤ l.major) (len : ℕ) (k : ℤ) :
    fbBres l (2*l.minor) (-2*l.major) len (l.pixel p k (aside l b k))
        (2*l.minor*k-l.major-b-2*l.major*aside l b k) =
      (List.range len).map fun i : ℕ => l.pixel p (k+i) (aside l b (k+i)) := by
  induction len generalizing k with
  | zero => rfl
  | succ len ih =>
    obtain ⟨hlow,hhigh⟩ := (aside_iff hmajor (b := b) (k := k) _).1 rfl
    have hnext (m : ℤ) := (aside_iff hmajor (b := b) (k := k+1) m).2
    have hrest := ih (k+1)
    rw [List.range_succ_eq_map,List.map_cons,List.map_map,fbBres]
    simp only [pixel_pixel,add_zero,Nat.cast_zero]
    congr 1
    have htail : (List.range len).map ((fun i : ℕ => l.pixel p (k+i) (aside l b (k+i))) ∘ Nat.succ) =
        (List.range len).map fun i : ℕ => l.pixel p (k+1+i) (aside l b (k+1+i)) := by
      refine List.map_congr_left fun i _ => ?_
      simp only [Function.comp_apply,Nat.succ_eq_add_one,Nat.cast_add,Nat.cast_one,add_comm (i : ℤ) 1,add_assoc]
    rw [htail,← hrest]
    split_ifs with hstep
    · rw [hnext (aside l b k+1) ⟨by linarith,by linarith⟩]
      congr 1
      ring
    · rw [hnext (aside l b k) ⟨by linarith,by linarith⟩]
      congr 1
      ring

lemma deltas (p q : ℤ × ℤ) : 0 ≤ (calcLineDeltas p q).minor ∧ (calcLineDeltas p q).minor ≤ (calcLineDeltas p q).major := by
  unfold calcLineDeltas
  dsimp only
  split_ifs <;> simp_all <;> omega

lemma fixup_range (bias octant : ℕ) : 0 ≤ fixup bias octant ∧ fixup bias octant ≤ 1 := by
  unfold fixup
  omega

/-- Every pixel is the one next to the line, in the direction across the axis. -/
theorem fbSegment_pixels (bias : ℕ) (p q : ℤ × ℤ) (drawLast : Bool) :
    fbSegment bias p q drawLast =
      (List.range ((calcLineDeltas p q).major.toNat + if drawLast then 1 else 0)).map fun i : ℕ =>
        (calcLineDeltas p q).pixel p i (aside (calcLineDeltas p q) (fixup bias (calcLineDeltas p q).octant) i) := by
  have hd := deltas p q
  obtain ⟨hb0,hb1⟩ := fixup_range bias (calcLineDeltas p q).octant
  unfold fbSegment
  dsimp only
  generalize calcLineDeltas p q = l at *
  generalize fixup bias l.octant = b at *
  obtain hmajor | hzero := lt_or_eq_of_le (hd.1.trans hd.2)
  · have hfirst : aside l b 0 = 0 := (aside_iff hmajor 0).2 ⟨by linarith,by linarith⟩
    have hline := fbBres_eq (p := p) (b := b) hmajor hd (l.major.toNat + if drawLast then 1 else 0) 0
    have hstart : l.pixel p 0 0 = p := by simp [Bres.pixel]
    rw [hfirst,hstart] at hline
    simp only [zero_add] at hline
    rw [← hline]
    congr 1 <;> ring
  · cases drawLast <;> simp [fbBres,aside,← hzero,Bres.pixel]

/-- Of two opposite octants one is biased. -/
def Fair (bias : ℕ) : Prop := ∀ octant < 8, fixup bias octant + fixup bias (octant ^^^ 6) = 1

def defaultZeroLineBias : ℕ := 2^(yDecreasing+yMajor) + 2^(xDecreasing+yDecreasing+yMajor) + 2^(xDecreasing+yDecreasing) +
  2^xDecreasing

lemma fair_default : Fair defaultZeroLineBias := by
  unfold Fair
  decide

/-- The line back has the same steps aside, seen from its own end. -/
lemma aside_back {l' : Bres} {b' : ℤ} (hmajor : 0 < l.major) (hmajor' : l'.major = l.major) (hminor : l'.minor = l.minor)
    (hb : b+b' = 1) : aside l' b' k = l.minor-aside l b (l.major-k) := by
  obtain ⟨hlow,hhigh⟩ := (aside_iff hmajor (b := b) (k := l.major-k) _).1 rfl
  refine (aside_iff (hmajor'.symm ▸ hmajor) _).2 ?_
  rw [hmajor',hminor]
  constructor <;> linarith

lemma aside_straight (hmajor : 0 < l.major) (hminor : l.minor = 0) (hb : 0 ≤ b ∧ b ≤ 1) : aside l b k = 0 := by
  refine (aside_iff hmajor 0).2 ?_
  rw [hminor]
  constructor <;> linarith

lemma deltas_back (p q : ℤ × ℤ) : (calcLineDeltas q p).major = (calcLineDeltas p q).major ∧
    (calcLineDeltas q p).minor = (calcLineDeltas p q).minor ∧ (calcLineDeltas p q).octant < 8 ∧
    ((calcLineDeltas p q).minor ≠ 0 → (calcLineDeltas q p).octant = (calcLineDeltas p q).octant ^^^ 6) := by
  unfold calcLineDeltas xDecreasing yDecreasing yMajor
  dsimp only
  split_ifs <;> simp_all <;> omega

lemma size_back (x x' : ℤ) : (if x-x' < 0 then -(x-x') else x-x') = if x'-x < 0 then -(x'-x) else x'-x := by
  split_ifs <;> omega

lemma coordinate_back {x x' a t t' : ℤ} (ha : (if x'-x < 0 then -(x'-x) else x'-x) = a) (h0 : a = 0 → t = 0 ∧ t' = 0)
    (h1 : a ≠ 0 → t' = a-t) : x'+(if x-x' < 0 then -1 else 1)*t' = x+(if x'-x < 0 then -1 else 1)*t := by
  split_ifs at ha ⊢ <;> omega

lemma pixel_back {A A' k : ℤ} (hmajor : 0 < (calcLineDeltas p q).major) (h0 : (calcLineDeltas p q).minor = 0 → A = 0 ∧ A' = 0)
    (h1 : (calcLineDeltas p q).minor ≠ 0 → A' = (calcLineDeltas p q).minor-A) :
    (calcLineDeltas q p).pixel q k A' = (calcLineDeltas p q).pixel p ((calcLineDeltas p q).major-k) A := by
  unfold calcLineDeltas Bres.pixel at *
  dsimp only at *
  simp only [size_back p.1 q.1,size_back p.2 q.2]
  by_cases haxis : (if q.2-p.2 < 0 then -(q.2-p.2) else q.2-p.2) < if q.1-p.1 < 0 then -(q.1-p.1) else q.1-p.1
  · simp only [haxis,decide_true,Bool.not_true,Bool.false_eq_true,if_false] at *
    exact Prod.ext (coordinate_back rfl (by omega) (by omega)) (coordinate_back rfl h0 h1)
  · simp only [haxis,decide_false,Bool.not_false,if_true] at *
    exact Prod.ext (coordinate_back rfl h0 h1) (coordinate_back rfl (by omega) (by omega))

/-- With a fair bias, such as the default, and with no other, every line lights the same pixels from either end. -/
theorem fbSegment_reverse_iff : Fair defaultZeroLineBias ∧
    ∀ bias, (∀ p q, fbSegment bias q p true = (fbSegment bias p q true).reverse) ↔ Fair bias := by
  refine ⟨fair_default,fun bias => ⟨?_,?_⟩⟩
  · intro h octant hoctant
    have hmiddle {p q : ℤ × ℤ} {l l' : Bres} (hl : calcLineDeltas p q = l) (hl' : calcLineDeltas q p = l')
        (hmajor : l.major = 2 ∧ l'.major = 2) :
        l'.pixel q 1 (aside l' (fixup bias l'.octant) 1) = l.pixel p 1 (aside l (fixup bias l.octant) 1) := by
      have hlists := h p q
      rw [fbSegment_pixels,fbSegment_pixels,hl,hl',hmajor.1,hmajor.2] at hlists
      exact (List.cons.inj (List.cons.inj hlists).2).1
    have h0 := hmiddle (rfl : calcLineDeltas (0,0) (2,1) = ⟨false,1,1,2,1,0⟩) rfl ⟨rfl,rfl⟩
    have h1 := hmiddle (rfl : calcLineDeltas (0,0) (1,2) = ⟨true,1,1,2,1,1⟩) rfl ⟨rfl,rfl⟩
    have h2 := hmiddle (rfl : calcLineDeltas (0,0) (2,-1) = ⟨false,1,-1,2,1,2⟩) rfl ⟨rfl,rfl⟩
    have h3 := hmiddle (rfl : calcLineDeltas (0,0) (1,-2) = ⟨true,1,-1,2,1,3⟩) rfl ⟨rfl,rfl⟩
    simp [calcLineDeltas,Bres.pixel,aside,xDecreasing,yDecreasing,yMajor,fixup] at h0 h1 h2 h3 ⊢
    interval_cases octant <;> simp <;> omega
  · intro hfair p q
    obtain ⟨hmajor',hminor',hoctant,hopposite⟩ := deltas_back p q
    have hd := deltas p q
    rw [fbSegment_pixels,fbSegment_pixels,hmajor']
    obtain hmajor | hzero := lt_or_eq_of_le (hd.1.trans hd.2)
    · refine List.ext_getElem (by simp) fun i hi _ => ?_
      simp only [List.length_map,List.length_range,if_true] at hi
      rw [List.getElem_reverse,List.getElem_map,List.getElem_map,List.getElem_range,List.getElem_range,
        pixel_back hmajor (A := aside (calcLineDeltas p q) (fixup bias (calcLineDeltas p q).octant)
          ((calcLineDeltas p q).major-i))]
      · simp only [List.length_map,List.length_range,if_true]
        have hindex : (((calcLineDeltas p q).major.toNat+1-1-i : ℕ) : ℤ) = (calcLineDeltas p q).major-i := by omega
        rw [hindex]
      · intro hstraight
        exact ⟨aside_straight hmajor hstraight (fixup_range ..),
          aside_straight (hmajor'.symm ▸ hmajor) (hminor'.trans hstraight) (fixup_range ..)⟩
      · intro hslanted
        refine aside_back hmajor hmajor' hminor' ?_
        rw [hopposite hslanted]
        exact hfair _ hoctant
    · have hsame : q = p := by
        unfold calcLineDeltas at hzero
        dsimp only at hzero
        split_ifs at hzero <;> simp_all [Prod.ext_iff] <;> omega
      subst hsame
      rw [← hzero]
      rfl

end Xlibre.Fb.Segment
