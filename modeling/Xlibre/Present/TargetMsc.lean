import Xlibre.Present.Screen
import Mathlib.Order.Bounds.Basic
import Mathlib.Data.Nat.ModEq

/-!
# The target field of a request

A wrapped difference decides which of two counters is later. With a divisor the field asked for is the first one
with the wanted remainder.
-/
namespace Xlibre.Present

section Least

lemma isLeast_of_window {b d m : ℕ} (hb : b ≤ m) (hd : m < b+d) : IsLeast {n : ℕ | n%d = m%d ∧ b ≤ n} m := by
  refine ⟨⟨rfl,hb⟩,fun n hn => ?_⟩
  by_contra hlt
  have hdvd : d ∣ m-n := (Nat.modEq_iff_dvd' (by omega)).1 hn.1
  have hle := Nat.le_of_dvd (by omega) hdvd
  have := hn.2
  omega

variable {c d r : ℕ}

lemma period_mod (hr : r < d) : (c-c%d+r)%d = r := by
  have hdvd : d ∣ c-c%d := Nat.dvd_sub_mod c
  rw [Nat.add_mod,Nat.mod_eq_zero_of_dvd hdvd,zero_add,Nat.mod_mod,Nat.mod_eq_of_lt hr]

end Least

variable {a b c : UInt64}

lemma mscIsAfter_iff : mscIsAfter a b = true ↔ 0 < Int.bmod (a.toNat-b.toNat) (2^64) := by
  unfold mscIsAfter
  rw [decide_eq_true_iff,UInt64.toBitVec_sub,BitVec.toInt_sub,BitVec.toInt_eq_toNat_bmod,
    BitVec.toInt_eq_toNat_bmod,Int.bmod_sub_bmod,Int.sub_bmod_bmod]
  rfl

lemma mscIsAfter_eq_lt (ha : a.toNat < 2^63) (hb : b.toNat < 2^63) : mscIsAfter a b = decide (b.toNat < a.toNat) := by
  have hbmod : Int.bmod (a.toNat-b.toNat) (2^64) = a.toNat-b.toNat := Int.bmod_eq_of_le (by omega) (by omega)
  rw [Bool.eq_iff_iff,mscIsAfter_iff,hbmod,decide_eq_true_iff]
  omega

lemma presentGetTargetMsc_after {divisor remainder : UInt64} {options : Options} (h : mscIsAfter a c = true) :
    presentGetTargetMsc a c divisor remainder options = a := by
  simp [presentGetTargetMsc,h]

/-- The two ways to ask for tearing. -/
def Options.anyAsync (options : Options) : Bool := options.async || options.asyncMayTear

lemma period_toNat {divisor remainder : UInt64} (hrem : remainder < divisor) (hc : c.toNat < 2^62)
    (hd : divisor.toNat < 2^62) :
    (c-c%divisor+remainder).toNat = c.toNat-c.toNat%divisor.toNat+remainder.toNat := by
  have hle : c%divisor ≤ c := by
    rw [UInt64.le_iff_toNat_le,UInt64.toNat_mod]
    exact Nat.mod_le _ _
  have hrem' : remainder.toNat < divisor.toNat := UInt64.lt_iff_toNat_lt.1 hrem
  rw [UInt64.toNat_add,UInt64.toNat_sub_of_le _ _ hle,UInt64.toNat_mod,Nat.mod_eq_of_lt (by omega)]

lemma presentGetTargetMsc_period {divisor remainder : UInt64} {options : Options} (h : mscIsAfter a c = false)
    (hne : divisor ≠ 0) (hrem : remainder < divisor) (hc : c.toNat < 2^62) (hd : divisor.toNat < 2^62) :
    IsLeast {n : ℕ | n%divisor.toNat = remainder.toNat ∧ if options.anyAsync then c.toNat ≤ n else c.toNat < n}
      (presentGetTargetMsc a c divisor remainder options).toNat := by
  have hrem' : remainder.toNat < divisor.toNat := UInt64.lt_iff_toNat_lt.1 hrem
  set t := c-c%divisor+remainder with ht
  have htarget : t.toNat = c.toNat-c.toNat%divisor.toNat+remainder.toNat := period_toNat hrem hc hd
  have hperiod := Nat.mod_lt c.toNat (show 0 < divisor.toNat by omega)
  have hmod : t.toNat%divisor.toNat = remainder.toNat := by rw [htarget,period_mod hrem']
  have hnext : (t+divisor).toNat = t.toNat+divisor.toNat := by
    rw [UInt64.toNat_add,Nat.mod_eq_of_lt (by omega)]
  have hnextMod : (t+divisor).toNat%divisor.toNat = remainder.toNat := by rw [hnext,Nat.add_mod_right,hmod]
  have hlater : mscIsAfter t c = decide (c.toNat < t.toNat) := mscIsAfter_eq_lt (by omega) (by omega)
  have hearlier : mscIsAfter c t = decide (t.toNat < c.toNat) := mscIsAfter_eq_lt (by omega) (by omega)
  have hle := Nat.mod_le c.toNat divisor.toNat
  have hval : presentGetTargetMsc a c divisor remainder options =
      if c.toNat < t.toNat then t else if options.anyAsync = false ∨ t.toNat < c.toNat then t+divisor else t := by
    simp only [presentGetTargetMsc,h,hne,← ht,hlater,hearlier,Options.anyAsync]
    simp
  rw [hval]
  cases hasync : options.anyAsync with
  | true =>
    -- the current field itself may be the one
    rw [← hmod]
    simp only [if_true,Bool.true_eq_false,false_or]
    split_ifs with h₁ h₂
    · exact isLeast_of_window (by omega) (by omega)
    · rw [hmod,← hnextMod]
      exact isLeast_of_window (by omega) (by omega)
    · exact isLeast_of_window (by omega) (by omega)
  | false =>
    simp only [Bool.false_eq_true,if_false,true_or,if_true]
    split_ifs with h₁
    · rw [← hmod]
      exact isLeast_of_window (b := c.toNat+1) (by omega) (by omega)
    · rw [← hnextMod]
      exact isLeast_of_window (b := c.toNat+1) (by omega) (by omega)

/-- The target is the asked one when it lies ahead, else the next possible field of the asked kind. -/
theorem presentGetTargetMsc_target (targetMscArg crtcMsc divisor remainder : UInt64) (options : Options)
    (hrequest : remainder < divisor ∨ divisor = 0 ∧ remainder = 0) (hcrtc : crtcMsc.toNat < 2^62)
    (hdivisor : divisor.toNat < 2^62) :
    let m := presentGetTargetMsc targetMscArg crtcMsc divisor remainder options
    let ahead := 0 < Int.bmod (targetMscArg.toNat-crtcMsc.toNat) (2^64)
    (ahead → m = targetMscArg) ∧
    (¬ahead → divisor = 0 → m.toNat = if options.async || options.asyncMayTear then crtcMsc.toNat else crtcMsc.toNat+1) ∧
    (¬ahead → divisor ≠ 0 → IsLeast {n : ℕ | n%divisor.toNat = remainder.toNat ∧
      if options.async || options.asyncMayTear then crtcMsc.toNat ≤ n else crtcMsc.toNat < n} m.toNat) := by
  intro m ahead
  have hahead : mscIsAfter targetMscArg crtcMsc = true ↔ ahead := mscIsAfter_iff
  refine ⟨fun h => presentGetTargetMsc_after (hahead.2 h),fun h hzero => ?_,fun h hne => ?_⟩
  · have hnot : mscIsAfter targetMscArg crtcMsc = false := Bool.eq_false_iff.2 (mt hahead.1 h)
    have hsucc : (crtcMsc+1).toNat = crtcMsc.toNat+1 := by
      rw [UInt64.toNat_add,Nat.mod_eq_of_lt (by simp; omega)]
      rfl
    simp only [m,presentGetTargetMsc,hnot,hzero]
    cases options.async <;> cases options.asyncMayTear <;> simp [hsucc]
  · have hnot : mscIsAfter targetMscArg crtcMsc = false := Bool.eq_false_iff.2 (mt hahead.1 h)
    have hrem : remainder < divisor := hrequest.resolve_right fun hz => hne hz.1
    exact presentGetTargetMsc_period hnot hne hrem hcrtc hdivisor

/-- From field 10 with divisor 4 and remainder 2, the next synchronous field is 14. -/
theorem presentGetTargetMsc_target_fourteen :
    let m := presentGetTargetMsc 3 10 4 2 ⟨false,false,true⟩
    m = 14 ∧ IsLeast {n : ℕ | n%(4 : UInt64).toNat = (2 : UInt64).toNat ∧
      if false || false then (10 : UInt64).toNat ≤ n else (10 : UInt64).toNat < n} m.toNat :=
  ⟨by decide,(presentGetTargetMsc_target 3 10 4 2 ⟨false,false,true⟩ (Or.inl (by decide)) (by decide) (by decide)).2.2
    (by decide) (by decide)⟩

end Xlibre.Present
