import Mathlib.Data.Set.Prod
import Xlibre.Lib.Checked
import Xlibre.Dix.Grabs.Passive

/-! The pairs of details and modifiers that grabs cover, and what comparing grabs says about them. -/
namespace Xlibre.Dix.Grabs

open Lib.Checked

section Bits

lemma getLsbD_clear (buf : DetailMask) {i : ℕ} (hi : i < 256) (v : ℕ) :
    (buf &&& ~~~BitVec.twoPow 256 i).getLsbD v = true ↔ buf.getLsbD v = true ∧ v ≠ i := by
  by_cases hv : v < 256
  · rw [BitVec.getLsbD_and,BitVec.getLsbD_not,BitVec.getLsbD_twoPow]
    simp only [hv,hi,decide_true,Bool.true_and,Bool.and_eq_true,Bool.not_eq_true',decide_eq_false_iff_not]
    exact and_congr_right fun _ => ⟨Ne.symm,Ne.symm⟩
  · have hge : ∀ b : DetailMask, b.getLsbD v = false := fun b => BitVec.getLsbD_of_ge b v (by omega)
    simp [hge]

lemma lt_of_getLsbD {buf : DetailMask} {v : ℕ} (h : buf.getLsbD v = true) : v < 256 := by
  by_contra hv
  rw [BitVec.getLsbD_of_ge buf v (by omega)] at h
  cases h

lemma deleteDetailFromMask_ok (alloc : Bool) (pMask : Option DetailMask) {i : ℕ} (hi : i < 256) :
    deleteDetailFromMask alloc pMask i =
      .ok (if alloc then some (pMask.getD (BitVec.allOnes 256) &&& ~~~BitVec.twoPow 256 i) else none) := by
  rw [deleteDetailFromMask,bitClear,if_pos hi]
  cases alloc <;> rfl

lemma deleteDetailFromMask_error (pMask : Option DetailMask) {i : ℕ} (hi : ¬i < 256) :
    deleteDetailFromMask true pMask i = .error (.maskIndex i) := by
  rw [deleteDetailFromMask,bitClear,if_neg hi]
  rfl

lemma deleteDetailFromMask_some {alloc : Bool} {pMask : Option DetailMask} {i : ℕ} {mask : DetailMask}
    (h : deleteDetailFromMask alloc pMask i = .ok (some mask)) :
    i < 256 ∧ mask = pMask.getD (BitVec.allOnes 256) &&& ~~~BitVec.twoPow 256 i := by
  cases alloc with
  | false => cases h
  | true =>
    by_cases hi : i < 256
    · rw [deleteDetailFromMask_ok true pMask hi] at h
      cases h
      exact ⟨hi,rfl⟩
    · rw [deleteDetailFromMask_error pMask hi] at h
      cases h

end Bits

section Values

namespace DetailRec

def values (c : DetailRec) (any : ℕ) : Set ℕ :=
  if c.exact = any then {v | (c.pMask.getD (BitVec.allOnes 256)).getLsbD v = true} else {c.exact}

/-- The values that a detail without mask is equal to or stands above, in the eyes of `DetailSupersedesSecond`. -/
def wide (c : DetailRec) (any : ℕ) : Set ℕ := {v | c.exact = any ∨ v = c.exact}

/-- No bit past the end of the mask is looked at. -/
def Readable (c second : DetailRec) (any : ℕ) : Prop :=
  c.exact = any → c.pMask ≠ none → second.exact ≠ any → second.exact < 256

def above (c second : DetailRec) (any : ℕ) : Bool :=
  if c.exact = any then
    match c.pMask with
    | none => true
    | some mask => decide (second.exact ≠ any) && mask.getLsbD second.exact
  else decide (c.exact = second.exact)

/-- One without mask stands above a detail. -/
def below (c second : DetailRec) (any : ℕ) : Bool := decide (second.exact = any ∨ second.exact = c.exact)

/-- A detail and one without mask have something in common. -/
def meets (c second : DetailRec) (any : ℕ) : Bool := above c second any || below c second any

variable {c second : DetailRec} {any : ℕ}

lemma supersedes_readable (h : Readable c second any) : detailSupersedesSecond c second any = .ok (above c second any) := by
  rw [detailSupersedesSecond,isInGrabMask,above]
  by_cases hc : c.exact = any
  · rw [if_pos hc,if_pos hc]
    have hi : identicalExactDetails c.exact second.exact any = false := if_pos (.inl hc)
    rw [hi]
    cases hp : c.pMask with
    | none => rfl
    | some mask =>
      by_cases hs : second.exact = any
      · simp only [hs,not_true_eq_false,ne_eq,decide_false,Bool.false_and]
        rfl
      · have hlt := h hc (by rw [hp]; exact Option.some_ne_none mask) hs
        simp only [getBit,if_pos hlt,ne_eq,hs,not_false_eq_true,decide_true,Bool.true_and]
        exact (or_ok rfl rfl).trans (by rw [Bool.or_false])
  · rw [if_neg hc,if_neg hc]
    refine (or_ok rfl rfl).trans ?_
    rw [Bool.false_or,identicalExactDetails]
    by_cases hs : second.exact = any
    · rw [if_pos (.inr hs),decide_eq_false (by rw [hs]; exact hc)]
    · rw [if_neg (not_or.2 ⟨hc,hs⟩)]

lemma supersedes_unreadable (h : ¬Readable c second any) :
    detailSupersedesSecond c second any = .error (.maskIndex second.exact) := by
  unfold Readable at h
  push Not at h
  obtain ⟨hc,hp,hs,hlt⟩ := h
  obtain ⟨mask,hmask⟩ := Option.ne_none_iff_exists'.1 hp
  rw [detailSupersedesSecond,isInGrabMask,if_pos hc,hmask]
  simp only [if_neg hs,getBit,if_neg (not_lt.2 hlt)]
  rfl

lemma plain_supersedes (h : second.exact = any → second.pMask = none) :
    detailSupersedesSecond second c any = .ok (below c second any) := by
  rw [supersedes_readable fun hs hp => absurd (h hs) hp,above,below]
  by_cases hs : second.exact = any
  · rw [if_pos hs,h hs]
    simp [hs]
  · simp [hs]

lemma values_subset_wide (c : DetailRec) (any : ℕ) : c.values any ⊆ c.wide any := by
  intro v hv
  by_cases hc : c.exact = any
  · exact .inl hc
  · rw [values,if_neg hc] at hv
    exact .inr hv

lemma meets_of_mem {v : ℕ} (hc : v ∈ c.values any) (hs : v ∈ second.wide any) : meets c second any = true := by
  rw [meets,Bool.or_eq_true]
  obtain h2 | hs := hs
  · exact .inr (decide_eq_true (.inl h2))
  by_cases h2 : second.exact = any
  · exact .inr (decide_eq_true (.inl h2))
  unfold values at hc
  by_cases h1 : c.exact = any
  · rw [if_pos h1,Set.mem_ofPred_eq,hs] at hc
    refine .inl ?_
    rw [above,if_pos h1]
    cases hm : c.pMask with
    | none => rfl
    | some mask =>
      rw [hm] at hc
      simpa [h2] using hc
  · rw [if_neg h1,Set.mem_singleton_iff] at hc
    exact .inr (decide_eq_true (.inr (hs.symm.trans hc)))

lemma subset_wide_of_below (h : below c second any = true) : c.values any ⊆ second.wide any := by
  intro v hv
  obtain h2 | h2 := of_decide_eq_true h
  · exact .inl h2
  · by_cases hc : c.exact = any
    · exact .inl (h2.trans hc)
    · rw [values,if_neg hc] at hv
      exact .inr (hv.trans h2.symm)

lemma below_of_meets (hc : c.exact ≠ any) (h : meets c second any = true) : below c second any = true := by
  rw [meets,above,if_neg hc,Bool.or_eq_true] at h
  obtain h | h := h
  · exact decide_eq_true (.inr (of_decide_eq_true h).symm)
  · exact h

lemma mem_values_of_meets (hs : second.exact ≠ any) (hlt : second.exact < 256) (h : meets c second any = true) :
    second.exact ∈ c.values any := by
  rw [values]
  by_cases hc : c.exact = any
  · rw [if_pos hc]
    rw [meets,above,if_pos hc,Bool.or_eq_true] at h
    obtain h | h := h
    · cases hm : c.pMask with
      | none =>
        change (BitVec.allOnes 256).getLsbD second.exact = true
        rw [BitVec.getLsbD_allOnes]
        exact decide_eq_true hlt
      | some mask =>
        rw [hm] at h
        exact (Bool.and_eq_true_iff.1 h).2
    · obtain h | h := of_decide_eq_true h
      · exact absurd h hs
      · exact absurd (h.trans hc) hs
  · rw [if_neg hc]
    obtain h | h := of_decide_eq_true (below_of_meets hc h)
    · exact absurd h hs
    · exact h

lemma values_clear (hc : c.exact = any) {i : ℕ} (hi : i < 256) :
    (DetailRec.mk c.exact (some (c.pMask.getD (BitVec.allOnes 256) &&& ~~~BitVec.twoPow 256 i))).values any =
      c.values any \ {i} := by
  ext v
  rw [values,values,if_pos hc,if_pos hc]
  exact getLsbD_clear _ hi v

lemma values_exact (h : c.exact ≠ any) : c.values any = {c.exact} := if_neg h

lemma wide_exact (h : c.exact ≠ any) : c.wide any = {c.exact} := by
  ext v
  exact ⟨fun hv => hv.resolve_left h,.inr⟩

end DetailRec

end Values

section Match

/-- Two grabs are for the same events, as `GrabMatchesSecond` sees it. -/
def Target.matches (first second : Target) (ignoreDevice : Bool) : Bool :=
  decide (first.grabtype = second.grabtype) && devicesMatch first second ignoreDevice && decide (first.type = second.type)

lemma devicesMatch_comm {first second : Target} (hg : first.grabtype = second.grabtype) (ignoreDevice : Bool) :
    devicesMatch first second ignoreDevice = devicesMatch second first ignoreDevice := by
  unfold devicesMatch
  grind

lemma Target.matches_comm (first second : Target) (ignoreDevice : Bool) :
    first.matches second ignoreDevice = second.matches first ignoreDevice := by
  unfold Target.matches
  by_cases hg : first.grabtype = second.grabtype
  · rw [devicesMatch_comm hg,decide_eq_true hg,decide_eq_true hg.symm,decide_eq_decide.2 (eq_comm (a := first.type))]
  · rw [decide_eq_false hg,decide_eq_false (Ne.symm hg)]
    rfl

/-- A grab without masks: a new one, or one that tells `DeletePassiveGrabFromList` what to take away. Only the mask of
something that is any is ever looked at. -/
structure Grab.Plain (g : Grab) : Prop where
  detail : g.detail.exact = anyKey → g.detail.pMask = none
  modifiers : g.modifiersDetail.exact = anyModifier g.grabtype → g.modifiersDetail.pMask = none

variable {g m : Grab} {ignoreDevice : Bool}

/-- The details and the modifiers of a grab and one without masks. -/
def Grab.meets (g m : Grab) : Bool :=
  g.detail.meets m.detail anyKey && g.modifiersDetail.meets m.modifiersDetail (anyModifier m.grabtype)

/-- A grab without masks stands above a grab in both. -/
def Grab.below (g m : Grab) : Bool :=
  g.modifiersDetail.below m.modifiersDetail (anyModifier m.grabtype) && g.detail.below m.detail anyKey

def Grab.Readable (g m : Grab) : Prop := g.modifiersDetail.Readable m.modifiersDetail (anyModifier m.grabtype)

lemma detail_readable (g m : Grab) : g.detail.Readable m.detail anyKey := fun _ _ _ => m.detail_lt

lemma matches_of_true (h : g.matches m.toTarget ignoreDevice = true) : g.grabtype = m.grabtype ∧
    devicesMatch g.toTarget m.toTarget ignoreDevice = true ∧ g.type = m.type := by
  simp only [Target.matches,Bool.and_eq_true,decide_eq_true_eq] at h
  exact ⟨h.1.1,h.1.2,h.2⟩

lemma grabMatchesSecond_other (h : g.matches m.toTarget ignoreDevice = false) : grabMatchesSecond g m ignoreDevice = .ok false := by
  unfold grabMatchesSecond
  simp only [Target.matches,Bool.and_eq_false_iff,decide_eq_false_iff_not] at h
  split_ifs with h1 h2 h3
  · rfl
  · rfl
  · rfl
  · obtain (h | h) | h := h
    · exact absurd h h1
    · exact absurd h h2
    · exact absurd h h3

lemma grabMatchesSecond_values {b₁ b₂ b₃ b₄ : Bool} (h : g.matches m.toTarget ignoreDevice = true)
    (h₁ : detailSupersedesSecond g.detail m.detail anyKey = .ok b₁)
    (h₂ : detailSupersedesSecond m.detail g.detail anyKey = .ok b₂)
    (h₃ : detailSupersedesSecond g.modifiersDetail m.modifiersDetail (anyModifier m.grabtype) = .ok b₃)
    (h₄ : detailSupersedesSecond m.modifiersDetail g.modifiersDetail (anyModifier m.grabtype) = .ok b₄) :
    grabMatchesSecond g m ignoreDevice = .ok ((b₁ || b₂) && (b₃ || b₄)) := by
  obtain ⟨hg,hd,ht⟩ := matches_of_true h
  unfold grabMatchesSecond
  rw [if_neg (not_not.2 hg),if_neg (by rw [hd]; exact Bool.noConfusion),if_neg (not_not.2 ht)]
  dsimp only
  rw [hg]
  have hgm : grabSupersedesSecond g m = .ok (b₃ && b₁) := by
    unfold grabSupersedesSecond
    rw [hg]
    exact and_ok h₃ h₁
  have hmg : grabSupersedesSecond m g = .ok (b₄ && b₂) := and_ok h₄ h₂
  rw [or_ok (or_ok hgm hmg) (or_ok (and_ok h₂ h₃) (and_ok h₁ h₄))]
  cases b₁ <;> cases b₂ <;> cases b₃ <;> cases b₄ <;> rfl

lemma grabMatchesSecond_plain (h : g.matches m.toTarget ignoreDevice = true) (hm : m.Plain) (hr : g.Readable m) :
    grabMatchesSecond g m ignoreDevice = .ok (g.meets m) :=
  grabMatchesSecond_values h (DetailRec.supersedes_readable (detail_readable g m)) (DetailRec.plain_supersedes hm.detail)
    (DetailRec.supersedes_readable hr) (DetailRec.plain_supersedes hm.modifiers)

lemma plain_grabMatchesSecond (h : m.matches g.toTarget ignoreDevice = true) (hm : m.Plain) (hr : g.Readable m) :
    grabMatchesSecond m g ignoreDevice = .ok (g.meets m) := by
  have hg := (matches_of_true h).1
  have hk := hm.modifiers
  rw [Grab.Readable,hg] at hr
  rw [hg] at hk
  rw [grabMatchesSecond_values h (DetailRec.plain_supersedes hm.detail) (DetailRec.supersedes_readable (detail_readable g m))
    (DetailRec.plain_supersedes hk) (DetailRec.supersedes_readable hr),Grab.meets,DetailRec.meets,DetailRec.meets,hg,
    Bool.or_comm,Bool.or_comm (DetailRec.below _ _ _) (DetailRec.above g.modifiersDetail _ _)]

lemma plain_grabMatchesSecond_unreadable (h : m.matches g.toTarget ignoreDevice = true) (hm : m.Plain) (hr : ¬g.Readable m) :
    grabMatchesSecond m g ignoreDevice = .error (.maskIndex m.modifiersDetail.exact) := by
  obtain ⟨hg,hd,ht⟩ := matches_of_true h
  have hgm : grabSupersedesSecond g m = .error (.maskIndex m.modifiersDetail.exact) := by
    unfold grabSupersedesSecond
    rw [← hg]
    exact and_error (DetailRec.supersedes_unreadable hr)
  -- Single modifiers do not stand above any modifiers, so the first comparison is over before it gets to the mask.
  have hmg : grabSupersedesSecond m g = .ok false := by
    unfold Grab.Readable DetailRec.Readable at hr
    push Not at hr
    obtain ⟨hany,-,hs,-⟩ := hr
    have hb : g.modifiersDetail.below m.modifiersDetail (anyModifier m.grabtype) = false := by
      refine decide_eq_false fun hb => ?_
      obtain hb | hb := hb
      · exact hs hb
      · exact hs (hb.trans hany)
    exact (and_ok (DetailRec.plain_supersedes hm.modifiers) (DetailRec.plain_supersedes hm.detail)).trans (by rw [hb]; rfl)
  unfold grabMatchesSecond
  rw [if_neg (not_not.2 hg),if_neg (by rw [hd]; exact Bool.noConfusion),if_neg (not_not.2 ht)]
  dsimp only
  rw [hmg,hgm]
  rfl

lemma grabMatchesSecond_unreadable (h : g.matches m.toTarget ignoreDevice = true) (hr : ¬g.Readable m) :
    grabMatchesSecond g m ignoreDevice = .error (.maskIndex m.modifiersDetail.exact) := by
  obtain ⟨hg,hd,ht⟩ := matches_of_true h
  have hgm : grabSupersedesSecond g m = .error (.maskIndex m.modifiersDetail.exact) := by
    unfold grabSupersedesSecond
    rw [hg]
    exact and_error (DetailRec.supersedes_unreadable hr)
  unfold grabMatchesSecond
  rw [if_neg (not_not.2 hg),if_neg (by rw [hd]; exact Bool.noConfusion),if_neg (not_not.2 ht)]
  dsimp only
  rw [hgm]
  rfl

def Grab.cover (g : Grab) : Set (ℕ × ℕ) := g.detail.values anyKey ×ˢ g.modifiersDetail.values (anyModifier g.grabtype)

/-- The same for a grab without masks, with any modifiers standing for values past 255 too. -/
def Grab.wideCover (m : Grab) : Set (ℕ × ℕ) := m.detail.wide anyKey ×ˢ m.modifiersDetail.wide (anyModifier m.grabtype)

end Match

end Xlibre.Dix.Grabs
