import Xlibre.Xkb.Handle
import Mathlib.Algebra.BigOperators.Group.List.Basic

/-! What the filters of held keys are to undo, and how a pass over the filters changes it. -/
namespace Xlibre.Xkb

namespace XkbFilter

/-- The filter of a latch whose key has gone up. -/
def pending (f : XkbFilter) : Bool := f.filter = some .latchState && f.priv = latchPending

/-- The filter waits for its key to go up. -/
def held (f : XkbFilter) : Bool := f.active && !f.pending

/-- The modifiers that the end of a held key is to clear. -/
def holdMods (f : XkbFilter) : BitVec 8 :=
  match f.filter with
  | some .setState => if f.upAction.type = .setMods then f.upAction.mask else 0
  | some .latchState => if f.upAction.type = .latchMods then f.upAction.mask else 0
  | some .lockState => f.upAction.mask
  | some .isoLock => if has f.upAction.flags isoDfltIsGroup then 0 else f.upAction.mask
  | _ => 0

def holdGroup (f : XkbFilter) : BitVec 16 :=
  match f.filter with
  | some .setState => if f.upAction.type = .setMods then 0 else saGroup f.upAction
  | some .latchState => if f.upAction.type = .latchMods then 0 else saGroup f.upAction
  | some .isoLock => if has f.upAction.flags isoDfltIsGroup then saGroup f.upAction else 0
  | _ => 0

/-- The filter is one that the state of modifiers and groups goes through. -/
def Ordinary (f : XkbFilter) : Prop :=
  f.keycode ≠ 0 ∧ (f.filter = some .setState ∨ f.filter = some .latchState ∨ f.filter = some .lockState ∨
    f.filter = some .isoLock)

/-- The keycode a held filter waits for, and what it is to undo. -/
def hold (f : XkbFilter) : Option (ℕ × BitVec 8 × BitVec 16) :=
  if f.held then some (f.keycode,f.holdMods,f.holdGroup) else none

lemma hold_eq_none {f : XkbFilter} : f.hold = none ↔ f.held = false := by
  unfold hold
  split <;> simp_all

lemma hold_of_held {f : XkbFilter} (h : f.held = true) : f.hold = some (f.keycode,f.holdMods,f.holdGroup) := by
  simp [hold,h]

lemma hold_of_inactive {f : XkbFilter} (h : f.active = false) : f.hold = none := by
  simp [hold,held,h]

end XkbFilter

/-- A new action is left alone, or made a lock. -/
def Relocked (act act' : Option XkbAction) : Prop :=
  act' = act ∨ ∃ a t, act = some a ∧ a.type ≠ .noAction ∧ act' = some { a with type := t } ∧ (t = .lockMods ∨ t = .lockGroup)

@[simp] lemma relocked_self (act : Option XkbAction) : Relocked act act := .inl rfl

/-- What a filter makes of an event with keycode `kc`, when it is called with nothing to be undone so far. -/
structure Passes (xkbi : XkbSrvInfo) (f : XkbFilter) (kc : ℕ) (act : Option XkbAction) (r : Filtered) : Prop where
  filters : r.xkbi.filters = xkbi.filters
  send : r.send = true
  baseMods : r.xkbi.state.baseMods = xkbi.state.baseMods
  baseGroup : r.xkbi.state.baseGroup = xkbi.state.baseGroup
  setMods : r.xkbi.setMods = xkbi.setMods
  action : Relocked act r.action
  ordinary : r.filter.active = true → r.filter.Ordinary
  latch : r.filter.filter = some .latchState → f.filter = some .latchState
  /-- A held filter lets go when its key goes up. -/
  own : act = none → f.held = true → f.keycode = kc →
    r.filter.held = false ∧ (xkbi.clearMods = 0 → r.xkbi.clearMods = f.holdMods) ∧
      (xkbi.groupChange = 0 → r.xkbi.groupChange = -f.holdGroup)
  /-- No other filter does, nor asks for a change. -/
  other : ¬(f.held = true ∧ f.keycode = kc) →
    r.filter.hold = f.hold ∧ r.xkbi.clearMods = xkbi.clearMods ∧ r.xkbi.groupChange = xkbi.groupChange

open XkbFilter

section Filters
variable {xkbi : XkbSrvInfo} {f : XkbFilter} {kc : ℕ} {act : Option XkbAction}

lemma passes_setState (hact : f.active = true) (h0 : f.keycode ≠ 0) (hf : f.filter = some .setState) :
    Passes xkbi f kc act (filterSetState xkbi f kc act) := by
  have hheld : f.held = true := by simp [held,pending,hact,hf]
  by_cases hkc : f.keycode = kc
  · simp only [filterSetState,if_neg h0,if_pos hkc]
    by_cases ht : f.upAction.type = .setMods
    · constructor <;> simp [ht,hf,held,pending,holdMods,holdGroup,hact,hkc]
    · constructor <;> simp [ht,hf,held,pending,holdMods,holdGroup,hact,hkc]
  · simp only [filterSetState,if_neg h0,if_neg hkc]
    constructor <;> simp [hf,held,pending,hold,holdMods,holdGroup,hact,hkc,Ordinary,h0,saGroup]

lemma passes_lockState (hact : f.active = true) (h0 : f.keycode ≠ 0) (hf : f.filter = some .lockState) :
    Passes xkbi f kc act (filterLockState xkbi f kc act) := by
  by_cases hgroup : act.isSome ∧ (act.getD .zeroed).type = .lockGroup
  · simp only [filterLockState,if_pos hgroup]
    obtain ⟨a,rfl⟩ := Option.isSome_iff_exists.mp hgroup.1
    constructor <;> simp [hf,hold,Ordinary,h0]
  · simp only [filterLockState,if_neg hgroup,if_neg h0]
    by_cases hkc : f.keycode = kc
    · simp only [if_pos hkc]
      constructor <;> simp [hf,held,pending,holdMods,holdGroup,hact,hkc]
    · simp only [if_neg hkc]
      constructor <;> simp [hf,hkc,Ordinary,h0]

lemma isoLocked_lock {flags : BitVec 8} {t t' : ActionType} (h : isoLocked flags t = some t')
    (ht : t ≠ .ptrBtn) (hc : t ≠ .setControls) : t' = .lockMods ∨ t' = .lockGroup := by
  cases t <;> simp_all [isoLocked]

lemma passes_isoLock (hact : f.active = true) (h0 : f.keycode ≠ 0) (hf : f.filter = some .isoLock)
    (ht : ∀ a, act = some a → a.type ≠ .ptrBtn ∧ a.type ≠ .setControls) :
    Passes xkbi f kc act (filterISOLock xkbi f kc act) := by
  by_cases hkc : f.keycode = kc
  · simp only [filterISOLock,if_neg h0,if_pos hkc]
    by_cases hg : has f.upAction.flags isoDfltIsGroup = true
    · constructor <;> simp [hg,hf,held,pending,holdMods,holdGroup,hact,hkc]
    · constructor <;> simp [hg,hf,held,pending,holdMods,holdGroup,hact,hkc]
  · simp only [filterISOLock,if_neg h0,if_neg hkc]
    cases act with
    | none => constructor <;> simp [hf,hkc,Ordinary,h0]
    | some a =>
      cases hiso : isoLocked f.upAction.flags a.type with
      | none =>
        simp only [hiso]
        constructor <;> simp [hf,hkc,Ordinary,h0]
      | some t =>
        simp only [hiso]
        have hlock := isoLocked_lock hiso (ht a rfl).1 (ht a rfl).2
        constructor <;> simp [hf,hkc,hold,held,pending,holdMods,holdGroup,Ordinary,h0]
        exact .inr ⟨a,t,rfl,by rintro h; simp [h,isoLocked] at hiso,rfl,hlock⟩

lemma released_spec (hf : f.filter = some .latchState) (latched : Bool) :
    (f.released latched).held = false ∧ (f.released latched).filter = f.filter ∧
      (f.released latched).keycode = f.keycode := by
  cases latched <;> simp [released,held,pending,hf]

variable (xkbi) in
lemma releaseLatchMods_spec (hf : f.filter = some .latchState) :
    let r := releaseLatchMods xkbi f
    r.xkbi.filters = xkbi.filters ∧ r.send = true ∧ r.xkbi.state.baseMods = xkbi.state.baseMods ∧
      r.xkbi.state.baseGroup = xkbi.state.baseGroup ∧ r.xkbi.setMods = xkbi.setMods ∧ r.xkbi.clearMods = f.upAction.mask ∧
      r.xkbi.groupChange = xkbi.groupChange ∧ r.filter.filter = f.filter ∧ r.filter.keycode = f.keycode ∧
      r.filter.held = false := by
  simp [releaseLatchMods,released_spec hf]

variable (xkbi) in
lemma releaseLatchGroup_spec (hf : f.filter = some .latchState) :
    let r := releaseLatchGroup xkbi f
    r.xkbi.filters = xkbi.filters ∧ r.send = true ∧ r.xkbi.state.baseMods = xkbi.state.baseMods ∧
      r.xkbi.state.baseGroup = xkbi.state.baseGroup ∧ r.xkbi.setMods = xkbi.setMods ∧ r.xkbi.clearMods = xkbi.clearMods ∧
      r.xkbi.groupChange = -saGroup f.upAction ∧ r.filter.filter = f.filter ∧ r.filter.keycode = f.keycode ∧
      r.filter.held = false := by
  simp only [releaseLatchGroup]
  split
  · simp [released_spec hf]
  · split
    · simp [released_spec hf]
    · split <;> simp [released_spec hf]

lemma passes_latchState (hact : f.active = true) (h0 : f.keycode ≠ 0) (hf : f.filter = some .latchState) :
    Passes xkbi f kc act (filterLatchState xkbi f kc act) := by
  simp only [filterLatchState,if_neg h0]
  by_cases hpend : f.priv = latchPending
  · have hheld : f.held = false := by simp [held,pending,hf,hpend]
    by_cases hsome : act.isSome = true
    · rw [if_pos ⟨hsome,hpend⟩]
      by_cases hbreak : breakLatch (act.getD .zeroed).type = true
      · rw [if_pos hbreak]
        constructor <;> simp [hf,held,pending,hpend,hold]
      · rw [if_neg hbreak]
        constructor <;> simp [hf,hheld,Ordinary,h0]
    · have hnone : act = none := by simpa using hsome
      subst hnone
      simp only [hpend,Option.isSome_none,Bool.false_eq_true,false_and,if_false,ne_eq,not_true_eq_false,and_false]
      constructor <;> simp [hf,hheld,Ordinary,h0]
  · have hheld : f.held = true := by simp [held,pending,hact,hf,hpend]
    rw [if_neg (by simp [hpend])]
    by_cases hkc : f.keycode = kc
    · have hkc0 : kc ≠ 0 := hkc ▸ h0
      rw [if_pos ⟨hkc,hpend⟩]
      by_cases ht : f.upAction.type = .latchMods
      · rw [if_pos ht]
        obtain ⟨h₁,h₂,h₃,h₄,h₅,h₆,h₇,h₈,h₉,h₁₀⟩ := releaseLatchMods_spec xkbi hf
        constructor <;> simp [*,holdMods,holdGroup,Ordinary]
      · rw [if_neg ht]
        obtain ⟨h₁,h₂,h₃,h₄,h₅,h₆,h₇,h₈,h₉,h₁₀⟩ := releaseLatchGroup_spec xkbi hf
        constructor <;> simp [*,holdMods,holdGroup,Ordinary]
    · rw [if_neg (by simp [hkc])]
      by_cases hdown : act.isSome ∧ f.priv = latchKeyDown
      · rw [if_pos hdown]
        simp only [filterSetState,if_neg h0,if_neg hkc]
        -- The filter becomes that of a `SetMods` or a `SetGroup`, which is to undo the same.
        constructor <;> simp [hf,hkc,Ordinary,h0]
        by_cases ht : f.upAction.type = .latchMods
        · simp [ht,hold,held,pending,holdMods,holdGroup,hact,hf,hpend]
        · simp [ht,hold,held,pending,holdMods,holdGroup,hact,hf,hpend,saGroup]
      · rw [if_neg hdown]
        constructor <;> simp [hf,hkc,Ordinary,h0]

variable (xkbi kc) in
lemma passes_run {proc : FilterProc} (clear : XkbSrvInfo → XkbSrvInfo) (hact : f.active = true) (hf : f.filter = some proc)
    (ho : f.Ordinary) (ht : ∀ a, act = some a → a.type ≠ .ptrBtn ∧ a.type ≠ .setControls) :
    Passes xkbi f kc act (runFilter xkbi f kc clear proc act) := by
  obtain ⟨h0,h | h | h | h⟩ := ho
  all_goals
    rw [hf] at h
    obtain rfl := Option.some.inj h
  · exact passes_setState hact h0 hf
  · exact passes_latchState hact h0 hf
  · exact passes_lockState hact h0 hf
  · exact passes_isoLock hact h0 hf ht

end Filters

def XkbSrvInfo.heldAt (xkbi : XkbSrvInfo) (j : ℕ) : Option (ℕ × BitVec 8 × BitVec 16) := xkbi.filters[j]?.bind hold

def XkbSrvInfo.AllOrdinary (xkbi : XkbSrvInfo) : Prop :=
  ∀ (j : ℕ) (f : XkbFilter), xkbi.filters[j]? = some f → f.active = true → f.Ordinary

/-- The slots' holds after those of `kc` among the first `n` have let go. -/
def XkbSrvInfo.letGo (xkbi : XkbSrvInfo) (kc n j : ℕ) : Option (ℕ × BitVec 8 × BitVec 16) :=
  if j < n then (xkbi.heldAt j).filter fun v => v.1 ≠ kc else xkbi.heldAt j

/-- An action that is not one of pointer buttons or controls, which alone an ISO lock turns into others of these. -/
def Plain (act : Option XkbAction) : Prop := ∀ a, act = some a → a.type ≠ .ptrBtn ∧ a.type ≠ .setControls

/-- What a pass has come to after the first `n` slots. -/
structure PassedTo (xkbi : XkbSrvInfo) (kc n : ℕ) (act : Option XkbAction) (p : XkbSrvInfo.Passed) : Prop where
  holds : ∀ j, p.xkbi.heldAt j = xkbi.letGo kc n j
  rest : ∀ j, n ≤ j → p.xkbi.filters[j]? = xkbi.filters[j]?
  ordinary : p.xkbi.AllOrdinary
  length : p.xkbi.filters.length = xkbi.filters.length
  send : p.send = true
  baseMods : p.xkbi.state.baseMods = xkbi.state.baseMods
  baseGroup : p.xkbi.state.baseGroup = xkbi.state.baseGroup
  setMods : p.xkbi.setMods = xkbi.setMods
  action : Relocked act p.action
  latch : ∀ (j : ℕ) (f : XkbFilter), p.xkbi.filters[j]? = some f → f.active = true → f.filter = some .latchState →
    ∃ f₀, xkbi.filters[j]? = some f₀ ∧ f₀.active = true ∧ f₀.filter = some .latchState
  quiet : (∀ j v, j < n → xkbi.heldAt j = some v → v.1 ≠ kc) →
    p.xkbi.clearMods = xkbi.clearMods ∧ p.xkbi.groupChange = xkbi.groupChange
  fired : ∀ j v, j < n → xkbi.heldAt j = some v → v.1 = kc → p.xkbi.clearMods = v.2.1 ∧ p.xkbi.groupChange = -v.2.2

section Pass
variable {xkbi : XkbSrvInfo} {kc : ℕ} {act : Option XkbAction} (clear : XkbSrvInfo → XkbSrvInfo)

lemma letGo_succ_of_ne {n j : ℕ} (h : j ≠ n) : xkbi.letGo kc (n+1) j = xkbi.letGo kc n j := by
  have : j < n+1 ↔ j < n := by omega
  simp only [XkbSrvInfo.letGo,this]

lemma PassedTo.skip {n : ℕ} {p : XkbSrvInfo.Passed} (h : PassedTo xkbi kc n act p) (hnone : xkbi.heldAt n = none) :
    PassedTo xkbi kc (n+1) act p := by
  refine { h with holds := fun j => ?_, rest := fun j hj => h.rest j (by omega), quiet := fun hq => ?_, fired := ?_ }
  · by_cases hj : j = n
    · subst hj
      rw [h.holds j]
      simp [XkbSrvInfo.letGo,hnone]
    · rw [h.holds j,letGo_succ_of_ne hj]
  · exact h.quiet fun j v hj => hq j v (by omega)
  · intro j v hj hv
    have hne : j ≠ n := by
      rintro rfl
      simp [hnone] at hv
    exact h.fired j v (by omega) hv

lemma heldAt_of_getElem? {j : ℕ} {f : XkbFilter} (h : xkbi.filters[j]? = some f) : xkbi.heldAt j = f.hold := by
  simp [XkbSrvInfo.heldAt,h]

lemma Relocked.plain {a' : Option XkbAction} (h : Relocked act a') (hplain : Plain act) : Plain a' := by
  rcases h with rfl | ⟨a,t,rfl,-,rfl,ht⟩
  · exact hplain
  · intro b hb
    obtain rfl := Option.some.inj hb
    rcases ht with rfl | rfl <;> simp

lemma Relocked.trans {a' a'' : Option XkbAction} (h : Relocked act a') (h' : Relocked a' a'') : Relocked act a'' := by
  rcases h' with rfl | ⟨b,t',rfl,hb0,rfl,ht'⟩
  · exact h
  · rcases h with rfl | ⟨a,t,rfl,ha0,hb,ht⟩
    · exact .inr ⟨b,t',rfl,hb0,rfl,ht'⟩
    · obtain rfl := Option.some.inj hb
      exact .inr ⟨a,t',rfl,ha0,rfl,ht'⟩

lemma getElem?_set_slot {l : List XkbFilter} {i : ℕ} {f : XkbFilter} (h : l[i]? = some f) (g : XkbFilter) (j : ℕ) :
    (l.set i g)[j]? = if j = i then some g else l[j]? := by
  have hlt : i < l.length := (List.getElem?_eq_some_iff.mp h).1
  rw [List.getElem?_set]
  by_cases hj : i = j
  · subst hj
    simp [hlt]
  · simp [hj,Ne.symm hj]

lemma PassedTo.step {n : ℕ} {p : XkbSrvInfo.Passed} {f : XkbFilter} {proc : FilterProc} (h : PassedTo xkbi kc n act p)
    (hplain : Plain act) (hclear : xkbi.clearMods = 0) (hchange : xkbi.groupChange = 0)
    (hone : ∀ j j' v v', xkbi.heldAt j = some v → xkbi.heldAt j' = some v' → v.1 = kc → v'.1 = kc → j = j')
    (hpress : act ≠ none → ∀ j v, xkbi.heldAt j = some v → v.1 ≠ kc)
    (hn : xkbi.filters[n]? = some f) (hact : f.active = true) (hf : f.filter = some proc) :
    PassedTo xkbi kc (n+1) act (let r := runFilter p.xkbi f kc clear proc p.action
      ⟨{ r.xkbi with filters := r.xkbi.filters.set n r.filter },r.action,r.send && p.send⟩) := by
  have hpn : p.xkbi.filters[n]? = some f := by rw [h.rest n (Nat.le_refl _),hn]
  have hr := passes_run p.xkbi kc clear hact hf (h.ordinary n f hpn hact)
    (h.action.plain hplain)
  have hheld : xkbi.heldAt n = f.hold := heldAt_of_getElem? hn
  set r := runFilter p.xkbi f kc clear proc p.action with hrdef
  have hset : ∀ j, (r.xkbi.filters.set n r.filter)[j]? = if j = n then some r.filter else p.xkbi.filters[j]? := fun j => by
    rw [hr.filters]
    exact getElem?_set_slot hpn r.filter j
  -- Before this turn no filter of the event's key among the first ones, or this one is none.
  have hbefore : f.held = true ∧ f.keycode = kc → p.xkbi.clearMods = 0 ∧ p.xkbi.groupChange = 0 := by
    rintro ⟨hh,hkc⟩
    rw [← hclear,← hchange]
    refine h.quiet fun j v hj hv hvkc => ?_
    have := hone j n v _ hv (hheld.trans (hold_of_held hh)) hvkc hkc
    omega
  -- A filter of the event's key is held at a release only.
  have hnone : ∀ j v, xkbi.heldAt j = some v → v.1 = kc → p.action = none := by
    intro j v hv hkc
    cases act with
    | none => simpa [Relocked] using h.action
    | some a => exact absurd hkc (hpress (by simp) j v hv)
  constructor
  · intro j
    simp only [XkbSrvInfo.heldAt,hset]
    by_cases hj : j = n
    · subst hj
      have hgo : xkbi.letGo kc (j+1) j = f.hold.filter fun v => v.1 ≠ kc := by
        simp [XkbSrvInfo.letGo,hheld]
      rw [hgo]
      by_cases hown : f.held = true ∧ f.keycode = kc
      · have hnone' := hnone j _ (hheld.trans (hold_of_held hown.1)) hown.2
        simp [hold_of_held hown.1,hown.2,hold_eq_none.mpr (hr.own hnone' hown.1 hown.2).1,Option.filter]
      · have hother := (hr.other hown).1
        simp only [if_true,Option.bind_some,hother]
        cases hh : f.held with
        | false => simp [hold_eq_none.mpr hh]
        | true =>
          have hkc : f.keycode ≠ kc := fun hkc => hown ⟨hh,hkc⟩
          simp [hold_of_held hh,hkc,Option.filter]
    · simp only [hj,if_false]
      rw [letGo_succ_of_ne hj]
      exact h.holds j
  · intro j hj
    rw [hset j,if_neg (by omega)]
    exact h.rest j (by omega)
  · intro j g hg
    rw [hset j] at hg
    by_cases hj : j = n
    · rw [if_pos hj] at hg
      obtain rfl := Option.some.inj hg
      exact hr.ordinary
    · rw [if_neg hj] at hg
      exact h.ordinary j g hg
  · simp [hr.filters,h.length]
  · simp [hr.send,h.send]
  · exact hr.baseMods.trans h.baseMods
  · exact hr.baseGroup.trans h.baseGroup
  · exact hr.setMods.trans h.setMods
  · exact h.action.trans hr.action
  · intro j g hg hgact hlatch
    rw [hset j] at hg
    by_cases hj : j = n
    · rw [if_pos hj] at hg
      obtain rfl := Option.some.inj hg
      exact ⟨f,hj ▸ hn,hact,hr.latch hlatch⟩
    · rw [if_neg hj] at hg
      exact h.latch j g hg hgact hlatch
  · intro hq
    have hnot : ¬(f.held = true ∧ f.keycode = kc) := fun hown =>
      hq n _ (Nat.lt_succ_self n) (hheld.trans (hold_of_held hown.1)) hown.2
    obtain ⟨-,h₁,h₂⟩ := hr.other hnot
    obtain ⟨h₃,h₄⟩ := h.quiet fun j v hj => hq j v (by omega)
    exact ⟨h₁.trans h₃,h₂.trans h₄⟩
  · intro j v hj hv hvkc
    have hnone' := hnone j v hv hvkc
    by_cases hjn : j = n
    · subst hjn
      have hsome : f.hold = some v := hheld.symm.trans hv
      have hh : f.held = true := by
        by_contra hne
        simp [hold_eq_none.mpr (by simpa using hne)] at hsome
      obtain rfl := Option.some.inj ((hold_of_held hh).symm.trans hsome)
      obtain ⟨h₁,h₂⟩ := hbefore ⟨hh,hvkc⟩
      exact ⟨(hr.own hnone' hh hvkc).2.1 h₁,(hr.own hnone' hh hvkc).2.2 h₂⟩
    · have hnot : ¬(f.held = true ∧ f.keycode = kc) := fun hown =>
        hjn (hone j n v _ hv (hheld.trans (hold_of_held hown.1)) hvkc hown.2)
      obtain ⟨-,h₁,h₂⟩ := hr.other hnot
      obtain ⟨h₃,h₄⟩ := h.fired j v (by omega) hv hvkc
      exact ⟨h₁.trans h₃,h₂.trans h₄⟩

lemma applyFilter_inactive {p : XkbSrvInfo.Passed} {n : ℕ} {f : XkbFilter} (hf : p.xkbi.filters[n]? = some f)
    (hact : f.active = false) : XkbSrvInfo.applyFilter clear kc p n = p := by
  simp [XkbSrvInfo.applyFilter,hf,hact]

lemma applyFilter_active {p : XkbSrvInfo.Passed} {n : ℕ} {f : XkbFilter} {proc : FilterProc}
    (hf : p.xkbi.filters[n]? = some f) (hact : f.active = true) (hproc : f.filter = some proc) :
    XkbSrvInfo.applyFilter clear kc p n = (let r := runFilter p.xkbi f kc clear proc p.action
      ⟨{ r.xkbi with filters := r.xkbi.filters.set n r.filter },r.action,r.send && p.send⟩) := by
  simp [XkbSrvInfo.applyFilter,hf,hact,hproc]

/-- A whole pass. -/
theorem passedTo_applyFilters (hord : xkbi.AllOrdinary) (hplain : Plain act) (hclear : xkbi.clearMods = 0)
    (hchange : xkbi.groupChange = 0)
    (hone : ∀ j j' v v', xkbi.heldAt j = some v → xkbi.heldAt j' = some v' → v.1 = kc → v'.1 = kc → j = j')
    (hpress : act ≠ none → ∀ j v, xkbi.heldAt j = some v → v.1 ≠ kc) :
    PassedTo xkbi kc xkbi.filters.length act (xkbi.applyFilters clear kc act) := by
  unfold XkbSrvInfo.applyFilters
  have hall : ∀ n, n ≤ xkbi.filters.length →
      PassedTo xkbi kc n act ((List.range n).foldl (XkbSrvInfo.applyFilter clear kc) ⟨xkbi,act,true⟩) := by
    intro n
    induction n with
    | zero =>
      intro _
      constructor
      · exact fun j => by simp [XkbSrvInfo.letGo]
      · exact fun j _ => rfl
      · exact hord
      · rfl
      · rfl
      · rfl
      · rfl
      · rfl
      · exact .inl rfl
      · exact fun j f hf hact hlatch => ⟨f,hf,hact,hlatch⟩
      · exact fun _ => ⟨rfl,rfl⟩
      · exact fun j v hj => absurd hj (Nat.not_lt_zero j)
    | succ n ih =>
      intro hn
      have h := ih (by omega)
      rw [List.range_succ,List.foldl_append,List.foldl_cons,List.foldl_nil]
      set p := (List.range n).foldl (XkbSrvInfo.applyFilter clear kc) ⟨xkbi,act,true⟩
      obtain ⟨f,hf⟩ : ∃ f, xkbi.filters[n]? = some f := ⟨_,List.getElem?_eq_getElem (by omega)⟩
      have hpf : p.xkbi.filters[n]? = some f := by rw [h.rest n (Nat.le_refl n),hf]
      cases hact : f.active with
      | false =>
        rw [applyFilter_inactive clear hpf hact]
        exact h.skip ((heldAt_of_getElem? hf).trans (hold_of_inactive hact))
      | true =>
        obtain ⟨-,hproc⟩ := h.ordinary n f hpf hact
        obtain ⟨proc,hproc⟩ : ∃ proc, f.filter = some proc := by
          rcases hproc with h | h | h | h <;> exact ⟨_,h⟩
        rw [applyFilter_active clear hpf hact hproc]
        exact h.step clear hplain hclear hchange hone hpress hf hact hproc
  exact hall _ (Nat.le_refl _)

lemma letGo_length (j : ℕ) : xkbi.letGo kc xkbi.filters.length j = (xkbi.heldAt j).filter fun v => v.1 ≠ kc := by
  unfold XkbSrvInfo.letGo
  split
  · rfl
  · next h =>
    have : xkbi.filters[j]? = none := List.getElem?_eq_none (by omega)
    simp [XkbSrvInfo.heldAt,this]

end Pass

end Xlibre.Xkb
