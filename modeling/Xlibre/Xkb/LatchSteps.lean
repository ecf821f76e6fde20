import Xlibre.Xkb.Slots

/-! What the filters of all kinds do to latches: what is latched stays in the charge of a pending filter. -/
namespace Xlibre.Xkb

open XkbFilter

/-- A filter that has nothing to do with latches, and what it makes of an event. -/
structure Aside (xkbi : XkbSrvInfo) (f : XkbFilter) (act : Option XkbAction) (r : Filtered) : Prop where
  filters : r.xkbi.filters = xkbi.filters
  latchedMods : r.xkbi.state.latchedMods = xkbi.state.latchedMods
  latchedGroup : r.xkbi.state.latchedGroup = xkbi.state.latchedGroup
  proc : r.filter.filter = f.filter
  keycode : r.filter.active = true → r.filter.keycode = f.keycode
  /-- An action that breaks latches goes on to do so. -/
  breaks : ∀ a, act = some a → breakLatch a.type = true → ∃ a', r.action = some a' ∧ breakLatch a'.type = true

section Filters
variable {xkbi : XkbSrvInfo} {f : XkbFilter} {kc : ℕ} {act : Option XkbAction}

lemma aside_slot {g : XkbFilter} {send : Bool} (hproc : g.filter = f.filter)
    (hkey : g.active = true → g.keycode = f.keycode) : Aside xkbi f act ⟨xkbi,g,act,send⟩ :=
  ⟨rfl,rfl,rfl,hproc,hkey,fun a ha hb => ⟨a,ha,hb⟩⟩

lemma aside_setState (h0 : f.keycode ≠ 0) : Aside xkbi f act (filterSetState xkbi f kc act) := by
  simp only [filterSetState,if_neg h0]
  split
  · split
    · exact ⟨rfl,rfl,rfl,rfl,fun h => by simp at h,fun a ha hb => ⟨a,ha,hb⟩⟩
    · exact ⟨rfl,rfl,rfl,rfl,fun h => by simp at h,fun a ha hb => ⟨a,ha,hb⟩⟩
  · exact aside_slot rfl fun _ => rfl

lemma aside_lockState (h0 : f.keycode ≠ 0) : Aside xkbi f act (filterLockState xkbi f kc act) := by
  simp only [filterLockState,if_neg h0]
  split
  · exact ⟨rfl,rfl,rfl,rfl,fun _ => rfl,fun a ha hb => ⟨a,ha,hb⟩⟩
  · split
    · exact ⟨rfl,rfl,rfl,rfl,fun h => by simp at h,fun a ha hb => ⟨a,ha,hb⟩⟩
    · exact aside_slot rfl fun _ => rfl

lemma isoLocked_breaks {flags : BitVec 8} {t t' : ActionType} (h : isoLocked flags t = some t')
    (ht : breakLatch t = true) : breakLatch t' = true := by
  cases t <;> simp_all [isoLocked,breakLatch]
  all_goals
    rw [← h.2]

lemma aside_isoLock (h0 : f.keycode ≠ 0) : Aside xkbi f act (filterISOLock xkbi f kc act) := by
  simp only [filterISOLock,if_neg h0]
  split
  · exact ⟨rfl,rfl,rfl,rfl,fun h => by simp at h,fun a ha hb => ⟨a,ha,hb⟩⟩
  · cases act with
    | none => exact aside_slot rfl fun _ => rfl
    | some a =>
      simp only
      split
      · exact aside_slot rfl fun _ => rfl
      · next t ht =>
        refine ⟨rfl,rfl,rfl,rfl,fun _ => rfl,fun b hb hbreak => ⟨_,rfl,?_⟩⟩
        obtain rfl := Option.some.inj hb
        exact isoLocked_breaks ht hbreak

lemma aside_pointerMove (h0 : f.keycode ≠ 0) : Aside xkbi f act (filterPointerMove xkbi f kc act) := by
  simp only [filterPointerMove,if_neg h0]
  split
  · exact aside_slot rfl fun h => by simp at h
  · exact aside_slot rfl fun _ => rfl

lemma aside_pointerBtn (h0 : f.keycode ≠ 0) : Aside xkbi f act (filterPointerBtn xkbi f kc act) := by
  simp only [filterPointerBtn,if_neg h0]
  split
  · exact aside_slot rfl fun h => by simp at h
  · exact aside_slot rfl fun _ => rfl

lemma aside_actionMessage (h0 : f.keycode ≠ 0) : Aside xkbi f act (filterActionMessage xkbi f kc act) := by
  simp only [filterActionMessage,if_neg h0]
  split
  · exact aside_slot rfl fun _ => rfl
  · split
    · exact aside_slot rfl fun _ => rfl
    · cases act with
      | none => exact aside_slot rfl fun h => by simp at h
      | some a =>
        simp only
        split
        · exact aside_slot rfl fun h => by simp at h
        · exact aside_slot rfl fun _ => rfl

lemma aside_redirectKey (h0 : f.keycode ≠ 0) : Aside xkbi f act (filterRedirectKey xkbi f kc act) := by
  simp only [filterRedirectKey,if_neg h0]
  split
  · exact aside_slot rfl fun _ => rfl
  · split
    · exact aside_slot rfl fun _ => rfl
    · cases act with
      | none => exact aside_slot rfl fun h => by simp at h
      | some a =>
        simp only
        split
        · exact aside_slot rfl fun h => by simp at h
        · exact aside_slot rfl fun _ => rfl

lemma aside_server {proc : FilterProc} (h0 : f.keycode ≠ 0) : Aside xkbi f act (filterServer xkbi f kc proc act) := by
  simp only [filterServer,if_neg h0]
  split
  · exact aside_slot rfl fun _ => rfl
  · split
    · exact aside_slot rfl fun h => by simp at h
    · exact aside_slot rfl fun _ => rfl

lemma aside_deviceBtn (h0 : f.keycode ≠ 0) : Aside xkbi f act (filterDeviceBtn xkbi f kc act) := by
  simp only [filterDeviceBtn,if_neg h0]
  split
  · exact aside_slot rfl fun _ => rfl
  · split
    · exact aside_slot rfl fun h => by simp at h
    · exact aside_slot rfl fun _ => rfl

variable (xkbi kc act) in
lemma aside_run {proc : FilterProc} (clear : XkbSrvInfo → XkbSrvInfo) (h0 : f.keycode ≠ 0) (hl : proc ≠ .latchState)
    (hc : proc ≠ .controls) : Aside xkbi f act (runFilter xkbi f kc clear proc act) := by
  cases proc with
  | setState => exact aside_setState h0
  | latchState => exact absurd rfl hl
  | lockState => exact aside_lockState h0
  | isoLock => exact aside_isoLock h0
  | pointerMove => exact aside_pointerMove h0
  | pointerBtn => exact aside_pointerBtn h0
  | controls => exact absurd rfl hc
  | actionMessage => exact aside_actionMessage h0
  | redirectKey => exact aside_redirectKey h0
  | switchScreen => exact aside_server h0
  | xf86Private => exact aside_server h0
  | deviceBtn => exact aside_deviceBtn h0

def XkbSrvInfo.Latched (xkbi : XkbSrvInfo) : Prop := xkbi.state.latchedMods ≠ 0 ∨ xkbi.state.latchedGroup ≠ 0

structure LatchTurn (xkbi : XkbSrvInfo) (f : XkbFilter) (kc : ℕ) (act : Option XkbAction) (r : Filtered) : Prop where
  filters : r.xkbi.filters = xkbi.filters
  action : r.action = act
  keycode : r.filter.keycode = f.keycode
  /-- At the release of its key nothing but a pending latch is left. -/
  own : f.pending = false → f.keycode = kc → r.filter.pending = true ∨ r.filter.active = false
  outcome :
    -- broken
    (f.pending = true ∧ ¬r.xkbi.Latched ∧ r.filter.active = false) ∨
    -- still pending
    (f.pending = true ∧ r.xkbi.state.latchedMods = xkbi.state.latchedMods ∧
      r.xkbi.state.latchedGroup = xkbi.state.latchedGroup ∧ r.filter = f ∧ (∀ a, act = some a → breakLatch a.type = false)) ∨
    -- released, and pending now
    (f.pending = false ∧ f.keycode = kc ∧ r.filter.pending = true ∧ r.filter.active = true) ∨
    -- released with nothing latched, or degraded, or not concerned
    (f.pending = false ∧ (r.xkbi.Latched → xkbi.Latched) ∧ (r.filter.active = true → r.filter.pending = false ∧
      (r.filter.filter = some .latchState → r.filter = f)))

lemma pending_of_latch (hf : f.filter = some .latchState) : f.pending = true ↔ f.priv = latchPending := by
  simp [pending,hf]

lemma latched_or_of_mask {m l k : BitVec 8} (hm : m = 0) (h : (l &&& ~~~k) ||| m ≠ 0) : l ≠ 0 := by
  rintro rfl
  simp [hm] at h

lemma released_latched (hact : f.active = true) (hf : f.filter = some .latchState) :
    (f.released true).pending = true ∧ (f.released true).active = true ∧ (f.released false).active = false := by
  simp [released,pending,hf,hact]

lemma released_done (hf : f.filter = some .latchState) (b : Bool) :
    (f.released b).pending = true ∨ (f.released b).active = false := by
  cases b <;> simp [released,pending,hf]

lemma released_keycode (b : Bool) : (f.released b).keycode = f.keycode := by
  cases b <;> rfl

lemma latchTurn_releaseMods (hact : f.active = true) (hf : f.filter = some .latchState) (hnp : f.pending = false)
    (hkc : f.keycode = kc) : LatchTurn xkbi f kc act { releaseLatchMods xkbi f with action := act } := by
  obtain ⟨h₁,h₂,h₃⟩ := released_latched hact hf
  refine ⟨rfl,rfl,released_keycode _,fun _ _ => released_done hf _,?_⟩
  simp only [releaseLatchMods]
  set lock := if has f.upAction.flags latchToLock = true then _ else _
  set unlock := if has f.upAction.flags clearLocks = true then _ else _
  by_cases hm : f.upAction.mask &&& ~~~unlock &&& ~~~lock = 0
  · right; right; right
    refine ⟨hnp,fun hl => ?_,fun ha => by simp [hm,h₃] at ha⟩
    rcases hl with hl | hl
    · exact .inl (latched_or_of_mask hm hl)
    · exact .inr hl
  · right; right; left
    simp only [ne_eq,hm,not_false_eq_true,decide_true]
    exact ⟨hnp,hkc,h₁,h₂⟩

lemma latchTurn_releaseGroup (hact : f.active = true) (hf : f.filter = some .latchState) (hnp : f.pending = false)
    (hkc : f.keycode = kc) : LatchTurn xkbi f kc act { releaseLatchGroup xkbi f with action := act } := by
  obtain ⟨h₁,h₂,h₃⟩ := released_latched hact hf
  simp only [releaseLatchGroup]
  split
  · exact ⟨rfl,rfl,released_keycode _,fun _ _ => released_done hf _,.inr (.inr (.inr ⟨hnp,id,fun ha => by simp [h₃] at ha⟩))⟩
  · split
    · next hlock => exact ⟨rfl,rfl,released_keycode _,fun _ _ => released_done hf _,.inr (.inr (.inr ⟨hnp,fun _ => .inr hlock.2,fun ha => by simp [h₃] at ha⟩))⟩
    · split
      · exact ⟨rfl,rfl,released_keycode _,fun _ _ => released_done hf _,.inr (.inr (.inl ⟨hnp,hkc,h₁,h₂⟩))⟩
      · exact ⟨rfl,rfl,released_keycode _,fun _ _ => released_done hf _,.inr (.inr (.inr ⟨hnp,id,fun ha => by simp [h₃] at ha⟩))⟩

variable (xkbi kc act) in
lemma latchTurn (hact : f.active = true) (h0 : f.keycode ≠ 0) (hf : f.filter = some .latchState) :
    LatchTurn xkbi f kc act (filterLatchState xkbi f kc act) := by
  have hpend := pending_of_latch hf
  simp only [filterLatchState,if_neg h0]
  by_cases hp : f.priv = latchPending
  · by_cases hsome : act.isSome = true
    · obtain ⟨a,rfl⟩ := Option.isSome_iff_exists.mp hsome
      rw [if_pos ⟨hsome,hp⟩]
      split
      · exact ⟨rfl,rfl,rfl,fun _ _ => .inr rfl,.inl ⟨hpend.mpr hp,by simp [XkbSrvInfo.Latched],rfl⟩⟩
      · next hb =>
        refine ⟨rfl,rfl,rfl,fun _ _ => .inl (hpend.mpr hp),.inr (.inl ⟨hpend.mpr hp,rfl,rfl,rfl,fun b hb' => ?_⟩)⟩
        obtain rfl := Option.some.inj hb'
        simpa using hb
    · have hnone : act = none := by simpa using hsome
      subst hnone
      simp only [hp,Option.isSome_none,Bool.false_eq_true,false_and,if_false,ne_eq,not_true_eq_false,and_false]
      exact ⟨rfl,rfl,rfl,fun _ _ => .inl (hpend.mpr hp),.inr (.inl ⟨hpend.mpr hp,rfl,rfl,rfl,by simp⟩)⟩
  · have hnp : f.pending = false := by
      by_contra h
      exact hp (hpend.mp (by simpa using h))
    rw [if_neg (by simp [hp])]
    by_cases hkc : f.keycode = kc
    · rw [if_pos ⟨hkc,hp⟩]
      split
      · exact latchTurn_releaseMods hact hf hnp hkc
      · exact latchTurn_releaseGroup hact hf hnp hkc
    · rw [if_neg (by simp [hkc])]
      split
      · simp only [filterSetState,if_neg h0,if_neg hkc]
        exact ⟨rfl,rfl,rfl,fun _ h => absurd h hkc,.inr (.inr (.inr ⟨hnp,id,fun _ => ⟨by simp [pending],by simp⟩⟩))⟩
      · exact ⟨rfl,rfl,rfl,fun _ h => absurd h hkc,.inr (.inr (.inr ⟨hnp,id,fun _ => ⟨hnp,fun _ => rfl⟩⟩))⟩

end Filters

end Xlibre.Xkb
