import Xlibre.Xkb.Latches

/-! Runs of key events and of requests that latch: latches can always be broken, unless the key that is to break them is
itself a latch key that is down. -/
namespace Xlibre.Xkb

open XkbFilter XkbSrvInfo

/-- Nothing is latched and no filter is active. -/
structure Keyboard.Unused (k : Keyboard) : Prop where
  latchedMods : k.xkbi.state.latchedMods = 0
  latchedGroup : k.xkbi.state.latchedGroup = 0
  filters : ∀ f ∈ k.xkbi.filters, f.active = false

inductive Keyboard.LatchReach : Keyboard → Prop
  | start {k : Keyboard} : k.Unused → LatchReach k
  | event {k k' : Keyboard} {e : Event} : LatchReach k → (∃ key, e.input = .key key) → k.handleActions e = some k' → LatchReach k'
  | latchModifiers {k : Keyboard} (mask latches : BitVec 8) : LatchReach k →
      LatchReach { k with xkbi := k.xkbi.latchModifiers mask latches }
  | latchGroup {k : Keyboard} (group : BitVec 16) : LatchReach k → LatchReach { k with xkbi := k.xkbi.latchGroup group }

def XkbSrvInfo.HasPending (xkbi : XkbSrvInfo) : Prop := ∃ f ∈ xkbi.filters, f.active = true ∧ f.pending = true

/-- No latch is left. -/
structure XkbSrvInfo.Unlatched (xkbi : XkbSrvInfo) : Prop where
  latchedMods : xkbi.state.latchedMods = 0
  latchedGroup : xkbi.state.latchedGroup = 0
  pending : ¬xkbi.HasPending

lemma hasPending_iff (xkbi : XkbSrvInfo) :
    xkbi.HasPending ↔ ∃ (j : ℕ) (f : XkbFilter), xkbi.filters[j]? = some f ∧ f.active = true ∧ f.pending = true := by
  constructor
  · rintro ⟨f,hf,hact,hp⟩
    obtain ⟨j,hj⟩ := List.getElem?_of_mem hf
    exact ⟨j,f,hj,hact,hp⟩
  · rintro ⟨j,f,hf,hact,hp⟩
    exact ⟨f,List.mem_of_getElem? hf,hact,hp⟩

lemma XkbSrvInfo.Charged.unlatched {xkbi : XkbSrvInfo} (h : xkbi.Charged) (hnone : ¬xkbi.HasPending) : xkbi.Unlatched := by
  have hl : ¬xkbi.Latched := fun hl => hnone ((hasPending_iff xkbi).mpr (h.latched hl))
  unfold Latched at hl
  push Not at hl
  exact ⟨hl.1,hl.2,hnone⟩

namespace Keyboard
variable {k k' : Keyboard}

lemma Unused.charged (h : k.Unused) : k.xkbi.Charged := by
  have hactive : ∀ (j : ℕ) (f : XkbFilter), k.xkbi.filters[j]? = some f → f.active = false := fun j f hf =>
    h.filters f (List.mem_of_getElem? hf)
  refine ⟨fun j f hf hact => ?_,fun j f hf hact => ?_,fun hl => ?_⟩
  · simp [hactive j f hf] at hact
  · simp [hactive j f hf] at hact
  · simp [Latched,h.latchedMods,h.latchedGroup] at hl

lemma handleActions_latched {e : Event} (h : k.handleActions e = some k') :
    k'.xkbi.filters = (k.filterEvent e).filters ∧ k'.xkbi.state.latchedMods = (k.filterEvent e).state.latchedMods ∧
      k'.xkbi.state.latchedGroup = (k.filterEvent e).state.latchedGroup := by
  unfold handleActions at h
  obtain ⟨x,hx,rfl⟩ := Option.map_eq_some_iff.mp h
  obtain ⟨hfil,-,-,hmods,hgroup⟩ := computeDerivedState_same hx
  exact ⟨hfil,hmods,hgroup⟩

lemma charged_passed (h : k.xkbi.Charged) (e : Event) : (k.passed e).xkbi.Charged := by
  have hready : k.xkbi.ready.Charged := h.of_same rfl id
  exact charged_applyFilters clears_clearAllLatchesAndLocks hready e.action

lemma charged_filterEvent (h : k.xkbi.Charged) {e : Event} (hkey : ∃ key, e.input = .key key) : (k.filterEvent e).Charged := by
  have hpass := charged_passed h e
  cases e with
  | release input => exact hpass
  | press p =>
    obtain ⟨key,hkey⟩ := hkey
    have hkc : p.input.kc = key := by rw [show p.input = .key key from hkey,Input.kc_key]
    have := key.2
    simp only [filterEvent]
    split
    · exact charged_actionGetFilter _ _ hpass (by omega) (by omega)
    · exact hpass

lemma charged_handleActions (h : k.xkbi.Charged) {e : Event} (hkey : ∃ key, e.input = .key key)
    (hk : k.handleActions e = some k') : k'.xkbi.Charged := by
  obtain ⟨hfil,hmods,hgroup⟩ := handleActions_latched hk
  refine (charged_filterEvent h hkey).of_same hfil fun hl => ?_
  unfold Latched at hl ⊢
  rwa [hmods,hgroup] at hl

theorem LatchReach.charged (h : k.LatchReach) : k.xkbi.Charged := by
  induction h with
  | start h => exact h.charged
  | event _ hkey hk ih => exact charged_handleActions ih hkey hk
  | latchModifiers mask latches _ ih => exact charged_latchModifiers ih mask latches
  | latchGroup group _ ih => exact charged_latchGroup ih group

lemma hasPending_actionGetFilter {xkbi : XkbSrvInfo} {focus : Bool} {sourceid : BitVec 32} {key : ℕ} {act : XkbAction}
    (h : (xkbi.actionGetFilter focus sourceid key act).HasPending) : xkbi.HasPending := by
  have hstart : ∀ (proc : FilterProc) (setup : XkbFilter → XkbFilter),
      (∀ g, (setup g).keycode = g.keycode ∧ (setup g).active = g.active) →
      (xkbi.startFilter (key % 2^8) proc act setup).1.HasPending → xkbi.HasPending := by
    intro proc setup hsetup hp
    have hfree := nextFreeFilter_freed xkbi
    unfold startFilter at hp
    generalize xkbi.nextFreeFilter = y at hfree hp
    obtain ⟨x,i⟩ := y
    obtain ⟨g,hg,hgact,hg0⟩ := hfree.free
    have hget : x.filters.getD i .zeroed = g := by rw [List.getD_eq_getElem?_getD,hg,Option.getD_some]
    simp only [hget] at hp
    have hr := fresh_runFilter x (setup g) (key % 2^8) act id proc (by rw [(hsetup g).1,hg0]) (by rw [(hsetup g).2,hgact])
    obtain ⟨j,f,hf,hact,hpend⟩ := (hasPending_iff _).mp hp
    rcases slot_cases hg hr.filters hf with ⟨-,rfl⟩ | ⟨hj,hf⟩
    · rcases hr.slot with hdead | ⟨-,hnp⟩
      · rw [hdead] at hact
        cases hact
      · rw [hnp] at hpend
        cases hpend
    · exact (hasPending_iff _).mpr ⟨j,f,(hfree.active hf hact).2,hact,hpend⟩
  unfold actionGetFilter at h
  split at h
  · exact h
  · split at h
    · exact h
    · exact hstart .redirectKey (fun g => { g with priv := sourceid }) (fun _ => ⟨rfl,rfl⟩) h
    · exact hstart _ id (fun _ => ⟨rfl,rfl⟩) h

lemma unlatched_press (h : k.xkbi.Charged) {p : Press} (hkey : ∃ key, p.input = .key key)
    (hbreak : breakLatch p.act.type = true) (hdown : k.xkbi.NotDown p.input.kc)
    (hk : k.handleActions (.press p) = some k') : k'.xkbi.Unlatched := by
  have hready : k.xkbi.ready.Charged := h.of_same rfl id
  have hbroken : Broken k.xkbi.ready _ (k.passed (.press p)) :=
    broken_applyFilters clears_clearAllLatchesAndLocks hready hdown hbreak
  have hnone : ¬(k.passed (.press p)).xkbi.HasPending := by
    rw [hasPending_iff]
    rintro ⟨j,f,hf,hact,hp⟩
    simp [hbroken.none_pending j f hf hact] at hp
  have hcharged := charged_handleActions (e := .press p) h hkey hk
  refine hcharged.unlatched fun hp => hnone ?_
  have hp : (k.filterEvent (.press p)).HasPending := by
    unfold HasPending at hp ⊢
    rwa [(handleActions_latched hk).1] at hp
  simp only [filterEvent] at hp
  split at hp
  · exact hasPending_actionGetFilter hp
  · exact hp

end Keyboard

theorem latches_can_be_broken {k : Keyboard} (h : k.LatchReach) : (k.xkbi.Latched → k.xkbi.HasPending) ∧
    ∀ (p : Press) (k' : Keyboard), (∃ key, p.input = .key key) → breakLatch p.act.type = true →
      k.xkbi.NotDown p.input.kc → k.handleActions (.press p) = some k' → k'.xkbi.Unlatched :=
  ⟨fun hl => (hasPending_iff k.xkbi).mpr (h.charged.latched hl),fun _ _ hkey hbreak hdown hk =>
    Keyboard.unlatched_press h.charged hkey hbreak hdown hk⟩

def latchPress : Press := { input := keyOf 10 (by decide), act := { type := .latchMods, mask := 1 } }

def plainPress (n : ℕ) (h : 8 ≤ n ∧ n ≤ 255) : Press := { input := keyOf n h, act := .zeroed }

lemma idleKeyboard_unused : idleKeyboard.Unused := ⟨rfl,rfl,by simp [idleKeyboard]⟩

/-- A request latches a modifier; the press of a key without action breaks it. -/
theorem latches_can_be_broken_request : ∃ k k' : Keyboard, k.xkbi.state.latchedMods = 1 ∧
    k.handleActions (.press (plainPress 38 (by decide))) = some k' ∧ (k.xkbi.Latched → k.xkbi.HasPending) ∧ k'.xkbi.Unlatched := by
  have hreach : Keyboard.LatchReach { idleKeyboard with xkbi := idleKeyboard.xkbi.latchModifiers 1 1 } :=
    .latchModifiers 1 1 (.start idleKeyboard_unused)
  have hsome : (Keyboard.handleActions { idleKeyboard with xkbi := idleKeyboard.xkbi.latchModifiers 1 1 }
      (.press (plainPress 38 (by decide)))).isSome := by decide +kernel
  obtain ⟨k',hk⟩ := Option.isSome_iff_exists.mp hsome
  obtain ⟨hpend,hall⟩ := latches_can_be_broken hreach
  have hdown : (idleKeyboard.xkbi.latchModifiers 1 1).NotDown 38 := by
    intro j f hf _ _ _ hkey
    have hkeys : ∀ f ∈ (idleKeyboard.xkbi.latchModifiers 1 1).filters, f.keycode ≠ 38 := by decide +kernel
    exact hkeys f (List.mem_of_getElem? hf) hkey
  exact ⟨_,k',by decide +kernel,hk,hpend,hall (plainPress 38 (by decide)) k' ⟨_,rfl⟩ rfl hdown hk⟩

/-- The latch key is down and its press comes again, now without action: the filter takes it for the release. -/
theorem repeated_latch_key_latches : ¬∀ k : Keyboard, k.LatchReach → (k.xkbi.Latched → k.xkbi.HasPending) ∧
    ∀ (p : Press) (k' : Keyboard), (∃ key, p.input = .key key) → breakLatch p.act.type = true →
      k.handleActions (.press p) = some k' → k'.xkbi.Unlatched := by
  intro hall
  have hrun : ((idleKeyboard.handleActions (.press latchPress)).bind fun k =>
      (k.handleActions (.press (plainPress 10 (by decide)))).map fun k' => k'.xkbi.state.latchedMods) = some 1 := by
    decide +kernel
  obtain ⟨k,hk,hrun⟩ := Option.bind_eq_some_iff.mp hrun
  obtain ⟨k',hk',hmods⟩ := Option.map_eq_some_iff.mp hrun
  have hreach : k.LatchReach := .event (.start idleKeyboard_unused) ⟨_,rfl⟩ hk
  have hun := (hall k hreach).2 (plainPress 10 (by decide)) k' ⟨_,rfl⟩ rfl hk'
  have hzero := hun.latchedMods
  rw [hmods] at hzero
  exact absurd hzero (by decide)

end Xlibre.Xkb
