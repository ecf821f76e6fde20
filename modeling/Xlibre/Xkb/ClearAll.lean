import Xlibre.Xkb.Groups
import Xlibre.Xkb.LatchRuns

/-! The clearing of all latches and locks, in the states that key events and requests for latches and locks lead to. -/
namespace Xlibre.Xkb

open XkbFilter XkbSrvInfo

/-- A LatchLockState request. -/
structure LatchLockReq where
  affectModLocks : BitVec 8 := 0
  modLocks : BitVec 8 := 0
  lockGroup : Bool := false
  groupLock : BitVec 8 := 0
  affectModLatches : BitVec 8 := 0
  modLatches : BitVec 8 := 0
  latchGroup : Bool := false
  groupLatch : BitVec 16 := 0

namespace XkbSrvInfo

/-- What `ProcXkbLatchLockState` does to a keyboard. -/
def latchLockState (xkbi : XkbSrvInfo) (req : LatchLockReq) : Option XkbSrvInfo :=
  let locked := { xkbi with
    state.lockedMods := if req.affectModLocks ≠ 0 then
        (xkbi.state.lockedMods &&& ~~~req.affectModLocks) ||| (req.affectModLocks &&& req.modLocks)
      else xkbi.state.lockedMods
    state.lockedGroup := if req.lockGroup then req.groupLock else xkbi.state.lockedGroup }
  let xkbi := if req.affectModLatches ≠ 0 then locked.latchModifiers req.affectModLatches req.modLatches else locked
  let xkbi := if req.latchGroup then xkbi.latchGroup req.groupLatch else xkbi
  xkbi.computeDerivedState

/-- `XkbClearAllLatchesAndLocks` with its events: before they are sent, the derived state is computed. -/
def clearAll (xkbi : XkbSrvInfo) (genEv : Bool) : Option XkbSrvInfo :=
  let os := xkbi.state
  let changed := os.latchedMods ≠ 0 ∨ os.latchedGroup ≠ 0 ∨ os.lockedMods ≠ 0 ∨ os.lockedGroup ≠ 0
  if genEv ∧ changed then xkbi.clearAllLatchesAndLocks.computeDerivedState else some xkbi.clearAllLatchesAndLocks

end XkbSrvInfo

namespace Keyboard

/-- A keyboard that is not in use yet, with up to four groups. -/
structure Fresh (k : Keyboard) : Prop extends k.Unused where
  groups : 1 ≤ k.xkbi.ctrls.numGroups ∧ k.xkbi.ctrls.numGroups ≤ xkbNumKbdGroups

inductive LockReach : Keyboard → Prop
  | start {k : Keyboard} : k.Fresh → LockReach k
  | event {k k' : Keyboard} {e : Event} : LockReach k → (∃ key, e.input = .key key) → k.handleActions e = some k' → LockReach k'
  | latchLockState {k : Keyboard} {req : LatchLockReq} {x : XkbSrvInfo} : LockReach k → k.xkbi.latchLockState req = some x →
      LockReach { k with xkbi := x }
  | clearAll {k : Keyboard} {genEv : Bool} {x : XkbSrvInfo} : LockReach k → k.xkbi.clearAll genEv = some x →
      LockReach { k with xkbi := x }

end Keyboard

section Invariant
variable {k k' : Keyboard} {xkbi x : XkbSrvInfo}

/-- Latches are in the charge of pending filters, and the number of groups is one that keyboards have. -/
structure XkbSrvInfo.Sound (xkbi : XkbSrvInfo) : Prop where
  charged : xkbi.Charged
  groups : 1 ≤ xkbi.ctrls.numGroups ∧ xkbi.ctrls.numGroups ≤ xkbNumKbdGroups

lemma XkbSrvInfo.Sound.derived (h : xkbi.Sound) (hx : xkbi.computeDerivedState = some x) : x.Sound := by
  obtain ⟨hfil,-,-,hmods,hgroup⟩ := computeDerivedState_same hx
  obtain ⟨y,hy,hd⟩ := derives_computeDerivedState xkbi h.groups.1 h.groups.2
  obtain rfl := Option.some.inj (hy.symm.trans hx)
  constructor
  · apply h.charged.of_same hfil
    unfold Latched
    rw [hmods,hgroup]
    exact id
  · rw [hd.ctrls]
    exact h.groups

lemma XkbSrvInfo.Sound.clearAll {genEv : Bool} (h : xkbi.Sound) (hx : xkbi.clearAll genEv = some x) : x.Sound := by
  have hclear : xkbi.clearAllLatchesAndLocks.Sound :=
    ⟨clears_clearAllLatchesAndLocks.charged xkbi h.charged,by rw [regroups_clearAllLatchesAndLocks]; exact h.groups⟩
  unfold XkbSrvInfo.clearAll at hx
  dsimp only at hx
  split at hx
  · exact hclear.derived hx
  · exact Option.some.inj hx ▸ hclear

lemma XkbSrvInfo.Sound.latchModifiers (h : xkbi.Sound) (mask latches : BitVec 8) : (xkbi.latchModifiers mask latches).Sound :=
  ⟨charged_latchModifiers h.charged mask latches,by
    rw [show (xkbi.latchModifiers mask latches).ctrls.numGroups = _ from regroups_latchModifiers mask latches xkbi]
    exact h.groups⟩

lemma XkbSrvInfo.Sound.latchGroup (h : xkbi.Sound) (group : BitVec 16) : (xkbi.latchGroup group).Sound :=
  ⟨charged_latchGroup h.charged group,by
    rw [show (xkbi.latchGroup group).ctrls.numGroups = _ from regroups_latchGroup group xkbi]
    exact h.groups⟩

lemma XkbSrvInfo.Sound.latchLockState {req : LatchLockReq} (h : xkbi.Sound) (hx : xkbi.latchLockState req = some x) :
    x.Sound := by
  unfold XkbSrvInfo.latchLockState at hx
  dsimp only at hx
  apply XkbSrvInfo.Sound.derived _ hx
  have hlocked : ∀ (mods grp : BitVec 8), XkbSrvInfo.Sound { xkbi with state.lockedMods := mods, state.lockedGroup := grp } :=
    fun mods grp => ⟨h.charged.of_same rfl id,h.groups⟩
  have hlatched : ∀ y : XkbSrvInfo, y.Sound →
      (if req.affectModLatches ≠ 0 then y.latchModifiers req.affectModLatches req.modLatches else y).Sound := by
    intro y hy
    split
    · exact hy.latchModifiers _ _
    · exact hy
  split
  · exact (hlatched _ (hlocked _ _)).latchGroup _
  · exact hlatched _ (hlocked _ _)

lemma XkbSrvInfo.Sound.handleActions {e : Event} (h : k.xkbi.Sound) (hkey : ∃ key, e.input = .key key)
    (hk : k.handleActions e = some k') : k'.xkbi.Sound := by
  refine ⟨Keyboard.charged_handleActions h.charged hkey hk,?_⟩
  have hsame : (Keyboard.makeChanges { k with xkbi := k.filterEvent e }).xkbi.ctrls.numGroups = k.xkbi.ctrls.numGroups :=
    numGroups_filterEvent k e
  obtain ⟨x,hx,hd⟩ := derives_computeDerivedState _ (hsame ▸ h.groups.1) (hsame ▸ h.groups.2)
  obtain ⟨y,hy,rfl⟩ := Option.map_eq_some_iff.mp hk
  obtain rfl := Option.some.inj (hx.symm.trans hy)
  simp only [hd.ctrls,hsame]
  exact h.groups

theorem Keyboard.LockReach.sound (h : k.LockReach) : k.xkbi.Sound := by
  induction h with
  | start h => exact ⟨h.toUnused.charged,h.groups⟩
  | event _ hkey hk ih => exact ih.handleActions hkey hk
  | latchLockState _ hx ih => exact ih.latchLockState hx
  | clearAll _ hx ih => exact ih.clearAll hx

structure XkbSrvInfo.SameBase (xkbi x : XkbSrvInfo) : Prop where
  baseMods : x.state.baseMods = xkbi.state.baseMods
  baseGroup : x.state.baseGroup = xkbi.state.baseGroup
  lockedMods : x.state.lockedMods = xkbi.state.lockedMods
  lockedGroup : x.state.lockedGroup = xkbi.state.lockedGroup

lemma runFilter_zeroed (xkbi : XkbSrvInfo) {f : XkbFilter} {proc : FilterProc} (h0 : f.keycode ≠ 0)
    (hsyn : f.keycode = syntheticKeycode → f.pending = true) (hproc : f.filter = some proc) :
    (runFilter xkbi f syntheticKeycode id proc (some .zeroed)).action = some .zeroed ∧
      xkbi.SameBase (runFilter xkbi f syntheticKeycode id proc (some .zeroed)).xkbi := by
  have hother : proc ≠ .latchState → f.keycode ≠ syntheticKeycode := by
    intro hl hkey
    have hpend := hsyn hkey
    rw [not_pending_of_proc hproc hl] at hpend
    exact Bool.false_ne_true hpend
  have hsame : xkbi.SameBase xkbi := ⟨rfl,rfl,rfl,rfl⟩
  cases proc with
  | latchState =>
    have hset : ∀ g : XkbFilter, g.keycode ≠ 0 → g.keycode ≠ syntheticKeycode →
        (filterSetState xkbi g syntheticKeycode (some .zeroed)).action = some .zeroed ∧
          xkbi.SameBase (filterSetState xkbi g syntheticKeycode (some .zeroed)).xkbi := by
      intro g hg hkey
      simp only [filterSetState,if_neg hg,if_neg hkey]
      exact ⟨trivial,hsame⟩
    simp only [runFilter,filterLatchState,if_neg h0]
    split
    · split
      · exact ⟨rfl,rfl,rfl,rfl,rfl⟩
      · exact ⟨rfl,hsame⟩
    · next hnp =>
      have hpriv : f.priv ≠ latchPending := fun hpriv => hnp ⟨rfl,hpriv⟩
      have hkey : f.keycode ≠ syntheticKeycode := fun hkey => hpriv ((pending_of_latch hproc).1 (hsyn hkey))
      rw [if_neg (fun h => hkey h.1)]
      split
      · exact hset _ h0 hkey
      · exact ⟨rfl,hsame⟩
  | isoLock =>
    simp only [runFilter,filterISOLock,if_neg h0,if_neg (hother (by decide))]
    exact ⟨rfl,hsame⟩
  | lockState =>
    simp only [runFilter,filterLockState]
    rw [if_neg (by decide),if_neg h0,if_neg (hother (by decide))]
    exact ⟨rfl,hsame⟩
  | actionMessage | redirectKey =>
    simp only [runFilter,filterActionMessage,filterRedirectKey,if_pos (And.intro h0 (hother (by decide)))]
    exact ⟨trivial,hsame⟩
  | switchScreen | xf86Private =>
    simp only [runFilter,filterSwitchScreen,filterXF86Private,filterServer,if_neg h0,if_neg (hother (by decide))]
    split <;> exact ⟨rfl,hsame⟩
  | deviceBtn =>
    simp only [runFilter,filterDeviceBtn,if_neg h0,if_neg (hother (by decide))]
    split <;> exact ⟨rfl,hsame⟩
  | setState | pointerMove | pointerBtn | controls =>
    simp only [runFilter,filterSetState,filterPointerMove,filterPointerBtn,filterControls,if_neg h0,
      if_neg (hother (by decide))]
    exact ⟨trivial,hsame⟩

lemma applyFilters_sameBase (h : xkbi.Charged) :
    xkbi.SameBase (xkbi.applyFilters id syntheticKeycode (some .zeroed)).xkbi := by
  unfold XkbSrvInfo.applyFilters
  generalize List.range xkbi.filters.length = l
  have hall : ∀ p : XkbSrvInfo.Passed, p.xkbi.Charged → p.action = some .zeroed →
      p.xkbi.SameBase (l.foldl (XkbSrvInfo.applyFilter id syntheticKeycode) p).xkbi := by
    induction l with
    | nil => exact fun p _ _ => ⟨rfl,rfl,rfl,rfl⟩
    | cons i l ih =>
      intro p hp hact
      have hcharged := charged_applyFilter syntheticKeycode clears_id hp i
      by_cases hidle : ∀ f, p.xkbi.filters[i]? = some f → f.filter = none ∨ f.active = false
      · rw [List.foldl_cons,applyFilter_none hidle]
        exact ih p hp hact
      · push Not at hidle
        obtain ⟨f,hf,hsome,hfact⟩ := hidle
        obtain ⟨proc,hproc⟩ := Option.ne_none_iff_exists'.mp hsome
        have hfact : f.active = true := by simpa using hfact
        obtain ⟨haction,hbase⟩ := runFilter_zeroed p.xkbi (hp.keycodes i f hf hfact)
          (hp.synthetic i f hf hfact) hproc
        rw [applyFilter_active id hf hfact hproc,hact] at hcharged
        rw [List.foldl_cons,applyFilter_active id hf hfact hproc,hact]
        have hnext := ih _ hcharged haction
        exact ⟨hnext.baseMods.trans hbase.baseMods,hnext.baseGroup.trans hbase.baseGroup,
          hnext.lockedMods.trans hbase.lockedMods,hnext.lockedGroup.trans hbase.lockedGroup⟩
  exact hall ⟨xkbi,some .zeroed,true⟩ h rfl

lemma latchAtOnce_state (xkbi : XkbSrvInfo) (act : XkbAction) (hnone : act.flags = 0 ∧
      ((act.type = .latchMods ∧ act.mask = 0) ∨ (act.type = .latchGroup ∧ act.group = 0))) :
    (xkbi.latchAtOnce act).state = xkbi.state := by
  obtain ⟨x,i,g,hfree,hg,-,hg0,-,heq⟩ := xkbi.latchAtOnce_slot act
  have hfreed : x.state = xkbi.state := by rw [hfree.same]
  obtain ⟨-,hstate,-,hkey,-,hpriv,htype,hmods,hgroup⟩ := latch_press x act hg0
  rw [heq]
  set r := filterLatchState x g syntheticKeycode (some act)
  have hk0 : r.filter.keycode ≠ 0 := by rw [hkey]; decide
  have hp : r.filter.priv ≠ latchPending := by rw [hpriv]; decide
  simp only [filterLatchState,if_neg hk0,Option.isSome_none,Bool.false_eq_true,false_and,if_false]
  rw [if_pos ⟨hkey,hp⟩,htype]
  obtain ⟨hflags,⟨hm,hmask⟩ | ⟨hm,hzero⟩⟩ := hnone
  · have hall : ∀ v : BitVec 8, v &&& 255#8 = v := fun v => BitVec.and_allOnes
    rw [if_pos hm]
    simp [releaseLatchMods,hmods hm,hmask,hflags,has,hstate,hfreed,hall]
  · have hne : act.type ≠ .latchMods := by simp [hm]
    have hpress : x.pressGroup act = 0 := by simp [pressGroup,hflags,has,saGroup,hzero]
    rw [if_neg hne]
    simp [releaseLatchGroup,hgroup hne,hpress,saSetGroup,saGroup,hflags,has,hstate,hfreed]

/-- The locks are gone, and what is held is the same. -/
structure XkbSrvInfo.Unlocked (xkbi x : XkbSrvInfo) : Prop where
  lockedMods : x.state.lockedMods = 0
  lockedGroup : x.state.lockedGroup = 0
  baseMods : x.state.baseMods = xkbi.state.baseMods
  baseGroup : x.state.baseGroup = xkbi.state.baseGroup

lemma breakFirst_breaks (h : xkbi.Charged) (mask latches : BitVec 8) : ¬(xkbi.breakFirst mask latches).HasPending ∧
    xkbi.SameBase (xkbi.breakFirst mask latches) := by
  have hfewer := charged_fewer h (~~~(mask &&& ~~~latches))
  have hbroken := broken_applyFilters clears_id hfewer hfewer.notDown (show breakLatch XkbAction.zeroed.type = true from rfl)
  have hbase := applyFilters_sameBase hfewer
  rw [hasPending_iff]
  refine ⟨?_,hbase.baseMods,hbase.baseGroup,hbase.lockedMods,hbase.lockedGroup⟩
  rintro ⟨j,f,hf,hact,hp⟩
  have hnone := hbroken.none_pending j f hf hact
  rw [hp] at hnone
  exact Bool.false_ne_true hnone.symm

lemma unlatched_latchModifiers (h : xkbi.Charged) :
    (xkbi.latchModifiers (BitVec.allOnes 8) 0).Unlatched ∧ xkbi.SameBase (xkbi.latchModifiers (BitVec.allOnes 8) 0) := by
  have hnothing : BitVec.allOnes 8 &&& (0 : BitVec 8) = 0 := by decide
  obtain ⟨hnone,hbase⟩ := breakFirst_breaks h (BitVec.allOnes 8) 0
  have hcharged := charged_latchModifiers h (BitVec.allOnes 8) 0
  rw [latchModifiers_eq] at hcharged ⊢
  generalize xkbi.breakFirst (BitVec.allOnes 8) 0 = y at hnone hbase hcharged
  have hstate := latchAtOnce_state y { type := .latchMods, mask := BitVec.allOnes 8 &&& 0 }
    ⟨rfl,.inl ⟨rfl,hnothing⟩⟩
  constructor
  · apply hcharged.unlatched
    rw [hasPending_iff] at hnone ⊢
    rintro ⟨j,f,hf,hact,hp⟩
    exact hnone ⟨j,f,(latchAtOnce_active (.inl ⟨rfl,hnothing⟩) hact).1 hf,hact,hp⟩
  · exact ⟨hstate ▸ hbase.baseMods,hstate ▸ hbase.baseGroup,hstate ▸ hbase.lockedMods,hstate ▸ hbase.lockedGroup⟩

lemma latchGroup_zero (xkbi : XkbSrvInfo) :
    (xkbi.latchGroup 0).state = xkbi.state ∧ ((xkbi.latchGroup 0).HasPending ↔ xkbi.HasPending) := by
  rw [latchGroup_eq,hasPending_iff,hasPending_iff]
  refine ⟨latchAtOnce_state _ _ ⟨rfl,.inr ⟨rfl,rfl⟩⟩,?_⟩
  have hnone : (saSetGroup { type := .latchGroup } 0).type = .latchGroup ∧ (saSetGroup { type := .latchGroup } 0).group = 0 ∧
      (saSetGroup { type := .latchGroup } 0).flags = 0 := ⟨rfl,rfl,rfl⟩
  constructor
  · rintro ⟨j,f,hf,hact,hp⟩
    exact ⟨j,f,(latchAtOnce_active (.inr hnone) hact).1 hf,hact,hp⟩
  · rintro ⟨j,f,hf,hact,hp⟩
    exact ⟨j,f,(latchAtOnce_active (.inr hnone) hact).2 hf,hact,hp⟩

lemma clearAllLatchesAndLocks_parts (h : xkbi.Charged) : ∃ y : XkbSrvInfo, xkbi.SameBase y ∧
    (y.HasPending ↔ xkbi.state.latchedMods = 0 ∧ xkbi.HasPending) ∧
    xkbi.clearAllLatchesAndLocks = { y with
      state.lockedMods := if xkbi.state.lockedMods ≠ 0 then 0 else y.state.lockedMods
      state.lockedGroup := if xkbi.state.lockedGroup ≠ 0 then 0 else y.state.lockedGroup } := by
  have hmods : ∃ y, (if xkbi.state.latchedMods ≠ 0 then xkbi.latchModifiers (BitVec.allOnes 8) 0 else xkbi) = y ∧
      xkbi.SameBase y ∧ (y.HasPending ↔ xkbi.state.latchedMods = 0 ∧ xkbi.HasPending) := by
    refine ⟨_,rfl,?_⟩
    split
    · next hm =>
      obtain ⟨hun,hbase⟩ := unlatched_latchModifiers h
      exact ⟨hbase,iff_of_false hun.pending fun hp => hm hp.1⟩
    · next hm => exact ⟨⟨rfl,rfl,rfl,rfl⟩,(and_iff_right (not_not.1 hm)).symm⟩
  obtain ⟨y,hy,hbase,hpend⟩ := hmods
  unfold XkbSrvInfo.clearAllLatchesAndLocks
  dsimp only
  rw [hy]
  refine ⟨_,?_,?_,rfl⟩
  · split
    · have hstate := (latchGroup_zero y).1
      exact ⟨hstate ▸ hbase.baseMods,hstate ▸ hbase.baseGroup,hstate ▸ hbase.lockedMods,hstate ▸ hbase.lockedGroup⟩
    · exact hbase
  · split
    · exact (latchGroup_zero y).2.trans hpend
    · exact hpend

lemma clearAllLatchesAndLocks_unlocked (h : xkbi.Charged) : xkbi.Unlocked xkbi.clearAllLatchesAndLocks ∧
    (xkbi.clearAllLatchesAndLocks.HasPending ↔ xkbi.state.latchedMods = 0 ∧ xkbi.HasPending) := by
  obtain ⟨y,hbase,hpend,heq⟩ := clearAllLatchesAndLocks_parts h
  rw [heq]
  refine ⟨⟨?_,?_,hbase.baseMods,hbase.baseGroup⟩,hpend⟩
  · dsimp only
    split
    · rfl
    · next hzero => rw [hbase.lockedMods,not_not.1 hzero]
  · dsimp only
    split
    · rfl
    · next hzero => rw [hbase.lockedGroup,not_not.1 hzero]

lemma XkbSrvInfo.Unlocked.derived {y : XkbSrvInfo} (h : xkbi.Unlocked y) (hgroups : 1 ≤ y.ctrls.numGroups)
    (hx : y.computeDerivedState = some x) : xkbi.Unlocked x := by
  obtain ⟨-,hmods,hgroup,-,-⟩ := computeDerivedState_same hx
  have hlegal : y.ctrls.legalGroup y.state.lockedGroup = some 0 := by
    rw [h.lockedGroup]
    exact if_neg (not_le.2 hgroups)
  unfold computeDerivedState at hx
  rw [hlegal] at hx
  dsimp only at hx
  split at hx
  · cases hx
  · obtain rfl := Option.some.inj hx
    exact ⟨h.lockedMods,rfl,h.baseMods,h.baseGroup⟩

end Invariant

namespace Keyboard
variable {k : Keyboard}

/-- `XkbClearAllLatchesAndLocks` -/
def clearAll (k : Keyboard) (genEv : Bool) : Option Keyboard := (k.xkbi.clearAll genEv).map fun x => { k with xkbi := x }

/-- All latches and locks are gone, and what keys hold is the same. -/
structure Cleared (k k' : Keyboard) : Prop where
  unlatched : k'.xkbi.Unlatched
  unlocked : k.xkbi.Unlocked k'.xkbi
  counts : k'.modifierKeyCount = k.modifierKeyCount

/-- From all states that events and requests lead to, everything is cleared exactly if there are latched modifiers, or if no
latch is pending. -/
theorem clearAll_cleared_iff (h : k.LockReach) (genEv : Bool) : ∃ k', k.clearAll genEv = some k' ∧
    (k.Cleared k' ↔ k.xkbi.state.latchedMods ≠ 0 ∨ ¬k.xkbi.HasPending) := by
  have hsound := h.sound
  obtain ⟨hunlocked,hpend⟩ := clearAllLatchesAndLocks_unlocked hsound.charged
  have hgroups : k.xkbi.clearAllLatchesAndLocks.ctrls.numGroups = k.xkbi.ctrls.numGroups := regroups_clearAllLatchesAndLocks _
  obtain ⟨x,hx,hxun,hxpend⟩ : ∃ x, k.xkbi.clearAll genEv = some x ∧ k.xkbi.Unlocked x ∧
      (x.HasPending ↔ k.xkbi.state.latchedMods = 0 ∧ k.xkbi.HasPending) := by
    unfold XkbSrvInfo.clearAll
    dsimp only
    split
    · obtain ⟨x,hx,-⟩ := derives_computeDerivedState k.xkbi.clearAllLatchesAndLocks (hgroups ▸ hsound.groups.1)
        (hgroups ▸ hsound.groups.2)
      refine ⟨x,hx,hunlocked.derived (hgroups ▸ hsound.groups.1) hx,?_⟩
      rw [← hpend]
      unfold HasPending
      rw [(computeDerivedState_same hx).1]
    · exact ⟨_,rfl,hunlocked,hpend⟩
  refine ⟨{ k with xkbi := x },congrArg (Option.map _) hx,?_⟩
  have hcharged := (hsound.clearAll hx).charged
  have hnone : ¬x.HasPending ↔ k.xkbi.state.latchedMods ≠ 0 ∨ ¬k.xkbi.HasPending := by
    rw [hxpend]
    exact not_and_or
  rw [← hnone]
  constructor
  · exact fun hc => hc.unlatched.pending
  · exact fun hp => ⟨hcharged.unlatched hp,hxun,rfl⟩

lemma idleKeyboard_fresh : idleKeyboard.Fresh := ⟨idleKeyboard_unused,by decide⟩

lemma LockReach.request (req : LatchLockReq) (p : XkbSrvInfo → Bool)
    (h : (idleKeyboard.xkbi.latchLockState req).any p = true) :
    ∃ x, LockReach { idleKeyboard with xkbi := x } ∧ p x = true := by
  obtain ⟨x,hx,hp⟩ := (Option.any_eq_true ..).1 h
  exact ⟨x,.latchLockState (.start idleKeyboard_fresh) hx,hp⟩

theorem clearAll_cleared_iff_latched : ∃ k k' : Keyboard, k.xkbi.state.latchedMods = 1 ∧ k.clearAll true = some k' ∧
    (k.Cleared k' ↔ k.xkbi.state.latchedMods ≠ 0 ∨ ¬k.xkbi.HasPending) := by
  obtain ⟨x,hreach,hmods⟩ := LockReach.request { affectModLatches := 1, modLatches := 1 }
    (fun x => x.state.latchedMods = 1) (by decide +kernel)
  obtain ⟨k',hk',hiff⟩ := clearAll_cleared_iff hreach true
  exact ⟨_,k',of_decide_eq_true hmods,hk',hiff⟩

/-- The group stays latched if no modifier is. -/
theorem latched_group_stays : ¬∀ k : Keyboard, k.LockReach → ∀ genEv, ∃ k', k.clearAll genEv = some k' ∧ k.Cleared k' := by
  intro hall
  obtain ⟨x,hreach,hstays⟩ := LockReach.request { latchGroup := true, groupLatch := 1 }
    (fun x => (x.clearAll false).any fun y => y.state.latchedGroup = 1) (by decide +kernel)
  obtain ⟨y,hy,hgroup⟩ := (Option.any_eq_true ..).1 hstays
  obtain ⟨k',hk',hcleared⟩ := hall _ hreach false
  obtain ⟨z,hz,rfl⟩ := Option.map_eq_some_iff.1 hk'
  obtain rfl := Option.some.inj (hy.symm.trans hz)
  have hzero := hcleared.unlatched.latchedGroup
  rw [of_decide_eq_true hgroup] at hzero
  exact absurd hzero (by decide)

end Keyboard

end Xlibre.Xkb
