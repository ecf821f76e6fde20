import Xlibre.Xkb.LatchPass
import Xlibre.Xkb.Course

/-! Latches can be broken: over all events and requests, what is latched is in the charge of a pending filter. -/
namespace Xlibre.Xkb

open XkbFilter XkbSrvInfo

section Free
variable {xkbi x : XkbSrvInfo} {i : ℕ}

lemma Freed.kept (h : Freed xkbi x i) {j : ℕ} {f : XkbFilter} (hf : xkbi.filters[j]? = some f) (hact : f.active = true) :
    j ≠ i ∧ x.filters[j]? = some f := by
  have hj : j ≠ i := by
    rintro rfl
    simp [h.before f hf] at hact
  refine ⟨hj,?_⟩
  rcases h.others j hj with hsame | ⟨hnone,-⟩
  · rw [hsame,hf]
  · simp [hf] at hnone

lemma Freed.charged (h : Freed xkbi x i) (hc : xkbi.Charged) : x.Charged := by
  refine ⟨fun j f hf hact => ?_,fun j f hf hact => ?_,fun hl => ?_⟩
  · exact hc.keycodes j f (h.active hf hact).2 hact
  · exact hc.synthetic j f (h.active hf hact).2 hact
  · have hstate : x.state = xkbi.state := by rw [h.same]
    have hl' : xkbi.Latched := by
      unfold Latched at hl ⊢
      rwa [hstate] at hl
    obtain ⟨j,f,hf,hact,hp⟩ := hc.latched hl'
    exact ⟨j,f,(h.kept hf hact).2,hact,hp⟩

end Free

/-- The press of a filter in a free slot. -/
structure Fresh (xkbi : XkbSrvInfo) (f : XkbFilter) (key : ℕ) (r : Filtered) : Prop where
  filters : r.xkbi.filters = xkbi.filters
  latchedMods : r.xkbi.state.latchedMods = xkbi.state.latchedMods
  latchedGroup : r.xkbi.state.latchedGroup = xkbi.state.latchedGroup
  slot : r.filter.active = false ∨ (r.filter.keycode = key % 2^16 ∧ r.filter.pending = false)

section Start
variable {xkbi : XkbSrvInfo} {f : XkbFilter} {key : ℕ} {act : XkbAction}

lemma fresh_start {y : XkbSrvInfo} {proc : FilterProc} {priv : BitVec 32} {a : XkbAction} {act' : Option XkbAction} {send : Bool}
    (hf : y.filters = xkbi.filters) (hm : y.state.latchedMods = xkbi.state.latchedMods)
    (hg : y.state.latchedGroup = xkbi.state.latchedGroup) (h : proc = .latchState → priv = latchKeyDown) :
    Fresh xkbi f key ⟨y,f.start proc key priv a,act',send⟩ := by
  refine ⟨hf,hm,hg,.inr ⟨rfl,?_⟩⟩
  by_cases hl : proc = .latchState
  · simp [start,pending,h hl,latchKeyDown,latchPending]
  · simp [start,pending,hl]

variable (xkbi f key act) in
lemma fresh_runFilter (clear : XkbSrvInfo → XkbSrvInfo) (proc : FilterProc) (h0 : f.keycode = 0) (hact : f.active = false) :
    Fresh xkbi f key (runFilter xkbi f key clear proc (some act)) := by
  cases proc with
  | setState =>
    simp only [runFilter,filterSetState,if_pos h0]
    split
    · exact fresh_start rfl rfl rfl (by simp)
    · exact fresh_start rfl rfl rfl (by simp)
  | latchState =>
    simp only [runFilter,filterLatchState,if_pos h0]
    split
    · exact fresh_start rfl rfl rfl (by simp)
    · exact fresh_start rfl rfl rfl (by simp)
  | lockState =>
    simp only [runFilter,filterLockState,if_pos h0]
    split
    · exact ⟨rfl,rfl,rfl,.inl hact⟩
    · exact fresh_start rfl rfl rfl (by simp)
  | isoLock =>
    simp only [runFilter,filterISOLock,if_pos h0]
    exact fresh_start rfl rfl rfl (by simp)
  | pointerMove =>
    simp only [runFilter,filterPointerMove,if_pos h0]
    exact fresh_start rfl rfl rfl (by simp)
  | pointerBtn =>
    simp only [runFilter,filterPointerBtn,if_pos h0]
    exact fresh_start rfl rfl rfl (by simp)
  | controls =>
    simp only [runFilter,filterControls,if_pos h0]
    exact fresh_start rfl rfl rfl (by simp)
  | actionMessage =>
    simp only [runFilter,filterActionMessage,h0,ne_eq,not_true_eq_false,false_and,if_false]
    split
    · exact ⟨rfl,rfl,rfl,.inl hact⟩
    · simp only [if_true]
      split
      · exact fresh_start rfl rfl rfl (by simp)
      · exact ⟨rfl,rfl,rfl,.inl hact⟩
  | redirectKey =>
    simp only [runFilter,filterRedirectKey,h0,ne_eq,not_true_eq_false,false_and,if_false]
    split
    · exact ⟨rfl,rfl,rfl,.inl hact⟩
    · simp only [if_true]
      split
      · exact ⟨rfl,rfl,rfl,.inl hact⟩
      · exact fresh_start rfl rfl rfl (by simp)
  | switchScreen =>
    simp only [runFilter,filterSwitchScreen,filterServer,if_pos h0]
    split
    · exact ⟨rfl,rfl,rfl,.inl hact⟩
    · exact fresh_start rfl rfl rfl (by simp)
  | xf86Private =>
    simp only [runFilter,filterXF86Private,filterServer,if_pos h0]
    split
    · exact ⟨rfl,rfl,rfl,.inl hact⟩
    · exact fresh_start rfl rfl rfl (by simp)
  | deviceBtn =>
    simp only [runFilter,filterDeviceBtn,if_pos h0]
    split
    · exact ⟨rfl,rfl,rfl,.inl hact⟩
    · split
      · exact ⟨rfl,rfl,rfl,.inl hact⟩
      · exact fresh_start rfl rfl rfl (by simp)

lemma charged_startFilter {proc : FilterProc} {setup : XkbFilter → XkbFilter} (h : xkbi.Charged) (hkey : 1 < key % 2^16)
    (hsetup : ∀ g, (setup g).keycode = g.keycode ∧ (setup g).active = g.active ∧ (setup g).filter = g.filter) :
    (xkbi.startFilter key proc act setup).1.Charged := by
  have hfree := nextFreeFilter_freed xkbi
  unfold startFilter
  generalize xkbi.nextFreeFilter = y at hfree ⊢
  obtain ⟨x,i⟩ := y
  obtain ⟨g,hg,hgact,hg0⟩ := hfree.free
  have hget : x.filters.getD i .zeroed = g := by rw [List.getD_eq_getElem?_getD,hg,Option.getD_some]
  simp only [hget]
  have hr := fresh_runFilter x (setup g) key act id proc (by rw [(hsetup g).1,hg0])
    (by rw [(hsetup g).2.1,hgact])
  refine (hfree.charged h).replace hg (congrArg (List.set · i _) hr.filters) (fun hact => ?_) fun hl => .inr ⟨?_,by simp [hgact]⟩
  · rcases hr.slot with hdead | ⟨hk,-⟩
    · rw [hdead] at hact
      cases hact
    · rw [hk]
      exact ⟨by omega,fun hs => by simp only [syntheticKeycode] at hs; omega⟩
  · rcases hl with hm | hl
    · exact .inl (by rw [← hr.latchedMods]; exact hm)
    · exact .inr (by rw [← hr.latchedGroup]; exact hl)

lemma charged_actionGetFilter (focus : Bool) (sourceid : BitVec 32) (h : xkbi.Charged) (hkey : 1 < key) (hlt : key < 2^8) :
    (xkbi.actionGetFilter focus sourceid key act).Charged := by
  have hmod : 1 < key % 2^8 % 2^16 := by
    rw [Nat.mod_eq_of_lt hlt,Nat.mod_eq_of_lt (by omega)]
    exact hkey
  unfold actionGetFilter
  split
  · exact h
  · split
    · exact h
    · exact charged_startFilter h hmod fun g => ⟨rfl,rfl,rfl⟩
    · exact charged_startFilter h hmod fun g => ⟨rfl,rfl,rfl⟩

end Start

section Requests
variable {xkbi : XkbSrvInfo}

def XkbSrvInfo.latchAtOnce (xkbi : XkbSrvInfo) (act : XkbAction) : XkbSrvInfo :=
  let (xkbi,i) := xkbi.nextFreeFilter
  let r := filterLatchState xkbi (xkbi.filters.getD i .zeroed) syntheticKeycode (some act)
  let r := filterLatchState r.xkbi r.filter syntheticKeycode none
  { r.xkbi with filters := r.xkbi.filters.set i r.filter }

variable (xkbi) in
lemma latch_press {f : XkbFilter} (act : XkbAction) (h0 : f.keycode = 0) :
    let r := filterLatchState xkbi f syntheticKeycode (some act)
    r.xkbi.filters = xkbi.filters ∧ r.xkbi.state = xkbi.state ∧ r.filter.active = true ∧
      r.filter.keycode = syntheticKeycode ∧ r.filter.filter = some .latchState ∧ r.filter.priv = latchKeyDown ∧
      r.filter.upAction.type = act.type ∧ (act.type = .latchMods → r.filter.upAction = act) ∧
      (act.type ≠ .latchMods → r.filter.upAction = saSetGroup act (xkbi.pressGroup act)) := by
  simp only [filterLatchState,if_pos h0,Option.getD_some]
  split
  · next ht => exact ⟨rfl,rfl,rfl,rfl,rfl,rfl,rfl,fun _ => rfl,fun h => absurd ht h⟩
  · next ht => exact ⟨rfl,rfl,rfl,rfl,rfl,rfl,rfl,fun h => absurd h ht,fun _ => rfl⟩

lemma XkbSrvInfo.latchAtOnce_slot (xkbi : XkbSrvInfo) (act : XkbAction) : ∃ (x : XkbSrvInfo) (i : ℕ) (g : XkbFilter), Freed xkbi x i ∧ x.filters[i]? = some g ∧
    g.active = false ∧ g.keycode = 0 ∧
      let r := filterLatchState x g syntheticKeycode (some act)
      let r' := filterLatchState r.xkbi r.filter syntheticKeycode none
      LatchTurn r.xkbi r.filter syntheticKeycode none r' ∧
        xkbi.latchAtOnce act = { r'.xkbi with filters := x.filters.set i r'.filter } := by
  have hfree := nextFreeFilter_freed xkbi
  obtain ⟨g,hg,hgact,hg0⟩ := hfree.free
  have hget : xkbi.nextFreeFilter.1.filters.getD xkbi.nextFreeFilter.2 .zeroed = g := by
    rw [List.getD_eq_getElem?_getD,hg,Option.getD_some]
  obtain ⟨hfil,-,hact,hkey,hproc,-⟩ := latch_press xkbi.nextFreeFilter.1 act hg0
  have ht := latchTurn (filterLatchState xkbi.nextFreeFilter.1 g syntheticKeycode (some act)).xkbi syntheticKeycode none hact
    (by rw [hkey]; decide) hproc
  refine ⟨_,_,g,hfree,hg,hgact,hg0,ht,?_⟩
  simp only [latchAtOnce,hget,ht.filters,hfil]

lemma charged_latchAtOnce (h : xkbi.Charged) (act : XkbAction) : (xkbi.latchAtOnce act).Charged := by
  obtain ⟨x,i,g,hfree,hg,hgact,hg0,ht,heq⟩ := xkbi.latchAtOnce_slot act
  rw [heq]
  obtain ⟨-,hstate,-,hkey,hproc,hpriv,-⟩ := latch_press x act hg0
  set r := filterLatchState x g syntheticKeycode (some act)
  have hnp : r.filter.pending = false := by
    simp only [pending,hproc,hpriv]
    decide
  refine (hfree.charged h).replace hg rfl (fun hga => ?_) fun hl => ?_
  · rw [ht.keycode,hkey]
    refine ⟨by decide,fun _ => ?_⟩
    rcases ht.own hnp hkey with hp | hdead
    · exact hp
    · simp [hga] at hdead
  · rcases ht.outcome with ⟨hp,-⟩ | ⟨hp,-⟩ | ⟨-,-,hp,ha⟩ | ⟨-,himp,-⟩
    · simp [hnp] at hp
    · simp [hnp] at hp
    · exact .inl ⟨ha,hp⟩
    · have hlat := himp hl
      unfold Latched at hlat
      rw [hstate] at hlat
      exact .inr ⟨hlat,by simp [hgact]⟩

lemma latchAtOnce_active {act : XkbAction} (hnone : (act.type = .latchMods ∧ act.mask = 0) ∨
      (act.type = .latchGroup ∧ act.group = 0 ∧ act.flags = 0)) {j : ℕ} {f : XkbFilter} (hact : f.active = true) :
    (xkbi.latchAtOnce act).filters[j]? = some f ↔ xkbi.filters[j]? = some f := by
  obtain ⟨x,i,g,hfree,hg,-,hg0,-,heq⟩ := xkbi.latchAtOnce_slot act
  rw [heq]
  obtain ⟨-,-,-,hkey,-,hpriv,htype,hmods,hgroup⟩ := latch_press x act hg0
  set r := filterLatchState x g syntheticKeycode (some act)
  have hdead : (filterLatchState r.xkbi r.filter syntheticKeycode none).filter.active = false := by
    have hk0 : r.filter.keycode ≠ 0 := by rw [hkey]; decide
    have hp : r.filter.priv ≠ latchPending := by rw [hpriv]; decide
    simp only [filterLatchState,if_neg hk0,Option.isSome_none,Bool.false_eq_true,false_and,if_false]
    rw [if_pos ⟨hkey,hp⟩,htype]
    rcases hnone with ⟨hm,hmask⟩ | ⟨hm,hzero,hflags⟩
    · simp [hm,releaseLatchMods,hmods hm,hmask,released]
    · have hne : act.type ≠ .latchMods := by simp [hm]
      have hup := hgroup hne
      have hpress : x.pressGroup act = 0 := by simp [pressGroup,hflags,has,saGroup,hzero]
      simp [hm,releaseLatchGroup,hup,hpress,saSetGroup,saGroup,hflags,has,released]
  rw [getElem?_set_slot hg]
  constructor
  · intro hj
    split at hj
    · obtain rfl := Option.some.inj hj
      rw [hdead] at hact
      cases hact
    · exact (hfree.active hj hact).2
  · intro hj
    obtain ⟨hne,hx⟩ := hfree.kept hj hact
    rw [if_neg hne,hx]

lemma latchAtOnce_keeps {act : XkbAction} {j : ℕ} {f : XkbFilter} (hf : xkbi.filters[j]? = some f) (hact : f.active = true) :
    (xkbi.latchAtOnce act).filters[j]? = some f := by
  obtain ⟨x,i,g,hfree,hg,-,-,-,heq⟩ := xkbi.latchAtOnce_slot act
  obtain ⟨hne,hx⟩ := hfree.kept hf hact
  rw [heq,getElem?_set_slot hg,if_neg hne,hx]

def XkbSrvInfo.breakFirst (xkbi : XkbSrvInfo) (mask latches : BitVec 8) : XkbSrvInfo :=
  let xkbi := { xkbi with state.latchedMods := xkbi.state.latchedMods &&& ~~~(mask &&& ~~~latches) }
  (xkbi.applyFilters id syntheticKeycode (some .zeroed)).xkbi

lemma latchModifiers_eq (mask latches : BitVec 8) :
    xkbi.latchModifiers mask latches = (xkbi.breakFirst mask latches).latchAtOnce { type := .latchMods, mask := mask &&& latches } :=
  rfl

lemma latchGroup_eq (group : BitVec 16) : xkbi.latchGroup group = xkbi.latchAtOnce (saSetGroup { type := .latchGroup } group) := rfl

lemma charged_fewer (h : xkbi.Charged) (mods : BitVec 8) :
    XkbSrvInfo.Charged { xkbi with state.latchedMods := xkbi.state.latchedMods &&& mods } := by
  refine h.of_same rfl fun hl => ?_
  rcases hl with hm | hg
  · refine .inl fun hzero => hm ?_
    simp [hzero]
  · exact .inr hg

lemma charged_breakFirst (h : xkbi.Charged) (mask latches : BitVec 8) : (xkbi.breakFirst mask latches).Charged :=
  charged_applyFilters clears_id (charged_fewer h _) _

lemma charged_latchModifiers (h : xkbi.Charged) (mask latches : BitVec 8) : (xkbi.latchModifiers mask latches).Charged := by
  rw [latchModifiers_eq]
  exact charged_latchAtOnce (charged_breakFirst h mask latches) _

lemma charged_latchGroup (h : xkbi.Charged) (group : BitVec 16) : (xkbi.latchGroup group).Charged := by
  rw [latchGroup_eq]
  exact charged_latchAtOnce h _

lemma XkbSrvInfo.Charged.notDown (h : xkbi.Charged) : xkbi.NotDown syntheticKeycode := by
  intro j f hf hact _ hnp hkey
  have := h.synthetic j f hf hact hkey
  simp [hnp] at this

lemma applyFilter_controls {p : XkbSrvInfo.Passed} (h : p.xkbi.Charged) (i : ℕ) {j : ℕ} {f : XkbFilter}
    (hf : p.xkbi.filters[j]? = some f) (hproc : f.filter = some .controls) :
    (XkbSrvInfo.applyFilter id syntheticKeycode p i).xkbi.filters[j]? = some f := by
  by_cases hidle : ∀ g, p.xkbi.filters[i]? = some g → g.filter = none ∨ g.active = false
  · rw [applyFilter_none hidle]
    exact hf
  · push Not at hidle
    obtain ⟨g,hg,hsome,hgact⟩ := hidle
    obtain ⟨proc,hgproc⟩ := Option.ne_none_iff_exists'.mp hsome
    have hgact : g.active = true := by simpa using hgact
    rw [applyFilter_active id hg hgact hgproc]
    have h0 := h.keycodes i g hg hgact
    by_cases hc : proc = .controls
    · subst hc
      have hkey : g.keycode ≠ syntheticKeycode := by
        intro hk
        have := h.synthetic i g hg hgact hk
        simp [not_pending_of_proc hgproc (by decide)] at this
      simp only [runFilter,filterControls,if_neg h0,if_neg hkey]
      rw [getElem?_set_slot hg]
      split
      · next hj => rw [← hg,← hj,hf]
      · exact hf
    · have hij : j ≠ i := by
        rintro rfl
        obtain rfl := Option.some.inj (hf.symm.trans hg)
        exact hc (Option.some.inj (hgproc.symm.trans hproc))
      have hfil : (runFilter p.xkbi g syntheticKeycode id proc p.action).xkbi.filters = p.xkbi.filters := by
        by_cases hl : proc = .latchState
        · subst hl
          exact (latchTurn p.xkbi syntheticKeycode p.action hgact h0 hgproc).filters
        · exact (aside_run p.xkbi syntheticKeycode p.action id h0 hl hc).filters
      show ((runFilter p.xkbi g syntheticKeycode id proc p.action).xkbi.filters.set i _)[j]? = some f
      rw [hfil,getElem?_set_slot hg,if_neg hij]
      exact hf

lemma applyFilters_controls (h : xkbi.Charged) (act : Option XkbAction) {j : ℕ} {f : XkbFilter}
    (hf : xkbi.filters[j]? = some f) (hproc : f.filter = some .controls) :
    (xkbi.applyFilters id syntheticKeycode act).xkbi.filters[j]? = some f := by
  unfold XkbSrvInfo.applyFilters
  generalize List.range xkbi.filters.length = l
  have hall : ∀ p : XkbSrvInfo.Passed, p.xkbi.Charged → p.xkbi.filters[j]? = some f →
      (l.foldl (XkbSrvInfo.applyFilter id syntheticKeycode) p).xkbi.filters[j]? = some f := by
    induction l with
    | nil => exact fun p _ hp => hp
    | cons i l ih =>
      exact fun p hc hp => ih _ (charged_applyFilter syntheticKeycode clears_id hc i) (applyFilter_controls hc i hp hproc)
  exact hall _ h hf

/-- The end of sticky keys in the middle of a pass. -/
theorem clears_clearAllLatchesAndLocks : Clears clearAllLatchesAndLocks := by
  have hgroup : (saSetGroup { type := .latchGroup } 0).type = .latchGroup ∧ (saSetGroup { type := .latchGroup } 0).group = 0 ∧
      (saSetGroup { type := .latchGroup } 0).flags = 0 := ⟨rfl,rfl,rfl⟩
  have hmods : BitVec.allOnes 8 &&& (0 : BitVec 8) = 0 := by decide
  -- The modifiers go first, then the group.
  have hfirst : ∀ x : XkbSrvInfo, x.Charged → (if x.state.latchedMods ≠ 0 then x.latchModifiers (BitVec.allOnes 8) 0 else x).Charged := by
    intro x hx
    split
    · exact charged_latchModifiers hx _ _
    · exact hx
  constructor
  · intro x hx
    refine XkbSrvInfo.Charged.of_same (x := if x.state.latchedGroup ≠ 0 then _ else _) ?_ rfl id
    split
    · exact charged_latchGroup (hfirst x hx) 0
    · exact hfirst x hx
  · intro x hx j f hf hact hproc
    have hmid : (if x.state.latchedMods ≠ 0 then x.latchModifiers (BitVec.allOnes 8) 0 else x).filters[j]? = some f := by
      split
      · rw [latchModifiers_eq]
        exact latchAtOnce_keeps (applyFilters_controls (charged_fewer hx _) _ hf hproc) hact
      · exact hf
    show (if x.state.latchedGroup ≠ 0 then _ else _ : XkbSrvInfo).filters[j]? = some f
    split
    · rw [latchGroup_eq]
      exact latchAtOnce_keeps hmid hact
    · exact hmid
  · intro x hx j f hf hact hproc
    have hmid : (if x.state.latchedMods ≠ 0 then x.latchModifiers (BitVec.allOnes 8) 0 else x).filters[j]? = some f := by
      change (if x.state.latchedGroup ≠ 0 then _ else _ : XkbSrvInfo).filters[j]? = some f at hf
      split at hf
      · rw [latchGroup_eq] at hf
        exact (latchAtOnce_active (.inr hgroup) hact).mp hf
      · exact hf
    split at hmid
    · rw [latchModifiers_eq] at hmid
      have hbroken := (latchAtOnce_active (.inl ⟨rfl,hmods⟩) hact).mp hmid
      have hc := charged_fewer hx (~~~(BitVec.allOnes 8 &&& ~~~0))
      have hpass := broken_applyFilters clears_id hc hc.notDown (rfl : breakLatch XkbAction.zeroed.type = true)
      exact hpass.latches j f hbroken hact hproc
    · exact hmid

end Requests

end Xlibre.Xkb
