import Xlibre.Xkb.SetMap
import Xlibre.Xkb.Course

/-! The effective group is legal as long as some key has a group, and it is the sum's remainder when the byte that the sum
is cut to has the same one. -/
namespace Xlibre.Xkb

open XkbSrvInfo

namespace XkbControls
variable {ctrls : XkbControls}

def Wraps (ctrls : XkbControls) : Prop := outOfRangeGroupAction ctrls.groupsWrap = wrapIntoRange

/-- A group in range, which is the remainder of what was asked for where groups are wrapped. -/
structure Brought (ctrls : XkbControls) (group : ℤ) (r : ℤ) : Prop where
  nonneg : 0 ≤ r
  lt : r < ctrls.numGroups
  wrapped : ctrls.Wraps → r = group % ctrls.numGroups

lemma redirectGroup_lt (h : 1 ≤ ctrls.numGroups) : ctrls.redirectGroup < ctrls.numGroups := by
  unfold redirectGroup
  dsimp only
  split <;> omega

lemma Wraps.not_clamp (h : ctrls.Wraps) : outOfRangeGroupAction ctrls.groupsWrap ≠ clampIntoRange := by
  rw [show outOfRangeGroupAction ctrls.groupsWrap = wrapIntoRange from h]
  decide

lemma Wraps.not_redirect (h : ctrls.Wraps) : outOfRangeGroupAction ctrls.groupsWrap ≠ redirectIntoRange := by
  rw [show outOfRangeGroupAction ctrls.groupsWrap = wrapIntoRange from h]
  decide

lemma brought_self {group : ℤ} (h0 : 0 ≤ group) (h : group < ctrls.numGroups) : ctrls.Brought group group :=
  ⟨h0,h,fun _ => (Int.emod_eq_of_lt h0 h).symm⟩

lemma raiseGroup_of_nonneg (rounds : ℕ) {group : ℤ} (h0 : 0 ≤ group) : ctrls.raiseGroup rounds group = some group := by
  cases rounds with
  | zero => simp [raiseGroup,not_lt.mpr h0]
  | succ rounds => simp [raiseGroup,not_lt.mpr h0]

lemma raiseGroup_brought (h : 1 ≤ ctrls.numGroups) (rounds : ℕ) {group : ℤ} (hlow : -(rounds : ℤ) ≤ group)
    (hlt : group < ctrls.numGroups) : ∃ r, ctrls.raiseGroup rounds group = some r ∧ ctrls.Brought group r := by
  induction rounds generalizing group with
  | zero => exact ⟨group,raiseGroup_of_nonneg 0 (by simpa using hlow),brought_self (by simpa using hlow) hlt⟩
  | succ rounds ih =>
    rcases lt_or_ge group 0 with hneg | h0
    · simp only [raiseGroup,if_pos hneg]
      split
      · next hclamp =>
        refine ⟨0,raiseGroup_of_nonneg rounds le_rfl,le_rfl,by omega,fun hw => absurd hclamp hw.not_clamp⟩
      · split
        · next hredirect =>
          have hto := redirectGroup_lt h
          exact ⟨_,raiseGroup_of_nonneg rounds (by omega),by omega,by omega,fun hw => absurd hredirect hw.not_redirect⟩
        · have hlow' : -(rounds : ℤ) ≤ group+ctrls.numGroups := by
            push_cast at hlow
            omega
          obtain ⟨r,hr,hb⟩ := ih hlow' (by omega)
          exact ⟨r,hr,hb.nonneg,hb.lt,fun hw => by rw [hb.wrapped hw,Int.add_emod_right]⟩
    · exact ⟨group,raiseGroup_of_nonneg _ h0,brought_self h0 hlt⟩

lemma adjustGroup_brought (h : 1 ≤ ctrls.numGroups) (group : ℤ) (hlow : -128 ≤ group) :
    ∃ r, ctrls.adjustGroup group = some r ∧ ctrls.Brought group r := by
  unfold adjustGroup
  dsimp only
  split
  · next hneg => exact raiseGroup_brought h 128 (by simpa using hlow) (by omega)
  · next h0 =>
    split
    · split
      · next hclamp => exact ⟨_,rfl,by omega,by omega,fun hw => absurd hclamp hw.not_clamp⟩
      · split
        · next hredirect =>
          have hto := redirectGroup_lt h
          exact ⟨_,rfl,by omega,by omega,fun hw => absurd hredirect hw.not_redirect⟩
        · rw [if_neg (by omega)]
          have hpos : (0 : ℤ) < ctrls.numGroups := by omega
          rw [Int.tmod_eq_emod_of_nonneg (by omega)]
          exact ⟨_,rfl,Int.emod_nonneg _ hpos.ne',Int.emod_lt_of_pos _ hpos,fun _ => rfl⟩
    · exact ⟨group,rfl,brought_self (by omega) (by omega)⟩

lemma legalGroup_brought (h : 1 ≤ ctrls.numGroups) (hmost : ctrls.numGroups ≤ xkbNumKbdGroups) (grp : BitVec 8) :
    ∃ r, ctrls.legalGroup grp = some r ∧ ctrls.Brought grp.toInt r.toNat := by
  have hlow := BitVec.le_toInt grp
  unfold xkbNumKbdGroups at hmost
  unfold legalGroup
  split
  · obtain ⟨r,hr,hb⟩ := adjustGroup_brought h grp.toInt (by simpa using hlow)
    have hnonneg := hb.nonneg
    have hlt := hb.lt
    have hr8 : ((BitVec.ofInt 8 r).toNat : ℤ) = r := by
      rw [BitVec.toNat_ofInt]
      omega
    exact ⟨_,by rw [hr]; rfl,by rw [hr8]; exact hb⟩
  · next hin =>
    refine ⟨grp,rfl,?_⟩
    have hint : grp.toInt = grp.toNat := by
      rw [BitVec.toInt_eq_toNat_of_lt]
      omega
    rw [hint]
    exact brought_self (by omega) (by omega)

end XkbControls

def XkbSrvInfo.groupSum (xkbi : XkbSrvInfo) : ℤ :=
  xkbi.state.lockedGroup.toNat + xkbi.state.baseGroup.toInt + xkbi.state.latchedGroup.toInt

def XkbSrvInfo.cutSum (xkbi : XkbSrvInfo) : ℤ := xkbi.groupSum.bmod 256

lemma toInt_sum (locked : BitVec 8) (base latched : BitVec 16) :
    (locked + (base+latched).setWidth 8).toInt = ((locked.toNat : ℤ) + base.toInt + latched.toInt).bmod 256 := by
  rw [BitVec.toInt_eq_toNat_bmod,BitVec.toNat_add,BitVec.toNat_setWidth,BitVec.toNat_add,BitVec.toInt_eq_toNat_cond,
    BitVec.toInt_eq_toNat_cond]
  have hcut : (((locked.toNat + (base.toNat+latched.toNat) % 2^16 % 2^8) % 2^8 : ℕ) : ℤ) % 256 =
      ((locked.toNat : ℤ) + (if 2*base.toNat < 2^16 then (base.toNat : ℤ) else base.toNat - ((2^16 : ℕ) : ℤ)) +
        (if 2*latched.toNat < 2^16 then (latched.toNat : ℤ) else latched.toNat - ((2^16 : ℕ) : ℤ))) % 256 := by
    split <;> split <;> omega
  calc _ = Int.bmod (((locked.toNat + (base.toNat+latched.toNat) % 2^16 % 2^8) % 2^8 : ℕ) % 256) 256 :=
        (Int.emod_bmod _ 256).symm
    _ = _ := by
        rw [hcut]
        exact Int.emod_bmod _ 256

structure XkbSrvInfo.Derives (xkbi x : XkbSrvInfo) : Prop where
  ctrls : x.ctrls = xkbi.ctrls
  group : x.state.group.toNat < xkbi.ctrls.numGroups
  lockedGroup : x.state.lockedGroup.toNat < xkbi.ctrls.numGroups
  compat : ∃ g, x.compatGroup = some g ∧ g.toNat < xkbi.ctrls.numGroups
  wrapped : xkbi.ctrls.Wraps → (x.state.group.toNat : ℤ) = x.cutSum % xkbi.ctrls.numGroups

lemma derives_computeDerivedState (xkbi : XkbSrvInfo) (h : 1 ≤ xkbi.ctrls.numGroups)
    (hmost : xkbi.ctrls.numGroups ≤ xkbNumKbdGroups) :
    ∃ x, xkbi.computeDerivedState = some x ∧ xkbi.Derives x := by
  obtain ⟨locked,hlocked,hlb⟩ := XkbControls.legalGroup_brought h hmost xkbi.state.lockedGroup
  obtain ⟨group,hgroup,hgb⟩ := XkbControls.legalGroup_brought h hmost
    (locked + (xkbi.state.baseGroup + xkbi.state.latchedGroup).setWidth 8)
  obtain ⟨compat,hcompat,hcb⟩ := XkbControls.legalGroup_brought h hmost
    ((xkbi.state.baseGroup + xkbi.state.latchedGroup).setWidth 8)
  refine ⟨{ xkbi with state.lockedGroup := locked, state.group := group },?_,rfl,?_,?_,?_,fun hw => ?_⟩
  · simp only [computeDerivedState,hlocked,hgroup]
  · exact Int.ofNat_lt.mp hgb.lt
  · exact Int.ofNat_lt.mp hlb.lt
  · unfold compatGroup
    split
    · exact ⟨compat,hcompat,Int.ofNat_lt.mp hcb.lt⟩
    · exact ⟨group,rfl,Int.ofNat_lt.mp hgb.lt⟩
  · rw [hgb.wrapped hw,toInt_sum]
    rfl

/-- The number of groups stays the same. -/
def Regroups (change : XkbSrvInfo → XkbSrvInfo) : Prop := ∀ x, (change x).ctrls.numGroups = x.ctrls.numGroups

section NumGroups
variable {clear : XkbSrvInfo → XkbSrvInfo}

lemma numGroups_runFilter (hclear : Regroups clear) (xkbi : XkbSrvInfo) (f : XkbFilter) (kc : ℕ) (proc : FilterProc)
    (act : Option XkbAction) : (runFilter xkbi f kc clear proc act).xkbi.ctrls.numGroups = xkbi.ctrls.numGroups := by
  cases proc
  case controls =>
    simp only [runFilter,filterControls]
    split
    · rfl
    · split
      · dsimp only
        split
        · exact hclear _
        · rfl
      · rfl
  all_goals
    simp only [runFilter,filterSetState,filterLatchState,releaseLatchMods,releaseLatchGroup,filterLockState,filterISOLock,
      filterPointerMove,filterPointerBtn,filterActionMessage,filterRedirectKey,filterSwitchScreen,filterXF86Private,
      filterServer,filterDeviceBtn]
    repeat' split
    all_goals rfl

lemma numGroups_applyFilter (hclear : Regroups clear) (kc : ℕ) (p : XkbSrvInfo.Passed) (i : ℕ) :
    (applyFilter clear kc p i).xkbi.ctrls.numGroups = p.xkbi.ctrls.numGroups := by
  unfold applyFilter
  split
  · rfl
  · split
    · exact numGroups_runFilter hclear _ _ _ _ _
    · rfl

lemma numGroups_applyFilters (hclear : Regroups clear) (xkbi : XkbSrvInfo) (kc : ℕ) (act : Option XkbAction) :
    (xkbi.applyFilters clear kc act).xkbi.ctrls.numGroups = xkbi.ctrls.numGroups := by
  unfold applyFilters
  have hall : ∀ (l : List ℕ) (p : XkbSrvInfo.Passed),
      (l.foldl (applyFilter clear kc) p).xkbi.ctrls.numGroups = p.xkbi.ctrls.numGroups := by
    intro l
    induction l with
    | nil => exact fun p => rfl
    | cons i l ih => exact fun p => (ih _).trans (numGroups_applyFilter hclear kc p i)
  exact hall _ _

lemma numGroups_filterLatchState (xkbi : XkbSrvInfo) (f : XkbFilter) (kc : ℕ) (act : Option XkbAction) :
    (filterLatchState xkbi f kc act).xkbi.ctrls.numGroups = xkbi.ctrls.numGroups := by
  have hid : Regroups id := fun _ => rfl
  exact numGroups_runFilter hid xkbi f kc .latchState act

lemma regroups_latchModifiers (mask latches : BitVec 8) : Regroups fun x => x.latchModifiers mask latches := by
  intro x
  have hid : Regroups id := fun _ => rfl
  simp only [latchModifiers,numGroups_filterLatchState]
  exact numGroups_applyFilters hid _ _ _

lemma regroups_latchGroup (group : BitVec 16) : Regroups fun x => x.latchGroup group := by
  intro x
  simp only [latchGroup,numGroups_filterLatchState]
  rfl

lemma regroups_clearAllLatchesAndLocks : Regroups clearAllLatchesAndLocks := by
  intro x
  unfold clearAllLatchesAndLocks
  dsimp only
  split
  · split
    · exact (regroups_latchGroup 0 _).trans (regroups_latchModifiers _ _ x)
    · exact regroups_latchGroup 0 x
  · split
    · exact regroups_latchModifiers _ _ x
    · rfl

lemma numGroups_actionGetFilter (xkbi : XkbSrvInfo) (focus : Bool) (sourceid : BitVec 32) (key : ℕ) (act : XkbAction) :
    (xkbi.actionGetFilter focus sourceid key act).ctrls.numGroups = xkbi.ctrls.numGroups := by
  unfold actionGetFilter
  split
  · rfl
  · split
    · rfl
    · exact numGroups_runFilter (fun _ => rfl) _ _ _ _ _
    · exact numGroups_runFilter (fun _ => rfl) _ _ _ _ _

lemma numGroups_filterEvent (k : Keyboard) (e : Event) :
    (k.filterEvent e).ctrls.numGroups = k.xkbi.ctrls.numGroups := by
  have hpass : (k.passed e).xkbi.ctrls.numGroups = k.xkbi.ctrls.numGroups :=
    numGroups_applyFilters regroups_clearAllLatchesAndLocks _ _ _
  cases e with
  | release input => exact hpass
  | press p =>
    simp only [Keyboard.filterEvent]
    split
    · exact (numGroups_actionGetFilter _ _ _ _ _).trans hpass
    · exact hpass

end NumGroups

end Xlibre.Xkb
