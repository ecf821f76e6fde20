import Xlibre.Xkb.VirtualMods

/-! Indicator maps, and the masks that say which indicators have to be looked at after a change of the keyboard's state. -/
namespace Xlibre.Xkb

/-- `XkbStateRec`, with everything that the core protocol is told. -/
structure XkbStateRec where
  group : BitVec 8 := 0
  baseGroup : BitVec 16 := 0
  latchedGroup : BitVec 16 := 0
  lockedGroup : BitVec 8 := 0
  mods : BitVec 8 := 0
  baseMods : BitVec 8 := 0
  latchedMods : BitVec 8 := 0
  lockedMods : BitVec 8 := 0
  compatState : BitVec 8 := 0
  grabMods : BitVec 8 := 0
  compatGrabMods : BitVec 8 := 0
  lookupMods : BitVec 8 := 0
  compatLookupMods : BitVec 8 := 0
  ptrButtons : BitVec 16 := 0

def xkbModifierStateMask : BitVec 32 := 1 <<< 0
def xkbModifierBaseMask : BitVec 32 := 1 <<< 1
def xkbModifierLatchMask : BitVec 32 := 1 <<< 2
def xkbModifierLockMask : BitVec 32 := 1 <<< 3
def xkbGroupStateMask : BitVec 32 := 1 <<< 4
def xkbGroupBaseMask : BitVec 32 := 1 <<< 5
def xkbGroupLatchMask : BitVec 32 := 1 <<< 6
def xkbGroupLockMask : BitVec 32 := 1 <<< 7
def xkbCompatStateMask : BitVec 32 := 1 <<< 8
def xkbGrabModsMask : BitVec 32 := 1 <<< 9
def xkbCompatGrabModsMask : BitVec 32 := 1 <<< 10
def xkbLookupModsMask : BitVec 32 := 1 <<< 11
def xkbCompatLookupModsMask : BitVec 32 := 1 <<< 12
def xkbPointerButtonMask : BitVec 32 := 1 <<< 13

/-- `XkbStateChangedFlags` -/
def stateChangedFlags (old new : XkbStateRec) : BitVec 32 :=
  (if old.group ≠ new.group then xkbGroupStateMask else 0) |||
  (if old.baseGroup ≠ new.baseGroup then xkbGroupBaseMask else 0) |||
  (if old.latchedGroup ≠ new.latchedGroup then xkbGroupLatchMask else 0) |||
  (if old.lockedGroup ≠ new.lockedGroup then xkbGroupLockMask else 0) |||
  (if old.mods ≠ new.mods then xkbModifierStateMask else 0) |||
  (if old.baseMods ≠ new.baseMods then xkbModifierBaseMask else 0) |||
  (if old.latchedMods ≠ new.latchedMods then xkbModifierLatchMask else 0) |||
  (if old.lockedMods ≠ new.lockedMods then xkbModifierLockMask else 0) |||
  (if old.compatState ≠ new.compatState then xkbCompatStateMask else 0) |||
  (if old.grabMods ≠ new.grabMods then xkbGrabModsMask else 0) |||
  (if old.compatGrabMods ≠ new.compatGrabMods then xkbCompatGrabModsMask else 0) |||
  (if old.lookupMods ≠ new.lookupMods then xkbLookupModsMask else 0) |||
  (if old.compatLookupMods ≠ new.compatLookupMods then xkbCompatLookupModsMask else 0) |||
  (if old.ptrButtons ≠ new.ptrButtons then xkbPointerButtonMask else 0)

def imUseBase : BitVec 8 := 1 <<< 0
def imUseLatched : BitVec 8 := 1 <<< 1
def imUseLocked : BitVec 8 := 1 <<< 2
def imUseEffective : BitVec 8 := 1 <<< 3
def imUseCompat : BitVec 8 := 1 <<< 4
def imUseAnyGroup : BitVec 8 := imUseBase ||| imUseLatched ||| imUseLocked ||| imUseEffective
def imUseAnyMods : BitVec 8 := imUseAnyGroup ||| imUseCompat
def imNoAutomatic : BitVec 8 := 1 <<< 6

/-- `XkbIndicatorMapRec` -/
structure IndicatorMap where
  flags : BitVec 8 := 0
  whichGroups : BitVec 8 := 0
  groups : BitVec 8 := 0
  whichMods : BitVec 8 := 0
  mods : XkbModsRec := {}
  ctrls : BitVec 32 := 0

namespace IndicatorMap
variable (map : IndicatorMap)

/-- `XkbIM_InUse` -/
def inUse : Prop := map.flags ≠ 0 ∨ map.whichGroups ≠ 0 ∨ map.whichMods ≠ 0 ∨ map.ctrls ≠ 0

instance : Decidable map.inUse := inferInstanceAs (Decidable (_ ∨ _))

def what : BitVec 8 := map.whichMods ||| map.whichGroups

/-- The modifiers that the map is about. -/
def stateMods (s : XkbStateRec) : BitVec 8 :=
  (if map.whichMods &&& imUseBase ≠ 0 then s.baseMods else 0) |||
  (if map.whichMods &&& imUseLatched ≠ 0 then s.latchedMods else 0) |||
  (if map.whichMods &&& imUseLocked ≠ 0 then s.lockedMods else 0) |||
  (if map.whichMods &&& imUseEffective ≠ 0 then s.mods else 0) |||
  (if map.whichMods &&& imUseCompat ≠ 0 then s.compatState else 0)

def stateGroups (s : XkbStateRec) : BitVec 8 :=
  (if map.whichGroups &&& imUseBase ≠ 0 then (1 : BitVec 8) <<< s.baseGroup.toNat else 0) |||
  (if map.whichGroups &&& imUseLatched ≠ 0 then (1 : BitVec 8) <<< s.latchedGroup.toNat else 0) |||
  (if map.whichGroups &&& imUseLocked ≠ 0 then (1 : BitVec 8) <<< s.lockedGroup.toNat else 0) |||
  (if map.whichGroups &&& imUseEffective ≠ 0 then (1 : BitVec 8) <<< s.group.toNat else 0)

def computeAutoState (s : XkbStateRec) (enabledCtrls : BitVec 32) : Bool :=
  let mods := map.stateMods s
  let group := map.stateGroups s
  decide (map.whichMods &&& imUseAnyMods ≠ 0 ∧
    (map.mods.mask &&& mods ≠ 0 ∨ mods = 0 ∧ map.mods.mask = 0 ∧ map.mods.vmods = 0)) ||
  decide (map.whichGroups &&& imUseAnyGroup ≠ 0 ∧ (map.groups &&& group ≠ 0 ∨ map.groups = 0)) ||
  decide (map.ctrls ≠ 0 ∧ enabledCtrls &&& map.ctrls ≠ 0)

/-- The indicator follows the state by itself, and is on. -/
def autoOn (s : XkbStateRec) (enabledCtrls : BitVec 32) : Bool :=
  decide (map.flags &&& imNoAutomatic = 0) && map.computeAutoState s enabledCtrls

end IndicatorMap

def indicatorBit (i : Fin 32) : BitVec 32 := 1 <<< i.val

/-- `XkbSrvLedInfoRec`; the flag is `XkbSLI_HasOwnState`. -/
structure SrvLedInfo where
  hasOwnState : Bool
  autoState : BitVec 32 := 0
  explicitState : BitVec 32 := 0
  effectiveState : BitVec 32 := 0
  mapsPresent : BitVec 32 := 0
  maps : Fin 32 → IndicatorMap
  usesBase : BitVec 32 := 0
  usesLatched : BitVec 32 := 0
  usesLocked : BitVec 32 := 0
  usesEffective : BitVec 32 := 0
  usesCompat : BitVec 32 := 0
  usesControls : BitVec 32 := 0
  usedComponents : BitVec 32 := 0

namespace SrvLedInfo
variable (vmods : Fin 16 → BitVec 8) (sli : SrvLedInfo)

/-- The accelerators of one indicator. -/
def checkIndicatorMap (which : BitVec 32) (sli : SrvLedInfo) (i : Fin 32) : SrvLedInfo :=
  let map := sli.maps i
  let bit := indicatorBit i
  if which.getLsbD i = true ∧ map.inUse then
    { sli with
      mapsPresent := sli.mapsPresent ||| bit
      usesBase := if map.what &&& imUseBase ≠ 0 then sli.usesBase ||| bit else sli.usesBase
      usesLatched := if map.what &&& imUseLatched ≠ 0 then sli.usesLatched ||| bit else sli.usesLatched
      usesLocked := if map.what &&& imUseLocked ≠ 0 then sli.usesLocked ||| bit else sli.usesLocked
      usesEffective := if map.what &&& imUseEffective ≠ 0 then sli.usesEffective ||| bit else sli.usesEffective
      usesCompat := if map.what &&& imUseCompat ≠ 0 then sli.usesCompat ||| bit else sli.usesCompat
      usesControls := if map.ctrls ≠ 0 then sli.usesControls ||| bit else sli.usesControls
      maps := Function.update sli.maps i { map with mods := map.mods.refresh vmods } }
  else sli

/-- `XkbCheckIndicatorMaps` -/
def checkIndicatorMaps (which : BitVec 32) : SrvLedInfo :=
  if sli.hasOwnState then
    let cleared : SrvLedInfo := { sli with
      usesBase := sli.usesBase &&& ~~~which
      usesLatched := sli.usesLatched &&& ~~~which
      usesLocked := sli.usesLocked &&& ~~~which
      usesEffective := sli.usesEffective &&& ~~~which
      usesCompat := sli.usesCompat &&& ~~~which
      usesControls := sli.usesControls &&& ~~~which
      mapsPresent := sli.mapsPresent &&& ~~~which }
    let sli := (List.finRange 32).foldl (checkIndicatorMap vmods which) cleared
    { sli with usedComponents :=
      (if sli.usesBase ≠ 0 then xkbModifierBaseMask ||| xkbGroupBaseMask else 0) |||
      (if sli.usesLatched ≠ 0 then xkbModifierLatchMask ||| xkbGroupLatchMask else 0) |||
      (if sli.usesLocked ≠ 0 then xkbModifierLockMask ||| xkbGroupLockMask else 0) |||
      (if sli.usesEffective ≠ 0 then xkbModifierStateMask ||| xkbGroupStateMask else 0) |||
      (if sli.usesCompat ≠ 0 then xkbCompatStateMask else 0) }
  else sli

/-- `XkbIndicatorsToUpdate`, for the keyboard that has the indicators. -/
def indicatorsToUpdate (stateChanges : BitVec 32) (enableChanges : Bool) : BitVec 32 :=
  (if stateChanges &&& (xkbModifierStateMask ||| xkbGroupStateMask) ≠ 0 then sli.usesEffective else 0) |||
  (if stateChanges &&& (xkbModifierBaseMask ||| xkbGroupBaseMask) ≠ 0 then sli.usesBase else 0) |||
  (if stateChanges &&& (xkbModifierLatchMask ||| xkbGroupLatchMask) ≠ 0 then sli.usesLatched else 0) |||
  (if stateChanges &&& (xkbModifierLockMask ||| xkbGroupLockMask) ≠ 0 then sli.usesLocked else 0) |||
  (if stateChanges &&& xkbCompatStateMask ≠ 0 then sli.usesCompat else 0) |||
  (if enableChanges then sli.usesControls else 0)

/-- `XkbUpdateLedAutoState`, without the events. -/
def updateLedAutoState (s : XkbStateRec) (enabledCtrls mapsToCheck : BitVec 32) : SrvLedInfo :=
  if mapsToCheck = 0 ∨ sli.mapsPresent = 0 then sli
  else
    let autoState := (List.finRange 32).foldl (fun autoState (i : Fin 32) =>
      if mapsToCheck.getLsbD i && (sli.maps i).autoOn s enabledCtrls then autoState ||| indicatorBit i else autoState)
      (sli.autoState &&& ~~~mapsToCheck)
    { sli with autoState, effectiveState := autoState ||| sli.explicitState }

/-- `XkbUpdateIndicators`; the indicators of all devices can be updated afterwards, which are those of this one again. -/
def updateIndicators (s : XkbStateRec) (enabledCtrls update : BitVec 32) (checkEdevs : Bool) : SrvLedInfo :=
  let sli := sli.updateLedAutoState s enabledCtrls update
  if checkEdevs then sli.updateLedAutoState s enabledCtrls sli.mapsPresent else sli

/-- The states that come one after the other, and whether all devices are checked then. -/
def run (enabledCtrls : BitVec 32) : SrvLedInfo → XkbStateRec → List (XkbStateRec × Bool) → SrvLedInfo × XkbStateRec
  | sli, s, [] => (sli,s)
  | sli, s, (s',checkEdevs)::later =>
    let update := sli.indicatorsToUpdate (stateChangedFlags s s') false
    run enabledCtrls (sli.updateIndicators s' enabledCtrls update checkEdevs) s' later

/-- The automatic indicators are as if all of them had been computed. -/
def UpToDate (s : XkbStateRec) (enabledCtrls : BitVec 32) : Prop :=
  ∀ i : Fin 32, sli.autoState.getLsbD i = (sli.maps i).autoOn s enabledCtrls

/-- The accelerators have an indicator wherever its map needs something. -/
structure Covers (i : Fin 32) : Prop where
  present : (sli.maps i).inUse → sli.mapsPresent.getLsbD i = true
  base : (sli.maps i).what &&& imUseBase ≠ 0 → sli.usesBase.getLsbD i = true
  latched : (sli.maps i).what &&& imUseLatched ≠ 0 → sli.usesLatched.getLsbD i = true
  locked : (sli.maps i).what &&& imUseLocked ≠ 0 → sli.usesLocked.getLsbD i = true
  effective : (sli.maps i).what &&& imUseEffective ≠ 0 → sli.usesEffective.getLsbD i = true
  compat : (sli.maps i).what &&& imUseCompat ≠ 0 → sli.usesCompat.getLsbD i = true

end SrvLedInfo

section Bits
variable {n : ℕ} {m m' : BitVec n} {k : ℕ} {p : Prop} [Decidable p]

lemma getLsbD_of_and_eq_zero (h : m &&& m' = 0) (hk : m'.getLsbD k = true) : m.getLsbD k = false := by
  have hbit : (m &&& m').getLsbD k = (0 : BitVec n).getLsbD k := by rw [h]
  rw [BitVec.getLsbD_and,hk,Bool.and_true] at hbit
  rw [hbit]
  exact BitVec.getLsbD_zero

lemma getLsbD_ite : (if p then m else 0).getLsbD k = (decide p && m.getLsbD k) := by
  split_ifs with hp
  · rw [decide_eq_true hp,Bool.true_and]
  · rw [decide_eq_false hp,Bool.false_and]
    exact BitVec.getLsbD_zero

lemma getLsbD_indicatorBit (i j : Fin 32) : (indicatorBit i).getLsbD j = decide (j = i) := by
  revert i j
  decide

lemma getLsbD_foldl_or (p : Fin 32 → Bool) (m : BitVec 32) (l : List (Fin 32)) (j : Fin 32) :
    (l.foldl (fun m i => if p i then m ||| indicatorBit i else m) m).getLsbD j = (m.getLsbD j || (decide (j ∈ l) && p j)) := by
  induction l generalizing m with
  | nil => simp only [List.foldl_nil,List.not_mem_nil,decide_false,Bool.false_and,Bool.or_false]
  | cons i l ih =>
    have hmem : decide (j ∈ i::l) = (decide (j = i) || decide (j ∈ l)) := by simp
    rw [List.foldl_cons,ih,hmem]
    obtain rfl | hne := eq_or_ne j i
    · cases hp : p j with
      | false => simp only [Bool.and_false,Bool.false_eq_true,if_false]
      | true => simp only [if_true,BitVec.getLsbD_or,getLsbD_indicatorBit,decide_true,Bool.or_true,Bool.true_or,Bool.and_true]
    · rw [decide_eq_false hne,Bool.false_or]
      congr 1
      split_ifs
      · rw [BitVec.getLsbD_or,getLsbD_indicatorBit,decide_eq_false hne,Bool.or_false]
      · rfl

end Bits

section Flags
variable {old new : XkbStateRec}

lemma stateChangedFlags_bits (old new : XkbStateRec) : (stateChangedFlags old new).getLsbD 0 = decide (old.mods ≠ new.mods) ∧
    (stateChangedFlags old new).getLsbD 1 = decide (old.baseMods ≠ new.baseMods) ∧
    (stateChangedFlags old new).getLsbD 2 = decide (old.latchedMods ≠ new.latchedMods) ∧
    (stateChangedFlags old new).getLsbD 3 = decide (old.lockedMods ≠ new.lockedMods) ∧
    (stateChangedFlags old new).getLsbD 4 = decide (old.group ≠ new.group) ∧
    (stateChangedFlags old new).getLsbD 5 = decide (old.baseGroup ≠ new.baseGroup) ∧
    (stateChangedFlags old new).getLsbD 6 = decide (old.latchedGroup ≠ new.latchedGroup) ∧
    (stateChangedFlags old new).getLsbD 7 = decide (old.lockedGroup ≠ new.lockedGroup) ∧
    (stateChangedFlags old new).getLsbD 8 = decide (old.compatState ≠ new.compatState) := by
  refine ⟨?_,?_,?_,?_,?_,?_,?_,?_,?_⟩ <;>
  · simp only [stateChangedFlags,BitVec.getLsbD_or,getLsbD_ite]
    simp [xkbModifierStateMask,xkbModifierBaseMask,xkbModifierLatchMask,xkbModifierLockMask,xkbGroupStateMask,xkbGroupBaseMask,
      xkbGroupLatchMask,xkbGroupLockMask,xkbCompatStateMask,xkbGrabModsMask,xkbCompatGrabModsMask,xkbLookupModsMask,
      xkbCompatLookupModsMask,xkbPointerButtonMask]

lemma same_base (h : stateChangedFlags old new &&& (xkbModifierBaseMask ||| xkbGroupBaseMask) = 0) :
    old.baseMods = new.baseMods ∧ old.baseGroup = new.baseGroup := by
  obtain ⟨-,hmods,-,-,-,hgroup,-⟩ := stateChangedFlags_bits old new
  rw [getLsbD_of_and_eq_zero h (by decide)] at hmods hgroup
  exact ⟨not_not.1 (of_decide_eq_false hmods.symm),not_not.1 (of_decide_eq_false hgroup.symm)⟩

lemma same_latched (h : stateChangedFlags old new &&& (xkbModifierLatchMask ||| xkbGroupLatchMask) = 0) :
    old.latchedMods = new.latchedMods ∧ old.latchedGroup = new.latchedGroup := by
  obtain ⟨-,-,hmods,-,-,-,hgroup,-⟩ := stateChangedFlags_bits old new
  rw [getLsbD_of_and_eq_zero h (by decide)] at hmods hgroup
  exact ⟨not_not.1 (of_decide_eq_false hmods.symm),not_not.1 (of_decide_eq_false hgroup.symm)⟩

lemma same_locked (h : stateChangedFlags old new &&& (xkbModifierLockMask ||| xkbGroupLockMask) = 0) :
    old.lockedMods = new.lockedMods ∧ old.lockedGroup = new.lockedGroup := by
  obtain ⟨-,-,-,hmods,-,-,-,hgroup,-⟩ := stateChangedFlags_bits old new
  rw [getLsbD_of_and_eq_zero h (by decide)] at hmods hgroup
  exact ⟨not_not.1 (of_decide_eq_false hmods.symm),not_not.1 (of_decide_eq_false hgroup.symm)⟩

lemma same_effective (h : stateChangedFlags old new &&& (xkbModifierStateMask ||| xkbGroupStateMask) = 0) :
    old.mods = new.mods ∧ old.group = new.group := by
  obtain ⟨hmods,-,-,-,hgroup,-⟩ := stateChangedFlags_bits old new
  rw [getLsbD_of_and_eq_zero h (by decide)] at hmods hgroup
  exact ⟨not_not.1 (of_decide_eq_false hmods.symm),not_not.1 (of_decide_eq_false hgroup.symm)⟩

lemma same_compat (h : stateChangedFlags old new &&& xkbCompatStateMask = 0) : old.compatState = new.compatState := by
  obtain ⟨-,-,-,-,-,-,-,-,hcompat⟩ := stateChangedFlags_bits old new
  rw [getLsbD_of_and_eq_zero h (by decide)] at hcompat
  exact not_not.1 (of_decide_eq_false hcompat.symm)

end Flags

namespace SrvLedInfo
variable {vmods : Fin 16 → BitVec 8} {sli sli' : SrvLedInfo} {which ctrls : BitVec 32} {i j : Fin 32} {old new s : XkbStateRec}

lemma unused_or {flags mask uses : BitVec 32} {what use : BitVec 8} (hcovers : what &&& use ≠ 0 → uses.getLsbD i = true)
    (hnot : (if flags &&& mask ≠ 0 then uses else 0).getLsbD i = false) : what &&& use = 0 ∨ flags &&& mask = 0 := by
  by_contra hboth
  obtain ⟨hwhat,hflags⟩ := not_or.1 hboth
  rw [if_pos hflags,hcovers hwhat] at hnot
  cases hnot

lemma part_eq {w use a b : BitVec 8} (h : w &&& use = 0 ∨ a = b) :
    (if w &&& use ≠ 0 then a else 0) = if w &&& use ≠ 0 then b else 0 := by
  obtain h | rfl := h
  · rw [if_neg (not_not.2 h),if_neg (not_not.2 h)]
  · rfl

lemma what_eq_zero {map : IndicatorMap} {use : BitVec 8} (h : map.what &&& use = 0) :
    map.whichMods &&& use = 0 ∧ map.whichGroups &&& use = 0 := by
  unfold IndicatorMap.what at h
  rw [BitVec.and_or_distrib_right] at h
  exact BitVec.or_eq_zero_iff.1 h

lemma computeAutoState_eq (hcovers : sli.Covers i)
    (hnot : (sli.indicatorsToUpdate (stateChangedFlags old new) false).getLsbD i = false) :
    (sli.maps i).computeAutoState old ctrls = (sli.maps i).computeAutoState new ctrls := by
  unfold indicatorsToUpdate at hnot
  simp only [BitVec.getLsbD_or,Bool.or_eq_false_iff] at hnot
  obtain ⟨⟨⟨⟨⟨heffective,hbase⟩,hlatched⟩,hlocked⟩,hcompat⟩,-⟩ := hnot
  have hbase := (unused_or hcovers.base hbase).imp what_eq_zero same_base
  have hlatched := (unused_or hcovers.latched hlatched).imp what_eq_zero same_latched
  have hlocked := (unused_or hcovers.locked hlocked).imp what_eq_zero same_locked
  have heffective := (unused_or hcovers.effective heffective).imp what_eq_zero same_effective
  have hcompat := (unused_or hcovers.compat hcompat).imp what_eq_zero same_compat
  have hmods : (sli.maps i).stateMods old = (sli.maps i).stateMods new := by
    unfold IndicatorMap.stateMods
    rw [part_eq (hbase.imp And.left And.left),part_eq (hlatched.imp And.left And.left),part_eq (hlocked.imp And.left And.left),
      part_eq (heffective.imp And.left And.left),part_eq (hcompat.imp_left And.left)]
  have hgroups : (sli.maps i).stateGroups old = (sli.maps i).stateGroups new := by
    unfold IndicatorMap.stateGroups
    rw [part_eq (hbase.imp And.right fun h => by rw [h.2]),part_eq (hlatched.imp And.right fun h => by rw [h.2]),
      part_eq (hlocked.imp And.right fun h => by rw [h.2]),part_eq (heffective.imp And.right fun h => by rw [h.2])]
  unfold IndicatorMap.computeAutoState
  rw [hmods,hgroups]

lemma covers_own (hwhich : which.getLsbD i = true) : (checkIndicatorMap vmods which sli i).Covers i := by
  unfold checkIndicatorMap
  dsimp only
  by_cases huse : which.getLsbD i = true ∧ (sli.maps i).inUse
  · rw [if_pos huse]
    have hbit : ∀ m : BitVec 32, (m ||| indicatorBit i).getLsbD i = true := by
      intro m
      rw [BitVec.getLsbD_or,getLsbD_indicatorBit,decide_eq_true rfl,Bool.or_true]
    have hown : ∀ {m : BitVec 32} {p : Prop} [Decidable p], p → (if p then m ||| indicatorBit i else m).getLsbD i = true := by
      intro m p _ hp
      rw [if_pos hp]
      exact hbit m
    constructor <;> dsimp only <;> rw [Function.update_self]
    · exact fun _ => hbit _
    all_goals exact hown
  · rw [if_neg huse]
    have hnot : ¬ (sli.maps i).inUse := fun h => huse ⟨hwhich,h⟩
    unfold IndicatorMap.inUse at hnot
    obtain ⟨hflags,hgroups,hmods,hctrls⟩ : (sli.maps i).flags = 0 ∧ (sli.maps i).whichGroups = 0 ∧ (sli.maps i).whichMods = 0 ∧
        (sli.maps i).ctrls = 0 := by simpa using hnot
    have hwhat : ∀ use, (sli.maps i).what &&& use = 0 := by
      intro use
      unfold IndicatorMap.what
      rw [hgroups,hmods]
      exact BitVec.zero_and
    constructor
    · exact fun h => absurd h hnot
    all_goals exact fun h => absurd (hwhat _) h

lemma covers_step (h : sli.Covers i) : (checkIndicatorMap vmods which sli j).Covers i := by
  unfold checkIndicatorMap
  dsimp only
  by_cases huse : which.getLsbD j = true ∧ (sli.maps j).inUse
  · rw [if_pos huse]
    have hmap : ∀ map : IndicatorMap, (map = sli.maps i ∨ map = { sli.maps i with mods := (sli.maps i).mods.refresh vmods }) →
        (map.inUse ↔ (sli.maps i).inUse) ∧ map.what = (sli.maps i).what := by
      rintro map (rfl | rfl) <;> exact ⟨Iff.rfl,rfl⟩
    have hsame := hmap (Function.update sli.maps j { sli.maps j with mods := (sli.maps j).mods.refresh vmods } i) (by
      obtain rfl | hne := eq_or_ne i j
      · exact .inr (Function.update_self _ _ _)
      · exact .inl (Function.update_of_ne hne _ _))
    have hbit : ∀ {m : BitVec 32}, m.getLsbD i = true → (m ||| indicatorBit j).getLsbD i = true := by
      intro m hm
      rw [BitVec.getLsbD_or,hm,Bool.true_or]
    have hkept : ∀ {m : BitVec 32} {p : Prop} [Decidable p], m.getLsbD i = true →
        (if p then m ||| indicatorBit j else m).getLsbD i = true := by
      intro m p _ hm
      split_ifs
      · exact hbit hm
      · exact hm
    constructor <;> dsimp only
    · exact fun hm => hbit (h.present (hsame.1.1 hm))
    all_goals rw [hsame.2]
    · exact fun hm => hkept (h.base hm)
    · exact fun hm => hkept (h.latched hm)
    · exact fun hm => hkept (h.locked hm)
    · exact fun hm => hkept (h.effective hm)
    · exact fun hm => hkept (h.compat hm)
  · rw [if_neg huse]
    exact h

lemma covers_foldl (vmods : Fin 16 → BitVec 8) (sli : SrvLedInfo) {l : List (Fin 32)} (hi : i ∈ l ∨ sli.Covers i) (hwhich : which.getLsbD i = true) :
    (l.foldl (checkIndicatorMap vmods which) sli).Covers i := by
  induction l generalizing sli with
  | nil => exact hi.resolve_left List.not_mem_nil
  | cons j l ih =>
    apply ih
    obtain hmem | hcovers := hi
    · obtain rfl | hmem := List.mem_cons.1 hmem
      · exact .inr (covers_own hwhich)
      · exact .inl hmem
    · exact .inr (covers_step hcovers)

lemma checkIndicatorMaps_covers (hown : sli.hasOwnState = true) (hwhich : which.getLsbD i = true) :
    (sli.checkIndicatorMaps vmods which).Covers i := by
  unfold checkIndicatorMaps
  rw [if_pos hown]
  obtain ⟨hpresent,hbase,hlatched,hlocked,heffective,hcompat⟩ := covers_foldl vmods { sli with
      usesBase := sli.usesBase &&& ~~~which
      usesLatched := sli.usesLatched &&& ~~~which
      usesLocked := sli.usesLocked &&& ~~~which
      usesEffective := sli.usesEffective &&& ~~~which
      usesCompat := sli.usesCompat &&& ~~~which
      usesControls := sli.usesControls &&& ~~~which
      mapsPresent := sli.mapsPresent &&& ~~~which } (.inl (List.mem_finRange i)) hwhich
  exact ⟨hpresent,hbase,hlatched,hlocked,heffective,hcompat⟩

lemma updateLedAutoState_covers {mapsToCheck : BitVec 32} (h : sli.Covers i) :
    (sli.updateLedAutoState s ctrls mapsToCheck).Covers i := by
  unfold updateLedAutoState
  split_ifs
  · exact h
  · exact ⟨h.present,h.base,h.latched,h.locked,h.effective,h.compat⟩

lemma autoOn_of_not_inUse {map : IndicatorMap} (h : ¬ map.inUse) : map.autoOn s ctrls = false := by
  obtain ⟨hflags,hgroups,hmods,hctrls⟩ : map.flags = 0 ∧ map.whichGroups = 0 ∧ map.whichMods = 0 ∧ map.ctrls = 0 := by
    simpa [IndicatorMap.inUse] using h
  unfold IndicatorMap.autoOn IndicatorMap.computeAutoState
  have hzero : ∀ m : BitVec 8, 0 &&& m = 0 := fun m => BitVec.zero_and
  rw [hgroups,hmods,hctrls,hzero,hzero]
  simp

lemma UpToDate.update (hcovers : ∀ i, sli.Covers i) {mapsToCheck : BitVec 32} (h : sli.UpToDate old ctrls)
    (hsame : ∀ i : Fin 32, mapsToCheck.getLsbD i = false → (sli.maps i).autoOn old ctrls = (sli.maps i).autoOn new ctrls) :
    (sli.updateLedAutoState new ctrls mapsToCheck).UpToDate new ctrls := by
  unfold updateLedAutoState
  split_ifs with hnone
  · intro i
    rw [h i]
    obtain rfl | hpresent := hnone
    · exact hsame i BitVec.getLsbD_zero
    · have hunused : ¬ (sli.maps i).inUse := by
        intro huse
        have hbit := (hcovers i).present huse
        rw [hpresent] at hbit
        exact absurd hbit (by simp)
      rw [autoOn_of_not_inUse hunused,autoOn_of_not_inUse hunused]
  · intro i
    dsimp only
    rw [getLsbD_foldl_or (fun i => mapsToCheck.getLsbD i && (sli.maps i).autoOn new ctrls),BitVec.getLsbD_and,BitVec.getLsbD_not,
      decide_eq_true i.isLt,Bool.true_and,decide_eq_true (List.mem_finRange i),Bool.true_and]
    cases hbit : mapsToCheck.getLsbD i with
    | false =>
      rw [Bool.not_false,Bool.and_true,Bool.false_and,Bool.or_false,h i]
      exact hsame i hbit
    | true => rw [Bool.not_true,Bool.and_false,Bool.false_or,Bool.true_and]

lemma UpToDate.step (hcovers : ∀ i, sli.Covers i) (h : sli.UpToDate old ctrls) (checkEdevs : Bool) :
    (sli.updateIndicators new ctrls (sli.indicatorsToUpdate (stateChangedFlags old new) false) checkEdevs).UpToDate new ctrls := by
  have hfirst : (sli.updateLedAutoState new ctrls (sli.indicatorsToUpdate (stateChangedFlags old new) false)).UpToDate new ctrls := by
    apply h.update hcovers
    intro i hnot
    unfold IndicatorMap.autoOn
    rw [computeAutoState_eq (hcovers i) hnot]
  unfold updateIndicators
  dsimp only
  split_ifs
  · exact hfirst.update (fun i => updateLedAutoState_covers (hcovers i)) fun _ _ => rfl
  · exact hfirst

lemma UpToDate.run (hcovers : ∀ i, sli.Covers i) (h : sli.UpToDate s ctrls) (later : List (XkbStateRec × Bool)) :
    (run ctrls sli s later).1.UpToDate (run ctrls sli s later).2 ctrls := by
  induction later generalizing sli s with
  | nil => exact h
  | cons next later ih =>
    obtain ⟨s',checkEdevs⟩ := next
    refine ih (fun i => ?_) (h.step hcovers checkEdevs)
    unfold updateIndicators
    dsimp only
    split_ifs
    · exact updateLedAutoState_covers (updateLedAutoState_covers (hcovers i))
    · exact updateLedAutoState_covers (hcovers i)

/-- An indicator that changes by itself is always among those to be updated, so that along all changes of the state the
automatic indicators are as if each had been computed again. -/
theorem indicatorsToUpdate_complete (vmods : Fin 16 → BitVec 8) (sli : SrvLedInfo) (hown : sli.hasOwnState = true)
    (ctrls : BitVec 32) : (∀ old new (i : Fin 32),
      ((sli.checkIndicatorMaps vmods (BitVec.allOnes 32)).maps i).computeAutoState old ctrls ≠
        ((sli.checkIndicatorMaps vmods (BitVec.allOnes 32)).maps i).computeAutoState new ctrls →
      ((sli.checkIndicatorMaps vmods (BitVec.allOnes 32)).indicatorsToUpdate (stateChangedFlags old new) false).getLsbD i = true) ∧
    ∀ s later, (sli.checkIndicatorMaps vmods (BitVec.allOnes 32)).UpToDate s ctrls →
      (run ctrls (sli.checkIndicatorMaps vmods (BitVec.allOnes 32)) s later).1.UpToDate
        (run ctrls (sli.checkIndicatorMaps vmods (BitVec.allOnes 32)) s later).2 ctrls := by
  have hcovers : ∀ i, (sli.checkIndicatorMaps vmods (BitVec.allOnes 32)).Covers i := by
    intro i
    apply checkIndicatorMaps_covers hown
    rw [BitVec.getLsbD_allOnes]
    exact decide_eq_true i.isLt
  constructor
  · intro old new i hne
    by_contra hnot
    exact hne (computeAutoState_eq (hcovers i) (eq_false_of_ne_true hnot))
  · intro s later h
    exact h.run hcovers later

def capsIndicator : SrvLedInfo where
  hasOwnState := true
  maps i := if i = 0 then { whichMods := imUseLocked, mods := { realMods := 2 } } else {}

/-- The lock goes on. -/
theorem indicatorsToUpdate_complete_caps : ((capsIndicator.checkIndicatorMaps (fun _ => 0)
    (BitVec.allOnes 32)).indicatorsToUpdate (stateChangedFlags {} { lockedMods := 2 }) false).getLsbD 0 = true :=
  (indicatorsToUpdate_complete (fun _ => 0) capsIndicator rfl 0).1 {} { lockedMods := 2 } 0 (by decide +kernel)

end SrvLedInfo

end Xlibre.Xkb
