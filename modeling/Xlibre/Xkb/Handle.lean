import Xlibre.Xkb.Actions

/-! Key and button events, and latches made by requests, as they go through the filters of a keyboard. -/
namespace Xlibre.Xkb

def syntheticKeycode : ℕ := 1
def btnActFlag : ℕ := 0x100

namespace XkbSrvInfo

structure Passed where
  xkbi : XkbSrvInfo
  action : Option XkbAction
  send : Bool := true

def applyFilter (clear : XkbSrvInfo → XkbSrvInfo) (kc : ℕ) (p : Passed) (i : ℕ) : Passed :=
  match p.xkbi.filters[i]? with
  | none => p
  | some f =>
    match f.active, f.filter with
    | true, some proc =>
      let r := runFilter p.xkbi f kc clear proc p.action
      ⟨{ r.xkbi with filters := r.xkbi.filters.set i r.filter },r.action,r.send && p.send⟩
    | _, _ => p

/-- `_XkbApplyFilters`. Slots that are added during the pass are free, and it does nothing for them. -/
def applyFilters (clear : XkbSrvInfo → XkbSrvInfo) (xkbi : XkbSrvInfo) (kc : ℕ) (pAction : Option XkbAction) : Passed :=
  (List.range xkbi.filters.length).foldl (applyFilter clear kc) ⟨xkbi,pAction,true⟩

/-- The first slot without an active filter; the table is doubled when there is none. -/
def nextFreeFilter (xkbi : XkbSrvInfo) : XkbSrvInfo × ℕ :=
  let filters := if xkbi.filters.length = 0 then List.replicate 4 .zeroed else xkbi.filters
  let i := filters.findIdx fun f => !f.active
  let filters := if i < filters.length then filters else filters ++ List.replicate filters.length .zeroed
  ({ xkbi with filters := filters.modify i fun f => { f with keycode := 0 } },i)

def startFilter (xkbi : XkbSrvInfo) (key : ℕ) (proc : FilterProc) (act : XkbAction) (setup : XkbFilter → XkbFilter) :
    XkbSrvInfo × Bool :=
  let (xkbi,i) := xkbi.nextFreeFilter
  let r := runFilter xkbi (setup (xkbi.filters.getD i .zeroed)) key id proc (some act)
  ({ r.xkbi with filters := r.xkbi.filters.set i r.filter },r.send)

/-- The filter function of an action, if it has one. -/
def procOf : ActionType → Option FilterProc
  | .setMods | .setGroup => some .setState
  | .latchMods | .latchGroup => some .latchState
  | .lockMods | .lockGroup => some .lockState
  | .isoLock => some .isoLock
  | .movePtr => some .pointerMove
  | .ptrBtn | .lockPtrBtn | .setPtrDflt => some .pointerBtn
  | .switchScreen => some .switchScreen
  | .setControls | .lockControls => some .controls
  | .actionMessage => some .actionMessage
  | .redirectKey => some .redirectKey
  | .deviceBtn | .lockDeviceBtn => some .deviceBtn
  | .xf86Private => some .xf86Private
  | .noAction | .terminate => none

def runsOnFocus : ActionType → Bool
  | .setMods | .setGroup | .latchMods | .latchGroup | .lockMods | .lockGroup => true
  | _ => false

/-- `XkbActionGetFilter`. The key is a `KeyCode`, of eight bits. -/
def actionGetFilter (xkbi : XkbSrvInfo) (focus : Bool) (sourceid : BitVec 32) (key : ℕ) (act : XkbAction) : XkbSrvInfo :=
  let key := key % 2^8
  if focus && !runsOnFocus act.type then xkbi
  else
    match procOf act.type with
    | none => xkbi
    | some .redirectKey => (xkbi.startFilter key .redirectKey act fun f => { f with priv := sourceid }).1
    | some proc => (xkbi.startFilter key proc act id).1

/-- `XkbLatchModifiers` -/
def latchModifiers (xkbi : XkbSrvInfo) (mask latches : BitVec 8) : XkbSrvInfo :=
  let clear := mask &&& ~~~latches
  let xkbi := { xkbi with state.latchedMods := xkbi.state.latchedMods &&& ~~~clear }
  -- Clear any pending latch to locks. No control filter has the synthetic keycode, so none is released here.
  let xkbi := (xkbi.applyFilters id syntheticKeycode (some .zeroed)).xkbi
  let (xkbi,i) := xkbi.nextFreeFilter
  let r := filterLatchState xkbi (xkbi.filters.getD i .zeroed) syntheticKeycode
    (some { type := .latchMods, mask := mask &&& latches })
  let r := filterLatchState r.xkbi r.filter syntheticKeycode none
  { r.xkbi with filters := r.xkbi.filters.set i r.filter }

/-- `XkbLatchGroup` -/
def latchGroup (xkbi : XkbSrvInfo) (group : BitVec 16) : XkbSrvInfo :=
  let (xkbi,i) := xkbi.nextFreeFilter
  let r := filterLatchState xkbi (xkbi.filters.getD i .zeroed) syntheticKeycode (some (saSetGroup { type := .latchGroup } group))
  let r := filterLatchState r.xkbi r.filter syntheticKeycode none
  { r.xkbi with filters := r.xkbi.filters.set i r.filter }

/-- `XkbClearAllLatchesAndLocks` -/
def clearAllLatchesAndLocks (xkbi : XkbSrvInfo) : XkbSrvInfo :=
  let os := xkbi.state
  let xkbi := if os.latchedMods ≠ 0 then xkbi.latchModifiers (BitVec.allOnes 8) 0 else xkbi
  let xkbi := if os.latchedGroup ≠ 0 then xkbi.latchGroup 0 else xkbi
  { xkbi with
    state.lockedMods := if os.lockedMods ≠ 0 then 0 else xkbi.state.lockedMods
    state.lockedGroup := if os.lockedGroup ≠ 0 then 0 else xkbi.state.lockedGroup }

end XkbSrvInfo

/-- The keycodes that keyboard events have. -/
abbrev KeyCode := { k : ℕ // 8 ≤ k ∧ k ≤ 255 }

abbrev Button := { b : ℕ // 1 ≤ b ∧ b ≤ 255 }

inductive Input
  | key (k : KeyCode)
  | button (b : Button)
  deriving DecidableEq

/-- The keycode that the filters see. -/
def Input.kc : Input → ℕ
  | .key k => k
  | .button b => b ||| btnActFlag

structure Press where
  input : Input
  act : XkbAction
  focus : Bool := false
  sourceid : BitVec 32 := 0

inductive Event
  | press (p : Press)
  | release (input : Input)

def Event.input : Event → Input
  | .press p => p.input
  | .release input => input

def Event.action : Event → Option XkbAction
  | .press p => some p.act
  | .release _ => none

structure Keyboard where
  xkbi : XkbSrvInfo
  modifierKeyCount : Fin 8 → ℤ := fun _ => 0

/-- No filter has asked for a change yet. -/
def XkbSrvInfo.ready (xkbi : XkbSrvInfo) : XkbSrvInfo := { xkbi with clearMods := 0, setMods := 0, groupChange := 0 }

namespace Keyboard

def passed (k : Keyboard) (e : Event) : XkbSrvInfo.Passed :=
  k.xkbi.ready.applyFilters XkbSrvInfo.clearAllLatchesAndLocks e.input.kc e.action

def filterEvent (k : Keyboard) (e : Event) : XkbSrvInfo :=
  let passed := k.passed e
  match e with
  | .press p =>
    if passed.send then passed.xkbi.actionGetFilter p.focus p.sourceid p.input.kc (passed.action.getD .zeroed) else passed.xkbi
  | .release _ => passed.xkbi

/-- One more key holds each modifier of `setMods`. -/
def holdMods (k : Keyboard) : Keyboard where
  xkbi := { k.xkbi with state.baseMods := k.xkbi.state.baseMods ||| k.xkbi.setMods, setMods := 0 }
  modifierKeyCount i := if k.xkbi.setMods.getLsb i then k.modifierKeyCount i + 1 else k.modifierKeyCount i

/-- One key less holds each modifier of `clearMods`; those that no key holds go. -/
def dropMods (k : Keyboard) : Keyboard where
  xkbi :=
    let drop (mods : BitVec 8) (i : Fin 8) :=
      if k.xkbi.clearMods.getLsb i ∧ k.modifierKeyCount i - 1 ≤ 0 then mods &&& ~~~BitVec.twoPow 8 i else mods
    { k.xkbi with state.baseMods := (List.finRange 8).foldl drop k.xkbi.state.baseMods, clearMods := 0 }
  modifierKeyCount i := if k.xkbi.clearMods.getLsb i then max (k.modifierKeyCount i - 1) 0 else k.modifierKeyCount i

def makeChanges (k : Keyboard) : Keyboard :=
  let xkbi := { k.xkbi with state.baseGroup := k.xkbi.state.baseGroup + k.xkbi.groupChange }
  { k with xkbi := xkbi }.holdMods.dropMods

end Keyboard

end Xlibre.Xkb

/-! The effective group and the locked group, brought into the range of the keymap's groups after each event. -/
namespace Xlibre.Xkb

def wrapIntoRange : BitVec 8 := 0x00
def clampIntoRange : BitVec 8 := 0x40
def redirectIntoRange : BitVec 8 := 0x80

/-- `XkbOutOfRangeGroupAction` -/
def outOfRangeGroupAction (wrap : BitVec 8) : BitVec 8 := wrap &&& 0xc0

/-- `XkbOutOfRangeGroupNumber` -/
def outOfRangeGroupNumber (wrap : BitVec 8) : ℕ := ((wrap &&& 0x30) >>> 4).toNat

namespace XkbControls

def redirectGroup (ctrls : XkbControls) : ℕ :=
  let newGroup := outOfRangeGroupNumber ctrls.groupsWrap
  if newGroup ≥ ctrls.numGroups then 0 else newGroup

def raiseGroup (ctrls : XkbControls) : ℕ → ℤ → Option ℤ
  | 0, group => if group < 0 then none else some group
  | rounds+1, group =>
    if group < 0 then
      let act := outOfRangeGroupAction ctrls.groupsWrap
      if act = clampIntoRange then ctrls.raiseGroup rounds 0
      else if act = redirectIntoRange then ctrls.raiseGroup rounds ctrls.redirectGroup
      else ctrls.raiseGroup rounds (group+ctrls.numGroups)
    else some group

/-- `XkbAdjustGroup`; nothing when it divides by zero or goes on for ever. A group is at least `-128` here, so that no
loop that ends takes more rounds. -/
def adjustGroup (ctrls : XkbControls) (group : ℤ) : Option ℤ :=
  let act := outOfRangeGroupAction ctrls.groupsWrap
  if group < 0 then ctrls.raiseGroup 128 group
  else if group ≥ ctrls.numGroups then
    if act = clampIntoRange then some (ctrls.numGroups-1)
    else if act = redirectIntoRange then some ctrls.redirectGroup
    else if ctrls.numGroups = 0 then none
    else some (group.tmod ctrls.numGroups)
  else some group

def legalGroup (ctrls : XkbControls) (grp : BitVec 8) : Option (BitVec 8) :=
  if grp.toNat ≥ ctrls.numGroups then (ctrls.adjustGroup grp.toInt).map (BitVec.ofInt 8) else some grp

end XkbControls

/-- `XkbComputeDerivedState`, as far as groups go. -/
def XkbSrvInfo.computeDerivedState (xkbi : XkbSrvInfo) : Option XkbSrvInfo :=
  match xkbi.ctrls.legalGroup xkbi.state.lockedGroup with
  | none => none
  | some locked =>
    let grp := locked + (xkbi.state.baseGroup + xkbi.state.latchedGroup).setWidth 8
    match xkbi.ctrls.legalGroup grp with
    | none => none
    | some group => some { xkbi with state.lockedGroup := locked, state.group := group }

namespace Keyboard

/-- `XkbHandleActions`: the filters, the changes they ask for, and the derived state. -/
def handleActions (k : Keyboard) (e : Event) : Option Keyboard :=
  let changed := { k with xkbi := k.filterEvent e }.makeChanges
  changed.xkbi.computeDerivedState.map fun xkbi => { changed with xkbi := xkbi }

end Keyboard

end Xlibre.Xkb
