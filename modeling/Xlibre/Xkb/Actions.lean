import Mathlib.Data.BitVec

/-! Key actions of the keyboard extension: the state of a keyboard, and what each kind of filter does with an event. -/
namespace Xlibre.Xkb

inductive ActionType
  | noAction | setMods | latchMods | lockMods | setGroup | latchGroup | lockGroup | movePtr | ptrBtn | lockPtrBtn
  | setPtrDflt | isoLock | terminate | switchScreen | setControls | lockControls | actionMessage | redirectKey
  | deviceBtn | lockDeviceBtn | xf86Private
  deriving DecidableEq, Repr

open ActionType

/-- The fields of all members of the union; `group` is the byte of `group_XXX`. -/
structure XkbAction where
  type : ActionType := noAction
  flags : BitVec 8 := 0
  mask : BitVec 8 := 0
  group : BitVec 8 := 0
  ctrls : BitVec 32 := 0
  newKey : ℕ := 0
  message : BitVec 48 := 0
  deriving DecidableEq, Repr

/-- An action before it is set: none. -/
def XkbAction.zeroed : XkbAction := {}

def clearLocks : BitVec 8 := 1
def latchToLock : BitVec 8 := 2
def lockNoLock : BitVec 8 := 1
def lockNoUnlock : BitVec 8 := 2
def groupAbsolute : BitVec 8 := 4
def isoDfltIsGroup : BitVec 8 := 0x80
def isoNoAffectMods : BitVec 8 := 0x40
def isoNoAffectGroup : BitVec 8 := 0x20
def isoNoAffectPtr : BitVec 8 := 0x10
def isoNoAffectCtrls : BitVec 8 := 0x08
def messageOnRelease : BitVec 8 := 2
def messageGenKeyEvent : BitVec 8 := 4
def stickyKeysMask : BitVec 32 := 8

/-- Some of the bits of `m` are set in `x`. -/
def has {w : ℕ} (x m : BitVec w) : Bool := x &&& m ≠ 0

/-- `XkbSA_BreakLatch`. -/
def breakLatch : ActionType → Bool
  | noAction | ptrBtn | lockPtrBtn | terminate | switchScreen | setControls | lockControls | actionMessage
  | redirectKey | deviceBtn | lockDeviceBtn => true
  | _ => false

/-- `XkbSAGroup`: the byte as a signed number. -/
def saGroup (act : XkbAction) : BitVec 16 := act.group.signExtend 16

/-- `XkbSASetGroup`: only the low byte is kept. -/
def saSetGroup (act : XkbAction) (g : BitVec 16) : XkbAction := { act with group := g.setWidth 8 }

inductive FilterProc
  | setState | latchState | lockState | isoLock | pointerMove | pointerBtn | controls | actionMessage | redirectKey
  | switchScreen | xf86Private | deviceBtn
  deriving DecidableEq, Repr

structure XkbFilter where
  keycode : ℕ := 0
  active : Bool := false
  priv : BitVec 32 := 0
  upAction : XkbAction := {}
  filter : Option FilterProc := none
  deriving DecidableEq, Repr

/-- A slot that was never used. -/
def XkbFilter.zeroed : XkbFilter := {}

def latchKeyDown : BitVec 32 := 1
def latchPending : BitVec 32 := 2
def isoKeyDown : BitVec 32 := 0
def noIsoLock : BitVec 32 := 1

structure XkbState where
  group : BitVec 8 := 0
  baseGroup : BitVec 16 := 0
  latchedGroup : BitVec 16 := 0
  lockedGroup : BitVec 8 := 0
  baseMods : BitVec 8 := 0
  latchedMods : BitVec 8 := 0
  lockedMods : BitVec 8 := 0
  deriving DecidableEq, Repr

structure XkbControls where
  numGroups : ℕ := 1
  groupsWrap : BitVec 8 := 0
  enabledCtrls : BitVec 32 := 0
  deriving DecidableEq, Repr

structure Devices where
  /-- The keyboard is the core keyboard. -/
  isCore : Bool := false
  /-- The action's device is found and on. -/
  deviceOn : XkbAction → Bool := fun _ => false
  /-- The device has the action's button. -/
  hasButton : XkbAction → Bool := fun _ => false

structure XkbSrvInfo where
  state : XkbState := {}
  clearMods : BitVec 8 := 0
  setMods : BitVec 8 := 0
  groupChange : BitVec 16 := 0
  ctrls : XkbControls := {}
  minKeyCode : ℕ := 8
  maxKeyCode : ℕ := 255
  filters : List XkbFilter := []
  devices : Devices := {}

structure Filtered where
  xkbi : XkbSrvInfo
  filter : XkbFilter
  action : Option XkbAction
  send : Bool := true

/-- A filter that an initial press takes. -/
def XkbFilter.start (filter : XkbFilter) (proc : FilterProc) (keycode : ℕ) (priv : BitVec 32) (act : XkbAction) : XkbFilter :=
  { filter with keycode := keycode % 2^16, active := true, priv := priv, filter := some proc, upAction := act }

/-- A latch filter whose key has gone up: it stays, pending, when something was latched. -/
def XkbFilter.released (filter : XkbFilter) (latched : Bool) : XkbFilter :=
  if latched then { filter with priv := latchPending } else { filter with active := false }

def XkbSrvInfo.pressGroup (xkbi : XkbSrvInfo) (act : XkbAction) : BitVec 16 :=
  if has act.flags groupAbsolute then saGroup act - xkbi.state.baseGroup else saGroup act

section Filters
variable (xkbi : XkbSrvInfo) (filter : XkbFilter) (keycode : ℕ)

/-- `_XkbFilterSetState` -/
def filterSetState (pAction : Option XkbAction) : Filtered :=
  if filter.keycode = 0 then -- initial press
    let act := pAction.getD .zeroed
    if act.type = setMods then
      ⟨{ xkbi with setMods := act.mask },filter.start .setState keycode 0 act,pAction,true⟩
    else
      let change := xkbi.pressGroup act
      ⟨{ xkbi with groupChange := change },filter.start .setState keycode 0 (saSetGroup act change),pAction,true⟩
  else if filter.keycode = keycode then
    let up := filter.upAction
    let xkbi :=
      if up.type = setMods then
        { xkbi with
          clearMods := up.mask
          state.lockedMods := if has up.flags clearLocks then xkbi.state.lockedMods &&& ~~~up.mask else xkbi.state.lockedMods }
      else
        { xkbi with
          groupChange := -saGroup up
          state.lockedGroup := if has up.flags clearLocks then 0 else xkbi.state.lockedGroup }
    ⟨xkbi,{ filter with active := false },pAction,true⟩
  else ⟨xkbi,{ filter with upAction.flags := filter.upAction.flags &&& ~~~clearLocks },pAction,true⟩

def releaseLatchMods : Filtered :=
  let up := filter.upAction
  let unlock := if has up.flags clearLocks then up.mask &&& xkbi.state.lockedMods else 0
  let mask := up.mask &&& ~~~unlock
  let lockedMods := xkbi.state.lockedMods &&& ~~~unlock
  let lock := if has up.flags latchToLock then mask &&& xkbi.state.latchedMods else 0
  let mask := mask &&& ~~~lock
  let xkbi := { xkbi with
    clearMods := up.mask
    state.lockedMods := lockedMods ||| lock
    state.latchedMods := (xkbi.state.latchedMods &&& ~~~lock) ||| mask }
  ⟨xkbi,filter.released (mask ≠ 0),none,true⟩

def releaseLatchGroup : Filtered :=
  let up := filter.upAction
  let released := { xkbi with groupChange := -saGroup up }
  if has up.flags clearLocks ∧ xkbi.state.lockedGroup ≠ 0 then
    ⟨{ released with state.lockedGroup := 0 },filter.released false,none,true⟩
  else if has up.flags latchToLock ∧ xkbi.state.latchedGroup ≠ 0 then
    ⟨{ released with
        state.lockedGroup := xkbi.state.lockedGroup + up.group
        state.latchedGroup := xkbi.state.latchedGroup - saGroup up },filter.released false,none,true⟩
  else if saGroup up ≠ 0 then
    ⟨{ released with state.latchedGroup := xkbi.state.latchedGroup + saGroup up },filter.released true,none,true⟩
  else ⟨released,filter.released false,none,true⟩

/-- `_XkbFilterLatchState` -/
def filterLatchState (pAction : Option XkbAction) : Filtered :=
  if filter.keycode = 0 then -- initial press
    let act := pAction.getD .zeroed
    if act.type = latchMods then
      ⟨{ xkbi with setMods := act.mask },filter.start .latchState keycode latchKeyDown act,pAction,true⟩
    else
      let change := xkbi.pressGroup act
      ⟨{ xkbi with groupChange := change },filter.start .latchState keycode latchKeyDown (saSetGroup act change),pAction,true⟩
  else if pAction.isSome ∧ filter.priv = latchPending then
    if breakLatch (pAction.getD .zeroed).type then
      -- If one latch is broken, all latches are broken.
      ⟨{ xkbi with state.latchedMods := 0, state.latchedGroup := 0 },{ filter with active := false },pAction,true⟩
    else ⟨xkbi,filter,pAction,true⟩
  else if filter.keycode = keycode ∧ filter.priv ≠ latchPending then
    let released := if filter.upAction.type = latchMods then releaseLatchMods xkbi filter else releaseLatchGroup xkbi filter
    { released with action := pAction }
  else if pAction.isSome ∧ filter.priv = latchKeyDown then
    -- Latch was broken before it became pending: degrade to a SetMods/SetGroup.
    let type := if filter.upAction.type = latchMods then setMods else setGroup
    filterSetState xkbi { filter with upAction.type := type, filter := some .setState, priv := 0 } keycode pAction
  else ⟨xkbi,filter,pAction,true⟩

/-- `_XkbFilterLockState`. A press of a `LockGroup` key has this effect whichever filter sees it. -/
def filterLockState (pAction : Option XkbAction) : Filtered :=
  let act := pAction.getD .zeroed
  if pAction.isSome ∧ act.type = lockGroup then
    let group := if has act.flags groupAbsolute then act.group else xkbi.state.lockedGroup + act.group
    ⟨{ xkbi with state.lockedGroup := group },filter,pAction,true⟩
  else if filter.keycode = 0 then -- initial press
    ⟨{ xkbi with
        setMods := act.mask
        state.lockedMods := if has act.flags lockNoLock then xkbi.state.lockedMods else xkbi.state.lockedMods ||| act.mask },
      filter.start .lockState keycode ((xkbi.state.lockedMods &&& act.mask).setWidth 32) act,pAction,true⟩
  else if filter.keycode = keycode then
    let up := filter.upAction
    ⟨{ xkbi with
        clearMods := up.mask
        state.lockedMods := if has up.flags lockNoUnlock then xkbi.state.lockedMods
          else xkbi.state.lockedMods &&& ~~~(filter.priv.setWidth 8) },{ filter with active := false },pAction,true⟩
  else ⟨xkbi,filter,pAction,true⟩

def isoLocked (flags : BitVec 8) : ActionType → Option ActionType
  | setMods | latchMods => if has flags isoNoAffectMods then none else some lockMods
  | setGroup | latchGroup => if has flags isoNoAffectGroup then none else some lockGroup
  | ptrBtn => if has flags isoNoAffectPtr then none else some lockPtrBtn
  | setControls => if has flags isoNoAffectCtrls then none else some lockControls
  | _ => none

/-- `_XkbFilterISOLock` -/
def filterISOLock (pAction : Option XkbAction) : Filtered :=
  if filter.keycode = 0 then -- initial press
    let act := pAction.getD .zeroed
    let isGroup := has act.flags isoDfltIsGroup
    let locks := ¬has act.flags isoNoAffectMods ∧ xkbi.state.baseMods ≠ 0
    ⟨{ xkbi with
        groupChange := if isGroup then saGroup act else 0
        setMods := if isGroup then 0 else act.mask
        state.lockedMods := if locks then xkbi.state.lockedMods ^^^ xkbi.state.baseMods else xkbi.state.lockedMods },
      filter.start .isoLock keycode (if locks then noIsoLock else isoKeyDown) act,pAction,true⟩
  else if filter.keycode = keycode then
    let up := filter.upAction
    let isGroup := has up.flags isoDfltIsGroup
    let locks := filter.priv = isoKeyDown
    ⟨{ xkbi with
        groupChange := if isGroup then -saGroup up else 0
        clearMods := if isGroup then 0 else up.mask
        state.lockedGroup := if isGroup ∧ locks then xkbi.state.lockedGroup + up.group else xkbi.state.lockedGroup
        state.lockedMods := if ¬isGroup ∧ locks then xkbi.state.lockedMods ^^^ up.mask else xkbi.state.lockedMods },
      { filter with active := false },pAction,true⟩
  else
    match pAction with
    | none => ⟨xkbi,filter,none,true⟩
    | some act =>
      match isoLocked filter.upAction.flags act.type with
      | none => ⟨xkbi,filter,pAction,true⟩
      | some type => ⟨xkbi,{ filter with priv := noIsoLock },some { act with type := type },true⟩

/-- `_XkbFilterPointerMove`, without the motion. -/
def filterPointerMove (pAction : Option XkbAction) : Filtered :=
  if filter.keycode = 0 then ⟨xkbi,filter.start .pointerMove keycode 0 (pAction.getD .zeroed),pAction,false⟩
  else if filter.keycode = keycode then ⟨xkbi,{ filter with active := false },pAction,false⟩
  else ⟨xkbi,filter,pAction,false⟩

/-- `_XkbFilterPointerBtn`, without the button events. -/
def filterPointerBtn (pAction : Option XkbAction) : Filtered :=
  if filter.keycode = 0 then ⟨xkbi,filter.start .pointerBtn keycode 0 (pAction.getD .zeroed),pAction,false⟩
  else if filter.keycode = keycode then ⟨xkbi,{ filter with active := false },pAction,false⟩
  else ⟨xkbi,filter,pAction,true⟩

/-- `_XkbFilterControls`. `clear` is what the end of sticky keys does. -/
def filterControls (clear : XkbSrvInfo → XkbSrvInfo) (pAction : Option XkbAction) : Filtered :=
  let enabled := xkbi.ctrls.enabledCtrls
  if filter.keycode = 0 then -- initial press
    let act := pAction.getD .zeroed
    let change := if act.type = lockControls then act.ctrls &&& ~~~enabled else act.ctrls
    let priv := if act.type = lockControls then enabled &&& act.ctrls else act.ctrls
    ⟨{ xkbi with ctrls.enabledCtrls := enabled ||| change },filter.start .controls keycode priv act,pAction,true⟩
  else if filter.keycode = keycode then
    let change := filter.priv
    let changed := { xkbi with ctrls.enabledCtrls := enabled &&& ~~~change }
    -- If sticky keys were disabled, clear all locks and latches
    let xkbi := if has enabled stickyKeysMask ∧ ¬has (enabled &&& ~~~change) stickyKeysMask then clear changed else changed
    ⟨xkbi,{ filter with keycode := 0, active := false },pAction,true⟩
  else ⟨xkbi,filter,pAction,true⟩

/-- `_XkbFilterActionMessage`, without the messages. -/
def filterActionMessage (pAction : Option XkbAction) : Filtered :=
  if filter.keycode ≠ 0 ∧ filter.keycode ≠ keycode then ⟨xkbi,filter,pAction,true⟩
  -- This can happen if the key repeats, and the state (modifiers or group) changes meanwhile.
  else if filter.keycode = keycode ∧ pAction.isSome ∧ (pAction.getD .zeroed).type ≠ .actionMessage then ⟨xkbi,filter,pAction,true⟩
  else if filter.keycode = 0 then -- initial press
    let act := pAction.getD .zeroed
    let filter :=
      if has act.flags messageOnRelease ∨ ¬has act.flags messageGenKeyEvent then filter.start .actionMessage keycode 0 act
      else filter
    ⟨xkbi,filter,pAction,has act.flags messageGenKeyEvent⟩
  else
    let freed := { filter with keycode := 0, active := false }
    match pAction with
    | none => ⟨xkbi,freed,none,has filter.upAction.flags messageGenKeyEvent⟩
    | some act =>
      -- Repeat: if we send the same message, avoid multiple messages on release from piling up.
      let same := filter.upAction.type = act.type ∧ filter.upAction.flags = act.flags ∧ filter.upAction.message = act.message
      ⟨xkbi,if same then freed else filter,pAction,true⟩

/-- `_XkbFilterRedirectKey`, without the events it makes: the state they are sent in is put back after them. -/
def filterRedirectKey (pAction : Option XkbAction) : Filtered :=
  if filter.keycode ≠ 0 ∧ filter.keycode ≠ keycode then ⟨xkbi,filter,pAction,true⟩
  -- This can happen if the key repeats, and the state (modifiers or group) changes meanwhile.
  else if filter.keycode = keycode ∧ pAction.isSome ∧ (pAction.getD .zeroed).type ≠ .redirectKey then ⟨xkbi,filter,pAction,true⟩
  else if filter.keycode = 0 then -- initial press
    let act := pAction.getD .zeroed
    if act.newKey < xkbi.minKeyCode ∨ act.newKey > xkbi.maxKeyCode then ⟨xkbi,filter,pAction,true⟩
    else ⟨xkbi,filter.start .redirectKey keycode filter.priv act,pAction,false⟩
  else
    match pAction with
    | none => ⟨xkbi,{ filter with active := false },none,false⟩
    | some act =>
      if filter.upAction.newKey ≠ act.newKey then ⟨xkbi,{ filter with active := false },pAction,true⟩
      else ⟨xkbi,filter,pAction,false⟩

/-- `_XkbFilterSwitchScreen` and `_XkbFilterXF86Private`, which keep the same account of their key and leave the action
of their slot alone. -/
def filterServer (proc : FilterProc) (pAction : Option XkbAction) : Filtered :=
  if xkbi.devices.isCore then ⟨xkbi,filter,pAction,false⟩
  else if filter.keycode = 0 then ⟨xkbi,filter.start proc keycode filter.priv filter.upAction,pAction,false⟩
  else if filter.keycode = keycode then ⟨xkbi,{ filter with active := false },pAction,false⟩
  else ⟨xkbi,filter,pAction,true⟩

def filterSwitchScreen (pAction : Option XkbAction) : Filtered := filterServer xkbi filter keycode .switchScreen pAction

def filterXF86Private (pAction : Option XkbAction) : Filtered := filterServer xkbi filter keycode .xf86Private pAction

/-- `_XkbFilterDeviceBtn`, without the button events. -/
def filterDeviceBtn (pAction : Option XkbAction) : Filtered :=
  if xkbi.devices.isCore then ⟨xkbi,filter,pAction,false⟩
  else if filter.keycode = 0 then -- initial press
    let act := pAction.getD .zeroed
    if ¬xkbi.devices.deviceOn act ∨ ¬xkbi.devices.hasButton act then ⟨xkbi,filter,pAction,true⟩
    else ⟨xkbi,filter.start .deviceBtn keycode 0 act,pAction,false⟩
  else if filter.keycode = keycode then
    ⟨xkbi,{ filter with active := false },pAction,¬xkbi.devices.deviceOn filter.upAction⟩
  else ⟨xkbi,filter,pAction,false⟩

def runFilter (clear : XkbSrvInfo → XkbSrvInfo) (proc : FilterProc) (pAction : Option XkbAction) : Filtered :=
  match proc with
  | .setState => filterSetState xkbi filter keycode pAction
  | .latchState => filterLatchState xkbi filter keycode pAction
  | .lockState => filterLockState xkbi filter keycode pAction
  | .isoLock => filterISOLock xkbi filter keycode pAction
  | .pointerMove => filterPointerMove xkbi filter keycode pAction
  | .pointerBtn => filterPointerBtn xkbi filter keycode pAction
  | .controls => filterControls xkbi filter keycode clear pAction
  | .actionMessage => filterActionMessage xkbi filter keycode pAction
  | .redirectKey => filterRedirectKey xkbi filter keycode pAction
  | .switchScreen => filterSwitchScreen xkbi filter keycode pAction
  | .xf86Private => filterXF86Private xkbi filter keycode pAction
  | .deviceBtn => filterDeviceBtn xkbi filter keycode pAction

end Filters

end Xlibre.Xkb
