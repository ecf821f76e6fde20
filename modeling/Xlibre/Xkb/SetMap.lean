import Xlibre.Xkb.Handle

/-! SetMap requests, as far as they are about the types and groups of keys, and SetControls requests. -/
namespace Xlibre.Xkb

def xkbNumKbdGroups : ℕ := 4
def xkbMaxShiftLevel : ℕ := 63
def xkbNumRequiredTypes : ℕ := 4
def xkbMaxLegalKeyCode : ℕ := 255
def xkbMinLegalKeyCode : ℕ := 8

/-- `XkbSymMapRec`: the types of a key's groups. -/
structure XkbSymMap where
  ktIndex : Fin 4 → ℕ := fun _ => 0
  groupInfo : BitVec 8 := 0
  width : ℕ := 0

/-- A key without groups. -/
def XkbSymMap.zeroed : XkbSymMap := {}

/-- `XkbNumGroups` -/
def XkbSymMap.numGroups (m : XkbSymMap) : ℕ := (m.groupInfo &&& 0x0f).toNat

/-- `xkbSymMapWireDesc` -/
structure SymMapWire extends XkbSymMap where
  nSyms : ℕ := 0

/-- The types, with their numbers of levels, and what each key has for symbols. -/
structure ClientMap where
  types : List ℕ
  keySymMap : ℕ → XkbSymMap

/-- A SetMap request. -/
structure SetMapReq where
  minKeyCode : ℕ := 8
  maxKeyCode : ℕ := 255
  /-- The flag `XkbSetMapResizeTypes`. -/
  resizeTypes : Bool := false
  /-- Key types are present. -/
  keyTypes : Bool := false
  firstType : ℕ := 0
  /-- The number of levels of each type on the wire. -/
  typeLevels : List ℕ := []
  /-- The first key and the symbol maps, when key symbols are present. -/
  keySyms : Option (ℕ × List SymMapWire) := none
  /-- The lengths and the other components pass their checks. -/
  others : Bool := true

structure MappedKeyboard extends Keyboard where
  map : ClientMap

section Checks

def legalWidth (n width : ℕ) : Bool :=
  1 ≤ width && width ≤ xkbMaxShiftLevel && (n ≠ 0 || width = 1) && (width = 2 || (n ≠ 1 && n ≠ 2 && n ≠ 3))

/-- `CheckKeyTypes`: the widths of the types as they are going to be. -/
def checkKeyTypes (types : List ℕ) (req : SetMapReq) : Option (List ℕ) :=
  let nTypes := req.typeLevels.length
  if req.firstType > types.length then none
  else
    let legal := req.typeLevels.zipIdx.all fun (width,i) => legalWidth (i+req.firstType) width
    if req.resizeTypes then
      let nMaps := req.firstType + nTypes
      if nMaps < xkbNumRequiredTypes ∨ nMaps > xkbMaxLegalKeyCode+1 ∨ !legal then none
      else some (types.take req.firstType ++ req.typeLevels)
    else if req.keyTypes then
      if req.firstType + nTypes > types.length ∨ !legal then none
      else some (types.take req.firstType ++ req.typeLevels ++ types.drop (req.firstType+nTypes))
    else some types

def XkbSymMap.groupWidth (m : XkbSymMap) (widths : List ℕ) : Option ℕ :=
  ((List.finRange 4).take m.numGroups).foldlM (fun w g => widths[m.ktIndex g]?.map (max w)) 0

/-- One key in `CheckKeySyms`. -/
def SymMapWire.check (wire : SymMapWire) (widths : List ℕ) : Bool :=
  let nG := wire.numGroups
  if nG > xkbNumKbdGroups then false
  else if nG > 0 then
    match wire.groupWidth widths with
    | none => false
    | some w => wire.width = w && wire.nSyms = w*nG
  else wire.nSyms = 0

/-- `CheckKeySyms`. The keys that are not on the wire are counted from the number of those that are. -/
def checkKeySyms (map : ClientMap) (maxKeyCode : ℕ) (req : SetMapReq) (widths : List ℕ) (first : ℕ) (wires : List SymMapWire) :
    Bool :=
  first+wires.length ≤ req.maxKeyCode+1 && req.minKeyCode ≤ first && wires.all (·.check widths) &&
    (List.range' wires.length (maxKeyCode+1-wires.length)).all fun i => ((map.keySymMap i).groupWidth widths).isSome

namespace MappedKeyboard

def withRange (k : MappedKeyboard) (ancient : Bool) (req : SetMapReq) : SetMapReq :=
  if ancient then { req with minKeyCode := k.xkbi.minKeyCode, maxKeyCode := k.xkbi.maxKeyCode } else req

/-- `_XkbSetMapChecks` -/
def setMapChecks (k : MappedKeyboard) (req : SetMapReq) : Bool :=
  ((k.xkbi.minKeyCode = req.minKeyCode ∧ k.xkbi.maxKeyCode = req.maxKeyCode) ∨
    (xkbMinLegalKeyCode ≤ req.minKeyCode ∧ req.minKeyCode ≤ req.maxKeyCode)) &&
  match checkKeyTypes k.map.types req with
  | none => false
  | some widths =>
    -- The last key is left out here.
    ((List.range' k.xkbi.minKeyCode (k.xkbi.maxKeyCode-k.xkbi.minKeyCode)).all fun i =>
      ((k.map.keySymMap i).groupWidth widths).isSome) &&
    (match req.keySyms with
      | none => true
      | some (first,wires) => checkKeySyms k.map k.xkbi.maxKeyCode req widths first wires) &&
    req.others

/-- `XkbChangeKeycodeRange`, which only makes the range wider. The old last key loses its groups with the new ones. -/
def changeKeycodeRange (k : MappedKeyboard) (minKC maxKC : ℕ) : MappedKeyboard :=
  let oldMin := k.xkbi.minKeyCode
  let oldMax := k.xkbi.maxKeyCode
  { k with
    xkbi.minKeyCode := min minKC oldMin
    xkbi.maxKeyCode := max maxKC oldMax
    map.keySymMap := fun i =>
      if (minKC ≤ i ∧ i < oldMin) ∨ (oldMax < maxKC ∧ oldMax ≤ i) then .zeroed else k.map.keySymMap i }

/-- `SetKeyTypes`, as far as levels go. -/
def setKeyTypes (k : MappedKeyboard) (req : SetMapReq) : MappedKeyboard :=
  { k with map.types := k.map.types.take req.firstType ++ req.typeLevels ++
      k.map.types.drop (req.firstType+req.typeLevels.length) }

def mostGroups (k : MappedKeyboard) : ℕ :=
  (List.range' k.xkbi.minKeyCode (k.xkbi.maxKeyCode+1-k.xkbi.minKeyCode)).foldl
    (fun s i => if (k.map.keySymMap i).numGroups > s then (k.map.keySymMap i).numGroups else s) 0

def setKeySyms (k : MappedKeyboard) (first : ℕ) (wires : List SymMapWire) : MappedKeyboard :=
  let changed := { k with
    map.keySymMap := fun i =>
      if h : first ≤ i ∧ i - first < wires.length then wires[i - first].toXkbSymMap else k.map.keySymMap i }
  { changed with xkbi.ctrls.numGroups := changed.mostGroups }

/-- `_XkbSetMap` -/
def setMap (k : MappedKeyboard) (req : SetMapReq) : MappedKeyboard :=
  let k := k.changeKeycodeRange req.minKeyCode req.maxKeyCode
  let k := if req.keyTypes then k.setKeyTypes req else k
  match req.keySyms with
  | none => k
  | some (first,wires) => k.setKeySyms first wires

end MappedKeyboard

end Checks

def xkbAllBooleanCtrlsMask : BitVec 32 := 0x1fff
def ignoreGroupLockMask : BitVec 32 := 0x1000

/-- A SetControls request. -/
structure SetControlsReq where
  affectEnabledCtrls : BitVec 32 := 0
  enabledCtrls : BitVec 32 := 0
  /-- The new `groups_wrap`, when it is to change. -/
  groupsWrap : Option (BitVec 8) := none
  /-- The other controls pass their checks. -/
  others : Bool := true

namespace XkbSrvInfo

/-- The checks of `ProcXkbSetControls`. -/
def checkControls (xkbi : XkbSrvInfo) (req : SetControlsReq) : Bool :=
  req.enabledCtrls &&& ~~~req.affectEnabledCtrls = 0 && req.affectEnabledCtrls &&& ~~~xkbAllBooleanCtrlsMask = 0 &&
  (match req.groupsWrap with
    | none => true
    | some wrap =>
      let act := outOfRangeGroupAction wrap
      (act = redirectIntoRange && outOfRangeGroupNumber wrap < xkbi.ctrls.numGroups) || act = wrapIntoRange ||
        act = clampIntoRange) &&
  req.others

/-- What `ProcXkbSetControls` does to a keyboard; nothing when the derived state cannot be computed. -/
def setControls (xkbi : XkbSrvInfo) (req : SetControlsReq) : Option XkbSrvInfo :=
  let enabled := xkbi.ctrls.enabledCtrls
  let enabled' := (enabled &&& ~~~req.affectEnabledCtrls) ||| (req.affectEnabledCtrls &&& req.enabledCtrls)
  let changed := { xkbi with
    ctrls.enabledCtrls := enabled'
    ctrls.groupsWrap := req.groupsWrap.getD xkbi.ctrls.groupsWrap }
  -- If sticky keys were disabled, clear all locks and latches
  if has enabled stickyKeysMask ∧ ¬has enabled' stickyKeysMask then
    let os := changed.state
    let cleared := changed.clearAllLatchesAndLocks
    if os.latchedMods ≠ 0 ∨ os.latchedGroup ≠ 0 ∨ os.lockedMods ≠ 0 ∨ os.lockedGroup ≠ 0 then cleared.computeDerivedState
    else some cleared
  else some changed

/-- The group whose modifiers `XkbComputeCompatState` adds for grabs. -/
def compatGroup (xkbi : XkbSrvInfo) : Option (BitVec 8) :=
  if has xkbi.ctrls.enabledCtrls ignoreGroupLockMask then
    xkbi.ctrls.legalGroup ((xkbi.state.baseGroup + xkbi.state.latchedGroup).setWidth 8)
  else some xkbi.state.group

end XkbSrvInfo

end Xlibre.Xkb
