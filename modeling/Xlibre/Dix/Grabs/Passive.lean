import Mathlib.Algebra.Group.Nat.Defs

/-! The passive grabs of a window: adding them and taking them away. -/
namespace Xlibre.Dix.Grabs

abbrev XID := ℕ

/-- What goes wrong in memory: a bit past the end of a mask, and a merge of the XI2 mask at `NULL`. -/
inductive Fault
  | maskIndex (i : ℕ)
  | nullMask
deriving DecidableEq

section Data

/-- `enum InputLevel`. -/
inductive InputLevel
  | core | xi | xi2
deriving DecidableEq

/-- A device. Two of `inputInfo` stand for all devices and for all master devices. -/
inductive Device
  | allDevices
  | allMasterDevices
  | device (id : ℕ) (isMaster : Bool)
deriving DecidableEq

/-- `InputDevIsMaster`. -/
def Device.isMaster : Device → Bool
  | .device _ master => master
  | _ => false

/-- A detail mask: `MasksPerDetailMask` words of 32 bits. -/
abbrev DetailMask := BitVec 256

structure DetailRec where
  exact : ℕ
  pMask : Option DetailMask
deriving DecidableEq

/-- The events that a grab is for. -/
structure Target where
  grabtype : InputLevel
  type : ℕ
  device : Device
  modifierDevice : Device
deriving DecidableEq

/-- What a grab does once it is active. The modes are fields of one bit. -/
structure Attributes where
  ownerEvents : Bool
  keyboardMode : Bool
  pointerMode : Bool
  confineTo : Option XID
  cursor : Option XID
  eventMask : ℕ
  xi2mask : ℕ
deriving DecidableEq

/-- `GrabRec`, with the client of its resource. Key codes and buttons have eight bits, and only XI2 grabs have an XI2 mask. -/
structure Grab extends Target, Attributes where
  client : ℕ
  modifiersDetail : DetailRec
  detail : DetailRec
  detail_lt : detail.exact < 256
  no_xi2mask : grabtype ≠ .xi2 → xi2mask = 0
deriving DecidableEq

/-- `AnyKey` and `AnyButton`, also `XIAnyKeycode` and `XIAnyButton`. -/
def anyKey : ℕ := 0

/-- `AnyModifier` or `XIAnyModifier`. -/
def anyModifier : InputLevel → ℕ
  | .xi2 => 2^31
  | _ => 2^15

end Data

section Masks

def getBit (buf : DetailMask) (i : ℕ) : Except Fault Bool :=
  if i < 256 then .ok (buf.getLsbD i) else .error (.maskIndex i)

def bitClear (buf : DetailMask) (i : ℕ) : Except Fault DetailMask :=
  if i < 256 then .ok (buf &&& ~~~BitVec.twoPow 256 i) else .error (.maskIndex i)

/-- `DeleteDetailFromMask`; `none` when there is no memory. -/
def deleteDetailFromMask (alloc : Bool) (pDetailMask : Option DetailMask) (detail : ℕ) : Except Fault (Option DetailMask) :=
  if alloc then some <$> bitClear (pDetailMask.getD (BitVec.allOnes 256)) detail else .ok none

def isInGrabMask (firstDetail secondDetail : DetailRec) (exception : ℕ) : Except Fault Bool :=
  if firstDetail.exact = exception then
    match firstDetail.pMask with
    | none => .ok true
    | some mask => if secondDetail.exact = exception then .ok false else getBit mask secondDetail.exact
  else .ok false

def identicalExactDetails (firstExact secondExact exception : ℕ) : Bool :=
  if firstExact = exception ∨ secondExact = exception then false else decide (firstExact = secondExact)

def detailSupersedesSecond (firstDetail secondDetail : DetailRec) (exception : ℕ) : Except Fault Bool :=
  isInGrabMask firstDetail secondDetail exception <||>
    pure (identicalExactDetails firstDetail.exact secondDetail.exact exception)

end Masks

section Compare

def grabSupersedesSecond (first second : Grab) : Except Fault Bool :=
  detailSupersedesSecond first.modifiersDetail second.modifiersDetail (anyModifier first.grabtype) <&&>
    detailSupersedesSecond first.detail second.detail anyKey

/-- The devices of two grabs of one type, as `GrabMatchesSecond` compares them. -/
def devicesMatch (first second : Target) (ignoreDevice : Bool) : Bool :=
  if first.grabtype = .xi2 then
    if first.device = .allDevices ∨ second.device = .allDevices then true
    else if first.device = .allMasterDevices then decide (second.device = .allMasterDevices) || second.device.isMaster
    else if second.device = .allMasterDevices then decide (first.device = .allMasterDevices) || first.device.isMaster
    else decide (second.device = first.device)
  else ignoreDevice || (decide (first.device = second.device) && decide (first.modifierDevice = second.modifierDevice))

/-- What is passed for `ignoreDevice`: the devices of core grabs do not matter. -/
def Target.ignoresDevice (t : Target) : Bool := decide (t.grabtype = .core)

def grabMatchesSecond (first second : Grab) (ignoreDevice : Bool) : Except Fault Bool :=
  if first.grabtype ≠ second.grabtype then .ok false
  else if devicesMatch first.toTarget second.toTarget ignoreDevice = false then .ok false
  else if first.type ≠ second.type then .ok false
  else
    let any := anyModifier first.grabtype
    (grabSupersedesSecond first second <||> grabSupersedesSecond second first) <||>
    (detailSupersedesSecond second.detail first.detail anyKey <&&>
      detailSupersedesSecond first.modifiersDetail second.modifiersDetail any) <||>
    (detailSupersedesSecond first.detail second.detail anyKey <&&>
      detailSupersedesSecond second.modifiersDetail first.modifiersDetail any)

def grabsAreIdentical (first second : Grab) : Except Fault Bool :=
  if first.grabtype ≠ second.grabtype then .ok false
  else if first.device ≠ second.device ∨ first.modifierDevice ≠ second.modifierDevice ∨ first.type ≠ second.type then .ok false
  else
    let any := anyModifier first.grabtype
    (detailSupersedesSecond first.detail second.detail anyKey <&&>
      detailSupersedesSecond second.detail first.detail anyKey) <&&>
    (detailSupersedesSecond first.modifiersDetail second.modifiersDetail any <&&>
      detailSupersedesSecond second.modifiersDetail first.modifiersDetail any)

end Compare

section Create

/-- `GrabMask`: the core mask, and where the XI2 mask is; `none` is `NULL`. -/
structure GrabMask where
  core : ℕ
  xi2mask : Option ℕ

/-- `GrabParameters`, as far as the lists need it. -/
structure GrabParameters where
  ownerEvents : ℕ
  thisDeviceMode : ℕ
  otherDevicesMode : ℕ
  modifiers : ℕ

def oneBit (n : ℕ) : Bool := decide (n%2 = 1)

/-- `CreateGrab`. The key or button is a `KeyCode`. -/
def createGrab (client : ℕ) (target : Target) (mask : GrabMask) (param : GrabParameters) (keybut : ℕ)
    (confineTo cursor : Option XID) : Except Fault Grab :=
  let grab (eventMask xi2mask : ℕ) (h : target.grabtype ≠ .xi2 → xi2mask = 0) : Grab :=
    { toTarget := target
      ownerEvents := oneBit param.ownerEvents
      keyboardMode := oneBit param.thisDeviceMode
      pointerMode := oneBit param.otherDevicesMode
      confineTo := confineTo
      cursor := cursor
      eventMask := eventMask
      xi2mask := xi2mask
      client := client
      modifiersDetail := ⟨param.modifiers,none⟩
      detail := ⟨keybut%256,none⟩
      detail_lt := Nat.mod_lt _ (by decide)
      no_xi2mask := h }
  if h : target.grabtype = .xi2 then
    match mask.xi2mask with
    | none => .error .nullMask
    | some m => .ok (grab 0 m fun hn => absurd h hn)
  else .ok (grab mask.core 0 fun _ => rfl)

end Create

section Delete

/-- The allocations for one grab of the list: the mask of `UPDATE`, the new grab, its mask, `MakeWindowOptional` and
`AddResource`. -/
structure Allocs where
  mask : Bool
  grab : Bool
  newMask : Bool
  optional : Bool
  resource : Bool

/-- The two masks of a grab. -/
inductive Part
  | detail | modifiers
deriving DecidableEq

/-- What the loop of `DeletePassiveGrabFromList` puts down for a grab in `deletes`, `updates` and `adds`. -/
inductive Edit
  | keep
  | delete
  | update (part : Part) (mask : DetailMask)
  | split (detailMask : DetailMask) (new : Grab)
deriving DecidableEq

/-- `UPDATE`; `none` when there is no memory. -/
def update (alloc : Bool) (part : Part) (pMask : Option DetailMask) (exact : ℕ) : Except Fault (Option Edit) := do
  let mask ← deleteDetailFromMask alloc pMask exact
  .ok (mask.map (.update part))

/-- A grab of any detail and any modifiers loses one pair. The mask for the new grab is taken from `&grab->eventMask`; as a
pointer to an XI2 mask, what stands there is `eventMask` and `deviceMask`, and both are 0 in an XI2 grab. -/
def splitGrab (alloc : Allocs) (minuend grab : Grab) : Except Fault (Option Edit) := do
  let detailMask ← deleteDetailFromMask alloc.mask grab.detail.pMask minuend.detail.exact
  if alloc.grab then
    let param : GrabParameters :=
      ⟨grab.ownerEvents.toNat,grab.keyboardMode.toNat,grab.pointerMode.toNat,anyModifier minuend.grabtype⟩
    let new ← createGrab grab.client grab.toTarget ⟨grab.eventMask,none⟩ param minuend.detail.exact grab.confineTo grab.cursor
    let mask ← deleteDetailFromMask alloc.newMask grab.modifiersDetail.pMask minuend.modifiersDetail.exact
    match detailMask,mask with
    | some d,some k =>
      if alloc.optional && alloc.resource then
        .ok (some (.split d { new with modifiersDetail := ⟨new.modifiersDetail.exact,some k⟩ }))
      else .ok none
    | _,_ => .ok none
  else .ok none

def narrowGrab (alloc : Allocs) (minuend grab : Grab) : Except Fault (Option Edit) :=
  let any := anyModifier minuend.grabtype
  if grab.detail.exact = anyKey ∧ grab.modifiersDetail.exact ≠ any then
    update alloc.mask .detail grab.detail.pMask minuend.detail.exact
  else if grab.modifiersDetail.exact = any ∧ grab.detail.exact ≠ anyKey then
    update alloc.mask .modifiers grab.modifiersDetail.pMask minuend.modifiersDetail.exact
  else if minuend.detail.exact ≠ anyKey ∧ minuend.modifiersDetail.exact ≠ any then splitGrab alloc minuend grab
  else if minuend.detail.exact = anyKey then
    update alloc.mask .modifiers grab.modifiersDetail.pMask minuend.modifiersDetail.exact
  else update alloc.mask .detail grab.detail.pMask minuend.detail.exact

/-- One round of the loop of `DeletePassiveGrabFromList`; `none` when `ok` becomes false. -/
def editGrab (alloc : Allocs) (minuend grab : Grab) : Except Fault (Option Edit) := do
  if grab.client ≠ minuend.client then .ok (some .keep)
  else if !(← grabMatchesSecond grab minuend grab.ignoresDevice) then .ok (some .keep)
  else if ← grabSupersedesSecond minuend grab then .ok (some .delete)
  else narrowGrab alloc minuend grab

/-- The loop, from the grab with number `i` on. -/
def editGrabs (allocs : ℕ → Allocs) (minuend : Grab) : ℕ → List Grab → Except Fault (Option (List Edit))
  | _,[] => .ok (some [])
  | i,grab::rest => do
    match ← editGrab (allocs i) minuend grab with
    | none => .ok none
    | some e =>
      let es ← editGrabs allocs minuend (i+1) rest
      .ok (es.map (e::·))

/-- What is left of a grab. -/
def Edit.apply (grab : Grab) : Edit → Option Grab
  | .keep => some grab
  | .delete => none
  | .update .detail mask => some { grab with detail := ⟨grab.detail.exact,some mask⟩, detail_lt := grab.detail_lt }
  | .update .modifiers mask => some { grab with modifiersDetail := ⟨grab.modifiersDetail.exact,some mask⟩ }
  | .split mask _ => some { grab with detail := ⟨grab.detail.exact,some mask⟩, detail_lt := grab.detail_lt }

def Edit.added : Edit → Option Grab
  | .split _ new => some new
  | _ => none

/-- Whether the allocations of a call succeed: the arrays, and those for each grab of the list. -/
structure Memory where
  arrays : Bool
  grabs : ℕ → Allocs

def afterEdits (grabs : List Grab) (es : List Edit) : List Grab :=
  (es.filterMap Edit.added).reverse ++ (grabs.zip es).filterMap fun p => p.2.apply p.1

/-- `DeletePassiveGrabFromList`: what it returns, and the list. After a failure the new grabs are freed, and nothing has been
done to the list. -/
def deletePassiveGrabFromList (memory : Memory) (grabs : List Grab) (minuend : Grab) : Except Fault (Bool × List Grab) :=
  if grabs = [] then .ok (true,[])
  else if memory.arrays = false then .ok (false,grabs)
  else do
    match ← editGrabs memory.grabs minuend 0 grabs with
    | none => .ok (false,grabs)
    | some es => .ok (true,afterEdits grabs es)

end Delete

section Add

inductive Status
  | success | badAccess | badAlloc | badValue | badMatch | badWindow | badDevice | badCursor | badImplementation
deriving DecidableEq

/-- The first loop of `AddPassiveGrabToList`. -/
def grabbedByOther (new : Grab) : List Grab → Except Fault Bool
  | [] => .ok false
  | grab::rest => do
    if ← grabMatchesSecond new grab new.ignoresDevice then
      if new.client ≠ grab.client then .ok true else grabbedByOther new rest
    else grabbedByOther new rest

/-- The first grab that the new one replaces. -/
def findIdentical (new : Grab) : List Grab → Except Fault (Option Grab)
  | [] => .ok none
  | grab::rest => do
    if ← grabsAreIdentical new grab then .ok (some grab) else findIdentical new rest

/-- What `AddPassiveGrabToList` learns from outside: the device access callback, `MakeWindowOptional`, `AddResource`, and the
memory of `DeletePassiveGrabFromList`. -/
structure Outside where
  access : Status
  optional : Bool
  resource : Bool
  memory : Memory

def removeIdentical (memory : Memory) (grabs : List Grab) (new : Grab) : Except Fault (List Grab) := do
  match ← findIdentical new grabs with
  | none => .ok grabs
  | some grab => Prod.snd <$> deletePassiveGrabFromList memory grabs grab

/-- `AddPassiveGrabToList`. When `AddResource` fails it takes the new grab off the list again. -/
def addPassiveGrabToList (out : Outside) (grabs : List Grab) (new : Grab) : Except Fault (Status × List Grab) := do
  if ← grabbedByOther new grabs then .ok (.badAccess,grabs)
  else if out.access ≠ .success then .ok (out.access,grabs)
  else
    let grabs' ← removeIdentical out.memory grabs new
    if out.optional = false then .ok (.badAlloc,grabs')
    else if out.resource = false then .ok (.badAlloc,grabs')
    else .ok (.success,new::grabs')

end Add

end Xlibre.Dix.Grabs
