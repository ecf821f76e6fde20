import Xlibre.Dix.Grabs.Passive

/-! The requests that grab and ungrab passively, with the checks they make first. -/
namespace Xlibre.Dix.Grabs

section Environment

/-- What a request learns from the rest of the server: devices, lookups, callbacks and memory. `out` is for its calls of
`AddPassiveGrabToList` and `DeletePassiveGrabFromList`, by their number. -/
structure Env where
  keyboard : Device
  pointer : Device
  modifierDevice : Device → Device
  isKeyboard : Device → Bool
  hasKeys : Device → Bool
  hasButtons : Device → Bool
  minKeyCode : Device → ℕ
  maxKeyCode : Device → ℕ
  deviceKeyPress : ℕ
  deviceButtonPress : ℕ
  lookupDevice : ℕ → Except Status Device
  lookupWindow : XID → Status
  lookupCursor : XID → Status
  access : Device → Status
  createMaskFromList : Except Status ℕ
  invalidMaskBits : Bool
  alloc : Bool
  out : ℕ → Outside

/-- Bits outside `AllModifiersMask`, which are the low eight. -/
def strangeModifiers (modifiers : ℕ) : Bool := decide (256 ≤ modifiers)

def badModifiers (modifiers : ℕ) : Bool := decide (modifiers ≠ anyModifier .core) && strangeModifiers modifiers

def grabModeSync : ℕ := 0
def grabModeAsync : ℕ := 1
def xiGrabModeTouch : ℕ := 2

def checkGrabValues (param : GrabParameters) : Status :=
  if param.thisDeviceMode ≠ grabModeSync ∧ param.thisDeviceMode ≠ grabModeAsync ∧ param.thisDeviceMode ≠ xiGrabModeTouch then
    .badValue
  else if param.otherDevicesMode ≠ grabModeSync ∧ param.otherDevicesMode ≠ grabModeAsync ∧
      param.otherDevicesMode ≠ xiGrabModeTouch then .badValue
  else if param.modifiers ≠ anyModifier .core ∧ param.modifiers ≠ anyModifier .xi2 ∧ strangeModifiers param.modifiers then
    .badValue
  else if param.ownerEvents ≠ 0 ∧ param.ownerEvents ≠ 1 then .badValue
  else .success

def badKey (env : Env) (dev : Device) (key : ℕ) : Bool :=
  (decide (env.maxKeyCode dev < key) || decide (key < env.minKeyCode dev)) && decide (key ≠ anyKey)

/-- The end of a grab request: `CreateGrab` and `AddPassiveGrabToList`. -/
def addGrab (env : Env) (i client : ℕ) (target : Target) (mask : GrabMask) (param : GrabParameters) (keybut : ℕ)
    (confineTo cursor : Option XID) (grabs : List Grab) : Except Fault (Status × List Grab) :=
  if env.alloc = false then .ok (.badAlloc,grabs)
  else do
    let grab ← createGrab client target mask param keybut confineTo cursor
    addPassiveGrabToList (env.out i) grabs grab

/-- The end of an ungrab request: a temporary grab for `DeletePassiveGrabFromList`. -/
def removeGrab (env : Env) (i client : ℕ) (target : Target) (modifiers keybut : ℕ) (grabs : List Grab) :
    Except Fault (Status × List Grab) :=
  if env.alloc = false then .ok (.badAlloc,grabs)
  else do
    let grab ← createGrab client target ⟨0,some 0⟩ ⟨0,0,0,modifiers⟩ keybut none none
    let r ← deletePassiveGrabFromList (env.out i).memory grabs grab
    .ok (if r.1 then .success else .badAlloc,r.2)

/-- A resource that may be `None`. -/
def lookupOrNone (lookup : XID → Status) (id : XID) : Status := if id = 0 then .success else lookup id

def orNone (id : XID) : Option XID := if id = 0 then none else some id

end Environment

section Core

def procGrabKey (env : Env) (client : ℕ) (window : XID) (ownerEvents keyboardMode pointerMode : UInt8) (modifiers : UInt16)
    (key : UInt8) (grabs : List Grab) : Except Fault (Status × List Grab) :=
  let param : GrabParameters := ⟨ownerEvents.toNat,keyboardMode.toNat,pointerMode.toNat,modifiers.toNat⟩
  if checkGrabValues param ≠ .success then .ok (checkGrabValues param,grabs)
  else if badKey env env.keyboard key.toNat then .ok (.badValue,grabs)
  else if env.lookupWindow window ≠ .success then .ok (env.lookupWindow window,grabs)
  else addGrab env 0 client ⟨.core,2,env.keyboard,env.keyboard⟩ ⟨3,none⟩ param key.toNat none none grabs

def procUngrabKey (env : Env) (client : ℕ) (window : XID) (modifiers : UInt16) (key : UInt8) (grabs : List Grab) :
    Except Fault (Status × List Grab) :=
  if env.lookupWindow window ≠ .success then .ok (env.lookupWindow window,grabs)
  else if badKey env env.keyboard key.toNat then .ok (.badValue,grabs)
  else if badModifiers modifiers.toNat then .ok (.badValue,grabs)
  else removeGrab env 0 client ⟨.core,2,env.keyboard,env.keyboard⟩ modifiers.toNat key.toNat grabs

/-- `PointerGrabMask`: bits 2 to 14. -/
def pointerGrabMask : ℕ := 0x7ffc

def procGrabButton (env : Env) (client : ℕ) (window : XID) (ownerEvents pointerMode keyboardMode : UInt8) (eventMask : UInt16)
    (confineTo cursor : XID) (modifiers : UInt16) (button : UInt8) (grabs : List Grab) : Except Fault (Status × List Grab) :=
  if pointerMode.toNat ≠ grabModeSync ∧ pointerMode.toNat ≠ grabModeAsync then .ok (.badValue,grabs)
  else if keyboardMode.toNat ≠ grabModeSync ∧ keyboardMode.toNat ≠ grabModeAsync then .ok (.badValue,grabs)
  else if badModifiers modifiers.toNat then .ok (.badValue,grabs)
  else if ownerEvents.toNat ≠ 0 ∧ ownerEvents.toNat ≠ 1 then .ok (.badValue,grabs)
  else if eventMask.toNat &&& pointerGrabMask ≠ eventMask.toNat then .ok (.badValue,grabs)
  else if env.lookupWindow window ≠ .success then .ok (env.lookupWindow window,grabs)
  else if lookupOrNone env.lookupWindow confineTo ≠ .success then .ok (lookupOrNone env.lookupWindow confineTo,grabs)
  else if lookupOrNone env.lookupCursor cursor ≠ .success then .ok (lookupOrNone env.lookupCursor cursor,grabs)
  else if env.access env.pointer ≠ .success then .ok (env.access env.pointer,grabs)
  else
    addGrab env 0 client ⟨.core,4,env.pointer,env.modifierDevice env.pointer⟩ ⟨eventMask.toNat,none⟩
      ⟨ownerEvents.toNat,keyboardMode.toNat,pointerMode.toNat,modifiers.toNat⟩ button.toNat (orNone confineTo) (orNone cursor) grabs

def procUngrabButton (env : Env) (client : ℕ) (window : XID) (modifiers : UInt16) (button : UInt8) (grabs : List Grab) :
    Except Fault (Status × List Grab) :=
  if badModifiers modifiers.toNat then .ok (.badValue,grabs)
  else if env.lookupWindow window ≠ .success then .ok (env.lookupWindow window,grabs)
  else removeGrab env 0 client ⟨.core,4,env.pointer,env.modifierDevice env.pointer⟩ modifiers.toNat button.toNat grabs

end Core

section Xi

/-- `GrabButton` of the input extension. -/
def grabButton (env : Env) (i client : ℕ) (window : XID) (dev modifierDevice : Device) (button : ℕ) (param : GrabParameters)
    (cursor : XID) (level : InputLevel) (mask : GrabMask) (grabs : List Grab) : Except Fault (Status × List Grab) :=
  let type := if level = .xi then env.deviceButtonPress else 4
  if checkGrabValues param ≠ .success then .ok (checkGrabValues param,grabs)
  else if lookupOrNone env.lookupCursor cursor ≠ .success then .ok (lookupOrNone env.lookupCursor cursor,grabs)
  else if env.access dev ≠ .success then .ok (env.access dev,grabs)
  else if env.lookupWindow window ≠ .success then .ok (env.lookupWindow window,grabs)
  else addGrab env i client ⟨level,type,dev,modifierDevice⟩ mask param button none (orNone cursor) grabs

def grabKey (env : Env) (i client : ℕ) (window : XID) (dev modifierDevice : Device) (key : ℕ) (param : GrabParameters)
    (level : InputLevel) (mask : GrabMask) (grabs : List Grab) : Except Fault (Status × List Grab) :=
  let type := if level = .xi then env.deviceKeyPress else 2
  if checkGrabValues param ≠ .success then .ok (checkGrabValues param,grabs)
  else if dev ≠ .allDevices ∧ dev ≠ .allMasterDevices ∧ env.hasKeys dev = false then .ok (.badMatch,grabs)
  else if level = .xi ∧ badKey env dev key then .ok (.badValue,grabs)
  else if env.lookupWindow window ≠ .success then .ok (env.lookupWindow window,grabs)
  else if env.access dev ≠ .success then .ok (env.access dev,grabs)
  else addGrab env i client ⟨level,type,dev,modifierDevice⟩ mask param key none none grabs

/-- `GrabWindow`: `Enter` and `FocusIn`. -/
def grabWindow (env : Env) (i client : ℕ) (window : XID) (dev : Device) (type : ℕ) (param : GrabParameters) (cursor : XID)
    (mask : GrabMask) (grabs : List Grab) : Except Fault (Status × List Grab) :=
  if checkGrabValues param ≠ .success then .ok (checkGrabValues param,grabs)
  else if env.lookupWindow window ≠ .success then .ok (env.lookupWindow window,grabs)
  else if lookupOrNone env.lookupCursor cursor ≠ .success then .ok (lookupOrNone env.lookupCursor cursor,grabs)
  else if env.access dev ≠ .success then .ok (env.access dev,grabs)
  else addGrab env i client ⟨.xi2,type,dev,dev⟩ mask param 0 none (orNone cursor) grabs

def grabTouchOrGesture (env : Env) (i client : ℕ) (window : XID) (dev modifierDevice : Device) (type : ℕ) (param : GrabParameters)
    (mask : GrabMask) (grabs : List Grab) : Except Fault (Status × List Grab) :=
  if checkGrabValues param ≠ .success then .ok (checkGrabValues param,grabs)
  else if env.lookupWindow window ≠ .success then .ok (env.lookupWindow window,grabs)
  else if env.access dev ≠ .success then .ok (env.access dev,grabs)
  else addGrab env i client ⟨.xi2,type,dev,modifierDevice⟩ mask param 0 none none grabs

def useXKeyboard : ℕ := 0xff

def xiModifierDevice (env : Env) (id : ℕ) : Except Status Device :=
  if id = useXKeyboard then (if env.access env.keyboard ≠ .success then .error (env.access env.keyboard) else .ok env.keyboard)
  else
    match env.lookupDevice id with
    | .error e => .error e
    | .ok mdev => if env.hasKeys mdev then .ok mdev else .error .badMatch

/-- `ProcXGrabDeviceKey` and `ProcXGrabDeviceButton` up to the call of `GrabKey` or `GrabButton`, and what comes after. -/
def procXGrabDevice (env : Env) (device modifierDevice : ℕ) (grabs : List Grab)
    (grab : Device → Device → ℕ → Except Fault (Status × List Grab)) : Except Fault (Status × List Grab) :=
  match env.lookupDevice device with
  | .error e => .ok (e,grabs)
  | .ok dev =>
    match xiModifierDevice env modifierDevice with
    | .error e => .ok (e,grabs)
    | .ok mdev =>
      match env.createMaskFromList with
      | .error e => .ok (e,grabs)
      | .ok mask => grab dev mdev mask

def procXGrabDeviceKey (env : Env) (client : ℕ) (window : XID) (device modifierDevice : ℕ)
    (ownerEvents thisDeviceMode otherDevicesMode : UInt8) (modifiers : UInt16) (key : UInt8) (grabs : List Grab) :
    Except Fault (Status × List Grab) :=
  procXGrabDevice env device modifierDevice grabs fun dev mdev mask =>
    grabKey env 0 client window dev mdev key.toNat
      ⟨ownerEvents.toNat,thisDeviceMode.toNat,otherDevicesMode.toNat,modifiers.toNat⟩ .xi ⟨mask,none⟩ grabs

def procXGrabDeviceButton (env : Env) (client : ℕ) (window : XID) (device modifierDevice : ℕ)
    (ownerEvents thisDeviceMode otherDevicesMode : UInt8) (modifiers : UInt16) (button : UInt8) (grabs : List Grab) :
    Except Fault (Status × List Grab) :=
  procXGrabDevice env device modifierDevice grabs fun dev mdev mask =>
    grabButton env 0 client window dev mdev button.toNat
      ⟨ownerEvents.toNat,thisDeviceMode.toNat,otherDevicesMode.toNat,modifiers.toNat⟩ 0 .xi ⟨mask,none⟩ grabs

/-- The modifier device of an XI ungrab request, where a failing lookup is `BadDevice`. -/
def xiUngrabModifierDevice (env : Env) (id : ℕ) : Except Status Device :=
  if id = useXKeyboard then .ok env.keyboard
  else
    match env.lookupDevice id with
    | .error _ => .error .badDevice
    | .ok mdev => if env.hasKeys mdev then .ok mdev else .error .badMatch

/-- `ProcXUngrabDeviceKey` and `ProcXUngrabDeviceButton`; the answer is `Success` even if memory runs out later. -/
def procXUngrabDevice (env : Env) (client : ℕ) (window : XID) (device modifierDevice : ℕ) (type : ℕ) (usable : Device → Bool)
    (bad : Device → Bool) (modifiers : UInt16) (keybut : UInt8) (grabs : List Grab) : Except Fault (Status × List Grab) :=
  match env.lookupDevice device with
  | .error e => .ok (e,grabs)
  | .ok dev =>
    if usable dev = false then .ok (.badMatch,grabs)
    else
      match xiUngrabModifierDevice env modifierDevice with
      | .error e => .ok (e,grabs)
      | .ok mdev =>
        if env.lookupWindow window ≠ .success then .ok (env.lookupWindow window,grabs)
        else if bad dev then .ok (.badValue,grabs)
        else if badModifiers modifiers.toNat then .ok (.badValue,grabs)
        else if env.alloc = false then .ok (.badAlloc,grabs)
        else (fun r => (.success,r.2)) <$> removeGrab env 0 client ⟨.xi,type,dev,mdev⟩ modifiers.toNat keybut.toNat grabs

def procXUngrabDeviceKey (env : Env) (client : ℕ) (window : XID) (device modifierDevice : ℕ) (modifiers : UInt16) (key : UInt8)
    (grabs : List Grab) : Except Fault (Status × List Grab) :=
  procXUngrabDevice env client window device modifierDevice env.deviceKeyPress env.hasKeys
    (fun dev => badKey env dev key.toNat) modifiers key grabs

def procXUngrabDeviceButton (env : Env) (client : ℕ) (window : XID) (device modifierDevice : ℕ) (modifiers : UInt16)
    (button : UInt8) (grabs : List Grab) : Except Fault (Status × List Grab) :=
  procXUngrabDevice env client window device modifierDevice env.deviceButtonPress env.hasButtons (fun _ => false) modifiers
    button grabs

end Xi

section Xi2

inductive XiGrabtype
  | button | keycode | enter | focusIn | touchBegin | gesturePinchBegin | gestureSwipeBegin
deriving DecidableEq

/-- `grab_type` of a request. -/
def XiGrabtype.ofRequest : ℕ → Option XiGrabtype
  | 0 => some .button
  | 1 => some .keycode
  | 2 => some .enter
  | 3 => some .focusIn
  | 4 => some .touchBegin
  | 5 => some .gesturePinchBegin
  | 6 => some .gestureSwipeBegin
  | _ => none

def XiGrabtype.eventType : XiGrabtype → ℕ
  | .button => 4
  | .keycode => 2
  | .enter => 7
  | .focusIn => 9
  | .touchBegin => 18
  | .gesturePinchBegin => 27
  | .gestureSwipeBegin => 30

def XiGrabtype.hasDetail (t : XiGrabtype) : Bool := decide (t = .button ∨ t = .keycode)

def xiDevice (env : Env) (deviceid : ℕ) : Except Status Device :=
  if deviceid = 0 then .ok .allDevices else if deviceid = 1 then .ok .allMasterDevices else env.lookupDevice deviceid

/-- One call of `GrabButton` and so on in `ProcXIPassiveGrabDevice`. -/
def xiGrab (env : Env) (i client : ℕ) (window : XID) (dev : Device) (t : XiGrabtype) (detail : ℕ) (cursor : XID)
    (param : GrabParameters) (mask : GrabMask) (grabs : List Grab) : Except Fault (Status × List Grab) :=
  match t with
  | .button => grabButton env i client window dev (env.modifierDevice dev) detail param cursor .xi2 mask grabs
  | .keycode => grabKey env i client window dev (env.modifierDevice dev) detail param .xi2 mask grabs
  | .enter => grabWindow env i client window dev t.eventType param cursor mask grabs
  | .focusIn => grabWindow env i client window dev t.eventType param cursor mask grabs
  | .touchBegin => grabTouchOrGesture env i client window dev (env.modifierDevice dev) t.eventType param mask grabs
  | .gesturePinchBegin => grabTouchOrGesture env i client window dev (env.modifierDevice dev) t.eventType param mask grabs
  | .gestureSwipeBegin => grabTouchOrGesture env i client window dev (env.modifierDevice dev) t.eventType param mask grabs

/-- The loop over the modifiers, from number `i` on. The status of each grab goes into the reply; values that
`CheckGrabValues` does not like end the request. -/
def xiGrabs (env : Env) (client : ℕ) (window : XID) (dev : Device) (t : XiGrabtype) (detail : ℕ) (cursor : XID)
    (param : GrabParameters) (mask : GrabMask) : ℕ → List UInt32 → List Grab → Except Fault (Status × List Grab)
  | _,[],grabs => .ok (.success,grabs)
  | i,m::rest,grabs =>
    if 255 < detail then xiGrabs env client window dev t detail cursor param mask (i+1) rest grabs
    else
      let param := { param with modifiers := m.toNat }
      if checkGrabValues param ≠ .success then .ok (checkGrabValues param,grabs)
      else do
        let r ← xiGrab env i client window dev t detail cursor param mask grabs
        xiGrabs env client window dev t detail cursor param mask (i+1) rest r.2

/-- `ProcXIPassiveGrabDevice`; `xi2mask` are the bits of the mask for the device. -/
def procXIPassiveGrabDevice (env : Env) (client : ℕ) (window : XID) (deviceid : UInt16) (grabType : UInt8) (detail : UInt32)
    (grabMode pairedDeviceMode ownerEvents : UInt8) (cursor : XID) (xi2mask : ℕ) (modifiers : List UInt32) (grabs : List Grab) :
    Except Fault (Status × List Grab) :=
  match xiDevice env deviceid.toNat with
  | .error e => .ok (e,grabs)
  | .ok dev =>
    match XiGrabtype.ofRequest grabType.toNat with
    | none => .ok (.badValue,grabs)
    | some t =>
      if t.hasDetail = false ∧ detail.toNat ≠ 0 then .ok (.badValue,grabs)
      else if t = .touchBegin ∧ (grabMode.toNat ≠ xiGrabModeTouch ∨ pairedDeviceMode.toNat ≠ grabModeAsync) then
        .ok (.badValue,grabs)
      else if env.invalidMaskBits then .ok (.badValue,grabs)
      else if env.alloc = false then .ok (.badAlloc,grabs)
      else
        let param : GrabParameters :=
          if env.isKeyboard dev then ⟨ownerEvents.toNat,grabMode.toNat,pairedDeviceMode.toNat,0⟩
          else ⟨ownerEvents.toNat,pairedDeviceMode.toNat,grabMode.toNat,0⟩
        if lookupOrNone env.lookupCursor cursor ≠ .success then .ok (lookupOrNone env.lookupCursor cursor,grabs)
        else if env.lookupWindow window ≠ .success then .ok (env.lookupWindow window,grabs)
        else if checkGrabValues param ≠ .success then .ok (checkGrabValues param,grabs)
        else xiGrabs env client window dev t detail.toNat cursor param ⟨0,some xi2mask⟩ 0 modifiers grabs

/-- The loop of `ProcXIPassiveUngrabDevice`, which looks at nothing that is returned. -/
def xiUngrabs (env : Env) (client : ℕ) (target : Target) (detail : ℕ) : ℕ → List UInt32 → List Grab →
    Except Fault (Status × List Grab)
  | _,[],grabs => .ok (.success,grabs)
  | i,m::rest,grabs => do
    let r ← removeGrab env i client target m.toNat detail grabs
    xiUngrabs env client target detail (i+1) rest r.2

def procXIPassiveUngrabDevice (env : Env) (client : ℕ) (window : XID) (deviceid : UInt16) (grabType : UInt8) (detail : UInt32)
    (modifiers : List UInt32) (grabs : List Grab) : Except Fault (Status × List Grab) :=
  match xiDevice env deviceid.toNat with
  | .error e => .ok (e,grabs)
  | .ok dev =>
    match XiGrabtype.ofRequest grabType.toNat with
    | none => .ok (.badValue,grabs)
    | some t =>
      if t.hasDetail = false ∧ detail.toNat ≠ 0 then .ok (.badValue,grabs)
      else if 255 < detail.toNat then .ok (.badValue,grabs)
      else if env.lookupWindow window ≠ .success then .ok (env.lookupWindow window,grabs)
      else if env.alloc = false then .ok (.badAlloc,grabs)
      else xiUngrabs env client ⟨.xi2,t.eventType,dev,env.modifierDevice dev⟩ detail.toNat 0 modifiers grabs

end Xi2

section Requests

inductive Req
  | grabKey (ownerEvents keyboardMode pointerMode : UInt8) (modifiers : UInt16) (key : UInt8)
  | ungrabKey (modifiers : UInt16) (key : UInt8)
  | grabButton (ownerEvents pointerMode keyboardMode : UInt8) (eventMask : UInt16) (confineTo cursor : XID) (modifiers : UInt16)
    (button : UInt8)
  | ungrabButton (modifiers : UInt16) (button : UInt8)
  | xGrabDeviceKey (device modifierDevice : ℕ) (ownerEvents thisDeviceMode otherDevicesMode : UInt8) (modifiers : UInt16)
    (key : UInt8)
  | xGrabDeviceButton (device modifierDevice : ℕ) (ownerEvents thisDeviceMode otherDevicesMode : UInt8) (modifiers : UInt16)
    (button : UInt8)
  | xUngrabDeviceKey (device modifierDevice : ℕ) (modifiers : UInt16) (key : UInt8)
  | xUngrabDeviceButton (device modifierDevice : ℕ) (modifiers : UInt16) (button : UInt8)
  | xiPassiveGrabDevice (deviceid : UInt16) (grabType : UInt8) (detail : UInt32) (grabMode pairedDeviceMode ownerEvents : UInt8)
    (cursor : XID) (xi2mask : ℕ) (modifiers : List UInt32)
  | xiPassiveUngrabDevice (deviceid : UInt16) (grabType : UInt8) (detail : UInt32) (modifiers : List UInt32)

/-- A request of a client for a window, with the list of that window. -/
def handle (env : Env) (client : ℕ) (window : XID) (grabs : List Grab) : Req → Except Fault (Status × List Grab)
  | .grabKey o k p m key => procGrabKey env client window o k p m key grabs
  | .ungrabKey m key => procUngrabKey env client window m key grabs
  | .grabButton o p k e w c m b => procGrabButton env client window o p k e w c m b grabs
  | .ungrabButton m b => procUngrabButton env client window m b grabs
  | .xGrabDeviceKey d md o t od m key => procXGrabDeviceKey env client window d md o t od m key grabs
  | .xGrabDeviceButton d md o t od m b => procXGrabDeviceButton env client window d md o t od m b grabs
  | .xUngrabDeviceKey d md m key => procXUngrabDeviceKey env client window d md m key grabs
  | .xUngrabDeviceButton d md m b => procXUngrabDeviceButton env client window d md m b grabs
  | .xiPassiveGrabDevice d t detail g p o c x ms => procXIPassiveGrabDevice env client window d t detail g p o c x ms grabs
  | .xiPassiveUngrabDevice d t detail ms => procXIPassiveUngrabDevice env client window d t detail ms grabs

def runRequests : List (Env × ℕ × XID × Req) → (XID → List Grab) → Except Fault (XID → List Grab)
  | [],s => .ok s
  | (env,client,window,req)::rest,s => do
    let r ← handle env client window (s window) req
    runRequests rest fun w => if w = window then r.2 else s w

end Requests

end Xlibre.Dix.Grabs
