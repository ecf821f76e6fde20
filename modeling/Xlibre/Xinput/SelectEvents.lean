import Xlibre.Xinput.Masks

/-! The request XISelectEvents: a pass that validates the masks of the request, and one that sets them. -/
namespace Xlibre.Xinput
open Xlibre.Lib

/-- The bytes from the start of the request on. What lies behind its end can be read as well. -/
abbrev Memory := ℕ → BitVec 8

def xiAllDevices : ℕ := 0
def xiAllMasterDevices : ℕ := 1

def xiHierarchyChanged : ℕ := 11
def xiRawKeyPress : ℕ := 13
def xiTouchBegin : ℕ := 18
def xiGesturePinchBegin : ℕ := 27
def xiGestureSwipeBegin : ℕ := 30
def xiGestureSwipeUpdate : ℕ := 31
def xi2LastEvent : ℕ := 32

/-- XI_RawKeyPress to XI_RawMotion, and XI_RawTouchBegin to XI_RawTouchEnd. -/
def rawEvents : List ℕ := [13,14,15,16,17,22,23,24]

def touchEvents : List ℕ := [18,19,20]
def xiTouchOwnership : ℕ := 21
def pinchEvents : List ℕ := [27,28,29]
def swipeEvents : List ℕ := [30,31,32]

/-- The size of the request without its masks, and that of the head of a mask. -/
def szXISelectEventsReq : ℕ := 12
def szXIEventMask : ℕ := 4

def bytesToInt32 (bytes : ℕ) : ℕ := (bytes+3)/4

namespace Memory

def swaps (m : Memory) (a : ℕ) : Memory := Function.update (Function.update m a (m (a+1))) (a+1) (m a)

def swapl (m : Memory) (a : ℕ) : Memory := fun i =>
  if i = a then m (a+3) else if i = a+1 then m (a+2) else if i = a+2 then m (a+1) else if i = a+3 then m a else m i

def card16 (m : Memory) (bigEndian : Bool) (a : ℕ) : ℕ :=
  if bigEndian then (m a).toNat*256 + (m (a+1)).toNat else (m (a+1)).toNat*256 + (m a).toNat

def card32 (m : Memory) (bigEndian : Bool) (a : ℕ) : ℕ :=
  if bigEndian then m.card16 bigEndian a*65536 + m.card16 bigEndian (a+2)
  else m.card16 bigEndian (a+2)*65536 + m.card16 bigEndian a

def bitIsOn (m : Memory) (a : ℕ) (bit : ℕ) : Bool := (m (a + bit/8)).getLsbD (bit%8)

end Memory

/-- A status that is not Success, and the client's error value where it is set. -/
structure Reject where
  status : Status
  errorValue : Option ℕ
  deriving DecidableEq, Repr

/-- What the request's client and the server find under the ids that it names. -/
structure Lookups (W : Type) where
  window : ℕ → Except Status W
  device : ℕ → Status
  serverDevice : ℕ → Bool

structure Request where
  client : ℕ
  swapped : Bool
  reqLen : ℕ
  bytes : Memory

/-- The swapping of the heads of the masks, over `len` words. -/
def swapMasks (bigEndian : Bool) : ℕ → ℕ → ℕ → Memory → Except Reject Memory
  | 0, _, _, m => .ok m
  | i+1, evmask, len, m =>
    if len < 1 then .error ⟨.badLength,none⟩
    else
      let m := (m.swaps evmask).swaps (evmask+2)
      let maskLen := m.card16 bigEndian (evmask+2)
      if len-1 < maskLen then .error ⟨.badLength,none⟩
      else swapMasks bigEndian i (evmask + szXIEventMask + maskLen*4) (len-1-maskLen) m

/-- The request with the fields `win` and `num_masks` in the server's byte order. -/
def Request.fieldsSwapped (r : Request) : Memory := if r.swapped then (r.bytes.swapl 4).swaps 8 else r.bytes

def Request.masksSwapped (r : Request) (bigEndian : Bool) (numMasks : ℕ) (m : Memory) : Except Reject Memory :=
  if r.swapped then
    swapMasks bigEndian numMasks szXISelectEventsReq (r.reqLen - bytesToInt32 szXISelectEventsReq) m
  else .ok m

section Windows

variable {W : Type}

/-- `check_for_touch_selection_conflicts` over the records of the window. -/
def checkForTouchSelectionConflicts (L : Lookups W) (client deviceid evtype : ℕ) : List InputClient → Status
  | [] => .success
  | A::others =>
    if sameClient client A then checkForTouchSelectionConflicts L client deviceid evtype others
    else if deviceid ≠ xiAllDevices ∧ deviceid ≠ xiAllMasterDevices ∧ ¬L.serverDevice deviceid then .badImplementation
    else if A.xi2mask.isSet xiAllDevices evtype ∧ deviceid = xiAllDevices then .badAccess
    else if A.xi2mask.isSet xiAllMasterDevices evtype ∧ deviceid = xiAllMasterDevices then .badAccess
    else if A.xi2mask.isSet deviceid evtype then .badAccess
    else checkForTouchSelectionConflicts L client deviceid evtype others

def rejectIf (c : Prop) [Decidable c] (e : Reject) : Except Reject Unit := if c then .error e else .ok ()

/-- Some bits of a mask that come with all of others. -/
def checkAllOrNone (m : Memory) (bits : ℕ) (anyOf allOf : List ℕ) (errorValue : ℕ) : Except Reject Unit :=
  rejectIf (anyOf.any (m.bitIsOn bits) ∧ ¬allOf.all (m.bitIsOn bits)) ⟨.badValue,errorValue⟩

def checkTouch (m : Memory) (bits : ℕ) : Except Reject Unit :=
  checkAllOrNone m bits (touchEvents ++ [xiTouchOwnership]) touchEvents xiTouchBegin

def checkPinch (m : Memory) (bits : ℕ) : Except Reject Unit :=
  checkAllOrNone m bits pinchEvents pinchEvents xiGesturePinchBegin

def checkSwipe (m : Memory) (bits maskLen : ℕ) : Except Reject Unit :=
  if maskLen = 1 then
    rejectIf (m.bitIsOn bits xiGestureSwipeBegin ∨ m.bitIsOn bits xiGestureSwipeUpdate) ⟨.badValue,xiGestureSwipeBegin⟩
  else if maskLen ≥ 2 then checkAllOrNone m bits swipeEvents swipeEvents xiGestureSwipeBegin
  else .ok ()

/-- One exclusive event of a mask. -/
def checkConflicts (L : Lookups W) (m : Memory) (bits client deviceid : ℕ) (others : List InputClient) (evtype : ℕ) :
    Except Reject Unit :=
  let rc := checkForTouchSelectionConflicts L client deviceid evtype others
  rejectIf (m.bitIsOn bits evtype ∧ rc ≠ .success) ⟨rc,none⟩

/-- `XICheckInvalidMaskBits` for a mask of `len` bytes. -/
def xiCheckInvalidMaskBits (m : Memory) (mask len : ℕ) : Except Reject Unit :=
  if len ≥ xi2MaskSize then
    match (List.range' (xi2LastEvent+1) (len*8-(xi2LastEvent+1))).find? (m.bitIsOn mask) with
    | some i => .error ⟨.badValue,some i⟩
    | none => .ok ()
  else .ok ()

def checkEvents (L : Lookups W) (m : Memory) (bits client deviceid maskLen : ℕ) (others : List InputClient) :
    Except Reject Unit :=
  if maskLen ≥ 1 then do
    checkTouch m bits
    checkPinch m bits
    checkSwipe m bits maskLen
    checkConflicts L m bits client deviceid others xiTouchBegin
    checkConflicts L m bits client deviceid others xiGesturePinchBegin
    checkConflicts L m bits client deviceid others xiGestureSwipeBegin
  else .ok ()

def checkDevice (L : Lookups W) (deviceid : ℕ) : Status :=
  if deviceid ≠ xiAllDevices ∧ deviceid ≠ xiAllMasterDevices then L.device deviceid else .success

/-- The checks made on one mask of the request, of `maskLen` words. -/
def checkEventMask (L : Lookups W) (m : Memory) (bits client deviceid maskLen : ℕ) (isRoot : Bool)
    (others : List InputClient) : Except Reject Unit := do
  rejectIf (checkDevice L deviceid ≠ .success) ⟨checkDevice L deviceid,none⟩
  rejectIf (deviceid ≠ xiAllDevices ∧ maskLen ≥ 1 ∧ m.bitIsOn bits xiHierarchyChanged) ⟨.badValue,xiHierarchyChanged⟩
  rejectIf (isRoot = false ∧ maskLen ≥ 1 ∧ rawEvents.any (m.bitIsOn bits)) ⟨.badValue,xiRawKeyPress⟩
  checkEvents L m bits client deviceid maskLen others
  xiCheckInvalidMaskBits m bits (maskLen*4)

/-- The pass that validates: it gives the length in bytes of what it has gone over. -/
def checkMasks (bigEndian : Bool) (L : Lookups W) (m : Memory) (client reqLen : ℕ) (isRoot : Bool)
    (others : List InputClient) : ℕ → ℕ → ℕ → Except Reject ℕ
  | 0, _, len => .ok len
  | numMasks+1, evmask, len => do
    let maskLen := m.card16 bigEndian (evmask+2)
    let len := len + (szXIEventMask + maskLen*4)
    rejectIf (bytesToInt32 len > reqLen) ⟨.badLength,none⟩
    checkEventMask L m (evmask+szXIEventMask) client (m.card16 bigEndian evmask) maskLen isRoot others
    checkMasks bigEndian L m client reqLen isRoot others numMasks (evmask + maskLen*4 + szXIEventMask) len

variable [DecidableEq W]

/-- The pass that sets the masks. `alloc` gives what is allocated for each of them. -/
def setMasks (bigEndian : Bool) (T : Lib.Tree W) (m : Memory) (alloc : ℕ → Allocs) (win : W) (client : ℕ) :
    ℕ → ℕ → Selections W → Except Fault (Status × Selections W)
  | 0, _, s => .ok (.success,s)
  | numMasks+1, evmask, s => do
    let maskLen := m.card16 bigEndian (evmask+2)
    let (rc,s) ← xiSetEventMask T (alloc numMasks) s (m.card16 bigEndian evmask) win client (maskLen*4)
      (fun j => m (evmask + szXIEventMask + j))
    if rc ≠ .success then return (.badAlloc,s)
    setMasks bigEndian T m alloc win client numMasks (evmask + maskLen*4 + szXIEventMask) s

/-- What comes before any mask is set: the window, the number of masks and the bytes in the server's order, or `none`
for the window that the client may not see. -/
def validateRequest (bigEndian : Bool) (T : Lib.Tree W) (L : Lookups W) (s : Selections W) (r : Request) :
    Except Reject (Option (W × ℕ × Memory)) := do
  rejectIf (r.reqLen < szXISelectEventsReq/4) ⟨.badLength,none⟩
  let m := r.fieldsSwapped
  let numMasks := m.card16 bigEndian 8
  let m ← r.masksSwapped bigEndian numMasks m
  rejectIf (numMasks = 0) ⟨.badValue,none⟩
  match L.window (m.card32 bigEndian 4) with
  | .error .badAccess => return none
  | .error rc => throw ⟨rc,none⟩
  | .ok win =>
    let len ← checkMasks bigEndian L m r.client r.reqLen (T.parent win).isNone (s.clients win) numMasks
      szXISelectEventsReq szXISelectEventsReq
    rejectIf (bytesToInt32 len ≠ r.reqLen) ⟨.badLength,none⟩
    return some (win,numMasks,m)

def procXISelectEvents (bigEndian : Bool) (T : Lib.Tree W) (L : Lookups W) (alloc : ℕ → Allocs) (s : Selections W)
    (r : Request) : Except Fault (Status × Option ℕ × Selections W) :=
  match validateRequest bigEndian T L s r with
  | .error e => .ok (e.status,e.errorValue,s)
  | .ok none => .ok (.success,none,s)
  | .ok (some (win,numMasks,m)) => do
    let (rc,s) ← setMasks bigEndian T m alloc win r.client numMasks szXISelectEventsReq s
    return (rc,none,s)

/-- The selections that requests of any clients lead to from no selections at all, while the server goes on. -/
inductive Reach (bigEndian : Bool) (T : Lib.Tree W) : Selections W → Prop
  | start (fakeID : ℕ → ℕ) : Reach bigEndian T ⟨fun _ => none,fakeID⟩
  | request {s s' : Selections W} {L : Lookups W} {alloc : ℕ → Allocs} {r : Request} {rc : Status} {e : Option ℕ} :
      Reach bigEndian T s → procXISelectEvents bigEndian T L alloc s r = .ok (rc,e,s') → Reach bigEndian T s'

end Windows

end Xlibre.Xinput
