import Mathlib.Data.BitVec

/-! The touch points that drivers report: `TouchResizeQueue`, `TouchFindByDDXID`, `TouchBeginDDXTouch`. -/
namespace Xlibre.Dix.Touch

structure DDXTouchPointInfo where
  clientId : BitVec 32
  active : Bool
  ddxId : BitVec 32
  emulatePointer : Bool
  deriving DecidableEq

/-- `TouchInitDDXTouchPoint`. -/
def initDDXTouchPoint : DDXTouchPointInfo := ⟨0,false,0,false⟩

inductive Mode
  | directTouch
  | dependentTouch
  deriving DecidableEq

/-- A device: the mode of its touch class, if it has one, and `last.touches`. -/
structure Device where
  touch : Option Mode
  touches : List DDXTouchPointInfo

/-- The devices and `next_client_id`. -/
structure Server where
  device : ℕ → Device
  nextClientId : BitVec 32

/-- `TouchResizeQueue`; none if there is no memory. -/
def resizeQueue (alloc : Bool) (touches : List DDXTouchPointInfo) : Option (List DDXTouchPointInfo) :=
  let size := touches.length + touches.length/2 + 1
  if alloc then some (touches ++ List.replicate (size - touches.length) initDDXTouchPoint) else none

/-- The loop of `TouchFindByDDXID`: the first touch point that is active and has the id. -/
def findDDXID (touches : List DDXTouchPointInfo) (ddxId : BitVec 32) : Option ℕ :=
  touches.findIdx? fun ti => ti.active && ti.ddxId == ddxId

/-- The inner loop of `TouchBeginDDXTouch` from place `i` on: whether the pointer is to be emulated, and the first touch
point that is not active. -/
def scan (emulate : Bool) (ti : Option ℕ) : ℕ → List DDXTouchPointInfo → Bool × Option ℕ
  | _,[] => (emulate,ti)
  | i,p::touches =>
    let emulate' := if p.active then false else emulate
    let ti' := if p.active then ti else if ti = none then some i else ti
    if !emulate' && ti'.isSome then (emulate',ti') else scan emulate' ti' (i+1) touches

/-- The outer loop: the queue is resized until a touch point is found. -/
def search (alloc : Bool) : ℕ → Bool → List DDXTouchPointInfo → Option (Bool × Option ℕ × List DDXTouchPointInfo)
  | 0,_,_ => none
  | fuel+1,emulate,touches =>
    let (emulate,ti) := scan emulate none 0 touches
    if ti.isSome then some (emulate,ti,touches)
    else
      match resizeQueue alloc touches with
      | none => some (emulate,none,touches)
      | some touches => search alloc fuel emulate touches

namespace Server

def set (s : Server) (dev : ℕ) (d : Device) : Server := { s with device := Function.update s.device dev d }

/-- `TouchBeginDDXTouch`, with `touchEmulatePointer`: the place of the new touch point. The client id is incremented as a
machine word; it starts again at 1. -/
def touchBeginDDXTouch (touchEmulatePointer alloc : Bool) (s : Server) (dev : ℕ) (ddxId : BitVec 32) :
    Option (Option ℕ × Server) :=
  let d := s.device dev
  match d.touch with
  | none => some (none,s)
  | some mode =>
    if (findDDXID d.touches ddxId).isSome then some (none,s)
    else do
      let (emulate,ti,touches) ← search alloc 2 (touchEmulatePointer && mode == .directTouch) d.touches
      match ti with
      | none => return (none,s.set dev { d with touches })
      | some i =>
        let clientId := s.nextClientId
        let next := if clientId + 1 = 0 then 1 else clientId + 1
        return (some i,{ s.set dev { d with touches := touches.set i ⟨clientId,true,ddxId,emulate⟩ } with
          nextClientId := next })

def touchFindByDDXID (touchEmulatePointer alloc : Bool) (s : Server) (dev : ℕ) (ddxId : BitVec 32) (create : Bool) :
    Option (Option ℕ × Server) :=
  let d := s.device dev
  if d.touch = none then some (none,s)
  else
    match findDDXID d.touches ddxId with
    | some i => some (some i,s)
    | none => if create then s.touchBeginDDXTouch touchEmulatePointer alloc dev ddxId else some (none,s)

/-- `TouchEndDDXTouch`, for the touch point at a place. -/
def touchEndDDXTouch (s : Server) (dev i : ℕ) : Server :=
  let d := s.device dev
  if d.touch = none then s
  else s.set dev { d with touches := d.touches.modify i fun ti => { ti with active := false } }

/-- `InitTouchClassDeviceStruct`, when there is memory: a device has one touch class at most. -/
def initTouchClass (s : Server) (dev maxTouches : ℕ) (mode : Mode) : Server :=
  if (s.device dev).touch.isSome then s
  else
    let maxTouches := if maxTouches = 0 then 5 else maxTouches
    s.set dev ⟨some mode,List.replicate maxTouches initDDXTouchPoint⟩

end Server

/-- No device has a touch class yet. -/
def Server.initial : Server := ⟨fun _ => ⟨none,[]⟩,1⟩

inductive Call
  | init (dev maxTouches : ℕ) (mode : Mode)
  | remove (dev : ℕ)
  | begin (dev : ℕ) (ddxId : BitVec 32) (touchEmulatePointer alloc : Bool)
  | find (dev : ℕ) (ddxId : BitVec 32) (create touchEmulatePointer alloc : Bool)
  | finish (dev i : ℕ)
  | resize (dev : ℕ) (alloc : Bool)

/-- The server and how many touches have begun. -/
structure Session where
  server : Server
  begun : ℕ

def Session.call (σ : Session) : Call → Option Session
  | .init dev maxTouches mode => some { σ with server := σ.server.initTouchClass dev maxTouches mode }
  | .remove dev => some { σ with server := σ.server.set dev ⟨none,[]⟩ }
  | .begin dev ddxId emulate alloc => do
    let (ti,server) ← σ.server.touchBeginDDXTouch emulate alloc dev ddxId
    return ⟨server,if ti.isSome then σ.begun + 1 else σ.begun⟩
  | .find dev ddxId create emulate alloc => do
    let (ti,server) ← σ.server.touchFindByDDXID emulate alloc dev ddxId create
    let new := ti.isSome && (findDDXID (σ.server.device dev).touches ddxId).isNone
    return ⟨server,if new then σ.begun + 1 else σ.begun⟩
  | .finish dev i => some { σ with server := σ.server.touchEndDDXTouch dev i }
  | .resize dev alloc =>
    let d := σ.server.device dev
    some { σ with server := σ.server.set dev { d with touches := (resizeQueue alloc d.touches).getD d.touches } }

def Session.run (σ : Session) (calls : List Call) : Option Session := calls.foldlM Session.call σ

end Xlibre.Dix.Touch
