import Mathlib.Data.Nat.Notation

/-! Presentations of one screen, and how it is decided whether they can be flips. -/
namespace Xlibre.Present

abbrev Window := ℕ
abbrev Pixmap := ℕ
abbrev Crtc := ℕ

/-- `PresentFlipReason`: why a flip is not possible. -/
inductive FlipReason
  | unknown | bufferFormat | driverTearfree | driverTearfreeFlipping
deriving DecidableEq

/-- `reason >= PRESENT_FLIP_REASON_DRIVER_TEARFREE`. -/
def FlipReason.tearfree : FlipReason → Bool
  | .unknown => false
  | .bufferFormat => false
  | .driverTearfree => true
  | .driverTearfreeFlipping => true

/-- `struct present_vblank`, as far as the queues depend on it. -/
structure Vblank where
  window : Window
  pixmap : Option Pixmap
  crtc : Option Crtc
  targetMsc : UInt64
  execMsc : UInt64
  waitFence : Bool
  fenceCallback : Bool
  queued : Bool
  flip : Bool
  flipReady : Bool
  syncFlip : Bool
  abortFlip : Bool
  reason : FlipReason
deriving DecidableEq

/-- The CRTC of a window: `PresentCrtcNeverSet`, or one that may be `NULL`. -/
inductive WindowCrtc
  | neverSet
  | set (crtc : Option Crtc)
deriving DecidableEq

/-- `struct present_window_priv`. -/
structure WindowPriv where
  crtc : WindowCrtc
  mscOffset : UInt64
  msc : UInt64
  vblank : List ℕ

/-- `present_get_window_priv` for a window that has none yet. -/
def WindowPriv.new : WindowPriv := ⟨.neverSet,0,0,[]⟩

/-- The state of Present for a screen. Vblanks are known by their event ids, and `vblank` is where they are in memory. -/
structure State where
  eventId : ℕ
  execQueue : List ℕ
  flipQueue : List ℕ
  vblank : ℕ → Vblank
  window : Window → Option WindowPriv
  flipPending : Option ℕ
  unflipEventId : ℕ
  flipCrtc : Option Crtc
  flipWindow : Option Window
  flipPixmap : Option Pixmap
  flipSync : Bool

section Check

/-- What the driver is asked before a flip: `check_flip2`, which can give a reason, or `check_flip`, or neither. -/
inductive DriverCheck
  | checkFlip2 (answer : Crtc → Window → Option Pixmap → Bool → Bool × FlipReason)
  | checkFlip (answer : Crtc → Window → Option Pixmap → Bool → Bool)
  | none

/-- What `present_check_flip` sees of the driver and of the windows. -/
structure Geometry where
  info : Bool
  flip : Bool
  driver : DriverCheck
  windowPixmap : Window → Pixmap
  screenPixmap : Pixmap
  fullScreen : Window → Bool
  sameSize : Window → Option Pixmap → Bool

/-- The driver's answer and `tmp_reason`. -/
def DriverCheck.ask (driver : DriverCheck) (crtc : Crtc) (window : Window) (pixmap : Option Pixmap) (sync : Bool) :
    Bool × FlipReason :=
  match driver with
  | .checkFlip2 answer => answer crtc window pixmap sync
  | .checkFlip answer => (answer crtc window pixmap sync,.unknown)
  | .none => (true,.unknown)

/-- The checks on the window and the pixmap. `valid` says whether the valid area, if there is one, fills the screen. -/
def windowCanFlip (g : Geometry) (s : State) (window : Window) (pixmap : Option Pixmap) (valid : Bool) (atOrigin : Bool) : Bool :=
  (decide (g.windowPixmap window = g.screenPixmap) || decide (some (g.windowPixmap window) = s.flipPixmap) ||
    decide (some (g.windowPixmap window) = s.flipPending.bind fun id => (s.vblank id).pixmap)) &&
  g.fullScreen window && atOrigin && valid && g.sameSize window pixmap

/-- `present_check_flip`. With `wantReason`, a refusal because of the buffer format counts only when everything else is right. -/
def presentCheckFlip (g : Geometry) (s : State) (crtc : Option Crtc) (window : Window) (pixmap : Option Pixmap) (sync : Bool)
    (valid atOrigin wantReason : Bool) : Bool × FlipReason :=
  if g.info = false then (false,.unknown)
  else
    match crtc with
    | none => (false,.unknown)
    | some crtc =>
      let r := g.driver.ask crtc window pixmap sync
      if g.flip = false then (false,.unknown)
      else if r.1 = false ∧ ¬(wantReason ∧ r.2 = .bufferFormat) then (false,r.2)
      else if windowCanFlip g s window pixmap valid atOrigin = false then (false,.unknown)
      else if r.2 = .bufferFormat then (false,.bufferFormat)
      else (true,.unknown)

end Check

section Msc

def mscIsAfter (test reference : UInt64) : Bool := decide (0 < (test-reference).toBitVec.toInt)

structure Options where
  async : Bool
  asyncMayTear : Bool
  copy : Bool

/-- `present_want_async_flip`, with the capabilities of the driver. -/
def presentWantAsyncFlip (options : Options) (capAsync capAsyncMayTear : Bool) : Bool :=
  (options.async && capAsync) || (options.asyncMayTear && capAsyncMayTear)

def presentGetTargetMsc (targetMscArg crtcMsc divisor remainder : UInt64) (options : Options) : UInt64 :=
  let syncedFlip := !(options.async || options.asyncMayTear)
  if mscIsAfter targetMscArg crtcMsc then targetMscArg
  else if divisor = 0 then (if syncedFlip then crtcMsc+1 else crtcMsc)
  else
    let targetMsc := crtcMsc-crtcMsc%divisor+remainder
    if mscIsAfter targetMsc crtcMsc then targetMsc
    else if syncedFlip || mscIsAfter crtcMsc targetMsc then targetMsc+divisor
    else targetMsc

end Msc

end Xlibre.Present

/-! The queues of a screen that flips: `present_scmd.c` and what it calls. -/
namespace Xlibre.Present

section Queues

/-- A change of a vblank in memory. -/
def State.set (s : State) (id : ℕ) (v : Vblank) : State := { s with vblank := fun i => if i = id then v else s.vblank i }

/-- `xorg_list_del` of `event_queue`: a vblank is on one of the two queues at most. -/
def State.delEvent (s : State) (id : ℕ) : State :=
  { s with execQueue := s.execQueue.filter fun i => decide (i ≠ id), flipQueue := s.flipQueue.filter fun i => decide (i ≠ id) }

def State.setWindow (s : State) (w : Window) (f : WindowPriv → WindowPriv) : State :=
  { s with window := fun i => if i = w then (s.window w).map f else s.window i }

/-- `xorg_list_del` of `window_list`. -/
def State.delWindow (s : State) (id : ℕ) : State :=
  s.setWindow (s.vblank id).window fun p => { p with vblank := p.vblank.filter fun i => decide (i ≠ id) }

def presentVblankDestroy (s : State) (id : ℕ) : State := (s.delWindow id).delEvent id

end Queues

section Environment

/-- What the driver and the fence answer when a vblank is executed: `queue_vblank` in `present_execute_wait`, the wait fence,
the flip, `queue_vblank` in `present_execute_copy`, and for TearFree the fake flip and `queue_vblank`. -/
structure Answers where
  queueWait : Bool
  fenceTriggered : Bool
  flip : Bool
  queueCopy : Bool
  fakeFlip : Bool
  queueTearfree : Bool

/-- What a step learns from outside. Answers and the current MSC are for the vblank with an event id. -/
structure Env where
  geometry : Geometry
  answers : ℕ → Answers
  crtcMsc : ℕ → UInt64
  getCrtc : Option Crtc
  crtcExists : Option Crtc → Bool
  ustMsc : Option Crtc → Bool × UInt64
  capAsync : Bool
  capAsyncMayTear : Bool
  queueVblank : Bool
  allocWindow : Bool
  allocVblank : Bool

end Environment

section Execute

def presentSetAbortFlip (s : State) (pending : ℕ) : State := s.set pending { s.vblank pending with abortFlip := true }

def presentUnflip (s : State) : State := { s with eventId := s.eventId+1, unflipEventId := s.eventId+1 }

/-- `present_execute_wait` asks for the vblank again, at the next MSC. -/
def waitsForMsc (a : Answers) (v : Vblank) (crtcMsc : UInt64) : Bool := decide (v.execMsc = crtcMsc+1) && a.queueWait

def waitsForFence (a : Answers) (v : Vblank) : Bool := v.waitFence && !a.fenceTriggered

/-- Part of `present_execute`: what a copy means for flips. -/
def copyChecksFlip (s : State) (window : Window) : State :=
  match s.flipPending with
  | some pending => if (s.vblank pending).window = window then presentSetAbortFlip s pending else s
  | none => if s.unflipEventId = 0 ∧ s.flipWindow = some window then presentUnflip s else s

/-- The vblank after `present_execute_copy`: if the flip failed, the copy may have to wait for the next MSC. -/
def presentExecuteCopy (a : Answers) (v : Vblank) (crtcMsc : UInt64) : Vblank :=
  if v.execMsc = crtcMsc+1 ∧ a.queueCopy then { v with queued := true } else v

def awaitTearfree (a : Answers) (v : Vblank) : Vblank :=
  if v.queued = false ∧ v.reason.tearfree ∧ (a.fakeFlip ∨ a.queueTearfree) then
    { v with execMsc := v.targetMsc, queued := true }
  else v

/-- Part of `present_execute`: the copy and what comes after. -/
def presentCopy (a : Answers) (s : State) (id : ℕ) (crtcMsc : UInt64) : State :=
  let s := copyChecksFlip s (s.vblank id).window
  let v := awaitTearfree a (presentExecuteCopy a (s.vblank id) crtcMsc)
  let s := s.set id v
  if v.queued then
    { s with execQueue := id::s.execQueue }.setWindow v.window fun p => { p with vblank := p.vblank ++ [id] }
  else presentVblankDestroy s id

def Vblank.presents (v : Vblank) : Bool := v.pixmap.isSome && (!v.reason.tearfree || decide (v.execMsc ≠ v.targetMsc))

/-- Part of `present_execute`: the vblank has to wait for another flip or unflip. -/
def waitForFlip (s : State) (id : ℕ) : State :=
  { s.delEvent id with flipQueue := (s.delEvent id).flipQueue ++ [id] }.set id { s.vblank id with flipReady := true }

/-- Part of `present_execute`: the vblank is taken off the lists. -/
def takeOff (s : State) (id : ℕ) : State := ((s.delEvent id).delWindow id).set id { s.vblank id with queued := false }

/-- Part of `present_execute`: the driver has taken the flip. -/
def startFlip (s : State) (id : ℕ) : State := { s with flipPending := some id, flipQueue := id::s.flipQueue }

/-- Part of `present_execute`: it has not. The vblank was on the flip queue only while the driver was asked. -/
def failFlip (s : State) (id : ℕ) : State :=
  { s with flipPending := none }.set id { s.vblank id with flip := false, execMsc := (s.vblank id).targetMsc }

/-- `present_execute` past the waiting. -/
def presentNow (a : Answers) (s : State) (id : ℕ) (crtcMsc : UInt64) : State :=
  let v := s.vblank id
  if v.flip ∧ v.pixmap.isSome ∧ (s.flipPending.isSome ∨ s.unflipEventId ≠ 0) then waitForFlip s id
  else
    let s := takeOff s id
    if v.presents then
      if v.flip then
        if a.flip then startFlip s id else presentCopy a (failFlip s id) id crtcMsc
      else presentCopy a s id crtcMsc
    else presentVblankDestroy s id

def presentExecute (env : Env) (s : State) (id : ℕ) (crtcMsc : UInt64) : State :=
  let v := s.vblank id
  if waitsForMsc (env.answers id) v crtcMsc then s
  else if waitsForFence (env.answers id) v then s.set id { v with fenceCallback := true }
  else presentNow (env.answers id) s id crtcMsc

def currentMsc (env : Env) (s : State) (id : ℕ) : UInt64 := if (s.vblank id).crtc.isSome then env.crtcMsc id else 0

def presentReExecute (env : Env) (s : State) (id : ℕ) : State := presentExecute env s id (currentMsc env s id)

def presentFlipTryReady (env : Env) (s : State) : State :=
  match s.flipQueue.find? fun i => (s.vblank i).queued with
  | some id => presentReExecute env s id
  | none => s

end Execute

section Notify

def presentFlipIdle (s : State) : State :=
  if s.flipPixmap.isSome then { s with flipCrtc := none, flipWindow := none, flipPixmap := none } else s

/-- Part of `present_flip_notify`: the pixmap and the rest go from the vblank to the screen. -/
def transferFlip (s : State) (id : ℕ) : State :=
  { (presentFlipIdle s).delEvent id with
    flipCrtc := (s.vblank id).crtc
    flipWindow := some (s.vblank id).window
    flipPixmap := (s.vblank id).pixmap
    flipSync := (s.vblank id).syncFlip
    flipPending := none }.set id { s.vblank id with pixmap := none }

/-- `present_flip_notify` up to `present_flip_try_ready`. -/
def flipDone (s : State) (id : ℕ) : State :=
  presentVblankDestroy (if (s.vblank id).abortFlip then presentUnflip (transferFlip s id) else transferFlip s id) id

def presentFlipNotify (env : Env) (s : State) (id : ℕ) : State := presentFlipTryReady env (flipDone s id)

/-- The end of an unflip up to `present_flip_try_ready`. -/
def unflipDone (s : State) : State := presentFlipIdle { s with unflipEventId := 0 }

def presentEventNotify (env : Env) (s : State) (eventId : ℕ) (msc : UInt64) : State :=
  if eventId = 0 then s
  else if eventId ∈ s.execQueue then presentExecute env s eventId msc
  else if eventId ∈ s.flipQueue then
    if (s.vblank eventId).queued then presentExecute env s eventId msc else presentFlipNotify env s eventId
  else if eventId = s.unflipEventId then presentFlipTryReady env (unflipDone s)
  else s

/-- `present_wait_fence_triggered`, for a vblank whose fence has a callback. -/
def presentWaitFenceTriggered (env : Env) (s : State) (id : ℕ) : State :=
  if (id ∈ s.execQueue ∨ id ∈ s.flipQueue) ∧ (s.vblank id).waitFence ∧ (s.vblank id).fenceCallback then presentReExecute env s id
  else s

end Notify

section Reconfigure

/-- One round of the last loop of `present_check_flip_window`. -/
def checkQueued (g : Geometry) (window : Window) (s : State) (id : ℕ) : State :=
  let v := s.vblank id
  let r := presentCheckFlip g s v.crtc window v.pixmap v.syncFlip true true true
  if v.queued ∧ v.flip ∧ r.1 = false then
    s.set id { v with
      flip := false
      reason := if r.2.tearfree then v.reason else r.2
      execMsc := if v.syncFlip then v.targetMsc else v.execMsc }
  else s

/-- The pending or the current flip in `present_check_flip_window`. -/
def checkFlipping (g : Geometry) (s : State) (window : Window) : State :=
  match s.flipPending with
  | some pending =>
    let v := s.vblank pending
    if v.window = window ∧ (presentCheckFlip g s v.crtc window v.pixmap v.syncFlip true true false).1 = false then
      presentSetAbortFlip s pending
    else s
  | none =>
    if s.flipWindow = some window ∧
        (presentCheckFlip g s s.flipCrtc window s.flipPixmap s.flipSync true true false).1 = false then presentUnflip s
    else s

def presentCheckFlipWindow (env : Env) (s : State) (window : Window) : State :=
  match s.window window with
  | none => s
  | some priv =>
    if s.unflipEventId ≠ 0 then s
    else priv.vblank.foldl (checkQueued env.geometry window) (checkFlipping env.geometry s window)

end Reconfigure

section Pixmap

/-- A request to present a pixmap, or just to wait for an MSC. `valid` says whether the valid area, if there is one, fills the
screen. -/
structure Request where
  window : Window
  pixmap : Option Pixmap
  valid : Bool
  update : Bool
  atOrigin : Bool
  targetCrtc : Option Crtc
  waitFence : Bool
  options : Options
  targetWindowMsc : UInt64
  divisor : UInt64
  remainder : UInt64

/-- The CRTC that `present_scmd_pixmap` takes. -/
def chooseCrtc (env : Env) (priv : WindowPriv) (r : Request) : Option Crtc :=
  if env.geometry.info = false then none
  else
    match r.targetCrtc with
    | some crtc => some crtc
    | none =>
      match (if r.pixmap.isSome then .set none else priv.crtc : WindowCrtc) with
      | .set (some crtc) => some crtc
      | _ => env.getCrtc

def presentScmdUpdateWindowCrtc (env : Env) (priv : WindowPriv) (crtc : Option Crtc) (newMsc : UInt64) : WindowPriv :=
  if priv.crtc = .set crtc then priv
  else
    match priv.crtc with
    | .neverSet => { priv with crtc := .set crtc }
    | .set old =>
      let oldMsc := if env.crtcExists old ∧ (env.ustMsc old).1 then (env.ustMsc old).2 else priv.msc
      { priv with mscOffset := priv.mscOffset+(newMsc-oldMsc), crtc := .set crtc }

/-- One round of the loop over the presentations that the new one overwrites, with `present_vblank_scrap`. -/
def scrapSame (env : Env) (crtc : Option Crtc) (targetMsc : UInt64) (s : State) (id : ℕ) : State :=
  let v := s.vblank id
  if v.pixmap = none ∨ v.queued = false ∨ v.crtc ≠ crtc ∨ v.targetMsc ≠ targetMsc ∨
      (v.reason.tearfree ∧ v.execMsc = v.targetMsc) then s
  else
    let s := s.set id { v with pixmap := none, flip := false }
    if v.flipReady then presentReExecute env s id else s

/-- `present_vblank_init`, with what `present_scmd_pixmap` does to `exec_msc`. -/
def presentVblankInit (env : Env) (s : State) (r : Request) (crtc : Option Crtc) (targetMsc crtcMsc : UInt64) : Vblank :=
  let sync := !presentWantAsyncFlip r.options env.capAsync env.capAsyncMayTear
  let check :=
    if r.pixmap.isSome ∧ r.options.copy = false then
      presentCheckFlip env.geometry s crtc r.window r.pixmap sync r.valid r.atOrigin true
    else (false,.unknown)
  { window := r.window
    pixmap := r.pixmap
    crtc := crtc
    targetMsc := targetMsc
    execMsc :=
      if check.2 = .driverTearfreeFlipping ∧ mscIsAfter targetMsc (crtcMsc+1) = false then targetMsc-2
      else if check.2.tearfree ∨ (check.1 ∧ sync) then targetMsc-1
      else targetMsc
    waitFence := r.waitFence
    fenceCallback := false
    queued := true
    flip := check.1
    flipReady := false
    syncFlip := check.1 && sync
    abortFlip := false
    reason := check.2 }

/-- The new vblank on the queues, and `present_execute` for it if there is nothing to wait for. -/
def presentNew (env : Env) (s : State) (r : Request) (crtc : Option Crtc) (targetMsc crtcMsc : UInt64) : State :=
  let id := s.eventId+1
  let v := presentVblankInit env s r crtc targetMsc crtcMsc
  let s := { s with eventId := id, execQueue := s.execQueue ++ [id] }.set id v
  let s := s.setWindow r.window fun p => { p with vblank := p.vblank ++ [id] }
  if mscIsAfter v.execMsc crtcMsc ∧ env.queueVblank then s else presentExecute env s id crtcMsc

/-- Part of `present_scmd_pixmap`: the CRTC and the MSC are kept with the window. -/
def updatePriv (env : Env) (priv : WindowPriv) (crtc : Option Crtc) : WindowPriv :=
  let priv := presentScmdUpdateWindowCrtc env priv crtc (env.ustMsc crtc).2
  if (env.ustMsc crtc).1 then { priv with msc := (env.ustMsc crtc).2 } else priv

/-- Part of `present_scmd_pixmap`: what the new presentation overwrites in the same frame is not done. -/
def scrapOverwritten (env : Env) (s : State) (r : Request) (vblanks : List ℕ) (crtc : Option Crtc) (targetMsc : UInt64) : State :=
  if r.update = false ∧ r.pixmap.isSome then vblanks.foldl (scrapSame env crtc targetMsc) s else s

def State.setPriv (s : State) (w : Window) (priv : WindowPriv) : State :=
  { s with window := fun i => if i = w then some priv else s.window i }

/-- `present_scmd_pixmap`, with the private of the window. -/
def presentForWindow (env : Env) (s : State) (r : Request) (priv : WindowPriv) : State :=
  let crtc := chooseCrtc env priv r
  let crtcMsc := (env.ustMsc crtc).2
  let priv := updatePriv env priv crtc
  let targetMsc := presentGetTargetMsc (r.targetWindowMsc+priv.mscOffset) crtcMsc r.divisor r.remainder r.options
  let s := scrapOverwritten env (s.setPriv r.window priv) r priv.vblank crtc targetMsc
  if env.allocVblank then presentNew env s r crtc targetMsc crtcMsc else s

def presentScmdPixmap (env : Env) (s : State) (r : Request) : State :=
  match s.window r.window with
  | some priv => presentForWindow env s r priv
  | none => if env.allocWindow then presentForWindow env s r .new else s

end Pixmap

section Run

/-- What happens to a screen. -/
inductive Action
  | pixmap (request : Request)
  | eventNotify (eventId : ℕ) (msc : UInt64)
  | fenceTriggered (id : ℕ)
  | checkFlipWindow (window : Window)

def step (s : State) : Env × Action → State
  | (env,.pixmap r) => presentScmdPixmap env s r
  | (env,.eventNotify eventId msc) => presentEventNotify env s eventId msc
  | (env,.fenceTriggered id) => presentWaitFenceTriggered env s id
  | (env,.checkFlipWindow w) => presentCheckFlipWindow env s w

def run (s : State) (steps : List (Env × Action)) : State := steps.foldl step s

/-- After `present_init` and `present_screen_init`. -/
def State.init (memory : ℕ → Vblank) : State where
  eventId := 0
  execQueue := []
  flipQueue := []
  vblank := memory
  window := fun _ => none
  flipPending := none
  unflipEventId := 0
  flipCrtc := none
  flipWindow := none
  flipPixmap := none
  flipSync := false

end Run

end Xlibre.Present
