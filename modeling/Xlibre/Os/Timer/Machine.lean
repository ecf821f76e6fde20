import Mathlib.Data.BitVec

/-! Timers: `TimerSet`, `TimerForce`, `TimerCancel`, `DoTimers` and `check_timers`, with callbacks that call them. -/
namespace Xlibre.Os.Timer

/-- The fields that a list node does not have. -/
structure OsTimer where
  expires : BitVec 32
  delta : BitVec 32
  callback : ℕ

inductive Fault
  | addedTwice
  | notEnabled
  deriving DecidableEq, Repr

/-- A time as `GetTimeInMillis` has it. -/
def word (t : ℤ) : BitVec 32 := BitVec.ofInt 32 t

/-- What is to be done when a callback has returned: in `DoTimer` that called it, or in a `TimerSet` with `TimerForceOld`;
and below it the loops of `DoTimers` and `CheckAllTimers`. -/
inductive Frame
  | callback (timer : ℕ)
  | forced (timer : ℕ) (now : ℤ) (absolute : Bool) (millis : BitVec 32) (func : ℕ)
  | timers (now : ℤ)
  | allTimers

structure Run where
  setting : ℕ
  due : ℤ
  clock : ℤ
  forced : Bool

/-- The list and the timers, what is to be done, and the clock. The rest is noted of a run and not read by the code: how
many settings there were, the setting of each timer and when it expires, the callbacks that were run, the settings that were
given up, and the time that the last check that is done read. -/
structure State where
  timers : List ℕ
  timer : ℕ → OsTimer
  stack : List Frame
  clock : ℤ
  settings : ℕ
  setting : ℕ → ℕ
  due : ℕ → ℤ
  runs : List Run
  dropped : List ℕ
  checked : ℤ

namespace State

/-- `xorg_list_del`. -/
def listDel (σ : State) (t : ℕ) : State := { σ with timers := σ.timers.filter (· ≠ t) }

def timerCancel (σ : State) (t : ℕ) : State :=
  { σ.listDel t with dropped := if t ∈ σ.timers then σ.dropped ++ [σ.setting t] else σ.dropped }

def note (σ : State) (t : ℕ) (forced : Bool) : State :=
  { σ with runs := σ.runs ++ [⟨σ.setting t,σ.due t,σ.clock,forced⟩] }

/-- `DoTimer`, up to the call of the callback. -/
def doTimer (σ : State) (t : ℕ) (forced : Bool) : State :=
  let σ := (σ.listDel t).note t forced
  { σ with stack := .callback t::σ.stack }

/-- A timer is put before the first one that expires later. -/
def sortIn (σ : State) (t : ℕ) (millis : BitVec 32) : List ℕ :=
  let later := fun existing => decide (((σ.timer existing).expires - millis).toInt > 0)
  σ.timers.takeWhile (fun e => !later e) ++ t::σ.timers.dropWhile fun e => !later e

/-- `TimerSet` from where the timer is not pending. -/
def arm (σ : State) (t : ℕ) (now : ℤ) (absolute : Bool) (millis : BitVec 32) (func : ℕ) : Except Fault State :=
  if millis = 0 then .ok σ
  else
    let delta := if absolute then millis - word now else millis
    let millis := if absolute then millis else millis + word now
    if t ∈ σ.timers then .error .addedTwice
    else
      let left := (millis - word now).toInt
      let σ := { σ with
        timer := Function.update σ.timer t ⟨millis,delta,func⟩
        timers := σ.sortIn t millis
        settings := σ.settings + 1
        setting := Function.update σ.setting t σ.settings
        due := Function.update σ.due t (now + left) }
      if left ≤ 0 then .ok (σ.doTimer t false) else .ok σ

/-- `TimerSet`, up to the call of the old callback if that is forced. A new timer is one that is not pending. -/
def timerSet (σ : State) (t : ℕ) (force absolute : Bool) (millis : BitVec 32) (func : ℕ) : Except Fault State :=
  let now := σ.clock
  if t ∈ σ.timers then
    if force then
      let σ := (σ.listDel t).note t true
      .ok { σ with stack := .forced t now absolute millis func::σ.stack }
    else (σ.timerCancel t).arm t now absolute millis func
  else σ.arm t now absolute millis func

def timerForce (σ : State) (t : ℕ) : State := if t ∈ σ.timers then σ.doTimer t true else σ

/-- `check_timers`: what it returns, unless that is 0 when the loops are done. -/
def checkTimers (σ : State) : State × Option ℤ :=
  match σ.timers.head? with
  | none => ({ σ with checked := σ.clock },some (-1))
  | some t =>
    let timeout := (σ.timer t).expires - word σ.clock
    if timeout.toInt ≤ 0 then ({ σ with stack := .timers σ.clock::σ.stack },none)
    -- the comparison is one of `CARD32`
    else if timeout < (σ.timer t).delta + 250 then ({ σ with checked := σ.clock },some timeout.toInt)
    else ({ σ with stack := .allTimers::σ.stack },none)

def callbackReturns (σ : State) (newTime : BitVec 32) : Except Fault State :=
  match σ.stack with
  | .callback t::stack =>
    let σ := { σ with stack }
    if newTime ≠ 0 then σ.timerSet t false false newTime (σ.timer t).callback else .ok σ
  | .forced t now absolute millis func::stack => ({ σ with stack }).arm t now absolute millis func
  | _ => .error .notEnabled

def loop (σ : State) : Except Fault State :=
  match σ.stack with
  | .timers now::stack =>
    match σ.timers.head? with
    | none => .ok { σ with stack, checked := now }
    | some t =>
      if ((σ.timer t).expires - word now).toInt > 0 then .ok { σ with stack, checked := now } else .ok (σ.doTimer t false)
  | .allTimers::stack =>
    match σ.timers.find? fun t => (σ.timer t).expires - word σ.clock > (σ.timer t).delta + 250 with
    | none => .ok { σ with stack }
    | some t => .ok (σ.doTimer t false)
  | _ => .error .notEnabled

def looping (σ : State) : Bool :=
  match σ.stack with
  | .timers _::_ => true
  | .allTimers::_ => true
  | _ => false

end State

/-- What happens next: time passes, someone or a callback calls a function, a callback returns, or a loop goes on. -/
inductive Act
  | tick (n : ℕ)
  | set (t : ℕ) (force absolute : Bool) (millis : BitVec 32) (func : ℕ)
  | force (t : ℕ)
  | cancel (t : ℕ)
  | check
  | doTimers
  | callbackReturns (newTime : BitVec 32)
  | loop

/-- A step, and what `check_timers` returns. -/
def State.step (σ : State) : Act → Except Fault (State × Option ℤ)
  | .tick n => .ok ({ σ with clock := σ.clock + n },none)
  | .set t force absolute millis func =>
    if σ.looping then .error .notEnabled else do return (← σ.timerSet t force absolute millis func,none)
  | .force t => if σ.looping then .error .notEnabled else .ok (σ.timerForce t,none)
  | .cancel t => if σ.looping then .error .notEnabled else .ok (σ.timerCancel t,none)
  | .check => if σ.stack = [] then .ok σ.checkTimers else .error .notEnabled
  | .doTimers =>
    if σ.stack = [] then .ok ({ σ with stack := [.timers σ.clock] },none) else .error .notEnabled
  | .callbackReturns newTime => do return (← σ.callbackReturns newTime,none)
  | .loop => do return (← σ.loop,none)

/-- No timer is pending. -/
def State.initial (clock : ℤ) : State :=
  ⟨[],fun _ => ⟨0,0,0⟩,[],clock,0,fun _ => 0,fun _ => 0,[],[],clock⟩

/-- Timeouts are below 2^30, and each check is done less than 2^30 after the last one read the time. -/
def Act.Typed (σ : State) : Act → Prop
  | .tick n => σ.clock + n < σ.checked + 2^30
  | .set _ _ absolute millis _ => if absolute then (millis - word σ.clock).toInt < 2^30 else millis.toNat < 2^30
  | .callbackReturns newTime => newTime.toNat < 2^30
  | _ => True

instance (σ : State) (act : Act) : Decidable (act.Typed σ) :=
  match act with
  | .tick n => inferInstanceAs (Decidable (σ.clock + n < σ.checked + 2^30))
  | .set _ _ absolute millis _ =>
    inferInstanceAs (Decidable (if absolute then (millis - word σ.clock).toInt < 2^30 else millis.toNat < 2^30))
  | .callbackReturns newTime => inferInstanceAs (Decidable (newTime.toNat < 2^30))
  | .force _ | .cancel _ | .check | .doTimers | .loop => .isTrue trivial

/-- A callback that a `TimerSet` has forced does not leave its timer pending, if that is to be set. -/
def Act.Settles (σ : State) : Act → Prop
  | .callbackReturns _ => ∀ t now absolute millis func stack, σ.stack = .forced t now absolute millis func::stack →
      millis ≠ 0 → t ∉ σ.timers
  | _ => True

/-- The states that steps lead to that meet a condition. -/
inductive Reaches (meets : State → Act → Prop) (clock : ℤ) : State → Prop
  | initial : Reaches meets clock (.initial clock)
  | step {σ σ' : State} (act : Act) {result : Option ℤ} (h : Reaches meets clock σ) (hmeets : meets σ act)
      (hstep : σ.step act = .ok (σ',result)) : Reaches meets clock σ'

end Xlibre.Os.Timer
