import Mathlib.Algebra.Group.Nat.Defs
import Mathlib.Algebra.Group.Int.Defs
import Mathlib.Order.Nat
import Xlibre.Lib.Checked
import Xlibre.Lib.Slices

/-! Output to the clients: `WriteToClient`, `FlushClient` and the buffers that clients take turns with. -/
namespace Xlibre.Os
open Xlibre.Lib

abbrev Byte := BitVec 8

def bufSize : ℕ := 16384
def bufWatermark : ℕ := 32768

/-- A buffer: the array `buf` of `size` bytes, `count` of which wait to be written. -/
structure ConnectionOutput where
  buf : ℕ → Byte
  size : ℕ
  count : ℕ

def ConnectionOutput.contents (oco : ConnectionOutput) : List Byte := slice oco.buf 0 oco.count

/-- `AllocateOutputBuffer`, when there is memory. -/
def ConnectionOutput.fresh : ConnectionOutput := ⟨fun _ => 0,bufSize,0⟩

structure Client where
  output : Option ConnectionOutput
  transConn : Bool
  clientException : Bool
  isLocal : Bool
  clientGone : Bool
  accepted : List Byte

structure Server where
  client : ℕ → Client
  freeOutputs : List ConnectionOutput
  outputPending : List ℕ
  newOutputPending : Bool
  criticalOutputPending : Bool

def serverClient : ℕ := 0

/-- What the transport does when it is offered some bytes: it takes as many as it wants, or it would block, or the
message is too big for it, or it fails. -/
inductive Attempt
  | takes (n : ℕ)
  | wouldBlock
  | tooBig
  | fails
  deriving DecidableEq, Repr

/-- Why a call has no result: a sum does not fit into an `int`, bytes would be written behind the end of a buffer, or the
transport is still to be asked. -/
inductive Stop
  | signedOverflow
  | overrun
  | stillWriting
  deriving DecidableEq, Repr

/-- `x+y` in `int`, for what is not negative. -/
def addInt (x y : ℕ) : Except Stop ℕ := if x+y < 2^31 then .ok (x+y) else .error .signedOverflow

/-- A `size_t` stored in an `int`. -/
def toInt (n : ℕ) : ℤ := if n % 2^32 < 2^31 then ((n % 2^32 : ℕ) : ℤ) else ((n % 2^32 : ℕ) : ℤ) - 2^32

/-- `padding_for_int32`. -/
def padding (bytes : ℕ) : ℕ := (4 - bytes%4)%4

def padded (msg : List Byte) : List Byte := msg ++ List.replicate (padding msg.length) 0

def needed (msg : List Byte) : ℕ := msg.length + padding msg.length

namespace Server

def set (s : Server) (who : ℕ) (f : Client → Client) : Server :=
  { s with client := Function.update s.client who (f (s.client who)) }

def setOutput (s : Server) (who : ℕ) (output : Option ConnectionOutput) : Server :=
  s.set who fun c => { c with output := output }

def outputPendingMark (s : Server) (who : ℕ) : Server :=
  if !(s.client who).clientGone && !s.outputPending.contains who then
    { s with outputPending := s.outputPending ++ [who] }
  else s

def outputPendingClear (s : Server) (who : ℕ) : Server :=
  { s with outputPending := s.outputPending.filter fun c => decide (c ≠ who) }

/-- The list and the flags when `WriteToClient` is about to flush. -/
def beforeFlush (s : Server) (who : ℕ) : Server :=
  let s := s.outputPendingClear who
  if s.outputPending = [] then { s with criticalOutputPending := false, newOutputPending := false } else s

/-- `AbortClient` and `dixMarkClientException`. -/
def abort (s : Server) (who : ℕ) : Server := s.set who fun c => { c with transConn := false, clientException := true }

/-- An emptied buffer goes to the free ones, unless it is too big to keep. -/
def recycle (s : Server) (oco : ConnectionOutput) : Server :=
  if oco.size > bufWatermark then s else { s with freeOutputs := { oco with count := 0 } :: s.freeOutputs }

end Server

/-- How the loop of `FlushClient` ends, with the bytes that the transport has taken. -/
inductive Flushed
  | all (sent : List Byte)
  | blocked (written notWritten : ℕ) (sent : List Byte)
  | failed (sent : List Byte)

/-- The loop of `FlushClient`, over the transport's answers. -/
def flushLoop (buf : ℕ → Byte) : List Attempt → (written notWritten todo : ℕ) → List Byte → Except Stop Flushed
  | [], _, notWritten, _, sent => if notWritten = 0 then .ok (.all sent) else .error .stillWriting
  | answer::answers, written, notWritten, todo, sent =>
    if notWritten = 0 then .ok (.all sent)
    else
      match answer with
      | .takes n =>
        let len := min n todo
        flushLoop buf answers (written+len) (notWritten-len) (notWritten-len) (sent ++ slice buf written len)
      | .wouldBlock => .ok (.blocked written notWritten sent)
      | .tooBig => flushLoop buf answers written notWritten (todo/2) sent
      | .fails => .ok (.failed sent)

def Client.take (c : Client) (sent : List Byte) : Client := { c with accepted := c.accepted ++ sent }

/-- What is left of a buffer when the transport would block. -/
def ConnectionOutput.keep (oco : ConnectionOutput) (written notWritten : ℕ) : ConnectionOutput :=
  let oco := if 0 < written then
      { oco with count := oco.count-written, buf := store oco.buf 0 (slice oco.buf written (oco.count-written)) }
    else oco
  { oco with count := notWritten }

/-- `FlushClient`: whether the client is still there. -/
def flushClient (s : Server) (who : ℕ) (answers : List Attempt) : Except Stop (Bool × Server) :=
  match (s.client who).output with
  | none => .ok (true,s)
  | some oco =>
    if !(s.client who).transConn then .ok (false,(s.abort who).setOutput who (some { oco with count := 0 }))
    else if oco.count = 0 then .ok (true,s)
    else do
      match ← flushLoop oco.buf answers 0 oco.count oco.count [] with
      | .all sent =>
        return (true,(((s.set who (·.take sent)).outputPendingClear who).setOutput who none).recycle oco)
      | .blocked written notWritten sent =>
        return (true,((s.set who (·.take sent)).outputPendingMark who).setOutput who (some (oco.keep written notWritten)))
      | .failed sent =>
        return (false,((s.set who (·.take sent)).abort who).setOutput who (some { oco with count := 0 }))

/-- `OutputEnsureBuffer`: the client's buffer, unless there is none to be had. -/
def outputEnsureBuffer (s : Server) (who : ℕ) (alloc : Bool) : Option ConnectionOutput × Server :=
  match (s.client who).output, s.freeOutputs with
  | some oco, _ => (some oco,s)
  | none, oco::rest => (some oco,({ s with freeOutputs := rest }).setOutput who (some oco))
  | none, [] =>
    if alloc then (some .fresh,s.setOutput who (some .fresh)) else (none,s.abort who)

/-- A message and its padding copied behind what a buffer has. -/
def ConnectionOutput.append (oco : ConnectionOutput) (msg : List Byte) : Except Stop ConnectionOutput :=
  let padsize := padding msg.length
  if oco.count + msg.length + padsize ≤ oco.size then
    .ok { oco with
      buf := store (store oco.buf oco.count msg) (oco.count+msg.length) (List.replicate padsize 0)
      count := oco.count + msg.length + padsize }
  else .error .overrun

/-- `memcpy_and_flush`: the length of the message, or `none` for a client that has been aborted. -/
def memcpyAndFlush (s : Server) (who : ℕ) (oco : ConnectionOutput) (msg : List Byte) (answers : List Attempt) :
    Except Stop (Option ℕ × Server) := do
  let oco ← oco.append msg
  let (alive,s) ← flushClient (s.setOutput who (some oco)) who answers
  return (if alive then some msg.length else none,s)

/-- What the surroundings do during one call of `WriteToClient`: whether a buffer can be allocated and one be enlarged,
and the transport's answers for the flushes that the call can make. -/
structure Surroundings where
  alloc : Bool
  realloc : Bool
  first : List Attempt
  second : List Attempt

/-- `OutputBufferMakeRoomAndFlush` from where the buffer has been flushed. -/
def enlargeAndFlush (env : Surroundings) (s : Server) (who : ℕ) (msg : List Byte) : Except Stop (Option ℕ × Server) :=
  match outputEnsureBuffer s who env.alloc with
  | (none,s) => .ok (none,s)
  | (some oco,s) =>
    if oco.count + needed msg ≤ oco.size then memcpyAndFlush s who oco msg env.second
    else
      let newsize := toInt (oco.count + (needed msg/bufSize + 1)*bufSize)
      -- no memory has a size that is negative as an `int`
      if newsize < 0 || !env.realloc then .ok (none,(s.abort who).setOutput who (some { oco with count := 0 }))
      else memcpyAndFlush s who { oco with size := newsize.toNat } msg env.second

def outputBufferMakeRoomAndFlush (env : Surroundings) (s : Server) (who : ℕ) (msg : List Byte) :
    Except Stop (Option ℕ × Server) :=
  match (s.client who).output with
  | none => enlargeAndFlush env s who msg
  | some oco =>
    if oco.count + needed msg ≤ oco.size then memcpyAndFlush s who oco msg env.first
    else do
      let (alive,s) ← flushClient s who env.first
      if alive then enlargeAndFlush env s who msg else return (none,s)

/-- Whether `WriteToClient` has to make room: a test that adds in `int`, unless the first part decides it. -/
def needsRoom (oco : ConnectionOutput) (isLocal : Bool) (count : ℕ) : Except Stop Bool :=
  if oco.count = 0 ∧ isLocal then .ok true
  else do
    let sum ← addInt (← addInt oco.count count) (padding count)
    return decide (sum > oco.size)

def writeToClient (env : Surroundings) (s : Server) (who : ℕ) (msg : List Byte) : Except Stop (Option ℕ × Server) :=
  if msg.length = 0 ∨ who = serverClient ∨ (s.client who).clientGone then .ok (some 0,s)
  else
    match outputEnsureBuffer s who env.alloc with
    | (none,s) => .ok (none,s)
    | (some oco,s) => do
      if ← needsRoom oco (s.client who).isLocal msg.length then
        outputBufferMakeRoomAndFlush env (s.beforeFlush who) who msg
      else
        let s := ({ s with newOutputPending := true }).outputPendingMark who
        let oco ← oco.append msg
        return (some msg.length,s.setOutput who (some oco))

/-- `FlushAllOutput`, with the clients that have requests to be served and the transport's answers for each of the
others. -/
def flushAllOutput (s : Server) (ready : ℕ → Bool) (answers : ℕ → List Attempt) : Except Stop Server :=
  if !s.newOutputPending then .ok s
  else
    s.outputPending.foldlM (fun s client =>
      if (s.client client).clientGone then .ok s
      else if ready client then .ok { s with newOutputPending := true }
      else do
        let (_,s) ← flushClient s client (answers client)
        return s) { s with criticalOutputPending := false, newOutputPending := false }

end Xlibre.Os
