import Xlibre.Os.Output

/-! Requests from the clients: `ReadRequestFromClient`, `InsertFakeRequest`, and the input buffers that clients take turns
with. -/
namespace Xlibre.Os.Input
open Xlibre.Lib

/-- An input buffer, with places in it counted from its start: the current request, the end of what has been read, and the
length of the request that was returned last. -/
structure ConnectionInput where
  buffer : ℕ → Byte
  bufptr : ℕ
  bufcnt : ℕ
  lenLastReq : ℕ
  size : ℕ
  ignoreBytes : ℕ

/-- `AllocateInputBuffer`, when there is memory. -/
def ConnectionInput.fresh : ConnectionInput := ⟨fun _ => 0,0,0,0,bufSize,0⟩

structure Client where
  input : Option ConnectionInput
  transConn : Bool
  swapped : Bool
  bigRequests : Bool
  reqLen : ℕ
  requestBuffer : ℕ
  stream : List Byte

structure Server where
  client : ℕ → Client
  freeInputs : List ConnectionInput
  availableInput : Option ℕ

inductive Fault
  | nullPointer
  | overread
  | signedOverflow
  | assertion
  deriving DecidableEq, Repr

/-- What `ReadRequestFromClient` returns: a length, 0, -1, or -(BadLength). -/
inductive Result
  | value (n : ℕ)
  | notYet
  | terminate
  | badLength
  deriving DecidableEq, Repr

/-- What one attempt to read gives: at most so many bytes, or it would block, or an error. -/
inductive Arrival
  | takes (n : ℕ)
  | wouldBlock
  | fails

structure Surroundings where
  alloc : Bool
  realloc : Bool
  shrink : Bool
  read : Arrival

/-- `MAXINT >> 2`. -/
def maxWords : ℕ := 2^29-1

/-- `get_req_len`, in words, for a host whose low bytes come first. -/
def getReqLen (swapped : Bool) (l : List Byte) : ℕ :=
  let a := (l.getD 2 0).toNat
  let b := (l.getD 3 0).toNat
  if swapped then 2^8*a + b else a + 2^8*b

/-- `get_big_req_len`, in words. -/
def getBigReqLen (swapped : Bool) (l : List Byte) : ℕ :=
  let a := (l.getD 4 0).toNat
  let b := (l.getD 5 0).toNat
  let c := (l.getD 6 0).toNat
  let d := (l.getD 7 0).toNat
  if swapped then 2^24*a + 2^16*b + 2^8*c + d else a + 2^8*b + 2^16*c + 2^24*d

namespace Server

def set (s : Server) (who : ℕ) (c : Client) : Server := { s with client := Function.update s.client who c }

/-- `NextAvailableInput`: a client whose buffer was empty gives it up when another one comes. -/
def nextAvailableInput (s : Server) (who : ℕ) : Except Fault Server :=
  match s.availableInput with
  | none => .ok s
  | some oc =>
    if oc = who then .ok { s with availableInput := none }
    else
      match (s.client oc).input with
      | none => .error .nullPointer
      | some aci =>
        let freeInputs := if aci.size > bufWatermark then s.freeInputs else aci::s.freeInputs
        .ok { s.set oc { s.client oc with input := none } with freeInputs, availableInput := none }

/-- The client's buffer, a free one, or a new one. -/
def ensureInput (s : Server) (who : ℕ) (alloc : Bool) : Option ConnectionInput × Server :=
  match (s.client who).input, s.freeInputs with
  | some oci, _ => (some oci,s)
  | none, oci::rest => (some oci,({ s with freeInputs := rest }).set who { s.client who with input := some oci })
  | none, [] =>
    if alloc then (some .fresh,s.set who { s.client who with input := some .fresh }) else (none,s)

def freeOsBuffers (s : Server) (who : ℕ) : Server :=
  let freeInputs :=
    match (s.client who).input, s.freeInputs with
    | some oci, [] => [{ oci with bufptr := 0, bufcnt := 0, lenLastReq := 0, ignoreBytes := 0 }]
    | _, free => free
  let availableInput := if s.availableInput = some who then none else s.availableInput
  { s.set who { s.client who with input := none } with freeInputs, availableInput }

end Server

/-- The variables of a call of `ReadRequestFromClient`, with the fields of the client that it changes. -/
structure Reading where
  oci : ConnectionInput
  stream : List Byte
  reqLen : ℕ
  requestBuffer : ℕ
  gotnow : ℕ
  needed : ℕ
  needHeader : Bool
  moveHeader : Bool

namespace Reading

/-- The length of the request at `bufptr`, in words, as far as its header is there. -/
def header (swapped bigRequests : Bool) (r : Reading) : Except Fault Reading :=
  if r.oci.size < r.oci.bufptr + 4 then .error .overread
  else
    let needed := getReqLen swapped (slice r.oci.buffer r.oci.bufptr 4)
    if needed = 0 ∧ bigRequests = true then
      if r.gotnow < 8 then .ok { r with needed := 2, reqLen := 2, needHeader := true, moveHeader := true }
      else if r.oci.size < r.oci.bufptr + 8 then .error .overread
      else
        let needed := getBigReqLen swapped (slice r.oci.buffer r.oci.bufptr 8)
        .ok { r with needed, reqLen := needed, moveHeader := true }
    else .ok { r with needed, reqLen := needed }

def ignore (r : Reading) : Except Fault Reading :=
  if r.needed ≠ r.oci.ignoreBytes ∧ r.needed ≠ r.oci.size then .error .assertion
  else
    let n := if r.gotnow < r.needed then r.gotnow else r.needed
    .ok { r with
      oci := { r.oci with ignoreBytes := r.oci.ignoreBytes - n, bufptr := r.oci.bufptr + n }
      gotnow := r.gotnow - n
      needed := 0 }

def moveHeaderUp (r : Reading) : Reading :=
  { r with
    oci := { r.oci with
      buffer := store r.oci.buffer (r.oci.bufptr + 4) (slice r.oci.buffer r.oci.bufptr 4)
      bufptr := r.oci.bufptr + 4
      lenLastReq := r.oci.lenLastReq - 4 }
    reqLen := r.reqLen - 1 }

/-- From where all of a request is there: the result, and whether the buffer is available. -/
def finish (bigRequests : Bool) (r : Reading) : Except Fault (Result × Reading × Bool) := do
  let r := { r with needed := if r.needed = 0 then (if bigRequests then 8 else 4) else r.needed }
  let r ← if r.oci.ignoreBytes > 0 then r.ignore else .ok r
  let r := { r with oci := { r.oci with lenLastReq := r.needed }, gotnow := r.gotnow - r.needed }
  let available := decide (r.gotnow = 0 ∧ r.oci.ignoreBytes = 0)
  if r.moveHeader ∧ r.reqLen < 1 then return (.terminate,r,available)
  else
    let r := if r.moveHeader then r.moveHeaderUp else r
    return (if r.needed = 0 then .notYet else .value r.needed,{ r with requestBuffer := r.oci.bufptr },available)

def makeRoom (realloc : Bool) (r : Reading) : Bool × Reading :=
  if r.gotnow = 0 ∨ r.oci.size < r.oci.bufptr + r.needed then
    let buffer := if 0 < r.gotnow ∧ r.oci.bufptr ≠ 0 then store r.oci.buffer 0 (slice r.oci.buffer r.oci.bufptr r.gotnow)
      else r.oci.buffer
    if r.oci.size < r.needed then
      if realloc then (true,{ r with oci := { r.oci with buffer, size := r.needed, bufptr := 0, bufcnt := r.gotnow } })
      else (false,{ r with oci := { r.oci with buffer } })
    else (true,{ r with oci := { r.oci with buffer, bufptr := 0, bufcnt := r.gotnow } })
  else (true,r)

/-- The bytes that have come are put behind the others. -/
def receive (r : Reading) (got : List Byte) : Reading :=
  { r with
    oci := { r.oci with buffer := store r.oci.buffer r.oci.bufcnt got, bufcnt := r.oci.bufcnt + got.length }
    gotnow := r.gotnow + got.length
    stream := r.stream.drop got.length }

/-- A buffer that has been bigger gets its old size. -/
def shrink (shrinks : Bool) (r : Reading) : Reading :=
  if bufWatermark < r.oci.size ∧ r.oci.bufcnt < bufSize ∧ r.needed < bufSize ∧ shrinks = true then
    { r with oci := { r.oci with size := bufSize, bufptr := r.oci.bufcnt - r.gotnow } }
  else r

/-- The end of the first part: more data has been read. -/
def settle (bigRequests : Bool) (r : Reading) : Except Fault (Result × Reading × Bool) :=
  if r.gotnow < r.needed then .ok (.notYet,r,false) else r.finish bigRequests

/-- After more data has been read: it may complete a header. -/
def received (c : Client) (r : Reading) : Except Fault (Result × Reading × Bool) :=
  if r.needHeader ∧ r.needed ≤ r.gotnow then do
    let r ← r.header c.swapped c.bigRequests
    if r.needed > maxWords then return (.badLength,r,false)
    else settle c.bigRequests { r with needed := 4*r.needed }
  else r.settle c.bigRequests

def more (maxBigRequestSize : ℕ) (env : Surroundings) (c : Client) (r : Reading) : Except Fault (Result × Reading × Bool) :=
  if r.needed > 4*maxBigRequestSize then
    .ok (.value r.needed,{ r with oci := { r.oci with ignoreBytes := r.needed - r.gotnow, lenLastReq := r.gotnow } },false)
  else
    let (room,r) := r.makeRoom env.realloc
    if !room || !c.transConn then .ok (.terminate,r,false)
    else
      match env.read with
      | .wouldBlock => .ok (.notYet,r,false)
      | .fails => .ok (.terminate,r,false)
      | .takes n =>
        let got := r.stream.take (min n (r.oci.size - r.oci.bufcnt))
        if got = [] then .ok (.terminate,r,false) else ((r.receive got).shrink env.shrink).received c

/-- The first part when it is known how many bytes are needed. -/
def fetch (maxBigRequestSize : ℕ) (env : Surroundings) (c : Client) (r : Reading) :
    Except Fault (Result × Reading × Bool) :=
  if r.gotnow < r.needed then more maxBigRequestSize env c { r with oci := { r.oci with lenLastReq := 0 } }
  else r.finish c.bigRequests

end Reading

/-- The variables when the buffer has been advanced to the next request. -/
def Client.start (c : Client) (oci : ConnectionInput) : Reading :=
  let oci := { oci with bufptr := oci.bufptr + oci.lenLastReq }
  ⟨oci,c.stream,c.reqLen,c.requestBuffer,(oci.bufcnt + 2^32 - oci.bufptr) % 2^32,0,false,false⟩

/-- `ReadRequestFromClient` from where there is a buffer. -/
def Client.readRequest (maxBigRequestSize : ℕ) (env : Surroundings) (c : Client) (oci : ConnectionInput) :
    Except Fault (Result × Reading × Bool) := do
  let r := c.start oci
  if r.oci.ignoreBytes > 0 then
    Reading.fetch maxBigRequestSize env c
      { r with needed := if r.oci.ignoreBytes > r.oci.size then r.oci.size else r.oci.ignoreBytes }
  else if r.gotnow < 4 then Reading.fetch maxBigRequestSize env c { r with needed := 4, needHeader := true }
  else
    let r ← r.header c.swapped c.bigRequests
    if r.needed > maxWords then return (.badLength,r,false)
    else Reading.fetch maxBigRequestSize env c { r with needed := 4*r.needed }

def Client.finished (c : Client) (r : Reading) : Client :=
  { c with input := some r.oci, stream := r.stream, reqLen := r.reqLen, requestBuffer := r.requestBuffer }

def readRequestFromClient (maxBigRequestSize : ℕ) (env : Surroundings) (s : Server) (who : ℕ) :
    Except Fault (Result × Server) := do
  let s ← s.nextAvailableInput who
  match s.ensureInput who env.alloc with
  | (none,s) => return (.terminate,s)
  | (some oci,s) =>
    let (result,r,available) ← (s.client who).readRequest maxBigRequestSize env oci
    return (result,{ s.set who ((s.client who).finished r) with
      availableInput := if available then some who else s.availableInput })

def ConnectionInput.moveUp (oci : ConnectionInput) (gotnow : ℤ) (count : ℕ) : ConnectionInput :=
  if oci.bufptr < count then
    { oci with
      buffer := if 0 < gotnow then store oci.buffer count (slice oci.buffer oci.bufptr gotnow.toNat) else oci.buffer
      bufptr := count
      bufcnt := oci.bufcnt + (count - oci.bufptr) }
  else oci

/-- `InsertFakeRequest` with a buffer. -/
def ConnectionInput.insert (oci : ConnectionInput) (data : List Byte) (realloc : Bool) :
    Except Fault (Bool × ConnectionInput) :=
  let oci := { oci with bufptr := oci.bufptr + oci.lenLastReq, lenLastReq := 0 }
  let gotnow : ℤ := oci.bufcnt - oci.bufptr
  if 2^31 ≤ gotnow + data.length then .error .signedOverflow
  else if gotnow + data.length > oci.size ∧ realloc = false then .ok (false,oci)
  else
    let oci := if gotnow + data.length > oci.size then { oci with size := (gotnow + data.length).toNat } else oci
    let oci := oci.moveUp gotnow data.length
    .ok (true,{ oci with buffer := store oci.buffer (oci.bufptr - data.length) data, bufptr := oci.bufptr - data.length })

def insertFakeRequest (env : Surroundings) (s : Server) (who : ℕ) (data : List Byte) : Except Fault (Bool × Server) := do
  let s ← s.nextAvailableInput who
  match s.ensureInput who env.alloc with
  | (none,s) => return (false,s)
  | (some oci,s) =>
    let (ok,oci) ← oci.insert data env.realloc
    return (ok,s.set who { s.client who with input := some oci })

end Xlibre.Os.Input
