import Xlibre.Dix.Resource.Multimap

/-! Freeing resources while their delete functions free others. The machine keeps the C stack
explicitly: a loop holds the address of the pointer it is about to follow across the call of a
delete function, and following a pointer inside a freed record is an error. -/
namespace Xlibre.Dix.Resource
open Xlibre.Lib.Buckets

/-- The pointer a loop follows next: the bucket head, or the `next` field of a record. -/
inductive Prev
  | head
  | next (addr : ℕ)
  deriving DecidableEq, Repr

section Chain
variable {V : Type*}

/-- Follow the pointer: `none` when its record is no longer in the chain. -/
def deref : List (ResourceRec V) → Prev → Option (Option (ResourceRec V))
  | c,.head => some c.head?
  | [],.next _ => none
  | r::c,.next a => if r.addr = a then some c.head? else deref c (.next a)

def unlinkNext : Prev → List (ResourceRec V) → List (ResourceRec V)
  | .head,c => c.tail
  | .next _,[] => []
  | .next a,r::c => if r.addr = a then r::c.tail else r::unlinkNext (.next a) c

end Chain

/-- What the log keeps: a record leaving its chain, with the skip type of the `FreeResource` call
that removed it (none for the client loops), and a call of its delete function. -/
inductive Event (V : Type*)
  | unlinked (res : ResourceRec V) (skip : Option RESTYPE)
  | deleteCalled (res : ResourceRec V)

structure World (V : Type*) where
  server : Server V
  log : List (Event V)

inductive DeleteProg (σ : Type*)
  | done
  | freeResource (id : XID) (skipDeleteFuncType : RESTYPE) (next : σ → DeleteProg σ)

abbrev DeleteFuncs (V : Type*) := RESTYPE → V → XID → World V → DeleteProg (World V)

inductive Frame (V : Type*)
  /-- `FreeResource` has been called. -/
  | freeResource (id : XID) (skip : RESTYPE)
  /-- `FreeResource` is at its loop test; the bucket head is held as client and index. -/
  | freeLoop (id : XID) (skip : RESTYPE) (cid j : ℕ) (prev : Prev)
  /-- The delete function called by `FreeResource` is to return here. -/
  | freeReturn (id : XID) (skip : RESTYPE) (cid j : ℕ) (prev : Prev) (elements : ℕ)
  /-- A delete function runs. -/
  | delete (next : World V → DeleteProg (World V))
  /-- `FreeClientNeverRetainResources` at the test of its bucket loop. -/
  | neverRetainBucket (client j : ℕ)
  | neverRetainLoop (client j : ℕ) (prev : Prev)
  | neverRetainReturn (client j : ℕ) (prev : Prev) (elements : ℕ)
  /-- `FreeClientResources` at the test of its bucket loop. -/
  | clientBucket (client j : ℕ)
  | clientLoop (client j : ℕ)

structure Config (V : Type*) where
  world : World V
  stack : List (Frame V)

namespace World
variable {V : Type*} (w : World V)

def table (client : ℕ) : ClientResourceRec V := w.server.clientTable client

/-- Take the record after `prev` out of its chain and count it off. -/
def unlink (client j : ℕ) (prev : Prev) (res : ResourceRec V) (skip : Option RESTYPE) : World V where
  server := w.server.setClient client { w.table client with
    resources := (w.table client).resources.modify j (unlinkNext prev)
    elements := (w.table client).elements-1 }
  log := w.log ++ [.unlinked res skip]

def logDelete (res : ResourceRec V) : World V := { w with log := w.log ++ [.deleteCalled res] }

/-- Release the bucket array at the end of `FreeClientResources`. -/
def releaseTable (client : ℕ) : World V where
  server := w.server.setClient client { w.table client with resources := [], buckets := 0 }
  log := w.log

end World

section Machine
variable {V : Type*} (L : Limits) (typeMask : RESTYPE) (del : DeleteFuncs V)

/-- `doFreeResource`: unless skipped, the delete function runs before the caller goes on. -/
def doFreeResource (w : World V) (res : ResourceRec V) (skip : Bool) (k : List (Frame V)) :
    Config V :=
  if skip then ⟨w,k⟩
  else ⟨w.logDelete res,.delete (del (res.type &&& typeMask) res.value res.id)::k⟩

def step : Config V → Option (Config V)
  | ⟨_,[]⟩ => none
  | ⟨w,.freeResource id skip::k⟩ =>
    let cid := L.dixClientIdForXID id
    if w.server.inUse L id then
      some ⟨w,.freeLoop id skip cid (L.hashResourceID id (w.table cid).hashsize) .head::k⟩
    else some ⟨w,k⟩
  | ⟨w,.freeLoop id skip cid j prev::k⟩ =>
    match deref (chain (w.table cid).resources j) prev with
    | none => none
    | some none => some ⟨w,k⟩
    | some (some res) =>
      if res.id = id then
        let w := w.unlink cid j prev res (some skip)
        some (doFreeResource typeMask del w res (res.type = skip)
          (.freeReturn id skip cid j prev (w.table cid).elements::k))
      else some ⟨w,.freeLoop id skip cid j (.next res.addr)::k⟩
  | ⟨w,.freeReturn id skip cid j prev elements::k⟩ =>
    if (w.table cid).elements ≠ elements then some ⟨w,.freeLoop id skip cid j .head::k⟩
    else some ⟨w,.freeLoop id skip cid j prev::k⟩
  | ⟨w,.delete next::k⟩ =>
    match next w with
    | .done => some ⟨w,k⟩
    | .freeResource id skip next => some ⟨w,.freeResource id skip::.delete next::k⟩
  | ⟨w,.neverRetainBucket client j::k⟩ =>
    if j < (w.table client).buckets then some ⟨w,.neverRetainLoop client j .head::k⟩
    else some ⟨w,k⟩
  | ⟨w,.neverRetainLoop client j prev::k⟩ =>
    match deref (chain (w.table client).resources j) prev with
    | none => none
    | some none => some ⟨w,.neverRetainBucket client (j+1)::k⟩
    | some (some res) =>
      if res.type &&& rcNeverRetain ≠ 0#32 then
        let w := w.unlink client j prev res none
        some (doFreeResource typeMask del w res false
          (.neverRetainReturn client j prev (w.table client).elements::k))
      else some ⟨w,.neverRetainLoop client j (.next res.addr)::k⟩
  | ⟨w,.neverRetainReturn client j prev elements::k⟩ =>
    if (w.table client).elements ≠ elements then some ⟨w,.neverRetainLoop client j .head::k⟩
    else some ⟨w,.neverRetainLoop client j prev::k⟩
  | ⟨w,.clientBucket client j::k⟩ =>
    if j < (w.table client).buckets then some ⟨w,.clientLoop client j::k⟩
    else some ⟨w.releaseTable client,k⟩
  | ⟨w,.clientLoop client j::k⟩ =>
    match (chain (w.table client).resources j).head? with
    | none => some ⟨w,.clientBucket client (j+1)::k⟩
    | some res =>
      some (doFreeResource typeMask del (w.unlink client j .head res none) res false
        (.clientLoop client j::k))

/-- Any number of steps. -/
def Reaches : Config V → Config V → Prop :=
  Relation.ReflTransGen (fun a b => step L typeMask del a = some b)

end Machine
end Xlibre.Dix.Resource
