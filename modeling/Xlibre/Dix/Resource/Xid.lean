import Mathlib.Data.Nat.Size
import Xlibre.Lib.Buckets

/-! Resource identifiers: the client field, the resource field and the server bit of an XID,
and the hash of the resource field. -/
namespace Xlibre.Dix.Resource

abbrev XID := BitVec 32
abbrev RESTYPE := BitVec 32

structure Limits where
  limitClients : ℕ
  accepted : limitClients ∈ [64,128,256,512,1024,2048]

def defaultLimits : Limits := ⟨256,by decide⟩

/-- The largest `b` with `2^b ≤ val`, by counting the shifts that empty `val`. -/
def ilog2 (val : ℕ) : ℕ := if val = 0 then 0 else Nat.size val - 1

namespace Limits
variable (L : Limits)

def resourceClientBits : ℕ := ilog2 L.limitClients

def clientOffset : ℕ := 29 - L.resourceClientBits

def resourceIdMask : XID := (1#32 <<< L.clientOffset) - 1#32

def resourceClientMask : XID := ((1#32 <<< L.resourceClientBits) - 1#32) <<< L.clientOffset

def clientBits (id : XID) : XID := id &&& L.resourceClientMask

def dixClientIdForXID (id : XID) : ℕ := (L.clientBits id >>> L.clientOffset).toNat % 2^16

def hashResourceID (id : XID) (numBits : ℕ) : ℕ :=
  let id := id &&& L.resourceIdMask
  if numBits < 9 then
    ((id ^^^ (id >>> numBits) ^^^ (id >>> (numBits <<< 1))) &&&
      ~~~((~~~0#32) <<< numBits)).toNat
  else ((id ^^^ (id >>> numBits)) &&& ~~~((~~~0#32) <<< numBits)).toNat

end Limits

def serverBit : XID := 0x40000000#32
def serverMinId : XID := 32#32
def rcNeverRetain : RESTYPE := 1#32 <<< 29
def rcAny : RESTYPE := ~~~0#32

namespace Limits
variable (L : Limits)

lemma limitClients_eq : L.limitClients = 2^L.resourceClientBits ∧ L.resourceClientBits ≤ 11 := by
  have h := L.accepted
  simp only [List.mem_cons,List.not_mem_nil,or_false] at h
  unfold resourceClientBits
  rcases h with h | h | h | h | h | h <;> rw [h] <;> decide +kernel

lemma resourceClientBits_le : L.resourceClientBits ≤ 11 := L.limitClients_eq.2

lemma clientOffset_bounds : 18 ≤ L.clientOffset ∧ L.clientOffset ≤ 29 ∧
    L.clientOffset + L.resourceClientBits = 29 := by
  have h := L.resourceClientBits_le
  simp only [clientOffset]
  omega

lemma toNat_low_mask (n : ℕ) (h : n < 32) : ((1#32 <<< n) - 1#32).toNat = 2^n-1 := by
  have hp : (2:ℕ)^n < 2^32 := Nat.pow_lt_pow_right (by norm_num) h
  have h1 : 1 ≤ (2:ℕ)^n := Nat.one_le_two_pow
  have hs : (1#32 <<< n).toNat = 2^n := by
    simp only [BitVec.toNat_shiftLeft,BitVec.toNat_ofNat,Nat.shiftLeft_eq]
    norm_num
    exact hp
  rw [BitVec.toNat_sub_of_le (by rw [BitVec.le_def,hs]; simpa using h1),hs]
  rfl

lemma toNat_resourceIdMask : L.resourceIdMask.toNat = 2^L.clientOffset-1 :=
  toNat_low_mask _ (by have := L.clientOffset_bounds; omega)

lemma toNat_and_low (x : XID) (n : ℕ) (h : n < 32) :
    (x &&& ~~~((~~~0#32) <<< n)).toNat = x.toNat % 2^n := by
  apply Nat.eq_of_testBit_eq
  intro i
  rw [Nat.testBit_mod_two_pow]
  by_cases hi : i < 32
  · simp only [BitVec.testBit_toNat,BitVec.getLsbD_and,BitVec.getLsbD_not,BitVec.getLsbD_shiftLeft,
      BitVec.getLsbD_zero,hi]
    by_cases hn : i < n
    · simp [hn]
    · simp [hn,show i-n < 32 by omega]
  · have hx : x.getLsbD i = false := BitVec.getLsbD_of_ge x i (by omega)
    simp [BitVec.testBit_toNat,hx]

theorem hashResourceID_lt (id : XID) (numBits : ℕ) (h : numBits < 32) :
    L.hashResourceID id numBits < 2^numBits := by
  unfold hashResourceID
  simp only
  split_ifs <;> rw [toNat_and_low _ _ h] <;> exact Nat.mod_lt _ (by positivity)

lemma clientBits_lt (id : XID) : (L.clientBits id >>> L.clientOffset).toNat < 2^L.resourceClientBits := by
  obtain ⟨_,_,hsum⟩ := L.clientOffset_bounds
  have hb := L.resourceClientBits_le
  apply Nat.lt_pow_two_of_testBit
  intro i hi
  rw [BitVec.testBit_toNat,BitVec.getLsbD_ushiftRight,clientBits,BitVec.getLsbD_and,
    resourceClientMask,BitVec.getLsbD_shiftLeft]
  have hm : ((1#32 <<< L.resourceClientBits) - 1#32).getLsbD i = false := by
    rw [← BitVec.testBit_toNat,toNat_low_mask _ (by omega),Nat.testBit_two_pow_sub_one]
    simpa using hi
  simp [hm]

theorem dixClientIdForXID_eq (id : XID) :
    L.dixClientIdForXID id = (L.clientBits id >>> L.clientOffset).toNat := by
  apply Nat.mod_eq_of_lt
  have h := L.clientBits_lt id
  have hb : (2:ℕ)^L.resourceClientBits ≤ 2^16 :=
    Nat.pow_le_pow_right (by norm_num) (by have := L.resourceClientBits_le; omega)
  omega

/-- The client field as a number. -/
theorem dixClientIdForXID_toNat (id : XID) :
    L.dixClientIdForXID id = id.toNat/2^L.clientOffset % 2^L.resourceClientBits := by
  obtain ⟨_,_,hsum⟩ := L.clientOffset_bounds
  have hb := L.resourceClientBits_le
  rw [dixClientIdForXID_eq]
  apply Nat.eq_of_testBit_eq
  intro i
  rw [BitVec.testBit_toNat,BitVec.getLsbD_ushiftRight,clientBits,BitVec.getLsbD_and,
    resourceClientMask,BitVec.getLsbD_shiftLeft,Nat.testBit_mod_two_pow,Nat.testBit_div_two_pow,
    BitVec.testBit_toNat,← BitVec.testBit_toNat ((1#32 <<< _) - _),toNat_low_mask _ (by omega),
    Nat.testBit_two_pow_sub_one]
  rcases Nat.lt_or_ge i L.resourceClientBits with hi | hi
  · simp [hi,show i + L.clientOffset < 32 by omega,Nat.add_comm]
  · simp [show ¬ i < L.resourceClientBits by omega]

/-- The client field never names a client beyond the limit. -/
theorem dixClientIdForXID_lt (id : XID) : L.dixClientIdForXID id < L.limitClients := by
  rw [dixClientIdForXID_eq]
  rw [L.limitClients_eq.1]
  exact L.clientBits_lt id

end Limits
end Xlibre.Dix.Resource

/-! The per-client resource tables: chained records, growth by doubling, and the operations on
them. Delete functions are recorded as calls here; their effect on the tables is the subject of
the re-entrant machine. -/
namespace Xlibre.Dix.Resource
open Xlibre.Lib.Buckets

/-- A chained record, together with the address at which it was allocated. -/
structure ResourceRec (V : Type*) where
  addr : ℕ
  id : XID
  type : RESTYPE
  value : V
  deriving DecidableEq, Repr

structure ClientResourceRec (V : Type*) where
  resources : List (List (ResourceRec V))
  elements : ℕ
  buckets : ℕ
  hashsize : ℕ
  fakeID : XID
  endFakeID : XID

structure ResourceTypes where
  typeMask : RESTYPE
  lastResourceType : RESTYPE
  errorValue : RESTYPE → ℕ

structure Server (V : Type*) where
  clientTable : ℕ → ClientResourceRec V
  nextAddr : ℕ

def success : ℕ := 0
def badValue : ℕ := 2
def badImplementation : ℕ := 17
def initHashSize : ℕ := 6
def initBuckets : ℕ := 64
def maxHashSize : ℕ := 16

/-- The static client table before any client is created. -/
def Server.empty (V : Type*) : Server V where
  clientTable _ := ⟨[],0,0,0,0#32,0#32⟩
  nextAddr := 0

namespace Server
variable {V : Type*} (L : Limits) (s : Server V)

def setClient (c : ℕ) (t : ClientResourceRec V) : Server V :=
  { s with clientTable := Function.update s.clientTable c t }

def clientAsMask (index : ℕ) : XID := BitVec.ofNat 32 index <<< L.clientOffset

def initClientResources (index : ℕ) : Server V :=
  let fakeID := clientAsMask L index ||| (if index ≠ 0 then serverBit else serverMinId)
  s.setClient index
    { resources := List.replicate initBuckets []
      elements := 0
      buckets := initBuckets
      hashsize := initHashSize
      fakeID := fakeID
      endFakeID := (fakeID ||| L.resourceIdMask) + 1#32 }

/-- Double the table. The tail pointers of the new chains make every record go behind those
already scattered, chain by chain in the old order. -/
def rebuildTable (t : ClientResourceRec V) : ClientResourceRec V :=
  { t with
    resources := rehash (fun r => L.hashResourceID r.id (t.hashsize+1)) (2*t.buckets) t.resources
    hashsize := t.hashsize+1
    buckets := 2*t.buckets }

def growTable (t : ClientResourceRec V) : ClientResourceRec V :=
  if t.elements ≥ 4*t.buckets ∧ t.hashsize < maxHashSize then rebuildTable L t else t

/-- `none` is the fatal error for a client that is not in use. -/
def addResource (id : XID) (type : RESTYPE) (value : V) : Option (Server V) :=
  let client := L.dixClientIdForXID id
  let rrec := s.clientTable client
  if rrec.buckets = 0 then none else
  let rrec := growTable L rrec
  let res : ResourceRec V := ⟨s.nextAddr,id,type,value⟩
  let rrec := { rrec with
    resources := rrec.resources.modify (L.hashResourceID id rrec.hashsize) (res :: ·)
    elements := rrec.elements+1 }
  some { s.setClient client rrec with nextAddr := s.nextAddr+1 }

/-- The guard all later operations share: the client exists and its table is allocated. -/
def inUse (id : XID) : Bool :=
  let cid := L.dixClientIdForXID id
  cid < L.limitClients && (s.clientTable cid).buckets ≠ 0

/-- The chain an operation on `id` walks. -/
def chainOf (id : XID) : List (ResourceRec V) :=
  let t := s.clientTable (L.dixClientIdForXID id)
  if s.inUse L id then chain t.resources (L.hashResourceID id t.hashsize) else []

/-- Put back the chain of `id` and the element count. -/
def setChain (id : XID) (c : List (ResourceRec V)) (elements : ℕ) : Server V :=
  let cid := L.dixClientIdForXID id
  let t := s.clientTable cid
  s.setClient cid { t with
    resources := t.resources.modify (L.hashResourceID id t.hashsize) (fun _ => c)
    elements := elements }

end Server

section Walks
variable {V : Type*}

/-- The walk of `FreeResource`: unlink every record of `id`, counting down the elements. The
records whose delete function is called are listed in order. -/
def freeWalk (id : XID) (skipDeleteFuncType : RESTYPE) :
    List (ResourceRec V) → ℕ → List (ResourceRec V) × ℕ × List (ResourceRec V)
  | [],n => ([],n,[])
  | res::rest,n =>
    if res.id = id then
      let r := freeWalk id skipDeleteFuncType rest (n-1)
      (r.1,r.2.1,if res.type = skipDeleteFuncType then r.2.2 else res::r.2.2)
    else
      let r := freeWalk id skipDeleteFuncType rest n
      (res::r.1,r.2.1,r.2.2)

/-- The walk of `FreeResourceByType` stops at the first record it unlinks. -/
def freeByTypeWalk (id : XID) (type : RESTYPE) (skipFree : Bool) :
    List (ResourceRec V) → ℕ → List (ResourceRec V) × ℕ × List (ResourceRec V)
  | [],n => ([],n,[])
  | res::rest,n =>
    if res.id = id ∧ res.type = type then (rest,n-1,if skipFree then [] else [res])
    else
      let r := freeByTypeWalk id type skipFree rest n
      (res::r.1,r.2.1,r.2.2)

/-- The walk of `ChangeResourceValue`: the first match gets the value. -/
def changeWalk (id : XID) (rtype : RESTYPE) (value : V) :
    List (ResourceRec V) → List (ResourceRec V) × Bool
  | [] => ([],false)
  | res::rest =>
    if res.id = id ∧ res.type = rtype then ({ res with value := value }::rest,true)
    else
      let r := changeWalk id rtype value rest
      (res::r.1,r.2)

end Walks

namespace Server
variable {V : Type*} (L : Limits) (s : Server V)

def elementsOf (id : XID) : ℕ := (s.clientTable (L.dixClientIdForXID id)).elements

def freeResource (id : XID) (skipDeleteFuncType : RESTYPE) : Server V × List (ResourceRec V) :=
  if s.inUse L id then
    let r := freeWalk id skipDeleteFuncType (s.chainOf L id) (s.elementsOf L id)
    (s.setChain L id r.1 r.2.1,r.2.2)
  else (s,[])

def freeResourceByType (id : XID) (type : RESTYPE) (skipFree : Bool) :
    Server V × List (ResourceRec V) :=
  if s.inUse L id then
    let r := freeByTypeWalk id type skipFree (s.chainOf L id) (s.elementsOf L id)
    (s.setChain L id r.1 r.2.1,r.2.2)
  else (s,[])

def changeResourceValue (id : XID) (rtype : RESTYPE) (value : V) : Server V × Bool :=
  if s.inUse L id then
    let r := changeWalk id rtype value (s.chainOf L id)
    (s.setChain L id r.1 (s.elementsOf L id),r.2)
  else (s,false)

def dixLookupResourceByType (types : ResourceTypes) (id : XID) (rtype : RESTYPE) :
    ℕ × Option V :=
  if rtype &&& types.typeMask > types.lastResourceType then (badImplementation,none) else
  match (s.chainOf L id).find? (fun res => res.id = id ∧ res.type = rtype) with
  | none => (types.errorValue (rtype &&& types.typeMask),none)
  | some res => (success,some res.value)

def dixLookupResourceByClass (id : XID) (rclass : RESTYPE) : ℕ × Option V :=
  match (s.chainOf L id).find? (fun res => res.id = id ∧ res.type &&& rclass ≠ 0#32) with
  | none => (badValue,none)
  | some res => (success,some res.value)

end Server
end Xlibre.Dix.Resource
