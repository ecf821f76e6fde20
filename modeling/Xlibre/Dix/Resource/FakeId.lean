import Xlibre.Dix.Resource.Refinement
import Xlibre.Dix.Resource.XidRange

/-! XIDs handed out for the server's own use: `FakeClientID` along every run, through any number
of recyclings of the range. -/
namespace Xlibre.Dix.Resource
open Xlibre.Lib.Buckets

inductive FakeResult (V : Type*)
  | fatalError
  | ret (id : XID) (clientException : Bool) (s : Server V)

def FakeResult.id? {V : Type*} : FakeResult V → Option XID
  | .fatalError => none
  | .ret id _ _ => some id

namespace Server
variable {V : Type*} (L : Limits)

/-- The body of `FakeClientID` for a non-zero XID in line. -/
def nextFakeID (s : Server V) (client : ℕ) (id : XID) : FakeResult V :=
  let t := s.clientTable client
  if id ≠ t.endFakeID then .ret id false s else
  let range := getXIDRange L t client true
  if range.1 = 0#32 ∧ client = 0 then .fatalError else
  let exhausted : Bool := range.1 = 0#32
  let id := if exhausted then clientAsMask L client ||| (serverBit * 3#32) else range.1
  let maxid := if exhausted then id ||| L.resourceIdMask else range.2
  .ret id exhausted (s.setClient client { t with fakeID := id+1#32, endFakeID := maxid+1#32 })

/-- A zero XID is passed over by calling again; the counter then stands at one. -/
def fakeClientID (s : Server V) (client : ℕ) : FakeResult V :=
  let id := (s.clientTable client).fakeID
  let s := s.setClient client { s.clientTable client with fakeID := id+1#32 }
  if id = 0#32 then
    let id := (s.clientTable client).fakeID
    nextFakeID L (s.setClient client { s.clientTable client with fakeID := id+1#32 }) client id
  else nextFakeID L s client id

def legalNewID (s : Server V) (id : XID) (client : ℕ) : Bool :=
  if clientAsMask L client = id &&& ~~~L.resourceIdMask then
    (s.dixLookupResourceByClass L id rcAny).1 = badValue
  else false

end Server

/-- A server together with the XIDs that `FakeClientID` has returned for each client. -/
structure FakeState (V : Type*) where
  server : Server V
  issued : ℕ → List XID

def HasUnusedID {V : Type*} (L : Limits) (s : Server V) (client : ℕ) : Prop :=
  ∃ x, firstXID L client true ≤ x ∧ x ≤ firstXID L client true ||| L.resourceIdMask ∧
    ∀ r ∈ (s.clientTable client).resources.flatten, r.id ≠ x

/-- The states reached by initialising clients, adding resources of XIDs that `allow` admits,
freeing resources, and calling `FakeClientID` while an unused XID remains. -/
inductive FakeRun {V : Type*} (L : Limits) (allow : FakeState V → XID → Prop) : FakeState V → Prop
  | start : FakeRun L allow ⟨Server.empty V,fun _ => []⟩
  | initClientResources {s} (client : ℕ) : FakeRun L allow s → client < L.limitClients →
      FakeRun L allow { s with server := s.server.initClientResources L client }
  | addResource {s server'} (id : XID) (type : RESTYPE) (value : V) : FakeRun L allow s →
      allow s id → s.server.addResource L id type value = some server' →
      FakeRun L allow { s with server := server' }
  | freeResource {s} (id : XID) (skip : RESTYPE) : FakeRun L allow s →
      FakeRun L allow { s with server := (s.server.freeResource L id skip).1 }
  | fakeClientID {s server'} {client : ℕ} {id : XID} {exc : Bool} : FakeRun L allow s →
      client < L.limitClients → (s.server.clientTable client).buckets ≠ 0 →
      HasUnusedID L s.server client → s.server.fakeClientID L client = .ret id exc server' →
      FakeRun L allow ⟨server',Function.update s.issued client (id::s.issued client)⟩

def LegalOrIssued {V : Type*} (L : Limits) (s : FakeState V) (id : XID) : Prop :=
  ∃ client < L.limitClients, s.server.legalNewID L id client = true ∨ id ∈ s.issued client

/-- XIDs of the current range that have not been handed out yet. -/
def Pending {V : Type*} (s : FakeState V) (client : ℕ) (id : XID) : Prop :=
  (s.server.clientTable client).fakeID ≤ id ∧ id < (s.server.clientTable client).endFakeID

/-- What a returned XID is good for: it is the client's, lies in the server's part of its space,
and no resource of the client has it. -/
structure FreshID {V : Type*} (L : Limits) (s : Server V) (client : ℕ) (id : XID) : Prop where
  ne_zero : id ≠ 0#32
  owner : L.dixClientIdForXID id = client
  server_bit : client ≠ 0 → id &&& serverBit ≠ 0#32
  server_min : client = 0 → serverMinId ≤ id
  unused : ∀ r ∈ (s.clientTable client).resources.flatten, r.id ≠ id

section Bounds
variable {L : Limits} {client : ℕ}

lemma toNat_clientAsMask (h : client < L.limitClients) :
    (Server.clientAsMask L client).toNat = client*2^L.clientOffset ∧
      client*2^L.clientOffset + 2^L.clientOffset ≤ 2^29 := by
  obtain ⟨_,_,hsum⟩ := L.clientOffset_bounds
  rw [L.limitClients_eq.1] at h
  have hle : (client+1)*2^L.clientOffset ≤ 2^29 := by
    calc (client+1)*2^L.clientOffset ≤ 2^L.resourceClientBits*2^L.clientOffset :=
          Nat.mul_le_mul_right _ h
      _ = 2^29 := by rw [← pow_add,Nat.add_comm,hsum]
  have hpos : 0 < 2^L.clientOffset := by positivity
  have hcl : client < 2^32 := by
    have := L.resourceClientBits_le
    exact h.trans (Nat.pow_lt_pow_right (by norm_num) (by omega))
  rw [Nat.succ_mul] at hle
  refine ⟨?_,hle⟩
  rw [Server.clientAsMask,BitVec.toNat_shiftLeft,BitVec.toNat_ofNat,Nat.mod_eq_of_lt hcl,
    Nat.shiftLeft_eq,Nat.mod_eq_of_lt (by omega)]

lemma toNat_firstXID (h : client < L.limitClients) :
    (firstXID L client true).toNat =
      (if client = 0 then 32 else client*2^L.clientOffset + 2^30) ∧
    (firstXID L client true ||| L.resourceIdMask).toNat =
      client*2^L.clientOffset + (if client = 0 then 0 else 2^30) + 2^L.clientOffset - 1 := by
  obtain ⟨hm,hle⟩ := toNat_clientAsMask h
  obtain ⟨h18,h29,_⟩ := L.clientOffset_bounds
  have hpos : 2^18 ≤ 2^L.clientOffset := Nat.pow_le_pow_right (by norm_num) h18
  have hfirst : (firstXID L client true).toNat =
      (if client = 0 then 32 else client*2^L.clientOffset + 2^30) := by
    rcases Nat.eq_zero_or_pos client with rfl | hc
    · simp only [firstXID,BitVec.toNat_or,hm,ne_eq,not_true_eq_false,if_true,if_false,Nat.zero_mul]
      decide
    · have h30 : client*2^L.clientOffset ||| 2^30 = client*2^L.clientOffset + 2^30 := by
        have hor := Nat.two_pow_add_eq_or_of_lt (i := 30) (b := client*2^L.clientOffset) (by omega) 1
        rw [Nat.mul_one] at hor
        rw [Nat.or_comm,← hor,Nat.add_comm]
      simp only [firstXID,if_true,hc.ne',ne_eq,not_false_eq_true,BitVec.toNat_or,hm,if_false]
      exact h30
  refine ⟨hfirst,?_⟩
  rw [BitVec.toNat_or,hfirst,L.toNat_resourceIdMask]
  rcases Nat.eq_zero_or_pos client with rfl | hc
  · have h32 : 32 ||| (2^L.clientOffset-1) = 2^L.clientOffset-1 := by
      apply Nat.eq_of_testBit_eq
      intro i
      rw [Nat.testBit_or,Nat.testBit_two_pow_sub_one]
      rcases Nat.lt_or_ge i L.clientOffset with hi | hi
      · simp [hi]
      · have : Nat.testBit 32 i = false :=
          Nat.testBit_lt_two_pow (lt_of_lt_of_le (by norm_num : 32 < 2^18)
            (Nat.pow_le_pow_right (by norm_num) (by omega)))
        simp [this]
    simpa using h32
  · have hdvd : client*2^L.clientOffset + 2^30 = 2^L.clientOffset*(client + 2^(30-L.clientOffset)) := by
      have : 2^30 = 2^L.clientOffset*2^(30-L.clientOffset) := by
        rw [← pow_add]; congr 1; omega
      rw [this]; ring
    rw [if_neg hc.ne',if_neg hc.ne',hdvd,
      ← Nat.two_pow_add_eq_or_of_lt (by omega : 2^L.clientOffset-1 < 2^L.clientOffset)]
    omega

lemma freshID_of_range {V : Type*} (s : Server V) (h : client < L.limitClients) {x : XID}
    (h₁ : firstXID L client true ≤ x) (h₂ : x ≤ firstXID L client true ||| L.resourceIdMask)
    (hu : ∀ r ∈ (s.clientTable client).resources.flatten, r.id ≠ x) : FreshID L s client x := by
  obtain ⟨hf,ht⟩ := toNat_firstXID h
  obtain ⟨h18,h29,hsum⟩ := L.clientOffset_bounds
  have hle := (toNat_clientAsMask h).2
  rw [BitVec.le_def,hf] at h₁
  rw [BitVec.le_def,ht] at h₂
  have hp : 0 < 2^L.clientOffset := by positivity
  rcases Nat.eq_zero_or_pos client with rfl | hc
  · simp only [if_true] at h₁ h₂
    refine ⟨?_,?_,fun h => absurd rfl h,fun _ => h₁,hu⟩
    · rintro rfl
      simp at h₁
    · rw [L.dixClientIdForXID_toNat,Nat.div_eq_of_lt (by omega),Nat.zero_mod]
  · simp only [hc.ne',if_false] at h₁ h₂
    have h30 : 2^30 = 2^L.clientOffset*2^(30-L.clientOffset) := by
      rw [← pow_add]; congr 1; omega
    refine ⟨?_,?_,fun _ => ?_,fun h => absurd h hc.ne',hu⟩
    · rintro rfl
      simp at h₁
    · have hdiv : x.toNat/2^L.clientOffset = client + 2^(30-L.clientOffset) := by
        apply Nat.div_eq_of_lt_le
        · calc (client + 2^(30-L.clientOffset))*2^L.clientOffset
                = client*2^L.clientOffset + 2^30 := by rw [h30]; ring
            _ ≤ x.toNat := h₁
        · calc x.toNat < client*2^L.clientOffset + 2^30 + 2^L.clientOffset := by omega
            _ = (client + 2^(30-L.clientOffset) + 1)*2^L.clientOffset := by rw [h30]; ring
      have hpow : 2^(30-L.clientOffset) = 2^L.resourceClientBits*2 := by
        rw [← pow_succ]; congr 1; omega
      rw [L.dixClientIdForXID_toNat,hdiv,hpow,Nat.add_mul_mod_self_left,
        Nat.mod_eq_of_lt (by rw [← L.limitClients_eq.1]; exact h)]
    · intro h0
      have hbit : x.toNat.testBit 30 = true := by
        rw [Nat.testBit_eq_decide_div_mod_eq]
        simp only [decide_eq_true_eq]
        omega
      have h0' := congrArg (fun b : XID => b.getLsbD 30) h0
      rw [BitVec.testBit_toNat] at hbit
      rw [BitVec.getLsbD_and,hbit] at h0'
      exact absurd h0' (by decide)

lemma firstXID_pos (h : client < L.limitClients) : 0 < (firstXID L client true).toNat := by
  rw [(toNat_firstXID h).1]
  split_ifs <;> positivity

lemma lastXID_lt (h : client < L.limitClients) :
    (firstXID L client true ||| L.resourceIdMask).toNat < 2^32-1 := by
  have hle := (toNat_clientAsMask h).2
  rw [(toNat_firstXID h).2]
  split_ifs <;> omega

end Bounds

section Invariant
variable {V : Type*} {L : Limits} {client : ℕ} {s : Server V}

/-- The part of the current range still to be handed out lies in the client's space and holds no
XID in use. -/
structure FakeInv (L : Limits) (client : ℕ) (t : ClientResourceRec V) : Prop where
  lo : firstXID L client true ≤ t.fakeID
  le : t.fakeID ≤ t.endFakeID
  hi : t.endFakeID.toNat ≤ (firstXID L client true ||| L.resourceIdMask).toNat+1
  clear : ∀ r ∈ t.resources.flatten, ¬ (t.fakeID ≤ r.id ∧ r.id < t.endFakeID)

lemma fakeInv_init (s : Server V) (h : client < L.limitClients) :
    FakeInv L client ((s.initClientResources L client).clientTable client) := by
  have hmax := lastXID_lt h
  have hend : ((firstXID L client true ||| L.resourceIdMask)+1#32).toNat =
      (firstXID L client true ||| L.resourceIdMask).toNat+1 := by
    rw [BitVec.toNat_add]
    simp only [BitVec.toNat_ofNat]
    omega
  have hle : (firstXID L client true).toNat ≤ (firstXID L client true ||| L.resourceIdMask).toNat := by
    rw [BitVec.toNat_or]
    exact Nat.left_le_or
  have ht : (s.initClientResources L client).clientTable client =
      { resources := List.replicate initBuckets [], elements := 0, buckets := initBuckets,
        hashsize := initHashSize, fakeID := firstXID L client true,
        endFakeID := (firstXID L client true ||| L.resourceIdMask)+1#32 } := by
    simp [Server.initClientResources,firstXID]
  rw [ht]
  refine ⟨BitVec.le_refl _,?_,hend.le,by simp⟩
  simp only [BitVec.le_def,hend]
  omega

lemma nextFakeID_of_range (s : Server V) (client : ℕ) (id : XID)
    (he : id = (s.clientTable client).endFakeID)
    (h0 : (getXIDRange L (s.clientTable client) client true).1 ≠ 0#32) :
    Server.nextFakeID L s client id = .ret (getXIDRange L (s.clientTable client) client true).1 false
      (s.setClient client { s.clientTable client with
        fakeID := (getXIDRange L (s.clientTable client) client true).1+1#32
        endFakeID := (getXIDRange L (s.clientTable client) client true).2+1#32 }) := by
  simp [Server.nextFakeID,he,h0]

/-- A call in a good state returns a fresh XID and leaves a good state; only the two ends of the
range change. -/
theorem fakeClientID_spec (ht : TableInv L client (s.clientTable client))
    (hf : FakeInv L client (s.clientTable client)) (hc : client < L.limitClients)
    (hu : HasUnusedID L s client) :
    ∃ id fakeID endFakeID, s.fakeClientID L client = .ret id false (s.setClient client
        { s.clientTable client with fakeID := fakeID, endFakeID := endFakeID }) ∧
      FreshID L s client id ∧
      FakeInv L client { s.clientTable client with fakeID := fakeID, endFakeID := endFakeID } := by
  have hpos := firstXID_pos hc
  have hmax := lastXID_lt hc
  have hlo := hf.lo
  have hle := hf.le
  have hhi := hf.hi
  simp only [BitVec.le_def] at hlo hle
  have hne : ¬ (s.clientTable client).fakeID = 0#32 := by
    intro e
    rw [e] at hlo
    simp at hlo
    omega
  have hset : ∀ t₁ t₂ : ClientResourceRec V, (s.setClient client t₁).setClient client t₂ =
      s.setClient client t₂ := by
    intro t₁ t₂
    simp [Server.setClient]
  rcases eq_or_ne (s.clientTable client).fakeID (s.clientTable client).endFakeID with he | he
  · -- The range is used up: a free range is searched for.
    have hr := getXIDRange_spec (L := L) (t := { s.clientTable client with
      fakeID := (s.clientTable client).fakeID+1#32 }) ⟨ht.length,ht.buckets,ht.hashsize_le,ht.placed,
        ht.elements,ht.owner⟩ true hpos hmax hu
    have hcall : s.fakeClientID L client = Server.nextFakeID L (s.setClient client
        { s.clientTable client with fakeID := (s.clientTable client).fakeID+1#32 }) client
        (s.clientTable client).fakeID := by
      simp only [Server.fakeClientID,hne,if_false]
    have hnext := nextFakeID_of_range (L := L) (s.setClient client
      { s.clientTable client with fakeID := (s.clientTable client).fakeID+1#32 }) client
      (s.clientTable client).fakeID
    rw [hcall]
    simp only [Server.clientTable_setClient,if_true,hset] at hnext
    generalize getXIDRange L { s.clientTable client with
      fakeID := (s.clientTable client).fakeID+1#32 } client true = range at hr hnext
    obtain ⟨id,maxid⟩ := range
    obtain ⟨h₁,h₂,h₃,hclear⟩ := hr
    simp only [BitVec.le_def] at h₁ h₂ h₃
    have hid : ¬ id = 0#32 := by
      rintro rfl
      simp at h₁
      omega
    have hup : ∀ x : XID, x.toNat < 2^32-1 → (x+1#32).toNat = x.toNat+1 := by
      intro x hx
      rw [BitVec.toNat_add]
      simp only [BitVec.toNat_ofNat]
      omega
    refine ⟨id,id+1#32,maxid+1#32,hnext he hid,freshID_of_range s hc h₁ ?_ ?_,?_⟩
    · simp only [BitVec.le_def]; omega
    · rintro r hr rfl
      exact hclear r hr ⟨BitVec.le_refl _,h₂⟩
    · refine ⟨?_,?_,?_,fun r hr hcon => hclear r hr ?_⟩
      · simp only [BitVec.le_def,hup id (by omega)]; omega
      · simp only [BitVec.le_def,hup id (by omega),hup maxid (by omega)]; omega
      · simp only [hup maxid (by omega)]; omega
      · simp only [BitVec.le_def,BitVec.lt_def,hup id (by omega),hup maxid (by omega)] at hcon ⊢
        omega
  · have hlt : (s.clientTable client).fakeID.toNat < (s.clientTable client).endFakeID.toNat := by
      have : (s.clientTable client).fakeID.toNat ≠ (s.clientTable client).endFakeID.toNat :=
        fun e => he (BitVec.eq_of_toNat_eq e)
      omega
    have hup : ((s.clientTable client).fakeID+1#32).toNat = (s.clientTable client).fakeID.toNat+1 := by
      rw [BitVec.toNat_add]
      simp only [BitVec.toNat_ofNat]
      omega
    refine ⟨(s.clientTable client).fakeID,(s.clientTable client).fakeID+1#32,
      (s.clientTable client).endFakeID,?_,freshID_of_range s hc hf.lo ?_ ?_,?_⟩
    · simp only [Server.fakeClientID,hne,if_false,Server.nextFakeID,Server.clientTable_setClient,
        if_true,ne_eq,he,not_false_eq_true]
    · simp only [BitVec.le_def]; omega
    · rintro r hr e
      refine hf.clear r hr ?_
      rw [e]
      exact ⟨BitVec.le_refl _,hlt⟩
    · refine ⟨?_,?_,hhi,fun r hr hcon => hf.clear r hr ⟨?_,hcon.2⟩⟩
      · simp only [BitVec.le_def,hup]; omega
      · simp only [BitVec.le_def,hup]; omega
      · have h₁ := hcon.1
        simp only [BitVec.le_def,hup] at h₁ ⊢
        omega

lemma exists_id_iff (hinv : ServerInv L s) (x : XID)
    (hb : (s.clientTable (L.dixClientIdForXID x)).buckets ≠ 0) :
    (∃ r ∈ (s.clientTable (L.dixClientIdForXID x)).resources.flatten, r.id = x) ↔
      entriesIn x (s.chainOf L x) ≠ [] := by
  rw [Server.chainOf_of_inUse x ((Server.inUse_iff x).mpr hb),(hinv _ hb).entriesIn_chain,entriesIn,
    ne_eq,List.map_eq_nil_iff,List.filter_eq_nil_iff]
  push Not
  simp only [decide_eq_true_eq]

def Server.multimap (L : Limits) (s : Server V) : Ref V := fun i => entriesIn i (s.chainOf L i)

lemma refines_multimap (s : Server V) : Refines L s (s.multimap L) := fun _ => rfl

lemma range_of_step {s' : Server V} {op : Op V} (h : s.step L op = some s') (c : ℕ) :
    (s'.clientTable c).fakeID = (s.clientTable c).fakeID ∧
    (s'.clientTable c).endFakeID = (s.clientTable c).endFakeID ∧
    ((s'.clientTable c).buckets ≠ 0 → (s.clientTable c).buckets ≠ 0) := by
  have hchain : ∀ (id : XID) (ch : List (ResourceRec V)) (n : ℕ),
      ((s.setChain L id ch n).clientTable c).fakeID = (s.clientTable c).fakeID ∧
      ((s.setChain L id ch n).clientTable c).endFakeID = (s.clientTable c).endFakeID ∧
      (((s.setChain L id ch n).clientTable c).buckets ≠ 0 → (s.clientTable c).buckets ≠ 0) := by
    intro id ch n
    simp only [Server.setChain,Server.clientTable_setClient]
    split_ifs with hc
    · rw [hc]; exact ⟨rfl,rfl,fun h => h⟩
    · exact ⟨rfl,rfl,fun h => h⟩
  cases op with
  | addResource id type value =>
    simp only [Server.step,Server.addResource] at h
    split_ifs at h with hb
    cases h
    simp only [Server.clientTable_setClient]
    split_ifs with hc
    · subst c
      refine ⟨?_,?_,fun _ => hb⟩
      · simp only [Server.growTable]; split_ifs <;> rfl
      · simp only [Server.growTable]; split_ifs <;> rfl
    · exact ⟨rfl,rfl,fun h => h⟩
  | freeResource id skip =>
    simp only [Server.step,Server.freeResource,Option.some.injEq] at h
    subst s'
    split_ifs
    · exact hchain _ _ _
    · exact ⟨rfl,rfl,fun h => h⟩
  | freeResourceByType id type skipFree =>
    simp only [Server.step,Server.freeResourceByType,Option.some.injEq] at h
    subst s'
    split_ifs
    · exact hchain _ _ _
    · exact ⟨rfl,rfl,fun h => h⟩
  | changeResourceValue id rtype value =>
    simp only [Server.step,Server.changeResourceValue,Option.some.injEq] at h
    subst s'
    split_ifs
    · exact hchain _ _ _
    · exact ⟨rfl,rfl,fun h => h⟩

/-- The invariant of whole runs. -/
def FakeRunInv (L : Limits) (s : Server V) : Prop :=
  ServerInv L s ∧ ∀ client < L.limitClients, (s.clientTable client).buckets ≠ 0 →
    FakeInv L client (s.clientTable client)

lemma FakeRunInv.step {s' : Server V} {op : Op V} (h : FakeRunInv L s) (hs : s.step L op = some s')
    (hnew : ∀ x, entriesIn x (s.chainOf L x) = [] → entriesIn x (s'.chainOf L x) ≠ [] →
      ¬ ((s.clientTable (L.dixClientIdForXID x)).fakeID ≤ x ∧
        x < (s.clientTable (L.dixClientIdForXID x)).endFakeID)) : FakeRunInv L s' := by
  obtain ⟨hinv,hfake⟩ := h
  have hinv' : ServerInv L s' :=
    (refines_step hinv (refines_multimap s) op hs).1
  refine ⟨hinv',fun client hc hb => ?_⟩
  obtain ⟨h₁,h₂,h₃⟩ := range_of_step hs client
  have hf := hfake client hc (h₃ hb)
  refine ⟨h₁ ▸ hf.lo,by rw [h₁,h₂]; exact hf.le,h₂ ▸ hf.hi,fun r hr => ?_⟩
  have hown := (hinv' client hb).owner r hr
  subst client
  have hused := (exists_id_iff hinv' r.id hb).mp ⟨r,hr,rfl⟩
  rw [h₁,h₂]
  by_cases hold : entriesIn r.id (s.chainOf L r.id) = []
  · exact hnew r.id hold hused
  · obtain ⟨r',hr',he⟩ := (exists_id_iff hinv r.id (h₃ hb)).mpr hold
    exact he ▸ hf.clear r' hr'

end Invariant

section Runs
variable {V : Type*} {L : Limits}

lemma fakeRunInv {allow : FakeState V → XID → Prop}
    (hallow : ∀ s id, allow s id → ¬ Pending s (L.dixClientIdForXID id) id) {s : FakeState V}
    (h : FakeRun L allow s) : FakeRunInv L s.server := by
  induction h with
  | start =>
    exact ⟨fun client hb => absurd rfl hb,fun client _ hb => absurd rfl hb⟩
  | @initClientResources s client _ hc ih =>
    refine ⟨fun c hb => ?_,fun c hc' hb => ?_⟩
    · rcases eq_or_ne c client with rfl | hne
      · exact tableInv_init s.server c
      · have := ih.1 c
        simp only [Server.initClientResources,Server.clientTable_setClient,hne,if_false] at hb ⊢
        exact this hb
    · rcases eq_or_ne c client with rfl | hne
      · exact fakeInv_init s.server hc
      · have := ih.2 c hc'
        simp only [Server.initClientResources,Server.clientTable_setClient,hne,if_false] at hb ⊢
        exact this hb
  | @addResource s server' id type value _ hal hadd ih =>
    have hstep : s.server.step L (.addResource id type value) = some server' := hadd
    refine ih.step hstep fun x hold hnew => ?_
    have href := (refines_step ih.1 (refines_multimap s.server) _ hstep).2 x
    rcases eq_or_ne x id with rfl | hne
    · exact hallow s x hal
    · rw [href] at hnew
      simp only [Ref.step,Function.update_of_ne hne] at hnew
      exact absurd hold hnew
  | @freeResource s id skip _ ih =>
    have hstep : s.server.step L (.freeResource id skip) = some (s.server.freeResource L id skip).1 :=
      rfl
    refine ih.step hstep fun x hold hnew => ?_
    have href := (refines_step ih.1 (refines_multimap s.server) _ hstep).2 x
    rw [href] at hnew
    rcases eq_or_ne x id with rfl | hne
    · simp [Ref.step] at hnew
    · simp only [Ref.step,Function.update_of_ne hne] at hnew
      exact absurd hold hnew
  | @fakeClientID s server' client id exc _ hc hb hu hcall ih =>
    obtain ⟨id',f,e,hret,_,hinv⟩ := fakeClientID_spec (ih.1 client hb) (ih.2 client hc hb) hc hu
    rw [hret] at hcall
    cases hcall
    refine ⟨fun c hb' => ?_,fun c hc' hb' => ?_⟩
    · rcases eq_or_ne c client with rfl | hne
      · have ht := ih.1 c hb
        simp only [Server.clientTable_setClient,if_true]
        exact ⟨ht.length,ht.buckets,ht.hashsize_le,ht.placed,ht.elements,ht.owner⟩
      · have := ih.1 c
        simp only [Server.clientTable_setClient,hne,if_false] at hb' ⊢
        exact this hb'
    · rcases eq_or_ne c client with rfl | hne
      · simpa using hinv
      · have := ih.2 c hc'
        simp only [Server.clientTable_setClient,hne,if_false] at hb' ⊢
        exact this hb'

/-- Along every run in which no resource is added under an XID still to be handed out,
`FakeClientID` returns a fresh XID as long as one is unused. -/
theorem fakeClientID_fresh {s : FakeState V} {client : ℕ}
    (hrun : FakeRun L (fun s id => LegalOrIssued L s id ∧ ¬ Pending s (L.dixClientIdForXID id) id) s)
    (hc : client < L.limitClients) (hb : (s.server.clientTable client).buckets ≠ 0)
    (hu : HasUnusedID L s.server client) :
    ∃ id s', s.server.fakeClientID L client = .ret id false s' ∧ FreshID L s.server client id := by
  obtain ⟨hinv,hfake⟩ := fakeRunInv (fun _ _ h => h.2) hrun
  obtain ⟨id,_,_,hret,hfresh,_⟩ := fakeClientID_spec (hinv client hb) (hfake client hc hb) hc hu
  exact ⟨id,_,hret,hfresh⟩

/-- Client 1 right after its initialisation. -/
theorem fakeClientID_fresh_initially :
    ∃ id s', ((Server.empty ℕ).initClientResources defaultLimits 1).fakeClientID defaultLimits 1 =
      .ret id false s' ∧
      FreshID defaultLimits ((Server.empty ℕ).initClientResources defaultLimits 1) 1 id :=
  fakeClientID_fresh (.initClientResources 1 .start (by decide)) (by decide) (by decide)
    ⟨firstXID defaultLimits 1 true,by decide,by decide +kernel,by decide +kernel⟩

def minIdServer : Server ℕ :=
  (((Server.empty ℕ).initClientResources defaultLimits 0).addResource defaultLimits
    32#32 5#32 70).get (by decide +kernel)

/-- A legal addition under the first XID of the server client is handed out once more. -/
theorem fakeClientID_returns_used_id :
    ¬ ∀ (s : FakeState ℕ) (client : ℕ), FakeRun defaultLimits (LegalOrIssued defaultLimits) s →
      client < defaultLimits.limitClients → (s.server.clientTable client).buckets ≠ 0 →
      HasUnusedID defaultLimits s.server client →
      ∃ id s', s.server.fakeClientID defaultLimits client = .ret id false s' ∧
        FreshID defaultLimits s.server client id := by
  intro hall
  obtain ⟨id,s',hret,hfresh⟩ := hall ⟨minIdServer,fun _ => []⟩ 0
    (.addResource 32#32 5#32 70 (.initClientResources 0 .start (by decide))
      ⟨0,by decide,.inl (by decide +kernel)⟩ (Option.some_get _).symm)
    (by decide) (by decide +kernel) ⟨33#32,by decide +kernel,by decide +kernel,by decide +kernel⟩
  have hid : (minIdServer.fakeClientID defaultLimits 0).id? = some 32#32 := by decide +kernel
  rw [hret] at hid
  cases hid
  exact absurd hfresh.unused (by decide +kernel)

end Runs
end Xlibre.Dix.Resource
