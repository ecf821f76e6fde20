import Xlibre.Dix.Resource.Xid

/-! The resource tables refine a multimap: for each XID a list of typed values, newest first.
One representation invariant carries all operations, table growth included. -/
namespace Xlibre.Dix.Resource
open Xlibre.Lib.Buckets

variable {V : Type*} (L : Limits)

structure TableInv (client : ℕ) (t : ClientResourceRec V) : Prop where
  length : t.resources.length = 2^t.hashsize
  buckets : t.buckets = 2^t.hashsize
  hashsize_le : t.hashsize ≤ maxHashSize
  placed : Placed (fun r => L.hashResourceID r.id t.hashsize) t.resources
  elements : t.elements = t.resources.flatten.length
  owner : ∀ r ∈ t.resources.flatten, L.dixClientIdForXID r.id = client

/-- Every table in use satisfies its invariant. -/
def ServerInv (s : Server V) : Prop :=
  ∀ client, (s.clientTable client).buckets ≠ 0 → TableInv L client (s.clientTable client)

/-- What a record contributes to the multimap. -/
def ResourceRec.entry (r : ResourceRec V) : RESTYPE × V := (r.type,r.value)

def entriesIn (id : XID) (c : List (ResourceRec V)) : List (RESTYPE × V) :=
  (c.filter (fun r => r.id = id)).map ResourceRec.entry

@[simp] theorem entriesIn_nil (id : XID) : entriesIn id ([] : List (ResourceRec V)) = [] := rfl

theorem entriesIn_cons (id : XID) (r : ResourceRec V) (c : List (ResourceRec V)) :
    entriesIn id (r::c) = if r.id = id then r.entry::entriesIn id c else entriesIn id c := by
  by_cases h : r.id = id <;> simp [entriesIn,h]

/-- The reference model: for each XID its typed values, newest first. -/
abbrev Ref (V : Type*) := XID → List (RESTYPE × V)

inductive Op (V : Type*)
  | addResource (id : XID) (type : RESTYPE) (value : V)
  | freeResource (id : XID) (skipDeleteFuncType : RESTYPE)
  | freeResourceByType (id : XID) (type : RESTYPE) (skipFree : Bool)
  | changeResourceValue (id : XID) (rtype : RESTYPE) (value : V)

/-- Give the newest value of one type a new value. -/
def changeFirst (rtype : RESTYPE) (value : V) : List (RESTYPE × V) → List (RESTYPE × V)
  | [] => []
  | e::es => if e.1 = rtype then (e.1,value)::es else e::changeFirst rtype value es

def Ref.step (ref : Ref V) : Op V → Ref V
  | .addResource id type value => Function.update ref id ((type,value)::ref id)
  | .freeResource id _ => Function.update ref id []
  | .freeResourceByType id type _ => Function.update ref id ((ref id).eraseP (fun e => e.1 = type))
  | .changeResourceValue id rtype value =>
    Function.update ref id (changeFirst rtype value (ref id))

def Ref.run (ops : List (Op V)) : Ref V := ops.foldl Ref.step (fun _ => [])

def Server.step (s : Server V) : Op V → Option (Server V)
  | .addResource id type value => s.addResource L id type value
  | .freeResource id skip => some (s.freeResource L id skip).1
  | .freeResourceByType id type skipFree => some (s.freeResourceByType L id type skipFree).1
  | .changeResourceValue id rtype value => some (s.changeResourceValue L id rtype value).1

def Server.run (s : Server V) (ops : List (Op V)) : Option (Server V) :=
  ops.foldlM (fun s op => s.step L op) s

/-- The server holds exactly the entries of the reference model. -/
def Refines (s : Server V) (ref : Ref V) : Prop := ∀ id, entriesIn id (s.chainOf L id) = ref id

section Table
variable {L} {client : ℕ} {t : ClientResourceRec V}

lemma TableInv.hash_lt (h : TableInv L client t) (id : XID) :
    L.hashResourceID id t.hashsize < t.resources.length := by
  rw [h.length]
  apply L.hashResourceID_lt
  have := h.hashsize_le
  simp only [maxHashSize] at this
  omega

lemma TableInv.entriesIn_chain (h : TableInv L client t) (id : XID) :
    entriesIn id (chain t.resources (L.hashResourceID id t.hashsize)) =
      entriesIn id t.resources.flatten := by
  rw [entriesIn,entriesIn,h.placed.filter_flatten]
  intro r hr
  simp [show r.id = id by simpa using hr]

lemma TableInv.rebuild_hash_lt (h : TableInv L client t) (id : XID) :
    L.hashResourceID id (t.hashsize+1) < 2*t.buckets := by
  have hs := h.hashsize_le
  simp only [maxHashSize] at hs
  have hl := L.hashResourceID_lt id (t.hashsize+1) (by omega)
  rw [h.buckets]
  rw [pow_succ] at hl
  omega

lemma TableInv.rebuildTable (h : TableInv L client t) (hs : t.hashsize < maxHashSize) :
    TableInv L client (Server.rebuildTable L t) where
  length := by simp [Server.rebuildTable,h.buckets,pow_succ,Nat.mul_comm]
  buckets := by simp [Server.rebuildTable,h.buckets,pow_succ,Nat.mul_comm]
  hashsize_le := hs
  placed := rehash_placed _ _ _ (fun r _ => h.rebuild_hash_lt r.id)
  elements := by
    simp only [Server.rebuildTable]
    rw [rehash_size _ _ _ (fun r _ => h.rebuild_hash_lt r.id),h.elements]
  owner r hr := by
    obtain ⟨i,hi⟩ := (mem_chain_iff _ r).mp hr
    simp only [Server.rebuildTable] at hi
    rw [rehash_chain _ _ _ (fun r _ => h.rebuild_hash_lt r.id)] at hi
    exact h.owner r (List.mem_of_mem_filter hi)

lemma TableInv.entriesIn_rebuildTable (h : TableInv L client t) (id : XID) :
    entriesIn id (chain (Server.rebuildTable L t).resources
      (L.hashResourceID id (Server.rebuildTable L t).hashsize)) =
      entriesIn id (chain t.resources (L.hashResourceID id t.hashsize)) := by
  rw [h.entriesIn_chain]
  simp only [Server.rebuildTable]
  rw [rehash_chain _ _ _ (fun r _ => h.rebuild_hash_lt r.id),entriesIn,entriesIn,List.filter_filter]
  congr 2
  funext r
  by_cases hr : r.id = id <;> simp [hr]

lemma TableInv.growTable (h : TableInv L client t) : TableInv L client (Server.growTable L t) := by
  unfold Server.growTable
  split_ifs with hg
  · exact h.rebuildTable hg.2
  · exact h

lemma TableInv.entriesIn_growTable (h : TableInv L client t) (id : XID) :
    entriesIn id (chain (Server.growTable L t).resources
      (L.hashResourceID id (Server.growTable L t).hashsize)) =
      entriesIn id (chain t.resources (L.hashResourceID id t.hashsize)) := by
  unfold Server.growTable
  split_ifs
  · exact h.entriesIn_rebuildTable id
  · rfl

lemma TableInv.buckets_ne_zero (h : TableInv L client t) : t.buckets ≠ 0 := by
  rw [h.buckets]
  positivity

lemma TableInv.setChain (h : TableInv L client t) (id : XID) (c : List (ResourceRec V)) (n : ℕ)
    (hc : ∀ r ∈ c, L.hashResourceID r.id t.hashsize = L.hashResourceID id t.hashsize ∧
      L.dixClientIdForXID r.id = client)
    (hn : n + (chain t.resources (L.hashResourceID id t.hashsize)).length = t.elements + c.length) :
    TableInv L client { t with
      resources := t.resources.modify (L.hashResourceID id t.hashsize) (fun _ => c)
      elements := n } where
  length := by simp [h.length]
  buckets := h.buckets
  hashsize_le := h.hashsize_le
  placed := h.placed.modify _ _ (fun r hr => (hc r hr).1)
  elements := by
    have hl := length_flatten_modify t.resources _ (fun _ => c) (h.hash_lt id)
    have he := h.elements
    dsimp only at hl ⊢
    omega
  owner r hr := by
    obtain ⟨i,hi⟩ := (mem_chain_iff _ r).mp hr
    rw [chain_modify] at hi
    split_ifs at hi
    · exact (hc r hi).2
    · exact h.owner r ((mem_chain_iff _ r).mpr ⟨i,hi⟩)

end Table
section Walks

theorem freeWalk_chain (id : XID) (skip : RESTYPE) (c : List (ResourceRec V)) (n : ℕ) :
    (freeWalk id skip c n).1 = c.filter (fun r => r.id ≠ id) := by
  induction c generalizing n with
  | nil => rfl
  | cons r c ih => by_cases h : r.id = id <;> simp [freeWalk,h,ih]

theorem freeWalk_elements (id : XID) (skip : RESTYPE) (c : List (ResourceRec V)) (n : ℕ)
    (hn : c.length ≤ n) :
    (freeWalk id skip c n).2.1 + c.length = n + (freeWalk id skip c n).1.length := by
  induction c generalizing n with
  | nil => simp [freeWalk]
  | cons r c ih =>
    simp only [List.length_cons] at hn
    by_cases h : r.id = id
    · have hi := ih (n-1) (by omega)
      simp only [freeWalk,h,if_true,List.length_cons]
      omega
    · have hi := ih n (by omega)
      simp only [freeWalk,h,if_false,List.length_cons]
      omega

theorem freeByTypeWalk_chain (id : XID) (type : RESTYPE) (skip : Bool) (c : List (ResourceRec V))
    (n : ℕ) : (freeByTypeWalk id type skip c n).1 =
      c.eraseP (fun r => r.id = id ∧ r.type = type) := by
  induction c with
  | nil => rfl
  | cons r c ih =>
    by_cases h : r.id = id ∧ r.type = type
    · simp [freeByTypeWalk,h]
    · rw [List.eraseP_cons_of_neg (by simpa using h)]
      simp [freeByTypeWalk,h,ih]

theorem freeByTypeWalk_elements (id : XID) (type : RESTYPE) (skip : Bool)
    (c : List (ResourceRec V)) (n : ℕ) (hn : c.length ≤ n) :
    (freeByTypeWalk id type skip c n).2.1 + c.length =
      n + (freeByTypeWalk id type skip c n).1.length := by
  induction c with
  | nil => simp [freeByTypeWalk]
  | cons r c ih =>
    simp only [List.length_cons] at hn
    by_cases h : r.id = id ∧ r.type = type
    · simp only [freeByTypeWalk,h,and_self,if_true,List.length_cons]
      omega
    · have hi := ih (by omega)
      simp only [freeByTypeWalk,h,if_false,List.length_cons]
      omega

theorem changeWalk_length (id : XID) (rtype : RESTYPE) (value : V) (c : List (ResourceRec V)) :
    (changeWalk id rtype value c).1.length = c.length := by
  induction c with
  | nil => rfl
  | cons r c ih =>
    by_cases h : r.id = id ∧ r.type = rtype
    · simp [changeWalk,h]
    · simp [changeWalk,h,ih]

theorem changeWalk_ids (id : XID) (rtype : RESTYPE) (value : V) (c : List (ResourceRec V)) :
    (changeWalk id rtype value c).1.map (·.id) = c.map (·.id) := by
  induction c with
  | nil => rfl
  | cons r c ih =>
    by_cases h : r.id = id ∧ r.type = rtype
    · simp [changeWalk,h]
    · simp [changeWalk,h,ih]

/-- Entries of other XIDs pass every walk; the walked XID's entries follow the reference. -/
theorem entriesIn_freeWalk (id i : XID) (skip : RESTYPE) (c : List (ResourceRec V)) (n : ℕ) :
    entriesIn i (freeWalk id skip c n).1 = if i = id then [] else entriesIn i c := by
  rw [freeWalk_chain]
  induction c with
  | nil => simp
  | cons r c ih =>
    by_cases h : r.id = id
    · rw [List.filter_cons_of_neg (by simpa using h),ih,entriesIn_cons]
      by_cases hi : i = id
      · simp [hi]
      · simp [hi,h,Ne.symm hi]
    · rw [List.filter_cons_of_pos (by simpa using h),entriesIn_cons,entriesIn_cons,ih]
      by_cases hi : i = id
      · simp [hi,h]
      · simp [hi]

theorem entriesIn_freeByTypeWalk (id i : XID) (type : RESTYPE) (skip : Bool)
    (c : List (ResourceRec V)) (n : ℕ) :
    entriesIn i (freeByTypeWalk id type skip c n).1 =
      if i = id then (entriesIn i c).eraseP (fun e => e.1 = type) else entriesIn i c := by
  rw [freeByTypeWalk_chain]
  induction c with
  | nil => simp
  | cons r c ih =>
    by_cases h : r.id = id ∧ r.type = type
    · rw [List.eraseP_cons_of_pos (by simpa using h),entriesIn_cons]
      by_cases hi : i = id
      · simp [hi,h.1,h.2,ResourceRec.entry]
      · simp [hi,h.1,Ne.symm hi]
    · rw [List.eraseP_cons_of_neg (by simpa using h),entriesIn_cons,entriesIn_cons,ih]
      by_cases hi : i = id
      · subst i
        by_cases hr : r.id = id
        · have ht : ¬ r.type = type := fun ht => h ⟨hr,ht⟩
          simp [hr,ht,ResourceRec.entry]
        · simp [hr]
      · simp [hi]

theorem entriesIn_changeWalk (id i : XID) (rtype : RESTYPE) (value : V) (c : List (ResourceRec V)) :
    entriesIn i (changeWalk id rtype value c).1 =
      if i = id then changeFirst rtype value (entriesIn i c) else entriesIn i c := by
  induction c with
  | nil => simp [changeWalk,changeFirst]
  | cons r c ih =>
    by_cases h : r.id = id ∧ r.type = rtype
    · by_cases hi : i = id
      · simp [changeWalk,h,entriesIn_cons,hi,ResourceRec.entry,changeFirst]
      · simp [changeWalk,h,entriesIn_cons,hi,Ne.symm hi]
    · by_cases hi : i = id
      · subst i
        simp only [changeWalk,h,if_false,entriesIn_cons,ih,if_true]
        by_cases hr : r.id = id
        · have ht : ¬ r.type = rtype := fun ht => h ⟨hr,ht⟩
          simp [hr,ht,ResourceRec.entry,changeFirst]
        · simp [hr]
      · simp [changeWalk,h,entriesIn_cons,ih,hi]

end Walks

section Refinement
variable {L} {s : Server V} {ref : Ref V}

@[simp] lemma Server.clientTable_setClient (c : ℕ) (t : ClientResourceRec V) (d : ℕ) :
    (s.setClient c t).clientTable d = if d = c then t else s.clientTable d := by
  simp [Server.setClient,Function.update_apply]

lemma Server.inUse_iff (id : XID) :
    s.inUse L id = true ↔ (s.clientTable (L.dixClientIdForXID id)).buckets ≠ 0 := by
  simp [Server.inUse,L.dixClientIdForXID_lt id]

lemma Server.chainOf_of_inUse (id : XID) (h : s.inUse L id = true) :
    s.chainOf L id = chain (s.clientTable (L.dixClientIdForXID id)).resources
      (L.hashResourceID id (s.clientTable (L.dixClientIdForXID id)).hashsize) := by
  simp [Server.chainOf,h]

lemma Server.chainOf_setChain (hinv : ServerInv L s) (id : XID) (h : s.inUse L id = true)
    (c : List (ResourceRec V)) (n : ℕ) (i : XID) :
    (s.setChain L id c n).chainOf L i =
      if L.dixClientIdForXID i = L.dixClientIdForXID id ∧
        L.hashResourceID i (s.clientTable (L.dixClientIdForXID id)).hashsize =
          L.hashResourceID id (s.clientTable (L.dixClientIdForXID id)).hashsize
      then c else s.chainOf L i := by
  have hb := (inUse_iff id).mp h
  have hlt := (hinv _ hb).hash_lt id
  by_cases hc : L.dixClientIdForXID i = L.dixClientIdForXID id
  · have hu : (s.setChain L id c n).inUse L i = true := by
      rw [inUse_iff]; simp [Server.setChain,hc,hb]
    have hu' : s.inUse L i = true := by rw [inUse_iff,hc]; exact hb
    rw [chainOf_of_inUse i hu,chainOf_of_inUse i hu']
    simp only [Server.setChain,clientTable_setClient,hc,if_true,chain_modify,hlt,and_true,
      true_and]
    by_cases hh : L.hashResourceID i (s.clientTable (L.dixClientIdForXID id)).hashsize =
        L.hashResourceID id (s.clientTable (L.dixClientIdForXID id)).hashsize
    · simp [hh]
    · simp [hh,Ne.symm hh]
  · simp [Server.chainOf,Server.inUse,Server.setChain,hc]

lemma refines_setChain (hinv : ServerInv L s) (href : Refines L s ref) (id : XID)
    (h : s.inUse L id = true) (c : List (ResourceRec V)) (n : ℕ)
    (hids : ∀ r ∈ c, ∃ r' ∈ s.chainOf L id, r.id = r'.id)
    (hn : n + (s.chainOf L id).length = s.elementsOf L id + c.length)
    (hother : ∀ i, i ≠ id → entriesIn i c = entriesIn i (s.chainOf L id)) :
    ServerInv L (s.setChain L id c n) ∧
      Refines L (s.setChain L id c n) (Function.update ref id (entriesIn id c)) := by
  have hb := (Server.inUse_iff id).mp h
  have ht := hinv _ hb
  rw [Server.chainOf_of_inUse id h] at hids hn hother
  constructor
  · intro client hc
    by_cases he : client = L.dixClientIdForXID id
    · subst client
      simp only [Server.setChain,Server.clientTable_setClient,if_true]
      apply ht.setChain id c n _ hn
      intro r hr
      obtain ⟨r',hr',hid⟩ := hids r hr
      rw [hid]
      exact ⟨ht.placed _ r' hr',ht.owner r' ((mem_chain_iff _ r').mpr ⟨_,hr'⟩)⟩
    · simp only [Server.setChain,Server.clientTable_setClient,he,if_false] at hc ⊢
      exact hinv client hc
  · intro i
    rw [Server.chainOf_setChain hinv id h]
    by_cases hi : i = id
    · subst i; simp
    · rw [Function.update_of_ne hi,← href i]
      split_ifs with hc
      · rw [hother i hi,Server.chainOf_of_inUse i (by rw [Server.inUse_iff,hc.1]; exact hb),hc.1,
          hc.2]
      · rfl

lemma Refines.of_not_inUse (href : Refines L s ref) {id : XID} (h : ¬ s.inUse L id = true) :
    ref id = [] := by
  rw [← href id]
  simp [Server.chainOf,h]

lemma chainOf_length_le (hinv : ServerInv L s) (id : XID) (h : s.inUse L id = true) :
    (s.chainOf L id).length ≤ s.elementsOf L id := by
  have ht := hinv _ ((Server.inUse_iff id).mp h)
  have hl := length_flatten_modify (s.clientTable (L.dixClientIdForXID id)).resources _
    (fun _ => []) (ht.hash_lt id)
  have he := ht.elements
  rw [Server.chainOf_of_inUse id h,Server.elementsOf]
  simp only [List.length_nil] at hl
  omega

end Refinement
end Xlibre.Dix.Resource
