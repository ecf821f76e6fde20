import Xlibre.Dix.Resource.Multimap

/-! Whole runs of the resource operations against the reference multimap. -/
namespace Xlibre.Dix.Resource
open Xlibre.Lib.Buckets

variable {V : Type*} {L : Limits} {s s' : Server V} {ref : Ref V}

lemma refines_addResource (hinv : ServerInv L s) (href : Refines L s ref) (id : XID)
    (type : RESTYPE) (value : V) (h : s.addResource L id type value = some s') :
    ServerInv L s' ∧ Refines L s' (ref.step (.addResource id type value)) := by
  simp only [Server.addResource] at h
  split_ifs at h with hb
  have ht := hinv _ hb
  have hg := ht.growTable
  cases h
  have hgt : ∀ i, entriesIn i (chain (Server.growTable L (s.clientTable (L.dixClientIdForXID id))).resources
      (L.hashResourceID i (Server.growTable L (s.clientTable (L.dixClientIdForXID id))).hashsize)) =
      entriesIn i (chain (s.clientTable (L.dixClientIdForXID id)).resources
        (L.hashResourceID i (s.clientTable (L.dixClientIdForXID id)).hashsize)) :=
    fun i => ht.entriesIn_growTable i
  generalize Server.growTable L (s.clientTable (L.dixClientIdForXID id)) = t at hg hgt ⊢
  have hres := hg.setChain id
    (⟨s.nextAddr,id,type,value⟩ :: chain t.resources (L.hashResourceID id t.hashsize)) (t.elements+1)
    (by
      intro r hr
      rcases List.mem_cons.mp hr with rfl | hr
      · exact ⟨rfl,rfl⟩
      · exact ⟨hg.placed _ r hr,hg.owner r ((mem_chain_iff _ r).mpr ⟨_,hr⟩)⟩)
    (by simp only [List.length_cons]; omega)
  have hmod : t.resources.modify (L.hashResourceID id t.hashsize) (⟨s.nextAddr,id,type,value⟩ :: ·) =
      t.resources.modify (L.hashResourceID id t.hashsize)
        (fun _ => ⟨s.nextAddr,id,type,value⟩ :: chain t.resources (L.hashResourceID id t.hashsize)) := by
    have hlt := hg.hash_lt id
    rw [List.modify_eq_take_cons_drop hlt,List.modify_eq_take_cons_drop hlt]
    simp [chain,List.getD_eq_getElem?_getD,hlt]
  rw [hmod]
  constructor
  · intro client hc
    by_cases he : client = L.dixClientIdForXID id
    · subst client
      simpa using hres
    · simp only [Server.clientTable_setClient,he,if_false] at hc ⊢
      exact hinv client hc
  · intro i
    simp only [Ref.step]
    by_cases hi : L.dixClientIdForXID i = L.dixClientIdForXID id
    · have hold : entriesIn i (chain t.resources (L.hashResourceID i t.hashsize)) = ref i := by
        rw [hgt i,← href i,Server.chainOf_of_inUse i (by rw [Server.inUse_iff,hi]; exact hb),hi]
      rw [Server.chainOf_of_inUse i (by
        rw [Server.inUse_iff]; simpa [hi] using hg.buckets_ne_zero)]
      simp only [Server.clientTable_setClient,hi,if_true,chain_modify,hg.hash_lt id,and_true]
      by_cases hid : i = id
      · subst i
        simp [entriesIn_cons,hold,ResourceRec.entry]
      · rw [Function.update_of_ne hid,← hold]
        split_ifs with hh
        · rw [entriesIn_cons,if_neg (Ne.symm hid),hh]
        · rfl
    · have hid : i ≠ id := fun e => hi (by rw [e])
      rw [Function.update_of_ne hid,← href i]
      simp [Server.chainOf,Server.inUse,hi]

/-- Each call keeps the invariant and follows the reference model. -/
theorem refines_step (hinv : ServerInv L s) (href : Refines L s ref) (op : Op V)
    (h : s.step L op = some s') : ServerInv L s' ∧ Refines L s' (ref.step op) := by
  have hnot : ∀ {id : XID}, ¬ s.inUse L id = true → ∀ es, es = [] →
      ServerInv L s ∧ Refines L s (Function.update ref id es) := by
    intro id hu es hes
    refine ⟨hinv,?_⟩
    rw [hes,← href.of_not_inUse hu,Function.update_eq_self]
    exact href
  cases op with
  | addResource id type value => exact refines_addResource hinv href id type value h
  | freeResource id skip =>
    simp only [Server.step,Server.freeResource,Option.some.injEq] at h
    by_cases hu : s.inUse L id = true
    · simp only [hu,if_true] at h
      subst s'
      have hr := refines_setChain hinv href id hu (freeWalk id skip (s.chainOf L id) (s.elementsOf L id)).1
        (freeWalk id skip (s.chainOf L id) (s.elementsOf L id)).2.1
        (by
          intro r hr
          rw [freeWalk_chain] at hr
          exact ⟨r,List.mem_of_mem_filter hr,rfl⟩)
        (freeWalk_elements id skip _ _ (chainOf_length_le hinv id hu))
        (by intro i hi; simp [entriesIn_freeWalk,hi])
      simpa [entriesIn_freeWalk,Ref.step] using hr
    · simp only [hu] at h
      subst s'
      exact hnot hu [] rfl
  | freeResourceByType id type skipFree =>
    simp only [Server.step,Server.freeResourceByType,Option.some.injEq] at h
    by_cases hu : s.inUse L id = true
    · simp only [hu,if_true] at h
      subst s'
      have hr := refines_setChain hinv href id hu
        (freeByTypeWalk id type skipFree (s.chainOf L id) (s.elementsOf L id)).1
        (freeByTypeWalk id type skipFree (s.chainOf L id) (s.elementsOf L id)).2.1
        (by
          intro r hr
          rw [freeByTypeWalk_chain] at hr
          exact ⟨r,List.mem_of_mem_eraseP hr,rfl⟩)
        (freeByTypeWalk_elements id type skipFree _ _ (chainOf_length_le hinv id hu))
        (by intro i hi; simp [entriesIn_freeByTypeWalk,hi])
      simpa [entriesIn_freeByTypeWalk,Ref.step,href id] using hr
    · simp only [hu] at h
      subst s'
      exact hnot hu _ (by simp [href.of_not_inUse hu])
  | changeResourceValue id rtype value =>
    simp only [Server.step,Server.changeResourceValue,Option.some.injEq] at h
    by_cases hu : s.inUse L id = true
    · simp only [hu,if_true] at h
      subst s'
      have hr := refines_setChain hinv href id hu (changeWalk id rtype value (s.chainOf L id)).1
        (s.elementsOf L id)
        (by
          intro r hr
          have hm := List.mem_map_of_mem (f := fun r : ResourceRec V => r.id) hr
          rw [changeWalk_ids] at hm
          obtain ⟨r',hr',he⟩ := List.mem_map.mp hm
          exact ⟨r',hr',he.symm⟩)
        (by rw [changeWalk_length])
        (by intro i hi; simp [entriesIn_changeWalk,hi])
      simpa [entriesIn_changeWalk,Ref.step,href id] using hr
    · simp only [hu] at h
      subst s'
      exact hnot hu _ (by simp [href.of_not_inUse hu,changeFirst])

/-- The invariant and the refinement hold along every run. -/
theorem refines_run (hinv : ServerInv L s) (href : Refines L s ref) (ops : List (Op V))
    (h : s.run L ops = some s') : ServerInv L s' ∧ Refines L s' (ops.foldl Ref.step ref) := by
  induction ops generalizing s ref with
  | nil =>
    cases h
    exact ⟨hinv,href⟩
  | cons op ops ih =>
    obtain ⟨s₁,h₁,h₂⟩ := Option.bind_eq_some_iff.mp h
    obtain ⟨hi,hr⟩ := refines_step hinv href op h₁
    exact ih hi hr h₂

def Server.started (L : Limits) (V : Type*) (clients : List ℕ) : Server V :=
  clients.foldl (fun s c => s.initClientResources L c) (Server.empty V)

lemma tableInv_init (s : Server V) (client : ℕ) :
    TableInv L client ((s.initClientResources L client).clientTable client) := by
  simp only [Server.initClientResources,Server.clientTable_setClient,if_true]
  constructor
  · rfl
  · rfl
  · exact (by decide : initHashSize ≤ maxHashSize)
  · intro i r hr
    simp at hr
  · simp
  · simp

lemma started_cases (clients : List ℕ) (client : ℕ) :
    ((Server.started L V clients).clientTable client).buckets = 0 ∨
      (TableInv L client ((Server.started L V clients).clientTable client) ∧
        ((Server.started L V clients).clientTable client).resources = List.replicate initBuckets []) := by
  induction clients using List.reverseRecOn with
  | nil => left; rfl
  | append_singleton cs c ih =>
    simp only [Server.started,List.foldl_append,List.foldl_cons,List.foldl_nil] at ih ⊢
    by_cases hc : client = c
    · subst client
      right
      exact ⟨tableInv_init _ c,by simp [Server.initClientResources]⟩
    · simpa [Server.initClientResources,hc] using ih

lemma started_refines (clients : List ℕ) :
    ServerInv L (Server.started L V clients) ∧ Refines L (Server.started L V clients) (fun _ => []) := by
  constructor
  · intro client hb
    exact ((started_cases clients client).resolve_left hb).1
  · intro id
    by_cases hu : (Server.started L V clients).inUse L id = true
    · have hc := (started_cases clients _).resolve_left ((Server.inUse_iff id).mp hu)
      rw [Server.chainOf_of_inUse id hu,hc.2]
      simp
    · simp [Server.chainOf,hu]

def Ref.lookupByType (types : ResourceTypes) (ref : Ref V) (id : XID) (rtype : RESTYPE) :
    ℕ × Option V :=
  if rtype &&& types.typeMask > types.lastResourceType then (badImplementation,none) else
  match (ref id).find? (fun e => e.1 = rtype) with
  | none => (types.errorValue (rtype &&& types.typeMask),none)
  | some e => (success,some e.2)

def Ref.lookupByClass (ref : Ref V) (id : XID) (rclass : RESTYPE) : ℕ × Option V :=
  match (ref id).find? (fun e => e.1 &&& rclass ≠ 0#32) with
  | none => (badValue,none)
  | some e => (success,some e.2)

lemma find?_entriesIn (id : XID) (p : RESTYPE → Bool) (c : List (ResourceRec V)) :
    (c.find? (fun r => r.id = id ∧ p r.type = true)).map ResourceRec.entry =
      (entriesIn id c).find? (fun e => p e.1) := by
  induction c with
  | nil => rfl
  | cons r c ih =>
    rw [entriesIn_cons]
    by_cases hid : r.id = id
    · by_cases hp : p r.type = true
      · simp [hid,hp,ResourceRec.entry]
      · simp only [hid]
        rw [List.find?_cons_of_neg (by simp [hp])]
        simpa [ResourceRec.entry,hp] using ih
    · rw [List.find?_cons_of_neg (by simp [hid])]
      simpa [hid] using ih

lemma lookupByType_of_entries (types : ResourceTypes) (href : Refines L s ref) (id : XID)
    (rtype : RESTYPE) :
    s.dixLookupResourceByType L types id rtype = ref.lookupByType types id rtype := by
  have hf := find?_entriesIn id (fun t => decide (t = rtype)) (s.chainOf L id)
  rw [href id] at hf
  simp only [decide_eq_true_eq] at hf
  unfold Server.dixLookupResourceByType Ref.lookupByType
  rw [← hf]
  cases (s.chainOf L id).find? (fun r => decide (r.id = id ∧ r.type = rtype)) <;> rfl

lemma lookupByClass_of_entries (href : Refines L s ref) (id : XID) (rclass : RESTYPE) :
    s.dixLookupResourceByClass L id rclass = ref.lookupByClass id rclass := by
  have hf := find?_entriesIn id (fun t => decide (t &&& rclass ≠ 0#32)) (s.chainOf L id)
  rw [href id] at hf
  simp only [decide_eq_true_eq] at hf
  unfold Server.dixLookupResourceByClass Ref.lookupByClass
  rw [← hf]
  cases (s.chainOf L id).find? (fun r => decide (r.id = id ∧ r.type &&& rclass ≠ 0#32)) <;> rfl

def Server.rebuilt (L : Limits) (s : Server V) (client : ℕ) : Server V :=
  s.setClient client (Server.rebuildTable L (s.clientTable client))

lemma rebuilt_entries (hinv : ServerInv L s) (client : ℕ) (id : XID) :
    entriesIn id ((s.rebuilt L client).chainOf L id) = entriesIn id (s.chainOf L id) := by
  by_cases hc : L.dixClientIdForXID id = client
  · subst client
    by_cases hu : s.inUse L id = true
    · have hb := (Server.inUse_iff id).mp hu
      rw [Server.chainOf_of_inUse id hu,Server.chainOf_of_inUse id (by
        rw [Server.inUse_iff]; simpa [Server.rebuilt,Server.rebuildTable] using hb)]
      simpa [Server.rebuilt] using (hinv _ hb).entriesIn_rebuildTable id
    · have hb : (s.clientTable (L.dixClientIdForXID id)).buckets = 0 := by
        by_contra hb
        exact hu ((Server.inUse_iff id).mpr hb)
      simp [Server.chainOf,Server.inUse,Server.rebuilt,Server.rebuildTable,hb]
  · simp [Server.chainOf,Server.inUse,Server.rebuilt,hc]

/-- Every run of the resource operations is a run of the multimap: lookups answer as the
reference model does, every record sits in the bucket its hash selects among exactly
`2^hashsize` buckets, the element count is exact, and a rebuild at any point is invisible. -/
theorem resource_run_refines_multimap (types : ResourceTypes) (clients : List ℕ)
    (ops : List (Op V)) (h : (Server.started L V clients).run L ops = some s) :
    (∀ id rtype, s.dixLookupResourceByType L types id rtype =
        (Ref.run ops).lookupByType types id rtype) ∧
    (∀ id rclass, s.dixLookupResourceByClass L id rclass = (Ref.run ops).lookupByClass id rclass) ∧
    (∀ client, (s.clientTable client).buckets ≠ 0 →
      (s.clientTable client).resources.length = 2^(s.clientTable client).hashsize ∧
      (s.clientTable client).buckets = 2^(s.clientTable client).hashsize ∧
      (∀ i, ∀ r ∈ chain (s.clientTable client).resources i,
        L.hashResourceID r.id (s.clientTable client).hashsize = i) ∧
      (s.clientTable client).elements = (s.clientTable client).resources.flatten.length) ∧
    (∀ client id t, (s.rebuilt L client).dixLookupResourceByType L types id t =
        s.dixLookupResourceByType L types id t ∧
      (s.rebuilt L client).dixLookupResourceByClass L id t = s.dixLookupResourceByClass L id t) := by
  obtain ⟨hi₀,hr₀⟩ := started_refines (L := L) (V := V) clients
  obtain ⟨hinv,href⟩ := refines_run hi₀ hr₀ ops h
  refine ⟨lookupByType_of_entries types href,lookupByClass_of_entries href,?_,?_⟩
  · intro client hb
    have ht := hinv client hb
    exact ⟨ht.length,ht.buckets,ht.placed,ht.elements⟩
  · intro client id t
    have hrb : Refines L (s.rebuilt L client) (ops.foldl Ref.step (fun _ => [])) :=
      fun i => (rebuilt_entries hinv client i).trans (href i)
    exact ⟨(lookupByType_of_entries types hrb id t).trans (lookupByType_of_entries types href id t).symm,
      (lookupByClass_of_entries hrb id t).trans (lookupByClass_of_entries href id t).symm⟩

/-- Two records of one XID: the newer one is found by class, each by its type. -/
theorem resource_run_two_types : ∃ s : Server ℕ,
    (Server.started defaultLimits ℕ [1]).run defaultLimits
      [.addResource 0x200001#32 5#32 70,.addResource 0x200001#32 6#32 71] = some s ∧
    s.dixLookupResourceByClass defaultLimits 0x200001#32 rcAny = (success,some 71) := by
  have hrun : ((Server.started defaultLimits ℕ [1]).run defaultLimits
      [.addResource 0x200001#32 5#32 70,.addResource 0x200001#32 6#32 71]).isSome = true := by
    decide +kernel
  obtain ⟨s,hs⟩ := Option.isSome_iff_exists.mp hrun
  refine ⟨s,hs,?_⟩
  rw [(resource_run_refines_multimap ⟨0#32,0#32,fun _ => 0⟩ [1] _ hs).2.1]
  decide +kernel

end Xlibre.Dix.Resource
