import Xlibre.Dix.Resource.ReentrantRun

/-! Whole freeing executions: the bucket loops of the client-wide frees, and the accounting of
every record that disappears. -/
namespace Xlibre.Dix.Resource
open Xlibre.Lib.Buckets

variable {V : Type*} {L : Limits} {typeMask : RESTYPE} {del : DeleteFuncs V}

def neverRetained (r : ResourceRec V) : Bool := r.type &&& rcNeverRetain ≠ 0#32

/-- The inner loop of `FreeClientNeverRetainResources` is a sweep. -/
def neverRetainSweep (L : Limits) (typeMask : RESTYPE) (del : DeleteFuncs V) (client j : ℕ) :
    Sweep L typeMask del client j neverRetained none where
  loop := .neverRetainLoop client j
  ret := .neverRetainReturn client j
  exit k := .neverRetainBucket client (j+1)::k
  stop w prev k h := by simp [step,h]
  hit w prev k r h hP := by
    refine ⟨false,by simp,?_⟩
    simp [step,h,show ¬ r.type &&& rcNeverRetain = 0#32 by simpa [neverRetained] using hP]
  miss w prev k r h hP := by
    simp [step,h,show r.type &&& rcNeverRetain = 0#32 by simpa [neverRetained] using hP]
  back w prev n k := by
    simp only [step]
    split_ifs <;> rfl

lemma TableOk.length {client : ℕ} {t : ClientResourceRec V} (h : TableOk L client t) :
    t.resources.length = t.buckets := by
  rcases h with ⟨h0,h1,_⟩ | ⟨h,_⟩
  · simp [h0,h1]
  · rw [h.length,h.buckets]

lemma TableOk.forall_flatten {client : ℕ} {t : ClientResourceRec V} (h : TableOk L client t)
    {Q : ResourceRec V → Prop} {j : ℕ} (hj : t.buckets ≤ j)
    (hQ : ∀ i < j, ∀ r ∈ chain t.resources i, Q r) : ∀ r ∈ t.resources.flatten, Q r := by
  intro r hr
  obtain ⟨i,hi⟩ := (mem_chain_iff _ r).mp hr
  refine hQ i ?_ r hi
  by_contra hlt
  have hlen : t.resources.length ≤ i := by rw [h.length]; omega
  simp [chain,List.getD_eq_getElem?_getD,List.getElem?_eq_none hlen] at hi

lemma Shrunk.forall_chain {w w' : World V} {evs : List (Event V)} (h : Shrunk L w evs w')
    {client j : ℕ} {Q : ResourceRec V → Prop}
    (hQ : ∀ i < j, ∀ r ∈ chain (w.table client).resources i, Q r) :
    ∀ i < j, ∀ r ∈ chain (w'.table client).resources i, Q r :=
  fun i hi r hr => hQ i hi r ((chain_sublist_of_forall₂ (h.sub client) i).mem hr)

lemma SweepEvents.append {client : ℕ} {P : ResourceRec V → Bool} {by_ : Option RESTYPE}
    {e₁ e₂ : List (Event V)} (h₁ : SweepEvents L client P by_ e₁) (h₂ : SweepEvents L client P by_ e₂) :
    SweepEvents L client P by_ (e₁ ++ e₂) :=
  fun r hr => (List.mem_append.mp hr).elim (h₁ r) (h₂ r)

lemma neverRetainBucket_runs {client : ℕ} (hcl : client < L.limitClients) (m j : ℕ) (w : World V)
    (hm : (w.table client).buckets - j = m) (hw : WorldOk L w)
    (hbelow : ∀ i < j, ∀ r ∈ chain (w.table client).resources i, neverRetained r = false)
    (k : List (Frame V)) :
    ∃ w' evs, Path L typeMask del ⟨w,.neverRetainBucket client j::k⟩ ⟨w',k⟩ ∧ Shrunk L w evs w' ∧
      SweepEvents L client neverRetained none evs ∧
      ∀ r ∈ (w'.table client).resources.flatten, neverRetained r = false := by
  induction m generalizing j w with
  | zero =>
    refine ⟨w,[],Path.head ?_ hw .refl,Shrunk.refl hw,by simp [SweepEvents],
      (hw client).forall_flatten (by omega) hbelow⟩
    simp [step,show ¬ j < (w.table client).buckets by omega]
  | succ m ih =>
    obtain ⟨w₁,e₁,hpath₁,hs₁,hev₁,hend⟩ := (neverRetainSweep L typeMask del client j).runs hcl
      (w.entries L).length (fun n _ w hn hw id skip => freeResource_finishes n w hn hw id skip)
      w le_rfl hw [] _ rfl (by simp) k
    obtain ⟨w₂,e₂,hpath₂,hs₂,hev₂,hfin⟩ := ih (j+1) w₁ (by rw [hs₁.buckets]; omega) hs₁.ok (by
      intro i hi
      rcases Nat.lt_succ_iff_lt_or_eq.mp hi with hi | rfl
      · exact hs₁.forall_chain hbelow i hi
      · exact hend)
    refine ⟨w₂,e₁ ++ e₂,Path.head ?_ hw (hpath₁.trans hpath₂),hs₁.trans hs₂,hev₁.append hev₂,hfin⟩
    simp [step,show j < (w.table client).buckets by omega,neverRetainSweep,prevOf]

lemma clientLoop_runs {client : ℕ} (hcl : client < L.limitClients) (j n : ℕ) (w : World V)
    (hn : (w.entries L).length ≤ n) (hw : WorldOk L w) (k : List (Frame V)) :
    ∃ w' evs, Path L typeMask del ⟨w,.clientLoop client j::k⟩ ⟨w',.clientBucket client (j+1)::k⟩ ∧
      Shrunk L w evs w' ∧ chain (w'.table client).resources j = [] := by
  induction n using Nat.strong_induction_on generalizing w with
  | _ n ih =>
    cases hc : chain (w.table client).resources j with
    | nil =>
      refine ⟨w,[],Path.head ?_ hw .refl,Shrunk.refl hw,hc⟩
      simp [step,hc]
    | cons r post =>
      have hc' : chain (w.table client).resources j = [] ++ r::post := hc
      have hpos := (hw.unlink hcl hc' none).2.2.1.length_eq
      simp only [List.length_cons] at hpos
      obtain ⟨w₁,e₁,hok₁,hpath₁,hs₁,_,hlen₁,_⟩ := doFreeResource_runs (n-1)
        (fun w hn hw id skip => freeResource_finishes (n-1) w hn hw id skip)
        (by omega) hw hcl hc' none false (by simp) (.clientLoop client j::k)
      obtain ⟨w₂,e₂,hpath₂,hs₂,hend⟩ := ih (n-1) (by omega) w₁ hlen₁ hs₁.ok
      refine ⟨w₂,_,Path.head ?_ hok₁ (hpath₁.trans hpath₂),hs₁.trans hs₂,hend⟩
      simp [step,hc,prevOf]

lemma WorldOk.releaseTable {w : World V} (hw : WorldOk L w) {client : ℕ}
    (he : (w.table client).resources.flatten = []) : WorldOk L (w.releaseTable client) := by
  intro c
  have hel := (hw client).elements
  rw [he,List.length_nil] at hel
  rcases eq_or_ne c client with rfl | hc
  · exact .inl ⟨by simp [World.releaseTable,World.table],by simp [World.releaseTable,World.table],
      by simpa [World.releaseTable,World.table] using hel⟩
  · simpa [World.releaseTable,World.table,hc] using hw c

lemma clientBucket_runs {client : ℕ} (hcl : client < L.limitClients) (m j : ℕ) (w : World V)
    (hm : (w.table client).buckets - j = m) (hw : WorldOk L w)
    (hbelow : ∀ i < j, ∀ r ∈ chain (w.table client).resources i, False) (k : List (Frame V)) :
    ∃ w' evs, Path L typeMask del ⟨w,.clientBucket client j::k⟩ ⟨w'.releaseTable client,k⟩ ∧
      Shrunk L w evs w' ∧ (w'.table client).resources.flatten = [] := by
  induction m generalizing j w with
  | zero =>
    have hempty : (w.table client).resources.flatten = [] :=
      List.eq_nil_iff_forall_not_mem.mpr ((hw client).forall_flatten (by omega) hbelow)
    refine ⟨w,[],Path.head ?_ (hw.releaseTable hempty) .refl,Shrunk.refl hw,hempty⟩
    simp [step,show ¬ j < (w.table client).buckets by omega]
  | succ m ih =>
    obtain ⟨w₁,e₁,hpath₁,hs₁,hend⟩ := clientLoop_runs hcl j (w.entries L).length w le_rfl hw k
    obtain ⟨w₂,e₂,hpath₂,hs₂,hfin⟩ := ih (j+1) w₁ (by rw [hs₁.buckets]; omega) hs₁.ok (by
      intro i hi
      rcases Nat.lt_succ_iff_lt_or_eq.mp hi with hi | rfl
      · exact hs₁.forall_chain hbelow i hi
      · simp [hend])
    refine ⟨w₂,e₁ ++ e₂,Path.head ?_ hw (hpath₁.trans hpath₂),hs₁.trans hs₂,hfin⟩
    simp [step,show j < (w.table client).buckets by omega]

/-- The log of an execution from `w` to `w'` accounts for every record: what disappeared is what
was unlinked, each record once, and the delete function ran once for each unlinked record except
those of the skip type of the call that removed them. -/
structure Accounted (L : Limits) (w w' : World V) (evs : List (Event V)) : Prop where
  log : w'.log = w.log ++ evs
  subset : ∀ r ∈ w'.entries L, r ∈ w.entries L
  unlinked_once : ((unlinkedOf evs).map Prod.fst).Nodup
  unlinked_iff : ∀ r, r ∈ (unlinkedOf evs).map Prod.fst ↔ r ∈ w.entries L ∧ r ∉ w'.entries L
  called_once : (calledOf evs).Nodup
  called_iff : ∀ r, r ∈ calledOf evs ↔ ∃ skip, (r,skip) ∈ unlinkedOf evs ∧ skip ≠ some r.type

lemma WorldOk.entries_nodup {w : World V} (hw : WorldOk L w) : (w.entries L).Nodup := by
  refine List.nodup_flatMap.mpr ⟨fun c _ => (hw c).nodup.of_map,?_⟩
  refine List.Pairwise.imp_of_mem ?_ List.nodup_range
  intro a b _ _ hab r hra hrb
  exact hab ((hw.owner hra).2.symm.trans (hw.owner hrb).2)

theorem Shrunk.accounted {w w' : World V} {evs : List (Event V)} (hw : WorldOk L w)
    (h : Shrunk L w evs w') : Accounted L w w' evs := by
  have hnd := h.perm.nodup_iff.mp hw.entries_nodup
  obtain ⟨_,hun,hdis⟩ := List.nodup_append'.mp hnd
  have hmem : ∀ r, r ∈ w.entries L ↔ r ∈ w'.entries L ∨ r ∈ (unlinkedOf evs).map Prod.fst := by
    intro r
    rw [h.perm.mem_iff,List.mem_append]
  refine ⟨h.log,fun r hr => (hmem r).mpr (.inl hr),hun,?_,?_,?_⟩
  · intro r
    rw [hmem r]
    exact ⟨fun hr => ⟨.inr hr,fun hr' => hdis hr' hr⟩,fun ⟨hr,hn⟩ => hr.resolve_left hn⟩
  · rw [h.called]
    exact hun.sublist (List.filter_sublist.map _)
  · intro r
    rw [h.called,List.mem_map]
    constructor
    · rintro ⟨⟨x,skip⟩,hx,rfl⟩
      obtain ⟨hx,hs⟩ := List.mem_filter.mp hx
      exact ⟨skip,hx,by simpa using hs⟩
    · rintro ⟨skip,hx,hs⟩
      exact ⟨(r,skip),List.mem_filter.mpr ⟨hx,by simpa using hs⟩,rfl⟩

lemma World.entries_releaseTable {w : World V} {client : ℕ}
    (he : (w.table client).resources.flatten = []) :
    (w.releaseTable client).entries L = w.entries L := by
  refine List.flatMap_congr fun c _ => ?_
  rcases eq_or_ne c client with rfl | hc
  · rw [he]
    simp [World.releaseTable,World.table]
  · simp [World.releaseTable,World.table,hc]

lemma Path.reaches {a b : Config V} (hp : Path L typeMask del a b) : Reaches L typeMask del a b :=
  Relation.ReflTransGen.mono (fun _ _ h => h.1) _ _ hp

lemma Path.covers {a z : Config V} (hp : Path L typeMask del a z)
    (hz : step L typeMask del z = none) (ha : WorldOk L a.world) {c : Config V}
    (hr : Reaches L typeMask del a c) : WorldOk L c.world ∧ Reaches L typeMask del c z := by
  induction hp using Relation.ReflTransGen.head_induction_on with
  | refl =>
    rcases Relation.ReflTransGen.cases_head hr with rfl | ⟨b,hb,_⟩
    · exact ⟨ha,.refl⟩
    · rw [hz] at hb
      cases hb
  | @head a b hab hbz ih =>
    rcases Relation.ReflTransGen.cases_head hr with rfl | ⟨b',hb',hrest⟩
    · exact ⟨ha,Relation.ReflTransGen.head hab.1 (Path.reaches hbz)⟩
    · obtain rfl : b = b' := Option.some.inj (hab.1.symm.trans hb')
      exact ih hab.2 hrest

/-- The call `f` returns from `w`: whatever configuration its execution is in, the element counts
are exact and it goes on to the same final database, which `Q` describes and the log accounts
for. -/
def Returns (L : Limits) (typeMask : RESTYPE) (del : DeleteFuncs V) (w : World V) (f : Frame V)
    (Q : World V → List (Event V) → Prop) : Prop :=
  ∃ w' evs, Reaches L typeMask del ⟨w,[f]⟩ ⟨w',[]⟩ ∧ Accounted L w w' evs ∧ Q w' evs ∧
    ∀ c, Reaches L typeMask del ⟨w,[f]⟩ c → Reaches L typeMask del c ⟨w',[]⟩ ∧
      ∀ client, (c.world.table client).elements = (c.world.table client).resources.flatten.length

lemma Path.returns {w w' : World V} {f : Frame V} {evs : List (Event V)}
    {Q : World V → List (Event V) → Prop} (hp : Path L typeMask del ⟨w,[f]⟩ ⟨w',[]⟩)
    (hw : WorldOk L w) (ha : Accounted L w w' evs) (hQ : Q w' evs) :
    Returns L typeMask del w f Q := by
  refine ⟨w',evs,hp.reaches,ha,hQ,fun c hc => ?_⟩
  obtain ⟨hok,hrest⟩ := hp.covers rfl hw hc
  exact ⟨hrest,fun client => (hok client).elements⟩

lemma mem_unlinkedOf {evs : List (Event V)} {r : ResourceRec V} {skip : Option RESTYPE} :
    (r,skip) ∈ unlinkedOf evs ↔ Event.unlinked r skip ∈ evs := by
  rw [unlinkedOf,List.mem_filterMap]
  constructor
  · rintro ⟨e,he,h⟩
    cases e with
    | unlinked x s =>
      obtain ⟨rfl,rfl⟩ := Prod.mk.inj (Option.some.inj h)
      exact he
    | deleteCalled x => cases h
  · exact fun h => ⟨_,h,rfl⟩

/-- Freeing with delete functions that free other resources, from every well-formed database:
the three entry points return, keep the element counts exact throughout, and unlink and delete
exactly once whatever disappears. -/
theorem freeing_returns_and_accounts (L : Limits) (typeMask : RESTYPE) (del : DeleteFuncs V)
    (w : World V) (hw : WorldOk L w) :
    (∀ id skip, Returns L typeMask del w (.freeResource id skip)
      (fun w' _ => ∀ r ∈ w'.entries L, r.id ≠ id)) ∧
    (∀ client < L.limitClients, Returns L typeMask del w (.neverRetainBucket client 0)
      (fun w' evs => ∀ r ∈ w.entries L, r ∈ w'.entries L ↔
        ¬ (r ∈ (w.table client).resources.flatten ∧ r.type &&& rcNeverRetain ≠ 0#32) ∧
          ∀ skip, (r,some skip) ∉ unlinkedOf evs)) ∧
    (∀ client < L.limitClients, Returns L typeMask del w (.clientBucket client 0)
      (fun w' _ => (w'.table client).resources.flatten = [] ∧ (w'.table client).elements = 0 ∧
        (w'.table client).buckets = 0)) := by
  refine ⟨fun id skip => ?_,fun client hcl => ?_,fun client hcl => ?_⟩
  · obtain ⟨w',evs,hp,hs,_,hend⟩ := freeResource_runs (w.entries L).length
      (fun n _ w hn hw id skip => freeResource_finishes n w hn hw id skip) w le_rfl hw id skip []
    exact hp.returns hw (hs.accounted hw) hend
  · obtain ⟨w',evs,hp,hs,hev,hend⟩ := neverRetainBucket_runs hcl _ 0 w rfl hw (by simp) []
    have hacc := hs.accounted hw
    refine hp.returns hw hacc fun r hr => ⟨fun hr' => ⟨?_,?_⟩,fun ⟨hnr,hnf⟩ => ?_⟩
    · rintro ⟨hmem,hnr⟩
      have hmem' := (mem_chain_iff _ r).mpr ⟨_,(hs.ok.mem_chain hr').2⟩
      rw [(hw.owner hmem).2] at hmem'
      exact hnr (by simpa [neverRetained] using hend r hmem')
    · exact fun skip hu => ((hacc.unlinked_iff r).mp (List.mem_map.mpr ⟨_,hu,rfl⟩)).2 hr'
    · by_contra hgone
      obtain ⟨⟨x,skip⟩,hu,rfl⟩ := List.mem_map.mp ((hacc.unlinked_iff r).mpr ⟨hr,hgone⟩)
      cases skip with
      | some skip => exact hnf skip hu
      | none =>
        obtain ⟨_,hP,hc⟩ := hev x (mem_unlinkedOf.mp hu)
        refine hnr ⟨?_,by simpa [neverRetained] using hP⟩
        rw [← hc]
        exact (mem_chain_iff _ x).mpr ⟨_,(hw.mem_chain hr).2⟩
  · obtain ⟨w',evs,hp,hs,hend⟩ := clientBucket_runs hcl _ 0 w rfl hw (by simp) []
    have hacc := hs.accounted hw
    have hent : (w'.releaseTable client).entries L = w'.entries L := World.entries_releaseTable hend
    refine hp.returns hw ⟨hacc.log,by rw [hent]; exact hacc.subset,hacc.unlinked_once,
      by rw [hent]; exact hacc.unlinked_iff,hacc.called_once,hacc.called_iff⟩ ⟨?_,?_,?_⟩
    · simp [World.releaseTable,World.table]
    · have hel := (hs.ok client).elements
      rw [hend] at hel
      simpa [World.releaseTable,World.table] using hel
    · simp [World.releaseTable,World.table]

def chainedWorld : World ℕ where
  server := (Server.empty ℕ).setClient 1
    { resources := (List.replicate initBuckets []).modify 1
        (fun _ => [⟨0,0x200001#32,5#32,70⟩,⟨1,0x200040#32,6#32,71⟩])
      elements := 2
      buckets := initBuckets
      hashsize := initHashSize
      fakeID := 0#32
      endFakeID := 0#32 }
  log := []

def chainedDelete : DeleteFuncs ℕ := fun type _ _ _ =>
  if type = 5#32 then .freeResource 0x200040#32 0#32 (fun _ => .done) else .done

lemma chainedWorld_ok : WorldOk defaultLimits chainedWorld := by
  intro c
  rcases eq_or_ne c 1 with rfl | hc
  · refine .inr ⟨⟨by decide +kernel,by decide +kernel,by decide +kernel,?_,by decide +kernel,
      by decide +kernel⟩,by decide +kernel⟩
    intro i r hr
    by_cases hi : i < 64
    · exact (by decide +kernel : ∀ i < 64, ∀ r ∈ chain (chainedWorld.table 1).resources i,
        defaultLimits.hashResourceID r.id (chainedWorld.table 1).hashsize = i) i hi r hr
    · have hlen : (chainedWorld.table 1).resources.length ≤ i := by
        have : (chainedWorld.table 1).resources.length = 64 := by decide +kernel
        omega
      simp [chain,List.getD_eq_getElem?_getD,List.getElem?_eq_none hlen] at hr
  · refine .inl ?_
    simp [World.table,chainedWorld,Server.empty,hc]

/-- Freeing the first record unlinks both and calls both delete functions. -/
theorem freeing_chainedWorld :
    Returns defaultLimits 0x1fffffff#32 chainedDelete chainedWorld
      (.freeResource 0x200001#32 0#32) (fun w' _ => ∀ r ∈ w'.entries defaultLimits,
        r.id ≠ 0x200001#32) :=
  (freeing_returns_and_accounts _ _ chainedDelete chainedWorld chainedWorld_ok).1 _ _

end Xlibre.Dix.Resource
