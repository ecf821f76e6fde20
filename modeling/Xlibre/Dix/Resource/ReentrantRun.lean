import Xlibre.Dix.Resource.ReentrantChain

/-! Nested executions of the freeing loops, by induction on the number of records left: the
loops stop, never follow a pointer into a freed record, and account for what they unlink. -/
namespace Xlibre.Dix.Resource
open Xlibre.Lib.Buckets

variable {V : Type*} {L : Limits} {typeMask : RESTYPE} {del : DeleteFuncs V}

/-- Steps through well-formed databases only. -/
def Path (L : Limits) (typeMask : RESTYPE) (del : DeleteFuncs V) : Config V → Config V → Prop :=
  Relation.ReflTransGen (fun a b => step L typeMask del a = some b ∧ WorldOk L b.world)

lemma Path.head {a b c : Config V} (h : step L typeMask del a = some b) (hb : WorldOk L b.world)
    (hp : Path L typeMask del b c) : Path L typeMask del a c :=
  Relation.ReflTransGen.head ⟨h,hb⟩ hp

lemma Path.trans {a b c : Config V} (h₁ : Path L typeMask del a b) (h₂ : Path L typeMask del b c) :
    Path L typeMask del a c := Relation.ReflTransGen.trans h₁ h₂

/-- Every record unlinked was removed by a `FreeResource` call. -/
def ByFreeResource (evs : List (Event V)) : Prop := ∀ r, Event.unlinked r none ∉ evs

/-- The frame above `k` finishes, turning `w` into some smaller database. -/
def Finishes (L : Limits) (typeMask : RESTYPE) (del : DeleteFuncs V) (w : World V) (f : Frame V) : Prop :=
  ∀ k, ∃ w' evs, Path L typeMask del ⟨w,f::k⟩ ⟨w',k⟩ ∧ Shrunk L w evs w' ∧ ByFreeResource evs

lemma delete_finishes (n : ℕ)
    (hfree : ∀ w : World V, (w.entries L).length ≤ n → WorldOk L w → ∀ id skip,
      Finishes L typeMask del w (.freeResource id skip))
    (p : DeleteProg (World V)) (w : World V) (hn : (w.entries L).length ≤ n) (hw : WorldOk L w)
    (next : World V → DeleteProg (World V)) (hp : next w = p) :
    Finishes L typeMask del w (.delete next) := by
  induction p generalizing w next with
  | done =>
    intro k
    refine ⟨w,[],Path.head ?_ hw .refl,Shrunk.refl hw,by simp [ByFreeResource]⟩
    simp [step,hp]
  | freeResource id skip next' ih =>
    intro k
    obtain ⟨w₁,e₁,hpath,hs,hb⟩ := hfree w hn hw id skip (.delete next'::k)
    obtain ⟨w₂,e₂,hpath₂,hs₂,hb₂⟩ := ih w₁ w₁ (hs.entries_length_le.trans hn) hs.ok next' rfl k
    refine ⟨w₂,e₁ ++ e₂,Path.head ?_ hw (hpath.trans hpath₂),hs.trans hs₂,?_⟩
    · simp [step,hp]
    · intro r hr
      exact (List.mem_append.mp hr).elim (hb r) (hb₂ r)

lemma doFreeResource_runs (n : ℕ)
    (hfree : ∀ w : World V, (w.entries L).length ≤ n → WorldOk L w → ∀ id skip,
      Finishes L typeMask del w (.freeResource id skip))
    {w : World V} (hn : (w.entries L).length ≤ n+1) (hw : WorldOk L w) {client j : ℕ}
    (hcl : client < L.limitClients) {pre post : List (ResourceRec V)} {r : ResourceRec V}
    (hc : chain (w.table client).resources j = pre ++ r::post) (by_ : Option RESTYPE) (skip : Bool)
    (hskip : skip = true ↔ by_ = some r.type) (k : List (Frame V)) :
    ∃ w' evs, WorldOk L (doFreeResource typeMask del (w.unlink client j (prevOf pre) r by_) r skip k).world ∧
      Path L typeMask del (doFreeResource typeMask del (w.unlink client j (prevOf pre) r by_) r skip k) ⟨w',k⟩ ∧
      Shrunk L w (.unlinked r by_::evs) w' ∧ ByFreeResource evs ∧
      (w'.entries L).length ≤ n ∧
      ((w'.table client).elements = ((w.unlink client j (prevOf pre) r by_).table client).elements →
        chain (w'.table client).resources j = pre ++ post) := by
  obtain ⟨hok,hsub,hperm,hch⟩ := hw.unlink hcl hc by_
  have hlen := hperm.length_eq
  simp only [List.length_cons] at hlen
  have hhs : ∀ c, ((w.unlink client j (prevOf pre) r by_).table c).hashsize = (w.table c).hashsize := by
    intro c; rw [World.table_unlink]; split_ifs with h
    · rw [h]
    · rfl
  have hbk : ∀ c, ((w.unlink client j (prevOf pre) r by_).table c).buckets = (w.table c).buckets := by
    intro c; rw [World.table_unlink]; split_ifs with h
    · rw [h]
    · rfl
  have hpm : (w.entries L).Perm ((w.unlink client j (prevOf pre) r by_).entries L ++ [r]) :=
    hperm.trans (List.perm_append_singleton r _).symm
  cases skip with
  | true =>
    have hby := hskip.mp rfl
    refine ⟨w.unlink client j (prevOf pre) r by_,[],hok,.refl,?_,by simp [ByFreeResource],by omega,fun _ => hch⟩
    exact ⟨rfl,hok,hhs,hbk,hsub,by simpa [unlinkedOf] using hpm,by simp [unlinkedOf,calledOf,hby]⟩
  | false =>
    have hby : by_ ≠ some r.type := fun h => by simpa using hskip.mpr h
    have hstart : Shrunk L w [.unlinked r by_,.deleteCalled r]
        ((w.unlink client j (prevOf pre) r by_).logDelete r) :=
      ⟨by simp [World.unlink,World.logDelete],hok,hhs,hbk,hsub,by
          rw [World.entries_logDelete]
          simpa [unlinkedOf] using hpm,
        by simp [unlinkedOf,calledOf,hby]⟩
    obtain ⟨w',evs,hpath,hs,hb⟩ := delete_finishes n hfree _
      ((w.unlink client j (prevOf pre) r by_).logDelete r) (by
        change ((w.unlink client j (prevOf pre) r by_).entries L).length ≤ n
        omega) hok
      (del (r.type &&& typeMask) r.value r.id) rfl k
    refine ⟨w',.deleteCalled r::evs,hok,hpath,hstart.trans hs,?_,?_,?_⟩
    · intro x hx
      rcases List.mem_cons.mp hx with h | h
      · cases h
      · exact hb x h
    · have hle := hs.entries_length_le
      change _ ≤ ((w.unlink client j (prevOf pre) r by_).entries L).length at hle
      omega
    · intro he
      have hw₁ : WorldOk L ((w.unlink client j (prevOf pre) r by_).logDelete r) := hok
      rw [hs.resources_eq hw₁ client he,World.table_logDelete]
      exact hch

/-- The shape both sweeping loops share: records of `P` are unlinked, the loop restarts at the
bucket head when the count has moved, and it leaves the bucket at its end. -/
structure Sweep (L : Limits) (typeMask : RESTYPE) (del : DeleteFuncs V) (client j : ℕ)
    (P : ResourceRec V → Bool) (by_ : Option RESTYPE) where
  loop : Prev → Frame V
  ret : Prev → ℕ → Frame V
  exit : List (Frame V) → List (Frame V)
  stop : ∀ w prev k, deref (chain (w.table client).resources j) prev = some none →
    step L typeMask del ⟨w,loop prev::k⟩ = some ⟨w,exit k⟩
  hit : ∀ w prev k r, deref (chain (w.table client).resources j) prev = some (some r) → P r = true →
    ∃ skip : Bool, (skip = true ↔ by_ = some r.type) ∧
      step L typeMask del ⟨w,loop prev::k⟩ = some (doFreeResource typeMask del
        (w.unlink client j prev r by_) r skip
        (ret prev ((w.unlink client j prev r by_).table client).elements::k))
  miss : ∀ w prev k r, deref (chain (w.table client).resources j) prev = some (some r) → P r = false →
    step L typeMask del ⟨w,loop prev::k⟩ = some ⟨w,loop (.next r.addr)::k⟩
  back : ∀ w prev n k, step L typeMask del ⟨w,ret prev n::k⟩ =
    some ⟨w,loop (if (w.table client).elements ≠ n then .head else prev)::k⟩

/-- Events of a sweep: its own unlinks take the client's records of `P`, all others are nested
frees. -/
def SweepEvents (L : Limits) (client : ℕ) (P : ResourceRec V → Bool) (by_ : Option RESTYPE)
    (evs : List (Event V)) : Prop :=
  ∀ r, Event.unlinked r none ∈ evs → by_ = none ∧ P r = true ∧ L.dixClientIdForXID r.id = client

/-- A sweep of a bucket finishes with no record of `P` left in it. -/
theorem Sweep.runs {client j : ℕ} {P : ResourceRec V → Bool} {by_ : Option RESTYPE}
    (S : Sweep L typeMask del client j P by_) (hcl : client < L.limitClients) (n : ℕ)
    (hfree : ∀ m < n, ∀ w : World V, (w.entries L).length ≤ m → WorldOk L w → ∀ id skip,
      Finishes L typeMask del w (.freeResource id skip))
    (w : World V) (hn : (w.entries L).length ≤ n) (hw : WorldOk L w)
    (pre post : List (ResourceRec V)) (hc : chain (w.table client).resources j = pre ++ post)
    (hpre : ∀ r ∈ pre, P r = false) (k : List (Frame V)) :
    ∃ w' evs, Path L typeMask del ⟨w,S.loop (prevOf pre)::k⟩ ⟨w',S.exit k⟩ ∧ Shrunk L w evs w' ∧
      SweepEvents L client P by_ evs ∧
        ∀ r ∈ chain (w'.table client).resources j, P r = false := by
  induction n using Nat.strong_induction_on generalizing w pre post with
  | _ n ihn =>
    induction post generalizing pre with
    | nil =>
      have hd := deref_prevOf pre [] (hc ▸ (hw client).chain_nodup j)
      rw [← hc] at hd
      refine ⟨w,[],Path.head (S.stop w _ k hd) hw .refl,Shrunk.refl hw,by simp [SweepEvents],?_⟩
      rw [hc]
      simpa using hpre
    | cons r post ihp =>
      have hd := deref_prevOf pre (r::post) (hc ▸ (hw client).chain_nodup j)
      rw [← hc,List.head?_cons] at hd
      cases hP : P r with
      | false =>
        have hstep := S.miss w _ k r hd hP
        rw [← prevOf_concat pre r] at hstep
        obtain ⟨w',evs,hpath,h⟩ := ihp (pre ++ [r]) (by simpa using hc) (by
          intro x hx
          rcases List.mem_append.mp hx with hx | hx
          · exact hpre x hx
          · rw [List.mem_singleton.mp hx]; exact hP)
        exact ⟨w',evs,Path.head hstep hw hpath,h⟩
      | true =>
        obtain ⟨skip,hskip,hstep⟩ := S.hit w _ k r hd hP
        have hpos : 1 ≤ (w.entries L).length := by
          have := (hw.unlink hcl hc by_).2.2.1.length_eq
          simp only [List.length_cons] at this
          omega
        obtain ⟨w₁,e₁,hok₁,hpath₁,hs₁,hb₁,hlen₁,hsame⟩ := doFreeResource_runs (n-1)
          (hfree (n-1) (by omega)) (by omega) hw hcl hc by_ skip hskip
          (S.ret (prevOf pre) ((w.unlink client j (prevOf pre) r by_).table client).elements::k)
        have hback := S.back w₁ (prevOf pre)
          ((w.unlink client j (prevOf pre) r by_).table client).elements k
        -- With the count unmoved the chain is untouched and `prev` is still valid.
        obtain ⟨pre₁,post₁,hprev,hc₁,hpre₁⟩ : ∃ pre₁ post₁,
            (if (w₁.table client).elements ≠ ((w.unlink client j (prevOf pre) r by_).table client).elements
              then Prev.head else prevOf pre) = prevOf pre₁ ∧
            chain (w₁.table client).resources j = pre₁ ++ post₁ ∧ ∀ r ∈ pre₁, P r = false := by
          by_cases he : (w₁.table client).elements =
              ((w.unlink client j (prevOf pre) r by_).table client).elements
          · exact ⟨pre,post,if_neg (not_not.mpr he),hsame he,hpre⟩
          · exact ⟨[],_,if_pos he,rfl,by simp⟩
        rw [hprev] at hback
        obtain ⟨w₂,e₂,hpath₂,hs₂,hev₂,hend⟩ := ihn (n-1) (by omega)
          (fun m hm => hfree m (by omega)) w₁ hlen₁ hs₁.ok pre₁ post₁ hc₁ hpre₁
        refine ⟨w₂,(.unlinked r by_::e₁) ++ e₂,?_,hs₁.trans hs₂,?_,hend⟩
        · exact Path.head hstep hok₁ (hpath₁.trans (Path.head hback hs₁.ok hpath₂))
        · intro x hx
          rcases List.mem_append.mp hx with hx | hx
          · rcases List.mem_cons.mp hx with h | h
            · cases h
              exact ⟨rfl,hP,(hw.owner ((mem_chain_iff _ r).mpr ⟨j,by simp [hc]⟩)).2⟩
            · exact absurd h (hb₁ x)
          · exact hev₂ x hx

/-- The loop of `FreeResource` is a sweep. -/
def freeSweep (L : Limits) (typeMask : RESTYPE) (del : DeleteFuncs V) (id : XID) (skip : RESTYPE)
    (cid j : ℕ) : Sweep L typeMask del cid j (fun r => r.id = id) (some skip) where
  loop := .freeLoop id skip cid j
  ret := .freeReturn id skip cid j
  exit k := k
  stop w prev k h := by simp [step,h]
  hit w prev k r h hP := by
    refine ⟨decide (r.type = skip),by simp [eq_comm],?_⟩
    simp [step,h,show r.id = id by simpa using hP]
  miss w prev k r h hP := by simp [step,h,show ¬ r.id = id by simpa using hP]
  back w prev n k := by
    simp only [step]
    split_ifs <;> rfl

lemma WorldOk.mem_chain {w : World V} (hw : WorldOk L w) {r : ResourceRec V} (hr : r ∈ w.entries L) :
    w.server.inUse L r.id = true ∧ r ∈ chain (w.table (L.dixClientIdForXID r.id)).resources
      (L.hashResourceID r.id (w.table (L.dixClientIdForXID r.id)).hashsize) := by
  obtain ⟨c,_,hr⟩ := World.mem_entries.mp hr
  obtain ⟨hinv,hc⟩ := hw.owner hr
  obtain ⟨i,hi⟩ := (mem_chain_iff _ r).mp hr
  refine ⟨?_,?_⟩
  · rw [Server.inUse_iff,hc]
    exact hinv.buckets_ne_zero
  · have hp : L.hashResourceID r.id (w.table c).hashsize = i := hinv.placed i r hi
    rw [hc,hp]
    exact hi

lemma freeResource_runs (n : ℕ)
    (hfree : ∀ m < n, ∀ w : World V, (w.entries L).length ≤ m → WorldOk L w → ∀ id skip,
      Finishes L typeMask del w (.freeResource id skip))
    (w : World V) (hn : (w.entries L).length ≤ n) (hw : WorldOk L w) (id : XID) (skip : RESTYPE)
    (k : List (Frame V)) :
    ∃ w' evs, Path L typeMask del ⟨w,.freeResource id skip::k⟩ ⟨w',k⟩ ∧ Shrunk L w evs w' ∧
      ByFreeResource evs ∧ ∀ r ∈ w'.entries L, r.id ≠ id := by
  by_cases hu : w.server.inUse L id = true
  · obtain ⟨w',evs,hpath,hs,hev,hend⟩ := (freeSweep L typeMask del id skip (L.dixClientIdForXID id)
        (L.hashResourceID id (w.table (L.dixClientIdForXID id)).hashsize)).runs
      (L.dixClientIdForXID_lt id) n hfree w hn hw [] _ rfl (by simp) k
    refine ⟨w',evs,Path.head ?_ hw hpath,hs,fun r hr => by simpa using (hev r hr).1,?_⟩
    · simp [step,hu,freeSweep,prevOf]
    · rintro r hr rfl
      have hmem := (hs.ok.mem_chain hr).2
      rw [hs.hashsize] at hmem
      simpa using hend r hmem
  · refine ⟨w,[],Path.head ?_ hw .refl,Shrunk.refl hw,by simp [ByFreeResource],?_⟩
    · simp [step,hu]
    · rintro r hr rfl
      exact hu (hw.mem_chain hr).1

/-- `FreeResource` finishes from every well-formed database. -/
theorem freeResource_finishes (n : ℕ) (w : World V) (hn : (w.entries L).length ≤ n)
    (hw : WorldOk L w) (id : XID) (skip : RESTYPE) :
    Finishes L typeMask del w (.freeResource id skip) := by
  induction n using Nat.strong_induction_on generalizing w id skip with
  | _ n ih =>
    intro k
    obtain ⟨w',evs,hpath,hs,hb,_⟩ := freeResource_runs n
      (fun m hm w hwm hw id skip => ih m hm w hwm hw id skip) w hn hw id skip k
    exact ⟨w',evs,hpath,hs,hb⟩

end Xlibre.Dix.Resource
