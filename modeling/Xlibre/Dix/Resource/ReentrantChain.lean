import Xlibre.Dix.Resource.Reentrant

/-! The effect of unlinking on chains, tables and the whole resource database. `Shrunk` is what
any nested execution may do: chains only lose records, and the log accounts for each one lost. -/
namespace Xlibre.Dix.Resource
open Xlibre.Lib.Buckets

variable {V : Type*}

/-- The pointer that leads behind a prefix of the chain. -/
def prevOf : List (ResourceRec V) → Prev
  | [] => .head
  | [r] => .next r.addr
  | _::r::c => prevOf (r::c)

lemma prevOf_concat (pre : List (ResourceRec V)) (r : ResourceRec V) :
    prevOf (pre ++ [r]) = .next r.addr := by
  induction pre with
  | nil => rfl
  | cons p pre ih =>
    cases pre with
    | nil => rfl
    | cons q pre => simpa [prevOf] using ih

lemma prevOf_cons_ne (p : ResourceRec V) (pre : List (ResourceRec V)) (a : ℕ) (h : pre ≠ [])
    (ha : prevOf pre = .next a) : prevOf (p::pre) = .next a := by
  cases pre with
  | nil => exact absurd rfl h
  | cons q pre => exact ha

lemma exists_prevOf (pre : List (ResourceRec V)) (h : pre ≠ []) :
    ∃ a ∈ pre.map (·.addr), prevOf pre = .next a := by
  obtain ⟨init,r,rfl⟩ := List.eq_nil_or_concat pre |>.resolve_left h
  exact ⟨r.addr,by simp,by simpa using prevOf_concat init r⟩

/-- Distinct addresses make the pointer unambiguous: it leads to the rest of the chain. -/
theorem deref_prevOf (pre post : List (ResourceRec V)) (h : ((pre ++ post).map (·.addr)).Nodup) :
    deref (pre ++ post) (prevOf pre) = some post.head? := by
  induction pre with
  | nil => simp [prevOf,deref]
  | cons p pre ih =>
    simp only [List.cons_append,List.map_cons,List.nodup_cons] at h
    cases pre with
    | nil => simp [prevOf,deref]
    | cons q pre =>
      obtain ⟨a,ha,hp⟩ := exists_prevOf (q::pre) (by simp)
      have hne : p.addr ≠ a := fun e => h.1 (by rw [e,List.map_append]; exact List.mem_append_left _ ha)
      rw [prevOf_cons_ne p (q::pre) a (by simp) hp,List.cons_append,deref,if_neg hne,← hp]
      exact ih h.2

theorem unlinkNext_prevOf (pre : List (ResourceRec V)) (r : ResourceRec V)
    (post : List (ResourceRec V)) (h : ((pre ++ r::post).map (·.addr)).Nodup) :
    unlinkNext (prevOf pre) (pre ++ r::post) = pre ++ post := by
  induction pre with
  | nil => simp [prevOf,unlinkNext]
  | cons p pre ih =>
    simp only [List.cons_append,List.map_cons,List.nodup_cons] at h
    cases pre with
    | nil => simp [prevOf,unlinkNext]
    | cons q pre =>
      obtain ⟨a,ha,hp⟩ := exists_prevOf (q::pre) (by simp)
      have hne : p.addr ≠ a := fun e => h.1 (by rw [e,List.map_append]; exact List.mem_append_left _ ha)
      rw [prevOf_cons_ne p (q::pre) a (by simp) hp,List.cons_append,unlinkNext,if_neg hne,← hp,
        ih h.2]
      rfl

def TableOk (L : Limits) (client : ℕ) (t : ClientResourceRec V) : Prop :=
  (t.buckets = 0 ∧ t.resources = [] ∧ t.elements = 0) ∨
    (TableInv L client t ∧ (t.resources.flatten.map (·.addr)).Nodup)

def WorldOk (L : Limits) (w : World V) : Prop := ∀ client, TableOk L client (w.table client)

section TableOk
variable {L : Limits} {client : ℕ} {t : ClientResourceRec V}

lemma TableOk.elements (h : TableOk L client t) : t.elements = t.resources.flatten.length := by
  rcases h with ⟨_,h1,h2⟩ | ⟨h,_⟩
  · simp [h1,h2]
  · exact h.elements

lemma TableOk.nodup (h : TableOk L client t) : (t.resources.flatten.map (·.addr)).Nodup := by
  rcases h with ⟨_,h1,_⟩ | ⟨_,h⟩
  · simp [h1]
  · exact h

lemma chain_sublist_flatten (t : List (List (ResourceRec V))) (j : ℕ) :
    (chain t j).Sublist t.flatten := by
  induction t generalizing j with
  | nil => simp
  | cons b t ih =>
    cases j with
    | zero => simp
    | succ j => exact (ih j).trans (by simp)

lemma TableOk.chain_nodup (h : TableOk L client t) (j : ℕ) :
    ((chain t.resources j).map (·.addr)).Nodup :=
  h.nodup.sublist ((chain_sublist_flatten t.resources j).map _)

lemma perm_flatten_modify (t : List (List (ResourceRec V))) (j : ℕ) (f : List (ResourceRec V) → List (ResourceRec V))
    (pre : List (ResourceRec V)) (r : ResourceRec V) (post : List (ResourceRec V))
    (hc : chain t j = pre ++ r::post) (hf : f (chain t j) = pre ++ post) :
    t.flatten.Perm (r::(t.modify j f).flatten) := by
  induction t generalizing j with
  | nil => simp at hc
  | cons b t ih =>
    cases j with
    | zero =>
      simp only [chain_cons_zero] at hc hf
      simp only [List.modify_zero_cons,List.flatten_cons]
      rw [hf,hc,List.append_assoc,List.append_assoc,List.cons_append]
      exact List.perm_middle
    | succ j =>
      simp only [List.modify_succ_cons,List.flatten_cons]
      exact ((ih j hc hf).append_left b).trans List.perm_middle

lemma forall₂_sublist_modify (t : List (List (ResourceRec V))) (j : ℕ)
    (f : List (ResourceRec V) → List (ResourceRec V)) (hf : (f (chain t j)).Sublist (chain t j)) :
    List.Forall₂ List.Sublist (t.modify j f) t := by
  induction t generalizing j with
  | nil => simp
  | cons b t ih =>
    cases j with
    | zero =>
      simp only [List.modify_zero_cons]
      exact .cons hf (List.forall₂_same.mpr fun c _ => List.Sublist.refl c)
    | succ j =>
      simp only [List.modify_succ_cons]
      exact .cons (List.Sublist.refl b) (ih j hf)

lemma forall₂_sublist_flatten {t' t : List (List (ResourceRec V))}
    (h : List.Forall₂ List.Sublist t' t) : t'.flatten.Sublist t.flatten := by
  induction h with
  | nil => simp
  | cons h _ ih => simpa using h.append ih

lemma eq_of_forall₂_sublist {t' t : List (List (ResourceRec V))}
    (h : List.Forall₂ List.Sublist t' t) (hl : t'.flatten.length = t.flatten.length) : t' = t := by
  induction h with
  | nil => rfl
  | @cons b' b t' t hb ht ih =>
    have h1 := hb.length_le
    have h2 := (forall₂_sublist_flatten ht).length_le
    simp only [List.flatten_cons,List.length_append] at hl
    rw [hb.eq_of_length (by omega),ih (by omega)]

lemma chain_sublist_of_forall₂ {t' t : List (List (ResourceRec V))}
    (h : List.Forall₂ List.Sublist t' t) (j : ℕ) : (chain t' j).Sublist (chain t j) := by
  induction h generalizing j with
  | nil => simp
  | cons hb _ ih =>
    cases j with
    | zero => simpa using hb
    | succ j => simpa using ih j

end TableOk

section World
variable {L : Limits}

/-- All records of the database. -/
def World.entries (L : Limits) (w : World V) : List (ResourceRec V) :=
  (List.range L.limitClients).flatMap (fun c => (w.table c).resources.flatten)

lemma World.mem_entries {w : World V} {r : ResourceRec V} :
    r ∈ w.entries L ↔ ∃ c < L.limitClients, r ∈ (w.table c).resources.flatten := by
  simp [World.entries]

lemma WorldOk.owner {w : World V} (hw : WorldOk L w) {c : ℕ} {r : ResourceRec V}
    (hr : r ∈ (w.table c).resources.flatten) : TableInv L c (w.table c) ∧
      L.dixClientIdForXID r.id = c := by
  obtain ⟨hinv,_⟩ := (hw c).resolve_left (by
    rintro ⟨_,h,_⟩
    simp [h] at hr)
  exact ⟨hinv,hinv.owner r hr⟩

def unlinkedOf (log : List (Event V)) : List (ResourceRec V × Option RESTYPE) :=
  log.filterMap (fun | .unlinked r skip => some (r,skip) | .deleteCalled _ => none)

def calledOf (log : List (Event V)) : List (ResourceRec V) :=
  log.filterMap (fun | .unlinked _ _ => none | .deleteCalled r => some r)

/-- Nested frees turned `w` into `w'`, logging `evs`. -/
structure Shrunk (L : Limits) (w : World V) (evs : List (Event V)) (w' : World V) : Prop where
  log : w'.log = w.log ++ evs
  ok : WorldOk L w'
  hashsize : ∀ c, (w'.table c).hashsize = (w.table c).hashsize
  buckets : ∀ c, (w'.table c).buckets = (w.table c).buckets
  sub : ∀ c, List.Forall₂ List.Sublist (w'.table c).resources (w.table c).resources
  perm : (w.entries L).Perm (w'.entries L ++ (unlinkedOf evs).map Prod.fst)
  called : calledOf evs =
    ((unlinkedOf evs).filter (fun p => p.2 ≠ some p.1.type)).map Prod.fst

theorem Shrunk.refl {w : World V} (h : WorldOk L w) : Shrunk L w [] w where
  log := by simp
  ok := h
  hashsize _ := rfl
  buckets _ := rfl
  sub c := List.forall₂_same.mpr fun b _ => List.Sublist.refl b
  perm := by simp [unlinkedOf]
  called := by simp [unlinkedOf,calledOf]

theorem Shrunk.trans {w₁ w₂ w₃ : World V} {e₁ e₂ : List (Event V)} (h₁ : Shrunk L w₁ e₁ w₂)
    (h₂ : Shrunk L w₂ e₂ w₃) : Shrunk L w₁ (e₁ ++ e₂) w₃ where
  log := by rw [h₂.log,h₁.log,List.append_assoc]
  ok := h₂.ok
  hashsize c := (h₂.hashsize c).trans (h₁.hashsize c)
  buckets c := (h₂.buckets c).trans (h₁.buckets c)
  sub c := by
    have ht : ∀ {a b c : List (List (ResourceRec V))}, List.Forall₂ List.Sublist a b →
        List.Forall₂ List.Sublist b c → List.Forall₂ List.Sublist a c := by
      intro a b c hab
      induction hab generalizing c with
      | nil => intro h; exact h
      | cons h _ ih =>
        intro hbc
        cases hbc with
        | cons h' ht' => exact .cons (h.trans h') (ih ht')
    exact ht (h₂.sub c) (h₁.sub c)
  perm := by
    have hp := h₁.perm.trans (h₂.perm.append_right _)
    refine hp.trans ?_
    simp only [unlinkedOf,List.filterMap_append,List.map_append,List.append_assoc]
    exact List.Perm.append_left _ List.perm_append_comm
  called := by
    have h1 := h₁.called
    have h2 := h₂.called
    simp only [unlinkedOf,calledOf,List.filterMap_append,List.filter_append,List.map_append] at h1 h2 ⊢
    rw [h1,h2]

lemma Shrunk.entries_length_le {w w' : World V} {evs : List (Event V)} (h : Shrunk L w evs w') :
    (w'.entries L).length ≤ (w.entries L).length := by
  have hl := h.perm.length_eq
  simp only [List.length_append] at hl
  omega

lemma Shrunk.resources_eq {w w' : World V} {evs : List (Event V)} (hw : WorldOk L w)
    (h : Shrunk L w evs w') (c : ℕ) (he : (w'.table c).elements = (w.table c).elements) :
    (w'.table c).resources = (w.table c).resources := by
  apply eq_of_forall₂_sublist (h.sub c)
  rw [← (h.ok c).elements,← (hw c).elements,he]

lemma perm_flatMap_update (l : List ℕ) (hl : l.Nodup) (f g : ℕ → List (ResourceRec V)) (c : ℕ)
    (hc : c ∈ l) (r : ResourceRec V) (hf : (f c).Perm (r::g c)) (hg : ∀ d, d ≠ c → g d = f d) :
    (l.flatMap f).Perm (r::l.flatMap g) := by
  induction l with
  | nil => simp at hc
  | cons d l ih =>
    simp only [List.flatMap_cons]
    obtain ⟨hd,hl⟩ := List.nodup_cons.mp hl
    rcases List.mem_cons.mp hc with rfl | hc
    · have hrest : l.flatMap g = l.flatMap f :=
        List.flatMap_congr fun d hd' => hg d (fun e => hd (e ▸ hd'))
      rw [hrest]
      exact hf.append_right _
    · rw [hg d (fun e => hd (e ▸ hc))]
      exact ((ih hl hc).append_left _).trans List.perm_middle

@[simp] lemma World.table_unlink (w : World V) (client j : ℕ) (prev : Prev) (res : ResourceRec V)
    (skip : Option RESTYPE) (c : ℕ) :
    (w.unlink client j prev res skip).table c = if c = client then { w.table client with
      resources := (w.table client).resources.modify j (unlinkNext prev)
      elements := (w.table client).elements-1 } else w.table c := by
  by_cases h : c = client <;> simp [World.unlink,World.table,h]

@[simp] lemma World.table_logDelete (w : World V) (res : ResourceRec V) (c : ℕ) :
    (w.logDelete res).table c = w.table c := rfl

@[simp] lemma World.entries_logDelete (w : World V) (res : ResourceRec V) :
    (w.logDelete res).entries L = w.entries L := rfl

/-- Unlinking one record keeps every table well formed and loses exactly that record. -/
theorem WorldOk.unlink {w : World V} (hw : WorldOk L w) {client j : ℕ} (hcl : client < L.limitClients)
    {pre post : List (ResourceRec V)} {r : ResourceRec V}
    (hc : chain (w.table client).resources j = pre ++ r::post) (skip : Option RESTYPE) :
    WorldOk L (w.unlink client j (prevOf pre) r skip) ∧
    (∀ c, List.Forall₂ List.Sublist ((w.unlink client j (prevOf pre) r skip).table c).resources
      (w.table c).resources) ∧
    (w.entries L).Perm (r::(w.unlink client j (prevOf pre) r skip).entries L) ∧
    chain ((w.unlink client j (prevOf pre) r skip).table client).resources j = pre ++ post := by
  have hnd := (hw client).chain_nodup j
  rw [hc] at hnd
  have hun : unlinkNext (prevOf pre) (chain (w.table client).resources j) = pre ++ post := by
    rw [hc,unlinkNext_prevOf pre r post hnd]
  have hsub : (unlinkNext (prevOf pre) (chain (w.table client).resources j)).Sublist
      (chain (w.table client).resources j) := by
    rw [hun,hc]
    exact List.Sublist.append_left (List.sublist_cons_self r post) pre
  have hperm := perm_flatten_modify _ j (unlinkNext (prevOf pre)) pre r post hc hun
  have hfor := forall₂_sublist_modify _ j (unlinkNext (prevOf pre)) hsub
  have hj : j < (w.table client).resources.length := by
    by_contra hlt
    simp [chain,List.getD_eq_getElem?_getD,List.getElem?_eq_none (not_lt.mp hlt)] at hc
  obtain ⟨hinv,hadr⟩ := (hw client).resolve_left (by
    rintro ⟨_,h,_⟩
    simp [h] at hj)
  have hel : (w.table client).elements - 1 =
      ((w.table client).resources.modify j (unlinkNext (prevOf pre))).flatten.length := by
    have := hperm.length_eq
    rw [hinv.elements,this]
    simp
  refine ⟨?_,?_,?_,?_⟩
  · intro c
    rw [World.table_unlink]
    split_ifs with h
    · subst c
      right
      refine ⟨⟨by simp [hinv.length],hinv.buckets,hinv.hashsize_le,?_,hel,?_⟩,?_⟩
      · exact hinv.placed.modify j _ (fun x hx => hinv.placed j x (hsub.mem hx))
      · exact fun x hx => hinv.owner x ((forall₂_sublist_flatten hfor).mem hx)
      · exact hadr.sublist ((forall₂_sublist_flatten hfor).map _)
    · exact hw c
  · intro c
    rw [World.table_unlink]
    split_ifs with h
    · subst c; exact hfor
    · exact List.forall₂_same.mpr fun b _ => List.Sublist.refl b
  · apply perm_flatMap_update _ List.nodup_range _ _ client (List.mem_range.mpr hcl) r
    · simpa using hperm
    · intro d hd
      simp [hd]
  · simp [chain_modify,hj,hun]

end World
end Xlibre.Dix.Resource
