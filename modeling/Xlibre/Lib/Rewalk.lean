import Mathlib.Data.List.Nodup

/-! A walk along a list that saves the next node before it visits one. The visit of a hot node takes all nodes of its class
off the list; when the saved node was one of them, the walk starts over at the head. -/
namespace Xlibre.Lib.Rewalk

variable {α β : Type*} [DecidableEq α] [DecidableEq β]

/-- The node behind another. -/
def after (l : List α) (t : α) : Option α := (l.dropWhile (· ≠ t)).tail.head?

/-- Where a walk is: its list, and the node to visit. -/
structure Place (α : Type*) where
  list : List α
  next : Option α

/-- The saved node, or the head if that is gone. -/
def resume (l : List α) : Option α → Option α
  | none => none
  | some p => if p ∈ l then some p else l.head?

/-- The visit of a node. -/
def visit (hot : α → Bool) (cls : α → β) (l : List α) (t : α) : Place α :=
  if hot t then
    let l' := l.filter fun u => decide (cls u ≠ cls t)
    ⟨l',resume l' (after l t)⟩
  else ⟨l,after l t⟩

/-- No hot node of the same class is among the nodes. -/
def Alive (hot : α → Bool) (cls : α → β) (seen : List α) (u : α) : Prop := ∀ t ∈ seen, hot t = true → cls t ≠ cls u

instance (hot : α → Bool) (cls : α → β) (seen : List α) (u : α) : Decidable (Alive hot cls seen u) :=
  inferInstanceAs (Decidable (∀ t ∈ seen, hot t = true → cls t ≠ cls u))

/-- The nodes that are left when those seen have been visited. -/
def remain (hot : α → Bool) (cls : α → β) (seen l : List α) : List α := l.filter fun u => decide (Alive hot cls seen u)

/-- Between `pre` and `post` the node is hot, and takes the next node that is left along. -/
structure Restarts (hot : α → Bool) (cls : α → β) (pre : List α) (t : α) (post : List α) : Prop where
  isHot : hot t = true
  alive : Alive hot cls pre t
  lost : ∃ q, (remain hot cls pre post).head? = some q ∧ cls q = cls t

/-- The nodes `seen` have been visited, those of them in `todo` are to be visited again, and then the `rest`. -/
structure Stands (hot : α → Bool) (cls : α → β) (seen todo rest : List α) (s : Place α) : Prop where
  list : s.list = remain hot cls seen (seen ++ rest)
  next : s.next = (todo ++ remain hot cls seen rest).head?
  suffix : todo <:+ remain hot cls seen seen
  again : todo ≠ [] → ∃ pre t, seen = pre ++ [t] ∧ Restarts hot cls pre t rest

section Remain

variable {hot : α → Bool} {cls : α → β} {seen l m : List α} {t u p : α}

lemma after_append (ht : t ∉ l) (m : List α) : after (l ++ t::m) t = m.head? := by
  have hdrop : (l ++ t::m).dropWhile (· ≠ t) = t::m := by
    rw [List.dropWhile_append_of_pos fun u hu => by simpa using fun h : u = t => ht (h ▸ hu)]
    simp
  rw [after,hdrop,List.tail_cons]

omit [DecidableEq α] in
lemma remain_append : remain hot cls seen (l ++ m) = remain hot cls seen l ++ remain hot cls seen m := List.filter_append ..

omit [DecidableEq α] in
lemma mem_remain : u ∈ remain hot cls seen l ↔ u ∈ l ∧ Alive hot cls seen u := by
  rw [remain,List.mem_filter,decide_eq_true_iff]

omit [DecidableEq α] [DecidableEq β] in
lemma alive_append : Alive hot cls (l ++ m) u ↔ Alive hot cls l u ∧ Alive hot cls m u := by
  simp only [Alive,List.forall_mem_append]

omit [DecidableEq α] [DecidableEq β] in
/-- Nodes that are not left add nothing. -/
lemma alive_skip (h : ∀ s ∈ m, ¬Alive hot cls l s) : Alive hot cls (l ++ m) u ↔ Alive hot cls l u := by
  rw [alive_append]
  refine and_iff_left_of_imp fun hl s hs hhot hcls => h s hs ?_
  intro t ht hhot'
  rw [hcls]
  exact hl t ht hhot'

omit [DecidableEq α] in
lemma remain_eq_nil : remain hot cls seen l = [] ↔ ∀ s ∈ l, ¬Alive hot cls seen s := by
  simp [remain,List.filter_eq_nil_iff]

omit [DecidableEq α] in
lemma remain_skip (h : ∀ s ∈ m, ¬Alive hot cls seen s) (l : List α) : remain hot cls (seen ++ m) l = remain hot cls seen l := by
  refine List.filter_congr fun u _ => ?_
  rw [decide_eq_decide]
  exact alive_skip h

omit [DecidableEq α] in
/-- A node that is not hot changes nothing. -/
lemma remain_cold (hp : hot p = false) (l : List α) : remain hot cls (seen ++ [p]) l = remain hot cls seen l := by
  refine List.filter_congr fun u _ => ?_
  rw [decide_eq_decide,alive_append]
  refine and_iff_left fun t ht hhot => ?_
  rw [List.mem_singleton.1 ht,hp] at hhot
  cases hhot

omit [DecidableEq α] in
/-- A hot node takes its class along. -/
lemma remain_hot (hp : hot p = true) (l : List α) :
    remain hot cls (seen ++ [p]) l = (remain hot cls seen l).filter fun u => decide (cls u ≠ cls p) := by
  rw [remain,remain,List.filter_filter]
  refine List.filter_congr fun u _ => ?_
  have halive : Alive hot cls [p] u ↔ cls u ≠ cls p := by
    simp only [Alive,List.mem_singleton,forall_eq]
    exact ⟨fun h => (h hp).symm,fun h _ => h.symm⟩
  rw [← Bool.decide_and,decide_eq_decide,alive_append,halive,and_comm]

omit [DecidableEq α] [DecidableEq β] in
lemma alive_self (h : Alive hot cls seen u) (hu : u ∈ seen) : hot u = false := by
  by_contra hhot
  exact h u hu (by simpa using hhot) rfl

omit [DecidableEq α] in
/-- The first node that is left, with those in front of it. -/
lemma remain_eq_cons (h : remain hot cls seen l = p::m) :
    ∃ skip post, l = skip ++ p::post ∧ (∀ s ∈ skip, ¬Alive hot cls seen s) ∧ Alive hot cls seen p ∧
      remain hot cls seen post = m := by
  obtain ⟨skip,post,rfl,hskip,hp,hm⟩ := List.filter_eq_cons_iff.1 h
  exact ⟨skip,post,rfl,fun s hs => by simpa using hskip s hs,by simpa using hp,hm⟩

end Remain

namespace Stands

variable {hot : α → Bool} {cls : α → β} {seen todo rest : List α} {s : Place α} {p : α}

omit [DecidableEq α] in
lemma start (l : List α) : Stands hot cls [] [] l ⟨l,l.head?⟩ := by
  have hall : remain hot cls [] l = l := List.filter_eq_self.2 fun u _ => decide_eq_true fun t ht => nomatch ht
  exact ⟨hall.symm,by rw [List.nil_append,hall],List.nil_suffix,fun h => absurd rfl h⟩

/-- A node that is visited again is not hot. -/
lemma visit_again (hnd : (seen ++ rest).Nodup) (h : Stands hot cls seen (p::todo) rest s) :
    s.next = some p ∧ p ∈ seen ∧ hot p = false ∧ Stands hot cls seen todo rest (visit hot cls s.list p) := by
  obtain ⟨done,hdone⟩ := h.suffix
  have hp : p ∈ remain hot cls seen seen := by
    rw [← hdone]
    simp
  obtain ⟨hseen,halive⟩ := mem_remain.1 hp
  have hcold := alive_self halive hseen
  have hlist : s.list = done ++ p::(todo ++ remain hot cls seen rest) := by
    rw [h.list,remain_append,← hdone,List.append_assoc,List.cons_append]
  have hnodup : s.list.Nodup := by
    rw [h.list]
    exact hnd.filter _
  have hout : p ∉ done := by
    rw [hlist] at hnodup
    exact fun hmem => (List.disjoint_of_nodup_append hnodup) hmem List.mem_cons_self
  refine ⟨by rw [h.next,List.cons_append,List.head?_cons],hseen,hcold,?_⟩
  rw [visit,hcold]
  refine ⟨h.list,?_,⟨done ++ [p],by rw [List.append_assoc,List.singleton_append,hdone]⟩,fun _ => h.again (by simp)⟩
  rw [if_neg Bool.false_ne_true,hlist,after_append hout]

/-- The first visit of a node. -/
lemma visit_fresh (hnd : (seen ++ rest).Nodup) (h : Stands hot cls seen [] rest s) (hn : s.next = some p) :
    ∃ skip post todo, rest = skip ++ p::post ∧ (∀ u ∈ skip, ¬Alive hot cls seen u) ∧ Alive hot cls seen p ∧
      Stands hot cls (seen ++ skip ++ [p]) todo post (visit hot cls s.list p) ∧
      (Restarts hot cls (seen ++ skip) p post →
        todo = remain hot cls (seen ++ skip ++ [p]) (seen ++ skip ++ [p])) := by
  rw [h.next,List.nil_append] at hn
  obtain ⟨m,hm⟩ := List.head?_eq_some_iff.1 hn
  obtain ⟨skip,post,rfl,hskip,hp,rfl⟩ := remain_eq_cons hm
  have hlist : s.list = remain hot cls seen seen ++ p::remain hot cls seen post := by
    rw [h.list,remain_append,hm]
  have hout : p ∉ remain hot cls seen seen := fun hmem =>
    (List.disjoint_of_nodup_append hnd) (mem_remain.1 hmem).1 (by simp)
  have hafter : after s.list p = (remain hot cls seen post).head? := by
    rw [hlist,after_append hout]
  have hwhole : seen ++ skip ++ [p] ++ post = seen ++ (skip ++ p::post) := by simp
  have hsame : ∀ l, remain hot cls (seen ++ skip) l = remain hot cls seen l := remain_skip hskip
  cases hhot : hot p with
  | false =>
    refine ⟨skip,post,[],rfl,hskip,hp,⟨?_,?_,List.nil_suffix,fun h => absurd rfl h⟩,fun hr => ?_⟩
    · rw [visit,hhot,hwhole,remain_cold hhot,hsame]
      exact h.list
    · rw [visit,hhot,remain_cold hhot,hsame,List.nil_append]
      exact hafter
    · have hh := hr.isHot
      rw [hhot] at hh
      cases hh
  | true =>
    have hleft : s.list.filter (fun u => decide (cls u ≠ cls p)) = remain hot cls (seen ++ skip ++ [p]) (seen ++ skip ++ [p] ++ post) := by
      rw [hwhole,remain_hot hhot,hsame,h.list]
    have hpost : remain hot cls (seen ++ skip ++ [p]) post = (remain hot cls seen post).filter fun u => decide (cls u ≠ cls p) := by
      rw [remain_hot hhot,hsame]
    have hvisit : visit hot cls s.list p = ⟨remain hot cls (seen ++ skip ++ [p]) (seen ++ skip ++ [p] ++ post),
        resume (remain hot cls (seen ++ skip ++ [p]) (seen ++ skip ++ [p] ++ post)) (remain hot cls seen post).head?⟩ := by
      rw [visit,if_pos hhot]
      dsimp only
      rw [hleft,hafter]
    rw [hvisit]
    cases hq : remain hot cls seen post with
    | nil =>
      refine ⟨skip,post,[],rfl,hskip,hp,⟨rfl,?_,List.nil_suffix,fun h => absurd rfl h⟩,fun hr => ?_⟩
      · rw [hpost,hq]
        rfl
      · obtain ⟨q,hq',-⟩ := hr.lost
        rw [hsame,hq] at hq'
        cases hq'
    | cons q m =>
      by_cases hcls : cls q = cls p
      · -- the saved node has gone with the class
        refine ⟨skip,post,_,rfl,hskip,hp,⟨rfl,?_,List.suffix_refl _,fun _ => ⟨seen ++ skip,p,rfl,hhot,?_,q,?_,hcls⟩⟩,fun _ => rfl⟩
        · rw [← remain_append,List.head?_cons,resume,if_neg]
          rw [← hleft]
          simp [hcls]
        · exact (alive_skip hskip).2 hp
        · rw [hsame,hq]
          rfl
      · refine ⟨skip,post,[],rfl,hskip,hp,⟨rfl,?_,List.nil_suffix,fun h => absurd rfl h⟩,fun hr => ?_⟩
        · have hmem : q ∈ remain hot cls (seen ++ skip ++ [p]) (seen ++ skip ++ [p] ++ post) := by
            rw [← hleft,hlist,hq]
            simp [hcls]
          rw [hpost,hq,List.filter_cons_of_pos (by simpa using hcls),List.nil_append,List.head?_cons,List.head?_cons,resume,
            if_pos hmem]
        · obtain ⟨q',hq',hcls'⟩ := hr.lost
          rw [hsame,hq] at hq'
          cases hq'
          exact absurd hcls' hcls

omit [DecidableEq α] in
/-- The walk is over when all have been visited or taken along. -/
lemma finished (h : Stands hot cls seen todo rest s) (hn : s.next = none) :
    todo = [] ∧ remain hot cls seen rest = [] ∧ s.list = remain hot cls (seen ++ rest) (seen ++ rest) := by
  rw [h.next,List.head?_eq_none_iff,List.append_eq_nil_iff] at hn
  refine ⟨hn.1,hn.2,?_⟩
  rw [h.list,remain_skip (remain_eq_nil.1 hn.2)]

end Stands

end Xlibre.Lib.Rewalk
