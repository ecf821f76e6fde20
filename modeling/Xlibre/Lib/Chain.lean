import Xlibre.Lib.Linked

/-! Doubly linked lists with a first and a last node, which have null pointers outwards. -/
namespace Xlibre.Lib

/-- The pointers of a list. -/
@[ext]
structure Chain (α : Type*) where
  first : Option α
  last : Option α
  next : α → Option α
  prev : α → Option α

namespace Chain
open Links

variable {α : Type*}

/-- All pointers describe one list. -/
structure Lists (s : Chain α) (l : List α) : Prop where
  nodup : l.Nodup
  first : s.first = l.head?
  last : s.last = l.getLast?
  nexts : Nexts s.next l none
  prevs : Nexts s.prev l.reverse none

/-- The first node from a place on that meets a condition, when a number of steps is allowed. -/
def search (s : Chain α) (p : α → Bool) : ℕ → Option α → Option α
  | 0,_ => none
  | _+1,none => none
  | n+1,some x => if p x then some x else s.search p n (s.next x)

variable {s : Chain α} {l pre post : List α} {a x : α}

lemma Lists.next (h : s.Lists (pre ++ a::post)) : s.next a = post.head? := by
  have hnext := (nexts_append.1 h.nexts).2.1
  rwa [Option.or_none] at hnext

lemma Lists.prev (h : s.Lists (pre ++ a::post)) : s.prev a = pre.getLast? := by
  have hprevs := h.prevs
  rw [List.reverse_append,List.reverse_cons,List.append_assoc,List.singleton_append] at hprevs
  have hprev := (nexts_append.1 hprevs).2.1
  rwa [Option.or_none,List.head?_reverse] at hprev

/-- A search along a list. -/
lemma search_eq (p : α → Bool) (h : Nexts s.next l none) {n : ℕ} (hn : l.length < n) :
    s.search p n l.head? = l.find? p := by
  induction l generalizing n with
  | nil =>
    cases n with
    | zero => exact absurd hn (Nat.not_lt_zero _)
    | succ n => rfl
  | cons x l ih =>
    cases n with
    | zero => exact absurd hn (Nat.not_lt_zero _)
    | succ n =>
      have hnext : s.next x = l.head? := by rw [h.1,Option.or_none]
      rw [List.head?_cons,search,List.find?_cons,hnext,ih h.2 (Nat.lt_of_succ_lt_succ hn)]
      cases p x <;> rfl

section Change
variable [DecidableEq α]

/-- A pointer of the node, if there is one. -/
def repoint (f : α → Option α) (p v : Option α) : α → Option α :=
  match p with
  | none => f
  | some a => Function.update f a v

/-- The node is taken out of the list. -/
def remove (s : Chain α) (a : α) : Chain α where
  first := if s.first = some a then s.next a else s.first
  last := if s.last = some a then s.prev a else s.last
  next := repoint s.next (s.prev a) (s.next a)
  prev := repoint s.prev (s.next a) (s.prev a)

/-- The node is put into the list between two others. -/
def insert (s : Chain α) (a : α) (before after : Option α) : Chain α where
  first := if before.isNone then some a else s.first
  last := if after.isNone then some a else s.last
  next := repoint (Function.update s.next a after) before (some a)
  prev := repoint (Function.update s.prev a before) after (some a)

variable {f : α → Option α}

lemma repoint_of_ne {p v : Option α} (h : p ≠ some x) : repoint f p v x = f x := by
  cases p with
  | none => rfl
  | some a =>
    have hx : x ≠ a := fun he => h (he ▸ rfl)
    exact Function.update_of_ne hx v f

/-- What the last node of the front part points to is changed. -/
lemma nexts_repoint {e : Option α} (h : Nexts f pre e) (hnd : pre.Nodup) (v : Option α) :
    Nexts (repoint f pre.getLast? v) pre v := by
  obtain rfl | ⟨m,p,rfl⟩ := List.eq_nil_or_concat pre
  · trivial
  · rw [List.concat_eq_append] at *
    rw [List.getLast?_concat]
    refine h.setLast fun hp => ?_
    exact (List.disjoint_of_nodup_append hnd) hp (List.mem_singleton_self p)

/-- No other list is touched. -/
lemma nexts_repoint_of_disjoint {e p v : Option α} (h : Nexts f l e) (hp : ∀ a, p = some a → a ∉ l) :
    Nexts (repoint f p v) l e := by
  cases p with
  | none => exact h
  | some a => exact h.update (hp a rfl)

omit [DecidableEq α] in
lemma not_mem_of_getLast {e : α} (hnd : (pre ++ post).Nodup) (he : pre.getLast? = some e) : e ∉ post :=
  (List.disjoint_of_nodup_append hnd) (List.mem_of_getLast? he)

/-- A node is left out. -/
lemma nexts_skip (h : Nexts f (pre ++ a::post) none) (hnd : (pre ++ a::post).Nodup) :
    Nexts (repoint f pre.getLast? post.head?) (pre ++ post) none := by
  obtain ⟨hpre,-,hpost⟩ := nexts_append.1 h
  rw [nexts_append,Option.or_none]
  refine ⟨nexts_repoint hpre hnd.of_append_left _,nexts_repoint_of_disjoint hpost fun e he hm => ?_⟩
  exact not_mem_of_getLast hnd he (List.mem_cons_of_mem a hm)

/-- A node is put in between. -/
lemma nexts_link (h : Nexts f (pre ++ post) none) (hnd : (pre ++ a::post).Nodup) :
    Nexts (repoint (Function.update f a post.head?) pre.getLast? (some a)) (pre ++ a::post) none := by
  obtain ⟨hpre,hpost⟩ := nexts_append.1 h
  have hout := (List.nodup_cons.1 (List.nodup_middle.1 hnd)).1
  rw [List.mem_append,not_or] at hout
  have hlast : ∀ e, pre.getLast? = some e → e ∉ a::post := fun e he => not_mem_of_getLast hnd he
  rw [nexts_append]
  refine ⟨nexts_repoint (hpre.update hout.1) hnd.of_append_left _,?_,?_⟩
  · rw [repoint_of_ne fun he => hlast a he List.mem_cons_self,Function.update_self,Option.or_none]
  · refine nexts_repoint_of_disjoint (hpost.update hout.2) fun e he hm => ?_
    exact hlast e he (List.mem_cons_of_mem a hm)

theorem Lists.remove (h : s.Lists (pre ++ a::post)) : (s.remove a).Lists (pre ++ post) := by
  have hnext := h.next
  have hprev := h.prev
  have hout := List.nodup_cons.1 (List.nodup_middle.1 h.nodup)
  have hrev : (pre ++ a::post).reverse = post.reverse ++ a::pre.reverse := by simp
  have hprevs := h.prevs
  rw [hrev] at hprevs
  refine ⟨hout.2,?_,?_,?_,?_⟩
  · change (if s.first = some a then s.next a else s.first) = _
    rw [h.first,hnext]
    cases pre with
    | nil => exact if_pos rfl
    | cons x pre => exact if_neg fun he => hout.1 (by simp [← Option.some.inj he])
  · change (if s.last = some a then s.prev a else s.last) = _
    rw [h.last,hprev,List.getLast?_append,List.getLast?_append,List.getLast?_cons]
    obtain rfl | ⟨m,x,rfl⟩ := List.eq_nil_or_concat post
    · exact if_pos rfl
    · rw [List.concat_eq_append,List.getLast?_concat]
      refine if_neg fun he => hout.1 ?_
      simp at he
      simp [he]
  · change Nexts (repoint s.next (s.prev a) (s.next a)) _ none
    rw [hnext,hprev]
    exact nexts_skip h.nexts h.nodup
  · change Nexts (repoint s.prev (s.next a) (s.prev a)) _ none
    rw [hnext,hprev,List.reverse_append,← List.head?_reverse,← List.getLast?_reverse (l := post)]
    exact nexts_skip hprevs (hrev ▸ List.nodup_reverse.2 h.nodup)

theorem Lists.insert (h : s.Lists (pre ++ post)) (ha : a ∉ pre ++ post) :
    (s.insert a pre.getLast? post.head?).Lists (pre ++ a::post) := by
  have hnd : (pre ++ a::post).Nodup := List.nodup_middle.2 (List.nodup_cons.2 ⟨ha,h.nodup⟩)
  have hrev : (pre ++ a::post).reverse = post.reverse ++ a::pre.reverse := by simp
  have hprevs := h.prevs
  rw [List.reverse_append] at hprevs
  refine ⟨hnd,?_,?_,?_,?_⟩
  · change (if pre.getLast?.isNone then some a else s.first) = _
    rw [h.first]
    obtain rfl | ⟨m,x,rfl⟩ := List.eq_nil_or_concat pre
    · rfl
    · cases m <;> simp
  · change (if post.head?.isNone then some a else s.last) = _
    rw [h.last]
    cases post with
    | nil => simp
    | cons x post => simp
  · exact nexts_link h.nexts hnd
  · rw [hrev]
    change Nexts (repoint (Function.update s.prev a pre.getLast?) post.head? (some a)) _ none
    rw [← List.head?_reverse,← List.getLast?_reverse (l := post)]
    exact nexts_link hprevs (hrev ▸ List.nodup_reverse.2 hnd)

end Change

end Chain

end Xlibre.Lib
