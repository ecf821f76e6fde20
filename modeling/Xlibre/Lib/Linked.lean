import Mathlib.Data.List.Nodup

/-! Doubly linked lists in which the first node's `prev` is the last node and the last node has no `next`. -/
namespace Xlibre.Lib

variable {α : Type*}

/-- The pointers of a list's nodes and of nodes that are not in it. -/
structure Links (α : Type*) where
  head : α
  next : α → Option α
  prev : α → α

namespace Links

/-- Each node's `next` is the node after it, and the last one's is `e`. -/
def Nexts (next : α → Option α) : List α → Option α → Prop
  | [], _ => True
  | x::l, e => next x = l.head?.or e ∧ Nexts next l e

/-- Each node's `prev` is the node before it, and the first one's is `p`. -/
def Prevs (prev : α → α) : α → List α → Prop
  | _, [] => True
  | p, x::l => prev x = p ∧ Prevs prev x l

/-- Each node's `prev` is the node before it, and the first one's is the last one. -/
def Ring (prev : α → α) : List α → Prop
  | [] => True
  | x::l => Prevs prev (l.getLastD x) (x::l)

/-- The pointers are those of a list. -/
structure Lists (s : Links α) (l : List α) : Prop where
  nodup : l.Nodup
  head : l.head? = some s.head
  nexts : Nexts s.next l none
  ring : Ring s.prev l

/-- The nodes that are met from one on, when a number of steps is allowed. -/
def walk (s : Links α) : ℕ → Option α → List α
  | 0, _ => []
  | _+1, none => []
  | n+1, some x => x::s.walk n (s.next x)

variable {s : Links α} {f f' : α → Option α} {g g' : α → α} {l l' pre post : List α} {a b n p x : α} {e : Option α}

@[simp] lemma nexts_nil : Nexts f [] e := trivial

@[simp] lemma nexts_cons : Nexts f (x::l) e ↔ f x = l.head?.or e ∧ Nexts f l e := Iff.rfl

@[simp] lemma prevs_nil : Prevs g p [] := trivial

@[simp] lemma prevs_cons : Prevs g p (x::l) ↔ g x = p ∧ Prevs g x l := Iff.rfl

lemma nexts_append : Nexts f (l ++ l') e ↔ Nexts f l (l'.head?.or e) ∧ Nexts f l' e := by
  induction l with
  | nil => simp
  | cons x l ih => simp only [List.cons_append,nexts_cons,ih,List.head?_append,Option.or_assoc,and_assoc]

lemma prevs_append : Prevs g p (l ++ l') ↔ Prevs g p l ∧ Prevs g (l.getLastD p) l' := by
  induction l generalizing p with
  | nil => simp
  | cons x l ih => simp only [List.cons_append,prevs_cons,ih,List.getLastD_cons,and_assoc]

lemma Nexts.congr (h : Nexts f l e) (heq : ∀ x ∈ l, f' x = f x) : Nexts f' l e := by
  induction l with
  | nil => trivial
  | cons x l ih =>
    exact ⟨(heq x List.mem_cons_self).trans h.1,ih h.2 fun y hy => heq y (List.mem_cons_of_mem x hy)⟩

lemma Prevs.congr (h : Prevs g p l) (heq : ∀ x ∈ l, g' x = g x) : Prevs g' p l := by
  induction l generalizing p with
  | nil => trivial
  | cons x l ih =>
    exact ⟨(heq x List.mem_cons_self).trans h.1,ih h.2 fun y hy => heq y (List.mem_cons_of_mem x hy)⟩

/-- A walk from a node of a list goes through the rest of the list. -/
lemma Nexts.walk (h : Nexts s.next l none) {k : ℕ} (hk : l.length ≤ k) : s.walk k l.head? = l := by
  induction l generalizing k with
  | nil => cases k <;> rfl
  | cons x l ih =>
    obtain _ | k := k
    · simp at hk
    · rw [List.head?_cons,Links.walk,h.1,Option.or_none,ih h.2 (by simpa using hk)]

lemma Lists.walk (h : s.Lists l) {k : ℕ} (hk : l.length ≤ k) : s.walk k (some s.head) = l := by
  rw [← h.head]
  exact h.nexts.walk hk

lemma getLastD_append_cons : (l ++ a::l').getLastD x = l'.getLastD a := by
  induction l generalizing x with
  | nil => rw [List.nil_append,List.getLastD_cons]
  | cons y l ih => rw [List.cons_append,List.getLastD_cons,ih]

lemma Nexts.last (h : Nexts f (a::l) e) : f (l.getLastD a) = e := by
  induction l generalizing a with
  | nil => exact h.1
  | cons x l ih =>
    rw [List.getLastD_cons]
    exact ih h.2

lemma getLastD_mem : l.getLastD a ∈ a::l := by
  induction l generalizing a with
  | nil => exact List.mem_singleton_self a
  | cons x l ih =>
    rw [List.getLastD_cons]
    exact List.mem_cons_of_mem a ih

/-- A ring has no first node. -/
lemma Ring.rotate (h : Ring g (l ++ l')) : Ring g (l' ++ l) := by
  cases l with
  | nil => rwa [List.append_nil]
  | cons x l =>
    cases l' with
    | nil => rwa [List.append_nil] at h
    | cons y l' =>
      rw [List.cons_append,Ring,getLastD_append_cons,← List.cons_append,prevs_append,List.getLastD_cons] at h
      rw [List.cons_append,Ring,getLastD_append_cons,← List.cons_append,prevs_append,List.getLastD_cons]
      exact h.symm

lemma Lists.next (h : s.Lists (pre ++ a::post)) : s.next a = post.head? := by
  have := (nexts_append.1 h.nexts).2.1
  rwa [Option.or_none] at this

lemma Lists.prev (h : s.Lists (pre ++ a::post)) : s.prev a = (post ++ pre).getLastD a := by
  have hring := h.ring.rotate
  rw [List.cons_append] at hring
  exact hring.1

lemma Lists.head_eq (h : s.Lists (pre ++ a::post)) : s.head = pre.head?.getD a := by
  have := h.head
  cases pre <;> simpa using this.symm

/-- What comes after the last node is changed, and no other pointer of the list. -/
lemma Nexts.relast (h : Nexts f (a::l) e) (hnodup : (a::l).Nodup) {v : Option α} (hlast : f' (l.getLastD a) = v)
    (heq : ∀ x ∈ a::l, x ≠ l.getLastD a → f' x = f x) : Nexts f' (a::l) v := by
  induction l generalizing a with
  | nil => exact ⟨hlast,trivial⟩
  | cons x l ih =>
    rw [List.getLastD_cons] at hlast heq
    have hx : a ≠ l.getLastD x := by
      intro ha
      rw [List.nodup_cons] at hnodup
      exact hnodup.1 (ha ▸ getLastD_mem)
    refine ⟨(heq a (by simp) hx).trans h.1,ih h.2 (List.nodup_cons.1 hnodup).2 hlast fun y hy => ?_⟩
    exact heq y (List.mem_cons_of_mem a hy)

/-- Each node's `back` is the node before it, and the first one's is `p`; nodes outside lists may have none. -/
def Backs (back : α → Option α) : α → List α → Prop
  | _, [] => True
  | p, x::l => back x = some p ∧ Backs back x l

@[simp] lemma backs_nil {b : α → Option α} : Backs b p [] := trivial

@[simp] lemma backs_cons {b : α → Option α} : Backs b p (x::l) ↔ b x = some p ∧ Backs b x l := Iff.rfl

lemma backs_append {b : α → Option α} : Backs b p (l ++ l') ↔ Backs b p l ∧ Backs b (l.getLastD p) l' := by
  induction l generalizing p with
  | nil => simp
  | cons x l ih => simp only [List.cons_append,backs_cons,ih,List.getLastD_cons,and_assoc]

lemma Backs.congr {b b' : α → Option α} (h : Backs b p l) (heq : ∀ x ∈ l, b' x = b x) : Backs b' p l := by
  induction l generalizing p with
  | nil => trivial
  | cons x l ih =>
    exact ⟨(heq x List.mem_cons_self).trans h.1,ih h.2 fun y hy => heq y (List.mem_cons_of_mem x hy)⟩

section Change
variable [DecidableEq α]

/-- The node after `a` is taken out of the list. -/
def removeNext (s : Links α) (a : α) : Links α :=
  let after := (s.next a).bind s.next
  { s with next := Function.update s.next a after, prev := Function.update s.prev (after.getD s.head) a }

/-- A node is put into the list before `a`. -/
def insertBefore (s : Links α) (new a : α) : Links α :=
  let before := s.prev a
  let next := Function.update s.next new (some a)
  let prev := Function.update (Function.update s.prev new before) a new
  if (next before).isSome then ⟨s.head,Function.update next before (some new),prev⟩ else ⟨new,next,prev⟩

/-- A node and the one before it change places. -/
def swapPrev (s : Links α) (a : α) : Links α :=
  let p := s.prev a
  let prev := Function.update s.prev ((s.next a).getD s.head) p
  let inner := (s.next (prev p)).isSome
  let next := if inner then Function.update s.next (prev p) (some a) else s.next
  let head := if inner then s.head else a
  let next := Function.update (Function.update next p (next a)) a (some p)
  let prev := Function.update (Function.update prev a (prev p)) p a
  ⟨if (next (prev a)).isNone then a else head,next,prev⟩

lemma Nexts.update (h : Nexts f l e) {v : Option α} (hx : x ∉ l) : Nexts (Function.update f x v) l e :=
  h.congr fun y hy => Function.update_of_ne (fun heq : y = x => hx (heq ▸ hy)) v f

lemma Prevs.update (h : Prevs g p l) {v : α} (hx : x ∉ l) : Prevs (Function.update g x v) p l :=
  h.congr fun y hy => Function.update_of_ne (fun heq : y = x => hx (heq ▸ hy)) v g

/-- What comes after a list's last node is changed. -/
lemma Nexts.setLast (h : Nexts f (l ++ [a]) e) (hnodup : a ∉ l) {v : Option α} :
    Nexts (Function.update f a v) (l ++ [a]) v := by
  rw [nexts_append] at h ⊢
  exact ⟨h.1.update hnodup,by simp⟩

lemma Ring.removeNext (h : Ring g (a::n::l)) (hnodup : a ∉ l) (hl : l.Nodup) :
    Ring (Function.update g (l.head?.getD a) a) (a::l) := by
  obtain ⟨ha,hn,hl'⟩ := h
  cases l with
  | nil => simp [Ring]
  | cons m l =>
    rw [List.nodup_cons] at hl
    rw [List.mem_cons,not_or] at hnodup
    rw [List.getLastD_cons,List.getLastD_cons] at ha
    refine ⟨?_,?_,hl'.2.update hl.1⟩
    · rw [List.getLastD_cons]
      exact (Function.update_of_ne hnodup.1 a g).trans ha
    · exact Function.update_self m a g

theorem Lists.removeNext (h : s.Lists (pre ++ a::n::post)) : (s.removeNext a).Lists (pre ++ a::post) := by
  have hnext : s.next a = some n := h.next
  have hafter : s.next n = post.head? := by
    have h' : s.Lists (pre ++ [a] ++ n::post) := by simpa using h
    exact h'.next
  have hhead := h.head_eq
  obtain ⟨hpre,-,-,hpost⟩ := nexts_append.1 h.nexts
  have hnodup := h.nodup
  simp only [List.nodup_append',List.nodup_cons,List.mem_cons,not_or,List.disjoint_cons_right] at hnodup
  obtain ⟨hnodpre,⟨⟨han,hapost⟩,-,hnodpost⟩,hapre,-,hdisjoint⟩ := hnodup
  refine ⟨?_,?_,?_,?_⟩
  · simp only [List.nodup_append',List.nodup_cons,List.disjoint_cons_right]
    exact ⟨hnodpre,⟨hapost,hnodpost⟩,hapre,hdisjoint⟩
  · have := h.head
    rw [List.head?_append] at this ⊢
    exact this
  · rw [nexts_append]
    refine ⟨hpre.update hapre,?_,hpost.update hapost⟩
    simp [Links.removeNext,hnext,hafter]
  · have hring : Ring s.prev (a::n::(post ++ pre)) := by simpa using h.ring.rotate
    refine Ring.rotate (l := a::post) ?_
    have := hring.removeNext (by simp [hapost,hapre]) (List.nodup_append'.2 ⟨hnodpost,hnodpre,fun x hx hx' => hdisjoint hx' hx⟩)
    have htarget : (post ++ pre).head?.getD a = (s.next n).getD s.head := by
      rw [hafter,hhead]
      cases post <;> simp
    rw [htarget] at this
    simpa [Links.removeNext,hnext] using this

lemma Ring.insertBefore (h : Ring g (a::l)) (hnew : b ∉ a::l) (hnodup : a ∉ l) :
    Ring (Function.update (Function.update g b (g a)) a b) (b::a::l) := by
  rw [List.mem_cons,not_or] at hnew
  obtain ⟨ha,hl⟩ := h
  refine ⟨?_,by simp,(hl.update hnew.2).update hnodup⟩
  rw [List.getLastD_cons,Function.update_of_ne hnew.1,Function.update_self]
  exact ha

theorem Lists.insertBefore (h : s.Lists (pre ++ a::post)) (hnew : b ∉ pre ++ a::post) :
    (s.insertBefore b a).Lists (pre ++ b::a::post) := by
  obtain ⟨hpre,ha,hpost⟩ := nexts_append.1 h.nexts
  have hnodup := h.nodup
  simp only [List.nodup_append',List.nodup_cons,List.disjoint_cons_right] at hnodup
  obtain ⟨hnodpre,⟨hapost,hnodpost⟩,hapre,hdisjoint⟩ := hnodup
  simp only [List.mem_append,List.mem_cons,not_or] at hnew
  obtain ⟨hbpre,hba,hbpost⟩ := hnew
  have hnodup' : (pre ++ b::a::post).Nodup := by
    simp only [List.nodup_append',List.nodup_cons,List.disjoint_cons_right,List.mem_cons,not_or]
    exact ⟨hnodpre,⟨⟨hba,hbpost⟩,hapost,hnodpost⟩,hbpre,hapre,hdisjoint⟩
  have hring : Ring (s.insertBefore b a).prev (pre ++ b::a::post) := by
    have hrotated : Ring s.prev (a::(post ++ pre)) := by simpa using h.ring.rotate
    have := hrotated.insertBefore (b := b) (by simp [hba,hbpre,hbpost]) (by simp [hapre,hapost])
    refine Ring.rotate (l := b::a::post) ?_
    unfold Links.insertBefore
    dsimp only
    split_ifs <;> simpa using this
  have hprev := h.prev
  -- the pointer to the new node is in the node before it, or the new node is the first one
  obtain rfl | ⟨pre,p,rfl⟩ := pre.eq_nil_or_concat
  · have hlast : Function.update s.next b (some a) (s.prev a) = none := by
      rw [hprev,List.append_nil,Function.update_of_ne]
      · exact h.nexts.last
      · rintro rfl
        exact (List.nodup_cons.1 hnodup').1 getLastD_mem
    have heq : s.insertBefore b a =
        ⟨b,Function.update s.next b (some a),Function.update (Function.update s.prev b (s.prev a)) a b⟩ := by
      simp [Links.insertBefore,hlast]
    refine ⟨hnodup',by rw [heq]; rfl,?_,hring⟩
    rw [heq]
    refine ⟨by simp,?_,hpost.update hbpost⟩
    exact (Function.update_of_ne (Ne.symm hba) _ _).trans ha
  · rw [List.concat_eq_append] at *
    have hp : s.prev a = p := by rw [hprev]; simp
    have hpb : b ≠ p := by
      rintro rfl
      simp at hbpre
    have hpn : s.next p = some a := by
      have h' : s.Lists (pre ++ p::a::post) := by simpa using h
      exact h'.next
    have heq : s.insertBefore b a = ⟨s.head,Function.update (Function.update s.next b (some a)) p (some b),
        Function.update (Function.update s.prev b p) a b⟩ := by
      simp [Links.insertBefore,hp,hpn,hpb.symm]
    have hppre : p ∉ pre := by
      rw [List.nodup_append'] at hnodpre
      exact fun hmem => hnodpre.2.2 hmem (List.mem_singleton_self p)
    have hpa : a ≠ p := by
      rintro rfl
      simp at hapre
    refine ⟨hnodup',?_,?_,hring⟩
    · have := h.head
      rw [heq]
      simpa [List.head?_append] using this
    · rw [heq,nexts_append]
      refine ⟨(hpre.update hbpre).setLast hppre,?_,?_,(hpost.update hbpost).update fun hmem => ?_⟩
      · exact (Function.update_of_ne hpb _ _).trans (Function.update_self _ _ _)
      · exact (Function.update_of_ne hpa _ _).trans ((Function.update_of_ne (Ne.symm hba) _ _).trans ha)
      · exact hdisjoint (by simp) hmem

lemma Ring.swap (h : Ring g (p::a::l)) (hnodup : (p::a::l).Nodup) :
    Ring (Function.update (Function.update (Function.update g (l.head?.getD p) p) a
      (Function.update g (l.head?.getD p) p p)) p a) (a::p::l) := by
  rw [List.nodup_cons,List.nodup_cons,List.mem_cons,not_or] at hnodup
  obtain ⟨⟨hpa,hpl⟩,hal,hl⟩ := hnodup
  obtain ⟨hp,ha,htail⟩ := h
  cases l with
  | nil => simp [Ring,Ne.symm hpa]
  | cons m l =>
    rw [List.mem_cons,not_or] at hpl hal
    rw [List.nodup_cons] at hl
    rw [List.getLastD_cons,List.getLastD_cons] at hp
    have hfirst : Function.update g m p p = g p := Function.update_of_ne hpl.1 p g
    rw [List.head?_cons,Option.getD_some,hfirst]
    refine ⟨?_,by simp,?_,((htail.2.update hl.1).update hal.2).update hpl.2⟩
    · rw [List.getLastD_cons,List.getLastD_cons,Function.update_of_ne (Ne.symm hpa),Function.update_self,hp]
    · rw [Function.update_of_ne (Ne.symm hpl.1),Function.update_of_ne (Ne.symm hal.1),Function.update_self]

theorem Lists.swapPrev (h : s.Lists (pre ++ p::a::post)) : (s.swapPrev a).Lists (pre ++ a::p::post) := by
  have h' : s.Lists (pre ++ [p] ++ a::post) := by simpa using h
  have hprev : s.prev a = p := by rw [h'.prev,← List.append_assoc]; simp
  have hnext : s.next a = post.head? := h'.next
  have hnextp : s.next p = some a := h.next
  have hhead := h.head_eq
  have hnodup := h.nodup
  have hrotated : Ring s.prev (p::a::(post ++ pre)) := by simpa using h.ring.rotate
  have hnodup' : (p::a::post ++ pre).Nodup := List.perm_append_comm.nodup_iff.2 hnodup
  have hring : Ring (s.swapPrev a).prev (pre ++ a::p::post) := by
    have htarget : (post ++ pre).head?.getD p = post.head?.getD s.head := by
      rw [hhead]
      cases post <;> simp
    have := hrotated.swap hnodup'
    rw [htarget] at this
    refine Ring.rotate (l := a::p::post) ?_
    simpa [Links.swapPrev,hprev,hnext] using this
  simp only [List.nodup_append',List.nodup_cons,List.disjoint_cons_right,List.mem_cons,not_or] at hnodup
  obtain ⟨hnodpre,⟨⟨hpa,hppost⟩,hapost,hnodpost⟩,hppre,hapre,hdisjoint⟩ := hnodup
  have hresult : (pre ++ a::p::post).Nodup := by
    simp only [List.nodup_append',List.nodup_cons,List.disjoint_cons_right,List.mem_cons,not_or]
    exact ⟨hnodpre,⟨⟨Ne.symm hpa,hapost⟩,hppost,hnodpost⟩,hapre,hppre,hdisjoint⟩
  obtain ⟨hpre,-,-,hpost⟩ := nexts_append.1 h.nexts
  have hrest {f : α → Option α} (hf : ∀ x ∈ post, f x = s.next x) (hfa : f a = some p) (hfp : f p = post.head?) :
      Nexts f (a::p::post) none :=
    ⟨by simpa using hfa,by simpa using hfp,hpost.congr hf⟩
  obtain rfl | ⟨pre,q,rfl⟩ := pre.eq_nil_or_concat
  · cases post with
    | nil =>
      have heq : s.swapPrev a = ⟨a,Function.update (Function.update s.next p none) a (some p),(s.swapPrev a).prev⟩ := by
        simp only [List.head?_nil,Option.getD_none] at hnext hhead
        simp [Links.swapPrev,hprev,hnext,hhead,hnextp,hpa,Ne.symm hpa]
      rw [heq]
      refine ⟨hresult,rfl,hrest (fun x hx => nomatch hx) (by simp) ?_,heq ▸ hring⟩
      simp [hpa]
    | cons m post =>
      rw [List.mem_cons,not_or] at hppost hapost
      obtain ⟨w,hlast,hnone⟩ : ∃ w, s.prev p = w ∧ s.next w = none := by
        refine ⟨post.getLastD m,?_,hpost.last⟩
        rw [h.prev,List.append_nil,List.getLastD_cons,List.getLastD_cons]
      have heq : s.swapPrev a =
          ⟨a,Function.update (Function.update s.next p (some m)) a (some p),(s.swapPrev a).prev⟩ := by
        simp only [List.head?_cons] at hnext
        simp [Links.swapPrev,hprev,hnext,hppost.1,hlast,hnone]
      rw [heq]
      refine ⟨hresult,rfl,hrest (fun x hx => ?_) (by simp) (by simp [hpa]),heq ▸ hring⟩
      dsimp only
      rw [Function.update_of_ne,Function.update_of_ne]
      · rintro rfl
        exact (List.mem_cons.1 hx).elim hppost.1 hppost.2
      · rintro rfl
        exact (List.mem_cons.1 hx).elim hapost.1 hapost.2
  · rw [List.concat_eq_append] at *
    have h'' : s.Lists (pre ++ q::p::a::post) := by simpa using h
    have hnextq : s.next q = some p := h''.next
    have hprevp : s.prev p = q := by
      rw [h.prev,List.cons_append,List.getLastD_cons,← List.append_assoc,getLastD_append_cons]
      rfl
    have hqp : q ≠ p := by
      rintro rfl
      simp at hppre
    have hqa : q ≠ a := by
      rintro rfl
      simp at hapre
    have hqpost : q ∉ post := fun hmem => hdisjoint (by simp) hmem
    have hqpre : q ∉ pre := by
      rw [List.nodup_append'] at hnodpre
      exact fun hmem => hnodpre.2.2 hmem (List.mem_singleton_self q)
    have htarget : post.head?.getD s.head ≠ p := by
      rw [hhead]
      cases post with
      | nil =>
        cases pre with
        | nil => simpa using hqp
        | cons y pre =>
          intro heq
          exact hppre (heq ▸ List.mem_cons_self)
      | cons m post =>
        intro heq
        exact hppost (heq ▸ List.mem_cons_self)
    have heq : s.swapPrev a = ⟨s.head,Function.update (Function.update (Function.update s.next q (some a)) p post.head?) a
        (some p),(s.swapPrev a).prev⟩ := by
      simp [Links.swapPrev,hprev,hnext,Ne.symm htarget,hprevp,hnextq,hqp,hqa,Ne.symm hqa,Ne.symm hpa]
    rw [heq]
    refine ⟨hresult,?_,?_,heq ▸ hring⟩
    · have := h.head
      simpa [List.head?_append] using this
    · rw [nexts_append]
      refine ⟨((hpre.setLast hqpre).update hppre).update hapre,hrest (fun x hx => ?_) (by simp) (by simp [hpa])⟩
      dsimp only
      rw [Function.update_of_ne,Function.update_of_ne,Function.update_of_ne]
      · exact fun heq => hqpost (heq ▸ hx)
      · exact fun heq => hppost (heq ▸ hx)
      · exact fun heq => hapost (heq ▸ hx)

end Change

end Links

end Xlibre.Lib
