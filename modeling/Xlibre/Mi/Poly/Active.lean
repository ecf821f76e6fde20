import Mathlib.Data.List.Induction
import Xlibre.Lib.Linked
import Xlibre.Mi.Poly.Fill

/-! The active edge table as a list: loading a bucket, sorting, and leaving an edge. -/
namespace Xlibre.Mi.Poly

open Lib.Links

structure Active (h : Heap) (l : List Node) : Prop where
  nexts : Nexts h.next (.aet::l) none
  backs : Backs h.back .aet l
  nodup : (Node.aet::l).Nodup

structure SameEdges (h h' : Heap) : Prop where
  ymax : h'.ymax = h.ymax
  clockWise : h'.clockWise = h.clockWise
  bres : h'.bres = h.bres

lemma SameEdges.refl (h : Heap) : SameEdges h h := ⟨rfl,rfl,rfl⟩

lemma SameEdges.trans {h h' h'' : Heap} (h₁ : SameEdges h h') (h₂ : SameEdges h' h'') : SameEdges h h'' :=
  ⟨h₂.ymax.trans h₁.ymax,h₂.clockWise.trans h₁.clockWise,h₂.bres.trans h₁.bres⟩

lemma SameEdges.minor {h h' : Heap} (hs : SameEdges h h') : h'.minor = h.minor := by
  funext n
  simp only [Heap.minor,hs.bres]

variable {h h' : Heap} {pre post rest es : List Node} {l : List Node} {a e x : Node}

lemma Active.next_last (hA : Active h (pre ++ rest)) : h.next (pre.getLastD .aet) = rest.head? := by
  have hnexts := hA.nexts
  rw [← List.cons_append,nexts_append] at hnexts
  simpa using hnexts.1.last

lemma Active.next (hA : Active h (pre ++ x::post)) : h.next x = post.head? := by
  have hA' : Active h ((pre ++ [x]) ++ post) := by simpa using hA
  simpa using hA'.next_last

lemma Active.head (hA : Active h l) : h.next .aet = l.head? := by
  have hA' : Active h ([] ++ l) := hA
  simpa using hA'.next_last

lemma Active.back (hA : Active h (pre ++ x::post)) : h.back x = some (pre.getLastD .aet) :=
  (backs_append.1 hA.backs).2.1

lemma Active.congr (hA : Active h l) (hnext : ∀ n ∈ Node.aet::l, h'.next n = h.next n)
    (hback : ∀ n ∈ l, h'.back n = h.back n) : Active h' l :=
  ⟨hA.nexts.congr hnext,hA.backs.congr hback,hA.nodup⟩

lemma Active.insert {p : Node} (hp : pre.getLastD .aet = p) (hA : Active h (pre ++ rest)) (hnew : e ∉ Node.aet::(pre ++ rest))
    (hnexte : h'.next e = rest.head?) (hnextp : h'.next p = some e)
    (hnext : ∀ n, n ≠ e → n ≠ p → h'.next n = h.next n)
    (hbacke : h'.back e = some p) (hbacka : ∀ a, rest.head? = some a → h'.back a = some e)
    (hback : ∀ n, n ≠ e → rest.head? ≠ some n → h'.back n = h.back n) : Active h' (pre ++ e::rest) := by
  subst hp
  have hnodup := hA.nodup
  rw [← List.cons_append,List.nodup_append'] at hnodup
  obtain ⟨hpre,hrest,hdisjoint⟩ := hnodup
  rw [← List.cons_append,List.mem_append,not_or] at hnew
  have hnexts := hA.nexts
  rw [← List.cons_append,nexts_append] at hnexts
  have hbacks := backs_append.1 hA.backs
  refine ⟨?_,?_,?_⟩
  · rw [← List.cons_append,nexts_append]
    refine ⟨hnexts.1.relast hpre (by simpa using hnextp) fun n hn hne => ?_,by simpa using hnexte,?_⟩
    · exact hnext n (fun heq => hnew.1 (heq ▸ hn)) hne
    · refine hnexts.2.congr fun n hn => hnext n (fun heq => hnew.2 (heq ▸ hn)) fun heq => ?_
      exact hdisjoint (heq ▸ getLastD_mem) hn
  · rw [backs_append]
    refine ⟨hbacks.1.congr fun n hn => hback n ?_ ?_,hbacke,?_⟩
    · rintro rfl
      exact hnew.1 (List.mem_cons_of_mem _ hn)
    · intro heq
      exact hdisjoint (List.mem_cons_of_mem _ hn) (List.mem_of_mem_head? heq)
    · cases rest with
      | nil => trivial
      | cons b rest =>
        refine ⟨hbacka b rfl,hbacks.2.2.congr fun n hn => hback n ?_ ?_⟩
        · rintro rfl
          exact hnew.2 (List.mem_cons_of_mem _ hn)
        · rintro heq
          obtain rfl := Option.some.inj heq
          exact (List.nodup_cons.1 hrest).1 hn
  · rw [← List.cons_append,List.nodup_append']
    refine ⟨hpre,List.nodup_cons.2 ⟨hnew.2,hrest⟩,?_⟩
    intro n hn hn'
    obtain rfl | hn' := List.mem_cons.1 hn'
    · exact hnew.1 hn
    · exact hdisjoint hn hn'

lemma Active.remove {p : Node} (hp : pre.getLastD .aet = p) (hA : Active h (pre ++ x::post))
    (hnextp : h'.next p = post.head?)
    (hnext : ∀ n, n ≠ p → h'.next n = h.next n)
    (hbacka : ∀ a, post.head? = some a → h'.back a = some p)
    (hback : ∀ n, post.head? ≠ some n → h'.back n = h.back n) : Active h' (pre ++ post) := by
  subst hp
  have hnodup := hA.nodup
  rw [← List.cons_append,List.nodup_append'] at hnodup
  obtain ⟨hpre,hxpost,hdisjoint⟩ := hnodup
  have hpost := (List.nodup_cons.1 hxpost).2
  have hnexts := hA.nexts
  rw [← List.cons_append,nexts_append] at hnexts
  have hbacks := backs_append.1 hA.backs
  refine ⟨?_,?_,?_⟩
  · rw [← List.cons_append,nexts_append]
    refine ⟨hnexts.1.relast hpre (by simpa using hnextp) fun n _ hne => hnext n hne,?_⟩
    refine hnexts.2.2.congr fun n hn => hnext n fun heq => ?_
    exact hdisjoint (heq ▸ getLastD_mem) (List.mem_cons_of_mem x hn)
  · rw [backs_append]
    refine ⟨hbacks.1.congr fun n hn => hback n fun heq => ?_,?_⟩
    · exact hdisjoint (List.mem_cons_of_mem _ hn) (List.mem_cons_of_mem x (List.mem_of_mem_head? heq))
    · cases post with
      | nil => trivial
      | cons b post =>
        refine ⟨hbacka b rfl,hbacks.2.2.2.congr fun n hn => hback n fun heq => ?_⟩
        obtain rfl := Option.some.inj heq
        exact (List.nodup_cons.1 hpost).1 hn
  · rw [← List.cons_append,List.nodup_append']
    exact ⟨hpre,hpost,fun n hn hn' => hdisjoint hn (List.mem_cons_of_mem x hn')⟩

/-- A sorted bucket merged into the active edges: before an edge with the same `minor`. -/
def merge (h : Heap) (l es : List Node) : List Node := List.merge l es fun a e => decide (h.minor a < h.minor e)

lemma merge_perm (h : Heap) (l es : List Node) : (merge h l es).Perm (l ++ es) := List.merge_perm_append _

/-- Sorted by `minor`. -/
def Sorted (h : Heap) (l : List Node) : Prop := l.Pairwise fun a b => h.minor a ≤ h.minor b

lemma merge_sorted {l es : List Node} (hl : Sorted h l) (hes : Sorted h es) : Sorted h (merge h l es) := by
  unfold merge
  induction l generalizing es with
  | nil => simpa using hes
  | cons a l ihl =>
    induction es with
    | nil => simpa using hl
    | cons e es ihes =>
      obtain ⟨ha,hl'⟩ := List.pairwise_cons.1 hl
      obtain ⟨he,hes'⟩ := List.pairwise_cons.1 hes
      rw [List.cons_merge_cons]
      split_ifs with hlt
      · rw [decide_eq_true_eq] at hlt
        refine List.pairwise_cons.2 ⟨fun n hn => ?_,ihl hl' hes⟩
        obtain hn | hn := List.mem_append.1 ((merge_perm h l (e::es)).mem_iff.1 hn)
        · exact ha n hn
        · obtain rfl | hn := List.mem_cons.1 hn
          · exact hlt.le
          · exact hlt.le.trans (he n hn)
      · rw [decide_eq_true_eq,not_lt] at hlt
        refine List.pairwise_cons.2 ⟨fun n hn => ?_,ihes hes'⟩
        obtain hn | hn := List.mem_append.1 ((merge_perm h (a::l) es).mem_iff.1 hn)
        · obtain rfl | hn := List.mem_cons.1 hn
          · exact hlt
          · exact hlt.trans (ha n hn)
        · exact he n hn

lemma load_one {p : Node} (hp : pre.getLastD .aet = p) (hA : Active h (pre ++ rest))
    (hnew : e ∉ Node.aet::(pre ++ rest)) {h' : Heap}
    (hh : h' = match rest.head? with
      | some a => (((h.setNext e (some a)).setBack a (some e)).setBack e (some p)).setNext p (some e)
      | none => ((h.setNext e none).setBack e (some p)).setNext p (some e)) :
    Active h' (pre ++ e::rest) ∧ SameEdges h h' ∧ h'.nextWETE = h.nextWETE ∧
      ∀ n, n ∉ Node.aet::(pre ++ e::rest) → h'.next n = h.next n := by
  have hpmem : p ∈ Node.aet::pre := hp ▸ getLastD_mem
  have hpe : e ≠ p := by
    rintro rfl
    apply hnew
    rw [← List.cons_append]
    exact List.mem_append_left _ hpmem
  have hout : ∀ n, n ∉ Node.aet::(pre ++ e::rest) → n ≠ e ∧ n ≠ p := by
    intro n hn
    rw [← List.cons_append,List.mem_append,List.mem_cons (a := n) (b := e),not_or,not_or] at hn
    exact ⟨hn.2.1,fun heq => hn.1 (heq ▸ hpmem)⟩
  cases rest with
  | nil =>
    simp only [List.head?_nil] at hh
    subst hh
    refine ⟨hA.insert hp hnew ?_ ?_ ?_ ?_ ?_ ?_,⟨rfl,rfl,rfl⟩,rfl,?_⟩
    · simp [Heap.setNext,Heap.setBack,hpe]
    · simp [Heap.setNext,Heap.setBack]
    · intro n hne hnp
      simp [Heap.setNext,Heap.setBack,hne,hnp]
    · simp [Heap.setNext,Heap.setBack]
    · simp
    · intro n hne _
      simp [Heap.setNext,Heap.setBack,hne]
    · intro n hn
      simp [Heap.setNext,Heap.setBack,hout n hn]
  | cons a rest =>
    have hae : a ≠ e := by rintro rfl; simp at hnew
    simp only [List.head?_cons] at hh
    subst hh
    refine ⟨hA.insert hp hnew ?_ ?_ ?_ ?_ ?_ ?_,⟨rfl,rfl,rfl⟩,rfl,?_⟩
    · simp [Heap.setNext,Heap.setBack,hpe]
    · simp [Heap.setNext,Heap.setBack]
    · intro n hne hnp
      simp [Heap.setNext,Heap.setBack,hne,hnp]
    · simp [Heap.setNext,Heap.setBack]
    · intro b hb
      obtain rfl := Option.some.inj hb
      simp [Heap.setNext,Heap.setBack,hae]
    · intro n hne hna
      have : n ≠ a := by rintro rfl; simp at hna
      simp [Heap.setNext,Heap.setBack,hne,this]
    · intro n hn
      simp [Heap.setNext,Heap.setBack,hout n hn]

lemma miloadAET_merge {n : ℕ} (hA : Active h (pre ++ rest)) (hes : Nexts h.next es none)
    (hnodup : (Node.aet::(pre ++ rest) ++ es).Nodup) (hn : rest.length+es.length < n) :
    ∃ h', miloadAET n h (pre.getLastD .aet) rest.head? es.head? = some h' ∧ Active h' (pre ++ merge h rest es) ∧
      SameEdges h h' ∧ h'.nextWETE = h.nextWETE ∧
      ∀ n, n ∉ Node.aet::(pre ++ rest) ++ es → h'.next n = h.next n := by
  induction n generalizing h pre rest es with
  | zero => omega
  | succ n ih =>
    cases es with
    | nil =>
      refine ⟨h,?_,?_,SameEdges.refl h,rfl,fun _ _ => rfl⟩
      · cases rest <;> rfl
      · simpa [merge] using hA
    | cons e es =>
      have hmem : e ∉ Node.aet::(pre ++ rest) := fun hmem =>
        (List.nodup_append'.1 hnodup).2.2 hmem List.mem_cons_self
      have hes' : e ∉ es ∧ es.Nodup := List.nodup_cons.1 (List.nodup_append'.1 hnodup).2.1
      -- the first edge of the bucket goes before `rest`
      have hinsert : ∀ h₁, Active h₁ (pre ++ e::rest) → SameEdges h h₁ → h₁.nextWETE = h.nextWETE →
          (∀ n, n ∉ Node.aet::(pre ++ e::rest) → h₁.next n = h.next n) →
          merge h rest (e::es) = e::merge h rest es →
          ∃ h', miloadAET n h₁ e rest.head? es.head? = some h' ∧ Active h' (pre ++ merge h rest (e::es)) ∧
            SameEdges h h' ∧ h'.nextWETE = h.nextWETE ∧
            ∀ n, n ∉ Node.aet::(pre ++ rest) ++ e::es → h'.next n = h.next n := by
        intro h₁ hA₁ hs₁ hw₁ hframe hmerge
        have hA₁' : Active h₁ ((pre ++ [e]) ++ rest) := by simpa using hA₁
        have hperm : (Node.aet::((pre ++ [e]) ++ rest) ++ es).Perm (Node.aet::(pre ++ rest) ++ e::es) := by
          simp only [List.cons_append,List.append_assoc,List.perm_cons]
          apply List.Perm.append_left
          have hmid : (e::(rest ++ es)).Perm (rest ++ e::es) := List.perm_middle.symm
          simpa using hmid
        have hnodup₁ := hperm.nodup_iff.2 hnodup
        have hes₁ : Nexts h₁.next es none := by
          refine hes.2.congr fun m hm => hframe m fun hin => ?_
          have hin' : m ∈ Node.aet::((pre ++ [e]) ++ rest) := by simpa using hin
          exact (List.nodup_append'.1 hnodup₁).2.2 hin' hm
        have hlast : (pre ++ [e]).getLastD Node.aet = e := by simp
        obtain ⟨h',hload,hA',hs',hw',hframe'⟩ := ih hA₁' hes₁ hnodup₁ (by simp at hn; omega)
        rw [hlast] at hload
        refine ⟨h',hload,?_,hs₁.trans hs',hw'.trans hw₁,?_⟩
        · have hsame : merge h₁ rest es = merge h rest es := by
            unfold merge
            rw [hs₁.minor]
          rw [hmerge,← hsame]
          simpa using hA'
        · intro m hm
          rw [hframe' m (fun hin => hm (hperm.mem_iff.1 hin)),hframe m]
          intro hin
          exact hm (hperm.mem_iff.1 (List.mem_append_left _ (by simpa using hin)))
      have hnexte : h.next e = es.head? := by simpa using hes.1
      cases rest with
      | nil =>
        obtain ⟨hA₁,hs₁,hw₁,hframe⟩ := load_one rfl hA hmem rfl
        have hmerge : merge h [] (e::es) = e::merge h [] es := by simp [merge]
        have hload := hinsert _ hA₁ hs₁ hw₁ hframe hmerge
        simp only [List.head?_nil,List.head?_cons,miloadAET,hnexte] at hload ⊢
        exact hload
      | cons a rest =>
        by_cases hlt : h.minor a < h.minor e
        · have hA' : Active h ((pre ++ [a]) ++ rest) := by simpa using hA
          have hlast : (pre ++ [a]).getLastD Node.aet = a := by simp
          have hnext : h.next a = rest.head? := hA.next
          have hperm : Node.aet::((pre ++ [a]) ++ rest) ++ e::es = Node.aet::(pre ++ a::rest) ++ e::es := by simp
          obtain ⟨h',hload,hA',hs',hw',hframe'⟩ := ih hA' hes (hperm ▸ hnodup) (by simp at hn ⊢; omega)
          rw [hlast,List.head?_cons] at hload
          refine ⟨h',?_,?_,hs',hw',fun m hm => hframe' m (hperm ▸ hm)⟩
          · simp only [List.head?_cons,miloadAET,hlt,if_true,hnext,hload]
          · have hmerge : merge h (a::rest) (e::es) = a::merge h rest (e::es) := by
              unfold merge
              rw [List.cons_merge_cons,if_pos (by simpa using hlt)]
            rw [hmerge]
            simpa using hA'
        · obtain ⟨hA₁,hs₁,hw₁,hframe⟩ := load_one rfl hA hmem rfl
          have hmerge : merge h (a::rest) (e::es) = e::merge h (a::rest) es := by
            unfold merge
            rw [List.cons_merge_cons,if_neg (by simpa using hlt)]
          have hload := hinsert _ hA₁ hs₁ hw₁ hframe hmerge
          simp only [List.head?_cons,miloadAET,hnexte,hlt,if_false] at hload ⊢
          exact hload

/-- What `EVALUATEEDGE` and `miInsertionSort` do to take out the edge after `p`. -/
def unlink (h : Heap) (p : Node) (after : Option Node) : Heap :=
  match after with
  | some a => (h.setNext p (some a)).setBack a (some p)
  | none => h.setNext p none

lemma unlink_sameEdges (h : Heap) (p : Node) (after : Option Node) : SameEdges h (unlink h p after) := by
  cases after <;> exact ⟨rfl,rfl,rfl⟩

lemma unlink_nextWETE (h : Heap) (p : Node) (after : Option Node) : (unlink h p after).nextWETE = h.nextWETE := by
  cases after <;> rfl

lemma unlink_next (h : Heap) (p : Node) (after : Option Node) :
    (unlink h p after).next = Function.update h.next p after := by
  cases after <;> rfl

lemma Active.unlink {p : Node} (hA : Active h (pre ++ x::post)) (hp : pre.getLastD .aet = p) :
    Active (unlink h p post.head?) (pre ++ post) := by
  refine hA.remove hp ?_ ?_ ?_ ?_
  · rw [unlink_next,Function.update_self]
  · intro n hn
    rw [unlink_next,Function.update_of_ne hn]
  · intro a ha
    simp [Poly.unlink,ha,Heap.setBack]
  · intro n hn
    cases hpost : post.head? with
    | none => rfl
    | some a =>
      have : n ≠ a := by rintro rfl; exact hn hpost
      simp [Poly.unlink,Heap.setBack,Heap.setNext,this]

lemma chase_back {key : ℤ} {p₁ p₂ : List Node} {c : Node} {r : List Node} {n : ℕ} (hA : Active h (p₁ ++ p₂ ++ c::r))
    (hlarge : ∀ m ∈ p₂, key < h.minor m) (hsmall : h.minor (p₁.getLastD .aet) ≤ key) (hn : p₂.length < n) :
    chase h key n c = some ((p₂ ++ [c]).head (by simp)) := by
  induction p₂ using List.reverseRecOn generalizing c r n with
  | nil =>
    obtain _ | n := n
    · simp at hn
    · have hback : h.back c = some (p₁.getLastD .aet) := by simpa using hA.back
      simp only [chase,hback,Option.bind_eq_bind,Option.bind_some,gt_iff_lt,not_lt.mpr hsmall,if_false]
      rfl
  | append_singleton p₂ d ih =>
    obtain _ | n := n
    · simp at hn
    · have hback := hA.back
      have hlast : (p₁ ++ (p₂ ++ [d])).getLastD Node.aet = d := by rw [← List.append_assoc]; simp
      rw [hlast] at hback
      have hA' : Active h (p₁ ++ p₂ ++ d::c::r) := by simpa using hA
      have hchase := ih hA' (fun m hm => hlarge m (by simp [hm])) (n := n) (by simp at hn; omega)
      simp only [chase,hback,Option.bind_eq_bind,Option.bind_some,hlarge d (by simp),gt_iff_lt,if_true,hchase]
      cases p₂ <;> rfl

lemma Sorted.split {k : ℤ} (hs : Sorted h l) :
    ∃ p₁ p₂, l = p₁ ++ p₂ ∧ (∀ m ∈ p₁, h.minor m ≤ k) ∧ ∀ m ∈ p₂, k < h.minor m := by
  induction l with
  | nil => exact ⟨[],[],rfl,by simp,by simp⟩
  | cons a l ih =>
    obtain ⟨ha,hl⟩ := List.pairwise_cons.1 hs
    by_cases hle : h.minor a ≤ k
    · obtain ⟨p₁,p₂,rfl,h₁,h₂⟩ := ih hl
      refine ⟨a::p₁,p₂,rfl,fun m hm => ?_,h₂⟩
      obtain rfl | hm := List.mem_cons.1 hm
      · exact hle
      · exact h₁ m hm
    · push Not at hle
      refine ⟨[],a::l,rfl,by simp,fun m hm => ?_⟩
      obtain rfl | hm := List.mem_cons.1 hm
      · exact hle
      · exact hle.trans_le (ha m hm)

/-- What `miInsertionSort` leaves. -/
structure SortedFrom (h : Heap) (l : List Node) (h' : Heap) (l' : List Node) : Prop where
  active : Active h' l'
  perm : l'.Perm l
  sorted : Sorted h' l'
  same : SameEdges h h'
  wete : h'.nextWETE = h.nextWETE
  frame : ∀ n, n ∉ Node.aet::l → h'.next n = h.next n

lemma move_active {p₁ p₂ : List Node} {c : Node} (hA : Active h (p₁ ++ c::p₂ ++ x::rest)) {b ib : Node}
    (hb : p₁.getLastD .aet = b) (hib : p₂.getLastD c = ib) :
    let h₁ := unlink h ib rest.head?
    let h₂ := (((h₁.setNext x (some c)).setNext b (some x)).setBack c (some x)).setBack x (some b)
    Active h₂ (p₁ ++ x::c::p₂ ++ rest) ∧ SameEdges h h₂ ∧ h₂.nextWETE = h.nextWETE ∧ h₂.next x = some c ∧
      ∀ n, n ∉ Node.aet::(p₁ ++ c::p₂ ++ x::rest) → h₂.next n = h.next n := by
  intro h₁ h₂
  have hlast : (p₁ ++ c::p₂).getLastD Node.aet = ib := by rw [getLastD_append_cons,hib]
  have hA₁ : Active h₁ (p₁ ++ (c::p₂ ++ rest)) := by
    have := hA.unlink hlast
    simpa using this
  have hnodup := hA.nodup
  have hnew : x ∉ Node.aet::(p₁ ++ (c::p₂ ++ rest)) := by
    have hperm : (Node.aet::(p₁ ++ c::p₂ ++ x::rest)).Perm (x::Node.aet::(p₁ ++ (c::p₂ ++ rest))) := by
      have hmid : (Node.aet::(p₁ ++ c::p₂) ++ x::rest).Perm (x::(Node.aet::(p₁ ++ c::p₂) ++ rest)) :=
        List.perm_middle
      simpa using hmid
    exact (List.nodup_cons.1 (hperm.nodup_iff.1 hnodup)).1
  have hbmem : b ∈ Node.aet::p₁ := hb ▸ getLastD_mem
  have hbx : x ≠ b := by
    rintro rfl
    apply hnew
    rw [← List.cons_append]
    exact List.mem_append_left _ hbmem
  have hcx : c ≠ x := by rintro rfl; simp at hnew
  have hcb : c ≠ b := by
    rintro rfl
    have hA₁' := hA₁.nodup
    rw [← List.cons_append,List.nodup_append'] at hA₁'
    exact hA₁'.2.2 hbmem (by simp)
  have hib' : ib ∈ Node.aet::(p₁ ++ c::p₂ ++ x::rest) := by
    have : ib ∈ c::p₂ := hib ▸ getLastD_mem
    simp only [List.mem_cons,List.mem_append] at this ⊢
    tauto
  have hs₁ := unlink_sameEdges h ib rest.head?
  have hw₁ := unlink_nextWETE h ib rest.head?
  refine ⟨?_,⟨hs₁.ymax,hs₁.clockWise,hs₁.bres⟩,hw₁,?_,?_⟩
  · have hinsert : Active h₂ (p₁ ++ x::(c::p₂ ++ rest)) := by
      refine hA₁.insert hb hnew ?_ ?_ ?_ ?_ ?_ ?_
      · simp [h₂,Heap.setNext,Heap.setBack,hbx]
      · simp [h₂,Heap.setNext,Heap.setBack]
      · intro n hnx hnb
        simp [h₂,Heap.setNext,Heap.setBack,hnx,hnb]
      · simp [h₂,Heap.setNext,Heap.setBack]
      · intro a ha
        obtain rfl := Option.some.inj ha
        simp [h₂,Heap.setNext,Heap.setBack,hcx]
      · intro n hnx hnc
        have : n ≠ c := by rintro rfl; simp at hnc
        simp [h₂,Heap.setNext,Heap.setBack,hnx,this]
    simpa using hinsert
  · simp [h₂,Heap.setNext,Heap.setBack,hbx]
  · intro n hn
    have hnx : n ≠ x := by rintro rfl; simp at hn
    have hnb : n ≠ b := by
      rintro rfl
      apply hn
      rw [List.append_assoc,← List.cons_append]
      exact List.mem_append_left _ hbmem
    have hnib : n ≠ ib := fun heq => hn (heq ▸ hib')
    simp [h₂,h₁,Heap.setNext,Heap.setBack,hnx,hnb,unlink_next,hnib]

lemma sortLoop_sorted {fuel n : ℕ} {c : Bool} (hA : Active h (pre ++ rest)) (hs : Sorted h pre)
    (hheader : ∀ m ∈ pre ++ rest, h.minor .aet ≤ h.minor m) (hfuel : pre.length+rest.length < fuel)
    (hn : rest.length < n) :
    ∃ h' l' ch, sortLoop fuel n h c rest.head? = some (h',ch) ∧ SortedFrom h (pre ++ rest) h' l' ∧
      (ch = false → l' = pre ++ rest ∧ c = false) := by
  induction n generalizing h pre rest c with
  | zero => omega
  | succ n ih =>
    cases rest with
    | nil =>
      refine ⟨h,pre ++ [],c,rfl,⟨hA,List.Perm.refl _,by simpa using hs,SameEdges.refl h,rfl,fun _ _ => rfl⟩,?_⟩
      exact fun hch => ⟨rfl,hch⟩
    | cons x rest =>
      obtain ⟨p₁,p₂,rfl,h₁,h₂⟩ := hs.split (k := h.minor x)
      have hsmall : h.minor (p₁.getLastD .aet) ≤ h.minor x := by
        obtain heq | hmem := List.mem_cons.1 (getLastD_mem (l := p₁) (a := Node.aet))
        · rw [heq]
          exact hheader x (by simp)
        · exact h₁ _ hmem
      have hchase := chase_back (n := fuel) hA h₂ hsmall (by simp at hfuel; omega)
      have hnextx : h.next x = rest.head? := hA.next
      cases p₂ with
      | nil =>
        -- the edge is in place
        have hA' : Active h ((p₁ ++ [x]) ++ rest) := by simpa using hA
        have hs' : Sorted h (p₁ ++ [x]) := by
          rw [Sorted,List.pairwise_append]
          rw [List.append_nil] at hs
          exact ⟨hs,List.pairwise_singleton _ _,fun a ha b hb => by
            rw [List.mem_singleton.1 hb]
            exact h₁ a ha⟩
        obtain ⟨h',l',ch,hsort,hfrom,hch⟩ := ih (c := c) hA' hs'
          (fun m hm => hheader m (by simpa using hm)) (by simp at hfuel ⊢; omega) (by simp at hn; omega)
        refine ⟨h',l',ch,?_,by simpa using hfrom,by simpa using hch⟩
        simp only [List.head?_cons,sortLoop,hchase,List.nil_append,List.head_cons,Option.bind_eq_bind,
          Option.bind_some,ne_eq,not_true_eq_false,if_false,hnextx,hsort]
      | cons d p₂ =>
        have hdx : d ≠ x := by
          rintro rfl
          exact lt_irrefl _ (h₂ d (by simp))
        have hbackd : h.back d = some (p₁.getLastD .aet) := by
          have hA' : Active h (p₁ ++ d::(p₂ ++ x::rest)) := by simpa using hA
          exact hA'.back
        have hbackx : h.back x = some (p₂.getLastD d) := by
          have := hA.back
          rwa [getLastD_append_cons] at this
        obtain ⟨hA₂,hs₂,hw₂,-,hframe₂⟩ := move_active hA rfl rfl
        set h₂' := (((((unlink h (p₂.getLastD d) rest.head?).setNext x (some d)).setNext (p₁.getLastD .aet)
          (some x)).setBack d (some x)).setBack x (some (p₁.getLastD .aet))) with hh₂
        have hsorted : Sorted h₂' (p₁ ++ x::d::p₂) := by
          rw [Sorted,hs₂.minor,List.pairwise_append] at *
          obtain ⟨hs₁,hs₂',hcross⟩ := hs
          refine ⟨hs₁,List.pairwise_cons.2 ⟨fun m hm => (h₂ m hm).le,hs₂'⟩,fun a ha b hb => ?_⟩
          obtain rfl | hb := List.mem_cons.1 hb
          · exact h₁ a ha
          · exact hcross a ha b hb
        have hperm : (p₁ ++ x::d::p₂ ++ rest).Perm (p₁ ++ d::p₂ ++ x::rest) := by
          have hmid : (x::(d::p₂ ++ rest)).Perm (d::p₂ ++ x::rest) := List.perm_middle.symm
          simpa using hmid.append_left p₁
        obtain ⟨h',l',ch,hsort,hfrom,hch⟩ := ih (c := true) hA₂ hsorted
          (fun m hm => by rw [hs₂.minor]; exact hheader m (hperm.mem_iff.1 hm))
          (by simp at hfuel ⊢; omega) (by simp at hn; omega)
        refine ⟨h',l',ch,?_,⟨hfrom.active,hfrom.perm.trans hperm,hfrom.sorted,hs₂.trans hfrom.same,
          hfrom.wete.trans hw₂,fun m hm => ?_⟩,fun hfalse => nomatch (hch hfalse).2⟩
        · simp only [List.head?_cons,sortLoop,hchase,List.cons_append,List.head_cons,Option.bind_eq_bind,
            Option.bind_some,ne_eq,hdx,not_false_eq_true,if_true,hbackd,hbackx,hnextx]
          cases hrest : rest.head? with
          | none =>
            rw [hrest] at hsort
            simp only [hh₂,hrest,unlink] at hsort
            exact hsort
          | some a =>
            rw [hrest] at hsort
            simp only [hh₂,hrest,unlink] at hsort
            exact hsort
        · rw [hfrom.frame m,hframe₂ m hm]
          intro hin
          exact hm (by
            obtain rfl | hin := List.mem_cons.1 hin
            · simp
            · exact List.mem_cons_of_mem _ (hperm.mem_iff.1 hin))

/-- `miInsertionSort` sorts the active edges, and tells when their order has changed. -/
theorem miInsertionSort_sorted {fuel : ℕ} (hA : Active h l) (hheader : ∀ m ∈ l, h.minor .aet ≤ h.minor m)
    (hfuel : l.length < fuel) :
    ∃ h' l' ch, miInsertionSort fuel h = some (h',ch) ∧ SortedFrom h l h' l' ∧ (ch = false → l' = l) := by
  obtain ⟨h',l',ch,hsort,hfrom,hch⟩ := sortLoop_sorted (c := false) (show Active h ([] ++ l) from hA)
    List.Pairwise.nil hheader (by simpa using hfuel) hfuel
  refine ⟨h',l',ch,?_,hfrom,fun hfalse => (hch hfalse).1⟩
  rw [miInsertionSort,hA.head]
  exact hsort

end Xlibre.Mi.Poly
