import Xlibre.Lib.Chain

/-! Restacking a window among its siblings. -/
namespace Xlibre.Dix.Window
open Lib Lib.Chain Lib.Links

variable {W : Type*} [DecidableEq W]

section Move

/-- `MoveWindowInStack`, to the bottom, with `pFirstChange`. -/
def moveToBottom (s : Chain W) (pWin : W) : Chain W × Option W :=
  let s := { s with first := if s.first = some pWin then s.next pWin else s.first }
  let pFirstChange := s.next pWin
  let s := { s with prev := repoint s.prev (s.next pWin) (s.prev pWin) }
  let s := { s with next := repoint s.next (s.prev pWin) (s.next pWin) }
  let s := { s with next := repoint s.next s.last (some pWin) }
  let s := { s with prev := Function.update s.prev pWin s.last }
  let s := { s with next := Function.update s.next pWin none }
  ({ s with last := some pWin },pFirstChange)

/-- To the top, where `pNextSib` was. -/
def moveToTop (s : Chain W) (pWin pNextSib : W) : Chain W × Option W :=
  let s := { s with last := if s.last = some pWin then s.prev pWin else s.last }
  let s := { s with prev := repoint s.prev (s.next pWin) (s.prev pWin) }
  let s := { s with next := repoint s.next (s.prev pWin) (s.next pWin) }
  let s := { s with next := Function.update s.next pWin s.first }
  let s := { s with prev := Function.update s.prev pWin none }
  let s := { s with prev := Function.update s.prev pNextSib (some pWin) }
  ({ s with first := some pWin },some pWin)

def moveInMiddle (fuel : ℕ) (s : Chain W) (pWin pNextSib : W) : Chain W × Option W :=
  let pOldNext := s.next pWin
  let pFirstChange := if s.first = some pWin then s.next pWin else none
  let s := { s with first := if s.first = some pWin then s.next pWin else s.first }
  let pFirstChange := if s.last = some pWin then some pWin else pFirstChange
  let s := { s with last := if s.last = some pWin then s.prev pWin else s.last }
  let s := { s with prev := repoint s.prev (s.next pWin) (s.prev pWin) }
  let s := { s with next := repoint s.next (s.prev pWin) (s.next pWin) }
  let s := { s with next := Function.update s.next pWin (some pNextSib) }
  let s := { s with prev := Function.update s.prev pWin (s.prev pNextSib) }
  let s := { s with next := repoint s.next (s.prev pNextSib) (some pWin) }
  let s := { s with prev := Function.update s.prev pNextSib (some pWin) }
  (s,if pFirstChange.isSome then pFirstChange
    else s.search (fun x => decide (x = pWin) || decide (some x = pOldNext)) fuel s.first)

def moveWindowInStack (fuel : ℕ) (s : Chain W) (pWin : W) (pNextSib : Option W) : Chain W × Option W :=
  if s.next pWin = pNextSib then (s,some pWin)
  else
    match pNextSib with
    | none => moveToBottom s pWin
    | some sib => if s.first = some sib then moveToTop s pWin sib else moveInMiddle fuel s pWin sib

/-- The topmost window that is not where another was before. -/
def firstChange : List W → List W → Option W
  | x::l,y::m => if x = y then firstChange l m else some y
  | [],m => m.head?
  | _::_,[] => none

end Move

section Links

variable {s : Chain W} {pre post a b : List W} {w n : W}

lemma update_repoint {f : W → Option W} {p v u : Option W} (h : p ≠ some w) :
    Function.update (repoint f p v) w u = repoint (Function.update f w u) p v := by
  cases p with
  | none => rfl
  | some x =>
    have hx : w ≠ x := fun he => h (he ▸ rfl)
    exact (Function.update_comm hx u v f).symm

omit [DecidableEq W] in
lemma next_ne (h : s.Lists (pre ++ w::post)) : s.next w ≠ some w := by
  rw [h.next]
  intro he
  have hout := (List.nodup_cons.1 (List.nodup_middle.1 h.nodup)).1
  exact hout (List.mem_append_right _ (List.mem_of_head? he))

lemma prev_self (h : s.Lists (pre ++ w::post)) : repoint s.prev (s.next w) (s.prev w) w = s.prev w := repoint_of_ne (next_ne h)

omit [DecidableEq W] in
lemma not_mem_rest (h : s.Lists (pre ++ w::post)) : w ∉ pre ++ post := (List.nodup_cons.1 (List.nodup_middle.1 h.nodup)).1

lemma moveToBottom_eq (h : s.Lists (pre ++ w::post)) (hpost : post ≠ []) :
    (moveToBottom s w).1 = (s.remove w).insert w (pre ++ post).getLast? none := by
  obtain ⟨m,x,rfl⟩ := (List.eq_nil_or_concat post).resolve_left hpost
  rw [List.concat_eq_append,← List.append_assoc,List.getLast?_concat] at *
  have hlast : s.last = some x := by
    rw [h.last,← List.cons_append,← List.append_assoc,List.getLast?_concat]
  have hne : some x ≠ some w := fun he => not_mem_rest h (by simp [← Option.some.inj he])
  refine Chain.ext rfl rfl ?_ ?_
  · change Function.update (repoint (repoint s.next (repoint s.prev (s.next w) (s.prev w) w) (s.next w)) s.last (some w)) w none =
      repoint (Function.update (repoint s.next (s.prev w) (s.next w)) w none) (some x) (some w)
    rw [prev_self h,hlast,update_repoint hne]
  · change Function.update (repoint s.prev (s.next w) (s.prev w)) w s.last = _
    rw [hlast]
    rfl

lemma moveToTop_eq (h : s.Lists (pre ++ w::post)) (hpre : pre.head? = some n) :
    (moveToTop s w n).1 = (s.remove w).insert w none (some n) := by
  have hfirst : s.first = some n := by
    rw [h.first,List.head?_append,hpre]
    rfl
  refine Chain.ext rfl ?_ ?_ ?_
  · rfl
  · change Function.update (repoint s.next (repoint s.prev (s.next w) (s.prev w) w) (s.next w)) w s.first =
      Function.update (repoint s.next (s.prev w) (s.next w)) w (some n)
    rw [prev_self h,hfirst]
  · rfl

lemma moveInMiddle_eq (h : s.Lists (pre ++ w::post)) (hab : pre ++ post = a ++ n::b) (ha : a ≠ []) (fuel : ℕ) :
    (moveInMiddle fuel s w n).1 = (s.remove w).insert w a.getLast? (some n) := by
  have hremoved := h.remove
  rw [hab] at hremoved
  have hbefore : (s.remove w).prev n = a.getLast? := hremoved.prev
  have hnw : n ≠ w := fun he => not_mem_rest h (by rw [hab,he]; simp)
  have hsome : a.getLast?.isNone = false := by simpa using ha
  have hbefore' : Function.update (repoint s.prev (s.next w) (s.prev w)) w (repoint s.prev (s.next w) (s.prev w) n) n =
      a.getLast? := by
    rw [Function.update_of_ne hnw]
    exact hbefore
  refine Chain.ext ?_ rfl ?_ ?_
  · change _ = if a.getLast?.isNone then _ else _
    rw [hsome,if_neg Bool.false_ne_true]
    rfl
  · change repoint (Function.update (repoint s.next (repoint s.prev (s.next w) (s.prev w) w) (s.next w)) w (some n))
      (Function.update (repoint s.prev (s.next w) (s.prev w)) w (repoint s.prev (s.next w) (s.prev w) n) n) (some w) =
      repoint (Function.update (repoint s.next (s.prev w) (s.next w)) w (some n)) a.getLast? (some w)
    rw [hbefore',prev_self h]
  · change Function.update (Function.update (repoint s.prev (s.next w) (s.prev w)) w ((s.remove w).prev n)) n (some w) =
      Function.update (Function.update (repoint s.prev (s.next w) (s.prev w)) w a.getLast?) n (some w)
    rw [hbefore]

omit [DecidableEq W] in
lemma unmoved (h : s.Lists (pre ++ w::post)) (hab : pre ++ post = a ++ b) (hsame : s.next w = b.head?) :
    a = pre ∧ b = post := by
  have hnd := (List.nodup_cons.1 (List.nodup_middle.1 h.nodup)).2
  rw [h.next] at hsame
  cases b with
  | nil =>
    obtain rfl : post = [] := List.head?_eq_none_iff.1 hsame
    rw [List.append_nil,List.append_nil] at hab
    exact ⟨hab.symm,rfl⟩
  | cons n b =>
    obtain ⟨post,rfl⟩ := List.head?_eq_some_iff.1 hsame
    have hout := (List.nodup_cons.1 (List.nodup_middle.1 hnd)).1
    rw [List.mem_append,not_or] at hout
    obtain ⟨rfl,-,rfl⟩ := (List.append_cons_inj_of_notMem hout.1 hout.2).1 hab
    exact ⟨rfl,rfl⟩

omit [DecidableEq W] in
lemma top_of_first (h : s.Lists (pre ++ w::post)) (hab : pre ++ post = a ++ n::b) (hfirst : s.first = some n) :
    pre.head? = some n ∧ a = [] := by
  have hout := not_mem_rest h
  have hnd := (List.nodup_cons.1 (List.nodup_middle.1 h.nodup)).2
  rw [h.first,List.head?_append] at hfirst
  rw [hab] at hout hnd
  cases pre with
  | nil =>
    obtain rfl : w = n := Option.some.inj hfirst
    exact absurd (List.mem_append_right a List.mem_cons_self) hout
  | cons x pre =>
    obtain rfl : x = n := Option.some.inj hfirst
    refine ⟨rfl,?_⟩
    cases a with
    | nil => rfl
    | cons y a =>
      obtain rfl : x = y := (List.cons.inj hab).1
      exact absurd (List.mem_append_right a List.mem_cons_self) (List.nodup_cons.1 hnd).1

omit [DecidableEq W] in
lemma ne_nil_of_first (h : s.Lists (pre ++ w::post)) (hab : pre ++ post = a ++ n::b) (hsame : s.next w ≠ some n)
    (hfirst : s.first ≠ some n) : a ≠ [] := by
  rintro rfl
  rw [List.nil_append] at hab
  cases pre with
  | nil => exact hsame (by rw [h.next,show post = n::b from hab]; rfl)
  | cons x pre => exact hfirst (by rw [h.first,(List.cons.inj hab).1]; rfl)

/-- The window is put in front of the one that `pNextSib` points to, or to the end, and all pointers describe the new list. -/
theorem moveWindowInStack_lists (h : s.Lists (pre ++ w::post)) (hab : pre ++ post = a ++ b) (fuel : ℕ) :
    (moveWindowInStack fuel s w b.head?).1.Lists (a ++ w::b) := by
  have hremoved := h.remove
  rw [hab] at hremoved
  have hmoved := hremoved.insert (a := w) (by rw [← hab]; exact not_mem_rest h)
  unfold moveWindowInStack
  by_cases hsame : s.next w = b.head?
  · rw [if_pos hsame]
    obtain ⟨rfl,rfl⟩ := unmoved h hab hsame
    exact h
  · rw [if_neg hsame]
    cases b with
    | nil =>
      have hpost : post ≠ [] := fun he => hsame (by rw [h.next,he])
      dsimp only [List.head?_nil]
      rw [moveToBottom_eq h hpost,hab,List.append_nil]
      exact hmoved
    | cons n b =>
      dsimp only [List.head?_cons]
      by_cases hfirst : s.first = some n
      · rw [if_pos hfirst]
        obtain ⟨hpre,rfl⟩ := top_of_first h hab hfirst
        rw [moveToTop_eq h hpre]
        exact hmoved
      · rw [if_neg hfirst]
        rw [moveInMiddle_eq h hab (ne_nil_of_first h hab hsame hfirst)]
        exact hmoved

end Links

section Change

variable {s : Chain W} {pre post a b l : List W} {w n x : W}

lemma firstChange_append (l x y : List W) : firstChange (l ++ x) (l ++ y) = firstChange x y := by
  induction l with
  | nil => rfl
  | cons z l ih => exact (if_pos rfl).trans ih

lemma firstChange_self (l : List W) : firstChange l l = none := by
  induction l with
  | nil => rfl
  | cons z l ih => exact (if_pos rfl).trans ih

lemma firstChange_up {m : List W} (hnd : (a ++ m ++ w::post).Nodup) (hm : m ≠ []) :
    firstChange (a ++ m ++ w::post) (a ++ w::(m ++ post)) = some w := by
  rw [List.append_assoc,firstChange_append]
  cases m with
  | nil => exact absurd rfl hm
  | cons z m =>
    refine if_neg ?_
    rintro rfl
    have hout := (List.nodup_cons.1 (List.nodup_middle.1 hnd)).1
    simp at hout

lemma firstChange_down {m : List W} (hnd : (pre ++ w::(x::m ++ b)).Nodup) :
    firstChange (pre ++ w::(x::m ++ b)) (pre ++ x::m ++ w::b) = some x := by
  rw [List.append_assoc,firstChange_append]
  refine if_neg ?_
  rintro rfl
  have hout := (List.nodup_cons.1 (List.nodup_middle.1 hnd)).1
  simp at hout

omit [DecidableEq W] in
lemma up_or_down (hab : pre ++ post = a ++ b) (hne : post ≠ b) :
    (∃ m, m ≠ [] ∧ pre = a ++ m ∧ b = m ++ post) ∨ ∃ x m, a = pre ++ x::m ∧ post = x::m ++ b := by
  obtain ⟨m,ha,hpost⟩ | ⟨m,hpre,hb⟩ := List.append_eq_append_iff.1 hab
  · cases m with
    | nil => exact absurd hpost hne
    | cons x m => exact .inr ⟨x,m,ha,hpost⟩
  · refine .inl ⟨m,?_,hpre,hb⟩
    rintro rfl
    exact hne hb.symm

lemma find_change (h : s.Lists (pre ++ w::post)) (hab : pre ++ post = a ++ b) (hne : post ≠ b) (hpost : post ≠ []) :
    (a ++ w::b).find? (fun x => decide (x = w) || decide (some x = post.head?)) =
      firstChange (pre ++ w::post) (a ++ w::b) := by
  have hout : ∀ y ∈ w::post, y ∉ pre := fun y hy hm => (List.disjoint_of_nodup_append h.nodup) hm hy
  have hskip : ∀ y ∈ pre, ¬(decide (y = w) || decide (some y = post.head?)) = true := by
    intro y hy he
    obtain rfl | hhead := by simpa using he
    · exact hout y List.mem_cons_self hy
    · exact hout y (List.mem_cons_of_mem w (List.mem_of_head? hhead.symm)) hy
  obtain ⟨m,hm,rfl,rfl⟩ | ⟨x,m,rfl,rfl⟩ := up_or_down hab hne
  · rw [firstChange_up h.nodup hm,List.find?_append,
      List.find?_eq_none.2 fun y hy => hskip y (List.mem_append_left m hy),List.find?_cons_of_pos (by simp)]
    rfl
  · have hhead : (x::m ++ w::b).find? (fun y => decide (y = w) || decide (some y = (x::m ++ b).head?)) = some x :=
      List.find?_cons_of_pos (by simp)
    rw [firstChange_down h.nodup,List.append_assoc,List.find?_append,List.find?_eq_none.2 hskip,hhead]
    rfl

lemma firstChange_last (h : s.Lists (pre ++ w::post)) (hab : pre ++ post = a ++ n::b) (hlast : s.last = some w) :
    firstChange (pre ++ w::post) (a ++ w::n::b) = some w := by
  have hpost : post = [] := by
    rw [h.last] at hlast
    obtain rfl | ⟨m,x,rfl⟩ := List.eq_nil_or_concat post
    · rfl
    · rw [List.concat_eq_append,← List.cons_append,← List.append_assoc,List.getLast?_concat] at hlast
      have hx : x = w := Option.some.inj hlast
      exact absurd (by simp [hx]) (not_mem_rest h)
  subst hpost
  obtain ⟨m,hm,rfl,hb⟩ | ⟨x,m,-,he⟩ := up_or_down hab (List.cons_ne_nil n b).symm
  · rw [hb]
    exact firstChange_up h.nodup hm
  · exact absurd he (by simp)

lemma firstChange_first (h : s.Lists (pre ++ w::post)) (hab : pre ++ post = a ++ b) (hne : post ≠ b)
    (hfirst : s.first = some w) : firstChange (pre ++ w::post) (a ++ w::b) = post.head? := by
  have hpre : pre = [] := by
    rw [h.first] at hfirst
    cases pre with
    | nil => rfl
    | cons x pre =>
      obtain rfl : x = w := by simpa using hfirst
      exact absurd (by simp) (not_mem_rest h)
  subst hpre
  obtain ⟨m,hm,he,-⟩ | ⟨x,m,rfl,rfl⟩ := up_or_down hab hne
  · exact absurd (List.append_eq_nil_iff.1 he.symm).2 hm
  · exact firstChange_down h.nodup

lemma moveInMiddle_change (h : s.Lists (pre ++ w::post)) (hab : pre ++ post = a ++ n::b) (ha : a ≠ []) (hne : post ≠ n::b)
    {fuel : ℕ} (hfuel : (pre ++ w::post).length < fuel) :
    (moveInMiddle fuel s w n).2 = firstChange (pre ++ w::post) (a ++ w::n::b) := by
  have hlists : (moveInMiddle fuel s w n).1.Lists (a ++ w::n::b) := by
    have hremoved := h.remove
    rw [hab] at hremoved
    rw [moveInMiddle_eq h hab ha]
    exact hremoved.insert (by rw [← hab]; exact not_mem_rest h)
  have hlength : (a ++ w::n::b).length < fuel := by
    have hab' := congrArg List.length hab
    simp only [List.length_append,List.length_cons] at hab' hfuel ⊢
    omega
  have hchange : (moveInMiddle fuel s w n).2 =
      if (if s.last = some w then some w else if s.first = some w then s.next w else none).isSome
      then (if s.last = some w then some w else if s.first = some w then s.next w else none)
      else (moveInMiddle fuel s w n).1.search (fun x => decide (x = w) || decide (some x = s.next w)) fuel
        (moveInMiddle fuel s w n).1.first := rfl
  rw [hchange]
  by_cases hlast : s.last = some w
  · rw [if_pos hlast,firstChange_last h hab hlast]
    rfl
  have hpost : post ≠ [] := by
    rintro rfl
    exact hlast (by rw [h.last,List.getLast?_concat])
  rw [if_neg hlast]
  by_cases hfirst : s.first = some w
  · obtain ⟨x,post,rfl⟩ := List.exists_cons_of_ne_nil hpost
    rw [if_pos hfirst,firstChange_first h hab hne hfirst,h.next]
    rfl
  · rw [if_neg hfirst,← find_change h hab hne hpost,h.next,hlists.first]
    exact search_eq _ hlists.nexts hlength

/-- The window that the move returns is the topmost one that is not where another was before. -/
theorem moveWindowInStack_change (h : s.Lists (pre ++ w::post)) (hab : pre ++ post = a ++ b) {fuel : ℕ}
    (hfuel : (pre ++ w::post).length < fuel) :
    (moveWindowInStack fuel s w b.head?).2 = some ((firstChange (pre ++ w::post) (a ++ w::b)).getD w) := by
  unfold moveWindowInStack
  by_cases hsame : s.next w = b.head?
  · obtain ⟨rfl,rfl⟩ := unmoved h hab hsame
    rw [if_pos hsame,firstChange_self]
    rfl
  have hne : post ≠ b := fun he => hsame (he ▸ h.next)
  rw [if_neg hsame]
  cases b with
  | nil =>
    obtain ⟨m,hm,-,he⟩ | ⟨x,m,rfl,rfl⟩ := up_or_down hab hne
    · exact absurd (List.append_eq_nil_iff.1 he.symm).1 hm
    · rw [firstChange_down h.nodup]
      exact h.next
  | cons n b =>
    dsimp only [List.head?_cons]
    by_cases hfirst : s.first = some n
    · obtain ⟨hpre,rfl⟩ := top_of_first h hab hfirst
      rw [if_pos hfirst]
      obtain ⟨m,hm,rfl,hb⟩ | ⟨x,m,he,-⟩ := up_or_down hab hne
      · have hup : firstChange (pre ++ w::post) ([] ++ w::(pre ++ post)) = some w := firstChange_up (a := []) h.nodup hm
        rw [hb,hup]
        rfl
      · exact absurd he (by simp)
    · have ha := ne_nil_of_first h hab hsame hfirst
      have hmoved := moveInMiddle_change h hab ha hne hfuel
      have hsome : (firstChange (pre ++ w::post) (a ++ w::n::b)).isSome := by
        obtain ⟨m,hm,rfl,hb⟩ | ⟨x,m,rfl,rfl⟩ := up_or_down hab hne
        · rw [hb,firstChange_up h.nodup hm]
          rfl
        · rw [firstChange_down h.nodup]
          rfl
      obtain ⟨x,hx⟩ := Option.isSome_iff_exists.1 hsome
      rw [if_neg hfirst,hmoved,hx]
      rfl

end Change

end Xlibre.Dix.Window
