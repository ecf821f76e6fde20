import Xlibre.Dix.Window.Overlap

/-! The place that a stacking request designates, and the window that the server is told to go above. -/
namespace Xlibre.Dix.Window
open Lib Lib.Chain Lib.Links Region

variable {W R : Type*} [DecidableEq W]

inductive Mode
  | above
  | below
  | topIf
  | bottomIf
  | opposite
  deriving DecidableEq

structure Children (W R : Type*) where
  chain : Chain W
  win : W → Win R
  x : ℤ
  y : ℤ

section Code

def isSiblingAboveMe (fuel : ℕ) (c : Chain W) (pMe pSib : W) : Bool :=
  match c.search (fun x => decide (x = pSib) || decide (x = pMe)) fuel c.first with
  | some x => decide (x = pSib)
  | none => false

def pFirst (c : Chain W) (pHead : Option W) : Option W :=
  match pHead with
  | some head => c.next head
  | none => c.first

/-- The window to go above, or nothing when `NULL` is dereferenced. -/
def whereDoIGoInTheStack (ops : RegionOps R) (fuel : ℕ) (s : Children W R) (pHead : Option W) (pWin : W) (pSib : Option W)
    (x y w h : ℤ) (smode : Mode) : Option (Option W) :=
  let c := s.chain
  if c.first = some pWin ∧ c.last = some pWin then some none
  else
    let box : Box := ⟨x,y,toShort (x+w),toShort (y+h)⟩
    let unmapped := !(s.win pWin).mapped || pSib.any (fun sib => !(s.win sib).mapped)
    match smode with
    | .above =>
      match pSib with
      | some sib => some (some sib)
      | none => if pFirst c pHead = some pWin then some (c.next pWin) else some (pFirst c pHead)
    | .below =>
      match pSib with
      | some sib => if c.next sib ≠ some pWin then some (c.next sib) else some (c.next pWin)
      | none => some none
    | .topIf =>
      if unmapped then some (c.next pWin)
      else
        match pSib with
        | some sib =>
          if isSiblingAboveMe fuel c pWin sib && ops.containsRect (s.win sib).borderSize box then some (pFirst c pHead)
          else some (c.next pWin)
        | none => (anyWindowOverlapsMe ops fuel c s.win pWin pHead box).map fun b => if b then pFirst c pHead else c.next pWin
    | .bottomIf =>
      if unmapped then some (c.next pWin)
      else
        match pSib with
        | some sib =>
          if !isSiblingAboveMe fuel c pWin sib && ops.containsRect (s.win sib).borderSize box then some none
          else some (c.next pWin)
        | none => if iOverlapAnyWindow ops fuel c s.win pWin box then some none else some (c.next pWin)
    | .opposite =>
      if unmapped then some (c.next pWin)
      else
        match pSib with
        | some sib =>
          if ops.containsRect (s.win sib).borderSize box then
            if isSiblingAboveMe fuel c pWin sib then some (pFirst c pHead) else some none
          else some (c.next pWin)
        | none =>
          (anyWindowOverlapsMe ops fuel c s.win pWin pHead box).map fun b =>
            if b then pFirst c pHead
            else if iOverlapAnyWindow ops fuel c s.win pWin box then none else c.next pWin

end Code

section Spec

inductive Place (W : Type*)
  | above (sib : W)
  | below (sib : W)
  | top
  | bottom
  | unmoved

/-- The list with the window taken out and put in at its place; `top` are the children that stay above all others. -/
def arrange (top real : List W) (w : W) : Place W → List W
  | .above sib =>
    ((top ++ real).erase w).takeWhile (fun x => decide (x ≠ sib)) ++ w::((top ++ real).erase w).dropWhile (fun x => decide (x ≠ sib))
  | .below sib =>
    ((top ++ real).erase w).takeWhile (fun x => decide (x ≠ sib)) ++
      sib::w::(((top ++ real).erase w).dropWhile (fun x => decide (x ≠ sib))).tail
  | .top => top.erase w ++ w::real.erase w
  | .bottom => (top ++ real).erase w ++ [w]
  | .unmoved => top ++ real

def siblingsAbove (top real : List W) (w : W) : List W :=
  if w ∈ top then top.takeWhile (fun x => decide (x ≠ w)) else real.takeWhile (fun x => decide (x ≠ w))

def siblingsBelow (top real : List W) (w : W) : List W := ((top ++ real).dropWhile (fun x => decide (x ≠ w))).tail

end Spec

section Target

/-- Going above this window leads to that list. -/
def Target (top real : List W) (w : W) (t : Option W) (l : List W) : Prop :=
  ∃ a b, (top ++ real).erase w = a ++ b ∧ b.head? = t ∧ l = a ++ w::b

variable {c : Chain W} {top real pre post l : List W} {w sib : W} {t : Option W} {fuel : ℕ}

lemma takeWhile_ne (h : w ∉ pre) : (pre ++ w::post).takeWhile (fun x => decide (x ≠ w)) = pre := by
  have hpre : ∀ x ∈ pre, decide (x ≠ w) = true := fun x hx => decide_eq_true (ne_of_mem_of_not_mem hx h)
  rw [List.takeWhile_append_of_pos hpre,List.takeWhile_cons_of_neg (by simp),List.append_nil]

lemma dropWhile_ne (h : w ∉ pre) : (pre ++ w::post).dropWhile (fun x => decide (x ≠ w)) = w::post := by
  have hpre : ∀ x ∈ pre, decide (x ≠ w) = true := fun x hx => decide_eq_true (ne_of_mem_of_not_mem hx h)
  rw [List.dropWhile_append_of_pos hpre,List.dropWhile_cons_of_neg (by simp)]

lemma erase_middle (h : (pre ++ w::post).Nodup) : (pre ++ w::post).erase w = pre ++ post := by
  have hout := (List.nodup_cons.1 (List.nodup_middle.1 h)).1
  rw [List.mem_append,not_or] at hout
  rw [List.erase_append_right _ hout.1,List.erase_cons_head]

/-- What the move does when it is told to go above this window. -/
theorem Target.moves (h : c.Lists (top ++ real)) (hw : w ∈ top ++ real) (ht : Target top real w t l)
    (hfuel : (top ++ real).length < fuel) :
    (moveWindowInStack fuel c w t).1.Lists l ∧
      (moveWindowInStack fuel c w t).2 = some ((firstChange (top ++ real) l).getD w) := by
  obtain ⟨a,b,hab,rfl,rfl⟩ := ht
  obtain ⟨pre,post,he⟩ := List.append_of_mem hw
  rw [he] at h hfuel hab ⊢
  rw [erase_middle h.nodup] at hab
  exact ⟨moveWindowInStack_lists h hab fuel,moveWindowInStack_change h hab hfuel⟩

lemma target_unmoved (h : c.Lists (top ++ real)) (hw : w ∈ top ++ real) :
    Target top real w (c.next w) (arrange top real w .unmoved) := by
  obtain ⟨pre,post,he⟩ := List.append_of_mem hw
  rw [he] at h
  refine ⟨pre,post,?_,h.next.symm,he⟩
  rw [he,erase_middle h.nodup]

lemma target_bottom : Target top real w none (arrange top real w .bottom) := ⟨(top ++ real).erase w,[],(List.append_nil _).symm,rfl,rfl⟩

lemma target_above (h : c.Lists (top ++ real)) (hsib : sib ∈ top ++ real) (hne : sib ≠ w) :
    Target top real w (some sib) (arrange top real w (.above sib)) := by
  refine ⟨_,_,(List.takeWhile_append_dropWhile).symm,?_,rfl⟩
  obtain ⟨x,y,he⟩ := List.append_of_mem ((List.mem_erase_of_ne hne).2 hsib)
  have hnd : (x ++ sib::y).Nodup := he ▸ h.nodup.erase w
  rw [he,dropWhile_ne fun hm => (List.disjoint_of_nodup_append hnd) hm List.mem_cons_self]
  rfl

omit [DecidableEq W] in
lemma next_behind {x y : List W} (h : c.Lists (pre ++ w::(x ++ sib::y))) : c.next sib = y.head? ∧ c.next sib ≠ some w := by
  have hsib : c.next sib = y.head? := by
    rw [← List.cons_append,← List.append_assoc] at h
    exact h.next
  refine ⟨hsib,?_⟩
  rw [hsib]
  intro he
  refine (List.nodup_cons.1 (List.nodup_middle.1 h.nodup)).1 ?_
  simp [List.mem_of_head? he]

lemma target_below (h : c.Lists (top ++ real)) (hw : w ∈ top ++ real) (hsib : sib ∈ top ++ real) (hne : sib ≠ w) :
    Target top real w (if c.next sib ≠ some w then c.next sib else c.next w) (arrange top real w (.below sib)) := by
  obtain ⟨x,y,he⟩ := List.append_of_mem ((List.mem_erase_of_ne hne).2 hsib)
  have hnd : (x ++ sib::y).Nodup := he ▸ h.nodup.erase w
  have hx : sib ∉ x := fun hm => (List.disjoint_of_nodup_append hnd) hm List.mem_cons_self
  refine ⟨x ++ [sib],y,by rw [he]; simp,?_,?_⟩
  · obtain ⟨pre,post,hlist⟩ := List.append_of_mem hw
    rw [hlist] at h he
    rw [erase_middle h.nodup] at he
    obtain ⟨m,-,rfl⟩ | ⟨m,rfl,hm⟩ := List.append_eq_append_iff.1 he
    · rw [if_pos (next_behind h).2,(next_behind h).1]
    · cases m with
      | nil =>
        subst hm
        rw [if_pos (next_behind (x := []) h).2,(next_behind (x := []) h).1]
      | cons z m =>
        obtain ⟨rfl,rfl⟩ := List.cons.inj hm
        have hnext : c.next sib = (m ++ w::post).head? := by
          rw [List.append_assoc] at h
          exact h.next
        cases m with
        | nil =>
          rw [hnext,if_neg fun hn => hn rfl,h.next]
          rfl
        | cons z m =>
          have hz : z ≠ w := by
            rintro rfl
            exact (List.nodup_cons.1 (List.nodup_middle.1 h.nodup)).1 (by simp)
          rw [hnext]
          exact (if_pos fun hn => hz (Option.some.inj hn)).symm
  · rw [arrange,he,takeWhile_ne hx,dropWhile_ne hx]
    simp

omit [DecidableEq W] in
lemma pFirst_eq (h : c.Lists (top ++ real)) : pFirst c top.getLast? = real.head? := by
  obtain rfl | ⟨m,x,rfl⟩ := List.eq_nil_or_concat top
  · exact h.first
  · rw [List.concat_eq_append,List.getLast?_concat]
    rw [List.concat_eq_append,List.append_assoc] at h
    exact h.next

lemma target_top (h : c.Lists (top ++ real)) (hw : w ∈ top ++ real) (hne : real.head? ≠ some w) :
    Target top real w (pFirst c top.getLast?) (arrange top real w .top) := by
  rw [pFirst_eq h]
  refine ⟨top.erase w,real.erase w,?_,?_,rfl⟩
  · by_cases htop : w ∈ top
    · have hreal : w ∉ real := (List.disjoint_of_nodup_append h.nodup) htop
      rw [List.erase_append_left _ htop,List.erase_of_not_mem hreal]
    · rw [List.erase_append_right _ htop,List.erase_of_not_mem htop]
  · cases real with
    | nil => rfl
    | cons x real =>
      have hx : ¬(x == w) = true := fun he => hne (congrArg some (eq_of_beq he))
      rw [List.erase_cons_tail hx]
      rfl

lemma arrange_top_first (h : c.Lists (top ++ real)) (he : real.head? = some w) :
    arrange top real w .top = arrange top real w .unmoved := by
  obtain ⟨real,rfl⟩ := List.head?_eq_some_iff.1 he
  have htop : w ∉ top := fun hm => (List.disjoint_of_nodup_append h.nodup) hm List.mem_cons_self
  rw [arrange,arrange,List.erase_of_not_mem htop,List.erase_cons_head]

lemma siblingsAbove_ne (h : c.Lists (top ++ real)) (he : real.head? = some w) : siblingsAbove top real w = [] := by
  obtain ⟨real,rfl⟩ := List.head?_eq_some_iff.1 he
  have htop : w ∉ top := fun hm => (List.disjoint_of_nodup_append h.nodup) hm List.mem_cons_self
  rw [siblingsAbove,if_neg htop,List.takeWhile_cons_of_neg (by simp)]

lemma isSiblingAboveMe_eq (h : c.Lists (top ++ real)) (hw : w ∈ top ++ real) (hne : sib ≠ w) (hfuel : (top ++ real).length < fuel) :
    isSiblingAboveMe fuel c w sib = true ↔ sib ∈ (top ++ real).takeWhile (fun x => decide (x ≠ w)) := by
  obtain ⟨pre,post,hlist⟩ := List.append_of_mem hw
  rw [hlist] at h hfuel ⊢
  have hout := (List.nodup_cons.1 (List.nodup_middle.1 h.nodup)).1
  rw [List.mem_append,not_or] at hout
  rw [isSiblingAboveMe,h.first,search_eq _ h.nexts hfuel,takeWhile_ne hout.1,List.find?_append]
  by_cases hsib : sib ∈ pre
  · obtain ⟨y,hy⟩ := Option.isSome_iff_exists.1 (List.find?_isSome.2 ⟨sib,hsib,by simp⟩ :
      (pre.find? fun x => decide (x = sib) || decide (x = w)).isSome)
    have hyw : y ≠ w := ne_of_mem_of_not_mem (List.mem_of_find?_eq_some hy) hout.1
    have hys : y = sib := by simpa [hyw] using List.find?_some hy
    rw [hy]
    simp [hys,hsib]
  · have hnone : (pre.find? fun x => decide (x = sib) || decide (x = w)) = none := by
      refine List.find?_eq_none.2 fun x hx => ?_
      have hxs := ne_of_mem_of_not_mem hx hsib
      have hxw := ne_of_mem_of_not_mem hx hout.1
      simp [hxs,hxw]
    rw [hnone,Option.none_or,List.find?_cons_of_pos (by simp)]
    simp [hne.symm,hsib]

end Target

end Xlibre.Dix.Window
