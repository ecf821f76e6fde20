import Xlibre.Lib.Forest

/-! The walks along a window's parents that the crossing and focus events are sent on. -/
namespace Xlibre.Dix.Crossing
open Xlibre.Lib

inductive NotifyDetail
  | ancestor
  | virtual
  | inferior
  | nonlinear
  | nonlinearVirtual
  | pointer
  | pointerRoot
  | detailNone
  deriving DecidableEq, Repr

variable {W E : Type*} [DecidableEq W]

def windowIsParent (F : Forest W) (a b : W) : Bool := decide (a ∈ F.ancestors b)

def commonAncestor (F : Forest W) (a b : W) : Option W :=
  (F.ancestors b).find? fun x => windowIsParent F x a

lemma commonAncestor_eq_meet (F : Forest W) (a b : W) : commonAncestor F a b = F.meet a b := rfl

/-- The recursion of CoreEnterNotifies and CoreFocusInEvents over the parents of a window, the uppermost sent first. -/
def notifiesIn (quiet : W → Bool) (emit : W → W → E) (ancestor : Option W) : W → List W → List E
  | _, [] => []
  | child, parent :: rest =>
    if some parent = ancestor then []
    else notifiesIn quiet emit ancestor parent rest ++ if quiet parent then [emit parent child] else []

/-- The loop of CoreLeaveNotifies and CoreFocusOutEvents over the parents of a window. -/
def notifiesOut (quiet : W → Bool) (emit : W → W → E) (ancestor : Option W) : W → List W → List E
  | _, [] => []
  | child, win :: rest =>
    if some win = ancestor then []
    else if !quiet win then []
    else emit win child :: notifiesOut quiet emit ancestor win rest

section PerWindow

variable {β : Type*} {quiet : W → Bool} {emit : W → W → E} {see : E → Option β} {w : W} {b : β}

lemma filterMap_notifiesIn (hsee : ∀ v c, see (emit v c) = if v = w then some b else none) (top : Option W) :
    ∀ (child : W) (l : List W), l.Nodup →
      (notifiesIn quiet emit top child l).filterMap see =
        if w ∈ l.takeWhile (fun v => decide (some v ≠ top)) ∧ quiet w = true then [b] else [] := by
  intro child l hnd
  induction l generalizing child with
  | nil => simp [notifiesIn]
  | cons p rest ih =>
    obtain ⟨hp,hrest⟩ := List.nodup_cons.1 hnd
    by_cases htop : some p = top
    · simp [notifiesIn,htop]
    · simp only [notifiesIn,if_neg htop,List.filterMap_append,ih p hrest]
      have htw : (p :: rest).takeWhile (fun v => decide (some v ≠ top)) =
          p :: rest.takeWhile (fun v => decide (some v ≠ top)) := by simp [htop]
      have hni : p ∉ rest.takeWhile (fun v => decide (some v ≠ top)) :=
        fun h => hp ((List.takeWhile_sublist _).subset h)
      rw [htw]
      generalize rest.takeWhile (fun v => decide (some v ≠ top)) = below at hni
      by_cases hpw : p = w
      · subst hpw
        cases quiet p <;> simp [hsee,hni]
      · have hwp : w ≠ p := Ne.symm hpw
        have hlast : (if quiet p = true then [emit p child] else []).filterMap see = [] := by
          cases quiet p <;> simp [hsee,hpw]
        simp [hlast,hwp]

lemma filterMap_notifiesOut (hsee : ∀ v c, see (emit v c) = if v = w then some b else none) (top : Option W) :
    ∀ (child : W) (l : List W), l.Nodup → l.Pairwise (fun u v => quiet u = false → quiet v = false) →
      (notifiesOut quiet emit top child l).filterMap see =
        if w ∈ l.takeWhile (fun v => decide (some v ≠ top)) ∧ quiet w = true then [b] else [] := by
  intro child l hnd hq
  induction l generalizing child with
  | nil => simp [notifiesOut]
  | cons p rest ih =>
    obtain ⟨hp,hrest⟩ := List.nodup_cons.1 hnd
    obtain ⟨hpq,hrq⟩ := List.pairwise_cons.1 hq
    by_cases htop : some p = top
    · simp [notifiesOut,htop]
    · have htw : (p :: rest).takeWhile (fun v => decide (some v ≠ top)) =
          p :: rest.takeWhile (fun v => decide (some v ≠ top)) := by simp [htop]
      have hsub : ∀ v ∈ rest.takeWhile (fun v => decide (some v ≠ top)), v ∈ rest :=
        fun v h => (List.takeWhile_sublist _).subset h
      rw [htw]
      cases hquiet : quiet p with
      | false =>
        -- the walk ends here, and no window above would have been sent one
        have hnone : ¬(w ∈ p :: rest.takeWhile (fun v => decide (some v ≠ top)) ∧ quiet w = true) := by
          rintro ⟨hw,hqw⟩
          obtain rfl | hw := List.mem_cons.1 hw
          · simp [hquiet] at hqw
          · simp [hpq w (hsub w hw) hquiet] at hqw
        rw [if_neg hnone]
        simp [notifiesOut,htop,hquiet]
      | true =>
        simp only [notifiesOut,if_neg htop,hquiet,Bool.not_true,Bool.false_eq_true,if_false,List.filterMap_cons,hsee,
          ih p hrest hrq]
        have hni : p ∉ rest.takeWhile (fun v => decide (some v ≠ top)) := fun h => hp (hsub p h)
        generalize rest.takeWhile (fun v => decide (some v ≠ top)) = below at hni
        by_cases hpw : p = w
        · subst hpw
          simp [hquiet,hni]
        · have hwp : w ≠ p := Ne.symm hpw
          simp [hpw,hwp]

end PerWindow

end Xlibre.Dix.Crossing

/-! Core enter and leave events for several pointers. -/
namespace Xlibre.Dix.Crossing
open Xlibre.Lib NotifyDetail

inductive CrossingType
  | enterNotify
  | leaveNotify
  deriving DecidableEq, Repr

structure CrossingEvent (W : Type*) where
  type : CrossingType
  mode : ℕ
  detail : NotifyDetail
  window : W
  child : Option W
  deriving Repr

structure PointerDevice (n : ℕ) where
  id : Fin n
  isMaster : Bool
  grabbed : Bool

abbrev PointerWindows (n : ℕ) (W : Type*) := Fin n → Option W

open CrossingType

variable {W : Type*} [DecidableEq W] {n : ℕ}

def hasPointer (dev : PointerDevice n) (pointerWindows : PointerWindows n W) (win : W) : Bool :=
  if dev.grabbed then false else (List.finRange n).any fun i => decide (pointerWindows i = some win)

def firstPointerChild (F : Forest W) (pointerWindows : PointerWindows n W) (win : W) : Option W :=
  (List.finRange n).findSome? fun i => (pointerWindows i).filter fun v => windowIsParent F win v

def enterWindow (dev : PointerDevice n) (win : W) (pointerWindows : PointerWindows n W) : PointerWindows n W :=
  Function.update pointerWindows dev.id (some win)

def leaveWindow (dev : PointerDevice n) (pointerWindows : PointerWindows n W) : PointerWindows n W :=
  Function.update pointerWindows dev.id none

def noPointer (F : Forest W) (dev : PointerDevice n) (pointerWindows : PointerWindows n W) (win : W) : Bool :=
  !hasPointer dev pointerWindows win && (firstPointerChild F pointerWindows win).isNone

def coreEnterNotifies (F : Forest W) (dev : PointerDevice n) (pointerWindows : PointerWindows n W)
    (ancestor : Option W) (child : W) (mode : ℕ) (detail : NotifyDetail) : List (CrossingEvent W) :=
  notifiesIn (noPointer F dev pointerWindows) (fun win child => ⟨enterNotify,mode,detail,win,some child⟩) ancestor
    child (F.ancestors child)

def coreLeaveNotifies (F : Forest W) (dev : PointerDevice n) (pointerWindows : PointerWindows n W)
    (child : W) (ancestor : Option W) (mode : ℕ) (detail : NotifyDetail) : List (CrossingEvent W) :=
  if ancestor = some child then []
  else notifiesOut (noPointer F dev pointerWindows) (fun win child => ⟨leaveNotify,mode,detail,win,some child⟩)
    ancestor child (F.ancestors child)

/-- The event of the window that the pointer left or entered, with Inferior when another pointer is below. -/
def coreEndEvent (F : Forest W) (dev : PointerDevice n) (pointerWindows : PointerWindows n W) (type : CrossingType)
    (mode : ℕ) (detail : NotifyDetail) (win : W) : List (CrossingEvent W) :=
  if hasPointer dev pointerWindows win then []
  else
    match firstPointerChild F pointerWindows win with
    | some _ => [⟨type,mode,inferior,win,none⟩]
    | none => [⟨type,mode,detail,win,none⟩]

/-- From A to B when neither is above the other. -/
def coreEnterLeaveNonLinear (F : Forest W) (dev : PointerDevice n) (pointerWindows : PointerWindows n W) (A B : W)
    (mode : ℕ) : List (CrossingEvent W) :=
  let X := commonAncestor F A B
  coreEndEvent F dev pointerWindows leaveNotify mode nonlinear A ++
    coreLeaveNotifies F dev pointerWindows A X mode nonlinearVirtual ++
    coreEnterNotifies F dev pointerWindows X B mode nonlinearVirtual ++
    coreEndEvent F dev pointerWindows enterNotify mode nonlinear B

/-- From A to its ancestor B. -/
def coreEnterLeaveToAncestor (F : Forest W) (dev : PointerDevice n) (pointerWindows : PointerWindows n W) (A B : W)
    (mode : ℕ) : List (CrossingEvent W) :=
  coreEndEvent F dev pointerWindows leaveNotify mode ancestor A ++
    coreLeaveNotifies F dev pointerWindows A (some B) mode virtual ++
    if hasPointer dev pointerWindows B then [] else [⟨enterNotify,mode,inferior,B,none⟩]

/-- From A to its descendant B. -/
def coreEnterLeaveToDescendant (F : Forest W) (dev : PointerDevice n) (pointerWindows : PointerWindows n W)
    (A B : W) (mode : ℕ) : List (CrossingEvent W) :=
  (if hasPointer dev pointerWindows A then [] else [⟨leaveNotify,mode,inferior,A,none⟩]) ++
    coreEnterNotifies F dev pointerWindows (some A) B mode virtual ++
    coreEndEvent F dev pointerWindows enterNotify mode ancestor B

def coreEnterLeaveEvents (F : Forest W) (dev : PointerDevice n) (src dst : W) (mode : ℕ)
    (pointerWindows : PointerWindows n W) : PointerWindows n W × List (CrossingEvent W) :=
  if !dev.isMaster then (pointerWindows,[])
  else
    let pointerWindows := leaveWindow dev pointerWindows
    let events :=
      if windowIsParent F src dst then coreEnterLeaveToDescendant F dev pointerWindows src dst mode
      else if windowIsParent F dst src then coreEnterLeaveToAncestor F dev pointerWindows src dst mode
      else coreEnterLeaveNonLinear F dev pointerWindows src dst mode
    (enterWindow dev dst pointerWindows,events)

def sentTo (win : W) (events : List (CrossingEvent W)) : List (CrossingType × NotifyDetail) :=
  events.filterMap fun e => if e.window = win then some (e.type,e.detail) else none

def crossingDue (F : Forest W) (A B : W) : Presence → Presence → List (CrossingType × NotifyDetail)
  | .out, .onNode => [(enterNotify,if windowIsParent F A B then ancestor else nonlinear)]
  | .out, .desc => [(enterNotify,if windowIsParent F A B then virtual else nonlinearVirtual)]
  | .desc, .onNode => [(enterNotify,inferior)]
  | .onNode, .out => [(leaveNotify,if windowIsParent F B A then ancestor else nonlinear)]
  | .desc, .out => [(leaveNotify,if windowIsParent F B A then virtual else nonlinearVirtual)]
  | .onNode, .desc => [(leaveNotify,inferior)]
  | _, _ => []

section PerWindow

variable {F : Forest W} {dev : PointerDevice n} {P : PointerWindows n W} {w A B : W} {mode : ℕ}

lemma hasPointer_eq (hg : dev.grabbed = false) : hasPointer dev P w = decide (w ∈ marks P) := by
  simp [hasPointer,hg,mem_marks,List.any_eq]

lemma firstPointerChild_eq_none : firstPointerChild F P w = none ↔ ¬F.Below (marks P) w := by
  simp only [firstPointerChild,List.findSome?_eq_none_iff,Option.filter_eq_none_iff,Forest.Below,mem_marks,
    windowIsParent]
  constructor
  · rintro h ⟨v,⟨i,hi⟩,hv⟩
    exact h i (List.mem_finRange i) v hi (by simpa using hv)
  · intro h i _ v hi hv
    exact h ⟨v,⟨i,hi⟩,by simpa using hv⟩

lemma noPointer_eq_true (hg : dev.grabbed = false) :
    noPointer F dev P w = true ↔ w ∉ marks P ∧ ¬F.Below (marks P) w := by
  simp [noPointer,hasPointer_eq hg,firstPointerChild_eq_none]

lemma noPointer_up (hg : dev.grabbed = false) {v : W} (h : noPointer F dev P v = false) (hw : w ∈ F.ancestors v) :
    noPointer F dev P w = false := by
  rw [← Bool.not_eq_true,noPointer_eq_true hg] at h ⊢
  have hv : v ∈ marks P ∨ F.Below (marks P) v := by
    by_cases hm : v ∈ marks P
    · exact Or.inl hm
    · exact Or.inr (by_contra fun hb => h ⟨hm,hb⟩)
  exact fun hq => hq.2 (Forest.Below.up hv hw)

@[simp] lemma sentTo_append (l m : List (CrossingEvent W)) : sentTo w (l ++ m) = sentTo w l ++ sentTo w m :=
  List.filterMap_append

lemma sentTo_coreEndEvent (hg : dev.grabbed = false) (type : CrossingType) (detail : NotifyDetail) :
    sentTo w (coreEndEvent F dev P type mode detail A) =
      if w = A ∧ w ∉ marks P then [(type,if F.Below (marks P) w then inferior else detail)] else [] := by
  simp only [coreEndEvent,hasPointer_eq hg,decide_eq_true_eq]
  by_cases hw : w = A
  · subst hw
    by_cases hm : w ∈ marks P
    · simp [hm,sentTo]
    · rw [if_neg hm]
      cases hc : firstPointerChild F P w with
      | none => simp [sentTo,hm,firstPointerChild_eq_none.1 hc]
      | some v =>
        have hb : F.Below (marks P) w := by
          by_contra hb
          simp [firstPointerChild_eq_none.2 hb] at hc
        simp [sentTo,hm,hb]
  · have hA : A ≠ w := Ne.symm hw
    have hn : ¬(w = A ∧ w ∉ marks P) := fun h => hw h.1
    rw [if_neg hn]
    by_cases hm : A ∈ marks P
    · simp [hm,sentTo]
    · rw [if_neg hm]
      cases firstPointerChild F P A <;> simp [sentTo,hA]

lemma sentTo_coreEnterNotifies (hg : dev.grabbed = false) (top : Option W) (child : W) (detail : NotifyDetail) :
    sentTo w (coreEnterNotifies F dev P top child mode detail) =
      if w ∈ F.between top child ∧ w ∉ marks P ∧ ¬F.Below (marks P) w then [(enterNotify,detail)] else [] := by
  simp only [← noPointer_eq_true hg]
  exact filterMap_notifiesIn (fun v c => rfl) top child _ (F.ancestors_nodup child)

lemma sentTo_coreLeaveNotifies (hg : dev.grabbed = false) {top : Option W} {child : W} (detail : NotifyDetail)
    (ht : top ≠ some child) :
    sentTo w (coreLeaveNotifies F dev P child top mode detail) =
      if w ∈ F.between top child ∧ w ∉ marks P ∧ ¬F.Below (marks P) w then [(leaveNotify,detail)] else [] := by
  simp only [← noPointer_eq_true hg]
  rw [coreLeaveNotifies,if_neg ht]
  exact filterMap_notifiesOut (fun v c => rfl) top child _ (F.ancestors_nodup child)
    ((F.pairwise_ancestors child).imp fun hv hq => noPointer_up hg hq hv)

end PerWindow

section Moves

variable {F : Forest W} {dev : PointerDevice n} {P : PointerWindows n W} {w A B : W} {mode : ℕ}

lemma commonAncestor_ne : commonAncestor F A B ≠ some A := by
  intro h
  simpa [windowIsParent] using List.find?_some h

lemma sentTo_nonLinear (hg : dev.grabbed = false) (hAB : A ≠ B) (hA : A ∉ F.ancestors B) (hB : B ∉ F.ancestors A) :
    sentTo w (coreEnterLeaveNonLinear F dev P A B mode) =
      crossingDue F A B (F.presenceAmong (marks P) (some A) w) (F.presenceAmong (marks P) (some B) w) := by
  have hleave : w ∈ F.between (commonAncestor F A B) A ↔ w ∈ F.ancestors A ∧ w ∉ F.ancestors B :=
    Forest.mem_between_meet_left
  have henter : w ∈ F.between (commonAncestor F A B) B ↔ w ∈ F.ancestors B ∧ w ∉ F.ancestors A :=
    Forest.mem_between_meet_right
  simp only [coreEnterLeaveNonLinear,sentTo_append,sentTo_coreEndEvent hg,sentTo_coreEnterNotifies hg,
    sentTo_coreLeaveNotifies hg _ commonAncestor_ne,hleave,henter,Forest.presenceAmong]
  by_cases hwA : w = A
  · subst hwA
    by_cases ho : w ∈ marks P <;> by_cases hb : F.Below (marks P) w <;>
      simp [ho,hb,hAB,hA,hB,crossingDue,windowIsParent]
  · by_cases hwB : w = B
    · subst hwB
      by_cases ho : w ∈ marks P <;> by_cases hb : F.Below (marks P) w <;>
        simp [ho,hb,hAB.symm,hA,hB,crossingDue,windowIsParent]
    · by_cases ho : w ∈ marks P <;> by_cases hb : F.Below (marks P) w <;> by_cases ha : w ∈ F.ancestors A <;>
        by_cases hb' : w ∈ F.ancestors B <;> simp [ho,hb,hwA,hwB,ha,hb',hA,hB,crossingDue,windowIsParent]

lemma sentTo_toAncestor (hg : dev.grabbed = false) (hB : B ∈ F.ancestors A) :
    sentTo w (coreEnterLeaveToAncestor F dev P A B mode) =
      crossingDue F A B (F.presenceAmong (marks P) (some A) w) (F.presenceAmong (marks P) (some B) w) := by
  have hne : A ≠ B := fun h => Forest.not_mem_ancestors_self B (h ▸ hB)
  have htop : some B ≠ some A := fun h => hne (Option.some.inj h).symm
  have hA : A ∉ F.ancestors B := Forest.not_mem_of_mem hB
  have hup : w ∈ F.ancestors B → w ∈ F.ancestors A := fun h => Forest.mem_ancestors_trans h hB
  simp only [coreEnterLeaveToAncestor,sentTo_append,sentTo_coreEndEvent hg,
    sentTo_coreLeaveNotifies hg _ htop,Forest.mem_between_some hB,Forest.presenceAmong,hasPointer_eq hg,decide_eq_true_eq]
  by_cases hwA : w = A
  · subst hwA
    by_cases ho : w ∈ marks P <;> by_cases hb : F.Below (marks P) w <;>
      simp [ho,hb,hne,hne.symm,hA,hB,crossingDue,windowIsParent,sentTo]
  · by_cases hwB : w = B
    · subst hwB
      by_cases ho : w ∈ marks P <;> by_cases hb : F.Below (marks P) w <;>
        simp [ho,hb,hne.symm,hB,crossingDue,sentTo]
    · have hBw : B ≠ w := Ne.symm hwB
      have henter : sentTo w (if B ∈ marks P then [] else [⟨enterNotify,mode,inferior,B,none⟩]) = [] := by
        split_ifs <;> simp [sentTo,hBw]
      rw [henter,List.append_nil]
      by_cases ho : w ∈ marks P <;> by_cases hb : F.Below (marks P) w <;> by_cases hb' : w ∈ F.ancestors B
      all_goals
        by_cases ha : w ∈ F.ancestors A <;> simp_all [crossingDue,windowIsParent]

lemma sentTo_toDescendant (hg : dev.grabbed = false) (hA : A ∈ F.ancestors B) :
    sentTo w (coreEnterLeaveToDescendant F dev P A B mode) =
      crossingDue F A B (F.presenceAmong (marks P) (some A) w) (F.presenceAmong (marks P) (some B) w) := by
  have hne : A ≠ B := fun h => Forest.not_mem_ancestors_self B (h ▸ hA)
  have hB : B ∉ F.ancestors A := Forest.not_mem_of_mem hA
  have hup : w ∈ F.ancestors A → w ∈ F.ancestors B := fun h => Forest.mem_ancestors_trans h hA
  simp only [coreEnterLeaveToDescendant,sentTo_append,sentTo_coreEndEvent hg,
    sentTo_coreEnterNotifies hg,Forest.mem_between_some hA,Forest.presenceAmong,hasPointer_eq hg,decide_eq_true_eq]
  by_cases hwB : w = B
  · subst hwB
    by_cases ho : w ∈ marks P <;> by_cases hb : F.Below (marks P) w <;> by_cases ho' : A ∈ marks P <;>
      simp [ho,hb,ho',hne,hne.symm,hA,hB,crossingDue,windowIsParent,sentTo]
  · by_cases hwA : w = A
    · subst hwA
      by_cases ho : w ∈ marks P <;> by_cases hb : F.Below (marks P) w <;>
        simp [ho,hb,hne,hA,crossingDue,sentTo]
    · have hAw : A ≠ w := Ne.symm hwA
      have hleave : sentTo w (if A ∈ marks P then [] else [⟨leaveNotify,mode,inferior,A,none⟩]) = [] := by
        split_ifs <;> simp [sentTo,hAw]
      rw [hleave,List.nil_append]
      by_cases ho : w ∈ marks P <;> by_cases hb : F.Below (marks P) w <;> by_cases ha : w ∈ F.ancestors A
      all_goals
        by_cases hb' : w ∈ F.ancestors B <;> simp_all [crossingDue,windowIsParent]

/-- A move of an ungrabbed master pointer sends every window the one event due to the change of its presence. -/
theorem coreEnterLeaveEvents_sentTo (hm : dev.isMaster = true) (hg : dev.grabbed = false) (hP : P dev.id = some A)
    (hAB : A ≠ B) :
    (coreEnterLeaveEvents F dev A B mode P).1 = Function.update P dev.id (some B) ∧
      ∀ w, sentTo w (coreEnterLeaveEvents F dev A B mode P).2 =
        crossingDue F A B (F.presence (marks P) w)
          (F.presence (marks (coreEnterLeaveEvents F dev A B mode P).1) w) := by
  have hstate : (coreEnterLeaveEvents F dev A B mode P).1 = Function.update P dev.id (some B) := by
    simp [coreEnterLeaveEvents,hm,enterWindow,leaveWindow]
  refine ⟨hstate,fun w => ?_⟩
  rw [hstate,Forest.presence_eq_presenceAmong (mem_marks_of_place hP) w,
    Forest.presence_eq_presenceAmong (fun v => mem_marks_update) w]
  simp only [coreEnterLeaveEvents,hm,Bool.not_true,Bool.false_eq_true,if_false,windowIsParent,decide_eq_true_eq]
  split_ifs with hA hB
  · exact sentTo_toDescendant hg hA
  · exact sentTo_toAncestor hg hB
  · exact sentTo_nonLinear hg hAB hA hB

/-- A root with the other windows as its children. -/
def siblings : Forest ℕ where
  parent w := if w = 0 then none else some 0
  depth := id
  depth_lt := by
    intro w p h
    split_ifs at h with h0
    cases h
    exact Nat.pos_of_ne_zero h0

/-- With pointers on two siblings, one of them goes to the root. -/
theorem coreEnterLeaveEvents_sentTo_siblings :
    sentTo 0 (coreEnterLeaveEvents siblings (⟨0,true,false⟩ : PointerDevice 2) 1 0 0 fun i => some (i+1)).2 =
      [(enterNotify,inferior)] := by
  have h := (@coreEnterLeaveEvents_sentTo ℕ _ 2 siblings ⟨0,true,false⟩ (fun i => some (i+1)) 1 0 0 rfl rfl rfl
    (by decide)).2 0
  exact h.trans (by decide)

end Moves

end Xlibre.Dix.Crossing
