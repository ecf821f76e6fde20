import Xlibre.Dix.Crossing.Focus

/-! What the core focus events say about each window's focus state. -/
namespace Xlibre.Dix.Crossing
open Xlibre.Lib NotifyDetail FocusType

def ofPointer (d : NotifyDetail) : Bool := d == pointer || d == pointerRoot || d == detailNone

variable {W : Type*} [DecidableEq W] {n : ℕ}

def changesOf (win : W) (events : List (FocusEvent W)) : List FocusType :=
  events.filterMap fun e => if e.window = win ∧ ofPointer e.detail = false then some e.type else none

def focusDue : Presence → Presence → List FocusType
  | .out, .onNode => [focusIn]
  | .out, .desc => [focusIn]
  | .desc, .onNode => [focusIn]
  | .onNode, .out => [focusOut]
  | .desc, .out => [focusOut]
  | .onNode, .desc => [focusOut]
  | _, _ => []

def focusMarks (focusWindows : FocusWindows n W) : List W := marks fun i => (focusWindows i).window?

section PerWindow

variable {F : Forest W} {dev : KeyboardDevice n W} {P : PointerWindows n W} {Q : FocusWindows n W} {w A B : W} {mode : ℕ}

omit [DecidableEq W] in
lemma mem_focusMarks : w ∈ focusMarks Q ↔ ∃ i, Q i = .window w := by
  simp only [focusMarks,mem_marks]
  refine exists_congr fun i => ?_
  cases Q i <;> simp [FocusWin.window?]

lemma hasFocus_eq : hasFocus Q w = decide (w ∈ focusMarks Q) := by
  simp [hasFocus,mem_focusMarks,List.any_eq]

lemma firstFocusChild_eq_none : firstFocusChild F Q w = none ↔ ¬F.Below (focusMarks Q) w := by
  simp only [firstFocusChild,List.findSome?_eq_none_iff,Option.filter_eq_none_iff,Forest.Below,focusMarks,mem_marks,
    windowIsParent]
  constructor
  · rintro h ⟨v,⟨i,hi⟩,hv⟩
    exact h i (List.mem_finRange i) v hi (by simpa using hv)
  · intro h i _ v hi hv
    exact h ⟨v,⟨i,hi⟩,by simpa using hv⟩

lemma noFocus_eq_true : noFocus F Q w = true ↔ w ∉ focusMarks Q ∧ ¬F.Below (focusMarks Q) w := by
  simp [noFocus,hasFocus_eq,firstFocusChild_eq_none]

lemma noFocus_up {v : W} (h : noFocus F Q v = false) (hw : w ∈ F.ancestors v) : noFocus F Q w = false := by
  rw [← Bool.not_eq_true,noFocus_eq_true] at h ⊢
  have hv : v ∈ focusMarks Q ∨ F.Below (focusMarks Q) v := by
    by_cases hm : v ∈ focusMarks Q
    · exact Or.inl hm
    · exact Or.inr (by_contra fun hb => h ⟨hm,hb⟩)
  exact fun hq => hq.2 (Forest.Below.up hv hw)

@[simp] lemma changesOf_append (l m : List (FocusEvent W)) : changesOf w (l ++ m) = changesOf w l ++ changesOf w m :=
  List.filterMap_append

@[simp] lemma changesOf_nil : changesOf w [] = [] := rfl

lemma changesOf_cons (e : FocusEvent W) (l : List (FocusEvent W)) :
    changesOf w (e :: l) =
      (if w = e.window ∧ ofPointer e.detail = false then [e.type] else []) ++ changesOf w l := by
  by_cases hw : w = e.window
  · subst hw
    cases hd : ofPointer e.detail <;> simp [changesOf,hd]
  · have hw' : e.window ≠ w := Ne.symm hw
    simp [changesOf,hw,hw']

lemma changesOf_of_pointer {l : List (FocusEvent W)} (h : ∀ e ∈ l, ofPointer e.detail = true) : changesOf w l = [] := by
  refine List.filterMap_eq_nil_iff.2 fun e he => ?_
  simp [h e he]

lemma ofPointer_outNotifyPointer {pwinParent : W} {exclude : FocusWin W} {inclusive : Bool} :
    ∀ e ∈ coreFocusOutNotifyPointerEvents F dev P pwinParent exclude mode inclusive, ofPointer e.detail = true := by
  intro e he
  unfold coreFocusOutNotifyPointerEvents at he
  split at he
  · cases he
  · split_ifs at he
    all_goals
      first
      | cases he
      | obtain ⟨v,-,rfl⟩ := List.mem_map.1 he
        rfl

lemma ofPointer_inRecurse {stopAt : W} {inclusive : Bool} (l : List W) :
    ∀ e ∈ coreFocusInRecurse stopAt mode inclusive l, ofPointer e.detail = true := by
  induction l with
  | nil =>
    intro e he
    cases he
  | cons win rest ih =>
    intro e he
    unfold coreFocusInRecurse at he
    split_ifs at he
    · cases he
    · rcases List.mem_append.1 he with he | he
      · exact ih e he
      · obtain rfl := List.mem_singleton.1 he
        rfl

lemma ofPointer_inNotifyPointer {pwinParent : W} {exclude : Option W} {inclusive : Bool} :
    ∀ e ∈ coreFocusInNotifyPointerEvents F dev P pwinParent exclude mode inclusive, ofPointer e.detail = true := by
  intro e he
  unfold coreFocusInNotifyPointerEvents at he
  split at he
  · cases he
  · split_ifs at he
    all_goals
      first
      | cases he
      | exact ofPointer_inRecurse _ e he

@[simp] lemma changesOf_outNotifyPointer {pwinParent : W} {exclude : FocusWin W} {inclusive : Bool} :
    changesOf w (coreFocusOutNotifyPointerEvents F dev P pwinParent exclude mode inclusive) = [] :=
  changesOf_of_pointer ofPointer_outNotifyPointer

@[simp] lemma changesOf_inNotifyPointer {pwinParent : W} {exclude : Option W} {inclusive : Bool} :
    changesOf w (coreFocusInNotifyPointerEvents F dev P pwinParent exclude mode inclusive) = [] :=
  changesOf_of_pointer ofPointer_inNotifyPointer

lemma changesOf_inEvents (top : Option W) (child : W) (detail : NotifyDetail) (hd : ofPointer detail = false) :
    changesOf w (coreFocusInEvents F Q top child mode detail) =
      if w ∈ F.between top child ∧ w ∉ focusMarks Q ∧ ¬F.Below (focusMarks Q) w then [focusIn] else [] := by
  simp only [← noFocus_eq_true]
  exact filterMap_notifiesIn (fun v c => by simp [hd]) top child _ (F.ancestors_nodup child)

lemma changesOf_outEvents {top : Option W} {child : W} (detail : NotifyDetail) (hd : ofPointer detail = false)
    (ht : top ≠ some child) :
    changesOf w (coreFocusOutEvents F Q child top mode detail) =
      if w ∈ F.between top child ∧ w ∉ focusMarks Q ∧ ¬F.Below (focusMarks Q) w then [focusOut] else [] := by
  simp only [← noFocus_eq_true]
  rw [coreFocusOutEvents,if_neg ht]
  exact filterMap_notifiesOut (fun v c => by simp [hd]) top child _ (F.ancestors_nodup child)
    ((F.pairwise_ancestors child).imp fun hv hq => noFocus_up hq hv)

lemma changesOf_unlessFocus {l : List (FocusEvent W)} {t : FocusType}
    (h : changesOf w l = if w = A then [t] else []) :
    changesOf w (if hasFocus Q A then [] else l) = if w = A ∧ w ∉ focusMarks Q then [t] else [] := by
  rw [hasFocus_eq]
  by_cases hA : A ∈ focusMarks Q
  · have hw : ¬(w = A ∧ w ∉ focusMarks Q) := fun h => h.2 (h.1 ▸ hA)
    simp [hA,hw]
  · have hw : w = A ∧ w ∉ focusMarks Q ↔ w = A := and_iff_left_of_imp fun h => h ▸ hA
    simp [hA,hw,h]

lemma changesOf_nonLinearIn :
    changesOf w (coreFocusNonLinearIn F dev P Q B mode) = if w = B ∧ w ∉ focusMarks Q then [focusIn] else [] := by
  apply changesOf_unlessFocus
  cases firstFocusChild F Q B <;> simp [changesOf_cons,ofPointer]

end PerWindow

section Branches

def changesAlong (F : Forest W) (others : List W) (A B : Option W) (w : W) : List FocusType :=
  (if some w = A ∧ w ∉ others then [focusOut] else []) ++
    (if (w ∈ F.above A ∧ w ∉ F.above B ∧ some w ≠ B) ∧ w ∉ others ∧ ¬F.Below others w then [focusOut] else []) ++
    (if (w ∈ F.above B ∧ w ∉ F.above A ∧ some w ≠ A) ∧ w ∉ others ∧ ¬F.Below others w then [focusIn] else []) ++
    if some w = B ∧ w ∉ others then [focusIn] else []

lemma changesAlong_eq {F : Forest W} {others : List W} {A B : Option W} (hAB : A ≠ B) (w : W) :
    changesAlong F others A B w = focusDue (F.presenceAmong others A w) (F.presenceAmong others B w) := by
  simp only [changesAlong,Forest.presenceAmong]
  by_cases hA : some w = A
  · subst hA
    by_cases ho : w ∈ others <;> by_cases hb : F.Below others w <;> by_cases hB : w ∈ F.above B <;>
      simp [ho,hb,hB,hAB,focusDue]
  · by_cases hB : some w = B
    · subst hB
      by_cases ho : w ∈ others <;> by_cases hb : F.Below others w <;> by_cases hA' : w ∈ F.above A <;>
        simp [ho,hb,hA,hA',focusDue]
    · by_cases ho : w ∈ others <;> by_cases hb : F.Below others w <;> by_cases hA' : w ∈ F.above A <;>
        by_cases hB' : w ∈ F.above B <;> simp [ho,hb,hA,hB,hA',hB',focusDue]

variable {F : Forest W} {dev : KeyboardDevice n W} {P : PointerWindows n W} {Q : FocusWindows n W} {w A B : W} {mode : ℕ}
  {roots : List W}

lemma changesOf_nonLinear (hA : A ∉ F.ancestors B) (hB : B ∉ F.ancestors A) :
    changesOf w (coreFocusNonLinear F dev P Q A B mode) = changesAlong F (focusMarks Q) (some A) (some B) w := by
  have hleave : w ∈ F.between (commonAncestor F A B) A ↔
      w ∈ F.ancestors A ∧ w ∉ F.ancestors B ∧ some w ≠ some B := by
    rw [commonAncestor_eq_meet,Forest.mem_between_meet_left]
    exact and_congr_right fun hw => ⟨fun h => ⟨h,fun e => hB (Option.some.inj e ▸ hw)⟩,And.left⟩
  have henter : w ∈ F.between (commonAncestor F A B) B ↔
      w ∈ F.ancestors B ∧ w ∉ F.ancestors A ∧ some w ≠ some A := by
    rw [commonAncestor_eq_meet,Forest.mem_between_meet_right]
    exact and_congr_right fun hw => ⟨fun h => ⟨h,fun e => hA (Option.some.inj e ▸ hw)⟩,And.left⟩
  simp only [coreFocusNonLinear,changesOf_append,changesOf_nonLinearIn,changesOf_inEvents _ _ nonlinearVirtual rfl,
    changesOf_outEvents nonlinearVirtual rfl commonAncestor_ne,hleave,henter]
  rw [changesOf_unlessFocus (w := w) (A := A) (t := focusOut)]
  · simp [changesAlong]
  · cases firstFocusChild F Q A <;> simp [changesOf_cons,ofPointer]

lemma changesOf_toAncestor (hB : B ∈ F.ancestors A) :
    changesOf w (coreFocusToAncestor F dev P Q A B mode) = changesAlong F (focusMarks Q) (some A) (some B) w := by
  have htop : some B ≠ some A := fun h => Forest.not_mem_ancestors_self A (Option.some.inj h ▸ hB)
  have hleave : w ∈ F.between (some B) A ↔ w ∈ F.ancestors A ∧ w ∉ F.ancestors B ∧ some w ≠ some B := by
    rw [Forest.mem_between_some hB,Ne,Ne,Option.some.injEq,and_comm (a := w ∉ _)]
  have hup : w ∈ F.ancestors B → w ∈ F.ancestors A := fun h => Forest.mem_ancestors_trans h hB
  simp only [coreFocusToAncestor,changesOf_append,changesOf_outEvents virtual rfl htop,hleave]
  rw [changesOf_unlessFocus (w := w) (A := A) (t := focusOut),changesOf_unlessFocus (w := w) (A := B) (t := focusIn)]
  · simpa [changesAlong] using fun h h' _ _ => absurd (hup h) h'
  · simp [changesOf_cons,ofPointer]
  · cases firstFocusChild F Q A <;> simp [changesOf_cons,ofPointer]

lemma changesOf_toDescendant (hA : A ∈ F.ancestors B) :
    changesOf w (coreFocusToDescendant F dev P Q A B mode) = changesAlong F (focusMarks Q) (some A) (some B) w := by
  have henter : w ∈ F.between (some A) B ↔ w ∈ F.ancestors B ∧ w ∉ F.ancestors A ∧ some w ≠ some A := by
    rw [Forest.mem_between_some hA,Ne,Ne,Option.some.injEq,and_comm (a := w ∉ _)]
  have hup : w ∈ F.ancestors A → w ∈ F.ancestors B := fun h => Forest.mem_ancestors_trans h hA
  simp only [coreFocusToDescendant,changesOf_append,changesOf_inEvents _ _ virtual rfl,henter]
  rw [changesOf_unlessFocus (w := w) (A := A) (t := focusOut),changesOf_unlessFocus (w := w) (A := B) (t := focusIn)]
  · simpa [changesAlong] using fun h h' _ _ => absurd (hup h) h'
  · cases firstFocusChild F Q B <;> simp [changesOf_cons,ofPointer]
  · simp [changesOf_cons,ofPointer]

lemma changesOf_flatMap {f : W → List (FocusEvent W)} (h : ∀ root, changesOf w (f root) = []) :
    changesOf w (roots.flatMap f) = [] := by
  induction roots with
  | nil => rfl
  | cons root rest ih => rw [List.flatMap_cons,changesOf_append,h,ih,List.nil_append]

lemma ofPointer_noWindowDetail (A : FocusWin W) : ofPointer (noWindowDetail A) = true := by
  unfold noWindowDetail
  split_ifs <;> rfl

lemma changesOf_toPointerRootOrNone {dst : FocusWin W} :
    changesOf w (coreFocusToPointerRootOrNone F dev P Q roots A dst mode) =
      changesAlong F (focusMarks Q) (some A) none w := by
  have hroots : changesOf w (roots.flatMap (coreFocusToPointerRootOrNoneScr F dev P Q dst mode)) = [] := by
    refine changesOf_flatMap fun root => ?_
    unfold coreFocusToPointerRootOrNoneScr
    split_ifs <;> simp [changesOf_cons,ofPointer_noWindowDetail]
  simp only [coreFocusToPointerRootOrNone,changesOf_append,changesOf_outEvents nonlinearVirtual rfl (Option.some_ne_none A).symm,
    Forest.mem_between_none,hroots]
  rw [changesOf_unlessFocus (w := w) (A := A) (t := focusOut)]
  · simp [changesAlong]
  · cases firstFocusChild F Q A <;> simp [changesOf_cons,ofPointer]

lemma changesOf_leavePointerRoot {dst : FocusWin W} {root : W} {f : W → Bool} :
    changesOf w (coreFocusLeavePointerRoot F dev P dst root mode f) = [] := by
  unfold coreFocusLeavePointerRoot
  split_ifs <;> simp

lemma changesOf_switch {A B : FocusWin W} :
    changesOf w (coreFocusPointerRootNoneSwitch F dev P Q roots A B mode) = [] := by
  refine changesOf_flatMap fun root => ?_
  unfold coreFocusPointerRootNoneSwitchScr
  split_ifs <;> simp [changesOf_cons,ofPointer_noWindowDetail,changesOf_leavePointerRoot]

lemma changesOf_fromPointerRootOrNone {A : FocusWin W} :
    changesOf w (coreFocusFromPointerRootOrNone F dev P Q roots A B mode) =
      (if B ≠ F.root B ∧ w = F.root B then [focusIn] else []) ++
        (if (w ∈ F.ancestors B ∧ w ≠ F.root B) ∧ w ∉ focusMarks Q ∧ ¬F.Below (focusMarks Q) w then [focusIn] else []) ++
        if w = B ∧ w ∉ focusMarks Q then [focusIn] else [] := by
  have hroots : changesOf w (roots.flatMap (coreFocusFromPointerRootOrNoneScr F dev P Q A (.window B) mode)) = [] := by
    refine changesOf_flatMap fun root => ?_
    unfold coreFocusFromPointerRootOrNoneScr
    split_ifs <;> simp [changesOf_cons,ofPointer_noWindowDetail,changesOf_leavePointerRoot]
  simp only [coreFocusFromPointerRootOrNone,changesOf_append,changesOf_nonLinearIn,hroots,List.nil_append]
  congr 1
  by_cases hB : B = F.root B
  · have hanc : F.ancestors B = [] := Forest.ancestors_of_none (hB ▸ Forest.parent_root B)
    simp [← hB,hanc]
  · have hmem : F.root B ∈ F.ancestors B := Forest.root_mem_ancestors (Ne.symm hB)
    have htop : F.ancestors (F.root B) = [] := Forest.ancestors_of_none (Forest.parent_root B)
    simp only [ne_eq,hB,not_false_eq_true,if_true,changesOf_cons,changesOf_inEvents _ _ nonlinearVirtual rfl,
      Forest.mem_between_some hmem,htop,List.not_mem_nil,and_true,true_and]
    simp [ofPointer]

end Branches

section Changes

variable {F : Forest W} {roots : List W} {dev : KeyboardDevice n W} {P : PointerWindows n W} {Q : FocusWindows n W}
  {src dst : FocusWin W} {mode : ℕ}

/-- The focus comes from PointerRoot or None to a window that is no root, while another keyboard's focus is on the root of
that window or below. -/
def RootHasOtherFocus (F : Forest W) (dev : KeyboardDevice n W) (focusWindows : FocusWindows n W)
    (src dst : FocusWin W) : Prop :=
  src.window? = none ∧ ∃ B, dst = .window B ∧ F.root B ≠ B ∧
    ∃ i, i ≠ dev.id ∧ ∃ v, focusWindows i = .window v ∧ (v = F.root B ∨ F.root B ∈ F.ancestors v)

omit [DecidableEq W] in
lemma focusMarks_update {i : Fin n} (x : FocusWin W) :
    focusMarks (Function.update Q i x) = marks (Function.update (fun j => (Q j).window?) i x.window?) := by
  unfold focusMarks
  congr 1
  funext j
  exact Function.apply_update (fun _ => FocusWin.window?) Q i x j

lemma presence_before (hQ : Q dev.id = src) (w : W) :
    F.presence (focusMarks Q) w = F.presenceAmong (focusMarks (setFocusOut dev Q)) src.window? w := by
  apply Forest.presence_eq_presenceAmong
  intro v
  rw [setFocusOut,focusMarks_update]
  exact mem_marks_of_place (congrArg FocusWin.window? hQ) v

lemma presence_after (w : W) :
    F.presence (focusMarks (setFocusIn dev dst (setFocusOut dev Q))) w =
      F.presenceAmong (focusMarks (setFocusOut dev Q)) dst.window? w := by
  apply Forest.presence_eq_presenceAmong
  intro v
  rw [setFocusIn,setFocusOut,Function.update_idem,focusMarks_update,focusMarks_update]
  exact mem_marks_update

omit [DecidableEq W] in
lemma mem_focusMarks_setFocusOut {v : W} :
    v ∈ focusMarks (setFocusOut dev Q) ↔ ∃ i, i ≠ dev.id ∧ Q i = .window v := by
  rw [mem_focusMarks]
  refine exists_congr fun i => ?_
  by_cases hi : i = dev.id
  · subst hi
    simp [setFocusOut]
  · simp [setFocusOut,hi]

omit [DecidableEq W] in
lemma rootHasOtherFocus_iff {B : W} (hs : src.window? = none) :
    RootHasOtherFocus F dev Q src (.window B) ↔ F.root B ≠ B ∧
      (F.root B ∈ focusMarks (setFocusOut dev Q) ∨ F.Below (focusMarks (setFocusOut dev Q)) (F.root B)) := by
  simp only [RootHasOtherFocus,hs,true_and,FocusWin.window.injEq,exists_eq_left',Forest.Below,
    mem_focusMarks_setFocusOut]
  refine and_congr_right fun _ => ?_
  constructor
  · rintro ⟨i,hi,v,hv,rfl | hr⟩
    · exact Or.inl ⟨i,hi,hv⟩
    · exact Or.inr ⟨v,⟨i,hi,hv⟩,hr⟩
  · rintro (⟨i,hi,hv⟩ | ⟨v,⟨i,hi,hv⟩,hr⟩)
    · exact ⟨i,hi,_,hv,Or.inl rfl⟩
    · exact ⟨i,hi,v,hv,Or.inr hr⟩

@[simp] lemma focusDue_self (s : Presence) : focusDue s s = [] := by cases s <;> rfl

lemma changesOf_fromPointerRootOrNone_iff {B : W} {A : FocusWin W} :
    (∀ w, changesOf w (coreFocusFromPointerRootOrNone F dev P Q roots A B mode) =
        focusDue (F.presenceAmong (focusMarks Q) none w) (F.presenceAmong (focusMarks Q) (some B) w)) ↔
      ¬(F.root B ≠ B ∧ (F.root B ∈ focusMarks Q ∨ F.Below (focusMarks Q) (F.root B))) := by
  constructor
  · rintro h ⟨hB,hother⟩
    have hroot := h (F.root B)
    rw [changesOf_fromPointerRootOrNone] at hroot
    by_cases hm : F.root B ∈ focusMarks Q
    · simp [Forest.presenceAmong,hm,Ne.symm hB] at hroot
    · have hb : F.Below (focusMarks Q) (F.root B) := hother.resolve_left hm
      simp [Forest.presenceAmong,hm,hb,hB,Ne.symm hB] at hroot
  · intro h w
    rw [← changesAlong_eq (Option.some_ne_none B).symm,changesOf_fromPointerRootOrNone]
    by_cases hB : F.root B = B
    · have hanc : F.ancestors B = [] := Forest.ancestors_of_none (hB ▸ Forest.parent_root B)
      simp [changesAlong,hB,hanc]
    · have hquiet : F.root B ∉ focusMarks Q ∧ ¬F.Below (focusMarks Q) (F.root B) := by
        rw [← not_or]
        exact fun ho => h ⟨hB,ho⟩
      by_cases hw : w = F.root B
      · subst hw
        have hmem : F.root B ∈ F.ancestors B := Forest.root_mem_ancestors hB
        simp [changesAlong,hB,Ne.symm hB,hquiet,hmem]
      · simp [changesAlong,hw]

/-- A change of one keyboard's focus tells every window the one change due to its presence, unless the focus comes from
PointerRoot or None into a tree whose root has another focus on it or below. -/
theorem coreFocusEvents_changesOf (hm : dev.isMaster = true) (hQ : Q dev.id = src) (hne : src ≠ dst) :
    (∀ w, changesOf w (coreFocusEvents F roots dev P src dst mode Q).2 =
        focusDue (F.presence (focusMarks Q) w)
          (F.presence (focusMarks (coreFocusEvents F roots dev P src dst mode Q).1) w)) ↔
      ¬RootHasOtherFocus F dev Q src dst := by
  have hstate : (coreFocusEvents F roots dev P src dst mode Q).1 = setFocusIn dev dst (setFocusOut dev Q) := by
    simp [coreFocusEvents,hm]
  rw [hstate]
  simp only [presence_before hQ,presence_after,coreFocusEvents,hm,Bool.not_true,Bool.false_eq_true,if_false]
  have hwin (A : W) : ¬RootHasOtherFocus F dev Q (.window A) dst := fun h => by cases h.1
  have hnowin (h : dst.window? = none) : ¬RootHasOtherFocus F dev Q src dst := by
    rintro ⟨-,B,rfl,-⟩
    cases h
  cases src with
  | window A =>
    refine iff_of_true (fun w => ?_) (hwin A)
    cases dst with
    | window B =>
      have hAB : some A ≠ some B := fun h => hne (congrArg FocusWin.window (Option.some.inj h))
      rw [← changesAlong_eq (by exact hAB) w]
      simp only [windowIsParent,decide_eq_true_eq]
      split_ifs with hA hB
      · exact changesOf_toDescendant hA
      · exact changesOf_toAncestor hB
      · exact changesOf_nonLinear hA hB
    | noneWin =>
      exact changesOf_toPointerRootOrNone.trans (changesAlong_eq (Option.some_ne_none A) w)
    | pointerRootWin =>
      exact changesOf_toPointerRootOrNone.trans (changesAlong_eq (Option.some_ne_none A) w)
  | noneWin =>
    cases dst with
    | window B => exact changesOf_fromPointerRootOrNone_iff.trans (not_congr (rootHasOtherFocus_iff rfl)).symm
    | noneWin => exact absurd rfl hne
    | pointerRootWin => exact iff_of_true (fun w => changesOf_switch.trans (focusDue_self _).symm) (hnowin rfl)
  | pointerRootWin =>
    cases dst with
    | window B => exact changesOf_fromPointerRootOrNone_iff.trans (not_congr (rootHasOtherFocus_iff rfl)).symm
    | noneWin => exact iff_of_true (fun w => changesOf_switch.trans (focusDue_self _).symm) (hnowin rfl)
    | pointerRootWin => exact absurd rfl hne

def firstKeyboard : KeyboardDevice 2 ℕ := ⟨0,true,some .pointerRootWin,0⟩

def rootFocused : FocusWindows 2 ℕ := fun i => if i = 0 then .pointerRootWin else .window 0

/-- From PointerRoot to the root itself, no window is told more than is due. -/
theorem coreFocusEvents_changesOf_toRoot :
    changesOf 0
        (coreFocusEvents siblings [0] firstKeyboard (fun _ => none) .pointerRootWin (.window 0) 0 rootFocused).2 =
      focusDue (siblings.presence (focusMarks rootFocused) 0)
        (siblings.presence (focusMarks
          (coreFocusEvents siblings [0] firstKeyboard (fun _ => none) .pointerRootWin (.window 0) 0 rootFocused).1) 0) := by
  refine (coreFocusEvents_changesOf (by rfl) (by rfl) (by decide)).2 ?_ 0
  rintro ⟨-,B,hB,hroot,-⟩
  cases hB
  exact hroot rfl

/-- The root is told of a FocusIn although it has, and keeps, the focus of the second keyboard. -/
theorem coreFocusEvents_root_told_again :
    changesOf 0
        (coreFocusEvents siblings [0] firstKeyboard (fun _ => none) .pointerRootWin (.window 1) 0 rootFocused).2 =
        [focusIn] ∧
      siblings.presence (focusMarks rootFocused) 0 = .onNode ∧
      siblings.presence (focusMarks
        (coreFocusEvents siblings [0] firstKeyboard (fun _ => none) .pointerRootWin (.window 1) 0 rootFocused).1) 0 =
        .onNode := by
  decide

end Changes

end Xlibre.Dix.Crossing
