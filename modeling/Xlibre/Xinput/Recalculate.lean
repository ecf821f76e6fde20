import Xlibre.Xinput.Requests

/-! What is in the unions after they have been recalculated. -/
namespace Xlibre.Xinput
open Xlibre.Lib

def orAll {n : ℕ} (l : List (BitVec n)) : BitVec n := l.foldr (· ||| ·) 0

@[simp] lemma getLsbD_orAll {n : ℕ} (l : List (BitVec n)) (b : ℕ) : (orAll l).getLsbD b = l.any (·.getLsbD b) := by
  induction l with
  | nil => simp [orAll]
  | cons x l ih =>
    rw [List.any_cons,← ih]
    exact BitVec.getLsbD_or

def selected (l : List InputClient) (d : Fin emaskSize) : Mask := orAll (l.map (·.mask d))

def selectedXi2 (l : List InputClient) : Xi2Mask := fun i j => orAll (l.map (·.xi2mask i j))

@[simp] lemma selected_nil (d : Fin emaskSize) : selected [] d = 0 := rfl

@[simp] lemma selected_cons (o : InputClient) (l : List InputClient) (d : Fin emaskSize) :
    selected (o :: l) d = o.mask d ||| selected l d := rfl

lemma selectedXi2_nil : selectedXi2 [] = .empty := rfl

lemma selectedXi2_cons (o : InputClient) (l : List InputClient) :
    selectedXi2 (o :: l) = o.xi2mask.merge (selectedXi2 l) := rfl

lemma Xi2Mask.merge_empty (m : Xi2Mask) : m.merge .empty = m := by
  funext i j
  simp [merge,empty]

lemma Xi2Mask.empty_merge (m : Xi2Mask) : Xi2Mask.empty.merge m = m := by
  funext i j
  simp [merge,empty]

lemma Xi2Mask.merge_assoc (a b c : Xi2Mask) : (a.merge b).merge c = a.merge (b.merge c) := by
  funext i j
  exact BitVec.or_assoc _ _ _

lemma gather_foldl (l : List InputClient) (m : OtherInputMasks) : l.foldl (fun m others =>
      { m with
        inputEvents := fun i => m.inputEvents i ||| others.mask i
        xi2mask := m.xi2mask.merge others.xi2mask }) m =
    { m with
      inputEvents := fun i => m.inputEvents i ||| selected l i
      xi2mask := m.xi2mask.merge (selectedXi2 l) } := by
  induction l generalizing m with
  | nil => simp [selectedXi2_nil,Xi2Mask.merge_empty]
  | cons o l ih =>
    rw [List.foldl_cons,ih]
    simp [selectedXi2_cons,Xi2Mask.merge_assoc,BitVec.or_assoc]

lemma gather_eq (m : OtherInputMasks) : m.gather =
    { m with
      inputEvents := fun d => m.inputEvents d ||| selected m.inputClients d
      deliverableEvents := fun d => m.inputEvents d ||| selected m.inputClients d
      xi2mask := selectedXi2 m.inputClients } := by
  unfold OtherInputMasks.gather
  rw [gather_foldl]
  simp [Xi2Mask.empty_merge]

lemma inherit_foldl (im : OtherInputMasks) (l : List (Option OtherInputMasks)) : l.foldl OtherInputMasks.inherit im =
    { im with
      deliverableEvents := fun d => im.deliverableEvents d |||
        (orAll (l.filterMap (Option.map (·.deliverableEvents d))) &&& ~~~im.dontPropagateMask d &&& xiPropagateMask) } := by
  induction l generalizing im with
  | nil => simp [orAll]
  | cons a l ih =>
    rw [List.foldl_cons,ih]
    cases a with
    | none => simp [OtherInputMasks.inherit]
    | some a =>
      simp only [OtherInputMasks.inherit,Option.elim_some,List.filterMap_cons,Option.map_some]
      congr 1
      funext d
      apply BitVec.eq_of_getLsbD_eq
      intro b _
      simp only [BitVec.getLsbD_or,BitVec.getLsbD_and,getLsbD_orAll,List.any_cons]
      grind

section Windows

variable {W : Type} [DecidableEq W] {T : Lib.Tree W} {s s' : Selections W} {v w : W}

/-- The event is in the combined mask of the window. -/
def Selections.Input (s : Selections W) (d : Fin emaskSize) (b : ℕ) (w : W) : Prop :=
  ∃ m, s.inputMasks w = some m ∧ (m.inputEvents d).getLsbD b = true

def Selections.Deliverable (s : Selections W) (d : Fin emaskSize) (b : ℕ) (w : W) : Prop :=
  ∃ m, s.inputMasks w = some m ∧ (m.deliverableEvents d).getLsbD b = true

/-- The window keeps the event from going further up. -/
def Selections.Suppresses (s : Selections W) (d : Fin emaskSize) (b : ℕ) (w : W) : Prop :=
  ∃ m, s.inputMasks w = some m ∧ (m.dontPropagateMask d).getLsbD b = true

structure Recalculated (T : Lib.Tree W) (s' : Selections W) (v : W) (m m' : OtherInputMasks) : Prop where
  found : s'.inputMasks v = some m'
  clients : m'.inputClients = m.inputClients
  dontPropagate : m'.dontPropagateMask = m.dontPropagateMask
  inputEvents : m'.inputEvents = fun d => m.inputEvents d ||| selected m.inputClients d
  xi2mask : m'.xi2mask = selectedXi2 m.inputClients
  deliverable : ∀ d b, (m'.deliverableEvents d).getLsbD b = true ↔ (m'.inputEvents d).getLsbD b = true ∨
    xiPropagateMask.getLsbD b = true ∧ ¬(m'.dontPropagateMask d).getLsbD b = true ∧
      ∃ t ∈ T.ancestors v, s'.Deliverable d b t

omit [DecidableEq W] in
lemma recalculateWindow_usesAbove (T : Lib.Tree W) : T.UsesAbove (recalculateWindow T) := by
  intro v m m' hv habove
  unfold recalculateWindow
  rw [hv]
  cases m' v with
  | none => rfl
  | some im =>
    rw [Option.map_some,Option.map_some]
    congr 1
    exact List.foldl_ext _ _ _ fun im' t ht => by rw [habove t ht]

omit [DecidableEq W] in
lemma recalculateWindow_eq (T : Lib.Tree W) (v : W) (M : W → Option OtherInputMasks) : recalculateWindow T v M =
    (M v).map fun m => ((T.ancestors v).map M).foldl OtherInputMasks.inherit m.gather := by
  unfold recalculateWindow
  simp only [List.foldl_map]

lemma recalculate_of_not_mem (hv : v ∉ T.subtree w) :
    (recalculateDeviceDeliverableEvents T s w).inputMasks v = s.inputMasks v := T.recompute_of_not_mem _ _ hv

lemma recalculate_none (h : s.inputMasks v = none) :
    (recalculateDeviceDeliverableEvents T s w).inputMasks v = none := by
  by_cases hv : v ∈ T.subtree w
  · have hnew := T.recompute_of_mem (recalculateWindow_usesAbove T) s.inputMasks hv
    rw [recalculateWindow_eq,Function.update_self,h] at hnew
    exact hnew
  · rw [recalculate_of_not_mem hv,h]

lemma map_ancestors_update (M : W → Option OtherInputMasks) (v : W) (im : Option OtherInputMasks) :
    (T.ancestors v).map (Function.update M v im) = (T.ancestors v).map M := by
  apply List.map_congr_left
  intro t ht
  apply Function.update_of_ne
  rintro rfl
  exact Forest.not_mem_ancestors_self _ ht

omit [DecidableEq W] in
lemma deliverable_above_iff (d : Fin emaskSize) (b : ℕ) : (∃ t ∈ T.ancestors v, s.Deliverable d b t) ↔
    (orAll (((T.ancestors v).map s.inputMasks).filterMap (Option.map (·.deliverableEvents d)))).getLsbD b = true := by
  rw [getLsbD_orAll,List.any_eq_true]
  simp only [List.filterMap_map,List.mem_filterMap,Function.comp_apply,Option.map_eq_some_iff]
  constructor
  · rintro ⟨t,ht,a,ha,hb⟩
    exact ⟨_,⟨t,ht,a,ha,rfl⟩,hb⟩
  · rintro ⟨_,⟨t,ht,a,ha,rfl⟩,hb⟩
    exact ⟨t,ht,a,ha,hb⟩

lemma recalculate_some {m : OtherInputMasks} (hv : v ∈ T.subtree w) (h : s.inputMasks v = some m) :
    ∃ m', Recalculated T (recalculateDeviceDeliverableEvents T s w) v m m' := by
  set s' := recalculateDeviceDeliverableEvents T s w
  have hnew : s'.inputMasks v = recalculateWindow T v (Function.update s'.inputMasks v (s.inputMasks v)) :=
    T.recompute_of_mem (recalculateWindow_usesAbove T) s.inputMasks hv
  rw [recalculateWindow_eq,Function.update_self,h,Option.map_some,map_ancestors_update,gather_eq,inherit_foldl] at hnew
  refine ⟨_,hnew,rfl,rfl,rfl,rfl,fun d b => ?_⟩
  rw [deliverable_above_iff]
  simp only [BitVec.getLsbD_or,BitVec.getLsbD_and,Bool.or_eq_true,Bool.and_eq_true]
  have hnot : xiPropagateMask.getLsbD b = true → ((~~~m.dontPropagateMask d).getLsbD b = true ↔
      ¬(m.dontPropagateMask d).getLsbD b = true) := by
    intro hb
    have hlt : b < 32 := BitVec.lt_of_getLsbD hb
    simp [hlt]
  constructor
  · rintro (h | ⟨⟨hup,hdp⟩,hp⟩)
    · exact Or.inl h
    · exact Or.inr ⟨hp,(hnot hp).1 hdp,hup⟩
  · rintro (h | ⟨hp,hdp,hup⟩)
    · exact Or.inl h
    · exact Or.inr ⟨⟨hup,(hnot hp).2 hdp⟩,hp⟩

/-- The deliverable events are those selected on the window and those, selected on any ancestor, that the window does
not suppress itself. -/
def Computed (T : Lib.Tree W) (s : Selections W) (w : W) : Prop :=
  ∀ d b, s.Deliverable d b w ↔ s.Input d b w ∨
    (s.inputMasks w).isSome ∧ xiPropagateMask.getLsbD b = true ∧ T.PassesOver (s.Input d b) (s.Suppresses d b) w

omit [DecidableEq W] in
lemma computed_congr (hsame : ∀ t, t = v ∨ t ∈ T.ancestors v → s'.inputMasks t = s.inputMasks t) (h : Computed T s v) :
    Computed T s' v := by
  intro d b
  have hv := h d b
  unfold Selections.Deliverable Selections.Input Selections.Suppresses at hv ⊢
  rw [hsame v (Or.inl rfl),hv]
  apply or_congr_right
  refine and_congr_right fun _ => and_congr_right fun _ => Forest.passesOver_congr (fun t ht => ?_) ?_
  · rw [hsame t (Or.inr ht)]
  · rw [hsame v (Or.inl rfl)]

omit [DecidableEq W] in
lemma not_mem_subtree_up {t : W} (hv : v ∉ T.subtree w) (ht : t = v ∨ t ∈ T.ancestors v) : t ∉ T.subtree w := by
  intro hmem
  apply hv
  rw [Lib.Tree.mem_subtree] at hmem ⊢
  obtain rfl | ht := ht
  · exact hmem
  · obtain rfl | hw := hmem
    · exact Or.inr ht
    · exact Or.inr (Forest.mem_ancestors_trans hw ht)

lemma computed_of_mem (hv : v ∈ T.subtree w)
    (hup : ∀ t ∈ T.ancestors v, Computed T (recalculateDeviceDeliverableEvents T s w) t) :
    Computed T (recalculateDeviceDeliverableEvents T s w) v := by
  set s' := recalculateDeviceDeliverableEvents T s w with hs'
  intro d b
  cases hm : s.inputMasks v with
  | none =>
    have hnone : s'.inputMasks v = none := recalculate_none hm
    simp [Selections.Deliverable,Selections.Input,hnone]
  | some m =>
    obtain ⟨m',hm'⟩ := recalculate_some hv hm
    rw [← hs'] at hm'
    have habove : (∃ t ∈ T.ancestors v, s'.Deliverable d b t) ↔ ∃ t ∈ T.ancestors v, s'.Input d b t :=
      Forest.exists_ancestor_iff (fun t ht hown => (hup t ht d b).2 (Or.inl hown))
        fun t ht hhas => ((hup t ht d b).1 hhas).imp id fun h => h.2.2.2
    have hdel := hm'.deliverable d b
    simp only [Selections.Deliverable,Selections.Input,Selections.Suppresses,hm'.found,Option.some.injEq,
      exists_eq_left',Option.isSome_some,true_and,Forest.PassesOver] at habove hdel ⊢
    rw [hdel,habove]

/-- A recalculation leaves every window computed when the windows out of its reach are. -/
theorem recalculate_computed (h : ∀ v, v ∉ T.subtree w → Computed T s v) (v : W) :
    Computed T (recalculateDeviceDeliverableEvents T s w) v := by
  have hboth : Computed T (recalculateDeviceDeliverableEvents T s w) v ∧
      ∀ t ∈ T.ancestors v, Computed T (recalculateDeviceDeliverableEvents T s w) t := by
    induction v using T.fromRoots with
    | step v ih =>
      have hup : ∀ t ∈ T.ancestors v, Computed T (recalculateDeviceDeliverableEvents T s w) t := by
        intro t ht
        obtain ⟨p,hp,rfl | ht⟩ := Forest.mem_ancestors.1 ht
        · exact (ih t hp).1
        · exact (ih p hp).2 t ht
      refine ⟨?_,hup⟩
      by_cases hv : v ∈ T.subtree w
      · exact computed_of_mem hv hup
      · exact computed_congr (fun t ht => recalculate_of_not_mem (not_mem_subtree_up hv ht)) (h v hv)
  exact hboth.1

end Windows

end Xlibre.Xinput
