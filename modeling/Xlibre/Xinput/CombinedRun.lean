import Xlibre.Xinput.Recalculate

/-! The combined masks along a run: when they are the unions of the selections. -/
namespace Xlibre.Xinput
open Xlibre.Lib

def connected (l : List InputClient) : List InputClient := l.filter fun o => decide (o.resource.client ≠ serverClient)

structure InputClient.Empty (o : InputClient) : Prop where
  mask : ∀ d, o.mask d = 0
  xi2mask : o.xi2mask = .empty

/-- Every event that some records select, others select too. -/
def Kept (l l' : List InputClient) : Prop := ∀ d b, (selected l d).getLsbD b = true → (selected l' d).getLsbD b = true

section Windows

variable {W : Type} [DecidableEq W] {T : Lib.Tree W} {s s' : Selections W} {v w : W}

def Selections.Selects (s : Selections W) (d : Fin emaskSize) (b : ℕ) (w : W) : Prop :=
  (selected (connected (s.clients w)) d).getLsbD b = true

structure CombinedAt (T : Lib.Tree W) (s : Selections W) (w : W) (m : OtherInputMasks) : Prop where
  inputEvents : ∀ d, m.inputEvents d = selected (connected m.inputClients) d
  xi2mask : m.xi2mask = selectedXi2 (connected m.inputClients)
  deliverable : ∀ d b, (m.deliverableEvents d).getLsbD b = true ↔ (m.inputEvents d).getLsbD b = true ∨
    xiPropagateMask.getLsbD b = true ∧ T.Passes (s.Selects d b) (s.Suppresses d b) w

def Combined (T : Lib.Tree W) (s : Selections W) : Prop := ∀ w m, s.inputMasks w = some m → CombinedAt T s w m

/-- A window that passes an ancestor's selection of an event on when only the nearer windows are not looked at, passes
it on, or selects the event itself. -/
def Clear (T : Lib.Tree W) (s : Selections W) : Prop := ∀ w, (s.inputMasks w).isSome → ∀ d b,
  xiPropagateMask.getLsbD b = true → T.PassesOver (s.Selects d b) (s.Suppresses d b) w →
    s.Selects d b w ∨ T.Passes (s.Selects d b) (s.Suppresses d b) w

/-- What a step's action must not do to the selections on its window: events that are selected must not all go from
the records, other than with the masks themselves, and a record that the server takes over must be empty. -/
def Covered (s : Selections W) : Action W → Prop
  | .select mskidx w client mask exclusivemasks => s.conflicts w client mskidx (mask &&& exclusivemasks) = false →
    Kept (s.clients w) (modifyFirst (sameClient client) (InputClient.setMask mskidx mask) (s.clients w))
  | .gone w id =>
    match s.clients w with
    | [o] => (∀ m, s.inputMasks w = some m → m.shouldFree true = true) ∨ o.Empty
    | l => Kept l (l.eraseP (hasResource id))
  | _ => True

/-- An action on a window without masks makes some for a record and then finds no memory for the record. -/
def LeavesEmptyMasks (s : Selections W) (alloc : Allocs) (action : Action W) : Prop :=
  s.inputMasks action.window = none ∧ alloc.record = true ∧ alloc.inputMasks = true ∧ alloc.xi2mask = false

/-- The invariant of the runs with unions all along. -/
structure Sound (T : Lib.Tree W) (s : Selections W) : Prop where
  combined : Combined T s
  computed : ∀ w, Computed T s w
  taken : ∀ w, ∀ o ∈ s.clients w, o.resource.client = serverClient → o.Empty

omit [DecidableEq W] in
lemma clients_of_some {m : OtherInputMasks} (h : s.inputMasks w = some m) : s.clients w = m.inputClients := by
  rw [Selections.clients,h]
  rfl

omit [DecidableEq W] in
lemma clients_of_none (h : s.inputMasks w = none) : s.clients w = [] := by
  rw [Selections.clients,h]
  rfl

lemma selected_connected {l : List InputClient} (h : ∀ o ∈ l, o.resource.client = serverClient → o.Empty)
    (d : Fin emaskSize) : selected (connected l) d = selected l d := by
  induction l with
  | nil => rfl
  | cons o l ih =>
    have ih := ih fun o' ho' => h o' (List.mem_cons_of_mem _ ho')
    by_cases ho : o.resource.client = serverClient
    · have hc : connected (o :: l) = connected l := by simp [connected,ho]
      rw [hc,ih,selected_cons,(h o List.mem_cons_self ho).mask d]
      exact BitVec.zero_or.symm
    · have hc : connected (o :: l) = o :: connected l := by simp [connected,ho]
      rw [hc,selected_cons,selected_cons,ih]

lemma selectedXi2_connected {l : List InputClient} (h : ∀ o ∈ l, o.resource.client = serverClient → o.Empty) :
    selectedXi2 (connected l) = selectedXi2 l := by
  induction l with
  | nil => rfl
  | cons o l ih =>
    have ih := ih fun o' ho' => h o' (List.mem_cons_of_mem _ ho')
    by_cases ho : o.resource.client = serverClient
    · have hc : connected (o :: l) = connected l := by simp [connected,ho]
      rw [hc,ih,selectedXi2_cons,(h o List.mem_cons_self ho).xi2mask,Xi2Mask.empty_merge]
    · have hc : connected (o :: l) = o :: connected l := by simp [connected,ho]
      rw [hc,selectedXi2_cons,selectedXi2_cons,ih]

omit [DecidableEq W] in
lemma input_iff_selects (h : ∀ m, s.inputMasks w = some m → ∀ d, m.inputEvents d = selected (connected m.inputClients) d)
    (d : Fin emaskSize) (b : ℕ) : s.Input d b w ↔ s.Selects d b w := by
  unfold Selections.Input Selections.Selects
  cases hm : s.inputMasks w with
  | none => simp [clients_of_none hm,connected]
  | some m => simp [clients_of_some hm,h m hm d]

omit [DecidableEq W] in
lemma input_eq_selects (h : ∀ w m, s.inputMasks w = some m → ∀ d, m.inputEvents d = selected (connected m.inputClients) d)
    (d : Fin emaskSize) (b : ℕ) : s.Input d b = s.Selects d b :=
  funext fun w => propext (input_iff_selects (h w) d b)

lemma clear_of_combined (hc : Combined T s) (hcomp : ∀ w, Computed T s w) : Clear T s := by
  intro w hw d b hb hover
  obtain ⟨m,hm⟩ := Option.isSome_iff_exists.1 hw
  have hin := input_eq_selects (fun w m hm => (hc w m hm).inputEvents) d b
  have hdel : s.Deliverable d b w := by
    rw [hcomp w d b,hin]
    exact Or.inr ⟨hw,hb,hover⟩
  obtain ⟨m',hm',hbit⟩ := hdel
  obtain rfl : m = m' := Option.some.inj (hm.symm.trans hm')
  obtain hsel | hpass := ((hc w m hm).deliverable d b).1 hbit
  · rw [← hin]
    exact Or.inl ⟨m,hm,hsel⟩
  · exact Or.inr hpass.2

lemma combined_of_clear (hin : ∀ w m, s.inputMasks w = some m → ∀ d, m.inputEvents d = selected (connected m.inputClients) d)
    (hxi2 : ∀ w m, s.inputMasks w = some m → m.xi2mask = selectedXi2 (connected m.inputClients))
    (hcomp : ∀ w, Computed T s w) (hclear : Clear T s) : Combined T s := by
  intro w m hm
  refine ⟨hin w m hm,hxi2 w m hm,fun d b => ?_⟩
  have heq := input_eq_selects hin d b
  have hdel := hcomp w d b
  have hw : (s.inputMasks w).isSome := by rw [hm]; rfl
  have hinput : s.Input d b w ↔ (m.inputEvents d).getLsbD b = true := by simp [Selections.Input,hm]
  have hd : s.Deliverable d b w ↔ (m.deliverableEvents d).getLsbD b = true := by simp [Selections.Deliverable,hm]
  rw [hd,hinput,heq] at hdel
  rw [hdel]
  constructor
  · rintro (h | ⟨-,hb,hover⟩)
    · exact Or.inl h
    · refine (hclear w hw d b hb hover).imp (fun h => ?_) fun h => ⟨hb,h⟩
      rwa [← hinput,heq]
  · rintro (h | ⟨hb,hpass⟩)
    · exact Or.inl h
    · exact Or.inr ⟨hw,hb,hpass.passesOver⟩

end Windows

end Xlibre.Xinput

/-! What each step does to the combined masks, and what that makes of a run. -/
namespace Xlibre.Xinput
open Xlibre.Lib

section Windows

variable {W : Type} [DecidableEq W] {T : Lib.Tree W} {s s1 s2 s' : Selections W} {w : W}

/-- Selections that differ from others in the masks of one window and in what has been recomputed from there. -/
structure Beside (T : Lib.Tree W) (s s1 : Selections W) (w : W) : Prop where
  outside : ∀ v, v ∉ T.subtree w → s1.inputMasks v = s.inputMasks v
  none : ∀ v, v ≠ w → s.inputMasks v = none → s1.inputMasks v = none
  some : ∀ v, v ≠ w → ∀ m, s.inputMasks v = some m → ∃ m1, s1.inputMasks v = some m1 ∧
    m1.inputClients = m.inputClients ∧ m1.inputEvents = m.inputEvents ∧ m1.xi2mask = m.xi2mask

omit [DecidableEq W] in
lemma mem_subtree_self (w : W) : w ∈ T.subtree w := Lib.Tree.mem_subtree.2 (Or.inl rfl)

omit [DecidableEq W] in
lemma ne_of_not_mem_subtree {v : W} (h : v ∉ T.subtree w) : v ≠ w := by
  rintro rfl
  exact h (mem_subtree_self v)

omit [DecidableEq W] in
lemma Beside.refl : Beside T s s w := ⟨fun _ _ => rfl,fun _ _ h => h,fun _ _ m h => ⟨m,h,rfl,rfl,rfl⟩⟩

omit [DecidableEq W] in
lemma Beside.change (h : Beside T s s1 w) (hsame : ∀ v, v ≠ w → s2.inputMasks v = s1.inputMasks v) : Beside T s s2 w := by
  refine ⟨fun v hv => ?_,fun v hv hm => ?_,fun v hv m hm => ?_⟩
  · rw [hsame v (ne_of_not_mem_subtree hv),h.outside v hv]
  · rw [hsame v hv,h.none v hv hm]
  · rw [hsame v hv]
    exact h.some v hv m hm

lemma Beside.recalculate (hs : Sound T s) (h : Beside T s s1 w) :
    Beside T s (recalculateDeviceDeliverableEvents T s1 w) w := by
  refine ⟨fun v hv => ?_,fun v hv hm => recalculate_none (h.none v hv hm),fun v hv m hm => ?_⟩
  · rw [recalculate_of_not_mem hv,h.outside v hv]
  · obtain ⟨m1,hm1,hcl,hin,hxi2⟩ := h.some v hv m hm
    by_cases hsub : v ∈ T.subtree w
    · obtain ⟨m',hm'⟩ := recalculate_some hsub hm1
      have htaken : ∀ o ∈ m.inputClients, o.resource.client = serverClient → o.Empty := by
        have := hs.taken v
        rwa [clients_of_some hm] at this
      have hat := hs.combined v m hm
      refine ⟨m',hm'.found,hm'.clients.trans hcl,?_,?_⟩
      · rw [hm'.inputEvents,hcl,hin]
        funext d
        rw [hat.inputEvents d,selected_connected htaken,BitVec.or_self]
      · rw [hm'.xi2mask,hcl,hat.xi2mask,selectedXi2_connected htaken]
    · exact ⟨m1,by rw [recalculate_of_not_mem hsub,hm1],hcl,hin,hxi2⟩

/-- The records that a window is left with: those that nothing has been done to, none as its masks are freed, or those
of masks that still have the old union when they are recalculated for the last time. -/
inductive Effect (T : Lib.Tree W) (s s' : Selections W) (w : W) : Option (List InputClient) → Prop
  | same : s'.inputMasks = s.inputMasks → Effect T s s' w (some (s.clients w))
  | freed {s1 : Selections W} : Beside T s s1 w → s1.inputMasks w = none →
      s'.inputMasks = (recalculateDeviceDeliverableEvents T s1 w).inputMasks → Effect T s s' w none
  | changed {s1 : Selections W} {m : OtherInputMasks} : Beside T s s1 w → s1.inputMasks w = some m →
      (∀ d, m.inputEvents d = selected (s.clients w) d) →
      ((∀ o ∈ m.inputClients, o.resource.client = serverClient → o.Empty) ∨
        ∃ o, m.inputClients = [o] ∧ o.resource.client = serverClient) →
      s'.inputMasks = (recalculateDeviceDeliverableEvents T s1 w).inputMasks → Effect T s s' w (some m.inputClients)

/-- The records left select all that the records before did, and those that the server has taken over are empty. -/
def Fine (l : List InputClient) (r : Option (List InputClient)) : Prop :=
  ∀ l', r = some l' → Kept l l' ∧ ∀ o ∈ l', o.resource.client = serverClient → o.Empty

lemma Sound.congr (hs : Sound T s) (h : s'.inputMasks = s.inputMasks) : Sound T s' := by
  cases s
  cases s'
  cases h
  refine ⟨fun v m hm => ?_,hs.computed,hs.taken⟩
  have hat := hs.combined v m hm
  exact ⟨hat.inputEvents,hat.xi2mask,hat.deliverable⟩

lemma computed_of_beside (hs : Sound T s) (hb : Beside T s s1 w) (v : W) :
    Computed T (recalculateDeviceDeliverableEvents T s1 w) v := by
  apply recalculate_computed
  intro v hv
  exact computed_congr (fun t ht => hb.outside t (not_mem_subtree_up hv ht)) (hs.computed v)

lemma Effect.computed {r : Option (List InputClient)} (hs : Sound T s) (he : Effect T s s' w r) (v : W) :
    Computed T s' v := by
  cases he with
  | same h => exact (hs.congr h).computed v
  | freed hb _ h => exact computed_congr (fun t _ => by rw [h]) (computed_of_beside hs hb v)
  | changed hb _ _ _ h => exact computed_congr (fun t _ => by rw [h]) (computed_of_beside hs hb v)

lemma unions_of_beside (hs : Sound T s) (hb : Beside T s s1 w) {v : W} (hv : v ≠ w) :
    (∀ m, s1.inputMasks v = some m → (∀ d, m.inputEvents d = selected (connected m.inputClients) d) ∧
      m.xi2mask = selectedXi2 (connected m.inputClients)) ∧
    ∀ o ∈ s1.clients v, o.resource.client = serverClient → o.Empty := by
  cases hm : s.inputMasks v with
  | none =>
    have hnone := hb.none v hv hm
    rw [clients_of_none hnone,hnone]
    exact ⟨fun m h => (nomatch h),fun o ho => (nomatch ho)⟩
  | some m =>
    obtain ⟨m1,hm1,hcl,hin,hxi2⟩ := hb.some v hv m hm
    have hat := hs.combined v m hm
    rw [clients_of_some hm1,hm1]
    constructor
    · intro m2 h2
      obtain rfl := Option.some.inj h2
      rw [hcl,hin,hxi2]
      exact ⟨hat.inputEvents,hat.xi2mask⟩
    · have := hs.taken v
      rwa [clients_of_some hm,← hcl] at this

lemma kept_union {l l' : List InputClient} (h : Kept l l') (d : Fin emaskSize) :
    selected l d ||| selected l' d = selected l' d := by
  apply BitVec.eq_of_getLsbD_eq
  intro b _
  rw [BitVec.getLsbD_or]
  cases hb : (selected l d).getLsbD b with
  | false => rfl
  | true => simp [h d b hb]

/-- A step whose window is left with fine records keeps the invariant where nothing is passed over. -/
theorem Effect.sound {r : Option (List InputClient)} (hs : Sound T s) (he : Effect T s s' w r)
    (hf : Fine (s.clients w) r) (hclear : Clear T s') : Sound T s' := by
  have hcomp := he.computed hs
  -- the unions of all windows, and the records that the server has taken over
  have hunions : ∀ v, (∀ m, s'.inputMasks v = some m → (∀ d, m.inputEvents d = selected (connected m.inputClients) d) ∧
      m.xi2mask = selectedXi2 (connected m.inputClients)) ∧
      ∀ o ∈ s'.clients v, o.resource.client = serverClient → o.Empty := by
    intro v
    cases he with
    | same h =>
      have hs' := hs.congr h
      exact ⟨fun m hm => ⟨(hs'.combined v m hm).inputEvents,(hs'.combined v m hm).xi2mask⟩,hs'.taken v⟩
    | @freed s1 hb hnone h =>
      by_cases hv : v = w
      · subst hv
        have hn : s'.inputMasks v = none := by rw [h,recalculate_none hnone]
        rw [clients_of_none hn,hn]
        exact ⟨fun m h => (nomatch h),fun o ho => (nomatch ho)⟩
      · have hb' : Beside T s s' w := (hb.recalculate hs).change fun v _ => by rw [h]
        exact unions_of_beside hs hb' hv
    | @changed s1 m hb hm hin _ h =>
      by_cases hv : v = w
      · subst hv
        obtain ⟨hkept,htaken⟩ := hf _ rfl
        obtain ⟨m',hm'⟩ := recalculate_some (mem_subtree_self v) hm
        have hfound : s'.inputMasks v = some m' := by rw [h,hm'.found]
        rw [clients_of_some hfound,hfound]
        refine ⟨fun m2 h2 => ?_,by rwa [hm'.clients]⟩
        obtain rfl := Option.some.inj h2
        rw [hm'.inputEvents,hm'.xi2mask,hm'.clients,selectedXi2_connected htaken]
        refine ⟨fun d => ?_,rfl⟩
        dsimp only
        rw [hin,kept_union hkept,selected_connected htaken]
      · have hb' : Beside T s s' w := (hb.recalculate hs).change fun v _ => by rw [h]
        exact unions_of_beside hs hb' hv
  refine ⟨combined_of_clear (fun v m hm => ((hunions v).1 m hm).1) (fun v m hm => ((hunions v).1 m hm).2) hcomp hclear,
    hcomp,fun v => (hunions v).2⟩

lemma kept_refl (l : List InputClient) : Kept l l := fun _ _ h => h

/-- A step that leaves the unions right has left its window with fine records, and passes nothing over. -/
theorem Effect.fine {r : Option (List InputClient)} (hs : Sound T s) (he : Effect T s s' w r) (hc : Combined T s') :
    Fine (s.clients w) r ∧ Clear T s' := by
  refine ⟨?_,clear_of_combined hc (he.computed hs)⟩
  intro l' hl'
  cases he with
  | same h =>
    obtain rfl := Option.some.inj hl'
    exact ⟨kept_refl _,hs.taken w⟩
  | freed => cases hl'
  | @changed s1 m hb hm hin hserver h =>
    obtain rfl := Option.some.inj hl'
    obtain ⟨m',hm'⟩ := recalculate_some (mem_subtree_self w) hm
    have hfound : s'.inputMasks w = some m' := by rw [h,hm'.found]
    have hat := hc w m' hfound
    have hunion : ∀ d, selected (s.clients w) d ||| selected m.inputClients d = selected (connected m.inputClients) d := by
      intro d
      have hd := hat.inputEvents d
      rw [hm'.inputEvents,hm'.clients] at hd
      dsimp only at hd
      rwa [hin] at hd
    obtain htaken | ⟨o,ho,hoc⟩ := hserver
    · refine ⟨fun d b hb => ?_,htaken⟩
      rw [← selected_connected htaken,← hunion d,BitVec.getLsbD_or,hb]
      rfl
    · -- the server has taken over the last record: no selection is left
      have hnone : connected m.inputClients = [] := by simp [connected,ho,hoc]
      have hzero : ∀ d, selected (s.clients w) d = 0 ∧ selected m.inputClients d = 0 := by
        intro d
        have hd := hunion d
        rw [hnone,selected_nil] at hd
        exact BitVec.or_eq_zero_iff.1 hd
      have hxi2 : o.xi2mask = .empty := by
        have hx := hat.xi2mask
        rwa [hm'.xi2mask,hm'.clients,hnone,ho,selectedXi2_cons,selectedXi2_nil,Xi2Mask.merge_empty] at hx
      have hempty : o.Empty := by
        refine ⟨fun d => ?_,hxi2⟩
        have hd := (hzero d).2
        rw [ho,selected_cons,selected_nil] at hd
        simpa using hd
      refine ⟨fun d b hb => ?_,fun o' ho' _ => ?_⟩
      · rw [(hzero d).1] at hb
        simp at hb
      · rw [ho,List.mem_singleton] at ho'
        rwa [ho']

lemma mem_modifyFirst {p : InputClient → Bool} {f : InputClient → InputClient} {l : List InputClient} {o : InputClient}
    (h : o ∈ modifyFirst p f l) : o ∈ l ∨ ∃ o' ∈ l, p o' = true ∧ o = f o' := by
  induction l with
  | nil => cases h
  | cons x l ih =>
    rw [modifyFirst] at h
    split_ifs at h with hx
    · obtain rfl | h := List.mem_cons.1 h
      · exact Or.inr ⟨x,List.mem_cons_self,hx,rfl⟩
      · exact Or.inl (List.mem_cons_of_mem _ h)
    · obtain rfl | h := List.mem_cons.1 h
      · exact Or.inl List.mem_cons_self
      · obtain h | ⟨o',ho',hp,rfl⟩ := ih h
        · exact Or.inl (List.mem_cons_of_mem _ h)
        · exact Or.inr ⟨o',List.mem_cons_of_mem _ ho',hp,rfl⟩

lemma modifyFirst_of_none {p : InputClient → Bool} (f : InputClient → InputClient) {l : List InputClient}
    (h : l.find? p = none) : modifyFirst p f l = l := by
  induction l with
  | nil => rfl
  | cons x l ih =>
    rw [List.find?_cons] at h
    cases hx : p x with
    | true => simp [hx] at h
    | false =>
      rw [hx] at h
      rw [modifyFirst,hx,ih h]
      rfl

lemma selected_modifyFirst {p : InputClient → Bool} {f : InputClient → InputClient} (hf : ∀ o, (f o).mask = o.mask)
    (l : List InputClient) (d : Fin emaskSize) : selected (modifyFirst p f l) d = selected l d := by
  induction l with
  | nil => rfl
  | cons x l ih =>
    rw [modifyFirst]
    split_ifs
    · rw [selected_cons,selected_cons,hf]
    · rw [selected_cons,selected_cons,ih]

def TakenEmpty (l : List InputClient) : Prop := ∀ o ∈ l, o.resource.client = serverClient → o.Empty

lemma TakenEmpty.modifyFirst {client : ℕ} {f : InputClient → InputClient} {l : List InputClient} (h : TakenEmpty l)
    (hc : client ≠ serverClient) (hf : ∀ o, (f o).resource = o.resource) :
    TakenEmpty (modifyFirst (sameClient client) f l) := by
  intro o ho hserver
  obtain ho | ⟨o',-,hp,rfl⟩ := mem_modifyFirst ho
  · exact h o ho hserver
  · rw [hf] at hserver
    exact absurd ((by simpa [sameClient] using hp : o'.resource.client = client).symm.trans hserver) hc

lemma TakenEmpty.cons {o : InputClient} {l : List InputClient} (h : TakenEmpty l) (ho : o.resource.client ≠ serverClient) :
    TakenEmpty (o :: l) := by
  intro o' ho' hserver
  obtain rfl | ho' := List.mem_cons.1 ho'
  · exact absurd hserver ho
  · exact h o' ho' hserver

lemma kept_cons (o : InputClient) (l : List InputClient) : Kept l (o :: l) := by
  intro d b h
  rw [selected_cons,BitVec.getLsbD_or,h,Bool.or_true]

lemma old_masks (hs : Sound T s) (w : W) : ((s.inputMasks w).getD .make).inputClients = s.clients w ∧
    ∀ d, ((s.inputMasks w).getD .make).inputEvents d = selected (s.clients w) d := by
  cases hm : s.inputMasks w with
  | none =>
    rw [clients_of_none hm]
    exact ⟨rfl,fun d => rfl⟩
  | some m =>
    have htaken := hs.taken w
    rw [clients_of_some hm] at htaken ⊢
    exact ⟨rfl,fun d => ((hs.combined w m hm).inputEvents d).trans (selected_connected htaken d)⟩

lemma drop_effect {resource : Bool} {id : XID} {rc : Status} {m : OtherInputMasks} (hb : Beside T s s2 w)
    (hm : s2.inputMasks w = some m) (hfree : m.shouldFree false = true) (hzero : ∀ d, selected (s.clients w) d = 0)
    (htaken : TakenEmpty m.inputClients) (h : inputClientGone T resource s2 w id = .ok (rc,s')) :
    ∃ r, Effect T s s' w r ∧ Fine (s.clients w) r := by
  obtain ⟨s1,hs',hne,hcases⟩ := inputClientGone_cases hm h
  have hb1 : Beside T s s1 w := hb.change hne
  have hparts : (∀ i, m.dontPropagateMask i = 0) ∧ ∀ i, m.inputEvents i = 0 := by
    simpa [OtherInputMasks.shouldFree] using hfree
  have hkept : ∀ l, Kept (s.clients w) l := by
    intro l d b hb
    rw [hzero d] at hb
    simp at hb
  obtain ⟨o,-,-,hnone⟩ | ⟨o,fakeID,-,hnot,-⟩ | ⟨-,hsome⟩ := hcases
  · exact ⟨none,.freed hb1 hnone hs',fun l' hl' => nomatch hl'⟩
  · have : m.shouldFree true = true := by simp [OtherInputMasks.shouldFree,hparts.1]
    rw [this] at hnot
    cases hnot
  · have hsub : TakenEmpty (m.inputClients.eraseP (hasResource id)) := fun o ho => htaken o (List.mem_of_mem_eraseP ho)
    refine ⟨_,.changed hb1 hsome (fun d => ?_) (Or.inl hsub) hs',?_⟩
    · exact (hparts.2 d).trans (hzero d).symm
    · intro l' hl'
      obtain rfl := Option.some.inj hl'
      exact ⟨hkept _,hsub⟩

lemma same_effect (hs : Sound T s) (h : s'.inputMasks = s.inputMasks) :
    ∃ r, Effect T s s' w r ∧ Fine (s.clients w) r := by
  refine ⟨_,.same h,fun l' hl' => ?_⟩
  obtain rfl := Option.some.inj hl'
  exact ⟨kept_refl _,hs.taken w⟩

lemma changed_effect {m : OtherInputMasks} (hne : ∀ v, v ≠ w → s1.inputMasks v = s.inputMasks v)
    (hm : s1.inputMasks w = some m) (hin : ∀ d, m.inputEvents d = selected (s.clients w) d)
    (hkept : Kept (s.clients w) m.inputClients) (htaken : TakenEmpty m.inputClients)
    (h : s'.inputMasks = (recalculateDeviceDeliverableEvents T s1 w).inputMasks) :
    ∃ r, Effect T s s' w r ∧ Fine (s.clients w) r := by
  refine ⟨_,.changed (Beside.refl.change hne) hm hin (Or.inl htaken) h,fun l' hl' => ?_⟩
  obtain rfl := Option.some.inj hl'
  exact ⟨hkept,htaken⟩

end Windows

end Xlibre.Xinput
