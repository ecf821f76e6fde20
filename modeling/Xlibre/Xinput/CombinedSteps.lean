import Xlibre.Xinput.CombinedRun

/-! The combined masks are the unions of the selections in exactly those runs whose steps keep what is selected. -/
namespace Xlibre.Xinput
open Xlibre.Lib

section Windows

variable {W : Type} [DecidableEq W] {T : Lib.Tree W} {s s1 s' : Selections W} {w : W} {alloc : Allocs} {client : ℕ}

lemma modify_masks (s : Selections W) (w : W) (f : OtherInputMasks → OtherInputMasks) :
    (s.modify w f).inputMasks w = (s.inputMasks w).map f := Function.update_self _ _ _

lemma modify_ne (s : Selections W) (f : OtherInputMasks → OtherInputMasks) {v : W} (hv : v ≠ w) :
    (s.modify w f).inputMasks v = s.inputMasks v := Function.update_of_ne hv _ _

lemma setEventMask_effect {dev len : ℕ} {mask : ℕ → BitVec 8} {rc : Status} (hs : Sound T s) (hc : client ≠ serverClient)
    (hmem : ¬LeavesEmptyMasks s alloc (.setEventMask dev w client len mask))
    (h : xiSetEventMask T alloc s dev w client len mask = .ok (rc,s')) :
    ∃ r, Effect T s s' w r ∧ Fine (s.clients w) r := by
  obtain ⟨hold,hin⟩ := old_masks hs w
  have htaken := hs.taken w
  have hmask : ∀ o, (InputClient.setEventMask dev len mask o).mask = o.mask := fun _ => rfl
  unfold xiSetEventMask at h
  dsimp only at h
  split_ifs at h with hfound hlen
  · cases h
    cases hm : s.inputMasks w with
    | none => simp [clients_of_none hm] at hfound
    | some m =>
      rw [hm,Option.getD_some] at hin hold
      have hm1 := modify_masks s w fun m =>
        { m with inputClients := modifyFirst (sameClient client) (InputClient.setEventMask dev len mask) m.inputClients }
      rw [hm,Option.map_some] at hm1
      refine changed_effect (fun v hv => modify_ne s _ hv) hm1 hin ?_ ?_ rfl
      · intro d b hb
        dsimp only
        rwa [selected_modifyFirst hmask,hold]
      · rw [← hold] at htaken
        exact TakenEmpty.modifyFirst htaken hc fun _ => rfl
  · obtain ⟨⟨rc1,s1⟩,hadd,h⟩ := Checked.bind_eq_ok.1 h
    obtain ⟨hok,hnew⟩ | ⟨hrc,hfail⟩ := addExtensionClient_cases hadd
    · dsimp only at h
      rw [if_neg (not_not.2 hok)] at h
      cases h
      have hm1 := modify_masks s1 w fun m =>
        { m with inputClients := modifyFirst (fun _ => true) (InputClient.setEventMask dev len mask) m.inputClients }
      rw [hnew,Function.update_self,Option.map_some] at hm1
      refine changed_effect (fun v hv => ?_) hm1 hin ?_ ?_ rfl
      · rw [modify_ne _ _ hv,hnew,Function.update_of_ne hv]
      · rw [hold]
        exact kept_cons _ _
      · rw [hold]
        exact TakenEmpty.cons htaken hc
    · dsimp only at h
      rw [if_pos hrc] at h
      cases h
      exact same_effect hs (hfail.resolve_right hmem)
  · cases h
    cases hm : s.inputMasks w with
    | none => exact ⟨none,.freed Beside.refl hm rfl,fun l' hl' => nomatch hl'⟩
    | some m =>
      rw [hm,Option.getD_some] at hin hold
      exact changed_effect (fun v hv => rfl) hm hin (by rw [hold]; exact kept_refl _) (by rwa [hold]) rfl

lemma setDontPropagate_cases {mask : Mask} {maskndx : Fin emaskSize} {rc : Status}
    (h : setDontPropagate alloc s w client mask maskndx = .ok (rc,s1)) :
    (rc ≠ .success ∧ (s1.inputMasks = s.inputMasks ∨
      s.inputMasks w = none ∧ alloc.record = true ∧ alloc.inputMasks = true ∧ alloc.xi2mask = false)) ∨
    (rc = .success ∧ (∀ v, v ≠ w → s1.inputMasks v = s.inputMasks v) ∧
      (s1.inputMasks w = none ∨ ∃ m l, s1.inputMasks w = some m ∧
        m.inputEvents = ((s.inputMasks w).getD .make).inputEvents ∧ m.inputClients = l ++ ((s.inputMasks w).getD .make).inputClients ∧
        ∀ o ∈ l, o.resource.client = client)) := by
  unfold setDontPropagate at h
  dsimp only at h
  split_ifs at h with hnone
  · obtain ⟨⟨rc1,s2⟩,hadd,h⟩ := Checked.bind_eq_ok.1 h
    obtain ⟨hok,hnew⟩ | ⟨hrc,hfail⟩ := addExtensionClient_cases hadd
    · dsimp only at h
      rw [if_neg (not_not.2 hok)] at h
      cases h
      refine Or.inr ⟨rfl,fun v hv => ?_,Or.inr ?_⟩
      · rw [modify_ne _ _ hv,hnew,Function.update_of_ne hv]
      · rw [modify_masks,hnew,Function.update_self,Option.map_some]
        refine ⟨_,[⟨⟨client,s.fakeID client⟩,Function.update (fun _ => 0) 0 0,.empty⟩],rfl,rfl,rfl,?_⟩
        intro o ho
        obtain rfl := List.mem_singleton.1 ho
        rfl
    · dsimp only at h
      rw [if_pos hrc] at h
      cases h
      exact Or.inl ⟨hrc,hfail⟩
  · cases h
    refine Or.inr ⟨rfl,fun v hv => modify_ne _ _ hv,?_⟩
    rw [modify_masks]
    cases hm : s.inputMasks w with
    | none => exact Or.inl rfl
    | some m => exact Or.inr ⟨_,[],rfl,rfl,rfl,fun o ho => nomatch ho⟩

lemma kept_append (l l' : List InputClient) : Kept l (l' ++ l) := by
  induction l' with
  | nil => exact kept_refl l
  | cons o l' ih => exact fun d b h => kept_cons o _ d b (ih d b h)

lemma suppress_effect {mask : Mask} {maskndx : Fin emaskSize} {rc : Status} (hs : Sound T s) (hc : client ≠ serverClient)
    (hmem : ¬LeavesEmptyMasks s alloc (.suppress w client mask maskndx))
    (h : deviceEventSuppressForWindow T alloc s w client mask maskndx = .ok (rc,s')) :
    ∃ r, Effect T s s' w r ∧ Fine (s.clients w) r := by
  obtain ⟨hold,hin⟩ := old_masks hs w
  unfold deviceEventSuppressForWindow at h
  split_ifs at h with hbad
  · cases h
    exact same_effect hs rfl
  obtain ⟨⟨rc1,s1⟩,hset,h⟩ := Checked.bind_eq_ok.1 h
  dsimp only at h
  obtain ⟨hrc,hfail⟩ | ⟨hrc,hne,hnone | ⟨m,l,hm,hmin,hcl,hown⟩⟩ := setDontPropagate_cases hset
  · rw [if_pos hrc] at h
    cases h
    exact same_effect hs (hfail.resolve_right hmem)
  · -- masks are read that are not there
    rw [if_neg (not_not.2 hrc)] at h
    unfold dropUnused at h
    rw [recalculate_none hnone] at h
    cases h
  · rw [if_neg (not_not.2 hrc)] at h
    have htaken : TakenEmpty m.inputClients := by
      intro o ho hserver
      rw [hcl,hold] at ho
      obtain ho | ho := List.mem_append.1 ho
      · exact absurd ((hown o ho).symm.trans hserver) hc
      · exact hs.taken w o ho hserver
    have hkept : Kept (s.clients w) m.inputClients := by
      rw [hcl,hold]
      exact kept_append _ _
    have hin' : ∀ d, m.inputEvents d = selected (s.clients w) d := fun d => by rw [hmin,hin]
    obtain ⟨m2,hm2⟩ := recalculate_some (T := T) (mem_subtree_self w) hm
    unfold dropUnused at h
    rw [hm2.found] at h
    dsimp only at h
    split_ifs at h with hfree
    · split at h
      · cases h
        exact changed_effect hne hm hin' hkept htaken rfl
      · obtain ⟨⟨rc2,s3⟩,hgone,h⟩ := Checked.bind_eq_ok.1 h
        cases h
        refine drop_effect ((Beside.refl.change hne).recalculate hs) hm2.found hfree (fun d => ?_) ?_ hgone
        · have hparts : (∀ i, m2.dontPropagateMask i = 0) ∧ ∀ i, m2.inputEvents i = 0 := by
            simpa [OtherInputMasks.shouldFree] using hfree
          have hd := hparts.2 d
          rw [hm2.inputEvents] at hd
          rw [← hin' d]
          exact (BitVec.or_eq_zero_iff.1 hd).1
        · rw [hm2.clients]
          exact htaken
    · cases h
      exact changed_effect hne hm hin' hkept htaken rfl

lemma select_effect {mskidx : Fin emaskSize} {mask exclusivemasks : Mask} {rc : Status} (hs : Sound T s)
    (hc : client ≠ serverClient) (hmem : ¬LeavesEmptyMasks s alloc (.select mskidx w client mask exclusivemasks))
    (h : selectForWindow T alloc s mskidx w client mask exclusivemasks = .ok (rc,s')) :
    ∃ r, Effect T s s' w r ∧ (Covered s (.select mskidx w client mask exclusivemasks) ↔ Fine (s.clients w) r) := by
  obtain ⟨hold,hin⟩ := old_masks hs w
  have hcovered : ∀ {r}, Effect T s s' w r ∧ Fine (s.clients w) r →
      Covered s (.select mskidx w client mask exclusivemasks) → ∃ r, Effect T s s' w r ∧
        (Covered s (.select mskidx w client mask exclusivemasks) ↔ Fine (s.clients w) r) :=
    fun hr hcov => ⟨_,hr.1,iff_of_true hcov hr.2⟩
  unfold selectForWindow at h
  split_ifs at h with hconf
  · cases h
    obtain ⟨r,hr⟩ := same_effect (w := w) hs (Eq.refl s.inputMasks)
    exact hcovered hr fun hno => by simp [hconf] at hno
  rw [Bool.not_eq_true] at hconf
  split at h
  · next others hfound =>
    cases hm : s.inputMasks w with
    | none => simp [clients_of_none hm] at hfound
    | some m =>
      rw [hm,Option.getD_some] at hin hold
      have hm1 := modify_masks s w fun m =>
        { m with inputClients := modifyFirst (sameClient client) (InputClient.setMask mskidx mask) m.inputClients }
      rw [hm,Option.map_some] at hm1
      have htaken : TakenEmpty (modifyFirst (sameClient client) (InputClient.setMask mskidx mask) m.inputClients) := by
        rw [hold]
        exact TakenEmpty.modifyFirst (hs.taken w) hc fun _ => rfl
      obtain ⟨m2,hm2⟩ := recalculate_some (T := T) (mem_subtree_self w) hm1
      dsimp only at h
      split_ifs at h with hdrop
      · obtain ⟨⟨rc2,s3⟩,hgone,h⟩ := Checked.bind_eq_ok.1 h
        cases h
        have hfree : m2.shouldFree false = true := by simpa [hm2.found] using hdrop.2.2
        have hparts : (∀ i, m2.dontPropagateMask i = 0) ∧ ∀ i, m2.inputEvents i = 0 := by
          simpa [OtherInputMasks.shouldFree] using hfree
        have hzero : ∀ d, selected (s.clients w) d = 0 := by
          intro d
          have hd := hparts.2 d
          rw [hm2.inputEvents] at hd
          rw [← hin d]
          exact (BitVec.or_eq_zero_iff.1 hd).1
        obtain ⟨r,hr⟩ := drop_effect ((Beside.refl.change fun v hv => modify_ne s _ hv).recalculate hs) hm2.found hfree
          hzero (by rw [hm2.clients]; exact htaken) hgone
        refine hcovered hr fun _ d b hb => ?_
        rw [hzero d] at hb
        simp at hb
      · cases h
        refine ⟨_,.changed (Beside.refl.change fun v hv => modify_ne s _ hv) hm1 hin (Or.inl htaken) rfl,?_⟩
        dsimp only
        rw [hold]
        constructor
        · intro hcov l' hl'
          obtain rfl := Option.some.inj hl'
          rw [hold] at htaken
          exact ⟨hcov hconf,htaken⟩
        · exact fun hf _ => (hf _ rfl).1
  · next hnotfound =>
    have hcov : Covered s (.select mskidx w client mask exclusivemasks) := by
      intro _
      rw [modifyFirst_of_none _ hnotfound]
      exact kept_refl _
    obtain ⟨⟨rc1,s1⟩,hadd,h⟩ := Checked.bind_eq_ok.1 h
    dsimp only at h
    obtain ⟨hok,hnew⟩ | ⟨hrc,hfail⟩ := addExtensionClient_cases hadd
    · rw [if_neg (not_not.2 hok)] at h
      cases h
      have hm1 := congrFun hnew w
      rw [Function.update_self] at hm1
      obtain ⟨r,hr⟩ := changed_effect (T := T) (fun v hv => by rw [hnew,Function.update_of_ne hv]) hm1 hin
        (by rw [hold]; exact kept_cons _ _) (by rw [hold]; exact TakenEmpty.cons (hs.taken w) hc)
        (Eq.refl (recalculateDeviceDeliverableEvents T s1 w).inputMasks)
      exact hcovered hr hcov
    · rw [if_pos hrc] at h
      cases h
      obtain ⟨r,hr⟩ := same_effect hs (hfail.resolve_right hmem)
      exact hcovered hr hcov

lemma gone_effect {resource : Bool} {id : XID} {rc : Status} (hs : Sound T s) (hmem : ∃ o ∈ s.clients w, o.resource = id)
    (h : inputClientGone T resource s w id = .ok (rc,s')) :
    ∃ r, Effect T s s' w r ∧ (Covered s (.gone w id) ↔ Fine (s.clients w) r) := by
  cases hm : s.inputMasks w with
  | none =>
    rw [clients_of_none hm] at hmem
    simp at hmem
  | some m =>
    have hold := clients_of_some hm
    have htaken := hs.taken w
    have hin : ∀ d, m.inputEvents d = selected (s.clients w) d := by
      have := (old_masks hs w).2
      rwa [hm,Option.getD_some] at this
    obtain ⟨s1,hs',hne,hcases⟩ := inputClientGone_cases hm h
    have hb : Beside T s s1 w := Beside.refl.change hne
    unfold Covered
    dsimp only
    rw [hold] at htaken hin ⊢
    obtain ⟨o,ho,hfree,hnone⟩ | ⟨o,fakeID,ho,hfree,hsome⟩ | ⟨hone,hsome⟩ := hcases
    · rw [ho]
      refine ⟨none,.freed hb hnone hs',iff_of_true (Or.inl fun m' hm' => ?_) fun l' hl' => nomatch hl'⟩
      obtain rfl : m = m' := Option.some.inj (hm.symm.trans hm')
      exact hfree
    · have heff := Effect.changed hb hsome (fun d => by rw [hold]; exact hin d) (Or.inr ⟨_,rfl,rfl⟩) hs'
      refine ⟨_,heff,?_⟩
      rw [ho]
      dsimp only
      constructor
      · rintro (hall | hempty) l' hl'
        · rw [hall m hm] at hfree
          cases hfree
        · obtain rfl := Option.some.inj hl'
          refine ⟨fun d b hb => hb,fun o' ho' _ => ?_⟩
          obtain rfl := List.mem_singleton.1 ho'
          exact ⟨hempty.mask,hempty.xi2mask⟩
      · intro hf
        have hempty := (hf _ rfl).2 _ (List.mem_singleton_self _) rfl
        exact Or.inr ⟨hempty.mask,hempty.xi2mask⟩
    · have hsub : TakenEmpty (m.inputClients.eraseP (hasResource id)) := fun o ho => htaken o (List.mem_of_mem_eraseP ho)
      refine ⟨_,.changed hb hsome (fun d => by rw [hold]; exact hin d) (Or.inl hsub) hs',?_⟩
      split
      · next o ho => exact absurd ho (hone o)
      · constructor
        · intro hkept l' hl'
          obtain rfl := Option.some.inj hl'
          exact ⟨hkept,hsub⟩
        · exact fun hf => (hf _ rfl).1

lemma step_sound {action : Action W} (hs : Sound T s) (h : Step T s action alloc s')
    (hmem : ¬LeavesEmptyMasks s alloc action) :
    (Covered s action ∧ Clear T s' → Sound T s') ∧ (Combined T s' → Covered s action ∧ Clear T s') := by
  have heffect : ∃ r, Effect T s s' action.window r ∧ (Covered s action ↔ Fine (s.clients action.window) r) := by
    obtain ⟨hclient,rc,hrun⟩ := h
    cases action with
    | select mskidx w client mask exclusivemasks => exact select_effect hs hclient hmem hrun
    | setEventMask dev w client len mask =>
      obtain ⟨r,he,hf⟩ := setEventMask_effect hs hclient hmem hrun
      exact ⟨r,he,iff_of_true trivial hf⟩
    | suppress w client mask maskndx =>
      obtain ⟨r,he,hf⟩ := suppress_effect hs hclient hmem hrun
      exact ⟨r,he,iff_of_true trivial hf⟩
    | gone w id => exact gone_effect hs hclient.2 hrun
  obtain ⟨r,he,hiff⟩ := heffect
  refine ⟨fun hc => he.sound hs (hiff.1 hc.1) hc.2,fun hc => ?_⟩
  obtain ⟨hf,hclear⟩ := he.fine hs hc
  exact ⟨hiff.2 hf,hclear⟩

lemma sound_start (fakeID : ℕ → ℕ) : Sound T ⟨fun _ => none,fakeID⟩ := by
  refine ⟨fun w m hm => (nomatch hm),fun w d b => ?_,fun w o ho => (nomatch ho)⟩
  simp [Selections.Deliverable,Selections.Input]

/-- What a step must be like for the combined masks to be right after it. -/
def Meets (T : Lib.Tree W) (x : Taken W) : Prop := Covered x.before x.action ∧ Clear T x.after

lemma run_sound {l : List (Taken W)} (h : Run T l s) (hmem : ∀ x ∈ l, ¬LeavesEmptyMasks x.before x.alloc x.action) :
    ((∀ x ∈ l, Meets T x) → Sound T s) ∧ ((∀ x ∈ l, Combined T x.after) → (∀ x ∈ l, Meets T x) ∧ Sound T s) := by
  induction h with
  | start fakeID => exact ⟨fun _ => sound_start fakeID,fun _ => ⟨fun x hx => (nomatch hx),sound_start fakeID⟩⟩
  | @step l s s' action alloc _ hstep ih =>
    obtain ⟨hmem1,hmem⟩ := List.forall_mem_cons.1 hmem
    obtain ⟨ihMeets,ihCombined⟩ := ih hmem
    constructor
    · intro hall
      obtain ⟨hx,hall⟩ := List.forall_mem_cons.1 hall
      exact (step_sound (ihMeets hall) hstep hmem1).1 hx
    · intro hall
      obtain ⟨hx,hall⟩ := List.forall_mem_cons.1 hall
      obtain ⟨hmeets,hs⟩ := ihCombined hall
      have hnew := (step_sound hs hstep hmem1).2 hx
      exact ⟨List.forall_mem_cons.2 ⟨hnew,hmeets⟩,(step_sound hs hstep hmem1).1 hnew⟩

/-- In every run whose steps leave no masks without a record, the combined masks are right after every step just when
every step covers what was selected and passes no suppressing window over. -/
theorem combined_iff_meets {l : List (Taken W)} (h : Run T l s)
    (hmem : ∀ x ∈ l, ¬LeavesEmptyMasks x.before x.alloc x.action) :
    (∀ x ∈ l, Combined T x.after) ↔ ∀ x ∈ l, Meets T x := by
  refine ⟨fun hall => ((run_sound h hmem).2 hall).1,fun hall => ?_⟩
  -- every state of the run is the last one of a shorter run
  induction h with
  | start => exact fun x hx => nomatch hx
  | @step l s s' action alloc hrun hstep ih =>
    have hsound := (run_sound (hrun.step hstep) hmem).1 hall
    exact List.forall_mem_cons.2 ⟨hsound.combined,
      ih (List.forall_mem_cons.1 hmem).2 (List.forall_mem_cons.1 hall).2⟩

end Windows

def selectOnRoot (client : ℕ) (mask : Mask) : Action Unit := .select 2 () client mask 0

/-- A client that selects KeyPress, and then KeyRelease only, still has both in the window's combined mask. -/
theorem combined_narrowed_not : ¬∀ (l : List (Taken Unit)) (s : Selections Unit), Run rootWindow l s →
    ∀ x ∈ l, Combined rootWindow x.after := by
  intro h
  have hruns : ∃ s1 s2 m, (selectOnRoot 1 1#32).run rootWindow .all ⟨fun _ => none,fun _ => 0⟩ = .ok (.success,s1) ∧
      (selectOnRoot 1 2#32).run rootWindow .all s1 = .ok (.success,s2) ∧ s2.inputMasks () = some m ∧
      m.inputEvents 2 = 3#32 ∧ selected (connected m.inputClients) 2 = 2#32 :=
    ⟨_,_,_,rfl,rfl,rfl,rfl,rfl⟩
  obtain ⟨s1,s2,m,h1,h2,hm,hin,hsel⟩ := hruns
  have hclient : (1 : ℕ) ≠ serverClient := by decide
  have hstep1 : Step rootWindow ⟨fun _ => none,fun _ => 0⟩ (selectOnRoot 1 1#32) .all s1 := ⟨hclient,_,h1⟩
  have hstep2 : Step rootWindow s1 (selectOnRoot 1 2#32) .all s2 := ⟨hclient,_,h2⟩
  have hrun := ((Run.start fun _ => 0).step hstep1).step hstep2
  have hat := h _ _ hrun _ List.mem_cons_self () m hm
  have hunion := hat.inputEvents 2
  rw [hin,hsel] at hunion
  exact absurd hunion (by decide)

/-- Two clients select events on a window. -/
theorem combined_iff_meets_two :
    ∃ l s, Run rootWindow l s ∧ l.length = 2 ∧ (s.clients ()).length = 2 ∧ ∀ x ∈ l, Combined rootWindow x.after := by
  have hruns : ∃ s1 s2, (selectOnRoot 1 1#32).run rootWindow .all ⟨fun _ => none,fun _ => 0⟩ = .ok (.success,s1) ∧
      (selectOnRoot 2 2#32).run rootWindow .all s1 = .ok (.success,s2) ∧
      (s1.clients ()).find? (sameClient 2) = none ∧ (s2.clients ()).length = 2 :=
    ⟨_,_,rfl,rfl,rfl,rfl⟩
  obtain ⟨s1,s2,h1,h2,hnew,hlen⟩ := hruns
  have hone : (1 : ℕ) ≠ serverClient := by decide
  have htwo : (2 : ℕ) ≠ serverClient := by decide
  have hstep1 : Step rootWindow ⟨fun _ => none,fun _ => 0⟩ (selectOnRoot 1 1#32) .all s1 := ⟨hone,_,h1⟩
  have hstep2 : Step rootWindow s1 (selectOnRoot 2 2#32) .all s2 := ⟨htwo,_,h2⟩
  have hrun := ((Run.start fun _ => 0).step hstep1).step hstep2
  -- a window without ancestors has nothing passed to it
  have hclear : ∀ s, Clear rootWindow s := by
    rintro s ⟨⟩ _ d b _ ⟨-,t,ht,-⟩
    cases ht
  refine ⟨_,_,hrun,rfl,hlen,(combined_iff_meets hrun ?_).2 ?_⟩
  · intro x hx
    simp only [List.mem_cons,List.not_mem_nil,or_false] at hx
    obtain rfl | rfl := hx <;> exact fun hno => by simp [LeavesEmptyMasks,Allocs.all] at hno
  · intro x hx
    simp only [List.mem_cons,List.not_mem_nil,or_false] at hx
    obtain rfl | rfl := hx
    · refine ⟨fun _ => ?_,hclear _⟩
      dsimp only
      rw [modifyFirst_of_none _ hnew]
      exact kept_refl _
    · exact ⟨fun _ => kept_refl _,hclear _⟩

end Xlibre.Xinput
