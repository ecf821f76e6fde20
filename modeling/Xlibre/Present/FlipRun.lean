import Mathlib.Data.List.Infix
import Xlibre.Present.Stranded

/-! Runs of a screen in which no presentation is left behind on the flip queue. -/
namespace Xlibre.Present

/-- With no flip and no unflip under way, nothing on the flip queue waits for one. -/
def State.NotStranded (s : State) : Prop :=
  s.flipPending = none → s.unflipEventId = 0 → ∀ id ∈ s.flipQueue, (s.vblank id).queued = false

section Reconfigure

variable {env : Env} {s : State} {window : Window}

lemma sight_checkQueued (g : Geometry) (id : ℕ) : (checkQueued g window s id).sight = s.sight := by
  unfold checkQueued
  dsimp only
  split
  · exact sight_set_same s id _ rfl rfl
  · rfl

lemma sight_checkQueued_foldl (g : Geometry) (l : List ℕ) : (l.foldl (checkQueued g window) s).sight = s.sight := by
  induction l generalizing s with
  | nil => rfl
  | cons id l ih => exact (ih (s := checkQueued g window s id)).trans (sight_checkQueued g id)

lemma checkFlipping_cases (g : Geometry) : (checkFlipping g s window).sight = s.sight ∨
    (s.flipPending = none ∧ (checkFlipping g s window).sight = s.sight.unflip) := by
  unfold checkFlipping
  cases hp : s.flipPending with
  | some pending =>
    dsimp only
    split_ifs
    · exact .inl (sight_setAbortFlip s pending)
    · exact .inl rfl
  | none =>
    dsimp only
    split_ifs
    · exact .inr ⟨rfl,rfl⟩
    · exact .inl rfl

lemma checkFlipWindow_cases (env : Env) (s : State) (window : Window) : (presentCheckFlipWindow env s window).sight = s.sight ∨
    (s.flipPending = none ∧ (presentCheckFlipWindow env s window).sight = s.sight.unflip) := by
  unfold presentCheckFlipWindow
  cases s.window window with
  | none => exact .inl rfl
  | some priv =>
    dsimp only
    split_ifs
    · exact .inl rfl
    · rw [sight_checkQueued_foldl]
      exact checkFlipping_cases env.geometry

end Reconfigure

section Pixmap

variable {env : Env} {s : State} {id : ℕ}

lemma put_queued {t : Sight} (hq : t.queued id = true) : (t.put id true none).queued = t.queued := by
  refine (congrArg (Function.update t.queued id) hq.symm).trans ?_
  exact Function.update_eq_self id t.queued

lemma Sight.Inv.put {t : Sight} (h : t.Inv) (hq : t.queued id = true) : (t.put id true none).Inv := by
  have hqueued := put_queued hq
  refine ⟨h.nodup,?_,h.execQueue_le,h.flipQueue_le,?_,h.single,?_,h.window⟩
  · rw [hqueued]
    exact h.queued
  · rw [hqueued]
    exact h.pending
  · intro i hi hi'
    rw [hqueued] at hi'
    have hne : i ≠ id := by
      rintro rfl
      exact absurd (hq.symm.trans hi') Bool.noConfusion
    exact fun hn => h.pixmap i hi hi' ((Function.update_of_ne hne _ _).symm.trans hn)

lemma Sight.NotStranded.put {t : Sight} (h : t.NotStranded) (hq : t.queued id = true) : (t.put id true none).NotStranded := by
  intro hp hu i hi
  rw [put_queued hq]
  exact h hp hu i hi

/-- Both that nothing waits in vain and what that rests on. -/
def Fine (s : State) : Prop := s.sight.Inv ∧ s.sight.NotStranded

lemma Fine.of_sight {s' : State} (h : Fine s) (hs : s'.sight = s.sight) : Fine s' := by
  rw [Fine,hs]
  exact h

lemma Fine.execute {crtcMsc : UInt64} (h : Fine s) (hid : (s.vblank id).pixmap ≠ none → Executable s id) :
    Fine (presentExecute env s id crtcMsc) := ⟨presentExecute_inv h.1 hid,presentExecute_notStranded h.2⟩

lemma Fine.scrapSame (h : Fine s) (crtc : Option Crtc) (targetMsc : UInt64) (id : ℕ) :
    Fine (scrapSame env crtc targetMsc s id) := by
  unfold Present.scrapSame
  dsimp only
  split_ifs with hskip hready
  · exact h
  all_goals
    push Not at hskip
    have hq : (s.vblank id).queued = true := by simpa using hskip.2.1
    have hput : (s.set id { s.vblank id with pixmap := none, flip := false }).sight = s.sight.put id true none := by
      rw [sight_set,hq]
    have hf : Fine (s.set id { s.vblank id with pixmap := none, flip := false }) := by
      rw [Fine,hput]
      exact ⟨h.1.put hq,h.2.put hq⟩
  · refine hf.execute fun hp => absurd ?_ hp
    exact congrArg Vblank.pixmap (if_pos rfl)
  · exact hf

lemma Fine.scrapAll (h : Fine s) (crtc : Option Crtc) (targetMsc : UInt64) (l : List ℕ) :
    Fine (l.foldl (Present.scrapSame env crtc targetMsc) s) := by
  induction l generalizing s with
  | nil => exact h
  | cons id l ih => exact ih (h.scrapSame crtc targetMsc id)

/-- A new vblank goes to the queue for execution. -/
def Sight.create (t : Sight) (pixmap : Option Pixmap) : Sight :=
  { t with
    eventId := t.eventId+1
    execQueue := t.execQueue ++ [t.eventId+1]
    queued := Function.update t.queued (t.eventId+1) true
    pixmap := Function.update t.pixmap (t.eventId+1) pixmap }

lemma Sight.Inv.create {t : Sight} (h : t.Inv) (pixmap : Option Pixmap) : (t.create pixmap).Inv := by
  have hne {i : ℕ} (hi : i ≤ t.eventId) : i ≠ t.eventId+1 := by omega
  have hold {i : ℕ} (hi : i ≤ t.eventId) : (t.create pixmap).queued i = t.queued i := Function.update_of_ne (hne hi) _ _
  refine ⟨h.nodup,?_,?_,fun i hi => Nat.le_succ_of_le (h.flipQueue_le i hi),?_,h.single,?_,h.window⟩
  · intro i hi
    obtain hi | hi := List.mem_append.1 hi
    · exact (hold (h.execQueue_le i hi)).trans (h.queued i hi)
    · rw [List.mem_singleton.1 hi]
      exact Function.update_self _ _ _
  · intro i hi
    obtain hi | hi := List.mem_append.1 hi
    · exact Nat.le_succ_of_le (h.execQueue_le i hi)
    · rw [List.mem_singleton.1 hi]
      exact le_rfl
  · intro i hi hq
    exact h.pending i hi ((hold (h.flipQueue_le i hi)).symm.trans hq)
  · intro i hi hq
    have hp := h.pixmap i hi ((hold (h.flipQueue_le i hi)).symm.trans hq)
    exact fun hn => hp ((Function.update_of_ne (hne (h.flipQueue_le i hi)) _ _).symm.trans hn)

lemma Sight.NotStranded.create {t : Sight} (h : t.NotStranded) (hi : t.Inv) (pixmap : Option Pixmap) :
    (t.create pixmap).NotStranded := by
  intro hp hu i hq
  have hne : i ≠ t.eventId+1 := by
    have hle := hi.flipQueue_le i hq
    omega
  exact (Function.update_of_ne hne _ _).trans (h hp hu i hq)

lemma Fine.presentNew (h : Fine s) (r : Request) (crtc : Option Crtc) (targetMsc crtcMsc : UInt64) :
    Fine (presentNew env s r crtc targetMsc crtcMsc) := by
  unfold Present.presentNew
  dsimp only
  have hv : (presentVblankInit env s r crtc targetMsc crtcMsc).queued = true := rfl
  generalize presentVblankInit env s r crtc targetMsc crtcMsc = v at hv
  let s' : State := { s with eventId := s.eventId+1, execQueue := s.execQueue ++ [s.eventId+1] }.set (s.eventId+1) v
  have hsight : (s'.setWindow r.window fun p => { p with vblank := p.vblank ++ [s.eventId+1] }).sight = s.sight.create v.pixmap := by
    rw [sight_setWindow,sight_set,hv]
    rfl
  have hf : Fine (s'.setWindow r.window fun p => { p with vblank := p.vblank ++ [s.eventId+1] }) := by
    rw [Fine,hsight]
    exact ⟨h.1.create _,h.2.create h.1 _⟩
  split
  · exact hf
  · refine hf.execute fun _ => ⟨le_rfl,.inl ?_⟩
    exact (congrFun (congrArg Sight.queued hsight) (s.eventId+1)).trans (Function.update_self _ _ _)

lemma Fine.scrapOverwritten (h : Fine s) (r : Request) (l : List ℕ) (crtc : Option Crtc) (targetMsc : UInt64) :
    Fine (scrapOverwritten env s r l crtc targetMsc) := by
  unfold Present.scrapOverwritten
  split_ifs
  · exact h.scrapAll crtc targetMsc l
  · exact h

lemma Fine.setPriv (h : Fine s) (w : Window) (priv : WindowPriv) : Fine (s.setPriv w priv) := h

lemma Fine.presentForWindow (h : Fine s) (r : Request) (priv : WindowPriv) : Fine (presentForWindow env s r priv) := by
  unfold Present.presentForWindow
  dsimp only
  have hscrap (priv : WindowPriv) (l : List ℕ) (crtc : Option Crtc) (targetMsc : UInt64) :=
    show Fine (Present.scrapOverwritten env (s.setPriv r.window priv) r l crtc targetMsc) from
      (h.setPriv r.window priv).scrapOverwritten r l crtc targetMsc
  split
  · exact (hscrap _ _ _ _).presentNew r _ _ _
  · exact hscrap _ _ _ _

lemma Fine.presentScmdPixmap (h : Fine s) (r : Request) : Fine (presentScmdPixmap env s r) := by
  unfold Present.presentScmdPixmap
  cases s.window r.window with
  | some priv => exact h.presentForWindow r priv
  | none =>
    dsimp only
    split_ifs
    · exact h.presentForWindow r .new
    · exact h

end Pixmap

section Run

variable {env : Env} {s : State} {id : ℕ}

/-- The condition on a step: when a flip that is not aborted is over, or an unflip, what waits on the flip queue can be tried
again. -/
def Meets (s : State) : Env × Action → Prop
  | (env,.eventNotify id _) => id ≠ 0 → id ∉ s.execQueue →
    (id ∈ s.flipQueue → (s.vblank id).queued = false →
      (s.vblank id).abortFlip = true ∨ Retried env s (some (s.vblank id).window)) ∧
    (id ∉ s.flipQueue → id = s.unflipEventId → Retried env s none)
  | _ => True

lemma executable_exec (hs : s.sight.Inv) (hid : id ∈ s.execQueue) : Executable s id :=
  ⟨hs.execQueue_le id hid,.inl (hs.queued id hid)⟩

lemma executable_flip (hs : s.sight.Inv) (hid : id ∈ s.flipQueue) : Executable s id := ⟨hs.flipQueue_le id hid,.inr hid⟩

lemma eventNotify_inv (hs : s.sight.Inv) (msc : UInt64) : (presentEventNotify env s id msc).sight.Inv := by
  unfold presentEventNotify
  split_ifs with h0 hx hf hq hu
  · exact hs
  · exact presentExecute_inv hs fun _ => executable_exec hs hx
  · exact presentExecute_inv hs fun _ => executable_flip hs hf
  · exact presentFlipTryReady_inv (flipDone_inv hs hf (Bool.eq_false_iff.2 hq))
  · exact presentFlipTryReady_inv (unflipDone_inv hs)
  · exact hs

lemma eventNotify_notStranded_iff (h : Fine s) (msc : UInt64) :
    (presentEventNotify env s id msc).sight.NotStranded ↔ Meets s (env,.eventNotify id msc) := by
  unfold presentEventNotify Meets
  split_ifs with h0 hx hf hq hu
  · exact iff_of_true h.2 fun hn => absurd h0 hn
  · exact iff_of_true (presentExecute_notStranded h.2) fun _ hn => absurd hx hn
  · refine iff_of_true (presentExecute_notStranded h.2) fun _ _ => ⟨fun _ hn => ?_,fun hn => absurd hf hn⟩
    exact absurd (hq.symm.trans hn) Bool.noConfusion
  · have hq := Bool.eq_false_iff.2 hq
    rw [presentFlipNotify_notStranded_iff h.1 hf hq]
    exact ⟨fun hr _ _ => ⟨fun _ _ => hr,fun hn => absurd hf hn⟩,fun hr => (hr h0 hx).1 hf hq⟩
  · rw [unflip_notStranded_iff h.1 (hu ▸ h0)]
    exact ⟨fun hr _ _ => ⟨fun hn => absurd hn hf,fun _ _ => hr⟩,fun hr => (hr h0 hx).2 hf hu⟩
  · exact iff_of_true h.2 fun _ _ => ⟨fun hn => absurd hn hf,fun _ hn => absurd hn hu⟩

lemma Fine.fenceTriggered (h : Fine s) : Fine (presentWaitFenceTriggered env s id) := by
  unfold presentWaitFenceTriggered
  split_ifs with hid
  · refine h.execute fun _ => ?_
    obtain hx | hf := hid.1
    · exact executable_exec h.1 hx
    · exact executable_flip h.1 hf
  · exact h

lemma Fine.checkFlipWindow (h : Fine s) (w : Window) : Fine (presentCheckFlipWindow env s w) := by
  obtain hc | ⟨hp,hc⟩ := checkFlipWindow_cases env s w
  · exact h.of_sight hc
  · rw [Fine,hc]
    exact ⟨h.1.unflip hp,Sight.NotStranded.unflip⟩

lemma step_fine_iff (h : Fine s) (e : Env × Action) : (step s e).NotStranded ↔ Meets s e := by
  obtain ⟨env,action⟩ := e
  cases action with
  | pixmap r => exact iff_of_true (h.presentScmdPixmap r).2 trivial
  | eventNotify id msc => exact eventNotify_notStranded_iff h msc
  | fenceTriggered id => exact iff_of_true h.fenceTriggered.2 trivial
  | checkFlipWindow w => exact iff_of_true (h.checkFlipWindow w).2 trivial

lemma step_inv (h : Fine s) (e : Env × Action) : (step s e).sight.Inv := by
  obtain ⟨env,action⟩ := e
  cases action with
  | pixmap r => exact (h.presentScmdPixmap r).1
  | eventNotify id msc => exact eventNotify_inv h.1 msc
  | fenceTriggered id => exact h.fenceTriggered.1
  | checkFlipWindow w => exact (h.checkFlipWindow w).1

lemma run_iff (h : Fine s) (steps : List (Env × Action)) :
    (∀ front, front <+: steps → (run s front).NotStranded) ↔ ∀ front e, front ++ [e] <+: steps → Meets (run s front) e := by
  induction steps generalizing s with
  | nil =>
    refine iff_of_true (fun front hf => ?_) fun front e hf => ?_
    · rw [List.prefix_nil.1 hf]
      exact h.2
    · exact absurd (List.prefix_nil.1 hf) (List.append_ne_nil_of_right_ne_nil _ (List.cons_ne_nil e []))
  | cons e steps ih =>
    constructor
    · intro hall
      have he : (step s e).NotStranded := hall [e] ⟨steps,rfl⟩
      have hrest := (ih ⟨step_inv h e,he⟩).1 fun front hf => hall (e::front) (List.prefix_cons_iff.2 (.inr ⟨front,rfl,hf⟩))
      intro front e' hf
      cases front with
      | nil =>
        obtain rfl : e' = e := (List.cons_prefix_cons.1 hf).1
        exact (step_fine_iff h e').1 he
      | cons e'' front =>
        obtain ⟨rfl,hf'⟩ := List.cons_prefix_cons.1 hf
        exact hrest front e' hf'
    · intro hall
      have he : (step s e).NotStranded := (step_fine_iff h e).2 (hall [] e ⟨steps,rfl⟩)
      have hrest := (ih ⟨step_inv h e,he⟩).2 fun front e' hf => hall (e::front) e' (List.cons_prefix_cons.2 ⟨rfl,hf⟩)
      intro front hf
      cases front with
      | nil => exact h.2
      | cons e'' front =>
        obtain ⟨rfl,hf'⟩ := List.cons_prefix_cons.1 hf
        exact hrest front hf'

lemma init_fine (memory : ℕ → Vblank) : Fine (State.init memory) := by
  have hnil {P : ℕ → Prop} : ∀ i ∈ ([] : List ℕ), P i := fun i hi => nomatch hi
  exact ⟨⟨List.nodup_nil,hnil,hnil,hnil,hnil,fun _ => rfl,hnil,fun hn => absurd rfl hn⟩,fun _ _ => hnil⟩

/-- In a run from the start, nothing is left behind on the flip queue in any state reached just if every step meets the
condition. -/
theorem nothing_stranded (memory : ℕ → Vblank) (steps : List (Env × Action)) :
    (∀ front, front <+: steps → (run (State.init memory) front).NotStranded) ↔
      ∀ front e, front ++ [e] <+: steps → Meets (run (State.init memory) front) e :=
  run_iff (init_fine memory) steps

def screenAt (msc : UInt64) (fullScreen flip : Bool) : Env where
  geometry := ⟨true,true,.none,fun _ => 1,1,fun _ => fullScreen,fun _ _ => true⟩
  answers := fun _ => ⟨true,true,flip,false,false,false⟩
  crtcMsc := fun _ => msc
  getCrtc := some 1
  crtcExists := fun _ => true
  ustMsc := fun _ => (true,msc)
  capAsync := false
  capAsyncMayTear := false
  queueVblank := true
  allocWindow := true
  allocVblank := true

/-- A request for window 7. -/
def presentIn7 (pixmap : Pixmap) : Action :=
  .pixmap ⟨7,some pixmap,true,false,true,none,false,⟨false,false,false⟩,0,0,0⟩

def flipRefused : List (Env × Action) :=
  [(screenAt 100 true true,presentIn7 10),(screenAt 101 true true,.eventNotify 1 101),
    (screenAt 101 false true,.checkFlipWindow 7),(screenAt 101 true true,presentIn7 11),
    (screenAt 102 true true,presentIn7 12),(screenAt 103 true false,.eventNotify 2 103)]

def blank : Vblank := ⟨0,none,none,0,0,false,false,false,false,false,false,false,.unknown⟩

/-- The one of the two that was not tried again is left behind. -/
theorem flip_refused_strands : ¬(run (State.init fun _ => blank) flipRefused).NotStranded := by
  have hp : (run (State.init fun _ => blank) flipRefused).flipPending = none := by decide +kernel
  have hu : (run (State.init fun _ => blank) flipRefused).unflipEventId = 0 := by decide +kernel
  have hq : 4 ∈ (run (State.init fun _ => blank) flipRefused).flipQueue := by decide +kernel
  have hw : ((run (State.init fun _ => blank) flipRefused).vblank 4).queued = true := by decide +kernel
  exact fun h => absurd (hw.symm.trans (h hp hu 4 hq)) Bool.noConfusion

end Run

end Xlibre.Present
