import Xlibre.Present.FlipQueue

/-! What an execution does to the vblank itself, and what it leaves of the others. -/
namespace Xlibre.Present

section Purpose

/-- A vblank that has not been destroyed is on one of the queues. -/
def State.Lives (s : State) (id : ℕ) : Prop := id ∈ s.execQueue ∨ id ∈ s.flipQueue

instance (s : State) (id : ℕ) : Decidable (s.Lives id) := inferInstanceAs (Decidable (_ ∨ _))

/-- No flip can start. -/
def State.Busy (s : State) : Prop := s.flipPending.isSome = true ∨ s.unflipEventId ≠ 0

def Vblank.copyMsc (v : Vblank) : UInt64 := if v.flip then v.targetMsc else v.execMsc

/-- Nothing that the driver answers keeps the vblank, nor does another flip. -/
structure Completes (a : Answers) (v : Vblank) (crtcMsc : UInt64) (busy : Prop) : Prop where
  wait : ¬(v.execMsc = crtcMsc+1 ∧ a.queueWait = true)
  busy : ¬(v.flip = true ∧ v.pixmap.isSome = true ∧ busy)
  flip : v.presents = true → ¬(v.flip = true ∧ a.flip = true)
  copy : v.presents = true → ¬(v.copyMsc = crtcMsc+1 ∧ a.queueCopy = true)
  tearfree : v.presents = true → ¬(v.reason.tearfree = true ∧ (a.fakeFlip = true ∨ a.queueTearfree = true))

/-- All other vblanks are as before, but for the abort of a flip. -/
structure Frame (id : ℕ) (s s' : State) : Prop where
  callback : ∀ j, (s'.vblank j).fenceCallback = (s.vblank j).fenceCallback
  others : ∀ j, j ≠ id → ∃ b, s'.vblank j = { s.vblank j with abortFlip := b }
  lives : ∀ j, j ≠ id → (s'.Lives j ↔ s.Lives j)
  flipWindow : s'.flipWindow = s.flipWindow

end Purpose

section Frame

variable {id : ℕ} {s s' s'' : State} {a : Answers} {crtcMsc : UInt64} {v : Vblank}

lemma Frame.refl (id : ℕ) (s : State) : Frame id s s :=
  ⟨fun _ => rfl,fun j _ => ⟨(s.vblank j).abortFlip,rfl⟩,fun _ _ => Iff.rfl,rfl⟩

lemma Frame.trans (h : Frame id s s') (h' : Frame id s' s'') : Frame id s s'' where
  callback j := (h'.callback j).trans (h.callback j)
  others j hj := by
    obtain ⟨b,hb⟩ := h.others j hj
    obtain ⟨b',hb'⟩ := h'.others j hj
    exact ⟨b',by rw [hb',hb]⟩
  lives j hj := (h'.lives j hj).trans (h.lives j hj)
  flipWindow := h'.flipWindow.trans h.flipWindow

lemma vblank_set (s : State) (id j : ℕ) (v : Vblank) : (s.set id v).vblank j = if j = id then v else s.vblank j := rfl

lemma Frame.set (h : v.fenceCallback = (s.vblank id).fenceCallback) : Frame id s (s.set id v) where
  callback j := by
    rw [vblank_set]
    split_ifs with hj
    · rw [hj,h]
    · rfl
  others j hj := ⟨(s.vblank j).abortFlip,by rw [vblank_set,if_neg hj]⟩
  lives _ _ := Iff.rfl
  flipWindow := rfl

lemma vblank_copyChecksFlip (s : State) (window : Window) (j : ℕ) :
    ∃ b, (copyChecksFlip s window).vblank j = { s.vblank j with abortFlip := b } := by
  unfold copyChecksFlip
  split
  · split_ifs
    · rw [presentSetAbortFlip,vblank_set]
      split_ifs with hj
      · exact ⟨true,by rw [hj]⟩
      · exact ⟨(s.vblank j).abortFlip,rfl⟩
    · exact ⟨(s.vblank j).abortFlip,rfl⟩
  · split_ifs
    · exact ⟨(s.vblank j).abortFlip,rfl⟩
    · exact ⟨(s.vblank j).abortFlip,rfl⟩

lemma mem_without {l : List ℕ} {j : ℕ} (hj : j ≠ id) : j ∈ Sight.without l id ↔ j ∈ l := by
  rw [Sight.without,List.mem_filter,decide_eq_true_iff]
  exact and_iff_left hj

lemma Frame.delEvent (id : ℕ) (s : State) : Frame id s (s.delEvent id) :=
  ⟨fun _ => rfl,fun j _ => ⟨(s.vblank j).abortFlip,rfl⟩,fun _ hj => or_congr (mem_without hj) (mem_without hj),rfl⟩

lemma Frame.delWindow (id : ℕ) (s : State) : Frame id s (s.delWindow id) :=
  ⟨fun _ => rfl,fun j _ => ⟨(s.vblank j).abortFlip,rfl⟩,fun _ _ => Iff.rfl,rfl⟩

lemma Frame.destroy (id : ℕ) (s : State) : Frame id s (presentVblankDestroy s id) :=
  (Frame.delWindow id s).trans (.delEvent id _)

lemma queues_copyChecksFlip (s : State) (window : Window) : (copyChecksFlip s window).execQueue = s.execQueue ∧
    (copyChecksFlip s window).flipQueue = s.flipQueue ∧ (copyChecksFlip s window).flipWindow = s.flipWindow ∧
    (copyChecksFlip s window).flipPending = s.flipPending := by
  unfold copyChecksFlip
  split
  · split_ifs
    · exact ⟨rfl,rfl,rfl,rfl⟩
    · exact ⟨rfl,rfl,rfl,rfl⟩
  · split_ifs
    · exact ⟨rfl,rfl,rfl,rfl⟩
    · exact ⟨rfl,rfl,rfl,rfl⟩

lemma Frame.copyChecksFlip (id : ℕ) (s : State) (window : Window) : Frame id s (copyChecksFlip s window) where
  callback j := by
    obtain ⟨b,hb⟩ := vblank_copyChecksFlip s window j
    rw [hb]
  others j _ := vblank_copyChecksFlip s window j
  lives j _ := by rw [State.Lives,(queues_copyChecksFlip s window).1,(queues_copyChecksFlip s window).2.1]; rfl
  flipWindow := (queues_copyChecksFlip s window).2.2.1

lemma fenceCallback_awaited (v : Vblank) :
    (awaitTearfree a (presentExecuteCopy a v crtcMsc)).fenceCallback = v.fenceCallback := by
  unfold awaitTearfree presentExecuteCopy
  split_ifs <;> rfl

lemma Frame.presentCopy (a : Answers) (s : State) (id : ℕ) (crtcMsc : UInt64) : Frame id s (presentCopy a s id crtcMsc) := by
  unfold Present.presentCopy
  dsimp only
  have hcheck := Frame.copyChecksFlip id s (s.vblank id).window
  generalize Present.copyChecksFlip s (s.vblank id).window = s₁ at hcheck ⊢
  have hset : Frame id s₁ (s₁.set id (awaitTearfree a (presentExecuteCopy a (s₁.vblank id) crtcMsc))) :=
    .set (fenceCallback_awaited _)
  generalize s₁.set id (awaitTearfree a (presentExecuteCopy a (s₁.vblank id) crtcMsc)) = s₂ at hset ⊢
  refine (hcheck.trans hset).trans ?_
  split_ifs
  · exact ⟨fun _ => rfl,fun j _ => ⟨(s₂.vblank j).abortFlip,rfl⟩,
      fun j hj => or_congr (List.mem_cons.trans (or_iff_right hj)) Iff.rfl,rfl⟩
  · exact .destroy id s₂

lemma Frame.takeOff (s : State) (id : ℕ) : Frame id s (takeOff s id) :=
  ((Frame.delEvent id s).trans (.delWindow id _)).trans (.set rfl)

lemma Frame.waitForFlip (s : State) (id : ℕ) : Frame id s (waitForFlip s id) := by
  have hqueue : Frame id (s.delEvent id) { s.delEvent id with flipQueue := (s.delEvent id).flipQueue ++ [id] } := by
    refine ⟨fun _ => rfl,fun j _ => ⟨(s.vblank j).abortFlip,rfl⟩,fun j hj => or_congr Iff.rfl ?_,rfl⟩
    rw [List.mem_append,List.mem_singleton]
    exact or_iff_left hj
  exact ((Frame.delEvent id s).trans hqueue).trans (.set rfl)

lemma Frame.startFlip (s : State) (id : ℕ) : Frame id s (startFlip s id) :=
  ⟨fun _ => rfl,fun j _ => ⟨(s.vblank j).abortFlip,rfl⟩,
    fun _ hj => or_congr Iff.rfl (List.mem_cons.trans (or_iff_right hj)),rfl⟩

lemma Frame.failFlip (s : State) (id : ℕ) : Frame id s (failFlip s id) := by
  have hpending : Frame id s { s with flipPending := none } :=
    ⟨fun _ => rfl,fun j _ => ⟨(s.vblank j).abortFlip,rfl⟩,fun _ _ => Iff.rfl,rfl⟩
  exact hpending.trans (.set rfl)

lemma Frame.presentNow (a : Answers) (s : State) (id : ℕ) (crtcMsc : UInt64) : Frame id s (presentNow a s id crtcMsc) := by
  unfold Present.presentNow
  dsimp only
  split_ifs
  · exact .waitForFlip s id
  · exact (Frame.takeOff s id).trans (.startFlip _ id)
  · exact ((Frame.takeOff s id).trans (.failFlip _ id)).trans (.presentCopy ..)
  · exact (Frame.takeOff s id).trans (.presentCopy ..)
  · exact (Frame.takeOff s id).trans (.destroy id _)

lemma presentExecute_triggered {env : Env} (h : (env.answers id).fenceTriggered = true) :
    presentExecute env s id crtcMsc =
      if waitsForMsc (env.answers id) (s.vblank id) crtcMsc then s else presentNow (env.answers id) s id crtcMsc := by
  unfold presentExecute waitsForFence
  simp only [h,Bool.not_true,Bool.and_false,Bool.false_eq_true,if_false]

lemma Frame.presentExecute {env : Env} (s : State) (crtcMsc : UInt64) (h : (env.answers id).fenceTriggered = true) :
    Frame id s (presentExecute env s id crtcMsc) := by
  rw [presentExecute_triggered h]
  split_ifs
  · exact .refl id s
  · exact .presentNow ..

end Frame

section Copy

variable {id : ℕ} {s s' : State} {a : Answers} {crtcMsc : UInt64} {v : Vblank}

lemma queued_awaited (h : v.queued = false) : (awaitTearfree a (presentExecuteCopy a v crtcMsc)).queued = true ↔
    (v.execMsc = crtcMsc+1 ∧ a.queueCopy = true) ∨ (v.reason.tearfree = true ∧ (a.fakeFlip = true ∨ a.queueTearfree = true)) := by
  unfold awaitTearfree presentExecuteCopy
  by_cases hc : v.execMsc = crtcMsc+1 ∧ a.queueCopy = true
  · rw [if_pos hc]
    simp [hc]
  · rw [if_neg hc]
    split_ifs with ht
    · simp [ht.2]
    · simp only [h,Bool.false_eq_true,false_iff,not_or]
      exact ⟨hc,fun ht' => ht ⟨h,ht'⟩⟩

lemma not_lives_destroy (s : State) (id : ℕ) : ¬(presentVblankDestroy s id).Lives id :=
  not_or.2 ⟨not_mem_without _ id,not_mem_without _ id⟩

lemma lives_presentCopy (h : (s.vblank id).queued = false) : (presentCopy a s id crtcMsc).Lives id ↔
    ((s.vblank id).execMsc = crtcMsc+1 ∧ a.queueCopy = true) ∨
      ((s.vblank id).reason.tearfree = true ∧ (a.fakeFlip = true ∨ a.queueTearfree = true)) := by
  unfold presentCopy
  dsimp only
  obtain ⟨b,hb⟩ := vblank_copyChecksFlip s (s.vblank id).window id
  rw [hb]
  generalize copyChecksFlip s (s.vblank id).window = s₁
  have hq : (awaitTearfree a (presentExecuteCopy a { s.vblank id with abortFlip := b } crtcMsc)).queued = true ↔ _ :=
    queued_awaited h
  rw [← hq]
  split_ifs with hqueued
  · exact iff_of_true (.inl List.mem_cons_self) hqueued
  · exact iff_of_false (not_lives_destroy _ id) hqueued

lemma busy_copyChecksFlip (s : State) (window : Window) :
    (copyChecksFlip s window).Busy ↔ s.Busy ∨ s.flipWindow = some window := by
  unfold copyChecksFlip State.Busy
  cases hp : s.flipPending with
  | some pending =>
    dsimp only
    split_ifs <;> simp [presentSetAbortFlip,State.set,hp]
  | none =>
    dsimp only
    split_ifs with h
    · simp [presentUnflip,h.2]
    · rw [hp]
      rw [not_and_or] at h
      tauto

lemma busy_presentCopy : (presentCopy a s id crtcMsc).Busy ↔ s.Busy ∨ s.flipWindow = some (s.vblank id).window := by
  rw [← busy_copyChecksFlip]
  unfold presentCopy
  dsimp only
  split_ifs
  · rfl
  · rfl

end Copy

section Execution

variable {id : ℕ} {s s' : State} {a : Answers} {crtcMsc : UInt64} {env : Env}

lemma presentCopy_result (hw : ¬((s.vblank id).execMsc = crtcMsc+1 ∧ a.queueWait = true))
    (h1 : ¬((s.vblank id).flip = true ∧ (s.vblank id).pixmap.isSome = true ∧ s.Busy)) (h2 : (s.vblank id).presents = true)
    (h3 : ¬((s.vblank id).flip = true ∧ a.flip = true)) {v : Vblank} (hs : s'.vblank id = v) (hq : v.queued = false)
    (hm : v.execMsc = (s.vblank id).copyMsc) (hr : v.reason = (s.vblank id).reason) (hwin : v.window = (s.vblank id).window)
    (hb : s'.Busy ↔ s.Busy) (hf : s'.flipWindow = s.flipWindow) :
    ((presentCopy a s' id crtcMsc).Lives id ↔ ¬Completes a (s.vblank id) crtcMsc s.Busy) ∧
      ((presentCopy a s' id crtcMsc).Busy ↔
        s.Busy ∨ ((s.vblank id).presents = true ∧ s.flipWindow = some (s.vblank id).window)) := by
  subst hs
  rw [lives_presentCopy hq,busy_presentCopy,hb,hf,hm,hr,hwin]
  refine ⟨?_,or_congr Iff.rfl (and_iff_right h2).symm⟩
  constructor
  · rintro (hcopy | htear) hc
    · exact hc.copy h2 hcopy
    · exact hc.tearfree h2 htear
  · intro hc
    by_contra hno
    rw [not_or] at hno
    exact hc ⟨hw,h1,fun _ => h3,fun _ => hno.1,fun _ => hno.2⟩

lemma presentNow_result (hw : ¬((s.vblank id).execMsc = crtcMsc+1 ∧ a.queueWait = true)) :
    ((presentNow a s id crtcMsc).Lives id ↔ ¬Completes a (s.vblank id) crtcMsc s.Busy) ∧
      (Completes a (s.vblank id) crtcMsc s.Busy → ((presentNow a s id crtcMsc).Busy ↔
        s.Busy ∨ ((s.vblank id).presents = true ∧ s.flipWindow = some (s.vblank id).window))) := by
  have hself : (takeOff s id).vblank id = { s.vblank id with queued := false } := if_pos rfl
  unfold presentNow
  dsimp only
  split_ifs with h1 h2 h3 h4
  · exact ⟨iff_of_true (.inr (List.mem_append_right _ (List.mem_singleton_self id))) fun h => h.busy h1,
      fun h => absurd h1 h.busy⟩
  · have hnot : ¬Completes a (s.vblank id) crtcMsc s.Busy := fun h => h.flip h2 ⟨h3,h4⟩
    exact ⟨iff_of_true (.inr List.mem_cons_self) hnot,fun h => absurd h hnot⟩
  · have hpix : (s.vblank id).pixmap.isSome = true := (Bool.and_eq_true_iff.1 h2).1
    have hidle : ¬s.Busy := fun hb => h1 ⟨h3,hpix,hb⟩
    have hself' : (failFlip (takeOff s id) id).vblank id =
        { s.vblank id with queued := false, flip := false, execMsc := (s.vblank id).targetMsc } := by
      have h : (failFlip (takeOff s id) id).vblank id = _ := if_pos rfl
      rw [h,hself]
    have hb : (failFlip (takeOff s id) id).Busy ↔ s.Busy := by
      refine iff_of_false (fun hb => hidle ?_) hidle
      obtain hb | hb := hb
      · cases hb
      · exact .inr hb
    obtain ⟨hlives,hbusy⟩ := presentCopy_result hw h1 h2 (fun h => h4 h.2) hself' rfl (if_pos h3).symm rfl rfl hb rfl
    exact ⟨hlives,fun _ => hbusy⟩
  · obtain ⟨hlives,hbusy⟩ :=
      presentCopy_result hw h1 h2 (fun h => h3 h.1) hself rfl (if_neg h3).symm rfl rfl Iff.rfl rfl
    exact ⟨hlives,fun _ => hbusy⟩
  · have hc : Completes a (s.vblank id) crtcMsc s.Busy :=
      ⟨hw,h1,fun h => absurd h h2,fun h => absurd h h2,fun h => absurd h h2⟩
    refine ⟨iff_of_false (not_lives_destroy _ id) (not_not.2 hc),fun _ => ?_⟩
    exact (or_iff_left fun h => h2 h.1).symm

lemma presentExecute_lives (hf : (env.answers id).fenceTriggered = true) (h : s.Lives id) :
    (presentExecute env s id crtcMsc).Lives id ↔ ¬Completes (env.answers id) (s.vblank id) crtcMsc s.Busy := by
  rw [presentExecute_triggered hf]
  by_cases hw : (s.vblank id).execMsc = crtcMsc+1 ∧ (env.answers id).queueWait = true
  · rw [if_pos (by simpa [waitsForMsc] using hw)]
    exact iff_of_true h fun hc => hc.wait hw
  · rw [if_neg (by simpa [waitsForMsc] using hw)]
    exact (presentNow_result hw).1

lemma presentExecute_busy (hf : (env.answers id).fenceTriggered = true)
    (hc : Completes (env.answers id) (s.vblank id) crtcMsc s.Busy) : (presentExecute env s id crtcMsc).Busy ↔
      s.Busy ∨ ((s.vblank id).presents = true ∧ s.flipWindow = some (s.vblank id).window) := by
  rw [presentExecute_triggered hf,if_neg (by simpa [waitsForMsc] using hc.wait)]
  exact (presentNow_result hc.wait).2 hc

end Execution

end Xlibre.Present
