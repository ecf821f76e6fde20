import Xlibre.Present.FlipQueue

/-! Presentations that are left behind on the flip queue. -/
namespace Xlibre.Present

section Invariant

namespace Sight

/-- What holds of the queues between steps: vblanks that are not queued any more are on the flip queue only as the pending
flip. -/
structure Inv (t : Sight) : Prop where
  nodup : t.flipQueue.Nodup
  queued : ∀ id ∈ t.execQueue, t.queued id = true
  execQueue_le : ∀ id ∈ t.execQueue, id ≤ t.eventId
  flipQueue_le : ∀ id ∈ t.flipQueue, id ≤ t.eventId
  pending : ∀ id ∈ t.flipQueue, t.queued id = false → t.flipPending = some id
  single : t.flipPending ≠ none → t.unflipEventId = 0
  pixmap : ∀ id ∈ t.flipQueue, t.queued id = false → t.pixmap id ≠ none
  window : t.flipWindow ≠ none → t.flipPixmap ≠ none

/-- With no flip or unflip under way, nothing waits for one. -/
def NotStranded (t : Sight) : Prop :=
  t.flipPending = none → t.unflipEventId = 0 → ∀ id ∈ t.flipQueue, t.queued id = false

variable {t : Sight} {id : ℕ}

lemma mem_without {l : List ℕ} {i : ℕ} : i ∈ without l id ↔ i ∈ l ∧ i ≠ id := by
  unfold without
  rw [List.mem_filter,decide_eq_true_iff]

lemma leave_queued_of_ne {i : ℕ} (h : i ≠ id) (again : Bool) : (t.leave id again).queued i = t.queued i :=
  Function.update_of_ne h _ _

lemma Inv.unflip (h : t.Inv) (hp : t.flipPending = none) : t.unflip.Inv where
  nodup := h.nodup
  queued := h.queued
  execQueue_le := fun i hi => Nat.le_succ_of_le (h.execQueue_le i hi)
  flipQueue_le := fun i hi => Nat.le_succ_of_le (h.flipQueue_le i hi)
  pending := h.pending
  single := fun hn => absurd hp hn
  pixmap := h.pixmap
  window := h.window

lemma Inv.leave (h : t.Inv) {again : Bool} (hid : again = true → id ≤ t.eventId) : (t.leave id again).Inv where
  nodup := h.nodup.filter _
  queued := by
    intro i hi
    cases again with
    | false =>
      obtain ⟨hi,hne⟩ := mem_without.1 hi
      exact (leave_queued_of_ne hne false).trans (h.queued i hi)
    | true =>
      obtain rfl | hi := List.mem_cons.1 hi
      · exact Function.update_self _ _ _
      · obtain ⟨hi,hne⟩ := mem_without.1 hi
        exact (leave_queued_of_ne hne true).trans (h.queued i hi)
  execQueue_le := by
    intro i hi
    cases again with
    | false => exact h.execQueue_le i (mem_without.1 hi).1
    | true =>
      obtain rfl | hi := List.mem_cons.1 hi
      · exact hid rfl
      · exact h.execQueue_le i (mem_without.1 hi).1
  flipQueue_le := fun i hi => h.flipQueue_le i (mem_without.1 hi).1
  pending := by
    intro i hi hq
    obtain ⟨hi,hne⟩ := mem_without.1 hi
    exact h.pending i hi ((leave_queued_of_ne hne again).symm.trans hq)
  single := h.single
  pixmap := by
    intro i hi hq
    obtain ⟨hi,hne⟩ := mem_without.1 hi
    exact h.pixmap i hi ((leave_queued_of_ne hne again).symm.trans hq)
  window := h.window

lemma Inv.requeue (h : t.Inv) (hid : id ≤ t.eventId) (hq : t.queued id = true ∨ id ∈ t.flipQueue) : (t.requeue id).Inv where
  nodup := by
    refine List.nodup_append.2 ⟨h.nodup.filter _,List.nodup_singleton id,?_⟩
    rintro a ha b hb rfl
    exact (mem_without.1 ha).2 (List.mem_singleton.1 hb)
  queued := fun i hi => h.queued i (mem_without.1 hi).1
  execQueue_le := fun i hi => h.execQueue_le i (mem_without.1 hi).1
  flipQueue_le := by
    intro i hi
    obtain hi | hi := List.mem_append.1 hi
    · exact h.flipQueue_le i (mem_without.1 hi).1
    · rw [List.mem_singleton.1 hi]
      exact hid
  pending := by
    intro i hi hi'
    obtain hi | hi := List.mem_append.1 hi
    · exact h.pending i (mem_without.1 hi).1 hi'
    · obtain rfl := List.mem_singleton.1 hi
      obtain hq | hq := hq
      · exact absurd (hi'.symm.trans hq) Bool.false_ne_true
      · exact h.pending i hq hi'
  single := h.single
  pixmap := by
    intro i hi hi'
    obtain hi | hi := List.mem_append.1 hi
    · exact h.pixmap i (mem_without.1 hi).1 hi'
    · obtain rfl := List.mem_singleton.1 hi
      obtain hq | hq := hq
      · exact absurd (hi'.symm.trans hq) Bool.false_ne_true
      · exact h.pixmap i hq hi'
  window := h.window

lemma Inv.startFlip (h : t.Inv) (hid : id ≤ t.eventId) (hp : t.flipPending = none) (hu : t.unflipEventId = 0)
    (hpix : t.pixmap id ≠ none) : (t.startFlip id).Inv where
  nodup := List.nodup_cons.2 ⟨not_mem_without _ id,h.nodup.filter _⟩
  queued := by
    intro i hi
    obtain ⟨hi,hne⟩ := mem_without.1 hi
    exact (Function.update_of_ne hne _ _).trans (h.queued i hi)
  execQueue_le := fun i hi => h.execQueue_le i (mem_without.1 hi).1
  flipQueue_le := by
    intro i hi
    obtain rfl | hi := List.mem_cons.1 hi
    · exact hid
    · exact h.flipQueue_le i (mem_without.1 hi).1
  pending := by
    intro i hi hq
    obtain rfl | hi := List.mem_cons.1 hi
    · rfl
    · obtain ⟨hi,hne⟩ := mem_without.1 hi
      have hi' := h.pending i hi ((Function.update_of_ne hne _ _).symm.trans hq)
      rw [hp] at hi'
      cases hi'
  single := fun _ => hu
  pixmap := by
    intro i hi hq
    obtain rfl | hi := List.mem_cons.1 hi
    · exact hpix
    · obtain ⟨hi,hne⟩ := mem_without.1 hi
      exact h.pixmap i hi ((Function.update_of_ne hne _ _).symm.trans hq)
  window := h.window

lemma NotStranded.unflip : t.unflip.NotStranded := fun _ hu => absurd hu (Nat.succ_ne_zero _)

lemma NotStranded.leave (h : t.NotStranded) (again : Bool) : (t.leave id again).NotStranded := by
  intro hp hu i hi
  obtain ⟨hi,hne⟩ := mem_without.1 hi
  exact (leave_queued_of_ne hne again).trans (h hp hu i hi)

end Sight

end Invariant

section Execution

variable {env : Env} {s : State} {id : ℕ} {crtcMsc : UInt64} {a : Answers}

def Executable (s : State) (id : ℕ) : Prop := id ≤ s.eventId ∧ ((s.vblank id).queued = true ∨ id ∈ s.flipQueue)

lemma Outcome.inv {t : Sight} (h : Outcome a s id t) (hs : s.sight.Inv) (hid : (s.vblank id).pixmap ≠ none → Executable s id) :
    t.Inv := by
  have hpix : (s.vblank id).presents = true → (s.vblank id).pixmap ≠ none := fun hp =>
    Option.isSome_iff_ne_none.1 (Bool.and_eq_true_iff.1 hp).1
  cases h with
  | requeued busy pixmap => exact hs.requeue (hid pixmap).1 (hid pixmap).2
  | flips idle flips => exact hs.startFlip (hid (hpix flips.1)).1 idle.1 idle.2 (hpix flips.1)
  | leaves again copied stays =>
    have hle (ha : again = true) : id ≤ s.eventId := (hid (hpix (copied ha))).1
    split_ifs with hu
    · exact (hs.unflip hu.2.1).leave fun ha => Nat.le_succ_of_le (hle ha)
    · exact hs.leave hle

lemma Outcome.notStranded {t : Sight} (h : Outcome a s id t) (hs : s.sight.NotStranded) : t.NotStranded := by
  cases h with
  | requeued busy pixmap =>
    intro hp hu
    obtain hb | hb := busy
    · exact absurd hp hb
    · exact absurd hu hb
  | flips idle flips => exact fun hp => nomatch hp
  | leaves again copied stays =>
    split_ifs with hu
    · exact Sight.NotStranded.unflip.leave again
    · exact hs.leave again

lemma presentExecute_cases (env : Env) (s : State) (id : ℕ) (crtcMsc : UInt64) : ((waitsForMsc (env.answers id) (s.vblank id) crtcMsc = true ∨
      waitsForFence (env.answers id) (s.vblank id) = true) ∧ (presentExecute env s id crtcMsc).sight = s.sight) ∨
    (waitsForMsc (env.answers id) (s.vblank id) crtcMsc = false ∧ waitsForFence (env.answers id) (s.vblank id) = false ∧
      Outcome (env.answers id) s id (presentExecute env s id crtcMsc).sight) := by
  unfold presentExecute
  dsimp only
  by_cases hm : waitsForMsc (env.answers id) (s.vblank id) crtcMsc = true
  · rw [if_pos hm]
    exact .inl ⟨.inl hm,rfl⟩
  rw [if_neg hm]
  by_cases hf : waitsForFence (env.answers id) (s.vblank id) = true
  · rw [if_pos hf]
    exact .inl ⟨.inr hf,sight_set_same s id _ rfl rfl⟩
  · rw [if_neg hf]
    exact .inr ⟨Bool.eq_false_iff.2 hm,Bool.eq_false_iff.2 hf,presentNow_outcome⟩

lemma presentExecute_inv (hs : s.sight.Inv) (hid : (s.vblank id).pixmap ≠ none → Executable s id) : (presentExecute env s id crtcMsc).sight.Inv := by
  obtain ⟨-,h⟩ | ⟨-,-,h⟩ := presentExecute_cases env s id crtcMsc
  · rw [h]
    exact hs
  · exact h.inv hs hid

lemma presentExecute_notStranded (hs : s.sight.NotStranded) : (presentExecute env s id crtcMsc).sight.NotStranded := by
  obtain ⟨-,h⟩ | ⟨-,-,h⟩ := presentExecute_cases env s id crtcMsc
  · rw [h]
    exact hs
  · exact h.notStranded hs

end Execution

section Retry

variable {env : Env} {s : State}

def State.waiting (s : State) : List ℕ := s.flipQueue.filter fun i => (s.vblank i).queued

/-- The condition on what waits when a flip or an unflip is over: the first one does not have to wait for its MSC or its fence,
and it is the only one, or the driver flips it, or it is copied to the window of the current flip, which starts an unflip. -/
def Retried (env : Env) (s : State) (flipWindow : Option Window) : Prop :=
  match s.waiting with
  | [] => True
  | id::rest =>
    let v := s.vblank id
    waitsForMsc (env.answers id) v (currentMsc env s id) = false ∧ waitsForFence (env.answers id) v = false ∧
      (rest = [] ∨ (v.presents ∧ ((v.flip ∧ (env.answers id).flip) ∨ flipWindow = some v.window)))

lemma mem_waiting {i : ℕ} : i ∈ s.waiting ↔ i ∈ s.flipQueue ∧ (s.vblank i).queued = true := List.mem_filter

lemma presentFlipTryReady_eq : presentFlipTryReady env s =
    match s.waiting with
    | [] => s
    | id::_ => presentReExecute env s id := by
  unfold presentFlipTryReady State.waiting
  rw [← List.head?_filter]
  cases s.flipQueue.filter fun i => (s.vblank i).queued with
  | nil => rfl
  | cons id rest => rfl

lemma leave_notStranded_iff {id : ℕ} {rest : List ℕ} (hs : s.sight.Inv) (hp : s.flipPending = none) (hu : s.unflipEventId = 0)
    (hw : s.waiting = id::rest) (again : Bool) : (s.sight.leave id again).NotStranded ↔ rest = [] := by
  have hnodup : (id::rest).Nodup := hw ▸ hs.nodup.filter _
  have hmem {i : ℕ} : i ∈ id::rest ↔ i ∈ s.flipQueue ∧ (s.vblank i).queued = true := hw ▸ mem_waiting
  constructor
  · intro h
    refine List.eq_nil_iff_forall_not_mem.2 fun j hj => ?_
    have hne : j ≠ id := by
      rintro rfl
      exact (List.nodup_cons.1 hnodup).1 hj
    obtain ⟨hjq,hjw⟩ := hmem.1 (List.mem_cons_of_mem id hj)
    have hq := h hp hu j (Sight.mem_without.2 ⟨hjq,hne⟩)
    rw [Sight.leave_queued_of_ne hne] at hq
    exact absurd (hjw.symm.trans hq) Bool.noConfusion
  · rintro rfl _ _ i hi
    obtain ⟨hi,hne⟩ := Sight.mem_without.1 hi
    refine (Sight.leave_queued_of_ne hne again).trans (Bool.eq_false_iff.2 fun hq => hne ?_)
    exact List.mem_singleton.1 (hmem.2 ⟨hi,hq⟩)

lemma presentFlipTryReady_notStranded_iff (hs : s.sight.Inv) (hp : s.flipPending = none) (hu : s.unflipEventId = 0) :
    (presentFlipTryReady env s).sight.NotStranded ↔ Retried env s s.flipWindow := by
  rw [presentFlipTryReady_eq,Retried]
  cases hw : s.waiting with
  | nil =>
    refine iff_of_true (fun _ _ i hi => Bool.eq_false_iff.2 fun hq => ?_) trivial
    have hi' : i ∈ s.waiting := mem_waiting.2 ⟨hi,hq⟩
    rw [hw] at hi'
    cases hi'
  | cons id rest =>
    have hid : id ∈ s.flipQueue ∧ (s.vblank id).queued = true := mem_waiting.1 (hw ▸ List.mem_cons_self)
    dsimp only
    unfold presentReExecute
    obtain ⟨hwait,h⟩ | ⟨hm,hf,h⟩ := presentExecute_cases env s id (currentMsc env s id)
    · refine iff_of_false (fun hn => ?_) fun hr => ?_
      · rw [h] at hn
        exact absurd (hid.2.symm.trans (hn hp hu id hid.1)) Bool.noConfusion
      · obtain hm | hf := hwait
        · rw [hr.1] at hm
          cases hm
        · rw [hr.2.1] at hf
          cases hf
    · generalize (presentExecute env s id (currentMsc env s id)).sight = t at h
      cases h with
      | requeued busy pixmap =>
        obtain hb | hb := busy
        · exact absurd hp hb
        · exact absurd hu hb
      | flips idle flips => exact iff_of_true (fun hn => nomatch hn) ⟨hm,hf,.inr ⟨flips.1,.inl flips.2⟩⟩
      | leaves again copied stays =>
        split_ifs with hunf
        · exact iff_of_true (Sight.NotStranded.unflip.leave again) ⟨hm,hf,.inr ⟨hunf.1,.inr hunf.2.2.2⟩⟩
        · rw [leave_notStranded_iff hs hp hu hw]
          refine ⟨fun hr => ⟨hm,hf,.inl hr⟩,fun hr => ?_⟩
          obtain hr | ⟨hpres,hflip | hwin⟩ := hr.2.2
          · exact hr
          · exact absurd ⟨hpres,hflip⟩ stays
          · exact absurd ⟨hpres,hp,hu,hwin⟩ hunf

lemma presentFlipTryReady_inv (hs : s.sight.Inv) : (presentFlipTryReady env s).sight.Inv := by
  rw [presentFlipTryReady_eq]
  cases hw : s.waiting with
  | nil => exact hs
  | cons id rest =>
    have hid : id ∈ s.flipQueue ∧ (s.vblank id).queued = true := mem_waiting.1 (hw ▸ List.mem_cons_self)
    exact presentExecute_inv hs fun _ => ⟨hs.flipQueue_le id hid.1,.inl hid.2⟩

lemma presentFlipTryReady_notStranded (hs : s.sight.NotStranded) : (presentFlipTryReady env s).sight.NotStranded := by
  rw [presentFlipTryReady_eq]
  cases s.waiting with
  | nil => exact hs
  | cons id rest => exact presentExecute_notStranded hs

lemma Retried.congr {s' : State} (hw : s'.waiting = s.waiting) (hv : ∀ i ∈ s.waiting, s'.vblank i = s.vblank i)
    (w : Option Window) : Retried env s' w ↔ Retried env s w := by
  unfold Retried
  rw [hw]
  cases h : s.waiting with
  | nil => exact Iff.rfl
  | cons id rest =>
    have hid := hv id (h ▸ List.mem_cons_self)
    dsimp only [currentMsc]
    rw [hid]

end Retry

section Completion

variable {env : Env} {s : State} {id : ℕ}

def Sight.endFlip (t : Sight) (id : ℕ) (window : Window) : Sight :=
  { t with
    execQueue := Sight.without t.execQueue id
    flipQueue := Sight.without t.flipQueue id
    pixmap := Function.update t.pixmap id none
    flipPending := none
    flipWindow := some window
    flipPixmap := t.pixmap id }

lemma sight_transferFlip : (transferFlip s id).sight = s.sight.endFlip id (s.vblank id).window := by
  unfold transferFlip
  rw [sight_set]
  unfold presentFlipIdle
  split_ifs
  · exact Sight.ext rfl rfl rfl (Function.update_eq_self id s.sight.queued) rfl rfl rfl rfl rfl
  · exact Sight.ext rfl rfl rfl (Function.update_eq_self id s.sight.queued) rfl rfl rfl rfl rfl

lemma sight_flipDone (s : State) (id : ℕ) : (flipDone s id).sight =
    if (s.vblank id).abortFlip then (s.sight.endFlip id (s.vblank id).window).unflip
    else s.sight.endFlip id (s.vblank id).window := by
  have hd (s' : State) (hs : s'.sight = s.sight.endFlip id (s.vblank id).window) :
      (presentVblankDestroy s' id).sight = s.sight.endFlip id (s.vblank id).window := by
    rw [sight_destroy,hs]
    refine Sight.ext rfl ?_ ?_ rfl rfl rfl rfl rfl rfl
    · rw [show s'.execQueue = _ from congrArg Sight.execQueue hs]
      exact without_without _ id
    · rw [show s'.flipQueue = _ from congrArg Sight.flipQueue hs]
      exact without_without _ id
  unfold flipDone
  split_ifs
  · exact congrArg Sight.unflip (hd _ sight_transferFlip)
  · exact hd _ sight_transferFlip

lemma Sight.Inv.endFlip {t : Sight} (h : t.Inv) (hid : id ∈ t.flipQueue) (hq : t.queued id = false) (window : Window) :
    (t.endFlip id window).Inv where
  nodup := h.nodup.filter _
  queued := fun i hi => h.queued i (mem_without.1 hi).1
  execQueue_le := fun i hi => h.execQueue_le i (mem_without.1 hi).1
  flipQueue_le := fun i hi => h.flipQueue_le i (mem_without.1 hi).1
  pending := by
    intro i hi hi'
    obtain ⟨hi,hne⟩ := mem_without.1 hi
    have heq := (h.pending i hi hi').symm.trans (h.pending id hid hq)
    exact absurd (Option.some.inj heq) hne
  single := fun hn => absurd rfl hn
  pixmap := by
    intro i hi hi'
    obtain ⟨hi,hne⟩ := mem_without.1 hi
    have hp := h.pixmap i hi hi'
    exact fun hn => hp ((Function.update_of_ne hne _ _).symm.trans hn)
  window := fun _ => h.pixmap id hid hq

lemma flipDone_inv (hs : s.sight.Inv) (hid : id ∈ s.flipQueue) (hq : (s.vblank id).queued = false) : (flipDone s id).sight.Inv := by
  have h := hs.endFlip hid hq (s.vblank id).window
  rw [sight_flipDone]
  split_ifs
  · exact h.unflip rfl
  · exact h

lemma flipDone_vblank {i : ℕ} (h : i ≠ id) : (flipDone s id).vblank i = s.vblank i := by
  have ht : (transferFlip s id).vblank i = (presentFlipIdle s).vblank i := if_neg h
  have hi : (presentFlipIdle s).vblank i = s.vblank i := by
    unfold presentFlipIdle
    split_ifs <;> rfl
  unfold flipDone
  split_ifs
  · exact ht.trans hi
  · exact ht.trans hi

lemma flipDone_waiting (hq : (s.vblank id).queued = false) : (flipDone s id).waiting = s.waiting := by
  have hf : (flipDone s id).flipQueue = Sight.without s.flipQueue id := by
    have h := congrArg Sight.flipQueue (sight_flipDone s id)
    split_ifs at h
    · exact h
    · exact h
  unfold State.waiting
  rw [hf,Sight.without,List.filter_filter]
  refine List.filter_congr fun i _ => ?_
  by_cases h : i = id
  · rw [h,hq,decide_eq_false (not_not.2 rfl),Bool.and_false]
  · rw [flipDone_vblank h,decide_eq_true h,Bool.and_true]

lemma presentFlipNotify_notStranded_iff (hs : s.sight.Inv) (hid : id ∈ s.flipQueue) (hq : (s.vblank id).queued = false) :
    (presentFlipNotify env s id).sight.NotStranded ↔
      (s.vblank id).abortFlip = true ∨ Retried env s (some (s.vblank id).window) := by
  unfold presentFlipNotify
  have hsight := sight_flipDone s id
  cases ha : (s.vblank id).abortFlip with
  | true =>
    rw [ha,if_pos rfl] at hsight
    refine iff_of_true (presentFlipTryReady_notStranded ?_) (.inl rfl)
    rw [hsight]
    exact Sight.NotStranded.unflip
  | false =>
    rw [ha,if_neg Bool.false_ne_true] at hsight
    have hu : s.unflipEventId = 0 := hs.single (by
      rw [hs.pending id hid hq]
      exact Option.some_ne_none id)
    have hp' : (flipDone s id).flipPending = none := congrArg Sight.flipPending hsight
    have hu' : (flipDone s id).unflipEventId = 0 := (congrArg Sight.unflipEventId hsight).trans hu
    have hw' : (flipDone s id).flipWindow = some (s.vblank id).window := congrArg Sight.flipWindow hsight
    rw [presentFlipTryReady_notStranded_iff (flipDone_inv hs hid hq) hp' hu',hw',or_iff_right Bool.false_ne_true]
    refine Retried.congr (flipDone_waiting hq) (fun i hi => flipDone_vblank ?_) _
    rintro rfl
    exact absurd ((mem_waiting.1 hi).2.symm.trans hq) Bool.noConfusion

lemma sight_unflipDone (hs : s.sight.Inv) :
    (unflipDone s).sight = { s.sight with unflipEventId := 0, flipWindow := none, flipPixmap := none } := by
  unfold unflipDone presentFlipIdle
  split_ifs with h
  · rfl
  · have hp : s.flipPixmap = none := Option.not_isSome_iff_eq_none.1 h
    have hw : s.flipWindow = none := not_not.1 fun hw => hs.window hw hp
    exact Sight.ext rfl rfl rfl rfl rfl rfl rfl hw hp

lemma unflipDone_vblank (s : State) : (unflipDone s).vblank = s.vblank := by
  unfold unflipDone presentFlipIdle
  split_ifs <;> rfl

lemma unflipDone_inv (hs : s.sight.Inv) : (unflipDone s).sight.Inv := by
  rw [sight_unflipDone hs]
  exact ⟨hs.nodup,hs.queued,hs.execQueue_le,hs.flipQueue_le,hs.pending,fun _ => rfl,hs.pixmap,fun hn => absurd rfl hn⟩

lemma unflip_notStranded_iff (hs : s.sight.Inv) (hu : s.unflipEventId ≠ 0) :
    (presentFlipTryReady env (unflipDone s)).sight.NotStranded ↔ Retried env s none := by
  have hsight := sight_unflipDone hs
  have hp : s.flipPending = none := not_not.1 fun hp => hu (hs.single hp)
  have hp' : (unflipDone s).flipPending = none := (congrArg Sight.flipPending hsight).trans hp
  have hu' : (unflipDone s).unflipEventId = 0 := congrArg Sight.unflipEventId hsight
  have hw' : (unflipDone s).flipWindow = none := congrArg Sight.flipWindow hsight
  have hf : (unflipDone s).flipQueue = s.flipQueue := congrArg Sight.flipQueue hsight
  rw [presentFlipTryReady_notStranded_iff (unflipDone_inv hs) hp' hu',hw']
  refine Retried.congr ?_ (fun i _ => congrFun (unflipDone_vblank s) i) none
  rw [State.waiting,State.waiting,hf,unflipDone_vblank]

end Completion

end Xlibre.Present
