import Mathlib.Data.List.Nodup
import Xlibre.Present.Screen

/-! What the steps do to the queues and to the flips. -/
namespace Xlibre.Present

/-- What the flip queue depends on. -/
@[ext]
structure Sight where
  eventId : ℕ
  execQueue : List ℕ
  flipQueue : List ℕ
  queued : ℕ → Bool
  pixmap : ℕ → Option Pixmap
  flipPending : Option ℕ
  unflipEventId : ℕ
  flipWindow : Option Window
  flipPixmap : Option Pixmap

def State.sight (s : State) : Sight where
  eventId := s.eventId
  execQueue := s.execQueue
  flipQueue := s.flipQueue
  queued := fun i => (s.vblank i).queued
  pixmap := fun i => (s.vblank i).pixmap
  flipPending := s.flipPending
  unflipEventId := s.unflipEventId
  flipWindow := s.flipWindow
  flipPixmap := s.flipPixmap

namespace Sight

def without (l : List ℕ) (id : ℕ) : List ℕ := l.filter fun i => decide (i ≠ id)

/-- A vblank is taken off the queues; `again` puts it back on the one for execution. -/
def leave (t : Sight) (id : ℕ) (again : Bool) : Sight :=
  { t with
    execQueue := if again then id::without t.execQueue id else without t.execQueue id
    flipQueue := without t.flipQueue id
    queued := Function.update t.queued id again }

/-- It has to wait for another flip. -/
def requeue (t : Sight) (id : ℕ) : Sight :=
  { t with execQueue := without t.execQueue id, flipQueue := without t.flipQueue id ++ [id] }

def startFlip (t : Sight) (id : ℕ) : Sight :=
  { t with
    execQueue := without t.execQueue id
    flipQueue := id::without t.flipQueue id
    queued := Function.update t.queued id false
    flipPending := some id }

def unflip (t : Sight) : Sight := { t with eventId := t.eventId+1, unflipEventId := t.eventId+1 }

def put (t : Sight) (id : ℕ) (queued : Bool) (pixmap : Option Pixmap) : Sight :=
  { t with queued := Function.update t.queued id queued, pixmap := Function.update t.pixmap id pixmap }

end Sight

section Views

variable (s : State) (id : ℕ) (v : Vblank)

lemma comp_set {β : Type} (f : Vblank → β) :
    (fun i => f ((s.set id v).vblank i)) = Function.update (fun i => f (s.vblank i)) id (f v) := by
  funext i
  by_cases h : i = id
  · rw [h,Function.update_self]
    exact congrArg f (if_pos rfl)
  · rw [Function.update_of_ne h]
    exact congrArg f (if_neg h)

lemma sight_set : (s.set id v).sight = s.sight.put id v.queued v.pixmap :=
  Sight.ext rfl rfl rfl (comp_set s id v Vblank.queued) (comp_set s id v Vblank.pixmap) rfl rfl rfl rfl

lemma sight_set_same (hq : v.queued = (s.vblank id).queued) (hp : v.pixmap = (s.vblank id).pixmap) :
    (s.set id v).sight = s.sight := by
  rw [sight_set,hq,hp]
  refine Sight.ext rfl rfl rfl ?_ ?_ rfl rfl rfl rfl
  · exact Function.update_eq_self id s.sight.queued
  · exact Function.update_eq_self id s.sight.pixmap

lemma sight_setWindow (w : Window) (f : WindowPriv → WindowPriv) : (s.setWindow w f).sight = s.sight := rfl

lemma sight_destroy : (presentVblankDestroy s id).sight =
    { s.sight with execQueue := Sight.without s.execQueue id, flipQueue := Sight.without s.flipQueue id } := rfl

lemma sight_setAbortFlip : (presentSetAbortFlip s id).sight = s.sight := sight_set_same s id _ rfl rfl

end Views

section Copy

variable {s : State} {id : ℕ} {a : Answers} {crtcMsc : UInt64}

def Unflips (t : Sight) (window : Window) : Prop :=
  t.flipPending = none ∧ t.unflipEventId = 0 ∧ t.flipWindow = some window

instance (t : Sight) (window : Window) : Decidable (Unflips t window) := by unfold Unflips; infer_instance

lemma sight_copyChecksFlip (window : Window) :
    (copyChecksFlip s window).sight = if Unflips s.sight window then s.sight.unflip else s.sight := by
  unfold copyChecksFlip
  cases hp : s.flipPending with
  | some pending =>
    have hn : ¬Unflips s.sight window := by
      rintro ⟨h,-⟩
      rw [State.sight,hp] at h
      cases h
    rw [if_neg hn]
    dsimp only
    split_ifs
    · exact sight_setAbortFlip s pending
    · rfl
  | none =>
    dsimp only
    by_cases h : s.unflipEventId = 0 ∧ s.flipWindow = some window
    · rw [if_pos h,if_pos ⟨hp,h⟩]
      rfl
    · rw [if_neg h,if_neg fun hu : Unflips s.sight window => h hu.2]

lemma awaited_pixmap (v : Vblank) : (awaitTearfree a (presentExecuteCopy a v crtcMsc)).pixmap = v.pixmap := by
  unfold awaitTearfree presentExecuteCopy
  split_ifs <;> rfl

lemma without_of_not_mem {l : List ℕ} (h : id ∉ l) : Sight.without l id = l := by
  refine List.filter_eq_self.2 fun i hi => decide_eq_true ?_
  rintro rfl
  exact h hi

lemma sight_presentCopy (hx : id ∉ s.execQueue) (hf : id ∉ s.flipQueue) : ∃ again, (presentCopy a s id crtcMsc).sight =
    (if Unflips s.sight (s.vblank id).window then s.sight.unflip else s.sight).leave id again := by
  rw [← sight_copyChecksFlip]
  unfold presentCopy
  have hx' : id ∉ (copyChecksFlip s (s.vblank id).window).execQueue := by
    unfold copyChecksFlip
    split
    · split_ifs <;> exact hx
    · split_ifs <;> exact hx
  have hf' : id ∉ (copyChecksFlip s (s.vblank id).window).flipQueue := by
    unfold copyChecksFlip
    split
    · split_ifs <;> exact hf
    · split_ifs <;> exact hf
  generalize copyChecksFlip s (s.vblank id).window = s1 at hx' hf' ⊢
  have hp : (awaitTearfree a (presentExecuteCopy a (s1.vblank id) crtcMsc)).pixmap = (s1.vblank id).pixmap := awaited_pixmap _
  dsimp only
  generalize awaitTearfree a (presentExecuteCopy a (s1.vblank id) crtcMsc) = v at hp ⊢
  have hset : (s1.set id v).sight = { s1.sight with queued := Function.update s1.sight.queued id v.queued } := by
    rw [sight_set,hp]
    exact Sight.ext rfl rfl rfl rfl (Function.update_eq_self id s1.sight.pixmap) rfl rfl rfl rfl
  refine ⟨v.queued,?_⟩
  cases hq : v.queued with
  | true =>
    rw [if_pos rfl,sight_setWindow]
    have he : ({ s1.set id v with execQueue := id::s1.execQueue } : State).sight =
        { (s1.set id v).sight with execQueue := id::s1.execQueue } := rfl
    refine he.trans ?_
    rw [hset,hq]
    refine Sight.ext rfl ?_ ?_ rfl rfl rfl rfl rfl rfl
    · exact congrArg (List.cons id) (without_of_not_mem hx').symm
    · exact (without_of_not_mem hf').symm
  | false =>
    rw [if_neg Bool.false_ne_true,sight_destroy,hset,hq]
    rfl

end Copy

section Outcome

/-- What comes of a vblank that is executed and does not have to wait for its MSC or its fence. -/
inductive Outcome (a : Answers) (s : State) (id : ℕ) : Sight → Prop
  | requeued (busy : s.flipPending ≠ none ∨ s.unflipEventId ≠ 0) (pixmap : (s.vblank id).pixmap ≠ none) :
    Outcome a s id (s.sight.requeue id)
  | flips (idle : s.flipPending = none ∧ s.unflipEventId = 0) (flips : (s.vblank id).presents ∧ (s.vblank id).flip ∧ a.flip) :
    Outcome a s id (s.sight.startFlip id)
  | leaves (again : Bool) (copied : again = true → (s.vblank id).presents = true)
    (stays : ¬((s.vblank id).presents ∧ (s.vblank id).flip ∧ a.flip)) : Outcome a s id
      ((if (s.vblank id).presents ∧ Unflips s.sight (s.vblank id).window then s.sight.unflip else s.sight).leave id again)

variable {s : State} {id : ℕ} {a : Answers} {crtcMsc : UInt64}

lemma not_mem_without (l : List ℕ) (id : ℕ) : id ∉ Sight.without l id := by
  intro h
  exact of_decide_eq_true (List.mem_filter.1 h).2 rfl

lemma without_without (l : List ℕ) (id : ℕ) : Sight.without (Sight.without l id) id = Sight.without l id :=
  without_of_not_mem (not_mem_without l id)

lemma leave_leave (t : Sight) (id : ℕ) (b : Bool) : (t.leave id false).leave id b = t.leave id b := by
  refine Sight.ext rfl ?_ (without_without _ id) (Function.update_idem _ _ _) rfl rfl rfl rfl rfl
  change (if b then id::Sight.without (Sight.without t.execQueue id) id else Sight.without (Sight.without t.execQueue id) id) = _
  rw [without_without]
  rfl

lemma sight_waitForFlip : (waitForFlip s id).sight = s.sight.requeue id := sight_set_same _ id _ rfl rfl

lemma sight_takeOff : (takeOff s id).sight = s.sight.leave id false := by
  unfold takeOff
  rw [sight_set]
  exact Sight.ext rfl rfl rfl rfl (Function.update_eq_self id s.sight.pixmap) rfl rfl rfl rfl

lemma takeOff_vblank : (takeOff s id).vblank id = { s.vblank id with queued := false } := if_pos rfl

lemma presentCopy_leaves {s' : State} (hs : s'.sight = s.sight.leave id false) (hw : (s'.vblank id).window = (s.vblank id).window) :
    ∃ again, (presentCopy a s' id crtcMsc).sight =
      (if Unflips s.sight (s.vblank id).window then s.sight.unflip else s.sight).leave id again := by
  have hx : s'.execQueue = Sight.without s.execQueue id := congrArg Sight.execQueue hs
  have hf : s'.flipQueue = Sight.without s.flipQueue id := congrArg Sight.flipQueue hs
  have hcopy : ∃ again, (presentCopy a s' id crtcMsc).sight = _ :=
    sight_presentCopy (by rw [hx]; exact not_mem_without _ id) (by rw [hf]; exact not_mem_without _ id)
  obtain ⟨b,hb⟩ := hcopy
  refine ⟨b,hb.trans ?_⟩
  rw [hs,hw]
  change (if Unflips s.sight (s.vblank id).window then (s.sight.leave id false).unflip else s.sight.leave id false).leave id b = _
  split_ifs
  · exact leave_leave s.sight.unflip id b
  · exact leave_leave s.sight id b

lemma sight_failFlip (h : s.flipPending = none) : (failFlip s id).sight = s.sight := by
  have hset : (failFlip s id).sight = ({ s with flipPending := none } : State).sight := sight_set_same _ id _ rfl rfl
  exact hset.trans (Sight.ext rfl rfl rfl rfl rfl h.symm rfl rfl rfl)

lemma presentNow_outcome : Outcome a s id (presentNow a s id crtcMsc).sight := by
  unfold presentNow
  dsimp only
  by_cases hbusy : (s.vblank id).flip ∧ (s.vblank id).pixmap.isSome ∧ (s.flipPending.isSome ∨ s.unflipEventId ≠ 0)
  · rw [if_pos hbusy,sight_waitForFlip]
    exact .requeued (hbusy.2.2.imp_left Option.isSome_iff_ne_none.1) (Option.isSome_iff_ne_none.1 hbusy.2.1)
  rw [if_neg hbusy]
  by_cases hpres : (s.vblank id).presents = true
  swap
  · have h : Outcome a s id _ := .leaves false nofun fun h => hpres h.1
    rw [if_neg fun h => hpres h.1] at h
    rw [if_neg hpres,sight_destroy]
    have hd : { (takeOff s id).sight with
        execQueue := Sight.without (takeOff s id).execQueue id
        flipQueue := Sight.without (takeOff s id).flipQueue id } = s.sight.leave id false := by
      rw [sight_takeOff]
      exact Sight.ext rfl (without_without _ id) (without_without _ id) rfl rfl rfl rfl rfl rfl
    rw [hd]
    exact h
  rw [if_pos hpres]
  have hleaves {s' : State} (hs : s'.sight = s.sight.leave id false) (hw : (s'.vblank id).window = (s.vblank id).window)
      (hstay : ¬((s.vblank id).presents ∧ (s.vblank id).flip ∧ a.flip)) : Outcome a s id (presentCopy a s' id crtcMsc).sight := by
    have hc : ∃ again, (presentCopy a s' id crtcMsc).sight = _ := presentCopy_leaves hs hw
    obtain ⟨again,hc⟩ := hc
    have h : Outcome a s id _ := .leaves again (fun _ => hpres) hstay
    rw [hc]
    convert h using 3
    exact ⟨fun hu => ⟨hpres,hu⟩,And.right⟩
  cases hflip : (s.vblank id).flip with
  | false =>
    rw [if_neg Bool.false_ne_true]
    exact hleaves sight_takeOff (by rw [takeOff_vblank]) fun h => by rw [hflip] at h; cases h.2.1
  | true =>
    rw [if_pos rfl]
    have hpix : (s.vblank id).pixmap.isSome = true := (Bool.and_eq_true_iff.1 hpres).1
    have hidle : s.flipPending = none ∧ s.unflipEventId = 0 := by
      simpa [hflip,hpix] using hbusy
    cases ha : a.flip with
    | false =>
      rw [if_neg Bool.false_ne_true]
      have hs : (failFlip (takeOff s id) id).sight = _ := sight_failFlip hidle.1
      have hw : ((failFlip (takeOff s id) id).vblank id).window = (s.vblank id).window := by
        have h : (failFlip (takeOff s id) id).vblank id = _ := if_pos rfl
        rw [h,takeOff_vblank]
      exact hleaves (hs.trans sight_takeOff) hw fun h => by rw [ha] at h; cases h.2.2
    | true =>
      rw [if_pos rfl]
      have hst : (startFlip (takeOff s id) id).sight = s.sight.startFlip id :=
        congrArg (fun t : Sight => { t with flipPending := some id, flipQueue := id::t.flipQueue }) sight_takeOff
      rw [hst]
      exact .flips hidle ⟨hpres,hflip,ha⟩

end Outcome

end Xlibre.Present
