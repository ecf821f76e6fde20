import Xlibre.Dix.Freeze.Stale

/-! The queue of the events of frozen devices keeps every device's order. -/
namespace Xlibre.Dix.Freeze

section Keyed

variable {α κ : Type*} [DecidableEq κ]

lemma filter_find?_eraseP (key : α → κ) (free : κ → Bool) {l : List α} {a : α} (h : l.find? (fun x => free (key x)) = some a) (k : κ) :
    ([a].filter fun x => decide (key x = k)) ++ (l.eraseP fun x => free (key x)).filter (fun x => decide (key x = k)) =
      l.filter fun x => decide (key x = k) := by
  induction l with
  | nil => cases h
  | cons x l ih =>
    cases hx : free (key x) with
    | true =>
      simp only [List.find?_cons,hx] at h
      cases h
      simp only [List.eraseP_cons,hx]
      rw [← List.filter_append]
      rfl
    | false =>
      simp only [List.find?_cons,hx] at h
      simp only [List.eraseP_cons,hx]
      by_cases hk : key x = k
      · have ha : key a ≠ k := by
          have hfree : free (key a) = true := List.find?_some (p := fun x => free (key x)) h
          rintro rfl
          simp [hk,hfree] at hx
        have ih := ih h
        simp only [List.filter_cons,ha,decide_false,Bool.false_eq_true,if_false,List.filter_nil,List.nil_append] at ih
        simp [ha,hk,ih]
      · simpa [List.filter_cons,hk] using ih h

end Keyed

variable {D : Type*} {V : Devices D} {s : State D}

/-- The events that went into a list of queued ones for a device. -/
def arrivals [DecidableEq D] (l : List (QdEvent D)) (d : D) : List (Arrival D) :=
  (l.filter fun qe => decide (qe.device = d)).flatMap QdEvent.absorbed

/-- A queued event is one that was enqueued, or a motion with later ones of its device and screen merged into it. -/
structure QdEvent.Whole (qe : QdEvent D) : Prop where
  same : ∀ a ∈ qe.absorbed, a.device = qe.device ∧ a.screen = qe.screen
  merged : ∃ a rest, qe.absorbed = a :: rest ∧ qe.event = (rest.map Arrival.event).foldl InternalEvent.moveTo a.event ∧
    (rest ≠ [] → ∀ b ∈ qe.absorbed, b.event.motion = true)

structure QueueInv [DecidableEq D] (s : State D) : Prop where
  order : ∀ d, arrivals (s.played ++ s.pending) d = s.enqueued.filter fun a => decide (a.device = d)
  whole : ∀ qe ∈ s.played ++ s.pending, qe.Whole
  playing : s.phase ≠ .idle → s.playingEvents = true

/-- With no event playing and no device changed since, only events of frozen devices are pending. -/
def SettledInv (s : State D) : Prop :=
  s.settled = true → s.playingEvents = false ∧ ∀ qe ∈ s.pending, (s.deviceGrab qe.device).frozen = true

lemma arrivals_append [DecidableEq D] (l m : List (QdEvent D)) (d : D) : arrivals (l ++ m) d = arrivals l d ++ arrivals m d := by
  simp [arrivals]

/-- What grabs and AllowSome leave alone. -/
structure SameQueue (s s' : State D) : Prop where
  pending : s'.pending = s.pending
  played : s'.played = s.played
  enqueued : s'.enqueued = s.enqueued
  playing : s.playingEvents = true → s'.playingEvents = true
  started : s'.phase = s.phase ∨ s'.playingEvents = true

lemma SameQueue.trans {s s' s'' : State D} (h : SameQueue s s') (h' : SameQueue s' s'') : SameQueue s s'' where
  pending := h'.pending.trans h.pending
  played := h'.played.trans h.played
  enqueued := h'.enqueued.trans h.enqueued
  playing hp := h'.playing (h.playing hp)
  started := by
    obtain hs | hs := h'.started
    · exact h.started.imp hs.trans h'.playing
    · exact Or.inr hs

lemma sameQueue_grabs (s : State D) (infos : D → GrabInfo) : SameQueue s { s with deviceGrab := infos } :=
  ⟨rfl,rfl,rfl,id,Or.inl rfl⟩

lemma sameQueue_computeFreezes (s : State D) : SameQueue s (computeFreezes s) := by
  unfold computeFreezes
  dsimp only
  by_cases hstop : ((freezeAll s).playingEvents || (freezeAll s).replayDev.isNone && (freezeAll s).pending.isEmpty) = true
  · rw [if_pos hstop]
    exact ⟨rfl,rfl,rfl,id,Or.inl rfl⟩
  · rw [if_neg hstop]
    exact ⟨rfl,rfl,rfl,fun _ => rfl,Or.inr rfl⟩

lemma QueueInv.of_same [DecidableEq D] {s s' : State D} (h : QueueInv s) (hs : SameQueue s s') : QueueInv s' where
  order d := by rw [hs.played,hs.pending,hs.enqueued]; exact h.order d
  whole qe hq := h.whole qe (by rwa [hs.played,hs.pending] at hq)
  playing hp := by
    obtain hst | hst := hs.started
    · exact hs.playing (h.playing (by rwa [hst] at hp))
    · exact hst

lemma settledInv_computeFreezes (s : State D) : SettledInv (computeFreezes s) := by
  unfold computeFreezes
  dsimp only
  by_cases hstop : ((freezeAll s).playingEvents || (freezeAll s).replayDev.isNone && (freezeAll s).pending.isEmpty) = true
  · rw [if_pos hstop]
    intro hset
    have hplay : (freezeAll s).playingEvents = false := by simpa using hset
    have hempty : (freezeAll s).replayDev = none ∧ (freezeAll s).pending = [] := by simpa [hplay] using hstop
    exact ⟨hplay,by simp [hempty.2]⟩
  · rw [if_neg hstop]
    intro hset
    cases hset

lemma SettledInv.of_replayDev {s : State D} (h : SettledInv s) (dev : Option D) :
    SettledInv { s with replayDev := dev } := h

section Grabs

variable [DecidableEq D] {dev : D}

lemma sameQueue_checkGrabForSyncs (s : State D) (grab : Grab) (time : TimeStamp) (passive implicit : Bool)
    (thisMode otherMode : GrabMode) :
    SameQueue s (checkGrabForSyncs V (setGrab s dev grab time passive implicit) dev thisMode otherMode) :=
  (sameQueue_grabs s _).trans (sameQueue_computeFreezes _)

lemma sameQueue_deactivateGrab (s : State D) (dev : D) : SameQueue s (deactivateGrab s dev) :=
  (sameQueue_grabs s _).trans (sameQueue_computeFreezes _)

lemma sameQueue_replay (s : State D) (win : Option ℕ) :
    SameQueue s { deactivateGrab { s with replayDev := some dev, replayWin := win } dev with replayDev := none } := by
  have h := sameQueue_deactivateGrab { s with replayDev := some dev, replayWin := win } dev
  exact ⟨h.pending,h.played,h.enqueued,h.playing,h.started⟩

lemma allowMode_queue (h : SettledInv s) (client : ℕ) (thisGrabbed : Bool) (o : Others) (newState : GrabState) :
    SameQueue s (allowMode s client dev thisGrabbed o newState) ∧
      SettledInv (allowMode s client dev thisGrabbed o newState) := by
  have hkeep : SameQueue s s ∧ SettledInv s := ⟨sameQueue_grabs s s.deviceGrab,h⟩
  have hcompute (infos : D → GrabInfo) : SameQueue s (computeFreezes { s with deviceGrab := infos }) ∧
      SettledInv (computeFreezes { s with deviceGrab := infos }) :=
    ⟨(sameQueue_grabs s infos).trans (sameQueue_computeFreezes _),settledInv_computeFreezes _⟩
  cases newState with
  | thawed => exact hcompute _
  | freezeNextEvent | thawedBoth | freezeBothNextEvent | thawOthers =>
    simp only [allowMode]
    split_ifs
    · exact hcompute _
    · exact hkeep
  | notGrabbed =>
    simp only [allowMode]
    split_ifs
    · constructor
      · exact (sameQueue_grabs s _).trans (sameQueue_replay _ _)
      · exact (settledInv_computeFreezes _).of_replayDev none
    · exact hkeep
  | frozenNoEvent | frozenWithEvent => exact hkeep

lemma allowSome_queue (h : SettledInv s) (dev : D) (client : ℕ) (time currentTime : TimeStamp) (newState : GrabState) :
    SameQueue s (allowSome V s client time currentTime dev newState) ∧
      SettledInv (allowSome V s client time currentTime dev newState) := by
  have hkeep : SameQueue s s ∧ SettledInv s := ⟨sameQueue_grabs s s.deviceGrab,h⟩
  unfold allowSome
  dsimp only
  split_ifs
  · exact hkeep
  · exact hkeep
  · exact allowMode_queue h _ _ _ _

lemma settledInv_setState (h : SettledInv s) (state : GrabState) : SettledInv (setState s dev state) := by
  intro hset
  refine ⟨(h hset).1,fun qe hq => ?_⟩
  have hf := (h hset).2 qe hq
  by_cases hd : qe.device = dev
  · simpa [setState,hd] using hf
  · simpa [setState,hd] using hf

end Grabs

section Playing

variable [DecidableEq D]

lemma queueInv_donePlaying (h : QueueInv s) : QueueInv (donePlaying s) :=
  ⟨h.order,h.whole,fun hp => absurd rfl hp⟩

omit [DecidableEq D] in
lemma settledInv_donePlaying (h : ∀ qe ∈ s.pending, (s.deviceGrab qe.device).frozen = true) :
    SettledInv (donePlaying s) := fun _ => ⟨rfl,h⟩

lemma settled_of_phase (hs : QueueInv s) (h : SettledInv s) (hp : s.phase ≠ .idle) : s.settled = false := by
  cases hset : s.settled with
  | false => rfl
  | true => exact absurd (hs.playing hp) (by simp [(h hset).1])

lemma afterReplay_queue (hs : QueueInv s) (h : SettledInv s) (hp : s.phase = .replaying) :
    QueueInv (afterReplay V s) ∧ SettledInv (afterReplay V s) := by
  unfold afterReplay
  split_ifs with hany
  · have hset := settled_of_phase hs h (by simp [hp])
    exact ⟨⟨hs.order,hs.whole,fun _ => hs.playing (by simp [hp])⟩,fun ht => by simp [hset] at ht⟩
  · refine ⟨queueInv_donePlaying hs,settledInv_donePlaying fun qe _ => ?_⟩
    by_contra hf
    exact hany (List.any_eq_true.2 ⟨qe.device,V.mem_list _,by simpa using hf⟩)

lemma afterEvent_queue (hs : QueueInv s) (h : SettledInv s) (hp : s.phase = .inEvent) :
    QueueInv (afterEvent V s) ∧ SettledInv (afterEvent V s) := by
  unfold afterEvent
  split_ifs with hall
  · exact ⟨queueInv_donePlaying hs,settledInv_donePlaying fun qe _ => List.all_eq_true.1 hall _ (V.mem_list _)⟩
  · have hset := settled_of_phase hs h (by simp [hp])
    exact ⟨⟨hs.order,hs.whole,fun _ => hs.playing (by simp [hp])⟩,fun ht => by simp [hset] at ht⟩

lemma playReleasedEvents_queue (hs : QueueInv s) (h : SettledInv s) (hp : s.phase = .scanning) :
    QueueInv (playReleasedEvents s) ∧ SettledInv (playReleasedEvents s) := by
  unfold playReleasedEvents
  split
  next hnone =>
    refine ⟨queueInv_donePlaying hs,settledInv_donePlaying fun qe hq => ?_⟩
    simpa using List.find?_eq_none.1 hnone qe hq
  next qe hfind =>
    have hset := settled_of_phase hs h (by simp [hp])
    refine ⟨⟨fun d => ?_,fun q hq => ?_,fun _ => hs.playing (by simp [hp])⟩,fun ht => by simp [hset] at ht⟩
    · rw [← hs.order d]
      simp only [arrivals_append,List.append_assoc]
      congr 1
      rw [← arrivals_append]
      unfold arrivals
      rw [List.filter_append]
      exact congrArg (List.flatMap QdEvent.absorbed)
        (filter_find?_eraseP QdEvent.device (fun d => !(s.deviceGrab d).frozen) hfind d)
    · apply hs.whole
      simp only [List.mem_append,List.mem_singleton] at hq ⊢
      rcases hq with (hq | rfl) | hq
      · exact Or.inl hq
      · exact Or.inr (List.mem_of_find?_eq_some hfind)
      · exact Or.inr (List.mem_of_mem_eraseP hq)

omit [DecidableEq D] in
lemma foldl_moveTo_motion (l : List InternalEvent) (e : InternalEvent) :
    (l.foldl InternalEvent.moveTo e).motion = e.motion := by
  induction l generalizing e with
  | nil => rfl
  | cons x l ih => exact ih _

lemma QdEvent.Whole.merge {qe : QdEvent D} (h : qe.Whole) {a : Arrival D} (ha : mergesInto a qe = true)
    (months : ℕ) : (qe.merge a months).Whole := by
  obtain ⟨⟨⟨hma,hmq⟩,hdev⟩,hscr⟩ : ((a.event.motion = true ∧ qe.event.motion = true) ∧ qe.device = a.device) ∧
      qe.screen = a.screen := by simpa [mergesInto] using ha
  obtain ⟨b,rest,habs,hev,hmot⟩ := h.merged
  constructor
  · intro c hc
    rcases List.mem_append.1 hc with hc | hc
    · exact h.same c hc
    · obtain rfl := List.mem_singleton.1 hc
      exact ⟨hdev.symm,hscr.symm⟩
  · refine ⟨b,rest ++ [a],?_,?_,fun _ c hc => ?_⟩
    · simp [QdEvent.merge,habs]
    · simp [QdEvent.merge,hev]
    · have hb : b.event.motion = true := by
        rw [hev,foldl_moveTo_motion] at hmq
        exact hmq
      rcases List.mem_append.1 hc with hc | hc
      · by_cases hrest : rest = []
        · rw [habs,hrest] at hc
          obtain rfl := List.mem_singleton.1 hc
          exact hb
        · exact hmot hrest c hc
      · obtain rfl := List.mem_singleton.1 hc
        exact hma

lemma appendEvent_queue (hs : QueueInv s) (h : SettledInv s) (a : Arrival D) (months : ℕ) (memory : Bool)
    (hf : (s.deviceGrab a.device).frozen = true) :
    QueueInv (appendEvent s a months memory) ∧ SettledInv (appendEvent s a months memory) := by
  cases memory with
  | false => exact ⟨hs,h⟩
  | true =>
    refine ⟨⟨fun d => ?_,fun qe hq => ?_,hs.playing⟩,fun hset => ⟨(h hset).1,fun qe hq => ?_⟩⟩
    · simp only [appendEvent,if_true,List.filter_append,← hs.order d]
      rw [← List.append_assoc,arrivals_append]
      congr 1
      by_cases hd : a.device = d <;> simp [arrivals,hd]
    · simp only [appendEvent,if_true] at hq
      rw [← List.append_assoc] at hq
      rcases List.mem_append.1 hq with hq | hq
      · exact hs.whole qe hq
      · obtain rfl := List.mem_singleton.1 hq
        exact ⟨by simp,a,[],rfl,rfl,fun h => absurd rfl h⟩
    · rcases List.mem_append.1 hq with hq | hq
      · exact (h hset).2 qe hq
      · obtain rfl := List.mem_singleton.1 hq
        exact hf

lemma enqueueEvent_queue (hs : QueueInv s) (h : SettledInv s) (a : Arrival D) (months : ℕ) (memory : Bool)
    (hf : (s.deviceGrab a.device).frozen = true) :
    QueueInv (enqueueEvent s a months memory) ∧ SettledInv (enqueueEvent s a months memory) := by
  unfold enqueueEvent
  split
  next tail htail =>
    split_ifs with hm
    · have hpend : s.pending = s.pending.dropLast ++ [tail] := (List.dropLast_append_getLast? tail htail).symm
      have hdev : tail.device = a.device := by
        simp only [mergesInto,Bool.and_eq_true,decide_eq_true_eq] at hm
        exact hm.1.2
      have hmem : tail ∈ s.pending := List.mem_of_getLast? htail
      refine ⟨⟨fun d => ?_,fun qe hq => ?_,hs.playing⟩,fun hset => ⟨(h hset).1,fun qe hq => ?_⟩⟩
      · have hord := hs.order d
        rw [hpend] at hord
        simp only [List.filter_append,← hord,← List.append_assoc,arrivals_append]
        by_cases hd : a.device = d <;> simp [arrivals,hd,hdev,QdEvent.merge]
      · simp only [List.mem_append,List.mem_singleton] at hq
        rcases hq with hq | hq | rfl
        · exact hs.whole qe (List.mem_append_left _ hq)
        · exact hs.whole qe (List.mem_append_right _ ((List.dropLast_sublist _).subset hq))
        · exact (hs.whole tail (List.mem_append_right _ hmem)).merge hm months
      · rcases List.mem_append.1 hq with hq | hq
        · exact (h hset).2 qe ((List.dropLast_sublist _).subset hq)
        · obtain rfl := List.mem_singleton.1 hq
          exact (h hset).2 tail hmem
    · exact appendEvent_queue hs h a months memory hf
  next => exact appendEvent_queue hs h a months memory hf

end Playing

section Run

variable [DecidableEq D]

lemma apply_queue (hs : QueueInv s) (h : SettledInv s) (op : Op D) (enabled : Enabled s op) :
    QueueInv (apply V s op) ∧ SettledInv (apply V s op) := by
  cases op with
  | activatePointerGrab mouse grab time autoGrab =>
    exact ⟨hs.of_same (sameQueue_checkGrabForSyncs s _ _ _ _ _ _),settledInv_computeFreezes _⟩
  | activateKeyboardGrab keybd grab time passive =>
    exact ⟨hs.of_same (sameQueue_checkGrabForSyncs s _ _ _ _ _ _),settledInv_computeFreezes _⟩
  | deactivateGrab dev => exact ⟨hs.of_same (sameQueue_deactivateGrab s dev),settledInv_computeFreezes _⟩
  | allowSome client time currentTime thisDev newState =>
    obtain ⟨hq,hset⟩ := allowSome_queue (V := V) h thisDev client time currentTime newState
    exact ⟨hs.of_same hq,hset⟩
  | computeFreezes => exact ⟨hs.of_same (sameQueue_computeFreezes s),settledInv_computeFreezes s⟩
  | freezeThaw dev frozen => exact ⟨⟨hs.order,hs.whole,hs.playing⟩,fun hset => by cases hset⟩
  | syncState dev state => exact ⟨hs.of_same (sameQueue_grabs s _),settledInv_setState h state⟩
  | enqueueEvent a months memory => exact enqueueEvent_queue hs h a months memory enabled
  | afterReplay => exact afterReplay_queue hs h enabled
  | playReleasedEvents => exact playReleasedEvents_queue hs h enabled
  | afterEvent => exact afterEvent_queue hs h enabled

/-- However the operations come, every device's events are played in the order they were enqueued, each once, alone or
merged into an earlier motion of the device on its screen; and after a ComputeFreezes that leaves no event playing, until a
device is frozen or thawed, only events of frozen devices are pending. -/
theorem reach_queue {allowed : State D → Op D → Prop} (h : Reach V allowed s) :
    (s.settled = true → s.playingEvents = false ∧ ∀ qe ∈ s.pending, (s.deviceGrab qe.device).frozen = true) ∧
      (∀ d, arrivals (s.played ++ s.pending) d = s.enqueued.filter fun a => decide (a.device = d)) ∧
      ∀ qe ∈ s.played ++ s.pending, qe.Whole := by
  have hinv : QueueInv s ∧ SettledInv s := by
    induction h with
    | initial =>
      refine ⟨⟨fun d => rfl,fun qe hq => ?_,fun hp => absurd rfl hp⟩,fun _ => ⟨rfl,fun qe hq => ?_⟩⟩
      · cases hq
      · cases hq
    | step op _ enabled _ ih => exact apply_queue ih.1 ih.2 op enabled
  exact ⟨hinv.2,hinv.1.order,hinv.1.whole⟩

/-- The keyboard is frozen by the pointer's grab when a key goes down, and plays it when the grab has ended. -/
theorem reach_queue_corePair :
    let key : Arrival Bool := ⟨true,0,⟨false,5,0,0,38⟩⟩
    let run : List (Op Bool) := [.activatePointerGrab false freezingGrab ⟨0,0⟩ ⟨false,false⟩,.enqueueEvent key 0 true,
      .deactivateGrab false,.playReleasedEvents,.afterEvent,.playReleasedEvents]
    let s := run.foldl (apply corePair) State.initial
    arrivals (s.played ++ s.pending) true = [key] := by
  intro key run s
  have h : Reach corePair (fun _ _ => True) s := by
    refine .step .playReleasedEvents (.step .afterEvent (.step .playReleasedEvents (.step (.deactivateGrab false)
      (.step (.enqueueEvent key 0 true) (.step (.activatePointerGrab false freezingGrab ⟨0,0⟩ ⟨false,false⟩) .initial
      trivial trivial) ?_ trivial) ?_ trivial) ?_ trivial) ?_ trivial) ?_ trivial
    · rfl
    · exact Option.some_ne_none freezingGrab
    · rfl
    · rfl
    · rfl
  exact (reach_queue h).2.1 true

end Run

end Xlibre.Dix.Freeze
