import Mathlib.Logic.Relation
import Xlibre.Present.FlipRun
import Xlibre.Present.ReExecute

/-! `miSyncTriggerFence` for a fence that awaits and presentations have triggers on. -/
namespace Xlibre.Present

section Fence

inductive Trigger
  | await (a i : ℕ)
  | waitFence (id : ℕ)
  | idleFence (id : ℕ)
deriving DecidableEq

def Trigger.ofAwait (a : ℕ) : Trigger → Bool
  | .await b _ => decide (b = a)
  | _ => false

def Trigger.ofVblank (id : ℕ) : Trigger → Bool
  | .await _ _ => false
  | .waitFence i => decide (i = id)
  | .idleFence i => decide (i = id)

/-- A fence and the screen; `fired` are the triggers that have fired in the call of `miSyncTriggerFence`. -/
structure Fence where
  triggered : Bool
  pTriglist : List Trigger
  present : State
  fired : List Trigger

/-- `CheckTrigger`: an await asks for the fence, a presentation for its callback, which an idle fence never gets. -/
def Fence.checkTrigger (f : Fence) : Trigger → Bool
  | .await _ _ => f.triggered
  | .waitFence id => (f.present.vblank id).fenceCallback
  | .idleFence _ => false

abbrev Driver := ℕ → ℕ → Answers

/-- The MSC is that of `env` during the whole call. -/
def Fence.env (env : Env) (driver : Driver) (f : Fence) : Env :=
  { env with answers := fun id => { driver id (f.fired.count (.waitFence id)) with fenceTriggered := f.triggered } }

/-- `TriggerFired`: an await takes its conditions off the list, and a vblank that is destroyed the triggers on its fences. -/
def Fence.triggerFired (env : Env) (driver : Driver) (f : Fence) : Trigger → Fence
  | .await a _ => { f with pTriglist := f.pTriglist.filter fun t => !t.ofAwait a }
  | .waitFence id =>
    let s := presentReExecute (f.env env driver) f.present id
    { f with present := s, pTriglist := if s.Lives id then f.pTriglist else f.pTriglist.filter fun t => !t.ofVblank id }
  | .idleFence _ => f

/-- One round of the loop in `miSyncTriggerFence`; `none` when no trigger is true. -/
def Fence.round (env : Env) (driver : Driver) (f : Fence) : Option Fence :=
  match f.pTriglist.find? f.checkTrigger with
  | none => none
  | some t => some { f.triggerFired env driver t with fired := f.fired ++ [t] }

/-- The start of `miSyncTriggerFence`. -/
def miSyncTriggerFence (f : Fence) : Fence := { f with triggered := true, fired := [] }

def Fence.Rounds (env : Env) (driver : Driver) : Fence → Fence → Prop :=
  Relation.ReflTransGen fun f f' => f.round env driver = some f'

/-- The list of a fence: no trigger is on it twice, and a vblank with a trigger has not been destroyed. -/
structure Fence.Ok (f : Fence) : Prop where
  nodup : f.pTriglist.Nodup
  lives : ∀ id, .waitFence id ∈ f.pTriglist → f.present.Lives id

structure Fence.FiresOnce (env : Env) (driver : Driver) (f : Fence) : Prop where
  ends : ∃ f', f.Rounds env driver f' ∧ f'.round env driver = none
  once : ∀ f', f.Rounds env driver f' → f'.fired.Nodup

end Fence

section Condition

/-- The vblanks with a callback among the triggers. -/
def State.waitingOn (s : State) (l : List Trigger) : List ℕ :=
  l.filterMap fun
    | .waitFence id => if (s.vblank id).fenceCallback then some id else none
    | _ => none

def Fence.waiting (f : Fence) : List ℕ := f.present.waitingOn f.pTriglist

/-- No flip can start, or a copy of one of the vblanks to the window of the current flip ends that. -/
def BusyAfter (s : State) (ids : List ℕ) : Prop :=
  s.Busy ∨ ∃ id ∈ ids, (s.vblank id).presents = true ∧ s.flipWindow = some (s.vblank id).window

def Fence.CompletesAfter (env : Env) (driver : Driver) (f : Fence) (ids : List ℕ) (id : ℕ) : Prop :=
  Completes (driver id 0) (f.present.vblank id) (currentMsc env f.present id) (BusyAfter f.present ids)

end Condition

section Walk

variable {env : Env} {driver : Driver} {f₀ f f' : Fence} {done : List ℕ} {id : ℕ} {t : Trigger}

lemma completes_congr {a : Answers} {v : Vblank} {crtcMsc : UInt64} {busy busy' : Prop} (h : busy ↔ busy') (b b' : Bool) :
    Completes { a with fenceTriggered := b } { v with abortFlip := b' } crtcMsc busy ↔ Completes a v crtcMsc busy' := by
  constructor
  · exact fun hc => ⟨hc.wait,fun hb => hc.busy ⟨hb.1,hb.2.1,h.2 hb.2.2⟩,hc.flip,hc.copy,hc.tearfree⟩
  · exact fun hc => ⟨hc.wait,fun hb => hc.busy ⟨hb.1,hb.2.1,h.1 hb.2.2⟩,hc.flip,hc.copy,hc.tearfree⟩

/-- The loop, when the vblanks in `done` have been executed and destroyed. -/
structure Walk (f₀ : Fence) (done : List ℕ) (f : Fence) : Prop where
  triggered : f.triggered = true
  ok : f.Ok
  waiting : f₀.waiting = done ++ f.waiting
  distinct : f₀.waiting.Nodup
  fresh : ∀ t ∈ f.fired, t ∉ f.pTriglist
  once : f.fired.Nodup
  vblanks : ∀ id ∉ done, ∃ b, f.present.vblank id = { f₀.present.vblank id with abortFlip := b }
  flipWindow : f.present.flipWindow = f₀.present.flipWindow
  busy : f.present.Busy ↔ BusyAfter f₀.present done

lemma Fence.waiting_nodup (h : f.Ok) : f.waiting.Nodup := by
  refine h.nodup.filterMap fun t u id ht hu => ?_
  cases t <;> cases u <;> simp_all

lemma Walk.start (h : f₀.Ok) : Walk (miSyncTriggerFence f₀) [] (miSyncTriggerFence f₀) where
  triggered := rfl
  ok := ⟨h.nodup,h.lives⟩
  waiting := rfl
  distinct := Fence.waiting_nodup ⟨h.nodup,h.lives⟩
  fresh _ ht := nomatch ht
  once := List.nodup_nil
  vblanks _ _ := ⟨_,rfl⟩
  flipWindow := rfl
  busy := (or_iff_left fun ⟨_,h,_⟩ => nomatch h).symm

section Waiting

variable {s s' : State} {l pre post : List Trigger}

lemma waitingOn_congr (h : ∀ j, (s'.vblank j).fenceCallback = (s.vblank j).fenceCallback) (l : List Trigger) :
    s'.waitingOn l = s.waitingOn l := by
  unfold State.waitingOn
  congr 1
  funext t
  cases t with
  | waitFence id => simp only [h]
  | await a i => rfl
  | idleFence id => rfl

lemma waitingOn_filter {p : Trigger → Bool} (h : ∀ id, .waitFence id ∈ l → p (.waitFence id) = true) :
    s.waitingOn (l.filter p) = s.waitingOn l := by
  induction l with
  | nil => rfl
  | cons t l ih =>
    have ih := ih fun id hid => h id (List.mem_cons_of_mem _ hid)
    unfold State.waitingOn at ih ⊢
    cases t with
    | waitFence id =>
      rw [List.filter_cons_of_pos (h id List.mem_cons_self),List.filterMap_cons,List.filterMap_cons,ih]
    | await a i =>
      rw [List.filter_cons]
      split_ifs
      · rw [List.filterMap_cons_none rfl,List.filterMap_cons_none rfl,ih]
      · rw [List.filterMap_cons_none rfl,ih]
    | idleFence id =>
      rw [List.filter_cons]
      split_ifs
      · rw [List.filterMap_cons_none rfl,List.filterMap_cons_none rfl,ih]
      · rw [List.filterMap_cons_none rfl,ih]

lemma waitingOn_none (h : ∀ id, .waitFence id ∈ l → (s.vblank id).fenceCallback = false) : s.waitingOn l = [] := by
  refine List.filterMap_eq_nil_iff.2 fun t ht => ?_
  cases t with
  | waitFence id => simp [h id ht]
  | await a i => rfl
  | idleFence id => rfl

lemma waitingOn_append (s : State) (l m : List Trigger) : s.waitingOn (l ++ m) = s.waitingOn l ++ s.waitingOn m :=
  List.filterMap_append

lemma waitingOn_split (hpre : ∀ i, .waitFence i ∈ pre → (s.vblank i).fenceCallback = false)
    (hid : (s.vblank id).fenceCallback = true) : s.waitingOn (pre ++ .waitFence id::post) = id::s.waitingOn post := by
  rw [waitingOn_append,waitingOn_none hpre,List.nil_append]
  unfold State.waitingOn
  rw [List.filterMap_cons_some (b := id)]
  exact if_pos hid

end Waiting

section Round

lemma Fence.round_eq_some (h : f.round env driver = some f') : ∃ t, f.pTriglist.find? f.checkTrigger = some t ∧
    f' = { f.triggerFired env driver t with fired := f.fired ++ [t] } := by
  unfold Fence.round at h
  split at h
  · cases h
  · rename_i t ht
    exact ⟨t,ht,(Option.some.inj h).symm⟩

lemma Fence.waiting_of_round (h : f.round env driver = none) : f.waiting = [] := by
  unfold Fence.round at h
  split at h
  · rename_i hfind
    refine waitingOn_none fun id hid => ?_
    simpa [Fence.checkTrigger] using List.find?_eq_none.1 hfind _ hid
  · cases h

lemma nodup_fired (h : f.fired.Nodup) (ht : t ∉ f.fired) : (f.fired ++ [t]).Nodup := by
  rw [List.nodup_append_comm,List.singleton_append,List.nodup_cons]
  exact ⟨ht,h⟩

lemma Walk.await {a i : ℕ} (h : Walk f₀ done f) (ht : .await a i ∈ f.pTriglist) :
    Walk f₀ done { f.triggerFired env driver (.await a i) with fired := f.fired ++ [.await a i] } where
  triggered := h.triggered
  ok := ⟨h.ok.nodup.filter _,fun id hid => h.ok.lives id (List.mem_filter.1 hid).1⟩
  waiting := by
    have hsame : f.present.waitingOn (f.pTriglist.filter fun t => !t.ofAwait a) = f.present.waitingOn f.pTriglist :=
      waitingOn_filter fun _ _ => rfl
    rw [h.waiting]
    exact congrArg _ hsame.symm
  distinct := h.distinct
  fresh t hf hm := by
    obtain ⟨hm,hkept⟩ := List.mem_filter.1 hm
    obtain hf | hf := List.mem_append.1 hf
    · exact h.fresh t hf hm
    · rw [List.mem_singleton.1 hf] at hkept
      simp [Trigger.ofAwait] at hkept
  once := nodup_fired h.once fun hf => h.fresh _ hf ht
  vblanks := h.vblanks
  flipWindow := h.flipWindow
  busy := h.busy

lemma Walk.executed (h : Walk f₀ done f) (hid : id ∉ done) (ht : .waitFence id ∈ f.pTriglist) :
    Frame id f.present (presentReExecute (f.env env driver) f.present id) ∧
      ((presentReExecute (f.env env driver) f.present id).Lives id ↔ ¬f₀.CompletesAfter env driver done id) ∧
      (f₀.CompletesAfter env driver done id →
        ((presentReExecute (f.env env driver) f.present id).Busy ↔ BusyAfter f₀.present (done ++ [id]))) := by
  obtain ⟨b,hb⟩ := h.vblanks id hid
  have hanswers : (f.env env driver).answers id = { driver id 0 with fenceTriggered := true } := by
    have hcount : f.fired.count (.waitFence id) = 0 := List.count_eq_zero_of_not_mem fun hf => h.fresh _ hf ht
    simp only [Fence.env,hcount,h.triggered]
  have hf : ((f.env env driver).answers id).fenceTriggered = true := by rw [hanswers]
  have hmsc : currentMsc (f.env env driver) f.present id = currentMsc env f₀.present id := by
    unfold currentMsc
    rw [hb]
    rfl
  have hcompletes : Completes ((f.env env driver).answers id) (f.present.vblank id) (currentMsc (f.env env driver) f.present id)
      f.present.Busy ↔ f₀.CompletesAfter env driver done id := by
    rw [hanswers,hb,hmsc]
    exact completes_congr h.busy true b
  refine ⟨.presentExecute _ _ hf,?_,fun hc => ?_⟩
  · rw [← hcompletes]
    exact presentExecute_lives hf (h.ok.lives id ht)
  · rw [presentReExecute,presentExecute_busy hf (hcompletes.2 hc),h.busy,h.flipWindow,hb]
    unfold BusyAfter
    simp only [List.mem_append,List.mem_singleton,or_and_right,exists_or,exists_eq_left,or_assoc]
    rfl

lemma Fence.find_waitFence (h : f.pTriglist.find? f.checkTrigger = some (.waitFence id)) :
    ∃ pre post, f.pTriglist = pre ++ .waitFence id::post ∧ (∀ i, .waitFence i ∈ pre → (f.present.vblank i).fenceCallback = false) ∧
      f.waiting = id::f.present.waitingOn post := by
  obtain ⟨hid,pre,post,hl,hpre⟩ := List.find?_eq_some_iff_append.1 h
  have hpre' : ∀ i, .waitFence i ∈ pre → (f.present.vblank i).fenceCallback = false := fun i hi => by
    simpa [Fence.checkTrigger] using hpre _ hi
  exact ⟨pre,post,hl,hpre',by rw [Fence.waiting,hl,waitingOn_split hpre' hid]⟩

lemma Walk.completes (h : Walk f₀ done f) (hfind : f.pTriglist.find? f.checkTrigger = some (.waitFence id)) (hid : id ∉ done)
    (hc : f₀.CompletesAfter env driver done id) :
    Walk f₀ (done ++ [id]) { f.triggerFired env driver (.waitFence id) with fired := f.fired ++ [.waitFence id] } ∧
      (f.triggerFired env driver (.waitFence id)).pTriglist.length < f.pTriglist.length := by
  have ht := List.mem_of_find?_eq_some hfind
  obtain ⟨hframe,hlives,hbusy⟩ := h.executed hid ht
  have hgone : ¬(presentReExecute (f.env env driver) f.present id).Lives id := fun hl => hlives.1 hl hc
  have hfired : f.triggerFired env driver (.waitFence id) = { f with
      present := presentReExecute (f.env env driver) f.present id
      pTriglist := f.pTriglist.filter fun t => !t.ofVblank id } := by
    rw [Fence.triggerFired]
    simp only [if_neg hgone]
  obtain ⟨pre,post,hl,hpre,hwaiting⟩ := f.find_waitFence hfind
  have hnd := h.ok.nodup
  have hout : .waitFence id ∉ f.pTriglist.filter fun t => !t.ofVblank id := fun hm => by
    simpa [Trigger.ofVblank] using (List.mem_filter.1 hm).2
  rw [hfired]
  refine ⟨⟨h.triggered,⟨hnd.filter _,fun j hj => ?_⟩,?_,h.distinct,fun t hf hm => ?_,
    nodup_fired h.once fun hf => h.fresh _ hf ht,fun j hj => ?_,hframe.flipWindow.trans h.flipWindow,hbusy hc⟩,?_⟩
  · have hne : j ≠ id := fun he => hout (he ▸ hj)
    exact (hframe.lives j hne).2 (h.ok.lives j (List.mem_filter.1 hj).1)
  · -- the vblanks behind it wait as before
    have hrest : f.present.waitingOn (f.pTriglist.filter fun t => !t.ofVblank id) = f.present.waitingOn post := by
      rw [hl] at hnd ⊢
      have hpost : .waitFence id ∉ post := (List.nodup_cons.1 hnd.of_append_right).1
      rw [List.filter_append,waitingOn_append,List.filter_cons_of_neg (by simp [Trigger.ofVblank]),
        waitingOn_none fun i hi => hpre i (List.mem_filter.1 hi).1,List.nil_append]
      refine waitingOn_filter fun i hi => ?_
      simpa [Trigger.ofVblank] using fun he : i = id => hpost (he ▸ hi)
    rw [h.waiting,hwaiting,Fence.waiting,waitingOn_congr hframe.callback,hrest,List.append_assoc]
    rfl
  · obtain hf | hf := List.mem_append.1 hf
    · exact h.fresh t hf (List.mem_filter.1 hm).1
    · exact hout (List.mem_singleton.1 hf ▸ hm)
  · rw [List.mem_append,List.mem_singleton,not_or] at hj
    obtain ⟨b,hb⟩ := h.vblanks j hj.1
    obtain ⟨b',hb'⟩ := hframe.others j hj.2
    exact ⟨b',by rw [hb',hb]⟩
  · exact List.length_filter_lt_length_iff_exists.2 ⟨_,ht,by simp [Trigger.ofVblank]⟩

lemma Walk.repeats (h : Walk f₀ done f) (hfind : f.pTriglist.find? f.checkTrigger = some (.waitFence id)) (hid : id ∉ done)
    (hc : ¬f₀.CompletesAfter env driver done id) : ∃ f'',
      Fence.round env driver { f.triggerFired env driver (.waitFence id) with fired := f.fired ++ [.waitFence id] } = some f'' ∧
        ¬f''.fired.Nodup := by
  obtain ⟨hframe,hlives,-⟩ := h.executed hid (List.mem_of_find?_eq_some hfind)
  have hfired : f.triggerFired env driver (.waitFence id) = { f with
      present := presentReExecute (f.env env driver) f.present id } := by
    rw [Fence.triggerFired]
    simp only [if_pos (hlives.2 hc)]
  have hcheck : ∀ l, Fence.checkTrigger ⟨f.triggered,f.pTriglist,presentReExecute (f.env env driver) f.present id,l⟩ =
      f.checkTrigger := fun l => by
    funext t
    cases t with
    | waitFence i => exact hframe.callback i
    | await a i => rfl
    | idleFence i => rfl
  rw [hfired]
  unfold Fence.round
  dsimp only
  rw [hcheck,hfind]
  refine ⟨_,rfl,fun hnd => ?_⟩
  dsimp only at hnd
  rw [List.append_assoc] at hnd
  simpa using hnd.of_append_right

lemma Walk.round (h : Walk f₀ done f) (hr : f.round env driver = some f') :
    (Walk f₀ done f' ∧ f'.pTriglist.length < f.pTriglist.length) ∨ ∃ id post, f₀.waiting = done ++ id::post ∧
      ((f₀.CompletesAfter env driver done id ∧ Walk f₀ (done ++ [id]) f' ∧ f'.pTriglist.length < f.pTriglist.length) ∨
        ¬f₀.CompletesAfter env driver done id ∧ ∃ f'', f'.round env driver = some f'' ∧ ¬f''.fired.Nodup) := by
  obtain ⟨t,hfind,rfl⟩ := Fence.round_eq_some hr
  have ht := List.mem_of_find?_eq_some hfind
  cases t with
  | await a i =>
    refine .inl ⟨h.await ht,?_⟩
    exact List.length_filter_lt_length_iff_exists.2 ⟨_,ht,by simp [Trigger.ofAwait]⟩
  | idleFence id => cases List.find?_some hfind
  | waitFence id =>
    obtain ⟨pre,post,-,-,hwaiting⟩ := f.find_waitFence hfind
    have hall : f₀.waiting = done ++ id::f.present.waitingOn post := by rw [h.waiting,hwaiting]
    have hid : id ∉ done := fun hm => by
      have hnd := h.distinct
      rw [hall] at hnd
      exact (List.disjoint_of_nodup_append hnd) hm List.mem_cons_self
    refine .inr ⟨id,_,hall,?_⟩
    by_cases hc : f₀.CompletesAfter env driver done id
    · exact .inl ⟨hc,h.completes hfind hid hc⟩
    · exact .inr ⟨hc,h.repeats hfind hid hc⟩

end Round

section Run

variable {pre post : List ℕ}

lemma Walk.run (h₀ : f₀.Ok) (hc : ∀ pre id post, f₀.waiting = pre ++ id::post → f₀.CompletesAfter env driver pre id)
    (hr : (miSyncTriggerFence f₀).Rounds env driver f) : ∃ done, Walk (miSyncTriggerFence f₀) done f := by
  induction hr with
  | refl => exact ⟨[],.start h₀⟩
  | tail _ hn ih =>
    obtain ⟨done,ih⟩ := ih
    obtain ⟨hw,-⟩ | ⟨id,post,hall,⟨-,hw,-⟩ | ⟨hnot,-⟩⟩ := ih.round hn
    · exact ⟨done,hw⟩
    · exact ⟨_,hw⟩
    · exact absurd (hc done id post hall) hnot

/-- Then the list gets shorter in each round. -/
theorem Walk.ends (hc : ∀ pre id post, f₀.waiting = pre ++ id::post → f₀.CompletesAfter env driver pre id) {done : List ℕ}
    {f : Fence} (h : Walk f₀ done f) : ∃ f', f.Rounds env driver f' ∧ f'.round env driver = none := by
  cases hn : f.round env driver with
  | none => exact ⟨f,.refl,hn⟩
  | some f' =>
    have hnext : ∃ done', Walk f₀ done' f' ∧ f'.pTriglist.length < f.pTriglist.length := by
      obtain ⟨hw,hlt⟩ | ⟨id,post,hall,⟨-,hw,hlt⟩ | ⟨hnot,-⟩⟩ := h.round hn
      · exact ⟨done,hw,hlt⟩
      · exact ⟨_,hw,hlt⟩
      · exact absurd (hc done id post hall) hnot
    obtain ⟨done',hw,hlt⟩ := hnext
    obtain ⟨f'',hr,hend⟩ := Walk.ends hc hw
    exact ⟨f'',.head hn hr,hend⟩
termination_by f.pTriglist.length

lemma Walk.completed (h₀ : f₀.Ok) (honce : ∀ f', (miSyncTriggerFence f₀).Rounds env driver f' → f'.fired.Nodup)
    (hr : (miSyncTriggerFence f₀).Rounds env driver f) : ∃ done, Walk (miSyncTriggerFence f₀) done f ∧
      ∀ pre id post, done = pre ++ id::post → f₀.CompletesAfter env driver pre id := by
  induction hr with
  | refl => exact ⟨[],.start h₀,fun pre id post hl => absurd hl (by simp)⟩
  | @tail f f' hr hn ih =>
    obtain ⟨done,ih,hdone⟩ := ih
    obtain ⟨hw,-⟩ | ⟨id,post,-,⟨hc,hw,-⟩ | ⟨-,f'',hn',hdup⟩⟩ := ih.round hn
    · exact ⟨done,hw,hdone⟩
    · refine ⟨_,hw,fun pre id' post' hl => ?_⟩
      obtain rfl | ⟨m,last,rfl⟩ := List.eq_nil_or_concat post'
      · obtain ⟨rfl,hid⟩ := List.append_inj' hl rfl
        cases hid
        exact hc
      · rw [List.concat_eq_append,← List.cons_append,← List.append_assoc] at hl
        exact hdone pre id' m (List.append_inj' hl rfl).1
    · exact absurd (honce f'' ((hr.tail hn).tail hn')) hdup

/-- `miSyncTriggerFence` returns with no trigger fired twice exactly when each vblank that waits completes. -/
theorem fence_fires_once_iff (env : Env) (driver : Driver) (h : f.Ok) : (miSyncTriggerFence f).FiresOnce env driver ↔
    ∀ pre id post, f.waiting = pre ++ id::post → f.CompletesAfter env driver pre id := by
  constructor
  · rintro ⟨⟨f',hr,hend⟩,honce⟩
    obtain ⟨done,hw,hdone⟩ := Walk.completed h honce hr
    have hnone := Fence.waiting_of_round hend
    have hall : f.waiting = done := by
      have hall := hw.waiting
      rw [hnone,List.append_nil] at hall
      exact hall
    rw [hall]
    exact hdone
  · intro hc
    refine ⟨Walk.ends ?_ (Walk.start h),fun f' hr => ?_⟩
    · exact hc
    · obtain ⟨done,hw⟩ := Walk.run h hc hr
      exact hw.once

/-- The first trigger that is true is that of a vblank which cannot flip, and does not wait for its MSC. -/
structure Behind (env : Env) (driver : Driver) (id : ℕ) (f : Fence) : Prop where
  triggered : f.triggered = true
  find : f.pTriglist.find? f.checkTrigger = some (.waitFence id)
  flips : (f.present.vblank id).flip = true ∧ (f.present.vblank id).pixmap.isSome = true
  busy : f.present.Busy
  wait : ∀ n, ¬((f.present.vblank id).execMsc = currentMsc env f.present id+1 ∧ (driver id n).queueWait = true)

lemma Behind.round (h : Behind env driver id f) : ∃ f', f.round env driver = some f' ∧ Behind env driver id f' := by
  have hf : ((f.env env driver).answers id).fenceTriggered = true := h.triggered
  have hre : presentReExecute (f.env env driver) f.present id = waitForFlip f.present id := by
    have hwait : waitsForMsc ((f.env env driver).answers id) (f.present.vblank id)
        (currentMsc (f.env env driver) f.present id) ≠ true := fun hw => by
      obtain ⟨hm,hq⟩ := Bool.and_eq_true_iff.1 hw
      exact h.wait _ ⟨of_decide_eq_true hm,hq⟩
    rw [presentReExecute,presentExecute_triggered hf,if_neg hwait,presentNow]
    exact if_pos ⟨h.flips.1,h.flips.2,h.busy⟩
  have hlives : (waitForFlip f.present id).Lives id := .inr (List.mem_append_right _ (List.mem_singleton_self id))
  have hfired : f.triggerFired env driver (.waitFence id) = { f with present := waitForFlip f.present id } := by
    rw [Fence.triggerFired,hre]
    simp only [if_pos hlives]
  have hself : (waitForFlip f.present id).vblank id = { f.present.vblank id with flipReady := true } := if_pos rfl
  have hcheck : ∀ l, Fence.checkTrigger ⟨f.triggered,f.pTriglist,waitForFlip f.present id,l⟩ = f.checkTrigger := fun l => by
    funext t
    cases t with
    | waitFence i => exact (Frame.waitForFlip f.present id).callback i
    | await a i => rfl
    | idleFence i => rfl
  refine ⟨{ f with present := waitForFlip f.present id, fired := f.fired ++ [.waitFence id] },?_,h.triggered,?_,?_,h.busy,?_⟩
  · rw [Fence.round,h.find]
    dsimp only
    rw [hfired]
  · dsimp only
    rw [hcheck,h.find]
  · dsimp only
    rw [hself]
    exact h.flips
  · intro n
    have hmsc : currentMsc env (waitForFlip f.present id) id = currentMsc env f.present id := by
      unfold currentMsc
      rw [hself]
    dsimp only
    rw [hself,hmsc]
    exact h.wait n

lemma Behind.never_ends (h : Behind env driver id f) (hr : f.Rounds env driver f') : f'.round env driver ≠ none := by
  have hb : Behind env driver id f' := by
    induction hr with
    | refl => exact h
    | tail _ hn ih =>
      obtain ⟨f₂,hn',hb⟩ := ih.round
      rw [hn] at hn'
      exact Option.some.inj hn' ▸ hb
  obtain ⟨f₂,hn,-⟩ := hb.round
  rw [hn]
  exact Option.some_ne_none _

def answerFlip (flip : Bool) : Driver := fun _ _ => ⟨false,true,flip,false,false,false⟩

def waitingFence (flip : Bool) : Fence where
  triggered := false
  pTriglist := [.idleFence 1,.waitFence 1,.await 0 0]
  present := { State.init fun _ => ⟨7,some 1,some 1,0,0,true,true,true,flip,false,false,false,.unknown⟩ with execQueue := [1] }
  fired := []

lemma waitingFence_ok (flip : Bool) : (waitingFence flip).Ok := by
  refine ⟨?_,fun id hid => ?_⟩
  · change [Trigger.idleFence 1,.waitFence 1,.await 0 0].Nodup
    decide
  · have hid' : Trigger.waitFence id ∈ [Trigger.idleFence 1,.waitFence 1,.await 0 0] := hid
    simp only [List.mem_cons,reduceCtorEq,Trigger.waitFence.injEq,List.not_mem_nil,or_false,false_or] at hid'
    exact .inl (hid' ▸ List.mem_singleton_self 1)

/-- A copy does not have to wait. -/
theorem fence_fires_once_iff_copy :
    (miSyncTriggerFence (waitingFence false)).FiresOnce (screenAt 0 true true) (answerFlip true) := by
  refine (fence_fires_once_iff _ _ (waitingFence_ok false)).2 fun pre id post hl => ?_
  have hwaiting : (waitingFence false).waiting = [1] := by decide
  rw [hwaiting] at hl
  cases pre with
  | nil =>
    obtain ⟨rfl,-⟩ := List.cons.inj hl
    exact ⟨by decide,fun h => absurd h.1 (by decide),by decide,by decide,by decide⟩
  | cons i pre => simp at hl

/-- A flip that has waited for the fence starts, and is then behind itself. -/
theorem flip_waits_forever : (waitingFence true).Ok ∧ ∀ f', (miSyncTriggerFence (waitingFence true)).Rounds (screenAt 0 true true)
    (answerFlip true) f' → f'.round (screenAt 0 true true) (answerFlip true) ≠ none := by
  refine ⟨waitingFence_ok true,fun f' hr => ?_⟩
  have hfirst : (miSyncTriggerFence (waitingFence true)).round (screenAt 0 true true) (answerFlip true) = some _ := rfl
  obtain rfl | ⟨f₁,hn,hr⟩ := Relation.ReflTransGen.cases_head hr
  · rw [hfirst]
    exact Option.some_ne_none _
  · rw [hfirst] at hn
    have hb : Behind (screenAt 0 true true) (answerFlip true) 1 f₁ := by
      rw [← Option.some.inj hn]
      exact ⟨rfl,by rfl,⟨by rfl,by rfl⟩,.inl (by rfl),fun n h => absurd h.2 Bool.false_ne_true⟩
    exact hb.never_ends hr

end Run

end Walk

end Xlibre.Present
