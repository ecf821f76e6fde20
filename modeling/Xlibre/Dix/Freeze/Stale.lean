import Xlibre.Dix.Freeze.State

/-! The grab that freezes a device is the active grab of another one. -/
namespace Xlibre.Dix.Freeze

variable {D : Type*} {V : Devices D} {s : State D} {dev : D}

/-- A device is frozen by a grab only while a master device that is paired with it has that grab. -/
def OtherHeld (V : Devices D) (infos : D → GrabInfo) : Prop :=
  ∀ d g, (infos d).other = some g → ∃ m, V.isMaster m = true ∧ V.paired m = d ∧ (infos m).grab = some g

/-- No reference is new and no grab is given up. -/
structure Shrinks (infos infos' : D → GrabInfo) : Prop where
  grab : ∀ d, (infos' d).grab = (infos d).grab
  other : ∀ d g, (infos' d).other = some g → (infos d).other = some g

lemma OtherHeld.shrink {infos infos' : D → GrabInfo} (h : OtherHeld V infos) (hs : Shrinks infos infos') :
    OtherHeld V infos' := by
  intro d g hg
  obtain ⟨m,hm,hp,hgrab⟩ := h d g (hs.other d g hg)
  exact ⟨m,hm,hp,(hs.grab m).trans hgrab⟩

lemma shrinks_freezeAll (s : State D) : Shrinks s.deviceGrab (freezeAll s).deviceGrab :=
  ⟨fun _ => rfl,fun _ _ h => h⟩

lemma computeFreezes_deviceGrab (s : State D) : (computeFreezes s).deviceGrab = (freezeAll s).deviceGrab := by
  unfold computeFreezes
  dsimp only
  split_ifs <;> rfl

lemma OtherHeld.computeFreezes (h : OtherHeld V s.deviceGrab) : OtherHeld V (computeFreezes s).deviceGrab := by
  rw [computeFreezes_deviceGrab]
  exact h.shrink (shrinks_freezeAll s)

variable [DecidableEq D]

lemma shrinks_update {infos : D → GrabInfo} {info : GrabInfo} (hg : info.grab = (infos dev).grab)
    (ho : ∀ g, info.other = some g → (infos dev).other = some g) :
    Shrinks infos (Function.update infos dev info) := by
  constructor
  · intro d
    by_cases hd : d = dev
    · subst hd
      rw [Function.update_self,hg]
    · rw [Function.update_of_ne hd]
  · intro d g h
    by_cases hd : d = dev
    · subst hd
      rw [Function.update_self] at h
      exact ho g h
    · rwa [Function.update_of_ne hd] at h

lemma OtherHeld.freezeThaw (h : OtherHeld V s.deviceGrab) (frozen : Bool) :
    OtherHeld V (freezeThaw s dev frozen).deviceGrab :=
  h.shrink (shrinks_update rfl fun _ h => h)

lemma OtherHeld.setState (h : OtherHeld V s.deviceGrab) (state : GrabState) :
    OtherHeld V (setState s dev state).deviceGrab :=
  h.shrink (shrinks_update rfl fun _ h => h)

lemma OtherHeld.setSync (h : OtherHeld V s.deviceGrab) (state : GrabState) (thisSynced : Bool) :
    OtherHeld V (setSync s dev state thisSynced).deviceGrab := by
  refine h.shrink (shrinks_update rfl ?_)
  intro g hg
  cases thisSynced
  · exact hg
  · cases hg

omit [DecidableEq D] in
lemma OtherHeld.releaseClient (h : OtherHeld V s.deviceGrab) (client : ℕ) (state : GrabState) (skip : D → Bool) :
    OtherHeld V (releaseClient s client state skip).deviceGrab := by
  apply h.shrink
  constructor
  · intro d
    simp only [Freeze.releaseClient]
    split_ifs <;> rfl
  · intro d g hg
    simp only [Freeze.releaseClient] at hg
    split_ifs at hg with hskip hclient
    all_goals exact hg

lemma OtherHeld.deactivateGrab (h : OtherHeld V s.deviceGrab) : OtherHeld V (deactivateGrab s dev).deviceGrab := by
  apply OtherHeld.computeFreezes
  intro d g hg
  have hsame : ¬samePtr (s.deviceGrab d).other (s.deviceGrab dev).grab = true ∧ (s.deviceGrab d).other = some g := by
    by_cases hd : d = dev
    · subst hd
      simpa using hg
    · simpa [Function.update_of_ne hd] using hg
  obtain ⟨m,hm,hp,hgrab⟩ := h d g hsame.2
  have hne : m ≠ dev := by
    rintro rfl
    exact hsame.1 (by simp [hsame.2,hgrab,samePtr])
  exact ⟨m,hm,hp,by simpa [Function.update_of_ne hne] using hgrab⟩

lemma syncThis_grab (grab : Option Grab) (mode : GrabMode) (info : GrabInfo) :
    (syncThis grab mode info).grab = info.grab := by cases mode <;> rfl

lemma syncPaired_grab (grab : Option Grab) (mode : GrabMode) (info : GrabInfo) :
    (syncPaired grab mode info).grab = info.grab := by cases mode <;> rfl

lemma syncThis_other {grab : Option Grab} {mode : GrabMode} {info : GrabInfo} {g : Grab}
    (h : (syncThis grab mode info).other = some g) : info.other = some g := by
  cases mode with
  | sync => exact h
  | async =>
    simp only [syncThis] at h
    split_ifs at h
    exact h

lemma syncPaired_other {grab : Grab} {mode : GrabMode} {info : GrabInfo} {g : Grab}
    (h : (syncPaired (some grab) mode info).other = some g) :
    g = grab ∨ info.other = some g ∧ g.client ≠ grab.client := by
  cases mode with
  | sync => exact Or.inl (Option.some.inj h).symm
  | async =>
    simp only [syncPaired] at h
    split_ifs at h with hc
    exact Or.inr ⟨h,by simpa [ownedBySame,h] using hc⟩

lemma OtherHeld.checkGrabForSyncs (h : OtherHeld V s.deviceGrab) {grab : Grab} {time : TimeStamp}
    {passive implicit : Bool} (hsame : ∀ old, (s.deviceGrab dev).grab = some old → old.client = grab.client)
    (thisMode otherMode : GrabMode) :
    OtherHeld V
      (checkGrabForSyncs V (setGrab s dev grab time passive implicit) dev thisMode otherMode).deviceGrab := by
  unfold Freeze.checkGrabForSyncs
  dsimp only
  apply OtherHeld.computeFreezes
  have hnew : ((setGrab s dev grab time passive implicit).deviceGrab dev).grab = some grab := by simp [setGrab]
  rw [hnew]
  generalize hinfos : Function.update (setGrab s dev grab time passive implicit).deviceGrab dev _ = infos
  -- the grabs and the references while only the device itself has been changed
  have hself : (infos dev).grab = some grab := by
    rw [← hinfos,Function.update_self,syncThis_grab,hnew]
  have hgrab (m : D) (hm : m ≠ dev) : (infos m).grab = (s.deviceGrab m).grab := by
    rw [← hinfos,Function.update_of_ne hm]
    simp [setGrab,hm]
  have hother (d : D) (g : Grab) (hg : (infos d).other = some g) : (s.deviceGrab d).other = some g := by
    by_cases hd : d = dev
    · subst hd
      rw [← hinfos,Function.update_self] at hg
      simpa [setGrab] using syncThis_other hg
    · rw [← hinfos,Function.update_of_ne hd] at hg
      simpa [setGrab,hd] using hg
  have hkeep (d : D) (g : Grab) (hg : (infos d).other = some g)
      (hd : V.isMaster dev = true → V.paired dev = d → g.client ≠ grab.client) :
      ∃ m, V.isMaster m = true ∧ V.paired m = d ∧ (infos m).grab = some g := by
    obtain ⟨m,hm,hp,hmg⟩ := h d g (hother d g hg)
    have hne : m ≠ dev := by
      rintro rfl
      exact hd hm hp (hsame g hmg)
    exact ⟨m,hm,hp,(hgrab m hne).trans hmg⟩
  clear hnew
  cases hmaster : V.isMaster dev with
  | false =>
    simp only [Bool.false_eq_true,if_false]
    exact fun d g hg => hkeep d g hg fun hm => by simp [hmaster] at hm
  | true =>
    simp only [if_true]
    have hne : V.paired dev ≠ dev := V.paired_ne dev hmaster
    have hgrabs (m : D) : (Function.update infos (V.paired dev)
        (syncPaired (some grab) otherMode (infos (V.paired dev))) m).grab = (infos m).grab := by
      by_cases hm : m = V.paired dev
      · subst hm
        rw [Function.update_self,syncPaired_grab]
      · rw [Function.update_of_ne hm]
    intro d g hg
    simp only [hgrabs]
    by_cases hd : d = V.paired dev
    · subst hd
      rw [Function.update_self] at hg
      obtain rfl | ⟨hg,hc⟩ := syncPaired_other hg
      · exact ⟨dev,hmaster,rfl,hself⟩
      · exact hkeep _ g hg fun _ _ => hc
    · rw [Function.update_of_ne hd] at hg
      exact hkeep d g hg fun _ hp => absurd hp.symm hd

lemma OtherHeld.allowMode (h : OtherHeld V s.deviceGrab) (client : ℕ) (thisGrabbed : Bool) (o : Others)
    (newState : GrabState) : OtherHeld V (allowMode s client dev thisGrabbed o newState).deviceGrab := by
  cases newState with
  | thawed => exact (h.setSync _ _).computeFreezes
  | freezeNextEvent =>
    simp only [Freeze.allowMode]
    split_ifs
    · exact (h.setSync _ _).computeFreezes
    · exact h
  | notGrabbed =>
    simp only [Freeze.allowMode]
    split_ifs
    · have hs : OtherHeld V (Freeze.setSync s dev (s.deviceGrab dev).state o.thisSynced).deviceGrab := h.setSync _ _
      exact OtherHeld.deactivateGrab (s := { Freeze.setSync s dev (s.deviceGrab dev).state o.thisSynced with
        replayDev := some dev
        replayWin := ((Freeze.setSync s dev (s.deviceGrab dev).state o.thisSynced).deviceGrab dev).grab.map Grab.window })
        hs
    · exact h
  | thawedBoth | freezeBothNextEvent | thawOthers =>
    simp only [Freeze.allowMode]
    split_ifs
    · exact (h.releaseClient _ _ _).computeFreezes
    · exact h
  | frozenNoEvent | frozenWithEvent => exact h

lemma OtherHeld.allowSome (h : OtherHeld V s.deviceGrab) (client : ℕ) (time currentTime : TimeStamp)
    (newState : GrabState) : OtherHeld V (allowSome V s client time currentTime dev newState).deviceGrab := by
  unfold Freeze.allowSome
  dsimp only
  split_ifs
  · exact h
  · exact h
  · exact h.allowMode _ _ _ _

omit [DecidableEq D] in
lemma appendEvent_deviceGrab (s : State D) (a : Arrival D) (months : ℕ) (memory : Bool) :
    (appendEvent s a months memory).deviceGrab = s.deviceGrab := by cases memory <;> rfl

lemma enqueueEvent_deviceGrab (s : State D) (a : Arrival D) (months : ℕ) (memory : Bool) :
    (enqueueEvent s a months memory).deviceGrab = s.deviceGrab := by
  unfold enqueueEvent
  split
  · split_ifs
    · rfl
    · exact appendEvent_deviceGrab s a months memory
  · exact appendEvent_deviceGrab s a months memory

omit [DecidableEq D] in
lemma afterReplay_deviceGrab (s : State D) : (afterReplay V s).deviceGrab = s.deviceGrab := by
  unfold afterReplay
  split_ifs <;> rfl

omit [DecidableEq D] in
lemma playReleasedEvents_deviceGrab (s : State D) : (playReleasedEvents s).deviceGrab = s.deviceGrab := by
  unfold playReleasedEvents
  split <;> rfl

omit [DecidableEq D] in
lemma afterEvent_deviceGrab (s : State D) : (afterEvent V s).deviceGrab = s.deviceGrab := by
  unfold afterEvent
  split_ifs <;> rfl

lemma OtherHeld.apply (h : OtherHeld V s.deviceGrab) (op : Op D) (hop : SameClientRegrab s op) :
    OtherHeld V (apply V s op).deviceGrab := by
  cases op with
  | activatePointerGrab mouse grab time autoGrab => exact h.checkGrabForSyncs hop _ _
  | activateKeyboardGrab keybd grab time passive => exact h.checkGrabForSyncs hop _ _
  | deactivateGrab dev => exact h.deactivateGrab
  | allowSome client time currentTime thisDev newState => exact h.allowSome _ _ _ _
  | computeFreezes => exact h.computeFreezes
  | freezeThaw dev frozen => exact h.freezeThaw frozen
  | syncState dev state => exact h.setState state
  | enqueueEvent a months memory => exact (enqueueEvent_deviceGrab s a months memory).symm ▸ h
  | afterReplay => exact (afterReplay_deviceGrab (V := V) s).symm ▸ h
  | playReleasedEvents => exact (playReleasedEvents_deviceGrab s).symm ▸ h
  | afterEvent => exact (afterEvent_deviceGrab (V := V) s).symm ▸ h

lemma otherHeld_of_reach (h : Reach V SameClientRegrab s) : OtherHeld V s.deviceGrab := by
  induction h with
  | initial =>
    intro d g hg
    cases hg
  | step op _ _ ok ih => exact ih.apply op ok

/-- A pointer and a keyboard, both master devices. -/
def corePair : Devices Bool := ⟨[false,true],by decide,fun _ => true,not,by decide⟩

def freezingGrab : Grab := ⟨1,1,0,.async,.sync⟩

section Spared

def FrozenBy (infos : D → GrabInfo) (owner : ℕ) (d : D) : Prop :=
  (infos d).frozen = true ∧ (sameClient (infos d).grab owner = true ∧ (infos d).state.frozen = true ∨
    sameClient (infos d).other owner = true)

/-- A pointer to a grab is that of the device that has it. -/
def Identified (infos : D → GrabInfo) : Prop :=
  ∀ d d' g g', (infos d).other = some g → (infos d').grab = some g' → g.addr = g'.addr → g = g'

/-- Nothing of the client's grabs changes, and no device gets another grab. -/
structure Spares (owner : ℕ) (infos infos' : D → GrabInfo) : Prop where
  own : ∀ d, sameClient (infos d).grab owner = true → (infos' d).grab = (infos d).grab ∧ (infos' d).state = (infos d).state
  other : ∀ d, sameClient (infos d).other owner = true → (infos' d).other = (infos d).other
  grabs : ∀ d g, (infos' d).grab = some g → (infos d).grab = some g
  others : ∀ d g, (infos' d).other = some g → (infos d).other = some g

variable {owner client : ℕ} {infos infos' infos'' : D → GrabInfo} {s' : State D}

omit [DecidableEq D] in
lemma spares_refl : Spares owner infos infos := ⟨fun _ _ => ⟨rfl,rfl⟩,fun _ _ => rfl,fun _ _ h => h,fun _ _ h => h⟩

omit [DecidableEq D] in
lemma Spares.trans (h : Spares owner infos infos') (h' : Spares owner infos' infos'') : Spares owner infos infos'' := by
  refine ⟨fun d hd => ?_,fun d hd => ?_,fun d g hg => h.grabs d g (h'.grabs d g hg),
    fun d g hg => h.others d g (h'.others d g hg)⟩
  · obtain ⟨hgrab,hstate⟩ := h.own d hd
    obtain ⟨hgrab',hstate'⟩ := h'.own d (hgrab ▸ hd)
    exact ⟨hgrab'.trans hgrab,hstate'.trans hstate⟩
  · have hother := h.other d hd
    exact (h'.other d (hother ▸ hd)).trans hother

omit [DecidableEq D] in
lemma Spares.frozenBy (h : Spares owner infos s'.deviceGrab) {d : D} (hd : FrozenBy infos owner d) :
    FrozenBy (computeFreezes s').deviceGrab owner d := by
  rw [computeFreezes_deviceGrab]
  obtain ⟨hgrab,hstate⟩ | hother := hd.2
  · obtain ⟨hgrab',hstate'⟩ := h.own d hgrab
    refine ⟨?_,.inl ⟨?_,?_⟩⟩
    · change ((s'.deviceGrab d).other.isSome || (s'.deviceGrab d).state.frozen) = true
      rw [hstate',hstate,Bool.or_true]
    · exact hgrab' ▸ hgrab
    · exact hstate' ▸ hstate
  · have hother' := h.other d hother
    refine ⟨?_,.inr (hother' ▸ hother)⟩
    change ((s'.deviceGrab d).other.isSome || (s'.deviceGrab d).state.frozen) = true
    rw [hother']
    cases ho : (infos d).other with
    | none => simp [ho,sameClient] at hother
    | some g => rfl

/-- The devices are as they were, or are frozen and thawed anew after the client has been spared. -/
def Released (owner : ℕ) (s s' : State D) : Prop := s'.deviceGrab = s.deviceGrab ∨
  ∃ s₁ : State D, Spares owner s.deviceGrab s₁.deviceGrab ∧ s'.deviceGrab = (computeFreezes s₁).deviceGrab

lemma not_sameClient (hne : client ≠ owner) {grab : Option Grab} (h : sameClient grab client = true) :
    ¬sameClient grab owner = true := by
  cases grab with
  | none => simp [sameClient]
  | some g =>
    simp only [sameClient,Option.any_some,beq_iff_eq] at h ⊢
    exact fun he => hne (h.symm.trans he)

omit [DecidableEq D] in
/-- The pointer of one device leads to another one's grab. -/
lemma Identified.sameClient (hone : Identified infos) {d d' : D} (hptr : samePtr (infos d).other (infos d').grab = true)
    (h : sameClient (infos d).other client = true ∨ sameClient (infos d').grab client = true) :
    sameClient (infos d).other client = true ∧ sameClient (infos d').grab client = true := by
  cases ho : (infos d).other with
  | none => cases hg : (infos d').grab <;> simp_all [samePtr,Freeze.sameClient]
  | some g =>
    cases hg : (infos d').grab with
    | none => simp [ho,hg,samePtr] at hptr
    | some g' =>
      obtain rfl := hone d d' g g' ho hg (by simpa [ho,hg,samePtr] using hptr)
      simpa [ho,hg] using h

lemma spares_setSync (hne : client ≠ owner) {state : GrabState} {thisSynced : Bool}
    (hstate : sameClient (s.deviceGrab dev).grab client = true ∨ state = (s.deviceGrab dev).state)
    (hsynced : thisSynced = true → sameClient (s.deviceGrab dev).other client = true) :
    Spares owner s.deviceGrab (setSync s dev state thisSynced).deviceGrab := by
  have hshrinks : Shrinks s.deviceGrab (setSync s dev state thisSynced).deviceGrab := by
    refine shrinks_update rfl fun g hg => ?_
    cases thisSynced
    · exact hg
    · cases hg
  refine ⟨fun d hd => ⟨hshrinks.grab d,?_⟩,fun d hd => ?_,fun d g hg => (hshrinks.grab d).symm.trans hg,hshrinks.other⟩
  all_goals by_cases he : d = dev
  all_goals simp only [setSync,he,Function.update_self,Function.update_of_ne,ne_eq,not_false_eq_true]
  · subst he
    exact hstate.resolve_left fun hc => not_sameClient hne hc hd
  · subst he
    exact if_neg fun hs => not_sameClient hne (hsynced hs) hd

omit [DecidableEq D] in
lemma spares_releaseClient (hne : client ≠ owner) (state : GrabState) (skip : D → Bool) :
    Spares owner s.deviceGrab (releaseClient s client state skip).deviceGrab := by
  refine ⟨fun d hd => ?_,fun d hd => ?_,fun d g hg => ?_,fun d g hg => ?_⟩
  all_goals simp only [releaseClient] at *
  · have hnot := fun hc => not_sameClient hne hc hd
    split_ifs <;> simp_all
  · have hnot := fun hc => not_sameClient hne hc hd
    split_ifs <;> simp_all
  · split_ifs at hg <;> exact hg
  · split_ifs at hg <;> exact hg

lemma released_deactivateGrab (hone : Identified s.deviceGrab) (hdev : ¬sameClient (s.deviceGrab dev).grab owner = true) :
    ∃ s₁ : State D, Spares owner s.deviceGrab s₁.deviceGrab ∧
      (deactivateGrab s dev).deviceGrab = (computeFreezes s₁).deviceGrab := by
  refine ⟨_,⟨fun d hd => ?_,fun d hd => ?_,fun d g hg => ?_,fun d g hg => ?_⟩,rfl⟩
  · have he : d ≠ dev := by
      rintro rfl
      exact hdev hd
    simp [Function.update_of_ne he]
  · have hnot : ¬samePtr (s.deviceGrab d).other (s.deviceGrab dev).grab = true :=
      fun hsame => hdev (hone.sameClient hsame (.inl hd)).2
    by_cases he : d = dev
    · subst he
      simp [hnot]
    · simp [Function.update_of_ne he,hnot]
  · by_cases he : d = dev
    · simp [he] at hg
    · simpa [Function.update_of_ne he] using hg
  · by_cases he : d = dev
    · subst he
      simp only [Function.update_self] at hg
      split_ifs at hg
      exact hg
    · simp only [Function.update_of_ne he] at hg
      split_ifs at hg
      exact hg

lemma thisSynced_of_scan (l : List D) (thisGrabbed : Bool) (o : Others)
    (ho : o.thisSynced = true → ∃ d, sameClient (s.deviceGrab d).grab client = true ∧
      samePtr (s.deviceGrab dev).other (s.deviceGrab d).grab = true)
    (h : (l.foldl (scanOthers s client dev thisGrabbed) o).thisSynced = true) :
    ∃ d, sameClient (s.deviceGrab d).grab client = true ∧
      samePtr (s.deviceGrab dev).other (s.deviceGrab d).grab = true := by
  induction l generalizing o with
  | nil => exact ho h
  | cons d l ih =>
    refine ih _ (fun hd => ?_) h
    unfold scanOthers at hd
    by_cases he : d = dev
    · exact ho (by simpa [he] using hd)
    · by_cases hclient : sameClient (s.deviceGrab d).grab client = true
      · simp only [he,hclient,if_true,if_false,Bool.or_eq_true] at hd
        exact hd.elim ho fun hptr => ⟨d,hclient,hptr⟩
      · exact ho (by simpa [he,hclient] using hd)

lemma released_allowSome (hone : Identified s.deviceGrab) (hne : client ≠ owner) (time currentTime : TimeStamp)
    (newState : GrabState) : Released owner s (allowSome V s client time currentTime dev newState) := by
  unfold allowSome
  dsimp only
  split_ifs
  · exact .inl rfl
  · exact .inl rfl
  generalize hscan : List.foldl _ _ _ = o
  have hsynced (h : o.thisSynced = true) : sameClient (s.deviceGrab dev).other client = true := by
    obtain ⟨d,hclient,hptr⟩ := thisSynced_of_scan V.list _ _ (by simp) (hscan ▸ h)
    exact (hone.sameClient hptr (.inr hclient)).1
  cases newState with
  | thawed =>
    refine .inr ⟨_,spares_setSync hne ?_ hsynced,rfl⟩
    split_ifs with hgrabbed
    · exact .inl hgrabbed
    · exact .inr rfl
  | freezeNextEvent =>
    simp only [allowMode]
    split_ifs with hgrabbed
    · exact .inr ⟨_,spares_setSync hne (.inl hgrabbed) hsynced,rfl⟩
    · exact .inl rfl
  | notGrabbed =>
    simp only [allowMode]
    split_ifs with hgrabbed
    · have hset := spares_setSync hne (.inr rfl) hsynced
      have hgrab : ((setSync s dev (s.deviceGrab dev).state o.thisSynced).deviceGrab dev).grab = (s.deviceGrab dev).grab := by
        simp [setSync]
      have hnot := not_sameClient hne (Bool.and_eq_true_iff.1 hgrabbed).1
      rw [← hgrab] at hnot
      have hone' : Identified (setSync s dev (s.deviceGrab dev).state o.thisSynced).deviceGrab :=
        fun d d' g g' ho hg => hone d d' g g' (hset.others d g ho) (hset.grabs d' g' hg)
      obtain ⟨s₁,hs₁,heq⟩ := released_deactivateGrab (s := { setSync s dev (s.deviceGrab dev).state o.thisSynced with
        replayDev := some dev
        replayWin := ((setSync s dev (s.deviceGrab dev).state o.thisSynced).deviceGrab dev).grab.map Grab.window })
        hone' hnot
      exact .inr ⟨s₁,hset.trans hs₁,heq⟩
    · exact .inl rfl
  | thawedBoth | freezeBothNextEvent | thawOthers =>
    simp only [allowMode]
    split_ifs
    · exact .inr ⟨_,spares_releaseClient hne _ _,rfl⟩
    · exact .inl rfl
  | frozenNoEvent | frozenWithEvent => exact .inl rfl

/-- Neither the client's requests nor the ends of its grabs, and no new grabs. -/
def Leaves (owner : ℕ) (s : State D) : Op D → Prop
  | .allowSome client _ _ _ _ => client ≠ owner
  | .deactivateGrab dev => ¬sameClient (s.deviceGrab dev).grab owner = true
  | .computeFreezes | .enqueueEvent .. | .afterReplay | .playReleasedEvents | .afterEvent => True
  | _ => False

lemma released_apply (hone : Identified s.deviceGrab) (op : Op D) (hop : Leaves owner s op) :
    Released owner s (apply V s op) := by
  cases op with
  | allowSome client time currentTime thisDev newState => exact released_allowSome hone hop ..
  | deactivateGrab dev => exact .inr (released_deactivateGrab hone hop)
  | computeFreezes => exact .inr ⟨s,spares_refl,rfl⟩
  | enqueueEvent a months memory => exact .inl (enqueueEvent_deviceGrab ..)
  | afterReplay => exact .inl (afterReplay_deviceGrab _)
  | playReleasedEvents => exact .inl (playReleasedEvents_deviceGrab _)
  | afterEvent => exact .inl (afterEvent_deviceGrab _)
  | activatePointerGrab | activateKeyboardGrab | freezeThaw | syncState => exact hop.elim

/-- What can happen while a client does nothing with its grabs. -/
inductive Meanwhile (V : Devices D) (owner : ℕ) (s : State D) : State D → Prop
  | start : Meanwhile V owner s s
  | step {s' : State D} (op : Op D) (h : Meanwhile V owner s s') (hop : Leaves owner s' op) :
    Meanwhile V owner s (apply V s' op)

end Spared

end Xlibre.Dix.Freeze
