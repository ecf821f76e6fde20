import Xlibre.Sync.BracketAlarms

/-! What a failing `ChangeAlarm` leaves behind. -/
namespace Xlibre.Sync

section Purpose

/-- The alarm, its trigger and all trigger lists are as before. -/
structure Unaltered (id : XID) (w w' : World) : Prop where
  alarm : w'.alarms id = w.alarms id
  trigger : w'.trig (.alarm id) = w.trig (.alarm id)
  triglist : ∀ x, w'.triglist x = w.triglist x

end Purpose

section Conditions

def Selected (al : SyncAlarm) (client : ℕ) (alloc : Bool) : Option Bool → Prop
  | none => True
  | some wantevents =>
    if client = al.client then al.events = wantevents
    else if wantevents = true then client ∈ al.pEventClients ∨ alloc = false
    else client ∉ al.pEventClients

def NoMemory (al : SyncAlarm) (client : ℕ) (alloc : Bool) (want : Option Bool) : Prop :=
  want = some true ∧ client ≠ al.client ∧ client ∉ al.pEventClients ∧ alloc = false

/-- The sign of `delta` does not fit the test-type, and the request names one of the two. -/
def Mismatched (mask : ℕ) (a : Attributes) : Prop :=
  (mask.testBit caDelta ∨ mask.testBit caTestType) ∧ signMismatch a.trigger.testType a.delta

/-- All that is stored before `SyncInitTrigger` fails is there already. -/
structure Stored (w : World) (id : XID) (al : SyncAlarm) (mask : ℕ) (a : Attributes) (now : Int64) : Prop where
  delta : a.delta = al.delta
  trigger : a.trigger = w.trig (.alarm id)
  value : Found w mask a → ∀ v, storedValue w (namedObject (w.trig (.alarm id)).pSync mask a.counter) mask a now = some v →
    v = (w.trig (.alarm id)).testValue

end Conditions

section Selection

variable {al : SyncAlarm} {client : ℕ} {alloc : Bool} {want : Option Bool}

lemma selection_same : (changeSelection al client alloc want).2 = al ↔ Selected al client alloc want := by
  cases want with
  | none => exact iff_of_true rfl trivial
  | some wantevents =>
    obtain ⟨owner,delta,events,state,clients⟩ := al
    simp only [changeSelection,syncEventSelectForAlarm,Selected]
    by_cases howner : client = owner
    · rw [if_pos howner,if_pos howner,SyncAlarm.mk.injEq]
      simpa using eq_comm
    · rw [if_neg howner,if_neg howner]
      split_ifs <;> simp_all

lemma selection_fails : (changeSelection al client alloc want).1 ≠ .success ↔ NoMemory al client alloc want := by
  cases want with
  | none => exact iff_of_false (fun h => h rfl) fun h => nomatch h.1
  | some wantevents =>
    simp only [changeSelection,syncEventSelectForAlarm,NoMemory]
    split_ifs <;> simp_all

end Selection

section Failure

variable {w : World} {id : XID} {al : SyncAlarm} {client mask : ℕ} {values : List UInt32} {alloc : Bool} {now : Int64}
  {a : Attributes}

lemma unaltered_setAlarm (hal : w.alarms id = some al) (al' : SyncAlarm) : Unaltered id w (w.setAlarm id al') ↔ al' = al := by
  constructor
  · intro h
    have halarm := h.alarm
    rw [World.setAlarm,hal] at halarm
    simpa using halarm
  · rintro rfl
    exact ⟨by rw [World.setAlarm,hal]; exact Function.update_self ..,rfl,fun _ => rfl⟩

lemma unaltered_init (hal : w.alarms id = some al) (hread : readAttributes mask values
      ⟨(w.trig (.alarm id)).pSync.getD 0,w.trig (.alarm id),al.delta,none⟩ = some a) {al' : SyncAlarm} (hdelta : al'.delta = al.delta)
    (hs : (syncInitTrigger (storeAttributes w id al' a) (.alarm id) a.counter .counter (mask%2^(caTestType+1)) now).1 ≠ .success)
    (hlist : ∀ x, (syncInitTrigger (storeAttributes w id al' a) (.alarm id) a.counter .counter (mask%2^(caTestType+1)) now).2.triglist x =
      w.triglist x) :
    Unaltered id w (syncInitTrigger (storeAttributes w id al' a) (.alarm id) a.counter .counter (mask%2^(caTestType+1)) now).2 ↔
      al' = al ∧ Stored w id al mask a now := by
  have hstored := storeAttributes_trig w id al' a
  obtain ⟨v,htrig,hlost,hfound⟩ := initFailed_trig hstored mask now hs
  have halarm : (syncInitTrigger (storeAttributes w id al' a) (.alarm id) a.counter .counter (mask%2^(caTestType+1)) now).2.alarms id =
      some { al' with delta := a.delta } := by
    rw [(syncInitTrigger_onlyTrig (storeAttributes w id al' a) (.alarm id) a.counter .counter (mask%2^(caTestType+1)) now).alarms]
    simp only [storeAttributes,World.setTrig,World.setAlarm,Function.update_self]
  have hold : a.trigger.testValue = (w.trig (.alarm id)).testValue :=
    readAttributes_keeps (fun a => a.trigger.testValue) hread (fun _ _ => rfl) (fun _ _ => rfl) (fun _ _ => rfl)
      (fun _ _ _ => rfl) (fun _ _ _ => rfl) fun _ _ => rfl
  have hnamed : ((storeAttributes w id al' a).trig (.alarm id)).pSync = (w.trig (.alarm id)).pSync := by
    rw [hstored,readAttributes_pSync hread]
  rw [hnamed] at hfound
  constructor
  · intro h
    have hal' := h.alarm
    have htr := h.trigger
    rw [halarm,hal,Option.some.injEq] at hal'
    rw [htrig] at htr
    have hdeltas : a.delta = al.delta := congrArg SyncAlarm.delta hal'
    have htv : v = (w.trig (.alarm id)).testValue := congrArg SyncTrigger.testValue htr
    refine ⟨?_,hdeltas,?_,fun hf value hvalue => ?_⟩
    · rw [← hal',hdeltas,← hdelta]
    · rw [← htr,htv,← hold]
    · rw [← htv,hfound hf]
      exact (congrArg (fun o : Option Int64 => o.getD a.trigger.testValue) hvalue).symm
  · rintro ⟨rfl,hst⟩
    refine ⟨?_,?_,hlist⟩
    · rw [halarm,hal,hst.delta]
    · have htv : v = a.trigger.testValue := by
        by_cases hf : Found (storeAttributes w id al' a) mask a
        · rw [hfound hf]
          cases hvalue : storedValue (storeAttributes w id al' a) (namedObject (w.trig (.alarm id)).pSync mask a.counter) mask a now with
          | none => rfl
          | some value => exact (hst.value hf value hvalue).trans hold.symm
        · exact hlost hf
      rw [htrig,htv]
      exact hst.trigger

/-- A failing `SyncChangeAlarmAttributes` changes nothing exactly when it finds the mistake in the mask or in the value for
events, or when the selection is as asked for and nothing that it goes on to store is new. -/
theorem changeAlarm_failed_iff (hal : w.alarms id = some al)
    (hs : (syncChangeAlarmAttributes w client id al mask values alloc now).1 ≠ .success) :
    Unaltered id w (syncChangeAlarmAttributes w client id al mask values alloc now).2 ↔
      ∀ a, readAttributes mask values ⟨(w.trig (.alarm id)).pSync.getD 0,w.trig (.alarm id),al.delta,none⟩ = some a →
        Selected al client alloc a.selectEvents ∧
          (NoMemory al client alloc a.selectEvents ∨ Mismatched mask a ∨ Stored w id al mask a now) := by
  have hlists := (syncChangeAlarmAttributes_failed hs).1
  unfold syncChangeAlarmAttributes at hs hlists ⊢
  cases hread : readAttributes mask values ⟨(w.trig (.alarm id)).pSync.getD 0,w.trig (.alarm id),al.delta,none⟩ with
  | none =>
    simp only [hread]
    exact iff_of_true ⟨rfl,rfl,fun _ => rfl⟩ fun _ h => nomatch h
  | some a =>
    simp only [hread,Option.some.injEq,forall_eq'] at hs hlists ⊢
    rw [← selection_same,← selection_fails]
    have hdelta := changeSelection_keeps al client alloc a.selectEvents
    generalize changeSelection al client alloc a.selectEvents = sel at hs hlists hdelta ⊢
    by_cases hfail : sel.1 ≠ .success
    · rw [if_pos hfail,unaltered_setAlarm hal]
      exact (and_iff_left (.inl hfail)).symm
    rw [if_neg hfail] at hs hlists ⊢
    by_cases hsign : Mismatched mask a
    · have hsign' := hsign
      unfold Mismatched at hsign'
      rw [if_pos hsign',unaltered_setAlarm hal]
      exact (and_iff_left (.inr (.inl hsign))).symm
    have hsign' := hsign
    unfold Mismatched at hsign'
    rw [if_neg hsign'] at hs hlists ⊢
    by_cases hinit : (syncInitTrigger (storeAttributes w id sel.2 a) (.alarm id) a.counter .counter (mask%2^(caTestType+1)) now).1 ≠
        .success
    · rw [if_pos hinit] at hlists ⊢
      rw [unaltered_init hal hread hdelta hinit hlists]
      exact and_congr_right fun _ => by rw [or_iff_right hfail,or_iff_right hsign]
    · rw [if_neg hinit] at hs
      exact absurd rfl hs

/-- An active alarm with `PositiveComparison` and delta 1 that waits for 5. -/
def waitingAlarm : World :=
  ((emptyWorld.setObj 1 ⟨.counter 0 none,[some (.alarm 2)],false⟩).setAlarm 2 ⟨7,1,true,.active,[]⟩).setTrig (.alarm 2)
    ⟨some 1,5,absolute,positiveComparison,5,.positiveComparison⟩

/-- A delta of -1 is refused. -/
theorem changeAlarm_failed_iff_delta : (syncChangeAlarmAttributes waitingAlarm 7 2 ⟨7,1,true,.active,[]⟩ 16
      [0xffffffff,0xffffffff] true 0).1 = .badMatch ∧
    Unaltered 2 waitingAlarm (syncChangeAlarmAttributes waitingAlarm 7 2 ⟨7,1,true,.active,[]⟩ 16 [0xffffffff,0xffffffff] true 0).2 := by
  refine ⟨by decide,(changeAlarm_failed_iff rfl (by decide)).2 fun a ha => ?_⟩
  cases ha
  exact ⟨trivial,.inr (.inl ⟨.inl (by decide),by decide⟩)⟩

/-- A test-type that does not exist stays behind in the alarm. -/
theorem test_type_left_behind : (syncChangeAlarmAttributes waitingAlarm 7 2 ⟨7,1,true,.active,[]⟩ 8 [99] true 0).1 = .badValue ∧
    ¬Unaltered 2 waitingAlarm (syncChangeAlarmAttributes waitingAlarm 7 2 ⟨7,1,true,.active,[]⟩ 8 [99] true 0).2 := by
  refine ⟨by decide,fun h => ?_⟩
  have htype := congrArg SyncTrigger.testType h.trigger
  revert htype
  decide

end Failure

end Xlibre.Sync
