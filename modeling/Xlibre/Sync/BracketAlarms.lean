import Mathlib.Tactic.Ring
import Xlibre.Sync.Brackets

/-! Which alarm requests leave brackets behind that are not up to date. -/
namespace Xlibre.Sync

section Values

variable {w : World} {x : XID} {now : Int64}

def counterAt (w : World) (x : XID) : Option (Int64 × Option SyncCounterType) :=
  match w.objs x with
  | some ⟨.counter value sys,_,_⟩ => some (value,sys.map (·.counterType))
  | _ => none

def Changing (w : World) (x : XID) : Prop := ∃ value ct, counterAt w x = some (value,some ct) ∧ ct ≠ .neverChanges

lemma upToDate_of_not_changing (h : ¬Changing w x) : UpToDate w x := by
  intro value sys l d ho hc
  refine absurd ⟨value,sys.counterType,?_,hc⟩ h
  rw [counterAt,ho]
  rfl

lemma counterAt_setTriglist (w : World) (x : XID) (l : List (Option TrigRef)) (y : XID) :
    counterAt (w.setTriglist x l) y = counterAt w y := by
  rw [World.setTriglist]
  split
  · rfl
  · rename_i o ho
    by_cases hy : y = x
    · subst hy
      simp only [counterAt,World.setObj,Function.update_self,ho]
      obtain ⟨data,l',d⟩ := o
      cases data <;> rfl
    · simp only [counterAt,World.setObj,Function.update_of_ne hy]

lemma counterAt_brackets (w : World) (x y : XID) : counterAt (syncComputeBracketValues w x) y = counterAt w y := by
  rw [syncComputeBracketValues]
  split
  · rename_i value sys l d ho
    split_ifs
    · rfl
    · by_cases hy : y = x
      · subst hy
        simp only [counterAt,World.setObj,Function.update_self,ho]
        rfl
      · simp only [counterAt,World.setObj,Function.update_of_ne hy]
  · rfl

lemma counterAt_register (w : World) (t : TrigRef) (pSync : Option XID) (changes : ℕ) (y : XID) :
    counterAt (registerTrigger w t pSync changes) y = counterAt w y := by
  have hdel : ∀ w : World, counterAt (syncDeleteTriggerFromSyncObject w t) y = counterAt w y := by
    intro w
    rw [syncDeleteTriggerFromSyncObject]
    split
    · rfl
    · rw [counterAt_brackets,counterAt_setTriglist]
  have hadd : ∀ w : World, counterAt (syncAddTriggerToSyncObject w t) y = counterAt w y := by
    intro w
    rw [syncAddTriggerToSyncObject]
    split
    · rfl
    · split_ifs
      · rfl
      · rw [counterAt_brackets,counterAt_setTriglist]
  unfold registerTrigger
  split_ifs
  · rw [hadd]
    exact hdel w
  · split
    · rfl
    · exact counterAt_brackets w _ y

lemma counterAt_query (w : World) (pSync : Option XID) (now : Int64) (y : XID) : counterAt (queryValue w pSync now) y =
    (counterAt w y).map fun p => (if pSync = some y ∧ p.2.isSome then now else p.1,p.2) := by
  have hsame : ∀ q : Option (Int64 × Option SyncCounterType), (∀ p, q = some p → ¬(pSync = some y ∧ p.2.isSome = true)) →
      q = q.map fun p => (if pSync = some y ∧ p.2.isSome then now else p.1,p.2) := by
    intro q hq
    cases q with
    | none => rfl
    | some p => rw [Option.map_some,if_neg (hq p rfl)]
  unfold queryValue
  cases pSync with
  | none => exact hsame _ fun p _ h => by cases h.1
  | some x =>
    dsimp only
    split
    · rename_i value sys l d ho
      by_cases hy : y = x
      · subst hy
        simp only [counterAt,World.setObj,Function.update_self,ho]
        rfl
      · simp only [counterAt,World.setObj,Function.update_of_ne hy]
        exact hsame _ fun p _ h => hy (Option.some_inj.1 h.1).symm
    · rename_i hno
      refine hsame _ fun p hp h => ?_
      obtain ⟨hx,hsome⟩ := h
      cases hx
      unfold counterAt at hp
      split at hp
      · rename_i value sys l d ho
        cases sys with
        | none =>
          cases hp
          cases hsome
        | some sys => exact hno value sys l d ho
      · cases hp

lemma changing_of_query {pSync : Option XID} (h : Changing (queryValue w pSync now) x) : Changing w x := by
  obtain ⟨value,ct,hat,hne⟩ := h
  rw [counterAt_query] at hat
  obtain ⟨p,hp,hpe⟩ := Option.map_eq_some_iff.1 hat
  have hct : p.2 = some ct := congrArg Prod.snd hpe
  exact ⟨p.1,ct,by rw [hp,← hct],hne⟩

lemma counterPtr_eq (w : World) (x : XID) : counterPtr w (some x) =
    match counterAt w x with
    | some p => .counter p.1
    | none => .other := by
  unfold counterPtr counterAt
  dsimp only
  cases ho : w.objs x with
  | none => rfl
  | some o =>
    obtain ⟨data,l,d⟩ := o
    cases data with
    | counter value sys => rfl
    | fence triggered => rfl

lemma valueAt_eq (w : World) (now : Int64) (x : XID) :
    valueAt w now (some x) = (counterAt w x).map fun p => if p.2.isSome then now else p.1 := by
  unfold valueAt counterAt
  dsimp only
  cases ho : w.objs x with
  | none => rfl
  | some o =>
    obtain ⟨data,l,d⟩ := o
    cases data with
    | counter value sys =>
      cases sys with
      | none => rfl
      | some sys => rfl
    | fence triggered => rfl

lemma counterPtr_query_eq (w : World) (pSync : Option XID) (now value : Int64) :
    counterPtr (queryValue w pSync now) pSync = .counter value ↔ valueAt w now pSync = some value := by
  cases pSync with
  | none => constructor <;> intro h <;> cases h
  | some x =>
    rw [counterPtr_eq,counterAt_query,valueAt_eq]
    cases counterAt w x with
    | none => constructor <;> intro h <;> cases h
    | some p => simp

end Values

section Conditions

/-- A comparison that is true at a value, and false again after `delta` has been added to its test value some times. -/
def Rearms (c : CheckTrigger) (testValue delta value : Int64) : Prop :=
  ∃ (v : Int64) (k : ℕ), 1 ≤ k ∧ v.toInt = testValue.toInt+k*delta.toInt ∧
    ((c = .positiveComparison ∧ testValue ≤ value ∧ value < v) ∨ (c = .negativeComparison ∧ value ≤ testValue ∧ v < value))

/-- The test value that `SyncInitTrigger` stores, if it gets that far. -/
def storedValue (w : World) (target : Option XID) (mask : ℕ) (a : Attributes) (now : Int64) : Option Int64 :=
  if mask.testBit caValueType ∨ mask.testBit caValue then
    if a.trigger.valueType = absolute then some a.trigger.waitValue
    else (valueAt w now target).map fun value => value+a.trigger.waitValue
  else some a.trigger.testValue

/-- The function that belongs to the attributes. -/
def storedCheck (mask : ℕ) (a : Attributes) : Option CheckTrigger :=
  if mask.testBit caTestType then checkOf a.trigger.testType else some a.trigger.checkTrigger

def FiresAgain (w : World) (pSync : Option XID) (mask : ℕ) (a : Attributes) (now : Int64) : Prop :=
  ∃ x value c v, namedObject pSync mask a.counter = some x ∧ Changing w x ∧ valueAt w now (some x) = some value ∧
    storedCheck mask a = some c ∧ storedValue w (some x) mask a now = some v ∧ Rearms c v a.delta value

/-- Nothing is wrong before `SyncInitTrigger` comes to the test value. -/
def Found (w : World) (mask : ℕ) (a : Attributes) : Prop :=
  (mask.testBit caCounter = true → a.counter ≠ 0 → ∃ d, w.kind a.counter = some (.counter,d)) ∧
    (mask.testBit caValueType = true → a.trigger.valueType = relative ∨ a.trigger.valueType = absolute)

/-- The attributes fail in `SyncInitTrigger` after the trigger, which is on a changing counter, got another test value. -/
def SpoilsValue (w : World) (tr : SyncTrigger) (mask : ℕ) (a : Attributes) (now : Int64) : Prop :=
  ¬InitOk w tr.pSync mask a now ∧ (mask.testBit caCounter = true → a.counter ≠ 0 → ∃ d, w.kind a.counter = some (.counter,d)) ∧
    (mask.testBit caValueType = true → a.trigger.valueType = relative ∨ a.trigger.valueType = absolute) ∧
    ∃ y v, tr.pSync = some y ∧ Changing w y ∧ storedValue w (namedObject tr.pSync mask a.counter) mask a now = some v ∧
      v ≠ tr.testValue

/-- The condition on a request: no alarm on a changing counter fires at once and is set again, and no failing change leaves
another test value behind on one. -/
def Settled (w : World) : Req → Prop
  | .createAlarm _ id mask values _ now => w.isNew id = true → values.length = valueWords mask →
    ∀ a, readAttributes mask values ⟨0,defaultTrigger,1,none⟩ = some a →
      ¬((mask.testBit caDelta ∨ mask.testBit caTestType) ∧ signMismatch a.trigger.testType a.delta) →
      InitOk w none mask a now → ¬FiresAgain w none mask a now
  | .changeAlarm client id mask values alloc now => ∀ al, w.alarms id = some al → values.length = valueWords mask →
    ∀ a, readAttributes mask values ⟨(w.trig (.alarm id)).pSync.getD 0,w.trig (.alarm id),al.delta,none⟩ = some a →
      (changeSelection al client alloc a.selectEvents).1 = .success →
      ¬((mask.testBit caDelta ∨ mask.testBit caTestType) ∧ signMismatch a.trigger.testType a.delta) →
      (InitOk w (w.trig (.alarm id)).pSync mask a now → ¬FiresAgain w (w.trig (.alarm id)).pSync mask a now) ∧
        ¬SpoilsValue w (w.trig (.alarm id)) mask a now
  | _ => True

end Conditions

section Init

variable {w : World} {t : TrigRef} {mask : ℕ} {a : Attributes} {now : Int64} {d : Option XID}

lemma alarmLoop_stop {isTrue : Int64 → Bool} {delta v : Int64} {fuel : ℕ} {testValue : Int64}
    (h : alarmLoop isTrue delta fuel testValue = some (v,false)) :
    isTrue v = false ∧ ∃ k : ℕ, 1 ≤ k ∧ v.toInt = testValue.toInt+k*delta.toInt := by
  induction fuel generalizing testValue with
  | zero => cases h
  | succ fuel ih =>
    rw [alarmLoop] at h
    split_ifs at h with hc
    · obtain ⟨hf,k,hk,hv⟩ := ih h
      refine ⟨hf,k+1,by omega,?_⟩
      have hs := toInt_add_of_no_overflow hc.1
      have he : (checkedInt64Add testValue delta).1 = testValue+delta := rfl
      rw [he,hs] at hv
      rw [hv]
      push_cast
      ring
    · rw [Option.some_inj] at h
      have hover : (checkedInt64Add testValue delta).2 = false := by rw [h]
      have he : testValue+delta = v := congrArg Prod.fst h
      have hs := toInt_add_of_no_overflow hover
      refine ⟨?_,1,le_rfl,by rw [← he,hs]; simp⟩
      have hn : isTrue (testValue+delta) ≠ true := fun ht => hc ⟨hover,ht⟩
      rw [← he]
      simpa using hn

lemma initTestValue_snd (ht : w.trig t = a.trigger) (target : Option XID) (mask : ℕ) (now : Int64) :
    (initTestValue (queryValue w target now) (w.trig t) target (mask%2^(caTestType+1))).2 =
      (storedValue w target mask a now).getD a.trigger.testValue := by
  unfold initTestValue storedValue
  rw [testBit_allTrigger (by decide),testBit_allTrigger (by decide),ht]
  split_ifs with hb ha
  · rfl
  · have hq := counterPtr_query_eq w target now
    cases hv : valueAt w now target with
    | none =>
      cases hp : counterPtr (queryValue w target now) target with
      | null => rfl
      | other => rfl
      | counter value =>
        rw [hq,hv] at hp
        cases hp
    | some value =>
      rw [hv] at hq
      simp only [(hq value).2 rfl]
      rfl
  · rfl

lemma initTarget_named {syncObject : XID} {pSync : Option XID}
    (h : initTarget w t syncObject .counter (mask%2^(caTestType+1)) = .ok pSync) :
    pSync = namedObject (w.trig t).pSync mask syncObject := by
  have hb : (mask%2^(caTestType+1)).testBit caCounter = mask.testBit caCounter := testBit_allTrigger (by decide)
  rw [namedObject]
  split_ifs with hc h0
  · rw [initTarget,hb,if_pos hc,if_pos h0] at h
    cases h
    rfl
  · exact initTarget_some h (by rw [hb,hc]) h0
  · exact initTarget_same h (by rw [hb]; simpa using hc)

lemma Linked.target_counter (h : Linked d w) {id : XID} (hid : w.alarms id ≠ none) {syncObject x : XID}
    (hp : initTarget w (.alarm id) syncObject .counter (mask%2^(caTestType+1)) = .ok (some x)) :
    ∃ b, w.kind x = some (.counter,b) := by
  cases hb : (mask%2^(caTestType+1)).testBit caCounter with
  | true => exact (initTarget_lookup hp rfl hb).2
  | false => exact h.attached.alarms id x hid (initTarget_same hp hb).symm

lemma initCheck_alarm (h : Linked d w) {id : XID} (hid : w.alarms id ≠ none) (ht : w.trig (.alarm id) = a.trigger)
    {syncObject : XID} {pSync : Option XID} (hp : initTarget w (.alarm id) syncObject .counter (mask%2^(caTestType+1)) = .ok pSync) :
    initCheck w (w.trig (.alarm id)) pSync (mask%2^(caTestType+1)) = storedCheck mask a := by
  rw [initCheck_eq,testBit_allTrigger (by decide),ht,storedCheck]
  split_ifs with hb hk
  · cases pSync with
    | none => cases hk
    | some x =>
      obtain ⟨b,hx⟩ := h.target_counter hid hp
      rw [Option.bind_some,hx] at hk
      cases hk
  · rfl
  · rfl

lemma initOk_of_success (h : Linked d w) {id : XID} (hid : w.alarms id ≠ none) (ht : w.trig (.alarm id) = a.trigger)
    (hs : (syncInitTrigger w (.alarm id) a.counter .counter (mask%2^(caTestType+1)) now).1 = .success) :
    InitOk w (w.trig (.alarm id)).pSync mask a now := by
  obtain ⟨pSync,v,c,hp,hc,hv,-⟩ := syncInitTrigger_done hs
  have hnamed := initTarget_named hp
  have hq := OnlyObjs.query w pSync now
  constructor
  · intro hb h0
    have hb' : (mask%2^(caTestType+1)).testBit caCounter = true := by rw [testBit_allTrigger (by decide),hb]
    have hsome := initTarget_some hp hb' h0
    exact (initTarget_lookup hp hsome hb').2
  · intro hb
    by_contra hn
    unfold syncInitTrigger at hs
    rw [hp] at hs
    simp only [hq.trig,testBit_allTrigger (show caValueType ≤ caTestType by decide),ht] at hs
    rw [if_pos ⟨hb,fun h => hn (.inl h),fun h => hn (.inr h)⟩] at hs
    cases hs
  · intro hb ha
    unfold initTestValue at hv
    rw [testBit_allTrigger (by decide),testBit_allTrigger (by decide),if_pos hb,ht,if_neg ha] at hv
    cases hptr : counterPtr (queryValue w pSync now) pSync with
    | null =>
      rw [hptr] at hv
      cases hv
    | other =>
      rw [hptr] at hv
      cases hv
    | counter value =>
      simp only [hptr] at hv
      refine ⟨value,?_,?_⟩
      · rw [← hnamed]
        exact (counterPtr_query_eq w pSync now value).1 hptr
      · by_contra hover
        rw [if_pos (by simpa using hover)] at hv
        cases hv
  · intro hb hno
    rw [initCheck_alarm h hid ht hp,storedCheck,if_pos hb,hno] at hc
    cases hc

lemma initFailed_trig {id : XID} (ht : w.trig (.alarm id) = a.trigger) (mask : ℕ) (now : Int64)
    (hs : (syncInitTrigger w (.alarm id) a.counter .counter (mask%2^(caTestType+1)) now).1 ≠ .success) :
    ∃ v, (syncInitTrigger w (.alarm id) a.counter .counter (mask%2^(caTestType+1)) now).2.trig (.alarm id) =
        { a.trigger with testValue := v } ∧
      (¬Found w mask a → v = a.trigger.testValue) ∧
      (Found w mask a → v = (storedValue w (namedObject (w.trig (.alarm id)).pSync mask a.counter) mask a now).getD
        a.trigger.testValue) := by
  unfold syncInitTrigger at hs ⊢
  cases hp : initTarget w (.alarm id) a.counter .counter (mask%2^(caTestType+1)) with
  | error e =>
    refine ⟨a.trigger.testValue,by rw [← ht],fun _ => rfl,fun hfound => ?_⟩
    rw [initTarget_found hfound.1] at hp
    cases hp
  | ok pSync =>
    rw [hp] at hs
    have hq := OnlyObjs.query w pSync now
    have hnamed := initTarget_named hp
    simp only [hq.trig] at hs ⊢
    by_cases hv : (mask%2^(caTestType+1)).testBit caValueType = true ∧ (w.trig (.alarm id)).valueType ≠ relative ∧
        (w.trig (.alarm id)).valueType ≠ absolute
    · rw [if_pos hv,hq.trig]
      refine ⟨a.trigger.testValue,by rw [← ht],fun _ => rfl,fun hfound => ?_⟩
      rw [testBit_allTrigger (by decide),ht] at hv
      obtain h | h := hfound.2 hv.1
      · exact absurd h hv.2.1
      · exact absurd h hv.2.2
    rw [if_neg hv] at hs ⊢
    have hfound : Found w mask a := by
      refine ⟨fun hb h0 => ?_,fun hb => ?_⟩
      · have hb' : (mask%2^(caTestType+1)).testBit caCounter = true := by rw [testBit_allTrigger (by decide),hb]
        exact (initTarget_lookup hp (initTarget_some hp hb' h0) hb').2
      · rw [testBit_allTrigger (by decide),ht] at hv
        by_contra hn
        exact hv ⟨hb,fun h => hn (.inl h),fun h => hn (.inr h)⟩
    have hsnd := initTestValue_snd ht pSync mask now
    generalize initTestValue (queryValue w pSync now) (w.trig (.alarm id)) pSync (mask%2^(caTestType+1)) = v at hs hsnd ⊢
    have hset : ((queryValue w pSync now).setTrig (.alarm id) { w.trig (.alarm id) with testValue := v.2 }).trig
        (.alarm id) = { a.trigger with testValue := v.2 } := by rw [trig_setTrig_self,ht]
    refine ⟨v.2,?_,fun h => absurd hfound h,fun _ => by rw [hsnd,← hnamed]⟩
    by_cases hv1 : v.1 = .success
    · rw [if_neg (not_not.2 hv1)] at hs ⊢
      cases hc : initCheck ((queryValue w pSync now).setTrig (.alarm id) { w.trig (.alarm id) with testValue := v.2 })
          (((queryValue w pSync now).setTrig (.alarm id) { w.trig (.alarm id) with testValue := v.2 }).trig (.alarm id)) pSync
          (mask%2^(caTestType+1)) with
      | none =>
        exact hset
      | some c =>
        simp only [hc] at hs
        exact absurd rfl hs
    · rw [if_pos hv1]
      exact hset

lemma initFailed_value {id : XID} (ht : w.trig (.alarm id) = a.trigger) (mask : ℕ) (now : Int64)
    (hs : (syncInitTrigger w (.alarm id) a.counter .counter (mask%2^(caTestType+1)) now).1 ≠ .success) :
    ((syncInitTrigger w (.alarm id) a.counter .counter (mask%2^(caTestType+1)) now).2.trig (.alarm id)).testValue =
        a.trigger.testValue ∨
      (Found w mask a ∧ storedValue w (namedObject (w.trig (.alarm id)).pSync mask a.counter) mask a now =
        some ((syncInitTrigger w (.alarm id) a.counter .counter (mask%2^(caTestType+1)) now).2.trig (.alarm id)).testValue) := by
  obtain ⟨v,htrig,hlost,hfound⟩ := initFailed_trig ht mask now hs
  rw [htrig]
  by_cases hf : Found w mask a
  · have hv := hfound hf
    cases hstored : storedValue w (namedObject (w.trig (.alarm id)).pSync mask a.counter) mask a now with
    | none =>
      rw [hstored] at hv
      exact .inl hv
    | some value =>
      rw [hstored] at hv
      exact .inr ⟨hf,by rw [hv]; rfl⟩
  · exact .inl (hlost hf)

end Init

section Alarm

variable {w w' : World} {id : XID} {al : SyncAlarm} {client mask fuel : ℕ} {values : List UInt32} {alloc : Bool} {now : Int64}
  {y : XID}

lemma rearms_of_loop {x : XID} {value v : Int64} {delta : Int64} (hp : (w.trig (.alarm id)).pSync = some x)
    (hptr : counterPtr w (some x) = .counter value)
    (hloop : alarmLoop (fun u => check w { w.trig (.alarm id) with testValue := u } value) delta fuel
      (w.trig (.alarm id)).testValue = some (v,false)) (htrue : IsTrue w id) :
    Rearms (w.trig (.alarm id)).checkTrigger (w.trig (.alarm id)).testValue delta value := by
  have hnow := htrue value (by rw [hp,hptr])
  obtain ⟨hstop,k,hk,hv⟩ := alarmLoop_stop hloop
  refine ⟨v,k,hk,hv,?_⟩
  have hptr' : counterPtr w (w.trig (.alarm id)).pSync = .counter value := by rw [hp,hptr]
  cases hc : (w.trig (.alarm id)).checkTrigger with
  | positiveComparison =>
    simp only [check,hc,checkCounter,hptr',decide_eq_true_eq,decide_eq_false_iff_not,Int64.not_le] at hnow hstop
    exact .inl ⟨rfl,hnow,hstop⟩
  | negativeComparison =>
    simp only [check,hc,checkCounter,hptr',decide_eq_true_eq,decide_eq_false_iff_not,Int64.not_le] at hnow hstop
    exact .inr ⟨rfl,hnow,hstop⟩
  | positiveTransition =>
    rw [check_transition w _ hptr' (.inl hc)] at hnow
    cases hnow
  | negativeTransition =>
    rw [check_transition w _ hptr' (.inr hc)] at hnow
    cases hnow
  | fence =>
    simp only [check,hc,hp] at hnow
    unfold counterPtr at hptr
    dsimp only at hptr
    split at hptr
    · rename_i ho
      simp only [ho] at hnow
      cases hnow
    · cases hptr

structure Changed (w : World) (id : XID) (mask : ℕ) (a : Attributes) (now : Int64) (w' : World) : Prop where
  ok : InitOk w (w.trig (.alarm id)).pSync mask a now
  recomputed : ∀ y, Recomputed y w w'
  linked : Linked none w'
  pSync : (w'.trig (.alarm id)).pSync = namedObject (w.trig (.alarm id)).pSync mask a.counter
  check : storedCheck mask a = some (w'.trig (.alarm id)).checkTrigger
  value : ∀ x, (w'.trig (.alarm id)).pSync = some x →
    (w'.trig (.alarm id)).testValue = (storedValue w (some x) mask a now).getD a.trigger.testValue
  counter : ∀ x, (w'.trig (.alarm id)).pSync = some x →
    counterAt w' x = (counterAt w x).map fun p => (if p.2.isSome then now else p.1,p.2)
  delta : ∀ al', w'.alarms id = some al' → al'.delta = a.delta

/-- The checks that `SyncChangeAlarmAttributes` makes before it stores anything. -/
structure Passes (w : World) (client : ℕ) (id : XID) (al : SyncAlarm) (mask : ℕ) (values : List UInt32) (alloc : Bool)
    (a : Attributes) : Prop where
  read : readAttributes mask values ⟨(w.trig (.alarm id)).pSync.getD 0,w.trig (.alarm id),al.delta,none⟩ = some a
  selection : (changeSelection al client alloc a.selectEvents).1 = .success
  sign : ¬((mask.testBit caDelta ∨ mask.testBit caTestType) ∧ signMismatch a.trigger.testType a.delta)

lemma SameBrackets.store (hy : some (.alarm id) ∉ w.triglist y) (al : SyncAlarm) (a : Attributes) :
    SameBrackets y w (storeAttributes w id al a) := by
  refine (SameBrackets.setAlarm w id { al with delta := a.delta }).trans (SameBrackets.setTrig _ ?_ a.trigger)
  rw [triglist_setAlarm]
  exact hy

lemma changed_of_success (h : Linked none w) (hal : w.alarms id = some al)
    (hs : (syncChangeAlarmAttributes w client id al mask values alloc now).1 = .success) :
    ∃ a, Passes w client id al mask values alloc a ∧
      Changed w id mask a now (syncChangeAlarmAttributes w client id al mask values alloc now).2 := by
  have hid : w.alarms id ≠ none := by
    rw [hal]
    exact Option.some_ne_none _
  have hlinked := (h.changeAttributes hid client al mask values alloc now).1
  obtain ⟨status,w',hne,-,hr⟩ | ⟨a,al',r,hread,hsel,hm,hr,⟨hne,hc⟩ | ⟨hsucc,hc⟩⟩ :=
    syncChangeAlarmAttributes_cases w client id al mask values alloc now
  · rw [hr] at hs
    exact absurd hs hne
  · rw [hc] at hs
    exact absurd hs hne
  refine ⟨a,⟨hread,by rw [hsel],hm⟩,?_⟩
  rw [hc] at hlinked ⊢
  rw [← hr] at hsucc hlinked ⊢
  have hps := readAttributes_pSync hread
  have htrig := storeAttributes_trig w id al' a
  have hstore := SameLinks.store hid al' hps
  have hl1 := hstore.linked h
  have hid1 : (storeAttributes w id al' a).alarms id ≠ none := setAlarm_alarms_ne_none w id _
  have hok := initOk_of_success hl1 hid1 htrig hsucc
  obtain ⟨pSync,v,c,hp,hcheck,hv,htr⟩ := syncInitTrigger_done hsucc
  have hnamed := initTarget_named hp
  have hstored := initTestValue_snd htrig pSync mask now
  rw [htrig,hps] at hok hnamed
  rw [htrig] at hcheck hv hstored htr
  rw [hv] at hstored
  have hcounter : ∀ x, counterAt (syncInitTrigger (storeAttributes w id al' a) (.alarm id) a.counter .counter
      (mask%2^(caTestType+1)) now).2 x = counterAt (queryValue (storeAttributes w id al' a) pSync now) x := by
    intro x
    obtain ⟨status,pSync',v',hf,hcase⟩ | ⟨pSync',v',c',hp',-,-,hcase⟩ :=
      syncInitTrigger_cases (storeAttributes w id al' a) (.alarm id) a.counter .counter (mask%2^(caTestType+1)) now
    · rw [hcase] at hsucc
      exact absurd hsucc hf
    · rw [hp] at hp'
      cases hp'
      rw [hcase,counterAt_register]
      rfl
  have hset := fun y => SameBrackets.setAlarm (y := y) (syncInitTrigger (storeAttributes w id al' a) (.alarm id) a.counter
    .counter (mask%2^(caTestType+1)) now).2 id { al' with delta := a.delta, state := .active }
  have htr' : (((syncInitTrigger (storeAttributes w id al' a) (.alarm id) a.counter .counter (mask%2^(caTestType+1))
      now).2.setAlarm id { al' with delta := a.delta, state := .active }).trig (.alarm id)) =
        { a.trigger with pSync := pSync, testValue := v, checkTrigger := c } := htr
  refine ⟨⟨hok.counter,hok.valueType,hok.value,hok.testType⟩,?_,hlinked,?_,?_,?_,?_,?_⟩
  · intro y
    obtain hu | ⟨hold,-,hsame⟩ := hl1.wired.initDone hsucc y
    · exact .inr ((hset y).upToDate hu)
    · rw [htrig,hps] at hold
      exact .inl (((SameBrackets.store (h.wired.not_mem hold) al' a).trans hsame).trans (hset y))
  · rw [htr',hnamed]
  · rw [htr',← initCheck_alarm hl1 hid1 htrig hp,htrig,hcheck]
  · intro x hx
    rw [htr'] at hx ⊢
    have hx : pSync = some x := hx
    rw [hx] at hstored
    exact hstored
  · intro x hx
    rw [htr'] at hx
    have hx : pSync = some x := hx
    refine (hcounter x).trans ?_
    rw [counterAt_query,hx]
    simp only [true_and]
    rfl
  · intro b hb
    simp only [World.setAlarm,Function.update_self,Option.some_inj] at hb
    rw [← hb]

lemma Changed.fired {a : Attributes} {w₀ : World} (h : Changed w₀ id mask a now w) (hf : syncAlarmTriggerFired fuel w id = some w')
    (htrue : IsTrue w id) (hno : ¬FiresAgain w₀ (w₀.trig (.alarm id)).pSync mask a now) (y : XID) : Recomputed y w₀ w' := by
  obtain rfl | ⟨al,-,rfl⟩ | ⟨al,x,value,v,hal,hx,hptr,hloop,rfl⟩ := syncAlarmTriggerFired_cases hf
  · exact h.recomputed y
  · exact (h.recomputed y).trans (.inl (SameBrackets.setAlarm w id _))
  by_cases hxy : x = y
  · -- The alarm is on this counter, which then must be one that never changes or belongs to a client.
    subst hxy
    refine .inr (upToDate_of_not_changing fun hch => hno ?_)
    have hc := h.counter x hx
    rw [counterPtr_eq] at hptr
    obtain ⟨value',ct,hat,hne⟩ := hch
    have hat : counterAt w x = some (value',some ct) := hat
    rw [hat] at hptr hc
    cases hptr
    obtain ⟨p,hp,hpe⟩ := Option.map_eq_some_iff.1 hc.symm
    have hv : valueAt w₀ now (some x) = some value' := by
      rw [valueAt_eq,hp,Option.map_some,Option.some_inj]
      exact congrArg Prod.fst hpe
    have hstored : storedValue w₀ (some x) mask a now = some (w.trig (.alarm id)).testValue := by
      rw [h.value x hx]
      unfold storedValue
      rw [hv]
      split_ifs <;> rfl
    refine ⟨x,value',_,_,h.pSync.symm.trans hx,⟨p.1,ct,?_,hne⟩,hv,h.check,hstored,?_⟩
    · have hct : p.2 = some ct := congrArg Prod.snd hpe
      rw [hp,← hct]
    · rw [← h.delta al hal]
      refine rearms_of_loop hx ?_ hloop htrue
      rw [counterPtr_eq,hat]
  · refine (h.recomputed y).trans (.inl (SameBrackets.setTrig w ?_ _))
    exact h.linked.wired.not_mem (by rw [hx]; simpa using hxy)

lemma changeFailed_untouched (h : Linked none w) (hal : w.alarms id = some al)
    (hs : (syncChangeAlarmAttributes w client id al mask values alloc now).1 ≠ .success)
    (hno : ∀ a, Passes w client id al mask values alloc a → ¬SpoilsValue w (w.trig (.alarm id)) mask a now) (y : XID) :
    Untouched y w (syncChangeAlarmAttributes w client id al mask values alloc now).2 ∨
      UpToDate (syncChangeAlarmAttributes w client id al mask values alloc now).2 y := by
  have hid : w.alarms id ≠ none := by
    rw [hal]
    exact Option.some_ne_none _
  have hlists := (syncChangeAlarmAttributes_failed hs).1
  obtain ⟨status,w',-,hw,hr⟩ | ⟨a,al',r,hread,hsel,hm,hr,⟨hne,hc⟩ | ⟨hsucc,hc⟩⟩ :=
    syncChangeAlarmAttributes_cases w client id al mask values alloc now
  · rw [hr]
    obtain rfl | ⟨al',-,rfl⟩ := hw
    · exact .inl ⟨rfl,fun _ _ => rfl⟩
    · exact .inl ⟨rfl,fun _ _ => rfl⟩
  · rw [hc,← hr] at hlists ⊢
    rw [← hr] at hne
    have hps := readAttributes_pSync hread
    have htrig := storeAttributes_trig w id al' a
    have hold : a.trigger.testValue = (w.trig (.alarm id)).testValue :=
      readAttributes_keeps (fun a => a.trigger.testValue) hread (fun _ _ => rfl) (fun _ _ => rfl) (fun _ _ => rfl)
        (fun _ _ _ => rfl) (fun _ _ _ => rfl) fun _ _ => rfl
    have hf := syncInitTrigger_onlyTrig (storeAttributes w id al' a) (.alarm id) a.counter .counter (mask%2^(caTestType+1)) now
    have hbad : ¬InitOk w (w.trig (.alarm id)).pSync mask a now := by
      intro hok
      refine hne (InitOk.success (a := a) ?_ htrig)
      rw [htrig,hps]
      exact ⟨hok.counter,hok.valueType,hok.value,hok.testType⟩
    by_cases hon : (w.trig (.alarm id)).pSync = some y ∧ Changing w y
    · -- The trigger is on this counter: its test value is the one it had.
      refine .inl ⟨hlists y,?_⟩
      intro t ht
      by_cases hta : t = .alarm id
      · subst hta
        rw [← hold]
        obtain hv | ⟨⟨hct,hvt⟩,hv⟩ := initFailed_value htrig mask now hne
        · exact hv
        · by_contra hdiff
          refine hno a ⟨hread,by rw [hsel],hm⟩ ⟨hbad,hct,hvt,y,_,hon.1,hon.2,?_,fun he => hdiff (he.trans hold.symm)⟩
          rw [htrig,hps] at hv
          exact hv
      · rw [hf.trig t hta,storeAttributes,trig_setTrig_of_ne _ _ hta]
        rfl
    · by_cases hp : (w.trig (.alarm id)).pSync = some y
      · refine .inr (upToDate_of_not_changing fun hch => hon ⟨hp,?_⟩)
        obtain ⟨status,pSync,v,-,hcase⟩ | ⟨pSync,v,c,-,-,-,hcase⟩ :=
          syncInitTrigger_cases (storeAttributes w id al' a) (.alarm id) a.counter .counter (mask%2^(caTestType+1)) now
        · rw [hcase] at hch
          have hch : Changing (queryValue (storeAttributes w id al' a) pSync now) y := hch
          have hstored := changing_of_query hch
          exact hstored
        · rw [hcase] at hne
          exact absurd rfl hne
      · refine .inl ⟨hlists y,?_⟩
        intro t ht
        have hta : t ≠ .alarm id := by
          intro he
          rw [he] at ht
          exact h.wired.not_mem hp ht
        rw [hf.trig t hta,storeAttributes,trig_setTrig_of_ne _ _ hta]
        rfl
  · rw [hc] at hs
    exact absurd rfl hs

end Alarm

end Xlibre.Sync
