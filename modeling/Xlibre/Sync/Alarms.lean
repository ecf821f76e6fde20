import Xlibre.Sync.AlarmLoop

/-! Alarms over whole runs: their updates end, as long as no failing request leaves a new test-type behind. -/
namespace Xlibre.Sync

def AllTuned (w : World) : Prop := ∀ id al, w.alarms id = some al → Tuned al (w.trig (.alarm id))

/-- The alarms that are left have the `delta`, the test-type and the function they had. -/
def KeepsAlarms (w w' : World) : Prop := ∀ id al', w'.alarms id = some al' → ∃ al, w.alarms id = some al ∧ al'.delta = al.delta ∧
  (w'.trig (.alarm id)).testType = (w.trig (.alarm id)).testType ∧
  (w'.trig (.alarm id)).checkTrigger = (w.trig (.alarm id)).checkTrigger

namespace KeepsAlarms

variable {w w' w'' : World} {fuel : ℕ}

lemma tuned (h : KeepsAlarms w w') (hw : AllTuned w) : AllTuned w' := by
  intro id al' hal'
  obtain ⟨al,hal,hd,ht,hc⟩ := h id al' hal'
  obtain ⟨hk,hs⟩ := hw id al hal
  constructor
  · rw [ht,hc,hk]
  · rw [ht,hd,hs]

lemma ofEq (ha : w'.alarms = w.alarms) (ht : ∀ id, w'.trig (.alarm id) = w.trig (.alarm id)) : KeepsAlarms w w' := by
  intro id al' hal'
  rw [ha] at hal'
  exact ⟨al',hal',rfl,by rw [ht],by rw [ht]⟩

lemma trans (h : KeepsAlarms w w') (h' : KeepsAlarms w' w'') : KeepsAlarms w w'' := by
  intro id al'' hal''
  obtain ⟨al',hal',hd',ht',hc'⟩ := h' id al'' hal''
  obtain ⟨al,hal,hd,ht,hc⟩ := h id al' hal'
  exact ⟨al,hal,hd'.trans hd,ht'.trans ht,hc'.trans hc⟩

lemma setAlarm {id : XID} {al : SyncAlarm} (hal : w.alarms id = some al) (al' : SyncAlarm) (hd : al'.delta = al.delta) :
    KeepsAlarms w (w.setAlarm id al') := by
  intro i b hb
  by_cases hi : i = id
  · subst hi
    simp only [World.setAlarm,Function.update_self,Option.some_inj] at hb
    subst hb
    exact ⟨al,hal,hd,rfl,rfl⟩
  · simp only [World.setAlarm,Function.update_of_ne hi] at hb
    exact ⟨b,hb,rfl,rfl,rfl⟩

lemma setTrig (w : World) {t : TrigRef} {tr : SyncTrigger} (ht : tr.testType = (w.trig t).testType)
    (hc : tr.checkTrigger = (w.trig t).checkTrigger) : KeepsAlarms w (w.setTrig t tr) := by
  intro id al hal
  refine ⟨al,hal,rfl,?_⟩
  by_cases hid : TrigRef.alarm id = t
  · subst hid
    rw [trig_setTrig_self]
    exact ⟨ht,hc⟩
  · rw [trig_setTrig_of_ne w tr hid]
    exact ⟨rfl,rfl⟩

lemma removeAlarm (w : World) (id : XID) : KeepsAlarms w { w with alarms := Function.update w.alarms id none } := by
  intro i al hal
  by_cases hi : i = id
  · subst hi
    simp only [Function.update_self] at hal
    cases hal
  · simp only [Function.update_of_ne hi] at hal
    exact ⟨al,hal,rfl,rfl,rfl⟩

lemma freeAlarm (w : World) (id : XID) : KeepsAlarms w (freeAlarm w id) := by
  have ho := OnlyObjs.delete w (.alarm id)
  have hd : KeepsAlarms w (syncDeleteTriggerFromSyncObject w (.alarm id)) := ofEq ho.alarms fun _ => by rw [ho.trig]
  exact hd.trans (removeAlarm _ id)

lemma alarmFired {id : XID} (h : syncAlarmTriggerFired fuel w id = some w') : KeepsAlarms w w' := by
  obtain rfl | ⟨al,hal,rfl⟩ | ⟨al,x,value,v,-,-,-,-,rfl⟩ := syncAlarmTriggerFired_cases h
  · exact ofEq rfl fun _ => rfl
  · exact setAlarm hal _ rfl
  · exact setTrig w rfl rfl

lemma awaitFired (w : World) (a : ℕ) : KeepsAlarms w (syncAwaitTriggerFired w a) := by
  have hf := freeAwait_onlyAwait { w with attended := w.attended ++ [a] } a
  exact ofEq hf.alarms fun _ => by rw [syncAwaitTriggerFired,hf.trig]

lemma triggerFired {t : TrigRef} (h : triggerFired fuel w t = some w') : KeepsAlarms w w' := by
  cases t with
  | alarm id => exact alarmFired h
  | await a i =>
    simp only [Sync.triggerFired,Option.some_inj] at h
    subst h
    exact awaitFired w a

lemma counterDestroyed (w : World) (t : TrigRef) : KeepsAlarms w (counterDestroyed w t) := by
  cases t with
  | alarm id =>
    rw [Sync.counterDestroyed,syncAlarmCounterDestroyed]
    split
    · exact ofEq rfl fun _ => rfl
    · rename_i al hal
      have hs : KeepsAlarms w (w.setAlarm id { al with state := .inactive }) := setAlarm hal _ rfl
      exact hs.trans (setTrig _ rfl rfl)
  | await a i => exact awaitFired w a

lemma procSyncAwait (resType : ResType) (w : World) (client : ℕ) (conds : List WaitCondition) :
    KeepsAlarms w (procSyncAwait resType w client conds).2 := by
  unfold Sync.procSyncAwait
  split_ifs with hc
  · exact ofEq rfl fun _ => rfl
  · have hf := AwaitFrame.addConditions (a := w.nextAwait) resType
      { w.setAwait w.nextAwait ⟨client,0⟩ with nextAwait := w.nextAwait+1 } 0 conds
    dsimp only
    generalize addConditions resType { w.setAwait w.nextAwait ⟨client,0⟩ with nextAwait := w.nextAwait+1 } w.nextAwait 0
      conds = r at hf ⊢
    have hk : KeepsAlarms w r.2 := ofEq hf.alarms fun id => hf.trig (.alarm id) (by simp)
    split_ifs
    · exact hk
    · obtain he | he := syncAwaitEpilogue_cases r.2 w.nextAwait (List.range conds.length)
      · rw [he]
        exact hk
      · rw [he]
        exact hk.trans (awaitFired _ _)

lemma next (h : next fuel w = some w') : KeepsAlarms w w' := by
  cases next_cases h with
  | settle x oldval _ =>
    have ho := OnlyObjs.brackets w x
    exact ofEq ho.alarms fun id => congrFun ho.trig (.alarm id)
  | pass x oldval t _ => exact ofEq rfl fun _ => rfl
  | fire x oldval t w1 pnext _ hf _ => exact (triggerFired hf).trans (ofEq rfl fun _ => rfl)
  | rest x _ => exact ofEq rfl fun _ => rfl
  | fence x t w1 _ _ hf => exact triggerFired hf
  | gone x _ _ => exact ofEq rfl fun _ => rfl
  | skip x l _ _ =>
    have ho := OnlyObjs.setTriglist w x l
    exact ofEq ho.alarms fun _ => by rw [ho.trig]
  | tell x t l _ _ =>
    have ho := OnlyObjs.setTriglist w x l
    have hk : KeepsAlarms w (w.setTriglist x l) := ofEq ho.alarms fun _ => by rw [ho.trig]
    exact hk.trans (counterDestroyed _ t)

end KeepsAlarms

section InitOk

/-- The value that `SyncInitTrigger` finds in a counter; a system counter is asked for it. -/
def valueAt (w : World) (now : Int64) : Option XID → Option Int64
  | none => none
  | some x =>
    match w.objs x with
    | some ⟨.counter value none,_,_⟩ => some value
    | some ⟨.counter _ (some _),_,_⟩ => some now
    | _ => none

def namedObject (pSync : Option XID) (mask : ℕ) (counter : XID) : Option XID :=
  if mask.testBit caCounter then if counter = 0 then none else some counter else pSync

/-- `SyncInitTrigger` finds nothing wrong with the attributes: the counter exists or is `None`, the value-type is known, a
relative value has a counter and stays in range, and the test-type is known. -/
structure InitOk (w : World) (pSync : Option XID) (mask : ℕ) (a : Attributes) (now : Int64) : Prop where
  counter : mask.testBit caCounter = true → a.counter ≠ 0 → ∃ d, w.kind a.counter = some (.counter,d)
  valueType : mask.testBit caValueType = true → a.trigger.valueType = relative ∨ a.trigger.valueType = absolute
  value : mask.testBit caValueType = true ∨ mask.testBit caValue = true → a.trigger.valueType ≠ absolute →
    ∃ v, valueAt w now (namedObject pSync mask a.counter) = some v ∧ (checkedInt64Add v a.trigger.waitValue).2 = false
  testType : mask.testBit caTestType = true → checkOf a.trigger.testType ≠ none

variable {w : World} {t : TrigRef} {mask : ℕ} {a : Attributes} {now : Int64}

lemma testBit_allTrigger {mask i : ℕ} (hi : i ≤ caTestType) : (mask%2^(caTestType+1)).testBit i = mask.testBit i := by
  rw [Nat.testBit_mod_two_pow,decide_eq_true (by omega),Bool.true_and]

lemma counterPtr_query {pSync : Option XID} {v : Int64} (h : valueAt w now pSync = some v) :
    counterPtr (queryValue w pSync now) pSync = .counter v := by
  cases pSync with
  | none => cases h
  | some x =>
    unfold valueAt at h
    dsimp only at h
    split at h
    · rename_i ho
      cases h
      simp only [queryValue,ho,counterPtr]
    · rename_i ho
      cases h
      simp only [queryValue,ho,counterPtr,World.setObj,Function.update_self]
    · cases h

lemma initTarget_found (h : mask.testBit caCounter = true → a.counter ≠ 0 → ∃ d, w.kind a.counter = some (.counter,d)) :
    initTarget w t a.counter .counter (mask%2^(caTestType+1)) = .ok (namedObject (w.trig t).pSync mask a.counter) := by
  rw [initTarget,testBit_allTrigger (by decide),namedObject]
  split_ifs with hb h0
  · rfl
  · obtain ⟨d,hd⟩ := h hb h0
    rw [World.kind,Option.map_eq_some_iff] at hd
    obtain ⟨o,ho,hd⟩ := hd
    simp only [Prod.mk.injEq] at hd
    simp only [lookupSync,ho,hd.1,if_true]
    rfl
  · rfl

lemma InitOk.success (h : InitOk w (w.trig t).pSync mask a now) (ht : w.trig t = a.trigger) :
    (syncInitTrigger w t a.counter .counter (mask%2^(caTestType+1)) now).1 = .success := by
  have hq := OnlyObjs.query w (namedObject (w.trig t).pSync mask a.counter) now
  unfold syncInitTrigger
  rw [initTarget_found h.counter]
  simp only [hq.trig]
  rw [if_neg ?_]
  · have hv : (initTestValue (queryValue w (namedObject (w.trig t).pSync mask a.counter) now) (w.trig t)
        (namedObject (w.trig t).pSync mask a.counter) (mask%2^(caTestType+1))).1 = .success := by
      unfold initTestValue
      rw [testBit_allTrigger (by decide),testBit_allTrigger (by decide),ht]
      split_ifs with hb ha
      · rfl
      · obtain ⟨v,hv,hover⟩ := h.value hb ha
        rw [ht] at hv
        simp only [counterPtr_query hv,hover,Bool.false_eq_true,if_false]
      · rfl
    rw [if_neg (not_not.2 hv)]
    split
    · rename_i hc
      rw [initCheck_eq,testBit_allTrigger (by decide),trig_setTrig_self] at hc
      split_ifs at hc with hb hk
      rw [ht] at hc
      exact absurd hc (h.testType hb)
    · rfl
  · rw [testBit_allTrigger (by decide),ht]
    intro hb
    obtain hv | hv := h.valueType hb.1
    · exact hb.2.1 hv
    · exact hb.2.2 hv

end InitOk

section Harmless

variable {w : World} {client : ℕ} {id : XID} {al : SyncAlarm} {mask : ℕ} {values : List UInt32} {alloc : Bool} {now : Int64}

/-- A change of attributes that gets as far as `SyncInitTrigger` with another test-type also gets through it. -/
def HarmlessChange (w : World) (client : ℕ) (id : XID) (al : SyncAlarm) (mask : ℕ) (values : List UInt32) (alloc : Bool)
    (now : Int64) : Prop :=
  ∀ a, readAttributes mask values ⟨(w.trig (.alarm id)).pSync.getD 0,w.trig (.alarm id),al.delta,none⟩ = some a →
    (changeSelection al client alloc a.selectEvents).1 = .success →
    ¬((mask.testBit caDelta ∨ mask.testBit caTestType) ∧ signMismatch a.trigger.testType a.delta) →
    a.trigger.testType ≠ (w.trig (.alarm id)).testType → InitOk w (w.trig (.alarm id)).pSync mask a now

/-- The condition on the requests of a run: only a `ChangeAlarm` can do harm. -/
def Harmless (w : World) : Req → Prop
  | .changeAlarm client id mask values alloc now => ∀ al, w.alarms id = some al → values.length = valueWords mask →
    HarmlessChange w client id al mask values alloc now
  | _ => True

lemma storeAttributes_trig (w : World) (id : XID) (al : SyncAlarm) (a : Attributes) :
    (storeAttributes w id al a).trig (.alarm id) = a.trigger := trig_setTrig_self _ _ _

lemma changeAttributes_others (w : World) (client : ℕ) (id : XID) (al : SyncAlarm) (mask : ℕ) (values : List UInt32) (alloc : Bool)
    (now : Int64) {i : XID} (hi : i ≠ id) :
    (syncChangeAlarmAttributes w client id al mask values alloc now).2.alarms i = w.alarms i ∧
      (syncChangeAlarmAttributes w client id al mask values alloc now).2.trig (.alarm i) = w.trig (.alarm i) := by
  have hne : TrigRef.alarm i ≠ .alarm id := by simpa using hi
  obtain ⟨status,w',-,hw,hr⟩ | ⟨a,al',r,-,-,-,hr,hc⟩ :=
    syncChangeAlarmAttributes_cases w client id al mask values alloc now
  · rw [hr]
    obtain rfl | ⟨al',-,rfl⟩ := hw
    · exact ⟨rfl,rfl⟩
    · exact ⟨by simp only [World.setAlarm,Function.update_of_ne hi],rfl⟩
  · have hf := syncInitTrigger_onlyTrig (storeAttributes w id al' a) (.alarm id) a.counter .counter (mask%2^(caTestType+1)) now
    rw [hr] at hf
    have ha : r.2.alarms i = w.alarms i := by
      rw [hf.alarms]
      simp only [storeAttributes,World.setTrig,World.setAlarm,Function.update_of_ne hi]
    have ht : r.2.trig (.alarm i) = w.trig (.alarm i) := by
      rw [hf.trig _ hne,storeAttributes,trig_setTrig_of_ne _ _ hne]
      rfl
    obtain ⟨-,hc⟩ | ⟨-,hc⟩ := hc
    · rw [hc]
      exact ⟨ha,ht⟩
    · rw [hc]
      refine ⟨?_,ht⟩
      simp only [World.setAlarm,Function.update_of_ne hi]
      exact ha

lemma readAttributes_sign {a : Attributes} (ht : signMismatch (w.trig (.alarm id)).testType al.delta = false)
    (hread : readAttributes mask values ⟨(w.trig (.alarm id)).pSync.getD 0,w.trig (.alarm id),al.delta,none⟩ = some a)
    (hm : ¬((mask.testBit caDelta ∨ mask.testBit caTestType) ∧ signMismatch a.trigger.testType a.delta)) :
    signMismatch a.trigger.testType a.delta = false := by
  by_cases hb : mask.testBit caDelta = true ∨ mask.testBit caTestType = true
  · simpa using fun hs => hm ⟨hb,hs⟩
  · obtain ⟨hd,hy⟩ := not_or.1 hb
    have h1 := readAttributes_keeps (fun a => a.trigger.testType) hread (fun _ _ => rfl) (fun _ _ => rfl) (fun _ _ => rfl)
      (fun h => absurd h hy) (fun _ _ _ => rfl) fun _ _ => rfl
    have h2 := readAttributes_keeps (fun a => a.delta) hread (fun _ _ => rfl) (fun _ _ => rfl) (fun _ _ => rfl)
      (fun _ _ _ => rfl) (fun h => absurd h hd) fun _ _ => rfl
    simp only at h1 h2
    rw [h1,h2,ht]

lemma changeAttributes_tuned {d : Option XID} (hl : Linked d w) (hal : w.alarms id = some al)
    (ht : Tuned al (w.trig (.alarm id)))
    (h : (syncChangeAlarmAttributes w client id al mask values alloc now).1 = .success ∨
      HarmlessChange w client id al mask values alloc now) (al' : SyncAlarm)
    (hal' : (syncChangeAlarmAttributes w client id al mask values alloc now).2.alarms id = some al') :
    Tuned al' ((syncChangeAlarmAttributes w client id al mask values alloc now).2.trig (.alarm id)) := by
  obtain ⟨status,w',-,hw,hr⟩ | ⟨a,al₁,r,hread,hsel,hm,hr,hc⟩ :=
    syncChangeAlarmAttributes_cases w client id al mask values alloc now
  · rw [hr] at hal' ⊢
    obtain rfl | ⟨al₁,hd,rfl⟩ := hw
    · rw [hal,Option.some_inj] at hal'
      rwa [← hal']
    · simp only [World.setAlarm,Function.update_self,Option.some_inj] at hal'
      rw [← hal']
      exact ⟨ht.check,by rw [hd]; exact ht.sign⟩
  have hsign := readAttributes_sign ht.sign hread hm
  have hcheck : a.trigger.checkTrigger = (w.trig (.alarm id)).checkTrigger :=
    readAttributes_keeps (fun a => a.trigger.checkTrigger) hread (fun _ _ => rfl) (fun _ _ => rfl) (fun _ _ => rfl)
      (fun _ _ _ => rfl) (fun _ _ _ => rfl) fun _ _ => rfl
  have hf := syncInitTrigger_onlyTrig (storeAttributes w id al₁ a) (.alarm id) a.counter .counter (mask%2^(caTestType+1)) now
  obtain ⟨hs,hc⟩ | ⟨hs,hc⟩ := hc
  · -- A failure: the test-type must be the one the function was installed for.
    have hsame : a.trigger.testType = (w.trig (.alarm id)).testType := by
      by_contra hne
      obtain h | h := h
      · rw [hc] at h
        exact hs h
      · have hok := h a hread (by rw [hsel]) hm hne
        apply hs
        rw [← hr]
        refine InitOk.success (a := a) ?_ (storeAttributes_trig w id al₁ a)
        rw [storeAttributes_trig,readAttributes_pSync hread]
        exact ⟨hok.counter,hok.valueType,hok.value,hok.testType⟩
    rw [hc,← hr] at hal' ⊢
    obtain ⟨status,pSync,v,-,hfail⟩ | ⟨pSync,v,c,-,-,-,hdone⟩ :=
      syncInitTrigger_cases (storeAttributes w id al₁ a) (.alarm id) a.counter .counter (mask%2^(caTestType+1)) now
    · rw [hf.alarms] at hal'
      simp only [storeAttributes,World.setTrig,World.setAlarm,Function.update_self,Option.some_inj] at hal'
      rw [hfail,trig_setTrig_self,storeAttributes_trig,← hal']
      constructor
      · simp only
        rw [hsame,hcheck]
        exact ht.check
      · exact hsign
    · rw [← hr,hdone] at hs
      exact absurd rfl hs
  · rw [← hr] at hs
    obtain ⟨pSync,v,c,hp,hcheck',-,htr⟩ := syncInitTrigger_done hs
    rw [hc,← hr] at hal' ⊢
    simp only [World.setAlarm,Function.update_self,Option.some_inj] at hal'
    have htr' : (((syncInitTrigger (storeAttributes w id al₁ a) (.alarm id) a.counter .counter (mask%2^(caTestType+1))
        now).2.setAlarm id { al₁ with delta := a.delta, state := .active }).trig (.alarm id)) = _ := htr
    rw [htr',storeAttributes_trig,← hal']
    refine ⟨?_,hsign⟩
    simp only
    rw [storeAttributes_trig,initCheck_eq,testBit_allTrigger (by decide)] at hcheck'
    split_ifs at hcheck' with hb hk
    · -- The object is a counter, not a fence.
      cases pSync with
      | none => cases hk
      | some x =>
        have hx : ∃ b, w.kind x = some (.counter,b) := by
          cases hb0 : (mask%2^(caTestType+1)).testBit caCounter with
          | true => exact (initTarget_lookup hp rfl hb0).2
          | false =>
            have hsame := initTarget_same hp hb0
            rw [storeAttributes_trig,readAttributes_pSync hread] at hsame
            exact hl.attached.alarms id x (by rw [hal]; exact Option.some_ne_none _) hsame.symm
        obtain ⟨b,hb'⟩ := hx
        have hk' : (storeAttributes w id al₁ a).kind x = some (.counter,b) := hb'
        rw [Option.bind_some,hk'] at hk
        cases hk
    · exact hcheck'
    · have hy := readAttributes_keeps (fun a => a.trigger.testType) hread (fun _ _ => rfl) (fun _ _ => rfl) (fun _ _ => rfl)
        (fun h => absurd h hb) (fun _ _ _ => rfl) fun _ _ => rfl
      simp only at hy
      rw [hy,ht.check,← hcheck]
      exact hcheck'

lemma defaultAlarm_tuned (client : ℕ) : Tuned (defaultAlarm client) defaultTrigger := by
  have hs : signMismatch positiveComparison 1 = false := by decide
  exact ⟨rfl,hs⟩

variable {w' : World} {fuel : ℕ} {status : Status}

lemma AllTuned.changeAttributes {d : Option XID} (h : AllTuned w) (hl : Linked d w) (hal : w.alarms id = some al)
    (hc : (syncChangeAlarmAttributes w client id al mask values alloc now).1 = .success ∨
      HarmlessChange w client id al mask values alloc now) :
    AllTuned (syncChangeAlarmAttributes w client id al mask values alloc now).2 := by
  intro i b hb
  by_cases hi : i = id
  · subst hi
    exact changeAttributes_tuned hl hal (h i al hal) hc b hb
  · obtain ⟨h1,h2⟩ := changeAttributes_others w client id al mask values alloc now hi
    rw [h1] at hb
    rw [h2]
    exact h i b hb

lemma AllTuned.bornAlarm (h : AllTuned w) (client : ℕ) (id : XID) : AllTuned (bornAlarm w client id) := by
  intro i b hb
  by_cases hi : i = id
  · subst hi
    simp only [Sync.bornAlarm,World.setAlarm,Function.update_self,Option.some_inj] at hb
    rw [← hb]
    have ht : (Sync.bornAlarm w client i).trig (.alarm i) = defaultTrigger := trig_setTrig_self _ _ _
    rw [ht]
    exact defaultAlarm_tuned client
  · simp only [Sync.bornAlarm,World.setAlarm,World.setTrig,Function.update_of_ne hi] at hb
    have ht : (Sync.bornAlarm w client id).trig (.alarm i) = w.trig (.alarm i) := trig_setTrig_of_ne _ _ (by simpa using hi)
    rw [ht]
    exact h i b hb

lemma bornAlarm_alarms (w : World) (client : ℕ) (id : XID) : (bornAlarm w client id).alarms id = some (defaultAlarm client) := by
  simp only [bornAlarm,World.setAlarm,Function.update_self]

lemma AllTuned.request {req : Req} (h : AllTuned w) (hl : Linked none w) (hok : Harmless w req)
    (hs : start fuel w req = some (status,w')) : AllTuned w' := by
  cases start_cases hs with
  | same => exact h
  | newObject x data hn => exact h
  | change x value =>
    refine KeepsAlarms.tuned ?_ h
    unfold syncChangeCounter
    split
    · exact .ofEq rfl fun _ => rfl
    · exact .ofEq rfl fun _ => rfl
  | free x _ =>
    refine KeepsAlarms.tuned ?_ h
    unfold freeSync
    split
    · exact .ofEq rfl fun _ => rfl
    · exact .ofEq rfl fun _ => rfl
  | @createAlarm client id mask values alloc now _ _ hc =>
    obtain rfl | ⟨hn,-,r,hr,hw⟩ := procSyncCreateAlarm_cases hc
    · exact h
    have hid : w.alarms id = none := by
      simp only [World.isNew,Bool.and_eq_true,decide_eq_true_eq] at hn
      exact hn.1.2
    have hb := h.bornAlarm client id
    have hlb := hl.bornAlarm client hid
    obtain ⟨-,rfl⟩ | ⟨hsucc,-,rfl⟩ | ⟨hsucc,-,hw⟩ := hw
    · intro i b hib
      by_cases hi : i = id
      · subst hi
        simp only [Function.update_self] at hib
        cases hib
      · simp only [Function.update_of_ne hi,← hr] at hib ⊢
        obtain ⟨h1,h2⟩ := changeAttributes_others (Sync.bornAlarm w client id) client id (defaultAlarm client) mask values alloc
          now hi
        rw [h1] at hib
        rw [h2]
        exact hb i b hib
    · rw [← hr] at hsucc ⊢
      exact (KeepsAlarms.freeAlarm _ id).tuned (hb.changeAttributes hlb (bornAlarm_alarms w client id) (.inl hsucc))
    · rw [← hr] at hsucc hw
      have ht := hb.changeAttributes hlb (bornAlarm_alarms w client id) (.inl hsucc)
      obtain rfl | ⟨al,hal,rfl⟩ | ⟨hf,-⟩ := hw
      · exact ht
      · exact (KeepsAlarms.setAlarm hal { al with state := .inactive } rfl).tuned ht
      · exact (KeepsAlarms.alarmFired hf).tuned ht
  | changeAlarm hc =>
    obtain rfl | ⟨al,r,hal,hlen,hr,hw⟩ := procSyncChangeAlarm_cases hc
    · exact h
    have ht := h.changeAttributes hl hal (.inr (hok al hal hlen))
    rw [hr] at ht
    obtain ⟨-,rfl⟩ | ⟨-,-,rfl | ⟨hf,-⟩⟩ := hw
    · exact ht
    · exact ht
    · exact (KeepsAlarms.alarmFired hf).tuned ht
  | destroyAlarm id => exact (KeepsAlarms.freeAlarm w id).tuned h
  | await resType client conds _ => exact (KeepsAlarms.procSyncAwait resType w client conds).tuned h
  | triggerFence x b d l ho => exact h
  | resetFence x b d l ho => exact h

end Harmless

section Terminate

variable {w : World} {fuel : ℕ}

lemma AllTuned.alarmFired (h : AllTuned w) (hf : 2^64 < fuel) (id : XID) : (syncAlarmTriggerFired fuel w id).isSome :=
  syncAlarmTriggerFired_isSome (fun al hal => h id al hal) hf

lemma AllTuned.triggerFired (h : AllTuned w) (hf : 2^64 < fuel) (t : TrigRef) : (triggerFired fuel w t).isSome := by
  cases t with
  | alarm id => exact h.alarmFired hf id
  | await a i => rfl

lemma AllTuned.createAlarm (h : AllTuned w) (hl : Linked none w) (hf : 2^64 < fuel) (client : ℕ) (id : XID) (mask : ℕ)
    (values : List UInt32) (alloc : Bool) (now : Int64) :
    (procSyncCreateAlarm fuel w client id mask values alloc now).isSome := by
  unfold procSyncCreateAlarm
  split_ifs with hn hlen
  · rfl
  · rfl
  · have hid : w.alarms id = none := by
      simp only [World.isNew,Bool.not_eq_false,Bool.and_eq_true,decide_eq_true_eq] at hn
      exact hn.1.2
    have ht : (syncChangeAlarmAttributes (Sync.bornAlarm w client id) client id (defaultAlarm client) mask values alloc now).1 =
        .success → AllTuned (syncChangeAlarmAttributes (Sync.bornAlarm w client id) client id (defaultAlarm client) mask values
          alloc now).2 := fun hs =>
      (h.bornAlarm client id).changeAttributes (hl.bornAlarm client hid) (bornAlarm_alarms w client id) (.inl hs)
    simp only [syncInitTrigger_default]
    unfold Sync.bornAlarm at ht
    generalize syncChangeAlarmAttributes ((w.setTrig (.alarm id) defaultTrigger).setAlarm id (defaultAlarm client)) client id
      (defaultAlarm client) mask values alloc now = r at ht ⊢
    by_cases hr : r.1 = .success
    · rw [if_neg (not_not.2 hr)]
      cases hc : counterPtr r.2 (r.2.trig (.alarm id)).pSync with
      | null =>
        simp only
        split <;> rfl
      | other => rfl
      | counter value =>
        simp only
        split_ifs
        · obtain ⟨w1,hw1⟩ := Option.isSome_iff_exists.1 ((ht hr).alarmFired hf id)
          rw [hw1]
          rfl
        · rfl
    · rw [if_pos hr]
      rfl

lemma AllTuned.changeAlarm (h : AllTuned w) (hl : Linked none w) (hf : 2^64 < fuel) (client : ℕ) (id : XID) (mask : ℕ)
    (values : List UInt32) (alloc : Bool) (now : Int64) :
    (procSyncChangeAlarm fuel w client id mask values alloc now).isSome := by
  unfold procSyncChangeAlarm
  cases hal : w.alarms id with
  | none => rfl
  | some al =>
    simp only
    split_ifs with hlen hs hfire
    · rfl
    · rfl
    · have ht := h.changeAttributes hl hal (.inl (not_not.1 hs))
      obtain ⟨w1,hw1⟩ := Option.isSome_iff_exists.1 (ht.alarmFired hf id)
      rw [hw1]
      rfl
    · rfl

lemma AllTuned.start (h : AllTuned w) (hl : Linked none w) (hf : 2^64 < fuel) (req : Req) : (start fuel w req).isSome := by
  cases req with
  | createAlarm client id mask values alloc now => exact h.createAlarm hl hf client id mask values alloc now
  | changeAlarm client id mask values alloc now => exact h.changeAlarm hl hf client id mask values alloc now
  | _ =>
    simp only [Sync.start]
    repeat (first | rfl | split)

lemma AllTuned.next (h : AllTuned w) (hi : Inv w) (hp : w.phase ≠ .idle) (hf : 2^64 < fuel) : (next fuel w).isSome := by
  have hclean := hi.linked.attached.clean
  unfold Sync.next
  cases hph : w.phase with
  | idle => exact absurd hph hp
  | change x oldval ptl =>
    cases ptl with
    | none => rfl
    | some p =>
      cases p with
      | none =>
        have hd := hclean x (hi.atNode x oldval none hph)
        rw [hph] at hd
        cases hd
      | some t =>
        obtain ⟨w1,hw1⟩ := Option.isSome_iff_exists.1 (h.triggerFired hf t)
        simp only [changeNode,hw1]
        split_ifs <;> rfl
  | trigger x =>
    simp only
    cases hft : firstTrue w (w.triglist x) with
    | none => rfl
    | some p =>
      cases p with
      | none =>
        have hd := hclean x (List.mem_of_find?_eq_some hft)
        rw [hph] at hd
        cases hd
      | some t => exact h.triggerFired hf t
  | destroy x =>
    simp only
    cases w.triglist x with
    | nil => rfl
    | cons p l =>
      cases p with
      | none => rfl
      | some t => rfl

lemma Reach.tuned (h : Reach Harmless w) : AllTuned w := by
  obtain ⟨w₀,hf,hs⟩ := h
  induction hs with
  | refl =>
    intro id al hal
    rw [hf.alarms] at hal
    cases hal
  | tail hr hs ih =>
    have hinv : Inv _ := (hf.inv.steps hr).1
    cases hs with
    | request hi hok hs => exact ih.request (hinv.idle hi) hok hs
    | callback hn => exact (KeepsAlarms.next hn).tuned ih

/-- **Updates of alarms end.** In every run whose requests are harmless, the sign of `delta` agrees with the installed
function and a comparison with `delta` 0 is known as one. So `SyncAlarmTriggerFired` returns on every alarm, every
request returns or gets to its first callback, and every callback returns; `2^64+1` rounds of the loop are enough. -/
theorem alarm_updates_terminate {w : World} (h : Reach Harmless w) :
    (∀ id al, w.alarms id = some al → Agrees al (w.trig (.alarm id))) ∧
    ∀ fuel, 2^64 < fuel → (∀ id, (syncAlarmTriggerFired fuel w id).isSome) ∧
      (w.phase = .idle → ∀ req, (start fuel w req).isSome) ∧ (w.phase ≠ .idle → (next fuel w).isSome) := by
  have ht := h.tuned
  have hi := h.inv
  refine ⟨fun id al hal => (ht id al hal).agrees,?_⟩
  intro fuel hf
  exact ⟨ht.alarmFired hf,fun hidle req => ht.start (hi.idle hidle) hf req,fun hp => ht.next hi hp hf⟩

/-- `CreateAlarm` for the counter, value 5, `PositiveComparison` and `delta` 0. -/
def createComparison : Req := .createAlarm 0 2 29 [1,0,5,2,0,0] true 0

def oneAlarm : World := ((start 0 oneCounter createComparison).get (by decide)).2

lemma reach_oneAlarm (ok : World → Req → Prop) (h1 : ok emptyWorld (.createCounter 1 0)) (h2 : ok oneCounter createComparison) :
    Reach ok oneAlarm := by
  have hs : start 0 emptyWorld (.createCounter 1 0) = some (.success,oneCounter) := rfl
  have ha : start 0 oneCounter createComparison = some _ := (Option.some_get (by decide)).symm
  exact ((reach_emptyWorld ok).request rfl h1 hs).request rfl h2 ha

theorem alarm_updates_terminate_oneAlarm : Reach Harmless oneAlarm ∧ oneAlarm.triglist 1 = [some (.alarm 2)] ∧
    Agrees ⟨0,0,true,.active,[]⟩ (oneAlarm.trig (.alarm 2)) ∧ (syncAlarmTriggerFired (2^64+1) oneAlarm 2).isSome := by
  have h := reach_oneAlarm Harmless trivial trivial
  have ha : oneAlarm.alarms 2 = some ⟨0,0,true,.active,[]⟩ := by decide
  obtain ⟨hagree,hterm⟩ := alarm_updates_terminate h
  exact ⟨h,by decide,hagree 2 _ ha,(hterm (2^64+1) (Nat.lt_succ_self _)).1 2⟩

/-- A `ChangeAlarm` with the unknown test-type 99 fails with `BadValue`, and leaves the 99 behind. -/
def badTestType : Req := .changeAlarm 0 2 8 [99] true 0

def untunedAlarm : World := ((start 0 oneAlarm badTestType).get (by decide)).2

/-- `SetCounter` to 10, up to the first node of the trigger list. -/
def stuckWorld : World := ((start 0 untunedAlarm (.setCounter 1 10)).get (by decide)).2

/-- Then no number of rounds is enough. -/
theorem alarm_update_stuck : Reach (fun _ _ => True) stuckWorld ∧
    (start 0 oneAlarm badTestType).map Prod.fst = some .badValue ∧
    stuckWorld.phase = .change 1 0 (some (some (.alarm 2))) ∧
    ∀ fuel, syncAlarmTriggerFired fuel stuckWorld 2 = none ∧ next fuel stuckWorld = none := by
  have hu : start 0 oneAlarm badTestType = some _ := (Option.some_get (by decide)).symm
  have hw : start 0 untunedAlarm (.setCounter 1 10) = some _ := (Option.some_get (by decide)).symm
  have hreach : Reach (fun _ _ => True) stuckWorld :=
    ((reach_oneAlarm _ trivial trivial).request (by decide) trivial hu).request (by decide) trivial hw
  have hph : stuckWorld.phase = .change 1 0 (some (some (.alarm 2))) := by decide
  refine ⟨hreach,by decide,hph,?_⟩
  intro fuel
  have ha : stuckWorld.alarms 2 = some ⟨0,0,true,.active,[]⟩ := by decide
  have ht : stuckWorld.trig (.alarm 2) = ⟨some 1,5,absolute,99,5,.positiveComparison⟩ := by decide
  have hp : counterPtr stuckWorld (some 1) = .counter 10 := rfl
  have hloop : alarmLoop (fun v => check stuckWorld ⟨some 1,5,absolute,99,v,.positiveComparison⟩ 10) 0 fuel 5 = none :=
    alarmLoop_zero (by decide) fuel
  have hfired : syncAlarmTriggerFired fuel stuckWorld 2 = none := by
    unfold syncAlarmTriggerFired
    simp only [ha,ht,hp]
    rw [if_neg (by decide),if_neg (by decide),hloop]
    rfl
  refine ⟨hfired,?_⟩
  have hc : check stuckWorld (stuckWorld.trig (.alarm 2)) 0 = true := by decide
  unfold next
  simp only [hph,changeNode,if_pos hc,triggerFired,hfired]
  rfl

end Terminate

end Xlibre.Sync
