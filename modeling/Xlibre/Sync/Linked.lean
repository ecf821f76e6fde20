import Xlibre.Sync.Wired

/-! The invariant of trigger lists, alarms and awaits, and the functions that keep it. -/
namespace Xlibre.Sync

/-- The triggers in use: those of alarms, and those of awaits that count as wait conditions. -/
def Live (w : World) : TrigRef → Prop
  | .alarm id => w.alarms id ≠ none
  | .await a i => ∃ h, w.awaits a = some h ∧ i < h.numWaitconditions

/-- What goes with the wiring when `d` is the object being destroyed: only its list has nodes without trigger,
alarms are on counters, and wait conditions have an object. -/
structure Attached (d : Option XID) (w : World) : Prop where
  clean : ∀ x, none ∈ w.triglist x → d = some x
  kinds : ∀ x r b, w.kind x = some (r,b) → (b = true ↔ d = some x)
  alarms : ∀ id x, w.alarms id ≠ none → (w.trig (.alarm id)).pSync = some x → ∃ b, w.kind x = some (.counter,b)
  conditions : ∀ a i, Live w (.await a i) → (w.trig (.await a i)).pSync ≠ none

/-- The numbers of awaits: each is used once, and unblocked at most once. -/
structure Counted (w : World) : Prop where
  below : ∀ a, w.awaits a ≠ none → a < w.nextAwait
  gone : ∀ a ∈ w.attended, a < w.nextAwait ∧ w.awaits a = none
  once : w.attended.Nodup

structure Linked (d : Option XID) (w : World) : Prop where
  wired : Wired (Live w) w
  attached : Attached d w
  counted : Counted w

structure SameLinks (w w' : World) : Prop where
  triglist : ∀ x, w'.triglist x = w.triglist x
  kind : w'.kind = w.kind
  pSync : ∀ t, (w'.trig t).pSync = (w.trig t).pSync
  alarms : ∀ id, w'.alarms id = none ↔ w.alarms id = none
  awaits : w'.awaits = w.awaits
  nextAwait : w'.nextAwait = w.nextAwait
  attended : w'.attended = w.attended

namespace SameLinks

variable {w w' w'' : World}

lemma refl (w : World) : SameLinks w w := ⟨fun _ => rfl,rfl,fun _ => rfl,fun _ => Iff.rfl,rfl,rfl,rfl⟩

lemma trans (h : SameLinks w w') (h' : SameLinks w' w'') : SameLinks w w'' :=
  ⟨fun x => (h'.triglist x).trans (h.triglist x),h'.kind.trans h.kind,fun t => (h'.pSync t).trans (h.pSync t),
    fun id => (h'.alarms id).trans (h.alarms id),h'.awaits.trans h.awaits,h'.nextAwait.trans h.nextAwait,
    h'.attended.trans h.attended⟩

lemma ofObjs (h : OnlyObjs w w') (hl : ∀ x, w'.triglist x = w.triglist x) : SameLinks w w' :=
  ⟨hl,h.kind,fun t => by rw [h.trig],fun id => by rw [h.alarms],h.awaits,h.nextAwait,h.attended⟩

lemma brackets (w : World) (x : XID) : SameLinks w (syncComputeBracketValues w x) :=
  ofObjs (OnlyObjs.brackets w x) (triglist_brackets w x)

lemma setTrig (w : World) {t : TrigRef} {tr : SyncTrigger} (h : tr.pSync = (w.trig t).pSync) : SameLinks w (w.setTrig t tr) where
  triglist _ := rfl
  kind := rfl
  pSync s := by
    by_cases hs : s = t
    · subst hs
      rw [trig_setTrig_self,h]
    · rw [trig_setTrig_of_ne w tr hs]
  alarms _ := Iff.rfl
  awaits := rfl
  nextAwait := rfl
  attended := rfl

lemma setAlarm (w : World) {id : XID} (h : w.alarms id ≠ none) (al : SyncAlarm) : SameLinks w (w.setAlarm id al) where
  triglist _ := rfl
  kind := rfl
  pSync _ := rfl
  alarms i := by
    by_cases hi : i = id
    · subst hi
      simp only [World.setAlarm,Function.update_self,reduceCtorEq,h]
    · simp only [World.setAlarm,Function.update_of_ne hi]
  awaits := rfl
  nextAwait := rfl
  attended := rfl

lemma live (h : SameLinks w w') (t : TrigRef) : Live w' t ↔ Live w t := by
  cases t with
  | alarm id => exact not_congr (h.alarms id)
  | await a i => rw [Live,Live,h.awaits]

lemma linked (h : SameLinks w w') {d : Option XID} (hw : Linked d w) : Linked d w' where
  wired := by
    apply hw.wired.congr
    · intro x
      rw [World.onList,h.triglist]
      rfl
    · intro t x
      rw [h.live,h.pSync]
  attached :=
    { clean := fun x hx => hw.attached.clean x (by rwa [h.triglist] at hx)
      kinds := fun x r b hx => hw.attached.kinds x r b (by rwa [h.kind] at hx)
      alarms := by
        intro id x ha hp
        rw [h.pSync] at hp
        rw [h.kind]
        exact hw.attached.alarms id x (fun hn => ha ((h.alarms id).2 hn)) hp
      conditions := by
        intro a i hl
        rw [h.pSync]
        exact hw.attached.conditions a i ((h.live _).1 hl) }
  counted := by
    obtain ⟨hb,hg,ho⟩ := hw.counted
    constructor
    · rwa [h.awaits,h.nextAwait]
    · rwa [h.awaits,h.nextAwait,h.attended]
    · rwa [h.attended]

end SameLinks

section Alarm

lemma syncAlarmTriggerFired_cases {fuel : ℕ} {w w' : World} {id : XID} (h : syncAlarmTriggerFired fuel w id = some w') :
    w' = w ∨ (∃ al, w.alarms id = some al ∧ w' = w.setAlarm id { al with state := .inactive }) ∨
      ∃ al x value v, w.alarms id = some al ∧ (w.trig (.alarm id)).pSync = some x ∧ counterPtr w (some x) = .counter value ∧
        alarmLoop (fun u => check w { w.trig (.alarm id) with testValue := u } value) al.delta fuel
          (w.trig (.alarm id)).testValue = some (v,false) ∧
        w' = w.setTrig (.alarm id) { w.trig (.alarm id) with testValue := v } := by
  unfold syncAlarmTriggerFired at h
  cases hal : w.alarms id with
  | none =>
    simp only [hal,Option.some_inj] at h
    exact .inl h.symm
  | some al =>
    simp only [hal] at h
    cases hc : counterPtr w (w.trig (.alarm id)).pSync with
    | other =>
      simp only [hc,Option.some_inj] at h
      exact .inl h.symm
    | null =>
      simp only [hc] at h
      split_ifs at h
      · cases h
        exact .inr (.inl ⟨al,rfl,rfl⟩)
      · cases h
        exact .inl rfl
    | counter value =>
      simp only [hc] at h
      split_ifs at h
      · cases h
        exact .inl rfl
      · cases h
        exact .inr (.inl ⟨al,rfl,rfl⟩)
      · rw [Option.bind_eq_bind,Option.bind_eq_some_iff] at h
        obtain ⟨r,hloop,hr⟩ := h
        split_ifs at hr with ho
        · cases hr
          exact .inr (.inl ⟨al,rfl,rfl⟩)
        · cases hr
          obtain ⟨x,hx⟩ : ∃ x, (w.trig (.alarm id)).pSync = some x := by
            cases hp : (w.trig (.alarm id)).pSync with
            | none =>
              rw [hp] at hc
              cases hc
            | some x => exact ⟨x,rfl⟩
          refine .inr (.inr ⟨al,x,value,r.1,rfl,hx,by rw [← hx,hc],?_,rfl⟩)
          rw [hloop,Option.some_inj]
          exact Prod.ext rfl (by simpa using ho)

lemma syncAlarmTriggerFired_sameLinks {fuel : ℕ} {w w' : World} {id : XID} (h : syncAlarmTriggerFired fuel w id = some w') :
    SameLinks w w' ∧ w'.phase = w.phase := by
  obtain rfl | ⟨al,hal,rfl⟩ | ⟨al,x,value,v,-,-,-,-,rfl⟩ := syncAlarmTriggerFired_cases h
  · exact ⟨SameLinks.refl _,rfl⟩
  · exact ⟨SameLinks.setAlarm w (by rw [hal]; exact Option.some_ne_none _) _,rfl⟩
  · exact ⟨SameLinks.setTrig w rfl,rfl⟩

lemma readAttribute_keeps {β : Type} (f : Attributes → β) {mask bit words : ℕ} {store : Attributes → List UInt32 → Attributes}
    (h : mask.testBit bit = true → ∀ a v, f (store a v) = f a) (s : Attributes × List UInt32) :
    f (readAttribute mask bit words store s).1 = f s.1 := by
  rw [readAttribute]
  split_ifs with hb
  · exact h hb s.1 s.2
  · rfl

lemma readAttributes_keeps {β : Type} (f : Attributes → β) {mask : ℕ} {values : List UInt32} {a a' : Attributes}
    (h : readAttributes mask values a = some a') (hc : ∀ a n, f { a with counter := n } = f a)
    (ht : ∀ a n, f { a with trigger.valueType := n } = f a) (hv : ∀ a n, f { a with trigger.waitValue := n } = f a)
    (hy : mask.testBit caTestType = true → ∀ a n, f { a with trigger.testType := n } = f a)
    (hd : mask.testBit caDelta = true → ∀ a n, f { a with delta := n } = f a)
    (he : ∀ a b, f { a with selectEvents := b } = f a) : f a' = f a := by
  unfold readAttributes at h
  simp only [Option.ite_none_left_eq_some,Option.some_inj] at h
  obtain ⟨-,-,rfl⟩ := h
  rw [readAttribute_keeps f fun _ a v => he a _,readAttribute_keeps f fun hb a v => hd hb a _,
    readAttribute_keeps f fun hb a v => hy hb a _,readAttribute_keeps f fun _ a v => hv a _,
    readAttribute_keeps f fun _ a v => ht a _,readAttribute_keeps f fun _ a v => hc a _]

lemma readAttributes_pSync {mask : ℕ} {values : List UInt32} {a a' : Attributes} (h : readAttributes mask values a = some a') :
    a'.trigger.pSync = a.trigger.pSync :=
  readAttributes_keeps (fun a => a.trigger.pSync) h (fun _ _ => rfl) (fun _ _ => rfl) (fun _ _ => rfl) (fun _ _ _ => rfl)
    (fun _ _ _ => rfl) fun _ _ => rfl

lemma syncEventSelectForAlarm_keeps (al : SyncAlarm) (client : ℕ) (wantevents alloc : Bool) :
    (syncEventSelectForAlarm al client wantevents alloc).2.delta = al.delta := by
  rw [syncEventSelectForAlarm]
  split_ifs <;> rfl

lemma changeSelection_keeps (al : SyncAlarm) (client : ℕ) (alloc : Bool) (want : Option Bool) :
    (changeSelection al client alloc want).2.delta = al.delta := by
  cases want with
  | none => rfl
  | some wantevents => exact syncEventSelectForAlarm_keeps al client wantevents alloc

/-- The three ways through `SyncChangeAlarmAttributes`: nothing of the trigger is stored, `SyncInitTrigger` fails after
everything is stored, or it succeeds. -/
lemma syncChangeAlarmAttributes_cases (w : World) (client : ℕ) (id : XID) (al : SyncAlarm) (mask : ℕ) (values : List UInt32)
    (alloc : Bool) (now : Int64) :
    (∃ status w', status ≠ Status.success ∧ (w' = w ∨ ∃ al', al'.delta = al.delta ∧ w' = w.setAlarm id al') ∧
      syncChangeAlarmAttributes w client id al mask values alloc now = (status,w')) ∨
    ∃ a al' r, readAttributes mask values ⟨(w.trig (.alarm id)).pSync.getD 0,w.trig (.alarm id),al.delta,none⟩ = some a ∧
      changeSelection al client alloc a.selectEvents = (.success,al') ∧
      ¬((mask.testBit caDelta ∨ mask.testBit caTestType) ∧ signMismatch a.trigger.testType a.delta) ∧
      syncInitTrigger (storeAttributes w id al' a) (.alarm id) a.counter .counter (mask%2^(caTestType+1)) now = r ∧
      ((r.1 ≠ .success ∧ syncChangeAlarmAttributes w client id al mask values alloc now = r) ∨
        (r.1 = .success ∧ syncChangeAlarmAttributes w client id al mask values alloc now =
          (.success,r.2.setAlarm id { al' with delta := a.delta, state := .active }))) := by
  unfold syncChangeAlarmAttributes
  cases hread : readAttributes mask values ⟨(w.trig (.alarm id)).pSync.getD 0,w.trig (.alarm id),al.delta,none⟩ with
  | none =>
    exact .inl ⟨.badValue,w,Status.noConfusion,.inl rfl,by simp only [hread]⟩
  | some a =>
    simp only [hread]
    have hdelta := changeSelection_keeps al client alloc a.selectEvents
    generalize hsel : changeSelection al client alloc a.selectEvents = sel at hdelta ⊢
    split_ifs with h1 h2 h3
    · exact .inl ⟨sel.1,_,h1,.inr ⟨sel.2,hdelta,rfl⟩,rfl⟩
    · exact .inl ⟨_,_,Status.noConfusion,.inr ⟨sel.2,hdelta,rfl⟩,rfl⟩
    · exact .inr ⟨a,sel.2,_,rfl,hsel.trans (Prod.ext (not_not.1 h1) rfl),h2,rfl,.inl ⟨h3,rfl⟩⟩
    · exact .inr ⟨a,sel.2,_,rfl,hsel.trans (Prod.ext (not_not.1 h1) rfl),h2,rfl,.inr ⟨not_not.1 h3,rfl⟩⟩

end Alarm

section Init

variable {w : World} {t : TrigRef} {d : Option XID}

lemma none_mem_delete {x : XID} (h : none ∈ (syncDeleteTriggerFromSyncObject w t).triglist x) : none ∈ w.triglist x := by
  rw [triglist_delete] at h
  split_ifs at h
  · exact List.mem_of_mem_erase h
  · exact h

lemma mem_setTriglist {x y : XID} {l : List (Option TrigRef)} {p : Option TrigRef}
    (h : p ∈ (w.setTriglist x l).triglist y) : (y = x ∧ p ∈ l) ∨ p ∈ w.triglist y := by
  rw [World.setTriglist] at h
  split at h
  · exact .inr h
  · rw [triglist_setObj] at h
    split_ifs at h with hy
    · exact .inl ⟨hy,h⟩
    · exact .inr h

lemma none_mem_add {x : XID} (h : none ∈ (syncAddTriggerToSyncObject w t).triglist x) : none ∈ w.triglist x := by
  rw [syncAddTriggerToSyncObject] at h
  split at h
  · exact h
  · split_ifs at h
    · exact h
    · rw [triglist_brackets] at h
      obtain ⟨rfl,h⟩ | h := mem_setTriglist h
      · simpa using h
      · exact h

lemma none_mem_register {pSync : Option XID} {changes : ℕ} {x : XID}
    (h : none ∈ (registerTrigger w t pSync changes).triglist x) : none ∈ w.triglist x := by
  unfold registerTrigger at h
  split_ifs at h
  · have h := none_mem_add h
    rw [triglist_setTrig] at h
    exact none_mem_delete h
  · split at h
    · exact h
    · rwa [triglist_brackets] at h

lemma none_mem_init {syncObject : XID} {resType : ResType} {changes : ℕ} {now : Int64} {x : XID}
    (h : none ∈ (syncInitTrigger w t syncObject resType changes now).2.triglist x) : none ∈ w.triglist x := by
  obtain ⟨status,pSync,v,-,hr⟩ | ⟨pSync,v,c,-,-,-,hr⟩ := syncInitTrigger_cases w t syncObject resType changes now
  · rwa [hr,triglist_setTrig,triglist_query] at h
  · rw [hr] at h
    have h := none_mem_register h
    rwa [triglist_setTrig,triglist_query] at h

lemma Counted.congr {w' : World} (h : Counted w) (ha : w'.awaits = w.awaits) (hn : w'.nextAwait = w.nextAwait)
    (ht : w'.attended = w.attended) : Counted w' := by
  constructor
  · rw [ha,hn]
    exact h.below
  · rw [ha,hn,ht]
    exact h.gone
  · rw [ht]
    exact h.once

lemma OnlyTrig.live {w' : World} (h : OnlyTrig t w w') (s : TrigRef) : Live w' s ↔ Live w s := by
  cases s with
  | alarm id => rw [Live,Live,h.alarms]
  | await a i => rw [Live,Live,h.awaits]

lemma syncInitTrigger_object (w : World) (t : TrigRef) (syncObject : XID) (resType : ResType) (changes : ℕ) (now : Int64)
    {x : XID} (h : ((syncInitTrigger w t syncObject resType changes now).2.trig t).pSync = some x) :
    (w.trig t).pSync = some x ∨ ∃ b, w.kind x = some (resType,b) := by
  by_cases hs : (syncInitTrigger w t syncObject resType changes now).1 = .success
  · obtain ⟨pSync,v,c,hp,-,-,hr⟩ := syncInitTrigger_done hs
    rw [hr] at h
    cases hb : changes.testBit caCounter with
    | false => exact .inl ((initTarget_same hp hb).symm.trans h)
    | true => exact .inr (initTarget_lookup hp h hb).2
  · rw [(syncInitTrigger_failed hs).2] at h
    exact .inl h

lemma Linked.initAlarm (h : Linked d w) {id : XID} (hid : w.alarms id ≠ none) (syncObject : XID) (changes : ℕ) (now : Int64) :
    Linked d (syncInitTrigger w (.alarm id) syncObject .counter changes now).2 := by
  have hf := syncInitTrigger_onlyTrig w (.alarm id) syncObject .counter changes now
  refine ⟨?_,⟨?_,?_,?_,?_⟩,h.counted.congr hf.awaits hf.nextAwait hf.attended⟩
  · apply (h.wired.init (t := .alarm id) hid syncObject .counter changes now).congr (fun _ => rfl)
    intro s x
    rw [hf.live]
  · intro x hx
    exact h.attached.clean x (none_mem_init hx)
  · rw [hf.kind]
    exact h.attached.kinds
  · intro i x hi hp
    rw [hf.alarms] at hi
    rw [hf.kind]
    by_cases he : i = id
    · subst he
      obtain hp | hk := syncInitTrigger_object w _ syncObject .counter changes now hp
      · exact h.attached.alarms i x hi hp
      · exact hk
    · rw [hf.trig _ (by simpa using he)] at hp
      exact h.attached.alarms i x hi hp
  · intro a i hl
    rw [hf.live] at hl
    rw [hf.trig _ (by simp)]
    exact h.attached.conditions a i hl

lemma setAlarm_alarms_ne_none (w : World) (id : XID) (al : SyncAlarm) : (w.setAlarm id al).alarms id ≠ none := by
  simp only [World.setAlarm,Function.update_self,ne_eq,reduceCtorEq,not_false_eq_true]

lemma SameLinks.store {id : XID} (hid : w.alarms id ≠ none) (al : SyncAlarm) {a : Attributes}
    (ha : a.trigger.pSync = (w.trig (.alarm id)).pSync) : SameLinks w (storeAttributes w id al a) :=
  (SameLinks.setAlarm w hid _).trans (SameLinks.setTrig _ ha)

lemma Linked.changeAttributes (h : Linked d w) {id : XID} (hid : w.alarms id ≠ none) (client : ℕ) (al : SyncAlarm) (mask : ℕ)
    (values : List UInt32) (alloc : Bool) (now : Int64) :
    Linked d (syncChangeAlarmAttributes w client id al mask values alloc now).2 ∧
      (syncChangeAlarmAttributes w client id al mask values alloc now).2.alarms id ≠ none ∧
      (syncChangeAlarmAttributes w client id al mask values alloc now).2.phase = w.phase := by
  obtain ⟨status,w',-,hw,hr⟩ | ⟨a,al',r,hread,-,-,hr,hc⟩ :=
    syncChangeAlarmAttributes_cases w client id al mask values alloc now
  · rw [hr]
    obtain rfl | ⟨al',-,rfl⟩ := hw
    · exact ⟨h,hid,rfl⟩
    · exact ⟨(SameLinks.setAlarm w hid al').linked h,setAlarm_alarms_ne_none w id al',rfl⟩
  · have hs := SameLinks.store hid al' (readAttributes_pSync hread)
    have hid' : (storeAttributes w id al' a).alarms id ≠ none := setAlarm_alarms_ne_none w id _
    have hl := (hs.linked h).initAlarm hid' a.counter (mask%2^(caTestType+1)) now
    have hf := syncInitTrigger_onlyTrig (storeAttributes w id al' a) (.alarm id) a.counter .counter (mask%2^(caTestType+1)) now
    rw [hr] at hl hf
    rw [← hf.alarms] at hid'
    obtain ⟨-,hc⟩ | ⟨-,hc⟩ := hc
    · rw [hc]
      exact ⟨hl,hid',hf.phase⟩
    · rw [hc]
      exact ⟨(SameLinks.setAlarm r.2 hid' _).linked hl,setAlarm_alarms_ne_none r.2 id _,hf.phase⟩

lemma syncChangeAlarmAttributes_failed {client : ℕ} {id : XID} {al : SyncAlarm} {mask : ℕ} {values : List UInt32} {alloc : Bool}
    {now : Int64} (h : (syncChangeAlarmAttributes w client id al mask values alloc now).1 ≠ .success) :
    (∀ x, (syncChangeAlarmAttributes w client id al mask values alloc now).2.triglist x = w.triglist x) ∧
      ((syncChangeAlarmAttributes w client id al mask values alloc now).2.trig (.alarm id)).pSync =
        (w.trig (.alarm id)).pSync := by
  obtain ⟨status,w',-,hw,hr⟩ | ⟨a,al',r,hread,-,-,hr,hc⟩ :=
    syncChangeAlarmAttributes_cases w client id al mask values alloc now
  · rw [hr]
    obtain rfl | ⟨al',-,rfl⟩ := hw
    · exact ⟨fun _ => rfl,rfl⟩
    · exact ⟨fun _ => rfl,rfl⟩
  · obtain ⟨hs,hc⟩ | ⟨-,hc⟩ := hc
    · rw [hc]
      rw [← hr] at hs ⊢
      obtain ⟨hl,hp⟩ := syncInitTrigger_failed hs
      refine ⟨hl,hp.trans ?_⟩
      rw [storeAttributes,trig_setTrig_self]
      exact readAttributes_pSync hread
    · rw [hc] at h
      exact absurd rfl h

end Init

section CreateAlarm

variable {w : World} {d : Option XID} {id : XID}

lemma Linked.setAlarms (h : Linked d w) (id : XID) {w' : World} (hp : (w'.trig (.alarm id)).pSync = none)
    (ht : ∀ s, s ≠ .alarm id → w'.trig s = w.trig s) (ho : w'.objs = w.objs)
    (ha : ∀ i, i ≠ id → w'.alarms i = w.alarms i) (hi : w.alarms id = none ∨ (w.trig (.alarm id)).pSync = none)
    (hw : w'.awaits = w.awaits) (hn : w'.nextAwait = w.nextAwait) (hd : w'.attended = w.attended) : Linked d w' := by
  have hl : ∀ x, w'.triglist x = w.triglist x := fun x => by rw [World.triglist,ho]; rfl
  have hk : w'.kind = w.kind := by
    ext1 x
    rw [World.kind,ho]
    rfl
  have hlive : ∀ s, s ≠ .alarm id → (Live w' s ↔ Live w s) := by
    intro s hs
    cases s with
    | alarm i => rw [Live,Live,ha i (by simpa using hs)]
    | await a i => rw [Live,Live,hw]
  refine ⟨?_,⟨?_,?_,?_,?_⟩,h.counted.congr hw hn hd⟩
  · apply h.wired.congr
    · intro x
      rw [World.onList,hl]
      rfl
    · intro s x
      by_cases hs : s = .alarm id
      · subst hs
        rw [hp]
        obtain hi | hi := hi
        · simp only [reduceCtorEq,and_false,Live,hi,ne_eq,not_true_eq_false,false_and]
        · simp only [reduceCtorEq,and_false,hi]
      · rw [hlive s hs,ht s hs]
  · intro x hx
    rw [hl] at hx
    exact h.attached.clean x hx
  · rw [hk]
    exact h.attached.kinds
  · intro i x hi' hx
    by_cases he : i = id
    · subst he
      rw [hp] at hx
      cases hx
    · rw [ha i he] at hi'
      rw [ht _ (by simpa using he)] at hx
      rw [hk]
      exact h.attached.alarms i x hi' hx
  · intro a i hl
    rw [hlive _ (by simp)] at hl
    rw [ht _ (by simp)]
    exact h.attached.conditions a i hl

lemma syncInitTrigger_default (w : World) (t : TrigRef) (now : Int64) :
    syncInitTrigger (w.setTrig t defaultTrigger) t 0 .counter caAllTrigger now = (.success,w.setTrig t defaultTrigger) := by
  have hb : caAllTrigger.testBit caCounter = true ∧ caAllTrigger.testBit caTestType = true ∧
      caAllTrigger.testBit caValue = true := by decide
  unfold syncInitTrigger
  rw [initTarget,if_pos hb.1,if_pos rfl]
  simp only [queryValue_none,trig_setTrig_self,setTrig_setTrig]
  rw [if_neg (by decide)]
  have hv : initTestValue (w.setTrig t defaultTrigger) defaultTrigger none caAllTrigger = (.success,0) := by
    rw [initTestValue,if_pos (.inr hb.2.2)]
    rfl
  rw [hv,if_neg (by simp)]
  have hc : initCheck (w.setTrig t { defaultTrigger with testValue := 0 }) { defaultTrigger with testValue := 0 } none
      caAllTrigger = some .positiveComparison := by
    rw [initCheck,if_pos hb.2.1]
    rfl
  simp only [hc]
  unfold registerTrigger
  rw [trig_setTrig_self,if_neg (by simp [defaultTrigger])]
  rfl

lemma Linked.freeAlarm (h : Linked d w) (id : XID) : Linked d (freeAlarm w id) := by
  have ho := OnlyObjs.delete w (.alarm id)
  have hlive : ∀ s, Live (Sync.freeAlarm w id) s ↔ Live w s ∧ s ≠ .alarm id := by
    intro s
    cases s with
    | alarm i =>
      by_cases hi : i = id
      · subst hi
        simp [Live,Sync.freeAlarm]
      · simp [Live,Sync.freeAlarm,ho.alarms,hi]
    | await a i => simp [Live,Sync.freeAlarm,ho.awaits]
  refine ⟨?_,⟨?_,?_,?_,?_⟩,h.counted.congr ho.awaits ho.nextAwait ho.attended⟩
  · refine (h.wired.delete (.alarm id)).congr (fun _ => rfl) ?_
    intro s x
    rw [hlive]
    rfl
  · intro x hx
    exact h.attached.clean x (none_mem_delete hx)
  · have hk : (Sync.freeAlarm w id).kind = w.kind := ho.kind
    rw [hk]
    exact h.attached.kinds
  · intro i x hi hx
    have hk : (Sync.freeAlarm w id).kind = w.kind := ho.kind
    have ht : (Sync.freeAlarm w id).trig = w.trig := ho.trig
    rw [ht] at hx
    rw [hk]
    exact h.attached.alarms i x ((hlive (.alarm i)).1 hi).1 hx
  · intro a i hl
    have ht : (Sync.freeAlarm w id).trig = w.trig := ho.trig
    rw [ht]
    exact h.attached.conditions a i ((hlive _).1 hl).1

/-- The world in which `ProcSyncCreateAlarm` calls `SyncChangeAlarmAttributes`. -/
def bornAlarm (w : World) (client : ℕ) (id : XID) : World :=
  (w.setTrig (.alarm id) defaultTrigger).setAlarm id (defaultAlarm client)

lemma Linked.bornAlarm (h : Linked d w) (client : ℕ) (hid : w.alarms id = none) : Linked d (bornAlarm w client id) := by
  refine h.setAlarms id ?_ ?_ rfl ?_ (.inl hid) rfl rfl rfl
  · simp only [Sync.bornAlarm,World.setAlarm,trig_setTrig_self]
    rfl
  · intro s hs
    exact trig_setTrig_of_ne w _ hs
  · intro i hi
    simp only [Sync.bornAlarm,World.setAlarm,World.setTrig,Function.update_of_ne hi]

def IsTrue (w : World) (id : XID) : Prop := ∀ value, counterPtr w (w.trig (.alarm id)).pSync = .counter value →
  check w (w.trig (.alarm id)) value = true

lemma procSyncCreateAlarm_cases {fuel client mask : ℕ} {values : List UInt32} {alloc : Bool} {now : Int64} {status : Status}
    {w' : World} (h : procSyncCreateAlarm fuel w client id mask values alloc now = some (status,w')) :
    w' = w ∨ (w.isNew id = true ∧ values.length = valueWords mask ∧ ∃ r,
      syncChangeAlarmAttributes (bornAlarm w client id) client id (defaultAlarm client) mask values alloc now = r ∧
      ((r.1 ≠ .success ∧ w' = { r.2 with alarms := Function.update r.2.alarms id none }) ∨
        (r.1 = .success ∧ counterPtr r.2 (r.2.trig (.alarm id)).pSync = .other ∧ w' = freeAlarm r.2 id) ∨
        (r.1 = .success ∧ status = .success ∧ (w' = r.2 ∨
          (∃ al, r.2.alarms id = some al ∧ w' = r.2.setAlarm id { al with state := .inactive }) ∨
          (syncAlarmTriggerFired fuel r.2 id = some w' ∧ IsTrue r.2 id))))) := by
  unfold procSyncCreateAlarm at h
  split_ifs at h with h1 h2
  · cases h
    exact .inl rfl
  · cases h
    exact .inl rfl
  · refine .inr ⟨by simpa using h1,not_not.1 h2,_,rfl,?_⟩
    simp only [syncInitTrigger_default] at h
    unfold bornAlarm
    generalize syncChangeAlarmAttributes ((w.setTrig (.alarm id) defaultTrigger).setAlarm id (defaultAlarm client)) client id
      (defaultAlarm client) mask values alloc now = r at h ⊢
    by_cases hr : r.1 = .success
    · rw [if_neg (not_not.2 hr)] at h
      refine .inr ?_
      cases hc : counterPtr r.2 (r.2.trig (.alarm id)).pSync with
      | null =>
        simp only [hc] at h
        cases hal : r.2.alarms id with
        | none =>
          simp only [hal] at h
          cases h
          exact .inr ⟨hr,rfl,.inl rfl⟩
        | some al =>
          simp only [hal] at h
          cases h
          exact .inr ⟨hr,rfl,.inr (.inl ⟨al,rfl,rfl⟩)⟩
      | other =>
        simp only [hc] at h
        cases h
        exact .inl ⟨hr,rfl,rfl⟩
      | counter value =>
        simp only [hc] at h
        split_ifs at h with hcheck
        · rw [Option.bind_eq_bind,Option.bind_eq_some_iff] at h
          obtain ⟨w1,hw1,h⟩ := h
          cases h
          refine .inr ⟨hr,rfl,.inr (.inr ⟨hw1,fun v hv => ?_⟩)⟩
          rw [hc] at hv
          cases hv
          exact hcheck
        · cases h
          exact .inr ⟨hr,rfl,.inl rfl⟩
    · rw [if_pos hr] at h
      cases h
      exact .inl ⟨hr,rfl⟩

lemma procSyncChangeAlarm_cases {fuel client mask : ℕ} {values : List UInt32} {alloc : Bool} {now : Int64} {status : Status}
    {w' : World} (h : procSyncChangeAlarm fuel w client id mask values alloc now = some (status,w')) :
    w' = w ∨ ∃ al r, w.alarms id = some al ∧ values.length = valueWords mask ∧
      syncChangeAlarmAttributes w client id al mask values alloc now = r ∧
      ((r.1 ≠ .success ∧ w' = r.2) ∨
        (r.1 = .success ∧ status = .success ∧ (w' = r.2 ∨
          (syncAlarmTriggerFired fuel r.2 id = some w' ∧ IsTrue r.2 id)))) := by
  unfold procSyncChangeAlarm at h
  cases hal : w.alarms id with
  | none =>
    simp only [hal] at h
    cases h
    exact .inl rfl
  | some al =>
    simp only [hal] at h
    by_cases hl : values.length ≠ valueWords mask
    · rw [if_pos hl] at h
      cases h
      exact .inl rfl
    · rw [if_neg hl] at h
      refine .inr ⟨al,_,rfl,not_not.1 hl,rfl,?_⟩
      generalize syncChangeAlarmAttributes w client id al mask values alloc now = r at h ⊢
      by_cases hr : r.1 = .success
      · rw [if_neg (not_not.2 hr)] at h
        refine .inr ⟨hr,?_⟩
        split_ifs at h with hfires
        · rw [Option.bind_eq_bind,Option.bind_eq_some_iff] at h
          obtain ⟨w1,hw1,h⟩ := h
          cases h
          refine ⟨rfl,.inr ⟨hw1,fun v hv => ?_⟩⟩
          simpa only [hv] using hfires
        · cases h
          exact ⟨rfl,.inl rfl⟩
      · rw [if_pos hr] at h
        cases h
        exact .inl ⟨hr,rfl⟩

end CreateAlarm

end Xlibre.Sync
