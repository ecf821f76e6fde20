import Mathlib.Data.List.Nodup
import Xlibre.Sync.Awaits

/-! Trigger lists and awaits over whole runs. -/
namespace Xlibre.Sync

section Objects

variable {w : World} {x : XID} {d : Option XID}

lemma Linked.newObject (h : Linked none w) (hx : w.objs x = none) (data : SyncData) :
    Linked none (w.setObj x ⟨data,[],false⟩) := by
  have hk : w.kind x = none := by rw [World.kind,hx]; rfl
  have hl : ∀ y, (w.setObj x ⟨data,[],false⟩).triglist y = w.triglist y := by
    intro y
    rw [triglist_setObj]
    split_ifs with hy
    · rw [hy,triglist_of_kind_none w hk]
    · rfl
  have hne : ∀ y, y ≠ x → (w.setObj x ⟨data,[],false⟩).kind y = w.kind y := by
    intro y hy
    simp only [World.kind,World.setObj,Function.update_of_ne hy]
  refine ⟨?_,⟨?_,?_,?_,h.attached.conditions⟩,h.counted.congr rfl rfl rfl⟩
  · refine h.wired.congr ?_ (fun _ _ => Iff.rfl)
    intro y
    rw [World.onList,hl]
    rfl
  · intro y hy
    rw [hl] at hy
    exact h.attached.clean y hy
  · intro y r b hy
    by_cases he : y = x
    · subst he
      simp only [World.kind,World.setObj,Function.update_self,Option.map_some,Option.some_inj,Prod.mk.injEq] at hy
      simp [← hy.2]
    · rw [hne y he] at hy
      exact h.attached.kinds y r b hy
  · intro id y hid hy
    have he : y ≠ x := by
      intro he
      subst he
      exact h.wired.exists_object (t := .alarm id) hid hy hk
    rw [hne y he]
    exact h.attached.alarms id y hid hy

lemma Linked.beginDestroy (h : Linked none w) {o : SyncObject} (ho : w.objs x = some o) :
    Linked (some x) (w.setObj x { o with beingDestroyed := true }) := by
  have hl : ∀ y, (w.setObj x { o with beingDestroyed := true }).triglist y = w.triglist y := triglist_setObj_same w ho rfl
  have hne : ∀ y, y ≠ x → (w.setObj x { o with beingDestroyed := true }).kind y = w.kind y := by
    intro y hy
    simp only [World.kind,World.setObj,Function.update_of_ne hy]
  have hself : (w.setObj x { o with beingDestroyed := true }).kind x = some (o.resType,true) := by
    simp only [World.kind,World.setObj,Function.update_self,Option.map_some]
    rfl
  refine ⟨?_,⟨?_,?_,?_,h.attached.conditions⟩,h.counted.congr rfl rfl rfl⟩
  · refine h.wired.congr ?_ (fun _ _ => Iff.rfl)
    intro y
    rw [World.onList,hl]
    rfl
  · intro y hy
    rw [hl] at hy
    exact absurd (h.attached.clean y hy) (by simp)
  · intro y r b hy
    by_cases he : y = x
    · subst he
      rw [hself] at hy
      cases hy
      simp
    · rw [hne y he] at hy
      have hb := h.attached.kinds y r b hy
      simp only [reduceCtorEq,iff_false,Bool.not_eq_true] at hb
      simp [hb,Ne.symm he]
  · intro id y hid hy
    obtain ⟨b,hb⟩ := h.attached.alarms id y hid hy
    by_cases he : y = x
    · subst he
      rw [World.kind,ho,Option.map_some,Option.some_inj,Prod.mk.injEq] at hb
      exact ⟨true,by rw [hself,hb.1]⟩
    · exact ⟨b,by rw [hne y he,hb]⟩

lemma Linked.endDestroy (h : Linked (some x) w) (hx : w.triglist x = []) (ph : Phase) :
    Linked none { w with objs := Function.update w.objs x none, phase := ph } := by
  have hl : ∀ y, ({ w with objs := Function.update w.objs x none, phase := ph } : World).triglist y = w.triglist y := by
    intro y
    by_cases hy : y = x
    · subst hy
      rw [hx]
      simp only [World.triglist,Function.update_self]
    · simp only [World.triglist,Function.update_of_ne hy]
  have hne : ∀ y, y ≠ x → ({ w with objs := Function.update w.objs x none, phase := ph } : World).kind y = w.kind y := by
    intro y hy
    simp only [World.kind,Function.update_of_ne hy]
  have hself : ({ w with objs := Function.update w.objs x none, phase := ph } : World).kind x = none := by
    simp only [World.kind,Function.update_self,Option.map_none]
  refine ⟨?_,⟨?_,?_,?_,h.attached.conditions⟩,h.counted.congr rfl rfl rfl⟩
  · refine h.wired.congr ?_ (fun _ _ => Iff.rfl)
    intro y
    rw [World.onList,hl]
    rfl
  · intro y hy
    rw [hl] at hy
    have hd := Option.some_inj.1 (h.attached.clean y hy)
    subst hd
    rw [hx] at hy
    exact absurd hy List.not_mem_nil
  · intro y r b hy
    by_cases he : y = x
    · subst he
      rw [hself] at hy
      cases hy
    · rw [hne y he] at hy
      rw [h.attached.kinds y r b hy,Option.some_inj]
      simp [Ne.symm he]
  · intro id y hid hy
    have he : y ≠ x := by
      intro he
      subst he
      have hm := (h.wired.mem y (.alarm id)).2 ⟨hid,hy⟩
      rw [mem_onList,hx] at hm
      exact absurd hm List.not_mem_nil
    rw [hne y he]
    exact h.attached.alarms id y hid hy

end Objects

section Destroy

variable {w : World} {x : XID} {p : Option TrigRef} {rest : List (Option TrigRef)}

lemma Linked.pop (h : Linked (some x) w) (hl : w.triglist x = p::rest) :
    Wired (fun s => Live w s ∧ some s ≠ p) (w.setTriglist x rest) ∧ Attached (some x) (w.setTriglist x rest) ∧
      Counted (w.setTriglist x rest) := by
  have hk : w.kind x ≠ none := by
    intro hk
    rw [triglist_of_kind_none w hk] at hl
    cases hl
  have ho := OnlyObjs.setTriglist w x rest
  have hlist := fun y => triglist_setTriglist w x y rest hk
  refine ⟨?_,⟨?_,?_,?_,?_⟩,h.counted.congr ho.awaits ho.nextAwait ho.attended⟩
  · cases p with
    | none =>
      refine h.wired.congr ?_ ?_
      · intro y
        rw [World.onList,World.onList,hlist]
        split_ifs with hy
        · rw [hy,hl,List.reduceOption_cons_of_none]
        · rfl
      · intro s y
        simp [ho.trig]
    | some t =>
      have hp : (w.trig t).pSync = some x := ((h.wired.mem x t).1 (mem_onList.2 (hl ▸ List.mem_cons_self))).2
      refine (h.wired.erase (t := t) ho.trig ?_).congr (fun _ => rfl) ?_
      · intro y
        rw [World.onList,World.onList,hlist,hp]
        by_cases hy : y = x
        · rw [if_pos hy,hy,if_pos rfl,hl,List.reduceOption_cons_of_some,List.erase_cons_head]
        · rw [if_neg hy,if_neg fun he => hy (Option.some_inj.1 he).symm]
      · intro s y
        simp
  · intro y hy
    obtain ⟨rfl,-⟩ | hy := mem_setTriglist hy
    · rfl
    · exact h.attached.clean y hy
  · rw [ho.kind]
    exact h.attached.kinds
  · rw [ho.kind,ho.trig,ho.alarms]
    exact h.attached.alarms
  · intro a i hlive
    rw [ho.trig]
    exact h.attached.conditions a i (by rwa [Live,ho.awaits] at hlive)

lemma Linked.popNone (h : Linked (some x) w) (hl : w.triglist x = none::rest) : Linked (some x) (w.setTriglist x rest) := by
  obtain ⟨hw,hat,hc⟩ := h.pop hl
  have ho := OnlyObjs.setTriglist w x rest
  refine ⟨hw.congr (fun _ => rfl) ?_,hat,hc⟩
  intro s y
  have hlive : Live (w.setTriglist x rest) s ↔ Live w s := (ho.onlyTrig s).live s
  rw [hlive]
  simp

lemma Linked.popAlarm (h : Linked (some x) w) {id : XID} (hl : w.triglist x = some (.alarm id)::rest) :
    Linked (some x) (syncAlarmCounterDestroyed (w.setTriglist x rest) id) := by
  obtain ⟨hw,hat,hc⟩ := h.pop hl
  have ho := OnlyObjs.setTriglist w x rest
  have hid : (w.setTriglist x rest).alarms id ≠ none := by
    rw [ho.alarms]
    exact ((h.wired.mem x (.alarm id)).1 (mem_onList.2 (hl ▸ List.mem_cons_self))).1
  cases hal : (w.setTriglist x rest).alarms id with
  | none => exact absurd hal hid
  | some al =>
    have he : syncAlarmCounterDestroyed (w.setTriglist x rest) id =
        ((w.setTriglist x rest).setAlarm id { al with state := .inactive }).setTrig (.alarm id)
          { (w.setTriglist x rest).trig (.alarm id) with pSync := none } := by
      rw [syncAlarmCounterDestroyed,hal]
    have hs := SameLinks.setAlarm (w.setTriglist x rest) hid { al with state := .inactive }
    have hlive : ∀ s, Live (w.setTriglist x rest) s ↔ Live w s := fun s => (ho.onlyTrig s).live s
    rw [he]
    refine ⟨?_,⟨hat.clean,hat.kinds,?_,?_⟩,hc.congr rfl rfl rfl⟩
    · have hw1 : Wired (fun s => Live w s ∧ some s ≠ some (.alarm id))
          ((w.setTriglist x rest).setAlarm id { al with state := .inactive }) := hw.congr (fun _ => rfl) fun _ _ => Iff.rfl
      refine (hw1.setTrig (t := .alarm id) fun hl => absurd rfl hl.2).change_live (t := .alarm id) ?_ ?_
      · rw [trig_setTrig_self]
      · intro s hne
        have hls := hs.live s
        rw [hlive] at hls
        refine Iff.trans hls ?_
        simp [hne]
    · intro i y hi hy
      by_cases hii : i = id
      · subst hii
        rw [trig_setTrig_self] at hy
        cases hy
      · rw [trig_setTrig_of_ne _ _ (by simpa using hii)] at hy
        exact hat.alarms i y (fun hn => hi ((hs.alarms i).2 hn)) hy
    · intro a i hlv
      rw [trig_setTrig_of_ne _ _ (by simp)]
      exact hat.conditions a i ((hs.live _).1 hlv)

lemma Linked.popAwait (h : Linked (some x) w) {a i : ℕ} (hl : w.triglist x = some (.await a i)::rest) :
    Linked (some x) (syncAwaitTriggerFired (w.setTriglist x rest) a) ∧ w.awaits a ≠ none := by
  obtain ⟨hw,hat,hc⟩ := h.pop hl
  have ho := OnlyObjs.setTriglist w x rest
  have hlive : ∀ s, Live (w.setTriglist x rest) s ↔ Live w s := fun s => (ho.onlyTrig s).live s
  have ha : w.awaits a ≠ none := by
    obtain ⟨b,hb,-⟩ := ((h.wired.mem x (.await a i)).1 (mem_onList.2 (hl ▸ List.mem_cons_self))).1
    rw [hb]
    exact Option.some_ne_none _
  refine ⟨hw.awaitFired ?_ ?_ hat hc (by rwa [ho.awaits]),ha⟩
  · intro s hs
    rw [hlive]
    simp [hs i]
  · intro j hj
    rw [hlive]
    exact hj.1

end Destroy

/-- Awaits are as before, and the server is where it was. -/
structure Quiet (w w' : World) : Prop where
  awaits : w'.awaits = w.awaits
  attended : w'.attended = w.attended
  phase : w'.phase = w.phase

namespace Quiet

variable {w w' w'' : World} {id : XID}

lemma trans (h : Quiet w w') (h' : Quiet w' w'') : Quiet w w'' :=
  ⟨h'.awaits.trans h.awaits,h'.attended.trans h.attended,h'.phase.trans h.phase⟩

lemma changeAttributes (w : World) (client : ℕ) (id : XID) (al : SyncAlarm) (mask : ℕ) (values : List UInt32) (alloc : Bool)
    (now : Int64) : Quiet w (syncChangeAlarmAttributes w client id al mask values alloc now).2 := by
  obtain ⟨status,w',-,hw,hr⟩ | ⟨a,al',r,-,-,-,hr,hc⟩ :=
    syncChangeAlarmAttributes_cases w client id al mask values alloc now
  · rw [hr]
    obtain rfl | ⟨al',-,rfl⟩ := hw
    · exact ⟨rfl,rfl,rfl⟩
    · exact ⟨rfl,rfl,rfl⟩
  · have hf := syncInitTrigger_onlyTrig (storeAttributes w id al' a) (.alarm id) a.counter .counter (mask%2^(caTestType+1)) now
    rw [hr] at hf
    obtain ⟨-,hc⟩ | ⟨-,hc⟩ := hc
    · rw [hc]
      exact ⟨hf.awaits,hf.attended,hf.phase⟩
    · rw [hc]
      exact ⟨hf.awaits,hf.attended,hf.phase⟩

lemma alarmFired {fuel : ℕ} (h : syncAlarmTriggerFired fuel w id = some w') : Quiet w w' := by
  obtain ⟨hs,hp⟩ := syncAlarmTriggerFired_sameLinks h
  exact ⟨hs.awaits,hs.attended,hp⟩

lemma freeAlarm (w : World) (id : XID) : Quiet w (freeAlarm w id) := by
  have ho := OnlyObjs.delete w (.alarm id)
  exact ⟨ho.awaits,ho.attended,ho.phase⟩

end Quiet

section AlarmRequests

variable {w w' : World} {d : Option XID} {fuel client mask : ℕ} {id : XID} {values : List UInt32} {alloc : Bool} {now : Int64}
  {status : Status}

lemma Linked.createAlarm (h : Linked d w) (hr : procSyncCreateAlarm fuel w client id mask values alloc now = some (status,w')) :
    Linked d w' ∧ Quiet w w' := by
  obtain rfl | ⟨hn,-,r,hc,hw⟩ := procSyncCreateAlarm_cases hr
  · exact ⟨h,rfl,rfl,rfl⟩
  have hid : w.alarms id = none := by
    simp only [World.isNew,Bool.and_eq_true,decide_eq_true_eq] at hn
    exact hn.1.2
  obtain ⟨hl,ha,-⟩ := (h.bornAlarm client hid).changeAttributes (setAlarm_alarms_ne_none _ id _) client (defaultAlarm client)
    mask values alloc now
  have hq : Quiet w (syncChangeAlarmAttributes (Sync.bornAlarm w client id) client id (defaultAlarm client) mask values alloc
      now).2 := by
    have hb : Quiet w (Sync.bornAlarm w client id) := ⟨rfl,rfl,rfl⟩
    exact hb.trans (Quiet.changeAttributes _ client id _ mask values alloc now)
  rw [hc] at hl ha hq
  obtain ⟨hs,rfl⟩ | ⟨-,-,rfl⟩ | ⟨-,-,hw⟩ := hw
  · -- The trigger was never registered, so the alarm can be thrown away.
    rw [← hc] at hs
    have hp := (syncChangeAlarmAttributes_failed hs).2
    rw [hc] at hp
    have hb : ((Sync.bornAlarm w client id).trig (.alarm id)).pSync = none := by
      simp only [Sync.bornAlarm,World.setAlarm,trig_setTrig_self]
      rfl
    rw [hb] at hp
    refine ⟨hl.setAlarms id hp (fun _ _ => rfl) rfl ?_ (.inr hp) rfl rfl rfl,hq.awaits,hq.attended,hq.phase⟩
    intro i hi
    simp only [Function.update_of_ne hi]
  · exact ⟨hl.freeAlarm id,hq.trans (Quiet.freeAlarm r.2 id)⟩
  · obtain rfl | ⟨al,-,rfl⟩ | ⟨hf,-⟩ := hw
    · exact ⟨hl,hq⟩
    · exact ⟨(SameLinks.setAlarm r.2 ha _).linked hl,hq.awaits,hq.attended,hq.phase⟩
    · exact ⟨(syncAlarmTriggerFired_sameLinks hf).1.linked hl,hq.trans (Quiet.alarmFired hf)⟩

lemma Linked.changeAlarm (h : Linked d w) (hr : procSyncChangeAlarm fuel w client id mask values alloc now = some (status,w')) :
    Linked d w' ∧ Quiet w w' := by
  obtain rfl | ⟨al,r,hal,-,hc,hw⟩ := procSyncChangeAlarm_cases hr
  · exact ⟨h,rfl,rfl,rfl⟩
  have hid : w.alarms id ≠ none := by
    rw [hal]
    exact Option.some_ne_none _
  have hl := (h.changeAttributes hid client al mask values alloc now).1
  have hq := Quiet.changeAttributes w client id al mask values alloc now
  rw [hc] at hl hq
  obtain ⟨-,rfl⟩ | ⟨-,-,rfl | ⟨hf,-⟩⟩ := hw
  · exact ⟨hl,hq⟩
  · exact ⟨hl,hq⟩
  · exact ⟨(syncAlarmTriggerFired_sameLinks hf).1.linked hl,hq.trans (Quiet.alarmFired hf)⟩

end AlarmRequests

section Runs

def Phase.destroyed : Phase → Option XID
  | .destroy x => some x
  | _ => none

/-- A walk of `SyncChangeCounter` stands at a node of the list. -/
def AtNode (w : World) : Prop := ∀ x oldval p, w.phase = .change x oldval (some p) → p ∈ w.triglist x

/-- What holds in every state of a run. -/
structure Inv (w : World) : Prop where
  linked : Linked w.phase.destroyed w
  atNode : AtNode w

/-- What a run does to awaits: they stay, or their client is unblocked. -/
structure Persists (w w' : World) : Prop where
  awaits : ∀ a h, w.awaits a = some h → w'.awaits a = some h ∨ a ∈ w'.attended
  attended : ∀ a ∈ w.attended, a ∈ w'.attended

lemma Persists.refl (w : World) : Persists w w := ⟨fun _ _ h => .inl h,fun _ h => h⟩

lemma Persists.trans {w w' w'' : World} (h : Persists w w') (h' : Persists w' w'') : Persists w w'' where
  awaits a b ha := by
    obtain ha | ha := h.awaits a b ha
    · exact h'.awaits a b ha
    · exact .inr (h'.attended a ha)
  attended a ha := h'.attended a (h.attended a ha)

lemma Persists.ofEq {w w' : World} (ha : w'.awaits = w.awaits) (ht : w'.attended = w.attended) : Persists w w' :=
  ⟨fun a h hw => .inl (by rw [ha,hw]),fun a hm => by rwa [ht]⟩

lemma Persists.awaitFired (w : World) (a : ℕ) : Persists w (syncAwaitTriggerFired w a) := by
  have hf := freeAwait_onlyAwait { w with attended := w.attended ++ [a] } a
  constructor
  · intro b h hb
    rw [syncAwaitTriggerFired,hf.awaits,hf.attended]
    by_cases hba : b = a
    · exact .inr (by simp [hba])
    · exact .inl (by rwa [Function.update_of_ne hba])
  · intro b hb
    rw [syncAwaitTriggerFired,hf.attended]
    exact List.mem_append_left _ hb

lemma SameLinks.inv {w w' : World} (h : SameLinks w w') (hw : Linked none w) (hd : w'.phase.destroyed = none) (hn : AtNode w') :
    Inv w' ∧ Persists w w' := by
  refine ⟨⟨?_,hn⟩,Persists.ofEq h.awaits h.attended⟩
  rw [hd]
  exact h.linked hw

variable {w w' : World} {fuel : ℕ}

lemma Inv.idle (h : Inv w) (hi : w.phase = .idle) : Linked none w := by
  have hl := h.linked
  rwa [hi] at hl

lemma atNode_of_idle (hi : w.phase = .idle) : AtNode w := by
  intro x oldval p hp
  rw [hi] at hp
  cases hp

lemma Linked.invIdle (h : Linked none w) (hi : w.phase = .idle) : Inv w := by
  refine ⟨?_,atNode_of_idle hi⟩
  rw [hi]
  exact h

lemma SameLinks.setObj {x : XID} {o : SyncObject} (ho : w.objs x = some o) (o' : SyncObject) (hr : o'.resType = o.resType)
    (hd : o'.beingDestroyed = o.beingDestroyed) (hl : o'.pTriglist = o.pTriglist) : SameLinks w (w.setObj x o') :=
  SameLinks.ofObjs (OnlyObjs.setObj ho hr hd) (triglist_setObj_same w ho hl)

lemma SameLinks.setPhase (h : SameLinks w w') (ph : Phase) : SameLinks w { w' with phase := ph } :=
  ⟨h.triglist,h.kind,h.pSync,h.alarms,h.awaits,h.nextAwait,h.attended⟩

lemma Linked.syncChangeCounter (h : Linked none w) (hi : w.phase = .idle) (x : XID) (newval : Int64) :
    Inv (syncChangeCounter w x newval) ∧ Persists w (syncChangeCounter w x newval) := by
  unfold Sync.syncChangeCounter
  split
  · rename_i oldval sys l b ho
    refine ((SameLinks.setObj ho ⟨.counter newval sys,l,b⟩ rfl rfl rfl).setPhase _).inv h rfl ?_
    intro y old p hp
    simp only [Phase.change.injEq] at hp
    obtain ⟨rfl,-,hp⟩ := hp
    have hm : p ∈ l := List.mem_of_mem_head? hp
    have ht : ({ w.setObj x ⟨.counter newval sys,l,b⟩ with phase := .change x oldval l.head? } : World).triglist x = l :=
      (triglist_setObj w x x ⟨.counter newval sys,l,b⟩).trans (if_pos rfl)
    rw [ht]
    exact hm
  · exact ⟨h.invIdle hi,Persists.refl w⟩

lemma Linked.freeSync (h : Linked none w) (hi : w.phase = .idle) (x : XID) : Inv (freeSync w x) ∧ Persists w (freeSync w x) := by
  unfold Sync.freeSync
  split
  · exact ⟨h.invIdle hi,Persists.refl w⟩
  · rename_i o ho
    obtain ⟨hw,hat,hc⟩ := h.beginDestroy ho
    exact ⟨⟨⟨⟨hw.nodup,hw.mem⟩,⟨hat.clean,hat.kinds,hat.alarms,hat.conditions⟩,hc.congr rfl rfl rfl⟩,
      fun _ _ _ hp => by cases hp⟩,Persists.ofEq rfl rfl⟩

lemma Awaited.persists {client n : ℕ} {r : Status × World} (h : Awaited w client n r) (hl : Linked none w) : Persists w r.2 where
  awaits a b ha := by
    left
    rw [h.awaits a ?_,ha]
    intro he
    rw [he,hl.counted.next_none] at ha
    cases ha
  attended a ha := by
    by_cases hs : r.1 = .success
    · obtain ⟨-,hat⟩ | hat := h.done hs
      · rwa [hat]
      · rw [hat]
        exact List.mem_append_left _ ha
    · rwa [(h.failed hs).2]

lemma Inv.request (h : Inv w) (hi : w.phase = .idle) {req : Req} {status : Status} (hs : start fuel w req = some (status,w')) :
    Inv w' ∧ Persists w w' := by
  have hl := h.idle hi
  have hquiet : ∀ {w' : World}, Linked none w' ∧ Quiet w w' → Inv w' ∧ Persists w w' := fun hw =>
    ⟨hw.1.invIdle (hw.2.phase.trans hi),Persists.ofEq hw.2.awaits hw.2.attended⟩
  cases start_cases hs with
  | same => exact ⟨h,Persists.refl w⟩
  | newObject x data hn => exact ⟨(hl.newObject hn _).invIdle hi,Persists.ofEq rfl rfl⟩
  | change x value => exact hl.syncChangeCounter hi x value
  | free x _ => exact hl.freeSync hi x
  | createAlarm hc => exact hquiet (hl.createAlarm hc)
  | changeAlarm hc => exact hquiet (hl.changeAlarm hc)
  | destroyAlarm id => exact hquiet ⟨hl.freeAlarm id,Quiet.freeAlarm w id⟩
  | await resType client conds _ =>
    have hr := hl.procSyncAwait resType client conds
    exact ⟨hr.linked.invIdle (hr.phase.trans hi),hr.persists hl⟩
  | triggerFence x b d l ho =>
    refine ((SameLinks.setObj ho ⟨.fence true,l,d⟩ rfl rfl rfl).setPhase (.trigger x)).inv hl rfl ?_
    intro y oldval p hp
    cases hp
  | resetFence x b d l ho =>
    refine (SameLinks.setObj ho ⟨.fence false,l,d⟩ rfl rfl rfl).inv hl ?_ (atNode_of_idle hi)
    rw [World.setObj,hi]
    rfl

lemma Linked.triggerFired {d : Option XID} {t : TrigRef} (h : Linked d w) (ht : Live w t)
    (hf : triggerFired fuel w t = some w') : Linked d w' ∧ Persists w w' ∧ w'.phase = w.phase := by
  cases t with
  | alarm id =>
    obtain ⟨hs,hp⟩ := syncAlarmTriggerFired_sameLinks hf
    exact ⟨hs.linked h,Persists.ofEq hs.awaits hs.attended,hp⟩
  | await a i =>
    simp only [Sync.triggerFired,Option.some_inj] at hf
    subst hf
    obtain ⟨b,hb,-⟩ := ht
    refine ⟨h.awaitFired ?_,Persists.awaitFired w a,(freeAwait_onlyAwait _ a).phase⟩
    rw [hb]
    exact Option.some_ne_none _

lemma Linked.live_of_mem {d : Option XID} {x : XID} {t : TrigRef} (h : Linked d w) (hm : some t ∈ w.triglist x) : Live w t :=
  ((h.wired.mem x t).1 (mem_onList.2 hm)).1

lemma Linked.setPhase {d : Option XID} (h : Linked d w) (ph : Phase) : Linked d { w with phase := ph } :=
  ((SameLinks.refl w).setPhase ph).linked h

lemma mem_of_nodeAfter {l : List (Option TrigRef)} {t : TrigRef} {p : Option TrigRef} (h : nodeAfter l t = some p) : p ∈ l := by
  have hm : p ∈ (l.dropWhile (· ≠ some t)).tail := List.mem_of_mem_head? h
  exact (List.dropWhile_sublist _).subset (List.mem_of_mem_tail hm)

lemma Linked.invSame {d : Option XID} (h : Linked d w') (hph : w'.phase = w.phase) (hd : w.phase.destroyed = d)
    (hc : ∀ x oldval p, w.phase ≠ .change x oldval p) : Inv w' := by
  constructor
  · rw [hph,hd]
    exact h
  · intro x oldval p hx
    rw [hph] at hx
    exact absurd hx (hc x oldval _)

lemma counterDestroyed_quiet (w : World) (id : XID) : Quiet w (syncAlarmCounterDestroyed w id) := by
  rw [syncAlarmCounterDestroyed]
  split
  · exact ⟨rfl,rfl,rfl⟩
  · exact ⟨rfl,rfl,rfl⟩

lemma Inv.callback (h : Inv w) (hn : next fuel w = some w') : Inv w' ∧ Persists w w' := by
  have hl := h.linked
  cases next_cases hn with
  | settle x oldval hp =>
    rw [hp] at hl
    exact ((SameLinks.brackets w x).setPhase .idle).inv hl rfl (atNode_of_idle rfl)
  | pass x oldval t hp =>
    rw [hp] at hl
    refine ⟨⟨hl.setPhase _,?_⟩,Persists.ofEq rfl rfl⟩
    intro y old p hy
    simp only [Phase.change.injEq] at hy
    obtain ⟨rfl,-,hy⟩ := hy
    exact mem_of_nodeAfter hy
  | fire x oldval t w1 pnext hp hf hm =>
    rw [hp] at hl
    obtain ⟨hl1,hper,-⟩ := hl.triggerFired (hl.live_of_mem (h.atNode x oldval (some t) hp)) hf
    refine ⟨⟨hl1.setPhase _,?_⟩,hper.trans (Persists.ofEq rfl rfl)⟩
    intro y old p hy
    simp only [Phase.change.injEq] at hy
    obtain ⟨rfl,-,hy⟩ := hy
    exact hm p hy
  | rest x hp =>
    rw [hp] at hl
    exact ⟨⟨hl.setPhase .idle,atNode_of_idle rfl⟩,Persists.ofEq rfl rfl⟩
  | fence x t w1 hp hm hf =>
    obtain ⟨hl1,hper,hph⟩ := hl.triggerFired (hl.live_of_mem hm) hf
    refine ⟨hl1.invSame hph rfl ?_,hper⟩
    rw [hp]
    exact fun _ _ _ => Phase.noConfusion
  | gone x hp hx =>
    rw [hp] at hl
    exact ⟨⟨hl.endDestroy hx .idle,atNode_of_idle rfl⟩,Persists.ofEq rfl rfl⟩
  | skip x l hp hx =>
    rw [hp] at hl
    have ho := OnlyObjs.setTriglist w x l
    refine ⟨(hl.popNone hx).invSame ho.phase (by rw [hp]; rfl) ?_,Persists.ofEq ho.awaits ho.attended⟩
    rw [hp]
    exact fun _ _ _ => Phase.noConfusion
  | tell x t l hp hx =>
    rw [hp] at hl
    have ho := OnlyObjs.setTriglist w x l
    have hper : Persists w (w.setTriglist x l) := Persists.ofEq ho.awaits ho.attended
    have hc : ∀ y oldval p, w.phase ≠ .change y oldval p := by
      rw [hp]
      exact fun _ _ _ => Phase.noConfusion
    cases t with
    | alarm id =>
      have hq := counterDestroyed_quiet (w.setTriglist x l) id
      exact ⟨(hl.popAlarm hx).invSame (hq.phase.trans ho.phase) (by rw [hp]; rfl) hc,
        hper.trans (Persists.ofEq hq.awaits hq.attended)⟩
    | await a i =>
      exact ⟨(hl.popAwait hx).1.invSame ((freeAwait_onlyAwait _ a).phase.trans ho.phase) (by rw [hp]; rfl) hc,
        hper.trans (Persists.awaitFired _ a)⟩

lemma Inv.step {ok : World → Req → Prop} (h : Inv w) (hs : Step ok w w') : Inv w' ∧ Persists w w' := by
  cases hs with
  | request hi _ hs => exact h.request hi hs
  | callback hn => exact h.callback hn

lemma Inv.steps {ok : World → Req → Prop} (h : Inv w) (hs : Relation.ReflTransGen (Step ok) w w') : Inv w' ∧ Persists w w' := by
  induction hs with
  | refl => exact ⟨h,Persists.refl w⟩
  | tail _ hs ih =>
    obtain ⟨hi,hp⟩ := ih.1.step hs
    exact ⟨hi,ih.2.trans hp⟩

lemma Fresh.inv (h : Fresh w) : Inv w := by
  have hl : ∀ x, w.triglist x = [] := by
    intro x
    rw [World.triglist]
    split
    · rfl
    · rename_i o ho
      obtain ⟨value,sys,rfl⟩ := h.objs x o ho
      rfl
  have hlive : ∀ t, ¬Live w t := by
    intro t
    cases t with
    | alarm id => exact not_not.2 (h.alarms id)
    | await a i => exact not_live_of_awaits_none (h.awaits a) i
  refine Linked.invIdle ⟨⟨?_,?_⟩,⟨?_,?_,?_,?_⟩,⟨?_,?_,?_⟩⟩ h.phase
  · intro x
    rw [World.onList,hl]
    exact List.nodup_nil
  · intro x t
    rw [World.onList,hl]
    simp [List.reduceOption,hlive t]
  · intro x hx
    rw [hl] at hx
    exact absurd hx List.not_mem_nil
  · intro x r b hx
    rw [World.kind] at hx
    cases ho : w.objs x with
    | none =>
      rw [ho] at hx
      cases hx
    | some o =>
      obtain ⟨value,sys,rfl⟩ := h.objs x o ho
      rw [ho] at hx
      cases hx
      simp
  · intro id x hid _
    exact absurd (h.alarms id) hid
  · intro a i hlv
    exact absurd hlv (hlive _)
  · intro a ha
    exact absurd (h.awaits a) ha
  · rw [h.attended]
    simp
  · rw [h.attended]
    exact List.nodup_nil

lemma Reach.inv {ok : World → Req → Prop} (h : Reach ok w) : Inv w := by
  obtain ⟨w₀,hf,hs⟩ := h
  exact (hf.inv.steps hs).1

lemma Linked.counterPtr_ne_other {d : Option XID} (h : Linked d w) {id : XID} (hid : w.alarms id ≠ none) :
    counterPtr w (w.trig (.alarm id)).pSync ≠ .other := by
  cases hp : (w.trig (.alarm id)).pSync with
  | none => exact CounterPtr.noConfusion
  | some x =>
    obtain ⟨b,hb⟩ := h.attached.alarms id x hid hp
    rw [World.kind,Option.map_eq_some_iff] at hb
    obtain ⟨⟨data,l,d⟩,ho,hk⟩ := hb
    cases data with
    | counter value sys =>
      simp only [counterPtr,ho]
      exact CounterPtr.noConfusion
    | fence triggered => cases hk

lemma Inv.failed (h : Inv w) (hi : w.phase = .idle) {req : Req} {status : Status} (hs : start fuel w req = some (status,w'))
    (hne : status ≠ .success) (x : XID) : w'.triglist x = w.triglist x := by
  have hl := h.idle hi
  cases start_cases hs with
  | same => rfl
  | newObject x data hn => exact absurd rfl hne
  | change x value => exact absurd rfl hne
  | free x _ => exact absurd rfl hne
  | @createAlarm client id mask values alloc now _ _ hc =>
    obtain rfl | ⟨hn,-,r,hr,hw⟩ := procSyncCreateAlarm_cases hc
    · rfl
    obtain ⟨hf,rfl⟩ | ⟨-,hother,-⟩ | ⟨-,hst,-⟩ := hw
    · rw [← hr] at hf ⊢
      exact (syncChangeAlarmAttributes_failed hf).1 x
    · have hid : w.alarms id = none := by
        simp only [World.isNew,Bool.and_eq_true,decide_eq_true_eq] at hn
        exact hn.1.2
      obtain ⟨hl',hid',-⟩ := (hl.bornAlarm client hid).changeAttributes (setAlarm_alarms_ne_none _ id _) client
        (defaultAlarm client) mask values alloc now
      rw [hr] at hl' hid'
      exact absurd hother (hl'.counterPtr_ne_other hid')
    · exact absurd hst hne
  | changeAlarm hc =>
    obtain rfl | ⟨al,r,-,-,hr,hw⟩ := procSyncChangeAlarm_cases hc
    · rfl
    obtain ⟨hf,rfl⟩ | ⟨-,hst,-⟩ := hw
    · rw [← hr] at hf ⊢
      exact (syncChangeAlarmAttributes_failed hf).1 x
    · exact absurd hst hne
  | destroyAlarm id => exact absurd rfl hne
  | await resType client conds _ => exact ((hl.procSyncAwait resType client conds).failed hne).1 x
  | triggerFence x b d l ho => exact absurd rfl hne
  | resetFence x b d l ho => exact absurd rfl hne

/-- The trigger is on the list of one object, once, and on no other list. -/
def Registered (w : World) (t : TrigRef) : Prop := ∃ x, ∀ y, (w.triglist y).count (some t) = if y = x then 1 else 0

lemma count_some_eq (l : List (Option TrigRef)) (t : TrigRef) : l.count (some t) = l.reduceOption.count t := by
  induction l with
  | nil => rfl
  | cons p l ih =>
    cases p with
    | none => rw [List.count_cons_of_ne (by simp),List.reduceOption_cons_of_none,ih]
    | some s =>
      rw [List.reduceOption_cons_of_some,List.count_cons,List.count_cons,ih]
      simp

lemma Linked.registered {d : Option XID} (h : Linked d w) {a i : ℕ} (ha : Live w (.await a i)) : Registered w (.await a i) := by
  cases hp : (w.trig (.await a i)).pSync with
  | none => exact absurd hp (h.attached.conditions a i ha)
  | some x =>
    refine ⟨x,fun y => ?_⟩
    rw [count_some_eq]
    split_ifs with hy
    · subst hy
      exact List.count_eq_one_of_mem (h.wired.nodup y) ((h.wired.mem y _).2 ⟨ha,hp⟩)
    · apply List.count_eq_zero_of_not_mem
      intro hm
      have hx := ((h.wired.mem y _).1 hm).2
      rw [hp,Option.some_inj] at hx
      exact hy hx.symm

lemma Inv.awaited (h : Inv w) (hi : w.phase = .idle) {req : Req} {client n : ℕ} (ha : req.asksFor = some (client,n))
    (hs : start fuel w req = some (.success,w')) :
    w'.awaits w.nextAwait = some ⟨client,n⟩ ∨ w.nextAwait ∈ w'.attended := by
  have hl := h.idle hi
  have hr : ∀ resType conds, procSyncAwait resType w client conds = (.success,w') → conds.length = n →
      w'.awaits w.nextAwait = some ⟨client,n⟩ ∨ w.nextAwait ∈ w'.attended := by
    intro resType conds hc hlen
    have hw := hl.procSyncAwait resType client conds
    rw [hc,hlen] at hw
    obtain ⟨hw,-⟩ | hw := hw.done rfl
    · exact .inl hw
    · exact .inr (by rw [hw]; simp)
  cases req with
  | await c conds =>
    cases ha
    simp only [start,Option.some_inj] at hs
    exact hr .counter conds hs rfl
  | awaitFence c fences =>
    cases ha
    simp only [start,Option.some_inj] at hs
    exact hr .fence _ hs (List.length_map _)
  | _ => cases ha

/-- **Awaits over every run.** An error leaves all trigger lists as they were. A client is unblocked at most once for each
of its requests, and then no trigger of the request is on a list, not even on what remains of the list of an object that
is being destroyed. Until then, all its triggers are registered, each once. -/
theorem await_lifecycle {w : World} (h : Reach (fun _ _ => True) w) :
    (w.phase = .idle → ∀ fuel req status w', start fuel w req = some (status,w') → status ≠ .success →
      ∀ x, w'.triglist x = w.triglist x) ∧
    (w.attended.Nodup ∧ ∀ a ∈ w.attended, ∀ i x, some (.await a i) ∉ w.triglist x) ∧
    (∀ a h, w.awaits a = some h → ∀ i < h.numWaitconditions, Registered w (.await a i)) ∧
    (w.phase = .idle → ∀ fuel req client n w', req.asksFor = some (client,n) → start fuel w req = some (.success,w') →
      w.nextAwait ∉ w.attended ∧ ∀ w'', Relation.ReflTransGen (Step fun _ _ => True) w' w'' →
        w''.awaits w.nextAwait = some ⟨client,n⟩ ∨ w.nextAwait ∈ w''.attended) := by
  have hinv := h.inv
  refine ⟨?_,⟨hinv.linked.counted.once,?_⟩,?_,?_⟩
  · intro hi fuel req status w' hs hne x
    exact hinv.failed hi hs hne x
  · intro a ha i x hm
    exact not_live_of_awaits_none (hinv.linked.counted.gone a ha).2 i (hinv.linked.live_of_mem hm)
  · intro a b hb i hlt
    exact hinv.linked.registered ⟨b,hb,hlt⟩
  · intro hi fuel req client n w' ha hs
    refine ⟨fun hm => lt_irrefl _ (hinv.linked.counted.gone _ hm).1,?_⟩
    intro w'' hsteps
    have hper := ((hinv.request hi hs).1.steps hsteps).2
    obtain hw | hw := hinv.awaited hi ha hs
    · exact hper.awaits _ _ hw
    · exact .inr (hper.attended _ hw)

/-- A server without system counters, with one counter, and with a client that waits for it to reach 7. -/
def emptyWorld : World := ⟨fun _ => none,fun _ => none,fun _ => none,fun _ => defaultTrigger,0,[],.idle⟩

def oneCounter : World := emptyWorld.setObj 1 ⟨.counter 0 none,[],false⟩

def oneAwait : World := (procSyncAwait .counter oneCounter 5 [⟨1,absolute,7,positiveComparison,0⟩]).2

lemma Reach.request {ok : World → Req → Prop} (h : Reach ok w) (hi : w.phase = .idle) {req : Req} (hok : ok w req)
    {status : Status} (hs : start fuel w req = some (status,w')) : Reach ok w' := by
  obtain ⟨w₀,hf,hr⟩ := h
  exact ⟨w₀,hf,hr.tail (.request hi hok hs)⟩

lemma reach_emptyWorld (ok : World → Req → Prop) : Reach ok emptyWorld := by
  refine ⟨emptyWorld,⟨?_,fun _ => rfl,fun _ => rfl,rfl,rfl,rfl⟩,.refl⟩
  intro x o h
  cases h

theorem await_lifecycle_oneAwait : Reach (fun _ _ => True) oneAwait ∧ oneAwait.triglist 1 = [some (.await 0 0)] ∧
    oneAwait.attended.Nodup ∧ Registered oneAwait (.await 0 0) := by
  have h1 : start 0 emptyWorld (.createCounter 1 0) = some (.success,oneCounter) := rfl
  have h2 : start 0 oneCounter (.await 5 [⟨1,absolute,7,positiveComparison,0⟩]) = some (.success,oneAwait) := rfl
  have h : Reach (fun _ _ => True) oneAwait := ((reach_emptyWorld _).request rfl trivial h1).request rfl trivial h2
  have ha : oneAwait.awaits 0 = some ⟨5,1⟩ := by decide
  obtain ⟨-,⟨hn,-⟩,hr,-⟩ := await_lifecycle h
  exact ⟨h,by decide,hn,hr 0 _ ha 0 (by decide)⟩

end Runs

end Xlibre.Sync
