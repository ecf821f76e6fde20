import Xlibre.Sync.Requests

/-! What the functions of the SYNC extension leave alone, and what they do to trigger lists. -/
namespace Xlibre.Sync

/-- What stays of an object as long as it lives, and whether it is being destroyed. -/
def World.kind (w : World) (x : XID) : Option (ResType × Bool) := (w.objs x).map fun o => (o.resType,o.beingDestroyed)

section Update

variable (w : World)

lemma kind_setObj {x : XID} {o o' : SyncObject} (ho : w.objs x = some o) (hr : o'.resType = o.resType)
    (hd : o'.beingDestroyed = o.beingDestroyed) : (w.setObj x o').kind = w.kind := by
  ext1 y
  by_cases hy : y = x
  · subst hy
    simp only [World.kind,World.setObj,Function.update_self,ho,Option.map_some,hr,hd]
  · simp only [World.kind,World.setObj,Function.update_of_ne hy]

lemma triglist_setObj (x y : XID) (o : SyncObject) :
    (w.setObj x o).triglist y = if y = x then o.pTriglist else w.triglist y := by
  by_cases hy : y = x
  · subst hy
    simp only [World.triglist,World.setObj,Function.update_self,if_true]
  · simp only [World.triglist,World.setObj,Function.update_of_ne hy,if_neg hy]

lemma triglist_setObj_same {x : XID} {o o' : SyncObject} (ho : w.objs x = some o) (hl : o'.pTriglist = o.pTriglist)
    (y : XID) : (w.setObj x o').triglist y = w.triglist y := by
  rw [triglist_setObj]
  split_ifs with hy
  · subst hy
    rw [hl,World.triglist,ho]
  · rfl

lemma triglist_of_kind_none {x : XID} (h : w.kind x = none) : w.triglist x = [] := by
  rw [World.kind,Option.map_eq_none_iff] at h
  rw [World.triglist,h]

lemma triglist_setTriglist (x y : XID) (l : List (Option TrigRef)) (hx : w.kind x ≠ none) :
    (w.setTriglist x l).triglist y = if y = x then l else w.triglist y := by
  cases ho : w.objs x with
  | none => exact absurd (by rw [World.kind,ho]; rfl) hx
  | some o =>
    simp only [World.setTriglist,ho]
    exact triglist_setObj w x y _

@[simp] lemma triglist_brackets (x y : XID) : (syncComputeBracketValues w x).triglist y = w.triglist y := by
  rw [syncComputeBracketValues]
  split
  · rename_i ho
    split_ifs
    · rfl
    · rw [triglist_setObj_same w ho]
      rfl
  · rfl

@[simp] lemma triglist_query (pSync : Option XID) (now : Int64) (y : XID) :
    (queryValue w pSync now).triglist y = w.triglist y := by
  unfold queryValue
  split
  · rfl
  · split
    · rename_i ho
      rw [triglist_setObj_same w ho]
      rfl
    · rfl

@[simp] lemma triglist_setTrig (t : TrigRef) (tr : SyncTrigger) (y : XID) : (w.setTrig t tr).triglist y = w.triglist y := rfl

@[simp] lemma triglist_setAlarm (id : XID) (al : SyncAlarm) (y : XID) : (w.setAlarm id al).triglist y = w.triglist y := rfl

@[simp] lemma trig_setTrig_self (t : TrigRef) (tr : SyncTrigger) : (w.setTrig t tr).trig t = tr := by
  simp only [World.setTrig,Function.update_self]

lemma trig_setTrig_of_ne {s t : TrigRef} (tr : SyncTrigger) (h : s ≠ t) : (w.setTrig t tr).trig s = w.trig s := by
  simp only [World.setTrig,Function.update_of_ne h]

@[simp] lemma kind_setTrig (t : TrigRef) (tr : SyncTrigger) : (w.setTrig t tr).kind = w.kind := rfl

lemma triglist_delete (t : TrigRef) (y : XID) : (syncDeleteTriggerFromSyncObject w t).triglist y =
    if (w.trig t).pSync = some y then (w.triglist y).erase (some t) else w.triglist y := by
  rw [syncDeleteTriggerFromSyncObject]
  split
  · rename_i h
    rw [h,if_neg (by simp)]
  · rename_i x h
    rw [h,triglist_brackets]
    by_cases hx : w.kind x = none
    · have hw : w.setTriglist x ((w.triglist x).erase (some t)) = w := by
        rw [World.kind,Option.map_eq_none_iff] at hx
        rw [World.setTriglist,hx]
      rw [hw]
      split_ifs with hy
      · rw [Option.some_inj] at hy
        subst hy
        rw [triglist_of_kind_none w hx,List.erase_nil]
      · rfl
    · rw [triglist_setTriglist w x y _ hx]
      by_cases hy : y = x
      · rw [hy,if_pos rfl,if_pos rfl]
      · rw [if_neg hy,if_neg (fun h => hy (Option.some_inj.1 h).symm)]

lemma triglist_add (t : TrigRef) (y : XID) (hk : ∀ x, (w.trig t).pSync = some x → w.kind x ≠ none)
    (ht : ∀ x, some t ∉ w.triglist x) : (syncAddTriggerToSyncObject w t).triglist y =
    if (w.trig t).pSync = some y then some t::w.triglist y else w.triglist y := by
  rw [syncAddTriggerToSyncObject]
  split
  · rename_i h
    rw [h,if_neg (by simp)]
  · rename_i x h
    rw [if_neg (ht x),triglist_brackets,triglist_setTriglist w x y _ (hk x h),h]
    by_cases hy : y = x
    · rw [hy,if_pos rfl,if_pos rfl]
    · rw [if_neg hy,if_neg (fun h => hy (Option.some_inj.1 h).symm)]

end Update

structure OnlyObjs (w w' : World) : Prop where
  alarms : w'.alarms = w.alarms
  awaits : w'.awaits = w.awaits
  trig : w'.trig = w.trig
  nextAwait : w'.nextAwait = w.nextAwait
  attended : w'.attended = w.attended
  phase : w'.phase = w.phase
  kind : w'.kind = w.kind

namespace OnlyObjs

variable {w w' w'' : World}

lemma refl (w : World) : OnlyObjs w w := ⟨rfl,rfl,rfl,rfl,rfl,rfl,rfl⟩

lemma trans (h : OnlyObjs w w') (h' : OnlyObjs w' w'') : OnlyObjs w w'' :=
  ⟨h'.alarms.trans h.alarms,h'.awaits.trans h.awaits,h'.trig.trans h.trig,h'.nextAwait.trans h.nextAwait,
    h'.attended.trans h.attended,h'.phase.trans h.phase,h'.kind.trans h.kind⟩

lemma setObj {x : XID} {o o' : SyncObject} (ho : w.objs x = some o) (hr : o'.resType = o.resType)
    (hd : o'.beingDestroyed = o.beingDestroyed) : OnlyObjs w (w.setObj x o') :=
  ⟨rfl,rfl,rfl,rfl,rfl,rfl,kind_setObj w ho hr hd⟩

lemma setTriglist (w : World) (x : XID) (l : List (Option TrigRef)) : OnlyObjs w (w.setTriglist x l) := by
  rw [World.setTriglist]
  split
  · exact refl w
  · rename_i ho
    exact setObj ho rfl rfl

lemma brackets (w : World) (x : XID) : OnlyObjs w (syncComputeBracketValues w x) := by
  rw [syncComputeBracketValues]
  split
  · rename_i ho
    split_ifs
    · exact refl w
    · exact setObj ho rfl rfl
  · exact refl w

lemma query (w : World) (pSync : Option XID) (now : Int64) : OnlyObjs w (queryValue w pSync now) := by
  unfold queryValue
  split
  · exact refl w
  · split
    · rename_i ho
      exact setObj ho rfl rfl
    · exact refl w

lemma delete (w : World) (t : TrigRef) : OnlyObjs w (syncDeleteTriggerFromSyncObject w t) := by
  rw [syncDeleteTriggerFromSyncObject]
  split
  · exact refl w
  · exact (setTriglist w _ _).trans (brackets _ _)

lemma add (w : World) (t : TrigRef) : OnlyObjs w (syncAddTriggerToSyncObject w t) := by
  rw [syncAddTriggerToSyncObject]
  split
  · exact refl w
  · split_ifs
    · exact refl w
    · exact (setTriglist w _ _).trans (brackets _ _)

lemma drop (w : World) (t : TrigRef) : OnlyObjs w (dropTrigger w t) := by
  rw [dropTrigger]
  split
  · exact refl w
  · split
    · exact refl w
    · split_ifs
      · exact delete w t
      · exact setTriglist w _ _

end OnlyObjs

structure OnlyTrig (t : TrigRef) (w w' : World) : Prop where
  alarms : w'.alarms = w.alarms
  awaits : w'.awaits = w.awaits
  trig : ∀ s, s ≠ t → w'.trig s = w.trig s
  nextAwait : w'.nextAwait = w.nextAwait
  attended : w'.attended = w.attended
  phase : w'.phase = w.phase
  kind : w'.kind = w.kind

lemma OnlyObjs.onlyTrig {w w' : World} (h : OnlyObjs w w') (t : TrigRef) : OnlyTrig t w w' :=
  ⟨h.alarms,h.awaits,fun s _ => by rw [h.trig],h.nextAwait,h.attended,h.phase,h.kind⟩

namespace OnlyTrig

variable {t : TrigRef} {w w' w'' : World}

lemma refl (t : TrigRef) (w : World) : OnlyTrig t w w := ⟨rfl,rfl,fun _ _ => rfl,rfl,rfl,rfl,rfl⟩

lemma trans (h : OnlyTrig t w w') (h' : OnlyTrig t w' w'') : OnlyTrig t w w'' :=
  ⟨h'.alarms.trans h.alarms,h'.awaits.trans h.awaits,fun s hs => (h'.trig s hs).trans (h.trig s hs),
    h'.nextAwait.trans h.nextAwait,h'.attended.trans h.attended,h'.phase.trans h.phase,h'.kind.trans h.kind⟩

lemma setTrig (w : World) (t : TrigRef) (tr : SyncTrigger) : OnlyTrig t w (w.setTrig t tr) :=
  ⟨rfl,rfl,fun _ hs => trig_setTrig_of_ne w tr hs,rfl,rfl,rfl,rfl⟩

end OnlyTrig

section Init

variable {w : World} {t : TrigRef} {syncObject : XID} {resType : ResType} {changes : ℕ} {now : Int64}

lemma queryValue_none (w : World) (now : Int64) : queryValue w none now = w := rfl

lemma setTrig_same (w : World) (t : TrigRef) : w.setTrig t (w.trig t) = w := by
  rw [World.setTrig,Function.update_eq_self]

lemma setTrig_setTrig (w : World) (t : TrigRef) (tr tr' : SyncTrigger) : (w.setTrig t tr).setTrig t tr' = w.setTrig t tr' := by
  simp only [World.setTrig,Function.update_idem]

lemma initCheck_eq (w : World) (tr : SyncTrigger) (pSync : Option XID) (changes : ℕ) : initCheck w tr pSync changes =
    if changes.testBit caTestType then
      if (pSync.bind w.kind).map Prod.fst = some .fence then some .fence else checkOf tr.testType
    else some tr.checkTrigger := by
  rw [initCheck]
  congr 1
  cases pSync with
  | none => simp
  | some x =>
    cases ho : w.objs x with
    | none => simp [World.kind,ho]
    | some o =>
      obtain ⟨data,l,d⟩ := o
      cases data with
      | counter value sys => simp [World.kind,ho,SyncObject.resType]
      | fence triggered => simp [World.kind,ho,SyncObject.resType]

lemma syncInitTrigger_cases (w : World) (t : TrigRef) (syncObject : XID) (resType : ResType) (changes : ℕ) (now : Int64) :
    (∃ status pSync v, status ≠ Status.success ∧ syncInitTrigger w t syncObject resType changes now =
      (status,(queryValue w pSync now).setTrig t { w.trig t with testValue := v })) ∨
    ∃ pSync v c, initTarget w t syncObject resType changes = .ok pSync ∧ initCheck w (w.trig t) pSync changes = some c ∧
      initTestValue (queryValue w pSync now) (w.trig t) pSync changes = (.success,v) ∧
      syncInitTrigger w t syncObject resType changes now = (.success,registerTrigger
        ((queryValue w pSync now).setTrig t { w.trig t with testValue := v, checkTrigger := c }) t pSync changes) := by
  unfold syncInitTrigger
  cases hf : initTarget w t syncObject resType changes with
  | error e =>
    refine .inl ⟨e,none,(w.trig t).testValue,?_,?_⟩
    · intro he
      subst he
      rw [initTarget] at hf
      split_ifs at hf
      unfold lookupSync at hf
      split at hf
      · split_ifs at hf
        · cases hf
        · cases resType <;> cases hf
      · cases resType <;> cases hf
    · rw [queryValue_none,setTrig_same]
  | ok pSync =>
    have hq := OnlyObjs.query w pSync now
    simp only [hq.trig]
    split_ifs with h1 h2
    · exact .inl ⟨_,pSync,(w.trig t).testValue,Status.noConfusion,by rw [← hq.trig,setTrig_same]⟩
    · exact .inl ⟨_,pSync,_,h2,rfl⟩
    · rw [trig_setTrig_self]
      split
      · exact .inl ⟨_,pSync,_,Status.noConfusion,rfl⟩
      · rename_i c hc
        rw [initCheck_eq,kind_setTrig,hq.kind] at hc
        refine .inr ⟨pSync,_,c,rfl,?_,Prod.ext (not_not.1 h2) rfl,?_⟩
        · rw [initCheck_eq]
          exact hc
        · rw [setTrig_setTrig]

lemma registerTrigger_onlyTrig (w : World) (t : TrigRef) (pSync : Option XID) (changes : ℕ) :
    OnlyTrig t w (registerTrigger w t pSync changes) := by
  unfold registerTrigger
  split_ifs
  · exact (((OnlyObjs.delete w t).onlyTrig t).trans (OnlyTrig.setTrig _ t _)).trans ((OnlyObjs.add _ t).onlyTrig t)
  · split
    · exact OnlyTrig.refl t w
    · exact (OnlyObjs.brackets w _).onlyTrig t

lemma registerTrigger_trig (w : World) (t : TrigRef) {pSync : Option XID} {changes : ℕ}
    (h : changes.testBit caCounter = false → pSync = (w.trig t).pSync) :
    (registerTrigger w t pSync changes).trig t = { w.trig t with pSync := pSync } := by
  unfold registerTrigger
  split_ifs with hc
  · rw [(OnlyObjs.add _ t).trig,trig_setTrig_self,(OnlyObjs.delete w t).trig]
  · have hp : pSync = (w.trig t).pSync := by
      by_cases hb : changes.testBit caCounter = true
      · exact not_not.1 fun hn => hc ⟨hb,hn⟩
      · exact h (by simpa using hb)
    split
    · rw [hp]
    · rw [(OnlyObjs.brackets w _).trig,hp]

lemma initTarget_lookup {pSync : Option XID} {x : XID} (h : initTarget w t syncObject resType changes = .ok pSync)
    (hx : pSync = some x) (hb : changes.testBit caCounter = true) : x = syncObject ∧ ∃ d, w.kind x = some (resType,d) := by
  rw [initTarget,if_pos hb] at h
  split_ifs at h with h0
  · cases h
    cases hx
  · unfold lookupSync at h
    split at h
    · rename_i o ho
      split_ifs at h with hr
      · cases h
        cases hx
        exact ⟨rfl,o.beingDestroyed,by rw [World.kind,ho,Option.map_some,hr]⟩
      · cases h
    · cases h

lemma initTarget_same {pSync : Option XID} (h : initTarget w t syncObject resType changes = .ok pSync)
    (hb : changes.testBit caCounter = false) : pSync = (w.trig t).pSync := by
  rw [initTarget,hb,if_neg Bool.false_ne_true] at h
  cases h
  rfl

lemma syncInitTrigger_onlyTrig (w : World) (t : TrigRef) (syncObject : XID) (resType : ResType) (changes : ℕ) (now : Int64) :
    OnlyTrig t w (syncInitTrigger w t syncObject resType changes now).2 := by
  obtain ⟨status,pSync,v,-,h⟩ | ⟨pSync,v,c,-,-,-,h⟩ := syncInitTrigger_cases w t syncObject resType changes now
  · rw [h]
    exact ((OnlyObjs.query w pSync now).onlyTrig t).trans (OnlyTrig.setTrig _ t _)
  · rw [h]
    exact (((OnlyObjs.query w pSync now).onlyTrig t).trans (OnlyTrig.setTrig _ t _)).trans (registerTrigger_onlyTrig _ t _ _)

lemma syncInitTrigger_failed (h : (syncInitTrigger w t syncObject resType changes now).1 ≠ .success) :
    (∀ x, (syncInitTrigger w t syncObject resType changes now).2.triglist x = w.triglist x) ∧
      ((syncInitTrigger w t syncObject resType changes now).2.trig t).pSync = (w.trig t).pSync := by
  obtain ⟨status,pSync,v,-,hr⟩ | ⟨pSync,v,c,-,-,-,hr⟩ := syncInitTrigger_cases w t syncObject resType changes now
  · rw [hr]
    constructor
    · intro x
      rw [triglist_setTrig,triglist_query]
    · rw [trig_setTrig_self]
  · rw [hr] at h
    exact absurd rfl h

lemma syncInitTrigger_done (h : (syncInitTrigger w t syncObject resType changes now).1 = .success) :
    ∃ pSync v c, initTarget w t syncObject resType changes = .ok pSync ∧ initCheck w (w.trig t) pSync changes = some c ∧
      initTestValue (queryValue w pSync now) (w.trig t) pSync changes = (.success,v) ∧
      (syncInitTrigger w t syncObject resType changes now).2.trig t =
        { w.trig t with pSync := pSync, testValue := v, checkTrigger := c } := by
  obtain ⟨status,pSync,v,hs,hr⟩ | ⟨pSync,v,c,ht,hc,hv,hr⟩ := syncInitTrigger_cases w t syncObject resType changes now
  · rw [hr] at h
    exact absurd h hs
  · refine ⟨pSync,v,c,ht,hc,hv,?_⟩
    rw [hr,registerTrigger_trig]
    · rw [trig_setTrig_self]
    · intro hb
      rw [trig_setTrig_self]
      exact initTarget_same ht hb

end Init

section Start

/-- What the first part of a request can do. -/
inductive Started (fuel : ℕ) (w : World) : Req → Status → World → Prop
  | same {req : Req} {status : Status} : Started fuel w req status w
  | newObject {req : Req} (x : XID) (data : SyncData) : w.objs x = none →
    Started fuel w req .success (w.setObj x ⟨data,[],false⟩)
  | change {req : Req} (x : XID) (value : Int64) : Started fuel w req .success (syncChangeCounter w x value)
  | free {req : Req} (x : XID) : (∀ value sys l d, w.objs x ≠ some ⟨.counter value (some sys),l,d⟩) →
    Started fuel w req .success (freeSync w x)
  | createAlarm {client : ℕ} {id : XID} {mask : ℕ} {values : List UInt32} {alloc : Bool} {now : Int64} {status : Status}
    {w' : World} : procSyncCreateAlarm fuel w client id mask values alloc now = some (status,w') →
    Started fuel w (.createAlarm client id mask values alloc now) status w'
  | changeAlarm {client : ℕ} {id : XID} {mask : ℕ} {values : List UInt32} {alloc : Bool} {now : Int64} {status : Status}
    {w' : World} : procSyncChangeAlarm fuel w client id mask values alloc now = some (status,w') →
    Started fuel w (.changeAlarm client id mask values alloc now) status w'
  | destroyAlarm {req : Req} (id : XID) : Started fuel w req .success (freeAlarm w id)
  | await {req : Req} (resType : ResType) (client : ℕ) (conds : List WaitCondition) :
    req.asksFor = some (client,conds.length) →
    Started fuel w req (procSyncAwait resType w client conds).1 (procSyncAwait resType w client conds).2
  | triggerFence {req : Req} (x : XID) (b d : Bool) (l : List (Option TrigRef)) : w.objs x = some ⟨.fence b,l,d⟩ →
    Started fuel w req .success { w.setObj x ⟨.fence true,l,d⟩ with phase := .trigger x }
  | resetFence {req : Req} (x : XID) (b d : Bool) (l : List (Option TrigRef)) : w.objs x = some ⟨.fence b,l,d⟩ →
    Started fuel w req .success (w.setObj x ⟨.fence false,l,d⟩)

lemma objs_of_isNew {w : World} {x : XID} (h : ¬w.isNew x = false) : w.objs x = none := by
  simp only [World.isNew,Bool.not_eq_false,Bool.and_eq_true,decide_eq_true_eq] at h
  exact h.1.1

lemma start_cases {fuel : ℕ} {w w' : World} {req : Req} {status : Status} (h : start fuel w req = some (status,w')) :
    Started fuel w req status w' := by
  cases req with
  | createCounter cid value =>
    simp only [start] at h
    split_ifs at h with hn
    · cases h
      exact .same
    · cases h
      exact .newObject cid _ (objs_of_isNew hn)
  | setCounter cid value =>
    simp only [start] at h
    split at h
    · cases h
      exact .same
    · cases h
      exact .change cid value
  | changeCounter cid value =>
    simp only [start] at h
    split at h
    · cases h
      exact .same
    · split_ifs at h
      · cases h
        exact .same
      · cases h
        exact .change cid _
  | destroyCounter cid =>
    simp only [start] at h
    split at h
    · cases h
      exact .same
    · rename_i hc
      cases h
      refine .free cid fun value sys l d ho => ?_
      simp only [clientCounter,ho] at hc
      cases hc
  | systemChange x value =>
    simp only [start] at h
    split at h
    · cases h
      exact .change x value
    · cases h
      exact .same
  | createAlarm client id mask values alloc now => exact .createAlarm h
  | changeAlarm client id mask values alloc now => exact .changeAlarm h
  | destroyAlarm id =>
    simp only [start] at h
    split at h
    · cases h
      exact .same
    · cases h
      exact .destroyAlarm id
  | await client conds =>
    simp only [start,Option.some_inj] at h
    rw [Prod.ext_iff] at h
    obtain ⟨rfl,rfl⟩ := h
    exact .await .counter client conds rfl
  | createFence fid triggered =>
    simp only [start] at h
    split_ifs at h with hn
    · cases h
      exact .same
    · cases h
      exact .newObject fid _ (objs_of_isNew hn)
  | awaitFence client fences =>
    simp only [start,Option.some_inj] at h
    rw [Prod.ext_iff] at h
    obtain ⟨rfl,rfl⟩ := h
    exact .await .fence client _ (by rw [Req.asksFor,List.length_map])
  | triggerFence fid =>
    simp only [start] at h
    split at h
    · rename_i ho
      cases h
      exact .triggerFence fid _ _ _ ho
    · cases h
      exact .same
  | resetFence fid =>
    simp only [start] at h
    split at h
    · rename_i ho
      split_ifs at h
      · cases h
        exact .same
      · cases h
        exact .resetFence fid _ _ _ ho
    · cases h
      exact .same
  | destroyFence fid =>
    simp only [start] at h
    split at h
    · rename_i ho
      cases h
      refine .free fid fun value sys l d ho' => ?_
      rw [ho] at ho'
      cases ho'
    · cases h
      exact .same

inductive Called (fuel : ℕ) (w : World) : World → Prop
  | settle (x : XID) (oldval : Int64) : w.phase = .change x oldval none →
    Called fuel w { syncComputeBracketValues w x with phase := .idle }
  | pass (x : XID) (oldval : Int64) (t : TrigRef) : w.phase = .change x oldval (some (some t)) →
    Called fuel w { w with phase := .change x oldval (nodeAfter (w.triglist x) t) }
  | fire (x : XID) (oldval : Int64) (t : TrigRef) (w' : World) (pnext : Option (Option TrigRef)) :
    w.phase = .change x oldval (some (some t)) → triggerFired fuel w t = some w' →
    (∀ p, pnext = some p → p ∈ w'.triglist x) → Called fuel w { w' with phase := .change x oldval pnext }
  | rest (x : XID) : w.phase = .trigger x → Called fuel w { w with phase := .idle }
  | fence (x : XID) (t : TrigRef) (w' : World) : w.phase = .trigger x → some t ∈ w.triglist x →
    triggerFired fuel w t = some w' → Called fuel w w'
  | gone (x : XID) : w.phase = .destroy x → w.triglist x = [] →
    Called fuel w { w with objs := Function.update w.objs x none, phase := .idle }
  | skip (x : XID) (l : List (Option TrigRef)) : w.phase = .destroy x → w.triglist x = none::l →
    Called fuel w (w.setTriglist x l)
  | tell (x : XID) (t : TrigRef) (l : List (Option TrigRef)) : w.phase = .destroy x → w.triglist x = some t::l →
    Called fuel w (counterDestroyed (w.setTriglist x l) t)

lemma changeNode_cases {fuel : ℕ} {w w' : World} {x : XID} {oldval : Int64} {t : TrigRef}
    (hp : w.phase = .change x oldval (some (some t))) (h : changeNode fuel w x oldval t = some w') : Called fuel w w' := by
  unfold changeNode at h
  dsimp only at h
  split_ifs at h
  · rw [Option.bind_eq_bind,Option.bind_eq_some_iff] at h
    obtain ⟨w1,hf,h⟩ := h
    rw [Option.some_inj] at h
    subst h
    refine .fire x oldval t w1 _ hp hf ?_
    -- The next node is on the list, or the walk is back at its head.
    intro p hy
    cases hna : nodeAfter (w.triglist x) t with
    | none =>
      rw [hna] at hy
      cases hy
    | some q =>
      simp only [hna] at hy
      split_ifs at hy with hq
      · cases hy
        exact hq
      · exact List.mem_of_mem_head? hy
  · rw [Option.some_inj] at h
    subst h
    exact .pass x oldval t hp

lemma next_cases {fuel : ℕ} {w w' : World} (h : next fuel w = some w') : Called fuel w w' := by
  unfold next at h
  cases hp : w.phase with
  | idle => simp [hp] at h
  | change x oldval ptl =>
    cases ptl with
    | none =>
      simp only [hp,Option.some_inj] at h
      subst h
      exact .settle x oldval hp
    | some p =>
      cases p with
      | none => simp [hp] at h
      | some t =>
        simp only [hp] at h
        exact changeNode_cases hp h
  | trigger x =>
    simp only [hp] at h
    cases hf : firstTrue w (w.triglist x) with
    | none =>
      simp only [hf,Option.some_inj] at h
      subst h
      exact .rest x hp
    | some p =>
      cases p with
      | none => simp [hf] at h
      | some t =>
        simp only [hf] at h
        exact .fence x t w' hp (List.mem_of_find?_eq_some hf) h
  | destroy x =>
    simp only [hp] at h
    cases hx : w.triglist x with
    | nil =>
      simp only [hx,Option.some_inj] at h
      subst h
      exact .gone x hp hx
    | cons p l =>
      cases p with
      | none =>
        simp only [hx,Option.some_inj] at h
        subst h
        exact .skip x l hp hx
      | some t =>
        simp only [hx,Option.some_inj] at h
        subst h
        exact .tell x t l hp hx

end Start

end Xlibre.Sync
