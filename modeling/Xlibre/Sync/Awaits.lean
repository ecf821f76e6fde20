import Xlibre.Sync.Linked

/-! Awaits: what freeing one and making one does to trigger lists. -/
namespace Xlibre.Sync

section Free

variable {w : World} {a : ℕ} {d : Option XID}

/-- Two worlds that differ in the values and lists of sync objects, and of which the second has no await `a`. -/
structure OnlyAwait (a : ℕ) (w w' : World) : Prop where
  alarms : w'.alarms = w.alarms
  awaits : w'.awaits = Function.update w.awaits a none
  trig : w'.trig = w.trig
  nextAwait : w'.nextAwait = w.nextAwait
  attended : w'.attended = w.attended
  phase : w'.phase = w.phase
  kind : w'.kind = w.kind

lemma freeAwait_onlyAwait (w : World) (a : ℕ) : OnlyAwait a w (freeAwait w a) := by
  rw [freeAwait]
  cases ha : w.awaits a with
  | none =>
    have hu : Function.update w.awaits a none = w.awaits := by rw [← ha,Function.update_eq_self]
    exact ⟨rfl,hu.symm,rfl,rfl,rfl,rfl,rfl⟩
  | some h =>
    have ho := OnlyObjs.dropAll w a (List.range h.numWaitconditions)
    exact ⟨ho.alarms,by rw [← ho.awaits],ho.trig,ho.nextAwait,ho.attended,ho.phase,ho.kind⟩

lemma OnlyAwait.live {w' : World} (h : OnlyAwait a w w') (s : TrigRef) :
    Live w' s ↔ Live w s ∧ ∀ i, s ≠ .await a i := by
  cases s with
  | alarm id => simp [Live,h.alarms]
  | await b i =>
    by_cases hb : b = a
    · subst hb
      simp [Live,h.awaits]
    · simp [Live,h.awaits,hb]

lemma Wired.freeAwait {live : TrigRef → Prop} (h : Wired live w) (ho : ∀ s, (∀ i, s ≠ .await a i) → (live s ↔ Live w s))
    (ha : ∀ i, live (.await a i) → Live w (.await a i)) : Wired (Live (freeAwait w a)) (freeAwait w a) := by
  have hlive := (freeAwait_onlyAwait w a).live
  cases hw : w.awaits a with
  | none =>
    have he : Sync.freeAwait w a = w := by rw [Sync.freeAwait,hw]
    rw [he] at hlive ⊢
    apply h.congr (fun _ => rfl)
    intro s x
    rw [hlive]
    by_cases hs : ∀ i, s ≠ .await a i
    · rw [ho s hs]
      tauto
    · push Not at hs
      obtain ⟨i,rfl⟩ := hs
      have hn : ¬live (.await a i) := by
        intro hl
        obtain ⟨b,hb,-⟩ := ha i hl
        rw [hw] at hb
        cases hb
      simp [hn]
  | some b =>
    have hd := h.dropAll a (List.range b.numWaitconditions)
    have he : Sync.freeAwait w a = { (List.range b.numWaitconditions).foldl (fun w i => dropTrigger w (.await a i)) w with
        awaits := Function.update ((List.range b.numWaitconditions).foldl (fun w i => dropTrigger w (.await a i)) w).awaits a
          none } := by
      rw [Sync.freeAwait,hw]
    rw [he] at hlive ⊢
    refine hd.congr (fun _ => rfl) ?_
    intro s x
    rw [hlive]
    apply and_congr_left
    intro _
    by_cases hs : ∀ i, s ≠ .await a i
    · rw [ho s hs]
      exact ⟨fun hl => ⟨hl.1,fun i _ => hs i⟩,fun hl => ⟨hl.1,hs⟩⟩
    · constructor
      · exact fun hl => absurd hl.2 hs
      · intro hl
        push Not at hs
        obtain ⟨i,rfl⟩ := hs
        obtain ⟨b',hb',hi⟩ := ha i hl.1
        rw [hw] at hb'
        cases hb'
        exact absurd rfl (hl.2 i (List.mem_range.2 hi))

lemma none_mem_drop {t : TrigRef} {x : XID} (hk : ∀ x r b, w.kind x = some (r,b) → (b = true ↔ d = some x))
    (h : none ∈ (dropTrigger w t).triglist x) : none ∈ w.triglist x ∨ d = some x := by
  rw [dropTrigger] at h
  split at h
  · exact .inl h
  · rename_i y _
    split at h
    · exact .inl h
    · rename_i o ho
      split_ifs at h with hd
      · exact .inl (none_mem_delete h)
      · obtain ⟨rfl,-⟩ | h := mem_setTriglist h
        · refine .inr ((hk x o.resType o.beingDestroyed ?_).1 (by simpa using hd))
          rw [World.kind,ho,Option.map_some]
        · exact .inl h

lemma none_mem_dropAll {x : XID} (hk : ∀ x r b, w.kind x = some (r,b) → (b = true ↔ d = some x)) (l : List ℕ)
    (h : none ∈ (l.foldl (fun w i => dropTrigger w (.await a i)) w).triglist x) : none ∈ w.triglist x ∨ d = some x := by
  induction l generalizing w with
  | nil => exact .inl h
  | cons i l ih =>
    obtain h | h := ih (w := dropTrigger w (.await a i)) (by rwa [(OnlyObjs.drop w _).kind]) h
    · exact none_mem_drop hk h
    · exact .inr h

lemma Attached.freeAwait (h : Attached d w) (a : ℕ) : Attached d (freeAwait w a) := by
  have hf := freeAwait_onlyAwait w a
  constructor
  · intro x hx
    rw [Sync.freeAwait] at hx
    split at hx
    · exact h.clean x hx
    · obtain hx | hx := none_mem_dropAll h.kinds _ hx
      · exact h.clean x hx
      · exact hx
  · rw [hf.kind]
    exact h.kinds
  · rw [hf.kind,hf.trig,hf.alarms]
    exact h.alarms
  · intro b i hl
    rw [hf.trig]
    exact h.conditions b i ((hf.live _).1 hl).1

lemma Linked.freeAwait (h : Linked d w) (a : ℕ) : Linked d (freeAwait w a) := by
  have hf := freeAwait_onlyAwait w a
  refine ⟨h.wired.freeAwait (fun _ _ => Iff.rfl) (fun _ hl => hl),h.attached.freeAwait a,?_⟩
  obtain ⟨hb,hg,ho⟩ := h.counted
  constructor
  · intro b hn
    rw [hf.awaits] at hn
    rw [hf.nextAwait]
    by_cases hba : b = a
    · subst hba
      rw [Function.update_self] at hn
      exact absurd rfl hn
    · rw [Function.update_of_ne hba] at hn
      exact hb b hn
  · intro b hba
    rw [hf.attended] at hba
    rw [hf.nextAwait,hf.awaits,Function.update_apply]
    refine ⟨(hg b hba).1,?_⟩
    split_ifs
    · rfl
    · exact (hg b hba).2
  · rw [hf.attended]
    exact ho

lemma Wired.awaitFired {live : TrigRef → Prop} (h : Wired live w) (ho : ∀ s, (∀ i, s ≠ .await a i) → (live s ↔ Live w s))
    (hl : ∀ i, live (.await a i) → Live w (.await a i)) (hw : Attached d w) (hc : Counted w) (ha : w.awaits a ≠ none) :
    Linked d (syncAwaitTriggerFired w a) := by
  have hf := freeAwait_onlyAwait { w with attended := w.attended ++ [a] } a
  have hn : a ∉ w.attended := fun hm => ha (hc.gone a hm).2
  have hat : Attached d { w with attended := w.attended ++ [a] } := ⟨hw.clean,hw.kinds,hw.alarms,hw.conditions⟩
  have hwi : Wired live { w with attended := w.attended ++ [a] } := ⟨h.nodup,h.mem⟩
  refine ⟨hwi.freeAwait ho hl,hat.freeAwait a,?_,?_,?_⟩
  · intro b hb
    rw [syncAwaitTriggerFired,hf.awaits,Function.update_apply] at hb
    rw [syncAwaitTriggerFired,hf.nextAwait]
    split_ifs at hb
    · exact absurd rfl hb
    · exact hc.below b hb
  · intro b hb
    rw [syncAwaitTriggerFired,hf.attended] at hb
    rw [syncAwaitTriggerFired,hf.nextAwait,hf.awaits,Function.update_apply]
    obtain hb | hb := List.mem_append.1 hb
    · refine ⟨(hc.gone b hb).1,?_⟩
      split_ifs
      · rfl
      · exact (hc.gone b hb).2
    · rw [List.mem_singleton] at hb
      subst hb
      exact ⟨hc.below b ha,if_pos rfl⟩
  · rw [syncAwaitTriggerFired,hf.attended]
    refine List.nodup_append.2 ⟨hc.once,by simp,?_⟩
    intro b hb c hc
    rw [List.mem_singleton] at hc
    intro he
    rw [he,hc] at hb
    exact hn hb

lemma Linked.awaitFired (h : Linked d w) (ha : w.awaits a ≠ none) : Linked d (syncAwaitTriggerFired w a) :=
  h.wired.awaitFired (fun _ _ => Iff.rfl) (fun _ hl => hl) h.attached h.counted ha

end Free

section Others

lemma addCondition_cases (resType : ResType) (w : World) (a i : ℕ) (c : WaitCondition) :
    (∃ status, status ≠ Status.success ∧ addCondition resType w a i c = (status,w)) ∨
    (c.counter ≠ 0 ∧ ∃ r, syncInitTrigger (w.setTrig (.await a i) c.trigger) (.await a i) c.counter resType caAllTrigger c.now = r ∧
      ((r.1 ≠ .success ∧ addCondition resType w a i c = r) ∨
        (r.1 = .success ∧ addCondition resType w a i c = (.success,r.2.countCondition a)))) := by
  unfold addCondition
  by_cases hc : c.counter = 0
  · rw [if_pos hc]
    exact .inl ⟨_,by cases resType <;> exact Status.noConfusion,rfl⟩
  · rw [if_neg hc]
    refine .inr ⟨hc,_,rfl,?_⟩
    generalize syncInitTrigger (w.setTrig (.await a i) c.trigger) (.await a i) c.counter resType caAllTrigger c.now = r
    by_cases hr : r.1 = .success
    · exact .inr ⟨hr,if_neg (not_not.2 hr)⟩
    · exact .inl ⟨hr,if_pos hr⟩

/-- The nodes of a list that do not belong to an await. -/
def isOther (a : ℕ) : Option TrigRef → Bool
  | some (.await b _) => b ≠ a
  | some (.alarm _) => true
  | none => false

def others (a : ℕ) (l : List (Option TrigRef)) : List (Option TrigRef) := l.filter (isOther a)

variable {a : ℕ}

lemma others_erase (l : List (Option TrigRef)) (i : ℕ) : others a (l.erase (some (.await a i))) = others a l := by
  induction l with
  | nil => rfl
  | cons p l ih =>
    by_cases hp : p = some (.await a i)
    · rw [hp,List.erase_cons_head,others,others,List.filter_cons_of_neg (by simp [isOther])]
    · rw [List.erase_cons_tail (by simpa using hp)]
      unfold others at ih ⊢
      rw [List.filter_cons,List.filter_cons,ih]

lemma others_replace (l : List (Option TrigRef)) (i : ℕ) : others a (l.replace (some (.await a i)) none) = others a l := by
  induction l with
  | nil => rfl
  | cons p l ih =>
    by_cases hp : p = some (.await a i)
    · rw [hp,List.replace_cons_self,others,others,List.filter_cons_of_neg (by simp [isOther]),
        List.filter_cons_of_neg (by simp [isOther])]
    · rw [replace_cons_of_ne _ _ hp]
      unfold others at ih ⊢
      rw [List.filter_cons,List.filter_cons,ih]

lemma others_cons (l : List (Option TrigRef)) (i : ℕ) : others a (some (.await a i)::l) = others a l :=
  List.filter_cons_of_neg (by simp [isOther])

structure AwaitFrame (a : ℕ) (w w' : World) : Prop where
  alarms : w'.alarms = w.alarms
  awaits : ∀ b, b ≠ a → w'.awaits b = w.awaits b
  trig : ∀ s, (∀ i, s ≠ .await a i) → w'.trig s = w.trig s
  nextAwait : w'.nextAwait = w.nextAwait
  attended : w'.attended = w.attended
  phase : w'.phase = w.phase
  kind : w'.kind = w.kind
  others : ∀ x, others a (w'.triglist x) = others a (w.triglist x)

namespace AwaitFrame

variable {w w' w'' : World}

lemma refl (w : World) : AwaitFrame a w w :=
  ⟨rfl,fun _ _ => rfl,fun _ _ => rfl,rfl,rfl,rfl,rfl,fun _ => rfl⟩

lemma trans (h : AwaitFrame a w w') (h' : AwaitFrame a w' w'') : AwaitFrame a w w'' :=
  ⟨h'.alarms.trans h.alarms,fun b hb => (h'.awaits b hb).trans (h.awaits b hb),
    fun s hs => (h'.trig s hs).trans (h.trig s hs),h'.nextAwait.trans h.nextAwait,h'.attended.trans h.attended,
    h'.phase.trans h.phase,h'.kind.trans h.kind,fun x => (h'.others x).trans (h.others x)⟩

lemma ofTrig {i : ℕ} (h : OnlyTrig (.await a i) w w') (ho : ∀ x, Sync.others a (w'.triglist x) = Sync.others a (w.triglist x)) :
    AwaitFrame a w w' :=
  ⟨h.alarms,fun b _ => by rw [h.awaits],fun s hs => h.trig s (hs i),h.nextAwait,h.attended,h.phase,h.kind,ho⟩

lemma setTrig (w : World) (i : ℕ) (tr : SyncTrigger) : AwaitFrame a w (w.setTrig (.await a i) tr) :=
  ofTrig (OnlyTrig.setTrig w _ tr) fun _ => rfl

lemma countCondition (w : World) : AwaitFrame a w (w.countCondition a) where
  alarms := rfl
  awaits b hb := by simp only [World.countCondition,Function.update_of_ne hb]
  trig _ _ := rfl
  nextAwait := rfl
  attended := rfl
  phase := rfl
  kind := rfl
  others _ := rfl

lemma setTriglist (w : World) (x : XID) {l : List (Option TrigRef)} (h : Sync.others a l = Sync.others a (w.triglist x)) (y : XID) :
    Sync.others a ((w.setTriglist x l).triglist y) = Sync.others a (w.triglist y) := by
  by_cases hk : w.kind x = none
  · rw [World.kind,Option.map_eq_none_iff] at hk
    rw [World.setTriglist,hk]
  · rw [triglist_setTriglist w x y l hk]
    split_ifs with hy
    · rw [hy,h]
    · rfl

lemma delete (w : World) (i : ℕ) : AwaitFrame a w (syncDeleteTriggerFromSyncObject w (.await a i)) := by
  apply ofTrig ((OnlyObjs.delete w (.await a i)).onlyTrig (.await a i))
  intro x
  rw [triglist_delete]
  split_ifs
  · exact others_erase _ i
  · rfl

lemma add (w : World) (i : ℕ) : AwaitFrame a w (syncAddTriggerToSyncObject w (.await a i)) := by
  apply ofTrig ((OnlyObjs.add w (.await a i)).onlyTrig (.await a i))
  intro x
  rw [syncAddTriggerToSyncObject]
  split
  · rfl
  · split_ifs
    · rfl
    · rw [triglist_brackets]
      exact setTriglist w _ (others_cons _ i) x

lemma drop (w : World) (i : ℕ) : AwaitFrame a w (dropTrigger w (.await a i)) := by
  rw [dropTrigger]
  split
  · exact refl w
  · rename_i x _
    split
    · exact refl w
    · rename_i o ho
      split_ifs
      · exact delete w i
      · refine ofTrig ((OnlyObjs.setTriglist w _ _).onlyTrig (.await a i)) (setTriglist w x ?_)
        rw [others_replace,World.triglist,ho]

lemma register (w : World) (i : ℕ) (pSync : Option XID) (changes : ℕ) :
    AwaitFrame a w (registerTrigger w (.await a i) pSync changes) := by
  unfold registerTrigger
  split_ifs
  · exact ((delete w i).trans (setTrig _ i _)).trans (add _ i)
  · split
    · exact refl w
    · exact ofTrig ((OnlyObjs.brackets w _).onlyTrig (.await a i)) fun x => by rw [triglist_brackets]

lemma query (w : World) (pSync : Option XID) (now : Int64) : AwaitFrame a w (queryValue w pSync now) :=
  ofTrig ((OnlyObjs.query w pSync now).onlyTrig (.await a 0)) fun x => by rw [triglist_query]

lemma init (w : World) (i : ℕ) (syncObject : XID) (resType : ResType) (changes : ℕ) (now : Int64) :
    AwaitFrame a w (syncInitTrigger w (.await a i) syncObject resType changes now).2 := by
  obtain ⟨status,pSync,v,-,hr⟩ | ⟨pSync,v,c,-,-,-,hr⟩ := syncInitTrigger_cases w (.await a i) syncObject resType changes now
  · rw [hr]
    exact (query w pSync now).trans (setTrig _ i _)
  · rw [hr]
    exact ((query w pSync now).trans (setTrig _ i _)).trans (register _ i pSync changes)

lemma freeAwait (w : World) : AwaitFrame a w (freeAwait w a) := by
  rw [Sync.freeAwait]
  split
  · exact refl w
  · rename_i h _
    have hd : ∀ (l : List ℕ) (w : World), AwaitFrame a w (l.foldl (fun w i => dropTrigger w (.await a i)) w) := by
      intro l
      induction l with
      | nil => exact refl
      | cons i l ih => exact fun w => (drop w i).trans (ih _)
    refine (hd (List.range h.numWaitconditions) w).trans ⟨rfl,?_,fun _ _ => rfl,rfl,rfl,rfl,rfl,fun _ => rfl⟩
    intro b hb
    simp only [Function.update_of_ne hb]

lemma addCondition (resType : ResType) (w : World) (i : ℕ) (c : WaitCondition) :
    AwaitFrame a w (addCondition resType w a i c).2 := by
  obtain ⟨status,-,h⟩ | ⟨-,r,hr,⟨-,h⟩ | ⟨-,h⟩⟩ := addCondition_cases resType w a i c
  · rw [h]
    exact refl w
  · rw [h,← hr]
    exact (setTrig w i _).trans (init _ i _ _ _ _)
  · rw [h,← hr]
    exact ((setTrig w i _).trans (init _ i _ _ _ _)).trans (countCondition _)

lemma addConditions (resType : ResType) (w : World) (i : ℕ) (conds : List WaitCondition) :
    AwaitFrame a w (addConditions resType w a i conds).2 := by
  induction conds generalizing w i with
  | nil => exact refl w
  | cons c rest ih =>
    rw [Sync.addConditions]
    split_ifs
    · exact (addCondition resType w i c).trans (freeAwait _)
    · exact (addCondition resType w i c).trans (ih _ _)

end AwaitFrame

end Others

section Make

variable {w : World} {a i client : ℕ} {d : Option XID} {resType : ResType}

lemma initTarget_some {t : TrigRef} {syncObject : XID} {changes : ℕ} {pSync : Option XID}
    (h : initTarget w t syncObject resType changes = .ok pSync) (hb : changes.testBit caCounter = true) (h0 : syncObject ≠ 0) :
    pSync = some syncObject := by
  rw [initTarget,if_pos hb,if_neg h0,lookupSync.eq_def] at h
  split at h
  · split_ifs at h
    · cases h
      rfl
    · cases h
  · cases h

lemma awaits_countCondition {h : SyncAwaitHeader} (ha : w.awaits a = some h) :
    (w.countCondition a).awaits a = some { h with numWaitconditions := h.numWaitconditions+1 } := by
  simp only [World.countCondition,Function.update_self,ha,Option.map_some]

lemma live_countCondition (ha : w.awaits a = some ⟨client,i⟩) (s : TrigRef) :
    Live (w.countCondition a) s ↔ Live w s ∨ s = .await a i := by
  cases s with
  | alarm id => simp [Live,World.countCondition]
  | await b j =>
    by_cases hb : b = a
    · subst hb
      simp only [Live,awaits_countCondition ha,ha,Option.some_inj,exists_eq_left',TrigRef.await.injEq,true_and]
      omega
    · simp [Live,World.countCondition,hb]

lemma Attached.writeTrigger {w' : World} (h : Attached d w) (ht : ¬Live w (.await a i)) (hf : OnlyTrig (.await a i) w w')
    (hn : ∀ x, none ∈ w'.triglist x → none ∈ w.triglist x) : Attached d w' where
  clean x hx := h.clean x (hn x hx)
  kinds := by
    rw [hf.kind]
    exact h.kinds
  alarms id x hid hp := by
    rw [hf.alarms] at hid
    rw [hf.trig _ (by simp)] at hp
    rw [hf.kind]
    exact h.alarms id x hid hp
  conditions b j hl := by
    rw [hf.live] at hl
    rw [hf.trig _ fun he => ht (he ▸ hl)]
    exact h.conditions b j hl

lemma Attached.countCondition (h : Attached d w) (ha : w.awaits a = some ⟨client,i⟩)
    (hp : (w.trig (.await a i)).pSync ≠ none) : Attached d (w.countCondition a) where
  clean := h.clean
  kinds := h.kinds
  alarms := h.alarms
  conditions b j hl := by
    obtain hl | hl := (live_countCondition ha _).1 hl
    · exact h.conditions b j hl
    · rw [hl]
      exact hp

lemma Counted.countCondition (h : Counted w) (ha : w.awaits a ≠ none) : Counted (w.countCondition a) where
  below b hb := by
    by_cases hba : b = a
    · subst hba
      exact h.below b ha
    · simp only [World.countCondition,Function.update_of_ne hba] at hb
      exact h.below b hb
  gone b hb := by
    obtain ⟨hlt,hn⟩ := h.gone b hb
    refine ⟨hlt,?_⟩
    have hba : b ≠ a := fun he => ha (he ▸ hn)
    simp only [World.countCondition,Function.update_of_ne hba]
    exact hn
  once := h.once

lemma not_live_next (ha : w.awaits a = some ⟨client,i⟩) : ¬Live w (.await a i) := by
  intro hl
  obtain ⟨b,hb,hi⟩ := hl
  rw [ha] at hb
  cases hb
  exact lt_irrefl _ hi

lemma Linked.newTrigger (h : Linked d w) (ha : w.awaits a = some ⟨client,i⟩) (c : WaitCondition) :
    Wired (fun s => Live w s ∨ s = .await a i) (w.setTrig (.await a i) c.trigger) := by
  refine (h.wired.setTrig fun hl => absurd hl (not_live_next ha)).change_live (t := .await a i) ?_ ?_
  · rw [trig_setTrig_self]
    rfl
  · intro s hs
    simp only [hs,or_false]

lemma Linked.addCondition (h : Linked d w) (ha : w.awaits a = some ⟨client,i⟩) (resType : ResType) (c : WaitCondition) :
    Linked d (addCondition resType w a i c).2 ∧
      (addCondition resType w a i c).2.awaits a =
        some ⟨client,if (addCondition resType w a i c).1 = .success then i+1 else i⟩ := by
  obtain ⟨status,hs,he⟩ | ⟨h0,r,hr,hc⟩ := addCondition_cases resType w a i c
  · rw [he,if_neg hs]
    exact ⟨h,ha⟩
  have ht := not_live_next ha
  have hi := (h.newTrigger ha c).init (t := .await a i) (.inr rfl) c.counter resType caAllTrigger c.now
  have hf := (OnlyTrig.setTrig w (.await a i) c.trigger).trans
    (syncInitTrigger_onlyTrig (w.setTrig (.await a i) c.trigger) (.await a i) c.counter resType caAllTrigger c.now)
  have hat := h.attached.writeTrigger ht hf fun x hx => by
    have hx := none_mem_init hx
    rwa [triglist_setTrig] at hx
  have hcount := h.counted.congr hf.awaits hf.nextAwait hf.attended
  obtain ⟨hs,hc⟩ | ⟨hs,hc⟩ := hc
  · rw [← hr] at hs
    have hp := (syncInitTrigger_failed hs).2
    rw [trig_setTrig_self] at hp
    rw [hc,← hr,if_neg hs]
    refine ⟨⟨?_,hat,hcount⟩,by rw [hf.awaits,ha]⟩
    refine hi.change_live hp fun s hs => ?_
    rw [hf.live]
    simp only [hs,or_false]
  · rw [← hr] at hs
    obtain ⟨pSync,v,ck,hp,-,-,htr⟩ := syncInitTrigger_done hs
    have hps := initTarget_some hp (by decide) h0
    rw [← hf.awaits] at ha
    rw [hc,← hr,if_pos rfl,awaits_countCondition ha]
    refine ⟨⟨?_,hat.countCondition ha ?_,hcount.countCondition ?_⟩,rfl⟩
    · refine hi.congr (fun _ => rfl) ?_
      intro s x
      rw [live_countCondition ha,hf.live]
      rfl
    · rw [htr,hps]
      exact Option.some_ne_none _
    · rw [ha]
      exact Option.some_ne_none _

lemma Linked.addConditions (h : Linked d w) (ha : w.awaits a = some ⟨client,i⟩) (resType : ResType)
    (conds : List WaitCondition) :
    Linked d (addConditions resType w a i conds).2 ∧
      (addConditions resType w a i conds).2.awaits a =
        if (addConditions resType w a i conds).1 = .success then some ⟨client,i+conds.length⟩ else none := by
  induction conds generalizing w i with
  | nil => exact ⟨h,ha⟩
  | cons c rest ih =>
    have hstep := h.addCondition ha resType c
    rw [Sync.addConditions]
    by_cases hs : (Sync.addCondition resType w a i c).1 = .success
    · rw [if_pos hs] at hstep
      simp only [if_neg (not_not.2 hs)]
      obtain ⟨hl,hlen⟩ := ih hstep.1 hstep.2
      refine ⟨hl,?_⟩
      rw [hlen,List.length_cons,Nat.add_right_comm,Nat.add_assoc]
    · simp only [if_pos hs,if_neg hs]
      refine ⟨hstep.1.freeAwait a,?_⟩
      rw [(freeAwait_onlyAwait _ a).awaits,Function.update_self]

lemma Linked.others_eq (h : Linked none w) (ha : ∀ i, ¬Live w (.await a i)) (x : XID) : others a (w.triglist x) = w.triglist x := by
  apply List.filter_eq_self.2
  intro p hp
  cases p with
  | none => exact absurd (h.attached.clean x hp) (by simp)
  | some t =>
    cases t with
    | alarm id => rfl
    | await b i =>
      have hl := ((h.wired.mem x (.await b i)).1 (mem_onList.2 hp)).1
      rw [isOther,decide_eq_true_eq]
      intro hb
      subst hb
      exact ha i hl

lemma not_live_of_awaits_none (h : w.awaits a = none) (i : ℕ) : ¬Live w (.await a i) := by
  intro hl
  obtain ⟨b,hb,-⟩ := hl
  rw [h] at hb
  cases hb

lemma Counted.next_none (h : Counted w) : w.awaits w.nextAwait = none := by
  by_contra hn
  exact lt_irrefl _ (h.below _ hn)

lemma Linked.prologue (h : Linked d w) (client : ℕ) :
    Linked d { w.setAwait w.nextAwait ⟨client,0⟩ with nextAwait := w.nextAwait+1 } := by
  have hn := h.counted.next_none
  have hlive : ∀ s, Live { w.setAwait w.nextAwait ⟨client,0⟩ with nextAwait := w.nextAwait+1 } s ↔ Live w s := by
    intro s
    cases s with
    | alarm id => rfl
    | await b i =>
      by_cases hb : b = w.nextAwait
      · subst hb
        simp [Live,World.setAwait,hn]
      · simp [Live,World.setAwait,hb]
  refine ⟨?_,⟨h.attached.clean,h.attached.kinds,h.attached.alarms,?_⟩,?_,?_,h.counted.once⟩
  · refine h.wired.congr (fun _ => rfl) ?_
    intro s x
    rw [hlive]
    rfl
  · intro b i hl
    exact h.attached.conditions b i ((hlive _).1 hl)
  · intro b hb
    by_cases hbn : b = w.nextAwait
    · rw [hbn]
      exact Nat.lt_succ_self _
    · simp only [World.setAwait,Function.update_of_ne hbn] at hb
      exact Nat.lt_succ_of_lt (h.counted.below b hb)
  · intro b hb
    obtain ⟨hlt,hnone⟩ := h.counted.gone b hb
    refine ⟨Nat.lt_succ_of_lt hlt,?_⟩
    simp only [World.setAwait,Function.update_of_ne (Nat.ne_of_lt hlt)]
    exact hnone

lemma syncAwaitEpilogue_cases (w : World) (a : ℕ) (l : List ℕ) :
    syncAwaitEpilogue w a l = w ∨ syncAwaitEpilogue w a l = syncAwaitTriggerFired w a := by
  induction l with
  | nil => exact .inl rfl
  | cons i l ih =>
    unfold syncAwaitEpilogue
    dsimp only
    split_ifs
    · exact .inr rfl
    · exact ih

/-- What an `Await` or `AwaitFence` request leaves behind. -/
structure Awaited (w : World) (client n : ℕ) (r : Status × World) : Prop where
  linked : Linked none r.2
  phase : r.2.phase = w.phase
  awaits : ∀ b, b ≠ w.nextAwait → r.2.awaits b = w.awaits b
  trig : ∀ s, (∀ i, s ≠ .await w.nextAwait i) → r.2.trig s = w.trig s
  failed : r.1 ≠ .success → (∀ x, r.2.triglist x = w.triglist x) ∧ r.2.attended = w.attended
  done : r.1 = .success → (r.2.awaits w.nextAwait = some ⟨client,n⟩ ∧ r.2.attended = w.attended) ∨
    r.2.attended = w.attended ++ [w.nextAwait]

lemma Linked.procSyncAwait (h : Linked none w) (resType : ResType) (client : ℕ) (conds : List WaitCondition) :
    Awaited w client conds.length (procSyncAwait resType w client conds) := by
  unfold Sync.procSyncAwait
  by_cases hc : conds = []
  · rw [if_pos hc]
    exact ⟨h,rfl,fun _ _ => rfl,fun _ _ => rfl,fun _ => ⟨fun _ => rfl,rfl⟩,fun hs => by cases hs⟩
  rw [if_neg hc]
  have h1 := h.prologue client
  have ha : ({ w.setAwait w.nextAwait ⟨client,0⟩ with nextAwait := w.nextAwait+1 } : World).awaits w.nextAwait =
      some ⟨client,0⟩ := by
    simp only [World.setAwait,Function.update_self]
  obtain ⟨hl,haw⟩ := h1.addConditions ha resType conds
  have hf := AwaitFrame.addConditions (a := w.nextAwait) resType
    { w.setAwait w.nextAwait ⟨client,0⟩ with nextAwait := w.nextAwait+1 } 0 conds
  have hother : ∀ b, b ≠ w.nextAwait →
      ({ w.setAwait w.nextAwait ⟨client,0⟩ with nextAwait := w.nextAwait+1 } : World).awaits b = w.awaits b := by
    intro b hb
    simp only [World.setAwait,Function.update_of_ne hb]
  dsimp only
  generalize Sync.addConditions resType { w.setAwait w.nextAwait ⟨client,0⟩ with nextAwait := w.nextAwait+1 } w.nextAwait 0
    conds = r at hl haw hf ⊢
  by_cases hs : r.1 = .success
  · rw [if_pos hs,Nat.zero_add] at haw
    rw [if_neg (not_not.2 hs)]
    obtain he | he := syncAwaitEpilogue_cases r.2 w.nextAwait (List.range conds.length)
    · rw [he]
      exact ⟨hl,hf.phase,fun b hb => (hf.awaits b hb).trans (hother b hb),hf.trig,fun hn => absurd rfl hn,
        fun _ => .inl ⟨haw,hf.attended⟩⟩
    · have hfr := freeAwait_onlyAwait { r.2 with attended := r.2.attended ++ [w.nextAwait] } w.nextAwait
      rw [he]
      refine ⟨hl.awaitFired (by rw [haw]; exact Option.some_ne_none _),hfr.phase.trans hf.phase,?_,?_,
        fun hn => absurd rfl hn,?_⟩
      · intro b hb
        refine Eq.trans ?_ ((hf.awaits b hb).trans (hother b hb))
        rw [syncAwaitTriggerFired,hfr.awaits,Function.update_of_ne hb]
      · intro s hs
        rw [syncAwaitTriggerFired,hfr.trig]
        exact hf.trig s hs
      · intro _
        refine .inr (hfr.attended.trans ?_)
        rw [hf.attended]
        rfl
  · rw [if_neg hs] at haw
    rw [if_pos hs]
    refine ⟨hl,hf.phase,fun b hb => (hf.awaits b hb).trans (hother b hb),hf.trig,fun _ => ⟨?_,hf.attended⟩,
      fun hn => absurd hn hs⟩
    intro x
    rw [← hl.others_eq (not_live_of_awaits_none haw) x,hf.others x]
    exact h.others_eq (not_live_of_awaits_none h.counted.next_none) x

end Make

end Xlibre.Sync
