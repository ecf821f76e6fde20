import Xlibre.Sync.Alarms

/-! The brackets of system counters, and which functions bring them up to date. -/
namespace Xlibre.Sync

/-- The pointers last handed to `BracketValues` are those that `SyncComputeBracketValues` would hand over now. -/
def UpToDate (w : World) (y : XID) : Prop := ∀ value sys l d, w.objs y = some ⟨.counter value (some sys),l,d⟩ →
  sys.counterType ≠ .neverChanges → sys.handed = bracketValues sys.counterType value (l.filterMap id |>.map w.trig)

/-- An object and the triggers on its list are as before. -/
structure SameBrackets (y : XID) (w w' : World) : Prop where
  objs : w'.objs y = w.objs y
  trig : ∀ t, some t ∈ w.triglist y → w'.trig t = w.trig t

namespace SameBrackets

variable {y : XID} {w w' w'' : World}

lemma refl (y : XID) (w : World) : SameBrackets y w w := ⟨rfl,fun _ _ => rfl⟩

lemma triglist (h : SameBrackets y w w') : w'.triglist y = w.triglist y := by
  rw [World.triglist,h.objs]
  rfl

lemma trans (h : SameBrackets y w w') (h' : SameBrackets y w' w'') : SameBrackets y w w'' where
  objs := h'.objs.trans h.objs
  trig t ht := (h'.trig t (by rwa [h.triglist])).trans (h.trig t ht)

lemma upToDate (h : SameBrackets y w w') (hw : UpToDate w y) : UpToDate w' y := by
  intro value sys l d ho hc
  rw [h.objs] at ho
  rw [hw value sys l d ho hc]
  congr 1
  apply List.map_congr_left
  intro t ht
  obtain ⟨p,hp,rfl⟩ := List.mem_filterMap.1 ht
  refine (h.trig t ?_).symm
  rw [World.triglist,ho]
  exact hp

lemma setObj (w : World) {x : XID} (hy : y ≠ x) (o : SyncObject) : SameBrackets y w (w.setObj x o) := by
  refine ⟨?_,fun _ _ => rfl⟩
  simp only [World.setObj,Function.update_of_ne hy]

lemma setTriglist (w : World) {x : XID} (hy : y ≠ x) (l : List (Option TrigRef)) : SameBrackets y w (w.setTriglist x l) := by
  rw [World.setTriglist]
  split
  · exact refl y w
  · exact setObj w hy _

lemma brackets (w : World) {x : XID} (hy : y ≠ x) : SameBrackets y w (syncComputeBracketValues w x) := by
  rw [syncComputeBracketValues]
  split
  · split_ifs
    · exact refl y w
    · exact setObj w hy _
  · exact refl y w

lemma query (w : World) {pSync : Option XID} (hy : pSync ≠ some y) (now : Int64) : SameBrackets y w (queryValue w pSync now) := by
  unfold queryValue
  split
  · exact refl y w
  · rename_i x
    split
    · exact setObj w (fun h => hy (by rw [h])) _
    · exact refl y w

lemma setTrig (w : World) {t : TrigRef} (ht : some t ∉ w.triglist y) (tr : SyncTrigger) : SameBrackets y w (w.setTrig t tr) := by
  refine ⟨rfl,fun s hs => trig_setTrig_of_ne w tr ?_⟩
  intro he
  rw [he] at hs
  exact ht hs

lemma setAlarm (w : World) (id : XID) (al : SyncAlarm) : SameBrackets y w (w.setAlarm id al) := ⟨rfl,fun _ _ => rfl⟩

end SameBrackets

lemma upToDate_brackets (w : World) (y : XID) : UpToDate (syncComputeBracketValues w y) y := by
  intro value sys l d ho hc
  have htrig := (OnlyObjs.brackets w y).trig
  rw [htrig]
  rw [syncComputeBracketValues] at ho
  split at ho
  · rename_i value' sys' l' d' ho'
    split_ifs at ho with hn
    · rw [ho'] at ho
      cases ho
      exact absurd hn hc
    · simp only [World.setObj,Function.update_self] at ho
      cases ho
      rfl
  · rename_i hno
    exact absurd ho (hno value sys l d)

/-- An object is as it was, or its brackets have been brought up to date. -/
def Recomputed (y : XID) (w w' : World) : Prop := SameBrackets y w w' ∨ UpToDate w' y

namespace Recomputed

variable {y : XID} {w w' w'' : World}

lemma refl (y : XID) (w : World) : Recomputed y w w := .inl (SameBrackets.refl y w)

lemma trans (h : Recomputed y w w') (h' : Recomputed y w' w'') : Recomputed y w w'' := by
  obtain h' | h' := h'
  · obtain h | h := h
    · exact .inl (h.trans h')
    · exact .inr (h'.upToDate h)
  · exact .inr h'

lemma brackets (y : XID) (w : World) (x : XID) : Recomputed y w (syncComputeBracketValues w x) := by
  by_cases hy : y = x
  · subst hy
    exact .inr (upToDate_brackets w y)
  · exact .inl (SameBrackets.brackets w hy)

lemma relist (y : XID) (w : World) (x : XID) (l : List (Option TrigRef)) :
    Recomputed y w (syncComputeBracketValues (w.setTriglist x l) x) := by
  by_cases hy : y = x
  · subst hy
    exact .inr (upToDate_brackets _ y)
  · exact .inl ((SameBrackets.setTriglist w hy l).trans (SameBrackets.brackets _ hy))

lemma delete (y : XID) (w : World) (t : TrigRef) : Recomputed y w (syncDeleteTriggerFromSyncObject w t) := by
  rw [syncDeleteTriggerFromSyncObject]
  split
  · exact refl y w
  · exact relist y w _ _

lemma freeAlarm (y : XID) (w : World) (id : XID) : Recomputed y w (freeAlarm w id) :=
  (delete y w (.alarm id)).trans (.inl ⟨rfl,fun _ _ => rfl⟩)

lemma drop (hy : ∀ r, w.kind y ≠ some (r,true)) (t : TrigRef) : Recomputed y w (dropTrigger w t) := by
  rw [dropTrigger]
  split
  · exact refl y w
  · rename_i x _
    split
    · exact refl y w
    · rename_i o ho
      split_ifs with hd
      · exact delete y w t
      · refine .inl (SameBrackets.setTriglist w ?_ _)
        intro hx
        subst hx
        have hb : o.beingDestroyed = true := by simpa using hd
        exact hy o.resType (by rw [World.kind,ho,Option.map_some,hb])

lemma dropAll (hy : ∀ r, w.kind y ≠ some (r,true)) (a : ℕ) (l : List ℕ) :
    Recomputed y w (l.foldl (fun w i => dropTrigger w (.await a i)) w) := by
  induction l generalizing w with
  | nil => exact refl y w
  | cons i l ih =>
    refine (drop hy (.await a i)).trans (ih ?_)
    rw [(OnlyObjs.drop w _).kind]
    exact hy

lemma freeAwait (hy : ∀ r, w.kind y ≠ some (r,true)) (a : ℕ) : Recomputed y w (freeAwait w a) := by
  rw [Sync.freeAwait]
  split
  · exact refl y w
  · exact (dropAll hy a _).trans (.inl ⟨rfl,fun _ _ => rfl⟩)

lemma awaitFired (hy : ∀ r, w.kind y ≠ some (r,true)) (a : ℕ) : Recomputed y w (syncAwaitTriggerFired w a) := by
  have hs : SameBrackets y w { w with attended := w.attended ++ [a] } := ⟨rfl,fun _ _ => rfl⟩
  exact Recomputed.trans (.inl hs) (freeAwait (w := { w with attended := w.attended ++ [a] }) hy a)

end Recomputed

section Register

variable {live : TrigRef → Prop} {w : World} {t : TrigRef} {y : XID}

lemma Wired.not_mem (h : Wired live w) (hy : (w.trig t).pSync ≠ some y) : some t ∉ w.triglist y :=
  fun hm => hy ((h.mem y t).1 (mem_onList.2 hm)).2

lemma Wired.not_mem_delete (h : Wired live w) (t : TrigRef) (y : XID) :
    some t ∉ (syncDeleteTriggerFromSyncObject w t).triglist y :=
  fun hm => (((h.delete t).mem y t).1 (mem_onList.2 hm)).1.2 rfl

lemma upToDate_delete (hp : (w.trig t).pSync = some y) : UpToDate (syncDeleteTriggerFromSyncObject w t) y := by
  rw [syncDeleteTriggerFromSyncObject,hp]
  exact upToDate_brackets _ y

lemma upToDate_add (hp : (w.trig t).pSync = some y) (ht : some t ∉ w.triglist y) : UpToDate (syncAddTriggerToSyncObject w t) y := by
  rw [syncAddTriggerToSyncObject,hp]
  simp only [if_neg ht]
  exact upToDate_brackets _ y

lemma same_delete (hp : (w.trig t).pSync ≠ some y) : SameBrackets y w (syncDeleteTriggerFromSyncObject w t) := by
  rw [syncDeleteTriggerFromSyncObject]
  split
  · exact SameBrackets.refl y w
  · rename_i x hx
    have hy : y ≠ x := fun he => hp (by rw [hx,he])
    exact (SameBrackets.setTriglist w hy _).trans (SameBrackets.brackets _ hy)

lemma same_add (hp : (w.trig t).pSync ≠ some y) : SameBrackets y w (syncAddTriggerToSyncObject w t) := by
  rw [syncAddTriggerToSyncObject]
  split
  · exact SameBrackets.refl y w
  · rename_i x hx
    have hy : y ≠ x := fun he => hp (by rw [hx,he])
    split_ifs
    · exact SameBrackets.refl y w
    · exact (SameBrackets.setTriglist w hy _).trans (SameBrackets.brackets _ hy)

lemma Wired.registerTrigger (h : Wired live w) (pSync : Option XID) (changes : ℕ)
    (hs : changes.testBit caCounter = false → pSync = (w.trig t).pSync) (y : XID) :
    (((w.trig t).pSync = some y ∨ pSync = some y) → UpToDate (registerTrigger w t pSync changes) y) ∧
      ((w.trig t).pSync ≠ some y → pSync ≠ some y → SameBrackets y w (registerTrigger w t pSync changes)) := by
  unfold Sync.registerTrigger
  split_ifs with hc
  · have hn := h.not_mem_delete t y
    have hset := SameBrackets.setTrig (syncDeleteTriggerFromSyncObject w t) hn
      { (syncDeleteTriggerFromSyncObject w t).trig t with pSync := pSync }
    constructor
    · intro hy
      by_cases hp : pSync = some y
      · exact upToDate_add (by rw [trig_setTrig_self]; exact hp) hn
      · have hold : (w.trig t).pSync = some y := hy.resolve_right hp
        exact (same_add (by rw [trig_setTrig_self]; exact hp)).upToDate (hset.upToDate (upToDate_delete hold))
    · intro hold hp
      exact ((same_delete hold).trans hset).trans (same_add (by rw [trig_setTrig_self]; exact hp))
  · have hp : pSync = (w.trig t).pSync := by
      by_cases hb : changes.testBit caCounter = true
      · exact not_not.1 fun hn => hc ⟨hb,hn⟩
      · exact hs (by simpa using hb)
    split
    · constructor
      · intro hy
        rw [← hp] at hy
        obtain hy | hy := hy
        · cases hy
        · cases hy
      · intro _ _
        exact SameBrackets.refl y w
    · rename_i x
      constructor
      · intro hy
        rw [← hp] at hy
        have hx : x = y := by
          obtain hy | hy := hy
          · exact Option.some_inj.1 hy
          · exact Option.some_inj.1 hy
        rw [hx]
        exact upToDate_brackets w y
      · intro _ hy
        exact SameBrackets.brackets w fun he => hy (by rw [he])

lemma Wired.initDone (h : Wired live w) {syncObject : XID} {resType : ResType} {changes : ℕ} {now : Int64}
    (hs : (syncInitTrigger w t syncObject resType changes now).1 = .success) (y : XID) :
    UpToDate (syncInitTrigger w t syncObject resType changes now).2 y ∨
      ((w.trig t).pSync ≠ some y ∧ ((syncInitTrigger w t syncObject resType changes now).2.trig t).pSync ≠ some y ∧
        SameBrackets y w (syncInitTrigger w t syncObject resType changes now).2) := by
  obtain ⟨pSync',_,_,hp',-,-,htr⟩ := syncInitTrigger_done hs
  rw [htr]
  obtain ⟨status,pSync,v,hf,hr⟩ | ⟨pSync,v,c,hp,-,-,hr⟩ := syncInitTrigger_cases w t syncObject resType changes now
  · rw [hr] at hs
    exact absurd hs hf
  have he : pSync' = pSync := Except.ok.inj (hp'.symm.trans hp)
  rw [hr,he]
  have hq := OnlyObjs.query w pSync now
  have hw : Wired live ((queryValue w pSync now).setTrig t { w.trig t with testValue := v, checkTrigger := c }) :=
    (h.query pSync now).setTrig fun _ => by rw [hq.trig]
  have hreg := hw.registerTrigger (t := t) pSync changes (by
    intro hb
    rw [trig_setTrig_self]
    exact initTarget_same hp hb) y
  rw [trig_setTrig_self] at hreg
  by_cases hold : (w.trig t).pSync = some y
  · exact .inl (hreg.1 (.inl hold))
  by_cases hnew : pSync = some y
  · exact .inl (hreg.1 (.inr hnew))
  refine .inr ⟨hold,hnew,((SameBrackets.query w hnew now).trans (SameBrackets.setTrig _ ?_ _)).trans (hreg.2 hold hnew)⟩
  rw [triglist_query]
  exact h.not_mem hold

end Register

section Await

variable {w : World} {y : XID} {a i client : ℕ} {d : Option XID} {resType : ResType}

lemma addCondition_recomputed (h : Linked d w) (ha : w.awaits a = some ⟨client,i⟩) (c : WaitCondition)
    (hs : (addCondition resType w a i c).1 = .success) (y : XID) : Recomputed y w (addCondition resType w a i c).2 := by
  obtain ⟨status,hne,he⟩ | ⟨-,r,hr,⟨hne,he⟩ | ⟨hsucc,he⟩⟩ := addCondition_cases resType w a i c
  · rw [he] at hs
    exact absurd hs hne
  · rw [he] at hs
    exact absurd hs hne
  · rw [← hr] at hsucc
    rw [he,← hr]
    have hset : SameBrackets y w (w.setTrig (.await a i) c.trigger) :=
      SameBrackets.setTrig w (fun hm => not_live_next ha ((h.wired.mem y _).1 (mem_onList.2 hm)).1) _
    have hcount : ∀ w : World, SameBrackets y w (w.countCondition a) := fun w => ⟨rfl,fun _ _ => rfl⟩
    obtain hu | ⟨-,-,hsame⟩ := (h.newTrigger ha c).initDone hsucc y
    · exact .inr ((hcount _).upToDate hu)
    · exact .inl ((hset.trans hsame).trans (hcount _))

lemma addConditions_recomputed (h : Linked d w) (ha : w.awaits a = some ⟨client,i⟩) (conds : List WaitCondition)
    (hs : (addConditions resType w a i conds).1 = .success) (y : XID) : Recomputed y w (addConditions resType w a i conds).2 := by
  induction conds generalizing w i with
  | nil => exact Recomputed.refl y w
  | cons c rest ih =>
    have hstep := h.addCondition ha resType c
    rw [addConditions] at hs ⊢
    by_cases hc : (addCondition resType w a i c).1 = .success
    · rw [if_pos hc] at hstep
      simp only [if_neg (not_not.2 hc)] at hs ⊢
      exact (addCondition_recomputed h ha c hc y).trans (ih hstep.1 hstep.2 hs)
    · simp only [if_pos hc] at hs
      exact absurd hs hc

/-- Lists and test values are as before. -/
structure Untouched (y : XID) (w w' : World) : Prop where
  triglist : w'.triglist y = w.triglist y
  testValue : ∀ t, some t ∈ w.triglist y → (w'.trig t).testValue = (w.trig t).testValue

lemma SameBrackets.untouched {w' : World} (h : SameBrackets y w w') : Untouched y w w' :=
  ⟨h.triglist,fun t ht => by rw [h.trig t ht]⟩

lemma Linked.not_destroyed (h : Linked d w) (hy : d ≠ some y) (r : ResType) : w.kind y ≠ some (r,true) :=
  fun hk => hy ((h.attached.kinds y r true hk).1 rfl)

lemma await_brackets (h : Linked none w) (resType : ResType) (client : ℕ) (conds : List WaitCondition) (y : XID) :
    Untouched y w (procSyncAwait resType w client conds).2 ∨ UpToDate (procSyncAwait resType w client conds).2 y := by
  have haw := h.procSyncAwait resType client conds
  by_cases hs : (procSyncAwait resType w client conds).1 = .success
  · have hr : Recomputed y w (procSyncAwait resType w client conds).2 := by
      unfold procSyncAwait at hs ⊢
      by_cases hc : conds = []
      · rw [if_pos hc]
        exact Recomputed.refl y w
      rw [if_neg hc] at hs ⊢
      have h1 := h.prologue client
      have ha : ({ w.setAwait w.nextAwait ⟨client,0⟩ with nextAwait := w.nextAwait+1 } : World).awaits w.nextAwait =
          some ⟨client,0⟩ := by
        simp only [World.setAwait,Function.update_self]
      have hpro : SameBrackets y w { w.setAwait w.nextAwait ⟨client,0⟩ with nextAwait := w.nextAwait+1 } :=
        ⟨rfl,fun _ _ => rfl⟩
      have hl := (h1.addConditions ha resType conds).1
      have hadd := fun hs => @addConditions_recomputed _ _ _ _ _ resType h1 ha conds hs y
      dsimp only at hs ⊢
      generalize addConditions resType { w.setAwait w.nextAwait ⟨client,0⟩ with nextAwait := w.nextAwait+1 }
        w.nextAwait 0 conds = r at hs hl hadd ⊢
      by_cases hsr : r.1 = .success
      · rw [if_neg (not_not.2 hsr)] at hs ⊢
        have hr := Recomputed.trans (.inl hpro) (hadd hsr)
        obtain he | he := syncAwaitEpilogue_cases r.2 w.nextAwait (List.range conds.length)
        · rw [he]
          exact hr
        · rw [he]
          exact hr.trans (Recomputed.awaitFired (hl.not_destroyed (by simp)) _)
      · rw [if_pos hsr] at hs
        exact absurd hs hsr
    obtain hr | hr := hr
    · exact .inl hr.untouched
    · exact .inr hr
  · refine .inl ⟨(haw.failed hs).1 y,?_⟩
    intro t ht
    rw [haw.trig t]
    intro i he
    rw [he] at ht
    exact not_live_of_awaits_none h.counted.next_none i (h.live_of_mem ht)

lemma upToDate_drop (hy : ∀ r, w.kind y ≠ some (r,true)) {t : TrigRef} (hp : (w.trig t).pSync = some y) :
    UpToDate (dropTrigger w t) y := by
  rw [dropTrigger,hp]
  dsimp only
  split
  · rename_i ho
    intro value sys l b h
    rw [ho] at h
    cases h
  · rename_i o ho
    have hd : o.beingDestroyed = false := by
      by_contra hb
      have hb : o.beingDestroyed = true := by simpa using hb
      exact hy o.resType (by rw [World.kind,ho,Option.map_some,hb])
    rw [if_pos hd]
    exact upToDate_delete hp

lemma upToDate_dropAll (hy : ∀ r, w.kind y ≠ some (r,true)) {l : List ℕ} (hi : ∃ i ∈ l, (w.trig (.await a i)).pSync = some y) :
    UpToDate (l.foldl (fun w i => dropTrigger w (.await a i)) w) y := by
  induction l generalizing w with
  | nil =>
    obtain ⟨i,hi,-⟩ := hi
    cases hi
  | cons j l ih =>
    have ho := OnlyObjs.drop w (.await a j)
    have hy' : ∀ r, (dropTrigger w (.await a j)).kind y ≠ some (r,true) := by
      rw [ho.kind]
      exact hy
    by_cases hj : (w.trig (.await a j)).pSync = some y
    · obtain hs | hu := Recomputed.dropAll hy' a l
      · exact hs.upToDate (upToDate_drop hy hj)
      · exact hu
    · refine ih hy' ?_
      obtain ⟨i,hi,hp⟩ := hi
      obtain rfl | hi := List.mem_cons.1 hi
      · exact absurd hp hj
      · exact ⟨i,hi,by rwa [ho.trig]⟩

lemma upToDate_freeAwait (hy : ∀ r, w.kind y ≠ some (r,true)) (ha : w.awaits a = some ⟨client,i⟩)
    (hi : ∃ j < i, (w.trig (.await a j)).pSync = some y) : UpToDate (freeAwait w a) y := by
  rw [freeAwait,ha]
  obtain ⟨j,hj,hp⟩ := hi
  have hs : ∀ w : World, SameBrackets y w { w with awaits := Function.update w.awaits a none } := fun _ => ⟨rfl,fun _ _ => rfl⟩
  exact (hs _).upToDate (upToDate_dropAll hy ⟨j,List.mem_range.2 hj,hp⟩)

lemma addCondition_trig (resType : ResType) (w : World) (c : WaitCondition) {s : TrigRef} (hs : s ≠ .await a i) :
    (addCondition resType w a i c).2.trig s = w.trig s := by
  have hf := (OnlyTrig.setTrig w (.await a i) c.trigger).trans
    (syncInitTrigger_onlyTrig (w.setTrig (.await a i) c.trigger) (.await a i) c.counter resType caAllTrigger c.now)
  obtain ⟨status,-,h⟩ | ⟨-,r,hr,⟨-,h⟩ | ⟨-,h⟩⟩ := addCondition_cases resType w a i c
  · rw [h]
  · rw [h,← hr]
    exact hf.trig s hs
  · rw [h,← hr]
    exact hf.trig s hs

lemma addCondition_registered (h : Linked d w) (ha : w.awaits a = some ⟨client,i⟩) {c : WaitCondition}
    (hs : (addCondition resType w a i c).1 = .success) (hc : c.counter = y) :
    ((addCondition resType w a i c).2.trig (.await a i)).pSync = some y ∧ UpToDate (addCondition resType w a i c).2 y := by
  obtain ⟨status,hne,he⟩ | ⟨h0,r,hr,⟨hne,he⟩ | ⟨hsucc,he⟩⟩ := addCondition_cases resType w a i c
  · rw [he] at hs
    exact absurd hs hne
  · rw [he] at hs
    exact absurd hs hne
  rw [he]
  rw [← hr] at hsucc ⊢
  obtain ⟨pSync,v,chk,hp,-,-,htr⟩ := syncInitTrigger_done hsucc
  have hpy : pSync = some y := by
    rw [← hc]
    exact initTarget_some hp (by decide) h0
  have htr' : (((syncInitTrigger (w.setTrig (.await a i) c.trigger) (.await a i) c.counter resType caAllTrigger
      c.now).2.countCondition a).trig (.await a i)).pSync = some y := by
    simp only [World.countCondition,htr]
    exact hpy
  refine ⟨htr',?_⟩
  have hcount : ∀ w : World, SameBrackets y w (w.countCondition a) := fun w => ⟨rfl,fun _ _ => rfl⟩
  refine (hcount _).upToDate ?_
  obtain hu | ⟨-,hne,-⟩ := (h.newTrigger ha c).initDone hsucc y
  · exact hu
  · exact absurd htr' hne

lemma upToDate_addConditions (h : Linked none w) (ha : w.awaits a = some ⟨client,i⟩) (conds : List WaitCondition)
    (hi : ∃ j < i, (w.trig (.await a j)).pSync = some y) (hu : UpToDate w y) : UpToDate (addConditions resType w a i conds).2 y := by
  induction conds generalizing w i with
  | nil => exact hu
  | cons c rest ih =>
    have hstep := h.addCondition ha resType c
    have htrig : ∃ j < i, ((addCondition resType w a i c).2.trig (.await a j)).pSync = some y := by
      obtain ⟨j,hj,hp⟩ := hi
      refine ⟨j,hj,?_⟩
      rw [addCondition_trig resType w c (by simp; omega)]
      exact hp
    rw [addConditions]
    by_cases hc : (addCondition resType w a i c).1 = .success
    · rw [if_pos hc] at hstep
      simp only [if_neg (not_not.2 hc)]
      obtain ⟨j,hj,hp⟩ := htrig
      refine ih hstep.1 hstep.2 ⟨j,by omega,hp⟩ ?_
      obtain hs | hu' := addCondition_recomputed h ha c hc y
      · exact hs.upToDate hu
      · exact hu'
    · rw [if_neg hc] at hstep
      simp only [if_pos hc]
      exact upToDate_freeAwait (hstep.1.not_destroyed (by simp)) hstep.2 htrig

lemma upToDate_registered (h : Linked none w) (ha : w.awaits a = some ⟨client,i⟩) {l conds : List WaitCondition} (hl : l <+: conds)
    (hs : (addConditions resType w a i l).1 = .success) (hy : ∃ c ∈ l, c.counter = y) :
    UpToDate (addConditions resType w a i conds).2 y := by
  induction l generalizing w i conds with
  | nil =>
    obtain ⟨c,hc,-⟩ := hy
    cases hc
  | cons c l ih =>
    obtain ⟨rest,rfl⟩ := hl
    have hstep := h.addCondition ha resType c
    rw [addConditions] at hs
    rw [List.cons_append,addConditions]
    by_cases hc : (addCondition resType w a i c).1 = .success
    · rw [if_pos hc] at hstep
      simp only [if_neg (not_not.2 hc)] at hs ⊢
      by_cases hcy : c.counter = y
      · obtain ⟨hp,hu⟩ := addCondition_registered h ha hc hcy
        exact upToDate_addConditions hstep.1 hstep.2 _ ⟨i,by omega,hp⟩ hu
      · refine ih hstep.1 hstep.2 (List.prefix_append l rest) hs ?_
        obtain ⟨c',hm,hc'⟩ := hy
        obtain rfl | hm := List.mem_cons.1 hm
        · exact absurd hc' hcy
        · exact ⟨c',hm,hc'⟩
    · simp only [if_pos hc] at hs
      exact absurd hs hc

/-- A condition of `Await` gets registered on an object, whatever becomes of the await. -/
def Registers (w : World) (y : XID) : Req → Prop
  | .await client conds => ∃ l, l <+: conds ∧ (∃ c ∈ l, c.counter = y) ∧
    (addConditions .counter { w.setAwait w.nextAwait ⟨client,0⟩ with nextAwait := w.nextAwait+1 } w.nextAwait 0 l).1 = .success
  | _ => False

lemma await_registered (h : Linked none w) {client : ℕ} {conds : List WaitCondition} (hr : Registers w y (.await client conds)) :
    UpToDate (procSyncAwait .counter w client conds).2 y := by
  obtain ⟨l,hl,hy,hs⟩ := hr
  have hc : conds ≠ [] := by
    rintro rfl
    obtain ⟨c,hc,-⟩ := hy
    rw [List.prefix_nil.1 hl] at hc
    cases hc
  have h1 := h.prologue client
  have ha : ({ w.setAwait w.nextAwait ⟨client,0⟩ with nextAwait := w.nextAwait+1 } : World).awaits w.nextAwait =
      some ⟨client,0⟩ := by
    simp only [World.setAwait,Function.update_self]
  have hu := upToDate_registered h1 ha hl hs hy
  have hlinked := (h1.addConditions ha .counter conds).1
  unfold procSyncAwait
  rw [if_neg hc]
  dsimp only
  generalize addConditions .counter { w.setAwait w.nextAwait ⟨client,0⟩ with nextAwait := w.nextAwait+1 }
    w.nextAwait 0 conds = r at hu hlinked ⊢
  split_ifs with hsr
  · exact hu
  · obtain he | he := syncAwaitEpilogue_cases r.2 w.nextAwait (List.range conds.length)
    · rw [he]
      exact hu
    · rw [he]
      obtain hs | hu' := Recomputed.awaitFired (hlinked.not_destroyed (by simp)) w.nextAwait
      · exact hs.upToDate hu
      · exact hu'

end Await

end Xlibre.Sync
