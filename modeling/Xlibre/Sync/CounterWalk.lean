import Xlibre.Lib.Rewalk
import Xlibre.Sync.BracketRun

/-! The walk of `SyncChangeCounter` as a walk along a list of triggers. -/
namespace Xlibre.Sync
open Lib.Rewalk

section Nodes

/-- The await that a trigger belongs to; an alarm has its own trigger. -/
def TrigRef.owner : TrigRef → XID ⊕ ℕ
  | .alarm id => .inl id
  | .await a _ => .inr a

def isTrueWait (w : World) (oldval : Int64) : TrigRef → Bool
  | .alarm _ => false
  | .await a i => check w (w.trig (.await a i)) oldval

variable {w w' : World} {x : XID} {l : List TrigRef} {t p : TrigRef} {oldval value : Int64} {a : ℕ}

lemma Linked.triglist_eq (h : Linked none w) (x : XID) : w.triglist x = (w.onList x).map some := by
  have hnone : none ∉ w.triglist x := fun hm => nomatch h.attached.clean x hm
  unfold World.onList
  generalize w.triglist x = l at hnone
  induction l with
  | nil => rfl
  | cons p l ih =>
    cases p with
    | none => exact absurd List.mem_cons_self hnone
    | some t => rw [List.reduceOption_cons_of_some,List.map_cons,← ih fun hm => hnone (List.mem_cons_of_mem _ hm)]

lemma nodeAfter_map (l : List TrigRef) (t : TrigRef) : nodeAfter (l.map some) t = (after l t).map some := by
  induction l with
  | nil => rfl
  | cons u l ih =>
    unfold nodeAfter after at ih ⊢
    by_cases hu : u = t
    · simp [hu,List.head?_map]
    · simpa [hu] using ih

lemma head?_map_some (l : List TrigRef) : (l.map some).head? = l.head?.map some := List.head?_map ..

lemma check_congr {tr : SyncTrigger} (hp : tr.pSync = some x) (h : counterPtr w (some x) = .counter value)
    (h' : counterPtr w' (some x) = .counter value) : check w' tr oldval = check w tr oldval := by
  unfold check checkCounter
  rw [hp,h,h']
  cases tr.checkTrigger with
  | fence =>
    unfold counterPtr at h h'
    dsimp only at h h' ⊢
    split at h
    · rename_i ho
      split at h'
      · rename_i ho'
        rw [ho,ho']
      · cases h'
    · cases h
  | _ => rfl

end Nodes

section Fire

variable {w w' : World} {x : XID} {a : ℕ} {fuel : ℕ} {value : Int64}

lemma counterAt_drop (w : World) (t : TrigRef) (y : XID) : counterAt (dropTrigger w t) y = counterAt w y := by
  unfold dropTrigger
  split
  · rfl
  · split
    · rfl
    · split_ifs
      · unfold syncDeleteTriggerFromSyncObject
        split
        · rfl
        · rw [counterAt_brackets,counterAt_setTriglist]
      · exact counterAt_setTriglist _ _ _ _

lemma counterAt_freeAwait (w : World) (a : ℕ) (y : XID) : counterAt (freeAwait w a) y = counterAt w y := by
  unfold freeAwait
  split
  · rfl
  · rename_i h hw
    clear hw
    change counterAt ((List.range h.numWaitconditions).foldl (fun w i => dropTrigger w (.await a i)) w) y = _
    generalize List.range h.numWaitconditions = l
    induction l generalizing w with
    | nil => rfl
    | cons i l ih => rw [List.foldl_cons,ih,counterAt_drop]

lemma onList_awaitFired (h : Linked none w) (ha : w.awaits a ≠ none) (x : XID) :
    (syncAwaitTriggerFired w a).onList x = (w.onList x).filter fun u => decide (u.owner ≠ .inr a) := by
  have hl := h.awaitFired ha
  have hothers : others a ((syncAwaitTriggerFired w a).triglist x) = others a (w.triglist x) :=
    (AwaitFrame.freeAwait { w with attended := w.attended ++ [a] }).others x
  have hmap : ∀ l : List TrigRef, others a (l.map some) = (l.filter fun u => decide (u.owner ≠ .inr a)).map some := by
    intro l
    rw [others,List.filter_map]
    congr 1
    refine List.filter_congr fun u _ => ?_
    cases u with
    | alarm id => simp [isOther,TrigRef.owner]
    | await b i => simp [isOther,TrigRef.owner]
  rw [hl.triglist_eq,h.triglist_eq,hmap,hmap] at hothers
  have hself : (syncAwaitTriggerFired w a).onList x =
      ((syncAwaitTriggerFired w a).onList x).filter fun u => decide (u.owner ≠ .inr a) := by
    refine (List.filter_eq_self.2 fun u hu => ?_).symm
    have hlive := ((hl.wired.mem x u).1 hu).1
    rw [syncAwaitTriggerFired,(freeAwait_onlyAwait _ a).live] at hlive
    cases u with
    | alarm id => rfl
    | await b i => simpa [TrigRef.owner] using fun hb => hlive.2 i (by rw [hb])
  rw [hself]
  exact List.map_injective_iff.2 (Option.some_injective _) hothers

end Fire

section Walking

/-- A wait condition among the nodes that is true. -/
def Woken (w : World) (oldval : Int64) (seen : List TrigRef) (a : ℕ) : Prop :=
  ∃ i, TrigRef.await a i ∈ seen ∧ isTrueWait w oldval (.await a i) = true

/-- `SyncChangeCounter` has visited the nodes `seen`, has those in `todo` to visit again, and then the `rest`. -/
structure Walking (w₁ : World) (x : XID) (oldval value : Int64) (seen todo rest : List TrigRef) (w : World) : Prop where
  linked : Linked none w
  outset : counterPtr w₁ (some x) = .counter value
  counter : counterPtr w (some x) = .counter value
  conditions : ∀ a i, w.trig (.await a i) = w₁.trig (.await a i)
  alarms : ∀ id, .alarm id ∉ seen → w.alarms id = w₁.alarms id ∧ w.trig (.alarm id) = w₁.trig (.alarm id)
  gone : ∀ a, Woken w₁ oldval seen a → w.awaits a = none ∧ a ∈ w.attended
  kept : ∀ a, ¬Woken w₁ oldval seen a → w.awaits a = w₁.awaits a
  place : ∃ p : Option TrigRef, w.phase = .change x oldval (p.map some) ∧
    Stands (isTrueWait w₁ oldval) TrigRef.owner seen todo rest ⟨w.onList x,p⟩

variable {w₁ w w' : World} {x : XID} {oldval value : Int64} {seen todo rest : List TrigRef} {t : TrigRef} {fuel : ℕ}

lemma alive_alarm (w : World) (oldval : Int64) (seen : List TrigRef) (id : XID) :
    Alive (isTrueWait w oldval) TrigRef.owner seen (.alarm id) := by
  intro t _ hhot
  cases t with
  | alarm i => cases hhot
  | await a i => exact Sum.inr_ne_inl

lemma counterPtr_of_at (h : counterAt w' x = counterAt w x) : counterPtr w' (some x) = counterPtr w (some x) := by
  rw [counterPtr_eq,counterPtr_eq,h]

inductive Visited (fuel : ℕ) (w : World) (oldval : Int64) : TrigRef → World → Prop
  | pass {t : TrigRef} (hc : check w (w.trig t) oldval = false) : Visited fuel w oldval t w
  | alarm {id : XID} {w' : World} (hc : check w (w.trig (.alarm id)) oldval = true)
      (hf : syncAlarmTriggerFired fuel w id = some w') : Visited fuel w oldval (.alarm id) w'
  | await {a i : ℕ} (hc : check w (w.trig (.await a i)) oldval = true) :
      Visited fuel w oldval (.await a i) (syncAwaitTriggerFired w a)

lemma Walking.isTrueWait_eq (h : Walking w₁ x oldval value seen todo rest w) {a i : ℕ} (ht : (w.trig (.await a i)).pSync = some x) :
    isTrueWait w₁ oldval (.await a i) = check w (w.trig (.await a i)) oldval := by
  rw [h.conditions] at ht ⊢
  exact check_congr ht h.counter h.outset

lemma Walking.stands (h : Walking w₁ x oldval value seen todo rest w) {p : Option TrigRef}
    (hp : w.phase = .change x oldval (p.map some)) :
    Stands (isTrueWait w₁ oldval) TrigRef.owner seen todo rest ⟨w.onList x,p⟩ := by
  obtain ⟨q,hq,hst⟩ := h.place
  rw [hp] at hq
  obtain rfl : p = q := Option.map_injective (Option.some_injective _) (Phase.change.inj hq).2.2
  exact hst

lemma Walking.at_mem (h : Walking w₁ x oldval value seen todo rest w) (hp : w.phase = .change x oldval (some (some t))) :
    t ∈ w.onList x := by
  have hst := h.stands (p := some t) hp
  have hnext : some t = (todo ++ remain (isTrueWait w₁ oldval) TrigRef.owner seen rest).head? := hst.next
  have hlist : w.onList x = remain (isTrueWait w₁ oldval) TrigRef.owner seen (seen ++ rest) := hst.list
  rw [hlist,remain_append]
  obtain hin | hin := List.mem_append.1 (List.mem_of_mem_head? hnext.symm)
  · exact List.mem_append_left _ (hst.suffix.subset hin)
  · exact List.mem_append_right _ hin

lemma Walking.visited (h : Walking w₁ x oldval value seen todo rest w) (hp : w.phase = .change x oldval (some (some t)))
    (hn : next fuel w = some w') : ∃ wv p', Visited fuel w oldval t wv ∧
      w' = { wv with phase := .change x oldval (p'.map some) } ∧
      visit (isTrueWait w₁ oldval) TrigRef.owner (w.onList x) t = ⟨wv.onList x,p'⟩ := by
  have hlist := h.linked.triglist_eq x
  obtain ⟨hlive,hsync⟩ := (h.linked.wired.mem x t).1 (h.at_mem hp)
  have hmem : ∀ {q}, after (w.onList x) t = some q → q ∈ w.onList x := fun hq =>
    (List.dropWhile_sublist _).subset (List.mem_of_mem_tail (List.mem_of_mem_head? hq))
  rw [next,hp] at hn
  dsimp only [changeNode] at hn
  rw [hlist,nodeAfter_map] at hn
  cases hc : check w (w.trig t) oldval with
  | false =>
    rw [hc,if_neg Bool.false_ne_true] at hn
    cases hn
    refine ⟨w,after (w.onList x) t,.pass hc,rfl,?_⟩
    have hcold : isTrueWait w₁ oldval t = false := by
      cases t with
      | alarm id => rfl
      | await a i => rw [h.isTrueWait_eq hsync,hc]
    rw [visit,hcold,if_neg Bool.false_ne_true]
  | true =>
    rw [hc,if_pos rfl,Option.bind_eq_bind,Option.bind_eq_some_iff] at hn
    obtain ⟨wv,hf,hn⟩ := hn
    cases t with
    | alarm id =>
      have hsame := (syncAlarmTriggerFired_sameLinks hf).1
      have honlist : wv.onList x = w.onList x := by rw [World.onList,hsame.triglist]; rfl
      refine ⟨wv,after (w.onList x) (.alarm id),.alarm hc hf,?_,?_⟩
      · cases hafter : after (w.onList x) (.alarm id) with
        | none =>
          rw [hafter] at hn
          exact (Option.some.inj hn).symm
        | some q =>
          rw [hafter] at hn
          dsimp only [Option.map_some] at hn
          rw [if_pos] at hn
          · exact (Option.some.inj hn).symm
          · rw [hsame.triglist,hlist]
            exact List.mem_map_of_mem (hmem hafter)
      · rw [visit,if_neg (by rw [isTrueWait]; exact Bool.false_ne_true),honlist]
    | await a i =>
      have hhot : isTrueWait w₁ oldval (.await a i) = true := by rw [h.isTrueWait_eq hsync,hc]
      obtain rfl : syncAwaitTriggerFired w a = wv := Option.some.inj hf
      have ha : w.awaits a ≠ none := by
        obtain ⟨b,hb,-⟩ := hlive
        rw [hb]
        exact Option.some_ne_none _
      have honlist := onList_awaitFired h.linked ha x
      have hlist' := (h.linked.awaitFired ha).triglist_eq x
      refine ⟨_,resume ((syncAwaitTriggerFired w a).onList x) (after (w.onList x) (.await a i)),.await hc,?_,?_⟩
      · rw [hlist',head?_map_some] at hn
        rw [← Option.some.inj hn]
        cases hafter : after (w.onList x) (.await a i) with
        | none => rfl
        | some q =>
          simp only [Option.map_some,resume,List.mem_map_of_injective (Option.some_injective _)]
          split_ifs <;> rfl
      · rw [visit,if_pos hhot,honlist]
        rfl

lemma Visited.linked (h : Visited fuel w oldval t w') (hl : Linked none w) (ht : t ∈ w.onList x) : Linked none w' := by
  cases h with
  | pass _ => exact hl
  | alarm _ hf => exact (syncAlarmTriggerFired_sameLinks hf).1.linked hl
  | await _ =>
    obtain ⟨b,hb,-⟩ := ((hl.wired.mem x _).1 ht).1
    refine hl.awaitFired ?_
    rw [hb]
    exact Option.some_ne_none _

lemma Visited.counterAt (h : Visited fuel w oldval t w') (y : XID) : counterAt w' y = counterAt w y := by
  cases h with
  | pass _ => rfl
  | alarm _ hf =>
    obtain rfl | ⟨al,-,rfl⟩ | ⟨al,z,value,v,-,-,-,-,rfl⟩ := syncAlarmTriggerFired_cases hf
    · rfl
    · rfl
    · rfl
  | await _ => exact counterAt_freeAwait _ _ _

lemma Visited.conditions (h : Visited fuel w oldval t w') (a i : ℕ) : w'.trig (.await a i) = w.trig (.await a i) := by
  cases h with
  | pass _ => rfl
  | alarm _ hf =>
    obtain rfl | ⟨al,-,rfl⟩ | ⟨al,z,value,v,-,-,-,-,rfl⟩ := syncAlarmTriggerFired_cases hf
    · rfl
    · rfl
    · exact trig_setTrig_of_ne w _ (by simp)
  | @await b _ _ => rw [syncAwaitTriggerFired,(freeAwait_onlyAwait _ b).trig]

lemma Visited.alarms (h : Visited fuel w oldval t w') {id : XID} (ht : t ≠ .alarm id) :
    w'.alarms id = w.alarms id ∧ w'.trig (.alarm id) = w.trig (.alarm id) := by
  cases h with
  | pass _ => exact ⟨rfl,rfl⟩
  | alarm _ hf =>
    have hid : ∀ {i}, TrigRef.alarm i ≠ .alarm id → id ≠ i := fun hi he => hi (by rw [he])
    obtain rfl | ⟨al,-,rfl⟩ | ⟨al,z,value,v,-,-,-,-,rfl⟩ := syncAlarmTriggerFired_cases hf
    · exact ⟨rfl,rfl⟩
    · exact ⟨Function.update_of_ne (hid ht) _ _,rfl⟩
    · exact ⟨rfl,trig_setTrig_of_ne w _ ht.symm⟩
  | @await b _ _ =>
    have hf := freeAwait_onlyAwait { w with attended := w.attended ++ [b] } b
    rw [syncAwaitTriggerFired,hf.alarms,hf.trig]
    exact ⟨rfl,rfl⟩

lemma Walking.frame (h : Walking w₁ x oldval value seen todo rest w) {wv : World} (hv : Visited fuel w oldval t wv)
    (ht : t ∈ w.onList x) {seen' todo' rest' : List TrigRef} (hsub : seen ⊆ seen') (hin : t ∈ seen')
    (hwoken : ∀ a, Woken w₁ oldval seen' a → Woken w₁ oldval seen a ∨ ∃ i, t = .await a i ∧ isTrueWait w₁ oldval t = true)
    {p : Option TrigRef} (hst : Stands (isTrueWait w₁ oldval) TrigRef.owner seen' todo' rest' ⟨wv.onList x,p⟩) :
    Walking w₁ x oldval value seen' todo' rest' { wv with phase := .change x oldval (p.map some) } where
  linked := (hv.linked h.linked ht).setPhase _
  outset := h.outset
  counter := (counterPtr_of_at (hv.counterAt x)).trans h.counter
  conditions a i := (hv.conditions a i).trans (h.conditions a i)
  alarms id hid := by
    have hold := h.alarms id fun hm => hid (hsub hm)
    have hnew := hv.alarms (show t ≠ .alarm id from fun he => hid (he ▸ hin))
    exact ⟨hnew.1.trans hold.1,hnew.2.trans hold.2⟩
  gone a ha := by
    obtain hold | ⟨i,rfl,hhot⟩ := hwoken a ha
    · obtain ⟨hnone,hatt⟩ := h.gone a hold
      cases hv with
      | pass _ => exact ⟨hnone,hatt⟩
      | alarm _ hf =>
        have hsame := (syncAlarmTriggerFired_sameLinks hf).1
        exact ⟨(congrFun hsame.awaits a).trans hnone,hsame.attended ▸ hatt⟩
      | @await b _ _ =>
        have hf := freeAwait_onlyAwait { w with attended := w.attended ++ [b] } b
        rw [syncAwaitTriggerFired]
        refine ⟨?_,?_⟩
        · dsimp only
          rw [hf.awaits]
          by_cases hab : a = b
          · rw [hab,Function.update_self]
          · rw [Function.update_of_ne hab]
            exact hnone
        · dsimp only
          rw [hf.attended]
          exact List.mem_append_left _ hatt
    · rw [h.isTrueWait_eq ((h.linked.wired.mem x _).1 ht).2] at hhot
      cases hv with
      | pass hc =>
        rw [hhot] at hc
        cases hc
      | await _ =>
        have hf := freeAwait_onlyAwait { w with attended := w.attended ++ [a] } a
        rw [syncAwaitTriggerFired]
        dsimp only
        rw [hf.awaits,hf.attended]
        exact ⟨Function.update_self ..,List.mem_append_right _ (List.mem_singleton_self a)⟩
  kept a ha := by
    have hold := h.kept a (by
      rintro ⟨i,hm,hhot⟩
      exact ha ⟨i,hsub hm,hhot⟩)
    cases hv with
    | pass _ => exact hold
    | alarm _ hf => exact (congrFun (syncAlarmTriggerFired_sameLinks hf).1.awaits a).trans hold
    | @await b i hc =>
      have hf := freeAwait_onlyAwait { w with attended := w.attended ++ [b] } b
      have hab : a ≠ b := by
        rintro rfl
        exact ha ⟨i,hin,by rw [h.isTrueWait_eq ((h.linked.wired.mem x _).1 ht).2,hc]⟩
      rw [syncAwaitTriggerFired]
      dsimp only
      rw [hf.awaits,Function.update_of_ne hab]
      exact hold
  place := ⟨p,rfl,hst⟩

lemma Walking.step (hnd : (seen ++ rest).Nodup) (h : Walking w₁ x oldval value seen todo rest w)
    (hp : w.phase = .change x oldval (some (some t))) (hn : next fuel w = some w') :
    ∃ wv, Visited fuel w oldval t wv ∧ (∃ p, w' = { wv with phase := .change x oldval p }) ∧
      ((∃ todo', todo = t::todo' ∧ t ∈ seen ∧ Walking w₁ x oldval value seen todo' rest w') ∨
        todo = [] ∧ ∃ skip post todo', rest = skip ++ t::post ∧
          (∀ u ∈ skip, ¬Alive (isTrueWait w₁ oldval) TrigRef.owner seen u) ∧
          Walking w₁ x oldval value (seen ++ skip ++ [t]) todo' post w' ∧
          (Restarts (isTrueWait w₁ oldval) TrigRef.owner (seen ++ skip) t post →
            todo' = remain (isTrueWait w₁ oldval) TrigRef.owner (seen ++ skip ++ [t]) (seen ++ skip ++ [t]))) := by
  have hmem := h.at_mem hp
  obtain ⟨wv,p',hv,rfl,hvisit⟩ := h.visited hp hn
  have hst := h.stands (p := some t) hp
  refine ⟨wv,hv,⟨_,rfl⟩,?_⟩
  cases todo with
  | cons q todo =>
    obtain ⟨hnext,hseen,hcold,hst'⟩ := hst.visit_again hnd
    cases hnext
    rw [hvisit] at hst'
    exact .inl ⟨todo,rfl,hseen,h.frame hv hmem (List.Subset.refl _) hseen (fun a ha => .inl ha) hst'⟩
  | nil =>
    obtain ⟨skip,post,todo',hrest,hskip,-,hst',hrestart⟩ := hst.visit_fresh hnd rfl
    rw [hvisit] at hst'
    refine .inr ⟨rfl,skip,post,todo',hrest,hskip,h.frame hv hmem ?_ (by simp) ?_ hst',hrestart⟩
    · rw [List.append_assoc]
      exact List.subset_append_left _ _
    · rintro a ⟨i,hm,hhot⟩
      rw [List.append_assoc,List.mem_append,List.mem_append,List.mem_singleton] at hm
      obtain hm | hm | rfl := hm
      · exact .inl ⟨i,hm,hhot⟩
      · -- a skipped node belongs to an await that has fired
        have hdead := hskip _ hm
        unfold Alive at hdead
        push Not at hdead
        obtain ⟨s,hs,hshot,howner⟩ := hdead
        cases s with
        | alarm id => cases hshot
        | await b j =>
          cases howner
          exact .inl ⟨j,hs,hshot⟩
      · exact .inr ⟨i,rfl,hhot⟩

lemma Walking.start (hl : Linked none w) (hi : w.phase = .idle) {sys : Option SysCounterInfo} {l : List (Option TrigRef)} {d : Bool}
    (ho : w.objs x = some ⟨.counter oldval sys,l,d⟩) (newval : Int64) :
    Walking (syncChangeCounter w x newval) x oldval newval [] [] (w.onList x) (syncChangeCounter w x newval) := by
  have hinv := (hl.syncChangeCounter hi x newval).1
  have hlist : w.triglist x = l := by rw [World.triglist,ho]
  have hw : syncChangeCounter w x newval =
      { w.setObj x ⟨.counter newval sys,l,d⟩ with phase := .change x oldval l.head? } := by
    rw [syncChangeCounter,ho]
  have hlinked := hinv.linked
  rw [hw] at hlinked ⊢
  have hcounter : counterPtr { w.setObj x ⟨.counter newval sys,l,d⟩ with phase := .change x oldval l.head? } (some x) =
      .counter newval := by
    simp only [counterPtr,World.setObj,Function.update_self]
  have honlist : World.onList { w.setObj x ⟨.counter newval sys,l,d⟩ with phase := .change x oldval l.head? } x = w.onList x := by
    rw [World.onList,World.onList,hlist]
    simp only [World.triglist,World.setObj,Function.update_self]
  refine ⟨hlinked,hcounter,hcounter,fun _ _ => rfl,fun _ _ => ⟨rfl,rfl⟩,?_,fun _ _ => rfl,⟨(w.onList x).head?,?_,?_⟩⟩
  · rintro a ⟨i,hi,-⟩
    cases hi
  · dsimp only
    rw [← head?_map_some,← hl.triglist_eq,hlist]
  · rw [honlist]
    exact .start _

lemma Walking.next_cases (hnd : (seen ++ rest).Nodup) (h : Walking w₁ x oldval value seen todo rest w)
    (hn : next fuel w = some w') :
    (∃ t wv, w.phase = .change x oldval (some (some t)) ∧ t ∈ w.onList x ∧ Visited fuel w oldval t wv ∧
      (∃ p, w' = { wv with phase := .change x oldval p }) ∧
      ((∃ todo', todo = t::todo' ∧ t ∈ seen ∧ Walking w₁ x oldval value seen todo' rest w') ∨
        todo = [] ∧ ∃ skip post todo', rest = skip ++ t::post ∧
          (∀ u ∈ skip, ¬Alive (isTrueWait w₁ oldval) TrigRef.owner seen u) ∧
          Walking w₁ x oldval value (seen ++ skip ++ [t]) todo' post w' ∧
          (Restarts (isTrueWait w₁ oldval) TrigRef.owner (seen ++ skip) t post →
            todo' = remain (isTrueWait w₁ oldval) TrigRef.owner (seen ++ skip ++ [t]) (seen ++ skip ++ [t])))) ∨
    todo = [] ∧ remain (isTrueWait w₁ oldval) TrigRef.owner seen rest = [] ∧ w.phase = .change x oldval none ∧
      w' = { syncComputeBracketValues w x with phase := .idle } := by
  obtain ⟨p,hph,hst⟩ := h.place
  cases p with
  | none =>
    obtain ⟨htodo,hrest,-⟩ := hst.finished rfl
    rw [next,hph] at hn
    exact .inr ⟨htodo,hrest,hph,(Option.some.inj hn).symm⟩
  | some t =>
    obtain ⟨wv,hv,hw,hcases⟩ := h.step hnd hph hn
    exact .inl ⟨t,wv,hph,h.at_mem hph,hv,hw,hcases⟩

end Walking

end Xlibre.Sync
