import Xlibre.Sync.WokenWaiters

/-! Which alarms fire again when the walk of `SyncChangeCounter` starts over. -/
namespace Xlibre.Sync
open Lib.Rewalk

section Firing

/-- `SyncAlarmTriggerFired` does not return before it comes to `SyncSendAlarmNotifyEvents`. -/
def sendsEvents (w : World) (id : XID) : Bool :=
  match w.alarms id with
  | none => false
  | some al =>
    match counterPtr w (w.trig (.alarm id)).pSync with
    | .other => false
    | _ => decide (al.state = .active)

def CanFire (w : World) (oldval : Int64) (id : XID) : Prop := check w (w.trig (.alarm id)) oldval = true ∧ sendsEvents w id = true

instance (w : World) (oldval : Int64) (id : XID) : Decidable (CanFire w oldval id) :=
  inferInstanceAs (Decidable (_ ∧ _))

/-- The alarm that fires in the next callback of `SyncChangeCounter`. -/
def fires (w : World) : Option XID :=
  match w.phase with
  | .change _ oldval (some (some (.alarm id))) => if CanFire w oldval id then some id else none
  | _ => none

inductive Fired (w : World) : List XID → World → Prop
  | refl : Fired w [] w
  | tail {l : List XID} {w₁ w₂ : World} {fuel : ℕ} (h : Fired w l w₁) (hn : next fuel w₁ = some w₂) :
      Fired w (l ++ (fires w₁).toList) w₂

/-- The new test value of a transition is still between the values of the counter. -/
structure Repeats (w : World) (oldval : Int64) (al : SyncAlarm) (tr : SyncTrigger) : Prop where
  state : al.state = .active
  transition : tr.checkTrigger = .positiveTransition ∨ tr.checkTrigger = .negativeTransition
  updated : ¬(al.delta = 0 ∧ (tr.testType = positiveComparison ∨ tr.testType = negativeComparison))
  inRange : (checkedInt64Add tr.testValue al.delta).2 = false
  now : check w tr oldval = true
  again : check w { tr with testValue := tr.testValue+al.delta } oldval = true

def Refires (w : World) (oldval : Int64) (id : XID) : Prop :=
  ∃ al, w.alarms id = some al ∧ Repeats w oldval al (w.trig (.alarm id))

/-- The walk starts over behind the alarm, and is not stuck before that. -/
def ComesBack (w : World) (oldval : Int64) (l : List TrigRef) (id : XID) : Prop :=
  ∃ pre t post, l = pre ++ t::post ∧ Restarts (isTrueWait w oldval) TrigRef.owner pre t post ∧ .alarm id ∈ pre ∧
    ∀ i, .alarm i ∈ pre → ¬Stuck w oldval i

end Firing

section Alarm

variable {w w' wv : World} {x id : XID} {oldval value : Int64} {fuel : ℕ} {t : TrigRef} {al : SyncAlarm}

lemma canFire_iff (hp : (w.trig (.alarm id)).pSync = some x) (hx : counterPtr w (some x) = .counter value) :
    CanFire w oldval id ↔
      check w (w.trig (.alarm id)) oldval = true ∧ ∃ al, w.alarms id = some al ∧ al.state = .active := by
  unfold CanFire sendsEvents
  rw [hp,hx]
  cases w.alarms id with
  | none => simp
  | some al => simp

lemma canFire_congr (hal : w'.alarms id = w.alarms id) (htrig : w'.trig (.alarm id) = w.trig (.alarm id))
    (hp : (w.trig (.alarm id)).pSync = some x) (hx : counterPtr w (some x) = .counter value)
    (hx' : counterPtr w' (some x) = .counter value) : CanFire w' oldval id ↔ CanFire w oldval id := by
  rw [canFire_iff hp hx,canFire_iff (htrig ▸ hp) hx',hal,htrig,check_congr hp hx hx']

lemma refires_congr (hal : w'.alarms id = w.alarms id) (htrig : w'.trig (.alarm id) = w.trig (.alarm id))
    (hp : (w.trig (.alarm id)).pSync = some x) (hx : counterPtr w (some x) = .counter value)
    (hx' : counterPtr w' (some x) = .counter value) : Refires w' oldval id ↔ Refires w oldval id := by
  unfold Refires
  rw [hal,htrig]
  refine exists_congr fun al => and_congr_right fun _ => ?_
  have hnow : ∀ v, check w' { w.trig (.alarm id) with testValue := v } oldval =
      check w { w.trig (.alarm id) with testValue := v } oldval := fun v => check_congr hp hx hx'
  have hcheck : check w' (w.trig (.alarm id)) oldval = check w (w.trig (.alarm id)) oldval := check_congr hp hx hx'
  constructor
  · rintro ⟨h1,h2,h3,h4,h5,h6⟩
    exact ⟨h1,h2,h3,h4,hcheck ▸ h5,hnow _ ▸ h6⟩
  · rintro ⟨h1,h2,h3,h4,h5,h6⟩
    exact ⟨h1,h2,h3,h4,hcheck ▸ h5,hnow _ ▸ h6⟩

lemma Refires.canFire (h : Refires w oldval id) (hp : (w.trig (.alarm id)).pSync = some x)
    (hx : counterPtr w (some x) = .counter value) : CanFire w oldval id := by
  obtain ⟨al,hal,hr⟩ := h
  exact (canFire_iff hp hx).2 ⟨hr.now,al,hal,hr.state⟩

lemma alarmLoop_false {isTrue : Int64 → Bool} (h : ∀ v, isTrue v = false) {delta v : Int64} {r : Int64 × Bool}
    (hl : alarmLoop isTrue delta fuel v = some r) : r = checkedInt64Add v delta := by
  cases fuel with
  | zero => cases hl
  | succ fuel =>
    rw [alarmLoop,if_neg (by simp [h])] at hl
    exact (Option.some.inj hl).symm

lemma repeats_iff {tr : SyncTrigger} {r : Int64 × Bool} (hp : tr.pSync = some x) (hx : counterPtr w (some x) = .counter value)
    (hstate : al.state = .active) (hzero : ¬(al.delta = 0 ∧ (tr.testType = positiveComparison ∨ tr.testType = negativeComparison)))
    (hc : check w tr oldval = true)
    (hloop : alarmLoop (fun v => check w { tr with testValue := v } value) al.delta fuel tr.testValue = some r) (hr : r.2 = false) :
    check w { tr with testValue := r.1 } oldval = true ↔ Repeats w oldval al tr := by
  have hcounter : counterPtr w tr.pSync = .counter value := by rw [hp,hx]
  have hround : tr.checkTrigger = .positiveTransition ∨ tr.checkTrigger = .negativeTransition →
      r = checkedInt64Add tr.testValue al.delta := fun ht =>
    alarmLoop_false (fun v => check_transition w { tr with testValue := v } hcounter ht) hloop
  have hstop : check w { tr with testValue := r.1 } value = false :=
    (alarmLoop_stop (hloop.trans (congrArg some (Prod.ext rfl hr)))).1
  have hcomparison : tr.checkTrigger = .positiveComparison ∨ tr.checkTrigger = .negativeComparison →
      check w { tr with testValue := r.1 } oldval = false := fun ht =>
    (@check_comparison w { tr with testValue := r.1 } ht oldval value).trans hstop
  constructor
  · intro hagain
    have htransition : tr.checkTrigger = .positiveTransition ∨ tr.checkTrigger = .negativeTransition := by
      cases ht : tr.checkTrigger with
      | positiveTransition => exact .inl rfl
      | negativeTransition => exact .inr rfl
      | positiveComparison =>
        rw [hcomparison (.inl ht)] at hagain
        cases hagain
      | negativeComparison =>
        rw [hcomparison (.inr ht)] at hagain
        cases hagain
      | fence =>
        rw [check_fence ht hp hx] at hc
        cases hc
    have hround := hround htransition
    exact ⟨hstate,htransition,hzero,by rw [← hround]; exact hr,hc,by rw [hround] at hagain; exact hagain⟩
  · intro hrepeats
    rw [hround hrepeats.transition]
    exact hrepeats.again

lemma not_canFire_inactive : ¬CanFire (w.setAlarm id { al with state := .inactive }) oldval id := by
  rintro ⟨-,h⟩
  unfold sendsEvents at h
  simp only [World.setAlarm,Function.update_self] at h
  split at h
  · cases h
  · cases h

lemma Visited.canFire_iff (hv : Visited fuel w oldval (.alarm id) wv) (hp : (w.trig (.alarm id)).pSync = some x)
    (hx : counterPtr w (some x) = .counter value) : CanFire wv oldval id ↔ Refires w oldval id := by
  have hcounter : counterPtr w (w.trig (.alarm id)).pSync = .counter value := by rw [hp,hx]
  cases hv with
  | pass hc =>
    have hnot : ¬CanFire w oldval id := by
      rintro ⟨hc',-⟩
      rw [hc] at hc'
      cases hc'
    exact iff_of_false hnot fun hr => hnot (hr.canFire hp hx)
  | alarm hc hf =>
    unfold syncAlarmTriggerFired at hf
    cases hal : w.alarms id with
    | none =>
      simp only [hal,Option.some_inj] at hf
      subst hf
      have hnot : ¬CanFire w oldval id := by
        rintro ⟨-,h⟩
        rw [sendsEvents,hal] at h
        cases h
      exact iff_of_false hnot fun hr => hnot (hr.canFire hp hx)
    | some al =>
      have hrefires : Refires w oldval id ↔ Repeats w oldval al (w.trig (.alarm id)) := by
        unfold Refires
        rw [hal]
        simp
      rw [hrefires]
      simp only [hal,hcounter] at hf
      split_ifs at hf with hstate hzero
      · cases hf
        refine iff_of_false ?_ fun hr => hstate hr.state
        rintro ⟨-,h⟩
        simp only [sendsEvents,hal,hcounter,decide_eq_true_eq] at h
        exact hstate h
      · cases hf
        exact iff_of_false not_canFire_inactive fun hr => hr.updated hzero
      · rw [Option.bind_eq_bind,Option.bind_eq_some_iff] at hf
        obtain ⟨r,hloop,hr⟩ := hf
        split_ifs at hr with hover
        · cases hr
          refine iff_of_false not_canFire_inactive fun hr => ?_
          have hround := alarmLoop_false
            (fun v => check_transition w { w.trig (.alarm id) with testValue := v } hcounter hr.transition) hloop
          rw [hround,hr.inRange] at hover
          cases hover
        · cases hr
          have hwv := trig_setTrig_self w (.alarm id) { w.trig (.alarm id) with testValue := r.1 }
          have hx' : counterPtr (w.setTrig (.alarm id) { w.trig (.alarm id) with testValue := r.1 }) (some x) = .counter value := hx
          rw [← repeats_iff hp hx (not_not.1 hstate) hzero hc hloop (by simpa using hover),
            Sync.canFire_iff (by rw [hwv]; exact hp) hx',hwv]
          refine and_iff_left_of_imp fun _ => ?_
          exact ⟨al,hal,not_not.1 hstate⟩

lemma Visited.canFire_of (hv : Visited fuel w oldval (.alarm id) wv) (hp : (w.trig (.alarm id)).pSync = some x)
    (hx : counterPtr w (some x) = .counter value) (h : CanFire wv oldval id) : CanFire w oldval id :=
  ((hv.canFire_iff hp hx).1 h).canFire hp hx

lemma fires_eq_some {oldval : Int64} (hph : w.phase = .change x oldval (some (some t))) :
    fires w = some id ↔ t = .alarm id ∧ CanFire w oldval id := by
  unfold fires
  rw [hph]
  cases t with
  | alarm i =>
    dsimp only
    split_ifs with h
    · simp only [Option.some_inj,TrigRef.alarm.injEq]
      refine ⟨?_,fun h => h.1⟩
      rintro rfl
      exact ⟨rfl,h⟩
    · simp only [TrigRef.alarm.injEq,false_iff]
      rintro ⟨rfl,h'⟩
      exact h h'
  | await a i => simp

end Alarm

section Tally

variable {w₁ w w' wv : World} {x id : XID} {oldval value : Int64} {fuel : ℕ} {seen todo rest l pre post : List TrigRef}
  {t : TrigRef} {fired : List XID}

/-- The alarms that have fired in the walk, and whether those that it has visited would fire again. -/
structure Tally (w₁ : World) (oldval : Int64) (seen : List TrigRef) (fired : List XID) (w : World) : Prop where
  unseen : ∀ id, .alarm id ∉ seen → id ∉ fired
  quiet : ∀ id, .alarm id ∈ seen → CanFire w oldval id → Refires w₁ oldval id
  loud : ∀ id, .alarm id ∈ seen → Refires w₁ oldval id → id ∈ fired ∧ (fired.count id = 1 → CanFire w oldval id)

/-- An alarm that fires again has done so, or is to be visited again, once the walk has started over behind it. -/
def Doubled (w₁ : World) (oldval : Int64) (l seen todo : List TrigRef) (fired : List XID) : Prop :=
  ∀ id pre t post, l = pre ++ t::post → Restarts (isTrueWait w₁ oldval) TrigRef.owner pre t post → .alarm id ∈ pre →
    Refires w₁ oldval id → t ∈ seen → 2 ≤ fired.count id ∨ .alarm id ∈ todo

lemma Walking.alarm_mem (h : Walking w₁ x oldval value seen todo rest w) (hm : .alarm id ∈ seen ++ rest) :
    .alarm id ∈ w.onList x := by
  obtain ⟨p,-,hst⟩ := h.place
  have hlist : w.onList x = remain (isTrueWait w₁ oldval) TrigRef.owner seen (seen ++ rest) := hst.list
  rw [hlist,mem_remain]
  exact ⟨hm,alive_alarm _ _ _ _⟩

lemma mem_fired (hph : w.phase = .change x oldval (some (some t))) :
    id ∈ fired ++ (fires w).toList ↔ id ∈ fired ∨ (t = .alarm id ∧ CanFire w oldval id) := by
  rw [List.mem_append,Option.mem_toList,fires_eq_some hph]

lemma count_fires (h : fires w = some id) : (fired ++ (fires w).toList).count id = fired.count id+1 := by
  rw [h,Option.toList_some,List.count_append,List.count_singleton_self]

lemma count_not_fires (h : fires w ≠ some id) : (fired ++ (fires w).toList).count id = fired.count id := by
  rw [List.count_append,Nat.add_eq_left]
  exact List.count_eq_zero_of_not_mem (by rwa [Option.mem_toList])

lemma Tally.visited (ht : Tally w₁ oldval seen fired w) (h : Walking w₁ x oldval value seen todo rest w)
    (hph : w.phase = .change x oldval (some (some t))) (hv : Visited fuel w oldval t wv) (p : Option (Option TrigRef))
    {seen' : List TrigRef} (hsub : seen ⊆ seen') (hin : t ∈ seen')
    (hseen : ∀ id, .alarm id ∈ seen' → .alarm id ∈ seen ∨ t = .alarm id) :
    Tally w₁ oldval seen' (fired ++ (fires w).toList) { wv with phase := .change x oldval p } := by
  have hp : ∀ {u}, u ∈ w.onList x → (w.trig u).pSync = some x := fun hu => ((h.linked.wired.mem x _).1 hu).2
  have hmem := h.at_mem hph
  have hx' : counterPtr wv (some x) = .counter value := (counterPtr_of_at (hv.counterAt x)).trans h.counter
  -- the other alarms stay as they are
  have hother : ∀ {id}, .alarm id ∈ seen → t ≠ .alarm id → (CanFire wv oldval id ↔ CanFire w oldval id) := fun hm hne =>
    canFire_congr (hv.alarms hne).1 (hv.alarms hne).2 (hp (h.alarm_mem (List.mem_append_left _ hm))) h.counter hx'
  have hfresh : ∀ {id}, .alarm id ∉ seen → t = .alarm id → (Refires w oldval id ↔ Refires w₁ oldval id) := fun hm he => by
    obtain ⟨hal,htrig⟩ := h.alarms _ hm
    exact refires_congr hal htrig (htrig ▸ hp (he ▸ hmem)) h.outset h.counter
  refine ⟨fun id hm hf => ?_,fun id hm hcan => ?_,fun id hm hre => ?_⟩
  · obtain hf | ⟨rfl,-⟩ := (mem_fired hph).1 hf
    · exact ht.unseen id (fun hs => hm (hsub hs)) hf
    · exact hm hin
  · by_cases he : t = .alarm id
    · subst he
      by_cases hs : .alarm id ∈ seen
      · exact ht.quiet id hs (hv.canFire_of (hp hmem) h.counter hcan)
      · exact (hfresh hs rfl).1 ((hv.canFire_iff (hp hmem) h.counter).1 hcan)
    · have hs := (hseen id hm).resolve_right he
      exact ht.quiet id hs ((hother hs he).1 hcan)
  · by_cases he : t = .alarm id
    · subst he
      by_cases hs : .alarm id ∈ seen
      · obtain ⟨hin',hcount⟩ := ht.loud id hs hre
        refine ⟨List.mem_append_left _ hin',fun hone => ?_⟩
        by_cases hcan : CanFire w oldval id
        · rw [count_fires ((fires_eq_some hph).2 ⟨rfl,hcan⟩)] at hone
          have hpos := List.count_pos_iff.2 hin'
          omega
        · rw [count_not_fires fun hf => hcan ((fires_eq_some hph).1 hf).2] at hone
          exact absurd (hcount hone) hcan
      · have hre' := (hfresh hs rfl).2 hre
        exact ⟨(mem_fired hph).2 (.inr ⟨rfl,hre'.canFire (hp hmem) h.counter⟩),
          fun _ => (hv.canFire_iff (hp hmem) h.counter).2 hre'⟩
    · have hs := (hseen id hm).resolve_right he
      obtain ⟨hin',hcount⟩ := ht.loud id hs hre
      refine ⟨List.mem_append_left _ hin',fun hone => ?_⟩
      rw [count_not_fires fun hf => he ((fires_eq_some hph).1 hf).1] at hone
      exact (hother hs he).2 (hcount hone)

lemma nodup_fires (h : fired.Nodup) (hf : ∀ id, fires w = some id → id ∉ fired) : (fired ++ (fires w).toList).Nodup := by
  cases he : fires w with
  | none =>
    rw [Option.toList_none,List.append_nil]
    exact h
  | some id =>
    rw [Option.toList_some,List.nodup_append_comm,List.singleton_append,List.nodup_cons]
    exact ⟨hf id he,h⟩

lemma subset_of_mem_rest (hnd : (seen ++ rest).Nodup) (hl : seen ++ rest = pre ++ t::post) (ht : t ∈ rest) : seen ⊆ pre := by
  obtain ⟨m,rfl,-⟩ | ⟨m,rfl,hm⟩ := List.append_eq_append_iff.1 hl
  · exact List.subset_append_left _ _
  · cases m with
    | nil => simp
    | cons u m =>
      obtain ⟨rfl,-⟩ := List.cons.inj hm
      exact absurd ht ((List.disjoint_of_nodup_append hnd) (by simp))

lemma Walking.comesBack (h : Walking w₁ x oldval value seen todo rest w) (hc : Calm w₁ oldval seen w) (htodo : todo ≠ [])
    (hm : .alarm id ∈ seen) : ComesBack w₁ oldval (seen ++ rest) id := by
  obtain ⟨p,-,hst⟩ := h.place
  obtain ⟨pre,t,rfl,hr⟩ := hst.again htodo
  refine ⟨pre,t,rest,by simp,hr,?_,fun i hi hs => hc.stuck i hs (List.mem_append_left _ hi)⟩
  obtain hm | hm := List.mem_append.1 hm
  · exact hm
  · have hhot := hr.isHot
    rw [← List.mem_singleton.1 hm] at hhot
    cases hhot

lemma Doubled.again (hd : Doubled w₁ oldval l seen (t::todo) fired) (ht : Tally w₁ oldval seen fired w)
    (hph : w.phase = .change x oldval (some (some t))) (hin : t ∈ seen) :
    Doubled w₁ oldval l seen todo (fired ++ (fires w).toList) := by
  intro id pre u post hl hr hm hre hu
  obtain htwo | htodo := hd id pre u post hl hr hm hre hu
  · refine .inl (htwo.trans ?_)
    rw [List.count_append]
    exact Nat.le_add_right _ _
  · obtain rfl | htodo := List.mem_cons.1 htodo
    · obtain ⟨hin',hone⟩ := ht.loud id hin hre
      have hpos := List.count_pos_iff.2 hin'
      left
      by_cases hcan : CanFire w oldval id
      · rw [count_fires ((fires_eq_some hph).2 ⟨rfl,hcan⟩)]
        omega
      · rw [count_not_fires fun hf => hcan ((fires_eq_some hph).1 hf).2]
        have hne : fired.count id ≠ 1 := fun h => hcan (hone h)
        omega
    · exact .inr htodo

lemma Doubled.fresh {skip post' : List TrigRef} (hd : Doubled w₁ oldval (seen ++ (skip ++ t::post')) seen [] fired)
    (hnd : (seen ++ (skip ++ t::post')).Nodup) (hskip : ∀ u ∈ skip, ¬Alive (isTrueWait w₁ oldval) TrigRef.owner seen u)
    (hrestart : Restarts (isTrueWait w₁ oldval) TrigRef.owner (seen ++ skip) t post' →
      todo = remain (isTrueWait w₁ oldval) TrigRef.owner (seen ++ skip ++ [t]) (seen ++ skip ++ [t])) (l' : List XID) :
    Doubled w₁ oldval (seen ++ (skip ++ t::post')) (seen ++ skip ++ [t]) todo (fired ++ l') := by
  intro id pre u post hl hr hm hre hu
  rw [List.append_assoc,List.mem_append,List.mem_append,List.mem_singleton] at hu
  obtain hu | hu | rfl := hu
  · obtain htwo | htodo := hd id pre u post hl hr hm hre hu
    · refine .inl (htwo.trans ?_)
      rw [List.count_append]
      exact Nat.le_add_right _ _
    · cases htodo
  · -- a node of an await that has fired before does not make the walk start over
    have hsub := subset_of_mem_rest hnd hl (List.mem_append_left _ hu)
    exact absurd (fun s hs => hr.alive s (hsub hs)) (hskip u hu)
  · have hnd' := hnd
    rw [hl] at hnd'
    have hout := List.nodup_middle.1 hnd'
    rw [List.nodup_cons,List.mem_append,not_or] at hout
    have hsplit : pre ++ u::post = (seen ++ skip) ++ u::post' := by rw [← hl,List.append_assoc]
    obtain ⟨rfl,-,rfl⟩ := (List.append_cons_inj_of_notMem hout.1.1 hout.1.2).1 hsplit
    right
    rw [hrestart hr,mem_remain]
    exact ⟨List.mem_append_left _ hm,alive_alarm _ _ _ _⟩

lemma Walking.tally (h : Walking w₁ x oldval value [] [] l w₁) (hnd : l.Nodup) (hf : Fired w₁ fired w) :
    ((∀ id, ComesBack w₁ oldval l id → ¬Refires w₁ oldval id) → fired.Nodup) ∧
      (w.phase = .idle ∨ ∃ seen todo rest, seen ++ rest = l ∧ Walking w₁ x oldval value seen todo rest w ∧
        Calm w₁ oldval seen w ∧ Tally w₁ oldval seen fired w ∧ Doubled w₁ oldval l seen todo fired) := by
  induction hf with
  | refl =>
    refine ⟨fun _ => List.nodup_nil,.inr ⟨[],[],l,rfl,h,⟨fun _ _ hal _ => ⟨hal,rfl⟩,fun _ _ => List.not_mem_nil⟩,?_,?_⟩⟩
    · exact ⟨fun _ _ => List.not_mem_nil,fun _ hm => (List.not_mem_nil hm).elim,fun _ hm => (List.not_mem_nil hm).elim⟩
    · exact fun _ _ _ _ _ _ _ _ hm => (List.not_mem_nil hm).elim
  | tail _ hn ih =>
    obtain ⟨honce,hi | ⟨seen,todo,rest,rfl,hw,hc,ht,hd⟩⟩ := ih
    · exact absurd hn (not_next_idle hi)
    · obtain ⟨t,wv,hph,-,hv,⟨p,rfl⟩,hcases⟩ | ⟨-,-,hph,rfl⟩ := hw.next_cases hnd hn
      · have hmem := hw.at_mem hph
        obtain ⟨todo',rfl,hin,hw'⟩ | ⟨rfl,skip,post,todo',rfl,hskip,hw',hrestart⟩ := hcases
        · refine ⟨fun hcond => nodup_fires (honce hcond) fun id hf _ => ?_,.inr ⟨seen,todo',rest,rfl,hw',?_,?_,hd.again ht hph hin⟩⟩
          · obtain ⟨rfl,hcan⟩ := (fires_eq_some hph).1 hf
            exact hcond id (hw.comesBack hc (List.cons_ne_nil _ _) hin) (ht.quiet id hin hcan)
          · exact hw.calm_step hc hmem hv p fun _ hm => .inl hm
          · exact ht.visited hw hph hv p (List.Subset.refl _) hin fun _ hm => .inl hm
        · refine ⟨fun hcond => nodup_fires (honce hcond) fun id hf => ?_,
            .inr ⟨_,todo',post,by simp,hw',?_,?_,hd.fresh hnd hskip hrestart _⟩⟩
          · obtain ⟨rfl,-⟩ := (fires_eq_some hph).1 hf
            exact ht.unseen id fun hs => (List.disjoint_of_nodup_append hnd) hs (by simp)
          · exact hw.calm_step hc hmem hv p fun _ hm => seen_alarm hskip hm
          · refine ht.visited hw hph hv p ?_ (by simp) fun _ hm => seen_alarm hskip hm
            rw [List.append_assoc]
            exact List.subset_append_left _ _
      · have hnone : ∀ id, fires _ ≠ some id := fun id hf => by
          rw [fires,hph] at hf
          cases hf
        exact ⟨fun hcond => nodup_fires (honce hcond) fun id hf => absurd hf (hnone id),.inl rfl⟩

lemma fired_of_callbacks (h : Callbacks w₁ w) : ∃ fired, Fired w₁ fired w := by
  induction h with
  | refl => exact ⟨[],.refl⟩
  | tail _ hn ih =>
    obtain ⟨fired,hf⟩ := ih
    obtain ⟨fuel,hn⟩ := hn
    exact ⟨_,hf.tail hn⟩

lemma Walking.halted (h : Walking w₁ x oldval value seen todo rest w) (hc : Calm w₁ oldval seen w)
    (hend : Halted w₁ x oldval w) :
    todo = [] ∧ ∀ u, (remain (isTrueWait w₁ oldval) TrigRef.owner seen rest).head? = some u →
      ∃ id, u = .alarm id ∧ Stuck w₁ oldval id := by
  obtain hph | ⟨id,hph,hstuck⟩ := hend
  · obtain ⟨htodo,hrest,-⟩ := (h.stands (p := none) hph).finished rfl
    refine ⟨htodo,fun u hu => ?_⟩
    rw [hrest] at hu
    cases hu
  · have hst := h.stands (p := some (.alarm id)) hph
    have hnext : some (.alarm id) = (todo ++ remain (isTrueWait w₁ oldval) TrigRef.owner seen rest).head? := hst.next
    cases todo with
    | cons u todo =>
      obtain rfl := Option.some.inj hnext
      exact absurd (mem_remain.1 (hst.suffix.subset List.mem_cons_self)).1 (hc.stuck id hstuck)
    | nil =>
      refine ⟨rfl,fun u hu => ⟨id,?_,hstuck⟩⟩
      rw [List.nil_append,hu] at hnext
      exact (Option.some.inj hnext).symm

lemma Walking.restart_seen (h : Walking w₁ x oldval value seen todo rest w) (hc : Calm w₁ oldval seen w)
    (hnd : (seen ++ rest).Nodup) (hend : Halted w₁ x oldval w) (hl : seen ++ rest = pre ++ t::post)
    (hr : Restarts (isTrueWait w₁ oldval) TrigRef.owner pre t post) (hpre : ∀ i, .alarm i ∈ pre → ¬Stuck w₁ oldval i) :
    t ∈ seen := by
  have hm : t ∈ seen ++ rest := hl ▸ List.mem_append_right _ List.mem_cons_self
  obtain hm | hm := List.mem_append.1 hm
  · exact hm
  · have hsub := subset_of_mem_rest hnd hl hm
    have halive : t ∈ remain (isTrueWait w₁ oldval) TrigRef.owner seen rest :=
      mem_remain.2 ⟨hm,fun s hs => hr.alive s (hsub hs)⟩
    obtain ⟨u,left,hleft⟩ := List.exists_cons_of_ne_nil (List.ne_nil_of_mem halive)
    obtain ⟨id,rfl,hstuck⟩ := (h.halted hc hend).2 u (by rw [hleft]; rfl)
    obtain ⟨skip,post',rfl,hskip,-,-⟩ := remain_eq_cons hleft
    obtain hm | hm := List.mem_append.1 hm
    · exact absurd (mem_remain.1 halive).2 (hskip t hm)
    · obtain rfl | hm := List.mem_cons.1 hm
      · exact absurd hr.isHot Bool.false_ne_true
      · -- the alarm that the walk is stuck at is in front of the node
        have hsplit : seen ++ (skip ++ .alarm id::post') = (seen ++ skip ++ [.alarm id]) ++ post' := by simp
        rw [hsplit] at hl hnd
        exact absurd hstuck (hpre id (subset_of_mem_rest hnd hl hm (by simp)))

/-- No alarm fires twice in a change of a counter exactly when the walk does not come back to one that fires again. -/
theorem alarms_fire_once_iff {sys : Option SysCounterInfo} {l : List (Option TrigRef)} {d : Bool} (hl : Linked none w)
    (hi : w.phase = .idle) (ho : w.objs x = some ⟨.counter oldval sys,l,d⟩) (newval : Int64) :
    (∀ fired w', Fired (syncChangeCounter w x newval) fired w' → fired.Nodup) ↔
      ∀ id, ComesBack (syncChangeCounter w x newval) oldval (w.onList x) id →
        ¬Refires (syncChangeCounter w x newval) oldval id := by
  have hstart := Walking.start hl hi ho newval
  have hnd := hl.wired.nodup x
  constructor
  · rintro honce id ⟨pre,t,post,hlist,hr,hm,hpre⟩ hre
    obtain ⟨w',hrun,hend⟩ := hstart.halts (show ([] ++ w.onList x).Nodup from hnd)
      ⟨fun _ _ hal _ => ⟨hal,rfl⟩,fun _ _ => List.not_mem_nil⟩
    obtain ⟨fired,hf⟩ := fired_of_callbacks hrun
    obtain ⟨-,hidle | ⟨seen,todo,rest,hwhole,hw,hc,-,hd⟩⟩ := hstart.tally hnd hf
    · obtain hph | ⟨i,hph,-⟩ := hend
      · rw [hidle] at hph
        cases hph
      · rw [hidle] at hph
        cases hph
    · obtain ⟨rfl,-⟩ := hw.halted hc hend
      have hseen := hw.restart_seen hc (hwhole ▸ hnd) hend (hwhole.trans hlist) hr hpre
      obtain htwo | htodo := hd id pre t post hlist hr hm hre hseen
      · have hone := List.nodup_iff_count_le_one.1 (honce fired w' hf) id
        omega
      · cases htodo
  · intro hcond fired w' hf
    exact (hstart.tally hnd hf).1 hcond

/-- `CreateAlarm` for the counter, value 5 and `PositiveTransition`. -/
def createTransition (delta : UInt32) : Req := .createAlarm 0 2 29 [1,0,5,0,0,delta] true 0

def twoConditions : World :=
  (procSyncAwait .counter oneCounter 5 [⟨1,absolute,7,positiveComparison,0⟩,⟨1,absolute,7,positiveComparison,0⟩]).2

def alarmAndAwait (delta : UInt32) : World := ((start 0 twoConditions (createTransition delta)).getD (.success,twoConditions)).2

lemma reach_alarmAndAwait {delta : UInt32} (h : (start 0 twoConditions (createTransition delta)).map Prod.fst = some .success) :
    Reach (fun _ _ => True) (alarmAndAwait delta) := by
  have hs : start 0 oneCounter (.await 5 [⟨1,absolute,7,positiveComparison,0⟩,⟨1,absolute,7,positiveComparison,0⟩]) =
      some (.success,twoConditions) := rfl
  obtain ⟨⟨status,w⟩,hw,rfl⟩ := Option.map_eq_some_iff.1 h
  have hreach := (((reach_emptyWorld (fun _ _ => True)).request rfl trivial
    (show start 0 emptyWorld (.createCounter 1 0) = some (.success,oneCounter) from rfl)).request rfl trivial hs).request rfl trivial hw
  rw [alarmAndAwait,hw]
  exact hreach

def callback (w : World) : World := (next 2 w).getD w

lemma Fired.callback {fired : List XID} (h : Fired w fired w₁) (hs : (next 2 w₁).isSome) :
    Fired w (fired ++ (fires w₁).toList) (Sync.callback w₁) := by
  obtain ⟨w₂,hw⟩ := Option.isSome_iff_exists.1 hs
  rw [Sync.callback,hw]
  exact h.tail hw

/-- With delta 10, the alarm has passed the new value when the walk comes back to it. -/
theorem alarms_fire_once_iff_delta :
    {fired | ∃ w', Fired (syncChangeCounter (alarmAndAwait 10) 1 10) fired w'} ⊆ {fired | fired.Nodup} := by
  have h : Reach (fun _ _ => True) (alarmAndAwait 10) := reach_alarmAndAwait (by decide)
  have hi : (alarmAndAwait 10).phase = .idle := by decide
  have ho : (alarmAndAwait 10).objs 1 = some ⟨.counter 0 none,[some (.alarm 2),some (.await 0 1),some (.await 0 0)],false⟩ := by
    decide
  rintro fired ⟨w',hfired⟩
  refine (alarms_fire_once_iff (h.inv.idle hi) hi ho 10).2 (fun id hback hre => ?_) fired w' hfired
  obtain ⟨pre,t,post,hlist,-,hm,-⟩ := hback
  have hon : (alarmAndAwait 10).onList 1 = [.alarm 2,.await 0 1,.await 0 0] := by decide
  have hid : .alarm id ∈ (alarmAndAwait 10).onList 1 := hlist ▸ List.mem_append_left _ hm
  rw [hon] at hid
  simp only [List.mem_cons,TrigRef.alarm.injEq,reduceCtorEq,or_false,List.not_mem_nil] at hid
  subst hid
  obtain ⟨al,hal,hr⟩ := hre
  obtain rfl : al = ⟨0,10,true,.active,[]⟩ := Option.some.inj (hal.symm.trans (by decide))
  have hagain := hr.again
  revert hagain
  decide

/-- With delta 0, the alarm fires again. -/
theorem alarm_fires_twice : Reach (fun _ _ => True) (alarmAndAwait 0) ∧ (alarmAndAwait 0).phase = .idle ∧
    (alarmAndAwait 0).objs 1 = some ⟨.counter 0 none,[some (.alarm 2),some (.await 0 1),some (.await 0 0)],false⟩ ∧
    ∃ w', Fired (syncChangeCounter (alarmAndAwait 0) 1 10) [2,2] w' := by
  refine ⟨reach_alarmAndAwait (by decide),by decide,by decide,?_⟩
  -- the alarm, the await, and the alarm again
  have h1 := (Fired.refl (w := syncChangeCounter (alarmAndAwait 0) 1 10)).callback (by decide)
  have h2 := (h1.callback (by decide)).callback (by decide)
  have hfired : ([] ++ (fires (syncChangeCounter (alarmAndAwait 0) 1 10)).toList ++
      (fires (callback (syncChangeCounter (alarmAndAwait 0) 1 10))).toList ++
      (fires (callback (callback (syncChangeCounter (alarmAndAwait 0) 1 10)))).toList) = [2,2] := by decide
  rw [hfired] at h2
  exact ⟨_,h2⟩

end Tally

end Xlibre.Sync
