import Xlibre.Sync.CounterWalk

/-! What `SyncChangeCounter` does to the waiters of a counter, and when it returns. -/
namespace Xlibre.Sync
open Lib.Rewalk

section Purpose

/-- `SyncChangeCounter` has returned. -/
def Returns (w : World) (x : XID) (newval : Int64) (w' : World) : Prop :=
  Callbacks (syncChangeCounter w x newval) w' ∧ w'.phase = .idle

/-- Every await with a true condition on the counter has fired once and is gone; the others are registered as before. -/
structure Wakes (w : World) (x : XID) (oldval newval : Int64) (w' : World) : Prop where
  woken : ∀ a i, some (.await a i) ∈ w.triglist x →
    check (syncChangeCounter w x newval) (w.trig (.await a i)) oldval = true →
      w'.awaits a = none ∧ w.attended.count a = 0 ∧ w'.attended.count a = 1 ∧ ∀ j y, some (.await a j) ∉ w'.triglist y
  kept : ∀ a h, w.awaits a = some h → (∀ i, some (.await a i) ∈ w.triglist x →
    check (syncChangeCounter w x newval) (w.trig (.await a i)) oldval = false) →
      w'.awaits a = some h ∧ a ∉ w'.attended ∧
        ∀ i y, (w'.triglist y).count (some (.await a i)) = (w.triglist y).count (some (.await a i))

/-- Nothing makes the comparison of an active alarm false: its delta is 0, and its test-type is not that of a comparison. -/
structure Loops (al : SyncAlarm) (tr : SyncTrigger) : Prop where
  state : al.state = .active
  delta : al.delta = 0
  comparison : tr.checkTrigger = .positiveComparison ∨ tr.checkTrigger = .negativeComparison
  testType : tr.testType ≠ positiveComparison ∧ tr.testType ≠ negativeComparison

/-- Such an alarm is true. -/
def Stuck (w : World) (oldval : Int64) (id : XID) : Prop :=
  ∃ al, w.alarms id = some al ∧ Loops al (w.trig (.alarm id)) ∧ check w (w.trig (.alarm id)) oldval = true

end Purpose

section Loop

variable {w w' : World} {x : XID} {id : XID} {oldval value : Int64} {fuel : ℕ} {al : SyncAlarm}

lemma check_comparison {tr : SyncTrigger} (hc : tr.checkTrigger = .positiveComparison ∨ tr.checkTrigger = .negativeComparison)
    (v v' : Int64) : check w tr v = check w tr v' := by
  obtain hc | hc := hc
  · rw [check,check,hc]
  · rw [check,check,hc]

lemma check_fence {tr : SyncTrigger} (hf : tr.checkTrigger = .fence) (hp : tr.pSync = some x)
    (hx : counterPtr w (some x) = .counter value) (v : Int64) : check w tr v = false := by
  simp only [check,hf,hp]
  unfold counterPtr at hx
  dsimp only at hx
  split at hx
  · rename_i ho
    rw [ho]
  · cases hx

lemma Loops.not_fired (hal : w.alarms id = some al) (h : Loops al (w.trig (.alarm id)))
    (hp : (w.trig (.alarm id)).pSync = some x) (hx : counterPtr w (some x) = .counter value)
    (hc : check w (w.trig (.alarm id)) oldval = true) : syncAlarmTriggerFired fuel w id = none := by
  have hcounter : counterPtr w (w.trig (.alarm id)).pSync = .counter value := by rw [hp,hx]
  unfold syncAlarmTriggerFired
  simp only [hal,hcounter]
  rw [if_neg (not_not.2 h.state),if_neg fun hz => hz.2.elim h.testType.1 h.testType.2,h.delta,alarmLoop_zero]
  · rfl
  · rw [check_comparison h.comparison value oldval]
    exact hc

lemma fired_of_not_stuck (hp : (w.trig (.alarm id)).pSync = some x) (hx : counterPtr w (some x) = .counter value)
    (hc : check w (w.trig (.alarm id)) oldval = true) (h : ¬Stuck w oldval id) (hf : 2^64 < fuel) :
    (syncAlarmTriggerFired fuel w id).isSome := by
  have hcounter : counterPtr w (w.trig (.alarm id)).pSync = .counter value := by rw [hp,hx]
  unfold syncAlarmTriggerFired
  cases hal : w.alarms id with
  | none => rfl
  | some al =>
    simp only [hcounter]
    split_ifs with hactive hzero
    · rfl
    · rfl
    · have hloop : (alarmLoop (fun v => check w { w.trig (.alarm id) with testValue := v } value) al.delta fuel
          (w.trig (.alarm id)).testValue).isSome := by
        by_cases hd : al.delta = 0
        · refine alarmLoop_isSome_of_false (fun v => ?_) _ _ (by omega)
          cases hcheck : (w.trig (.alarm id)).checkTrigger with
          | positiveComparison => exact absurd ⟨al,hal,⟨not_not.1 hactive,hd,.inl hcheck,by tauto⟩,hc⟩ h
          | negativeComparison => exact absurd ⟨al,hal,⟨not_not.1 hactive,hd,.inr hcheck,by tauto⟩,hc⟩ h
          | positiveTransition => exact check_transition w { w.trig (.alarm id) with testValue := v } hcounter (.inl hcheck)
          | negativeTransition => exact check_transition w { w.trig (.alarm id) with testValue := v } hcounter (.inr hcheck)
          | fence => exact @check_fence w x value { w.trig (.alarm id) with testValue := v } hcheck hp hx value
        · exact alarmLoop_isSome_of_delta hd _ hf _
      obtain ⟨r,hr⟩ := Option.isSome_iff_exists.1 hloop
      rw [hr,Option.bind_eq_bind,Option.bind_some]
      split_ifs <;> rfl

end Loop

section Walk

variable {w₁ w w' wv : World} {x : XID} {oldval value : Int64} {seen todo rest l : List TrigRef} {t : TrigRef} {fuel : ℕ}

/-- During the walk: alarms that loop have not been changed, and none that is true has been visited. -/
structure Calm (w₁ : World) (oldval : Int64) (seen : List TrigRef) (w : World) : Prop where
  loops : ∀ id al, w.alarms id = some al → Loops al (w.trig (.alarm id)) →
    w₁.alarms id = some al ∧ w.trig (.alarm id) = w₁.trig (.alarm id)
  stuck : ∀ id, Stuck w₁ oldval id → .alarm id ∉ seen

lemma Calm.loops_visited (hc : Calm w₁ oldval seen w) (hv : Visited fuel w oldval t wv) {id : XID} {al : SyncAlarm}
    (hal : wv.alarms id = some al) (hl : Loops al (wv.trig (.alarm id))) :
    w₁.alarms id = some al ∧ wv.trig (.alarm id) = w₁.trig (.alarm id) := by
  by_cases ht : t = .alarm id
  · subst ht
    cases hv with
    | pass _ => exact hc.loops id al hal hl
    | alarm hcheck hf =>
      obtain rfl | ⟨al',-,rfl⟩ | ⟨al',y,v,v',hal',hp,hy,hloop,rfl⟩ := syncAlarmTriggerFired_cases hf
      · exact hc.loops id al hal hl
      · simp only [World.setAlarm,Function.update_self,Option.some.injEq] at hal
        have hstate := hl.state
        rw [← hal] at hstate
        cases hstate
      · -- the loop would not have ended
        have htrig := trig_setTrig_self w (.alarm id) { w.trig (.alarm id) with testValue := v' }
        rw [htrig] at hl
        have hd := hl.delta
        have hcomparison : (w.trig (.alarm id)).checkTrigger = .positiveComparison ∨
            (w.trig (.alarm id)).checkTrigger = .negativeComparison := hl.comparison
        obtain rfl : al' = al := Option.some.inj (hal'.symm.trans hal)
        rw [hd,alarmLoop_zero] at hloop
        · cases hloop
        · change check w (w.trig (.alarm id)) v = true
          rw [check_comparison hcomparison v oldval]
          exact hcheck
  · have hsame := hv.alarms ht
    rw [hsame.1] at hal
    rw [hsame.2] at hl ⊢
    exact hc.loops id al hal hl

lemma Walking.not_stuck (h : Walking w₁ x oldval value seen todo rest w) (hc : Calm w₁ oldval seen w) (ht : t ∈ w.onList x)
    (hv : Visited fuel w oldval t wv) {id : XID} (hid : t = .alarm id) : ¬Stuck w₁ oldval id := by
  rintro hstuck
  obtain ⟨hal,htrig⟩ := h.alarms id (hc.stuck id hstuck)
  obtain ⟨al,hal₁,hl,hcheck⟩ := hstuck
  subst hid
  have hp := ((h.linked.wired.mem x _).1 ht).2
  rw [← htrig] at hl hcheck
  have hcheck' := (check_congr hp h.outset h.counter).trans hcheck
  cases hv with
  | pass hfalse =>
    rw [hcheck'] at hfalse
    cases hfalse
  | alarm _ hf =>
    rw [hl.not_fired (hal.trans hal₁) hp h.counter hcheck'] at hf
    cases hf

lemma Walking.calm_step (h : Walking w₁ x oldval value seen todo rest w) (hc : Calm w₁ oldval seen w) (ht : t ∈ w.onList x)
    (hv : Visited fuel w oldval t wv) (p : Option (Option TrigRef)) {seen' : List TrigRef}
    (hseen : ∀ id, .alarm id ∈ seen' → .alarm id ∈ seen ∨ t = .alarm id) :
    Calm w₁ oldval seen' { wv with phase := .change x oldval p } where
  loops _ _ hal hl := hc.loops_visited hv hal hl
  stuck id hstuck hm := by
    obtain hold | hid := hseen id hm
    · exact hc.stuck id hstuck hold
    · exact h.not_stuck hc ht hv hid hstuck

lemma seen_alarm {skip : List TrigRef} {id : XID}
    (hskip : ∀ u ∈ skip, ¬Alive (isTrueWait w₁ oldval) TrigRef.owner seen u) (hm : .alarm id ∈ seen ++ skip ++ [t]) :
    .alarm id ∈ seen ∨ t = .alarm id := by
  rw [List.append_assoc,List.mem_append,List.mem_append,List.mem_singleton] at hm
  obtain hm | hm | hm := hm
  · exact .inl hm
  · exact absurd (alive_alarm _ _ _ _) (hskip _ hm)
  · exact .inr hm.symm

lemma Walking.run (h : Walking w₁ x oldval value [] [] l w₁) (hnd : l.Nodup) (hrun : Callbacks w₁ w) :
    (∃ seen todo rest, seen ++ rest = l ∧ Walking w₁ x oldval value seen todo rest w ∧ Calm w₁ oldval seen w) ∨
      ∃ seen rest wl, seen ++ rest = l ∧ Walking w₁ x oldval value seen [] rest wl ∧ Calm w₁ oldval seen wl ∧
        remain (isTrueWait w₁ oldval) TrigRef.owner seen rest = [] ∧ w = { syncComputeBracketValues wl x with phase := .idle } := by
  induction hrun with
  | refl => exact .inl ⟨[],[],l,rfl,h,fun _ _ hal _ => ⟨hal,rfl⟩,fun _ _ => List.not_mem_nil⟩
  | tail _ hn ih =>
    obtain ⟨fuel,hn⟩ := hn
    obtain ⟨seen,todo,rest,rfl,hw,hc⟩ | ⟨seen,rest,wl,-,-,-,-,rfl⟩ := ih
    · obtain ⟨t,wv,-,ht,hv,⟨p,rfl⟩,hcases⟩ | ⟨rfl,hrest,-,rfl⟩ := hw.next_cases hnd hn
      · obtain ⟨todo',-,-,hw'⟩ | ⟨-,skip,post,todo',rfl,hskip,hw',-⟩ := hcases
        · exact .inl ⟨seen,todo',rest,rfl,hw',hw.calm_step hc ht hv p fun _ hm => .inl hm⟩
        · exact .inl ⟨_,todo',post,by simp,hw',hw.calm_step hc ht hv p fun _ hm => seen_alarm hskip hm⟩
      · exact .inr ⟨seen,rest,_,rfl,hw,hc,hrest,rfl⟩
    · exact absurd hn (not_next_idle rfl)

/-- The walk is at its end, or at an alarm that is stuck. -/
def Halted (w₁ : World) (x : XID) (oldval : Int64) (w : World) : Prop :=
  w.phase = .change x oldval none ∨ ∃ id, w.phase = .change x oldval (some (some (.alarm id))) ∧ Stuck w₁ oldval id

lemma Walking.at_place (h : Walking w₁ x oldval value seen todo rest w) (ht : t ∈ w.onList x) : t ∈ seen ++ rest := by
  obtain ⟨p,-,hst⟩ := h.place
  have hlist : w.onList x = remain (isTrueWait w₁ oldval) TrigRef.owner seen (seen ++ rest) := hst.list
  rw [hlist] at ht
  exact (mem_remain.1 ht).1

lemma Walking.progress (h : Walking w₁ x oldval value seen todo rest w) (hc : Calm w₁ oldval seen w)
    (hph : w.phase = .change x oldval (some (some t))) (ht : ∀ id, t = .alarm id → ¬Stuck w₁ oldval id) :
    ∃ w', next (2^64+1) w = some w' := by
  have hp := ((h.linked.wired.mem x t).1 (h.at_mem hph)).2
  rw [next,hph]
  dsimp only [changeNode]
  cases hcheck : check w (w.trig t) oldval with
  | false => exact ⟨_,by rw [if_neg Bool.false_ne_true]⟩
  | true =>
    have hsome : (triggerFired (2^64+1) w t).isSome := by
      cases t with
      | await a i => rfl
      | alarm id =>
        refine fired_of_not_stuck hp h.counter hcheck (fun hstuck => ?_) (Nat.lt_succ_self _)
        obtain ⟨al,hal,hl,-⟩ := hstuck
        obtain ⟨hal₁,htrig⟩ := hc.loops id al hal hl
        refine ht id rfl ⟨al,hal₁,htrig ▸ hl,?_⟩
        rw [← htrig,← check_congr hp h.outset h.counter]
        exact hcheck
    obtain ⟨wv,hwv⟩ := Option.isSome_iff_exists.1 hsome
    rw [if_pos rfl,hwv]
    exact ⟨_,rfl⟩

/-- The walk comes to its end, or to an alarm that is stuck. -/
theorem Walking.halts {seen todo rest : List TrigRef} {w : World} (hnd : (seen ++ rest).Nodup)
    (h : Walking w₁ x oldval value seen todo rest w) (hc : Calm w₁ oldval seen w) :
    ∃ w', Callbacks w w' ∧ Halted w₁ x oldval w' := by
  obtain ⟨p,hph,-⟩ := h.place
  cases p with
  | none => exact ⟨w,.refl,.inl hph⟩
  | some t =>
    by_cases hstuck : ∃ id, t = .alarm id ∧ Stuck w₁ oldval id
    · obtain ⟨id,rfl,hstuck⟩ := hstuck
      exact ⟨w,.refl,.inr ⟨id,hph,hstuck⟩⟩
    · obtain ⟨w',hn⟩ := h.progress hc hph fun id hid hs => hstuck ⟨id,hid,hs⟩
      obtain ⟨u,wv,-,hu,hv,⟨p,rfl⟩,hcases⟩ | ⟨-,-,hnone,-⟩ := h.next_cases hnd hn
      · obtain ⟨todo',htodo,-,hw'⟩ | ⟨-,skip,post,todo',hrest,hskip,hw',-⟩ := hcases
        · obtain ⟨w₂,hrun,hend⟩ := Walking.halts hnd hw' (h.calm_step hc hu hv p fun _ hm => .inl hm)
          exact ⟨w₂,.head ⟨_,hn⟩ hrun,hend⟩
        · have hwhole : seen ++ skip ++ [u] ++ post = seen ++ rest := by simp [hrest]
          have hcalm := h.calm_step hc hu hv p fun id hm => seen_alarm hskip hm
          obtain ⟨w₂,hrun,hend⟩ := Walking.halts (by rwa [hwhole]) hw' hcalm
          exact ⟨w₂,.head ⟨_,hn⟩ hrun,hend⟩
      · rw [hph] at hnone
        cases hnone
termination_by (rest.length,todo.length)
decreasing_by
  · rw [htodo]
    exact .right _ (Nat.lt_succ_self _)
  · rw [hrest]
    exact .left _ _ (by rw [List.length_append,List.length_cons]; omega)

lemma Walking.ends (h : Walking w₁ x oldval value [] [] l w₁) (hnd : l.Nodup)
    (hns : ∀ id, .alarm id ∈ l → ¬Stuck w₁ oldval id) : ∃ w', Callbacks w₁ w' ∧ w'.phase = .idle := by
  obtain ⟨w,hrun,hend⟩ := Walking.halts (show ([] ++ l).Nodup from hnd) h ⟨fun _ _ hal _ => ⟨hal,rfl⟩,fun _ _ => List.not_mem_nil⟩
  obtain hph | ⟨id,hph,hstuck⟩ := hend
  · refine ⟨{ syncComputeBracketValues w x with phase := .idle },hrun.tail ⟨0,?_⟩,rfl⟩
    rw [next,hph]
  · obtain ⟨seen,todo,rest,rfl,hw,-⟩ | ⟨_,_,_,-,-,-,-,rfl⟩ := h.run hnd hrun
    · exact absurd hstuck (hns id (hw.at_place (hw.at_mem hph)))
    · cases hph

end Walk

section Waiters

variable {w₁ w w' wl : World} {x : XID} {oldval value newval : Int64} {seen rest l : List TrigRef} {a i : ℕ}

lemma woken_of_mem (hrest : remain (isTrueWait w₁ oldval) TrigRef.owner seen rest = []) (hm : .await a i ∈ seen ++ rest)
    (htrue : isTrueWait w₁ oldval (.await a i) = true) : Woken w₁ oldval seen a := by
  obtain hm | hm := List.mem_append.1 hm
  · exact ⟨i,hm,htrue⟩
  · have hdead := remain_eq_nil.1 hrest _ hm
    unfold Alive at hdead
    push Not at hdead
    obtain ⟨t,ht,hhot,howner⟩ := hdead
    cases t with
    | alarm id => cases hhot
    | await b j =>
      cases howner
      exact ⟨j,ht,hhot⟩

lemma Linked.count_eq (h : Linked none w) (a i : ℕ) (y : XID) [Decidable (Live w (.await a i))] :
    (w.triglist y).count (some (.await a i)) = if Live w (.await a i) ∧ (w.trig (.await a i)).pSync = some y then 1 else 0 := by
  rw [count_some_eq]
  change (w.onList y).count _ = _
  split_ifs with hl
  · exact List.count_eq_one_of_mem (h.wired.nodup y) ((h.wired.mem y _).2 hl)
  · exact List.count_eq_zero_of_not_mem fun hm => hl ((h.wired.mem y _).1 hm)

lemma Walking.wakes (hl : Linked none w) (hw : Walking (syncChangeCounter w x newval) x oldval newval seen [] rest wl)
    (hlist : seen ++ rest = w.onList x) (hawaits : (syncChangeCounter w x newval).awaits = w.awaits)
    (htrig : (syncChangeCounter w x newval).trig = w.trig)
    (hrest : remain (isTrueWait (syncChangeCounter w x newval) oldval) TrigRef.owner seen rest = []) :
    Wakes w x oldval newval { syncComputeBracketValues wl x with phase := .idle } := by
  have hobjs := OnlyObjs.brackets wl x
  have hlists : ∀ y, World.triglist { syncComputeBracketValues wl x with phase := .idle } y = wl.triglist y :=
    fun y => triglist_brackets wl x y
  constructor
  · intro a i hm hcheck
    have hwoken : Woken (syncChangeCounter w x newval) oldval seen a := by
      refine woken_of_mem hrest (i := i) (by rw [hlist]; exact mem_onList.2 hm) ?_
      rw [isTrueWait,htrig]
      exact hcheck
    obtain ⟨hnone,hatt⟩ := hw.gone a hwoken
    have hlive := hl.live_of_mem hm
    refine ⟨(congrFun hobjs.awaits a).trans hnone,?_,?_,fun j y hj => ?_⟩
    · refine List.count_eq_zero_of_not_mem fun hout => ?_
      obtain ⟨h,hh,-⟩ := hlive
      rw [(hl.counted.gone a hout).2] at hh
      cases hh
    · change (syncComputeBracketValues wl x).attended.count a = 1
      rw [hobjs.attended]
      exact List.count_eq_one_of_mem hw.linked.counted.once hatt
    · rw [hlists] at hj
      obtain ⟨h,hh,-⟩ := hw.linked.live_of_mem hj
      rw [hnone] at hh
      cases hh
  · intro a h ha hfalse
    have hnot : ¬Woken (syncChangeCounter w x newval) oldval seen a := by
      rintro ⟨i,hm,htrue⟩
      have hon : some (.await a i) ∈ w.triglist x := by
        rw [← mem_onList,← hlist]
        exact List.mem_append_left _ hm
      rw [isTrueWait,htrig,hfalse i hon] at htrue
      cases htrue
    have hkept : wl.awaits a = some h := by
      rw [hw.kept a hnot,hawaits,ha]
    refine ⟨(congrFun hobjs.awaits a).trans hkept,?_,fun i y => ?_⟩
    · change a ∉ (syncComputeBracketValues wl x).attended
      rw [hobjs.attended]
      intro hatt
      rw [(hw.linked.counted.gone a hatt).2] at hkept
      cases hkept
    · classical
      rw [hlists,hl.count_eq,hw.linked.count_eq,hw.conditions,htrig]
      have hlive : Live wl (.await a i) ↔ Live w (.await a i) := by
        simp only [Live,hkept,ha]
      simp only [hlive]

lemma not_returns {sys : Option SysCounterInfo} {l : List (Option TrigRef)} {d : Bool} (hl : Linked none w) (hi : w.phase = .idle)
    (ho : w.objs x = some ⟨.counter oldval sys,l,d⟩) {id : XID} (hid : some (.alarm id) ∈ l)
    (hstuck : Stuck (syncChangeCounter w x newval) oldval id) : ¬Returns w x newval w' := by
  rintro ⟨hrun,hidle⟩
  obtain ⟨seen,todo,rest,-,hw,-⟩ | ⟨seen,rest,wl,hwhole,-,hc,hrest,-⟩ :=
    (Walking.start hl hi ho newval).run (hl.wired.nodup x) hrun
  · obtain ⟨p,hph,-⟩ := hw.place
    rw [hidle] at hph
    cases hph
  · have hm : .alarm id ∈ seen ++ rest := by
      rw [hwhole,mem_onList,World.triglist,ho]
      exact hid
    obtain hm | hm := List.mem_append.1 hm
    · exact hc.stuck id hstuck hm
    · exact remain_eq_nil.1 hrest _ hm (alive_alarm _ _ _ _)

/-- `SyncChangeCounter` returns with every satisfied waiter woken exactly when no alarm on the list is stuck. -/
theorem syncChangeCounter_wakes_iff {sys : Option SysCounterInfo} {l : List (Option TrigRef)} {d : Bool} (hl : Linked none w)
    (hi : w.phase = .idle) (ho : w.objs x = some ⟨.counter oldval sys,l,d⟩) (newval : Int64) :
    ((∃ w', Returns w x newval w') ∧ ∀ w', Returns w x newval w' → Wakes w x oldval newval w') ↔
      ∀ id, some (.alarm id) ∈ l → ¬Stuck (syncChangeCounter w x newval) oldval id := by
  have hstart := Walking.start hl hi ho newval
  have hnd := hl.wired.nodup x
  have hlist : ∀ id, some (.alarm id) ∈ l ↔ .alarm id ∈ w.onList x := fun id => by
    rw [mem_onList,World.triglist,ho]
  have hsame : (syncChangeCounter w x newval).awaits = w.awaits ∧ (syncChangeCounter w x newval).trig = w.trig := by
    rw [syncChangeCounter,ho]
    exact ⟨rfl,rfl⟩
  constructor
  · rintro ⟨⟨w',hreturns⟩,-⟩ id hid hstuck
    exact not_returns hl hi ho hid hstuck hreturns
  · intro hns
    refine ⟨?_,?_⟩
    · obtain ⟨w',hrun,hidle⟩ := hstart.ends hnd fun id hm => hns id ((hlist id).2 hm)
      exact ⟨w',hrun,hidle⟩
    · rintro w' ⟨hrun,hidle⟩
      obtain ⟨seen,todo,rest,-,hw,-⟩ | ⟨seen,rest,wl,hwhole,hw,-,hrest,rfl⟩ := hstart.run hnd hrun
      · obtain ⟨p,hph,-⟩ := hw.place
        rw [hidle] at hph
        cases hph
      · exact hw.wakes hl hwhole hsame.1 hsame.2 hrest

/-- An await for 7 on a counter that is set to 7. -/
theorem syncChangeCounter_wakes_iff_oneAwait :
    (∃ w', Returns oneAwait 1 7 w') ∧ ∀ w', Returns oneAwait 1 7 w' → Wakes oneAwait 1 0 7 w' := by
  have hs : start 0 oneCounter (.await 5 [⟨1,absolute,7,positiveComparison,0⟩]) = some (.success,oneAwait) := by rfl
  have h : Reach (fun _ _ => True) oneAwait :=
    ((reach_emptyWorld _).request rfl trivial (show start 0 emptyWorld (.createCounter 1 0) = some (.success,oneCounter) from
      rfl)).request rfl trivial hs
  have ho : oneAwait.objs 1 = some ⟨.counter 0 none,[some (.await 0 0)],false⟩ := rfl
  refine (syncChangeCounter_wakes_iff (h.inv.idle rfl) rfl ho 7).2 ?_
  intro id hid
  simp at hid

/-- The alarm that a refused change has left with an unknown test-type: `SyncChangeCounter` never returns. -/
theorem counter_change_stuck : Reach (fun _ _ => True) untunedAlarm ∧ untunedAlarm.phase = .idle ∧
    untunedAlarm.objs 1 = some ⟨.counter 0 none,[some (.alarm 2)],false⟩ ∧ ¬∃ w', Returns untunedAlarm 1 10 w' := by
  have hu : start 0 oneAlarm badTestType = some _ := (Option.some_get (by decide)).symm
  have h : Reach (fun _ _ => True) untunedAlarm := (reach_oneAlarm _ trivial trivial).request (by decide) trivial hu
  have ho : untunedAlarm.objs 1 = some ⟨.counter 0 none,[some (.alarm 2)],false⟩ := by decide
  have hi : untunedAlarm.phase = .idle := by decide
  refine ⟨h,hi,ho,fun ⟨w',hreturns⟩ => not_returns (h.inv.idle hi) hi ho (List.mem_singleton_self _) ?_ hreturns⟩
  exact ⟨⟨0,0,true,.active,[]⟩,by decide,⟨rfl,rfl,by decide,by decide⟩,by decide⟩

end Waiters

end Xlibre.Sync
