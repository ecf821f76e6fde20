import Xlibre.Os.Timer.Kept
import Xlibre.Lib.Checked

/-! Every run of the timers keeps the list in order and runs the callbacks in time. -/
namespace Xlibre.Os.Timer
open Xlibre.Lib Checked

variable {σ σ' : State} {t : ℕ} {now clock : ℤ} {absolute force : Bool} {millis newTime : BitVec 32} {func : ℕ} {act : Act}

lemma timerSet_valid (hv : Valid σ) (force : Bool) (htimeout : Timeout σ.clock absolute millis) :
    ∃ σ', σ.timerSet t force absolute millis func = .ok σ' ∧ Valid σ' := by
  unfold State.timerSet
  dsimp only
  by_cases hpending : t ∈ σ.timers
  · rw [if_pos hpending]
    cases force with
    | true => exact ⟨_,if_pos rfl,(hv.take hpending (.inl rfl)).push ⟨hv.started,le_rfl,htimeout,hv.stack⟩⟩
    | false =>
      rw [if_neg Bool.false_ne_true]
      exact arm_valid (hv.timerCancel t) (fun h => (mem_listDel.1 h).2 rfl) hv.started le_rfl htimeout
  · rw [if_neg hpending]
    exact arm_valid hv hpending hv.started le_rfl htimeout

lemma timerForce_valid (hv : Valid σ) : Valid (σ.timerForce t) := by
  unfold State.timerForce
  split_ifs with hpending
  · exact hv.doTimer hpending (.inl rfl)
  · exact hv

lemma Valid.checked (hv : Valid σ) (hfrom : σ.checked ≤ now) (hto : now ≤ σ.clock) (hlater : ∀ t ∈ σ.timers, now < σ.due t) :
    Valid { σ with stack := [], checked := now } := by
  refine ⟨hv.once,hv.sorted,fun u hu => ?_,hv.distinct,hv.runsOnce,hv.runsCounted,hv.runsKept,
    hv.droppedCounted,hv.timely,hto,?_,trivial⟩
  · obtain ⟨hword,-,hsoon,hsmall,hcounted,hunrun,hkept⟩ := hv.pending u hu
    exact ⟨hword,hlater u hu,hsoon,hsmall,hcounted,hunrun,hkept⟩
  · have hwindow := hv.window
    dsimp only
    omega

lemma Valid.first (hv : Valid σ) (hhead : σ.timers.head? = some t) : t ∈ σ.timers ∧ ∀ u ∈ σ.timers, σ.due t ≤ σ.due u := by
  obtain ⟨rest,heq⟩ := List.head?_eq_some_iff.1 hhead
  rw [heq]
  refine ⟨List.mem_cons_self,fun u hu => ?_⟩
  have hsorted := hv.sorted
  rw [heq,List.pairwise_cons] at hsorted
  obtain rfl | hu := List.mem_cons.1 hu
  · exact le_rfl
  · exact hsorted.1 u hu

lemma loop_valid (hv : Valid σ) : σ.loop = .error .notEnabled ∨ ∃ σ', σ.loop = .ok σ' ∧ Valid σ' := by
  unfold State.loop
  have hok := hv.stack
  split
  · next now' stack heq =>
    rw [heq] at hok
    obtain ⟨hfrom,hto,rfl⟩ := hok
    refine .inr ?_
    split
    · next hnone =>
      refine ⟨_,rfl,hv.checked hfrom hto fun u hu => ?_⟩
      rw [List.head?_eq_none_iff.1 hnone] at hu
      cases hu
    · next u hhead =>
      obtain ⟨hu,hfirst⟩ := hv.first hhead
      have hleft := (hv.pending u hu).left hv hfrom hto
      rw [hleft]
      split_ifs with hpos
      · refine ⟨_,rfl,hv.checked hfrom hto fun w hw => ?_⟩
        have := hfirst w hw
        omega
      · exact ⟨_,rfl,hv.doTimer hu (.inr (by omega))⟩
  · next stack heq =>
    rw [heq] at hok
    exact hok.elim
  · exact .inl rfl

lemma callbackReturns_valid (hv : Valid σ) (htyped : newTime.toNat < 2^30)
    (hsettles : (Act.callbackReturns newTime).Settles σ) :
    σ.callbackReturns newTime = .error .notEnabled ∨ ∃ σ', σ.callbackReturns newTime = .ok σ' ∧ Valid σ' := by
  unfold State.callbackReturns
  have hok := hv.stack
  split
  · next u stack heq =>
    rw [heq] at hok
    have hpop : Valid { σ with stack } := hv.push hok
    refine .inr ?_
    dsimp only
    split_ifs
    · exact timerSet_valid hpop false htyped
    · exact ⟨_,rfl,hpop⟩
  · next u now' absolute' millis' func' stack heq =>
    rw [heq] at hok
    obtain ⟨hfrom,hto,htimeout,hok⟩ := hok
    have hpop : Valid { σ with stack } := hv.push hok
    refine .inr ?_
    by_cases hzero : millis' = 0
    · exact ⟨_,if_pos hzero,hpop⟩
    · exact arm_valid hpop (hsettles u now' absolute' millis' func' stack heq hzero) hfrom hto htimeout
  · exact .inl rfl

lemma Pending.sane (hv : Valid σ) (h : Pending σ t) (hpos : 0 < σ.due t - σ.clock) :
    (σ.timer t).expires - word σ.clock < (σ.timer t).delta + 250 := by
  have hleft := h.left hv hv.started le_rfl
  obtain ⟨-,-,hsoon,hsmall,-,-,-⟩ := h
  have hnat : (((σ.timer t).expires - word σ.clock).toNat : ℤ) = σ.due t - σ.clock := by
    rw [← hleft] at hpos ⊢
    have hlt := ((σ.timer t).expires - word σ.clock).isLt
    rw [BitVec.toInt_eq_toNat_cond] at hpos ⊢
    split_ifs at hpos ⊢ <;> omega
  rw [BitVec.lt_def,BitVec.toNat_add]
  change _ < ((σ.timer t).delta.toNat + 250) % 2^32
  omega

lemma checkTimers_valid (hv : Valid σ) (hstack : σ.stack = []) : Valid σ.checkTimers.1 ∧
    ∀ timeout, σ.checkTimers.2 = some timeout → 0 < timeout → ∀ u ∈ σ.timers, timeout ≤ σ.due u - σ.clock := by
  have hdone : (∀ u ∈ σ.timers, σ.clock < σ.due u) → Valid { σ with checked := σ.clock } := by
    intro hlater
    have h := hv.checked hv.started le_rfl hlater
    rwa [← hstack] at h
  unfold State.checkTimers
  split
  · next hnone =>
    rw [List.head?_eq_none_iff] at hnone
    refine ⟨hdone fun u hu => ?_,fun timeout ht hpos => ?_⟩
    · rw [hnone] at hu
      cases hu
    · obtain rfl := Option.some.inj ht
      exact absurd hpos (by decide)
  · next u hhead =>
    obtain ⟨hu,hfirst⟩ := hv.first hhead
    have hp := hv.pending u hu
    have hleft := hp.left hv hv.started le_rfl
    dsimp only
    rw [hleft]
    by_cases hdue : σ.due u - σ.clock ≤ 0
    · rw [if_pos hdue]
      exact ⟨hv.push ⟨hv.started,le_rfl,hstack⟩,fun timeout h => (nomatch h)⟩
    · rw [if_neg hdue,if_pos (hp.sane hv (lt_of_not_ge hdue))]
      refine ⟨hdone fun w hw => ?_,fun timeout h hpos w hw => ?_⟩
      · have := hfirst w hw
        omega
      · obtain rfl := Option.some.inj h
        have := hfirst w hw
        omega

theorem step_valid (hv : Valid σ) (htyped : act.Typed σ) (hsettles : act.Settles σ) :
    σ.step act = .error .notEnabled ∨ ∃ σ' result, σ.step act = .ok (σ',result) ∧ Valid σ' := by
  cases act with
  | tick n => exact .inr ⟨_,_,rfl,hv.tick htyped⟩
  | set t force absolute millis func =>
    unfold State.step
    dsimp only
    split_ifs
    · exact .inl rfl
    · obtain ⟨σ',hset,hv'⟩ := timerSet_valid (t := t) hv force htyped
      rw [hset]
      exact .inr ⟨σ',none,rfl,hv'⟩
  | force t =>
    unfold State.step
    dsimp only
    split_ifs
    · exact .inl rfl
    · exact .inr ⟨_,_,rfl,timerForce_valid hv⟩
  | cancel t =>
    unfold State.step
    dsimp only
    split_ifs
    · exact .inl rfl
    · exact .inr ⟨_,_,rfl,hv.timerCancel t⟩
  | check =>
    unfold State.step
    dsimp only
    split_ifs with hstack
    · exact .inr ⟨_,_,rfl,(checkTimers_valid hv hstack).1⟩
    · exact .inl rfl
  | doTimers =>
    unfold State.step
    dsimp only
    split_ifs with hstack
    · exact .inr ⟨_,_,rfl,hv.push ⟨hv.started,le_rfl,rfl⟩⟩
    · exact .inl rfl
  | callbackReturns newTime =>
    unfold State.step
    dsimp only
    obtain herror | ⟨σ',hreturns,hv'⟩ := callbackReturns_valid hv htyped hsettles
    · rw [herror]
      exact .inl rfl
    · rw [hreturns]
      exact .inr ⟨σ',none,rfl,hv'⟩
  | loop =>
    unfold State.step
    dsimp only
    obtain herror | ⟨σ',hloop,hv'⟩ := loop_valid hv
    · rw [herror]
      exact .inl rfl
    · rw [hloop]
      exact .inr ⟨σ',none,rfl,hv'⟩

lemma Reaches.valid (h : Reaches (fun σ act => act.Typed σ ∧ act.Settles σ) clock σ) : Valid σ := by
  induction h with
  | initial => exact initial_valid clock
  | step _ _ hmeets hstep ih =>
    obtain herror | ⟨σ',result,hok,hv'⟩ := step_valid ih hmeets.1 hmeets.2
    · rw [herror] at hstep
      cases hstep
    · rw [hok] at hstep
      cases hstep
      exact hv'

/-- No setting is lost: its timer is pending, its callback has been run, or it was given up. -/
def Accounted (σ : State) : Prop := ∀ s < σ.settings,
  (∃ t ∈ σ.timers, σ.setting t = s) ∨ (∃ r ∈ σ.runs, r.setting = s) ∨ s ∈ σ.dropped

lemma Accounted.take (h : Accounted σ) (t : ℕ) (forced : Bool) : Accounted ((σ.listDel t).note t forced) := by
  intro s hs
  obtain ⟨u,hu,rfl⟩ | ⟨r,hr,rfl⟩ | hdropped := h s hs
  · by_cases heq : u = t
    · exact .inr (.inl ⟨_,List.mem_append_right _ List.mem_cons_self,congrArg σ.setting heq.symm⟩)
    · exact .inl ⟨u,mem_listDel.2 ⟨hu,heq⟩,rfl⟩
  · exact .inr (.inl ⟨r,List.mem_append_left _ hr,rfl⟩)
  · exact .inr (.inr hdropped)

lemma Accounted.timerCancel (h : Accounted σ) (t : ℕ) : Accounted (σ.timerCancel t) := by
  intro s hs
  unfold State.timerCancel
  obtain ⟨u,hu,rfl⟩ | hrun | hdropped := h s hs
  · by_cases heq : u = t
    · subst heq
      exact .inr (.inr (by rw [if_pos hu]; exact List.mem_append_right _ List.mem_cons_self))
    · exact .inl ⟨u,mem_listDel.2 ⟨hu,heq⟩,rfl⟩
  · exact .inr (.inl hrun)
  · refine .inr (.inr ?_)
    split_ifs
    · exact List.mem_append_left _ hdropped
    · exact hdropped

lemma Accounted.insert (h : Accounted σ) (hnot : t ∉ σ.timers) (w : BitVec 32) (timer : ℕ → OsTimer) (due : ℕ → ℤ) :
    Accounted { σ with
      timer, due
      timers := σ.sortIn t w
      settings := σ.settings + 1
      setting := Function.update σ.setting t σ.settings } := by
  have hmem : ∀ u, u ∈ σ.sortIn t w ↔ u = t ∨ u ∈ σ.timers := fun u => (insert_perm _ _ _).mem_iff.trans List.mem_cons
  intro s hs
  dsimp only at hs ⊢
  obtain rfl | hlt := Nat.eq_or_lt_of_le (Nat.le_of_lt_succ hs)
  · exact .inl ⟨t,(hmem t).2 (.inl rfl),Function.update_self _ _ _⟩
  · refine (h s hlt).imp_left fun ⟨u,hu,hsetting⟩ => ⟨u,(hmem u).2 (.inr hu),?_⟩
    have hne : u ≠ t := fun heq => hnot (heq ▸ hu)
    rw [Function.update_of_ne hne,hsetting]

lemma arm_accounted (h : Accounted σ) (harm : σ.arm t now absolute millis func = .ok σ') : Accounted σ' := by
  unfold State.arm at harm
  by_cases hzero : millis = 0
  · rw [if_pos hzero] at harm
    cases harm
    exact h
  rw [if_neg hzero] at harm
  by_cases hnot : t ∈ σ.timers
  · dsimp only at harm
    rw [if_pos hnot] at harm
    cases harm
  dsimp only at harm
  rw [if_neg hnot] at harm
  generalize (if absolute = true then millis else millis + word now) = expires at harm
  generalize (if absolute = true then millis - word now else millis) = delta at harm
  by_cases hpast : (expires - word now).toInt ≤ 0
  · rw [if_pos hpast] at harm
    cases harm
    exact (h.insert hnot expires _ _).take t false
  · rw [if_neg hpast] at harm
    cases harm
    exact h.insert hnot expires _ _

lemma timerSet_accounted (h : Accounted σ) (hset : σ.timerSet t force absolute millis func = .ok σ') : Accounted σ' := by
  unfold State.timerSet at hset
  dsimp only at hset
  split_ifs at hset
  · cases hset
    exact h.take t true
  · exact arm_accounted (h.timerCancel t) hset
  · exact arm_accounted h hset

lemma loop_accounted (h : Accounted σ) (hloop : σ.loop = .ok σ') : Accounted σ' := by
  unfold State.loop at hloop
  split at hloop
  · split at hloop
    · cases hloop
      exact h
    · split_ifs at hloop
      · cases hloop
        exact h
      · cases hloop
        exact h.take _ false
  · split at hloop
    · cases hloop
      exact h
    · cases hloop
      exact h.take _ false
  · cases hloop

lemma callbackReturns_accounted (h : Accounted σ) (hreturns : σ.callbackReturns newTime = .ok σ') : Accounted σ' := by
  unfold State.callbackReturns at hreturns
  split at hreturns
  · next u stack _ =>
    have hpop : Accounted { σ with stack } := h
    dsimp only at hreturns
    split_ifs at hreturns
    · exact timerSet_accounted hpop hreturns
    · cases hreturns
      exact h
  · next stack _ =>
    have hpop : Accounted { σ with stack } := h
    exact arm_accounted hpop hreturns
  · cases hreturns

lemma checkTimers_accounted (h : Accounted σ) : Accounted σ.checkTimers.1 := by
  unfold State.checkTimers
  split
  · exact h
  · dsimp only
    split_ifs <;> exact h

lemma step_accounted {result : Option ℤ} (h : Accounted σ) (hstep : σ.step act = .ok (σ',result)) : Accounted σ' := by
  unfold State.step at hstep
  cases act with
  | tick n =>
    cases hstep
    exact h
  | set t force absolute millis func =>
    dsimp only at hstep
    split_ifs at hstep
    obtain ⟨σ1,hset,heq⟩ := bind_eq_ok.1 hstep
    cases heq
    exact timerSet_accounted h hset
  | force t =>
    dsimp only at hstep
    split_ifs at hstep
    cases hstep
    unfold State.timerForce
    split_ifs
    · exact h.take t true
    · exact h
  | cancel t =>
    dsimp only at hstep
    split_ifs at hstep
    cases hstep
    exact h.timerCancel t
  | check =>
    dsimp only at hstep
    split_ifs at hstep
    have hafter := checkTimers_accounted h
    rwa [Except.ok.inj hstep] at hafter
  | doTimers =>
    dsimp only at hstep
    split_ifs at hstep
    cases hstep
    exact h
  | callbackReturns newTime =>
    obtain ⟨σ1,hreturns,heq⟩ := bind_eq_ok.1 hstep
    cases heq
    exact callbackReturns_accounted h hreturns
  | loop =>
    obtain ⟨σ1,hloop,heq⟩ := bind_eq_ok.1 hstep
    cases heq
    exact loop_accounted h hloop

lemma Reaches.accounted {meets : State → Act → Prop} (h : Reaches meets clock σ) : Accounted σ := by
  induction h with
  | initial => exact fun s hs => (nomatch hs)
  | step _ _ _ hstep ih => exact step_accounted ih hstep

/-- The list has each pending timer once and in the order of the clock's words, none that had expired when the last check
that is done read the time, and each callback has been run once for a setting that was not given up, and not before that
expired unless it was forced. -/
structure Timely (σ : State) : Prop where
  once : σ.timers.Nodup
  ordered : σ.timers.Pairwise fun a b => 0 ≤ ((σ.timer b).expires - (σ.timer a).expires).toInt
  expires : ∀ t ∈ σ.timers, word (σ.due t) = (σ.timer t).expires ∧ σ.due t < σ.clock + 2^30
  unchecked : ∀ t ∈ σ.timers, σ.checked < σ.due t
  accounted : Accounted σ
  runsOnce : (σ.runs.map Run.setting).Nodup
  runsDue : ∀ r ∈ σ.runs, r.setting ∉ σ.dropped ∧ ∀ t ∈ σ.timers, σ.setting t ≠ r.setting
  runsTimely : ∀ r ∈ σ.runs, r.forced = true ∨ r.due ≤ r.clock

lemma Valid.timelyState (hv : Valid σ) (haccounted : Accounted σ) : Timely σ := by
  refine ⟨hv.once,?_,fun t ht => ?_,fun t ht => (hv.pending t ht).unchecked,haccounted,hv.runsOnce,fun r hr =>
    ⟨hv.runsKept r hr,fun t ht => ((hv.pending t ht).unrun r hr).symm⟩,hv.timely⟩
  · refine hv.sorted.imp_of_mem fun {a b} ha hb hle => ?_
    obtain ⟨hword,hafter,hsoon,hsmall,-,-,-⟩ := hv.pending a ha
    obtain ⟨hword',hafter',hsoon',hsmall',-,-,-⟩ := hv.pending b hb
    have hwindow := hv.window
    rw [← hword,← hword',toInt_word_sub (by omega) (by omega)]
    omega
  · obtain ⟨hword,-,hsoon,hsmall,-,-,-⟩ := hv.pending t ht
    exact ⟨hword,by omega⟩

/-- Every run whose forced callbacks do not leave their own timer pending is timely, nothing is put on the list twice, and
a timeout that is returned is no longer than any timer has left. -/
theorem timely_when_settled (h : Reaches (fun σ act => act.Typed σ ∧ act.Settles σ) clock σ) : Timely σ ∧
    (∀ act : Act, act.Typed σ → act.Settles σ → σ.step act ≠ .error .addedTwice) ∧
      ∀ σ' timeout, σ.step .check = .ok (σ',some timeout) → 0 < timeout → ∀ t ∈ σ.timers, timeout ≤ σ.due t - σ.clock := by
  have hv := h.valid
  refine ⟨hv.timelyState h.accounted,fun act htyped hsettles herror => ?_,fun σ' timeout hcheck hpos => ?_⟩
  · obtain hdisabled | ⟨σ',result,hok,-⟩ := step_valid hv htyped hsettles
    · rw [hdisabled] at herror
      cases herror
    · rw [hok] at herror
      cases herror
  · unfold State.step at hcheck
    dsimp only at hcheck
    split_ifs at hcheck with hstack
    have hresult := congrArg Prod.snd (Except.ok.inj hcheck)
    exact (checkTimers_valid hv hstack).2 timeout hresult hpos

/-- A timer that is set, and a check when it has expired. -/
theorem timely_when_settled_once : ∃ σ, Reaches (fun σ act => act.Typed σ ∧ act.Settles σ) (2^32-3) σ ∧ Timely σ ∧
    σ.runs.map Run.clock = [2^32+7] := by
  have hset : Reaches (fun σ act => act.Typed σ ∧ act.Settles σ) (2^32-3) _ :=
    .step (.set 0 false false 5 0) .initial ⟨by decide,trivial⟩ rfl
  have htick := Reaches.step (.tick 10) hset ⟨by decide,trivial⟩ rfl
  have hcheck := Reaches.step .check htick ⟨trivial,trivial⟩ rfl
  have hloop := Reaches.step .loop hcheck ⟨trivial,trivial⟩ rfl
  exact ⟨_,hloop,(timely_when_settled hloop).1,rfl⟩

/-- A `TimerSet` with `TimerForceOld`, and the old callback sets its timer itself: it is put on the list twice. -/
theorem forced_added_twice : ∃ σ, Reaches (fun σ act => act.Typed σ) 0 σ ∧ (Act.callbackReturns 0).Typed σ ∧
    σ.step (.callbackReturns 0) = .error .addedTwice := by
  have hset : Reaches (fun σ act => act.Typed σ) 0 _ := .step (.set 0 false false 1000 0) .initial (by decide) rfl
  have hforce := Reaches.step (.set 0 true false 1000 0) hset (by decide) rfl
  have hagain := Reaches.step (.set 0 false false 5 0) hforce (by decide) rfl
  exact ⟨_,hagain,by decide,rfl⟩

end Xlibre.Os.Timer
