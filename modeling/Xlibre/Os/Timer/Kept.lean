import Xlibre.Os.Timer.Machine
import Mathlib.Data.List.TakeWhile

/-! The order of times that are less than 2^31 apart, and the list that is kept in it. -/
namespace Xlibre.Os.Timer

section Insert
variable {α κ : Type*} [LinearOrder κ] {f : α → κ} {p : α → Bool} {l : List α} {x : α}

lemma insert_perm (p : α → Bool) (l : List α) (x : α) : (l.takeWhile p ++ x::l.dropWhile p).Perm (x::l) := by
  refine List.perm_middle.trans (List.Perm.cons _ ?_)
  rw [List.takeWhile_append_dropWhile]

lemma lt_of_mem_dropWhile (hl : l.Pairwise fun a b => f a ≤ f b) (hp : ∀ a ∈ l, p a = true ↔ f a ≤ f x) {a : α}
    (ha : a ∈ l.dropWhile p) : f x < f a := by
  induction l with
  | nil => cases ha
  | cons b l ih =>
    obtain ⟨hb,hl⟩ := List.pairwise_cons.1 hl
    by_cases hfirst : p b = true
    · rw [List.dropWhile_cons_of_pos hfirst] at ha
      exact ih hl (fun a ha => hp a (List.mem_cons_of_mem _ ha)) ha
    · rw [List.dropWhile_cons_of_neg hfirst] at ha
      have hlt : f x < f b := lt_of_not_ge fun hle => hfirst ((hp b List.mem_cons_self).2 hle)
      obtain rfl | ha := List.mem_cons.1 ha
      · exact hlt
      · exact hlt.trans_le (hb a ha)

lemma pairwise_insert (hl : l.Pairwise fun a b => f a ≤ f b) (hp : ∀ a ∈ l, p a = true ↔ f a ≤ f x) :
    (l.takeWhile p ++ x::l.dropWhile p).Pairwise fun a b => f a ≤ f b := by
  have hbefore : ∀ a ∈ l.takeWhile p, f a ≤ f x := fun a ha =>
    (hp a ((List.takeWhile_prefix p).mem ha)).1 (List.mem_takeWhile_imp ha)
  have hafter : ∀ a ∈ l.dropWhile p, f x < f a := fun a ha => lt_of_mem_dropWhile hl hp ha
  refine List.pairwise_append.2 ⟨hl.sublist (List.takeWhile_sublist p),List.pairwise_cons.2 ⟨fun a ha => (hafter a ha).le,
    hl.sublist (List.dropWhile_sublist p)⟩,fun a ha b hb => ?_⟩
  obtain rfl | hb := List.mem_cons.1 hb
  · exact hbefore a ha
  · exact (hbefore a ha).trans (hafter b hb).le

end Insert

lemma toInt_word_sub {a b : ℤ} (hlow : -2^31 ≤ a - b) (hhigh : a - b < 2^31) : (word a - word b).toInt = a - b := by
  unfold word
  rw [BitVec.toInt_sub,BitVec.toInt_ofInt,BitVec.toInt_ofInt,Int.sub_bmod_bmod,Int.bmod_sub_bmod]
  apply Int.bmod_eq_of_le <;> omega

lemma word_add_toInt (now : ℤ) (d : BitVec 32) : word (now + d.toInt) = word now + d := by
  unfold word
  rw [BitVec.ofInt_add,BitVec.ofInt_toInt]

/-- A timeout as `TimerSet` is given it. -/
def Timeout (now : ℤ) (absolute : Bool) (millis : BitVec 32) : Prop :=
  if absolute then (millis - word now).toInt < 2^30 else millis.toNat < 2^30

/-- How far a time that is set is from now. -/
def leftOf (now : ℤ) (absolute : Bool) (millis : BitVec 32) : BitVec 32 :=
  if absolute then millis - word now else millis

lemma toInt_of_small {d : BitVec 32} (h : d.toNat < 2^30) : d.toInt = d.toNat :=
  BitVec.toInt_eq_toNat_of_lt (by omega)

lemma Timeout.left_lt {now : ℤ} {absolute : Bool} {millis : BitVec 32} (h : Timeout now absolute millis) :
    (leftOf now absolute millis).toInt < 2^30 := by
  unfold Timeout at h
  unfold leftOf
  split_ifs at h ⊢
  · exact h
  · rw [toInt_of_small h]
    exact_mod_cast h

end Xlibre.Os.Timer

/-! What the functions on timers keep. -/
namespace Xlibre.Os.Timer

variable {σ σ' : State} {t u : ℕ} {now : ℤ} {absolute force : Bool} {millis : BitVec 32} {func : ℕ}

structure Pending (σ : State) (t : ℕ) : Prop where
  expires : word (σ.due t) = (σ.timer t).expires
  unchecked : σ.checked < σ.due t
  soon : σ.due t ≤ σ.clock + (σ.timer t).delta.toNat
  small : (σ.timer t).delta.toNat < 2^30
  counted : σ.setting t < σ.settings
  unrun : ∀ r ∈ σ.runs, r.setting ≠ σ.setting t
  kept : σ.setting t ∉ σ.dropped

/-- What is to be done began after the time that was checked; the loop of `DoTimers` is below the rest, and that of
`CheckAllTimers` never is begun. -/
def StackOk (checked clock : ℤ) : List Frame → Prop
  | [] => True
  | .callback _::stack => StackOk checked clock stack
  | .forced _ now absolute millis _::stack =>
    checked ≤ now ∧ now ≤ clock ∧ Timeout now absolute millis ∧ StackOk checked clock stack
  | .timers now::stack => checked ≤ now ∧ now ≤ clock ∧ stack = []
  | .allTimers::_ => False

structure Valid (σ : State) : Prop where
  once : σ.timers.Nodup
  sorted : σ.timers.Pairwise fun a b => σ.due a ≤ σ.due b
  pending : ∀ t ∈ σ.timers, Pending σ t
  distinct : ∀ t ∈ σ.timers, ∀ u ∈ σ.timers, σ.setting t = σ.setting u → t = u
  runsOnce : (σ.runs.map Run.setting).Nodup
  runsCounted : ∀ r ∈ σ.runs, r.setting < σ.settings
  runsKept : ∀ r ∈ σ.runs, r.setting ∉ σ.dropped
  droppedCounted : ∀ s ∈ σ.dropped, s < σ.settings
  timely : ∀ r ∈ σ.runs, r.forced = true ∨ r.due ≤ r.clock
  started : σ.checked ≤ σ.clock
  window : σ.clock < σ.checked + 2^30
  stack : StackOk σ.checked σ.clock σ.stack

lemma initial_valid (clock : ℤ) : Valid (.initial clock) :=
  ⟨List.nodup_nil,List.Pairwise.nil,fun t h => (nomatch h),fun t h => (nomatch h),List.nodup_nil,fun r h => (nomatch h),
    fun r h => (nomatch h),fun s h => (nomatch h),fun r h => (nomatch h),le_rfl,
    by change clock < clock + 2^30; omega,trivial⟩

lemma StackOk.mono {checked clock clock' : ℤ} {stack : List Frame} (hle : clock ≤ clock')
    (h : StackOk checked clock stack) : StackOk checked clock' stack := by
  induction stack with
  | nil => trivial
  | cons frame stack ih =>
    cases frame with
    | callback t => exact ih h
    | forced t now absolute millis func => exact ⟨h.1,h.2.1.trans hle,h.2.2.1,ih h.2.2.2⟩
    | timers now => exact ⟨h.1,h.2.1.trans hle,h.2.2⟩
    | allTimers => exact h

lemma Valid.push (hv : Valid σ) {stack : List Frame} (h : StackOk σ.checked σ.clock stack) : Valid { σ with stack } :=
  ⟨hv.once,hv.sorted,fun t ht => ⟨(hv.pending t ht).expires,(hv.pending t ht).unchecked,(hv.pending t ht).soon,
    (hv.pending t ht).small,(hv.pending t ht).counted,(hv.pending t ht).unrun,(hv.pending t ht).kept⟩,hv.distinct,
    hv.runsOnce,hv.runsCounted,hv.runsKept,hv.droppedCounted,hv.timely,hv.started,hv.window,h⟩

lemma Valid.tick (hv : Valid σ) {n : ℕ} (h : σ.clock + n < σ.checked + 2^30) : Valid { σ with clock := σ.clock + n } := by
  have hle : σ.clock ≤ σ.clock + n := by omega
  refine ⟨hv.once,hv.sorted,fun t ht => ?_,hv.distinct,hv.runsOnce,hv.runsCounted,hv.runsKept,hv.droppedCounted,hv.timely,
    hv.started.trans hle,h,hv.stack.mono hle⟩
  obtain ⟨hword,hafter,hsoon,hsmall,hcounted,hunrun,hkept⟩ := hv.pending t ht
  exact ⟨hword,hafter,by dsimp only; omega,hsmall,hcounted,hunrun,hkept⟩

lemma mem_listDel : u ∈ (σ.listDel t).timers ↔ u ∈ σ.timers ∧ u ≠ t := by
  unfold State.listDel
  rw [List.mem_filter,decide_eq_true_iff]

lemma Valid.listDel (hv : Valid σ) (t : ℕ) : Valid (σ.listDel t) := by
  have hsub : (σ.listDel t).timers.Sublist σ.timers := List.filter_sublist
  refine ⟨hv.once.sublist hsub,hv.sorted.sublist hsub,fun u hu => ?_,fun a ha b hb => ?_,hv.runsOnce,hv.runsCounted,
    hv.runsKept,hv.droppedCounted,hv.timely,hv.started,hv.window,hv.stack⟩
  · obtain ⟨hword,hafter,hsoon,hsmall,hcounted,hunrun,hkept⟩ := hv.pending u (hsub.mem hu)
    exact ⟨hword,hafter,hsoon,hsmall,hcounted,hunrun,hkept⟩
  · exact hv.distinct a (hsub.mem ha) b (hsub.mem hb)

lemma Valid.note (hv : Valid σ) {forced : Bool} (hcounted : σ.setting t < σ.settings)
    (hunrun : ∀ r ∈ σ.runs, r.setting ≠ σ.setting t) (hkept : σ.setting t ∉ σ.dropped) (hgone : ∀ u ∈ σ.timers, σ.setting u ≠ σ.setting t)
    (htime : forced = true ∨ σ.due t ≤ σ.clock) : Valid (σ.note t forced) := by
  have hmem : ∀ r, r ∈ (σ.note t forced).runs ↔ r ∈ σ.runs ∨ r = ⟨σ.setting t,σ.due t,σ.clock,forced⟩ := by
    intro r
    unfold State.note
    rw [List.mem_append,List.mem_singleton]
  refine ⟨hv.once,hv.sorted,fun u hu => ?_,hv.distinct,?_,fun r hr => ?_,fun r hr => ?_,hv.droppedCounted,fun r hr => ?_,
    hv.started,hv.window,hv.stack⟩
  · obtain ⟨hword,hafter,hsoon,hsmall,hcounted',hunrun',hkept'⟩ := hv.pending u hu
    refine ⟨hword,hafter,hsoon,hsmall,hcounted',fun r hr => ?_,hkept'⟩
    obtain hr | rfl := (hmem r).1 hr
    · exact hunrun' r hr
    · exact (hgone u hu).symm
  · unfold State.note
    rw [List.map_append]
    refine List.nodup_append.2 ⟨hv.runsOnce,List.nodup_cons.2 ⟨List.not_mem_nil,List.nodup_nil⟩,fun a ha b hb => ?_⟩
    obtain ⟨r,hr,rfl⟩ := List.mem_map.1 ha
    rw [List.mem_singleton.1 hb]
    exact hunrun r hr
  · obtain hr | rfl := (hmem r).1 hr
    · exact hv.runsCounted r hr
    · exact hcounted
  · obtain hr | rfl := (hmem r).1 hr
    · exact hv.runsKept r hr
    · exact hkept
  · obtain hr | rfl := (hmem r).1 hr
    · exact hv.timely r hr
    · exact htime

lemma Valid.timerCancel (hv : Valid σ) (t : ℕ) : Valid (σ.timerCancel t) := by
  by_cases ht : t ∈ σ.timers
  · have hp := hv.pending t ht
    have hdel := hv.listDel t
    have hmem : ∀ s, s ∈ (σ.timerCancel t).dropped ↔ s ∈ σ.dropped ∨ s = σ.setting t := by
      intro s
      unfold State.timerCancel
      rw [if_pos ht,List.mem_append,List.mem_singleton]
    refine ⟨hdel.once,hdel.sorted,fun u hu => ?_,hdel.distinct,hdel.runsOnce,hdel.runsCounted,fun r hr hs => ?_,
      fun s hs => ?_,hdel.timely,hdel.started,hdel.window,hdel.stack⟩
    · obtain ⟨hword,hafter,hsoon,hsmall,hcounted,hunrun,hkept⟩ := hdel.pending u hu
      refine ⟨hword,hafter,hsoon,hsmall,hcounted,hunrun,fun hs => ?_⟩
      obtain hs | hs := (hmem _).1 hs
      · exact hkept hs
      · obtain ⟨hu,hne⟩ := mem_listDel.1 hu
        exact hne (hv.distinct u hu t ht hs)
    · obtain hs | hs := (hmem _).1 hs
      · exact hdel.runsKept r hr hs
      · exact hp.unrun r hr hs
    · obtain hs | rfl := (hmem _).1 hs
      · exact hv.droppedCounted s hs
      · exact hp.counted
  · have hsame : σ.timerCancel t = σ.listDel t := by
      unfold State.timerCancel
      rw [if_neg ht]
      rfl
    rw [hsame]
    exact hv.listDel t

lemma Valid.take (hv : Valid σ) {forced : Bool} (ht : t ∈ σ.timers) (htime : forced = true ∨ σ.due t ≤ σ.clock) :
    Valid ((σ.listDel t).note t forced) := by
  have hp := hv.pending t ht
  refine (hv.listDel t).note hp.counted hp.unrun hp.kept (fun u hu heq => ?_) htime
  obtain ⟨hu,hne⟩ := mem_listDel.1 hu
  exact hne (hv.distinct u hu t ht heq)

lemma Valid.doTimer (hv : Valid σ) {forced : Bool} (ht : t ∈ σ.timers) (htime : forced = true ∨ σ.due t ≤ σ.clock) :
    Valid (σ.doTimer t forced) := by
  refine (hv.take ht htime).push ?_
  exact hv.stack

lemma Pending.left (hv : Valid σ) (h : Pending σ t) (hfrom : σ.checked ≤ now) (hto : now ≤ σ.clock) :
    ((σ.timer t).expires - word now).toInt = σ.due t - now := by
  obtain ⟨hword,hafter,hsoon,hsmall,-,-,-⟩ := h
  have hwindow := hv.window
  rw [← hword]
  apply toInt_word_sub <;> omega

section Arm
variable (hv : Valid σ) (hnot : t ∉ σ.timers) (hfrom : σ.checked ≤ now) (hto : now ≤ σ.clock)
  (htimeout : Timeout now absolute millis)

def setUp (σ : State) (t : ℕ) (now : ℤ) (left : BitVec 32) (func : ℕ) : State :=
  { σ with
    timer := Function.update σ.timer t ⟨word now + left,left,func⟩
    settings := σ.settings + 1
    setting := Function.update σ.setting t σ.settings
    due := Function.update σ.due t (now + left.toInt) }

include hv hnot

lemma setUp_valid (left : BitVec 32) : Valid (setUp σ t now left func) := by
  have hne : ∀ u ∈ σ.timers, u ≠ t := fun u hu heq => hnot (heq ▸ hu)
  have hdue : ∀ u ∈ σ.timers, (setUp σ t now left func).due u = σ.due u := fun u hu => Function.update_of_ne (hne u hu) _ _
  have hsetting : ∀ u ∈ σ.timers, (setUp σ t now left func).setting u = σ.setting u :=
    fun u hu => Function.update_of_ne (hne u hu) _ _
  have htimer : ∀ u ∈ σ.timers, (setUp σ t now left func).timer u = σ.timer u :=
    fun u hu => Function.update_of_ne (hne u hu) _ _
  refine ⟨hv.once,?_,fun u hu => ?_,fun a ha b hb heq => ?_,hv.runsOnce,fun r hr => ?_,hv.runsKept,fun s hs => ?_,
    hv.timely,hv.started,hv.window,hv.stack⟩
  · refine hv.sorted.imp_of_mem fun {a b} ha hb hab => ?_
    rw [hdue a ha,hdue b hb]
    exact hab
  · obtain ⟨hword,hafter,hsoon,hsmall,hcounted,hunrun,hkept⟩ := hv.pending u hu
    refine ⟨?_,?_,?_,?_,?_,fun r hr => ?_,?_⟩
    · rw [hdue u hu,htimer u hu,hword]
    · rw [hdue u hu]
      exact hafter
    · rw [hdue u hu,htimer u hu]
      exact hsoon
    · rw [htimer u hu]
      exact hsmall
    · rw [hsetting u hu]
      exact Nat.lt_succ_of_lt hcounted
    · rw [hsetting u hu]
      exact hunrun r hr
    · rw [hsetting u hu]
      exact hkept
  · rw [hsetting a ha,hsetting b hb] at heq
    exact hv.distinct a ha b hb heq
  · exact Nat.lt_succ_of_lt (hv.runsCounted r hr)
  · exact Nat.lt_succ_of_lt (hv.droppedCounted s hs)

include hfrom hto

lemma setUp_insert {left : BitVec 32} (hpos : 0 < left.toInt) (hsmall : left.toInt < 2^30) :
    Valid { setUp σ t now left func with timers := σ.sortIn t (word now + left) } := by
  have hset : Valid (setUp σ t now left func) := setUp_valid hv hnot left
  have hne : ∀ u ∈ σ.timers, u ≠ t := fun u hu heq => hnot (heq ▸ hu)
  have hown : (setUp σ t now left func).due t = now + left.toInt := Function.update_self _ _ _
  have hperm := insert_perm (fun e => !decide (((σ.timer e).expires - (word now + left)).toInt > 0)) σ.timers t
  have hmem : ∀ u, u ∈ σ.sortIn t (word now + left) ↔ u = t ∨ u ∈ σ.timers := fun u =>
    hperm.mem_iff.trans List.mem_cons
  have hnat : (left.toNat : ℤ) = left.toInt := by
    have hlt := left.isLt
    rw [BitVec.toInt_eq_toNat_cond] at hpos hsmall ⊢
    split_ifs at hpos hsmall ⊢ <;> omega
  have hwindow := hv.window
  refine ⟨hperm.nodup_iff.2 (List.nodup_cons.2 ⟨hnot,hv.once⟩),?_,fun u hu => ?_,fun a ha b hb heq => ?_,hset.runsOnce,
    hset.runsCounted,hset.runsKept,hset.droppedCounted,hset.timely,hset.started,hset.window,hset.stack⟩
  · refine pairwise_insert hset.sorted fun u hu => ?_
    have hp := hv.pending u hu
    obtain ⟨hword,hafter,hsoon,hsmall',-,-,-⟩ := hp
    have hdue : (setUp σ t now left func).due u = σ.due u := Function.update_of_ne (hne u hu) _ _
    rw [hdue,hown]
    change (!decide (((σ.timer u).expires - (word now + left)).toInt > 0)) = true ↔ _
    rw [← hword,← word_add_toInt,toInt_word_sub (by omega) (by omega)]
    simp only [Bool.not_eq_true',decide_eq_false_iff_not]
    omega
  · obtain rfl | hu := (hmem u).1 hu
    · have htimer : (setUp σ u now left func).timer u = ⟨word now + left,left,func⟩ := Function.update_self _ _ _
      have hsetting : (setUp σ u now left func).setting u = σ.settings := Function.update_self _ _ _
      refine ⟨?_,?_,?_,?_,?_,fun r hr => ?_,fun hs => ?_⟩
      · rw [hown,htimer,word_add_toInt]
      · rw [hown]
        change σ.checked < _
        omega
      · rw [hown,htimer,hnat]
        change now + left.toInt ≤ σ.clock + left.toInt
        omega
      · rw [htimer]
        change left.toNat < 2^30
        omega
      · rw [hsetting]
        exact Nat.lt_succ_self _
      · rw [hsetting]
        exact (hv.runsCounted r hr).ne
      · dsimp only at hs
        rw [hsetting] at hs
        exact absurd (hv.droppedCounted _ hs) (lt_irrefl _)
    · obtain ⟨hword,hafter,hsoon,hsmall',hcounted,hunrun,hkept⟩ := hset.pending u hu
      exact ⟨hword,hafter,hsoon,hsmall',hcounted,hunrun,hkept⟩
  · have hfresh : ∀ u ∈ σ.timers, (setUp σ t now left func).setting u ≠ (setUp σ t now left func).setting t := by
      intro u hu
      have hsetting : (setUp σ t now left func).setting t = σ.settings := Function.update_self _ _ _
      have hold : (setUp σ t now left func).setting u = σ.setting u := Function.update_of_ne (hne u hu) _ _
      rw [hsetting,hold]
      exact (hv.pending u hu).counted.ne
    obtain ha' | ha' := (hmem a).1 ha <;> obtain hb' | hb' := (hmem b).1 hb
    · rw [ha',hb']
    · exact absurd (ha' ▸ heq).symm (hfresh b hb')
    · exact absurd (hb' ▸ heq) (hfresh a ha')
    · exact hset.distinct a ha' b hb' heq

omit hfrom in
lemma setUp_run {left : BitVec 32} (hpast : left.toInt ≤ 0) :
    Valid ({ setUp σ t now left func with timers := σ.sortIn t (word now + left) }.doTimer t false) := by
  have hset : Valid (setUp σ t now left func) := setUp_valid hv hnot left
  have hne : ∀ u ∈ σ.timers, u ≠ t := fun u hu heq => hnot (heq ▸ hu)
  have hsetting : (setUp σ t now left func).setting t = σ.settings := Function.update_self _ _ _
  have hdue : (setUp σ t now left func).due t = now + left.toInt := Function.update_self _ _ _
  have hlist : (σ.sortIn t (word now + left)).filter (· ≠ t) = σ.timers := by
    unfold State.sortIn
    rw [List.filter_append,List.filter_cons_of_neg (by simp),← List.filter_append,List.takeWhile_append_dropWhile]
    exact List.filter_eq_self.2 fun u hu => decide_eq_true (hne u hu)
  have hrun : Valid ((setUp σ t now left func).note t false) := by
    refine hset.note ?_ (fun r hr => ?_) (fun hs => ?_) (fun u hu => ?_) (.inr ?_)
    · rw [hsetting]
      exact Nat.lt_succ_self _
    · rw [hsetting]
      exact (hv.runsCounted r hr).ne
    · rw [hsetting] at hs
      exact absurd (hv.droppedCounted _ hs) (lt_irrefl _)
    · have hold : (setUp σ t now left func).setting u = σ.setting u := Function.update_of_ne (hne u hu) _ _
      rw [hsetting,hold]
      exact (hv.pending u hu).counted.ne
    · rw [hdue]
      change _ ≤ σ.clock
      omega
  have hpush : Valid { (setUp σ t now left func).note t false with stack := .callback t::σ.stack } := hrun.push hv.stack
  unfold State.doTimer State.listDel
  dsimp only
  rw [hlist]
  exact hpush

include htimeout

lemma arm_valid : ∃ σ', σ.arm t now absolute millis func = .ok σ' ∧ Valid σ' := by
  unfold State.arm
  by_cases hzero : millis = 0
  · exact ⟨σ,if_pos hzero,hv⟩
  rw [if_neg hzero]
  have hleft : (if absolute = true then millis else millis + word now) = word now + leftOf now absolute millis := by
    unfold leftOf
    split_ifs
    · bv_omega
    · exact BitVec.add_comm _ _
  have hdelta : (if absolute = true then millis - word now else millis) = leftOf now absolute millis := rfl
  have hrest : word now + leftOf now absolute millis - word now = leftOf now absolute millis := by
    bv_omega
  dsimp only
  rw [hleft,hdelta,if_neg hnot,hrest]
  by_cases hpast : (leftOf now absolute millis).toInt ≤ 0
  · rw [if_pos hpast]
    exact ⟨_,rfl,setUp_run hv hnot hto hpast⟩
  · rw [if_neg hpast]
    exact ⟨_,rfl,setUp_insert hv hnot hfrom hto (lt_of_not_ge hpast) htimeout.left_lt⟩

end Arm

end Xlibre.Os.Timer
