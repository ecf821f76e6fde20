import Xlibre.Sync.Lifecycle

/-! The loop that updates an alarm, and when it ends. -/
namespace Xlibre.Sync

section Loop

lemma toInt_add_of_no_overflow {a b : Int64} (h : (checkedInt64Add a b).2 = false) : (a+b).toInt = a.toInt+b.toInt := by
  have ha := a.toInt_lt
  have hb := b.toInt_lt
  have ha' := a.le_toInt
  have hb' := b.le_toInt
  have hs := Int64.toInt_add a b
  simp only [checkedInt64Add,Int64.lt_iff_toInt_lt,Int64.toInt_zero] at h
  rw [Int.bmod_def] at hs
  by_cases h1 : a.toInt < 0 <;> by_cases h2 : b.toInt < 0 <;> by_cases h3 : (a+b).toInt < 0 <;>
    simp only [h1,h2,h3,decide_true,decide_false,Bool.and_eq_false_iff] at h <;> simp at h <;> split_ifs at hs <;> omega

lemma alarmLoop_isSome (isTrue : Int64 → Bool) (delta : Int64) (μ : Int64 → ℕ)
    (hμ : ∀ v, (checkedInt64Add v delta).2 = false → μ (v+delta) < μ v) (fuel : ℕ) (v : Int64) (h : μ v < fuel) :
    (alarmLoop isTrue delta fuel v).isSome := by
  induction fuel generalizing v with
  | zero => exact absurd h (Nat.not_lt_zero _)
  | succ fuel ih =>
    rw [alarmLoop]
    split_ifs with hc
    · have hlt := hμ v hc.1
      exact ih _ (by
        have he : (checkedInt64Add v delta).1 = v+delta := rfl
        rw [he]
        omega)
    · rfl

lemma alarmLoop_isSome_of_false {isTrue : Int64 → Bool} (h : ∀ v, isTrue v = false) (delta v : Int64) {fuel : ℕ} (hf : 0 < fuel) :
    (alarmLoop isTrue delta fuel v).isSome := by
  cases fuel with
  | zero => exact absurd hf (Nat.lt_irrefl _)
  | succ fuel =>
    rw [alarmLoop,if_neg (by simp [h])]
    rfl

lemma alarmLoop_zero {isTrue : Int64 → Bool} {v : Int64} (h : isTrue v = true) (fuel : ℕ) : alarmLoop isTrue 0 fuel v = none := by
  induction fuel with
  | zero => rfl
  | succ fuel ih =>
    have hsum : checkedInt64Add v 0 = (v,false) := by
      simp only [checkedInt64Add,Int64.add_zero]
      by_cases hv : v < 0 <;> simp [hv]
    rw [alarmLoop,hsum]
    dsimp only
    rw [if_pos ⟨rfl,h⟩,ih]

lemma alarmLoop_isSome_of_delta {delta : Int64} (hd : delta ≠ 0) (isTrue : Int64 → Bool) {fuel : ℕ} (hf : 2^64 < fuel) (v : Int64) :
    (alarmLoop isTrue delta fuel v).isSome := by
  have hv := v.toInt_lt
  have hv' := v.le_toInt
  have hne : delta.toInt ≠ 0 := fun h => hd (Int64.toInt_inj.1 (by rw [h,Int64.toInt_zero]))
  by_cases hpos : 0 < delta.toInt
  · refine alarmLoop_isSome isTrue delta (fun u => (2^63-u.toInt).toNat) ?_ fuel v (by omega)
    intro u hu
    have hs := toInt_add_of_no_overflow hu
    have := u.toInt_lt
    omega
  · refine alarmLoop_isSome isTrue delta (fun u => (u.toInt+2^63).toNat) ?_ fuel v (by omega)
    intro u hu
    have hs := toInt_add_of_no_overflow hu
    have := u.le_toInt
    have := (u+delta).le_toInt
    omega

end Loop

section Agree

/-- The function of a trigger belongs to its test-type, and `delta` has a sign for it. -/
structure Tuned (al : SyncAlarm) (tr : SyncTrigger) : Prop where
  check : checkOf tr.testType = some tr.checkTrigger
  sign : signMismatch tr.testType al.delta = false

/-- The sign of `delta` agrees with the installed function, and a comparison with `delta` 0 is treated as such. -/
structure Agrees (al : SyncAlarm) (tr : SyncTrigger) : Prop where
  positive : tr.checkTrigger = .positiveComparison ∨ tr.checkTrigger = .positiveTransition → 0 ≤ al.delta
  negative : tr.checkTrigger = .negativeComparison ∨ tr.checkTrigger = .negativeTransition → al.delta ≤ 0
  zero : tr.checkTrigger = .positiveComparison ∨ tr.checkTrigger = .negativeComparison →
    al.delta ≠ 0 ∨ tr.testType = positiveComparison ∨ tr.testType = negativeComparison

lemma checkOf_cases {testType : ℕ} {c : CheckTrigger} (h : checkOf testType = some c) :
    (testType = positiveTransition ∧ c = .positiveTransition) ∨ (testType = negativeTransition ∧ c = .negativeTransition) ∨
      (testType = positiveComparison ∧ c = .positiveComparison) ∨ (testType = negativeComparison ∧ c = .negativeComparison) := by
  unfold checkOf at h
  split_ifs at h with h0 h1 h2 h3
  · cases h
    exact .inl ⟨h0,rfl⟩
  · cases h
    exact .inr (.inl ⟨h1,rfl⟩)
  · cases h
    exact .inr (.inr (.inl ⟨h2,rfl⟩))
  · cases h
    exact .inr (.inr (.inr ⟨h3,rfl⟩))

lemma Tuned.agrees {al : SyncAlarm} {tr : SyncTrigger} (h : Tuned al tr) : Agrees al tr := by
  have hs := h.sign
  simp only [signMismatch,decide_eq_false_iff_not,not_or,not_and,Int64.not_lt] at hs
  obtain ⟨ht,hc⟩ | ⟨ht,hc⟩ | ⟨ht,hc⟩ | ⟨ht,hc⟩ := checkOf_cases h.check
  · exact ⟨fun _ => hs.1 (.inr ht),by simp [hc],by simp [hc]⟩
  · exact ⟨by simp [hc],fun _ => hs.2 (.inr ht),by simp [hc]⟩
  · exact ⟨fun _ => hs.1 (.inl ht),by simp [hc],fun _ => .inr (.inl ht)⟩
  · exact ⟨by simp [hc],fun _ => hs.2 (.inl ht),fun _ => .inr (.inr ht)⟩

lemma check_transition (w : World) (tr : SyncTrigger) {value : Int64} (hp : counterPtr w tr.pSync = .counter value)
    (hc : tr.checkTrigger = .positiveTransition ∨ tr.checkTrigger = .negativeTransition) : check w tr value = false := by
  obtain hc | hc := hc
  · simp only [check,hc,checkCounter,hp,Bool.and_eq_false_iff,decide_eq_false_iff_not,Int64.not_lt,Int64.not_le]
    exact Int64.le_or_lt _ _
  · simp only [check,hc,checkCounter,hp,Bool.and_eq_false_iff,decide_eq_false_iff_not,Int64.not_lt,Int64.not_le]
    exact Int64.le_or_lt _ _

lemma syncAlarmTriggerFired_isSome {w : World} {id : XID} (h : ∀ al, w.alarms id = some al → Tuned al (w.trig (.alarm id)))
    {fuel : ℕ} (hf : 2^64 < fuel) : (syncAlarmTriggerFired fuel w id).isSome := by
  unfold syncAlarmTriggerFired
  cases hal : w.alarms id with
  | none => rfl
  | some al =>
    have ht := h al hal
    cases hp : counterPtr w (w.trig (.alarm id)).pSync with
    | other =>
      simp only [hp]
      rfl
    | null =>
      simp only [hp]
      split_ifs <;> rfl
    | counter value =>
      simp only [hp]
      split_ifs with h1 h2
      · rfl
      · rfl
      · have hloop : (alarmLoop (fun v => check w { w.trig (.alarm id) with testValue := v } value) al.delta fuel
            (w.trig (.alarm id)).testValue).isSome := by
          by_cases hd : al.delta = 0
          · -- Then the function is a transition, which the first round makes false.
            refine alarmLoop_isSome_of_false ?_ _ _ (by omega)
            intro v
            refine check_transition w { w.trig (.alarm id) with testValue := v } hp ?_
            have hc := checkOf_cases ht.check
            tauto
          · exact alarmLoop_isSome_of_delta hd _ hf _
        obtain ⟨r,hr⟩ := Option.isSome_iff_exists.1 hloop
        simp only [hr,Option.bind_eq_bind,Option.bind_some]
        split_ifs <;> rfl

end Agree

end Xlibre.Sync
