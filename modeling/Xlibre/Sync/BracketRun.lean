import Xlibre.Sync.BracketAlarms

/-! The brackets over completed requests. -/
namespace Xlibre.Sync

section Walk

variable {w w' : World} {y : XID} {fuel : ℕ}

def Phase.object : Phase → Option XID
  | .idle => none
  | .change x _ _ => some x
  | .trigger x => some x
  | .destroy x => some x

lemma destroyed_ne {ph : Phase} (h : ph.object ≠ some y) : ph.destroyed ≠ some y := by
  cases ph with
  | destroy x => exact h
  | idle => simp [Phase.destroyed]
  | change x oldval ptl => simp [Phase.destroyed]
  | trigger x => simp [Phase.destroyed]

lemma triggerFired_recomputed {d : Option XID} {t : TrigRef} {x : XID} (h : Linked d w) (hd : d ≠ some y)
    (ht : some t ∈ w.triglist x) (hxy : x ≠ y) (hf : triggerFired fuel w t = some w') : Recomputed y w w' := by
  cases t with
  | alarm id =>
    have hp := ((h.wired.mem x _).1 (mem_onList.2 ht)).2
    have hn : some (.alarm id) ∉ w.triglist y := h.wired.not_mem (by rw [hp]; simpa using hxy)
    obtain rfl | ⟨al,-,rfl⟩ | ⟨al,x,value,v,-,-,-,-,rfl⟩ := syncAlarmTriggerFired_cases hf
    · exact Recomputed.refl y _
    · exact .inl (SameBrackets.setAlarm w id _)
    · exact .inl (SameBrackets.setTrig w hn _)
  | await a i =>
    simp only [triggerFired,Option.some_inj] at hf
    subst hf
    exact Recomputed.awaitFired (h.not_destroyed hd) a

lemma Inv.callbackRecomputed (h : Inv w) (hy : w.phase.object ≠ some y) (hn : next fuel w = some w') :
    Recomputed y w w' ∧ w'.phase.object ≠ some y := by
  have hl := h.linked
  have hd := destroyed_ne hy
  have hphase : ∀ (w : World) (ph : Phase), SameBrackets y w { w with phase := ph } := fun w ph => ⟨rfl,fun _ _ => rfl⟩
  cases next_cases hn with
  | settle x oldval hp =>
    rw [hp] at hy
    exact ⟨(Recomputed.brackets y w x).trans (.inl (hphase _ _)),by simp [Phase.object]⟩
  | pass x oldval t hp =>
    rw [hp] at hy
    exact ⟨.inl (hphase w _),hy⟩
  | fire x oldval t w1 pnext hp hf hm =>
    have hmem := h.atNode x oldval (some t) hp
    rw [hp] at hy
    exact ⟨(triggerFired_recomputed hl hd hmem (by simpa [Phase.object] using hy) hf).trans (.inl (hphase _ _)),hy⟩
  | rest x hp => exact ⟨.inl (hphase w _),by simp [Phase.object]⟩
  | fence x t w1 hp hm hf =>
    have hph := (hl.triggerFired (hl.live_of_mem hm) hf).2.2
    rw [hp] at hy hph
    exact ⟨triggerFired_recomputed hl hd hm (by simpa [Phase.object] using hy) hf,by rwa [hph]⟩
  | gone x hp hx =>
    rw [hp] at hy
    have hne : y ≠ x := fun he => hy (by rw [he]; rfl)
    refine ⟨.inl ⟨?_,fun _ _ => rfl⟩,by simp [Phase.object]⟩
    simp only [Function.update_of_ne hne]
  | skip x l hp hx =>
    have ho := OnlyObjs.setTriglist w x l
    have hne : y ≠ x := fun he => hy (by rw [hp,he]; rfl)
    exact ⟨.inl (SameBrackets.setTriglist w hne l),by rwa [ho.phase]⟩
  | tell x t l hp hx =>
    have ho := OnlyObjs.setTriglist w x l
    have hne : y ≠ x := fun he => hy (by rw [hp,he]; rfl)
    have hs := SameBrackets.setTriglist w hne l
    cases t with
    | alarm id =>
      have hpx : (w.trig (.alarm id)).pSync = some x :=
        ((hl.wired.mem x _).1 (mem_onList.2 (by rw [hx]; exact List.mem_cons_self))).2
      have hnm : some (.alarm id) ∉ (w.setTriglist x l).triglist y := by
        rw [hs.triglist]
        exact hl.wired.not_mem (by rw [hpx]; simpa using Ne.symm hne)
      have hq := counterDestroyed_quiet (w.setTriglist x l) id
      refine ⟨.inl (hs.trans ?_),?_⟩
      · rw [counterDestroyed,syncAlarmCounterDestroyed]
        split
        · exact SameBrackets.refl y _
        · rename_i al _
          have hal := SameBrackets.setAlarm (y := y) (w.setTriglist x l) id { al with state := .inactive }
          refine hal.trans (SameBrackets.setTrig _ ?_ _)
          rw [triglist_setAlarm]
          exact hnm
      · rw [counterDestroyed,hq.phase,ho.phase]
        exact hy
    | await a i =>
      refine ⟨Recomputed.trans (.inl hs) (Recomputed.awaitFired ?_ a),?_⟩
      · rw [ho.kind]
        exact hl.not_destroyed hd
      · rw [counterDestroyed,syncAwaitTriggerFired,(freeAwait_onlyAwait _ a).phase]
        exact ho.phase ▸ hy

lemma next_change {oldval : Int64} {p : Option (Option TrigRef)} (hp : w.phase = .change y oldval p) (hn : next fuel w = some w') :
    (∃ p', w'.phase = .change y oldval p') ∨ (UpToDate w' y ∧ w'.phase = .idle) := by
  cases next_cases hn with
  | settle x oldval' hp' =>
    rw [hp] at hp'
    cases hp'
    have hs : SameBrackets y (syncComputeBracketValues w y) { syncComputeBracketValues w y with phase := .idle } :=
      ⟨rfl,fun _ _ => rfl⟩
    exact .inr ⟨hs.upToDate (upToDate_brackets w y),rfl⟩
  | pass x oldval' t hp' =>
    rw [hp] at hp'
    cases hp'
    exact .inl ⟨_,rfl⟩
  | fire x oldval' t w1 pnext hp' hf hm =>
    rw [hp] at hp'
    cases hp'
    exact .inl ⟨_,rfl⟩
  | rest x hp' | fence x t w1 hp' hm hf | gone x hp' hx | skip x l hp' hx | tell x t l hp' hx =>
    rw [hp] at hp'
    cases hp'

def Callbacks : World → World → Prop := Relation.ReflTransGen fun w w' => ∃ fuel, next fuel w = some w'

lemma not_next_idle (hi : w.phase = .idle) : next fuel w ≠ some w' := by
  simp [next,hi]

lemma Callbacks.change {oldval : Int64} {p : Option (Option TrigRef)} (h : Callbacks w w') (hp : w.phase = .change y oldval p) :
    (∃ p', w'.phase = .change y oldval p') ∨ (UpToDate w' y ∧ w'.phase = .idle) := by
  induction h with
  | refl => exact .inl ⟨p,hp⟩
  | tail _ hn ih =>
    obtain ⟨fuel,hn⟩ := hn
    obtain ⟨p',hp'⟩ | ⟨-,hi⟩ := ih
    · exact next_change hp' hn
    · exact absurd hn (not_next_idle hi)

lemma Inv.callbacksRecomputed (h : Inv w) (hy : w.phase.object ≠ some y) (hs : Callbacks w w') : Recomputed y w w' := by
  have hall : Inv w' ∧ w'.phase.object ≠ some y ∧ Recomputed y w w' := by
    induction hs with
    | refl => exact ⟨h,hy,Recomputed.refl y w⟩
    | tail _ hn ih =>
      obtain ⟨fuel,hn⟩ := hn
      obtain ⟨hi,ho,hr⟩ := ih
      obtain ⟨hr',ho'⟩ := hi.callbackRecomputed ho hn
      exact ⟨(hi.callback hn).1,ho',hr.trans hr'⟩
  exact hall.2.2

end Walk

section Requests

variable {w w' : World} {y : XID} {fuel : ℕ} {status : Status}

lemma createAlarm_brackets {client : ℕ} {id : XID} {mask : ℕ} {values : List UInt32} {alloc : Bool} {now : Int64}
    (h : Linked none w) (hok : Settled w (.createAlarm client id mask values alloc now))
    (hs : procSyncCreateAlarm fuel w client id mask values alloc now = some (status,w')) (y : XID) :
    Untouched y w w' ∨ UpToDate w' y := by
  obtain rfl | ⟨hn,hlen,r,hr,hw⟩ := procSyncCreateAlarm_cases hs
  · exact .inl ⟨rfl,fun _ _ => rfl⟩
  have hid : w.alarms id = none := by
    simp only [World.isNew,Bool.and_eq_true,decide_eq_true_eq] at hn
    exact hn.1.2
  have hnew : some (.alarm id) ∉ w.triglist y := fun hm => h.live_of_mem hm hid
  have hborn : SameBrackets y w (bornAlarm w client id) :=
    (SameBrackets.setTrig w hnew defaultTrigger).trans (SameBrackets.setAlarm _ id _)
  have hl := h.bornAlarm client hid
  have hal := bornAlarm_alarms w client id
  have htr : (bornAlarm w client id).trig (.alarm id) = defaultTrigger := trig_setTrig_self w _ _
  have hout : Recomputed y (bornAlarm w client id) w' → Untouched y w w' ∨ UpToDate w' y :=
    fun hrec => (Recomputed.trans (.inl hborn) hrec).imp SameBrackets.untouched fun hu => hu
  obtain ⟨hf,rfl⟩ | ⟨hsucc,-,rfl⟩ | ⟨hsucc,-,hw⟩ := hw
  · rw [← hr] at hf ⊢
    obtain hu | hu := changeFailed_untouched hl hal hf (by
      rintro a - ⟨-,-,-,x,v,hx,-⟩
      rw [htr] at hx
      cases hx) y
    · refine .inl ⟨hu.triglist.trans hborn.triglist,fun t ht => ?_⟩
      refine (hu.testValue t (by rwa [hborn.triglist])).trans ?_
      rw [hborn.trig t ht]
    · exact .inr hu
  · subst hr
    obtain ⟨a,-,hc⟩ := changed_of_success hl hal hsucc
    exact hout ((hc.recomputed y).trans (Recomputed.freeAlarm y _ id))
  · rw [← hr] at hsucc hw
    obtain ⟨a,hp,hc⟩ := changed_of_success hl hal hsucc
    obtain rfl | ⟨al,-,rfl⟩ | ⟨hf,htrue⟩ := hw
    · exact hout (hc.recomputed y)
    · exact hout ((hc.recomputed y).trans (.inl (SameBrackets.setAlarm _ id _)))
    · have hread := hp.read
      have hinit := hc.ok
      rw [htr] at hread hinit
      have hno : ¬FiresAgain w none mask a now :=
        hok hn hlen a hread hp.sign ⟨hinit.counter,hinit.valueType,hinit.value,hinit.testType⟩
      refine hout (hc.fired hf htrue ?_ y)
      rw [htr]
      rintro ⟨x,value,c,v,hfa⟩
      exact hno ⟨x,value,c,v,hfa⟩

lemma changeAlarm_brackets {client : ℕ} {id : XID} {mask : ℕ} {values : List UInt32} {alloc : Bool} {now : Int64}
    (h : Linked none w) (hok : Settled w (.changeAlarm client id mask values alloc now))
    (hs : procSyncChangeAlarm fuel w client id mask values alloc now = some (status,w')) (y : XID) :
    Untouched y w w' ∨ UpToDate w' y := by
  obtain rfl | ⟨al,r,hal,hlen,hr,hw⟩ := procSyncChangeAlarm_cases hs
  · exact .inl ⟨rfl,fun _ _ => rfl⟩
  have hout : Recomputed y w w' → Untouched y w w' ∨ UpToDate w' y := 
    fun hrec => hrec.imp SameBrackets.untouched fun hu => hu
  obtain ⟨hf,rfl⟩ | ⟨hsucc,-,hw⟩ := hw
  · rw [← hr] at hf ⊢
    refine changeFailed_untouched h hal hf ?_ y
    intro a hp
    exact (hok al hal hlen a hp.read hp.selection hp.sign).2
  · rw [← hr] at hsucc hw
    obtain ⟨a,hp,hc⟩ := changed_of_success h hal hsucc
    obtain rfl | ⟨hf,htrue⟩ := hw
    · exact hout (hc.recomputed y)
    · exact hout (hc.fired hf htrue ((hok al hal hlen a hp.read hp.selection hp.sign).1 hc.ok) y)

lemma syncChangeCounter_brackets (w : World) {x : XID} (hy : y ≠ x) (value : Int64) :
    SameBrackets y w (syncChangeCounter w x value) := by
  unfold syncChangeCounter
  split
  · exact SameBrackets.trans (SameBrackets.setObj w hy _) ⟨rfl,fun _ _ => rfl⟩
  · exact SameBrackets.refl y w

lemma freeSync_brackets (w : World) {x : XID} (hy : y ≠ x) : SameBrackets y w (freeSync w x) := by
  unfold freeSync
  split
  · exact SameBrackets.refl y w
  · exact SameBrackets.trans (SameBrackets.setObj w hy _) ⟨rfl,fun _ _ => rfl⟩

lemma start_brackets (h : Linked none w) {req : Req} (hok : Settled w req) (hs : start fuel w req = some (status,w'))
    (hy : w'.phase.object ≠ some y) : Untouched y w w' ∨ UpToDate w' y := by
  have hsame : SameBrackets y w w' → Untouched y w w' ∨ UpToDate w' y := fun hb => .inl hb.untouched
  cases start_cases hs with
  | same => exact hsame (SameBrackets.refl y w)
  | newObject x data hn =>
    by_cases hx : y = x
    · subst hx
      refine .inl ⟨?_,fun _ _ => rfl⟩
      simp only [World.triglist,World.setObj,Function.update_self,hn]
    · exact hsame (SameBrackets.setObj w hx _)
  | change x value =>
    by_cases hx : y = x
    · subst hx
      unfold syncChangeCounter at hy ⊢
      split at hy
      · exact absurd rfl hy
      · exact .inl ⟨rfl,fun _ _ => rfl⟩
    · exact hsame (syncChangeCounter_brackets w hx value)
  | free x _ =>
    by_cases hx : y = x
    · subst hx
      unfold freeSync at hy ⊢
      split at hy
      · exact .inl ⟨rfl,fun _ _ => rfl⟩
      · exact absurd rfl hy
    · exact hsame (freeSync_brackets w hx)
  | createAlarm hc => exact createAlarm_brackets h hok hc y
  | changeAlarm hc => exact changeAlarm_brackets h hok hc y
  | destroyAlarm id => exact (Recomputed.freeAlarm y w id).imp SameBrackets.untouched fun hu => hu
  | await resType client conds _ => exact await_brackets h resType client conds y
  | triggerFence x b d l ho =>
    by_cases hx : y = x
    · subst hx
      exact absurd rfl hy
    · exact hsame (SameBrackets.trans (SameBrackets.setObj w hx _) ⟨rfl,fun _ _ => rfl⟩)
  | resetFence x b d l ho =>
    by_cases hx : y = x
    · subst hx
      refine .inl ⟨?_,fun _ _ => rfl⟩
      simp only [World.triglist,World.setObj,Function.update_self,ho]
    · exact hsame (SameBrackets.setObj w hx _)

def Touched (y : XID) (w : World) (req : Req) (w' : World) : Prop := Registers w y req ∨ ¬Untouched y w w'

lemma not_changing_of_objs {o : SyncObject} (ho : w.objs y = some o) (hs : ∀ value sys l d, o ≠ ⟨.counter value (some sys),l,d⟩) :
    ¬Changing w y := by
  rintro ⟨value,ct,hat,-⟩
  unfold counterAt at hat
  split at hat
  · rename_i value' sys l d ho'
    cases sys with
    | none => cases hat
    | some sys =>
      rw [ho] at ho'
      exact hs value' sys l d (Option.some_inj.1 ho')
  · cases hat

lemma start_walk (hi : w.phase = .idle) (hl : Linked none w) {req : Req} (hs : start fuel w req = some (status,w')) (hc : Changing w y)
    (hy : w'.phase.object = some y) : ∃ oldval p, w'.phase = .change y oldval p := by
  have hidle : ∀ ph : Phase, ph = .idle → ph.object = some y → ∃ oldval p, ph = .change y oldval p := by
    rintro ph rfl ho
    cases ho
  cases start_cases hs with
  | same | newObject x data hn | resetFence x b d l ho => exact hidle _ hi hy
  | change x value =>
    unfold syncChangeCounter at hy ⊢
    split at hy
    · cases hy
      exact ⟨_,_,rfl⟩
    · exact hidle _ hi hy
  | free x hx =>
    unfold freeSync at hy
    split at hy
    · rw [hi] at hy
      cases hy
    · rename_i o ho
      cases hy
      refine absurd hc (not_changing_of_objs ho fun value sys l d he => hx value sys l d ?_)
      rw [ho,he]
  | createAlarm hr => exact hidle _ ((hl.createAlarm hr).2.phase.trans hi) hy
  | changeAlarm hr => exact hidle _ ((hl.changeAlarm hr).2.phase.trans hi) hy
  | destroyAlarm id => exact hidle _ ((Quiet.freeAlarm w id).phase.trans hi) hy
  | await resType client conds _ => exact hidle _ ((hl.procSyncAwait resType client conds).phase.trans hi) hy
  | triggerFence x b d l ho =>
    cases hy
    refine absurd hc (not_changing_of_objs ho ?_)
    intro value sys l d he
    cases he

/-- **Brackets are up to date.** In every run, after a request or a change of a system counter that meets the condition, with
all its callbacks: if it touched the list of a changing system counter or the test value of a trigger on it, then the pointers
last handed to `BracketValues` are those computed from the current value and the current test values. -/
theorem brackets_up_to_date {w w₁ w' : World} {req : Req} {status : Status} {fuel : ℕ} {y : XID} (h : Reach (fun _ _ => True) w)
    (hi : w.phase = .idle) (hok : Settled w req) (hs : start fuel w req = some (status,w₁)) (hc : Callbacks w₁ w')
    (hi' : w'.phase = .idle) (hy : Changing w y) (ht : Touched y w req w') : UpToDate w' y := by
  have hinv := h.inv
  have hl := hinv.idle hi
  by_cases ho : w₁.phase.object = some y
  · -- The walk of `SyncChangeCounter` ends with the brackets.
    obtain ⟨oldval,p,hp⟩ := start_walk hi hl hs hy ho
    obtain ⟨p',hp'⟩ | ⟨hu,-⟩ := hc.change hp
    · rw [hi'] at hp'
      cases hp'
    · exact hu
  · obtain hsame | hu := (hinv.request hi hs).1.callbacksRecomputed ho hc
    · obtain hr | hn := ht
      · cases req with
        | await client conds =>
          have hw : (procSyncAwait .counter w client conds).2 = w₁ := congrArg Prod.snd (Option.some_inj.1 hs)
          rw [← hw] at hsame
          exact hsame.upToDate (await_registered hl hr)
        | _ => exact hr.elim
      · obtain hu | hu := start_brackets hl hok hs ho
        · refine absurd ⟨hsame.triglist.trans hu.triglist,fun t hm => ?_⟩ hn
          rw [hsame.trig t (by rwa [hu.triglist])]
          exact hu.testValue t hm
        · exact hsame.upToDate hu
    · exact hu

def systemCounter : World := emptyWorld.setObj 1 ⟨.counter 10 (some ⟨.unrestricted,none,none⟩),[],false⟩

/-- `CreateAlarm` for the counter and an absolute value, by default with `PositiveComparison` and `delta` 1. -/
def createAt (value : UInt32) : Req := .createAlarm 0 2 5 [1,0,value] true 10

lemma reach_systemCounter (ok : World → Req → Prop) : Reach ok systemCounter := by
  refine ⟨systemCounter,⟨?_,fun _ => rfl,fun _ => rfl,by decide,rfl,rfl⟩,.refl⟩
  intro x o ho
  by_cases hx : x = 1
  · subst hx
    simp only [systemCounter,World.setObj,Function.update_self,Option.some_inj] at ho
    exact ⟨_,_,ho.symm⟩
  · simp only [systemCounter,World.setObj,Function.update_of_ne hx] at ho
    cases ho

lemma changing_systemCounter : Changing systemCounter 1 := ⟨10,.unrestricted,by decide,by decide⟩

lemma settled_twenty : Settled systemCounter (createAt 20) := by
  rintro - - a hread - - ⟨x,value,c,v,hx,-,hv,hc,hs,w,k,-,-,hr⟩
  have hd : readAttributes 5 [1,0,20] ⟨0,defaultTrigger,1,none⟩ = some ⟨1,{ defaultTrigger with waitValue := 20 },1,none⟩ := rfl
  obtain rfl := Option.some_inj.1 (hread.symm.trans hd)
  have hx1 : namedObject none 5 1 = some 1 := by decide
  obtain rfl := Option.some_inj.1 (hx.symm.trans hx1)
  have hv1 : valueAt systemCounter 10 (some 1) = some 10 := by decide
  obtain rfl := Option.some_inj.1 (hv.symm.trans hv1)
  have hs1 : storedValue systemCounter (some 1) 5 ⟨1,{ defaultTrigger with waitValue := 20 },1,none⟩ 10 = some 20 := by decide
  obtain rfl := Option.some_inj.1 (hs.symm.trans hs1)
  have hc1 : storedCheck 5 ⟨1,{ defaultTrigger with waitValue := 20 },1,none⟩ = some .positiveComparison := by decide
  obtain rfl := Option.some_inj.1 (hc.symm.trans hc1)
  obtain ⟨-,hle,-⟩ | ⟨hne,-⟩ := hr
  · revert hle
    decide
  · cases hne

theorem brackets_up_to_date_twenty : Reach (fun _ _ => True) systemCounter ∧ Settled systemCounter (createAt 20) ∧
    Changing systemCounter 1 ∧ ∃ w', start 1 systemCounter (createAt 20) = some (.success,w') ∧
      w'.triglist 1 = [some (.alarm 2)] ∧ UpToDate w' 1 := by
  have hs : start 1 systemCounter (createAt 20) =
      some (.success,((start 1 systemCounter (createAt 20)).get (by decide)).2) := rfl
  have hl : ((start 1 systemCounter (createAt 20)).get (by decide)).2.triglist 1 = [some (.alarm 2)] := by decide
  have hi : ((start 1 systemCounter (createAt 20)).get (by decide)).2.phase = .idle := by decide
  refine ⟨reach_systemCounter _,settled_twenty,changing_systemCounter,_,hs,hl,?_⟩
  refine brackets_up_to_date (reach_systemCounter _) rfl settled_twenty hs .refl hi changing_systemCounter (.inr fun hu => ?_)
  have hold := hu.triglist
  rw [hl] at hold
  cases hold

/-- At 5 the alarm fires at once and is set to 11, while 5 is still the lower bracket. -/
theorem brackets_left_behind : Reach (fun _ _ => True) systemCounter ∧ systemCounter.phase = .idle ∧ Changing systemCounter 1 ∧
    ∃ w', start 10 systemCounter (createAt 5) = some (.success,w') ∧ Callbacks w' w' ∧ w'.phase = .idle ∧
      Touched 1 systemCounter (createAt 5) w' ∧ w'.objs 1 = some ⟨.counter 10 (some ⟨.unrestricted,some 5,none⟩),[some (.alarm 2)],false⟩ ∧
      bracketValues .unrestricted 10 [w'.trig (.alarm 2)] = (none,some 11) ∧ ¬UpToDate w' 1 := by
  refine ⟨reach_systemCounter _,rfl,changing_systemCounter,((start 10 systemCounter (createAt 5)).get (by decide)).2,?_,.refl,
    by decide,?_,by decide,by decide,?_⟩
  · rfl
  · refine .inr fun hu => ?_
    have hl := hu.triglist
    revert hl
    decide
  · intro hu
    have hb := hu 10 ⟨.unrestricted,some 5,none⟩ [some (.alarm 2)] false (by decide) (by decide)
    revert hb
    decide

end Requests

end Xlibre.Sync
