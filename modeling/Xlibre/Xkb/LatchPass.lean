import Xlibre.Xkb.LatchSteps

/-! Passes over the filters keep what is latched in the charge of pending filters, and an action that breaks latches
leaves none of them. -/
namespace Xlibre.Xkb

open XkbFilter

structure XkbSrvInfo.Charged (xkbi : XkbSrvInfo) : Prop where
  keycodes : ∀ (j : ℕ) (f : XkbFilter), xkbi.filters[j]? = some f → f.active = true → f.keycode ≠ 0
  /-- A filter made by a request is a pending latch. -/
  synthetic : ∀ (j : ℕ) (f : XkbFilter), xkbi.filters[j]? = some f → f.active = true → f.keycode = syntheticKeycode →
    f.pending = true
  latched : xkbi.Latched → ∃ (j : ℕ) (f : XkbFilter), xkbi.filters[j]? = some f ∧ f.active = true ∧ f.pending = true

lemma XkbSrvInfo.Charged.replace {x y : XkbSrvInfo} {i : ℕ} {f g : XkbFilter} (h : x.Charged) (hi : x.filters[i]? = some f)
    (hy : y.filters = x.filters.set i g)
    (hkey : g.active = true → g.keycode ≠ 0 ∧ (g.keycode = syntheticKeycode → g.pending = true))
    (hlat : y.Latched → (g.active = true ∧ g.pending = true) ∨ (x.Latched ∧ ¬(f.active = true ∧ f.pending = true))) :
    y.Charged := by
  have hset : ∀ j, y.filters[j]? = if j = i then some g else x.filters[j]? := fun j => by
    rw [hy]
    exact getElem?_set_slot hi g j
  constructor
  · intro j k hk hact
    rw [hset] at hk
    split at hk
    · obtain rfl := Option.some.inj hk
      exact (hkey hact).1
    · exact h.keycodes j k hk hact
  · intro j k hk hact hsyn
    rw [hset] at hk
    split at hk
    · obtain rfl := Option.some.inj hk
      exact (hkey hact).2 hsyn
    · exact h.synthetic j k hk hact hsyn
  · intro hl
    rcases hlat hl with ⟨hg,hgp⟩ | ⟨hx,hnot⟩
    · exact ⟨i,g,by rw [hset,if_pos rfl],hg,hgp⟩
    · obtain ⟨j,k,hk,hkact,hkp⟩ := h.latched hx
      have hj : j ≠ i := by
        rintro rfl
        obtain rfl := Option.some.inj (hi.symm.trans hk)
        exact hnot ⟨hkact,hkp⟩
      exact ⟨j,k,by rw [hset,if_neg hj]; exact hk,hkact,hkp⟩

lemma XkbSrvInfo.Charged.of_same {x y : XkbSrvInfo} (h : x.Charged) (hf : y.filters = x.filters) (hl : y.Latched → x.Latched) :
    y.Charged := by
  refine ⟨?_,?_,?_⟩
  · rw [hf]
    exact h.keycodes
  · rw [hf]
    exact h.synthetic
  · rw [hf]
    exact fun hy => h.latched (hl hy)

/-- What the end of sticky keys may do in the middle of a pass. -/
structure Clears (clear : XkbSrvInfo → XkbSrvInfo) : Prop where
  charged : ∀ x, x.Charged → (clear x).Charged
  controls : ∀ x, x.Charged → ∀ (j : ℕ) (f : XkbFilter), x.filters[j]? = some f → f.active = true →
    f.filter = some .controls → (clear x).filters[j]? = some f
  latches : ∀ x, x.Charged → ∀ (j : ℕ) (f : XkbFilter), (clear x).filters[j]? = some f → f.active = true →
    f.filter = some .latchState → x.filters[j]? = some f

lemma clears_id : Clears id := ⟨fun _ h => h,fun _ _ _ _ h _ _ => h,fun _ _ _ _ h _ _ => h⟩

section Pass
variable {clear : XkbSrvInfo → XkbSrvInfo} {kc : ℕ}

lemma not_pending_of_proc {f : XkbFilter} {proc : FilterProc} (hf : f.filter = some proc) (hl : proc ≠ .latchState) :
    f.pending = false := by
  simp [pending,hf,hl]

variable (clear) in
lemma controls_cases (xkbi : XkbSrvInfo) (f : XkbFilter) (kc : ℕ) (act : Option XkbAction) (h0 : f.keycode ≠ 0) :
    let r := filterControls xkbi f kc clear act
    r.action = act ∧ ((r.xkbi = xkbi ∧ r.filter = f) ∨ ∃ c, r.filter = { f with keycode := 0, active := false } ∧
      (r.xkbi = { xkbi with ctrls.enabledCtrls := c } ∨ r.xkbi = clear { xkbi with ctrls.enabledCtrls := c })) := by
  simp only [filterControls,if_neg h0]
  split
  · refine ⟨rfl,.inr ⟨xkbi.ctrls.enabledCtrls &&& ~~~f.priv,rfl,?_⟩⟩
    simp only
    split
    · exact .inr rfl
    · exact .inl rfl
  · exact ⟨rfl,.inl ⟨rfl,rfl⟩⟩

section Turn
variable {p : XkbSrvInfo.Passed} {i : ℕ} {f : XkbFilter} (h : p.xkbi.Charged) (hi : p.xkbi.filters[i]? = some f)
  (hact : f.active = true)
include h hi hact

lemma charged_latch (hproc : f.filter = some .latchState) :
    let r := filterLatchState p.xkbi f kc p.action
    XkbSrvInfo.Charged { r.xkbi with filters := r.xkbi.filters.set i r.filter } := by
  have h0 := h.keycodes i f hi hact
  have hsyn := h.synthetic i f hi hact
  have ht := latchTurn p.xkbi kc p.action hact h0 hproc
  refine h.replace hi (congrArg (List.set · i _) ht.filters) (fun hga => ⟨by rw [ht.keycode]; exact h0,fun hk => ?_⟩) fun hlat => ?_
  · rw [ht.keycode] at hk
    have hfp := hsyn hk
    rcases ht.outcome with ⟨-,-,hdead⟩ | ⟨-,-,-,hsame,-⟩ | ⟨hnp,-⟩ | ⟨hnp,-⟩
    · simp [hga] at hdead
    · rw [hsame]
      exact hfp
    · simp [hfp] at hnp
    · simp [hfp] at hnp
  · rcases ht.outcome with ⟨-,hno,-⟩ | ⟨hp,-,-,hsame,-⟩ | ⟨-,-,hp,ha⟩ | ⟨hnp,himp,-⟩
    · exact absurd hlat hno
    · exact .inl ⟨by rw [hsame]; exact hact,by rw [hsame]; exact hp⟩
    · exact .inl ⟨ha,hp⟩
    · exact .inr ⟨himp hlat,by simp [hnp]⟩

lemma charged_controls (hclear : Clears clear) (hproc : f.filter = some .controls) :
    let r := filterControls p.xkbi f kc clear p.action
    XkbSrvInfo.Charged { r.xkbi with filters := r.xkbi.filters.set i r.filter } := by
  have h0 := h.keycodes i f hi hact
  have hsyn := h.synthetic i f hi hact
  have hnp : f.pending = false := not_pending_of_proc hproc (by decide)
  obtain ⟨-,⟨hx,hf⟩ | ⟨c,hf,hx | hx⟩⟩ := controls_cases clear p.xkbi f kc p.action h0
  · refine h.replace hi (congrArg (fun x : XkbSrvInfo => x.filters.set i _) hx) (fun _ => ?_) fun hlat => .inr ⟨?_,by simp [hnp]⟩
    · rw [hf]
      exact ⟨h0,hsyn⟩
    · exact (congrArg XkbSrvInfo.Latched hx).mp hlat
  · have hc : XkbSrvInfo.Charged { p.xkbi with ctrls.enabledCtrls := c } := h.of_same rfl id
    refine hc.replace hi (congrArg (fun x : XkbSrvInfo => x.filters.set i _) hx) (fun hga => ?_) fun hlat =>
      .inr ⟨?_,by simp [hnp]⟩
    · simp [hf] at hga
    · exact (congrArg XkbSrvInfo.Latched hx).mp hlat
  · have hc : XkbSrvInfo.Charged { p.xkbi with ctrls.enabledCtrls := c } := h.of_same rfl id
    have hslot := hclear.controls _ hc i f hi hact hproc
    refine (hclear.charged _ hc).replace hslot (congrArg (fun x : XkbSrvInfo => x.filters.set i _) hx) (fun hga => ?_)
      fun hlat => .inr ⟨?_,by simp [hnp]⟩
    · simp [hf] at hga
    · exact (congrArg XkbSrvInfo.Latched hx).mp hlat

lemma charged_aside {r : Filtered} (hr : Aside p.xkbi f p.action r) (hnp : f.pending = false) :
    XkbSrvInfo.Charged { r.xkbi with filters := r.xkbi.filters.set i r.filter } := by
  have h0 := h.keycodes i f hi hact
  have hsyn := h.synthetic i f hi hact
  refine h.replace hi (congrArg (List.set · i _) hr.filters) (fun hga => ⟨by rw [hr.keycode hga]; exact h0,fun hk => ?_⟩) fun hlat => ?_
  · rw [hr.keycode hga] at hk
    have := hsyn hk
    simp [hnp] at this
  · refine .inr ⟨?_,by simp [hnp]⟩
    rcases hlat with hm | hg
    · exact .inl (by rw [← hr.latchedMods]; exact hm)
    · exact .inr (by rw [← hr.latchedGroup]; exact hg)

end Turn

lemma applyFilter_none {p : XkbSrvInfo.Passed} {i : ℕ} (h : ∀ f, p.xkbi.filters[i]? = some f → f.filter = none ∨ f.active = false) :
    XkbSrvInfo.applyFilter clear kc p i = p := by
  unfold XkbSrvInfo.applyFilter
  split
  · rfl
  · next f hf =>
    rcases h f hf with hn | hn
    · simp [hn]
    · simp [hn]

variable (kc) in
/-- A turn of the pass. -/
theorem charged_applyFilter (hclear : Clears clear) {p : XkbSrvInfo.Passed} (h : p.xkbi.Charged) (i : ℕ) :
    (XkbSrvInfo.applyFilter clear kc p i).xkbi.Charged := by
  by_cases hidle : ∀ f, p.xkbi.filters[i]? = some f → f.filter = none ∨ f.active = false
  · rwa [applyFilter_none hidle]
  · push Not at hidle
    obtain ⟨f,hf,hsome,hact⟩ := hidle
    obtain ⟨proc,hproc⟩ := Option.ne_none_iff_exists'.mp hsome
    have hact : f.active = true := by simpa using hact
    rw [applyFilter_active clear hf hact hproc]
    have h0 := h.keycodes i f hf hact
    by_cases hl : proc = .latchState
    · subst hl
      exact charged_latch h hf hact hproc
    · by_cases hc : proc = .controls
      · subst hc
        exact charged_controls h hf hact hclear hproc
      · exact charged_aside h hf hact (aside_run p.xkbi kc p.action clear h0 hl hc) (not_pending_of_proc hproc hl)

theorem charged_applyFilters (hclear : Clears clear) {xkbi : XkbSrvInfo} (h : xkbi.Charged) (act : Option XkbAction) :
    (xkbi.applyFilters clear kc act).xkbi.Charged := by
  unfold XkbSrvInfo.applyFilters
  generalize List.range xkbi.filters.length = l
  have hall : ∀ p : XkbSrvInfo.Passed, p.xkbi.Charged → (l.foldl (XkbSrvInfo.applyFilter clear kc) p).xkbi.Charged := by
    induction l with
    | nil => exact fun p hp => hp
    | cons i l ih => exact fun p hp => ih _ (charged_applyFilter kc hclear hp i)
  exact hall _ h

/-- A pass of an action that breaks latches, after the first `n` slots. No latch filter is new, and none among those slots
is pending. -/
structure Broken (x : XkbSrvInfo) (n : ℕ) (p : XkbSrvInfo.Passed) : Prop where
  charged : p.xkbi.Charged
  action : ∃ a, p.action = some a ∧ breakLatch a.type = true
  latches : ∀ (j : ℕ) (f : XkbFilter), p.xkbi.filters[j]? = some f → f.active = true → f.filter = some .latchState →
    x.filters[j]? = some f
  done : ∀ (j : ℕ) (f : XkbFilter), j < n → p.xkbi.filters[j]? = some f → f.active = true → f.pending = false

lemma latch_of_pending {f : XkbFilter} (h : f.pending = true) : f.filter = some .latchState := by
  simpa [pending] using (Bool.and_eq_true_iff.mp h).1

/-- No latch filter waits for the release of the key. -/
def XkbSrvInfo.NotDown (x : XkbSrvInfo) (kc : ℕ) : Prop :=
  ∀ (j : ℕ) (f : XkbFilter), x.filters[j]? = some f → f.active = true → f.filter = some .latchState → f.pending = false →
    f.keycode ≠ kc

lemma slot_cases {l l' : List XkbFilter} {n j : ℕ} {f g k : XkbFilter} (hf : l[n]? = some f) (hl : l' = l)
    (hk : (l'.set n g)[j]? = some k) : (j = n ∧ k = g) ∨ (j ≠ n ∧ l[j]? = some k) := by
  rw [hl,getElem?_set_slot hf] at hk
  split at hk
  · next hj => exact .inl ⟨hj,(Option.some.inj hk).symm⟩
  · next hj => exact .inr ⟨hj,hk⟩

lemma Broken.write {x : XkbSrvInfo} {n : ℕ} {p q : XkbSrvInfo.Passed} (g : XkbFilter) (h : Broken x n p)
    (hq : q.xkbi.Charged) (haction : ∃ a, q.action = some a ∧ breakLatch a.type = true)
    (hslot : ∀ j f, q.xkbi.filters[j]? = some f → f.active = true → f.filter = some .latchState →
      (j = n ∧ f = g) ∨ (j ≠ n ∧ p.xkbi.filters[j]? = some f))
    (hg : g.active = true → g.filter = some .latchState → g.pending = false ∧ p.xkbi.filters[n]? = some g) :
    Broken x (n+1) q := by
  refine ⟨hq,haction,fun j f hf hact hlatch => ?_,fun j f hj hf hact => ?_⟩
  · rcases hslot j f hf hact hlatch with ⟨rfl,rfl⟩ | ⟨-,hp⟩
    · exact h.latches j f (hg hact hlatch).2 hact hlatch
    · exact h.latches j f hp hact hlatch
  · by_contra hne
    have hpend : f.pending = true := by simpa using hne
    have hlatch := latch_of_pending hpend
    rcases hslot j f hf hact hlatch with ⟨rfl,rfl⟩ | ⟨hjn,hp⟩
    · simp [(hg hact hlatch).1] at hpend
    · have := h.done j f (by omega) hp hact
      simp [hpend] at this

theorem Broken.step (hclear : Clears clear) {x : XkbSrvInfo} {n : ℕ} {p : XkbSrvInfo.Passed} (h : Broken x n p)
    (hdown : x.NotDown kc) : Broken x (n+1) (XkbSrvInfo.applyFilter clear kc p n) := by
  have hcharged := charged_applyFilter kc hclear h.charged n
  by_cases hidle : ∀ f, p.xkbi.filters[n]? = some f → f.filter = none ∨ f.active = false
  · rw [applyFilter_none hidle]
    refine ⟨h.charged,h.action,h.latches,fun j f hj hf hact => ?_⟩
    by_cases hjn : j = n
    · subst hjn
      rcases hidle f hf with hnone | hdead
      · simp [pending,hnone]
      · simp [hact] at hdead
    · exact h.done j f (by omega) hf hact
  · push Not at hidle
    obtain ⟨f,hf,hsome,hact⟩ := hidle
    obtain ⟨proc,hproc⟩ := Option.ne_none_iff_exists'.mp hsome
    have hact : f.active = true := by simpa using hact
    rw [applyFilter_active clear hf hact hproc] at hcharged ⊢
    have h0 := h.charged.keycodes n f hf hact
    obtain ⟨a,ha,hbreak⟩ := h.action
    by_cases hl : proc = .latchState
    · subst hl
      have ht := latchTurn p.xkbi kc p.action hact h0 hproc
      refine h.write (filterLatchState p.xkbi f kc p.action).filter hcharged ⟨a,ht.action.trans ha,hbreak⟩
        (fun j g hg _ _ => slot_cases hf ht.filters hg) fun hga hgl => ?_
      rcases ht.outcome with ⟨-,-,hdead⟩ | ⟨-,-,-,-,hno⟩ | ⟨hnp,hkc,-⟩ | ⟨hnp,-,hlive⟩
      · simp [hga] at hdead
      · simp [hno a ha] at hbreak
      · exact absurd hkc (hdown n f (h.latches n f hf hact hproc) hact hproc hnp)
      · exact ⟨(hlive hga).1,by rw [(hlive hga).2 hgl]; exact hf⟩
    · by_cases hc : proc = .controls
      · subst hc
        obtain ⟨haction,hcases⟩ := controls_cases clear p.xkbi f kc p.action h0
        refine h.write (filterControls p.xkbi f kc clear p.action).filter hcharged ⟨a,haction.trans ha,hbreak⟩ ?_
          fun hga hgl => ?_
        · intro j g hg hgact hgl
          rcases hcases with ⟨hx,-⟩ | ⟨c,-,hx | hx⟩
          · exact slot_cases hf (congrArg XkbSrvInfo.filters hx) hg
          · have hfil : (filterControls p.xkbi f kc clear p.action).xkbi.filters = p.xkbi.filters := by rw [hx]
            exact slot_cases hf hfil hg
          · -- Sticky keys end in the middle of the pass.
            have hcc : XkbSrvInfo.Charged { p.xkbi with ctrls.enabledCtrls := c } := h.charged.of_same rfl id
            rcases slot_cases (hclear.controls _ hcc n f hf hact hproc) (congrArg XkbSrvInfo.filters hx) hg with hn | ⟨hj,hk⟩
            · exact .inl hn
            · exact .inr ⟨hj,hclear.latches _ hcc j g hk hgact hgl⟩
        · rcases hcases with ⟨-,hsame⟩ | ⟨c,hsame,-⟩
          · rw [hsame,hproc] at hgl
            cases hgl
          · simp [hsame] at hga
      · have hr := aside_run p.xkbi kc p.action clear h0 hl hc
        refine h.write (runFilter p.xkbi f kc clear proc p.action).filter hcharged (hr.breaks a ha hbreak)
          (fun j g hg _ _ => slot_cases hf hr.filters hg) fun _ hgl => ?_
        rw [hr.proc,hproc] at hgl
        exact absurd (Option.some.inj hgl) hl

/-- After the pass of an action that breaks latches no latch is pending, and nothing is latched. -/
theorem broken_applyFilters (hclear : Clears clear) {x : XkbSrvInfo} (h : x.Charged) (hdown : x.NotDown kc) {act : XkbAction}
    (hbreak : breakLatch act.type = true) : Broken x x.filters.length (x.applyFilters clear kc (some act)) := by
  unfold XkbSrvInfo.applyFilters
  generalize x.filters.length = n
  induction n with
  | zero => exact ⟨h,⟨act,rfl,hbreak⟩,fun _ _ hf _ _ => hf,fun j _ hj => absurd hj (Nat.not_lt_zero j)⟩
  | succ n ih =>
    rw [List.range_succ,List.foldl_append,List.foldl_cons,List.foldl_nil]
    exact ih.step hclear hdown

lemma Broken.none_pending {x : XkbSrvInfo} {p : XkbSrvInfo.Passed} (h : Broken x x.filters.length p) (j : ℕ) (f : XkbFilter)
    (hf : p.xkbi.filters[j]? = some f) (hact : f.active = true) : f.pending = false := by
  by_contra hne
  have hpend : f.pending = true := by simpa using hne
  have hold := h.latches j f hf hact (latch_of_pending hpend)
  have hlt : j < x.filters.length := (List.getElem?_eq_some_iff.mp hold).1
  have := h.done j f hlt hf hact
  simp [hpend] at this

end Pass

end Xlibre.Xkb
