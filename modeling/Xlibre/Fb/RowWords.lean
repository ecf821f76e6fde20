import Xlibre.Fb.Fetch

/-! One row of `fbBlt` from its first word to its last. -/
namespace Xlibre.Fb

namespace Span

variable {g : Span} {m : ℤ → FbBits} {seen : List ℤ} {e : ℤ} {r : Row}

lemma store_word {f : FbBits × Row} (h : g.At m seen e r) (hf : g.Fetched m seen e r f) {put : FbBits → FbBits}
    (hput : ∀ old, ∀ p : ℕ, p < 32 → scrBit g.o (put old) p =
      if g.Covers (32*e+p) then merged g.alu (scrBit g.o g.pm p) (scrBit g.o f.1 p) (scrBit g.o old p)
      else scrBit g.o old p) :
    g.At m seen (g.next e) (f.2.store g.reverse put) := by
  have hnot : ¬g.Passed e e := by unfold Passed; split_ifs <;> omega
  have hpassed : ∀ k, g.Passed (g.next e) k ↔ k = e ∨ g.Passed e k := by
    intro k
    unfold Passed next
    split_ifs <;> omega
  have hmem : (f.2.store g.reverse put).mem = Function.update r.mem e (put (r.mem e)) := by
    have hdst := hf.dst.trans h.dst
    have hrmem := hf.mem
    unfold Row.store
    split_ifs at hdst ⊢ with hrev <;> simp only [hdst,hrmem,add_sub_cancel_right]
  have hsrc : (f.2.store g.reverse put).src = f.2.src ∧ (f.2.store g.reverse put).bits1 = f.2.bits1 ∧
      (f.2.store g.reverse put).reads = f.2.reads := by
    unfold Row.store
    split_ifs <;> exact ⟨rfl,rfl,rfl⟩
  refine ⟨?_,?_,?_,?_,?_⟩
  · intro a ha
    rw [hmem,memBit_update]
    obtain hword | hbefore := (hpassed _).mp ha
    · have hp : (a%32).toNat < 32 := by omega
      have ha' : 32*e+((a%32).toNat : ℤ) = a := by omega
      have hold : scrBit g.o (r.mem e) (a%32).toNat = memBit g.o m a := by
        rw [← memBit_word g r.mem e hp,ha']
        apply h.rest
        rwa [hword]
      rw [if_pos hword,hput _ _ hp,ha',hold]
      unfold value
      split_ifs with hc
      · rw [hf.bits _ hp (ha'.symm ▸ hc),ha']
      · rfl
    · have hword : a/32 ≠ e := fun heq => hnot (heq ▸ hbefore)
      rw [if_neg hword]
      exact h.done a hbefore
  · intro a ha
    have hrest := mt (hpassed (a/32)).mpr ha
    push Not at hrest
    rw [hmem,memBit_update,if_neg hrest.1]
    exact h.rest a hrest.2
  · have hdst := hf.dst.trans h.dst
    unfold Row.store next
    split_ifs at hdst ⊢ <;> simp only [hdst]
    omega
  · intro hpend
    have hready := hf.ready hpend
    refine ⟨?_,?_,?_⟩
    · rw [hsrc.1]
      exact hready.src
    · rw [hsrc.2.1]
      exact hready.ahead
    · rw [hsrc.2.1]
      exact hready.behind
  · rw [hsrc.2.2]
    exact hf.reads

lemma step_word (hsafe : g.Safe) (h : g.At m seen e r) (hcov : ∃ p : ℕ, p < 32 ∧ g.Covers (32*e+p)) {need : Bool}
    (hneed : g.shift%32 ≠ 0 → (need = true ↔ g.Needs e)) {f : FbBits → FbBits → FbBits}
    (hmerge : ∀ bits old, ∀ p : ℕ, p < 32 → scrBit g.o (f bits old) p =
      if g.Covers (32*e+p) then merged g.alu (scrBit g.o g.pm p) (scrBit g.o bits p) (scrBit g.o old p)
      else scrBit g.o old p) :
    g.At m seen (g.next e) ((g.plan.fetch need r).2.store g.reverse (f (g.plan.fetch need r).1)) :=
  store_word h (fetch_word hsafe h hcov hneed) (hmerge _)

lemma startWord_at (hsafe : g.Safe) (hw : 0 < g.width) (h : g.At m seen (g.dst/32) r) (hx : g.dst%32 ≠ 0) :
    g.At m seen (g.next (g.dst/32)) (g.plan.startWord r) := by
  have hw' : (0 : ℤ) < g.width := by omega
  have hmask : ∀ p : ℕ, p < 32 → (scrBit g.o g.plan.masks.startmask p = true ↔ g.Covers (32*(g.dst/32)+p)) :=
    fun p hp => startmask_bit g.o hw' hx hp
  have hne : g.plan.masks.startmask ≠ 0 := (startmask_ne_zero g.o hw').mpr hx
  unfold Plan.startWord
  rw [if_pos hne]
  apply step_word hsafe h
  · exact ⟨(g.dst%32).toNat,by omega,by unfold Covers; omega⟩
  · exact fun hshift => needs_mask g hshift _ _ hmask
  · exact fun bits old p hp => leftMask_store g.o g.alu g.pm hw' hx bits old hp

lemma endWord_at (hsafe : g.Safe) (hw : 0 < g.width) (he : g.plan.masks.endmask ≠ 0)
    (h : g.At m seen (firstFull g.dst+g.plan.masks.nmiddle) r) :
    g.At m seen (g.next (firstFull g.dst+g.plan.masks.nmiddle)) (g.plan.endWord r) := by
  have hw' : (0 : ℤ) < g.width := by omega
  have hmask : ∀ p : ℕ, p < 32 → (scrBit g.o g.plan.masks.endmask p = true ↔
      g.Covers (32*(firstFull g.dst+g.plan.masks.nmiddle)+p)) :=
    fun p hp => endmask_bit g.o hw' he hp
  unfold Plan.endWord
  rw [if_pos he]
  apply step_word hsafe h
  · obtain ⟨p,hp,hbit⟩ := (ne_zero_iff_bit g.o _).mp he
    exact ⟨p,hp,(hmask p hp).mp hbit⟩
  · exact fun hshift => needs_mask g hshift _ _ hmask
  · exact fun bits old p hp => rightMask_store g.o g.alu g.pm hw' bits old hp he

lemma middleMerge_bit (bits old : FbBits) {p : ℕ} (hp : p < 32) :
    scrBit g.o (g.plan.middleMerge bits old) p =
      merged g.alu (scrBit g.o g.pm p) (scrBit g.o bits p) (scrBit g.o old p) := by
  unfold Plan.middleMerge
  split_ifs with hinv
  · exact xor_scrBit g.o g.alu g.pm bits hinv hp _
  · exact doMergeRop_bit g.alu g.pm bits old (place_lt g.o hp)

/-- The words from `e` on in the direction of the row. -/
def along (g : Span) (e : ℤ) (k : ℕ) : ℤ := if g.reverse then e-k else e+k

lemma along_succ (g : Span) (e : ℤ) (k : ℕ) : g.along (g.next e) k = g.along e (k+1) := by
  unfold along next
  split_ifs <;> push_cast <;> omega

@[simp] lemma along_zero (g : Span) (e : ℤ) : g.along e 0 = e := by
  unfold along
  split_ifs <;> simp

lemma middleWords_at (hsafe : g.Safe) (n : ℕ) {e : ℤ} {r : Row} (h : g.At m seen e r)
    (hcov : ∀ k < n, ∀ p : ℕ, p < 32 → g.Covers (32*g.along e k+p)) :
    g.At m seen (g.along e n) (g.plan.middleWords n r) := by
  induction n generalizing e r with
  | zero =>
    rw [along_zero]
    exact h
  | succ n ih =>
    have hfull : ∀ p : ℕ, p < 32 → g.Covers (32*e+p) := by simpa using hcov 0 (by omega)
    have hneed : g.shift%32 ≠ 0 → (true = true ↔ g.Needs e) := by
      intro hshift
      refine ⟨fun _ => ?_,fun _ => rfl⟩
      cases hrev : g.reverse with
      | true => exact ⟨0,by omega,hfull 0 (by omega),by simp only [hrev,if_true]; omega⟩
      | false => exact ⟨31,by omega,hfull 31 (by omega),by simp only [hrev,Bool.false_eq_true,if_false]; omega⟩
    have hstep := step_word (f := g.plan.middleMerge) hsafe h ⟨0,by omega,hfull 0 (by omega)⟩ hneed
      (fun bits old p hp => by rw [if_pos (hfull p hp),middleMerge_bit bits old hp])
    rw [← along_succ]
    apply ih hstep
    intro k hk
    rw [along_succ]
    exact hcov (k+1) (by omega)

lemma at_start {s : Store} {e : ℤ} {r : Row} (hmem : r.mem = s.mem)
    (hreads : ∀ k ∈ r.reads, k ∈ s.reads ∨ g.SourceWord k)
    (hfirst : ∀ a, g.Covers a → ¬g.Passed e (a/32)) (hready : g.Ready s.mem e r)
    (hdst : r.dst = if g.reverse then e+1 else e) : g.At s.mem s.reads e r := by
  refine ⟨?_,?_,hdst,fun _ => hready,hreads⟩
  · intro a ha
    have hc : ¬g.Covers a := fun hc => hfirst a hc ha
    rw [hmem,g.value_of_not_covers hc]
  · intro a _
    rw [hmem]

lemma lookAhead_forward (hw : 0 < g.width) (hrev : g.reverse = false) (s : Store) :
    g.At s.mem s.reads (g.dst/32) (g.plan.lookAhead ⟨s,g.src/32,g.dst/32,0⟩) := by
  have hfirst : ∀ a, g.Covers a → ¬g.Passed (g.dst/32) (a/32) := by
    intro a ha
    simp only [Passed,hrev,Bool.false_eq_true,if_false]
    unfold Covers at ha
    omega
  have hshift : g.shift = g.src-g.dst := rfl
  have hprev : g.plan.reverse = false := hrev
  have hsx : g.plan.srcX = g.src%32 := by simp only [plan,hrev,Bool.false_eq_true,if_false]
  have hdx : g.plan.dstX = g.dst%32 := by simp only [plan,hrev,Bool.false_eq_true,if_false]
  simp only [Plan.lookAhead,hprev,hsx,hdx,Row.readSrc,Bool.false_eq_true,if_false]
  split_ifs with heq hlt
  · refine at_start (s := s) rfl (fun k hk => Or.inl hk) hfirst ?_ ?_
    · have hzero : g.shift%32 = 0 := by omega
      refine ⟨?_,fun hne => absurd hzero hne,fun hne => absurd hzero hne⟩
      simp only [hzero,hrev,and_self,if_true]
      omega
    · simp only [hrev,Bool.false_eq_true,if_false]
  · refine at_start (s := s) rfl ?_ hfirst ?_ ?_
    · intro k hk
      obtain rfl | hk := List.mem_cons.mp hk
      · exact Or.inr ⟨g.dst,by unfold Covers; omega,by omega⟩
      · exact Or.inl hk
    · refine ⟨?_,?_,fun _ hr => by simp [hrev] at hr⟩
      · have hne : g.shift%32 ≠ 0 := by omega
        simp only [hne,false_and,if_false]
        omega
      · intro _ _ p hp _ hlow
        rw [← memBit_word g s.mem _ hlow]
        congr 1
        omega
    · simp only [hrev,Bool.false_eq_true,if_false]
  · refine at_start (s := s) rfl (fun k hk => Or.inl hk) hfirst ?_ ?_
    · refine ⟨?_,?_,fun _ hr => by simp [hrev] at hr⟩
      · have hne : g.shift%32 ≠ 0 := by omega
        simp only [hne,false_and,if_false]
        omega
      · -- the bits of the first word all come from the next source word
        intro _ _ p hp hc hlow
        unfold Covers at hc
        omega
    · simp only [hrev,Bool.false_eq_true,if_false]

lemma lookAhead_backward (hw : 0 < g.width) (hrev : g.reverse = true) (s : Store) :
    g.At s.mem s.reads ((g.dst+g.width-1)/32)
      (g.plan.lookAhead ⟨s,(g.src+g.width-1)/32+1,(g.dst+g.width-1)/32+1,0⟩) := by
  have hfirst : ∀ a, g.Covers a → ¬g.Passed ((g.dst+g.width-1)/32) (a/32) := by
    intro a ha
    simp only [Passed,hrev,if_true]
    unfold Covers at ha
    omega
  have hshift : g.shift = g.src-g.dst := rfl
  have hprev : g.plan.reverse = true := hrev
  have hsx : g.plan.srcX = (g.src+g.width-1)%32 := by simp only [plan,hrev,if_true]
  have hdx : g.plan.dstX = (g.dst+g.width-1)%32 := by simp only [plan,hrev,if_true]
  simp only [Plan.lookAhead,hprev,hsx,hdx,Row.readSrc,if_true]
  split_ifs with heq hlt
  · refine at_start (s := s) rfl (fun k hk => Or.inl hk) hfirst ?_ ?_
    · have hzero : g.shift%32 = 0 := by omega
      refine ⟨?_,fun hne => absurd hzero hne,fun hne => absurd hzero hne⟩
      simp only [hzero,hrev,Bool.true_eq_false,and_false,if_false]
      omega
    · simp only [hrev,if_true]
  · refine at_start (s := s) rfl ?_ hfirst ?_ ?_
    · intro k hk
      obtain rfl | hk := List.mem_cons.mp hk
      · exact Or.inr ⟨g.dst+g.width-1,by unfold Covers; omega,by omega⟩
      · exact Or.inl hk
    · refine ⟨?_,fun _ hr => by simp [hrev] at hr,?_⟩
      · have hne : g.shift%32 ≠ 0 := by omega
        simp only [hne,false_and,if_false]
        omega
      · intro _ _ p hp _ hhigh
        rw [← memBit_word g s.mem _ (by omega)]
        congr 1
        omega
    · simp only [hrev,if_true]
  · refine at_start (s := s) rfl (fun k hk => Or.inl hk) hfirst ?_ ?_
    · refine ⟨?_,fun _ hr => by simp [hrev] at hr,?_⟩
      · have hne : g.shift%32 ≠ 0 := by omega
        simp only [hne,false_and,if_false]
        omega
      · -- the bits of the last word all come from the source word before
        intro _ _ p hp hc hhigh
        unfold Covers at hc
        omega
    · simp only [hrev,if_true]

lemma row_forward (hsafe : g.Safe) (hw : 0 < g.width) (hrev : g.reverse = false) {r : Row} (h : g.At m seen (g.dst/32) r) :
    ∃ e, g.dst+g.width ≤ 32*e ∧
      g.At m seen e (g.plan.endWord (g.plan.middleWords g.plan.masks.nmiddle (g.plan.startWord r))) := by
  have hw' : (0 : ℤ) < g.width := by omega
  have hnext : ∀ e, g.next e = e+1 := by intro e; simp only [next,hrev,Bool.false_eq_true,if_false]
  have halong : ∀ e k, g.along e k = e+k := by intro e k; simp only [along,hrev,Bool.false_eq_true,if_false]
  have hstart : g.At m seen (firstFull g.dst) (g.plan.startWord r) := by
    by_cases hx : g.dst%32 = 0
    · have hzero : g.plan.masks.startmask = 0 := (masks_aligned g.o hx).1
      have hff : firstFull g.dst = g.dst/32 := if_pos hx
      rwa [hff,Plan.startWord,if_neg (not_not_intro hzero)]
    · have hff : firstFull g.dst = g.next (g.dst/32) := by rw [hnext]; exact if_neg hx
      rw [hff]
      exact startWord_at hsafe hw h hx
  have hmiddle := middleWords_at hsafe g.plan.masks.nmiddle hstart
    (fun k hk p hp => by rw [halong]; exact middle_covered g.o hk hp)
  rw [halong] at hmiddle
  have hlast : (g.dst+g.width-1)/32+1 = firstFull g.dst+g.plan.masks.nmiddle +
      if g.plan.masks.endmask ≠ 0 then 1 else 0 := last_word g.o hw'
  by_cases he : g.plan.masks.endmask = 0
  · refine ⟨firstFull g.dst+g.plan.masks.nmiddle,?_,?_⟩
    · rw [if_neg (not_not_intro he)] at hlast
      omega
    · rw [Plan.endWord,if_neg (not_not_intro he)]
      exact hmiddle
  · refine ⟨_,?_,endWord_at hsafe hw he hmiddle⟩
    rw [if_pos he] at hlast
    rw [hnext]
    omega

lemma row_backward (hsafe : g.Safe) (hw : 0 < g.width) (hrev : g.reverse = true) {r : Row}
    (h : g.At m seen ((g.dst+g.width-1)/32) r) :
    ∃ e, 32*e+31 < g.dst ∧
      g.At m seen e (g.plan.startWord (g.plan.middleWords g.plan.masks.nmiddle (g.plan.endWord r))) := by
  have hw' : (0 : ℤ) < g.width := by omega
  have hnext : ∀ e, g.next e = e-1 := by intro e; simp only [next,hrev,if_true]
  have halong : ∀ e k, g.along e k = e-k := by intro e k; simp only [along,hrev,if_true]
  have hlast : (g.dst+g.width-1)/32+1 = firstFull g.dst+g.plan.masks.nmiddle +
      if g.plan.masks.endmask ≠ 0 then 1 else 0 := last_word g.o hw'
  have hend : g.At m seen (firstFull g.dst+g.plan.masks.nmiddle-1) (g.plan.endWord r) := by
    by_cases he : g.plan.masks.endmask = 0
    · rw [if_neg (not_not_intro he)] at hlast
      have hword : firstFull g.dst+g.plan.masks.nmiddle-1 = (g.dst+g.width-1)/32 := by omega
      rwa [hword,Plan.endWord,if_neg (not_not_intro he)]
    · rw [if_pos he] at hlast
      have hword : (g.dst+g.width-1)/32 = firstFull g.dst+g.plan.masks.nmiddle := by omega
      rw [← hnext]
      exact endWord_at hsafe hw he (hword ▸ h)
  have hmiddle := middleWords_at hsafe g.plan.masks.nmiddle hend (fun k hk p hp => by
    have hcov := middle_covered g.o (x := g.dst) (w := g.width) (k := g.plan.masks.nmiddle-1-k)
      (c := (fbInitializeMergeRop g.alu g.pm).destInvarient) (by change _ < g.plan.masks.nmiddle; omega) hp
    have hword : g.along (firstFull g.dst+g.plan.masks.nmiddle-1) k =
        firstFull g.dst+((g.plan.masks.nmiddle-1-k : ℕ) : ℤ) := by
      rw [halong]
      omega
    rw [hword]
    exact hcov)
  have hword : g.along (firstFull g.dst+g.plan.masks.nmiddle-1) g.plan.masks.nmiddle = firstFull g.dst-1 := by
    rw [halong]
    omega
  rw [hword] at hmiddle
  by_cases hx : g.dst%32 = 0
  · have hzero : g.plan.masks.startmask = 0 := (masks_aligned g.o hx).1
    have hff : firstFull g.dst = g.dst/32 := if_pos hx
    refine ⟨firstFull g.dst-1,by omega,?_⟩
    rwa [Plan.startWord,if_neg (not_not_intro hzero)]
  · have hff : firstFull g.dst = g.dst/32+1 := if_neg hx
    have hat : firstFull g.dst-1 = g.dst/32 := by omega
    refine ⟨_,?_,startWord_at hsafe hw (hat ▸ hmiddle) hx⟩
    rw [hnext]
    omega

lemma At.finish {s : Store} (h : g.At s.mem s.reads e r) (hall : ∀ a, g.Covers a → g.Passed e (a/32)) :
    (∀ a, memBit g.o r.mem a = g.value s.mem a) ∧ ∀ k ∈ r.reads, k ∈ s.reads ∨ g.SourceWord k := by
  refine ⟨fun a => ?_,h.reads⟩
  by_cases hp : g.Passed e (a/32)
  · exact h.done a hp
  · rw [h.rest a hp,g.value_of_not_covers (fun hc => hp (hall a hc))]

/-- One row of `fbBlt` is the operation on its bits. -/
theorem row_value (hsafe : g.Safe) (hw : 0 < g.width) (s : Store) :
    let s' := g.plan.row (if g.reverse then (g.src+g.width-1)/32+1 else g.src/32)
      (if g.reverse then (g.dst+g.width-1)/32+1 else g.dst/32) s
    (∀ a, memBit g.o s'.mem a = g.value s.mem a) ∧ ∀ k ∈ s'.reads, k ∈ s.reads ∨ g.SourceWord k := by
  have hprev : g.plan.reverse = g.reverse := rfl
  simp only [Plan.row,hprev]
  cases hrev : g.reverse with
  | true =>
    simp only [if_true]
    obtain ⟨e,he,hat⟩ := row_backward hsafe hw hrev (lookAhead_backward hw hrev s)
    apply hat.finish
    intro a ha
    simp only [Passed,hrev,if_true]
    unfold Covers at ha
    omega
  | false =>
    simp only [Bool.false_eq_true,if_false]
    obtain ⟨e,he,hat⟩ := row_forward hsafe hw hrev (lookAhead_forward hw hrev s)
    apply hat.finish
    intro a ha
    simp only [Passed,hrev,Bool.false_eq_true,if_false]
    unfold Covers at ha
    omega

end Span

end Xlibre.Fb
