import Xlibre.Dix.Region.Union

/-! The union of two banded regions by `RegionOp`: one pass handles the rows down to the bottom of
the upper band, and the array stays in normal form throughout. -/
namespace Xlibre.Dix.Region
open Xlibre.Lib.Bands

section Bands
variable {b : Band} {l : List Band}

lemma findBand_boxesOf (h : Banded (b::l)) : findBand (boxesOf (b::l)) = (boxesOfBand b,boxesOf l) := by
  have hb := h.wf b (by simp)
  obtain ⟨s,ss,hs⟩ := List.exists_cons_of_ne_nil hb.nonempty
  have hband : boxesOfBand b = ⟨s.1,b.y1,s.2,b.y2⟩::ss.map (fun s => ⟨s.1,b.y1,s.2,b.y2⟩) := by
    simp [boxesOfBand,hs]
  have hrest : ∀ r ∈ boxesOf l, ¬ r.y1 = b.y1 := by
    intro r hr
    obtain ⟨c,hc,hr⟩ := List.mem_flatMap.mp hr
    obtain ⟨t,_,rfl⟩ := List.mem_map.mp hr
    have h₁ := (List.pairwise_cons.mp h.ordered).1 c hc
    have h₂ := hb.rows
    dsimp only
    omega
  have htake : (boxesOf l).takeWhile (fun r => decide (r.y1 = b.y1)) = [] := by
    cases hl : boxesOf l with
    | nil => rfl
    | cons r rs => simp [hrest r (by simp [hl])]
  have hdrop : (boxesOf l).dropWhile (fun r => decide (r.y1 = b.y1)) = boxesOf l := by
    cases hl : boxesOf l with
    | nil => rfl
    | cons r rs => simp [hrest r (by simp [hl])]
  have hsame : ∀ r ∈ ss.map (fun s => (⟨s.1,b.y1,s.2,b.y2⟩ : Box)), decide (r.y1 = b.y1) = true := by
    intro r hr
    obtain ⟨t,_,rfl⟩ := List.mem_map.mp hr
    simp
  rw [boxesOf_cons,hband,List.cons_append,findBand,List.takeWhile_append_of_pos hsame,
    List.dropWhile_append_of_pos hsame,htake,hdrop,List.append_nil]

lemma head?_boxesOf (h : Banded (b::l)) :
    ∃ r rest, boxesOf (b::l) = r::rest ∧ r.y1 = b.y1 ∧ r.y2 = b.y2 := by
  obtain ⟨s,ss,hs⟩ := List.exists_cons_of_ne_nil (h.wf b (by simp)).nonempty
  refine ⟨⟨s.1,b.y1,s.2,b.y2⟩,ss.map (fun s => ⟨s.1,b.y1,s.2,b.y2⟩) ++ boxesOf l,?_,rfl,rfl⟩
  rw [boxesOf_cons,boxesOfBand,hs,List.map_cons,List.cons_append]

end Bands

/-- Rows above `m` are done: the array covers there what the two regions cover together, and the
flag tells whether they meet there. -/
structure Done (R1 R2 : List Band) (flag : Prop) (m : ℤ) (out : List Band) (ov : Bool) : Prop where
  banded : Banded out
  bottom : ∀ b ∈ out, b.y2 ≤ m
  covers : ∀ x y, y < m → (Covered out x y ↔ Covered R1 x y ∨ Covered R2 x y)
  overlap : ov = true ↔ flag ∨ ∃ x y, y < m ∧ Covered R1 x y ∧ Covered R2 x y

section Done
variable {R1 R2 out : List Band} {flag : Prop} {m m' : ℤ} {ov ov' : Bool}

lemma Done.symm (h : Done R1 R2 flag m out ov) : Done R2 R1 flag m out ov where
  banded := h.banded
  bottom := h.bottom
  covers x y hy := by rw [h.covers x y hy,or_comm]
  overlap := by
    rw [h.overlap]
    simp only [and_comm]

lemma Done.skip (h : Done R1 R2 flag m out ov) (hm : m ≤ m')
    (hempty : ∀ x y, m ≤ y → y < m' → ¬ Covered R1 x y ∧ ¬ Covered R2 x y) :
    Done R1 R2 flag m' out ov where
  banded := h.banded
  bottom b hb := (h.bottom b hb).trans hm
  covers x y hy := by
    rcases lt_or_ge y m with hlt | hge
    · exact h.covers x y hlt
    · obtain ⟨h₁,h₂⟩ := hempty x y hge hy
      simp only [h₁,h₂,or_self,iff_false]
      rintro ⟨b,hb,_,hby,_⟩
      have := h.bottom b hb
      omega
  overlap := by
    rw [h.overlap]
    refine or_congr_right ⟨?_,?_⟩
    · rintro ⟨x,y,hy,hc⟩
      exact ⟨x,y,by omega,hc⟩
    · rintro ⟨x,y,hy,hc⟩
      rcases lt_or_ge y m with hlt | hge
      · exact ⟨x,y,hlt,hc⟩
      · exact absurd hc.1 (hempty x y hge hy).1

lemma Done.append (h : Done R1 R2 flag m out ov) {n : Band} (hn : n.Wf) (hm : m ≤ n.y1)
    (hcov : ∀ x y, m ≤ y → y < n.y2 → (n.Covers x y ↔ Covered R1 x y ∨ Covered R2 x y))
    (hov : ov' = true ↔ ov = true ∨ ∃ x y, m ≤ y ∧ y < n.y2 ∧ Covered R1 x y ∧ Covered R2 x y) :
    Done R1 R2 flag n.y2 (appendBand out n) ov' where
  banded := h.banded.appendBand hn fun c hc => (h.bottom c hc).trans hm
  bottom := bottom_appendBand (fun c hc => (h.bottom c hc).trans hm) hn
  covers x y hy := by
    rw [covered_appendBand h.banded hn]
    rcases lt_or_ge y m with hlt | hge
    · rw [h.covers x y hlt,or_iff_left]
      rintro ⟨h₁,_⟩
      omega
    · rw [hcov x y hge hy,or_iff_right]
      rintro ⟨b,hb,_,hby,_⟩
      have := h.bottom b hb
      omega
  overlap := by
    have hrows := hn.rows
    rw [hov,h.overlap,or_assoc]
    refine or_congr_right ⟨?_,?_⟩
    · rintro (⟨x,y,hy,hc⟩ | ⟨x,y,_,hy,hc⟩)
      · exact ⟨x,y,by omega,hc⟩
      · exact ⟨x,y,hy,hc⟩
    · rintro ⟨x,y,hy,hc⟩
      rcases lt_or_ge y m with hlt | hge
      · exact .inl ⟨x,y,hlt,hc⟩
      · exact .inr ⟨x,y,hge,hy,hc⟩

end Done

/-- The new array holds the boxes of `out`, and the start of its last band is known. -/
structure Holds (d : RegData) (prevBand : ℕ) (out : List Band) : Prop where
  wf : d.Wf
  rects : d.rects = boxesOf out
  prev : prevBand = lastStart out

lemma Holds.coalesce {d d' : RegData} {prevBand : ℕ} {out : List Band} (h : Holds d prevBand out)
    (hout : Banded out) {n : Band} (hn : n.spans ≠ []) (hd' : d'.Wf)
    (hr : d'.rects = d.rects ++ boxesOfBand n) :
    Holds (d'.coalesce prevBand d.numRects).1 (d'.coalesce prevBand d.numRects).2 (appendBand out n) := by
  have hlen : d.numRects = (boxesOf out).length := by
    rw [← h.rects,RegData.length_rects h.wf]
  rw [h.prev,hlen]
  obtain ⟨h₁,h₂,h₃,_⟩ := coalesce_spec d' hd' out n hn (fun b hb => (hout.wf b hb).nonempty)
    (by rw [hr,h.rects])
  exact ⟨h₂,h₁,h₃⟩

lemma Holds.appendNonO {st : OpState} {out : List Band} (h : Holds st.d st.prevBand out)
    (hout : Banded out) {b : Band} (hb : b.spans ≠ []) (top bot : ℤ) :
    Holds (st.appendNonO (boxesOfBand b) top bot).d (st.appendNonO (boxesOfBand b) top bot).prevBand
      (appendBand out ⟨top,bot,b.spans⟩) := by
  obtain ⟨h₁,h₂⟩ := RegData.appendNonO_spec h.wf (boxesOfBand b) top bot
  refine Holds.coalesce h hout (n := ⟨top,bot,b.spans⟩) hb h₂ ?_
  rw [h₁]
  simp [boxesOfBand,Function.comp_def]

/-- The loop invariant of `RegionOp` for the union of `R1` and `R2`: `B1` and `B2` are the bands
left, at most one of them already entered. -/
structure OpInv (R1 R2 : List Band) (flag : Prop) (st : OpState) (B1 B2 out : List Band) : Prop where
  holds : Holds st.d st.prevBand out
  done : Done R1 R2 flag st.ybot out st.overlap
  pos1 : st.r1 = boxesOf B1
  pos2 : st.r2 = boxesOf B2
  banded1 : Banded B1
  banded2 : Banded B2
  left1 : ∀ b ∈ B1, st.ybot < b.y2
  left2 : ∀ b ∈ B2, st.ybot < b.y2
  future1 : ∀ x y, st.ybot ≤ y → (Covered R1 x y ↔ Covered B1 x y)
  future2 : ∀ x y, st.ybot ≤ y → (Covered R2 x y ↔ Covered B2 x y)
  fresh : (∀ b ∈ B1.head?, st.ybot ≤ b.y1) ∨ (∀ b ∈ B2.head?, st.ybot ≤ b.y1)

section Pass
variable {R1 R2 B1 B2 out : List Band} {flag : Prop} {b1 b2 : Band} {ybot : ℤ} {ov : Bool}

lemma done_upper (hd : Done R1 R2 flag ybot out ov) (h1 : Banded (b1::B1)) (h2 : Banded (b2::B2))
    (hf1 : ∀ x y, ybot ≤ y → (Covered R1 x y ↔ Covered (b1::B1) x y))
    (hf2 : ∀ x y, ybot ≤ y → (Covered R2 x y ↔ Covered (b2::B2) x y))
    (hlt : b1.y1 < b2.y1) (hl1 : ybot < b1.y2) (hfresh : ybot ≤ b1.y1 ∨ ybot ≤ b2.y1) :
    (max b1.y1 ybot = min b1.y2 b2.y1 → Done R1 R2 flag (min b1.y2 b2.y1) out ov) ∧
    (max b1.y1 ybot ≠ min b1.y2 b2.y1 → Done R1 R2 flag (min b1.y2 b2.y1)
      (appendBand out ⟨max b1.y1 ybot,min b1.y2 b2.y1,b1.spans⟩) ov) := by
  have hrow1 := (h1.wf b1 (by simp)).rows
  have hrow2 := (h2.wf b2 (by simp)).rows
  constructor
  · intro he
    have : ybot = min b1.y2 b2.y1 := by omega
    rwa [← this]
  · intro hne
    have hn : Band.Wf ⟨max b1.y1 ybot,min b1.y2 b2.y1,b1.spans⟩ :=
      ⟨by dsimp only; omega,(h1.wf b1 (by simp)).nonempty,(h1.wf b1 (by simp)).separated⟩
    refine hd.append hn (le_max_right _ _) ?_ ?_
    · intro x y hy hy'
      dsimp only at hy'
      rw [hf1 x y hy,hf2 x y hy,covered_cons_of_lt h1 (by omega),covered_cons_of_lt h2 (by omega)]
      unfold Band.Covers
      dsimp only
      constructor
      · rintro ⟨h₁,_,h₃⟩
        exact .inl ⟨by omega,h₃⟩
      · rintro (⟨h₁,h₃⟩ | ⟨h₁,_⟩)
        · exact ⟨by omega,hy',h₃⟩
        · omega
    · refine (or_iff_left ?_).symm
      rintro ⟨x,y,hy,hy',_,hc⟩
      dsimp only at hy'
      rw [hf2 x y hy,covered_cons_of_lt h2 (by omega)] at hc
      omega

lemma done_both {ov' : Bool} {spans : List Span} {ytop : ℤ} (hd : Done R1 R2 flag ytop out ov)
    (h1 : Banded (b1::B1)) (h2 : Banded (b2::B2)) (hy : ytop < min b1.y2 b2.y2)
    (h1y : b1.y1 ≤ ytop) (h2y : b2.y1 ≤ ytop)
    (hf1 : ∀ x y, ytop ≤ y → (Covered R1 x y ↔ Covered (b1::B1) x y))
    (hf2 : ∀ x y, ytop ≤ y → (Covered R2 x y ↔ Covered (b2::B2) x y))
    (hne : spans ≠ []) (hsep : Separated spans)
    (hsp : ∀ x, InSpans x spans ↔ InSpans x b1.spans ∨ InSpans x b2.spans)
    (hov : ov' = true ↔ ov = true ∨ ∃ x, InSpans x b1.spans ∧ InSpans x b2.spans) :
    Done R1 R2 flag (min b1.y2 b2.y2) (appendBand out ⟨ytop,min b1.y2 b2.y2,spans⟩) ov' := by
  have hn : Band.Wf ⟨ytop,min b1.y2 b2.y2,spans⟩ := ⟨hy,hne,hsep⟩
  refine hd.append hn le_rfl ?_ ?_
  · intro x y hty hyb
    dsimp only at hyb
    rw [hf1 x y hty,hf2 x y hty,covered_cons_of_lt h1 (by omega),covered_cons_of_lt h2 (by omega)]
    unfold Band.Covers
    dsimp only
    rw [hsp x]
    constructor
    · rintro ⟨_,_,h | h⟩
      · exact .inl ⟨by omega,h⟩
      · exact .inr ⟨by omega,h⟩
    · rintro (⟨_,h⟩ | ⟨_,h⟩)
      · exact ⟨hty,hyb,.inl h⟩
      · exact ⟨hty,hyb,.inr h⟩
  · rw [hov]
    refine or_congr_right ⟨?_,?_⟩
    · rintro ⟨x,hx1,hx2⟩
      refine ⟨x,ytop,le_rfl,hy,?_,?_⟩
      · rw [hf1 x ytop le_rfl,covered_cons_of_lt h1 (by omega)]
        exact ⟨h1y,hx1⟩
      · rw [hf2 x ytop le_rfl,covered_cons_of_lt h2 (by omega)]
        exact ⟨h2y,hx2⟩
    · rintro ⟨x,y,hty,hyb,hc1,hc2⟩
      dsimp only at hyb
      rw [hf1 x y hty,covered_cons_of_lt h1 (by omega)] at hc1
      rw [hf2 x y hty,covered_cons_of_lt h2 (by omega)] at hc2
      exact ⟨x,hc1.2,hc2.2⟩

end Pass

section Step
variable {R1 R2 B1 B2 out : List Band} {flag : Prop} {b1 b2 : Band} {st : OpState}

def upperState (st : OpState) (a b : Box) : OpState :=
  if a.y1 < b.y1 then
    if max a.y1 st.ybot ≠ min a.y2 b.y1 then
      st.appendNonO (findBand st.r1).1 (max a.y1 st.ybot) (min a.y2 b.y1) else st
  else if b.y1 < a.y1 then
    if max b.y1 st.ybot ≠ min b.y2 a.y1 then
      st.appendNonO (findBand st.r2).1 (max b.y1 st.ybot) (min b.y2 a.y1) else st
  else st

lemma upperState_spec (h : OpInv R1 R2 flag st (b1::B1) (b2::B2) out) {a b : Box}
    (ha1 : a.y1 = b1.y1) (ha2 : a.y2 = b1.y2) (hb1 : b.y1 = b2.y1) (hb2 : b.y2 = b2.y2) :
    ∃ out', Holds (upperState st a b).d (upperState st a b).prevBand out' ∧
      (upperState st a b).overlap = st.overlap ∧
      Done R1 R2 flag (min (max a.y1 b.y1) (min a.y2 b.y2)) out' st.overlap := by
  have hrow1 := (h.banded1.wf b1 (by simp)).rows
  have hrow2 := (h.banded2.wf b2 (by simp)).rows
  have hl1 := h.left1 b1 (by simp)
  have hl2 := h.left2 b2 (by simp)
  have hfresh : st.ybot ≤ b1.y1 ∨ st.ybot ≤ b2.y1 := h.fresh.imp (fun h => h b1 (by simp)) (fun h => h b2 (by simp))
  unfold upperState
  rw [ha1,ha2,hb1,hb2,h.pos1,h.pos2,findBand_boxesOf h.banded1,findBand_boxesOf h.banded2]
  rcases lt_trichotomy b1.y1 b2.y1 with hlt | heq | hgt
  · obtain ⟨hsame,hnew⟩ := done_upper h.done h.banded1 h.banded2 h.future1 h.future2 hlt hl1 hfresh
    have hmin : min (max b1.y1 b2.y1) (min b1.y2 b2.y2) = min b1.y2 b2.y1 := by omega
    rw [if_pos hlt,hmin]
    by_cases hne : max b1.y1 st.ybot = min b1.y2 b2.y1
    · rw [if_neg (not_not.mpr hne)]
      exact ⟨out,h.holds,rfl,hsame hne⟩
    · rw [if_pos hne]
      exact ⟨_,h.holds.appendNonO h.done.banded (h.banded1.wf b1 (by simp)).nonempty _ _,rfl,hnew hne⟩
  · have hmin : min (max b1.y1 b2.y1) (min b1.y2 b2.y2) = b1.y1 := by omega
    rw [if_neg (by omega),if_neg (by omega),hmin]
    refine ⟨out,h.holds,rfl,h.done.skip (by omega) fun x y hy hy' => ?_⟩
    rw [h.future1 x y hy,h.future2 x y hy,covered_cons_of_lt h.banded1 (by omega),
      covered_cons_of_lt h.banded2 (by omega)]
    omega
  · obtain ⟨hsame,hnew⟩ := done_upper h.done.symm h.banded2 h.banded1 h.future2 h.future1 hgt hl2 hfresh.symm
    have hmin : min (max b1.y1 b2.y1) (min b1.y2 b2.y2) = min b2.y2 b1.y1 := by omega
    rw [if_neg (by omega),if_pos hgt,hmin]
    by_cases hne : max b2.y1 st.ybot = min b2.y2 b1.y1
    · rw [if_neg (not_not.mpr hne)]
      exact ⟨out,h.holds,rfl,(hsame hne).symm⟩
    · rw [if_pos hne]
      exact ⟨_,h.holds.appendNonO h.done.banded (h.banded2.wf b2 (by simp)).nonempty _ _,rfl,
        (hnew hne).symm⟩

lemma opStep_eq (st : OpState) (a b : Box) : opStep regionUnionO true true st a b =
    { (if min a.y2 b.y2 > max a.y1 b.y1 then (upperState st a b).overlapBand regionUnionO
        (findBand st.r1).1 (findBand st.r2).1 (max a.y1 b.y1) (min a.y2 b.y2)
      else upperState st a b) with
      r1 := if a.y2 = min a.y2 b.y2 then (findBand st.r1).2 else st.r1
      r2 := if b.y2 = min a.y2 b.y2 then (findBand st.r2).2 else st.r2
      ybot := min a.y2 b.y2 } := by
  have htop : (if a.y1 < b.y1 then b.y1 else a.y1) = max a.y1 b.y1 := by
    split_ifs <;> omega
  simp only [opStep,upperState,true_and,htop]

lemma lowerState_spec (h : OpInv R1 R2 flag st (b1::B1) (b2::B2) out) {a b : Box}
    (ha1 : a.y1 = b1.y1) (ha2 : a.y2 = b1.y2) (hb1 : b.y1 = b2.y1) (hb2 : b.y2 = b2.y2) :
    ∃ out', Holds (opStep regionUnionO true true st a b).d
        (opStep regionUnionO true true st a b).prevBand out' ∧
      Done R1 R2 flag (min a.y2 b.y2) out' (opStep regionUnionO true true st a b).overlap := by
  obtain ⟨out₁,hholds,hov,hdone⟩ := upperState_spec h ha1 ha2 hb1 hb2
  rw [opStep_eq,h.pos1,h.pos2,findBand_boxesOf h.banded1,findBand_boxesOf h.banded2]
  by_cases hy : min a.y2 b.y2 > max a.y1 b.y1
  · rw [if_pos hy]
    have hmin : min (max a.y1 b.y1) (min a.y2 b.y2) = max a.y1 b.y1 := by omega
    rw [hmin] at hdone
    obtain ⟨spans,hne,hsep,hsp,hrects,hwf,hflag⟩ := regionUnionO_spec (upperState st a b).d hholds.wf
      (h.banded1.wf b1 (by simp)) (h.banded2.wf b2 (by simp)) (max a.y1 b.y1) (min a.y2 b.y2)
      (upperState st a b).overlap
    refine ⟨_,hholds.coalesce hdone.banded (n := ⟨max a.y1 b.y1,min a.y2 b.y2,spans⟩) hne hwf hrects,?_⟩
    have hge : st.ybot ≤ max a.y1 b.y1 := by
      have := h.fresh.imp (fun h => h b1 (by simp)) (fun h => h b2 (by simp))
      omega
    rw [hov] at hflag
    rw [ha2,hb2] at hy ⊢
    rw [ha2,hb2] at hflag
    exact done_both hdone h.banded1 h.banded2 hy (by omega) (by omega)
      (fun x y hxy => h.future1 x y (by omega)) (fun x y hxy => h.future2 x y (by omega)) hne hsep hsp
      (by simpa [OpState.overlapBand,hov] using hflag)
  · rw [if_neg hy]
    have hmin : min (max a.y1 b.y1) (min a.y2 b.y2) = min a.y2 b.y2 := by omega
    rw [hmin] at hdone
    refine ⟨out₁,hholds,?_⟩
    dsimp only
    rw [hov]
    exact hdone

lemma leave_band (h : Banded (b1::B1)) {m : ℤ} (hm : m ≤ b1.y2) :
    ∃ C, (if b1.y2 = m then boxesOf B1 else boxesOf (b1::B1)) = boxesOf C ∧ Banded C ∧
      (∀ b ∈ C, m < b.y2) ∧ (∀ x y, m ≤ y → (Covered (b1::B1) x y ↔ Covered C x y)) ∧
      (b1.y2 = m → C = B1 ∧ ∀ b ∈ C.head?, m ≤ b.y1) ∧ C.length ≤ (b1::B1).length := by
  by_cases he : b1.y2 = m
  · have hord := (List.pairwise_cons.mp h.ordered).1
    refine ⟨B1,by rw [if_pos he],h.tail,fun b hb => ?_,fun x y hy => ?_,fun _ => ⟨rfl,fun b hb => ?_⟩,by simp⟩
    · have h₁ := hord b hb
      have h₂ := (h.wf b (by simp [hb])).rows
      omega
    · exact covered_cons_of_ge (by omega)
    · have := hord b (List.mem_of_mem_head? hb)
      omega
  · exact ⟨b1::B1,by rw [if_neg he],h,h.below (by omega),fun x y _ => Iff.rfl,fun h => absurd h he,le_rfl⟩

/-- A pass keeps the invariant and moves past a band. -/
theorem OpInv.step (h : OpInv R1 R2 flag st (b1::B1) (b2::B2) out) {a b : Box}
    (ha1 : a.y1 = b1.y1) (ha2 : a.y2 = b1.y2) (hb1 : b.y1 = b2.y1) (hb2 : b.y2 = b2.y2) :
    ∃ C1 C2 out', OpInv R1 R2 flag (opStep regionUnionO true true st a b) C1 C2 out' ∧
      C1.length + C2.length < (b1::B1).length + (b2::B2).length := by
  obtain ⟨out',hholds,hdone⟩ := lowerState_spec h ha1 ha2 hb1 hb2
  have hl1 := h.left1 b1 (by simp)
  have hl2 := h.left2 b2 (by simp)
  rw [ha2,hb2] at hdone
  obtain ⟨C1,hp1,hc1,hleft1,hfut1,hadv1,hlen1⟩ := leave_band h.banded1 (min_le_left b1.y2 b2.y2)
  obtain ⟨C2,hp2,hc2,hleft2,hfut2,hadv2,hlen2⟩ := leave_band h.banded2 (min_le_right b1.y2 b2.y2)
  refine ⟨C1,C2,out',⟨hholds,?_,?_,?_,hc1,hc2,?_,?_,?_,?_,?_⟩,?_⟩
  · rw [opStep_eq] at hdone ⊢
    dsimp only at hdone ⊢
    rw [ha2,hb2] at hdone ⊢
    exact hdone
  · rw [opStep_eq,h.pos1,h.pos2,findBand_boxesOf h.banded1,← hp1,ha2,hb2]
  · rw [opStep_eq,h.pos1,h.pos2,findBand_boxesOf h.banded2,← hp2,ha2,hb2]
  · rw [opStep_eq,ha2,hb2]
    exact hleft1
  · rw [opStep_eq,ha2,hb2]
    exact hleft2
  · intro x y hy
    rw [opStep_eq,ha2,hb2] at hy
    dsimp only at hy
    rw [h.future1 x y (by omega)]
    exact hfut1 x y hy
  · intro x y hy
    rw [opStep_eq,ha2,hb2] at hy
    dsimp only at hy
    rw [h.future2 x y (by omega)]
    exact hfut2 x y hy
  · rw [opStep_eq,ha2,hb2]
    rcases min_choice b1.y2 b2.y2 with hm | hm
    · exact .inl (hadv1 hm.symm).2
    · exact .inr (hadv2 hm.symm).2
  · simp only [List.length_cons] at hlen1 hlen2 ⊢
    rcases min_choice b1.y2 b2.y2 with hm | hm
    · rw [(hadv1 hm.symm).1]
      omega
    · rw [(hadv2 hm.symm).1]
      omega

/-- The loop ends with one region used up. -/
theorem OpInv.loop (n : ℕ) (h : OpInv R1 R2 flag st B1 B2 out) (hn : B1.length + B2.length ≤ n) :
    ∃ C1 C2 out', OpInv R1 R2 flag (opLoop regionUnionO true true n st) C1 C2 out' ∧
      (C1 = [] ∨ C2 = []) := by
  induction n generalizing st B1 B2 out with
  | zero => exact ⟨B1,B2,out,h,.inl (List.length_eq_zero_iff.mp (by omega))⟩
  | succ n ih =>
    cases B1 with
    | nil =>
      have hr := h.pos1
      refine ⟨[],B2,out,?_,.inl rfl⟩
      rw [opLoop]
      simp only [hr,boxesOf_nil]
      exact h
    | cons b1 B1 =>
      cases B2 with
      | nil =>
        have hr := h.pos2
        refine ⟨b1::B1,[],out,?_,.inr rfl⟩
        rw [opLoop]
        cases st.r1 <;> simpa only [hr,boxesOf_nil] using h
      | cons b2 B2 =>
        obtain ⟨a,r1,hr1,ha1,ha2⟩ := head?_boxesOf h.banded1
        obtain ⟨b,r2,hr2,hb1,hb2⟩ := head?_boxesOf h.banded2
        obtain ⟨C1,C2,out',hinv,hlt⟩ := h.step ha1 ha2 hb1 hb2
        obtain ⟨D1,D2,out'',hfin,hend⟩ := ih hinv (by omega)
        refine ⟨D1,D2,out'',?_,hend⟩
        rw [opLoop]
        simp only [h.pos1,h.pos2,hr1,hr2]
        exact hfin

lemma opInv_start {a b : Box} (h1 : Banded (b1::B1)) (h2 : Banded (b2::B2)) (ha1 : a.y1 = b1.y1)
    (hb1 : b.y1 = b2.y1) (newSize : ℕ) (ov : Bool) :
    OpInv (b1::B1) (b2::B2) (ov = true) ⟨boxesOf (b1::B1),boxesOf (b2::B2),min a.y1 b.y1,
      (⟨[],0⟩ : RegData).realloc newSize,0,ov⟩ (b1::B1) (b2::B2) [] := by
  have hrow1 := (h1.wf b1 (by simp)).rows
  have hrow2 := (h2.wf b2 (by simp)).rows
  have hnone1 : ∀ x y, y < min a.y1 b.y1 → ¬ Covered (b1::B1) x y := by
    intro x y hy
    rw [covered_cons_of_lt h1 (by omega)]
    omega
  have hnone2 : ∀ x y, y < min a.y1 b.y1 → ¬ Covered (b2::B2) x y := by
    intro x y hy
    rw [covered_cons_of_lt h2 (by omega)]
    omega
  refine ⟨⟨by simp [RegData.Wf,RegData.realloc,RegData.size],
      by simp [RegData.rects,RegData.realloc,RegData.size],rfl⟩,
    ⟨⟨by simp,by simp,by simp⟩,by simp,fun x y hy => ?_,?_⟩,rfl,rfl,h1,h2,
    h1.below (by dsimp only; omega),h2.below (by dsimp only; omega),fun _ _ _ => Iff.rfl,
    fun _ _ _ => Iff.rfl,?_⟩
  · simp only [hnone1 x y hy,hnone2 x y hy,or_self,iff_false]
    rintro ⟨b,hb,_⟩
    cases hb
  · refine (or_iff_left ?_).symm
    rintro ⟨x,y,hy,hc,_⟩
    exact hnone1 x y hy hc
  · left
    simp [ha1]

lemma opRest_spec {R1 R2 B out : List Band} (hh : Holds st.d st.prevBand out)
    (hd : Done R1 R2 flag st.ybot out st.overlap) (hB : Banded B) (hleft : ∀ b ∈ B, st.ybot < b.y2)
    (h1 : ∀ x y, st.ybot ≤ y → (Covered R1 x y ↔ Covered B x y))
    (h2 : ∀ x y, st.ybot ≤ y → ¬ Covered R2 x y) :
    ∃ R, Banded R ∧ (opRest st (boxesOf B)).Wf ∧ (opRest st (boxesOf B)).rects = boxesOf R ∧
      (∀ x y, Covered R x y ↔ Covered R1 x y ∨ Covered R2 x y) := by
  cases B with
  | nil =>
    refine ⟨out,hd.banded,hh.wf,hh.rects,fun x y => ?_⟩
    rcases lt_or_ge y st.ybot with hlt | hge
    · exact hd.covers x y hlt
    · simp only [h1 x y hge,h2 x y hge,or_false]
      refine ⟨fun ⟨b,hb,_,hby,_⟩ => ?_,fun ⟨b,hb,_⟩ => absurd hb (by simp)⟩
      have := hd.bottom b hb
      omega
  | cons b B =>
    obtain ⟨a,rest,hr,ha1,ha2⟩ := head?_boxesOf hB
    have hb := hB.wf b (by simp)
    have hy := hleft b (by simp)
    have hrow := hb.rows
    have hn : Band.Wf ⟨max b.y1 st.ybot,b.y2,b.spans⟩ := ⟨by dsimp only; omega,hb.nonempty,hb.separated⟩
    have hhold := hh.appendNonO hd.banded hb.nonempty (max b.y1 st.ybot) b.y2
    have heq : opRest st (boxesOf (b::B)) =
        (st.appendNonO (boxesOfBand b) (max b.y1 st.ybot) b.y2).d.appendRegions (boxesOf B) := by
      rw [← ha1,← ha2]
      have hf := findBand_boxesOf hB
      rw [hr] at hf ⊢
      simp only [opRest,hf]
    obtain ⟨hrects,hwf⟩ := RegData.appendRegions_spec hhold.wf (boxesOf B)
    rw [heq]
    refine ⟨appendBand out ⟨max b.y1 st.ybot,b.y2,b.spans⟩ ++ B,?_,hwf,?_,fun x y => ?_⟩
    · refine hd.banded.appendBand_append hn (fun c hc => (hd.bottom c hc).trans (le_max_right _ _)) ?_
      refine ⟨fun c hc => ?_,?_,?_⟩
      · rcases List.mem_cons.mp hc with rfl | hc
        · exact hn
        · exact hB.wf c (by simp [hc])
      · exact List.pairwise_cons.mpr (List.pairwise_cons.mp hB.ordered)
      · obtain ⟨h₁,h₂⟩ := List.isChain_cons.mp hB.coalesced
        exact List.isChain_cons.mpr ⟨fun c hc hm => h₁ c hc ⟨hm.1,hm.2⟩,h₂⟩
    · rw [hrects,hhold.rects,boxesOf_append]
    · have happ : ∀ l m : List Band, Covered (l ++ m) x y ↔ Covered l x y ∨ Covered m x y := by
        intro l m
        simp only [Covered,List.mem_append,or_and_right,exists_or]
      rw [happ,covered_appendBand hd.banded hn]
      rcases lt_or_ge y st.ybot with hlt | hge
      · rw [hd.covers x y hlt,or_assoc]
        refine or_iff_left ?_
        rintro (⟨h₁,_⟩ | ⟨c,hc,h₁,_⟩)
        · dsimp only at h₁
          omega
        · have := (List.pairwise_cons.mp hB.ordered).1 c hc
          omega
      · have hout : ¬ Covered out x y := by
          rintro ⟨c,hc,_,hcy,_⟩
          have := hd.bottom c hc
          omega
        have hcons : Covered (b::B) x y ↔ b.Covers x y ∨ Covered B x y := by
          simp [Covered]
        have hcut : Band.Covers ⟨max b.y1 st.ybot,b.y2,b.spans⟩ x y ↔ b.Covers x y := by
          unfold Band.Covers
          dsimp only
          constructor
          · rintro ⟨h₁,h⟩
            exact ⟨by omega,h⟩
          · rintro ⟨h₁,h⟩
            exact ⟨by omega,h⟩
        simp only [h1 x y hge,h2 x y hge,hout,false_or,or_false,hcut,hcons]

end Step

structure IsRegion (reg : RegionRec) (R : List Band) : Prop where
  banded : Banded R
  nonempty : R ≠ []
  rects : reg.rects = boxesOf R
  form : (reg.data = .null ∧ boxesOf R = [reg.extents]) ∨
    (2 ≤ (boxesOf R).length ∧ ∃ d : RegData, reg.data = .heap d ∧ d.Wf)

lemma boxesOf_ne_nil {R : List Band} (h : Banded R) (hne : R ≠ []) : boxesOf R ≠ [] := by
  obtain ⟨b,l,rfl⟩ := List.exists_cons_of_ne_nil hne
  obtain ⟨r,rest,he,_⟩ := head?_boxesOf h
  rw [he]
  simp

lemma exists_covered {R : List Band} (h : Banded R) (hne : R ≠ []) : ∃ x y, Covered R x y := by
  obtain ⟨b,l,rfl⟩ := List.exists_cons_of_ne_nil hne
  have hb := h.wf b (by simp)
  obtain ⟨s,ss,hs⟩ := List.exists_cons_of_ne_nil hb.nonempty
  exact ⟨s.1,b.y1,b,by simp,le_rfl,hb.rows,s,by simp [hs],le_rfl,hb.separated.proper s (by simp [hs])⟩

lemma downsize_spec {d : RegData} (h : d.Wf) : d.downsize.Wf ∧ d.downsize.rects = d.rects := by
  unfold RegData.downsize
  split_ifs
  · refine ⟨?_,?_⟩
    · simp only [RegData.Wf,List.length_take] at h ⊢
      omega
    · simp [RegData.rects,List.take_take]
  · exact ⟨h,rfl⟩

lemma opFinish_spec (extents : Box) {d : RegData} {R : List Band} (hd : d.Wf) (hr : d.rects = boxesOf R)
    (hR : Banded R) (hne : R ≠ []) :
    IsRegion (opFinish extents d) R ∧
      ((opFinish extents d).data ≠ .null → (opFinish extents d).extents = extents) := by
  have hlen : d.numRects = (boxesOf R).length := by rw [← hr,RegData.length_rects hd]
  have hpos := List.length_pos_iff.mpr (boxesOf_ne_nil hR hne)
  unfold opFinish
  rw [if_neg (by omega)]
  by_cases h1 : d.numRects = 1
  · rw [if_pos h1]
    obtain ⟨r,hr1⟩ := List.length_eq_one_iff.mp (hlen.symm.trans h1)
    have hbox : d.box 0 = r := by
      rw [RegData.box,List.getD_eq_getElem?_getD,RegData.getElem?_boxes (by omega),hr,hr1]
      rfl
    exact ⟨⟨hR,hne,by rw [hr1,hbox]; rfl,.inl ⟨rfl,by rw [hr1,hbox]⟩⟩,fun h => absurd rfl h⟩
  · rw [if_neg h1]
    obtain ⟨hwf,hrects⟩ := downsize_spec hd
    exact ⟨⟨hR,hne,hrects.trans hr,.inr ⟨by omega,d.downsize,rfl,hwf⟩⟩,fun _ => rfl⟩

/-- `RegionOp` with `RegionUnionO` computes the union of two regions, and raises the flag when
they have a common point. -/
theorem regionOp_union {reg1 reg2 : RegionRec} {R1 R2 : List Band} (h1 : IsRegion reg1 R1)
    (h2 : IsRegion reg2 R2) (ov : Bool) :
    ∃ R, IsRegion (regionOp regionUnionO true true reg1 reg2 ov).1 R ∧
      (∀ x y, Covered R x y ↔ Covered R1 x y ∨ Covered R2 x y) ∧
      ((regionOp regionUnionO true true reg1 reg2 ov).2 = true ↔
        ov = true ∨ ∃ x y, Covered R1 x y ∧ Covered R2 x y) ∧
      ((regionOp regionUnionO true true reg1 reg2 ov).1.data ≠ .null →
        (regionOp regionUnionO true true reg1 reg2 ov).1.extents = reg1.extents) := by
  obtain ⟨b1,B1,rfl⟩ := List.exists_cons_of_ne_nil h1.nonempty
  obtain ⟨b2,B2,rfl⟩ := List.exists_cons_of_ne_nil h2.nonempty
  obtain ⟨a,r1,hr1,ha1,_⟩ := head?_boxesOf h1.banded
  obtain ⟨b,r2,hr2,hb1,_⟩ := head?_boxesOf h2.banded
  have hbroken : ¬ (reg1.data = .brokenData ∨ reg2.data = .brokenData) := by
    rintro (h | h)
    · rcases h1.form with ⟨hf,_⟩ | ⟨_,d,hf,_⟩ <;> simp [hf] at h
    · rcases h2.form with ⟨hf,_⟩ | ⟨_,d,hf,_⟩ <;> simp [hf] at h
  have hstart := opInv_start h1.banded h2.banded ha1 hb1
    (2*max (boxesOf (b1::B1)).length (boxesOf (b2::B2)).length) ov
  have hbands : ∀ {R : List Band}, Banded R → R.length ≤ (boxesOf R).length := by
    intro R hR
    induction R with
    | nil => simp
    | cons c R ih =>
      have hpos := List.length_pos_iff.mpr (hR.wf c (by simp)).nonempty
      have := ih hR.tail
      simp only [boxesOf_cons,List.length_append,length_boxesOfBand,List.length_cons]
      omega
  obtain ⟨C1,C2,out,hinv,hend⟩ := hstart.loop ((boxesOf (b1::B1)).length+(boxesOf (b2::B2)).length)
    (by have := hbands h1.banded; have := hbands h2.banded; omega)
  have hcall : regionOp regionUnionO true true reg1 reg2 ov =
      (let st := opLoop regionUnionO true true ((boxesOf (b1::B1)).length+(boxesOf (b2::B2)).length)
        ⟨boxesOf (b1::B1),boxesOf (b2::B2),min a.y1 b.y1,(⟨[],0⟩ : RegData).realloc
          (2*max (boxesOf (b1::B1)).length (boxesOf (b2::B2)).length),0,ov⟩
      (opFinish reg1.extents (if st.r1 ≠ [] then opRest st st.r1
        else if st.r2 ≠ [] then opRest st st.r2 else st.d),st.overlap)) := by
    unfold regionOp
    rw [if_neg hbroken,h1.rects,h2.rects]
    simp only [hr1,hr2,and_true]
  rw [hcall]
  generalize opLoop regionUnionO true true ((boxesOf (b1::B1)).length+(boxesOf (b2::B2)).length)
    ⟨boxesOf (b1::B1),boxesOf (b2::B2),min a.y1 b.y1,(⟨[],0⟩ : RegData).realloc
      (2*max (boxesOf (b1::B1)).length (boxesOf (b2::B2)).length),0,ov⟩ = st at hinv
  simp only
  have hnil : ∀ {C : List Band} {x y : ℤ}, C = [] → ¬ Covered C x y := by
    rintro C x y rfl ⟨c,hc,_⟩
    cases hc
  -- Whichever region has rows left, they are copied; with none left nothing is added.
  obtain ⟨R,hR,hwf,hrects,hcov⟩ : ∃ R, Banded R ∧
      (if st.r1 ≠ [] then opRest st st.r1 else if st.r2 ≠ [] then opRest st st.r2 else st.d).Wf ∧
      (if st.r1 ≠ [] then opRest st st.r1 else if st.r2 ≠ [] then opRest st st.r2 else st.d).rects =
        boxesOf R ∧
      (∀ x y, Covered R x y ↔ Covered (b1::B1) x y ∨ Covered (b2::B2) x y) := by
    rw [hinv.pos1,hinv.pos2]
    by_cases hc1 : C1 = []
    · have hrest := opRest_spec hinv.holds hinv.done.symm hinv.banded2 hinv.left2 hinv.future2
        (fun x y hy => by rw [hinv.future1 x y hy]; exact hnil hc1)
      obtain ⟨R,hR,hwf,hrects,hcov⟩ := hrest
      rw [hc1]
      refine ⟨R,hR,?_,?_,fun x y => (hcov x y).trans or_comm⟩
      · by_cases hc2 : boxesOf C2 = []
        · simpa [hc2,opRest] using hwf
        · simpa [hc2] using hwf
      · by_cases hc2 : boxesOf C2 = []
        · simpa [hc2,opRest] using hrects
        · simpa [hc2] using hrects
    · have hc2 := hend.resolve_left hc1
      have hrest := opRest_spec hinv.holds hinv.done hinv.banded1 hinv.left1 hinv.future1
        (fun x y hy => by rw [hinv.future2 x y hy]; exact hnil hc2)
      obtain ⟨R,hR,hwf,hrects,hcov⟩ := hrest
      rw [if_pos (boxesOf_ne_nil hinv.banded1 hc1)]
      exact ⟨R,hR,hwf,hrects,hcov⟩
  have hRne : R ≠ [] := by
    rintro rfl
    obtain ⟨x,y,hxy⟩ := exists_covered h1.banded h1.nonempty
    exact hnil rfl ((hcov x y).mpr (.inl hxy))
  obtain ⟨hreg,hext⟩ := opFinish_spec reg1.extents hwf hrects hR hRne
  refine ⟨R,hreg,hcov,?_,hext⟩
  rw [hinv.done.overlap]
  refine or_congr_right ⟨fun ⟨x,y,_,h⟩ => ⟨x,y,h⟩,fun ⟨x,y,h⟩ => ⟨x,y,?_,h⟩⟩
  by_contra hge
  rcases hend with hc | hc
  · exact hnil hc ((hinv.future1 x y (not_lt.mp hge)).mp h.1)
  · exact hnil hc ((hinv.future2 x y (not_lt.mp hge)).mp h.2)

end Xlibre.Dix.Region
