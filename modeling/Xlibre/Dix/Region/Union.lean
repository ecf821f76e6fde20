import Xlibre.Dix.Region.Coalesce

/-! `RegionOp` and `RegionUnionO`: the band sweep over two regions. -/
namespace Xlibre.Dix.Region
open Xlibre.Lib.Bands

/-- The state of `RegionUnionO`: the array written to, the sides of the current union, and the
overlap flag. -/
structure MergeState where
  d : RegData
  x1 : ℤ
  x2 : ℤ
  overlap : Bool

/-- `MERGERECT`: merge with the current rectangle, or add it and start a new one. -/
def mergeRect (y1 y2 : ℤ) (st : MergeState) (r : Box) : MergeState :=
  if r.x1 ≤ st.x2 then
    { st with
      overlap := st.overlap || r.x1 < st.x2
      x2 := if st.x2 < r.x2 then r.x2 else st.x2 }
  else { st with d := st.d.newRect ⟨st.x1,y1,st.x2,y2⟩, x1 := r.x1, x2 := r.x2 }

/-- The loops of `RegionUnionO`: the left-most rectangle goes first, those of the second band on
a tie; the fuel counts the rectangles left. -/
def unionLoop (y1 y2 : ℤ) : ℕ → List Box → List Box → MergeState → MergeState
  | 0,_,_,st => st
  | _,[],[],st => st
  | n+1,a::r1,[],st => unionLoop y1 y2 n r1 [] (mergeRect y1 y2 st a)
  | n+1,[],b::r2,st => unionLoop y1 y2 n [] r2 (mergeRect y1 y2 st b)
  | n+1,a::r1,b::r2,st =>
    if a.x1 < b.x1 then unionLoop y1 y2 n r1 (b::r2) (mergeRect y1 y2 st a)
    else unionLoop y1 y2 n (a::r1) r2 (mergeRect y1 y2 st b)

def regionUnionO (d : RegData) (r1 r2 : List Box) (y1 y2 : ℤ) (overlap : Bool) : RegData × Bool :=
  match r1,r2 with
  | a::r1,b::r2 =>
    let n := r1.length+r2.length+1
    let st := if a.x1 < b.x1 then unionLoop y1 y2 n r1 (b::r2) ⟨d,a.x1,a.x2,overlap⟩
      else unionLoop y1 y2 n (a::r1) r2 ⟨d,b.x1,b.x2,overlap⟩
    (st.d.newRect ⟨st.x1,y1,st.x2,y2⟩,st.overlap)
  | _,_ => (d,overlap)

def findBand : List Box → List Box × List Box
  | [] => ([],[])
  | r::rest => (r::rest.takeWhile (fun b => b.y1 = r.y1),rest.dropWhile (fun b => b.y1 = r.y1))

abbrev OverlapProc := RegData → List Box → List Box → ℤ → ℤ → Bool → RegData × Bool

/-- The state of `RegionOp`: the positions in both regions, the bottom of the last rows handled,
the new array with the start of its last band, and the overlap flag. -/
structure OpState where
  r1 : List Box
  r2 : List Box
  ybot : ℤ
  d : RegData
  prevBand : ℕ
  overlap : Bool

/-- Append the rows of a band from `top` to `bot` and coalesce. -/
def OpState.appendNonO (st : OpState) (band : List Box) (top bot : ℤ) : OpState :=
  let curBand := st.d.numRects
  let c := (st.d.appendNonO band top bot).coalesce st.prevBand curBand
  { st with d := c.1, prevBand := c.2 }

def OpState.overlapBand (overlapFunc : OverlapProc) (st : OpState) (band1 band2 : List Box)
    (ytop ybot : ℤ) : OpState :=
  let curBand := st.d.numRects
  let o := overlapFunc st.d band1 band2 ytop ybot st.overlap
  let c := o.1.coalesce st.prevBand curBand
  { st with d := c.1, prevBand := c.2, overlap := o.2 }

section Op
variable (overlapFunc : OverlapProc) (appendNon1 appendNon2 : Bool)

/-- One pass of the loop of `RegionOp`, with `a` and `b` the first boxes of both positions. -/
def opStep (st : OpState) (a b : Box) : OpState :=
  let band1 := findBand st.r1
  let band2 := findBand st.r2
  let st₁ :=
    if a.y1 < b.y1 then
      let top := max a.y1 st.ybot
      let bot := min a.y2 b.y1
      if appendNon1 ∧ top ≠ bot then st.appendNonO band1.1 top bot else st
    else if b.y1 < a.y1 then
      let top := max b.y1 st.ybot
      let bot := min b.y2 a.y1
      if appendNon2 ∧ top ≠ bot then st.appendNonO band2.1 top bot else st
    else st
  let ytop := if a.y1 < b.y1 then b.y1 else a.y1
  let ybot := min a.y2 b.y2
  let st₂ := if ybot > ytop then st₁.overlapBand overlapFunc band1.1 band2.1 ytop ybot else st₁
  { st₂ with
    r1 := if a.y2 = ybot then band1.2 else st.r1
    r2 := if b.y2 = ybot then band2.2 else st.r2
    ybot := ybot }

/-- The loop of `RegionOp`: each pass finishes at least one band. -/
def opLoop : ℕ → OpState → OpState
  | 0,st => st
  | n+1,st =>
    match st.r1,st.r2 with
    | a::_,b::_ => opLoop n (opStep overlapFunc appendNon1 appendNon2 st a b)
    | _,_ => st

def opRest (st : OpState) (r : List Box) : RegData :=
  match r with
  | [] => st.d
  | a::_ =>
    let band := findBand r
    (st.appendNonO band.1 (max a.y1 st.ybot) a.y2).d.appendRegions band.2

def regionBreak : RegionRec := ⟨emptyBox,.brokenData⟩

/-- The last lines of `RegionOp`: a single rectangle needs no array. -/
def opFinish (extents : Box) (d : RegData) : RegionRec :=
  if d.numRects = 0 then ⟨extents,.emptyData⟩
  else if d.numRects = 1 then ⟨d.box 0,.null⟩
  else ⟨extents,.heap d.downsize⟩

/-- `RegionOp` storing into its first operand. The old array is kept until the end, and a single
rectangle has none, so no source rectangle is overwritten while it is read. -/
def regionOp (reg1 reg2 : RegionRec) (overlap : Bool) : RegionRec × Bool :=
  if reg1.data = .brokenData ∨ reg2.data = .brokenData then (regionBreak,overlap) else
  let r1 := reg1.rects
  let r2 := reg2.rects
  let newSize := 2*max r1.length r2.length
  match r1,r2 with
  | a::_,b::_ =>
    let st : OpState := ⟨r1,r2,min a.y1 b.y1,(⟨[],0⟩ : RegData).realloc newSize,0,overlap⟩
    let st := opLoop overlapFunc appendNon1 appendNon2 (r1.length+r2.length) st
    let d :=
      if st.r1 ≠ [] ∧ appendNon1 then opRest st st.r1
      else if st.r2 ≠ [] ∧ appendNon2 then opRest st st.r2
      else st.d
    (opFinish reg1.extents d,st.overlap)
  | _,_ => (reg1,overlap)

end Op

section UnionO

/-- The horizontal extent of a box. -/
def Box.span (b : Box) : Span := (b.x1,b.x2)

def unionOrder : ℕ → List Box → List Box → List Box
  | 0,_,_ => []
  | _,[],[] => []
  | n+1,a::r1,[] => a::unionOrder n r1 []
  | n+1,[],b::r2 => b::unionOrder n [] r2
  | n+1,a::r1,b::r2 =>
    if a.x1 < b.x1 then a::unionOrder n r1 (b::r2) else b::unionOrder n (a::r1) r2

lemma unionLoop_eq (y1 y2 : ℤ) (n : ℕ) (r1 r2 : List Box) (st : MergeState) :
    unionLoop y1 y2 n r1 r2 st = (unionOrder n r1 r2).foldl (mergeRect y1 y2) st := by
  induction n generalizing r1 r2 st with
  | zero => rfl
  | succ n ih =>
    cases r1 with
    | nil =>
      cases r2 with
      | nil => rfl
      | cons b r2 => simp [unionLoop,unionOrder,ih]
    | cons a r1 =>
      cases r2 with
      | nil => simp [unionLoop,unionOrder,ih]
      | cons b r2 =>
        simp only [unionLoop,unionOrder]
        split_ifs <;> simp [ih]

lemma unionOrder_perm (n : ℕ) (r1 r2 : List Box) (hn : r1.length + r2.length ≤ n) :
    (unionOrder n r1 r2).Perm (r1 ++ r2) := by
  induction n generalizing r1 r2 with
  | zero =>
    have h₁ : r1 = [] := List.length_eq_zero_iff.mp (by omega)
    have h₂ : r2 = [] := List.length_eq_zero_iff.mp (by omega)
    simp [h₁,h₂,unionOrder]
  | succ n ih =>
    cases r1 with
    | nil =>
      cases r2 with
      | nil => simp [unionOrder]
      | cons b r2 => simpa [unionOrder] using ih [] r2 (by simp at hn ⊢; omega)
    | cons a r1 =>
      cases r2 with
      | nil => simpa [unionOrder] using ih r1 [] (by simp at hn ⊢; omega)
      | cons b r2 =>
        simp only [List.length_cons] at hn
        rw [unionOrder]
        split_ifs
        · exact (ih r1 (b::r2) (by simp; omega)).cons a
        · exact ((ih (a::r1) r2 (by simp; omega)).cons b).trans List.perm_middle.symm

lemma unionOrder_sorted (n : ℕ) (r1 r2 : List Box) (hn : r1.length + r2.length ≤ n)
    (h1 : r1.Pairwise (fun a b => a.x1 ≤ b.x1)) (h2 : r2.Pairwise (fun a b => a.x1 ≤ b.x1)) :
    (unionOrder n r1 r2).Pairwise (fun a b => a.x1 ≤ b.x1) := by
  induction n generalizing r1 r2 with
  | zero => simp [unionOrder]
  | succ n ih =>
    cases r1 with
    | nil =>
      cases r2 with
      | nil => simp [unionOrder]
      | cons b r2 =>
        obtain ⟨hb,h2⟩ := List.pairwise_cons.mp h2
        have hle : ([] : List Box).length + r2.length ≤ n := by simp at hn ⊢; omega
        refine List.pairwise_cons.mpr ⟨fun c hc => hb c ?_,ih [] r2 hle h1 h2⟩
        simpa using (unionOrder_perm n [] r2 hle).mem_iff.mp hc
    | cons a r1 =>
      cases r2 with
      | nil =>
        obtain ⟨ha,h1⟩ := List.pairwise_cons.mp h1
        have hle : r1.length + ([] : List Box).length ≤ n := by simp at hn ⊢; omega
        refine List.pairwise_cons.mpr ⟨fun c hc => ha c ?_,ih r1 [] hle h1 h2⟩
        simpa using (unionOrder_perm n r1 [] hle).mem_iff.mp hc
      | cons b r2 =>
        obtain ⟨ha,h1'⟩ := List.pairwise_cons.mp h1
        obtain ⟨hb,h2'⟩ := List.pairwise_cons.mp h2
        simp only [List.length_cons] at hn
        rw [unionOrder]
        split_ifs with hab
        · have hle : r1.length + (b::r2).length ≤ n := by simp; omega
          refine List.pairwise_cons.mpr ⟨fun c hc => ?_,ih r1 (b::r2) hle h1' h2⟩
          rcases List.mem_append.mp ((unionOrder_perm n r1 (b::r2) hle).mem_iff.mp hc) with hc | hc
          · exact ha c hc
          · rcases List.mem_cons.mp hc with rfl | hc
            · exact hab.le
            · exact hab.le.trans (hb c hc)
        · have hle : (a::r1).length + r2.length ≤ n := by simp; omega
          refine List.pairwise_cons.mpr ⟨fun c hc => ?_,ih (a::r1) r2 hle h1 h2'⟩
          rcases List.mem_append.mp ((unionOrder_perm n (a::r1) r2 hle).mem_iff.mp hc) with hc | hc
          · rcases List.mem_cons.mp hc with rfl | hc
            · exact not_lt.mp hab
            · exact (not_lt.mp hab).trans (ha c hc)
          · exact hb c hc

/-- `MERGERECT` over a list of boxes is the sweep over their spans; finished spans are written to
the array as boxes of the band. -/
lemma foldl_mergeRect (y1 y2 : ℤ) (boxes : List Box) (st : MergeState) (hd : st.d.Wf) (pre : List Box)
    (sw : SpanSweep) (hr : st.d.rects = pre ++ sw.out.map (fun s => ⟨s.1,y1,s.2,y2⟩))
    (hcur : sw.cur = (st.x1,st.x2)) (hov : sw.overlap = st.overlap) :
    let st' := boxes.foldl (mergeRect y1 y2) st
    let sw' := (boxes.map Box.span).foldl SpanSweep.add sw
    st'.d.Wf ∧ st'.d.rects = pre ++ sw'.out.map (fun s => ⟨s.1,y1,s.2,y2⟩) ∧
      sw'.cur = (st'.x1,st'.x2) ∧ sw'.overlap = st'.overlap := by
  induction boxes generalizing st sw with
  | nil => exact ⟨hd,hr,hcur,hov⟩
  | cons b boxes ih =>
    simp only [List.foldl_cons,List.map_cons]
    by_cases hle : b.x1 ≤ st.x2
    · refine ih _ ?_ _ ?_ ?_ ?_
      · simpa [mergeRect,hle] using hd
      · simpa [mergeRect,SpanSweep.add,hle,hcur,Box.span] using hr
      · simp [mergeRect,SpanSweep.add,hle,hcur,Box.span]
      · simp [mergeRect,SpanSweep.add,hle,hcur,Box.span,hov]
    · obtain ⟨h₁,h₂⟩ := RegData.newRect_spec hd ⟨st.x1,y1,st.x2,y2⟩
      refine ih _ ?_ _ ?_ ?_ ?_
      · simpa [mergeRect,hle] using h₂
      · simp [mergeRect,SpanSweep.add,hle,hcur,Box.span,h₁,hr]
      · simp [mergeRect,SpanSweep.add,hle,hcur,Box.span]
      · simp [mergeRect,SpanSweep.add,hle,hcur,Box.span,hov]

lemma spans_boxesOfBand (b : Band) : (boxesOfBand b).map Box.span = b.spans := by
  simp [boxesOfBand,Box.span,Function.comp_def]

lemma boxesOfBand_sorted {b : Band} (h : Separated b.spans) :
    (boxesOfBand b).Pairwise (fun r s => r.x1 ≤ s.x1) := by
  refine List.pairwise_map.mpr (List.Pairwise.imp_of_mem ?_ h.gaps)
  intro s t hs ht hst
  have := h.proper s hs
  dsimp only
  omega

lemma not_pairwise_apart_append {l m : List Span} (hl : Separated l) (hm : Separated m) :
    ¬ (l ++ m).Pairwise Apart ↔ ∃ x, InSpans x l ∧ InSpans x m := by
  rw [List.pairwise_append]
  simp only [hl.apart,hm.apart,true_and]
  constructor
  · intro h
    push Not at h
    obtain ⟨s,hs,t,ht,hst⟩ := h
    obtain ⟨x,h₁,h₂⟩ := (not_apart_iff (hl.proper s hs) (hm.proper t ht)).mp hst
    exact ⟨x,⟨s,hs,h₁⟩,t,ht,h₂⟩
  · rintro ⟨x,⟨s,hs,h₁⟩,t,ht,h₂⟩ hall
    exact (not_apart_iff (hl.proper s hs) (hm.proper t ht)).mpr ⟨x,h₁,h₂⟩ (hall s hs t ht)

/-- `RegionUnionO` appends one band with the union of both bands' spans, and raises the flag when
they have a common point. -/
theorem regionUnionO_spec (d : RegData) (hd : d.Wf) {a b : Band} (ha : a.Wf) (hb : b.Wf)
    (y1 y2 : ℤ) (ov : Bool) : ∃ spans, spans ≠ [] ∧ Separated spans ∧
      (∀ x, InSpans x spans ↔ InSpans x a.spans ∨ InSpans x b.spans) ∧
      (regionUnionO d (boxesOfBand a) (boxesOfBand b) y1 y2 ov).1.rects =
        d.rects ++ boxesOfBand ⟨y1,y2,spans⟩ ∧
      (regionUnionO d (boxesOfBand a) (boxesOfBand b) y1 y2 ov).1.Wf ∧
      ((regionUnionO d (boxesOfBand a) (boxesOfBand b) y1 y2 ov).2 = true ↔
        ov = true ∨ ∃ x, InSpans x a.spans ∧ InSpans x b.spans) := by
  obtain ⟨A,as,hA⟩ := List.exists_cons_of_ne_nil (l := boxesOfBand a) (by
    simpa [boxesOfBand] using ha.nonempty)
  obtain ⟨B,bs,hB⟩ := List.exists_cons_of_ne_nil (l := boxesOfBand b) (by
    simpa [boxesOfBand] using hb.nonempty)
  have hsA := boxesOfBand_sorted ha.separated
  have hsB := boxesOfBand_sorted hb.separated
  have hpA := spans_boxesOfBand a
  have hpB := spans_boxesOfBand b
  rw [hA] at hsA hpA ⊢
  rw [hB] at hsB hpB ⊢
  have hn : (A::as).length + (B::bs).length ≤ as.length+bs.length+1+1 := by simp; omega
  have hperm := (unionOrder_perm _ _ _ hn).map Box.span
  have hsort := unionOrder_sorted _ _ _ hn hsA hsB
  rw [List.map_append,hpA,hpB] at hperm
  -- The first box of the order starts the sweep, whichever band it comes from.
  obtain ⟨F,rest,hord,hcall⟩ : ∃ F rest, unionOrder (as.length+bs.length+1+1) (A::as) (B::bs) = F::rest ∧
      regionUnionO d (A::as) (B::bs) y1 y2 ov =
        ((rest.foldl (mergeRect y1 y2) ⟨d,F.x1,F.x2,ov⟩).d.newRect
          ⟨(rest.foldl (mergeRect y1 y2) ⟨d,F.x1,F.x2,ov⟩).x1,y1,
            (rest.foldl (mergeRect y1 y2) ⟨d,F.x1,F.x2,ov⟩).x2,y2⟩,
          (rest.foldl (mergeRect y1 y2) ⟨d,F.x1,F.x2,ov⟩).overlap) := by
    simp only [regionUnionO,unionOrder,unionLoop_eq]
    split_ifs with hab
    · exact ⟨A,_,rfl,rfl⟩
    · exact ⟨B,_,rfl,rfl⟩
  rw [hord] at hperm hsort
  rw [hcall]
  have hproper : ∀ s ∈ [F.span] ++ rest.map Box.span, s.1 < s.2 := by
    intro s hs
    rcases List.mem_append.mp (hperm.mem_iff.mp hs) with hs | hs
    · exact ha.separated.proper s hs
    · exact hb.separated.proper s hs
  have hsorted : ([F.span] ++ rest.map Box.span).Pairwise (fun s t => s.1 ≤ t.1) := by
    rw [List.singleton_append,← List.map_cons,List.pairwise_map]
    exact hsort
  have hinv := (SpanSweep.inv_start F.span (hproper F.span (by simp)) ov).foldl hproper hsorted
  obtain ⟨hwf,hrects,hcur,hov⟩ := foldl_mergeRect y1 y2 rest ⟨d,F.x1,F.x2,ov⟩ hd d.rects
    ⟨[],F.span,ov⟩ (by simp) rfl rfl
  obtain ⟨hnew,hnwf⟩ := RegData.newRect_spec hwf
    ⟨(rest.foldl (mergeRect y1 y2) ⟨d,F.x1,F.x2,ov⟩).x1,y1,
      (rest.foldl (mergeRect y1 y2) ⟨d,F.x1,F.x2,ov⟩).x2,y2⟩
  generalize (rest.map Box.span).foldl SpanSweep.add ⟨[],F.span,ov⟩ = sw at hinv hrects hcur hov
  refine ⟨sw.out ++ [sw.cur],by simp,hinv.separated,fun x => ?_,?_,hnwf,?_⟩
  · rw [hinv.covers x,← InSpans.append]
    simp only [InSpans,List.singleton_append,← List.map_cons,hperm.mem_iff]
  · dsimp only
    rw [hnew,hrects,List.append_assoc]
    simp [boxesOfBand,hcur]
  · dsimp only
    rw [← hov,hinv.overlap,List.singleton_append,← List.map_cons,
      hperm.pairwise_iff (fun h => (apart_comm _ _).mp h),
      not_pairwise_apart_append ha.separated hb.separated]

end UnionO
end Xlibre.Dix.Region
