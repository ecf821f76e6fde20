import Xlibre.Dix.Region.Validate

/-! Step 2 of `RegionValidate`: every box goes to one region, the regions stay banded, and the
boxes of the shared array are read before they are overwritten. -/
namespace Xlibre.Dix.Region
open Xlibre.Lib.Bands

/-- A change of an array that has room for one more box: at most one box is added, and nothing
behind it is touched. -/
def InPlace (d d' : RegData) : Prop := d.numRects < d.boxes.length →
  d'.boxes.length = d.boxes.length ∧ d'.numRects ≤ d.numRects+1 ∧
    ∀ i, d.numRects < i → d'.boxes[i]? = d.boxes[i]?

lemma inPlace_newRect {d c : RegData} (b : Box) (hl : c.boxes.length = d.boxes.length)
    (hn : c.numRects ≤ d.numRects) (hi : ∀ i, d.numRects ≤ i → c.boxes[i]? = d.boxes[i]?) :
    InPlace d (c.newRect b) := by
  intro hlt
  have hroom : c.rectAlloc 1 = c := by
    rw [RegData.rectAlloc,if_neg]
    simp only [RegData.size]
    omega
  rw [RegData.newRect,hroom]
  refine ⟨by simpa [RegData.addRect] using hl,by simpa [RegData.addRect] using hn,fun i hi' => ?_⟩
  simp only [RegData.addRect]
  rw [List.getElem?_set_ne (by omega)]
  exact hi i hi'.le

section Cases
variable {part : List Box} {rit : RegionInfo} {d : RegData} {out : List Band} {cur : Band}
  {init : List Span} {last : Span} {box : Box}

lemma InfoInv.merge (h : InfoInv part rit d out cur init last) (hok : box.Ok)
    (hy1 : box.y1 = cur.y1) (hy2 : box.y2 = cur.y2) (hx : last.1 ≤ box.x1) (hle : box.x1 ≤ last.2) :
    InfoInv (part ++ [box])
      ⟨⟨rit.reg.extents,.heap (d.setLast
        ⟨last.1,cur.y1,if box.x2 > last.2 then box.x2 else last.2,cur.y2⟩)⟩,rit.prevBand,rit.curBand⟩
      (d.setLast ⟨last.1,cur.y1,if box.x2 > last.2 then box.x2 else last.2,cur.y2⟩) out
      { cur with spans := init ++ [(last.1,if box.x2 > last.2 then box.x2 else last.2)] } init
      (last.1,if box.x2 > last.2 then box.x2 else last.2) := by
  have hn := h.numRects
  have hlp := h.last_proper
  have hxs := hok.xs
  have hsep := h.curWf.separated
  rw [h.spans] at hsep
  obtain ⟨hgi,_,hgx⟩ := List.pairwise_append.mp hsep.gaps
  have hrects := h.rects
  have hcov := h.covers
  have hb := h.bound
  obtain ⟨l,hl,hl1,hl2⟩ := h.lastLeft
  obtain ⟨r,hr,hr2⟩ := h.lastRight
  obtain ⟨t,ht,ht2⟩ := h.bottom
  obtain ⟨e,he,he1⟩ := h.extLeft
  obtain ⟨f,hf,hf1⟩ := h.extTop
  obtain ⟨g,hg,hg1⟩ := h.extRight
  generalize hm : (if box.x2 > last.2 then box.x2 else last.2) = m
  have hm₁ : last.2 ≤ m ∧ box.x2 ≤ m ∧ (m = box.x2 ∨ m = last.2) := by
    rw [← hm]
    split_ifs <;> omega
  refine ⟨rfl,by simpa [RegData.Wf,RegData.setLast] using h.wf,?_,h.banded,⟨h.curWf.rows,by simp,⟨?_,?_⟩⟩,rfl,h.above,
    h.prev,h.start,?_,fun x y => ?_,⟨l,by simp [hl],hl1,hl2⟩,?_,⟨t,by simp [ht],ht2⟩,⟨e,by simp [he],he1⟩,
    ⟨f,by simp [hf],hf1⟩,⟨g,by simp [hg],hg1⟩,?_⟩
  · have hold : d.boxes.take d.numRects = (boxesOf out ++ init.map (fun s => ⟨s.1,cur.y1,s.2,cur.y2⟩)) ++
        [⟨last.1,cur.y1,last.2,cur.y2⟩] := by
      have := h.rects
      rw [RegData.rects,boxesOfBand,h.spans] at this
      simpa using this
    rw [RegData.rects,RegData.setLast]
    dsimp only
    rw [List.take_set,hold,List.set_append_right _ _ (by simp; omega)]
    simp only [List.length_append,List.length_map,hn,Nat.add_sub_cancel,Nat.sub_self,
      List.set_cons_zero]
    simp [boxesOfBand]
  · intro s hs
    rcases List.mem_append.mp hs with hs | hs
    · exact hsep.proper s (by simp [hs])
    · rw [List.mem_singleton.mp hs]
      dsimp only
      omega
  · refine List.pairwise_append.mpr ⟨hgi,by simp,fun s hs u hu => ?_⟩
    rw [List.mem_singleton.mp hu]
    exact hgx s hs last (by simp)
  · intro b hb'
    rcases List.mem_append.mp hb' with hb' | hb'
    · exact h.ok b hb'
    · rw [List.mem_singleton.mp hb']; exact hok
  · rw [inBoxes_append,inBoxes_singleton,hcov x y,or_assoc]
    refine or_congr_right ?_
    unfold Band.Covers Box.Has
    dsimp only
    rw [h.spans,InSpans.append,InSpans.append,InSpans.singleton,InSpans.singleton]
    have hiff : (last.1 ≤ x ∧ x < m) ↔ (last.1 ≤ x ∧ x < last.2) ∨ (box.x1 ≤ x ∧ x < box.x2) := by
      omega
    rw [hiff]
    constructor
    · rintro (⟨h₁,h₂,h₃ | h₃⟩ | ⟨h₁,h₂,h₃,h₄⟩)
      · exact ⟨h₁,h₂,.inl h₃⟩
      · exact ⟨h₁,h₂,.inr (.inl h₃)⟩
      · exact ⟨by omega,by omega,.inr (.inr ⟨h₁,h₂⟩)⟩
    · rintro ⟨h₁,h₂,h₃ | h₃ | h₃⟩
      · exact .inl ⟨h₁,h₂,.inl h₃⟩
      · exact .inl ⟨h₁,h₂,.inr h₃⟩
      · exact .inr ⟨h₃.1,h₃.2,by omega,by omega⟩
  · rcases hm₁.2.2 with hm₂ | hm₂
    · exact ⟨box,by simp,hm₂.symm⟩
    · exact ⟨r,by simp [hr],by rw [hr2,← hm₂]⟩
  · intro b hb'
    dsimp only
    rcases List.mem_append.mp hb' with hb' | hb'
    · have := hb b hb'
      omega
    · rw [List.mem_singleton.mp hb']
      have h₁ := hb l hl
      have h₂ := hb t ht
      omega

lemma InfoInv.extend (h : InfoInv part rit d out cur init last) (hok : box.Ok)
    (hy1 : box.y1 = cur.y1) (hy2 : box.y2 = cur.y2) (hlt : last.2 < box.x1) :
    InfoInv (part ++ [box]) { rit with reg := { rit.reg with data := .heap (d.newRect box) } }
      (d.newRect box) out { cur with spans := cur.spans ++ [(box.x1,box.x2)] } cur.spans
      (box.x1,box.x2) := by
  have hsep := h.curWf.separated
  have hlp := h.last_proper
  have hxs := hok.xs
  obtain ⟨hrects,hwf⟩ := RegData.newRect_spec h.wf box
  obtain ⟨l,hl,hl1,hl2⟩ := h.lastLeft
  obtain ⟨t,ht,ht2⟩ := h.bottom
  obtain ⟨e,he,he1⟩ := h.extLeft
  obtain ⟨f,hf,hf1⟩ := h.extTop
  obtain ⟨g,hg,hg1⟩ := h.extRight
  refine ⟨rfl,hwf,?_,h.banded,⟨h.curWf.rows,by simp,⟨?_,?_⟩⟩,rfl,h.above,h.prev,h.start,?_,
    fun x y => ?_,⟨box,by simp,hy1,rfl⟩,⟨box,by simp,rfl⟩,⟨t,by simp [ht],ht2⟩,⟨e,by simp [he],he1⟩,
    ⟨f,by simp [hf],hf1⟩,⟨g,by simp [hg],hg1⟩,?_⟩
  · rw [hrects,h.rects]
    obtain ⟨x1,y1,x2,y2⟩ := box
    simp only at hy1 hy2
    simp [boxesOfBand,hy1,hy2]
  · intro s hs
    rcases List.mem_append.mp hs with hs | hs
    · exact hsep.proper s hs
    · rw [List.mem_singleton.mp hs]; exact hxs
  · refine List.pairwise_append.mpr ⟨hsep.gaps,by simp,fun s hs u hu => ?_⟩
    rw [List.mem_singleton.mp hu]
    rw [h.spans] at hs
    rcases List.mem_append.mp hs with hs | hs
    · have hg := hsep.gaps
      rw [h.spans] at hg
      have := (List.pairwise_append.mp hg).2.2 s hs last (by simp)
      dsimp only
      omega
    · rw [List.mem_singleton.mp hs]
      exact hlt
  · intro b hb'
    rcases List.mem_append.mp hb' with hb' | hb'
    · exact h.ok b hb'
    · rw [List.mem_singleton.mp hb']; exact hok
  · rw [inBoxes_append,inBoxes_singleton,h.covers x y,or_assoc]
    refine or_congr_right ?_
    unfold Band.Covers Box.Has
    dsimp only
    rw [InSpans.append,InSpans.singleton]
    constructor
    · rintro (⟨h₁,h₂,h₃⟩ | ⟨h₁,h₂,h₃,h₄⟩)
      · exact ⟨h₁,h₂,.inl h₃⟩
      · exact ⟨by omega,by omega,.inr ⟨h₁,h₂⟩⟩
    · rintro ⟨h₁,h₂,h₃ | h₃⟩
      · exact .inl ⟨h₁,h₂,h₃⟩
      · exact .inr ⟨h₃.1,h₃.2,by omega,by omega⟩
  · intro b hb'
    dsimp only
    rcases List.mem_append.mp hb' with hb' | hb'
    · have := h.bound b hb'
      omega
    · rw [List.mem_singleton.mp hb']
      have h₁ := h.bound l hl
      have h₂ := h.bound t ht
      omega

lemma InfoInv.coalesced (h : InfoInv part rit d out cur init last) :
    Banded (appendBand out cur) ∧
    (d.coalesce rit.prevBand rit.curBand).1.rects = boxesOf (appendBand out cur) ∧
    (d.coalesce rit.prevBand rit.curBand).1.Wf ∧
    (d.coalesce rit.prevBand rit.curBand).2 = lastStart (appendBand out cur) ∧
    (d.coalesce rit.prevBand rit.curBand).1.boxes.length = d.boxes.length ∧
    (d.coalesce rit.prevBand rit.curBand).1.numRects ≤ d.numRects ∧
    ∀ i, d.numRects ≤ i → (d.coalesce rit.prevBand rit.curBand).1.boxes[i]? = d.boxes[i]? := by
  rw [h.prev,h.start]
  exact ⟨h.banded.appendBand h.curWf h.above,coalesce_spec d h.wf out cur h.curWf.nonempty
    (fun b hb => (h.banded.wf b hb).nonempty) h.rects⟩

lemma InfoInv.newBand (h : InfoInv part rit d out cur init last) (hok : box.Ok)
    (hy : cur.y2 ≤ box.y1) :
    InfoInv (part ++ [box])
      ⟨⟨{ rit.reg.extents with
          x2 := if rit.reg.extents.x2 < last.2 then last.2 else rit.reg.extents.x2
          x1 := if rit.reg.extents.x1 > box.x1 then box.x1 else rit.reg.extents.x1 },
        .heap ((d.coalesce rit.prevBand rit.curBand).1.newRect box)⟩,
        (d.coalesce rit.prevBand rit.curBand).2,(d.coalesce rit.prevBand rit.curBand).1.numRects⟩
      ((d.coalesce rit.prevBand rit.curBand).1.newRect box) (appendBand out cur)
      ⟨box.y1,box.y2,[(box.x1,box.x2)]⟩ [] (box.x1,box.x2) := by
  obtain ⟨hband,hrects,hwf,hprev,_,_,_⟩ := h.coalesced
  obtain ⟨hnew,hnwf⟩ := RegData.newRect_spec hwf box
  have hrows := h.curWf.rows
  have hys := hok.ys
  obtain ⟨r,hr,hr2⟩ := h.lastRight
  obtain ⟨e,he,he1⟩ := h.extLeft
  obtain ⟨f,hf,hf1⟩ := h.extTop
  obtain ⟨g,hg,hg1⟩ := h.extRight
  refine ⟨rfl,hnwf,?_,hband,⟨hys,by simp,⟨by simpa using hok.xs,by simp⟩⟩,rfl,?_,hprev,?_,?_,
    fun x y => ?_,⟨box,by simp,rfl,rfl⟩,⟨box,by simp,rfl⟩,⟨box,by simp,rfl⟩,?_,⟨f,by simp [hf],hf1⟩,?_,?_⟩
  · rw [hnew,hrects]
    simp [boxesOfBand]
  · intro b hb
    have := bottom_appendBand h.above h.curWf b hb
    dsimp only
    omega
  · rw [← hrects,RegData.length_rects hwf]
  · intro b hb'
    rcases List.mem_append.mp hb' with hb' | hb'
    · exact h.ok b hb'
    · rw [List.mem_singleton.mp hb']; exact hok
  · rw [inBoxes_append,inBoxes_singleton,h.covers x y,covered_appendBand h.banded h.curWf]
    refine or_congr_right ?_
    unfold Band.Covers Box.Has
    dsimp only
    rw [InSpans.singleton]
    constructor
    · rintro ⟨h₁,h₂,h₃,h₄⟩
      exact ⟨h₃,h₄,h₁,h₂⟩
    · rintro ⟨h₁,h₂,h₃,h₄⟩
      exact ⟨h₃,h₄,h₁,h₂⟩
  · dsimp only
    split_ifs
    · exact ⟨box,by simp,rfl⟩
    · exact ⟨e,by simp [he],he1⟩
  · dsimp only
    split_ifs
    · exact ⟨r,by simp [hr],hr2⟩
    · exact ⟨g,by simp [hg],hg1⟩
  · intro b hb'
    dsimp only
    rcases List.mem_append.mp hb' with hb' | hb'
    · have := h.bound b hb'
      split_ifs <;> omega
    · rw [List.mem_singleton.mp hb']
      have := h.bound f hf
      have h₂ := (h.ok f hf).ys
      split_ifs <;> omega

end Cases

/-- Some way to read a region under construction as the boxes of `part`. -/
def Builds (part : List Box) (rit : RegionInfo) : Prop :=
  ∃ d out cur init last, InfoInv part rit d out cur init last

lemma Builds.tryAdd {part : List Box} {rit rit' : RegionInfo} {box : Box} {o : Bool}
    (h : Builds part rit) (hok : box.Ok) (hsorted : ∀ b ∈ part, ¬ boxLt box b)
    (ht : rit.tryAdd box = some (rit',o)) :
    Builds (part ++ [box]) rit' ∧ (o = true ↔ ∃ b ∈ part, ¬ Disj b box) ∧
      InPlace rit.reg.regData rit'.reg.regData := by
  obtain ⟨d,out,cur,init,last,h⟩ := h
  have hdata := h.regData
  have hbox := h.lastBox
  obtain ⟨l,hl,hl1,hl2⟩ := h.lastLeft
  unfold RegionInfo.tryAdd at ht
  simp only [hdata,hbox] at ht
  by_cases hband : box.y1 = cur.y1 ∧ box.y2 = cur.y2
  · have hx : last.1 ≤ box.x1 := by
      have := hsorted l hl
      unfold boxLt at this
      omega
    rw [if_pos hband] at ht
    by_cases hle : box.x1 ≤ last.2
    · rw [if_pos hle] at ht
      cases ht
      refine ⟨⟨_,_,_,_,_,h.merge hok hband.1 hband.2 hx hle⟩,?_,?_⟩
      · rw [h.meets_same hok hband.1 hband.2 hx,decide_eq_true_eq]
      · have hn := h.numRects
        rw [hdata]
        refine fun _ => ⟨by simp [RegionRec.regData,RegData.setLast],
          by simp [RegionRec.regData,RegData.setLast],fun i hi => ?_⟩
        simp only [RegionRec.regData,RegData.setLast]
        rw [List.getElem?_set_ne (by omega)]
    · rw [if_neg hle] at ht
      cases ht
      refine ⟨⟨_,_,_,_,_,h.extend hok hband.1 hband.2 (by omega)⟩,?_,?_⟩
      · rw [h.meets_same hok hband.1 hband.2 hx]
        simp only [Bool.false_eq_true,false_iff]
        omega
      · rw [hdata]
        exact inPlace_newRect box rfl le_rfl (fun _ _ => rfl)
  · rw [if_neg hband] at ht
    by_cases hy : box.y1 ≥ cur.y2
    · rw [if_pos hy] at ht
      cases ht
      refine ⟨⟨_,_,_,_,_,h.newBand hok hy⟩,?_,?_⟩
      · simpa using h.meets_below hy
      · obtain ⟨_,_,_,_,h₁,h₂,h₃⟩ := h.coalesced
        rw [hdata]
        exact inPlace_newRect box h₁ h₂ h₃
    · rw [if_neg hy] at ht
      cases ht

lemma builds_newRegion {box : Box} (hok : box.Ok) (n : ℕ) : Builds [box] (newRegion box n) := by
  refine ⟨⟨box::List.replicate n emptyBox,1⟩,[],⟨box.y1,box.y2,[(box.x1,box.x2)]⟩,[],(box.x1,box.x2),?_⟩
  refine ⟨rfl,by simp [RegData.Wf],by simp [RegData.rects,boxesOfBand],⟨by simp,by simp,by simp⟩,
    ⟨hok.ys,by simp,⟨by simpa using hok.xs,by simp⟩⟩,rfl,by simp,rfl,rfl,by simpa using hok,fun x y => ?_,
    ⟨box,by simp⟩,⟨box,by simp⟩,⟨box,by simp⟩,⟨box,by simp,rfl⟩,⟨box,by simp,rfl⟩,⟨box,by simp,rfl⟩,?_⟩
  · rw [inBoxes_singleton]
    simp only [Covered,Band.Covers,InSpans.singleton,Box.Has,List.not_mem_nil,false_and,
      exists_false,false_or]
    omega
  · intro b hb
    rw [List.mem_singleton.mp hb]
    simp [newRegion,RegionRec.regionRectAlloc]

/-- Two boxes of one part meet. -/
def Overlapping (parts : List (List Box)) : Prop := ∃ p ∈ parts, ¬ p.Pairwise Disj

lemma overlapping_cons (p : List Box) (parts : List (List Box)) :
    Overlapping (p::parts) ↔ ¬ p.Pairwise Disj ∨ Overlapping parts := by
  simp [Overlapping]

lemma overlapping_append (l m : List (List Box)) :
    Overlapping (l ++ m) ↔ Overlapping l ∨ Overlapping m := by
  simp only [Overlapping,List.mem_append,or_and_right,exists_or]

lemma not_pairwise_concat (p : List Box) (box : Box) :
    ¬ (p ++ [box]).Pairwise Disj ↔ ¬ p.Pairwise Disj ∨ ∃ b ∈ p, ¬ Disj b box := by
  rw [List.pairwise_append]
  simp only [List.pairwise_singleton,List.mem_singleton,forall_eq,true_and,not_and_or,not_forall,
    exists_prop]

lemma placeBox_spec {box : Box} (hok : box.Ok) {parts : List (List Box)} {ri ri' : List RegionInfo}
    {o : Bool} (h : List.Forall₂ Builds parts ri) (hsorted : ∀ p ∈ parts, ∀ b ∈ p, ¬ boxLt box b)
    (hp : placeBox box ri = some (ri',o)) :
    ∃ parts', List.Forall₂ Builds parts' ri' ∧ parts'.flatten.Perm (parts.flatten ++ [box]) ∧
      (Overlapping parts' ↔ Overlapping parts ∨ o = true) ∧ InPlace (firstData ri) (firstData ri') ∧
      ri' ≠ [] := by
  induction h generalizing ri' with
  | nil => cases hp
  | @cons p rit parts ri hb hrest ih =>
    rw [placeBox] at hp
    cases ht : rit.tryAdd box with
    | some r =>
      obtain ⟨rit',o'⟩ := r
      rw [ht] at hp
      cases hp
      obtain ⟨h₁,h₂,h₃⟩ := hb.tryAdd hok (hsorted p (by simp)) ht
      refine ⟨(p ++ [box])::parts,.cons h₁ hrest,?_,?_,h₃,by simp⟩
      · simp only [List.flatten_cons,List.append_assoc]
        exact List.Perm.append_left _ List.perm_append_comm
      · rw [overlapping_cons,overlapping_cons,not_pairwise_concat,h₂]
        exact or_right_comm
    | none =>
      rw [ht] at hp
      obtain ⟨⟨ri₁,o₁⟩,hp₁,he⟩ := Option.map_eq_some_iff.mp hp
      cases he
      obtain ⟨parts',h₁,h₂,h₃,_,_⟩ := ih (fun q hq => hsorted q (by simp [hq])) hp₁
      refine ⟨p::parts',.cons hb h₁,?_,?_,fun hlt => ⟨rfl,by simp [firstData],fun _ _ => rfl⟩,by simp⟩
      · simp only [List.flatten_cons,List.append_assoc]
        exact h₂.append_left p
      · rw [overlapping_cons,overlapping_cons,h₃,or_assoc]

/-- Step 2 places every box of the sorted array. The first region never holds more boxes than
have been read, so those still to be read are intact. -/
theorem scatter_spec (orig : List Box) (hok : ∀ b ∈ orig, b.Ok)
    (hsorted : orig.Pairwise (fun a b => ¬ boxLt b a)) (i k : ℕ) (hk : k + i = orig.length)
    (parts : List (List Box)) (ri : List RegionInfo) (ov : Bool) (hne : ri ≠ [])
    (h : List.Forall₂ Builds parts ri) (hperm : parts.flatten.Perm (orig.take k))
    (hov : ov = true ↔ Overlapping parts) (hnum : (firstData ri).numRects ≤ k)
    (hlen : orig.length ≤ (firstData ri).boxes.length)
    (hread : ∀ m, k ≤ m → m < orig.length → (firstData ri).boxes[m]? = orig[m]?) :
    ∃ parts', List.Forall₂ Builds parts' (scatter i k ri ov).1 ∧ (scatter i k ri ov).1 ≠ [] ∧
      parts'.flatten.Perm orig ∧ ((scatter i k ri ov).2 = true ↔ Overlapping parts') := by
  induction i generalizing k parts ri ov with
  | zero =>
    refine ⟨parts,h,hne,?_,hov⟩
    rwa [List.take_of_length_le (by omega)] at hperm
  | succ i ih =>
    have hklt : k < orig.length := by omega
    have hbox : (firstData ri).box k = orig[k] := by
      rw [RegData.box,List.getD_eq_getElem?_getD,hread k le_rfl hklt,List.getElem?_eq_getElem hklt]
      rfl
    have hbok : ((firstData ri).box k).Ok := by
      rw [hbox]
      exact hok _ (List.getElem_mem hklt)
    have htake : orig.take (k+1) = orig.take k ++ [(firstData ri).box k] := by
      rw [List.take_add_one,List.getElem?_eq_getElem hklt,hbox]
      rfl
    have hbefore : ∀ p ∈ parts, ∀ b ∈ p, ¬ boxLt ((firstData ri).box k) b := by
      intro p hp b hb
      have hmem := hperm.mem_iff.mp (List.mem_flatten.mpr ⟨p,hp,hb⟩)
      have hs := hsorted
      rw [← List.take_append_drop (k+1) orig,htake] at hs
      exact (List.pairwise_append.mp (List.pairwise_append.mp hs).1).2.2 b hmem _ (by simp)
    rw [scatter]
    dsimp only
    cases hp : placeBox ((firstData ri).box k) ri with
    | some r =>
      obtain ⟨ri',o⟩ := r
      obtain ⟨parts',h₁,h₂,h₃,h₄,h₅⟩ := placeBox_spec hbok h hbefore hp
      obtain ⟨hl,hn,hkeep⟩ := h₄ (by omega)
      refine ih (k+1) (by omega) parts' ri' (ov || o) h₅ h₁ ?_ ?_ (by omega) (by omega) ?_
      · rw [htake]
        exact h₂.trans (hperm.append_right _)
      · rw [Bool.or_eq_true,hov,h₃]
      · intro m hm hm'
        rw [hkeep m (by omega)]
        exact hread m (by omega) hm'
    | none =>
      obtain ⟨rit,rest,rfl⟩ := List.exists_cons_of_ne_nil hne
      refine ih (k+1) (by omega) (parts ++ [[(firstData (rit::rest)).box k]]) _ ov (by simp) ?_ ?_ ?_
        (by simpa [firstData] using hnum.trans (Nat.le_succ k)) hlen ?_
      · exact List.rel_append h (.cons (builds_newRegion hbok _) .nil)
      · rw [htake,List.flatten_append]
        simpa using hperm.append_right _
      · rw [hov,overlapping_append,overlapping_cons]
        simp [Overlapping]
      · intro m hm hm'
        exact hread m (by omega) hm'

end Xlibre.Dix.Region
