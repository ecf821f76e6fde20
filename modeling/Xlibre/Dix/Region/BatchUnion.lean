import Xlibre.Dix.Region.Scatter

/-! Step 3 of `RegionValidate` and the whole batch union: points, normal form, extents and the
overlap flag. -/
namespace Xlibre.Dix.Region
open Xlibre.Lib.Bands

section Bounding
variable {l m : List Box} {e f : Box}

lemma BoundingBox.of_points (h : BoundingBox l e) (hl : ∀ b ∈ l, b.Ok) (hm : ∀ b ∈ m, b.Ok)
    (hp : ∀ x y, InBoxes l x y ↔ InBoxes m x y) : BoundingBox m e := by
  have hin : ∀ b ∈ m, (∃ c ∈ l, c.Has b.x1 b.y1) ∧ ∃ c ∈ l, c.Has (b.x2-1) (b.y2-1) := by
    intro b hb
    have hx := (hm b hb).xs
    have hy := (hm b hb).ys
    exact ⟨(hp _ _).mpr ⟨b,hb,by unfold Box.Has; omega⟩,(hp _ _).mpr ⟨b,hb,by unfold Box.Has; omega⟩⟩
  have hout : ∀ b ∈ l, (∃ c ∈ m, c.Has b.x1 b.y1) ∧ ∃ c ∈ m, c.Has (b.x2-1) (b.y2-1) := by
    intro b hb
    have hx := (hl b hb).xs
    have hy := (hl b hb).ys
    exact ⟨(hp _ _).mp ⟨b,hb,by unfold Box.Has; omega⟩,(hp _ _).mp ⟨b,hb,by unfold Box.Has; omega⟩⟩
  have hbound : ∀ b ∈ m, e.x1 ≤ b.x1 ∧ e.y1 ≤ b.y1 ∧ b.x2 ≤ e.x2 ∧ b.y2 ≤ e.y2 := by
    intro b hb
    obtain ⟨⟨c,hc,hc'⟩,d,hd,hd'⟩ := hin b hb
    have h₁ := h.bound c hc
    have h₂ := h.bound d hd
    unfold Box.Has at hc' hd'
    omega
  refine ⟨hbound,?_,?_,?_,?_⟩
  · obtain ⟨b,hb,he⟩ := h.left
    obtain ⟨⟨c,hc,hc'⟩,_⟩ := hout b hb
    have := hbound c hc
    unfold Box.Has at hc'
    exact ⟨c,hc,by omega⟩
  · obtain ⟨b,hb,he⟩ := h.top
    obtain ⟨⟨c,hc,hc'⟩,_⟩ := hout b hb
    have := hbound c hc
    unfold Box.Has at hc'
    exact ⟨c,hc,by omega⟩
  · obtain ⟨b,hb,he⟩ := h.right
    obtain ⟨_,c,hc,hc'⟩ := hout b hb
    have := hbound c hc
    unfold Box.Has at hc'
    exact ⟨c,hc,by omega⟩
  · obtain ⟨b,hb,he⟩ := h.bot
    obtain ⟨_,c,hc,hc'⟩ := hout b hb
    have := hbound c hc
    unfold Box.Has at hc'
    exact ⟨c,hc,by omega⟩

lemma BoundingBox.unique (h : BoundingBox l e) (h' : BoundingBox l f) : e = f := by
  obtain ⟨b₁,hb₁,he₁⟩ := h.left
  obtain ⟨b₂,hb₂,he₂⟩ := h.top
  obtain ⟨b₃,hb₃,he₃⟩ := h.right
  obtain ⟨b₄,hb₄,he₄⟩ := h.bot
  obtain ⟨c₁,hc₁,hf₁⟩ := h'.left
  obtain ⟨c₂,hc₂,hf₂⟩ := h'.top
  obtain ⟨c₃,hc₃,hf₃⟩ := h'.right
  obtain ⟨c₄,hc₄,hf₄⟩ := h'.bot
  have h₁ := h'.bound b₁ hb₁
  have h₂ := h'.bound b₂ hb₂
  have h₃ := h'.bound b₃ hb₃
  have h₄ := h'.bound b₄ hb₄
  have g₁ := h.bound c₁ hc₁
  have g₂ := h.bound c₂ hc₂
  have g₃ := h.bound c₃ hc₃
  have g₄ := h.bound c₄ hc₄
  obtain ⟨x1,y1,x2,y2⟩ := e
  obtain ⟨u1,v1,u2,v2⟩ := f
  simp only [Box.mk.injEq]
  dsimp only at *
  omega

lemma BoundingBox.hull (h : BoundingBox l e) (h' : BoundingBox m f) :
    BoundingBox (l ++ m) (Region.hull e f) := by
  obtain ⟨b₁,hb₁,he₁⟩ := h.left
  obtain ⟨b₂,hb₂,he₂⟩ := h.top
  obtain ⟨b₃,hb₃,he₃⟩ := h.right
  obtain ⟨b₄,hb₄,he₄⟩ := h.bot
  obtain ⟨c₁,hc₁,hf₁⟩ := h'.left
  obtain ⟨c₂,hc₂,hf₂⟩ := h'.top
  obtain ⟨c₃,hc₃,hf₃⟩ := h'.right
  obtain ⟨c₄,hc₄,hf₄⟩ := h'.bot
  refine ⟨fun b hb => ?_,?_,?_,?_,?_⟩
  · unfold Region.hull
    dsimp only
    rcases List.mem_append.mp hb with hb | hb
    · have := h.bound b hb
      refine ⟨?_,?_,?_,?_⟩ <;> split_ifs <;> omega
    · have := h'.bound b hb
      refine ⟨?_,?_,?_,?_⟩ <;> split_ifs <;> omega
  · unfold Region.hull
    dsimp only
    split_ifs
    · exact ⟨c₁,by simp [hc₁],hf₁⟩
    · exact ⟨b₁,by simp [hb₁],he₁⟩
  · unfold Region.hull
    dsimp only
    split_ifs
    · exact ⟨c₂,by simp [hc₂],hf₂⟩
    · exact ⟨b₂,by simp [hb₂],he₂⟩
  · unfold Region.hull
    dsimp only
    split_ifs
    · exact ⟨c₃,by simp [hc₃],hf₃⟩
    · exact ⟨b₃,by simp [hb₃],he₃⟩
  · unfold Region.hull
    dsimp only
    split_ifs
    · exact ⟨c₄,by simp [hc₄],hf₄⟩
    · exact ⟨b₄,by simp [hb₄],he₄⟩

lemma boundingBox_singleton (b : Box) : BoundingBox [b] b :=
  ⟨by simp,⟨b,by simp⟩,⟨b,by simp⟩,⟨b,by simp⟩,⟨b,by simp⟩⟩

end Bounding

section Boxes
variable {R : List Band}

lemma inBoxes_boxesOf (R : List Band) (x y : ℤ) : InBoxes (boxesOf R) x y ↔ Covered R x y := by
  constructor
  · rintro ⟨b,hb,h⟩
    obtain ⟨c,hc,hb⟩ := List.mem_flatMap.mp hb
    obtain ⟨s,hs,rfl⟩ := List.mem_map.mp hb
    exact ⟨c,hc,h.2.2.1,h.2.2.2,s,hs,h.1,h.2.1⟩
  · rintro ⟨c,hc,h₁,h₂,s,hs,h₃,h₄⟩
    exact ⟨⟨s.1,c.y1,s.2,c.y2⟩,List.mem_flatMap.mpr ⟨c,hc,List.mem_map.mpr ⟨s,hs,rfl⟩⟩,h₃,h₄,h₁,h₂⟩

lemma ok_boxesOf (h : Banded R) : ∀ b ∈ boxesOf R, b.Ok := by
  intro b hb
  obtain ⟨c,hc,hb⟩ := List.mem_flatMap.mp hb
  obtain ⟨s,hs,rfl⟩ := List.mem_map.mp hb
  exact ⟨(h.wf c hc).separated.proper s hs,(h.wf c hc).rows⟩

end Boxes

/-- A finished region stands for the boxes of `part`. -/
structure PartOk (part : List Box) (reg : RegionRec) : Prop where
  ok : ∀ b ∈ part, b.Ok
  region : ∃ R, IsRegion reg R ∧ ∀ x y, InBoxes part x y ↔ Covered R x y
  extents : BoundingBox part reg.extents

lemma Builds.finish {part : List Box} {rit : RegionInfo} (h : Builds part rit) :
    PartOk part (finishRegion rit) := by
  obtain ⟨d,out,cur,init,last,h⟩ := h
  obtain ⟨hband,hrects,hwf,_,_,_,_⟩ := h.coalesced
  have hcov : ∀ x y, InBoxes part x y ↔ Covered (appendBand out cur) x y := by
    intro x y
    rw [h.covers x y,covered_appendBand h.banded h.curWf]
  have hbox := h.lastBox
  obtain ⟨r,hr,hr2⟩ := h.lastRight
  obtain ⟨g,hg,hg1⟩ := h.extRight
  have hext : BoundingBox part { rit.reg.extents with
      y2 := cur.y2
      x2 := if rit.reg.extents.x2 < last.2 then last.2 else rit.reg.extents.x2 } := by
    refine ⟨fun b hb => ?_,h.extLeft,h.extTop,?_,h.bottom⟩
    · have := h.bound b hb
      dsimp only
      split_ifs <;> omega
    · dsimp only
      split_ifs
      · exact ⟨r,hr,hr2⟩
      · exact ⟨g,hg,hg1⟩
  have hne : appendBand out cur ≠ [] := by
    obtain ⟨l',a,he,_⟩ := exists_appendBand out cur
    rw [he]
    simp
  have hlen : (d.coalesce rit.prevBand rit.curBand).1.numRects = (boxesOf (appendBand out cur)).length := by
    rw [← hrects,RegData.length_rects hwf]
  have hpos := List.length_pos_iff.mpr (boxesOf_ne_nil hband hne)
  refine ⟨h.ok,⟨appendBand out cur,?_,hcov⟩,?_⟩
  · unfold finishRegion
    simp only [h.regData,hbox]
    by_cases h1 : (d.coalesce rit.prevBand rit.curBand).1.numRects = 1
    · rw [if_pos h1]
      obtain ⟨b,hb⟩ := List.length_eq_one_iff.mp (hlen.symm.trans h1)
      -- One box is its own bounding box.
      have he : b = _ := (boundingBox_singleton b).unique (hext.of_points h.ok (by
        rw [← hb]; exact ok_boxesOf hband) (fun x y => by rw [hcov x y,← inBoxes_boxesOf,hb]))
      refine ⟨hband,hne,?_,.inl ⟨rfl,?_⟩⟩
      · rw [hb,he]
        rfl
      · rw [hb,he]
    · rw [if_neg h1]
      exact ⟨hband,hne,hrects,.inr ⟨by omega,_,rfl,hwf⟩⟩
  · unfold finishRegion
    simp only [h.regData,hbox]
    by_cases h1 : (d.coalesce rit.prevBand rit.curBand).1.numRects = 1
    · rw [if_pos h1]
      exact hext
    · rw [if_neg h1]
      exact hext

def Meet (p q : List Box) : Prop := ∃ x y, InBoxes p x y ∧ InBoxes q x y

lemma not_pairwise_append_iff (p q : List Box) : ¬ (p ++ q).Pairwise Disj ↔
    ¬ p.Pairwise Disj ∨ ¬ q.Pairwise Disj ∨ Meet p q := by
  rw [List.pairwise_append,not_and_or,not_and_or]
  refine or_congr_right (or_congr_right ?_)
  simp only [Disj,Meet,InBoxes,not_forall,not_not]
  constructor
  · rintro ⟨a,ha,b,hb,x,y,h₁,h₂⟩
    exact ⟨x,y,⟨a,ha,h₁⟩,b,hb,h₂⟩
  · rintro ⟨x,y,⟨a,ha,h₁⟩,b,hb,h₂⟩
    exact ⟨a,ha,b,hb,x,y,h₁,h₂⟩

lemma PartOk.not_broken {p : List Box} {reg : RegionRec} (h : PartOk p reg) :
    reg.data ≠ .brokenData := by
  obtain ⟨R,hR,_⟩ := h.region
  rcases hR.form with ⟨hf,_⟩ | ⟨_,d,hf,_⟩ <;> simp [hf]

lemma PartOk.mergePair {p q : List Box} {reg hreg : RegionRec} (h : PartOk p reg) (h' : PartOk q hreg)
    (ov : Bool) : PartOk (p ++ q) (mergePair reg hreg ov).1 ∧
      ((Region.mergePair reg hreg ov).2 = true ↔ ov = true ∨ Meet p q) := by
  obtain ⟨R1,hR1,hc1⟩ := h.region
  obtain ⟨R2,hR2,hc2⟩ := h'.region
  obtain ⟨R,hR,hcov,hflag,hext⟩ := regionOp_union hR1 hR2 ov
  have hok : ∀ b ∈ p ++ q, b.Ok := fun b hb => (List.mem_append.mp hb).elim (h.ok b) (h'.ok b)
  have hpts : ∀ x y, InBoxes (p ++ q) x y ↔ Covered R x y := by
    intro x y
    rw [inBoxes_append,hc1 x y,hc2 x y,hcov x y]
  refine ⟨?_,?_⟩
  · unfold Region.mergePair
    generalize regionOp regionUnionO true true reg hreg ov = r at hR hext
    rcases hR.form with ⟨hnull,hone⟩ | ⟨htwo,d,hheap,hwf⟩
    · have hbb : BoundingBox (p ++ q) r.1.extents := (boundingBox_singleton r.1.extents).of_points
        (by rw [← hone]; exact ok_boxesOf hR.banded) hok
        (fun x y => by rw [hpts x y,← hone,inBoxes_boxesOf])
      have hhull : BoundingBox (p ++ q) (Region.hull r.1.extents hreg.extents) := by
        have := hbb.hull h'.extents
        refine this.of_points (fun b hb => (List.mem_append.mp hb).elim (hok b) (h'.ok b)) hok ?_
        intro x y
        rw [inBoxes_append,inBoxes_append]
        tauto
      refine ⟨hok,⟨R,⟨hR.banded,hR.nonempty,?_,.inl ⟨hnull,?_⟩⟩,hpts⟩,hhull⟩
      · rw [hone,hbb.unique hhull]
        simp [RegionRec.rects,hnull]
      · rw [hone,hbb.unique hhull]
    · have he := hext (by rw [hheap]; simp)
      refine ⟨hok,⟨R,⟨hR.banded,hR.nonempty,?_,.inr ⟨htwo,d,hheap,hwf⟩⟩,hpts⟩,?_⟩
      · have := hR.rects
        simpa [RegionRec.rects,hheap] using this
      · dsimp only
        rw [he]
        exact h.extents.hull h'.extents
  · unfold Region.mergePair
    dsimp only
    rw [hflag]
    simp only [Meet,hc1,hc2]

lemma mergeLoop_spec (half : ℕ) (n : ℕ) (A B M C : List RegionRec) (pB pC : List (List Box)) (ov : Bool)
    (hB : List.Forall₂ PartOk pB B) (hC : List.Forall₂ PartOk pC C) (hBn : B.length = n)
    (hCn : C.length = n) (hM : M.length + n = half) :
    ∃ D M', (mergeLoop half n A.length ⟨A ++ B ++ (M ++ C),ov,true⟩).ri = A ++ D ++ M' ∧
      (mergeLoop half n A.length ⟨A ++ B ++ (M ++ C),ov,true⟩).ret = true ∧
      List.Forall₂ PartOk (List.zipWith (· ++ ·) pB pC) D ∧ D.length = n ∧
      ((mergeLoop half n A.length ⟨A ++ B ++ (M ++ C),ov,true⟩).overlap = true ↔
        ov = true ∨ ∃ pq ∈ pB.zip pC, Meet pq.1 pq.2) := by
  induction n generalizing A B M C pB pC ov with
  | zero =>
    obtain rfl := List.length_eq_zero_iff.mp hBn
    obtain rfl := List.length_eq_zero_iff.mp hCn
    cases hB
    cases hC
    exact ⟨[],M,by simp [mergeLoop],rfl,.nil,rfl,by simp [mergeLoop]⟩
  | succ n ih =>
    cases hB with
    | nil => simp at hBn
    | @cons p b pB B hb hB =>
      cases hC with
      | nil => simp at hCn
      | @cons q c pC C hc hC =>
        simp only [List.length_cons,Nat.add_right_cancel_iff] at hBn hCn
        obtain ⟨hpair,hflag⟩ := hb.mergePair hc ov
        have hlow : (A ++ b::B ++ (M ++ c::C)).getD A.length regionBreak = b := by
          simp [List.getD_eq_getElem?_getD]
        have hhigh : (A ++ b::B ++ (M ++ c::C)).getD (A.length+half) regionBreak = c := by
          rw [List.getD_eq_getElem?_getD,List.getElem?_append_right (by simp; omega),
            List.getElem?_append_right (by simp; omega)]
          have : A.length + half - (A ++ b::B).length - M.length = 0 := by simp; omega
          rw [this]
          rfl
        have hset : (A ++ b::B ++ (M ++ c::C)).set A.length (Region.mergePair b c ov).1 =
            (A ++ [(Region.mergePair b c ov).1]) ++ B ++ ((M ++ [c]) ++ C) := by
          simp
        have hdata : (true && decide (b.data ≠ .brokenData ∧ c.data ≠ .brokenData)) = true := by
          simp [hb.not_broken,hc.not_broken]
        rw [mergeLoop]
        dsimp only
        rw [hlow,hhigh,hset,hdata]
        obtain ⟨D,M',h₁,h₂,h₃,h₄,h₅⟩ := ih (A ++ [(Region.mergePair b c ov).1]) B (M ++ [c]) C pB pC
          (Region.mergePair b c ov).2 hB hC hBn hCn (by simp; omega)
        rw [List.length_append,List.length_singleton] at h₁ h₂ h₅
        refine ⟨(Region.mergePair b c ov).1::D,M',by rw [h₁]; simp,h₂,.cons hpair h₃,by simp [h₄],?_⟩
        rw [h₅,hflag,or_assoc]
        simp

lemma flatten_zipWith_perm (pB pC : List (List Box)) (h : pB.length = pC.length) :
    (List.zipWith (· ++ ·) pB pC).flatten.Perm (pB.flatten ++ pC.flatten) := by
  induction pB generalizing pC with
  | nil =>
    obtain rfl := List.length_eq_zero_iff.mp h.symm
    simp
  | cons p pB ih =>
    cases pC with
    | nil => simp at h
    | cons q pC =>
      simp only [List.length_cons,Nat.add_right_cancel_iff] at h
      simp only [List.zipWith_cons_cons,List.flatten_cons,List.append_assoc]
      refine List.Perm.append_left p ?_
      calc q ++ (List.zipWith (· ++ ·) pB pC).flatten
          |>.Perm (q ++ (pB.flatten ++ pC.flatten)) := (ih pC h).append_left q
        _ |>.Perm (pB.flatten ++ (q ++ pC.flatten)) := by
          rw [← List.append_assoc,← List.append_assoc]
          exact List.perm_append_comm.append_right _

lemma overlapping_zipWith (pB pC : List (List Box)) (h : pB.length = pC.length) :
    Overlapping (List.zipWith (· ++ ·) pB pC) ↔
      Overlapping pB ∨ Overlapping pC ∨ ∃ pq ∈ pB.zip pC, Meet pq.1 pq.2 := by
  induction pB generalizing pC with
  | nil =>
    obtain rfl := List.length_eq_zero_iff.mp h.symm
    simp [Overlapping]
  | cons p pB ih =>
    cases pC with
    | nil => simp at h
    | cons q pC =>
      simp only [List.length_cons,Nat.add_right_cancel_iff] at h
      rw [List.zipWith_cons_cons,overlapping_cons,overlapping_cons,overlapping_cons,ih pC h,
        not_pairwise_append_iff]
      simp only [List.zip_cons_cons,List.mem_cons,or_and_right,exists_or,exists_eq_left]
      tauto

/-- Step 3 leaves one region for all boxes. -/
theorem unionAll_spec (n : ℕ) (parts : List (List Box)) (regs : List RegionRec) (ov : Bool)
    (hn : regs.length ≤ n) (hne : regs ≠ []) (h : List.Forall₂ PartOk parts regs)
    (hov : ov = true ↔ Overlapping parts) :
    ∃ part, PartOk part ((unionAll n ⟨regs,ov,true⟩).ri.getD 0 regionBreak) ∧
      part.Perm parts.flatten ∧ (unionAll n ⟨regs,ov,true⟩).ret = true ∧
      ((unionAll n ⟨regs,ov,true⟩).overlap = true ↔ ¬ part.Pairwise Disj) := by
  induction n generalizing parts regs ov with
  | zero =>
    exact absurd (List.length_eq_zero_iff.mp (by omega)) hne
  | succ n ih =>
    rw [unionAll]
    dsimp only
    by_cases h1 : regs.length > 1
    · rw [if_pos h1]
      have hplen := h.length_eq
      -- The regions below `numRI % 2`, those that absorb, and those absorbed.
      have hA := List.forall₂_take (regs.length%2) h
      have hBC := List.forall₂_drop (regs.length%2) h
      have hB := List.forall₂_take (regs.length/2) hBC
      have hC := List.forall₂_drop (regs.length/2) hBC
      have hsplit : regs = regs.take (regs.length%2) ++ (regs.drop (regs.length%2)).take (regs.length/2) ++
          ([] ++ (regs.drop (regs.length%2)).drop (regs.length/2)) := by
        rw [List.nil_append,List.append_assoc,List.take_append_drop,List.take_append_drop]
      have hpsplit : parts = parts.take (regs.length%2) ++ (parts.drop (regs.length%2)).take (regs.length/2) ++
          (parts.drop (regs.length%2)).drop (regs.length/2) := by
        rw [List.append_assoc,List.take_append_drop,List.take_append_drop]
      have hAlen : (regs.take (regs.length%2)).length = regs.length%2 := by
        rw [List.length_take]
        omega
      have hBlen : ((regs.drop (regs.length%2)).take (regs.length/2)).length = regs.length/2 := by
        rw [List.length_take,List.length_drop]
        omega
      have hClen : ((regs.drop (regs.length%2)).drop (regs.length/2)).length = regs.length/2 := by
        rw [List.length_drop,List.length_drop]
        omega
      have hround := mergeLoop_spec (regs.length/2) (regs.length/2) (regs.take (regs.length%2))
        ((regs.drop (regs.length%2)).take (regs.length/2)) [] ((regs.drop (regs.length%2)).drop (regs.length/2))
        _ _ ov hB hC hBlen hClen (by simp)
      rw [← hsplit,hAlen] at hround
      obtain ⟨D,M',hri,hret,hD,hDlen,hflag⟩ := hround
      have hBCp := hB.length_eq.trans (hBlen.trans (hClen.symm.trans hC.length_eq.symm))
      generalize parts.take (regs.length%2) = pA at hA hpsplit
      generalize (parts.drop (regs.length%2)).take (regs.length/2) = pB at hB hD hflag hpsplit hBCp
      generalize (parts.drop (regs.length%2)).drop (regs.length/2) = pC at hC hD hflag hpsplit hBCp
      generalize hr : mergeLoop (regs.length/2) (regs.length/2) (regs.length%2) ⟨regs,ov,true⟩ = r
        at hri hret hflag
      obtain ⟨ri,ov',ret'⟩ := r
      dsimp only at hri hret hflag ⊢
      subst hret
      have htake : ri.take (regs.length-regs.length/2) = regs.take (regs.length%2) ++ D := by
        rw [hri]
        refine List.take_left' ?_
        rw [List.length_append,hAlen,hDlen]
        omega
      rw [htake]
      obtain ⟨part,hp,hperm,hret,hfin⟩ := ih (pA ++ List.zipWith (· ++ ·) pB pC)
        (regs.take (regs.length%2) ++ D) ov' (by rw [List.length_append,hAlen,hDlen]; omega)
        (by
          intro h0
          have := congrArg List.length h0
          rw [List.length_append,hAlen,hDlen] at this
          simp at this
          omega)
        (List.rel_append hA hD)
        (by
          rw [hflag,hov,hpsplit,overlapping_append,overlapping_append,overlapping_append,
            overlapping_zipWith pB pC hBCp]
          tauto)
      refine ⟨part,hp,hperm.trans ?_,hret,hfin⟩
      rw [hpsplit]
      simp only [List.flatten_append,List.append_assoc]
      exact (flatten_zipWith_perm pB pC hBCp).append_left _
    · rw [if_neg h1]
      have hlen : regs.length = 1 := by
        have := List.length_pos_iff.mpr hne
        omega
      obtain ⟨reg,rfl⟩ := List.length_eq_one_iff.mp hlen
      obtain ⟨part,rfl⟩ := List.length_eq_one_iff.mp (h.length_eq.trans hlen)
      cases h with
      | cons hp _ =>
        refine ⟨part,hp,by simp,rfl,?_⟩
        dsimp only
        rw [hov]
        simp [Overlapping]

section Valid

/-- `b` stands behind `a` in a banded array: further right in the same band, or in a later one. -/
def Before (a b : Box) : Prop := (a.y1 = b.y1 ∧ a.y2 = b.y2 ∧ a.x2 < b.x1) ∨ a.y2 ≤ b.y1

/-- Behind `a` in a banded array, where boxes of a band may touch. -/
def InOrder (a b : Box) : Prop := (a.y1 = b.y1 ∧ a.y2 = b.y2 ∧ a.x2 ≤ b.x1) ∨ a.y2 ≤ b.y1

lemma Before.inOrder {a b : Box} (h : Before a b) : InOrder a b := by
  unfold Before at h
  unfold InOrder
  omega

lemma boxesOf_before {R : List Band} (h : Banded R) : (boxesOf R).Pairwise Before := by
  refine List.pairwise_flatMap.mpr ⟨fun b hb => ?_,h.ordered.imp fun hab x hx y hy => ?_⟩
  · refine List.pairwise_map.mpr ((h.wf b hb).separated.gaps.imp fun hst => ?_)
    exact .inl ⟨rfl,rfl,hst⟩
  · obtain ⟨s,_,rfl⟩ := List.mem_map.mp hx
    obtain ⟨t,_,rfl⟩ := List.mem_map.mp hy
    exact .inr hab

lemma validFrom_spec (prev : Box) (l : List Box) (e : Box) (hok : ∀ b ∈ prev::l, b.Ok)
    (h : (prev::l).Pairwise InOrder) :
    ∃ e', RegionRec.validFrom prev l e = some e' ∧ e'.y1 = e.y1 ∧ e'.y2 = e.y2 ∧
      (e'.x1 ≤ e.x1 ∧ ∀ b ∈ l, e'.x1 ≤ b.x1) ∧ (e.x2 ≤ e'.x2 ∧ ∀ b ∈ l, b.x2 ≤ e'.x2) ∧
      (e'.x1 = e.x1 ∨ ∃ b ∈ l, b.x1 = e'.x1) ∧ (e'.x2 = e.x2 ∨ ∃ b ∈ l, b.x2 = e'.x2) := by
  induction l generalizing prev e with
  | nil => exact ⟨e,rfl,rfl,rfl,by simp,by simp,.inl rfl,.inl rfl⟩
  | cons next l ih =>
    obtain ⟨hprev,hrest⟩ := List.pairwise_cons.mp h
    have hn := hok next (by simp)
    have hp := hok prev (by simp)
    have hxs := hn.xs
    have hys := hn.ys
    have hpx := hp.xs
    have hpy := hp.ys
    have hb := hprev next (by simp)
    unfold InOrder at hb
    have hc₁ : ¬ (next.x1 ≥ next.x2 ∨ next.y1 ≥ next.y2) := by omega
    have hc₂ : ¬ (next.y1 < prev.y1 ∨
        (next.y1 = prev.y1 ∧ (next.x1 < prev.x2 ∨ next.y2 ≠ prev.y2))) := by omega
    obtain ⟨e',h₁,h₂,h₃,h₄,h₅,h₆,h₇⟩ := ih next { e with
      x1 := if next.x1 < e.x1 then next.x1 else e.x1
      x2 := if next.x2 > e.x2 then next.x2 else e.x2 } (fun b hb => hok b (by simp [List.mem_cons.mp hb])) hrest
    rw [RegionRec.validFrom,if_neg hc₁]
    dsimp only
    rw [if_neg hc₂]
    refine ⟨e',h₁,h₂,h₃,⟨?_,?_⟩,⟨?_,?_⟩,?_,?_⟩
    · have := h₄.1
      dsimp only at this
      split_ifs at this <;> omega
    · intro b hb
      rcases List.mem_cons.mp hb with rfl | hb
      · have := h₄.1
        dsimp only at this
        split_ifs at this <;> omega
      · exact h₄.2 b hb
    · have := h₅.1
      dsimp only at this
      split_ifs at this <;> omega
    · intro b hb
      rcases List.mem_cons.mp hb with rfl | hb
      · have := h₅.1
        dsimp only at this
        split_ifs at this <;> omega
      · exact h₅.2 b hb
    · rcases h₆ with h₆ | ⟨b,hb,h₆⟩
      · dsimp only at h₆
        split_ifs at h₆
        · exact .inr ⟨next,by simp,h₆.symm⟩
        · exact .inl h₆
      · exact .inr ⟨b,by simp [hb],h₆⟩
    · rcases h₇ with h₇ | ⟨b,hb,h₇⟩
      · dsimp only at h₇
        split_ifs at h₇
        · exact .inr ⟨next,by simp,h₇.symm⟩
        · exact .inl h₇
      · exact .inr ⟨b,by simp [hb],h₇⟩

lemma InOrder.y1_le {a b : Box} (h : InOrder a b) (ha : a.Ok) : a.y1 ≤ b.y1 := by
  have := ha.ys
  unfold InOrder at h
  omega

lemma InOrder.y2_le {a b : Box} (h : InOrder a b) (hb : b.Ok) : a.y2 ≤ b.y2 := by
  have := hb.ys
  unfold InOrder at h
  omega

/-- Boxes in order with their bounding box as extents pass the tests of `RegionIsValid`. -/
theorem regionIsValid_of_inOrder {reg : RegionRec} (hok : ∀ b ∈ reg.rects, b.Ok) (hpair : reg.rects.Pairwise InOrder)
    (he : BoundingBox reg.rects reg.extents) (hform : reg.rects.length = 1 → reg.data = .null) :
    reg.regionIsValid = true := by
  obtain ⟨b,hb,_⟩ := he.left
  have hb₁ := he.bound b hb
  have hb₂ := (hok b hb).xs
  have hb₃ := (hok b hb).ys
  unfold RegionRec.regionIsValid
  rw [if_neg (by omega)]
  cases hl : reg.rects with
  | nil => simp [hl] at hb
  | cons first rest =>
    cases rest with
    | nil => simpa using hform (by simp [hl])
    | cons second rest =>
      rw [hl] at hok hpair he
      obtain ⟨e',h₁,h₂,h₃,h₄,h₅,h₆,h₇⟩ := validFrom_spec first (second::rest)
        { first with y2 := ((first::second::rest).getLast (by simp)).y2 } hok hpair
      dsimp only at h₁ ⊢
      rw [h₁]
      have hlast := List.getLast_mem (l := first::second::rest) (by simp)
      have hinit := List.dropLast_append_getLast (l := first::second::rest) (by simp)
      generalize (first::second::rest).getLast (by simp) = last at h₃ hlast hinit
      have hbb : BoundingBox (first::second::rest) e' := by
        refine ⟨fun b hb => ⟨?_,?_,?_,?_⟩,?_,⟨first,by simp,h₂.symm⟩,?_,⟨last,hlast,h₃.symm⟩⟩
        · rcases List.mem_cons.mp hb with rfl | hb
          · exact h₄.1
          · exact h₄.2 b hb
        · rw [h₂]
          rcases List.mem_cons.mp hb with rfl | hb
          · exact le_rfl
          · exact ((List.pairwise_cons.mp hpair).1 b hb).y1_le (hok first (by simp))
        · rcases List.mem_cons.mp hb with rfl | hb
          · exact h₅.1
          · exact h₅.2 b hb
        · rw [h₃]
          rw [← hinit] at hb hpair
          rcases List.mem_append.mp hb with hb | hb
          · exact ((List.pairwise_append.mp hpair).2.2 b hb last (by simp)).y2_le (hok last hlast)
          · rw [List.mem_singleton.mp hb]
        · rcases h₆ with h₆ | ⟨b,hb,h₆⟩
          · exact ⟨first,by simp,h₆.symm⟩
          · exact ⟨b,by simp [List.mem_cons.mp hb],h₆⟩
        · rcases h₇ with h₇ | ⟨b,hb,h₇⟩
          · exact ⟨first,by simp,h₇.symm⟩
          · exact ⟨b,by simp [List.mem_cons.mp hb],h₇⟩
      simpa using hbb.unique he

/-- A finished region with its bounding box as extents is valid. -/
theorem regionIsValid_of_isRegion {reg : RegionRec} {R : List Band} (h : IsRegion reg R)
    (he : BoundingBox (boxesOf R) reg.extents) : reg.regionIsValid = true := by
  have hform := h.form
  rw [← h.rects] at he hform
  refine regionIsValid_of_inOrder ?_ ?_ he fun hone => ?_
  · rw [h.rects]
    exact ok_boxesOf h.banded
  · rw [h.rects]
    exact (boxesOf_before h.banded).imp Before.inOrder
  · rcases hform with ⟨hd,_⟩ | ⟨hlen,_⟩
    · exact hd
    · omega

end Valid

def SharePoint (l : List Box) : Prop :=
  ∃ (i j : ℕ) (a b : Box), i ≠ j ∧ l[i]? = some a ∧ l[j]? = some b ∧ ∃ x y, a.Has x y ∧ b.Has x y

lemma sharePoint_iff (l : List Box) : SharePoint l ↔ ¬ l.Pairwise Disj := by
  have hkey : l.Pairwise Disj ↔
      ∀ (i j : ℕ) (a b : Box), i < j → l[i]? = some a → l[j]? = some b → Disj a b := by
    rw [List.pairwise_iff_getElem]
    constructor
    · intro h i j a b hij hi hj
      obtain ⟨hi',rfl⟩ := List.getElem?_eq_some_iff.mp hi
      obtain ⟨hj',rfl⟩ := List.getElem?_eq_some_iff.mp hj
      exact h i j hi' hj' hij
    · intro h i j hi hj hij
      exact h i j _ _ hij (List.getElem?_eq_getElem hi) (List.getElem?_eq_getElem hj)
  rw [hkey]
  constructor
  · rintro ⟨i,j,a,b,hij,hi,hj,x,y,ha,hb⟩ hall
    rcases Nat.lt_or_gt_of_ne hij with hlt | hgt
    · exact hall i j a b hlt hi hj x y ⟨ha,hb⟩
    · exact hall j i b a hgt hj hi x y ⟨hb,ha⟩
  · intro h
    simp only [Disj,not_forall,not_not] at h
    obtain ⟨i,j,a,b,hij,hi,hj,x,y,ha,hb⟩ := h
    exact ⟨i,j,a,b,hij.ne,hi,hj,x,y,ha,hb⟩

lemma regionValidate_isRegion (extents : Box) (d : RegData) (hdeg : extents.x1 ≥ extents.x2)
    (hpos : 0 < d.numRects) (hwf : d.Wf) (hok : ∀ b ∈ d.rects, b.Ok) :
    ∃ reg overlap R, regionValidate ⟨extents,.heap d⟩ = some (true,reg,overlap) ∧ IsRegion reg R ∧
      (∀ x y, Covered R x y ↔ InBoxes d.rects x y) ∧ BoundingBox d.rects reg.extents ∧
      (overlap = true ↔ ¬ d.rects.Pairwise Disj) := by
  have hlen : d.rects.length = d.numRects := RegData.length_rects hwf
  obtain ⟨sorted,hsort,hperm,hord⟩ := quickSortRects_spec d.numRects d.rects (by omega) (by omega)
  have hslen : sorted.length = d.numRects := hperm.length_eq.trans hlen
  have hsok : ∀ b ∈ sorted, b.Ok := fun b hb => hok b (hperm.mem_iff.mp hb)
  obtain ⟨first,rest,rfl⟩ := List.exists_cons_of_ne_nil (List.ne_nil_of_length_pos (hslen ▸ hpos))
  have hfirst : (((first::rest) ++ d.boxes.drop d.numRects).getD 0 emptyBox) = first := by simp
  -- The first region starts out as the first box of the sorted array, which it shares.
  have hstart : Builds [first] ⟨⟨first,.heap ⟨(first::rest) ++ d.boxes.drop d.numRects,1⟩⟩,0,0⟩ := by
    refine ⟨⟨(first::rest) ++ d.boxes.drop d.numRects,1⟩,[],⟨first.y1,first.y2,[(first.x1,first.x2)]⟩,[],
      (first.x1,first.x2),?_⟩
    have hf := hsok first (by simp)
    refine ⟨rfl,by simp [RegData.Wf],by simp [RegData.rects,boxesOfBand],⟨by simp,by simp,by simp⟩,
      ⟨hf.ys,by simp,⟨by simpa using hf.xs,by simp⟩⟩,rfl,by simp,rfl,rfl,by simpa using hf,fun x y => ?_,
      ⟨first,by simp⟩,⟨first,by simp⟩,⟨first,by simp⟩,⟨first,by simp⟩,⟨first,by simp⟩,⟨first,by simp⟩,by simp⟩
    rw [inBoxes_singleton]
    simp only [Covered,Band.Covers,InSpans.singleton,Box.Has,List.not_mem_nil,false_and,
      exists_false,false_or]
    omega
  obtain ⟨parts,hbuild,hne,hflat,hov⟩ := scatter_spec (first::rest) hsok hord (d.numRects-1) 1
    (by rw [hslen]; omega) [[first]]
    [⟨⟨first,.heap ⟨(first::rest) ++ d.boxes.drop d.numRects,1⟩⟩,0,0⟩] false (by simp) (.cons hstart .nil)
    (by simp) (by simp [Overlapping]) (by simp [firstData,RegionRec.regData])
    (by simp [firstData,RegionRec.regData]) (by
      intro m _ hm
      simp only [firstData,RegionRec.regData]
      exact List.getElem?_append_left hm)
  have hcall : regionValidate ⟨extents,.heap d⟩ =
      (let s := scatter (d.numRects-1) 1
        [⟨⟨first,.heap ⟨(first::rest) ++ d.boxes.drop d.numRects,1⟩⟩,0,0⟩] false
      let u := unionAll (s.1.map finishRegion).length ⟨s.1.map finishRegion,s.2,true⟩
      some (u.ret,u.ri.getD 0 regionBreak,u.overlap)) := by
    unfold regionValidate
    simp only
    rw [if_neg (by omega),if_neg (by omega),hsort]
    simp only [Option.bind_eq_bind,Option.bind_some,hfirst]
  generalize scatter (d.numRects-1) 1
    [⟨⟨first,.heap ⟨(first::rest) ++ d.boxes.drop d.numRects,1⟩⟩,0,0⟩] false = s at hbuild hne hov hcall
  have hparts : List.Forall₂ PartOk parts (s.1.map finishRegion) := by
    rw [List.forall₂_map_right_iff]
    exact hbuild.imp fun _ _ h => h.finish
  obtain ⟨part,hpart,hpp,hret,hflag⟩ := unionAll_spec (s.1.map finishRegion).length parts
    (s.1.map finishRegion) s.2 le_rfl (by simpa using hne) hparts hov
  have hall : part.Perm d.rects := (hpp.trans hflat).trans hperm
  obtain ⟨R,hR,hcov⟩ := hpart.region
  dsimp only at hcall
  rw [hret] at hcall
  refine ⟨_,_,R,hcall,hR,fun x y => ?_,?_,?_⟩
  · rw [← hcov x y]
    simp only [InBoxes,hall.mem_iff]
  · refine hpart.extents.of_points hpart.ok hok ?_
    intro x y
    simp only [InBoxes,hall.mem_iff]
  · rw [hflag,hall.pairwise_iff]
    exact fun h x y hxy => h x y hxy.symm

lemma IsRegion.boundingBox {reg : RegionRec} {R : List Band} {l : List Box} (h : IsRegion reg R) (hl : ∀ b ∈ l, b.Ok)
    (hcov : ∀ x y, Covered R x y ↔ InBoxes l x y) (he : BoundingBox l reg.extents) : BoundingBox (boxesOf R) reg.extents := by
  refine he.of_points hl (ok_boxesOf h.banded) fun x y => ?_
  rw [inBoxes_boxesOf,hcov]

/-- Batch union: whatever boxes the array holds, `RegionValidate` returns a region that covers the
same points, in normal form, with exact extents, and its flag tells whether two of the boxes
share a point. -/
theorem regionValidate_union (extents : Box) (d : RegData) (hdeg : extents.x1 ≥ extents.x2)
    (hpos : 0 < d.numRects) (hwf : d.numRects ≤ d.boxes.length)
    (hok : ∀ b ∈ d.rects, b.x1 < b.x2 ∧ b.y1 < b.y2) :
    ∃ reg overlap, regionValidate ⟨extents,.heap d⟩ = some (true,reg,overlap) ∧
      (∀ x y, InBoxes reg.rects x y ↔ InBoxes d.rects x y) ∧
      reg.regionIsValid = true ∧ (∃ R, Banded R ∧ reg.rects = boxesOf R) ∧
      BoundingBox d.rects reg.extents ∧ (overlap = true ↔ SharePoint d.rects) := by
  have hdok : ∀ b ∈ d.rects, b.Ok := fun b hb => ⟨(hok b hb).1,(hok b hb).2⟩
  obtain ⟨reg,overlap,R,hcall,hR,hcov,hext,hov⟩ := regionValidate_isRegion extents d hdeg hpos hwf hdok
  refine ⟨reg,overlap,hcall,fun x y => ?_,?_,⟨R,hR.banded,hR.rects⟩,hext,?_⟩
  · rw [hR.rects,inBoxes_boxesOf,hcov]
  · exact regionIsValid_of_isRegion hR (hR.boundingBox hdok hcov hext)
  · rw [hov,sharePoint_iff]

/-- Three boxes, two of which overlap. -/
theorem regionValidate_three_boxes :
    ∃ reg overlap, regionValidate ⟨⟨0,0,0,0⟩,.heap ⟨[⟨5,2,9,6⟩,⟨0,0,4,3⟩,⟨2,1,6,5⟩],3⟩⟩ =
        some (true,reg,overlap) ∧ reg.regionIsValid = true ∧ overlap = true := by
  obtain ⟨reg,overlap,hcall,_,hvalid,_,_,hov⟩ := regionValidate_union ⟨0,0,0,0⟩
    ⟨[⟨5,2,9,6⟩,⟨0,0,4,3⟩,⟨2,1,6,5⟩],3⟩ (by decide) (by decide) (by decide) (by decide)
  refine ⟨reg,overlap,hcall,hvalid,hov.mpr ?_⟩
  exact ⟨1,2,⟨0,0,4,3⟩,⟨2,1,6,5⟩,by decide,rfl,rfl,2,1,by unfold Box.Has; decide,by unfold Box.Has; decide⟩

end Xlibre.Dix.Region
