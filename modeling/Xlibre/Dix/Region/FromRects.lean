import Xlibre.Dix.Region.BatchUnion

/-! Regions of a client's rectangles: `VerifyRectOrder`, and `RegionFromRects`, which skips the batch union when the
rectangles are said to be banded. -/
namespace Xlibre.Dix.Region
open Xlibre.Lib.Bands

structure XRectangle where
  x : Int16
  y : Int16
  width : UInt16
  height : UInt16
  deriving DecidableEq, Repr

inductive ClipType
  | none
  | unsorted
  | ySorted
  | yxSorted
  | yxBanded
  deriving DecidableEq, Repr

/-- The loops of `VerifyRectOrder`: no rectangle and its successor are wrong. -/
def verifyPairs (wrong : XRectangle → XRectangle → Bool) : List XRectangle → Bool
  | prectP::prectN::prects => !wrong prectP prectN && verifyPairs wrong (prectN::prects)
  | _ => true

def wrongInBands (p n : XRectangle) : Bool :=
  (n.y.toInt ≠ p.y.toInt ∧ n.y.toInt < p.y.toInt + p.height.toNat) ∨
  (n.y.toInt = p.y.toInt ∧ (n.height ≠ p.height ∨ n.x.toInt < p.x.toInt + p.width.toNat))

/-- `VerifyRectOrder`, with `none` for -1. -/
def verifyRectOrder (prects : List XRectangle) (ordering : ℕ) : Option ClipType :=
  match ordering with
  | 0 => some .unsorted
  | 1 => if verifyPairs (fun p n => n.y.toInt < p.y.toInt) prects then some .ySorted else .none
  | 2 =>
    if verifyPairs (fun p n => n.y.toInt < p.y.toInt ∨ (n.y.toInt = p.y.toInt ∧ n.x.toInt < p.x.toInt)) prects then
      some .yxSorted
    else .none
  | 3 => if verifyPairs wrongInBands prects then some .yxBanded else .none
  | _ => .none

def maxShort : ℤ := 32767

def XRectangle.box (r : XRectangle) : Box where
  x1 := r.x.toInt
  y1 := r.y.toInt
  x2 := if r.x.toInt + r.width.toNat > maxShort then maxShort else r.x.toInt + r.width.toNat
  y2 := if r.y.toInt + r.height.toNat > maxShort then maxShort else r.y.toInt + r.height.toNat

/-- The loop of `RegionFromRects`: boxes that are empty are left out. -/
def boxesFrom (prect : List XRectangle) : List Box :=
  (prect.map XRectangle.box).filter fun b => b.x1 ≠ b.x2 ∧ b.y1 ≠ b.y2

/-- A turn of the loop of `RegionSetExtents`. -/
def widen (e b : Box) : Box :=
  { e with x1 := if b.x1 < e.x1 then b.x1 else e.x1, x2 := if b.x2 > e.x2 then b.x2 else e.x2 }

/-- `RegionSetExtents`, for a region in bands. -/
def regionSetExtents (pReg : RegionRec) : RegionRec :=
  match pReg.data with
  | .null => pReg
  | .emptyData | .brokenData => { pReg with extents := { pReg.extents with x2 := pReg.extents.x1, y2 := pReg.extents.y1 } }
  | .heap d =>
    if d.size = 0 then { pReg with extents := { pReg.extents with x2 := pReg.extents.x1, y2 := pReg.extents.y1 } }
    else
      let first := d.box 0
      let last := d.box (d.numRects-1)
      { pReg with extents := d.rects.foldl widen ⟨first.x1,first.y1,last.x2,last.y2⟩ }

/-- `RegionCreate` without a box. -/
def regionCreateEmpty : RegionRec := ⟨emptyBox,.emptyData⟩

/-- `RegionFromRects`, when there is memory; `none` is an access outside the array while sorting. -/
def regionFromRects (prect : List XRectangle) (ctype : ClipType) : Option RegionRec :=
  match prect with
  | [] => some regionCreateEmpty
  | [r] => some (if r.box.x1 ≠ r.box.x2 ∧ r.box.y1 ≠ r.box.y2 then ⟨r.box,.null⟩ else regionCreateEmpty)
  | prect =>
    let boxes := boxesFrom prect
    if boxes = [] then some regionCreateEmpty
    else
      let pData : RegData := ⟨boxes ++ List.replicate (prect.length-boxes.length) emptyBox,boxes.length⟩
      if ctype ≠ .yxBanded then (regionValidate ⟨emptyBox,.heap pData⟩).map fun r => r.2.1
      else some (regionSetExtents ⟨emptyBox,.heap pData⟩)

section Boxes
variable {rects : List XRectangle} {p n : XRectangle} {b : Box} {x y : ℤ}

lemma mem_boxesFrom : b ∈ boxesFrom rects ↔ ∃ r ∈ rects, r.box = b ∧ b.x1 ≠ b.x2 ∧ b.y1 ≠ b.y2 := by
  simp only [boxesFrom,List.mem_filter,List.mem_map,decide_eq_true_eq]
  tauto

lemma XRectangle.box_le (r : XRectangle) : r.box.x1 ≤ r.box.x2 ∧ r.box.y1 ≤ r.box.y2 := by
  have hx := r.x.toInt_lt
  have hy := r.y.toInt_lt
  unfold box maxShort
  dsimp only
  split_ifs <;> omega

lemma ok_boxesFrom (hb : b ∈ boxesFrom rects) : b.Ok := by
  obtain ⟨r,-,rfl,hx,hy⟩ := mem_boxesFrom.1 hb
  have hle := r.box_le
  exact ⟨by omega,by omega⟩

/-- The points of a rectangle below the largest coordinate. -/
def XRectangle.Has (r : XRectangle) (x y : ℤ) : Prop :=
  r.x.toInt ≤ x ∧ x < r.x.toInt + r.width.toNat ∧ r.y.toInt ≤ y ∧ y < r.y.toInt + r.height.toNat ∧ x < 32767 ∧ y < 32767

lemma XRectangle.has_box (r : XRectangle) : r.box.Has x y ↔ r.Has x y := by
  unfold box Has Box.Has maxShort
  dsimp only
  split_ifs <;> omega

lemma inBoxes_boxesFrom : InBoxes (boxesFrom rects) x y ↔ ∃ r ∈ rects, r.Has x y := by
  constructor
  · rintro ⟨b,hb,hin⟩
    obtain ⟨r,hr,rfl,-⟩ := mem_boxesFrom.1 hb
    exact ⟨r,hr,r.has_box.1 hin⟩
  · rintro ⟨r,hr,hin⟩
    have hbox := r.has_box.2 hin
    refine ⟨r.box,mem_boxesFrom.2 ⟨r,hr,rfl,?_,?_⟩,hbox⟩ <;> unfold Box.Has at hbox <;> omega

def InBands (p n : XRectangle) : Prop :=
  (n.y.toInt = p.y.toInt ∧ n.height = p.height ∧ p.x.toInt + p.width.toNat ≤ n.x.toInt) ∨
    p.y.toInt + p.height.toNat ≤ n.y.toInt

lemma inBands_of_not_wrong (h : wrongInBands p n = false) : InBands p n := by
  unfold wrongInBands at h
  rw [decide_eq_false_iff_not] at h
  unfold InBands
  by_cases hheight : n.height = p.height
  · simp only [hheight,true_and,ne_eq,not_true_eq_false,false_or] at h ⊢
    omega
  · simp only [hheight,false_and,and_false,false_or,ne_eq,not_false_eq_true,true_or,and_true] at h ⊢
    omega

lemma InBands.trans {q : XRectangle} (h : InBands p q) (h' : InBands q n) : InBands p n := by
  unfold InBands at *
  obtain ⟨hy,hheight,hx⟩ | h := h
  · obtain ⟨hy',hheight',hx'⟩ | h' := h'
    · exact .inl ⟨hy'.trans hy,hheight'.trans hheight,by omega⟩
    · rw [hheight] at h'
      exact .inr (by omega)
  · obtain ⟨hy',-⟩ | h' := h'
    · exact .inr (by omega)
    · exact .inr (by omega)

lemma pairwise_of_verify (h : verifyPairs wrongInBands rects = true) : rects.Pairwise InBands := by
  induction rects with
  | nil => exact List.Pairwise.nil
  | cons p rects ih =>
    cases rects with
    | nil => exact List.pairwise_singleton _ _
    | cons n rects =>
      simp only [verifyPairs,Bool.and_eq_true,Bool.not_eq_true'] at h
      have hp := inBands_of_not_wrong h.1
      have hrest := ih h.2
      refine List.pairwise_cons.2 ⟨fun q hq => ?_,hrest⟩
      obtain rfl | hq := List.mem_cons.1 hq
      · exact hp
      · exact hp.trans ((List.pairwise_cons.1 hrest).1 q hq)

lemma InBands.inOrder (h : InBands p n) : InOrder p.box n.box := by
  unfold InBands at h
  unfold InOrder XRectangle.box maxShort
  dsimp only
  obtain ⟨hy,hheight,hx⟩ | h := h
  · rw [hheight,hy]
    left
    refine ⟨rfl,rfl,?_⟩
    split_ifs <;> omega
  · right
    split_ifs <;> omega

lemma inOrder_boxesFrom (h : verifyPairs wrongInBands rects = true) : (boxesFrom rects).Pairwise InOrder := by
  apply List.Pairwise.filter
  rw [List.pairwise_map]
  exact (pairwise_of_verify h).imp InBands.inOrder

end Boxes

section Extents
variable {l : List Box} {e : Box}

lemma widen_spec (l : List Box) (e : Box) :
    let e' := l.foldl widen e
    e'.y1 = e.y1 ∧ e'.y2 = e.y2 ∧ (e'.x1 ≤ e.x1 ∧ ∀ b ∈ l, e'.x1 ≤ b.x1) ∧ (e.x2 ≤ e'.x2 ∧ ∀ b ∈ l, b.x2 ≤ e'.x2) ∧
      (e'.x1 = e.x1 ∨ ∃ b ∈ l, b.x1 = e'.x1) ∧ (e'.x2 = e.x2 ∨ ∃ b ∈ l, b.x2 = e'.x2) := by
  induction l generalizing e with
  | nil => simp
  | cons a l ih =>
    obtain ⟨h₁,h₂,⟨h₃,h₃'⟩,⟨h₄,h₄'⟩,h₅,h₆⟩ := ih (widen e a)
    dsimp only
    rw [List.foldl_cons]
    generalize l.foldl widen (widen e a) = e' at *
    simp only [widen] at h₁ h₂ h₃ h₄ h₅ h₆
    refine ⟨h₁,h₂,⟨?_,?_⟩,⟨?_,?_⟩,?_,?_⟩
    · refine h₃.trans ?_
      split_ifs <;> omega
    · intro b hb
      obtain rfl | hb := List.mem_cons.1 hb
      · refine h₃.trans ?_
        split_ifs <;> omega
      · exact h₃' b hb
    · refine le_trans ?_ h₄
      split_ifs <;> omega
    · intro b hb
      obtain rfl | hb := List.mem_cons.1 hb
      · refine le_trans ?_ h₄
        split_ifs <;> omega
      · exact h₄' b hb
    · obtain h₅ | ⟨b,hb,h₅⟩ := h₅
      · split_ifs at h₅
        · exact .inr ⟨a,List.mem_cons_self,h₅.symm⟩
        · exact .inl h₅
      · exact .inr ⟨b,List.mem_cons_of_mem a hb,h₅⟩
    · obtain h₆ | ⟨b,hb,h₆⟩ := h₆
      · split_ifs at h₆
        · exact .inr ⟨a,List.mem_cons_self,h₆.symm⟩
        · exact .inl h₆
      · exact .inr ⟨b,List.mem_cons_of_mem a hb,h₆⟩

lemma regionSetExtents_spec (extents : Box) {d : RegData} (hwf : d.Wf) (hne : d.rects ≠ []) (hok : ∀ b ∈ d.rects, b.Ok)
    (hord : d.rects.Pairwise InOrder) : ∃ e, regionSetExtents ⟨extents,.heap d⟩ = ⟨e,.heap d⟩ ∧ BoundingBox d.rects e := by
  have hlen := RegData.length_rects hwf
  have hpos : 0 < d.numRects := by
    rw [← hlen]
    exact List.length_pos_of_ne_nil hne
  have hsize : d.size ≠ 0 := by
    unfold RegData.size
    unfold RegData.Wf at hwf
    omega
  have hbox : ∀ i, i < d.numRects → ∀ h : i < d.rects.length, d.box i = d.rects[i] := by
    intro i hi h
    rw [RegData.box,List.getD_eq_getElem?_getD,RegData.getElem?_boxes hi,List.getElem?_eq_getElem h]
    rfl
  obtain ⟨first,rest,hl⟩ := List.exists_cons_of_ne_nil hne
  have hfirst : d.box 0 = first := by
    rw [hbox 0 hpos (by omega)]
    simp [hl]
  have hlast : d.box (d.numRects-1) = d.rects.getLast hne := by
    rw [hbox _ (by omega) (by omega),List.getLast_eq_getElem]
    simp only [hlen]
  have hlastMem := List.getLast_mem hne
  have hinit := List.dropLast_append_getLast hne
  have hcall : regionSetExtents ⟨extents,.heap d⟩ = ⟨d.rects.foldl widen ⟨first.x1,first.y1,(d.rects.getLast hne).x2,
      (d.rects.getLast hne).y2⟩,.heap d⟩ := by
    unfold regionSetExtents
    dsimp only
    rw [if_neg hsize,hfirst,hlast]
  rw [hcall]
  generalize d.rects.getLast hne = last at *
  obtain ⟨h₁,h₂,⟨-,h₃⟩,⟨-,h₄⟩,h₅,h₆⟩ := widen_spec d.rects ⟨first.x1,first.y1,last.x2,last.y2⟩
  refine ⟨_,rfl,?_⟩
  -- the first box is the topmost one, and the last one goes down the furthest
  generalize d.rects.foldl widen ⟨first.x1,first.y1,last.x2,last.y2⟩ = e at *
  dsimp only at h₁ h₂ h₅ h₆
  have hmem : first ∈ d.rects := by rw [hl]; exact List.mem_cons_self
  refine ⟨fun b hb => ⟨h₃ b hb,?_,h₄ b hb,?_⟩,?_,⟨first,hmem,h₁.symm⟩,?_,⟨last,hlastMem,h₂.symm⟩⟩
  · rw [h₁]
    rw [hl] at hb hord
    obtain rfl | hb := List.mem_cons.1 hb
    · exact le_rfl
    · exact ((List.pairwise_cons.1 hord).1 b hb).y1_le (hok first hmem)
  · rw [h₂]
    rw [← hinit] at hb hord
    obtain hb | hb := List.mem_append.1 hb
    · exact ((List.pairwise_append.1 hord).2.2 b hb last (by simp)).y2_le (hok last hlastMem)
    · rw [List.mem_singleton.1 hb]
  · obtain h₅ | h₅ := h₅
    · exact ⟨first,hmem,h₅.symm⟩
    · exact h₅
  · obtain h₆ | h₆ := h₆
    · exact ⟨last,hlastMem,h₆.symm⟩
    · exact h₆

end Extents

section Regions
variable {rects : List XRectangle} {ctype ct : ClipType} {reg : RegionRec}

/-- The array of `RegionFromRects`. -/
def pData (rects : List XRectangle) : RegData :=
  ⟨boxesFrom rects ++ List.replicate (rects.length-(boxesFrom rects).length) emptyBox,(boxesFrom rects).length⟩

lemma pData_wf : (pData rects).Wf := by
  simp [RegData.Wf,pData]

@[simp] lemma rects_pData : (pData rects).rects = boxesFrom rects := by
  simp [RegData.rects,pData]

lemma regionFromRects_eq (hlen : 1 < rects.length) (hne : boxesFrom rects ≠ []) : regionFromRects rects ctype =
    if ctype ≠ .yxBanded then (regionValidate ⟨emptyBox,.heap (pData rects)⟩).map fun r => r.2.1
    else some (regionSetExtents ⟨emptyBox,.heap (pData rects)⟩) := by
  match rects, hlen with
  | a::b::rest, _ => exact if_neg hne

lemma regionFromRects_empty (h : boxesFrom rects = []) : regionFromRects rects ctype = some regionCreateEmpty := by
  match rects with
  | [] => rfl
  | [r] =>
    have hempty : ¬(r.box.x1 ≠ r.box.x2 ∧ r.box.y1 ≠ r.box.y2) := fun hbox => by
      have : r.box ∈ boxesFrom [r] := mem_boxesFrom.2 ⟨r,by simp,rfl,hbox⟩
      rw [h] at this
      cases this
    exact congrArg some (if_neg hempty)
  | a::b::rest => exact if_pos h

lemma regionFromRects_single {r : XRectangle} (h : boxesFrom [r] ≠ []) : regionFromRects [r] ctype = some ⟨r.box,.null⟩ := by
  have hbox : r.box.x1 ≠ r.box.x2 ∧ r.box.y1 ≠ r.box.y2 := by
    obtain ⟨b,hb⟩ := List.exists_mem_of_ne_nil _ h
    obtain ⟨s,hs,rfl,hbox⟩ := mem_boxesFrom.1 hb
    rwa [List.mem_singleton.1 hs] at hbox
  exact congrArg some (if_pos hbox)

/-- A valid region with the points of the rectangles. -/
def Faithful (rects : List XRectangle) (reg : RegionRec) : Prop :=
  reg.regionIsValid = true ∧ ∀ x y, InBoxes reg.rects x y ↔ ∃ r ∈ rects, r.Has x y

lemma faithful_empty (h : boxesFrom rects = []) : Faithful rects regionCreateEmpty := by
  refine ⟨by decide,fun x y => ?_⟩
  rw [← inBoxes_boxesFrom,h]
  rfl

lemma faithful_single {r : XRectangle} (h : boxesFrom [r] ≠ []) : Faithful [r] ⟨r.box,.null⟩ := by
  obtain ⟨b,hb⟩ := List.exists_mem_of_ne_nil _ h
  obtain ⟨s,hs,rfl,-⟩ := mem_boxesFrom.1 hb
  obtain rfl := List.mem_singleton.1 hs
  have hok := ok_boxesFrom hb
  refine ⟨?_,fun x y => ?_⟩
  · have hx := hok.xs
    have hy := hok.ys
    simp [RegionRec.regionIsValid,RegionRec.rects,hx.le,hy.le]
  · change InBoxes [s.box] x y ↔ _
    rw [inBoxes_singleton,s.has_box]
    simp

lemma faithful_unordered (rects : List XRectangle) (hct : ctype ≠ .yxBanded) : ∃ reg, regionFromRects rects ctype = some reg ∧ Faithful rects reg := by
  by_cases hne : boxesFrom rects = []
  · exact ⟨_,regionFromRects_empty hne,faithful_empty hne⟩
  match hrects : rects with
  | [] => exact absurd rfl hne
  | [r] => exact ⟨_,regionFromRects_single hne,faithful_single hne⟩
  | a::b::rest =>
    rw [← hrects] at hne ⊢
    have hpos : 0 < (pData rects).numRects := List.length_pos_of_ne_nil hne
    obtain ⟨reg,overlap,R,hcall,hR,hcov,hext,-⟩ := regionValidate_isRegion emptyBox (pData rects) (by decide) hpos pData_wf
      (by rw [rects_pData]; exact fun b hb => ok_boxesFrom hb)
    rw [rects_pData] at hcov hext
    refine ⟨reg,?_,regionIsValid_of_isRegion hR (hR.boundingBox (fun b hb => ok_boxesFrom hb) hcov hext),fun x y => ?_⟩
    · rw [regionFromRects_eq (by rw [hrects]; simp) hne,if_pos hct,hcall]
      rfl
    · rw [hR.rects,inBoxes_boxesOf,hcov,inBoxes_boxesFrom]

lemma banded_region (hlen : 1 < rects.length) (hne : boxesFrom rects ≠ []) (hord : verifyPairs wrongInBands rects = true) :
    ∃ e, regionFromRects rects .yxBanded = some ⟨e,.heap (pData rects)⟩ ∧ BoundingBox (boxesFrom rects) e := by
  obtain ⟨e,hcall,hbox⟩ := regionSetExtents_spec emptyBox pData_wf (by rwa [rects_pData])
    (by rw [rects_pData]; exact fun b hb => ok_boxesFrom hb) (by rw [rects_pData]; exact inOrder_boxesFrom hord)
  rw [rects_pData] at hbox
  refine ⟨e,?_,hbox⟩
  rw [regionFromRects_eq hlen hne,if_neg (by decide),hcall]

lemma verifyRectOrder_yxBanded {ordering : ℕ} (h : verifyRectOrder rects ordering = some .yxBanded) :
    verifyPairs wrongInBands rects = true := by
  unfold verifyRectOrder at h
  split at h
  · cases h
  · split_ifs at h
    cases h
  · split_ifs at h
    cases h
  · split_ifs at h with hverify
    exact hverify
  · cases h

/-- The hint makes a region that is valid and has the points of the rectangles exactly when it does not leave a single box of
several rectangles that are said to be banded. -/
theorem regionFromRects_iff (rects : List XRectangle) (ordering : ℕ) (ct : ClipType)
    (h : verifyRectOrder rects ordering = some ct) :
    (∃ reg unsorted, regionFromRects rects ct = some reg ∧ regionFromRects rects .unsorted = some unsorted ∧
      reg.regionIsValid = true ∧ (∀ x y, InBoxes reg.rects x y ↔ ∃ r ∈ rects, r.Has x y) ∧
      ∀ x y, InBoxes reg.rects x y ↔ InBoxes unsorted.rects x y) ↔
    ¬(ct = .yxBanded ∧ 1 < rects.length ∧ (boxesFrom rects).length = 1) := by
  obtain ⟨unsorted,hunsorted,hfaithful⟩ := faithful_unordered rects (show ClipType.unsorted ≠ .yxBanded by decide)
  have hgood : ∀ {reg}, regionFromRects rects ct = some reg → Faithful rects reg →
      ∃ reg unsorted, regionFromRects rects ct = some reg ∧ regionFromRects rects .unsorted = some unsorted ∧
        reg.regionIsValid = true ∧ (∀ x y, InBoxes reg.rects x y ↔ ∃ r ∈ rects, r.Has x y) ∧
        ∀ x y, InBoxes reg.rects x y ↔ InBoxes unsorted.rects x y :=
    fun hreg hf => ⟨_,_,hreg,hunsorted,hf.1,hf.2,fun x y => (hf.2 x y).trans (hfaithful.2 x y).symm⟩
  by_cases hct : ct = .yxBanded
  · subst hct
    have hord := verifyRectOrder_yxBanded h
    by_cases hlen : 1 < rects.length
    · by_cases hne : boxesFrom rects = []
      · exact iff_of_true (hgood (regionFromRects_empty hne) (faithful_empty hne)) fun hone => by simp [hne] at hone
      · obtain ⟨e,hcall,hbox⟩ := banded_region hlen hne hord
        have hrects : (⟨e,.heap (pData rects)⟩ : RegionRec).rects = boxesFrom rects := rects_pData
        by_cases hone : (boxesFrom rects).length = 1
        · refine iff_of_false ?_ (not_not.2 ⟨rfl,hlen,hone⟩)
          rintro ⟨reg,-,hreg,-,hvalid,-⟩
          rw [hcall] at hreg
          cases hreg
          -- a single box, but in an array
          obtain ⟨b,hb⟩ := List.length_eq_one_iff.1 hone
          unfold RegionRec.regionIsValid at hvalid
          rw [hrects,hb] at hvalid
          split_ifs at hvalid
          cases hvalid
        · refine iff_of_true (hgood hcall ⟨?_,fun x y => ?_⟩) fun h => hone h.2.2
          · refine regionIsValid_of_inOrder ?_ ?_ ?_ fun h => ?_
            · rw [hrects]
              exact fun b hb => ok_boxesFrom hb
            · rw [hrects]
              exact inOrder_boxesFrom hord
            · rw [hrects]
              exact hbox
            · rw [hrects] at h
              exact absurd h hone
          · rw [hrects,inBoxes_boxesFrom]
    · refine iff_of_true ?_ fun h => hlen h.2.1
      by_cases hne : boxesFrom rects = []
      · exact hgood (regionFromRects_empty hne) (faithful_empty hne)
      · obtain ⟨r,hr⟩ : ∃ r, rects = [r] := by
          apply List.length_eq_one_iff.1
          have : 0 < rects.length := List.length_pos_of_ne_nil fun hnil => hne (by rw [hnil]; rfl)
          omega
        subst hr
        exact hgood (regionFromRects_single hne) (faithful_single hne)
  · obtain ⟨reg,hreg,hf⟩ := faithful_unordered rects hct
    exact iff_of_true (hgood hreg hf) fun h => hct h.1

/-- Two rectangles side by side. -/
theorem regionFromRects_iff_row : ∃ reg unsorted,
    regionFromRects [⟨0,0,10,10⟩,⟨20,0,5,10⟩] .yxBanded = some reg ∧
    regionFromRects [⟨0,0,10,10⟩,⟨20,0,5,10⟩] .unsorted = some unsorted ∧ reg.regionIsValid = true ∧
    (∀ x y, InBoxes reg.rects x y ↔ ∃ r ∈ [(⟨0,0,10,10⟩ : XRectangle),⟨20,0,5,10⟩], r.Has x y) ∧
    ∀ x y, InBoxes reg.rects x y ↔ InBoxes unsorted.rects x y :=
  (regionFromRects_iff [⟨0,0,10,10⟩,⟨20,0,5,10⟩] 3 .yxBanded (by decide)).2 (by decide)

/-- A rectangle without width behind another one: the region keeps its single box in an array. -/
theorem single_box_not_valid : verifyRectOrder [⟨0,0,10,10⟩,⟨10,0,0,10⟩] 3 = some .yxBanded ∧
    regionFromRects [⟨0,0,10,10⟩,⟨10,0,0,10⟩] .yxBanded = some ⟨⟨0,0,10,10⟩,.heap ⟨[⟨0,0,10,10⟩,emptyBox],1⟩⟩ ∧
    (⟨⟨0,0,10,10⟩,.heap ⟨[⟨0,0,10,10⟩,emptyBox],1⟩⟩ : RegionRec).regionIsValid = false := by
  decide

end Regions

end Xlibre.Dix.Region
