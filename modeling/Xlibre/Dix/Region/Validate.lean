import Xlibre.Dix.Region.Sort
import Xlibre.Dix.Region.Sweep

/-! `RegionValidate`: sorting, scattering into partial regions that share the input array, and
their union by binary merging. This module has the definitions and the scattering. -/
namespace Xlibre.Dix.Region
open Xlibre.Lib.Bands

structure RegionInfo where
  reg : RegionRec
  prevBand : ℕ
  curBand : ℕ

def RegionInfo.tryAdd (rit : RegionInfo) (box : Box) : Option (RegionInfo × Bool) :=
  let d := rit.reg.regData
  let riBox := d.box (d.numRects-1)
  if box.y1 = riBox.y1 ∧ box.y2 = riBox.y2 then
    if box.x1 ≤ riBox.x2 then
      let merged := { riBox with x2 := if box.x2 > riBox.x2 then box.x2 else riBox.x2 }
      some ({ rit with reg := { rit.reg with data := .heap (d.setLast merged) } },box.x1 < riBox.x2)
    else some ({ rit with reg := { rit.reg with data := .heap (d.newRect box) } },false)
  else if box.y1 ≥ riBox.y2 then
    let extents := { rit.reg.extents with
      x2 := if rit.reg.extents.x2 < riBox.x2 then riBox.x2 else rit.reg.extents.x2
      x1 := if rit.reg.extents.x1 > box.x1 then box.x1 else rit.reg.extents.x1 }
    let c := d.coalesce rit.prevBand rit.curBand
    some (⟨⟨extents,.heap (c.1.newRect box)⟩,c.2,c.1.numRects⟩,false)
  else none

def placeBox (box : Box) : List RegionInfo → Option (List RegionInfo × Bool)
  | [] => none
  | rit::ri =>
    match rit.tryAdd box with
    | some (rit',o) => some (rit'::ri,o)
    | none => (placeBox box ri).map (fun r => (rit::r.1,r.2))

def newRegion (box : Box) (n : ℕ) : RegionInfo :=
  ⟨(RegionRec.mk box .null).regionRectAlloc n,0,0⟩

def firstData : List RegionInfo → RegData
  | [] => ⟨[],0⟩
  | rit::_ => rit.reg.regData

/-- Step 2. The boxes are read from the array of the first region, which is written to at the
same time. -/
def scatter : ℕ → ℕ → List RegionInfo → Bool → List RegionInfo × Bool
  | 0,_,ri,ov => (ri,ov)
  | i+1,k,ri,ov =>
    let box := (firstData ri).box k
    match placeBox box ri with
    | some (ri',o) => scatter i (k+1) ri' (ov || o)
    | none =>
      let numRI := ri.length+1
      scatter i (k+1) (ri ++ [newRegion box ((i+1+numRI)/numRI)]) ov

def finishRegion (rit : RegionInfo) : RegionRec :=
  let d := rit.reg.regData
  let riBox := d.box (d.numRects-1)
  let extents := { rit.reg.extents with
    y2 := riBox.y2
    x2 := if rit.reg.extents.x2 < riBox.x2 then riBox.x2 else rit.reg.extents.x2 }
  let c := d.coalesce rit.prevBand rit.curBand
  if c.1.numRects = 1 then ⟨extents,.null⟩ else ⟨extents,.heap c.1⟩

/-- The smallest box around two, as the assignments after `RegionOp` compute it. -/
def hull (e h : Box) : Box where
  x1 := if h.x1 < e.x1 then h.x1 else e.x1
  y1 := if h.y1 < e.y1 then h.y1 else e.y1
  x2 := if h.x2 > e.x2 then h.x2 else e.x2
  y2 := if h.y2 > e.y2 then h.y2 else e.y2

structure UnionState where
  ri : List RegionRec
  overlap : Bool
  ret : Bool

def mergePair (reg hreg : RegionRec) (ov : Bool) : RegionRec × Bool :=
  let r := regionOp regionUnionO true true reg hreg ov
  ({ r.1 with extents := hull r.1.extents hreg.extents },r.2)

/-- One round of step 3: the regions from `j` on absorb those `half` further up. `RegionOp` fails
only on a broken region. -/
def mergeLoop (half : ℕ) : ℕ → ℕ → UnionState → UnionState
  | 0,_,st => st
  | n+1,j,st =>
    let reg := st.ri.getD j regionBreak
    let hreg := st.ri.getD (j+half) regionBreak
    let m := mergePair reg hreg st.overlap
    mergeLoop half n (j+1)
      ⟨st.ri.set j m.1,m.2,st.ret && (reg.data ≠ .brokenData ∧ hreg.data ≠ .brokenData)⟩

/-- Step 3: rounds until one region is left. -/
def unionAll : ℕ → UnionState → UnionState
  | 0,st => st
  | n+1,st =>
    let numRI := st.ri.length
    if numRI > 1 then
      let half := numRI/2
      let r := mergeLoop half half (numRI%2) st
      unionAll n { r with ri := r.ri.take (numRI-half) }
    else st

/-- `RegionValidate` with its return value, the region and the overlap flag it leaves; `none` is
an access outside the array while sorting. -/
def regionValidate (badreg : RegionRec) : Option (Bool × RegionRec × Bool) :=
  match badreg.data with
  | .null => some (true,badreg,false)
  | .emptyData => some (true,badreg,false)
  | .brokenData => some (false,badreg,false)
  | .heap d =>
    if d.numRects = 0 then some (true,badreg,false) else
    if badreg.extents.x1 < badreg.extents.x2 then
      if d.numRects = 1 then some (true,{ badreg with data := .null },false)
      else some (true,{ badreg with data := .heap d.downsize },false)
    else do
      let sorted ← quickSortRects d.numRects d.rects
      let boxes := sorted ++ d.boxes.drop d.numRects
      let ri : List RegionInfo := [⟨⟨boxes.getD 0 emptyBox,.heap ⟨boxes,1⟩⟩,0,0⟩]
      let s := scatter (d.numRects-1) 1 ri false
      let regs := s.1.map finishRegion
      let u := unionAll regs.length ⟨regs,s.2,true⟩
      some (u.ret,u.ri.getD 0 regionBreak,u.overlap)

/-- Points of a box: its right and bottom sides are outside. -/
def Box.Has (b : Box) (x y : ℤ) : Prop := b.x1 ≤ x ∧ x < b.x2 ∧ b.y1 ≤ y ∧ y < b.y2

structure Box.Ok (b : Box) : Prop where
  xs : b.x1 < b.x2
  ys : b.y1 < b.y2

/-- Some box of a list has the point. -/
def InBoxes (l : List Box) (x y : ℤ) : Prop := ∃ b ∈ l, b.Has x y

def Disj (a b : Box) : Prop := ∀ x y, ¬ (a.Has x y ∧ b.Has x y)

structure BoundingBox (l : List Box) (e : Box) : Prop where
  bound : ∀ b ∈ l, e.x1 ≤ b.x1 ∧ e.y1 ≤ b.y1 ∧ b.x2 ≤ e.x2 ∧ b.y2 ≤ e.y2
  left : ∃ b ∈ l, b.x1 = e.x1
  top : ∃ b ∈ l, b.y1 = e.y1
  right : ∃ b ∈ l, b.x2 = e.x2
  bot : ∃ b ∈ l, b.y2 = e.y2

lemma inBoxes_append (l m : List Box) (x y : ℤ) :
    InBoxes (l ++ m) x y ↔ InBoxes l x y ∨ InBoxes m x y := by
  simp only [InBoxes,List.mem_append,or_and_right,exists_or]

lemma inBoxes_singleton (b : Box) (x y : ℤ) : InBoxes [b] x y ↔ b.Has x y := by
  simp [InBoxes]

/-- What a region under construction stands for: finished bands `out`, and the current band, whose
last span is `last`. -/
structure InfoInv (part : List Box) (rit : RegionInfo) (d : RegData) (out : List Band)
    (cur : Band) (init : List Span) (last : Span) : Prop where
  data : rit.reg.data = .heap d
  wf : d.Wf
  rects : d.rects = boxesOf out ++ boxesOfBand cur
  banded : Banded out
  curWf : cur.Wf
  spans : cur.spans = init ++ [last]
  above : ∀ b ∈ out, b.y2 ≤ cur.y1
  prev : rit.prevBand = lastStart out
  start : rit.curBand = (boxesOf out).length
  ok : ∀ b ∈ part, b.Ok
  covers : ∀ x y, InBoxes part x y ↔ Covered out x y ∨ cur.Covers x y
  lastLeft : ∃ b ∈ part, b.y1 = cur.y1 ∧ b.x1 = last.1
  lastRight : ∃ b ∈ part, b.x2 = last.2
  bottom : ∃ b ∈ part, b.y2 = cur.y2
  extLeft : ∃ b ∈ part, b.x1 = rit.reg.extents.x1
  extTop : ∃ b ∈ part, b.y1 = rit.reg.extents.y1
  extRight : ∃ b ∈ part, b.x2 = rit.reg.extents.x2
  bound : ∀ b ∈ part, rit.reg.extents.x1 ≤ b.x1 ∧ rit.reg.extents.y1 ≤ b.y1 ∧
    b.x2 ≤ max rit.reg.extents.x2 last.2 ∧ b.y2 ≤ cur.y2

section Info
variable {part : List Box} {rit : RegionInfo} {d : RegData} {out : List Band} {cur : Band}
  {init : List Span} {last : Span}

lemma InfoInv.regData (h : InfoInv part rit d out cur init last) : rit.reg.regData = d := by
  simp [RegionRec.regData,h.data]

lemma InfoInv.numRects (h : InfoInv part rit d out cur init last) :
    d.numRects = (boxesOf out).length + init.length + 1 := by
  rw [← RegData.length_rects h.wf,h.rects,List.length_append,length_boxesOfBand,h.spans]
  simp
  omega

lemma InfoInv.lastBox (h : InfoInv part rit d out cur init last) :
    d.box (d.numRects-1) = ⟨last.1,cur.y1,last.2,cur.y2⟩ := by
  have hn := h.numRects
  rw [RegData.box,List.getD_eq_getElem?_getD,RegData.getElem?_boxes (by omega),h.rects,
    List.getElem?_append_right (by omega)]
  have hidx : d.numRects-1-(boxesOf out).length = init.length := by omega
  rw [hidx,boxesOfBand,h.spans]
  simp

lemma InfoInv.last_proper (h : InfoInv part rit d out cur init last) : last.1 < last.2 :=
  h.curWf.separated.proper last (by simp [h.spans])

lemma meets_iff {l : List Box} {box : Box} :
    (∃ b ∈ l, ¬ Disj b box) ↔ ∃ x y, InBoxes l x y ∧ box.Has x y := by
  simp only [Disj,not_forall,not_not,InBoxes]
  constructor
  · rintro ⟨b,hb,x,y,h₁,h₂⟩
    exact ⟨x,y,⟨b,hb,h₁⟩,h₂⟩
  · rintro ⟨x,y,⟨b,hb,h₁⟩,h₂⟩
    exact ⟨b,hb,x,y,h₁,h₂⟩

lemma InfoInv.meets_same (h : InfoInv part rit d out cur init last) {box : Box} (hok : box.Ok)
    (hy1 : box.y1 = cur.y1) (hy2 : box.y2 = cur.y2) (hx : last.1 ≤ box.x1) :
    (∃ b ∈ part, ¬ Disj b box) ↔ box.x1 < last.2 := by
  have hrows := h.curWf.rows
  rw [meets_iff]
  constructor
  · rintro ⟨x,y,hin,hb⟩
    unfold Box.Has at hb
    rcases (h.covers x y).mp hin with ⟨b,hb',_,hby,_⟩ | ⟨_,_,s,hs,hsx⟩
    · have := h.above b hb'
      omega
    · rw [h.spans] at hs
      rcases List.mem_append.mp hs with hs | hs
      · have hg := h.curWf.separated.gaps
        rw [h.spans] at hg
        have := (List.pairwise_append.mp hg).2.2 s hs last (by simp)
        omega
      · rw [List.mem_singleton.mp hs] at hsx
        omega
  · intro hlt
    refine ⟨box.x1,cur.y1,(h.covers _ _).mpr (.inr ⟨le_rfl,hrows,last,by simp [h.spans],hx,hlt⟩),?_⟩
    have hox := hok.xs
    unfold Box.Has
    omega

lemma InfoInv.meets_below (h : InfoInv part rit d out cur init last) {box : Box}
    (hy : cur.y2 ≤ box.y1) : ¬ ∃ b ∈ part, ¬ Disj b box := by
  have hrows := h.curWf.rows
  rw [meets_iff]
  rintro ⟨x,y,hin,hb⟩
  unfold Box.Has at hb
  rcases (h.covers x y).mp hin with ⟨b,hb',_,hby,_⟩ | ⟨_,hcy,_⟩
  · have := h.above b hb'
    omega
  · omega

end Info
end Xlibre.Dix.Region
