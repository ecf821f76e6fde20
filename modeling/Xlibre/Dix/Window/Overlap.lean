import Xlibre.Dix.Region.Validate
import Xlibre.Dix.Window.Restack

/-! Whether one window covers a part of another: the extents, and the bounding shapes where there are some. -/
namespace Xlibre.Dix.Window
open Lib Lib.Chain Lib.Links Region

/-- A number in the 16 bits of an edge. -/
def toShort (v : ℤ) : ℤ := v.bmod 65536

def FitsShort (v : ℤ) : Prop := -32768 ≤ v ∧ v ≤ 32767

instance (v : ℤ) : Decidable (FitsShort v) := inferInstanceAs (Decidable (_ ∧ _))

lemma toShort_eq {v : ℤ} (h : FitsShort v) : toShort v = v := Int.bmod_eq_of_le (by have := h.1; omega) (by have := h.2; omega)

structure RegionOps (R : Type*) where
  create : Box → R
  translate : R → ℤ → ℤ → R
  intersect : R → R → R
  notEmpty : R → Bool
  /-- `RegionContainsRect` is not `rgnOUT`. -/
  containsRect : R → Box → Bool
  Has : R → ℤ × ℤ → Prop

/-- The operations are those of point sets; what a translation moves beyond the last edge is lost. -/
structure RegionOps.Lawful {R : Type*} (ops : RegionOps R) : Prop where
  has_create : ∀ b p, b.Ok → (ops.Has (ops.create b) p ↔ b.Has p.1 p.2)
  has_translate : ∀ r dx dy, (∀ p, ops.Has r p → (-32768 ≤ p.1+dx ∧ p.1+dx < 32767) ∧ -32768 ≤ p.2+dy ∧ p.2+dy < 32767) →
    ∀ p, ops.Has (ops.translate r dx dy) p ↔ ops.Has r (p.1-dx,p.2-dy)
  has_intersect : ∀ r s p, ops.Has (ops.intersect r s) p ↔ ops.Has r p ∧ ops.Has s p
  notEmpty_iff : ∀ r, ops.notEmpty r = true ↔ ∃ p, ops.Has r p

/-- What the stacking of a window depends on. The origin is relative to the parent, the shape to the window. -/
structure Win (R : Type*) where
  x : ℤ
  y : ℤ
  width : ℤ
  height : ℤ
  borderWidth : ℤ
  originX : ℤ
  originY : ℤ
  mapped : Bool
  boundingShape : Option R
  borderSize : R

variable {W R : Type*} [DecidableEq W]

section Test

def windowExtents (pWin : Win R) : Box :=
  ⟨toShort (pWin.x-pWin.borderWidth),toShort (pWin.y-pWin.borderWidth),
    toShort (pWin.x+pWin.width+pWin.borderWidth),toShort (pWin.y+pWin.height+pWin.borderWidth)⟩

def boxesOverlap (b1 b2 : Box) : Bool :=
  !(decide (b1.x2 ≤ b2.x1) || decide (b1.x1 ≥ b2.x2) || decide (b1.y2 ≤ b2.y1) || decide (b1.y1 ≥ b2.y2))

def makeBoundingRegion (ops : RegionOps R) (pWin : Win R) (pBox : Box) : R :=
  match pWin.boundingShape with
  | none => ops.create pBox
  | some shape =>
    let pRgn := ops.translate (ops.create pBox) (-pWin.originX) (-pWin.originY)
    ops.translate (ops.intersect pRgn shape) pWin.originX pWin.originY

def shapeOverlap (ops : RegionOps R) (pWin : Win R) (pWinBox : Box) (pSib : Win R) (pSibBox : Box) : Bool :=
  if pWin.boundingShape.isNone && pSib.boundingShape.isNone then true
  else ops.notEmpty (ops.intersect (makeBoundingRegion ops pWin pWinBox) (makeBoundingRegion ops pSib pSibBox))

/-- The test of one sibling in the loops of `AnyWindowOverlapsMe` and `IOverlapAnyWindow`. -/
def overlaps (ops : RegionOps R) (pWin : Win R) (box : Box) (pSib : Win R) : Bool :=
  pSib.mapped && (boxesOverlap (windowExtents pSib) box && shapeOverlap ops pWin box pSib (windowExtents pSib))

/-- The loop of `AnyWindowOverlapsMe`, which asks `NULL` for its fields when it does not meet the head. -/
def overlapsUpTo (test : W → Bool) (c : Chain W) (pHead : Option W) : ℕ → Option W → Option Bool
  | 0,_ => none
  | n+1,pSib =>
    if pSib = pHead then some false
    else
      match pSib with
      | none => none
      | some sib => if test sib then some true else overlapsUpTo test c pHead n (c.prev sib)

def anyWindowOverlapsMe (ops : RegionOps R) (fuel : ℕ) (c : Chain W) (win : W → Win R) (pWin : W) (pHead : Option W) (box : Box) :
    Option Bool :=
  overlapsUpTo (fun pSib => overlaps ops (win pWin) box (win pSib)) c pHead fuel (c.prev pWin)

def iOverlapAnyWindow (ops : RegionOps R) (fuel : ℕ) (c : Chain W) (win : W → Win R) (pWin : W) (box : Box) : Bool :=
  (c.search (fun pSib => overlaps ops (win pWin) box (win pSib)) fuel (c.next pWin)).isSome

end Test

section Bounding

variable {ops : RegionOps R} {v u : Win R} {b c : Box} {X Y : ℤ}

def boundingRegion (ops : RegionOps R) (b : Box) (X Y : ℤ) (shape : Option R) : Set (ℤ × ℤ) :=
  { p | b.Has p.1 p.2 ∧ ∀ r ∈ shape, ops.Has r (p.1-X,p.2-Y) }

def extents (v : Win R) : Box :=
  ⟨v.x-v.borderWidth,v.y-v.borderWidth,v.x+v.width+v.borderWidth,v.y+v.height+v.borderWidth⟩

structure FitsBox (b : Box) : Prop where
  ok : b.Ok
  x1 : -32768 ≤ b.x1
  y1 : -32768 ≤ b.y1
  x2 : b.x2 ≤ 32767
  y2 : b.y2 ≤ 32767

def OriginOnScreen (v : Win R) (b : Box) (X Y : ℤ) : Prop :=
  v.boundingShape ≠ none → v.originX = X ∧ v.originY = Y ∧ FitsBox ⟨b.x1-X,b.y1-Y,b.x2-X,b.y2-Y⟩

lemma windowExtents_eq (h : FitsBox (extents v)) : windowExtents v = extents v := by
  obtain ⟨⟨hx,hy⟩,hx1,hy1,hx2,hy2⟩ := h
  dsimp only [extents] at hx hy hx1 hy1 hx2 hy2
  unfold windowExtents extents
  rw [toShort_eq ⟨hx1,by omega⟩,toShort_eq ⟨hy1,by omega⟩,toShort_eq ⟨by omega,hx2⟩,toShort_eq ⟨by omega,hy2⟩]

lemma has_makeBoundingRegion (hops : ops.Lawful) (hb : FitsBox b) (hv : OriginOnScreen v b X Y) (p : ℤ × ℤ) :
    ops.Has (makeBoundingRegion ops v b) p ↔ p ∈ boundingRegion ops b X Y v.boundingShape := by
  obtain ⟨x,y⟩ := p
  cases hshape : v.boundingShape with
  | none =>
    rw [makeBoundingRegion,hshape]
    change ops.Has (ops.create b) (x,y) ↔ b.Has x y ∧ ∀ r ∈ (none : Option R), ops.Has r (x-X,y-Y)
    rw [hops.has_create b (x,y) hb.ok,and_iff_left (fun r hr => absurd hr (Option.not_mem_none r))]
  | some shape =>
    obtain ⟨hX,hY,hfits⟩ := hv (by simp [hshape])
    rw [makeBoundingRegion,hshape]
    change ops.Has (ops.translate (ops.intersect (ops.translate (ops.create b) (-v.originX) (-v.originY)) shape)
      v.originX v.originY) (x,y) ↔ b.Has x y ∧ ∀ r ∈ some shape, ops.Has r (x-X,y-Y)
    rw [hX,hY]
    have hback : ∀ q : ℤ × ℤ, ops.Has (ops.translate (ops.create b) (-X) (-Y)) q ↔ b.Has (q.1+X) (q.2+Y) := by
      intro q
      rw [hops.has_translate,hops.has_create b _ hb.ok]
      · rw [sub_neg_eq_add,sub_neg_eq_add]
      · intro p hp
        obtain ⟨h₁,h₂,h₃,h₄⟩ := (hops.has_create b p hb.ok).1 hp
        obtain ⟨-,h₅,h₆,h₇,h₈⟩ := hfits
        dsimp only at h₅ h₆ h₇ h₈
        omega
    rw [hops.has_translate,hops.has_intersect,hback,sub_add_cancel,sub_add_cancel]
    · simp only [Option.mem_some_iff,forall_eq']
    · intro p hp
      obtain ⟨h₁,h₂,h₃,h₄⟩ := (hback p).1 ((hops.has_intersect _ _ p).1 hp).1
      obtain ⟨-,h₅,h₆,h₇,h₈⟩ := hb
      omega

lemma boxesOverlap_iff (hb : b.Ok) (hc : c.Ok) : boxesOverlap b c = true ↔ ∃ p : ℤ × ℤ, b.Has p.1 p.2 ∧ c.Has p.1 p.2 := by
  obtain ⟨hbx,hby⟩ := hb
  obtain ⟨hcx,hcy⟩ := hc
  unfold boxesOverlap
  rw [Bool.not_eq_true']
  simp only [Bool.or_eq_false_iff,decide_eq_false_iff_not]
  constructor
  · rintro ⟨⟨⟨h₁,h₂⟩,h₃⟩,h₄⟩
    refine ⟨(max b.x1 c.x1,max b.y1 c.y1),?_,?_⟩ <;> unfold Box.Has <;> dsimp only <;> omega
  · rintro ⟨⟨x,y⟩,⟨h₁,h₂,h₃,h₄⟩,h₅,h₆,h₇,h₈⟩
    dsimp only at *
    omega

/-- Both tests together tell whether the bounding regions have a point in common. -/
theorem overlap_iff (hops : ops.Lawful) {X' Y' : ℤ} (hb : FitsBox b) (hc : FitsBox c) (hv : OriginOnScreen v b X Y)
    (hu : OriginOnScreen u c X' Y') :
    (boxesOverlap c b && shapeOverlap ops v b u c) = true ↔
      ∃ p, p ∈ boundingRegion ops b X Y v.boundingShape ∧ p ∈ boundingRegion ops c X' Y' u.boundingShape := by
  rw [Bool.and_eq_true,boxesOverlap_iff hc.ok hb.ok,shapeOverlap]
  by_cases hshape : (v.boundingShape.isNone && u.boundingShape.isNone) = true
  · obtain ⟨hvn,hun⟩ := by simpa using hshape
    rw [if_pos hshape,and_iff_left rfl,hvn,hun]
    simp only [boundingRegion,Set.mem_ofPred_eq,Option.not_mem_none,false_imp_iff,implies_true,and_true]
    exact exists_congr fun p => and_comm
  · rw [if_neg hshape,hops.notEmpty_iff]
    simp only [hops.has_intersect,has_makeBoundingRegion hops hb hv,has_makeBoundingRegion hops hc hu]
    refine and_iff_right_of_imp ?_
    rintro ⟨p,hp,hq⟩
    exact ⟨p,hq.1,hp.1⟩

end Bounding

section Walks

variable {test : W → Bool} {c : Chain W} {pHead : Option W} {l pre post : List W} {w : W} {n : ℕ}

lemma overlapsUpTo_eq (h : Nexts c.prev l pHead) (hout : ∀ x ∈ l, some x ≠ pHead) (hn : l.length < n) :
    overlapsUpTo test c pHead n (l.head?.or pHead) = some (l.any test) := by
  induction l generalizing n with
  | nil =>
    obtain ⟨n,rfl⟩ := Nat.exists_eq_succ_of_ne_zero (Nat.ne_of_gt hn)
    exact if_pos rfl
  | cons x l ih =>
    obtain ⟨n,rfl⟩ := Nat.exists_eq_succ_of_ne_zero (Nat.ne_of_gt (Nat.zero_lt_of_lt hn))
    have hrest := ih h.2 (fun y hy => hout y (List.mem_cons_of_mem x hy)) (Nat.lt_of_succ_lt_succ hn)
    have hx : some x ≠ pHead := hout x List.mem_cons_self
    change (if some x = pHead then _ else if test x then some true else overlapsUpTo test c pHead n (c.prev x)) = _
    rw [if_neg hx,h.1,hrest,List.any_cons]
    cases test x <;> rfl

lemma overlapsUpTo_null (h : Nexts c.prev l none) (hout : ∀ x ∈ l, some x ≠ pHead) (hhead : pHead ≠ none) (hn : l.length < n) :
    overlapsUpTo test c pHead n l.head? = if l.any test then some true else none := by
  induction l generalizing n with
  | nil =>
    obtain ⟨n,rfl⟩ := Nat.exists_eq_succ_of_ne_zero (Nat.ne_of_gt hn)
    exact if_neg hhead.symm
  | cons x l ih =>
    obtain ⟨n,rfl⟩ := Nat.exists_eq_succ_of_ne_zero (Nat.ne_of_gt (Nat.zero_lt_of_lt hn))
    have hrest := ih h.2 (fun y hy => hout y (List.mem_cons_of_mem x hy)) (Nat.lt_of_succ_lt_succ hn)
    have hx : some x ≠ pHead := hout x List.mem_cons_self
    change (if some x = pHead then _ else if test x then some true else overlapsUpTo test c pHead n (c.prev x)) = _
    rw [if_neg hx,h.1,Option.or_none,hrest,List.any_cons]
    cases test x <;> rfl

omit [DecidableEq W] in
lemma search_below (h : c.Lists (pre ++ w::post)) (hn : post.length < n) :
    (c.search test n (c.next w)).isSome = post.any test := by
  rw [h.next,search_eq test (nexts_append.1 h.nexts).2.2 hn,List.isSome_find?]

lemma overlapsUpTo_below {top : List W} (h : c.Lists (top ++ (pre ++ w::post))) (hn : pre.length < n) :
    overlapsUpTo test c top.getLast? n (c.prev w) = some (pre.any test) := by
  have h' := h
  rw [← List.append_assoc] at h'
  have hprevs := h'.prevs
  rw [List.reverse_append,List.reverse_cons,List.append_assoc,List.singleton_append] at hprevs
  have hbefore := (nexts_append.1 hprevs).2.2
  rw [List.reverse_append] at hbefore
  have hpre : Nexts c.prev pre.reverse top.getLast? := by
    have hparts := (nexts_append.1 hbefore).1
    rwa [Option.or_none,List.head?_reverse] at hparts
  have hout : ∀ x ∈ pre.reverse, some x ≠ top.getLast? := fun x hx he =>
    not_mem_of_getLast h.nodup he.symm (List.mem_append_left _ (List.mem_reverse.1 hx))
  have hprev : c.prev w = pre.reverse.head?.or top.getLast? := by
    rw [h'.prev,List.getLast?_append,List.head?_reverse]
  rw [hprev,overlapsUpTo_eq hpre hout (by rwa [List.length_reverse]),List.any_reverse]

lemma overlapsUpTo_above (h : c.Lists (pre ++ w::post)) (hhead : pHead ≠ none) (hout : ∀ x ∈ pre, some x ≠ pHead)
    (hn : pre.length < n) : overlapsUpTo test c pHead n (c.prev w) = if pre.any test then some true else none := by
  have hprevs := h.prevs
  rw [List.reverse_append,List.reverse_cons,List.append_assoc,List.singleton_append] at hprevs
  have hpre := (nexts_append.1 hprevs).2.2
  rw [h.prev,← List.head?_reverse,overlapsUpTo_null hpre (fun x hx => hout x (List.mem_reverse.1 hx)) hhead
    (by rwa [List.length_reverse]),List.any_reverse]

end Walks

end Xlibre.Dix.Window
