import Xlibre.Dix.Window.Places

/-! Stacking requests: where the window goes, and when that is the place that was asked for. -/
namespace Xlibre.Dix.Window
open Lib Lib.Chain Lib.Links Region

variable {W R : Type*} [DecidableEq W]

section Code

/-- The geometry that a window is to have, relative to its parent, and where it is to be in the stack. -/
structure Request (W : Type*) where
  x : ℤ
  y : ℤ
  width : ℤ
  height : ℤ
  borderWidth : ℤ
  sibling : Option W
  mode : Mode

def toCard16 (v : ℤ) : ℤ := v%65536

/-- The part of `ConfigureWindow` that puts the window into its place among the children. -/
def configureStack (ops : RegionOps R) (fuel : ℕ) (s : Children W R) (pHead : Option W) (pWin : W) (req : Request W) :
    Option (Chain W × Option W) :=
  (whereDoIGoInTheStack ops fuel s pHead pWin req.sibling (toShort (s.x+req.x)) (toShort (s.y+req.y))
    (toCard16 (req.width+2*req.borderWidth)) (toCard16 (req.height+2*req.borderWidth)) req.mode).map
      (moveWindowInStack fuel s.chain pWin)

end Code

section Spec

def Request.extents (s : Children W R) (req : Request W) : Box :=
  ⟨s.x+req.x,s.y+req.y,s.x+req.x+(req.width+2*req.borderWidth),s.y+req.y+(req.height+2*req.borderWidth)⟩

def Request.box (s : Children W R) (req : Request W) : Box :=
  ⟨toShort (s.x+req.x),toShort (s.y+req.y),toShort (toShort (s.x+req.x)+toCard16 (req.width+2*req.borderWidth)),
    toShort (toShort (s.y+req.y)+toCard16 (req.height+2*req.borderWidth))⟩

/-- The bounding regions of a window at a place on the screen and of a mapped sibling have a point in common. -/
def Meets (ops : RegionOps R) (v : Win R) (b : Box) (X Y : ℤ) (u : Win R) : Prop :=
  u.mapped = true ∧
    ∃ p, p ∈ boundingRegion ops b X Y v.boundingShape ∧ p ∈ boundingRegion ops (Window.extents u) u.x u.y u.boundingShape

variable (ops : RegionOps R) (s : Children W R) (top real : List W) (w : W)

def Occluded (b : Box) (X Y : ℤ) : Prop := ∃ u ∈ siblingsAbove top real w, Meets ops (s.win w) b X Y (s.win u)

def Occluding (b : Box) (X Y : ℤ) : Prop := ∃ u ∈ siblingsBelow top real w, Meets ops (s.win w) b X Y (s.win u)

def Request.Occluded (req : Request W) : Prop :=
  Window.Occluded ops s top real w (req.extents s) (s.x+req.x+req.borderWidth) (s.y+req.y+req.borderWidth)

def Request.Occluding (req : Request W) : Prop :=
  Window.Occluding ops s top real w (req.extents s) (s.x+req.x+req.borderWidth) (s.y+req.y+req.borderWidth)

/-- Both windows are mapped, and the one is not outside of the other. -/
def Request.TouchesSibling (req : Request W) (sib : W) : Prop :=
  (s.win w).mapped = true ∧ (s.win sib).mapped = true ∧ ops.containsRect (s.win sib).borderSize (req.box s) = true

open Classical in
/-- The place that a request designates. -/
noncomputable def Request.place (req : Request W) : Place W :=
  match req.mode,req.sibling with
  | .above,some sib => .above sib
  | .above,none => .top
  | .below,some sib => .below sib
  | .below,none => .bottom
  | .topIf,some sib =>
    if req.TouchesSibling ops s w sib ∧ sib ∈ (top ++ real).takeWhile (fun x => decide (x ≠ w)) then .top else .unmoved
  | .topIf,none => if (s.win w).mapped = true ∧ req.Occluded ops s top real w then .top else .unmoved
  | .bottomIf,some sib =>
    if req.TouchesSibling ops s w sib ∧ sib ∉ (top ++ real).takeWhile (fun x => decide (x ≠ w)) then .bottom else .unmoved
  | .bottomIf,none => if (s.win w).mapped = true ∧ req.Occluding ops s top real w then .bottom else .unmoved
  | .opposite,some sib =>
    if req.TouchesSibling ops s w sib then
      if sib ∈ (top ++ real).takeWhile (fun x => decide (x ≠ w)) then .top else .bottom
    else .unmoved
  | .opposite,none =>
    if (s.win w).mapped = true ∧ req.Occluded ops s top real w then .top
    else if (s.win w).mapped = true ∧ req.Occluding ops s top real w then .bottom
    else .unmoved

/-- The children are in the order that was asked for, all pointers tell it, and the window that is returned is the topmost that
is not where another was, or the window itself when there is none. -/
def Restacked (top real : List W) (w : W) (place : Place W) (r : Option (Chain W × Option W)) : Prop :=
  ∃ c first, r = some (c,some first) ∧ c.Lists (arrange top real w place) ∧
    first = (firstChange (top ++ real) (arrange top real w place)).getD w

end Spec

section Compare

/-- The boxes that are compared can be told in 16 bits, and where they overlap the windows with a shape are where their origins
say. -/
structure Clear (s : Children W R) (siblings : List W) (w : W) (b : Box) (X Y : ℤ) : Prop where
  box : FitsBox b
  fits : ∀ u ∈ siblings, (s.win u).mapped = true → FitsBox (extents (s.win u))
  origins : ∀ u ∈ siblings, (s.win u).mapped = true → boxesOverlap (extents (s.win u)) b = true →
    OriginOnScreen (s.win w) b X Y ∧ OriginOnScreen (s.win u) (extents (s.win u)) (s.win u).x (s.win u).y

variable {ops : RegionOps R} {s : Children W R} {top real siblings pre post : List W} {w u : W} {b : Box} {X Y : ℤ} {fuel : ℕ}

omit [DecidableEq W] in
lemma Clear.overlaps_iff (h : Clear s siblings w b X Y) (hops : ops.Lawful) (hu : u ∈ siblings) :
    overlaps ops (s.win w) b (s.win u) = true ↔ Meets ops (s.win w) b X Y (s.win u) := by
  unfold overlaps Meets
  rw [Bool.and_eq_true]
  refine and_congr_right fun hmapped => ?_
  have hfits := h.fits u hu hmapped
  rw [windowExtents_eq hfits]
  by_cases hover : boxesOverlap (extents (s.win u)) b = true
  · obtain ⟨hw,hs⟩ := h.origins u hu hmapped hover
    exact overlap_iff hops h.box hfits hw hs
  · rw [Bool.and_eq_true]
    refine iff_of_false (fun hb => hover hb.1) fun ⟨p,hp,hq⟩ => hover ?_
    exact (boxesOverlap_iff hfits.ok h.box.ok).2 ⟨p,hq.1,hp.1⟩

omit [DecidableEq W] in
lemma Clear.any_iff (h : Clear s siblings w b X Y) (hops : ops.Lawful) :
    siblings.any (fun u => overlaps ops (s.win w) b (s.win u)) = true ↔ ∃ u ∈ siblings, Meets ops (s.win w) b X Y (s.win u) := by
  rw [List.any_eq_true]
  exact exists_congr fun u => and_congr_right fun hu => h.overlaps_iff hops hu

lemma siblingsBelow_eq (h : (pre ++ w::post).Nodup) (he : top ++ real = pre ++ w::post) : siblingsBelow top real w = post := by
  have hout := (List.nodup_cons.1 (List.nodup_middle.1 h)).1
  rw [siblingsBelow,he,dropWhile_ne fun hm => hout (List.mem_append_left post hm)]
  rfl

lemma iOverlapAnyWindow_eq (hl : s.chain.Lists (top ++ real)) (hw : w ∈ top ++ real) (hfuel : (top ++ real).length < fuel) :
    iOverlapAnyWindow ops fuel s.chain s.win w b =
      (siblingsBelow top real w).any (fun u => overlaps ops (s.win w) b (s.win u)) := by
  obtain ⟨pre,post,he⟩ := List.append_of_mem hw
  rw [siblingsBelow_eq (he ▸ hl.nodup) he]
  rw [he] at hl hfuel
  rw [List.length_append,List.length_cons] at hfuel
  exact search_below hl (by omega)

lemma anyWindowOverlapsMe_eq (hl : s.chain.Lists (top ++ real)) (hw : w ∈ real) (hfuel : (top ++ real).length < fuel) :
    anyWindowOverlapsMe ops fuel s.chain s.win w top.getLast? b =
      some ((siblingsAbove top real w).any (fun u => overlaps ops (s.win w) b (s.win u))) := by
  have htop : w ∉ top := fun hm => (List.disjoint_of_nodup_append hl.nodup) hm hw
  obtain ⟨pre,post,rfl⟩ := List.append_of_mem hw
  have hpre := (List.nodup_cons.1 (List.nodup_middle.1 hl.nodup.of_append_right)).1
  rw [siblingsAbove,if_neg htop,takeWhile_ne fun hm => hpre (List.mem_append_left post hm)]
  rw [List.length_append,List.length_append] at hfuel
  exact overlapsUpTo_below hl (by omega)

lemma anyWindowOverlapsMe_top (hl : s.chain.Lists (top ++ real)) (hw : w ∈ top) (hfuel : (top ++ real).length < fuel) :
    anyWindowOverlapsMe ops fuel s.chain s.win w top.getLast? b =
      if (siblingsAbove top real w).any (fun u => overlaps ops (s.win w) b (s.win u)) then some true else none := by
  have htop := hw
  obtain ⟨pre,post,rfl⟩ := List.append_of_mem hw
  have hnd := hl.nodup.of_append_left
  have hpre := (List.nodup_cons.1 (List.nodup_middle.1 hnd)).1
  have hlast : ∀ x ∈ pre, some x ≠ (pre ++ w::post).getLast? := by
    intro x hx he
    rw [List.getLast?_append_of_ne_nil _ (List.cons_ne_nil w post)] at he
    exact (List.disjoint_of_nodup_append hnd) hx (List.mem_of_getLast? he.symm)
  rw [siblingsAbove,if_pos htop,takeWhile_ne fun hm => hpre (List.mem_append_left post hm)]
  rw [List.append_assoc,List.cons_append] at hl
  rw [List.length_append,List.length_append] at hfuel
  exact overlapsUpTo_above hl (by simp) hlast (by omega)

end Compare

section Exact

variable {ops : RegionOps R} {s : Children W R} {top real : List W} {w : W} {req : Request W} {fuel : ℕ}

def Request.Compares (s : Children W R) (w : W) (req : Request W) : Prop :=
  (s.win w).mapped = true ∧ req.sibling = none ∧ req.mode ≠ .above ∧ req.mode ≠ .below

/-- What the request asks for can be told from the geometry that the code looks at. -/
structure Request.Clear (s : Children W R) (top real : List W) (w : W) (req : Request W) : Prop where
  above : req.Compares s w → req.mode ≠ .bottomIf →
    Window.Clear s (siblingsAbove top real w) w (req.extents s) (s.x+req.x+req.borderWidth) (s.y+req.y+req.borderWidth)
  below : req.Compares s w → req.mode ≠ .topIf →
    Window.Clear s (siblingsBelow top real w) w (req.extents s) (s.x+req.x+req.borderWidth) (s.y+req.y+req.borderWidth)

/-- A window that stays on top is asked whether it is occluded, is not, and is not the only one. -/
def Request.ReachesNull (ops : RegionOps R) (s : Children W R) (top real : List W) (w : W) (req : Request W) : Prop :=
  w ∈ top ∧ top ++ real ≠ [w] ∧ (s.win w).mapped = true ∧ req.sibling = none ∧ (req.mode = .topIf ∨ req.mode = .opposite) ∧
    ¬req.Occluded ops s top real w

/-- The first window below those on top is asked to go to the top because of one of them. -/
def Request.OntoItself (ops : RegionOps R) (s : Children W R) (top real : List W) (w : W) (req : Request W) : Prop :=
  real.head? = some w ∧ (req.mode = .topIf ∨ req.mode = .opposite) ∧ ∃ sib ∈ top, req.sibling = some sib ∧ req.TouchesSibling ops s w sib

omit [DecidableEq W] in
lemma box_eq (h : FitsBox (req.extents s)) : req.box s = req.extents s := by
  obtain ⟨⟨hx,hy⟩,hx1,hy1,hx2,hy2⟩ := h
  dsimp only [Request.extents] at hx hy hx1 hy1 hx2 hy2
  have hw : toCard16 (req.width+2*req.borderWidth) = req.width+2*req.borderWidth := Int.emod_eq_of_lt (by omega) (by omega)
  have hh : toCard16 (req.height+2*req.borderWidth) = req.height+2*req.borderWidth := Int.emod_eq_of_lt (by omega) (by omega)
  unfold Request.box Request.extents
  rw [hw,hh,toShort_eq ⟨hx1,by omega⟩,toShort_eq ⟨hy1,by omega⟩,toShort_eq ⟨by omega,hx2⟩,toShort_eq ⟨by omega,hy2⟩]

lemma target_only (he : top ++ real = [w]) {place : Place W} (habove : ∀ sib, place ≠ .above sib) (hbelow : ∀ sib, place ≠ .below sib) :
    Target top real w none (arrange top real w place) := by
  have herase : (top ++ real).erase w = [] := by rw [he,List.erase_cons_head]
  refine ⟨[],[],herase,rfl,?_⟩
  cases place with
  | above sib => exact absurd rfl (habove sib)
  | below sib => exact absurd rfl (hbelow sib)
  | top =>
    obtain ⟨rfl,rfl⟩ | ⟨rfl,rfl⟩ := List.append_eq_singleton_iff.1 he <;> simp [arrange]
  | bottom => simp [arrange,herase]
  | unmoved => exact he

/-- The children and the window are as the pointers say, and the sibling is another child. -/
structure Request.Valid (s : Children W R) (top real : List W) (w : W) (req : Request W) : Prop where
  lists : s.chain.Lists (top ++ real)
  mem : w ∈ top ++ real
  sibling : ∀ sib, req.sibling = some sib → sib ∈ top ++ real ∧ sib ≠ w

/-- The window is told to go above one that leads to this list. -/
def Request.Goes (ops : RegionOps R) (fuel : ℕ) (s : Children W R) (top real : List W) (w : W) (req : Request W) (l : List W) : Prop :=
  ∃ t, whereDoIGoInTheStack ops fuel s top.getLast? w req.sibling (toShort (s.x+req.x)) (toShort (s.y+req.y))
    (toCard16 (req.width+2*req.borderWidth)) (toCard16 (req.height+2*req.borderWidth)) req.mode = some t ∧ Target top real w t l

omit [DecidableEq W] in
lemma only_iff {c : Chain W} (h : c.Lists (top ++ real)) (hw : w ∈ top ++ real) :
    (c.first = some w ∧ c.last = some w) ↔ top ++ real = [w] := by
  obtain ⟨pre,post,he⟩ := List.append_of_mem hw
  rw [he] at h ⊢
  have hout := not_mem_rest h
  constructor
  · intro ⟨hfirst,hlast⟩
    have hpre : pre = [] := by
      cases pre with
      | nil => rfl
      | cons x pre =>
        obtain rfl : x = w := Option.some.inj (h.first.symm.trans hfirst)
        exact absurd List.mem_cons_self hout
    obtain rfl | ⟨m,x,rfl⟩ := List.eq_nil_or_concat post
    · rw [hpre]
      rfl
    · rw [h.last,List.concat_eq_append,← List.cons_append,← List.append_assoc,List.getLast?_concat] at hlast
      exact absurd (by simp [Option.some.inj hlast]) hout
  · intro hone
    rw [h.first,h.last,hone]
    exact ⟨rfl,rfl⟩

lemma head_ne_of_occluded {b : Box} {X Y : ℤ} (h : s.chain.Lists (top ++ real)) (hocc : Occluded ops s top real w b X Y) :
    real.head? ≠ some w := by
  intro he
  obtain ⟨u,hu,-⟩ := hocc
  rw [siblingsAbove_ne h he] at hu
  exact absurd hu List.not_mem_nil

variable (hops : ops.Lawful) (h : req.Valid s top real w) (hfuel : (top ++ real).length < fuel)
include h

section Sibling
variable {sib : W}

lemma goes_above (hone : top ++ real ≠ [w]) (hsib : req.sibling = some sib) (hmode : req.mode = .above) :
    req.Goes ops fuel s top real w (arrange top real w (.above sib)) := by
  refine ⟨some sib,?_,target_above h.lists (h.sibling sib hsib).1 (h.sibling sib hsib).2⟩
  unfold whereDoIGoInTheStack
  rw [if_neg fun ho => hone ((only_iff h.lists h.mem).1 ho),hsib,hmode]

lemma goes_below (hone : top ++ real ≠ [w]) (hsib : req.sibling = some sib) (hmode : req.mode = .below) :
    req.Goes ops fuel s top real w (arrange top real w (.below sib)) := by
  refine ⟨_,?_,target_below h.lists h.mem (h.sibling sib hsib).1 (h.sibling sib hsib).2⟩
  unfold whereDoIGoInTheStack
  rw [if_neg fun ho => hone ((only_iff h.lists h.mem).1 ho),hsib,hmode]
  exact (apply_ite some _ _ _).symm

omit h in
lemma head_ne_of_above (hl : s.chain.Lists (top ++ real)) (habove : sib ∈ (top ++ real).takeWhile (fun x => decide (x ≠ w)))
    (htop : sib ∉ top) : real.head? ≠ some w := by
  intro he
  obtain ⟨real,rfl⟩ := List.head?_eq_some_iff.1 he
  rw [takeWhile_ne fun hm => (List.disjoint_of_nodup_append hl.nodup) hm List.mem_cons_self] at habove
  exact htop habove

include hfuel

lemma goes_sibling (hone : top ++ real ≠ [w]) (hsib : req.sibling = some sib) (hself : ¬req.OntoItself ops s top real w)
    (hmode : req.mode = .topIf ∨ req.mode = .bottomIf ∨ req.mode = .opposite)
    (hw : (s.win w).mapped = true) (hu : (s.win sib).mapped = true) :
    req.Goes ops fuel s top real w (arrange top real w (req.place ops s top real w)) := by
  have habove := isSiblingAboveMe_eq h.lists h.mem (h.sibling sib hsib).2 hfuel
  have htouch : req.TouchesSibling ops s w sib ↔ ops.containsRect (s.win sib).borderSize (req.box s) = true :=
    ⟨fun ht => ht.2.2,fun ht => ⟨hw,hu,ht⟩⟩
  have hmapped : (!(s.win w).mapped || (some sib).any (fun sib => !(s.win sib).mapped)) = false := by simp [hw,hu]
  have htop : req.mode = .topIf ∨ req.mode = .opposite → req.TouchesSibling ops s w sib →
      sib ∈ (top ++ real).takeWhile (fun x => decide (x ≠ w)) → Target top real w (pFirst s.chain top.getLast?) (arrange top real w .top) := by
    intro hm ht ha
    refine target_top h.lists h.mem (fun he => ?_)
    exact head_ne_of_above h.lists ha (fun hs => hself ⟨he,hm,sib,hs,hsib,ht⟩) he
  unfold Request.Goes whereDoIGoInTheStack Request.place
  rw [if_neg fun ho => hone ((only_iff h.lists h.mem).1 ho),hsib,hmapped]
  obtain hmode | hmode | hmode := hmode
  · rw [hmode]
    dsimp only
    have hboth : (isSiblingAboveMe fuel s.chain w sib && ops.containsRect (s.win sib).borderSize (req.box s)) = true ↔
        req.TouchesSibling ops s w sib ∧ sib ∈ (top ++ real).takeWhile (fun x => decide (x ≠ w)) := by
      rw [Bool.and_eq_true,habove,← htouch,and_comm]
    by_cases hb : req.TouchesSibling ops s w sib ∧ sib ∈ (top ++ real).takeWhile (fun x => decide (x ≠ w))
    · rw [if_pos hb]
      exact ⟨_,(if_neg Bool.false_ne_true).trans (if_pos (hboth.2 hb)),htop (.inl hmode) hb.1 hb.2⟩
    · rw [if_neg hb]
      exact ⟨_,(if_neg Bool.false_ne_true).trans (if_neg fun he => hb (hboth.1 he)),target_unmoved h.lists h.mem⟩
  · rw [hmode]
    dsimp only
    have hboth : (!isSiblingAboveMe fuel s.chain w sib && ops.containsRect (s.win sib).borderSize (req.box s)) = true ↔
        req.TouchesSibling ops s w sib ∧ sib ∉ (top ++ real).takeWhile (fun x => decide (x ≠ w)) := by
      rw [Bool.and_eq_true,Bool.not_eq_true',← Bool.not_eq_true,habove,← htouch,and_comm]
    by_cases hb : req.TouchesSibling ops s w sib ∧ sib ∉ (top ++ real).takeWhile (fun x => decide (x ≠ w))
    · rw [if_pos hb]
      exact ⟨_,(if_neg Bool.false_ne_true).trans (if_pos (hboth.2 hb)),target_bottom⟩
    · rw [if_neg hb]
      exact ⟨_,(if_neg Bool.false_ne_true).trans (if_neg fun he => hb (hboth.1 he)),target_unmoved h.lists h.mem⟩
  · rw [hmode]
    dsimp only
    by_cases ht : req.TouchesSibling ops s w sib
    · rw [if_pos ht]
      by_cases ha : sib ∈ (top ++ real).takeWhile (fun x => decide (x ≠ w))
      · rw [if_pos ha]
        refine ⟨_,(if_neg Bool.false_ne_true).trans ((if_pos (htouch.1 ht)).trans (if_pos (habove.2 ha))),?_⟩
        exact htop (.inr hmode) ht ha
      · rw [if_neg ha]
        refine ⟨_,(if_neg Bool.false_ne_true).trans ((if_pos (htouch.1 ht)).trans (if_neg fun he => ha (habove.1 he))),?_⟩
        exact target_bottom
    · rw [if_neg ht]
      exact ⟨_,(if_neg Bool.false_ne_true).trans (if_neg fun he => ht (htouch.2 he)),target_unmoved h.lists h.mem⟩

end Sibling

omit hfuel in
omit h in
lemma place_unmapped (hmode : req.mode = .topIf ∨ req.mode = .bottomIf ∨ req.mode = .opposite)
    (hunmapped : (!(s.win w).mapped || req.sibling.any (fun sib => !(s.win sib).mapped)) = true) :
    req.place ops s top real w = .unmoved := by
  unfold Request.place Request.TouchesSibling
  cases hsib : req.sibling with
  | none =>
    have hw : (s.win w).mapped = false := by simpa [hsib] using hunmapped
    obtain hmode | hmode | hmode := hmode <;> rw [hmode] <;> simp [hw]
  | some sib =>
    have hw : ¬((s.win w).mapped = true ∧ (s.win sib).mapped = true) := by
      rw [hsib] at hunmapped
      intro ⟨hw,hu⟩
      simp [hw,hu] at hunmapped
    have hnot : ∀ P : Prop, ¬((s.win w).mapped = true ∧ (s.win sib).mapped = true ∧ P) := fun P hP => hw ⟨hP.1,hP.2.1⟩
    obtain hmode | hmode | hmode := hmode <;> rw [hmode] <;> simp [hnot]

lemma goes_unmapped (hone : top ++ real ≠ [w])
    (hmode : req.mode = .topIf ∨ req.mode = .bottomIf ∨ req.mode = .opposite)
    (hunmapped : (!(s.win w).mapped || req.sibling.any (fun sib => !(s.win sib).mapped)) = true) :
    req.Goes ops fuel s top real w (arrange top real w .unmoved) := by
  refine ⟨_,?_,target_unmoved h.lists h.mem⟩
  unfold whereDoIGoInTheStack
  rw [if_neg fun ho => hone ((only_iff h.lists h.mem).1 ho)]
  obtain hmode | hmode | hmode := hmode <;> rw [hmode] <;> exact if_pos hunmapped

include hfuel

lemma goes_compared (hops : ops.Lawful) (hclear : req.Clear s top real w) (hone : top ++ real ≠ [w]) (hcompares : req.Compares s w)
    (hnull : ¬req.ReachesNull ops s top real w) :
    req.Goes ops fuel s top real w (arrange top real w (req.place ops s top real w)) := by
  obtain ⟨hmapped,hsib,habove,hbelow⟩ := hcompares
  have hocc : req.mode ≠ .bottomIf → (req.Occluded ops s top real w ↔
      (siblingsAbove top real w).any (fun u => overlaps ops (s.win w) (req.box s) (s.win u)) = true) := by
    intro hmode
    have hgeom := hclear.above ⟨hmapped,hsib,habove,hbelow⟩ hmode
    rw [box_eq hgeom.box]
    exact (hgeom.any_iff hops).symm
  have hbel : req.mode ≠ .topIf →
      (req.Occluding ops s top real w ↔ iOverlapAnyWindow ops fuel s.chain s.win w (req.box s) = true) := by
    intro hmode
    have hgeom := hclear.below ⟨hmapped,hsib,habove,hbelow⟩ hmode
    rw [box_eq hgeom.box,iOverlapAnyWindow_eq h.lists h.mem hfuel]
    exact (hgeom.any_iff hops).symm
  have hasked : req.mode = .topIf ∨ req.mode = .opposite →
      anyWindowOverlapsMe ops fuel s.chain s.win w top.getLast? (req.box s) =
        some ((siblingsAbove top real w).any (fun u => overlaps ops (s.win w) (req.box s) (s.win u))) := by
    intro hmode
    have hne : req.mode ≠ .bottomIf := by obtain hm | hm := hmode <;> simp [hm]
    by_cases htop : w ∈ top
    · have hany := (hocc hne).1 (by_contra fun hn => hnull ⟨htop,hone,hmapped,hsib,hmode,hn⟩)
      rw [anyWindowOverlapsMe_top h.lists htop hfuel,if_pos hany,hany]
    · exact anyWindowOverlapsMe_eq h.lists ((List.mem_append.1 h.mem).resolve_left htop) hfuel
  have htoTop : req.Occluded ops s top real w → Target top real w (pFirst s.chain top.getLast?) (arrange top real w .top) :=
    fun ho => target_top h.lists h.mem (head_ne_of_occluded h.lists ho)
  have hoccluded : ((s.win w).mapped = true ∧ req.Occluded ops s top real w) ↔ req.Occluded ops s top real w := and_iff_right hmapped
  have hoccluding : ((s.win w).mapped = true ∧ req.Occluding ops s top real w) ↔ req.Occluding ops s top real w :=
    and_iff_right hmapped
  have hun : (!(s.win w).mapped || (none : Option W).any (fun sib => !(s.win sib).mapped)) = false := by simp [hmapped]
  unfold Request.Goes whereDoIGoInTheStack Request.place
  rw [if_neg fun ho => hone ((only_iff h.lists h.mem).1 ho),hsib,hun]
  cases hmode : req.mode with
  | above => exact absurd hmode habove
  | below => exact absurd hmode hbelow
  | topIf =>
    dsimp only
    rw [if_neg Bool.false_ne_true]
    have hocc := hocc (by simp [hmode])
    by_cases ho : req.Occluded ops s top real w
    · rw [if_pos (hoccluded.2 ho)]
      refine ⟨_,(congrArg (Option.map _) (hasked (.inl hmode))).trans ?_,htoTop ho⟩
      rw [hocc.1 ho]
      rfl
    · rw [if_neg fun hb => ho (hoccluded.1 hb)]
      refine ⟨_,(congrArg (Option.map _) (hasked (.inl hmode))).trans ?_,target_unmoved h.lists h.mem⟩
      rw [eq_false_of_ne_true fun he => ho (hocc.2 he)]
      rfl
  | bottomIf =>
    dsimp only
    rw [if_neg Bool.false_ne_true]
    have hbel := hbel (by simp [hmode])
    by_cases ho : req.Occluding ops s top real w
    · rw [if_pos (hoccluding.2 ho)]
      exact ⟨_,if_pos (hbel.1 ho),target_bottom⟩
    · rw [if_neg fun hb => ho (hoccluding.1 hb)]
      exact ⟨_,if_neg fun he => ho (hbel.2 he),target_unmoved h.lists h.mem⟩
  | opposite =>
    dsimp only
    rw [if_neg Bool.false_ne_true]
    have hocc := hocc (by simp [hmode])
    have hbel := hbel (by simp [hmode])
    by_cases ho : req.Occluded ops s top real w
    · rw [if_pos (hoccluded.2 ho)]
      refine ⟨_,(congrArg (Option.map _) (hasked (.inr hmode))).trans ?_,htoTop ho⟩
      rw [hocc.1 ho]
      rfl
    · rw [if_neg fun hb => ho (hoccluded.1 hb)]
      have hnot := eq_false_of_ne_true fun he => ho (hocc.2 he)
      by_cases hb : req.Occluding ops s top real w
      · rw [if_pos (hoccluding.2 hb)]
        refine ⟨_,(congrArg (Option.map _) (hasked (.inr hmode))).trans ?_,target_bottom⟩
        rw [hnot]
        exact congrArg some (if_pos (hbel.1 hb))
      · rw [if_neg fun he => hb (hoccluding.1 he)]
        refine ⟨_,(congrArg (Option.map _) (hasked (.inr hmode))).trans ?_,
          target_unmoved h.lists h.mem⟩
        rw [hnot]
        exact congrArg some (if_neg fun he => hb (hbel.2 he))

omit hfuel in
lemma goes_alone (hone : top ++ real ≠ [w]) (hsib : req.sibling = none) (hmode : req.mode = .above ∨ req.mode = .below) :
    req.Goes ops fuel s top real w (arrange top real w (req.place ops s top real w)) := by
  unfold Request.Goes whereDoIGoInTheStack Request.place
  rw [if_neg fun ho => hone ((only_iff h.lists h.mem).1 ho),hsib]
  obtain hmode | hmode := hmode
  · rw [hmode]
    dsimp only
    by_cases hfirst : pFirst s.chain top.getLast? = some w
    · rw [arrange_top_first h.lists (pFirst_eq h.lists ▸ hfirst)]
      exact ⟨_,if_pos hfirst,target_unmoved h.lists h.mem⟩
    · exact ⟨_,if_neg hfirst,target_top h.lists h.mem (pFirst_eq h.lists ▸ hfirst)⟩
  · rw [hmode]
    exact ⟨_,rfl,target_bottom⟩

omit hfuel in
lemma goes_only (hone : top ++ real = [w]) : req.Goes ops fuel s top real w (arrange top real w (req.place ops s top real w)) := by
  have hsib : req.sibling = none := by
    refine Option.eq_none_iff_forall_ne_some.2 fun sib hs => ?_
    obtain ⟨hmem,hne⟩ := h.sibling sib hs
    rw [hone] at hmem
    exact hne (List.mem_singleton.1 hmem)
  refine ⟨none,?_,target_only hone ?_ ?_⟩
  · unfold whereDoIGoInTheStack
    exact if_pos ((only_iff h.lists h.mem).2 hone)
  all_goals
    intro sib
    unfold Request.place
    rw [hsib]
    cases req.mode <;> dsimp only <;> (try split_ifs) <;> simp

/-- The window is told to go to its place, but for two cases that `top` makes. -/
theorem Request.Valid.goes (hops : ops.Lawful) (hclear : req.Clear s top real w) (hnull : ¬req.ReachesNull ops s top real w)
    (hself : ¬req.OntoItself ops s top real w) :
    req.Goes ops fuel s top real w (arrange top real w (req.place ops s top real w)) := by
  by_cases hone : top ++ real = [w]
  · exact goes_only h hone
  by_cases hcond : req.mode = .above ∨ req.mode = .below
  · cases hsib : req.sibling with
    | none => exact goes_alone h hone hsib hcond
    | some sib =>
      obtain hmode | hmode := hcond
      · have hplace : req.place ops s top real w = .above sib := by unfold Request.place; rw [hmode,hsib]
        rw [hplace]
        exact goes_above h hone hsib hmode
      · have hplace : req.place ops s top real w = .below sib := by unfold Request.place; rw [hmode,hsib]
        rw [hplace]
        exact goes_below h hone hsib hmode
  have hmode : req.mode = .topIf ∨ req.mode = .bottomIf ∨ req.mode = .opposite := by
    cases hm : req.mode <;> simp [hm] at hcond ⊢
  by_cases hunmapped : (!(s.win w).mapped || req.sibling.any (fun sib => !(s.win sib).mapped)) = true
  · rw [place_unmapped hmode hunmapped]
    exact goes_unmapped h hone hmode hunmapped
  · obtain ⟨hw,hu⟩ : (s.win w).mapped = true ∧ ∀ sib, req.sibling = some sib → (s.win sib).mapped = true := by
      cases hsib : req.sibling <;> simp [hsib] at hunmapped ⊢
      · exact hunmapped
      · exact hunmapped
    cases hsib : req.sibling with
    | none => exact goes_compared h hfuel hops hclear hone ⟨hw,hsib,fun he => hcond (.inl he),fun he => hcond (.inr he)⟩ hnull
    | some sib => exact goes_sibling h hfuel hone hsib hself hmode hw (hu sib hsib)

lemma reachesNull_none (hops : ops.Lawful) (hclear : req.Clear s top real w) (hnull : req.ReachesNull ops s top real w) :
    configureStack ops fuel s top.getLast? w req = none := by
  obtain ⟨htop,hone,hmapped,hsib,hmode,hocc⟩ := hnull
  have hcompares : req.Compares s w := by
    refine ⟨hmapped,hsib,?_,?_⟩ <;> obtain hm | hm := hmode <;> simp [hm]
  have hgeom := hclear.above hcompares (by obtain hm | hm := hmode <;> simp [hm])
  have hun : (!(s.win w).mapped || (none : Option W).any (fun sib => !(s.win sib).mapped)) = false := by simp [hmapped]
  have hasked : anyWindowOverlapsMe ops fuel s.chain s.win w top.getLast? (req.box s) = none := by
    rw [anyWindowOverlapsMe_top h.lists htop hfuel,box_eq hgeom.box]
    exact if_neg fun he => hocc ((hgeom.any_iff hops).1 he)
  unfold Request.box at hasked
  unfold configureStack whereDoIGoInTheStack
  rw [if_neg fun ho => hone ((only_iff h.lists h.mem).1 ho),hsib,hun]
  obtain hmode | hmode := hmode <;> rw [hmode] <;> dsimp only <;> rw [if_neg Bool.false_ne_true,hasked] <;> rfl

lemma ontoItself_self (hself : req.OntoItself ops s top real w) :
    configureStack ops fuel s top.getLast? w req = some (moveWindowInStack fuel s.chain w (some w)) := by
  obtain ⟨hhead,hmode,sib,hs,hsib,hw,hu,hmeets⟩ := hself
  have hmem := hs
  obtain ⟨real,rfl⟩ := List.head?_eq_some_iff.1 hhead
  have htop : w ∉ top := fun hm => (List.disjoint_of_nodup_append h.lists.nodup) hm List.mem_cons_self
  have hone : top ++ w::real ≠ [w] := by
    intro he
    obtain ⟨rfl,-⟩ | ⟨-,ho⟩ := List.append_eq_singleton_iff.1 he
    · exact absurd hmem List.not_mem_nil
    · exact absurd ho (List.cons_ne_nil w real)
  have habove : isSiblingAboveMe fuel s.chain w sib = true := by
    rw [isSiblingAboveMe_eq h.lists h.mem (h.sibling sib hsib).2 hfuel,takeWhile_ne htop]
    exact hmem
  have hun : (!(s.win w).mapped || (some sib).any (fun sib => !(s.win sib).mapped)) = false := by simp [hw,hu]
  have hfirst : pFirst s.chain top.getLast? = some w := pFirst_eq h.lists
  unfold Request.box at hmeets
  unfold configureStack whereDoIGoInTheStack
  rw [if_neg fun ho => hone ((only_iff h.lists h.mem).1 ho),hsib,hun]
  obtain hmode | hmode := hmode <;> rw [hmode] <;> dsimp only <;> rw [if_neg Bool.false_ne_true,habove,hmeets,hfirst] <;> rfl

omit hfuel in
lemma place_ontoItself (hself : req.OntoItself ops s top real w) : req.place ops s top real w = .top := by
  obtain ⟨hhead,hmode,sib,hs,hsib,htouch⟩ := hself
  obtain ⟨real,rfl⟩ := List.head?_eq_some_iff.1 hhead
  have htop : w ∉ top := fun hm => (List.disjoint_of_nodup_append h.lists.nodup) hm List.mem_cons_self
  have habove : sib ∈ (top ++ w::real).takeWhile (fun x => decide (x ≠ w)) := by rwa [takeWhile_ne htop]
  unfold Request.place
  obtain hmode | hmode := hmode <;> rw [hmode,hsib] <;> dsimp only
  · exact if_pos ⟨htouch,habove⟩
  · rw [if_pos htouch,if_pos habove]

omit h hfuel in
lemma moveInMiddle_self (c : Chain W) (w : W) : (moveInMiddle fuel c w w).1.next w = some w := by
  have hnext : ∀ (f : W → Option W) (p : Option W), repoint (Function.update f w (some w)) p (some w) w = some w := by
    intro f p
    cases p with
    | none => exact Function.update_self w (some w) f
    | some x =>
      change Function.update (Function.update f w (some w)) x (some w) w = some w
      by_cases hx : w = x
      · rw [← hx,Function.update_self]
      · rw [Function.update_of_ne hx,Function.update_self]
  exact hnext _ _

/-- The windows are in the order that was asked for, except when a window that stays on top is taken for one below the head. -/
theorem restacked_iff (hops : ops.Lawful) (hclear : req.Clear s top real w) :
    Restacked top real w (req.place ops s top real w) (configureStack ops fuel s top.getLast? w req) ↔
      ¬req.ReachesNull ops s top real w ∧ ¬req.OntoItself ops s top real w := by
  constructor
  · intro ⟨c,first,hr,hlists,_⟩
    refine ⟨fun hnull => ?_,fun hself => ?_⟩
    · rw [reachesNull_none h hfuel hops hclear hnull] at hr
      exact absurd hr.symm (Option.some_ne_none _)
    · have hplace : req.place ops s top real w = .top := place_ontoItself h hself
      rw [ontoItself_self h hfuel hself] at hr
      rw [hplace] at hlists
      have hlists' : c.Lists (top.erase w ++ w::real.erase w) := hlists
      refine next_ne hlists' ?_
      have hc : (moveWindowInStack fuel s.chain w (some w)).1 = c := congrArg Prod.fst (Option.some.inj hr)
      rw [← hc]
      have hne : s.chain.next w ≠ some w := by
        obtain ⟨pre,post,he⟩ := List.append_of_mem h.mem
        exact next_ne (he ▸ h.lists)
      have hfirst : s.chain.first ≠ some w := by
        obtain ⟨hhead,-,sib,hs,-⟩ := hself
        obtain ⟨x,top,rfl⟩ := List.exists_cons_of_ne_nil (List.ne_nil_of_mem hs)
        rw [h.lists.first]
        intro he
        obtain rfl : x = w := Option.some.inj he
        exact (List.disjoint_of_nodup_append h.lists.nodup) List.mem_cons_self (List.mem_of_head? hhead)
      unfold moveWindowInStack
      rw [if_neg hne]
      dsimp only
      rw [if_neg hfirst]
      exact moveInMiddle_self s.chain w
  · intro ⟨hnull,hself⟩
    obtain ⟨t,hwhere,htarget⟩ := h.goes hfuel hops hclear hnull hself
    obtain ⟨hlists,hfirst⟩ := htarget.moves h.lists h.mem hfuel
    refine ⟨_,_,?_,hlists,rfl⟩
    unfold configureStack
    rw [hwhere]
    exact congrArg some (Prod.ext rfl hfirst)

end Exact

end Xlibre.Dix.Window
