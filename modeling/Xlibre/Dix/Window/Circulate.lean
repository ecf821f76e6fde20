import Xlibre.Dix.Window.Configure

/-! Circulating the children: the lowest that is occluded goes to the top, or the highest that occludes another to the bottom. -/
namespace Xlibre.Dix.Window
open Lib Lib.Chain Lib.Links Region

variable {W R : Type*} [DecidableEq W]

inductive Direction
  | raiseLowest
  | lowerHighest
  deriving DecidableEq

section Code
variable (ops : RegionOps R) (fuel : ℕ) (s : Children W R) (pHead : Option W)

/-- The loop that looks for a child to raise. -/
def lowestOccluded : ℕ → Option W → Option (Option W)
  | 0,_ => none
  | n+1,pWin =>
    if pWin = pHead then some none
    else
      match pWin with
      | none => none
      | some w =>
        if (s.win w).mapped then
          (anyWindowOverlapsMe ops fuel s.chain s.win w pHead (windowExtents (s.win w))).bind fun b =>
            if b then some (some w) else lowestOccluded n (s.chain.prev w)
        else lowestOccluded n (s.chain.prev w)

/-- `CirculateWindow`: nothing when `NULL` is dereferenced, or what the move gives if there is something to move. -/
def circulateWindow (direction : Direction) : Option (Option (Chain W × Option W)) :=
  match direction with
  | .raiseLowest =>
    (lowestOccluded ops fuel s pHead fuel s.chain.last).map fun pWin =>
      pWin.map fun w => moveWindowInStack fuel s.chain w (pFirst s.chain pHead)
  | .lowerHighest =>
    let pWin := s.chain.search
      (fun w => (s.win w).mapped && iOverlapAnyWindow ops fuel s.chain s.win w (windowExtents (s.win w))) fuel (pFirst s.chain pHead)
    some (pWin.map fun w => moveWindowInStack fuel s.chain w none)

end Code

section Spec
variable (ops : RegionOps R) (s : Children W R) (top real : List W)

open Classical in
/-- The child to be moved. -/
noncomputable def circulated (direction : Direction) : Option W :=
  match direction with
  | .raiseLowest =>
    real.reverse.find? fun w =>
      decide ((s.win w).mapped = true ∧ Occluded ops s top real w (extents (s.win w)) (s.win w).x (s.win w).y)
  | .lowerHighest =>
    real.find? fun w => decide ((s.win w).mapped = true ∧ Occluding ops s top real w (extents (s.win w)) (s.win w).x (s.win w).y)

def Direction.place : Direction → Place W
  | .raiseLowest => .top
  | .lowerHighest => .bottom

/-- What the mapped children cover can be told from the geometry that the code looks at. -/
def Direction.Clear (direction : Direction) : Prop :=
  ∀ w ∈ real, (s.win w).mapped = true →
    Window.Clear s (if direction = .raiseLowest then siblingsAbove top real w else siblingsBelow top real w) w
      (extents (s.win w)) (s.win w).x (s.win w).y

end Spec

section Exact

variable {ops : RegionOps R} {s : Children W R} {top real l : List W} {w : W} {n fuel : ℕ}

lemma lowestOccluded_eq (f : W → Bool) {pHead : Option W} (hnexts : Nexts s.chain.prev l pHead) (hout : ∀ x ∈ l, some x ≠ pHead)
    (hn : l.length < n)
    (hf : ∀ u ∈ l, (s.win u).mapped = true →
      anyWindowOverlapsMe ops fuel s.chain s.win u pHead (windowExtents (s.win u)) = some (f u)) :
    lowestOccluded ops fuel s pHead n (l.head?.or pHead) = some (l.find? fun u => (s.win u).mapped && f u) := by
  induction l generalizing n with
  | nil =>
    obtain ⟨n,rfl⟩ := Nat.exists_eq_succ_of_ne_zero (Nat.ne_of_gt hn)
    exact if_pos rfl
  | cons x l ih =>
    obtain ⟨n,rfl⟩ := Nat.exists_eq_succ_of_ne_zero (Nat.ne_of_gt (Nat.zero_lt_of_lt hn))
    have hrest := ih hnexts.2 (fun y hy => hout y (List.mem_cons_of_mem x hy)) (Nat.lt_of_succ_lt_succ hn)
      fun u hu => hf u (List.mem_cons_of_mem x hu)
    have hx : some x ≠ pHead := hout x List.mem_cons_self
    refine (if_neg hx).trans ?_
    rw [← hnexts.1] at hrest
    change (if (s.win x).mapped = true then
      (anyWindowOverlapsMe ops fuel s.chain s.win x pHead (windowExtents (s.win x))).bind fun b =>
        if b = true then some (some x) else lowestOccluded ops fuel s pHead n (s.chain.prev x)
      else lowestOccluded ops fuel s pHead n (s.chain.prev x)) = _
    cases hmapped : (s.win x).mapped with
    | false =>
      rw [if_neg Bool.false_ne_true,hrest,List.find?_cons_of_neg (by simp [hmapped])]
    | true =>
      rw [if_pos rfl,hf x List.mem_cons_self hmapped]
      cases hfx : f x with
      | false =>
        rw [List.find?_cons_of_neg (by simp [hfx])]
        exact hrest
      | true =>
        rw [List.find?_cons_of_pos (by simp [hmapped,hfx])]
        rfl

open Classical in
lemma lowest_eq (hops : ops.Lawful) (h : s.chain.Lists (top ++ real)) (hfuel : (top ++ real).length < fuel)
    (hclear : Direction.raiseLowest.Clear s top real) :
    lowestOccluded ops fuel s top.getLast? fuel s.chain.last = some (circulated ops s top real .raiseLowest) := by
  have hprevs := h.prevs
  rw [List.reverse_append] at hprevs
  have hnexts : Nexts s.chain.prev real.reverse top.getLast? := by
    have hparts := (nexts_append.1 hprevs).1
    rwa [Option.or_none,List.head?_reverse] at hparts
  have hout : ∀ x ∈ real.reverse, some x ≠ top.getLast? := fun x hx he =>
    not_mem_of_getLast h.nodup he.symm (List.mem_reverse.1 hx)
  have hlast : s.chain.last = real.reverse.head?.or top.getLast? := by
    rw [h.last,List.getLast?_append,List.head?_reverse]
  have hlength : real.reverse.length < fuel := by
    rw [List.length_append] at hfuel
    rw [List.length_reverse]
    omega
  rw [hlast,lowestOccluded_eq
    (fun w => (siblingsAbove top real w).any fun u => overlaps ops (s.win w) (windowExtents (s.win w)) (s.win u)) hnexts hout hlength
    fun u hu _ => anyWindowOverlapsMe_eq h (List.mem_reverse.1 hu) hfuel]
  refine congrArg some (List.find?_congr fun w hw => ?_)
  rw [Bool.eq_iff_iff,Bool.and_eq_true,decide_eq_true_iff]
  refine and_congr_right fun hmapped => ?_
  have hgeom := hclear w (List.mem_reverse.1 hw) hmapped
  rw [windowExtents_eq hgeom.box]
  exact hgeom.any_iff hops

open Classical in
lemma highest_eq (hops : ops.Lawful) (h : s.chain.Lists (top ++ real)) (hfuel : (top ++ real).length < fuel)
    (hclear : Direction.lowerHighest.Clear s top real) :
    s.chain.search (fun w => (s.win w).mapped && iOverlapAnyWindow ops fuel s.chain s.win w (windowExtents (s.win w))) fuel
      (pFirst s.chain top.getLast?) = circulated ops s top real .lowerHighest := by
  have hlength : real.length < fuel := by
    rw [List.length_append] at hfuel
    omega
  rw [pFirst_eq h,search_eq _ (nexts_append.1 h.nexts).2 hlength]
  refine List.find?_congr fun w hw => ?_
  rw [Bool.eq_iff_iff,Bool.and_eq_true,decide_eq_true_iff]
  refine and_congr_right fun hmapped => ?_
  have hgeom := hclear w hw hmapped
  rw [windowExtents_eq hgeom.box,iOverlapAnyWindow_eq h (List.mem_append_right top hw) hfuel]
  exact hgeom.any_iff hops

lemma circulated_mem {direction : Direction} (hw : circulated ops s top real direction = some w) : w ∈ real := by
  cases direction with
  | raiseLowest => exact List.mem_reverse.1 (List.mem_of_find?_eq_some hw)
  | lowerHighest => exact List.mem_of_find?_eq_some hw

open Classical in
lemma circulated_occluded (hw : circulated ops s top real .raiseLowest = some w) :
    Occluded ops s top real w (extents (s.win w)) (s.win w).x (s.win w).y := by
  unfold circulated at hw
  exact (of_decide_eq_true (List.find?_some hw :)).2

/-- The child that is to be moved goes to its place, and nothing changes when there is none. -/
theorem circulateWindow_eq (hops : ops.Lawful) (h : s.chain.Lists (top ++ real)) (hfuel : (top ++ real).length < fuel)
    {direction : Direction} (hclear : direction.Clear s top real) :
    ∃ r, circulateWindow ops fuel s top.getLast? direction = some r ∧
      match circulated ops s top real direction with
      | none => r = none
      | some w => Restacked top real w direction.place r := by
  cases hw : circulated ops s top real direction with
  | none =>
    refine ⟨none,?_,rfl⟩
    cases direction with
    | raiseLowest =>
      rw [circulateWindow,lowest_eq hops h hfuel hclear,hw]
      rfl
    | lowerHighest =>
      rw [circulateWindow,highest_eq hops h hfuel hclear,hw]
      rfl
  | some w =>
    have hmem : w ∈ top ++ real := List.mem_append_right top (circulated_mem hw)
    cases direction with
    | raiseLowest =>
      obtain ⟨hlists,hfirst⟩ := (target_top h hmem (head_ne_of_occluded h (circulated_occluded hw))).moves h hmem hfuel
      refine ⟨some (moveWindowInStack fuel s.chain w (pFirst s.chain top.getLast?)),?_,_,_,?_,hlists,rfl⟩
      · rw [circulateWindow,lowest_eq hops h hfuel hclear,hw]
        rfl
      · exact congrArg some (Prod.ext rfl hfirst)
    | lowerHighest =>
      obtain ⟨hlists,hfirst⟩ := target_bottom.moves h hmem hfuel
      refine ⟨some (moveWindowInStack fuel s.chain w none),?_,_,_,?_,hlists,rfl⟩
      · rw [circulateWindow,highest_eq hops h hfuel hclear,hw]
        rfl
      · exact congrArg some (Prod.ext rfl hfirst)

end Exact

end Xlibre.Dix.Window

/-! Stacking by what the windows cover, and shaped windows whose parent is not at the origin of the screen. -/
namespace Xlibre.Dix.Window
open Lib Lib.Chain Lib.Links Region

section Points

/-- The numbers from one to the one before another. -/
def span (a b : ℤ) : Finset ℤ := (Finset.range (b-a).toNat).image fun i : ℕ => a+i

lemma mem_span {a b v : ℤ} : v ∈ span a b ↔ a ≤ v ∧ v < b := by
  unfold span
  rw [Finset.mem_image]
  constructor
  · rintro ⟨i,hi,rfl⟩
    have hlt := Finset.mem_range.1 hi
    omega
  · intro ⟨ha,hb⟩
    exact ⟨(v-a).toNat,Finset.mem_range.2 (by omega),by omega⟩

def pointOps : RegionOps (Finset (ℤ × ℤ)) where
  create b := span b.x1 b.x2 ×ˢ span b.y1 b.y2
  translate r dx dy := (r.image fun p => (p.1+dx,p.2+dy)).filter fun p =>
    (-32768 ≤ p.1 ∧ p.1 < 32767) ∧ -32768 ≤ p.2 ∧ p.2 < 32767
  intersect r s := r ∩ s
  notEmpty r := decide r.Nonempty
  containsRect r b := decide (r ∩ span b.x1 b.x2 ×ˢ span b.y1 b.y2).Nonempty
  Has r p := p ∈ r

theorem pointOps_lawful : pointOps.Lawful where
  has_create b p _ := by
    change p ∈ span b.x1 b.x2 ×ˢ span b.y1 b.y2 ↔ _
    rw [Finset.mem_product,mem_span,mem_span,Box.Has,and_assoc]
  has_translate r dx dy hfits p := by
    change p ∈ (r.image fun p => (p.1+dx,p.2+dy)).filter _ ↔ (p.1-dx,p.2-dy) ∈ r
    rw [Finset.mem_filter,Finset.mem_image]
    constructor
    · rintro ⟨⟨q,hq,rfl⟩,-⟩
      simpa using hq
    · intro hp
      have hmoved := hfits (p.1-dx,p.2-dy) hp
      rw [sub_add_cancel,sub_add_cancel] at hmoved
      exact ⟨⟨(p.1-dx,p.2-dy),hp,by simp⟩,hmoved⟩
  has_intersect r s p := Finset.mem_inter
  notEmpty_iff r := decide_eq_true_iff

end Points

section Twins

variable {R : Type*}

def pixel (ops : RegionOps R) (X Y : ℤ) : Win R where
  x := X
  y := Y
  width := 1
  height := 1
  borderWidth := 0
  originX := 0
  originY := 0
  mapped := true
  boundingShape := some (ops.create ⟨0,0,1,1⟩)
  borderSize := ops.create ⟨X,Y,X+1,Y+1⟩

/-- Two such windows, the second of which is covered. -/
def twins (ops : RegionOps R) (X Y : ℤ) : Children Bool R where
  chain :=
    { first := some false
      last := some true
      next := fun w => if w then none else some true
      prev := fun w => if w then some false else none }
  win _ := pixel ops X Y
  x := X
  y := Y

def raiseTwin : Request Bool := ⟨0,0,1,1,0,none,.topIf⟩

variable {ops : RegionOps R} {X Y : ℤ} {fuel : ℕ}

lemma twins_lists : (twins ops X Y).chain.Lists ([] ++ [false,true]) := by
  refine ⟨by decide,rfl,rfl,?_,?_⟩ <;> simp [Nexts,twins]

lemma raiseTwin_valid : raiseTwin.Valid (twins ops X Y) [] [false,true] true :=
  ⟨twins_lists,by simp,fun sib hsib => absurd hsib (by simp [raiseTwin])⟩

lemma pixel_box (hX : -32768 ≤ X ∧ X < 32767) (hY : -32768 ≤ Y ∧ Y < 32767) : FitsBox ⟨X,Y,X+1,Y+1⟩ :=
  ⟨⟨Int.lt_succ X,Int.lt_succ Y⟩,hX.1,hY.1,by dsimp only; omega,by dsimp only; omega⟩

lemma raiseTwin_occluded (hops : ops.Lawful) : raiseTwin.Occluded ops (twins ops X Y) [] [false,true] true := by
  refine ⟨false,by decide,rfl,(X,Y),?_,?_⟩
  all_goals
    refine ⟨?_,fun r hr => ?_⟩
    · simp [Box.Has,Request.extents,extents,twins,pixel,raiseTwin]
    · obtain rfl := Option.some.inj hr
      rw [hops.has_create _ _ ⟨by decide,by decide⟩]
      simp [Box.Has,twins,pixel,raiseTwin]

lemma raiseTwin_place (hops : ops.Lawful) : raiseTwin.place ops (twins ops X Y) [] [false,true] true = .top :=
  if_pos ⟨rfl,raiseTwin_occluded hops⟩

lemma twins_apart (hops : ops.Lawful) (hX : -32768 ≤ X ∧ X < 32767) (hY : -32768 ≤ Y ∧ Y < 32767) (hne : ¬(X = 0 ∧ Y = 0)) :
    overlaps ops (pixel ops X Y) ⟨X,Y,X+1,Y+1⟩ (pixel ops X Y) = false := by
  have hbox := pixel_box hX hY
  have hextents : extents (pixel ops X Y) = ⟨X,Y,X+1,Y+1⟩ := by simp [extents,pixel]
  have horigin : OriginOnScreen (pixel ops X Y) ⟨X,Y,X+1,Y+1⟩ 0 0 := by
    refine fun _ => ⟨rfl,rfl,?_⟩
    rwa [sub_zero,sub_zero,sub_zero,sub_zero]
  refine Bool.eq_false_iff.2 fun htrue => hne ?_
  unfold overlaps at htrue
  rw [windowExtents_eq (by rwa [hextents]),hextents,Bool.and_eq_true,overlap_iff hops hbox hbox horigin horigin] at htrue
  obtain ⟨-,⟨x,y⟩,⟨hb,hshape⟩,-⟩ := htrue
  have hs := (hops.has_create _ _ ⟨by decide,by decide⟩).1 (hshape _ rfl)
  unfold Box.Has at hb hs
  dsimp only at hb hs
  omega

lemma raiseTwin_stays (hops : ops.Lawful) (hX : -32768 ≤ X ∧ X < 32767) (hY : -32768 ≤ Y ∧ Y < 32767) (hne : ¬(X = 0 ∧ Y = 0))
    (hfuel : 2 < fuel) : configureStack ops fuel (twins ops X Y) none true raiseTwin = some ((twins ops X Y).chain,some true) := by
  have hbox : raiseTwin.box (twins ops X Y) = ⟨X,Y,X+1,Y+1⟩ := by
    have hextents : raiseTwin.extents (twins ops X Y) = ⟨X,Y,X+1,Y+1⟩ := by simp [Request.extents,raiseTwin,twins]
    rw [box_eq (by rw [hextents]; exact pixel_box hX hY),hextents]
  have hasked : anyWindowOverlapsMe ops fuel (twins ops X Y).chain (twins ops X Y).win true none (raiseTwin.box (twins ops X Y)) =
      some false := by
    have hall : ∀ l : List Bool, l.any (fun u => overlaps ops ((twins ops X Y).win true) ⟨X,Y,X+1,Y+1⟩ ((twins ops X Y).win u)) = false :=
      fun l => List.any_eq_false.2 fun u _ => Bool.eq_false_iff.1 (twins_apart hops hX hY hne)
    have hlists : (twins ops X Y).chain.Lists ([] ++ [false,true]) := twins_lists
    rw [hbox]
    exact (anyWindowOverlapsMe_eq hlists (by simp) hfuel).trans (congrArg some (hall _))
  have hone : ¬((twins ops X Y).chain.first = some true ∧ (twins ops X Y).chain.last = some true) := fun ho =>
    absurd ho.1 (by simp [twins])
  unfold configureStack whereDoIGoInTheStack
  rw [if_neg hone]
  exact congrArg (Option.map _) ((if_neg Bool.false_ne_true).trans (congrArg (Option.map _) hasked))

lemma raiseTwin_fails (hops : ops.Lawful) (hX : -32768 ≤ X ∧ X < 32767) (hY : -32768 ≤ Y ∧ Y < 32767) (hne : ¬(X = 0 ∧ Y = 0))
    (hfuel : 2 < fuel) :
    ¬Restacked [] [false,true] true (raiseTwin.place ops (twins ops X Y) [] [false,true] true)
      (configureStack ops fuel (twins ops X Y) none true raiseTwin) := by
  rw [raiseTwin_place hops,raiseTwin_stays hops hX hY hne hfuel]
  rintro ⟨c,first,hr,hlists,-⟩
  have hc : (twins ops X Y).chain = c := congrArg Prod.fst (Option.some.inj hr)
  have hfirst := hlists.first
  rw [← hc] at hfirst
  exact absurd hfirst (by simp [twins,arrange])

end Twins

section Exact

variable {W R : Type*} [DecidableEq W]

/-- Every window is where its parent and its origin put it. -/
def Children.Placed (s : Children W R) : Prop := ∀ u, (s.win u).x = s.x+(s.win u).originX ∧ (s.win u).y = s.y+(s.win u).originY

lemma twins_clear {ops : RegionOps R} : raiseTwin.Clear (twins ops 0 0) [] [false,true] true := by
  have hbox : FitsBox ⟨0,0,1,1⟩ := pixel_box (by decide) (by decide)
  have horigin : OriginOnScreen (pixel ops 0 0) ⟨0,0,1,1⟩ 0 0 := fun _ => ⟨rfl,rfl,hbox⟩
  exact ⟨fun _ _ => ⟨hbox,fun u _ _ => hbox,fun u _ _ _ => ⟨horigin,horigin⟩⟩,fun _ hmode => absurd rfl hmode⟩

end Exact

end Xlibre.Dix.Window
