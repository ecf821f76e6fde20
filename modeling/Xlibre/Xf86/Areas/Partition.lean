import Xlibre.Xf86.Areas.Resize

/-! The areas and the free boxes split the memory in every run of calls in range. -/
namespace Xlibre.Xf86.Areas
open Xlibre.Dix.Region Xlibre.Lib Linear Checked Splits

variable {R : Type} {ops : RegionOps R} {σ σ' : FBManager R} {s : Session R} {call : Call} {w h : ℤ} {link : FBLink} {id : ℕ}

namespace Session

/-- The manager is stocked, and each area has the requested size. -/
structure Valid (ops : RegionOps R) (s : Session R) : Prop where
  stocked : Stocked ops 0 s.manager
  sized : ∀ link ∈ s.manager.usedAreas, link.Sized (s.requested link.id).1 (s.requested link.id).2

lemma Valid.partitioned (hv : s.Valid ops) : s.Partitioned ops := by
  obtain ⟨hfree,hused⟩ := List.pairwise_cons.1 hv.stocked.split.disjoint
  refine ⟨List.pairwise_map.1 hused,fun link hlink => (hfree _ (List.mem_map_of_mem hlink)).symm,?_,?_,hv.sized,
    hv.stocked.aligned⟩
  · ext p
    rw [hv.stocked.split.covers]
    simp only [List.mem_cons,List.mem_map,exists_eq_or_imp,exists_exists_and_eq_and]
    rfl
  · rw [hv.stocked.counted,add_zero]

lemma sized_placed {requested : ℕ → ℤ × ℤ}
    (hsized : ∀ l ∈ σ.usedAreas, l.Sized (requested l.id).1 (requested l.id).2) (hplaced : Placed σ σ' w h link) :
    ∀ l ∈ σ'.usedAreas, l.Sized (Function.update requested link.id (w,h) l.id).1
      (Function.update requested link.id (w,h) l.id).2 := by
  intro l hl
  obtain rfl | ⟨hl,hne⟩ := hplaced.others l hl
  · rw [Function.update_self]
    exact hplaced.sized
  · rw [Function.update_of_ne hne]
    exact hsized l hl

def KeepsFailed (ops : RegionOps R) (s : Session R) : Call → Prop
  | .resize id w h => ∀ σ', s.manager.resizeArea ops id w h = .ok (false,σ') →
      ops.points σ'.freeBoxes = ops.points s.manager.freeBoxes ∧ σ'.usedAreas.Perm s.manager.usedAreas
  | _ => True

lemma resize_ok (hexact : ops.Exact) (hv : s.Valid ops) (hfits : s.manager.Fits ops (.resize id w h)) :
    (∃ s', s.step ops (.resize id w h) = .ok s' ∧ s'.Valid ops ∧
      s'.manager.initialBoxes = s.manager.initialBoxes) ∧ s.KeepsFailed ops (.resize id w h) := by
  have hsame {manager : FBManager R} (hstocked : Stocked ops 0 manager) (hperm : manager.usedAreas.Perm s.manager.usedAreas) :
      Valid ops { s with manager } := ⟨hstocked,fun l hl => hv.sized l (hperm.mem_iff.1 hl)⟩
  cases hfind : findLink id s.manager.usedAreas with
  | none =>
    have hresize : s.manager.resizeArea ops id w h = .ok (false,s.manager) := by
      unfold FBManager.resizeArea
      rw [hfind]
    refine ⟨⟨s,?_,hv,rfl⟩,fun σ' hσ' => ?_⟩
    · change (s.manager.resizeArea ops id w h >>= _) = _
      rw [hresize]
      rfl
    · rw [hresize] at hσ'
      cases hσ'
      exact ⟨rfl,List.Perm.refl _⟩
  | some found =>
    obtain ⟨before,link,after⟩ := found
    obtain ⟨hused,hid⟩ := findLink_some hfind
    have hcase := hfits before link after hfind
    have hgone {σ' : FBManager R} {new : FBLink} (hnew : new.id = link.id) (hstocked : Stocked ops 0 σ')
        (hplaced : Placed s.manager σ' w h new) : Valid ops ⟨σ',Function.update s.requested id (w,h)⟩ := by
      refine ⟨hstocked,?_⟩
      rw [← hid,← hnew]
      exact sized_placed hv.sized hplaced
    -- a resize that succeeds
    have hdone {σ' : FBManager R} {new : FBLink} (hresize : s.manager.resizeArea ops id w h = .ok (true,σ'))
        (hnew : new.id = link.id) (hstocked : Stocked ops 0 σ') (hplaced : Placed s.manager σ' w h new) :
        (∃ s', s.step ops (.resize id w h) = .ok s' ∧ s'.Valid ops ∧
          s'.manager.initialBoxes = s.manager.initialBoxes) ∧ s.KeepsFailed ops (.resize id w h) := by
      refine ⟨⟨_,?_,hgone hnew hstocked hplaced,hplaced.initial⟩,fun σ'' hσ'' => ?_⟩
      · change (s.manager.resizeArea ops id w h >>= _) = _
        rw [hresize]
        rfl
      · rw [hresize] at hσ''
        cases hσ''
    split_ifs at hcase with hsize
    · obtain ⟨new,σ',hshrink,hnew,hstocked,hplaced⟩ := hv.stocked.shrink hexact hused hsize hcase.1 hcase.2
      refine hdone ?_ hnew hstocked hplaced
      unfold FBManager.resizeArea
      rw [hfind]
      exact (if_pos hsize).trans hshrink
    · have hresize : s.manager.resizeArea ops id w h = s.manager.grow ops w h (before,link,after) := by
        unfold FBManager.resizeArea
        rw [hfind]
        exact if_neg hsize
      obtain ⟨σ',hgrow,hstocked,hinitial,hpoints,hperm⟩ | ⟨new,σ',hgrow,hnew,hstocked,hplaced⟩ :=
        hv.stocked.grow hexact hused hcase
      · refine ⟨⟨_,?_,hsame hstocked hperm,hinitial⟩,fun σ'' hσ'' => ?_⟩
        · change (s.manager.resizeArea ops id w h >>= _) = _
          rw [hresize,hgrow]
          rfl
        · rw [hresize,hgrow] at hσ''
          cases hσ''
          exact ⟨hpoints,hperm⟩
      · exact hdone (hresize.trans hgrow) hnew hstocked hplaced

lemma step_ok (hexact : ops.Exact) (hv : s.Valid ops) (hfits : s.manager.Fits ops call) :
    (∃ s', s.step ops call = .ok s' ∧ s'.Valid ops ∧ s'.manager.initialBoxes = s.manager.initialBoxes) ∧
      s.KeepsFailed ops call := by
  cases call with
  | allocate w h granularity callbacks =>
    refine ⟨?_,trivial⟩
    change (∃ s', (s.manager.allocateArea ops w h granularity callbacks >>= _) = _ ∧ _)
    obtain hnone | ⟨link,σ',hsome,hstocked,hplaced⟩ := hv.stocked.allocate hexact hfits
    · exact ⟨s,by rw [hnone]; rfl,hv,rfl⟩
    · exact ⟨_,by rw [hsome]; rfl,⟨hstocked,sized_placed hv.sized hplaced⟩,hplaced.initial⟩
  | free id =>
    obtain ⟨hstocked,hinitial,hmem⟩ := hv.stocked.free hexact id
    exact ⟨⟨_,rfl,⟨hstocked,fun l hl => hv.sized l (hmem l hl)⟩,hinitial⟩,trivial⟩
  | resize id w h => exact resize_ok hexact hv hfits
  | purge =>
    obtain ⟨hstocked,hinitial,hmem⟩ := hv.stocked.purge hexact
    exact ⟨⟨_,rfl,⟨hstocked,fun l hl => hv.sized l (hmem l hl)⟩,hinitial⟩,trivial⟩

end Session

open Session

/-- In every run of calls in range the areas and the free boxes split the memory, each area has the requested size and lies
where its granularity allows, and a resize that fails changes nothing. -/
theorem areas_partitioned_when_in_range (hexact : ops.Exact) (fullRegion : R) {s : Session R}
    (hr : Reaches ops fullRegion (FBManager.Fits ops) s) :
    s.manager.initialBoxes = fullRegion ∧ s.Partitioned ops ∧
      ∀ call, s.manager.Fits ops call → (∃ s', s.step ops call = .ok s') ∧ s.KeepsFailed ops call := by
  suffices hvalid : s.manager.initialBoxes = fullRegion ∧ s.Valid ops by
    refine ⟨hvalid.1,hvalid.2.partitioned,fun call hfits => ?_⟩
    obtain ⟨⟨s',hstep,-⟩,hkept⟩ := step_ok hexact hvalid.2 hfits
    exact ⟨⟨s',hstep⟩,hkept⟩
  induction hr with
  | init requested => exact ⟨rfl,⟨.singleton,rfl,by simp [FBManager.init],List.nodup_nil,by simp [FBManager.init]⟩,
      by simp [FBManager.init]⟩
  | step call hr hmeets hstep ih =>
    obtain ⟨⟨s',hstep',hvalid,hinitial⟩,-⟩ := step_ok hexact ih.2 hmeets
    rw [hstep] at hstep'
    cases hstep'
    exact ⟨hinitial.trans ih.1,hvalid⟩

def cutBox (b c : Box) : List Box :=
  let pieces : List Box := [⟨c.x1,c.y1,c.x2,min c.y2 b.y1⟩,⟨c.x1,max c.y1 b.y2,c.x2,c.y2⟩,
    ⟨c.x1,max c.y1 b.y1,min c.x2 b.x1,min c.y2 b.y2⟩,⟨max c.x1 b.x2,max c.y1 b.y1,c.x2,min c.y2 b.y2⟩]
  pieces.filter fun piece => piece.x1 < piece.x2 ∧ piece.y1 < piece.y2

def boxLists : RegionOps (List Box) where
  rects := fun r => r
  ofBox := fun b => [b]
  union := (· ++ ·)
  subtract := fun r s => s.foldl (fun r b => r.flatMap (cutBox b)) r
  append := (· ++ ·)
  validate := fun r => r

lemma mem_cutBox {b c : Box} (p : ℤ × ℤ) : (∃ piece ∈ cutBox b c, p ∈ Box.points piece) ↔
    p ∈ Box.points c ∧ p ∉ Box.points b := by
  simp only [cutBox,List.mem_filter,List.mem_cons,List.not_mem_nil,or_false,decide_eq_true_eq,Box.points,Set.mem_ofPred_eq]
  constructor
  · rintro ⟨piece,⟨rfl | rfl | rfl | rfl,-⟩,hp⟩ <;> dsimp only at hp <;> omega
  · rintro ⟨hc,hb⟩
    by_cases htop : p.2 < b.y1
    · exact ⟨_,⟨.inl rfl,by dsimp only; omega⟩,by dsimp only; omega⟩
    · by_cases hbottom : b.y2 ≤ p.2
      · exact ⟨_,⟨.inr (.inl rfl),by dsimp only; omega⟩,by dsimp only; omega⟩
      · by_cases hleft : p.1 < b.x1
        · exact ⟨_,⟨.inr (.inr (.inl rfl)),by dsimp only; omega⟩,by dsimp only; omega⟩
        · exact ⟨_,⟨.inr (.inr (.inr rfl)),by dsimp only; omega⟩,by dsimp only; omega⟩

lemma boxLists_exact : boxLists.Exact := by
  have hunion (r s : List Box) : boxLists.points (r ++ s) = boxLists.points r ∪ boxLists.points s := by
    ext p
    simp only [RegionOps.points,boxLists,List.mem_append,Set.mem_ofPred_eq,Set.mem_union,or_and_right,exists_or]
  have hcut (b : Box) (r : List Box) : boxLists.points (r.flatMap (cutBox b)) = boxLists.points r \ Box.points b := by
    ext p
    simp only [RegionOps.points,boxLists,List.mem_flatMap,Set.mem_ofPred_eq,Set.mem_sdiff]
    constructor
    · rintro ⟨piece,⟨c,hc,hpiece⟩,hp⟩
      obtain ⟨hpc,hpb⟩ := (mem_cutBox p).1 ⟨piece,hpiece,hp⟩
      exact ⟨⟨c,hc,hpc⟩,hpb⟩
    · rintro ⟨⟨c,hc,hpc⟩,hpb⟩
      obtain ⟨piece,hpiece,hp⟩ := (mem_cutBox p).2 ⟨hpc,hpb⟩
      exact ⟨piece,⟨c,hc,hpiece⟩,hp⟩
  refine ⟨fun b => ?_,hunion,fun r s => ?_,hunion,fun r => rfl⟩
  · ext p
    simp [RegionOps.points,boxLists]
  · change boxLists.points (s.foldl (fun r b => r.flatMap (cutBox b)) r) = _
    induction s generalizing r with
    | nil =>
      rw [List.foldl_nil]
      ext p
      simp [RegionOps.points,boxLists]
    | cons b s ih =>
      rw [List.foldl_cons,ih,hcut,sdiff_sdiff]
      congr 1
      ext p
      simp [RegionOps.points,boxLists]

theorem areas_partitioned_when_in_range_initial :
    (FBManager.init [⟨0,768,100,1000⟩] : FBManager (List Box)).initialBoxes = [⟨0,768,100,1000⟩] ∧
      Session.Partitioned boxLists ⟨.init [⟨0,768,100,1000⟩],fun _ => (0,0)⟩ ∧
      ∀ call, (FBManager.init [⟨0,768,100,1000⟩]).Fits boxLists call →
        (∃ s', Session.step boxLists ⟨.init [⟨0,768,100,1000⟩],fun _ => (0,0)⟩ call = .ok s') ∧
          Session.KeepsFailed boxLists ⟨.init [⟨0,768,100,1000⟩],fun _ => (0,0)⟩ call :=
  areas_partitioned_when_in_range boxLists_exact [⟨0,768,100,1000⟩] (.init fun _ => (0,0))

/-- A negative width wraps around in the box of the area. -/
theorem negative_width : ∃ s, Reaches boxLists [⟨0,768,100,1000⟩] (fun _ _ => True) s ∧ ¬ s.Partitioned boxLists := by
  refine ⟨_,.step (.allocate (-64536) 10 0 ⟨none,none,0⟩) (.init fun _ => (0,0)) trivial rfl,fun hpart => ?_⟩
  have hcovers := Set.ext_iff.1 hpart.covers (500,770)
  simp [RegionOps.points,boxLists,Box.points,FBManager.init,short] at hcovers

end Xlibre.Xf86.Areas
