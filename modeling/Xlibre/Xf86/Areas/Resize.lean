import Xlibre.Xf86.Areas.Search

/-! Areas are resized and purged. -/
namespace Xlibre.Xf86.Areas
open Xlibre.Dix.Region Xlibre.Lib Linear Checked Splits

variable {R : Type} {ops : RegionOps R} {σ σ' : FBManager R} {w h num : ℤ} {links before after : List FBLink}
  {link new : FBLink} {id : ℕ}

namespace Stocked

lemma shrink (hexact : ops.Exact) (hs : Stocked ops 0 σ) (hused : σ.usedAreas = before ++ link::after)
    (hsize : w ≤ link.area.box.x2 - link.area.box.x1 ∧ h ≤ link.area.box.y2 - link.area.box.y1)
    (hx : InShort (link.area.box.x1 + w)) (hy : InShort (link.area.box.y1 + h)) :
    ∃ new σ', σ.shrink ops w h (before,link,after) = .ok (true,σ') ∧ new.id = link.id ∧ Stocked ops 0 σ' ∧
      Placed σ σ' w h new := by
  obtain ⟨hid,hnodup⟩ := hs.id_middle hused
  have hmem (l : FBLink) (hl : l ∈ before ++ after) : l ∈ σ.usedAreas := by
    rw [hused]
    simp only [List.mem_append,List.mem_cons] at hl ⊢
    tauto
  have hlink : link ∈ σ.usedAreas := by rw [hused]; simp
  generalize hbox : ({ link.area.box with x2 := link.area.box.x1 + w, y2 := link.area.box.y1 + h } : Box) = box
  generalize hnew : ({ link with area := { link.area with box } } : FBLink) = new
  have hperm : (before ++ new::after).Perm (new::(before ++ after)) := List.perm_middle
  have hsub : new.points ⊆ link.points := by
    rintro ⟨a,c⟩ ⟨hx1,hx2,hy1,hy2⟩
    subst hnew hbox
    simp only [FBLink.points,Box.points,Set.mem_ofPred_eq] at hx1 hx2 hy1 hy2 ⊢
    omega
  have hnewid : new.id = link.id := by rw [← hnew]
  have hstep : σ.shrink ops w h (before,link,after) =
      .ok (true,if box.y2 = link.area.box.y2 ∧ box.x2 = link.area.box.x2 then { σ with usedAreas := before ++ new::after }
        else { σ with
          usedAreas := before ++ new::after
          freeBoxes := ops.union σ.freeBoxes (ops.subtract (ops.ofBox link.area.box) (ops.ofBox box)) }) := by
    have hx2 : int (link.area.box.x1 + w) = .ok _ := int_ok (by unfold InShort at hx; omega) (by unfold InShort at hx; omega)
    have hy2 : int (link.area.box.y1 + h) = .ok _ := int_ok (by unfold InShort at hy; omega) (by unfold InShort at hy; omega)
    subst hnew hbox
    unfold FBManager.shrink
    simp only [hx2,hy2]
    change Except.ok _ = _
    rw [short_eq hx,short_eq hy]
  -- the parts that do not depend on whether anything is freed
  have hkept {freeBoxes : R} (hsplit : Split (ops.points σ.initialBoxes)
      (ops.points freeBoxes::new.points::(before ++ after).map FBLink.points)) :
      Stocked ops 0 { σ with freeBoxes, usedAreas := before ++ new::after } ∧
        Placed σ { σ with freeBoxes, usedAreas := before ++ new::after } w h new := by
    refine ⟨⟨hsplit.perm (List.Perm.cons _ (hperm.map FBLink.points).symm),?_,fun l hl => ?_,?_,fun l hl => ?_⟩,
      ⟨rfl,by simp,fun l hl => ?_,.inr ⟨link,hlink,hnewid.symm⟩,?_,le_rfl⟩⟩
    · dsimp only
      rw [hs.counted,hused]
      simp only [List.length_append,List.length_cons]
    · obtain rfl | hl := List.mem_cons.1 (hperm.mem_iff.1 hl)
      · subst hnew hbox
        exact hs.aligned link hlink
      · exact hs.aligned l (hmem l hl)
    · dsimp only
      rw [(hperm.map FBLink.id).nodup_iff]
      refine List.nodup_cons.2 ⟨fun hnot => ?_,hnodup⟩
      obtain ⟨l,hl,heq⟩ := List.mem_map.1 hnot
      exact hid l hl (heq.trans hnewid)
    · obtain rfl | hl := List.mem_cons.1 (hperm.mem_iff.1 hl)
      · exact hnewid ▸ hs.fresh link hlink
      · exact hs.fresh l (hmem l hl)
    · obtain rfl | hl := List.mem_cons.1 (hperm.mem_iff.1 hl)
      · exact .inl rfl
      · exact .inr ⟨hmem l hl,hnewid ▸ hid l hl⟩
    · subst hnew hbox
      constructor <;> dsimp only <;> omega
  refine ⟨new,_,hstep,hnewid,?_⟩
  split_ifs with hsame
  · have hpoints : new.points = link.points := by
      subst hnew
      obtain ⟨hy2,hx2⟩ := hsame
      ext ⟨a,c⟩
      subst hbox
      simp only [FBLink.points,Box.points,Set.mem_ofPred_eq] at hy2 hx2 ⊢
      omega
    exact hkept (hpoints ▸ hs.split_middle hused)
  · refine hkept ?_
    have hbox' : Box.points box = new.points := by rw [← hnew]; rfl
    rw [hexact.union,hexact.subtract,hexact.ofBox,hexact.ofBox,hbox']
    exact (hs.split_middle hused).shrink hsub

lemma exchange {removed : FBManager R} (hs : Stocked ops 1 σ) (hplaced : Placed removed σ w h new)
    (hother : ∀ l ∈ removed.usedAreas, l.id ≠ link.id) (hfresh : link.id < removed.next) :
    Stocked ops 0 (σ.exchange link new) ∧ (σ.exchange link new).initialBoxes = removed.initialBoxes ∧
      (σ.exchange link new).next = σ.next ∧ { link with area := new.area } ∈ (σ.exchange link new).usedAreas ∧
      ∀ l ∈ (σ.exchange link new).usedAreas, l = { link with area := new.area } ∨ l ∈ removed.usedAreas := by
  obtain ⟨⟨before,c,after⟩,hfind⟩ := findLink_isSome hplaced.mem
  obtain ⟨hused,hc⟩ := findLink_some hfind
  obtain rfl : c = new := (hplaced.others c (by rw [hused]; simp)).resolve_right fun hne => hne.2 hc
  obtain ⟨hid,hnodup⟩ := hs.id_middle hused
  have hmem (l : FBLink) (hl : l ∈ before ++ after) : l ∈ σ.usedAreas ∧ l ∈ removed.usedAreas := by
    have hlσ : l ∈ σ.usedAreas := by
      rw [hused]
      simp only [List.mem_append,List.mem_cons] at hl ⊢
      tauto
    refine ⟨hlσ,?_⟩
    obtain rfl | hl' := hplaced.others l hlσ
    · exact absurd rfl (hid l hl)
    · exact hl'.1
  have hsplit := hs.split_middle hused
  unfold FBManager.exchange
  rw [hfind]
  refine ⟨⟨hsplit,?_,?_,?_,?_⟩,hplaced.initial,rfl,List.mem_cons_self,fun l hl => ?_⟩
  · dsimp only
    rw [hs.counted,hused]
    simp only [List.length_append,List.length_cons]
    omega
  · exact List.forall_mem_cons.2 ⟨hs.aligned c hplaced.mem,fun l hl => hs.aligned l (hmem l hl).1⟩
  · refine List.nodup_cons.2 ⟨fun hnot => ?_,hnodup⟩
    obtain ⟨l,hl,heq⟩ := List.mem_map.1 hnot
    exact hother l (hmem l hl).2 heq
  · exact List.forall_mem_cons.2 ⟨hfresh.trans_le hplaced.next,fun l hl => hs.fresh l (hmem l hl).1⟩
  · exact (List.mem_cons.1 hl).imp_right fun hl => (hmem l hl).2

lemma grow (hexact : ops.Exact) (hs : Stocked ops 0 σ) (hused : σ.usedAreas = before ++ link::after)
    (hsafe : Safe w h link.area.granularity
      ({ σ with
        freeBoxes := ops.union σ.freeBoxes (ops.ofBox link.area.box), usedAreas := before ++ after }.candidates ops
        link.removable)) :
    (∃ σ', σ.grow ops w h (before,link,after) = .ok (false,σ') ∧ Stocked ops 0 σ' ∧ σ'.initialBoxes = σ.initialBoxes ∧
      ops.points σ'.freeBoxes = ops.points σ.freeBoxes ∧ σ'.usedAreas.Perm σ.usedAreas) ∨
      ∃ new σ', σ.grow ops w h (before,link,after) = .ok (true,σ') ∧ new.id = link.id ∧ Stocked ops 0 σ' ∧
        Placed σ σ' w h new := by
  have hreleased := hs.release hexact hused
  have hlink : link ∈ σ.usedAreas := by rw [hused]; simp
  have hperm : (before ++ link::after).Perm (link::(before ++ after)) := List.perm_middle
  obtain hnone | ⟨new,σ₁,hsome,hstocked,hplaced⟩ := hreleased.allocate hexact hsafe
  · have hpoints : ops.points (ops.subtract (ops.union σ.freeBoxes (ops.ofBox link.area.box)) (ops.ofBox link.area.box)) =
        ops.points σ.freeBoxes := by
      rw [hexact.subtract,hexact.union,hexact.ofBox]
      exact (hs.split_middle hused).join_diff
    have hfail : σ.grow ops w h (before,link,after) = .ok (false,{ σ with
        freeBoxes := ops.subtract (ops.union σ.freeBoxes (ops.ofBox link.area.box)) (ops.ofBox link.area.box)
        usedAreas := link::(before ++ after) }) := by
      dsimp only [FBManager.grow]
      rw [hnone]
      rfl
    refine .inl ⟨_,hfail,⟨?_,?_,fun l hl => ?_,?_,fun l hl => ?_⟩,rfl,hpoints,by rw [hused]; exact hperm.symm⟩
    · dsimp only
      rw [hpoints]
      exact hs.split_middle hused
    · dsimp only
      rw [hs.counted,hused]
      simp only [List.length_append,List.length_cons]
      omega
    · exact hs.aligned l (by rw [hused]; exact hperm.mem_iff.2 hl)
    · have hnodup := hs.nodup
      rwa [hused,(hperm.map FBLink.id).nodup_iff] at hnodup
    · exact hs.fresh l (by rw [hused]; exact hperm.mem_iff.2 hl)
  · have hother := (hs.id_middle hused).1
    obtain ⟨hkept,hinitial,hnext,hmem,hall⟩ := hstocked.exchange hplaced hother (hs.fresh link hlink)
    have hgrow : σ.grow ops w h (before,link,after) = .ok (true,σ₁.exchange link new) := by
      dsimp only [FBManager.grow]
      rw [hsome]
      rfl
    refine .inr ⟨{ link with area := new.area },_,hgrow,rfl,hkept,
      ⟨hinitial,hmem,fun l hl => ?_,.inr ⟨link,hlink,rfl⟩,hplaced.sized,hnext ▸ hplaced.next⟩⟩
    refine (hall l hl).imp_right fun hl => ⟨?_,hother l hl⟩
    rw [hused]
    exact hperm.mem_iff.2 (List.mem_cons_of_mem link hl)

end Stocked

lemma purgeLoop_split {whole : Set (ℤ × ℤ)} {freeBoxes : R} (num : ℤ) (rest : List (Set (ℤ × ℤ))) (hexact : ops.Exact)
    (hsplit : Split whole (ops.points freeBoxes::(links.map FBLink.points ++ rest))) :
    Split whole (ops.points (purgeLoop ops links freeBoxes num).1::
      ((purgeLoop ops links freeBoxes num).2.1.map FBLink.points ++ rest)) := by
  induction links generalizing freeBoxes num rest with
  | nil => exact hsplit
  | cons link links ih =>
    rw [purgeLoop]
    split_ifs with hremovable
    · apply ih
      rw [hexact.append,hexact.ofBox]
      exact hsplit.join
    · have hlater := ih num (link.points::rest)
        (hsplit.perm (List.Perm.cons _ List.perm_middle.symm))
      exact hlater.perm (List.Perm.cons _ List.perm_middle)

lemma purgeLoop_links (freeBoxes : R) (num : ℤ) :
    (purgeLoop ops links freeBoxes num).2.1 = links.filter (fun link => !link.removable) ∧
      (purgeLoop ops links freeBoxes num).2.2 - (links.filter (fun link => !link.removable)).length =
        num - links.length := by
  induction links generalizing freeBoxes num with
  | nil => exact ⟨rfl,rfl⟩
  | cons link links ih =>
    rw [purgeLoop,List.length_cons]
    split_ifs with hremovable
    · obtain ⟨hlinks,hcount⟩ := ih (ops.append freeBoxes (ops.ofBox link.area.box)) (num - 1)
      rw [List.filter_cons_of_neg (by simpa using hremovable)]
      exact ⟨hlinks,by omega⟩
    · obtain ⟨hlinks,hcount⟩ := ih freeBoxes num
      rw [List.filter_cons_of_pos (by simpa using hremovable),List.length_cons]
      exact ⟨by rw [← hlinks],by dsimp only; push_cast; linarith⟩

lemma Stocked.purge (hexact : ops.Exact) (hs : Stocked ops 0 σ) :
    Stocked ops 0 (σ.purgeAreas ops) ∧ (σ.purgeAreas ops).initialBoxes = σ.initialBoxes ∧
      ∀ l ∈ (σ.purgeAreas ops).usedAreas, l ∈ σ.usedAreas := by
  obtain ⟨hlinks,hcount⟩ : (purgeLoop ops σ.usedAreas σ.freeBoxes σ.numUsedAreas).2.1 = _ ∧ _ := purgeLoop_links _ _
  have hsplit := purgeLoop_split σ.numUsedAreas [] hexact (by rw [List.append_nil]; exact hs.split)
  have hmem (l : FBLink) (hl : l ∈ (σ.purgeAreas ops).usedAreas) : l ∈ σ.usedAreas := by
    change l ∈ (purgeLoop ops σ.usedAreas σ.freeBoxes σ.numUsedAreas).2.1 at hl
    rw [hlinks] at hl
    exact (List.mem_filter.1 hl).1
  refine ⟨⟨?_,?_,fun l hl => hs.aligned l (hmem l hl),?_,fun l hl => hs.fresh l (hmem l hl)⟩,rfl,hmem⟩
  · rw [List.append_nil] at hsplit
    have hpoints : ops.points (σ.purgeAreas ops).freeBoxes =
        ops.points (purgeLoop ops σ.usedAreas σ.freeBoxes σ.numUsedAreas).1 := by
      unfold FBManager.purgeAreas
      dsimp only
      split_ifs
      · exact hexact.validate _
      · rfl
    rw [hpoints]
    exact hsplit
  · have hcounted := hs.counted
    change (purgeLoop ops σ.usedAreas σ.freeBoxes σ.numUsedAreas).2.2 =
      (purgeLoop ops σ.usedAreas σ.freeBoxes σ.numUsedAreas).2.1.length + 0
    rw [hlinks]
    omega
  · change ((purgeLoop ops σ.usedAreas σ.freeBoxes σ.numUsedAreas).2.1.map FBLink.id).Nodup
    rw [hlinks]
    exact hs.nodup.sublist (List.filter_sublist.map _)

end Xlibre.Xf86.Areas
