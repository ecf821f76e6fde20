import Xlibre.Xf86.Linear.Layout

/-! Which calls keep linear memory divided into blocks. -/
namespace Xlibre.Xf86.Linear
open Xlibre.Lib Tiling Checked

variable {size offset granularity requested lo hi x : ℤ} {l p : FBLinearLink}
  {areas areas' linear before after : List FBLinearLink} {σ σ' : Session} {b : Block} {id : ℕ}

lemma run_allocate_none (h : σ.manager.allocateLinear requested granularity = .ok (none,σ.manager)) :
    σ.run (.allocate requested granularity) = .ok σ := by
  change (σ.manager.allocateLinear requested granularity >>= _) = _
  rw [h]
  rfl

lemma run_allocate_some {manager : FBManager}
    (h : σ.manager.allocateLinear requested granularity = .ok (some l,manager)) :
    σ.run (.allocate requested granularity) =
      .ok ⟨manager,⟨l.id,l.offset,l.size,requested,granularity⟩::σ.held⟩ := by
  change (σ.manager.allocateLinear requested granularity >>= _) = _
  rw [h]
  rfl

namespace Valid

lemma low (hlow : -2^31 ≤ offset) (hv : Valid offset size areas linear σ) :
    ∀ l ∈ σ.manager.linearAreas, l.area = false → -2^31 ≤ l.offset ∧ 0 < l.size := by
  intro l hl harea
  rw [hv.links] at hl
  obtain hl | hl := List.mem_append.1 hl
  · rw [(hv.layout.ofArea l hl).1] at harea
    cases harea
  · have := hv.layout.tiles.within hl
    omega

lemma allocate (hlow : -2^31 ≤ offset) (hv : Valid offset size areas linear σ)
    (hsafe : 0 < requested → Safe requested granularity σ.manager.linearAreas) :
    ∃ σ' linear', σ.run (.allocate requested granularity) = .ok σ' ∧ Valid offset size areas linear' σ' ∧
      ∀ b ∈ σ.held, b ∈ σ'.held := by
  by_cases hsize : requested ≤ 0
  · exact ⟨σ,linear,run_allocate_none (if_pos hsize),hv,fun b hb => hb⟩
  · push Not at hsize
    obtain hnone | ⟨before,l,after,heq,hroom,hsome⟩ := search_safe (hv.low hlow) hsize (hsafe hsize)
    · refine ⟨σ,linear,run_allocate_none ?_,hv,fun b hb => hb⟩
      rw [FBManager.allocateLinear,if_neg (not_le.2 hsize),hnone]
      rfl
    · have hlinks := hv.links
      rw [heq] at hlinks
      obtain ⟨pre,rfl,rfl⟩ := hv.layout.split hlinks.symm hroom.1
      obtain ⟨left,block,right,next,hpieces,hbreak⟩ :=
        breakUp_pieces σ.manager (areas ++ pre) after hroom hsize (hv.fresh l (by simp))
      have htake := hv.take hroom.2.1 hpieces (le_refl requested) fun h : 1 < granularity => dvd_firstMultiple h
      refine ⟨_,_,run_allocate_some ?_,htake,fun b hb => List.mem_cons_of_mem _ hb⟩
      rw [FBManager.allocateLinear,if_neg (not_le.2 hsize),hsome]
      change Except.ok (some (σ.manager.breakUp requested granularity _).1,(σ.manager.breakUp requested granularity _).2) = _
      rw [hbreak]
      simp only [List.append_assoc]

lemma allocate_error (hlow : -2^31 ≤ offset) (hv : Valid offset size areas linear σ) (hsize : 0 < requested)
    (hover : ¬ Safe requested granularity σ.manager.linearAreas) :
    σ.run (.allocate requested granularity) = .error .signedOverflow := by
  change (σ.manager.allocateLinear requested granularity >>= _) = _
  rw [FBManager.allocateLinear,if_neg (not_le.2 hsize),search_overflow (hv.low hlow) hsize hover]
  rfl

lemma changeAreas (hv : Valid offset size areas linear σ) {manager : FBManager}
    (hlinks : manager.linearAreas = areas' ++ linear) (hareas : ∀ l ∈ areas', l.area ∧ l.free = false)
    (hnodup : ((areas' ++ linear).map FBLinearLink.id).Nodup) (hfresh : ∀ l ∈ areas' ++ linear, l.id < manager.next) :
    Valid offset size areas' linear { σ with manager } :=
  ⟨hlinks,⟨hareas,hv.layout.notArea,hv.layout.tiles,hv.layout.apart,hnodup⟩,hfresh,hv.held,hv.enough,hv.aligned⟩

lemma pushArea {first length : ℤ} (hv : Valid offset size areas linear σ) :
    Valid offset size (⟨σ.manager.next,first,length,granularity,false,true⟩::areas) linear
      { σ with manager := σ.manager.pushArea first length granularity } := by
  refine hv.changeAreas ?_ (List.forall_mem_cons.2 ⟨⟨rfl,rfl⟩,hv.layout.ofArea⟩) ?_ ?_
  · rw [FBManager.pushArea,hv.links]
    rfl
  · rw [List.cons_append,List.map_cons,List.nodup_cons]
    refine ⟨fun hmem => ?_,hv.layout.nodup⟩
    obtain ⟨l,hl,hid⟩ := List.mem_map.1 hmem
    exact absurd (hv.fresh l hl) (by rw [hid]; exact lt_irrefl _)
  · rw [List.cons_append]
    exact List.forall_mem_cons.2 ⟨Nat.lt_succ_self _,fun l hl => Nat.lt_succ_of_lt (hv.fresh l hl)⟩

lemma eraseArea (hv : Valid offset size (before ++ l::after) linear σ) :
    Valid offset size (before ++ after) linear
      { σ with manager := { σ.manager with linearAreas := before ++ after ++ linear } } := by
  have hsublist : (before ++ after ++ linear).Sublist (before ++ l::after ++ linear) :=
    ((List.Sublist.refl before).append (List.sublist_cons_self l after)).append_right linear
  refine hv.changeAreas rfl (fun p hp => hv.layout.ofArea p ?_) (hv.layout.nodup.sublist (hsublist.map _))
    fun p hp => hv.fresh p (hsublist.subset hp)
  simp only [List.mem_append,List.mem_cons] at hp ⊢
  tauto

end Valid

lemma takeWhile_id {links : List FBLinearLink} (heq : links = before ++ l::after) (h : (links.map FBLinearLink.id).Nodup) :
    links.takeWhile (·.id ≠ l.id) = before ∧ links.dropWhile (·.id ≠ l.id) = l::after := by
  subst heq
  have hall : ∀ p ∈ before, decide (p.id ≠ l.id) = true := by
    intro p hp
    rw [List.map_append,List.nodup_append'] at h
    refine decide_eq_true fun hid => h.2.2 (List.mem_map_of_mem hp) ?_
    rw [hid]
    simp
  rw [List.takeWhile_append_of_pos hall,List.dropWhile_append_of_pos hall]
  simp

lemma eraseP_id {links : List FBLinearLink} (heq : links = before ++ l::after) (h : (links.map FBLinearLink.id).Nodup) :
    links.eraseP (·.id = l.id) = before ++ after := by
  subst heq
  rw [List.eraseP_append_right]
  · simp
  · intro p hp hid
    rw [List.map_append,List.nodup_append'] at h
    refine h.2.2 (List.mem_map_of_mem hp) ?_
    rw [of_decide_eq_true hid]
    simp

namespace Valid

lemma removeArea (hv : Valid offset size areas linear σ) (h : ∃ l ∈ σ.manager.linearAreas, l.id = id ∧ l.area) :
    ∃ areas', Valid offset size areas' linear { σ with manager := σ.manager.localFreeOffscreenLinear id } ∧
      Valid offset size areas' linear { σ with manager := σ.manager.linearRemoveCBWrapper id } := by
  obtain ⟨l,hl,rfl,harea⟩ := h
  rw [hv.links] at hl
  obtain hl | hl := List.mem_append.1 hl
  · obtain ⟨before,after,rfl⟩ := List.append_of_mem hl
    have hlinks := hv.links
    rw [List.append_assoc,List.cons_append] at hlinks
    have hnodup := hv.layout.nodup
    rw [← hv.links] at hnodup
    refine ⟨before ++ after,?_,?_⟩
    · unfold FBManager.localFreeOffscreenLinear
      dsimp only
      rw [(takeWhile_id hlinks hnodup).1,(takeWhile_id hlinks hnodup).2]
      dsimp only
      rw [if_pos harea,← List.append_assoc]
      exact hv.eraseArea
    · unfold FBManager.linearRemoveCBWrapper
      rw [eraseP_id hlinks hnodup,← List.append_assoc]
      exact hv.eraseArea
  · rw [hv.layout.notArea l hl] at harea
    cases harea

lemma merge {mid : List FBLinearLink} {c : FBLinearLink} (hv : Valid offset size areas (before ++ mid ++ after) σ)
    (hb : b ∈ σ.held) (hused : used mid = [b.key]) (hfree : c.free) (harea : c.area = false)
    (hid : ∃ p ∈ mid, p.id = c.id)
    (htiles : ∀ q r, Tiles FBLinearLink.offset FBLinearLink.size q mid r →
      Tiles FBLinearLink.offset FBLinearLink.size q [c] r)
    (hlast : ∀ p ∈ before.getLast?, p.free = false) (hhead : ∀ p ∈ after.head?, p.free = false) :
    Valid offset size areas (before ++ [c] ++ after)
      ⟨{ σ.manager with linearAreas := areas ++ (before ++ [c] ++ after) },σ.held.erase b⟩ := by
  have hold := hv.layout.notArea
  have hapart := hv.layout.apart
  have hnodup := hv.layout.nodup
  have hfresh := hv.fresh
  obtain ⟨p,hp,hid⟩ := hid
  refine ⟨rfl,⟨hv.layout.ofArea,?_,hv.layout.tiles.replace htiles,?_,?_⟩,?_,?_,fun b hb => hv.enough b (List.mem_of_mem_erase hb),
    fun b hb => hv.aligned b (List.mem_of_mem_erase hb)⟩
  · intro q hq
    simp only [List.mem_append,List.mem_singleton] at hq hold
    obtain (hq | rfl) | hq := hq
    · exact hold q (.inl (.inl hq))
    · exact harea
    · exact hold q (.inr hq)
  · exact hapart.left.left.between apart_singleton hapart.right hlast hhead
  · rw [(perm_middle areas before _ after |>.map FBLinearLink.id).nodup_iff,List.map_append,List.nodup_append'] at hnodup ⊢
    refine ⟨List.nodup_singleton _,hnodup.2.1,fun id hmem hrest => ?_⟩
    obtain rfl := List.mem_singleton.1 hmem
    exact hnodup.2.2 (List.mem_map.2 ⟨p,hp,hid⟩) hrest
  · intro q hq
    simp only [List.mem_append,List.mem_singleton] at hq hfresh
    obtain hq | (hq | rfl) | hq := hq
    · exact hfresh q (.inl hq)
    · exact hfresh q (.inr (.inl (.inl hq)))
    · exact hid ▸ hfresh p (.inr (.inl (.inr hp)))
    · exact hfresh q (.inr (.inr hq))
  · have hheld := hv.held
    rw [used_append,used_append,hused] at hheld
    rw [used_append,used_append,used_cons_free hfree,used_nil,List.append_nil]
    have herase := (List.perm_cons_erase hb).map Block.key
    have hperm : (used before ++ [b.key] ++ used after).Perm (b.key::(used before ++ used after)) := by
      rw [List.append_assoc]
      exact List.perm_middle
    exact List.Perm.cons_inv (hperm.symm.trans (hheld.trans herase))

end Valid

lemma mergeNext_eq (hapart : Apart FBLinearLink.free after) :
    ∃ right rest total, after = right ++ rest ∧ (∀ p ∈ right, p.free) ∧ (∀ p ∈ rest.head?, p.free = false) ∧
      FBManager.mergeNext l after = { l with size := total }::rest ∧
      ∀ q r, Tiles FBLinearLink.offset FBLinearLink.size q (l::right) r →
        Tiles FBLinearLink.offset FBLinearLink.size q [{ l with size := total }] r := by
  cases after with
  | nil => exact ⟨[],[],l.size,rfl,by simp,by simp,rfl,fun q r h => h⟩
  | cons p rest =>
    by_cases hfree : p.free
    · refine ⟨[p],rest,l.size + p.size,rfl,by simpa using hfree,fun c hc => ?_,if_pos hfree,fun q r h => ?_⟩
      · exact (hapart.neighbours (l := []) hfree).2 c hc
      · simp only [tiles_cons,tiles_nil] at h ⊢
        omega
    · exact ⟨[],p::rest,l.size,rfl,by simp,by simpa using hfree,if_neg hfree,fun q r h => h⟩

lemma mergePrev_eq (rest : List FBLinearLink) {c : FBLinearLink} (hareas : ∀ l ∈ areas, l.area ∧ l.free = false)
    (hapart : Apart FBLinearLink.free before) (hlinear : ∀ l ∈ before, l.area = false) (hc : c.free) (hcarea : c.area = false)
    (hfits : ∀ p ∈ before.getLast?, p.free) :
    ∃ pre left m, before = pre ++ left ∧ (∀ p ∈ left, p.free) ∧ (∀ p ∈ pre.getLast?, p.free = false) ∧
      m.free ∧ m.area = false ∧ (∃ p ∈ left ++ [c], p.id = m.id) ∧
      (areas ++ before).dropLast ++ FBManager.mergePrev (areas ++ before).getLast? (c::rest) = areas ++ (pre ++ m::rest) ∧
      ∀ q r, Tiles FBLinearLink.offset FBLinearLink.size q (left ++ [c]) r →
        Tiles FBLinearLink.offset FBLinearLink.size q [m] r := by
  obtain rfl | ⟨pre,p,rfl⟩ := before.eq_nil_or_concat
  · refine ⟨[],[],c,rfl,by simp,by simp,hc,hcarea,⟨c,by simp,rfl⟩,?_,fun q r h => h⟩
    obtain rfl | ⟨areas,a,rfl⟩ := areas.eq_nil_or_concat
    · rfl
    · have ha := (hareas a (by simp)).1
      simp [FBManager.mergePrev,ha]
  · have hp : p.free := hfits p (by simp)
    have hparea := hlinear p (by simp)
    rw [List.concat_eq_append] at hapart ⊢
    refine ⟨pre,[p],{ p with size := p.size + c.size },rfl,by simpa using hp,(hapart.neighbours hp).1,hp,hparea,
      ⟨p,by simp,rfl⟩,?_,fun q r h => ?_⟩
    · rw [← List.append_assoc,List.dropLast_concat,List.getLast?_concat]
      simp [FBManager.mergePrev,hc,hparea]
    · simp only [List.cons_append,List.nil_append,tiles_cons,tiles_nil] at h ⊢
      omega

namespace Valid

lemma free (hv : Valid offset size areas linear σ) (hb : b ∈ σ.held) (hfits : (Call.free b).Fits σ) :
    ∃ linear', Valid offset size areas linear'
      ⟨σ.manager.localFreeOffscreenLinear b.id,σ.held.erase b⟩ := by
  obtain ⟨l,hl,htaken,hkey⟩ := hv.mem_held hb
  obtain ⟨before,after,rfl⟩ := List.append_of_mem hl
  have hid : l.id = b.id := congrArg Prod.fst hkey
  have harea := hv.layout.notArea l hl
  have hlinear := hv.layout.notArea
  have hlinks := hv.links
  rw [← List.append_assoc] at hlinks
  have hnodup := hv.layout.nodup
  rw [← hv.links] at hnodup
  have hapart := hv.layout.apart
  obtain ⟨right,rest,total,rfl,hright,hhead,hnext,hnexttiles⟩ :=
    mergeNext_eq (l := { l with free := true }) (apart_cons.1 hapart.right).1
  have hbefore : ∀ p ∈ before.getLast?, p.free := by
    intro p hp
    obtain ⟨pre,rfl⟩ := List.getLast?_eq_some_iff.1 hp
    have hnotarea := hlinear p (by simp)
    refine (hfits (areas ++ pre) p l (right ++ rest) (by rw [hv.links]; simp) hid).resolve_left ?_
    simp [hnotarea]
  obtain ⟨pre,left,m,rfl,hleft,hlast,hm,hmarea,⟨p,hp,hpid⟩,hprev,hprevtiles⟩ :=
    mergePrev_eq rest hv.layout.ofArea hapart.left
      (fun p hp => hlinear p (by simp only [List.mem_append] at hp ⊢; tauto))
      (show ({ l with free := true, size := total } : FBLinearLink).free from rfl) harea hbefore
  refine ⟨pre ++ [m] ++ rest,?_⟩
  have hresult : σ.manager.localFreeOffscreenLinear b.id =
      { σ.manager with linearAreas := areas ++ (pre ++ [m] ++ rest) } := by
    unfold FBManager.localFreeOffscreenLinear
    dsimp only
    rw [← hid,(takeWhile_id hlinks hnodup).1,(takeWhile_id hlinks hnodup).2]
    dsimp only
    rw [if_neg (by simp [harea]),hnext,hprev]
    simp
  rw [hresult]
  have hv' : Valid offset size areas (pre ++ (left ++ l::right) ++ rest) σ := by simpa using hv
  refine hv'.merge hb ?_ hm hmarea ?_ (fun q r h => hprevtiles q r ?_) hlast hhead
  · rw [used_append,used_cons_taken htaken,used_free hleft,used_free hright,hkey]
    rfl
  · obtain hp | hp := List.mem_append.1 hp
    · exact ⟨p,List.mem_append_left _ hp,hpid⟩
    · obtain rfl := List.mem_singleton.1 hp
      exact ⟨l,by simp,hpid⟩
  · obtain ⟨mid,hleft,hmid⟩ := tiles_append.1 h
    exact tiles_append.2 ⟨mid,hleft,hnexttiles mid r hmid⟩

end Valid
end Xlibre.Xf86.Linear
