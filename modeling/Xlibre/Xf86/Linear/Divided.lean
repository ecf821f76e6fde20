import Xlibre.Xf86.Linear.Kept

/-! Linear memory stays divided into blocks exactly if no block is freed behind another one that is in use. -/
namespace Xlibre.Xf86.Linear
open Xlibre.Lib Tiling Checked

variable {size offset x : ℤ} {areas linear linear' : List FBLinearLink} {σ σ' : Session} {b c : Block} {call : Call}

namespace Valid

lemma nodup_held (hv : Valid offset size areas linear σ) : (σ.held.map Block.id).Nodup := by
  have hids : ((used linear).map Prod.fst).Nodup := by
    rw [used,List.map_map]
    have hsublist := (List.filter_sublist (p := fun l => !l.free) (l := linear)).map FBLinearLink.id
    have hnodup := hv.layout.nodup
    rw [List.map_append] at hnodup
    exact (List.Nodup.of_append_right hnodup).sublist hsublist
  have hperm := hv.held.map Prod.fst
  rw [List.map_map] at hperm
  exact hperm.nodup_iff.1 hids

lemma eq_of_held (hv : Valid offset size areas linear σ) (hb : b ∈ σ.held) (hc : c ∈ σ.held) (hbx : b.Has x) (hcx : c.Has x) :
    b = c := by
  obtain ⟨l,hl,-,hlb⟩ := hv.mem_held hb
  obtain ⟨p,hp,-,hpc⟩ := hv.mem_held hc
  obtain rfl := hv.layout.tiles.eq_of_has hl hp ((has_iff hlb).1 hbx) ((has_iff hpc).1 hcx)
  have hid : b.id = c.id := congrArg Prod.fst (hlb.symm.trans hpc)
  exact List.inj_on_of_nodup_map hv.nodup_held hb hc hid

lemma restored (hv : Valid offset size areas linear σ) (hv' : Valid offset size areas linear' σ') (hb : b ∈ σ.held)
    (hheld : σ'.held = σ.held.erase b) : σ'.manager.Available x ↔ σ.manager.Available x ∨ b.Has x := by
  have hmem (c : Block) : c ∈ σ.held.erase b ↔ c ≠ b ∧ c ∈ σ.held := (hv.nodup_held.of_map).mem_erase_iff
  rw [hv.available,hv'.available,hheld]
  constructor
  · rintro ⟨hrange,hnone⟩
    by_cases hbx : b.Has x
    · exact .inr hbx
    · refine .inl ⟨hrange,fun c hc hcx => ?_⟩
      obtain rfl | hne := eq_or_ne c b
      · exact hbx hcx
      · exact hnone c ((hmem c).2 ⟨hne,hc⟩) hcx
  · rintro (⟨hrange,hnone⟩ | hbx)
    · exact ⟨hrange,fun c hc => hnone c (List.mem_of_mem_erase hc)⟩
    · obtain ⟨l,hl,-,hkey⟩ := hv.mem_held hb
      refine ⟨hv.layout.tiles.covers.2 ⟨l,hl,(has_iff hkey).1 hbx⟩,fun c hc hcx => ?_⟩
      exact ((hmem c).1 hc).1 (hv.eq_of_held ((hmem c).1 hc).2 hb hcx hbx)

lemma run (hlow : -2^31 ≤ offset) (hv : Valid offset size areas linear σ) (henabled : σ.Enabled call) (hfits : call.Fits σ) :
    ∃ σ' areas' linear', σ.run call = .ok σ' ∧ Valid offset size areas' linear' σ' ∧ σ.Exact σ' call := by
  cases call with
  | allocate requested granularity =>
    obtain ⟨σ',linear',hrun,hv',hheld⟩ := hv.allocate hlow hfits
    exact ⟨σ',areas,linear',hrun,hv',hheld⟩
  | free block =>
    obtain ⟨linear',hv'⟩ := hv.free henabled hfits
    exact ⟨_,areas,linear',rfl,hv',rfl,fun x => hv.restored hv' henabled rfl⟩
  | allocateArea first length granularity => exact ⟨_,_,linear,rfl,hv.pushArea,fun b hb => hb⟩
  | freeArea id =>
    obtain ⟨areas',hv',-⟩ := hv.removeArea henabled
    exact ⟨_,areas',linear,rfl,hv',fun b hb => hb⟩
  | removeArea id =>
    obtain ⟨areas',-,hv'⟩ := hv.removeArea henabled
    exact ⟨_,areas',linear,rfl,hv',fun b hb => hb⟩

lemma grown (hv : Valid offset size areas linear σ) (hb : b ∈ σ.held) (hfits : ¬ (Call.free b).Fits σ) :
    ¬ Divided offset size ⟨σ.manager.localFreeOffscreenLinear b.id,σ.held.erase b⟩ := by
  unfold Call.Fits at hfits
  push Not at hfits
  obtain ⟨before,p,l,after,hlinks,hid,hparea,hpfree⟩ := hfits
  obtain ⟨l',hl',-,hkey⟩ := hv.mem_held hb
  have hnodup := hv.layout.nodup
  obtain rfl : l = l' := by
    refine hv.layout.eq_of_id ?_ (List.mem_append_right _ hl') (hid.trans (congrArg Prod.fst hkey).symm)
    rw [← hv.links,hlinks]
    simp
  have hpnot : p.area = false := by simpa using hparea
  obtain ⟨pre,rfl,rfl⟩ := hv.layout.split (hv.links.symm.trans hlinks) hpnot
  have hlarea := hv.layout.notArea l hl'
  obtain ⟨right,rest,total,rfl,-,-,hnext,hnexttiles⟩ :=
    mergeNext_eq (l := { l with free := true }) (apart_cons.1 (apart_cons.1 hv.layout.apart.right).1).1
  have htotal : 0 < total := by
    obtain ⟨q,-,-,-,htiles⟩ := tiles_append.1 hv.layout.tiles
    rw [← List.cons_append] at htiles
    obtain ⟨r,hr,-⟩ := tiles_append.1 htiles
    exact (hnexttiles _ r hr).2.1
  have hlinks' : σ.manager.linearAreas = areas ++ pre ++ [p] ++ l::(right ++ rest) := by rw [hlinks]; simp
  rw [← hv.links] at hnodup
  have hresult : (σ.manager.localFreeOffscreenLinear b.id).linearAreas =
      areas ++ pre ++ { p with size := p.size + total }::rest := by
    unfold FBManager.localFreeOffscreenLinear
    dsimp only
    rw [← hid,(takeWhile_id hlinks' hnodup).1,(takeWhile_id hlinks' hnodup).2]
    dsimp only
    rw [if_neg (by simp [hlarea]),hnext,List.getLast?_concat,List.dropLast_concat]
    simp [FBManager.mergePrev,hpnot]
  intro hdivided
  obtain ⟨c,hc,hckey⟩ := hv.exists_held (l := p) (by simp) (by simpa using hpfree)
  have hne : c ≠ b := by
    rintro rfl
    have hpl : p.id = l.id := (congrArg Prod.fst hckey).symm.trans hid.symm
    have hsame : p = l := hv.layout.eq_of_id (by simp) (by simp) hpl
    rw [hlinks',hsame] at hnodup
    simp [List.nodup_append] at hnodup
  obtain ⟨m,hm,hmid,-,-,hmsize⟩ := hdivided.kept c ((List.mem_erase_of_ne hne).2 hc)
  obtain ⟨hcid,-,hcsize⟩ := key_eq.1 hckey.symm
  have hnodup' : (((areas ++ pre) ++ { p with size := p.size + total }::rest).map FBLinearLink.id).Nodup := by
    rw [hlinks] at hnodup
    refine hnodup.sublist ?_
    simp
  have hmem : m ∈ areas ++ pre ++ { p with size := p.size + total }::rest := by
    rw [FBManager.linear,hresult] at hm
    exact List.mem_of_mem_filter hm
  obtain rfl := List.inj_on_of_nodup_map hnodup' hmem
    (show { p with size := p.size + total } ∈ areas ++ pre ++ { p with size := p.size + total }::rest by simp)
    (hmid.trans hcid.symm)
  dsimp only at hmsize
  omega

end Valid

/-- In every run of calls that meet the condition linear memory is divided into the blocks that are held, and it stays so with
the next call exactly if that meets the condition as well. -/
theorem divided_iff_fits (hlow : -2^31 ≤ offset) (hpos : 0 < size)
    (hr : Reaches (fun σ call => call.Fits σ) offset size σ) :
    Divided offset size σ ∧ ∀ call, σ.Enabled call →
      (call.Fits σ ↔ ∃ σ', σ.step call = .ok σ' ∧ Divided offset size σ' ∧ σ.Exact σ' call) := by
  have hvalid : ∃ areas linear, Valid offset size areas linear σ := by
    induction hr with
    | initial => exact ⟨[],_,.initial hpos⟩
    | @step σ σ' call h hmeets hstep ih =>
      obtain ⟨areas,linear,hv⟩ := ih
      unfold Session.step at hstep
      split_ifs at hstep with henabled
      obtain ⟨σ'',areas',linear',hrun,hv',-⟩ := hv.run hlow henabled hmeets
      rw [hrun] at hstep
      cases hstep
      exact ⟨areas',linear',hv'⟩
  obtain ⟨areas,linear,hv⟩ := hvalid
  refine ⟨hv.divided hpos,fun call henabled => ?_⟩
  rw [Session.step,if_pos henabled]
  constructor
  · intro hfits
    obtain ⟨σ',areas',linear',hrun,hv',hexact⟩ := hv.run hlow henabled hfits
    exact ⟨σ',hrun,hv'.divided hpos,hexact⟩
  · rintro ⟨σ',hrun,hdivided,-⟩
    by_contra hfits
    cases call with
    | allocate requested granularity =>
      unfold Call.Fits at hfits
      push Not at hfits
      rw [hv.allocate_error hlow hfits.1 hfits.2] at hrun
      cases hrun
    | free block =>
      cases hrun
      exact hv.grown henabled hfits hdivided
    | allocateArea | freeArea | removeArea => exact hfits trivial

def oneBlock : Session := ⟨⟨[⟨0,0,10,1,false,false⟩,⟨1,10,90,0,true,false⟩],2⟩,[⟨0,0,10,10,1⟩]⟩

theorem divided_iff_fits_one : Divided 0 100 oneBlock ∧ ∀ call, oneBlock.Enabled call →
    (call.Fits oneBlock ↔ ∃ σ', oneBlock.step call = .ok σ' ∧ Divided 0 100 σ' ∧ oneBlock.Exact σ' call) := by
  refine divided_iff_fits (by decide) (by decide) (.step (.allocate 10 1) .initial (fun _ => ?_) (by rfl))
  intro before l after heq _ _ _
  obtain _ | ⟨c,before⟩ := before
  · obtain rfl : ⟨0,0,100,0,true,false⟩ = l := (List.cons.inj heq).1
    exact ⟨by decide,by decide,by decide⟩
  · have := congrArg List.length (List.cons.inj heq).2
    simp at this

/-- Of two blocks the second one is freed, and the first one takes its place. -/
theorem first_grows : ∃ σ, Reaches (fun _ _ => True) 0 100 σ ∧ ¬ Divided 0 100 σ := by
  have hone : Reaches (fun _ _ => True) 0 100 oneBlock := .step (.allocate 10 1) .initial trivial (by rfl)
  have htwo : Reaches (fun _ _ => True) 0 100
      ⟨⟨[⟨0,0,10,1,false,false⟩,⟨1,10,20,1,false,false⟩,⟨2,30,70,0,true,false⟩],3⟩,[⟨1,10,20,20,1⟩,⟨0,0,10,10,1⟩]⟩ :=
    .step (.allocate 20 1) hone trivial (by rfl)
  refine ⟨⟨⟨[⟨0,0,100,1,false,false⟩],3⟩,[⟨0,0,10,10,1⟩]⟩,.step (.free ⟨1,10,20,20,1⟩) htwo trivial (by rfl),fun hdivided => ?_⟩
  obtain ⟨l,hl,-,-,-,hsize⟩ := hdivided.kept ⟨0,0,10,10,1⟩ (by decide)
  obtain rfl := List.mem_singleton.1 hl
  exact absurd hsize (by decide)

end Xlibre.Xf86.Linear
