import Xlibre.Xf86.Linear.Manager
import Mathlib.Data.List.Nodup
import Mathlib.Data.List.Perm.Basic

/-! How the list of links is made up, and that allocating a block keeps it so. -/
namespace Xlibre.Xf86.Linear
open Xlibre.Lib Tiling Checked

/-- What a block has in common with its link. -/
def FBLinearLink.key (l : FBLinearLink) : ℕ × ℤ × ℤ := (l.id,l.offset,l.size)

def Block.key (b : Block) : ℕ × ℤ × ℤ := (b.id,b.offset,b.size)

/-- The blocks in use. -/
def used (linear : List FBLinearLink) : List (ℕ × ℤ × ℤ) := (linear.filter (!·.free)).map FBLinearLink.key

/-- Links that stand for areas, and those that tile linear memory after them. -/
structure Layout (lo hi : ℤ) (areas linear : List FBLinearLink) : Prop where
  ofArea : ∀ l ∈ areas, l.area ∧ l.free = false
  notArea : ∀ l ∈ linear, l.area = false
  tiles : Tiles FBLinearLink.offset FBLinearLink.size lo linear hi
  apart : Apart FBLinearLink.free linear
  nodup : ((areas ++ linear).map FBLinearLink.id).Nodup

/-- The list is laid out, and the blocks in use are those that are held. -/
structure Valid (offset size : ℤ) (areas linear : List FBLinearLink) (σ : Session) : Prop where
  links : σ.manager.linearAreas = areas ++ linear
  layout : Layout offset (offset + size) areas linear
  fresh : ∀ l ∈ areas ++ linear, l.id < σ.manager.next
  held : (used linear).Perm (σ.held.map Block.key)
  enough : ∀ b ∈ σ.held, b.requested ≤ b.size
  aligned : ∀ b ∈ σ.held, 1 < b.granularity → b.granularity ∣ b.offset

variable {size offset granularity lo hi x : ℤ} {l p : FBLinearLink} {areas linear before after : List FBLinearLink}
  {σ σ' : Session} {b : Block}

lemma key_eq : l.key = b.key ↔ l.id = b.id ∧ l.offset = b.offset ∧ l.size = b.size := by
  simp [FBLinearLink.key,Block.key]

@[simp] lemma used_nil : used [] = [] := rfl

lemma used_cons_free (h : l.free) : used (l::linear) = used linear := by simp [used,h]

lemma used_cons_taken (h : l.free = false) : used (l::linear) = l.key::used linear := by simp [used,h]

lemma used_append : used (before ++ after) = used before ++ used after := by simp [used]

lemma mem_used {k : ℕ × ℤ × ℤ} : k ∈ used linear ↔ ∃ l ∈ linear, l.free = false ∧ l.key = k := by
  simp [used,and_assoc]

lemma Layout.eq_of_id (h : Layout lo hi areas linear) (hl : l ∈ areas ++ linear) (hp : p ∈ areas ++ linear)
    (hid : l.id = p.id) : l = p := List.inj_on_of_nodup_map h.nodup hl hp hid

namespace Valid

lemma linear_eq (hv : Valid offset size areas linear σ) : σ.manager.linear = linear := by
  rw [FBManager.linear,hv.links,List.filter_append,List.filter_eq_nil_iff.2,List.filter_eq_self.2]
  · rfl
  · intro l hl
    simp [hv.layout.notArea l hl]
  · intro l hl
    simp [(hv.layout.ofArea l hl).1]

lemma mem_held (hv : Valid offset size areas linear σ) (hb : b ∈ σ.held) : ∃ l ∈ linear, l.free = false ∧ l.key = b.key :=
  mem_used.1 (hv.held.mem_iff.2 (List.mem_map_of_mem hb))

lemma exists_held (hv : Valid offset size areas linear σ) (hl : l ∈ linear) (hfree : l.free = false) :
    ∃ b ∈ σ.held, b.key = l.key :=
  List.mem_map.1 (hv.held.mem_iff.1 (mem_used.2 ⟨l,hl,hfree,rfl⟩))

lemma has_iff (h : l.key = b.key) : b.Has x ↔ Has FBLinearLink.offset FBLinearLink.size l x := by
  obtain ⟨-,hoffset,hsize⟩ := key_eq.1 h
  rw [Block.Has,Has,Has,hoffset,hsize]

lemma available (hv : Valid offset size areas linear σ) :
    σ.manager.Available x ↔ (offset ≤ x ∧ x < offset + size) ∧ ∀ b ∈ σ.held, ¬ b.Has x := by
  rw [FBManager.Available,hv.linear_eq,hv.layout.tiles.covers]
  constructor
  · rintro ⟨l,hl,hfree,hx⟩
    refine ⟨⟨l,hl,hx⟩,fun b hb hbx => ?_⟩
    obtain ⟨p,hp,htaken,hkey⟩ := hv.mem_held hb
    obtain rfl := hv.layout.tiles.eq_of_has hl hp hx ((has_iff hkey).1 hbx)
    exact absurd (hfree.symm.trans htaken) (by decide)
  · rintro ⟨⟨l,hl,hx⟩,hnone⟩
    refine ⟨l,hl,?_,hx⟩
    by_contra htaken
    obtain ⟨b,hb,hkey⟩ := hv.exists_held hl (Bool.not_eq_true _ ▸ htaken)
    exact hnone b hb ((has_iff hkey.symm).2 hx)

lemma divided (hpos : 0 < size) (hv : Valid offset size areas linear σ) : Divided offset size σ := by
  refine ⟨?_,fun b hb => ?_,hv.enough,hv.aligned,fun x => hv.available,fun hnone => ?_⟩
  · rw [hv.linear_eq]
    exact hv.layout.tiles
  · rw [hv.linear_eq]
    obtain ⟨l,hl,hfree,hkey⟩ := hv.mem_held hb
    obtain ⟨hid,hoffset,hlen⟩ := key_eq.1 hkey
    exact ⟨l,hl,hid,hfree,hoffset,hlen⟩
  · have hall : ∀ l ∈ linear, l.free := by
      intro l hl
      by_contra htaken
      obtain ⟨b,hb,-⟩ := hv.exists_held hl (Bool.not_eq_true _ ▸ htaken)
      rw [hnone] at hb
      cases hb
    have hne : linear ≠ [] := by
      rintro rfl
      have := tiles_nil.1 hv.layout.tiles
      omega
    obtain ⟨l,rfl⟩ := hv.layout.apart.singleton hall hne
    obtain ⟨hstart,-,hend⟩ := hv.layout.tiles
    refine ⟨l,hv.linear_eq,hall l (by simp),hstart,?_⟩
    have := tiles_nil.1 hend
    omega

lemma initial (hpos : 0 < size) : Valid offset size [] [⟨0,offset,size,0,true,false⟩] (.initial offset size) := by
  refine ⟨rfl,⟨by simp,by simp,⟨rfl,hpos,rfl⟩,apart_singleton,by simp⟩,by simp [Session.initial,FBManager.initLinear],?_,
    by simp [Session.initial],by simp [Session.initial]⟩
  exact List.Perm.refl _

end Valid

/-- What the link is broken up into: the block, with what is left over before and after it. -/
structure Pieces (σ : FBManager) (l : FBLinearLink) (offset size : ℤ) (left : List FBLinearLink) (block : FBLinearLink)
    (right : List FBLinearLink) (next : ℕ) : Prop where
  at_offset : block.offset = offset
  of_size : block.size = size
  taken : block.free = false
  notArea : ∀ p ∈ left ++ block::right, p.area = false
  freeLeft : ∀ p ∈ left, p.free
  freeRight : ∀ p ∈ right, p.free
  apart : Apart FBLinearLink.free (left ++ block::right)
  tiles : Tiles FBLinearLink.offset FBLinearLink.size l.offset (left ++ block::right) (l.offset + l.size)
  nodup : ((left ++ block::right).map FBLinearLink.id).Nodup
  ids : ∀ p ∈ left ++ block::right, p.id = l.id ∨ σ.next ≤ p.id ∧ p.id < next
  next_le : σ.next ≤ next

lemma breakUp_pieces (σ : FBManager) (before after : List FBLinearLink) (hroom : Room size granularity l) (hsize : 0 < size) (hold : l.id < σ.next) :
    ∃ left block right next, Pieces σ l (firstMultiple granularity l.offset) size left block right next ∧
      σ.breakUp size granularity (before,l,firstMultiple granularity l.offset,after) =
        (block,⟨before ++ (left ++ block::right) ++ after,next⟩) := by
  obtain ⟨harea,hfree,hfits⟩ := hroom
  have hle := le_firstMultiple granularity l.offset
  generalize firstMultiple granularity l.offset = offset at hfits hle
  unfold FBManager.breakUp
  dsimp only
  split_ifs with hleft hright hright
  all_goals dsimp only at hright
  · refine ⟨[{ l with size := l.size - (l.size - (offset - l.offset)) }],⟨σ.next,offset,size,granularity,false,false⟩,
      [⟨σ.next+1,offset + size,l.size - (offset - l.offset) - size,0,true,false⟩],σ.next+1+1,?_,by simp⟩
    refine ⟨rfl,rfl,rfl,by simp [harea],by simp [hfree],by simp,?_,?_,?_,?_,?_⟩
    · simp [Apart]
    · simp only [List.cons_append,List.nil_append,tiles_cons,tiles_nil,true_and]
      omega
    · simp
      omega
    · intro p hp
      simp only [List.cons_append,List.nil_append,List.mem_cons,List.not_mem_nil,or_false] at hp
      obtain rfl | rfl | rfl := hp <;> dsimp only <;> omega
    · omega
  · refine ⟨[{ l with size := l.size - (l.size - (offset - l.offset)) }],
      ⟨σ.next,offset,l.size - (offset - l.offset),granularity,false,false⟩,[],σ.next+1,?_,by simp⟩
    refine ⟨rfl,by dsimp only; omega,rfl,by simp [harea],by simp [hfree],by simp,?_,?_,?_,?_,?_⟩
    · simp [Apart]
    · simp only [List.cons_append,List.nil_append,tiles_cons,tiles_nil,true_and]
      omega
    · simp
      omega
    · simp
    · omega
  · refine ⟨[],{ l with size, granularity, free := false },[⟨σ.next,offset + size,l.size - size,0,true,false⟩],σ.next+1,?_,
      by simp⟩
    refine ⟨by dsimp only; omega,rfl,rfl,by simp [harea],by simp,by simp,?_,?_,?_,?_,?_⟩
    · simp [Apart]
    · simp only [List.nil_append,tiles_cons,tiles_nil,true_and]
      omega
    · simp
      omega
    · simp
    · omega
  · refine ⟨[],{ l with granularity, free := false },[],σ.next,?_,by simp⟩
    refine ⟨by dsimp only; omega,by dsimp only; omega,rfl,by simp [harea],by simp,by simp,?_,?_,?_,?_,?_⟩
    · simp [Apart]
    · simp only [List.nil_append,tiles_cons,tiles_nil,true_and,and_true]
      omega
    · simp
    · simp
    · omega

lemma Layout.split (h : Layout lo hi areas linear) (heq : areas ++ linear = before ++ l::after) (hl : l.area = false) :
    ∃ pre, before = areas ++ pre ∧ linear = pre ++ l::after := by
  obtain ⟨pre,hbefore,hlinear⟩ | ⟨pre,hareas,hl'⟩ := List.append_eq_append_iff.1 heq
  · exact ⟨pre,hbefore,hlinear⟩
  · obtain _ | ⟨c,pre⟩ := pre
    · rw [List.append_nil] at hareas
      exact ⟨[],by rw [hareas,List.append_nil],hl'.symm⟩
    · obtain rfl : l = c := (List.cons.inj hl').1
      have := (h.ofArea l (by simp [hareas])).1
      rw [hl] at this
      cases this

lemma used_free (h : ∀ p ∈ linear, p.free) : used linear = [] := by
  rw [used,List.filter_eq_nil_iff.2,List.map_nil]
  intro p hp
  simp [h p hp]

lemma perm_middle (areas before m after : List FBLinearLink) :
    (areas ++ (before ++ m ++ after)).Perm (m ++ (areas ++ before ++ after)) := by
  rw [← List.append_assoc,← List.append_assoc,← List.append_assoc]
  exact List.perm_append_comm.append_right after

lemma Valid.take {left right : List FBLinearLink} {block : FBLinearLink} {next : ℕ}
    (hv : Valid offset size areas (before ++ l::after) σ) (hfree : l.free) {first length : ℤ}
    (hp : Pieces σ.manager l first length left block right next) {requested : ℤ} (henough : requested ≤ length)
    (haligned : 1 < granularity → granularity ∣ first) :
    Valid offset size areas (before ++ (left ++ block::right) ++ after)
      ⟨⟨areas ++ (before ++ (left ++ block::right) ++ after),next⟩,
        ⟨block.id,block.offset,block.size,requested,granularity⟩::σ.held⟩ := by
  refine ⟨rfl,⟨hv.layout.ofArea,?_,?_,?_,?_⟩,?_,?_,?_,?_⟩
  · intro p hmem
    have hold := hv.layout.notArea
    simp only [List.mem_append,List.mem_cons] at hmem hold
    obtain (hmem | hmem) | hmem := hmem
    · exact hold p (.inl hmem)
    · exact hp.notArea p (by simpa using hmem)
    · exact hold p (.inr (.inr hmem))
  · have htiles := hv.layout.tiles
    rw [List.append_cons] at htiles
    refine htiles.replace fun p q hpq => ?_
    obtain ⟨rfl,-,rfl⟩ := hpq
    exact hp.tiles
  · exact hv.layout.apart.replace hfree hp.apart
  · have hold : ((areas ++ (before ++ [l] ++ after)).map FBLinearLink.id).Nodup := by simpa using hv.layout.nodup
    rw [(perm_middle areas before [l] after |>.map FBLinearLink.id).nodup_iff] at hold
    rw [(perm_middle areas before (left ++ block::right) after |>.map FBLinearLink.id).nodup_iff]
    rw [List.map_append,List.nodup_append'] at hold ⊢
    refine ⟨hp.nodup,hold.2.1,fun id hid hrest => ?_⟩
    obtain ⟨p,hmem,rfl⟩ := List.mem_map.1 hid
    obtain ⟨q,hq,hqid⟩ := List.mem_map.1 hrest
    obtain hl | hnew := hp.ids p hmem
    · exact hold.2.2 (List.mem_map.2 ⟨l,List.mem_singleton_self l,rfl⟩) (hl ▸ hrest)
    · have := hv.fresh q (by simp only [List.mem_append,List.mem_cons] at hq ⊢; tauto)
      omega
  · intro p hmem
    have hnext := hp.next_le
    simp only [List.mem_append,List.mem_cons] at hmem
    by_cases hnew : p ∈ left ++ block::right
    · have hl := hv.fresh l (by simp)
      have := hp.ids p hnew
      dsimp only
      omega
    · have := hv.fresh p (by simp only [List.mem_append,List.mem_cons] at hnew ⊢; tauto)
      dsimp only
      omega
  · have hheld := hv.held
    rw [used_append,used_cons_free hfree] at hheld
    rw [used_append,used_append,used_append,used_free hp.freeLeft,used_cons_taken hp.taken,used_free hp.freeRight]
    simp only [List.nil_append,List.append_assoc,List.cons_append]
    exact List.perm_middle.trans (hheld.cons _)
  · refine List.forall_mem_cons.2 ⟨?_,hv.enough⟩
    rw [hp.of_size]
    exact henough
  · refine List.forall_mem_cons.2 ⟨?_,hv.aligned⟩
    rw [hp.at_offset]
    exact haligned

end Xlibre.Xf86.Linear
