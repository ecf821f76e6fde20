import Mathlib.Order.CompletePartialOrder
import Mathlib.Data.Set.Lattice

/-! A set split into a list of pieces: pieces are cut from each other and joined again. -/
namespace Xlibre.Lib.Splits

variable {α : Type*} {whole p q r : Set α} {l m : List (Set α)}

/-- The pieces are pairwise disjoint and together the whole. -/
structure Split (whole : Set α) (l : List (Set α)) : Prop where
  disjoint : l.Pairwise Disjoint
  covers : ∀ a, a ∈ whole ↔ ∃ p ∈ l, a ∈ p

namespace Split

lemma singleton : Split whole [whole] := ⟨List.pairwise_singleton _ _,fun a => by simp⟩

lemma perm (h : Split whole l) (hp : l.Perm m) : Split whole m := by
  refine ⟨(hp.pairwise_iff fun hd => hd.symm).1 h.disjoint,fun a => ?_⟩
  rw [h.covers]
  simp only [hp.mem_iff]

/-- A part of a piece becomes one of its own. -/
lemma cut (h : Split whole (p::l)) (hq : q ⊆ p) : Split whole ((p \ q)::q::l) := by
  obtain ⟨hp,hl⟩ := List.pairwise_cons.1 h.disjoint
  refine ⟨List.pairwise_cons.2 ⟨fun s hs => ?_,List.pairwise_cons.2 ⟨fun s hs => ?_,hl⟩⟩,fun a => ?_⟩
  · obtain rfl | hs := List.mem_cons.1 hs
    · exact Set.disjoint_sdiff_left
    · exact (hp s hs).mono_left Set.sdiff_subset
  · exact (hp s hs).mono_left hq
  · rw [h.covers]
    simp only [List.mem_cons,exists_eq_or_imp]
    constructor
    · rintro (ha | ha)
      · by_cases haq : a ∈ q
        · exact .inr (.inl haq)
        · exact .inl ⟨ha,haq⟩
      · exact .inr (.inr ha)
    · rintro (ha | ha | ha)
      · exact .inl ha.1
      · exact .inl (hq ha)
      · exact .inr ha

/-- Two pieces become one. -/
lemma join (h : Split whole (p::q::l)) : Split whole ((p ∪ q)::l) := by
  obtain ⟨hp,hql⟩ := List.pairwise_cons.1 h.disjoint
  obtain ⟨hq,hl⟩ := List.pairwise_cons.1 hql
  refine ⟨List.pairwise_cons.2 ⟨fun s hs => ?_,hl⟩,fun a => ?_⟩
  · exact Set.disjoint_union_left.2 ⟨hp s (List.mem_cons_of_mem q hs),hq s hs⟩
  · rw [h.covers]
    simp only [List.mem_cons,exists_eq_or_imp,Set.mem_union,or_assoc]

lemma apart (h : Split whole (p::q::l)) : Disjoint p q := (List.pairwise_cons.1 h.disjoint).1 q List.mem_cons_self

/-- What was joined is taken away again. -/
lemma join_diff (h : Split whole (p::q::l)) : (p ∪ q) \ q = p := by
  rw [Set.union_sdiff_right]
  exact h.apart.sdiff_eq_left

/-- A piece shrinks, and what is left of it is joined to another. -/
lemma shrink (h : Split whole (p::q::l)) (hr : r ⊆ q) : Split whole ((p ∪ q \ r)::r::l) := by
  have hjoined := h.join.cut (hr.trans Set.subset_union_right)
  rwa [Set.union_sdiff_distrib,(h.apart.mono_right hr).sdiff_eq_left] at hjoined

end Split

end Xlibre.Lib.Splits
