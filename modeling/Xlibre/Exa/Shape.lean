import Xlibre.Exa.Offscreen
import Xlibre.Lib.Checked

/-! What all lists of areas have in common, in the middle of a call too, and that merging two areas keeps it. -/
namespace Xlibre.Exa
open Xlibre.Lib Tiling Checked

namespace ExaScreen

/-- The list, the memory and the counter, but for neighbours that are both available. -/
structure Shape (info : ExaDriver) (σ : ExaScreen) (l : List ℕ) : Prop where
  linked : σ.links.Lists l
  fresh : ∀ i ∈ l, i < σ.fresh
  tiles : Tiles σ.baseOffset σ.size info.offScreenBase l info.memorySize
  counted : σ.numOffscreenAvailable = (l.filter σ.avail).length
  offsets : ∀ i ∈ l, σ.baseOffset i ≤ (σ.area i).offset ∧ (σ.area i).offset < σ.baseOffset i + σ.size i
  aligned : ∀ i ∈ l, σ.avail i = false → 0 < (σ.area i).align

/-- The fields that the shape of the list depends on. -/
def Same (a b : ExaOffscreenArea) : Prop :=
  a.baseOffset = b.baseOffset ∧ a.offset = b.offset ∧ a.size = b.size ∧ a.state = b.state ∧ a.align = b.align

variable {info : ExaDriver} {σ σ' : ExaScreen} {l pre post : List ℕ} {a b i n : ℕ}

@[simp] lemma set_area_self {area : ExaOffscreenArea} : (σ.set i area).area i = area := by simp [set]

lemma set_area_of_ne {area : ExaOffscreenArea} (h : a ≠ i) : (σ.set i area).area a = σ.area a :=
  Function.update_of_ne h _ _

namespace Shape

lemma areas_eq (h : Shape info σ l) : σ.areas = l := by
  refine h.linked.walk ?_
  have hsubset : l ⊆ List.range σ.fresh := fun i hi => List.mem_range.2 (h.fresh i hi)
  simpa using (List.subperm_of_subset h.linked.nodup hsubset).length_le

lemma congr (h : Shape info σ l) (harea : ∀ i ∈ l, Same (σ'.area i) (σ.area i)) (hlinks : σ'.links = σ.links)
    (hfresh : σ'.fresh = σ.fresh) (hnum : σ'.numOffscreenAvailable = σ.numOffscreenAvailable) : Shape info σ' l := by
  have hbase : ∀ i ∈ l, σ'.baseOffset i = σ.baseOffset i := fun i hi => (harea i hi).1
  have hsize : ∀ i ∈ l, σ'.size i = σ.size i := fun i hi => (harea i hi).2.2.1
  have havail : ∀ i ∈ l, σ'.avail i = σ.avail i := fun i hi => by rw [avail,avail,(harea i hi).2.2.2.1]
  refine ⟨hlinks ▸ h.linked,fun i hi => hfresh ▸ h.fresh i hi,?_,?_,fun i hi => ?_,fun i hi hused => ?_⟩
  · exact h.tiles.congr fun i hi => ⟨hbase i hi,hsize i hi⟩
  · rw [hnum,h.counted,List.filter_congr havail]
  · rw [(harea i hi).2.1,hbase i hi,hsize i hi]
    exact h.offsets i hi
  · rw [(harea i hi).2.2.2.2]
    exact h.aligned i hi (havail i hi ▸ hused)

lemma abut_of_tiles {lo hi : ℤ} (h : Tiles σ.baseOffset σ.size lo l hi) : σ.abut l := by
  induction l generalizing lo with
  | nil => rfl
  | cons a l ih =>
    obtain _ | ⟨b,l⟩ := l
    · rfl
    · obtain ⟨rfl,-,htail⟩ := h
      rw [abut,ih htail,Bool.and_true]
      exact decide_eq_true htail.1.symm

lemma validate (h : Shape info σ l) : σ.validate info = .ok () := by
  refine if_pos ?_
  rw [h.areas_eq,abut_of_tiles h.tiles]
  have hhead : σ.baseOffset σ.links.head = info.offScreenBase := by
    obtain ⟨l,rfl⟩ := List.head?_eq_some_iff.1 h.linked.head
    exact h.tiles.1
  have hoffsets : ∀ i ∈ l, σ.baseOffset i ≤ (σ.area i).offset ∧ (σ.area i).offset < σ.baseOffset i + σ.size i := h.offsets
  have hlast : ∀ i ∈ l.getLast?, σ.baseOffset i + σ.size i = info.memorySize := fun i hi => h.tiles.last hi
  simp only [hhead,decide_true,Bool.and_true,Bool.true_and,Bool.and_eq_true,List.all_eq_true,decide_eq_true_eq]
  refine ⟨hoffsets,?_⟩
  cases hend : l.getLast? with
  | none => rfl
  | some i => exact decide_eq_true (hlast i hend)

end Shape

@[simp] lemma mergeWith_area_self : (σ.mergeWith a n).area a = { σ.area a with size := σ.size a + σ.size n } := by
  simp [mergeWith,set]

lemma mergeWith_area_of_ne (h : b ≠ a) : (σ.mergeWith a n).area b = σ.area b := Function.update_of_ne h _ _

@[simp] lemma mergeWith_avail : (σ.mergeWith a n).avail = σ.avail := by
  funext j
  by_cases h : j = a
  · subst h
    simp [avail]
  · simp [avail,mergeWith_area_of_ne h]

@[simp] lemma mergeWith_baseOffset : (σ.mergeWith a n).baseOffset = σ.baseOffset := by
  funext j
  by_cases h : j = a
  · subst h
    simp [baseOffset]
  · simp [baseOffset,mergeWith_area_of_ne h]

@[simp] lemma mergeWith_size_self : (σ.mergeWith a n).size a = σ.size a + σ.size n := by simp [size]

lemma mergeWith_size_of_ne (h : b ≠ a) : (σ.mergeWith a n).size b = σ.size b := by simp [size,mergeWith_area_of_ne h]

lemma Shape.mergeWith (h : Shape info σ (pre ++ a::n::post)) (ha : σ.avail a) (hn : σ.avail n) :
    Shape info (σ.mergeWith a n) (pre ++ a::post) := by
  have hnodup := h.linked.nodup
  simp only [List.nodup_append',List.nodup_cons,List.mem_cons,not_or,List.disjoint_cons_right] at hnodup
  obtain ⟨-,⟨⟨-,hapost⟩,-⟩,hapre,-⟩ := hnodup
  have hpre : ∀ j ∈ pre, j ≠ a := fun j hj heq => hapre (heq ▸ hj)
  have hpost : ∀ j ∈ post, j ≠ a := fun j hj heq => hapost (heq ▸ hj)
  refine ⟨h.linked.removeNext,fun j hj => h.fresh j ?_,?_,?_,?_,?_⟩
  · simp only [List.mem_append,List.mem_cons] at hj ⊢
    tauto
  · obtain ⟨p,hleft,hrest⟩ := tiles_append.1 h.tiles
    simp only [tiles_cons] at hrest
    obtain ⟨hbase,hsize,hbasen,hsizen,htail⟩ := hrest
    rw [tiles_append]
    refine ⟨p,hleft.congr fun j hj => ⟨by simp,mergeWith_size_of_ne (hpre j hj)⟩,?_⟩
    rw [tiles_cons,mergeWith_baseOffset,mergeWith_size_self]
    refine ⟨hbase,by omega,?_⟩
    rw [← add_assoc]
    exact htail.congr fun j hj => ⟨rfl,mergeWith_size_of_ne (hpost j hj)⟩
  · have hcounted := h.counted
    rw [mergeWith_avail]
    change σ.numOffscreenAvailable - 1 = _
    simp only [List.filter_append,List.filter_cons,ha,hn,if_true,List.length_append,List.length_cons] at hcounted ⊢
    omega
  · intro j hj
    have hold := h.offsets j (by simp only [List.mem_append,List.mem_cons] at hj ⊢; tauto)
    rw [mergeWith_baseOffset]
    by_cases heq : j = a
    · subst heq
      have hsize := (h.tiles.within (a := n) (by simp)).2.1
      rw [mergeWith_size_self,mergeWith_area_self]
      dsimp only
      omega
    · rwa [mergeWith_size_of_ne heq,mergeWith_area_of_ne heq]
  · intro j hj hused
    rw [mergeWith_avail] at hused
    by_cases heq : j = a
    · subst heq
      rw [ha] at hused
      cases hused
    · rw [mergeWith_area_of_ne heq]
      exact h.aligned j (by simp only [List.mem_append,List.mem_cons] at hj ⊢; tauto) hused

lemma merge_eq (h : Shape info σ (pre ++ a::n::post)) : σ.merge a = .ok (σ.mergeWith a n) := by
  have hnext : σ.links.next a = some n := h.linked.next
  rw [merge,hnext]

end ExaScreen

end Xlibre.Exa
