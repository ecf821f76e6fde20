import Mathlib.Order.Lattice
import Mathlib.Data.Tree.Basic
import Mathlib.Tactic.Tauto

/-! Binary search trees with values that have keys, searched by a comparison of one's own. -/
namespace Xlibre.Lib.SearchTree
open BinaryTree

variable {α κ : Type*}

/-- The first value on a way down at which the comparison is even. -/
def seek (dir : α → Ordering) : BinaryTree α → Option α
  | .nil => none
  | .node a l r =>
    match dir a with
    | .lt => seek dir l
    | .gt => seek dir r
    | .eq => some a

/-- A value put where such a way ends. -/
def graft (dir : α → Ordering) (new : α) : BinaryTree α → BinaryTree α
  | .nil => .node new .nil .nil
  | .node a l r =>
    match dir a with
    | .lt => .node a (graft dir new l) r
    | .gt => .node a l (graft dir new r)
    | .eq => .node a l r

/-- The values from left to right. -/
def values : BinaryTree α → List α
  | .nil => []
  | .node a l r => values l ++ a::values r

@[simp] lemma values_nil : values (.nil : BinaryTree α) = [] := rfl

@[simp] lemma values_node {a : α} {l r : BinaryTree α} : values (.node a l r) = values l ++ a::values r := rfl

/-- The comparison is that of a key. -/
def Compares [LT κ] (key : α → κ) (k : κ) (dir : α → Ordering) (t : BinaryTree α) : Prop :=
  ∀ a ∈ values t, (dir a).Compares k (key a)

/-- The keys rise from left to right. -/
def Ordered [LT κ] (key : α → κ) (t : BinaryTree α) : Prop := (values t).Pairwise fun a b => key a < key b

lemma ordered_nil [LT κ] (key : α → κ) : Ordered key .nil := List.Pairwise.nil

lemma ordered_node [LT κ] {key : α → κ} {a : α} {l r : BinaryTree α} : Ordered key (.node a l r) ↔
    Ordered key l ∧ Ordered key r ∧ (∀ b ∈ values r, key a < key b) ∧
      ∀ b ∈ values l, key b < key a ∧ ∀ c ∈ values r, key b < key c := by
  unfold Ordered
  rw [values_node,List.pairwise_append,List.pairwise_cons]
  simp only [List.mem_cons,forall_eq_or_imp]
  tauto

section Search
variable [LinearOrder κ] {key : α → κ} {k : κ} {dir : α → Ordering} {t : BinaryTree α} {a new : α}

lemma Compares.left {a : α} {l r : BinaryTree α} (h : Compares key k dir (.node a l r)) : Compares key k dir l :=
  fun b hb => h b (List.mem_append_left _ hb)

lemma Compares.right {a : α} {l r : BinaryTree α} (h : Compares key k dir (.node a l r)) : Compares key k dir r :=
  fun b hb => h b (List.mem_append_right _ (List.mem_cons_of_mem _ hb))

lemma Compares.root {a : α} {l r : BinaryTree α} (h : Compares key k dir (.node a l r)) : (dir a).Compares k (key a) :=
  h a (List.mem_append_right _ List.mem_cons_self)

/-- What is found is in the tree. -/
lemma mem_of_seek (h : seek dir t = some a) : a ∈ values t ∧ dir a = .eq := by
  induction t with
  | nil => cases h
  | node b l r ihl ihr =>
    unfold seek at h
    split at h
    · obtain ⟨hmem,heq⟩ := ihl h
      exact ⟨List.mem_append_left _ hmem,heq⟩
    · obtain ⟨hmem,heq⟩ := ihr h
      exact ⟨List.mem_append_right _ (List.mem_cons_of_mem _ hmem),heq⟩
    · next heq =>
      cases h
      exact ⟨List.mem_append_right _ List.mem_cons_self,heq⟩

lemma key_of_seek (hc : Compares key k dir t) (h : seek dir t = some a) : key a = k := by
  obtain ⟨hmem,heq⟩ := mem_of_seek h
  have hk := hc a hmem
  rw [heq] at hk
  exact hk.symm

/-- A value with the key is found. -/
lemma seek_of_mem (ho : Ordered key t) (hc : Compares key k dir t) (hmem : a ∈ values t) (hk : key a = k) :
    seek dir t = some a := by
  induction t with
  | nil => cases hmem
  | node b l r ihl ihr =>
    obtain ⟨hl,hr,habove,hbelow⟩ := ordered_node.1 ho
    have hroot := hc.root
    rw [values_node,List.mem_append,List.mem_cons] at hmem
    unfold seek
    cases hdir : dir b with
    | lt =>
      rw [hdir] at hroot
      have hlt : key a < key b := hk ▸ hroot
      obtain hleft | rfl | hright := hmem
      · exact ihl hl hc.left hleft
      · exact absurd hlt (lt_irrefl _)
      · exact absurd (hlt.trans (habove a hright)) (lt_irrefl _)
    | eq =>
      rw [hdir] at hroot
      have heq : key a = key b := hk.trans hroot
      obtain hleft | rfl | hright := hmem
      · exact absurd heq (hbelow a hleft).1.ne
      · rfl
      · exact absurd heq (habove a hright).ne'
    | gt =>
      rw [hdir] at hroot
      have hgt : key b < key a := hk ▸ hroot
      obtain hleft | rfl | hright := hmem
      · exact absurd (hgt.trans (hbelow a hleft).1) (lt_irrefl _)
      · exact absurd hgt (lt_irrefl _)
      · exact ihr hr hc.right hright

/-- A new value is put between others. -/
lemma mem_values_graft (h : seek dir t = none) {b : α} : b ∈ values (graft dir new t) ↔ b = new ∨ b ∈ values t := by
  induction t with
  | nil => simp [graft]
  | node a l r ihl ihr =>
    unfold seek at h
    unfold graft
    cases hdir : dir a with
    | lt =>
      rw [hdir] at h
      simp only [values_node,List.mem_append,List.mem_cons,ihl h]
      tauto
    | eq =>
      rw [hdir] at h
      cases h
    | gt =>
      rw [hdir] at h
      simp only [values_node,List.mem_append,List.mem_cons,ihr h]
      tauto

/-- The keys still rise. -/
lemma ordered_graft (ho : Ordered key t) (hc : Compares key k dir t) (h : seek dir t = none) (hnew : key new = k) :
    Ordered key (graft dir new t) := by
  induction t with
  | nil => exact List.pairwise_singleton _ _
  | node a l r ihl ihr =>
    obtain ⟨hl,hr,habove,hbelow⟩ := ordered_node.1 ho
    have hroot := hc.root
    unfold seek at h
    unfold graft
    cases hdir : dir a with
    | lt =>
      rw [hdir] at h hroot
      have hlt : key new < key a := hnew ▸ hroot
      refine ordered_node.2 ⟨ihl hl hc.left h,hr,habove,fun b hb => ?_⟩
      obtain rfl | hb := (mem_values_graft h).1 hb
      · exact ⟨hlt,fun c hc => hlt.trans (habove c hc)⟩
      · exact hbelow b hb
    | eq =>
      rw [hdir] at h
      cases h
    | gt =>
      rw [hdir] at h hroot
      have hgt : key a < key new := hnew ▸ hroot
      refine ordered_node.2 ⟨hl,ihr hr hc.right h,fun b hb => ?_,fun b hb => ⟨(hbelow b hb).1,fun c hc => ?_⟩⟩
      · obtain rfl | hb := (mem_values_graft h).1 hb
        · exact hgt
        · exact habove b hb
      · obtain rfl | hc := (mem_values_graft h).1 hc
        · exact (hbelow b hb).1.trans hgt
        · exact (hbelow b hb).2 c hc

end Search

end Xlibre.Lib.SearchTree
