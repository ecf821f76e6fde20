import Xlibre.Lib.Forest
import Mathlib.Data.List.Flatten

/-! Trees walked from a node down, parents before children, and tables recomputed along such a walk. -/
namespace Xlibre.Lib

/-- A forest whose nodes list their children. The height bounds every walk down. -/
structure Tree (W : Type*) extends Forest W where
  children : W → List W
  mem_children : ∀ w c, c ∈ children w ↔ parent c = some w
  children_nodup : ∀ w, (children w).Nodup
  height : W → ℕ
  height_lt : ∀ w p, parent w = some p → height w < height p

namespace Forest

variable {W : Type*} {F : Forest W}

/-- An ancestor is met through one of its children. -/
lemma mem_ancestors_iff_child {v w : W} :
    w ∈ F.ancestors v ↔ ∃ c, F.parent c = some w ∧ (v = c ∨ c ∈ F.ancestors v) := by
  constructor
  · intro h
    induction v using F.fromRoots with
    | step v ih =>
      obtain ⟨p,hp,rfl | hw⟩ := mem_ancestors.1 h
      · exact ⟨v,hp,Or.inl rfl⟩
      · obtain ⟨c,hc,hup⟩ := ih p hp hw
        refine ⟨c,hc,Or.inr (mem_ancestors.2 ⟨p,hp,?_⟩)⟩
        exact hup.imp Eq.symm id
  · rintro ⟨c,hc,rfl | hv⟩
    · exact mem_ancestors.2 ⟨w,hc,Or.inl rfl⟩
    · exact mem_ancestors_trans (mem_ancestors.2 ⟨w,hc,Or.inl rfl⟩) hv

/-- Siblings have nothing below them in common. -/
lemma siblings_apart {a c c' w : W} (hc : F.parent c = some w) (hc' : F.parent c' = some w) (hne : c ≠ c')
    (h : a = c ∨ c ∈ F.ancestors a) : ¬(a = c' ∨ c' ∈ F.ancestors a) := by
  -- a node with the same parent is not above its sibling
  have hup : ∀ x y, F.parent x = some w → F.parent y = some w → x ∉ F.ancestors y := by
    intro x y hx hy hmem
    obtain ⟨p,hp,hxp⟩ := mem_ancestors.1 hmem
    obtain rfl : p = w := Option.some.inj (hp.symm.trans hy)
    have hlt := F.depth_lt x p hx
    obtain rfl | hxp := hxp
    · omega
    · exact absurd (depth_lt_of_mem hxp) (by omega)
  rintro (rfl | h')
  · obtain rfl | h := h
    · exact hne rfl
    · exact hup c a hc hc' h
  · obtain rfl | h := h
    · exact hup c' a hc' hc h'
    · obtain h | h | h := mem_ancestors_total h h'
      · exact hne h
      · exact hup c c' hc hc' h
      · exact hup c' c hc' hc h

end Forest

namespace Tree

variable {W : Type*} (T : Tree W)

/-- A node and what is below it, parents before children, down to a number of generations. -/
def preorder : ℕ → W → List W
  | 0, w => [w]
  | k+1, w => w :: (T.children w).flatMap (preorder k)

def subtree (w : W) : List W := T.preorder (T.height w) w

variable {T}

lemma height_lt_of_mem {a w : W} (h : a ∈ T.ancestors w) : T.height w < T.height a := by
  induction w using T.fromRoots with
  | step w ih =>
    obtain ⟨p,hp,rfl | ha⟩ := Forest.mem_ancestors.1 h
    · exact T.height_lt w a hp
    · exact (T.height_lt w p hp).trans (ih p hp ha)

lemma mem_preorder {k : ℕ} {v w : W} (hk : T.height w ≤ k) : v ∈ T.preorder k w ↔ v = w ∨ w ∈ T.ancestors v := by
  induction k generalizing w with
  | zero =>
    simp only [preorder,List.mem_singleton]
    refine ⟨Or.inl,fun h => h.resolve_right fun hw => ?_⟩
    have hlt := height_lt_of_mem hw
    omega
  | succ k ih =>
    simp only [preorder,List.mem_cons,List.mem_flatMap,T.mem_children]
    apply or_congr_right
    rw [Forest.mem_ancestors_iff_child]
    refine exists_congr fun c => and_congr_right fun hc => ih ?_
    have hlt := T.height_lt c w hc
    omega

lemma mem_subtree {v w : W} : v ∈ T.subtree w ↔ v = w ∨ w ∈ T.ancestors v := mem_preorder le_rfl

/-- No node of the walk comes again, and none comes after a node below it. -/
lemma preorder_pairwise {k : ℕ} {w : W} (hk : T.height w ≤ k) :
    (T.preorder k w).Pairwise fun a b => a ≠ b ∧ b ∉ T.ancestors a := by
  induction k generalizing w with
  | zero => exact List.pairwise_singleton _ _
  | succ k ih =>
    have hle : ∀ c, T.parent c = some w → T.height c ≤ k := by
      intro c hc
      have hlt := T.height_lt c w hc
      omega
    rw [preorder,List.pairwise_cons]
    constructor
    · intro b hb
      obtain ⟨c,hc,hb⟩ := List.mem_flatMap.1 hb
      rw [T.mem_children] at hc
      have hw : w ∈ T.ancestors b := Forest.mem_ancestors_iff_child.2 ⟨c,hc,(mem_preorder (hle c hc)).1 hb⟩
      refine ⟨?_,Forest.not_mem_of_mem hw⟩
      rintro rfl
      exact Forest.not_mem_ancestors_self _ hw
    · rw [List.pairwise_flatMap]
      refine ⟨fun c hc => ih (hle c ((T.mem_children w c).1 hc)),?_⟩
      refine List.Pairwise.imp_of_mem ?_ (T.children_nodup w)
      intro c c' hc hc' hne a ha b hb
      rw [T.mem_children] at hc hc'
      rw [mem_preorder (hle c hc)] at ha
      rw [mem_preorder (hle c' hc')] at hb
      have hapart := Forest.siblings_apart hc hc' hne ha
      constructor
      · rintro rfl
        exact hapart hb
      · intro hba
        refine hapart (Or.inr ?_)
        obtain rfl | hb := hb
        · exact hba
        · exact Forest.mem_ancestors_trans hb hba

lemma subtree_pairwise (w : W) : (T.subtree w).Pairwise fun a b => a ≠ b ∧ b ∉ T.ancestors a :=
  preorder_pairwise le_rfl

section Recompute

variable [DecidableEq W] {α : Type*}

/-- A table whose entries are computed anew, one after the other, for a node and all below it. -/
def recompute (T : Tree W) (g : W → (W → α) → α) (w : W) (m : W → α) : W → α :=
  (T.subtree w).foldl (fun m v => Function.update m v (g v m)) m

/-- The new entry of a node depends on its old one and on those of the ancestors. -/
def UsesAbove (T : Tree W) (g : W → (W → α) → α) : Prop :=
  ∀ v m m', m v = m' v → (∀ a ∈ T.ancestors v, m a = m' a) → g v m = g v m'

lemma foldl_update_of_not_mem (g : W → (W → α) → α) {v : W} {l : List W} {m : W → α} (h : v ∉ l) :
    l.foldl (fun m v => Function.update m v (g v m)) m v = m v := by
  induction l generalizing m with
  | nil => rfl
  | cons x l ih =>
    rw [List.mem_cons,not_or] at h
    rw [List.foldl_cons,ih h.2,Function.update_of_ne h.1]

lemma foldl_update_of_mem {g : W → (W → α) → α} (hg : T.UsesAbove g) {v : W} {l : List W} {m : W → α}
    (hl : l.Pairwise fun a b => a ≠ b ∧ b ∉ T.ancestors a) (h : v ∈ l) :
    l.foldl (fun m v => Function.update m v (g v m)) m v =
      g v (Function.update (l.foldl (fun m v => Function.update m v (g v m)) m) v (m v)) := by
  induction l generalizing m with
  | nil => cases h
  | cons x l ih =>
    obtain ⟨hx,hl⟩ := List.pairwise_cons.1 hl
    rw [List.foldl_cons]
    by_cases hv : v = x
    · subst hv
      have hnot : v ∉ l := fun hv => (hx v hv).1 rfl
      rw [foldl_update_of_not_mem g hnot,Function.update_self]
      apply hg
      · rw [Function.update_self]
      · intro a ha
        have hne : a ≠ v := by
          rintro rfl
          exact Forest.not_mem_ancestors_self _ ha
        -- the ancestors do not come any more
        rw [Function.update_of_ne hne,foldl_update_of_not_mem g fun hal => (hx a hal).2 ha,Function.update_of_ne hne]
    · rw [ih hl ((List.mem_cons.1 h).resolve_left hv),Function.update_of_ne hv]

lemma recompute_of_not_mem (g : W → (W → α) → α) {v w : W} (m : W → α) (h : v ∉ T.subtree w) :
    T.recompute g w m v = m v := foldl_update_of_not_mem g h

/-- Below the node, and at it, the entries are those computed from the old entry and the new entries above. -/
theorem recompute_of_mem {g : W → (W → α) → α} (hg : T.UsesAbove g) {v w : W} (m : W → α) (h : v ∈ T.subtree w) :
    T.recompute g w m v = g v (Function.update (T.recompute g w m) v (m v)) :=
  foldl_update_of_mem hg (subtree_pairwise w) h

/-- What each entry keeps when it is computed anew, the table keeps. -/
lemma recompute_keeps {β : Type*} (f : α → β) {g : W → (W → α) → α} (hg : ∀ v m, f (g v m) = f (m v)) (w : W)
    (m : W → α) (v : W) : f (T.recompute g w m v) = f (m v) := by
  unfold recompute
  induction T.subtree w generalizing m with
  | nil => rfl
  | cons x l ih =>
    rw [List.foldl_cons,ih]
    by_cases hv : v = x
    · rw [hv,Function.update_self,hg]
    · rw [Function.update_of_ne hv]

end Recompute

end Tree

end Xlibre.Lib
