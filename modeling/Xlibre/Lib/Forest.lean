import Mathlib.Data.List.FinRange
import Mathlib.Data.List.TakeWhile
import Mathlib.Order.WellFounded

/-! Forests given by parent links, and the presence of marks on a node or below it. -/
namespace Xlibre.Lib

/-- Nodes with a parent link each. The depth bounds every walk up the links. -/
structure Forest (W : Type*) where
  parent : W → Option W
  depth : W → ℕ
  depth_lt : ∀ w p, parent w = some p → depth p < depth w

namespace Forest

variable {W : Type*} (F : Forest W)

/-- The first parents on the way up. -/
def chain : ℕ → W → List W
  | 0, _ => []
  | k+1, w =>
    match F.parent w with
    | none => []
    | some p => p :: chain k p

/-- The proper ancestors of a node, the nearest first. -/
def ancestors (w : W) : List W := F.chain (F.depth w) w

lemma chain_congr {k l : ℕ} : ∀ {w : W}, F.depth w ≤ k → F.depth w ≤ l → F.chain k w = F.chain l w := by
  induction k generalizing l with
  | zero =>
    intro w hk _
    cases l with
    | zero => rfl
    | succ l =>
      cases hp : F.parent w with
      | none => simp [chain,hp]
      | some p => exact absurd (F.depth_lt w p hp) (by omega)
  | succ k ih =>
    intro w hk hl
    cases hp : F.parent w with
    | none => cases l <;> simp [chain,hp]
    | some p =>
      have hlt := F.depth_lt w p hp
      cases l with
      | zero => omega
      | succ l =>
        simp only [chain,hp]
        rw [ih (by omega) (by omega : F.depth p ≤ l)]

variable {F} in
lemma ancestors_of_none {w : W} (h : F.parent w = none) : F.ancestors w = [] := by
  unfold ancestors
  cases F.depth w <;> simp [chain,h]

variable {F} in
lemma ancestors_of_some {w p : W} (h : F.parent w = some p) : F.ancestors w = p :: F.ancestors p := by
  have hlt := F.depth_lt w p h
  obtain ⟨k,hk⟩ : ∃ k, F.depth w = k+1 := ⟨F.depth w - 1,by omega⟩
  unfold ancestors
  rw [hk]
  simp only [chain,h]
  rw [F.chain_congr (by omega : F.depth p ≤ k) le_rfl]

/-- Induction from the roots down. -/
theorem fromRoots {motive : W → Prop} (step : ∀ w, (∀ p, F.parent w = some p → motive p) → motive w) (w : W) :
    motive w :=
  (measure F.depth).wf.induction w fun w ih => step w fun p hp => ih p (F.depth_lt w p hp)

variable {F}

lemma mem_ancestors {a w : W} : a ∈ F.ancestors w ↔ ∃ p, F.parent w = some p ∧ (a = p ∨ a ∈ F.ancestors p) := by
  cases hp : F.parent w with
  | none => simp [ancestors_of_none hp]
  | some p => simp [ancestors_of_some hp]

lemma depth_lt_of_mem {a w : W} (h : a ∈ F.ancestors w) : F.depth a < F.depth w := by
  induction w using F.fromRoots with
  | step w ih =>
    obtain ⟨p,hp,rfl | ha⟩ := mem_ancestors.1 h
    · exact F.depth_lt w a hp
    · exact (ih p hp ha).trans (F.depth_lt w p hp)

@[simp] lemma not_mem_ancestors_self (w : W) : w ∉ F.ancestors w := fun h => lt_irrefl _ (depth_lt_of_mem h)

lemma not_mem_of_mem {a w : W} (h : a ∈ F.ancestors w) : w ∉ F.ancestors a :=
  fun hw => lt_asymm (depth_lt_of_mem h) (depth_lt_of_mem hw)

/-- The ancestors of an ancestor come right after it. -/
lemma ancestors_split {a w : W} (h : a ∈ F.ancestors w) : ∃ pre, F.ancestors w = pre ++ a :: F.ancestors a := by
  induction w using F.fromRoots with
  | step w ih =>
    obtain ⟨p,hp,rfl | ha⟩ := mem_ancestors.1 h
    · exact ⟨[],ancestors_of_some hp⟩
    · obtain ⟨pre,hpre⟩ := ih p hp ha
      exact ⟨p :: pre,by rw [ancestors_of_some hp,hpre,List.cons_append]⟩

lemma mem_ancestors_trans {a b w : W} (ha : a ∈ F.ancestors b) (hb : b ∈ F.ancestors w) : a ∈ F.ancestors w := by
  obtain ⟨pre,hpre⟩ := ancestors_split hb
  rw [hpre]
  exact List.mem_append_right _ (List.mem_cons_of_mem _ ha)

lemma ancestors_nodup (w : W) : (F.ancestors w).Nodup := by
  induction w using F.fromRoots with
  | step w ih =>
    cases hp : F.parent w with
    | none => simp [ancestors_of_none hp]
    | some p =>
      rw [ancestors_of_some hp]
      exact List.nodup_cons.2 ⟨not_mem_ancestors_self p,ih p hp⟩

/-- Of two nodes on one way up, one is above the other. -/
lemma mem_ancestors_total {a b w : W} (ha : a ∈ F.ancestors w) (hb : b ∈ F.ancestors w) :
    a = b ∨ a ∈ F.ancestors b ∨ b ∈ F.ancestors a := by
  induction w using F.fromRoots with
  | step w ih =>
    obtain ⟨p,hp,ha⟩ := mem_ancestors.1 ha
    obtain ⟨q,hq,hb⟩ := mem_ancestors.1 hb
    obtain rfl : p = q := Option.some.inj (hp.symm.trans hq)
    obtain rfl | ha := ha
    · obtain rfl | hb := hb
      · exact Or.inl rfl
      · exact Or.inr (Or.inr hb)
    · obtain rfl | hb := hb
      · exact Or.inr (Or.inl ha)
      · exact ih p hp ha hb

/-- A later node of the way up is above an earlier one. -/
lemma pairwise_ancestors (w : W) : (F.ancestors w).Pairwise fun a b => b ∈ F.ancestors a := by
  induction w using F.fromRoots with
  | step w ih =>
    cases hp : F.parent w with
    | none => simp [ancestors_of_none hp]
    | some p =>
      rw [ancestors_of_some hp]
      exact List.pairwise_cons.2 ⟨fun b hb => hb,ih p hp⟩

/-- The last node of the way up. -/
def root (F : Forest W) (w : W) : W := (F.ancestors w).getLastD w

lemma root_of_none {w : W} (h : F.parent w = none) : F.root w = w := by simp [root,ancestors_of_none h]

lemma root_of_some {w p : W} (h : F.parent w = some p) : F.root w = F.root p := by
  rw [root,root,ancestors_of_some h,List.getLastD_cons]

lemma parent_root (w : W) : F.parent (F.root w) = none := by
  induction w using F.fromRoots with
  | step w ih =>
    cases hp : F.parent w with
    | none => rw [root_of_none hp,hp]
    | some p => rw [root_of_some hp,ih p hp]

lemma root_mem_ancestors {w : W} (h : F.root w ≠ w) : F.root w ∈ F.ancestors w := by
  induction w using F.fromRoots with
  | step w ih =>
    cases hp : F.parent w with
    | none => exact absurd (root_of_none hp) h
    | some p =>
      rw [root_of_some hp,ancestors_of_some hp]
      by_cases hr : F.root p = p
      · rw [hr]
        exact List.mem_cons_self
      · exact List.mem_cons_of_mem _ (ih p hp hr)

section Between

variable [DecidableEq W]

/-- The nodes met on the way up from a node before the given one, or before the end when none is given. -/
def between (F : Forest W) (top : Option W) (w : W) : List W :=
  (F.ancestors w).takeWhile fun v => decide (some v ≠ top)

lemma mem_between_none {v w : W} : v ∈ F.between none w ↔ v ∈ F.ancestors w := by
  have h : (F.ancestors w).takeWhile (fun v => decide (some v ≠ none)) = F.ancestors w :=
    List.takeWhile_eq_self_iff.2 (by simp)
  rw [between,h]

lemma mem_between_some {x v w : W} (hx : x ∈ F.ancestors w) :
    v ∈ F.between (some x) w ↔ v ∈ F.ancestors w ∧ v ≠ x ∧ v ∉ F.ancestors x := by
  obtain ⟨pre,hpre⟩ := ancestors_split hx
  have hnd := F.ancestors_nodup w
  rw [hpre,List.nodup_append] at hnd
  obtain ⟨-,-,hdis⟩ := hnd
  have hb : F.between (some x) w = pre := by
    rw [between,hpre,List.takeWhile_append_of_pos]
    · simp
    · intro a ha
      simpa using hdis a ha x (by simp)
  rw [hb,hpre]
  constructor
  · intro hv
    refine ⟨List.mem_append_left _ hv,fun h => hdis v hv x (by simp) h,fun h => ?_⟩
    exact hdis v hv v (by simp [h]) rfl
  · rintro ⟨hv,hne,hna⟩
    simpa [hne,hna] using hv

/-- The first ancestor shared with another node. -/
def meet (F : Forest W) (a w : W) : Option W := (F.ancestors w).find? fun x => decide (x ∈ F.ancestors a)

/-- The shared ancestors are the first one and those above it. -/
lemma shared_iff {a w x : W} (h : F.meet a w = some x) (v : W) :
    v ∈ F.ancestors a ∧ v ∈ F.ancestors w ↔ v = x ∨ v ∈ F.ancestors x := by
  have hxa : x ∈ F.ancestors a := by simpa using List.find?_some h
  have hxw : x ∈ F.ancestors w := List.mem_of_find?_eq_some h
  constructor
  · rintro ⟨hva,hvw⟩
    obtain ⟨-,pre,post,hsplit,hpre⟩ := List.find?_eq_some_iff_append.1 h
    have hpw := F.pairwise_ancestors w
    rw [hsplit] at hpw hvw
    rw [List.pairwise_append,List.pairwise_cons] at hpw
    rcases List.mem_append.1 hvw with hv | hv
    · -- a shared ancestor before the first one
      simpa [hva] using hpre v hv
    · rcases List.mem_cons.1 hv with rfl | hv
      · exact Or.inl rfl
      · exact Or.inr (hpw.2.1.1 v hv)
  · rintro (rfl | hv)
    · exact ⟨hxa,hxw⟩
    · exact ⟨mem_ancestors_trans hv hxa,mem_ancestors_trans hv hxw⟩

lemma not_shared {a w : W} (h : F.meet a w = none) {v : W} (ha : v ∈ F.ancestors a) : v ∉ F.ancestors w :=
  fun hw => by simpa [ha] using List.find?_eq_none.1 h v hw

/-- Below the first shared ancestor are the ancestors that are not shared. -/
lemma mem_between_meet_left {a w v : W} :
    v ∈ F.between (F.meet a w) a ↔ v ∈ F.ancestors a ∧ v ∉ F.ancestors w := by
  cases h : F.meet a w with
  | none =>
    rw [mem_between_none]
    exact ⟨fun hv => ⟨hv,not_shared h hv⟩,And.left⟩
  | some x =>
    have hx := (shared_iff h x).2 (Or.inl rfl)
    rw [mem_between_some hx.1,← not_or,← shared_iff h v]
    exact ⟨fun hv => ⟨hv.1,fun hw => hv.2 ⟨hv.1,hw⟩⟩,fun hv => ⟨hv.1,fun hw => hv.2 hw.2⟩⟩

lemma mem_between_meet_right {a w v : W} :
    v ∈ F.between (F.meet a w) w ↔ v ∈ F.ancestors w ∧ v ∉ F.ancestors a := by
  cases h : F.meet a w with
  | none =>
    rw [mem_between_none]
    exact ⟨fun hv => ⟨hv,fun ha => not_shared h ha hv⟩,And.left⟩
  | some x =>
    have hx := (shared_iff h x).2 (Or.inl rfl)
    rw [mem_between_some hx.2,← not_or,← shared_iff h v]
    exact ⟨fun hv => ⟨hv.1,fun ha => hv.2 ⟨ha,hv.1⟩⟩,fun hv => ⟨hv.1,fun ha => hv.2 ha.1⟩⟩

end Between

end Forest

/-- Where marks stand, seen from one node. -/
inductive Presence
  | out
  | desc
  | onNode
  deriving DecidableEq, Repr

namespace Forest

variable {W : Type*} [DecidableEq W] {F : Forest W}

/-- Some mark stands properly below the node. -/
def Below (F : Forest W) (marks : List W) (w : W) : Prop := ∃ v ∈ marks, w ∈ F.ancestors v

instance (marks : List W) (w : W) : Decidable (F.Below marks w) :=
  inferInstanceAs (Decidable (∃ v ∈ marks, w ∈ F.ancestors v))

/-- The presence of the marks at a node. -/
def presence (F : Forest W) (marks : List W) (w : W) : Presence :=
  if w ∈ marks then .onNode else if F.Below marks w then .desc else .out

omit [DecidableEq W] in
/-- Marks on a node or below it are below all its ancestors. -/
lemma Below.up {marks : List W} {v w : W} (h : v ∈ marks ∨ F.Below marks v) (hw : w ∈ F.ancestors v) :
    F.Below marks w := by
  obtain h | ⟨u,hu,hv⟩ := h
  · exact ⟨v,h,hw⟩
  · exact ⟨u,hu,mem_ancestors_trans hw hv⟩

/-- The ancestors of a node that may be absent. -/
def above (F : Forest W) (a : Option W) : List W := a.elim [] F.ancestors

omit [DecidableEq W] in
@[simp] lemma above_none : F.above none = [] := rfl

omit [DecidableEq W] in
@[simp] lemma above_some (a : W) : F.above (some a) = F.ancestors a := rfl

/-- The presence at a node of at most one mark besides others. -/
def presenceAmong (F : Forest W) (others : List W) (a : Option W) (w : W) : Presence :=
  if some w = a ∨ w ∈ others then .onNode else if w ∈ F.above a ∨ F.Below others w then .desc else .out

lemma presence_eq_presenceAmong {marks others : List W} {a : Option W}
    (h : ∀ v, v ∈ marks ↔ some v = a ∨ v ∈ others) (w : W) : F.presence marks w = F.presenceAmong others a w := by
  have hb : F.Below marks w ↔ w ∈ F.above a ∨ F.Below others w := by
    cases a with
    | none => simp [Below,h]
    | some a => simp only [Below,h,Option.some.injEq,or_and_right,exists_or,exists_eq_left,above_some]
  simp only [presence,presenceAmong,h,hb]

end Forest

/-- The nodes that a table of places names. -/
def marks {n : ℕ} {W : Type*} (place : Fin n → Option W) : List W := (List.finRange n).filterMap place

section Marks

variable {n : ℕ} {W : Type*} {place : Fin n → Option W} {w : W} {i : Fin n}

lemma mem_marks : w ∈ marks place ↔ ∃ i, place i = some w := by simp [marks]

/-- One place set anew: its node, and those of the other places. -/
lemma mem_marks_update {a : Option W} :
    w ∈ marks (Function.update place i a) ↔ some w = a ∨ w ∈ marks (Function.update place i none) := by
  simp only [mem_marks]
  constructor
  · rintro ⟨j,hj⟩
    by_cases h : j = i
    · subst h
      rw [Function.update_self] at hj
      exact Or.inl hj.symm
    · rw [Function.update_of_ne h] at hj
      exact Or.inr ⟨j,by rw [Function.update_of_ne h,hj]⟩
  · rintro (h | ⟨j,hj⟩)
    · exact ⟨i,by rw [Function.update_self,h]⟩
    · by_cases h : j = i
      · subst h
        simp at hj
      · rw [Function.update_of_ne h] at hj
        exact ⟨j,by rw [Function.update_of_ne h,hj]⟩

lemma mem_marks_of_place {a : Option W} (h : place i = a) (w : W) :
    w ∈ marks place ↔ some w = a ∨ w ∈ marks (Function.update place i none) := by
  rw [← mem_marks_update,← h,Function.update_eq_self]

end Marks

end Xlibre.Lib

/-! Marks that pass from a node of a forest to those below it, unless a node on the way blocks them. -/
namespace Xlibre.Lib.Forest

variable {W : Type*} [DecidableEq W] {F : Forest W} {own blocks : W → Prop} {w : W}

/-- Some ancestor's mark gets to the node: neither the node nor one between the two blocks it. -/
def Passes (F : Forest W) (own blocks : W → Prop) (w : W) : Prop :=
  ¬blocks w ∧ ∃ t ∈ F.ancestors w, own t ∧ ∀ u ∈ F.between (some t) w, ¬blocks u

/-- Some ancestor has a mark and the node does not block it, whatever is between the two. -/
def PassesOver (F : Forest W) (own blocks : W → Prop) (w : W) : Prop := ¬blocks w ∧ ∃ t ∈ F.ancestors w, own t

lemma Passes.passesOver (h : F.Passes own blocks w) : F.PassesOver own blocks w :=
  ⟨h.1,h.2.imp fun _ ht => ⟨ht.1,ht.2.1⟩⟩

omit [DecidableEq W] in
/-- Ancestors' own marks are those of all that the ancestors have got from theirs. -/
lemma exists_ancestor_iff {has : W → Prop} (hlow : ∀ t ∈ F.ancestors w, own t → has t)
    (hup : ∀ t ∈ F.ancestors w, has t → own t ∨ ∃ a ∈ F.ancestors t, own a) :
    (∃ t ∈ F.ancestors w, has t) ↔ ∃ t ∈ F.ancestors w, own t := by
  constructor
  · rintro ⟨t,ht,hhas⟩
    obtain hown | ⟨a,ha,hown⟩ := hup t ht hhas
    · exact ⟨t,ht,hown⟩
    · exact ⟨a,mem_ancestors_trans ha ht,hown⟩
  · rintro ⟨t,ht,hown⟩
    exact ⟨t,ht,hlow t ht hown⟩

omit [DecidableEq W] in
lemma passesOver_congr {own' blocks' : W → Prop} (hown : ∀ t ∈ F.ancestors w, own t ↔ own' t)
    (hblocks : blocks w ↔ blocks' w) : F.PassesOver own blocks w ↔ F.PassesOver own' blocks' w := by
  unfold PassesOver
  rw [hblocks]
  exact and_congr_right fun _ => exists_congr fun t => and_congr_right fun ht => hown t ht

end Xlibre.Lib.Forest
