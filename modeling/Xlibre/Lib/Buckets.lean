import Mathlib.Tactic

/-! Chained hash tables as lists of chains. An element is looked up in the chain its hash
selects; growing the table scatters the chains anew, each element behind those already there. -/
namespace Xlibre.Lib.Buckets

variable {α : Type*}

/-- The chain at index `i`; beyond the table there is none. -/
def chain (t : List (List α)) (i : ℕ) : List α := t.getD i []

@[simp] theorem chain_nil (i : ℕ) : chain ([] : List (List α)) i = [] := by simp [chain]

@[simp] theorem chain_cons_zero (b : List α) (t : List (List α)) : chain (b::t) 0 = b := rfl

@[simp] theorem chain_cons_succ (b : List α) (t : List (List α)) (i : ℕ) :
    chain (b::t) (i+1) = chain t i := rfl

@[simp] theorem chain_replicate_nil (n i : ℕ) : chain (List.replicate n ([] : List α)) i = [] := by
  by_cases h : i < n <;> simp [chain,List.getD_eq_getElem?_getD,h]

theorem chain_modify (t : List (List α)) (i j : ℕ) (f : List α → List α) :
    chain (t.modify i f) j = if i = j ∧ i < t.length then f (chain t i) else chain t j := by
  simp only [chain,List.getD_eq_getElem?_getD,List.getElem?_modify]
  by_cases hij : i = j
  · subst j
    by_cases hi : i < t.length <;> simp [hi]
  · simp [hij]

theorem mem_chain_iff (t : List (List α)) (x : α) : x ∈ t.flatten ↔ ∃ i, x ∈ chain t i := by
  induction t with
  | nil => simp
  | cons b t ih =>
    simp only [List.flatten_cons,List.mem_append,ih]
    constructor
    · rintro (h | ⟨i,h⟩)
      · exact ⟨0,h⟩
      · exact ⟨i+1,h⟩
    · rintro ⟨i,h⟩
      cases i with
      | zero => exact Or.inl h
      | succ i => exact Or.inr ⟨i,h⟩

theorem length_flatten_modify (t : List (List α)) (i : ℕ) (f : List α → List α) (h : i < t.length) :
    (t.modify i f).flatten.length + (chain t i).length =
      t.flatten.length + (f (chain t i)).length := by
  induction t generalizing i with
  | nil => simp at h
  | cons b t ih =>
    cases i with
    | zero => simp; omega
    | succ i =>
      have hi := ih i (by simpa using h)
      simp only [List.modify_succ_cons,List.flatten_cons,List.length_append,chain_cons_succ]
      omega

/-- Every element sits in the chain that its hash selects. -/
def Placed (h : α → ℕ) (t : List (List α)) : Prop := ∀ i, ∀ x ∈ chain t i, h x = i

/-- When only chain `i` can hold elements of `p`, selecting them there loses nothing. -/
theorem filter_flatten_eq (p : α → Bool) (t : List (List α)) (i : ℕ)
    (h : ∀ j, j ≠ i → ∀ x ∈ chain t j, p x = false) :
    t.flatten.filter p = (chain t i).filter p := by
  induction t generalizing i with
  | nil => simp
  | cons b t ih =>
    rw [List.flatten_cons,List.filter_append]
    cases i with
    | zero =>
      have ht : t.flatten.filter p = [] := by
        rw [List.filter_eq_nil_iff]
        intro x hx
        obtain ⟨j,hj⟩ := (mem_chain_iff t x).mp hx
        simp [h (j+1) (by simp) x hj]
      simp [ht]
    | succ i =>
      have hb : b.filter p = [] := by
        rw [List.filter_eq_nil_iff]
        intro x hx
        simp [h 0 (by simp) x hx]
      rw [hb,List.nil_append,chain_cons_succ]
      apply ih
      intro j hj x hx
      exact h (j+1) (by omega) x hx

theorem Placed.filter_flatten {h : α → ℕ} {t : List (List α)} (ht : Placed h t) (p : α → Bool)
    (i : ℕ) (hp : ∀ x, p x = true → h x = i) : t.flatten.filter p = (chain t i).filter p := by
  apply filter_flatten_eq
  intro j hj x hx
  by_contra hc
  have hi := hp x (by simpa using hc)
  exact hj ((ht j x hx).symm.trans hi)

theorem Placed.modify {h : α → ℕ} {t : List (List α)} (ht : Placed h t) (i : ℕ)
    (f : List α → List α) (hf : ∀ x ∈ f (chain t i), h x = i) : Placed h (t.modify i f) := by
  intro j x hx
  rw [chain_modify] at hx
  split_ifs at hx with hc
  · exact hc.1 ▸ hf x hx
  · exact ht j x hx

/-- Scatter all elements, chain by chain, each to the end of its new chain. -/
def rehash (h : α → ℕ) (n : ℕ) (t : List (List α)) : List (List α) :=
  t.flatten.foldl (fun acc x => acc.modify (h x) (· ++ [x])) (List.replicate n [])

lemma scatter_length (h : α → ℕ) (xs : List α) (acc : List (List α)) :
    (xs.foldl (fun acc x => acc.modify (h x) (· ++ [x])) acc).length = acc.length := by
  induction xs generalizing acc with
  | nil => rfl
  | cons x xs ih => simp [ih]

lemma scatter_chain (h : α → ℕ) (xs : List α) (acc : List (List α))
    (hx : ∀ x ∈ xs, h x < acc.length) (i : ℕ) :
    chain (xs.foldl (fun acc x => acc.modify (h x) (· ++ [x])) acc) i =
      chain acc i ++ xs.filter (fun x => h x = i) := by
  induction xs generalizing acc with
  | nil => simp
  | cons x xs ih =>
    have hlt := hx x (by simp)
    rw [List.foldl_cons,ih _ (fun y hy => by simpa using hx y (by simp [hy])),chain_modify]
    by_cases hi : h x = i
    · subst i; simp [hlt]
    · simp [hi]

lemma scatter_size (h : α → ℕ) (xs : List α) (acc : List (List α))
    (hx : ∀ x ∈ xs, h x < acc.length) :
    (xs.foldl (fun acc x => acc.modify (h x) (· ++ [x])) acc).flatten.length =
      acc.flatten.length + xs.length := by
  induction xs generalizing acc with
  | nil => simp
  | cons x xs ih =>
    have hs := length_flatten_modify acc (h x) (· ++ [x]) (hx x (by simp))
    rw [List.foldl_cons,ih _ (fun y hy => by simpa using hx y (by simp [hy]))]
    simp only [List.length_append,List.length_cons,List.length_nil] at hs ⊢
    omega

@[simp] theorem rehash_length (h : α → ℕ) (n : ℕ) (t : List (List α)) :
    (rehash h n t).length = n := by simp [rehash,scatter_length]

/-- A new chain holds the elements of its hash in the order of the old table. -/
theorem rehash_chain (h : α → ℕ) (n : ℕ) (t : List (List α)) (hn : ∀ x ∈ t.flatten, h x < n)
    (i : ℕ) : chain (rehash h n t) i = t.flatten.filter (fun x => h x = i) := by
  rw [rehash,scatter_chain h _ _ (by simpa using hn)]
  simp

theorem rehash_size (h : α → ℕ) (n : ℕ) (t : List (List α)) (hn : ∀ x ∈ t.flatten, h x < n) :
    (rehash h n t).flatten.length = t.flatten.length := by
  rw [rehash,scatter_size h _ _ (by simpa using hn)]
  simp

theorem rehash_placed (h : α → ℕ) (n : ℕ) (t : List (List α)) (hn : ∀ x ∈ t.flatten, h x < n) :
    Placed h (rehash h n t) := by
  intro i x hx
  rw [rehash_chain h n t hn] at hx
  simpa using (List.mem_filter.mp hx).2

end Xlibre.Lib.Buckets
