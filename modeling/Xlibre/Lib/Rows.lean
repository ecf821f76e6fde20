import Mathlib.Algebra.GroupWithZero.Nat
import Mathlib.Data.List.Induction
import Mathlib.Algebra.BigOperators.Group.List.Basic

/-! Values written one after the other into a row of fixed length. -/
namespace Xlibre.Rows
variable {α : Type*} {row row' a b c vs : List α} {i n : ℕ}

/-- Writing `vs` from position `i` on, if there is room. -/
def place (row : List α) (i : ℕ) : List α → Option (List α)
  | [] => some row
  | v::vs => if i < row.length then place (row.set i v) (i+1) vs else none

/-- Copying `n` values from `back` places before `i`, one after the other. -/
def copyBack (row : List α) (back i : ℕ) : ℕ → Option (List α)
  | 0 => some row
  | n+1 =>
    match row[i-back]? with
    | none => none
    | some v => if i < row.length then copyBack (row.set i v) back (i+1) n else none

@[simp] lemma place_nil : place row i [] = some row := rfl

lemma length_of_place (h : place row i vs = some row') : row'.length = row.length := by
  induction vs generalizing row i with
  | nil => exact (congrArg List.length (Option.some.inj h)).symm
  | cons v vs ih =>
    rw [place] at h
    split_ifs at h with hlt
    exact (ih h).trans List.length_set

lemma place_append {us : List α} :
    place row i (vs ++ us) = (place row i vs).bind fun row => place row (i + vs.length) us := by
  induction vs generalizing row i with
  | nil => rfl
  | cons v vs ih =>
    rw [List.cons_append,place,place]
    split_ifs with hlt
    · rw [ih,List.length_cons,show i + (vs.length + 1) = i + 1 + vs.length by omega]
    · rfl

/-- There must be room for all of it. -/
lemma place_none (hvs : vs ≠ []) (h : row.length < i + vs.length) : place row i vs = none := by
  induction vs generalizing row i with
  | nil => exact absurd rfl hvs
  | cons v vs ih =>
    rw [place]
    split_ifs with hlt
    · obtain rfl | hne := eq_or_ne vs []
      · exact absurd h (by simp; omega)
      · apply ih hne
        rw [List.length_set]
        rw [List.length_cons] at h
        omega
    · rfl

/-- What is written takes the place of as much of the row. -/
lemma place_segment (h : b.length = vs.length) : place (a ++ (b ++ c)) a.length vs = some (a ++ (vs ++ c)) := by
  induction vs generalizing a b with
  | nil => rw [List.eq_nil_of_length_eq_zero h]; rfl
  | cons v vs ih =>
    obtain _ | ⟨u,b⟩ := b
    · exact absurd h (by simp)
    have hset : (a ++ (u :: b ++ c)).set a.length v = (a ++ [v]) ++ (b ++ c) := by simp
    rw [place,if_pos (by simp),hset,show a.length + 1 = (a ++ [v]).length by simp,ih (by simpa using h)]
    simp

/-- The rest of the row. -/
lemma place_outside {p : ℕ} (h : place row i vs = some row') (hp : p < i ∨ i + vs.length ≤ p) : row'[p]? = row[p]? := by
  induction vs generalizing row i with
  | nil => rw [Option.some.inj h]
  | cons v vs ih =>
    rw [place] at h
    rw [List.length_cons] at hp
    split_ifs at h with hlt
    rw [ih h (by omega),List.getElem?_set_ne (by omega)]

/-- What was written. -/
lemma place_inside {p : ℕ} (h : place row i vs = some row') (hp : p < vs.length) : row'[i+p]? = vs[p]? := by
  induction vs generalizing row i p with
  | nil => cases hp
  | cons v vs ih =>
    rw [place] at h
    split_ifs at h with hlt
    obtain _ | p := p
    · rw [Nat.add_zero,place_outside h (.inl (Nat.lt_succ_self i)),List.getElem?_set_self hlt]
      rfl
    · rw [List.getElem?_cons_succ,← ih h (Nat.lt_of_succ_lt_succ hp)]
      congr 1
      omega

lemma place_isSome (h : i + vs.length ≤ row.length) : ∃ row', place row i vs = some row' := by
  induction vs generalizing row i with
  | nil => exact ⟨row,rfl⟩
  | cons v vs ih =>
    rw [List.length_cons] at h
    rw [place,if_pos (by omega)]
    apply ih
    rw [List.length_set]
    omega

/-- In a shorter row the same is written, as far as it goes. -/
lemma place_take (h : place row i vs = some row') : place (row.take n) i (vs.take (n-i)) = some (row'.take n) := by
  induction vs generalizing row i with
  | nil => rw [List.take_nil,place_nil,Option.some.inj h]
  | cons v vs ih =>
    rw [place] at h
    split_ifs at h with hlt
    have hrest := ih h
    obtain hgt | hle := Nat.lt_or_ge i n
    · rw [List.take_set] at hrest
      rw [show n - i = n - (i+1) + 1 by omega,List.take_succ_cons,place,if_pos (by simp; omega),hrest]
    · rw [show n - (i+1) = 0 by omega,List.take_zero,place_nil,List.take_set_of_le hle] at hrest
      rw [show n - i = 0 by omega,List.take_zero,place_nil,hrest]

/-- Copying from far enough before is writing what stands there. -/
lemma copyBack_eq {back : ℕ} (hback : n ≤ back) (hi : back ≤ i) (h : i + n ≤ row.length) :
    copyBack row back i n = place row i ((row.drop (i-back)).take n) := by
  induction n generalizing row i with
  | zero => rfl
  | succ n ih =>
    have hlt : i - back < row.length := by omega
    have hrest : ((row.set i row[i-back]).drop (i+1-back)).take n = (row.drop (i-back+1)).take n := by
      apply List.ext_getElem?
      intro k
      rw [show i + 1 - back = i - back + 1 by omega,List.getElem?_take,List.getElem?_take]
      split_ifs with hk
      · rw [List.getElem?_drop,List.getElem?_drop,List.getElem?_set_ne (by omega)]
      · rfl
    rw [copyBack,List.getElem?_eq_getElem hlt,List.drop_eq_getElem_cons hlt,List.take_succ_cons,place]
    dsimp only
    rw [if_pos (by omega),if_pos (by omega),ih (by omega) (by omega) (by simp; omega),hrest]

/-- Reading `n` values from position `i` on, if they are there. -/
def fetch (row : List α) (i n : ℕ) : Option (List α) :=
  if n = 0 ∨ i + n ≤ row.length then some ((row.drop i).take n) else none

lemma fetch_some (h : 0 < n → i + n ≤ row.length) :
    ∃ vs, fetch row i n = some vs ∧ vs.length = n ∧ ∀ j < n, vs[j]? = row[i+j]? := by
  refine ⟨_,if_pos (by omega),?_,fun j hj => ?_⟩
  · rw [List.length_take,List.length_drop]
    omega
  · rw [List.getElem?_take_of_lt hj,List.getElem?_drop]

lemma length_of_fetch (h : fetch row i n = some vs) : vs.length = n := by
  unfold fetch at h
  split_ifs at h with hin
  cases h
  rw [List.length_take,List.length_drop]
  omega

/-- Blocks of values on their way into another row: the next free place there, and where each block starts. -/
structure Moving (α κ : Type*) where
  row : List α
  next : ℕ
  off : κ → ℕ

section Blocks
variable {κ : Type*} [DecidableEq κ] {old : List α} {zero : α} {off nCopy nNew : κ → ℕ} {s s' : Moving α κ} {k : κ} {l : List κ}

/-- The first `nCopy` values of a block, and room for more. -/
def moveBlock (old : List α) (zero : α) (off nCopy nNew : κ → ℕ) (s : Moving α κ) (k : κ) : Option (Moving α κ) :=
  (fetch old (off k) (nCopy k)).bind fun block => (place s.row s.next block).bind fun row =>
    (place row (s.next + nCopy k) (List.replicate (nNew k - nCopy k) zero)).map fun row =>
      ⟨row,s.next + nNew k,Function.update s.off k s.next⟩

/-- The blocks that have been moved come one after the other, after the first place. -/
structure Moved (old : List α) (off nCopy nNew : κ → ℕ) (l : List κ) (s : Moving α κ) : Prop where
  next : s.next = 1 + (l.map nNew).sum
  stays : ∀ k, k ∉ l → s.off k = off k
  first : ∀ k ∈ l, 1 ≤ s.off k
  last : ∀ k ∈ l, s.off k + nNew k ≤ s.next
  apart : ∀ k ∈ l, ∀ k' ∈ l, k ≠ k' → s.off k + nNew k ≤ s.off k' ∨ s.off k' + nNew k' ≤ s.off k
  values : ∀ k ∈ l, ∀ i < nCopy k, s.row[s.off k + i]? = old[off k + i]?

lemma length_moveBlock (h : moveBlock old zero off nCopy nNew s k = some s') : s'.row.length = s.row.length := by
  obtain ⟨block,-,h⟩ := Option.bind_eq_some_iff.1 h
  obtain ⟨row₁,h₁,h⟩ := Option.bind_eq_some_iff.1 h
  obtain ⟨row₂,h₂,rfl⟩ := Option.map_eq_some_iff.1 h
  exact (length_of_place h₂).trans (length_of_place h₁)

/-- There was room for the block. -/
lemma room_of_moveBlock (hle : nCopy k ≤ nNew k) (h : moveBlock old zero off nCopy nNew s k = some s') :
    s'.next = s.next + nNew k ∧ (0 < nNew k → s'.next ≤ s.row.length) := by
  obtain ⟨block,hblock,h⟩ := Option.bind_eq_some_iff.1 h
  obtain ⟨row₁,h₁,h⟩ := Option.bind_eq_some_iff.1 h
  obtain ⟨row₂,h₂,rfl⟩ := Option.map_eq_some_iff.1 h
  refine ⟨rfl,fun hpos => Nat.le_of_not_lt fun hlt => ?_⟩
  dsimp only at hlt
  obtain hmore | hall := Nat.lt_or_ge (nCopy k) (nNew k)
  · rw [place_none (by rw [Ne,List.replicate_eq_nil_iff]; omega) (by
      rw [length_of_place h₁,List.length_replicate]
      omega)] at h₂
    cases h₂
  · have hlen := length_of_fetch hblock
    rw [place_none (List.ne_nil_of_length_pos (by omega)) (by omega)] at h₁
    cases h₁

/-- A block goes to the next free places. -/
lemma moveBlock_some (hle : nCopy k ≤ nNew k) (hold : 0 < nCopy k → off k + nCopy k ≤ old.length)
    (hroom : s.next + nNew k ≤ s.row.length) : ∃ row',
      moveBlock old zero off nCopy nNew s k = some ⟨row',s.next + nNew k,Function.update s.off k s.next⟩ ∧
      (∀ i < s.next, row'[i]? = s.row[i]?) ∧ ∀ i < nCopy k, row'[s.next + i]? = old[off k + i]? := by
  obtain ⟨block,hblock,hlen,hvalues⟩ := fetch_some hold
  obtain ⟨row₁,h₁⟩ : ∃ row₁, place s.row s.next block = some row₁ := place_isSome (by omega)
  have hlen₁ := length_of_place h₁
  obtain ⟨row₂,h₂⟩ : ∃ row₂, place row₁ (s.next + nCopy k) (List.replicate (nNew k - nCopy k) zero) = some row₂ :=
    place_isSome (by rw [List.length_replicate]; omega)
  refine ⟨row₂,?_,fun i hi => ?_,fun i hi => ?_⟩
  · unfold moveBlock
    rw [hblock,Option.bind_some,h₁,Option.bind_some,h₂,Option.map_some]
  · rw [place_outside h₂ (.inl (by omega)),place_outside h₁ (.inl hi)]
  · rw [place_outside h₂ (.inl (by omega)),place_inside h₁ (by omega),hvalues i hi]

/-- One more block. -/
lemma Moved.step (h : Moved old off nCopy nNew l s) (hk : k ∉ l) (hle : nCopy k ≤ nNew k)
    (hold : 0 < nCopy k → off k + nCopy k ≤ old.length) (hroom : s.next + nNew k ≤ s.row.length) (hfit : ∀ k ∈ l, nCopy k ≤ nNew k) :
    ∃ s', moveBlock old zero off nCopy nNew s k = some s' ∧ Moved old off nCopy nNew (l ++ [k]) s' := by
  obtain ⟨row₂,hmove,hbefore,hvalues⟩ : ∃ row',
      moveBlock old zero off nCopy nNew s k = some ⟨row',s.next + nNew k,Function.update s.off k s.next⟩ ∧
      (∀ i < s.next, row'[i]? = s.row[i]?) ∧ ∀ i < nCopy k, row'[s.next + i]? = old[off k + i]? := moveBlock_some hle hold hroom
  refine ⟨_,hmove,?_,?_,?_,?_,?_,?_⟩
  · rw [List.map_append,List.sum_append,h.next]
    simp [Nat.add_assoc]
  · intro k' hk'
    rw [List.mem_append,List.mem_singleton,not_or] at hk'
    exact (Function.update_of_ne hk'.2 _ _).trans (h.stays k' hk'.1)
  · intro k' hk'
    dsimp only
    obtain rfl | hne := eq_or_ne k' k
    · rw [Function.update_self,h.next]
      omega
    · rw [Function.update_of_ne hne]
      exact h.first k' ((List.mem_append.1 hk').resolve_right fun hmem => hne (List.mem_singleton.1 hmem))
  · intro k' hk'
    dsimp only
    obtain rfl | hne := eq_or_ne k' k
    · exact Nat.le_of_eq (by rw [Function.update_self])
    · rw [Function.update_of_ne hne]
      have hlast := h.last k' ((List.mem_append.1 hk').resolve_right fun hmem => hne (List.mem_singleton.1 hmem))
      omega
  · intro a ha b hb hab
    dsimp only
    obtain rfl | hak := eq_or_ne a k
    · have hb := h.last b ((List.mem_append.1 hb).resolve_right fun hmem => hab (List.mem_singleton.1 hmem).symm)
      rw [Function.update_self,Function.update_of_ne hab.symm]
      exact .inr hb
    · have ha' := (List.mem_append.1 ha).resolve_right fun hmem => hak (List.mem_singleton.1 hmem)
      rw [Function.update_of_ne hak]
      obtain rfl | hbk := eq_or_ne b k
      · rw [Function.update_self]
        exact .inl (h.last a ha')
      · rw [Function.update_of_ne hbk]
        exact h.apart a ha' b ((List.mem_append.1 hb).resolve_right fun hmem => hbk (List.mem_singleton.1 hmem)) hab
  · intro k' hk' i hi
    dsimp only
    obtain rfl | hne := eq_or_ne k' k
    · rw [Function.update_self,hvalues i hi]
    · have hk' := (List.mem_append.1 hk').resolve_right fun hmem => hne (List.mem_singleton.1 hmem)
      have hlast := h.last k' hk'
      have hle' := hfit k' hk'
      rw [Function.update_of_ne hne,hbefore _ (by omega),h.values k' hk' i hi]

/-- All blocks are moved if there is room for all of them. -/
lemma foldlM_moveBlock {row : List α} (hl : l.Nodup) (hle : ∀ k ∈ l, nCopy k ≤ nNew k)
    (hold : ∀ k ∈ l, 0 < nCopy k → off k + nCopy k ≤ old.length) (hroom : 1 + (l.map nNew).sum ≤ row.length) :
    ∃ s, l.foldlM (moveBlock old zero off nCopy nNew) ⟨row,1,off⟩ = some s ∧ s.row.length = row.length ∧
      Moved old off nCopy nNew l s := by
  induction l using List.reverseRecOn with
  | nil => exact ⟨_,rfl,rfl,⟨rfl,fun _ _ => rfl,by simp,by simp,by simp,by simp⟩⟩
  | append_singleton l k ih =>
    rw [List.map_append,List.sum_append,List.map_singleton,List.sum_singleton] at hroom
    obtain ⟨hnodup,-,hdisj⟩ := List.nodup_append.1 hl
    obtain ⟨s,hrun,hlen,hmoved⟩ := ih hnodup (fun k hk => hle k (List.mem_append_left _ hk))
      (fun k hk => hold k (List.mem_append_left _ hk)) (by omega)
    have hk : k ∉ l := fun hk => hdisj k hk k (List.mem_singleton_self k) rfl
    obtain ⟨s',hmove,hmoved'⟩ : ∃ s', moveBlock old zero off nCopy nNew s k = some s' ∧
        Moved old off nCopy nNew (l ++ [k]) s' := hmoved.step hk (hle k (by simp)) (hold k (by simp))
      (by rw [hmoved.next,hlen]; omega) fun k hk => hle k (List.mem_append_left _ hk)
    refine ⟨s',?_,(length_moveBlock hmove).trans hlen,hmoved'⟩
    rw [List.foldlM_append,hrun]
    simpa using hmove

/-- If they are moved then there was room. -/
lemma room_of_foldlM {row : List α} (hle : ∀ k ∈ l, nCopy k ≤ nNew k)
    (h : l.foldlM (moveBlock old zero off nCopy nNew) ⟨row,1,off⟩ = some s) :
    s.row.length = row.length ∧ s.next = 1 + (l.map nNew).sum ∧ (s.next ≤ row.length ∨ s.next = 1) := by
  induction l using List.reverseRecOn generalizing s with
  | nil =>
    cases h
    exact ⟨rfl,rfl,.inr rfl⟩
  | append_singleton l k ih =>
    rw [List.foldlM_append] at h
    obtain ⟨s₁,hrun,hmove⟩ := Option.bind_eq_some_iff.1 h
    have hmove : moveBlock old zero off nCopy nNew s₁ k = some s := by simpa using hmove
    obtain ⟨hlen,hnext,hroom⟩ := ih (fun k hk => hle k (List.mem_append_left _ hk)) hrun
    obtain ⟨hnext',hroom'⟩ := room_of_moveBlock (hle k (by simp)) hmove
    refine ⟨(length_moveBlock hmove).trans hlen,?_,?_⟩
    · rw [hnext',hnext]
      simp [Nat.add_assoc]
    · omega

/-- Each key has its own part of the first `num` places. -/
structure Apart (keys : List κ) (off len : κ → ℕ) (num : ℕ) : Prop where
  last : ∀ k ∈ keys, 0 < len k → off k + len k ≤ num
  apart : ∀ k ∈ keys, ∀ k' ∈ keys, k ≠ k' → 0 < len k → 0 < len k' → off k + len k ≤ off k' ∨ off k' + len k' ≤ off k

variable {keys : List κ} {len : κ → ℕ} {num needed : ℕ} {row' : List α}

omit [DecidableEq κ] in
lemma Apart.congr (h : Apart keys off len num) {off' len' : κ → ℕ}
    (hless : ∀ k ∈ keys, 0 < len' k → off' k = off k ∧ len' k ≤ len k) : Apart keys off' len' num := by
  constructor
  · intro k hk hpos
    obtain ⟨hoff,hle⟩ := hless k hk hpos
    have hlast := h.last k hk (by omega)
    omega
  · intro k hk k' hk' hne hpos hpos'
    obtain ⟨hoff,hle⟩ := hless k hk hpos
    obtain ⟨hoff',hle'⟩ := hless k' hk' hpos'
    have hapart := h.apart k hk k' hk' hne (by omega) (by omega)
    omega

/-- A key has other places, as many as are needed, and the values of the other keys are where their places are now. -/
structure Resized (keys : List κ) (row : List α) (off len : κ → ℕ) (k : κ) (needed : ℕ) (row' : List α) (off' : κ → ℕ)
    (num' : ℕ) : Prop where
  places : Apart keys off' (Function.update len k needed) num'
  size : num' ≤ row'.length
  others : ∀ k' ∈ keys, k' ≠ k → ∀ i < len k', row'[off' k' + i]? = row[off k' + i]?

/-- It stays where it is. -/
lemma Apart.resized (h : Apart keys off len num) (hnum : num ≤ row.length) (hle : needed ≤ len k) :
    Resized keys row off len k needed row off num := by
  refine ⟨h.congr fun k' _ _ => ⟨rfl,?_⟩,hnum,fun _ _ _ _ _ => rfl⟩
  obtain rfl | hne := eq_or_ne k' k
  · rwa [Function.update_self]
  · exact Nat.le_of_eq (Function.update_of_ne hne _ _)

/-- It has none any more. -/
lemma Apart.resized_zero (h : Apart keys off len num) (hnum : num ≤ row.length) (i : ℕ) :
    Resized keys row off len k 0 row (Function.update off k i) num := by
  refine ⟨h.congr fun k' _ hpos => ?_,hnum,fun k' _ hne i _ => by rw [Function.update_of_ne hne]⟩
  obtain rfl | hne := eq_or_ne k' k
  · rw [Function.update_self] at hpos
    exact absurd hpos (Nat.lt_irrefl 0)
  · rw [Function.update_of_ne hne,Function.update_of_ne hne]
    exact ⟨rfl,Nat.le_refl _⟩

/-- It gets places after all the others. -/
lemma Apart.resized_append (h : Apart keys off len num) (hroom : num + needed ≤ row'.length)
    (hkeep : ∀ i < num, row'[i]? = row[i]?) :
    Resized keys row off len k needed row' (Function.update off k num) (num + needed) := by
  refine ⟨⟨fun k' hk' hpos => ?_,fun a ha b hb hab hpos hpos' => ?_⟩,hroom,fun k' hk' hne i hi => ?_⟩
  · obtain rfl | hne := eq_or_ne k' k
    · exact Nat.le_of_eq (by rw [Function.update_self,Function.update_self])
    · rw [Function.update_of_ne hne] at hpos
      rw [Function.update_of_ne hne,Function.update_of_ne hne]
      exact Nat.le_trans (h.last k' hk' hpos) (Nat.le_add_right _ _)
  · obtain rfl | hak := eq_or_ne a k
    · rw [Function.update_of_ne hab.symm] at hpos'
      rw [Function.update_self,Function.update_of_ne hab.symm,Function.update_of_ne hab.symm]
      exact .inr (h.last b hb hpos')
    · rw [Function.update_of_ne hak] at hpos
      rw [Function.update_of_ne hak,Function.update_of_ne hak]
      obtain rfl | hbk := eq_or_ne b k
      · rw [Function.update_self]
        exact .inl (h.last a ha hpos)
      · rw [Function.update_of_ne hbk] at hpos'
        rw [Function.update_of_ne hbk,Function.update_of_ne hbk]
        exact h.apart a ha b hb hab hpos hpos'
  · have hlast := h.last k' hk' (Nat.zero_lt_of_lt hi)
    rw [Function.update_of_ne hne,hkeep _ (by omega)]

/-- All keys that have places are moved. -/
lemma Moved.resized (h : Moved row off nCopy nNew l s) (hnext : s.next ≤ s.row.length)
    (hnew : ∀ k' ∈ l, nNew k' = Function.update len k needed k') (hl : ∀ k' ∈ keys, 0 < Function.update len k needed k' → k' ∈ l)
    (hcopy : ∀ k' ∈ l, k' ≠ k → nCopy k' = len k') : Resized keys row off len k needed s.row s.off s.next := by
  refine ⟨⟨fun k' hk' hpos => ?_,fun a ha b hb hab hpos hpos' => ?_⟩,hnext,fun k' hk' hne i hi => ?_⟩
  · have hmem := hl k' hk' hpos
    rw [← hnew k' hmem]
    exact h.last k' hmem
  · have hmem := hl a ha hpos
    have hmem' := hl b hb hpos'
    rw [← hnew a hmem,← hnew b hmem']
    exact h.apart a hmem b hmem' hab
  · have hmem : k' ∈ l := hl k' hk' (by rw [Function.update_of_ne hne]; exact Nat.zero_lt_of_lt hi)
    exact h.values k' hmem i (by rwa [hcopy k' hmem hne])

end Blocks

end Xlibre.Rows
