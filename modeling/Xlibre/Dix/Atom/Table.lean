import Mathlib.Algebra.Group.Nat.Defs
import Mathlib.Data.List.Lex
import Mathlib.Data.List.TakeWhile
import Mathlib.Data.Prod.Lex
import Xlibre.Lib.SearchTree

/-! Atoms: the search tree of `MakeAtom` and the table of `NameForAtom`. -/
namespace Xlibre.Dix.Atom
open Xlibre.Lib.SearchTree

abbrev Byte := BitVec 8

structure NodeRec where
  a : ℕ
  fingerPrint : ℕ
  string : List Byte
  deriving DecidableEq

/-- The static variables. -/
structure Atoms where
  lastAtom : ℕ
  atomRoot : BinaryTree NodeRec
  tableLength : ℕ
  nodeTable : ℕ → Option NodeRec

inductive Fault
  | outOfTable
  | fatalError
  deriving DecidableEq, Repr

/-- Which allocations succeed: the node's, the copy's and the table's. -/
structure Memory where
  node : Bool
  copy : Bool
  table : Bool

/-- `None`. -/
def noAtom : ℕ := 0

def badResource : ℕ := 0xe0000000

/-- `XA_LAST_PREDEFINED`. -/
def lastPredefined : ℕ := 68

def initialTableSize : ℕ := 256

/-- A `char`, which has a sign, as an `unsigned int`. -/
def charValue (b : Byte) : ℕ := (b.signExtend 32).toNat

/-- The loop that takes bytes from both ends. -/
def fingerPrint (s : List Byte) : ℕ :=
  let len := s.length
  (List.range ((len+1) % 2^32 / 2)).foldl (fun fp i =>
    let fp := (fp*27 + charValue (s.getD i 0)) % 2^32
    (fp*27 + charValue (s.getD (len-1-i) 0)) % 2^32) 0

/-- `strncmp`, for strings that end with a NUL or go on for as many bytes as are compared. -/
def strncmp : ℕ → List Byte → List Byte → Ordering
  | 0,_,_ => .eq
  | n+1,s,t =>
    let a := s.headD 0
    let b := t.headD 0
    if a < b then .lt else if b < a then .gt else if a = 0 then .eq else strncmp n s.tail t.tail

/-- What `strndup` copies. -/
def strndup (s : List Byte) : List Byte := s.takeWhile (· ≠ 0)

/-- Where `MakeAtom` goes when the fingerprints are equal. -/
def compareNames (s t : List Byte) : Ordering :=
  let comp := strncmp s.length s t
  if comp = .lt ∨ (comp = .eq ∧ s.length < t.length) then .lt
  else if comp = .gt then .gt
  else .eq

/-- Where `MakeAtom` goes from a node: to the left, to the right, or no further. -/
def direction (s : List Byte) (nd : NodeRec) : Ordering :=
  let fp := fingerPrint s
  if fp < nd.fingerPrint then .lt
  else if fp > nd.fingerPrint then .gt
  else compareNames s nd.string

def makeAtom (mem : Memory) (σ : Atoms) (s : List Byte) (makeit : Bool) : Except Fault (ℕ × Atoms) :=
  match seek (direction s) σ.atomRoot with
  | some nd => .ok (nd.a,σ)
  | none =>
    if makeit = false then .ok (noAtom,σ)
    -- a predefined name is not copied: it is a literal, with its NUL right behind it
    else if mem.node = false ∨ (lastPredefined ≤ σ.lastAtom ∧ mem.copy = false) then .ok (badResource,σ)
    else
      let grows : Bool := (σ.lastAtom + 1) % 2^32 ≥ σ.tableLength
      if grows ∧ mem.table = false then .ok (badResource,σ)
      else
        let tableLength := if grows then 2*σ.tableLength else σ.tableLength
        let lastAtom := (σ.lastAtom + 1) % 2^32
        if tableLength ≤ lastAtom then .error .outOfTable
        else
          let nd : NodeRec := ⟨lastAtom,fingerPrint s,strndup s⟩
          .ok (lastAtom,⟨lastAtom,graft (direction s) nd σ.atomRoot,tableLength,
            Function.update σ.nodeTable lastAtom (some nd)⟩)

def validAtom (σ : Atoms) (atom : ℕ) : Bool := atom ≠ noAtom ∧ atom ≤ σ.lastAtom

def nameForAtom (σ : Atoms) (atom : ℕ) : Option (List Byte) :=
  if atom > σ.lastAtom then none else (σ.nodeTable atom).map NodeRec.string

def bytes (s : String) : List Byte := s.toList.map fun c => BitVec.ofNat 8 c.toNat

/-- The names of `BuiltInAtoms`, in its order. -/
def builtInAtoms : List String :=
  ["PRIMARY","SECONDARY","ARC","ATOM","BITMAP","CARDINAL","COLORMAP","CURSOR","CUT_BUFFER0","CUT_BUFFER1",
   "CUT_BUFFER2","CUT_BUFFER3","CUT_BUFFER4","CUT_BUFFER5","CUT_BUFFER6","CUT_BUFFER7","DRAWABLE","FONT","INTEGER",
   "PIXMAP","POINT","RECTANGLE","RESOURCE_MANAGER","RGB_COLOR_MAP","RGB_BEST_MAP","RGB_BLUE_MAP","RGB_DEFAULT_MAP",
   "RGB_GRAY_MAP","RGB_GREEN_MAP","RGB_RED_MAP","STRING","VISUALID","WINDOW","WM_COMMAND","WM_HINTS",
   "WM_CLIENT_MACHINE","WM_ICON_NAME","WM_ICON_SIZE","WM_NAME","WM_NORMAL_HINTS","WM_SIZE_HINTS","WM_ZOOM_HINTS",
   "MIN_SPACE","NORM_SPACE","MAX_SPACE","END_SPACE","SUPERSCRIPT_X","SUPERSCRIPT_Y","SUBSCRIPT_X","SUBSCRIPT_Y",
   "UNDERLINE_POSITION","UNDERLINE_THICKNESS","STRIKEOUT_ASCENT","STRIKEOUT_DESCENT","ITALIC_ANGLE","X_HEIGHT",
   "QUAD_WIDTH","WEIGHT","POINT_SIZE","RESOLUTION","COPYRIGHT","NOTICE","FONT_NAME","FAMILY_NAME","FULL_NAME",
   "CAP_HEIGHT","WM_CLASS","WM_TRANSIENT_FOR"]

def plenty : Memory := ⟨true,true,true⟩

/-- The table of `InitAtoms`, with nothing in it. -/
def emptyAtoms : Atoms := ⟨noAtom,.nil,initialTableSize,fun _ => none⟩

/-- `MakePredeclaredAtoms`: the names have the numbers of their places. -/
def makePredeclaredAtoms (σ : Atoms) : Except Fault Atoms :=
  builtInAtoms.zipIdx.foldlM (fun σ p => do
    let (atom,σ) ← makeAtom plenty σ (bytes p.1) true
    if atom ≠ p.2 + 1 then throw .fatalError else return σ) σ

/-- `InitAtoms`, when there is memory. -/
def initAtoms : Except Fault Atoms := do
  let σ ← makePredeclaredAtoms emptyAtoms
  if σ.lastAtom ≠ lastPredefined then throw .fatalError else return σ

end Xlibre.Dix.Atom

/-! The names in an atom table, in the order of their atoms. -/
namespace Xlibre.Dix.Atom
open Xlibre.Lib.SearchTree

variable {σ : Atoms} {names : List (List Byte)} {s t : List Byte} {nd : NodeRec} {mem : Memory}

/-- Strings in the order of their bytes. -/
def rank (s : List Byte) : List ℕ := s.map BitVec.toNat

lemma rank_injective : Function.Injective rank := List.map_injective_iff.2 fun _ _ => BitVec.eq_of_toNat_eq

/-- The tree is ordered by fingerprint, then by string. -/
def key (nd : NodeRec) : ℕ ×ₗ List ℕ := toLex (nd.fingerPrint,rank nd.string)

/-- What a string is looked for by. -/
def sought (s : List Byte) : ℕ ×ₗ List ℕ := toLex (fingerPrint s,rank (strndup s))

lemma key_eq_sought : key nd = sought s ↔ nd.fingerPrint = fingerPrint s ∧ nd.string = strndup s := by
  unfold key sought
  rw [toLex_inj,Prod.mk.injEq,rank_injective.eq_iff]

lemma strndup_plain (h : 0 ∉ s) : strndup s = s :=
  List.takeWhile_eq_self_iff.2 fun _ hb => decide_eq_true fun hzero => h (hzero ▸ hb)

lemma zero_notMem_strndup (s : List Byte) : 0 ∉ strndup s := by
  intro h
  have hne := List.mem_takeWhile_imp h
  exact of_decide_eq_true hne rfl

lemma strndup_cons {a : Byte} (ha : a ≠ 0) : strndup (a::s) = a::strndup s := List.takeWhile_cons_of_pos (decide_eq_true ha)

lemma strndup_zero : strndup (0::s) = [] := List.takeWhile_cons_of_neg (by decide)

lemma compareNames_nil_right {a : Byte} : compareNames (a::s) [] = if a = 0 then .eq else .gt := by
  have hnot : ¬a < 0 := BitVec.not_lt_zero
  have hcomp : strncmp (a::s).length (a::s) [] = if a = 0 then .eq else .gt := by
    rw [List.length_cons,strncmp]
    change (if a < 0 then Ordering.lt else if 0 < a then .gt else if a = 0 then .eq else strncmp s.length s []) = _
    rw [if_neg hnot]
    by_cases ha : a = 0
    · rw [if_neg (by rw [ha]; exact BitVec.not_lt_zero)]
      simp only [if_pos ha]
    · rw [if_pos (by bv_omega),if_neg ha]
  unfold compareNames
  rw [hcomp]
  by_cases ha : a = 0
  · simp only [if_pos ha]
    simp
  · simp only [if_neg ha]
    simp

lemma compareNames_cons {a b : Byte} (hb : b ≠ 0) : compareNames (a::s) (b::t) =
    if a < b then .lt else if b < a then .gt else compareNames s t := by
  have hcomp : strncmp (a::s).length (a::s) (b::t) = if a < b then .lt else if b < a then .gt else strncmp s.length s t := by
    rw [List.length_cons,strncmp]
    change (if a < b then Ordering.lt else if b < a then .gt else if a = 0 then .eq else strncmp s.length s t) = _
    by_cases hlt : a < b
    · rw [if_pos hlt,if_pos hlt]
    by_cases hgt : b < a
    · rw [if_neg hlt,if_pos hgt,if_neg hlt,if_pos hgt]
    have ha : a ≠ 0 := by bv_omega
    rw [if_neg hlt,if_neg hgt,if_neg ha,if_neg hlt,if_neg hgt]
  unfold compareNames
  rw [hcomp,List.length_cons,List.length_cons]
  by_cases hlt : a < b
  · simp [hlt]
  by_cases hgt : b < a
  · simp [hlt,hgt]
  · simp only [if_neg hlt,if_neg hgt,Nat.add_lt_add_iff_right]

lemma compareNames_compares (ht : 0 ∉ t) : (compareNames s t).Compares (rank (strndup s)) (rank t) := by
  induction s generalizing t with
  | nil =>
    cases t with
    | nil => rfl
    | cons b t => exact List.nil_lt_cons _ _
  | cons a s ih =>
    cases t with
    | nil =>
      rw [compareNames_nil_right]
      split_ifs with ha
      · rw [ha,strndup_zero]
        rfl
      · rw [strndup_cons ha]
        exact List.nil_lt_cons _ _
    | cons b t =>
      obtain ⟨hb,hrest⟩ := not_or.1 (mt List.mem_cons.2 ht)
      rw [compareNames_cons (Ne.symm hb)]
      split_ifs with hlt hgt
      · by_cases ha : a = 0
        · rw [ha,strndup_zero]
          exact List.nil_lt_cons _ _
        · rw [strndup_cons ha]
          exact List.cons_lt_cons_iff.2 (.inl hlt)
      · have ha : a ≠ 0 := by bv_omega
        rw [strndup_cons ha]
        exact List.cons_lt_cons_iff.2 (.inl hgt)
      · obtain rfl : a = b := by bv_omega
        rw [strndup_cons (Ne.symm hb)]
        have hrest := ih hrest
        cases hcomp : compareNames s t with
        | lt =>
          rw [hcomp] at hrest
          exact List.cons_lt_cons_iff.2 (.inr ⟨rfl,hrest⟩)
        | eq =>
          rw [hcomp] at hrest
          exact congrArg (a.toNat :: ·) hrest
        | gt =>
          rw [hcomp] at hrest
          exact List.cons_lt_cons_iff.2 (.inr ⟨rfl,hrest⟩)

lemma direction_compares (h : 0 ∉ nd.string) : (direction s nd).Compares (sought s) (key nd) := by
  unfold direction
  dsimp only
  split_ifs with hlt hgt
  · exact Prod.Lex.toLex_lt_toLex.2 (.inl hlt)
  · exact Prod.Lex.toLex_lt_toLex.2 (.inl hgt)
  · have hfp : fingerPrint s = nd.fingerPrint := Nat.le_antisymm (Nat.le_of_not_lt hgt) (Nat.le_of_not_lt hlt)
    have hcomp := compareNames_compares (s := s) h
    cases hc : compareNames s nd.string with
    | lt =>
      rw [hc] at hcomp
      exact Prod.Lex.toLex_lt_toLex.2 (.inr ⟨hfp,hcomp⟩)
    | eq =>
      rw [hc] at hcomp
      exact congrArg toLex (Prod.ext hfp hcomp)
    | gt =>
      rw [hc] at hcomp
      exact Prod.Lex.toLex_lt_toLex.2 (.inr ⟨hfp.symm,hcomp⟩)

def nodeOf (i : ℕ) (s : List Byte) : NodeRec := ⟨i+1,fingerPrint s,s⟩

/-- No name in the table has a NUL, whatever has been asked for. -/
def Plain (σ : Atoms) : Prop := ∀ atom nd, σ.nodeTable atom = some nd → 0 ∉ nd.string

lemma Plain.update (h : Plain σ) (i : ℕ) (nd : NodeRec) (hnd : 0 ∉ nd.string) {lastAtom : ℕ} {root : BinaryTree NodeRec} {length : ℕ} :
    Plain ⟨lastAtom,root,length,Function.update σ.nodeTable i (some nd)⟩ := by
  intro atom nd' hatom
  dsimp only at hatom
  by_cases heq : atom = i
  · subst heq
    rw [Function.update_self] at hatom
    cases hatom
    exact hnd
  · rw [Function.update_of_ne heq] at hatom
    exact h atom nd' hatom

lemma makeAtom_plain {σ' : Atoms} {makeit : Bool} {atom : ℕ} (hσ : Plain σ)
    (h : makeAtom mem σ s makeit = .ok (atom,σ')) : Plain σ' := by
  unfold makeAtom at h
  split at h
  · cases h
    exact hσ
  · dsimp only at h
    split_ifs at h
    all_goals
      cases h
      first
        | exact hσ
        | exact hσ.update _ ⟨_,_,strndup s⟩ (zero_notMem_strndup s)

lemma makeAtom_grafts (hnone : seek (direction s) σ.atomRoot = none) (hsmall : σ.lastAtom + 1 < 2^32)
    (hroom : σ.lastAtom < σ.tableLength) : ∃ length, σ.lastAtom + 1 < length ∧
      makeAtom plenty σ s true = .ok (σ.lastAtom + 1,⟨σ.lastAtom + 1,
        graft (direction s) ⟨σ.lastAtom + 1,fingerPrint s,strndup s⟩ σ.atomRoot,length,
        Function.update σ.nodeTable (σ.lastAtom + 1) (some ⟨σ.lastAtom + 1,fingerPrint s,strndup s⟩)⟩) := by
  have hlast := Nat.mod_eq_of_lt hsmall
  unfold makeAtom
  rw [hnone]
  dsimp only
  rw [if_neg (by decide),if_neg (by simp [plenty]),if_neg (by simp [plenty]),hlast]
  by_cases hgrows : σ.lastAtom + 1 ≥ σ.tableLength
  · rw [if_pos (decide_eq_true hgrows),if_neg (by omega)]
    exact ⟨2*σ.tableLength,by omega,rfl⟩
  · have hnot : ¬decide (σ.lastAtom + 1 ≥ σ.tableLength) = true := fun h => hgrows (of_decide_eq_true h)
    rw [if_neg hnot,if_neg (by omega)]
    exact ⟨σ.tableLength,by omega,rfl⟩

/-- The tree and the table have these names, of which none has a NUL. -/
structure Holds (σ : Atoms) (names : List (List Byte)) : Prop where
  lastAtom : σ.lastAtom = names.length
  ordered : Ordered key σ.atomRoot
  nodes : ∀ nd, nd ∈ values σ.atomRoot ↔ ∃ i s, names[i]? = some s ∧ nd = nodeOf i s
  table : ∀ i s, names[i]? = some s → σ.nodeTable (i+1) = some (nodeOf i s)
  unused : σ.nodeTable 0 = none
  clean : Plain σ
  plain : ∀ s ∈ names, 0 ∉ s
  nodup : names.Nodup
  room : names.length < σ.tableLength
  small : names.length < 2^32

lemma holds_empty : Holds emptyAtoms [] := by
  refine ⟨rfl,ordered_nil key,fun nd => ⟨fun h => (nomatch h),fun ⟨i,s,h,_⟩ => (nomatch h)⟩,fun i s h => (nomatch h),rfl,
    fun _ _ h => (nomatch h),fun s h => (nomatch h),List.nodup_nil,?_,?_⟩ <;> decide

section Holds
variable (h : Holds σ names)
include h

lemma Holds.compares (s : List Byte) : Compares key (sought s) (direction s) σ.atomRoot := by
  intro nd hnd
  obtain ⟨i,t,ht,rfl⟩ := (h.nodes nd).1 hnd
  exact direction_compares (h.plain t (List.mem_of_getElem? ht))

lemma Holds.seek_some (hfound : seek (direction s) σ.atomRoot = some nd) :
    ∃ i, names[i]? = some (strndup s) ∧ fingerPrint (strndup s) = fingerPrint s ∧ nd = nodeOf i (strndup s) := by
  obtain ⟨hfp,hstring⟩ := key_eq_sought.1 (key_of_seek (h.compares s) hfound)
  obtain ⟨i,t,ht,rfl⟩ := (h.nodes nd).1 (mem_of_seek hfound).1
  obtain rfl : t = strndup s := hstring
  exact ⟨i,ht,hfp,rfl⟩

lemma Holds.seek_name {i : ℕ} (hi : names[i]? = some s) : seek (direction s) σ.atomRoot = some (nodeOf i s) := by
  refine seek_of_mem h.ordered (h.compares s) ((h.nodes _).2 ⟨i,s,hi,rfl⟩) (key_eq_sought.2 ⟨rfl,?_⟩)
  exact (strndup_plain (h.plain s (List.mem_of_getElem? hi))).symm

lemma Holds.seek_none (hnew : fingerPrint (strndup s) = fingerPrint s → strndup s ∉ names) :
    seek (direction s) σ.atomRoot = none := by
  cases hfound : seek (direction s) σ.atomRoot with
  | none => rfl
  | some nd =>
    obtain ⟨i,hi,hfp,-⟩ := h.seek_some hfound
    exact absurd (List.mem_of_getElem? hi) (hnew hfp)

lemma Holds.nameForAtom {i : ℕ} (hi : names[i]? = some s) : nameForAtom σ (i+1) = some s := by
  obtain ⟨hlt,-⟩ := List.getElem?_eq_some_iff.1 hi
  unfold Atom.nameForAtom
  rw [if_neg (by rw [h.lastAtom]; omega),h.table i s hi]
  rfl

lemma Holds.makeAtom_new (hplain : 0 ∉ s) (hnew : s ∉ names) (hsmall : names.length + 1 < 2^32) :
    ∃ σ', makeAtom plenty σ s true = .ok (names.length + 1,σ') ∧ Holds σ' (names ++ [s]) := by
  have hself := strndup_plain hplain
  have hnone := h.seek_none (s := s) fun _ => hself.symm ▸ hnew
  have hkey : key (nodeOf names.length s) = sought s := key_eq_sought.2 ⟨rfl,hself.symm⟩
  have hplace : ∀ i t, (names ++ [s])[i]? = some t ↔ names[i]? = some t ∨ i = names.length ∧ t = s := by
    intro i t
    rw [List.getElem?_append]
    split_ifs with hi
    · exact ⟨.inl,fun hor => hor.elim (fun h => h) fun h => absurd h.1 hi.ne⟩
    · rw [List.getElem?_eq_none (Nat.le_of_not_lt hi),List.getElem?_singleton]
      grind
  have hgraft : ∀ (length : ℕ), names.length + 1 < length →
      Holds ⟨names.length + 1,graft (direction s) (nodeOf names.length s) σ.atomRoot,length,
        Function.update σ.nodeTable (names.length + 1) (some (nodeOf names.length s))⟩ (names ++ [s]) := by
    intro length hlength
    refine ⟨by simp,ordered_graft h.ordered (h.compares s) hnone hkey,fun nd => ?_,
      fun i t hi => ?_,?_,h.clean.update _ (nodeOf names.length s) hplain,fun t ht => ?_,?_,by simpa using hlength,by simpa using hsmall⟩
    · rw [mem_values_graft hnone,h.nodes nd]
      simp only [hplace]
      grind
    · obtain hold | ⟨rfl,rfl⟩ := (hplace i t).1 hi
      · obtain ⟨hlt,-⟩ := List.getElem?_eq_some_iff.1 hold
        have hne : i + 1 ≠ names.length + 1 := by omega
        exact (Function.update_of_ne hne _ σ.nodeTable).trans (h.table i t hold)
      · exact Function.update_self _ _ _
    · have hne : 0 ≠ names.length + 1 := by omega
      change Function.update σ.nodeTable (names.length + 1) (some (nodeOf names.length s)) 0 = none
      rw [Function.update_of_ne hne,h.unused]
    · obtain ht | ht := List.mem_append.1 ht
      · exact h.plain t ht
      · exact List.mem_singleton.1 ht ▸ hplain
    · exact List.nodup_append.2 ⟨h.nodup,List.nodup_cons.2 ⟨List.not_mem_nil,List.nodup_nil⟩,fun a ha b hb => by
        rw [List.mem_singleton.1 hb]
        exact fun heq => hnew (heq ▸ ha)⟩
  obtain ⟨length,hlength,hmake⟩ := makeAtom_grafts hnone (h.lastAtom ▸ hsmall) (h.lastAtom ▸ h.room)
  rw [h.lastAtom] at hlength hmake
  rw [hself] at hmake
  exact ⟨_,hmake,hgraft length hlength⟩

lemma Holds.makeAtom_shared (hnew : strndup s ∉ names) (hfp : fingerPrint s = fingerPrint t)
    (hcopy : strndup s = strndup t) (hsmall : names.length + 1 < 2^32) :
    ∃ σ', makeAtom plenty σ s true = .ok (names.length + 1,σ') ∧ makeAtom plenty σ' t true = .ok (names.length + 1,σ') ∧
      Atom.nameForAtom σ' (names.length + 1) = some (strndup s) := by
  have hnone := h.seek_none (s := s) fun _ => hnew
  obtain ⟨length,-,hmake⟩ := makeAtom_grafts hnone (h.lastAtom ▸ hsmall) (h.lastAtom ▸ h.room)
  rw [h.lastAtom] at hmake
  refine ⟨_,hmake,?_,?_⟩
  · have hkey : key ⟨names.length + 1,fingerPrint s,strndup s⟩ = sought s := key_eq_sought.2 ⟨rfl,rfl⟩
    have hordered := ordered_graft h.ordered (h.compares s) hnone hkey
    have hcompares : Compares key (sought t) (direction t)
        (graft (direction s) ⟨names.length + 1,fingerPrint s,strndup s⟩ σ.atomRoot) := fun nd hnd => by
      obtain rfl | hold := (mem_values_graft hnone).1 hnd
      · exact direction_compares (zero_notMem_strndup s)
      · exact h.compares t nd hold
    have hfound := seek_of_mem hordered hcompares ((mem_values_graft hnone).2 (.inl rfl)) (key_eq_sought.2 ⟨hfp,hcopy⟩)
    unfold makeAtom
    rw [hfound]
  · unfold Atom.nameForAtom
    dsimp only
    rw [if_neg (Nat.lt_irrefl _),Function.update_self]
    rfl

end Holds

end Xlibre.Dix.Atom
