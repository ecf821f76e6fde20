import Xlibre.Dix.Atom.Table
import Xlibre.Lib.Checked
import Mathlib.Data.List.Nodup

/-! Runs of `MakeAtom`: when atoms and names are in bijection. -/
namespace Xlibre.Dix.Atom
open Xlibre.Lib Checked SearchTree

/-- A call of `MakeAtom`. -/
structure Call where
  string : List Byte
  makeit : Bool

/-- A call and the atom that it returned. -/
structure Entry extends Call where
  atom : ℕ

/-- Calls one after the other, all allocations succeeding. -/
def Atoms.run (σ : Atoms) : List Call → Except Fault (List Entry × Atoms)
  | [] => .ok ([],σ)
  | c::calls => do
    let (atom,σ) ← makeAtom plenty σ c.string c.makeit
    let (trace,σ) ← σ.run calls
    return ({ c with atom }::trace,σ)

def addName (names : List (List Byte)) (c : Call) : List (List Byte) :=
  if c.makeit = true ∧ c.string ∉ names then names ++ [c.string] else names

def namesAfter (names : List (List Byte)) (trace : List Entry) : List (List Byte) :=
  trace.foldl (fun names e => addName names e.toCall) names

structure Bijective (names : List (List Byte)) (trace : List Entry) (σ : Atoms) : Prop where
  same : ∀ e ∈ trace, ∀ e' ∈ trace, e.atom ≠ noAtom → e'.atom ≠ noAtom → (e.atom = e'.atom ↔ e.string = e'.string)
  unknown : ∀ before e after, trace = before ++ e::after → (e.atom = noAtom ↔
    e.makeit = false ∧ e.string ∉ names ∧ ∀ e' ∈ before, e'.makeit = true → e'.string ≠ e.string)
  known : ∀ e ∈ trace, ∀ i, names[i]? = some e.string → e.atom = i + 1
  consecutive : ∀ before e after, trace = before ++ e::after → e.makeit = true → e.string ∉ namesAfter names before →
    e.atom = (namesAfter names before).length + 1
  name : ∀ e ∈ trace, e.atom ≠ noAtom → nameForAtom σ e.atom = some e.string
  count : σ.lastAtom = (namesAfter names trace).length

/-- A call that is in order: no NUL is interned, there is a number for a new name, and a lookup with a NUL does not meet
the name in front of the NUL under the same fingerprint. -/
def Fits (names : List (List Byte)) (c : Call) : Prop :=
  if c.makeit = true then 0 ∉ c.string ∧ (c.string ∈ names ∨ names.length + 1 < 2^32)
  else 0 ∈ c.string → ∀ s ∈ names, ¬(fingerPrint s = fingerPrint c.string ∧ s = strndup c.string)

def AllFit : List (List Byte) → List Call → Prop
  | _,[] => True
  | names,c::calls => Fits names c ∧ AllFit (addName names c) calls

variable {σ σ' : Atoms} {names : List (List Byte)} {c : Call} {e : Entry} {trace : List Entry} {calls : List Call}
  {s : List Byte}

lemma addName_of_mem (h : c.string ∈ names) : addName names c = names := if_neg fun hnew => hnew.2 h

lemma addName_lookup (h : c.makeit = false) : addName names c = names :=
  if_neg fun hnew => Bool.false_ne_true (h ▸ hnew.1)

lemma addName_new (hmake : c.makeit = true) (hnew : c.string ∉ names) : addName names c = names ++ [c.string] :=
  if_pos ⟨hmake,hnew⟩

lemma mem_addName : s ∈ addName names c ↔ s ∈ names ∨ c.makeit = true ∧ s = c.string := by
  unfold addName
  split_ifs with h
  · simp [h.1]
  · constructor
    · exact .inl
    · rintro (hmem | ⟨hmake,rfl⟩)
      · exact hmem
      · by_contra hnew
        exact h ⟨hmake,hnew⟩

lemma prefix_addName : names <+: addName names c := by
  unfold addName
  split_ifs
  · exact List.prefix_append _ _
  · exact List.prefix_rfl

@[simp] lemma namesAfter_nil : namesAfter names [] = names := rfl

@[simp] lemma namesAfter_cons : namesAfter names (e::trace) = namesAfter (addName names e.toCall) trace := rfl

lemma namesAfter_append {after : List Entry} : namesAfter names (trace ++ after) = namesAfter (namesAfter names trace) after :=
  List.foldl_append

lemma prefix_namesAfter : names <+: namesAfter names trace := by
  induction trace generalizing names with
  | nil => exact List.prefix_rfl
  | cons e trace ih => exact prefix_addName.trans ih

lemma mem_namesAfter : s ∈ namesAfter names trace ↔ s ∈ names ∨ ∃ e ∈ trace, e.makeit = true ∧ e.string = s := by
  induction trace generalizing names with
  | nil => simp
  | cons e trace ih =>
    rw [namesAfter_cons,ih,mem_addName]
    simp only [List.exists_mem_cons_iff]
    grind

def atomOf (names : List (List Byte)) (c : Call) : ℕ :=
  if c.string ∈ names then names.idxOf c.string + 1 else if c.makeit = true then names.length + 1 else noAtom

lemma makeAtom_fits (h : Holds σ names) (hfits : Fits names c) :
    ∃ σ', makeAtom plenty σ c.string c.makeit = .ok (atomOf names c,σ') ∧ Holds σ' (addName names c) := by
  by_cases hmem : c.string ∈ names
  · have hi : names[names.idxOf c.string]? = some c.string := by
      rw [List.getElem?_eq_getElem (List.idxOf_lt_length_iff.2 hmem),List.getElem_idxOf]
    unfold makeAtom atomOf
    rw [h.seek_name hi,addName_of_mem hmem,if_pos hmem]
    exact ⟨σ,rfl,h⟩
  unfold Fits at hfits
  unfold atomOf
  rw [if_neg hmem]
  cases hmake : c.makeit with
  | true =>
    rw [if_pos hmake] at hfits
    obtain ⟨hplain,hsmall⟩ := hfits
    rw [if_pos rfl,addName_new hmake hmem]
    exact h.makeAtom_new hplain hmem (hsmall.resolve_left hmem)
  | false =>
    rw [if_neg (hmake ▸ Bool.false_ne_true)] at hfits
    rw [if_neg Bool.false_ne_true,addName_lookup hmake]
    have hnone : seek (direction c.string) σ.atomRoot = none := by
      refine h.seek_none fun hfp hold => ?_
      by_cases hzero : 0 ∈ c.string
      · exact hfits hzero _ hold ⟨hfp,rfl⟩
      · rw [strndup_plain hzero] at hold
        exact hmem hold
    unfold makeAtom
    rw [hnone]
    exact ⟨σ,rfl,h⟩

/-- Each atom of a trace is that of the names at its time. -/
def Told (names : List (List Byte)) (trace : List Entry) : Prop :=
  ∀ before e after, trace = before ++ e::after → e.atom = atomOf (namesAfter names before) e.toCall

lemma run_fits (h : Holds σ names) (hfits : AllFit names calls) :
    ∃ trace σ', σ.run calls = .ok (trace,σ') ∧ Holds σ' (namesAfter names trace) ∧ Told names trace := by
  induction calls generalizing σ names with
  | nil => exact ⟨[],σ,rfl,h,fun before e after heq => by cases before <;> cases heq⟩
  | cons c calls ih =>
    obtain ⟨hone,hrest⟩ := hfits
    obtain ⟨σ1,hmake,h1⟩ := makeAtom_fits h hone
    obtain ⟨trace,σ',hrun,h',htold⟩ := ih h1 hrest
    refine ⟨{ c with atom := atomOf names c }::trace,σ',?_,h',fun before e after heq => ?_⟩
    · unfold Atoms.run
      rw [hmake]
      change (σ1.run calls >>= _) = _
      rw [hrun]
      rfl
    · cases before with
      | nil =>
        cases heq
        rfl
      | cons e0 before =>
        obtain ⟨hfirst,hothers⟩ := List.cons.inj heq
        rw [← hfirst]
        exact htold before e after hothers

lemma atomOf_eq_noAtom : atomOf names c = noAtom ↔ c.makeit = false ∧ c.string ∉ names := by
  unfold atomOf noAtom
  split_ifs with hmem hmake
  · simp [hmem]
  · simp [hmake]
  · simp [hmem,hmake]

lemma getElem?_of_atomOf (h : atomOf names c ≠ noAtom) : (addName names c)[atomOf names c - 1]? = some c.string := by
  by_cases hmem : c.string ∈ names
  · unfold atomOf
    rw [if_pos hmem,addName_of_mem hmem,Nat.add_sub_cancel,
      List.getElem?_eq_getElem (List.idxOf_lt_length_iff.2 hmem),List.getElem_idxOf]
  · have hmake : c.makeit = true := by
      by_contra hlookup
      exact h (atomOf_eq_noAtom.2 ⟨Bool.eq_false_iff.2 hlookup,hmem⟩)
    unfold atomOf
    rw [if_neg hmem,if_pos hmake,addName_new hmake hmem,Nat.add_sub_cancel]
    simp

lemma Told.getElem? (h : Told names trace) (he : e ∈ trace) (hne : e.atom ≠ noAtom) :
    (namesAfter names trace)[e.atom - 1]? = some e.string := by
  obtain ⟨before,after,rfl⟩ := List.append_of_mem he
  have hatom := h before e after rfl
  rw [hatom] at hne ⊢
  obtain ⟨rest,hrest⟩ : addName (namesAfter names before) e.toCall <+: namesAfter names (before ++ e::after) := by
    rw [namesAfter_append,namesAfter_cons]
    exact prefix_namesAfter
  have hplace := getElem?_of_atomOf hne
  obtain ⟨hlt,-⟩ := List.getElem?_eq_some_iff.1 hplace
  rw [← hrest,List.getElem?_append_left hlt,hplace]

lemma Told.bijective (h : Told names trace) (hσ : Holds σ (namesAfter names trace)) : Bijective names trace σ := by
  refine ⟨fun e he e' he' hne hne' => ?_,fun before e after heq => ?_,fun e he i hi => ?_,
    fun before e after heq hmake hnew => ?_,fun e he hne => ?_,hσ.lastAtom⟩
  · have hplace := h.getElem? he hne
    have hplace' := h.getElem? he' hne'
    constructor
    · intro hatom
      rw [hatom,hplace'] at hplace
      exact (Option.some.inj hplace).symm
    · intro hstring
      rw [← hstring,← hplace] at hplace'
      obtain ⟨hlt,-⟩ := List.getElem?_eq_some_iff.1 (h.getElem? he hne)
      have hindex := (List.getElem?_inj hlt hσ.nodup).1 hplace'.symm
      unfold noAtom at hne hne'
      omega
  · rw [h before e after heq,atomOf_eq_noAtom,mem_namesAfter,not_or]
    simp only [not_exists,not_and]
  · obtain ⟨before,after,rfl⟩ := List.append_of_mem he
    have hmem : e.string ∈ namesAfter names before := mem_namesAfter.2 (.inl (List.mem_of_getElem? hi))
    have hatom := h before e after rfl
    have hne : e.atom ≠ noAtom := by
      rw [hatom]
      exact fun hno => (atomOf_eq_noAtom.1 hno).2 hmem
    obtain ⟨hlt,-⟩ := List.getElem?_eq_some_iff.1 hi
    obtain ⟨rest,hrest⟩ : names <+: namesAfter names (before ++ e::after) := prefix_namesAfter
    have hi' : (namesAfter names (before ++ e::after))[i]? = some e.string := by
      rw [← hrest,List.getElem?_append_left hlt,hi]
    obtain ⟨hlt',-⟩ := List.getElem?_eq_some_iff.1 hi'
    have hindex := (List.getElem?_inj hlt' hσ.nodup).1 (hi'.trans (h.getElem? he hne).symm)
    unfold noAtom at hne
    omega
  · rw [h before e after heq]
    unfold atomOf
    rw [if_neg hnew,if_pos hmake]
  · have hplace := hσ.nameForAtom (h.getElem? he hne)
    unfold noAtom at hne
    rwa [Nat.sub_add_cancel (by omega)] at hplace

lemma fits_of_named (h : Holds σ names) {atom : ℕ} (hmake : makeAtom plenty σ c.string c.makeit = .ok (atom,σ'))
    (hmade : c.makeit = true → atom ≠ noAtom) (hplain : atom ≠ noAtom → 0 ∉ c.string) : Fits names c := by
  unfold Fits
  split_ifs with hmakeit
  · have hzero := hplain (hmade hmakeit)
    refine ⟨hzero,?_⟩
    by_contra hnot
    obtain ⟨hnew,hbig⟩ := not_or.1 hnot
    have hsmall := h.small
    -- the number of the atom is 2^32, which is 0
    have hnone := h.seek_none (s := c.string) fun _ => (strndup_plain hzero).symm ▸ hnew
    have hlast : (σ.lastAtom + 1) % 2^32 = 0 := by
      have hlast : σ.lastAtom + 1 = 2^32 := by rw [h.lastAtom]; omega
      rw [hlast,Nat.mod_self]
    unfold makeAtom at hmake
    rw [hnone,hmakeit,hlast] at hmake
    have hroom := h.room
    simp [plenty,show ¬σ.tableLength = 0 by omega] at hmake
    exact hmade hmakeit hmake.1.symm
  · rintro hzero t ht ⟨hfp,hstring⟩
    obtain ⟨i,hi⟩ := List.mem_iff_getElem?.1 ht
    have hnd : nodeOf i t ∈ values σ.atomRoot := (h.nodes _).2 ⟨i,t,hi,rfl⟩
    have hfound := seek_of_mem h.ordered (h.compares c.string) hnd (key_eq_sought.2 ⟨hfp,hstring⟩)
    unfold makeAtom at hmake
    rw [hfound] at hmake
    cases hmake
    exact hplain (Nat.succ_ne_zero i) hzero

lemma run_plain (hσ : Plain σ) (hrun : σ.run calls = .ok (trace,σ')) : Plain σ' := by
  induction calls generalizing σ trace with
  | nil =>
    cases hrun
    exact hσ
  | cons c calls ih =>
    obtain ⟨⟨atom,σ1⟩,hmake,hrun⟩ := bind_eq_ok.1 hrun
    obtain ⟨⟨trace,σ2⟩,hrest,hrun⟩ := bind_eq_ok.1 hrun
    cases hrun
    exact ih (makeAtom_plain hσ hmake) hrest

lemma Plain.name (hσ : Plain σ) {atom : ℕ} (h : nameForAtom σ atom = some s) : 0 ∉ s := by
  unfold nameForAtom at h
  split_ifs at h
  obtain ⟨nd,hnd,rfl⟩ := Option.map_eq_some_iff.1 h
  exact hσ atom nd hnd

lemma allFit_of_named (h : Holds σ names) (hrun : σ.run calls = .ok (trace,σ'))
    (hnamed : ∀ e ∈ trace, (e.makeit = true → e.atom ≠ noAtom) ∧
      (e.atom ≠ noAtom → nameForAtom σ' e.atom = some e.string)) : AllFit names calls := by
  have hσ' := run_plain h.clean hrun
  induction calls generalizing σ names trace with
  | nil => exact trivial
  | cons c calls ih =>
    obtain ⟨⟨atom,σ1⟩,hmake,hrun⟩ := bind_eq_ok.1 hrun
    obtain ⟨⟨rest,σ2⟩,hrest,hrun⟩ := bind_eq_ok.1 hrun
    cases hrun
    obtain ⟨hmade,hname⟩ := hnamed _ List.mem_cons_self
    have hfits := fits_of_named h hmake hmade fun hne => hσ'.name (hname hne)
    obtain ⟨σ3,hmake',h'⟩ := makeAtom_fits h hfits
    rw [hmake] at hmake'
    cases hmake'
    exact ⟨hfits,ih h' hrest fun e he => hnamed e (List.mem_cons_of_mem _ he)⟩

lemma predeclare (h : Holds σ names) (l : List String) (hnodup : (names ++ l.map bytes).Nodup)
    (hplain : ∀ s ∈ l, 0 ∉ bytes s) (hsmall : names.length + l.length < 2^32) :
    ∃ σ', (l.zipIdx names.length).foldlM (fun σ p => do
      let (atom,σ) ← makeAtom plenty σ (bytes p.1) true
      if atom ≠ p.2 + 1 then throw Fault.fatalError else return σ) σ = .ok σ' ∧ Holds σ' (names ++ l.map bytes) := by
  induction l generalizing σ names with
  | nil => exact ⟨σ,rfl,by rwa [List.map_nil,List.append_nil]⟩
  | cons s l ih =>
    have hnew : bytes s ∉ names := fun hmem => by
      have hdisjoint := (List.nodup_append.1 hnodup).2.2 _ hmem (bytes s)
      exact hdisjoint List.mem_cons_self rfl
    rw [List.length_cons] at hsmall
    obtain ⟨σ1,hmake,h1⟩ := h.makeAtom_new (hplain s List.mem_cons_self) hnew (by omega)
    obtain ⟨σ',hrest,h'⟩ := ih h1 (by simpa using hnodup) (fun t ht => hplain t (List.mem_cons_of_mem _ ht))
      (by rw [List.length_append]; simp only [List.length_singleton]; omega)
    refine ⟨σ',?_,by simpa using h'⟩
    rw [List.zipIdx_cons,List.foldlM_cons,hmake]
    have hcheck : (if names.length + 1 ≠ names.length + 1 then throw Fault.fatalError else return σ1 : Except Fault Atoms) =
        .ok σ1 := if_neg (not_not.2 rfl)
    change ((if names.length + 1 ≠ names.length + 1 then throw Fault.fatalError else return σ1 : Except Fault Atoms) >>= _) = _
    rw [hcheck]
    rw [List.length_append] at hrest
    exact hrest

def builtInNames : List (List Byte) := builtInAtoms.map bytes

lemma length_builtInNames : builtInNames.length = 68 := rfl

lemma spelled {l : List Char} {strings : List String} {names : List (List Char)} (h : strings = names.map String.ofList) :
    String.ofList l::strings = (l::names).map String.ofList := congrArg (String.ofList l::·) h

lemma builtInNames_spelled : ∃ names : List (List Char), builtInAtoms = names.map String.ofList ∧
    (names.map fun l => l.map fun c => BitVec.ofNat 8 c.toNat).Nodup ∧
      ∀ l ∈ names, (0 : Byte) ∉ (l.map fun c => BitVec.ofNat 8 c.toNat) ∧ 97 ∉ l.map fun c => BitVec.ofNat 8 c.toNat := by
  apply Exists.intro
  constructor
  · dsimp only [builtInAtoms]
    iterate 68 apply spelled
    exact List.map_nil.symm
  · constructor
    · apply List.Nodup.of_map fun s : List Byte => s.foldl (fun n b => 256*n + b.toNat) 0
      decide +kernel
    · decide +kernel

lemma bytes_ofList (l : List Char) : bytes (String.ofList l) = l.map fun c => BitVec.ofNat 8 c.toNat :=
  congrArg (List.map _) String.toList_ofList

lemma builtInNames_ok : builtInNames.Nodup ∧ ∀ s ∈ builtInAtoms, 0 ∉ bytes s ∧ 97 ∉ bytes s := by
  obtain ⟨names,hspell,hnodup,hplain⟩ := builtInNames_spelled
  unfold builtInNames
  rw [hspell,List.map_map]
  constructor
  · rwa [show bytes ∘ String.ofList = _ from funext bytes_ofList]
  · intro s hs
    obtain ⟨l,hl,rfl⟩ := List.mem_map.1 hs
    rw [bytes_ofList]
    exact hplain l hl

lemma initAtoms_holds : ∃ σ, initAtoms = .ok σ ∧ Holds σ builtInNames := by
  obtain ⟨hnodup,hplain⟩ := builtInNames_ok
  obtain ⟨σ,hmake,h⟩ := predeclare holds_empty builtInAtoms hnodup (fun s hs => (hplain s hs).1) (by decide)
  have hlast : σ.lastAtom = lastPredefined := h.lastAtom.trans (by decide)
  refine ⟨σ,?_,h⟩
  unfold initAtoms makePredeclaredAtoms
  rw [show builtInAtoms.zipIdx.foldlM _ emptyAtoms = .ok σ from hmake]
  change (if σ.lastAtom ≠ lastPredefined then _ else _) = _
  rw [if_neg (not_not.2 hlast)]
  rfl

/-- After `InitAtoms`, any calls of `MakeAtom` leave atoms and names in bijection if and only if each of them is in
order. -/
theorem bijective_iff_allFit (calls : List Call) : ∃ σ₀, initAtoms = .ok σ₀ ∧
    ((∃ trace σ, σ₀.run calls = .ok (trace,σ) ∧ Bijective builtInNames trace σ) ↔ AllFit builtInNames calls) := by
  obtain ⟨σ₀,hinit,h⟩ := initAtoms_holds
  refine ⟨σ₀,hinit,⟨fun ⟨trace,σ,hrun,hb⟩ => ?_,fun hfits => ?_⟩⟩
  · refine allFit_of_named h hrun fun e he => ⟨fun hmake hno => ?_,hb.name e he⟩
    obtain ⟨before,after,heq⟩ := List.append_of_mem he
    exact Bool.false_ne_true (((hb.unknown before e after heq).1 hno).1.symm.trans hmake)
  · obtain ⟨trace,σ,hrun,hσ,htold⟩ := run_fits h hfits
    exact ⟨trace,σ,hrun,htold.bijective hσ⟩

/-- Two names with a NUL in them and one fingerprint: both get the first atom after the built-in ones, and its name is what
is in front of the NUL. -/
theorem nul_not_bijective : ∃ σ₀ trace σ, initAtoms = .ok σ₀ ∧
    σ₀.run [⟨[97,0,65,98,120,121],true⟩,⟨[97,0,66,71,120,121],true⟩] = .ok (trace,σ) ∧
      (trace.map fun e => (e.string,e.atom)) = [([97,0,65,98,120,121],69),([97,0,66,71,120,121],69)] ∧
        nameForAtom σ 69 = some [97] ∧ ¬Bijective builtInNames trace σ := by
  obtain ⟨σ₀,hinit,h⟩ := initAtoms_holds
  have hnew : strndup [97,0,65,98,120,121] ∉ builtInNames := by
    intro hmem
    obtain ⟨s,hs,hname⟩ := List.mem_map.1 hmem
    exact (builtInNames_ok.2 s hs).2 (hname ▸ List.mem_cons_self)
  obtain ⟨σ,hfirst,hsecond,hname⟩ := h.makeAtom_shared (t := [97,0,66,71,120,121]) hnew (by decide) (by decide)
    (by rw [length_builtInNames]; decide)
  rw [length_builtInNames] at hfirst hsecond hname
  have hrun : σ₀.run [⟨[97,0,65,98,120,121],true⟩,⟨[97,0,66,71,120,121],true⟩] =
      .ok ([⟨⟨[97,0,65,98,120,121],true⟩,69⟩,⟨⟨[97,0,66,71,120,121],true⟩,69⟩],σ) := by
    unfold Atoms.run
    rw [hfirst]
    change (Atoms.run _ _ >>= _) = _
    unfold Atoms.run
    rw [hsecond]
    rfl
  refine ⟨σ₀,_,σ,hinit,hrun,rfl,hname,fun hb => ?_⟩
  have hlost := hb.name _ List.mem_cons_self (by decide)
  rw [hname] at hlost
  exact absurd hlost (by decide)

end Xlibre.Dix.Atom
