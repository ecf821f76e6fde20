import Xlibre.Xkb.CoreMap

/-! The types and symbols that a key gets from a row of the core keymap. -/
namespace Xlibre.Xkb

/-- What the function looks up beside its arguments: the numbers of levels of the types, `XkbConvertCase` and
`XkbKSIsKeypad`. -/
structure CaseEnv where
  levels : List ℕ
  lower : KeySym → KeySym
  upper : KeySym → KeySym
  isKeypad : KeySym → Bool

def xkbOneLevelIndex : ℕ := 0
def xkbTwoLevelIndex : ℕ := 1
def xkbAlphabeticIndex : ℕ := 2
def xkbKeypadIndex : ℕ := 3
def xkbLastRequiredType : ℕ := xkbKeypadIndex

/-- The local state: `types_inout`, `nSyms`, `xkb_syms_rtrn`, `nGroups` and `empty`. -/
structure Decoding where
  types : ℕ → ℕ
  nSyms : ℕ → ℕ
  syms : ℕ → KeySym
  nGroups : ℕ
  empty : ℕ → Bool

def coreSym (row : List KeySym) (i : ℕ) : KeySym := row.getD i noSymbol

/-- Some symbols from a place on. -/
def writeSyms (syms : ℕ → KeySym) (start n : ℕ) (f : ℕ → KeySym) : ℕ → KeySym :=
  fun k => if start ≤ k ∧ k < start+n then f (k-start) else syms k

def onlyFirst (prot : ℕ → Bool) : Bool := !prot 1 && !prot 2 && !prot 3

namespace CaseEnv
variable (env : CaseEnv) (row : List KeySym) (prot : ℕ → Bool)

/-- Step 1: a protected group of a type that is there keeps it. -/
def knows (types : ℕ → ℕ) (i : ℕ) : Bool := prot i && decide (types i < env.levels.length)

def groupLevels (types : ℕ → ℕ) (i : ℕ) : ℕ := if env.knows prot types i then env.levels.getD (types i) 0 else 2

def groupsWidth (types : ℕ → ℕ) : ℕ := (List.range 4).foldl (fun w i => max w (env.groupLevels prot types i)) 2

def firstPlace (i : ℕ) : ℕ := if i < 2 then i else 2+i

def start (types : ℕ → ℕ) (syms : ℕ → KeySym) : Decoding :=
  let nSyms i := if i < 2 then max 2 (env.groupLevels prot types i) else env.groupLevels prot types i
  let one := writeSyms syms 0 (nSyms 0) fun i => coreSym row (firstPlace i)
  { types := fun i => if env.knows prot types i then types i else xkbTwoLevelIndex
    nSyms
    syms := writeSyms one (env.groupsWidth prot types) (nSyms 1) fun i =>
      coreSym row (if i < 2 then 2+i else nSyms 0+i)
    nGroups := 0
    empty := fun _ => false }

/-- All groups of the row are the first one, as far as the row goes. -/
def Replicated (width : ℕ) : Prop :=
  (coreSym row 0 = coreSym row 2 ∧ coreSym row 1 = coreSym row 3) ∧
  (∀ i < width, 2 ≤ i → coreSym row (2+i) = coreSym row (i+width)) ∧
  ∀ j < 4, 2 ≤ j → row.length ≥ width*(j+1) → ∀ i < width, coreSym row (firstPlace i) = coreSym row (i+width*j)

instance (width : ℕ) : Decidable (Replicated row width) := inferInstanceAs (Decidable (_ ∧ _ ∧ _))

/-- Step 2: how many groups there are, and the symbols of the third and fourth. -/
def split (gW : ℕ) (s : Decoding) : Decoding :=
  if onlyFirst prot ∧ Replicated row (s.nSyms 0) then
    { s with nGroups := 1, nSyms := fun i => if i = 0 then s.nSyms 0 else 0 }
  else
    let tmp := s.nSyms 0+s.nSyms 1
    if tmp ≥ row.length ∧ prot 2 = false ∧ prot 3 = false then
      { s with nGroups := 2, nSyms := fun i => if i < 2 then s.nSyms i else 0 }
    else
      let third := writeSyms s.syms (gW*2) (s.nSyms 2) fun i => coreSym row (tmp+i)
      let tmp := tmp+s.nSyms 2
      if tmp < row.length ∨ prot 3 then
        { s with nGroups := 4, syms := writeSyms third (gW*3) (s.nSyms 3) fun i => coreSym row (tmp+i) }
      else { s with nGroups := 3, syms := third, nSyms := fun i => if i < 3 then s.nSyms i else 0 }

/-- A first symbol that stands alone, with two cases. -/
def expands (a b : KeySym) : Bool := decide (b = noSymbol) && decide (a ≠ noSymbol) && decide (env.upper a ≠ env.lower a)

def canonicalType (a b : KeySym) : ℕ :=
  if env.isKeypad a ∨ env.isKeypad b then xkbKeypadIndex
  else if a = env.lower a ∧ b = env.upper a then xkbAlphabeticIndex
  else xkbTwoLevelIndex

/-- Steps 3 and 4 for one group. -/
def canonize (gW : ℕ) (s : Decoding) (i : ℕ) : Decoding :=
  let a := s.syms (gW*i)
  let b := s.syms (gW*i+1)
  let alone := s.nSyms i > 1 ∧ b = noSymbol ∧ a ≠ noSymbol
  let syms :=
    if alone ∧ env.upper a ≠ env.lower a then
      writeSyms s.syms (gW*i) 2 fun k => if k = 0 then env.lower a else env.upper a
    else s.syms
  let type :=
    if prot i = false ∧ alone then if env.upper a ≠ env.lower a then xkbAlphabeticIndex else xkbOneLevelIndex
    else s.types i
  let type :=
    if prot i = false ∧ type = xkbTwoLevelIndex then env.canonicalType (syms (gW*i)) (syms (gW*i+1)) else type
  { s with
    types := Function.update s.types i type
    syms
    empty := Function.update s.empty i
      (decide (syms (gW*i) = noSymbol) && (List.range' 1 (s.nSyms i-1)).all fun n => decide (syms (gW*i+n) = noSymbol)) }

/-- Step 5: empty groups at the end go, but not protected ones. -/
def squoosh (s : Decoding) : ℕ → ℕ
  | 0 => 0
  | n+1 => if s.empty n ∧ prot n = false then squoosh s n else n+1

def repeatFirst (s : Decoding) : Decoding :=
  if s.nGroups > 1 ∧ s.empty 0 = false ∧ s.empty 1 then
    if prot 0 = false ∧ prot 1 = false then
      { s with
        nSyms := Function.update s.nSyms 1 (s.nSyms 0)
        types := Function.update s.types 1 (s.types 0)
        syms := writeSyms s.syms 2 2 s.syms }
    else if s.types 0 = s.types 1 then { s with syms := writeSyms s.syms (s.nSyms 0) (s.nSyms 0) s.syms }
    else s
  else s

/-- The loop of step 7 over the groups after the first: `sameType`, `canonical` and `allOneLevel`. -/
def compareTypes (types : ℕ → ℕ) : List ℕ → Bool × Bool × Bool → Bool × Bool × Bool
  | [],r => r
  | i::rest,(sameType,canonical,allOneLevel) =>
    if allOneLevel || sameType then
      compareTypes types rest (sameType && decide (types i = types 0),
        canonical && decide (types i ≤ xkbLastRequiredType),allOneLevel && decide (env.levels.getD (types i) 0 = 1))
    else (sameType,canonical,allOneLevel)

/-- All groups have the symbols of the first one. -/
def Identical (gW : ℕ) (s : Decoding) : Prop :=
  ∀ i < s.nGroups, 1 ≤ i → s.nSyms i = s.nSyms 0 ∧ ∀ k < s.nSyms i, s.syms (gW*i+k) = s.syms k

instance (gW : ℕ) (s : Decoding) : Decidable (Identical gW s) :=
  inferInstanceAs (Decidable (∀ i < s.nGroups, 1 ≤ i → s.nSyms i = s.nSyms 0 ∧ ∀ k < s.nSyms i, s.syms (gW*i+k) = s.syms k))

/-- One symbol for each group; the place to read moves on by the symbols of the group. -/
def compress (nSyms : ℕ → ℕ) : ℕ → List ℕ → (ℕ → KeySym) → ℕ → KeySym
  | _,[],syms => syms
  | place,i::rest,syms => compress nSyms (place+nSyms i) rest (Function.update syms i (syms place))

def joinIdentical (gW : ℕ) (comparable : Bool) (s : Decoding) : Decoding :=
  if comparable ∧ onlyFirst prot ∧ Identical gW s then { s with nGroups := 1 } else s

/-- Step 7. -/
def merge (gW : ℕ) (s : Decoding) : Decoding :=
  if s.nGroups > 1 then
    let groups := List.range' 1 (s.nGroups-1)
    let r := env.compareTypes s.types groups (true,true,decide (env.levels.getD (s.types 0) 0 = 1))
    let s := joinIdentical prot gW (r.1 || r.2.1) s
    if r.2.2 ∧ s.nGroups > 1 then
      { s with
        syms := compress s.nSyms (s.nSyms 0) groups s.syms
        nSyms := fun i => if i < s.nGroups then 1 else s.nSyms i }
    else s
  else s

/-- `XkbKeyTypesForCoreSymbols`: the groups, with the types and the symbols. -/
def keyTypesForCoreSymbols (types : ℕ → ℕ) (syms : ℕ → KeySym) : Decoding :=
  let gW := env.groupsWidth prot types
  let s := split row prot gW (env.start row prot types syms)
  let s := (List.range s.nGroups).foldl (env.canonize prot gW) s
  let s := { s with nGroups := squoosh prot s s.nGroups }
  if s.nGroups < 1 then s else env.merge prot gW (repeatFirst prot s)

section First
variable {env : CaseEnv} {row : List KeySym} {types : ℕ → ℕ} {syms : ℕ → KeySym} {s s' : Decoding} {W t n i j k : ℕ}

def first (i : ℕ) : Bool := decide (i = 0)

def laterPlace (W j : ℕ) : ℕ := if j = 1 then 2 else W+2*(j-1)

structure Has (row : List KeySym) (W : ℕ) (two : KeySym → KeySym → KeySym × KeySym) (s : Decoding) (j : ℕ) : Prop where
  type : s.types j ≤ xkbLastRequiredType
  nSyms : s.nSyms j = 2
  syms : (s.syms (W*j),s.syms (W*j+1)) = two (coreSym row (laterPlace W j)) (coreSym row (laterPlace W j+1))

structure HasFirst (row : List KeySym) (W t : ℕ) (s : Decoding) : Prop where
  type : s.types 0 = t
  nSyms : s.nSyms 0 = W
  syms : ∀ i < W, s.syms i = coreSym row (firstPlace i)

lemma slots_apart (hW : 2 ≤ W) (hne : i ≠ j) : W*i+2 ≤ W*j ∨ W*j+2 ≤ W*i := by
  obtain hlt | hgt := Nat.lt_or_gt_of_ne hne
  · have hle : W*(i+1) ≤ W*j := Nat.mul_le_mul_left W hlt
    rw [Nat.mul_add] at hle
    omega
  · have hle : W*(j+1) ≤ W*i := Nat.mul_le_mul_left W hgt
    rw [Nat.mul_add] at hle
    omega

lemma writeSyms_in {f : ℕ → KeySym} {a : ℕ} (hge : a ≤ k) (hlt : k < a+n) : writeSyms syms a n f k = f (k-a) :=
  if_pos ⟨hge,hlt⟩

lemma writeSyms_out {f : ℕ → KeySym} {a : ℕ} (h : k < a ∨ a+n ≤ k) : writeSyms syms a n f k = syms k := if_neg (by omega)

lemma writeTwo_self (f : ℕ → KeySym) (a : ℕ) : (writeSyms syms a 2 f a,writeSyms syms a 2 f (a+1)) = (f 0,f 1) := by
  rw [writeSyms_in le_rfl (by omega),writeSyms_in (by omega) (by omega),Nat.sub_self,Nat.add_sub_cancel_left]

lemma writeTwo_other (hW : 2 ≤ W) (hne : i ≠ j) (f : ℕ → KeySym) :
    (writeSyms syms (W*i) 2 f (W*j),writeSyms syms (W*i) 2 f (W*j+1)) = (syms (W*j),syms (W*j+1)) := by
  have hapart := slots_apart hW hne
  rw [writeSyms_out (by omega),writeSyms_out (by omega)]

lemma writeTwo_first (hi : 1 ≤ i) (hk : k < W) (f : ℕ → KeySym) : writeSyms syms (W*i) 2 f k = syms k :=
  writeSyms_out (.inl (hk.trans_le (Nat.le_mul_of_pos_right W hi)))

lemma groupLevels_first (ht : types 0 < env.levels.length) :
    env.groupLevels first types i = if i = 0 then env.levels.getD (types 0) 0 else 2 := by
  unfold groupLevels knows first
  split_ifs with hknown hi hi
  · rw [hi]
  · simp [hi] at hknown
  · simp [hi,ht] at hknown
  · rfl

lemma groupsWidth_first (ht : types 0 < env.levels.length) :
    env.groupsWidth first types = max 2 (env.levels.getD (types 0) 0) := by
  unfold groupsWidth
  simp [groupLevels_first ht,List.range_succ]

lemma start_first (ht : types 0 < env.levels.length) (hW : W = max 2 (env.levels.getD (types 0) 0)) :
    HasFirst row W (types 0) (env.start row first types syms) ∧
    Has row W Prod.mk (env.start row first types syms) 1 ∧
    ∀ j, 1 ≤ j → (env.start row first types syms).types j = xkbTwoLevelIndex ∧ (env.start row first types syms).nSyms j = 2 := by
  have hwidth : env.groupsWidth first types = W := by rw [groupsWidth_first ht,hW]
  have hzero : max 2 (env.groupLevels first types 0) = W := by rw [groupLevels_first ht,if_pos rfl,hW]
  have hlater : ∀ j, 1 ≤ j → env.groupLevels first types j = 2 := by
    intro j hj
    rw [groupLevels_first ht,if_neg (by omega)]
  have htype : ∀ j, 1 ≤ j → (env.start row first types syms).types j = xkbTwoLevelIndex ∧
      (env.start row first types syms).nSyms j = 2 := by
    intro j hj
    unfold start knows first
    dsimp only
    rw [show decide (j = 0) = false from decide_eq_false (by omega)]
    refine ⟨rfl,?_⟩
    have hj' := hlater j hj
    unfold first at hj'
    rw [hj',max_self,ite_self]
  refine ⟨⟨?_,hzero,fun i hi => ?_⟩,⟨?_,(htype 1 le_rfl).2,?_⟩,htype⟩
  · unfold start knows first
    simp [ht]
  · unfold start
    dsimp only
    rw [hwidth,writeSyms_out (.inl hi),if_pos (by decide),hzero,writeSyms_in i.zero_le (by omega),Nat.sub_zero]
  · rw [(htype 1 le_rfl).1]
    decide
  · unfold start
    dsimp only
    rw [hwidth,if_pos (by decide),if_pos (by decide),hlater 1 le_rfl,max_self,Nat.mul_one]
    exact writeTwo_self _ W

def laterGroups (W m : ℕ) : ℕ := if m ≤ W+2 then 2 else if m ≤ W+4 then 3 else 4

lemma split_first (hW : 2 ≤ W) (hfirst : HasFirst row W t s) (hone : Has row W Prod.mk s 1)
    (hlater : ∀ j, 1 ≤ j → s.types j = xkbTwoLevelIndex ∧ s.nSyms j = 2) :
    HasFirst row W t (split row first W s) ∧
    (Replicated row W → (split row first W s).nGroups = 1) ∧
    (¬ Replicated row W → (split row first W s).nGroups = laterGroups W row.length ∧
      ∀ j, 1 ≤ j → j < laterGroups W row.length → Has row W Prod.mk (split row first W s) j) := by
  have htwo : ∀ j, 1 ≤ j → s.types j ≤ xkbLastRequiredType := fun j hj => by rw [(hlater j hj).1]; decide
  have hn1 := (hlater 1 le_rfl).2
  have hn2 := (hlater 2 (by omega)).2
  have hn3 := (hlater 3 (by omega)).2
  unfold split
  rw [hfirst.nSyms,hn1]
  by_cases hrep : Replicated row W
  · rw [if_pos ⟨rfl,hrep⟩]
    exact ⟨⟨hfirst.type,rfl,hfirst.syms⟩,fun _ => rfl,fun h => absurd hrep h⟩
  · rw [if_neg (fun h => hrep h.2)]
    dsimp only
    unfold laterGroups
    by_cases htwoGroups : row.length ≤ W+2
    · rw [if_pos ⟨htwoGroups,rfl,rfl⟩,if_pos htwoGroups]
      refine ⟨⟨hfirst.type,hfirst.nSyms,hfirst.syms⟩,fun h => absurd h hrep,fun _ => ⟨rfl,?_⟩⟩
      intro j hj hlt
      obtain rfl : j = 1 := by omega
      exact ⟨hone.type,hone.nSyms,hone.syms⟩
    · rw [if_neg (fun h => htwoGroups h.1),if_neg htwoGroups,hn2,hn3]
      have hthird : HasFirst row W t { s with syms := writeSyms s.syms (W*2) 2 fun i => coreSym row (W+2+i) } ∧
          ∀ j, 1 ≤ j → j < 3 → Has row W Prod.mk { s with syms := writeSyms s.syms (W*2) 2 fun i => coreSym row (W+2+i) } j := by
        refine ⟨⟨hfirst.type,hfirst.nSyms,fun k hk => ?_⟩,fun j hj hlt => ?_⟩
        · dsimp only
          rw [writeTwo_first (by decide : 1 ≤ 2) hk,hfirst.syms k hk]
        obtain rfl | rfl : j = 1 ∨ j = 2 := by omega
        · refine ⟨hone.type,hn1,?_⟩
          dsimp only
          rw [writeTwo_other hW (by decide : 2 ≠ 1)]
          exact hone.syms
        · refine ⟨htwo 2 hj,hn2,?_⟩
          dsimp only
          rw [writeTwo_self]
          rfl
      generalize writeSyms s.syms (W*2) 2 (fun i => coreSym row (W+2+i)) = third at hthird
      obtain ⟨hfirst₃,hgroups⟩ := hthird
      by_cases hfour : row.length ≤ W+4
      · rw [if_neg (by simp [first]; omega),if_pos hfour]
        refine ⟨⟨hfirst.type,hfirst.nSyms,hfirst₃.syms⟩,fun h => absurd h hrep,fun _ => ⟨rfl,fun j hj hlt => ?_⟩⟩
        exact ⟨htwo j hj,(if_pos hlt).trans (hlater j hj).2,(hgroups j hj hlt).syms⟩
      · rw [if_pos (.inl (by omega)),if_neg hfour]
        refine ⟨⟨hfirst.type,hfirst.nSyms,fun k hk => ?_⟩,fun h => absurd h hrep,
          fun _ => ⟨rfl,fun j hj hlt => ⟨htwo j hj,(hlater j hj).2,?_⟩⟩⟩
        · dsimp only
          rw [writeTwo_first (by decide : 1 ≤ 3) hk]
          exact hfirst₃.syms k hk
        obtain hlt | rfl : j < 3 ∨ j = 3 := by omega
        all_goals dsimp only
        · rw [writeTwo_other hW (by omega : 3 ≠ j)]
          exact (hgroups j hj hlt).syms
        · rw [writeTwo_self]
          rfl

def two (env : CaseEnv) (a b : KeySym) : KeySym × KeySym := if env.expands a b then (env.lower a,env.upper a) else (a,b)

/-- A later group has no symbols. -/
def Blank (row : List KeySym) (W j : ℕ) : Prop :=
  coreSym row (laterPlace W j) = noSymbol ∧ coreSym row (laterPlace W j+1) = noSymbol

lemma two_blank {a b : KeySym} :
    ((env.two a b).1 = noSymbol ∧ (env.two a b).2 = noSymbol) ↔ a = noSymbol ∧ b = noSymbol := by
  unfold two
  split_ifs with h
  · unfold expands at h
    simp only [Bool.and_eq_true,decide_eq_true_eq] at h
    obtain ⟨⟨hb,ha⟩,hne⟩ := h
    exact iff_of_false (fun hboth => hne (hboth.2.trans hboth.1.symm)) fun hboth => ha hboth.1
  · rfl

lemma canonicalType_le (a b : KeySym) : env.canonicalType a b ≤ xkbLastRequiredType := by
  unfold canonicalType
  split_ifs <;> decide

lemma canonize_self (hi : 1 ≤ i) (h : Has row W Prod.mk s i) :
    Has row W env.two (env.canonize first W s i) i ∧ ((env.canonize first W s i).empty i = true ↔ Blank row W i) := by
  obtain ⟨htype,hnSyms,hsyms⟩ := h
  obtain ⟨ha,hb⟩ := Prod.mk.inj hsyms
  have hnot : first i = false := decide_eq_false (by omega)
  have hpair : ((env.canonize first W s i).syms (W*i),(env.canonize first W s i).syms (W*i+1)) =
      env.two (coreSym row (laterPlace W i)) (coreSym row (laterPlace W i+1)) := by
    unfold canonize two expands
    dsimp only
    rw [hnSyms,ha,hb]
    by_cases halone : coreSym row (laterPlace W i+1) = noSymbol ∧ coreSym row (laterPlace W i) ≠ noSymbol ∧
      env.upper (coreSym row (laterPlace W i)) ≠ env.lower (coreSym row (laterPlace W i))
    · obtain ⟨hb',ha',hne⟩ := halone
      rw [if_pos ⟨⟨by decide,hb',ha'⟩,hne⟩,if_pos (by simp [hb',ha',hne]),writeTwo_self]
      rfl
    · rw [if_neg (fun h => halone ⟨h.1.2.1,h.1.2.2,h.2⟩),if_neg (by simp; tauto),ha,hb]
  refine ⟨⟨?_,hnSyms,hpair⟩,?_⟩
  · unfold canonize
    dsimp only
    rw [Function.update_self]
    split_ifs
    all_goals first | exact canonicalType_le _ _ | exact htype | decide
  · have hempty : (env.canonize first W s i).empty i = true ↔ (env.canonize first W s i).syms (W*i) = noSymbol ∧
        (env.canonize first W s i).syms (W*i+1) = noSymbol := by
      unfold canonize
      simp [hnSyms]
    rw [hempty,(Prod.mk.inj hpair).1,(Prod.mk.inj hpair).2]
    exact two_blank

lemma canonize_other (env : CaseEnv) (s : Decoding) (hW : 2 ≤ W) (hne : i ≠ j) : (env.canonize first W s i).types j = s.types j ∧
    (env.canonize first W s i).empty j = s.empty j ∧
    ((env.canonize first W s i).syms (W*j),(env.canonize first W s i).syms (W*j+1)) = (s.syms (W*j),s.syms (W*j+1)) := by
  unfold canonize
  dsimp only
  refine ⟨Function.update_of_ne hne.symm ..,Function.update_of_ne hne.symm ..,?_⟩
  split_ifs
  · rw [writeTwo_other hW hne]
  · rfl

lemma canonize_first (hW : 2 ≤ W) (h : HasFirst row W t s) (hcase : env.expands (coreSym row 0) (coreSym row 1) = false) :
    HasFirst row W t (env.canonize first W s i) ∧ (i = 0 →
      ((env.canonize first W s i).empty 0 = true ↔ ∀ k < W, coreSym row (firstPlace k) = noSymbol)) := by
  obtain rfl | hi := Nat.eq_zero_or_pos i
  · have ha : s.syms (W*0) = coreSym row 0 := h.syms 0 (by omega)
    have hb : s.syms (W*0+1) = coreSym row 1 := h.syms 1 (by omega)
    have hstay : (env.canonize first W s 0).syms = s.syms := by
      unfold canonize
      dsimp only
      rw [ha,hb]
      refine if_neg fun halone => ?_
      simp [expands,halone.1.2.1,halone.1.2.2,halone.2] at hcase
    refine ⟨⟨?_,h.nSyms,hstay ▸ h.syms⟩,fun _ => ?_⟩
    · unfold canonize first
      simpa using h.type
    · have hempty : (env.canonize first W s 0).empty 0 = true ↔
          (env.canonize first W s 0).syms (W*0) = noSymbol ∧
            ∀ k, 1 ≤ k → k < 1+(W-1) → (env.canonize first W s 0).syms (W*0+k) = noSymbol := by
        unfold canonize
        simp [h.nSyms]
      rw [hempty,hstay]
      constructor
      · rintro ⟨hzero,hrest⟩ k hk
        rw [← h.syms k hk]
        obtain rfl | hpos := Nat.eq_zero_or_pos k
        · exact hzero
        · have hat := hrest k hpos (by omega)
          rwa [Nat.mul_zero,Nat.zero_add] at hat
      · intro hall
        refine ⟨ha.trans (hall 0 (by omega)),fun k hpos hlt => ?_⟩
        rw [Nat.mul_zero,Nat.zero_add,h.syms k (by omega),hall k (by omega)]
  · refine ⟨⟨(canonize_other env s hW hi.ne').1.trans h.type,h.nSyms,fun k hk => ?_⟩,fun hzero => absurd hzero hi.ne'⟩
    unfold canonize
    dsimp only
    split_ifs
    · rw [writeTwo_first hi hk,h.syms k hk]
    · exact h.syms k hk

/-- What steps 3 and 4 come to, so many groups in. -/
structure Canonized (env : CaseEnv) (row : List KeySym) (W t n N : ℕ) (s : Decoding) : Prop where
  first : HasFirst row W t s
  emptyFirst : 0 < n → (s.empty 0 = true ↔ ∀ k < W, coreSym row (firstPlace k) = noSymbol)
  done : ∀ j, 1 ≤ j → j < n → Has row W env.two s j ∧ (s.empty j = true ↔ Blank row W j)
  todo : ∀ j, 1 ≤ j → n ≤ j → j < N → Has row W Prod.mk s j
  nGroups : s.nGroups = N

lemma foldl_canonize {N : ℕ} (hW : 2 ≤ W) (hcase : env.expands (coreSym row 0) (coreSym row 1) = false)
    (h : HasFirst row W t s) (hall : ∀ j, 1 ≤ j → j < N → Has row W Prod.mk s j) (hN : s.nGroups = N) (hn : n ≤ N) :
    Canonized env row W t n N ((List.range n).foldl (env.canonize CaseEnv.first W) s) := by
  induction n with
  | zero => exact ⟨h,nofun,fun _ _ hlt => absurd hlt (by omega),fun j hj _ hlt => hall j hj hlt,hN⟩
  | succ n ih =>
    obtain ⟨hfirst,hempty,hdone,htodo,hsame⟩ := ih (by omega)
    rw [List.range_succ,List.foldl_append,List.foldl_cons,List.foldl_nil]
    generalize (List.range n).foldl (env.canonize CaseEnv.first W) s = s₁ at hfirst hempty hdone htodo hsame ⊢
    obtain ⟨hfirst',hempty'⟩ := canonize_first (i := n) hW hfirst hcase
    refine ⟨hfirst',fun _ => ?_,fun j hj hlt => ?_,fun j hj hge hlt => ?_,hsame⟩
    · obtain hzero | hpos := Nat.eq_zero_or_pos n
      · exact hempty' hzero
      · rw [(canonize_other env s₁ hW hpos.ne').2.1]
        exact hempty hpos
    · obtain rfl | hne := eq_or_ne n j
      · exact canonize_self hj (htodo n hj le_rfl (by omega))
      · obtain ⟨⟨htype,hnSyms,hsyms⟩,hblank⟩ := hdone j hj (by omega)
        obtain ⟨htypes,hempties,hpair⟩ := canonize_other env s₁ hW hne
        exact ⟨⟨htypes ▸ htype,hnSyms,hpair.trans hsyms⟩,hempties ▸ hblank⟩
    · obtain ⟨htype,hnSyms,hsyms⟩ := htodo j hj (by omega) hlt
      obtain ⟨htypes,-,hpair⟩ := canonize_other env s₁ (i := n) (j := j) hW (by omega)
      exact ⟨htypes ▸ htype,hnSyms,hpair.trans hsyms⟩

lemma squoosh_first (hn : 1 ≤ n) : 1 ≤ squoosh first s n ∧ squoosh first s n ≤ n ∧
    (∀ j, squoosh first s n ≤ j → j < n → s.empty j = true) ∧
    (squoosh first s n = 1 ∨ s.empty (squoosh first s n-1) = false) := by
  induction n with
  | zero => omega
  | succ n ih =>
    unfold squoosh
    split_ifs with h
    · have hpos : 1 ≤ n := by
        have hprot := of_decide_eq_false h.2
        omega
      obtain ⟨hone,hle,hempty,hlast⟩ := ih hpos
      refine ⟨hone,by omega,fun j hge hlt => ?_,hlast⟩
      obtain rfl | hlt := Nat.eq_or_lt_of_le (Nat.le_of_lt_succ hlt)
      · exact h.1
      · exact hempty j hge hlt
    · refine ⟨by omega,le_rfl,fun j hge hlt => absurd hlt (by omega),?_⟩
      obtain rfl | hpos := Nat.eq_zero_or_pos n
      · exact .inl rfl
      · rw [Nat.add_sub_cancel]
        exact .inr (Bool.eq_false_iff.2 fun hempty => h ⟨hempty,decide_eq_false (by omega)⟩)

lemma compareTypes_canonical {l : List ℕ} {a b : Bool} (h : ∀ i ∈ l, types i ≤ xkbLastRequiredType) :
    (env.compareTypes types l (a,true,b)).2.1 = true := by
  induction l generalizing a b with
  | nil => rfl
  | cons i l ih =>
    unfold compareTypes
    split_ifs
    · rw [decide_eq_true (h i List.mem_cons_self),Bool.true_and]
      exact ih fun i hi => h i (List.mem_cons_of_mem _ hi)
    · rfl

lemma merge_different (h : ¬ Identical W s) : (env.merge first W s).nGroups = s.nGroups := by
  unfold merge
  split_ifs with hgroups
  · have hjoin : ∀ b, joinIdentical first W b s = s := fun b => if_neg fun hall => h hall.2.2
    dsimp only
    rw [hjoin]
    split_ifs <;> rfl
  · rfl

lemma merge_identical (h : Identical W s) (hn : 1 < s.nGroups) (htypes : ∀ i < s.nGroups, 1 ≤ i → s.types i ≤ xkbLastRequiredType) :
    env.merge first W s = { s with nGroups := 1 } := by
  have hcanonical : (env.compareTypes s.types (List.range' 1 (s.nGroups-1))
      (true,true,decide (env.levels.getD (s.types 0) 0 = 1))).2.1 = true := by
    refine compareTypes_canonical fun i hi => ?_
    rw [List.mem_range'_1] at hi
    exact htypes i (by omega) hi.1
  have hjoin : joinIdentical first W true s = { s with nGroups := 1 } := if_pos ⟨rfl,rfl,h⟩
  unfold merge
  rw [if_pos hn]
  dsimp only
  rw [hcanonical,Bool.or_true,hjoin]
  exact if_neg fun hmore => lt_irrefl 1 hmore.2

variable {N r : ℕ}

lemma finish_one : env.merge first W (repeatFirst first { s with nGroups := 1 }) = { s with nGroups := 1 } := by
  unfold repeatFirst
  rw [if_neg (by simp)]
  exact if_neg (lt_irrefl 1)

lemma finish_wide (h : Canonized env row W t N N s) (hW : 3 ≤ W) (hr : 1 < r) (hrN : r ≤ N) :
    (env.merge first W (repeatFirst first { s with nGroups := r })).nGroups ≠ 1 := by
  have hkept : (repeatFirst first { s with nGroups := r }).nGroups = r ∧
      (repeatFirst first { s with nGroups := r }).nSyms = s.nSyms := by
    unfold repeatFirst
    rw [if_neg (fun hfree : first 0 = false ∧ _ => absurd hfree.1 (by decide))]
    split_ifs <;> exact ⟨rfl,rfl⟩
  rw [merge_different,hkept.1]
  · exact hr.ne'
  · intro hall
    have hwidth := (hall 1 (by rw [hkept.1]; exact hr) le_rfl).1
    rw [hkept.2,(h.done 1 le_rfl (by omega)).1.nSyms,h.first.nSyms] at hwidth
    omega

lemma finish_two (h : Canonized env row 2 t N N s) (hr : 1 < r) (hrN : r ≤ N) (hone : ¬ Blank row 2 1) :
    ((∀ i < r, 1 ≤ i → env.two (coreSym row (laterPlace 2 i)) (coreSym row (laterPlace 2 i+1)) = (coreSym row 0,coreSym row 1)) →
      env.merge first 2 (repeatFirst first { s with nGroups := r }) = { s with nGroups := 1 }) ∧
    (∀ i < r, 1 ≤ i → env.two (coreSym row (laterPlace 2 i)) (coreSym row (laterPlace 2 i+1)) ≠ (coreSym row 0,coreSym row 1) →
      (env.merge first 2 (repeatFirst first { s with nGroups := r })).nGroups ≠ 1) := by
  have hstay : repeatFirst first { s with nGroups := r } = { s with nGroups := r } :=
    if_neg fun hempty => hone ((h.done 1 le_rfl (by omega)).2.1 hempty.2.2)
  have hzero : s.syms 0 = coreSym row 0 := h.first.syms 0 (by decide)
  have hsecond : s.syms 1 = coreSym row 1 := h.first.syms 1 (by decide)
  rw [hstay]
  constructor
  · intro hall
    apply merge_identical _ hr
    · exact fun i hi hpos => (h.done i hpos (hi.trans_le hrN)).1.type
    · intro i hi hpos
      obtain ⟨-,hnSyms,hsyms⟩ := (h.done i hpos (hi.trans_le hrN)).1
      obtain ⟨ha,hb⟩ := Prod.mk.inj (hsyms.trans (hall i hi hpos))
      refine ⟨hnSyms.trans h.first.nSyms.symm,fun k hk => ?_⟩
      replace hk : k < 2 := hnSyms ▸ hk
      obtain rfl | rfl : k = 0 ∨ k = 1 := by omega
      · exact ha.trans hzero.symm
      · exact hb.trans hsecond.symm
  · intro i hi hpos hne
    rw [merge_different]
    · exact hr.ne'
    · intro hall
      obtain ⟨-,hsame⟩ := hall i hi hpos
      obtain ⟨-,hnSyms,hsyms⟩ := (h.done i hpos (hi.trans_le hrN)).1
      have ha := hsame 0 (by rw [hnSyms]; decide)
      have hb := hsame 1 (by rw [hnSyms]; decide)
      refine hne ?_
      rw [← hsyms,← hzero,← hsecond,← ha,← hb]
      rfl

/-- Only the first group is left, with its type and all its symbols. -/
def Survives (row : List KeySym) (W t : ℕ) (s : Decoding) : Prop :=
  s.nGroups = 1 ∧ s.types 0 = t ∧ ∀ i < W, s.syms i = coreSym row (firstPlace i)

/-- When only the first group is left. -/
structure Outcome (env : CaseEnv) (row : List KeySym) (W t : ℕ) (s : Decoding) : Prop where
  replicated : Replicated row W → Survives row W t s
  blank : ¬ Replicated row W → (∀ j < laterGroups W row.length, 1 ≤ j → Blank row W j) → Survives row W t s
  wide : ¬ Replicated row W → 3 ≤ W → ∀ j < laterGroups W row.length, 1 ≤ j → ¬ Blank row W j → s.nGroups ≠ 1
  same : ¬ Replicated row W → W = 2 → ∀ r ≤ laterGroups W row.length, 1 < r → ¬ Blank row W 1 →
    (∀ j < r, 1 ≤ j → env.two (coreSym row (laterPlace W j)) (coreSym row (laterPlace W j+1)) = (coreSym row 0,coreSym row 1)) →
    (∀ j < laterGroups W row.length, r ≤ j → Blank row W j) → Survives row W t s
  different : ¬ Replicated row W → W = 2 → ¬ Blank row W 1 → ∀ j < laterGroups W row.length, 1 ≤ j → ¬ Blank row W j →
    env.two (coreSym row (laterPlace W j)) (coreSym row (laterPlace W j+1)) ≠ (coreSym row 0,coreSym row 1) → s.nGroups ≠ 1

lemma outcome (ht : types 0 < env.levels.length) (hW : W = max 2 (env.levels.getD (types 0) 0))
    (hcase : env.expands (coreSym row 0) (coreSym row 1) = false) :
    Outcome env row W (types 0) (env.keyTypesForCoreSymbols row first types syms) := by
  have hW2 : 2 ≤ W := by omega
  have hwidth : env.groupsWidth first types = W := by rw [groupsWidth_first ht,hW]
  obtain ⟨hfirst₀,hone₀,hlater₀⟩ := @start_first env row types syms W ht hW
  obtain ⟨hfirst,hrep,hnot⟩ := split_first hW2 hfirst₀ hone₀ hlater₀
  generalize hs₀ : env.start row first types syms = s₀ at *
  unfold keyTypesForCoreSymbols
  dsimp only
  rw [hwidth,hs₀]
  generalize split row first W s₀ = s₁ at *
  have hall : ∀ j, 1 ≤ j → j < s₁.nGroups → Has row W Prod.mk s₁ j := by
    intro j hj hlt
    by_cases hr : Replicated row W
    · rw [hrep hr] at hlt
      omega
    · exact (hnot hr).2 j hj ((hnot hr).1 ▸ hlt)
  have hpos : 1 ≤ s₁.nGroups := by
    by_cases hr : Replicated row W
    · rw [hrep hr]
    · rw [(hnot hr).1]
      unfold laterGroups
      split_ifs <;> omega
  have hcan := foldl_canonize hW2 hcase hfirst hall rfl le_rfl
  generalize (List.range s₁.nGroups).foldl (env.canonize first W) s₁ = s at hcan ⊢
  obtain ⟨hone,hle,hempty,hlast⟩ := squoosh_first (s := s) hpos
  rw [hcan.nGroups]
  generalize squoosh first s s₁.nGroups = r at *
  rw [if_neg (by omega)]
  have hsurvives : r = 1 → Survives row W (types 0) (env.merge first W (repeatFirst first { s with nGroups := r })) := by
    rintro rfl
    rw [finish_one]
    exact ⟨rfl,hcan.first.type,hcan.first.syms⟩
  have hbelow : ∀ j < s₁.nGroups, 1 ≤ j → ¬ Blank row W j → j < r := by
    intro j hj hpos hnot
    by_contra hge
    exact hnot ((hcan.done j hpos hj).2.1 (hempty j (by omega) hj))
  have htop : 1 < r → ¬ Blank row W (r-1) := by
    intro hgt hblank
    have hfull := hlast.resolve_left hgt.ne'
    rw [(hcan.done (r-1) (by omega) (by omega)).2.2 hblank] at hfull
    cases hfull
  constructor
  · intro h
    rw [hrep h] at hle
    exact hsurvives (by omega)
  · intro h hblank
    rw [← (hnot h).1] at hblank
    obtain hr | hgt := Nat.eq_or_lt_of_le hone
    · exact hsurvives hr.symm
    · exact absurd (hblank (r-1) (by omega) (by omega)) (htop hgt)
  · intro h hwide j hj hpos hfull
    rw [← (hnot h).1] at hj
    have hjr := hbelow j hj hpos hfull
    exact finish_wide hcan hwide (by omega) hle
  · rintro h rfl r' hle' hgt' hfull hsame hblank
    rw [← (hnot h).1] at hle' hblank
    have hgt := hbelow 1 (by omega) le_rfl hfull
    have hrr : r ≤ r' := by
      by_contra hmore
      exact htop hgt (hblank (r-1) (by omega) (by omega))
    rw [(finish_two hcan hgt hle hfull).1 fun j hj hpos => hsame j (by omega) hpos]
    exact ⟨rfl,hcan.first.type,hcan.first.syms⟩
  · rintro h rfl hone j hj hpos hfull hne
    rw [← (hnot h).1] at hj
    have hgt := hbelow 1 (by omega) le_rfl hone
    exact (finish_two hcan hgt hle hone).2 j (hbelow j hj hpos hfull) hpos hne

end First

end CaseEnv

end Xlibre.Xkb
