import Xlibre.Lib.Rows
import Xlibre.Xkb.SetMap

/-! The symbols of the core keymap, from those of the groups of each key. -/
namespace Xlibre.Xkb
open Rows

abbrev KeySym := BitVec 32

def noSymbol : KeySym := 0

/-- `XkbSymMapRec`: a key's types, and where its symbols are. -/
structure XkbSymMapRec extends XkbSymMap where
  offset : ℕ := 0

/-- The part of `XkbDescRec` with the symbols of the keys; of the types there are their numbers of levels. -/
structure SymsDesc where
  minKeyCode : ℕ
  maxKeyCode : ℕ
  types : List ℕ
  keySymMap : ℕ → XkbSymMapRec
  syms : List KeySym

structure KeySymsRec where
  minKeyCode : ℕ
  maxKeyCode : ℕ
  mapWidth : ℕ
  map : List KeySym

/-- What the first pass over the keys finds. -/
structure CoreSizes where
  maxSymsPerKey : ℕ := 0
  maxGroup1Width : ℕ := 0
  maxNumberOfGroups : ℕ := 0

def coreWidth (nGroups : ℕ) (w : ℕ → ℕ) : ℕ :=
  let tmp := if nGroups > 0 then if w 0 ≤ 2 then 2 else w 0 + 2 else 0
  let tmp :=
    if nGroups > 1 then
      if tmp ≤ 2 then if w 1 < 2 then tmp + 2 else tmp + w 1
      else if w 1 > 2 then tmp + (w 1 - 2) else tmp
    else tmp
  let tmp := if nGroups > 2 then tmp + w 2 else tmp
  if nGroups > 3 then tmp + w 3 else tmp

/-- Groups one after the other. -/
def placeAll (row : List KeySym) (nOut : ℕ) : List (List KeySym) → Option (List KeySym)
  | [] => some row
  | g::gs => do placeAll (← place row nOut g) (nOut + g.length) gs

/-- A group over and over, as long as there is room. -/
def repeatWhole (mapWidth : ℕ) (g : List KeySym) (row : List KeySym) (idx : ℕ) : ℕ → Option (List KeySym)
  | 0 => some row
  | n+1 => do
    let out := g.take (mapWidth - idx)
    repeatWhole mapWidth g (← place row idx out) (idx + out.length) n

def replicateGroup (mapWidth maxNumberOfGroups : ℕ) (g : List KeySym) (row : List KeySym) : Option (List KeySym) := do
  let groupWidth := g.length
  let row ← (if groupWidth > 0 ∧ mapWidth ≥ 3 then copyBack row 2 2 1 else some row)
  let row ← (if groupWidth > 1 ∧ mapWidth ≥ 4 then copyBack row 2 3 1 else some row)
  let row ← (if groupWidth > 2 then
      copyBack row (groupWidth - 2) (2 + groupWidth) (min mapWidth (groupWidth*2) - (2 + groupWidth))
    else some row)
  let idx := 2*groupWidth
  repeatWhole mapWidth g row (if idx < 4 then 4 else idx) (maxNumberOfGroups - 2)

def fillRow (mapWidth maxNumberOfGroups : ℕ) (groups : List (List KeySym)) : Option (List KeySym) :=
  let row := List.replicate mapWidth noSymbol
  match groups with
  | [] => some row
  | g₁::rest => do
    let row ← place row 0 (g₁.take 2)
    let row ← place row 4 (g₁.drop 2)
    let nOut := (if g₁.length > 2 then g₁.length else 2) + 2
    match rest with
    | [] => replicateGroup mapWidth maxNumberOfGroups g₁ row
    | g₂::gs =>
      let row ← place row 2 (g₂.take 2)
      let row ← place row nOut (g₂.drop 2)
      placeAll row (if g₂.length > 2 then nOut + (g₂.length - 2) else nOut) gs

namespace SymsDesc

/-- `XkbKeyNumGroups` -/
def numGroups (d : SymsDesc) (key : ℕ) : ℕ := (d.keySymMap key).numGroups

/-- `XkbKeyGroupWidth` -/
def groupWidth (d : SymsDesc) (key g : ℕ) : ℕ := d.types.getD ((d.keySymMap key).ktIndex (Fin.ofNat 4 g)) 0

def groupStart (d : SymsDesc) (key g : ℕ) : ℕ := (d.keySymMap key).offset + (d.keySymMap key).width*g

def groupSyms (d : SymsDesc) (key g : ℕ) : List KeySym := (d.syms.drop (d.groupStart key g)).take (d.groupWidth key g)

def readGroup (d : SymsDesc) (key g : ℕ) : Option (List KeySym) :=
  if d.groupStart key g + d.groupWidth key g ≤ d.syms.length then some (d.groupSyms key g) else none

def keys (d : SymsDesc) : List ℕ := List.range' d.minKeyCode (d.maxKeyCode + 1 - d.minKeyCode)

/-- One key in the first pass. -/
def measure (d : SymsDesc) (s : CoreSizes) (key : ℕ) : CoreSizes :=
  let nGroups := d.numGroups key
  let tmp := coreWidth nGroups (d.groupWidth key)
  let w := d.groupWidth key 0
  { maxSymsPerKey := if tmp > s.maxSymsPerKey then tmp else s.maxSymsPerKey
    maxGroup1Width := if nGroups > 0 ∧ w > s.maxGroup1Width then w else s.maxGroup1Width
    maxNumberOfGroups := if nGroups > s.maxNumberOfGroups then nGroups else s.maxNumberOfGroups }

def coreSizes (d : SymsDesc) : CoreSizes := d.keys.foldl d.measure {}

/-- One key in the second pass. -/
def coreRow (d : SymsDesc) (mapWidth maxNumberOfGroups key : ℕ) : Option (List KeySym) := do
  fillRow mapWidth maxNumberOfGroups (← (List.range (d.numGroups key)).mapM (d.readGroup key))

/-- `XkbGetCoreMap`: outside is nothing where something would be read or written outside, inside where nothing is
returned. -/
def getCoreMap (d : SymsDesc) : Option (Option KeySymsRec) :=
  let s := d.coreSizes
  if s.maxSymsPerKey = 0 then some none
  else
    let mapWidth :=
      if s.maxSymsPerKey < s.maxNumberOfGroups*s.maxGroup1Width then s.maxNumberOfGroups*s.maxGroup1Width
      else s.maxSymsPerKey
    do
      let rows ← d.keys.mapM (d.coreRow mapWidth s.maxNumberOfGroups)
      some (some ⟨d.minKeyCode,d.maxKeyCode,mapWidth,rows.flatten⟩)

/-- The types of a key are there, none is wider than the key, and all symbols of the key are there. -/
structure WellFormed (d : SymsDesc) : Prop where
  range : d.minKeyCode ≤ d.maxKeyCode
  types : ∀ key ∈ d.keys, ∀ g < d.numGroups key, (d.keySymMap key).ktIndex (Fin.ofNat 4 g) < d.types.length
  groups : ∀ key ∈ d.keys, ∀ g < d.numGroups key, d.groupWidth key g ≤ (d.keySymMap key).width
  syms : ∀ key ∈ d.keys, (d.keySymMap key).offset + (d.keySymMap key).width*d.numGroups key ≤ d.syms.length

end SymsDesc

def KeySymsRec.row (s : KeySymsRec) (key : ℕ) : List KeySym := (s.map.drop ((key - s.minKeyCode)*s.mapWidth)).take s.mapWidth

/-- The first two symbols of a group, `noSymbol` for those it does not have. -/
def firstTwo (g : List KeySym) : List KeySym := (g ++ [noSymbol,noSymbol]).take 2

def coreLayout (g₁ g₂ : List KeySym) (gs : List (List KeySym)) : List KeySym :=
  firstTwo g₁ ++ firstTwo g₂ ++ g₁.drop 2 ++ g₂.drop 2 ++ gs.flatten

/-- Cut off or filled up to the width of the map. -/
def fit (mapWidth : ℕ) (l : List KeySym) : List KeySym := (l ++ List.replicate mapWidth noSymbol).take mapWidth

/-- `row` is what the groups of a key should come to, where the most groups of a key are `most`. -/
def LaysOut (mapWidth most : ℕ) (row : List KeySym) : List (List KeySym) → Prop
  | [] => row = fit mapWidth []
  | [g] => row = fit mapWidth (coreLayout g g (List.replicate (max 2 most - 2) g))
  | g₁::g₂::gs => (coreLayout g₁ g₂ gs).length ≤ mapWidth ∧ row = fit mapWidth (coreLayout g₁ g₂ gs)

section Rows
variable {W n i : ℕ} {g g₁ g₂ row row' : List KeySym} {gs : List (List KeySym)}

@[simp] lemma length_firstTwo : (firstTwo g).length = 2 := by
  unfold firstTwo
  simp

lemma firstTwo_eq : firstTwo g = g.take 2 ++ List.replicate (2 - (g.take 2).length) noSymbol := by
  obtain _ | ⟨a,_ | ⟨b,g⟩⟩ := g <;> rfl

@[simp] lemma length_fit {l : List KeySym} : (fit W l).length = W := by
  unfold fit
  simp

lemma placeAll_eq : placeAll row i gs = place row i gs.flatten := by
  induction gs generalizing row i with
  | nil => rfl
  | cons g gs ih =>
    rw [placeAll,List.flatten_cons,place_append]
    simp only [ih]
    rfl

lemma place_blank {a c : List KeySym} (h : g.length ≤ n) (hi : i = a.length) :
    place (a ++ (List.replicate n noSymbol ++ c)) i g =
      some (a ++ (g ++ (List.replicate (n - g.length) noSymbol ++ c))) := by
  have hsplit : List.replicate n noSymbol = List.replicate g.length noSymbol ++ List.replicate (n - g.length) noSymbol := by
    rw [List.replicate_append_replicate,Nat.add_sub_cancel' h]
  rw [hi,hsplit,List.append_assoc]
  exact place_segment (List.length_replicate ..)

lemma place_first {c : List KeySym} :
    ((place (List.replicate 2 noSymbol ++ (List.replicate 2 noSymbol ++ (List.replicate (g.drop 2).length noSymbol ++ c))) 0
        (g.take 2)).bind fun row => place row 4 (g.drop 2)) =
      some (firstTwo g ++ (List.replicate 2 noSymbol ++ (g.drop 2 ++ c))) := by
  have hfirst := place_blank (a := []) (i := 0) (n := 2) (g := g.take 2)
    (c := List.replicate 2 noSymbol ++ (List.replicate (g.drop 2).length noSymbol ++ c)) (by simp) rfl
  have hrest := place_blank (a := firstTwo g ++ List.replicate 2 noSymbol) (i := 4) (g := g.drop 2) (c := c) le_rfl (by simp)
  rw [List.nil_append,List.nil_append,← List.append_assoc (g.take 2),← firstTwo_eq] at hfirst
  rw [hfirst,Option.bind_some]
  simpa only [List.append_assoc,Nat.sub_self,List.replicate_zero,List.nil_append] using hrest

lemma place_start (g₁ g₂ c : List KeySym) :
    place (firstTwo g₁ ++ (List.replicate 2 noSymbol ++ c)) 2 (g₂.take 2) = some (firstTwo g₁ ++ (firstTwo g₂ ++ c)) := by
  have hfirst := place_blank (a := firstTwo g₁) (i := 2) (n := 2) (g := g₂.take 2) (c := c) (by simp) (by simp)
  rwa [← List.append_assoc (g₂.take 2),← firstTwo_eq] at hfirst

lemma place_rest (g₁ g₂ c : List KeySym) (hi : i = 4 + (g₁.drop 2).length) :
    place (firstTwo g₁ ++ (firstTwo g₂ ++ (g₁.drop 2 ++ (List.replicate (g₂.drop 2).length noSymbol ++ c)))) i (g₂.drop 2) =
      some (firstTwo g₁ ++ (firstTwo g₂ ++ (g₁.drop 2 ++ (g₂.drop 2 ++ c)))) := by
  have hrest := place_blank (a := firstTwo g₁ ++ firstTwo g₂ ++ g₁.drop 2) (i := i) (g := g₂.drop 2) (c := c) le_rfl
    (by rw [hi]; simp; omega)
  simpa only [List.append_assoc,Nat.sub_self,List.replicate_zero,List.nil_append] using hrest

lemma place_others (g₁ g₂ c : List KeySym) (gs : List (List KeySym)) (hi : i = 4 + (g₁.drop 2).length + (g₂.drop 2).length) :
    place (firstTwo g₁ ++ (firstTwo g₂ ++ (g₁.drop 2 ++ (g₂.drop 2 ++ (List.replicate gs.flatten.length noSymbol ++ c))))) i
        gs.flatten = some (coreLayout g₁ g₂ gs ++ c) := by
  have hothers := place_blank (a := firstTwo g₁ ++ firstTwo g₂ ++ g₁.drop 2 ++ g₂.drop 2) (i := i) (g := gs.flatten) (c := c)
    le_rfl (by rw [hi]; simp only [List.length_append,length_firstTwo])
  unfold coreLayout
  simpa only [List.append_assoc,Nat.sub_self,List.replicate_zero,List.nil_append] using hothers

lemma length_coreLayout :
    (coreLayout g₁ g₂ gs).length = 4 + (g₁.drop 2).length + (g₂.drop 2).length + gs.flatten.length := by
  unfold coreLayout
  simp only [List.length_append,length_firstTwo]

lemma fit_eq {l : List KeySym} (h : l.length ≤ W) : fit W l = l ++ List.replicate (W - l.length) noSymbol := by
  unfold fit
  rw [List.take_append,List.take_of_length_le h,List.take_replicate,Nat.min_eq_left (Nat.sub_le ..)]

lemma blank_eq (g₁ g₂ : List KeySym) (gs : List (List KeySym)) (h : W = (coreLayout g₁ g₂ gs).length + n) :
    List.replicate W noSymbol = List.replicate 2 noSymbol ++ (List.replicate 2 noSymbol ++
      (List.replicate (g₁.drop 2).length noSymbol ++ (List.replicate (g₂.drop 2).length noSymbol ++
        (List.replicate gs.flatten.length noSymbol ++ List.replicate n noSymbol)))) := by
  rw [length_coreLayout] at h
  simp only [List.replicate_append_replicate]
  rw [h]
  congr 1
  omega

lemma fillRow_groups (h : (coreLayout g₁ g₂ gs).length ≤ W) :
    fillRow W n (g₁::g₂::gs) = some (fit W (coreLayout g₁ g₂ gs)) := by
  have hnOut : (if g₁.length > 2 then g₁.length else 2) + 2 = 4 + (g₁.drop 2).length := by
    rw [List.length_drop]
    split_ifs <;> omega
  have hnOut' : (if g₂.length > 2 then 4 + (g₁.drop 2).length + (g₂.length - 2) else 4 + (g₁.drop 2).length) =
      4 + (g₁.drop 2).length + (g₂.drop 2).length := by
    rw [List.length_drop,List.length_drop]
    split_ifs <;> omega
  unfold fillRow
  simp only [hnOut,hnOut',placeAll_eq]
  rw [blank_eq g₁ g₂ gs (Nat.add_sub_cancel' h).symm]
  change Option.bind _ (fun row => Option.bind _ fun row => Option.bind _ fun row => Option.bind _ fun row => _) = _
  rw [← Option.bind_assoc,place_first,Option.bind_some,place_start,Option.bind_some,place_rest _ _ _ rfl,Option.bind_some,
    place_others _ _ _ _ rfl,fit_eq h]

lemma repeatWhole_eq {idx : ℕ} (h : place row i (List.replicate n g).flatten = some row')
    (hidx : idx = i ∨ W ≤ idx ∧ W ≤ i) : repeatWhole W g (row.take W) idx n = some (row'.take W) := by
  induction n generalizing row i idx with
  | zero => exact congrArg (Option.map (·.take W)) h
  | succ n ih =>
    rw [List.replicate_succ,List.flatten_cons,place_append] at h
    obtain ⟨mid,hmid,hrest⟩ := Option.bind_eq_some_iff.1 h
    have hplace : place (row.take W) idx (g.take (W - idx)) = some (mid.take W) := by
      have htake := place_take (n := W) hmid
      obtain rfl | ⟨hle,hle'⟩ := hidx
      · exact htake
      · rw [Nat.sub_eq_zero_of_le hle',List.take_zero,place_nil] at htake
        rw [Nat.sub_eq_zero_of_le hle,List.take_zero,place_nil,htake]
    rw [repeatWhole,hplace]
    apply ih hrest
    rw [List.length_take]
    omega

lemma copyBack_two (hlen : row.length = W) (hW : 2 ≤ W) (h : row.take 2 = firstTwo g) :
    ((if g.length > 0 ∧ W ≥ 3 then copyBack row 2 2 1 else some row).bind fun row =>
      if g.length > 1 ∧ W ≥ 4 then copyBack row 2 3 1 else some row) = place row 2 ((g.take 2).take (W-2)) := by
  obtain ⟨x,y,r,rfl⟩ : ∃ x y r, row = x::y::r := by
    obtain _ | ⟨x,_ | ⟨y,r⟩⟩ := row
    · exact absurd hlen (by simp; omega)
    · exact absurd hlen (by simp; omega)
    · exact ⟨x,y,r,rfl⟩
  obtain _ | ⟨a,_ | ⟨b,g⟩⟩ := g
  · simp
  · obtain ⟨rfl,-⟩ : x = a ∧ y = noSymbol := by simpa [firstTwo] using h
    obtain rfl | h₃ : W = 2 ∨ 3 ≤ W := by omega
    · simp
    · obtain ⟨k,hk⟩ : ∃ k, W - 2 = k + 1 := ⟨W - 3,by omega⟩
      rw [hk]
      simp [h₃,copyBack,place]
  · obtain ⟨rfl,rfl⟩ : x = a ∧ y = b := by simpa [firstTwo] using h
    obtain rfl | rfl | h₄ : W = 2 ∨ W = 3 ∨ 4 ≤ W := by omega
    · simp
    · simp [copyBack,place]
    · obtain ⟨k,hk⟩ : ∃ k, W - 2 = k + 2 := ⟨W - 4,by omega⟩
      rw [hk]
      obtain ⟨h₃,hr,hr'⟩ : 3 ≤ W ∧ 0 < r.length ∧ 3 < r.length + 1 + 1 := by
        rw [List.length_cons,List.length_cons] at hlen
        omega
      simp [h₃,h₄,hr,hr',copyBack,place]

lemma fillRow_single (hW : 2 ≤ W) (hwide : 2 < g.length → g.length + 2 ≤ W) :
    fillRow W n [g] = some (fit W (coreLayout g g (List.replicate (max 2 n - 2) g))) := by
  have hrepeat : (List.replicate (max 2 n - 2) g).flatten = (List.replicate (n-2) g).flatten := by
    rw [show max 2 n - 2 = n - 2 by omega]
  have hdrop : (g.drop 2).length = g.length - 2 := List.length_drop
  have hblank := blank_eq g g (List.replicate (max 2 n - 2) g) (n := W) rfl
  generalize hc : List.replicate (List.replicate (max 2 n - 2) g).flatten.length noSymbol ++ List.replicate W noSymbol = c at hblank
  -- The row as it would be if there was room for everything, one step after the other.
  obtain ⟨r₀,hr₀,hr₁⟩ := Option.bind_eq_some_iff.1
    (place_first (g := g) (c := List.replicate (g.drop 2).length noSymbol ++ c))
  rw [← hblank] at hr₀
  have hr₂ := place_start g g (g.drop 2 ++ (List.replicate (g.drop 2).length noSymbol ++ c))
  have hr₃ := place_rest g g c rfl
  have hlen₁ := (length_of_place hr₁).trans ((length_of_place hr₀).trans List.length_replicate)
  have hlen₂ := length_of_place hr₂
  have hr₄ := place_others g g (List.replicate W noSymbol) (List.replicate (max 2 n - 2) g) rfl
  rw [hc,hrepeat] at hr₄
  -- What is there of it.
  have hfirst := place_take (n := W) hr₀
  have htail := place_take (n := W) hr₁
  have htwo := place_take (n := W) hr₂
  have hback := place_take (n := W) hr₃
  rw [List.take_of_length_le (l := g.take 2) (by simp; omega),List.take_replicate,Nat.min_eq_left (by omega)] at hfirst
  rw [List.take_of_length_le (l := g.drop 2) (by simp; omega)] at htail
  have hmiddle : (if g.length > 2 then copyBack ((firstTwo g ++ (firstTwo g ++ (g.drop 2 ++
      (List.replicate (g.drop 2).length noSymbol ++ c)))).take W) (g.length - 2) (2 + g.length)
        (min W (g.length*2) - (2 + g.length)) else some ((firstTwo g ++ (firstTwo g ++ (g.drop 2 ++
      (List.replicate (g.drop 2).length noSymbol ++ c)))).take W)) =
      some ((firstTwo g ++ (firstTwo g ++ (g.drop 2 ++ (g.drop 2 ++ c)))).take W) := by
    split_ifs with hlong
    · have hroom := hwide hlong
      have hsource : ((((firstTwo g ++ (firstTwo g ++ (g.drop 2 ++ (List.replicate (g.drop 2).length noSymbol ++ c)))).take W).drop
          (2 + g.length - (g.length - 2))).take (min W (g.length*2) - (2 + g.length))) =
          (g.drop 2).take (W - (4 + (g.drop 2).length)) := by
        rw [List.drop_take,List.take_take,show 2 + g.length - (g.length - 2) = (firstTwo g ++ firstTwo g).length by simp; omega,
          ← List.append_assoc (firstTwo g),List.drop_left,List.take_append_of_le_length (by simp; omega)]
        apply List.take_eq_take_iff.2
        simp
        omega
      rw [copyBack_eq (by omega) (by omega),hsource,show 2 + g.length = 4 + (g.drop 2).length by omega,hback]
      rw [List.length_take,hlen₂,hlen₁]
      omega
    · have hnil : g.drop 2 = [] := List.drop_eq_nil_of_le (by omega)
      rw [hnil,List.take_nil,place_nil] at hback
      rwa [hnil]
  unfold fillRow
  dsimp only
  change Option.bind _ (fun row => Option.bind _ fun row => _) = _
  rw [hfirst,Option.bind_some,htail,Option.bind_some]
  unfold replicateGroup
  change Option.bind _ (fun row => Option.bind _ fun row => Option.bind _ fun row => _) = _
  rw [← Option.bind_assoc,copyBack_two (g := g),htwo,Option.bind_some,hmiddle,Option.bind_some]
  · rw [repeatWhole_eq hr₄]
    · rfl
    · left
      rw [hdrop]
      split_ifs <;> omega
  · rw [List.length_take,hlen₁]
    omega
  · exact hW
  · rw [List.take_take,Nat.min_eq_left hW]
    exact List.take_left' length_firstTwo

lemma coreWidth_one {w : ℕ → ℕ} : 2 ≤ coreWidth 1 w ∧ (2 < w 0 → w 0 + 2 ≤ coreWidth 1 w) := by
  have hone : coreWidth 1 w = if w 0 ≤ 2 then 2 else w 0 + 2 := rfl
  rw [hone]
  split_ifs <;> omega

lemma coreWidth_two {w : ℕ → ℕ} (h : 2 ≤ n) :
    coreWidth n w = 4 + (w 0 - 2) + (w 1 - 2) + (if n > 2 then w 2 else 0) + if n > 3 then w 3 else 0 := by
  unfold coreWidth
  dsimp only
  rw [if_pos (show n > 0 by omega),if_pos (show n > 1 by omega)]
  split_ifs <;> omega

lemma fillRow_laysOut {w : ℕ → ℕ} {k : ℕ} {groups : ℕ → List KeySym} (hk : k ≤ 4) (hlen : ∀ i < k, (groups i).length = w i)
    (hW : coreWidth k w ≤ W) : ∃ row, fillRow W n ((List.range k).map groups) = some row ∧ row.length = W ∧
      LaysOut W n row ((List.range k).map groups) := by
  obtain rfl | rfl | htwo : k = 0 ∨ k = 1 ∨ 2 ≤ k := by omega
  · exact ⟨_,rfl,List.length_replicate,(List.take_of_length_le (by simp)).symm⟩
  · have hone := hlen 0 Nat.one_pos
    obtain ⟨hroom,hwide⟩ := coreWidth_one (w := w)
    exact ⟨_,fillRow_single (g := groups 0) (by omega) (fun _ => by omega),length_fit,rfl⟩
  · obtain ⟨m,rfl⟩ := Nat.exists_eq_add_of_le' htwo
    have hgroups : (List.range (m+2)).map groups = groups 0::groups 1::(List.range m).map fun i => groups (i+2) := by
      rw [List.range_succ_eq_map,List.range_succ_eq_map]
      simp
    have hroom : (coreLayout (groups 0) (groups 1) ((List.range m).map fun i => groups (i+2))).length ≤ W := by
      rw [coreWidth_two (by omega)] at hW
      rw [length_coreLayout,List.length_drop,List.length_drop,hlen 0 (by omega),hlen 1 (by omega)]
      obtain rfl | rfl | rfl : m = 0 ∨ m = 1 ∨ m = 2 := by omega
      · simpa using hW
      · have htwo := hlen 2 (by omega)
        simp at hW ⊢
        omega
      · have htwo := hlen 2 (by omega)
        have hthree := hlen 3 (by omega)
        simp [List.range_succ] at hW ⊢
        omega
    rw [hgroups]
    exact ⟨_,fillRow_groups hroom,length_fit,hroom,rfl⟩

end Rows

namespace SymsDesc
variable {d : SymsDesc} {key W : ℕ} {s : CoreSizes} {l : List ℕ}

lemma mem_keys (h : d.WellFormed) : key ∈ d.keys ↔ d.minKeyCode ≤ key ∧ key ≤ d.maxKeyCode := by
  have hrange := h.range
  unfold keys
  rw [List.mem_range'_1]
  omega

lemma foldl_measure : s.maxSymsPerKey ≤ (l.foldl d.measure s).maxSymsPerKey ∧
    s.maxNumberOfGroups ≤ (l.foldl d.measure s).maxNumberOfGroups ∧
    (∀ key ∈ l, coreWidth (d.numGroups key) (d.groupWidth key) ≤ (l.foldl d.measure s).maxSymsPerKey ∧
      d.numGroups key ≤ (l.foldl d.measure s).maxNumberOfGroups) ∧
    ((l.foldl d.measure s).maxNumberOfGroups = s.maxNumberOfGroups ∨
      ∃ key ∈ l, d.numGroups key = (l.foldl d.measure s).maxNumberOfGroups) := by
  induction l generalizing s with
  | nil => simp
  | cons key l ih =>
    obtain ⟨hsyms,hgroups,hall,hmost⟩ := ih (s := d.measure s key)
    have hstep : s.maxSymsPerKey ≤ (d.measure s key).maxSymsPerKey ∧
        coreWidth (d.numGroups key) (d.groupWidth key) ≤ (d.measure s key).maxSymsPerKey ∧
        s.maxNumberOfGroups ≤ (d.measure s key).maxNumberOfGroups ∧
        d.numGroups key ≤ (d.measure s key).maxNumberOfGroups ∧
        ((d.measure s key).maxNumberOfGroups = s.maxNumberOfGroups ∨
          d.numGroups key = (d.measure s key).maxNumberOfGroups) := by
      unfold measure
      dsimp only
      split_ifs <;> omega
    rw [List.foldl_cons]
    refine ⟨by omega,by omega,?_,?_⟩
    · intro k hk
      obtain rfl | hk := List.mem_cons.1 hk
      · omega
      · exact hall k hk
    · obtain hmost | ⟨k,hk,hmost⟩ := hmost
      · obtain hsame | hsame := hstep.2.2.2.2
        · exact .inl (by omega)
        · exact .inr ⟨key,List.mem_cons_self,by omega⟩
      · exact .inr ⟨k,List.mem_cons_of_mem key hk,hmost⟩

lemma foldl_group1 (h : s.maxGroup1Width ≤ s.maxSymsPerKey ∧ s.maxSymsPerKey ≠ 3) :
    s.maxGroup1Width ≤ (l.foldl d.measure s).maxGroup1Width ∧
    (∀ key ∈ l, 0 < d.numGroups key → d.groupWidth key 0 ≤ (l.foldl d.measure s).maxGroup1Width) ∧
    (l.foldl d.measure s).maxGroup1Width ≤ (l.foldl d.measure s).maxSymsPerKey ∧ (l.foldl d.measure s).maxSymsPerKey ≠ 3 := by
  induction l generalizing s with
  | nil => exact ⟨le_rfl,nofun,h⟩
  | cons key l ih =>
    have hwidth : coreWidth (d.numGroups key) (d.groupWidth key) ≠ 3 ∧
        (0 < d.numGroups key → d.groupWidth key 0 ≤ coreWidth (d.numGroups key) (d.groupWidth key)) := by
      obtain hnone | hone | htwo : d.numGroups key = 0 ∨ d.numGroups key = 1 ∨ 2 ≤ d.numGroups key := by omega
      · rw [hnone]
        exact ⟨(by decide : 0 ≠ 3),nofun⟩
      · rw [hone]
        unfold coreWidth
        dsimp only
        split_ifs <;> omega
      · rw [coreWidth_two htwo]
        omega
    have hstep : s.maxGroup1Width ≤ (d.measure s key).maxGroup1Width ∧
        (0 < d.numGroups key → d.groupWidth key 0 ≤ (d.measure s key).maxGroup1Width) ∧
        (d.measure s key).maxGroup1Width ≤ (d.measure s key).maxSymsPerKey ∧ (d.measure s key).maxSymsPerKey ≠ 3 := by
      unfold measure
      dsimp only
      split_ifs <;> omega
    obtain ⟨hle,hall,hsyms⟩ := ih hstep.2.2
    rw [List.foldl_cons]
    refine ⟨by omega,fun k hk hn => ?_,hsyms⟩
    obtain rfl | hk := List.mem_cons.1 hk
    · exact (hstep.2.1 hn).trans hle
    · exact hall k hk hn

lemma mapM_some {α β : Type} {f : α → Option β} {r : α → β} {l : List α} (h : ∀ a ∈ l, f a = some (r a)) :
    l.mapM f = some (l.map r) := by
  induction l with
  | nil => rfl
  | cons a l ih =>
    rw [List.mapM_cons,h a List.mem_cons_self,ih fun b hb => h b (List.mem_cons_of_mem a hb)]
    rfl

lemma row_flatten {rows : List (List KeySym)} {row : List KeySym} {i : ℕ} (hlen : ∀ r ∈ rows, r.length = W)
    (h : rows[i]? = some row) : (rows.flatten.drop (i*W)).take W = row := by
  induction rows generalizing i with
  | nil => exact absurd h (by simp)
  | cons r rows ih =>
    have hr := hlen r List.mem_cons_self
    cases i with
    | zero =>
      obtain rfl : r = row := by simpa using h
      rw [Nat.zero_mul,List.drop_zero,List.flatten_cons,List.take_left' hr]
    | succ i =>
      have hrest := ih (fun r' h' => hlen r' (List.mem_cons_of_mem r h')) (i := i) (by simpa using h)
      rwa [List.flatten_cons,Nat.succ_mul,Nat.add_comm,← List.drop_drop,List.drop_left' hr]

lemma WellFormed.readGroup (h : d.WellFormed) (hkey : key ∈ d.keys) {g : ℕ} (hg : g < d.numGroups key) :
    d.readGroup key g = some (d.groupSyms key g) ∧ (d.groupSyms key g).length = d.groupWidth key g := by
  have hwidth := h.groups key hkey g hg
  have hsyms := h.syms key hkey
  have hmul : (d.keySymMap key).width*(g+1) ≤ (d.keySymMap key).width*d.numGroups key := Nat.mul_le_mul_left _ hg
  have hroom : d.groupStart key g + d.groupWidth key g ≤ d.syms.length := by
    unfold groupStart
    rw [Nat.mul_succ] at hmul
    omega
  unfold SymsDesc.readGroup groupSyms
  rw [if_pos hroom,List.length_take,List.length_drop]
  exact ⟨rfl,by omega⟩

lemma getCoreMap_row (h : d.WellFormed) (hfour : ∀ key ∈ d.keys, d.numGroups key ≤ 4) (hkey : key ∈ d.keys)
    (hn : 0 < d.numGroups key) : ∃ syms most, d.getCoreMap = some (some syms) ∧
      IsGreatest {n | ∃ key ∈ d.keys, d.numGroups key = n} most ∧ (syms.row key).length = syms.mapWidth ∧
      LaysOut syms.mapWidth most (syms.row key) ((List.range (d.numGroups key)).map (d.groupSyms key)) ∧
      (∀ k ∈ d.keys, coreWidth (d.numGroups k) (d.groupWidth k) ≤ syms.mapWidth) ∧
      most*d.groupWidth key 0 ≤ syms.mapWidth ∧ syms.mapWidth ≠ 3 := by
  obtain ⟨-,-,hall,hmost⟩ := foldl_measure (d := d) (s := {}) (l := d.keys)
  change (∀ key ∈ d.keys, coreWidth (d.numGroups key) (d.groupWidth key) ≤ d.coreSizes.maxSymsPerKey ∧
    d.numGroups key ≤ d.coreSizes.maxNumberOfGroups) at hall
  change d.coreSizes.maxNumberOfGroups = 0 ∨ ∃ key ∈ d.keys, d.numGroups key = d.coreSizes.maxNumberOfGroups at hmost
  obtain ⟨-,hfirst,hnarrow,hnot⟩ := foldl_group1 (d := d) (s := {}) (l := d.keys) ⟨le_rfl,by decide⟩
  change ∀ key ∈ d.keys, 0 < d.numGroups key → d.groupWidth key 0 ≤ d.coreSizes.maxGroup1Width at hfirst
  change d.coreSizes.maxGroup1Width ≤ d.coreSizes.maxSymsPerKey at hnarrow
  change d.coreSizes.maxSymsPerKey ≠ 3 at hnot
  have hsome := hall key hkey
  have hwide : 2 ≤ coreWidth (d.numGroups key) (d.groupWidth key) := by
    obtain hone | htwo : d.numGroups key = 1 ∨ 2 ≤ d.numGroups key := by omega
    · rw [hone]
      exact coreWidth_one.1
    · rw [coreWidth_two htwo]
      omega
  obtain ⟨W,hW,hwidth⟩ : ∃ W, (if d.coreSizes.maxSymsPerKey < d.coreSizes.maxNumberOfGroups*d.coreSizes.maxGroup1Width then
      d.coreSizes.maxNumberOfGroups*d.coreSizes.maxGroup1Width else d.coreSizes.maxSymsPerKey) = W ∧
      d.coreSizes.maxSymsPerKey ≤ W ∧ d.coreSizes.maxNumberOfGroups*d.coreSizes.maxGroup1Width ≤ W ∧
      (W = d.coreSizes.maxSymsPerKey ∨ W = d.coreSizes.maxNumberOfGroups*d.coreSizes.maxGroup1Width) :=
    ⟨_,rfl,by split_ifs <;> omega⟩
  obtain ⟨hwidth,hgroup1,heither⟩ := hwidth
  have hrow : ∀ k, ∃ row, k ∈ d.keys → fillRow W d.coreSizes.maxNumberOfGroups
      ((List.range (d.numGroups k)).map (d.groupSyms k)) = some row ∧ row.length = W ∧
      LaysOut W d.coreSizes.maxNumberOfGroups row ((List.range (d.numGroups k)).map (d.groupSyms k)) := by
    intro k
    by_cases hk : k ∈ d.keys
    · obtain ⟨row,hfill⟩ := fillRow_laysOut (hfour k hk) (fun g hg => (h.readGroup hk hg).2) ((hall k hk).1.trans hwidth)
      exact ⟨row,fun _ => hfill⟩
    · exact ⟨[],fun hk' => absurd hk' hk⟩
  choose row hrow using hrow
  have hmap : d.keys.mapM (d.coreRow W d.coreSizes.maxNumberOfGroups) = some (d.keys.map row) := by
    apply mapM_some
    intro k hk
    unfold coreRow
    rw [mapM_some fun g hg => (h.readGroup hk (List.mem_range.1 hg)).1]
    exact (hrow k hk).1
  have hmine : KeySymsRec.row ⟨d.minKeyCode,d.maxKeyCode,W,(d.keys.map row).flatten⟩ key = row key := by
    obtain ⟨hmin,hmax⟩ := (mem_keys h).1 hkey
    have hindex : (d.keys.map row)[key - d.minKeyCode]? = some (row key) := by
      unfold keys
      rw [List.getElem?_map,List.getElem?_range' (by omega),Option.map_some,Nat.one_mul,Nat.add_sub_cancel' hmin]
    apply row_flatten _ hindex
    intro r hr
    obtain ⟨k,hk,rfl⟩ := List.mem_map.1 hr
    exact (hrow k hk).2.1
  refine ⟨⟨d.minKeyCode,d.maxKeyCode,W,(d.keys.map row).flatten⟩,d.coreSizes.maxNumberOfGroups,?_,⟨?_,?_⟩,?_,?_,
    fun k hk => (hall k hk).1.trans hwidth,?_,?_⟩
  · unfold getCoreMap
    dsimp only
    rw [if_neg (by omega),hW,hmap]
    rfl
  · obtain hzero | hmost := hmost
    · omega
    · exact hmost
  · rintro _ ⟨k,hk,rfl⟩
    exact (hall k hk).2
  · rw [hmine]
    exact (hrow key hkey).2.1
  · rw [hmine]
    exact (hrow key hkey).2.2
  · exact (Nat.mul_le_mul_left _ (hfirst key hkey hn)).trans hgroup1
  · change W ≠ 3
    obtain hfew | hmany := Nat.lt_or_ge d.coreSizes.maxNumberOfGroups 2
    · have hle : d.coreSizes.maxNumberOfGroups*d.coreSizes.maxGroup1Width ≤ 1*d.coreSizes.maxGroup1Width :=
        Nat.mul_le_mul_right _ (by omega)
      omega
    · obtain hzero | ⟨k,hk,hmost⟩ := hmost
      · omega
      · have hfour := (hall k hk).1
        rw [coreWidth_two (hmost ▸ hmany)] at hfour
        omega

/-- Every key's symbols stand in its row, and nowhere else, as the protocol has them: with two groups or more those of the
groups one after the other, all of them; with one group those of a key with that group for all others. -/
theorem getCoreMap_laysOut (h : d.WellFormed) (hfour : ∀ key ∈ d.keys, d.numGroups key ≤ 4) (hkey : key ∈ d.keys)
    (hn : 0 < d.numGroups key) : ∃ syms most, d.getCoreMap = some (some syms) ∧
      IsGreatest {n | ∃ key ∈ d.keys, d.numGroups key = n} most ∧ (syms.row key).length = syms.mapWidth ∧
      LaysOut syms.mapWidth most (syms.row key) ((List.range (d.numGroups key)).map (d.groupSyms key)) := by
  obtain ⟨syms,most,hcore,hmost,hlength,hlays,-⟩ := getCoreMap_row h hfour hkey hn
  exact ⟨syms,most,hcore,hmost,hlength,hlays⟩

def oneBesideTwo : SymsDesc where
  minKeyCode := 8
  maxKeyCode := 9
  types := [1,5]
  keySymMap key :=
    if key = 8 then { ktIndex := fun _ => 1, groupInfo := 1, width := 5 }
    else { groupInfo := 2, width := 1, offset := 5 }
  syms := [0x41,0x42,0x43,0x44,0x45,0x61,0x62]

theorem getCoreMap_laysOut_oneBesideTwo : ∃ syms most, oneBesideTwo.getCoreMap = some (some syms) ∧
    IsGreatest {n | ∃ key ∈ oneBesideTwo.keys, oneBesideTwo.numGroups key = n} most ∧ (syms.row 8).length = syms.mapWidth ∧
    LaysOut syms.mapWidth most (syms.row 8)
      ((List.range (oneBesideTwo.numGroups 8)).map (oneBesideTwo.groupSyms 8)) :=
  getCoreMap_laysOut ⟨by decide,by decide,by decide,by decide⟩ (by decide) (by decide) (by decide)

example : oneBesideTwo.getCoreMap.map (Option.map KeySymsRec.map) =
    some (some ([0x41,0x42,0x41,0x42,0x43,0x44,0x45,0x43,0x44,0x45] ++ [0x61,0,0x62,0,0,0,0,0,0,0])) := by decide

end SymsDesc

end Xlibre.Xkb
