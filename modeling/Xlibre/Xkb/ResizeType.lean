import Xlibre.Xkb.CoreMap

/-! A key type with another number of levels, and the symbols of the keys that have it. -/
namespace Xlibre.Xkb
open Rows

/-- What the request is answered with if it is not done. -/
inductive TypeError
  | badValue
  | badMatch

/-- The symbols with the number of them in use. There are as many as `size_syms`. -/
structure SymsPool extends SymsDesc where
  numSyms : ℕ

/-- The new symbols while the keys are copied one after the other. -/
structure Copying where
  newSyms : List KeySym
  nSyms : ℕ := 1
  offset : ℕ → ℕ
  matchingKeys : List ℕ := []

namespace SymsDesc
variable (d : SymsDesc)

/-- `XkbKeyNumSyms` -/
def keyNumSyms (key : ℕ) : ℕ := (d.keySymMap key).width*d.numGroups key

/-- `XkbKeyKeyTypeIndex` -/
def keyTypeIndex (key g : ℕ) : ℕ := (d.keySymMap key).ktIndex ⟨g % 4,Nat.mod_lt g (Nat.zero_lt_succ 3)⟩

/-- `XkbKeySymEntry` -/
def keySymEntry (key g l : ℕ) : Option KeySym := d.syms[d.groupStart key g + l]?

def usesType (t key : ℕ) : Bool := (List.range (d.numGroups key)).any fun g => d.keyTypeIndex key g = t

/-- Symbols that are copied from the old ones; none if they are not all there. -/
def readSyms (off n : ℕ) : Option (List KeySym) :=
  if n = 0 ∨ off + n ≤ d.syms.length then some ((d.syms.drop off).take n) else none

def copyGroups (key newNumLvls : ℕ) (newSyms : List KeySym) (nSyms : ℕ) : ℕ → Option (List KeySym)
  | 0 => some newSyms
  | g+1 => do
    let syms ← d.readSyms (d.groupStart key g) (d.keySymMap key).width
    copyGroups key newNumLvls (← place newSyms (nSyms + newNumLvls*g) syms) nSyms g

def copyKey (newNumLvls : ℕ) (s : Copying) (key : ℕ) : Option Copying :=
  if s.matchingKeys.head? = some key then do
    let newSyms ← d.copyGroups key newNumLvls s.newSyms s.nSyms (d.numGroups key)
    some ⟨newSyms,s.nSyms + d.numGroups key*newNumLvls,Function.update s.offset key (s.nSyms % 65536),s.matchingKeys.tail⟩
  else do
    let syms ← d.readSyms (d.keySymMap key).offset (d.keyNumSyms key)
    let newSyms ← place s.newSyms s.nSyms syms
    some ⟨newSyms,s.nSyms + d.keyNumSyms key,Function.update s.offset key (s.nSyms % 65536),s.matchingKeys⟩

def clearLevels (t firstClear key : ℕ) (syms : List KeySym) : ℕ → Option (List KeySym)
  | 0 => some syms
  | g+1 => do
    let nClear := (d.keySymMap key).width - firstClear
    let syms ← (if d.keyTypeIndex key g = t then place syms (d.groupStart key g + firstClear) (List.replicate nClear noSymbol)
      else some syms)
    clearLevels t firstClear key syms g

/-- The checks of `XkbResizeKeyType`; the first four types have one level, two, two and two. -/
def resizeError (typeNdx mapCount : ℤ) (newNumLvls : ℕ) : Option TypeError :=
  if typeNdx < 0 ∨ typeNdx ≥ d.types.length ∨ mapCount < 0 ∨ newNumLvls < 1 then some .badValue
  else if typeNdx = 0 then if newNumLvls ≠ 1 then some .badMatch else none
  else if typeNdx ≤ 3 then if newNumLvls ≠ 2 then some .badMatch else none
  else none

end SymsDesc

namespace SymsPool
variable (d : SymsPool)

/-- Only the keys that are as wide as the type was are looked at. -/
def resizeLevels (t newNumLvls : ℕ) : Option SymsPool :=
  let numLevels := d.types.getD t 0
  let types := d.types.set t (newNumLvls % 256)
  if newNumLvls > numLevels then
    let matchingKeys := d.keys.filter fun key =>
      (numLevels ≤ (d.keySymMap key).width ∧ (d.keySymMap key).width < newNumLvls) ∧ d.usesType t key
    if matchingKeys = [] then some { d with types }
    else do
      let nTotal := 1 + (d.keys.map fun key =>
        if key ∈ matchingKeys then d.numGroups key*newNumLvls else d.keyNumSyms key).sum
      let newSyms := List.replicate (nTotal*15/10 % 65536) noSymbol
      let s ← d.keys.foldlM (d.copyKey newNumLvls) ⟨newSyms,1,fun key => (d.keySymMap key).offset,matchingKeys⟩
      some { d with
        types
        syms := s.newSyms
        keySymMap key := { d.keySymMap key with offset := s.offset key }
        numSyms := s.nSyms % 65536 }
  else if newNumLvls < numLevels then do
    let matchingKeys := d.keys.filter fun key => numLevels ≤ (d.keySymMap key).width ∧ d.usesType t key
    let syms ← matchingKeys.foldlM (fun syms key => d.clearLevels t newNumLvls key syms (d.numGroups key)) d.syms
    some { d with types, syms }
  else some { d with types }

/-- `XkbResizeKeyType`; there is nothing after a read or a write outside of the symbols. -/
def resizeKeyType (typeNdx mapCount : ℤ) (newNumLvls : ℕ) : Option (Except TypeError SymsPool) :=
  match d.resizeError typeNdx mapCount newNumLvls with
  | some e => some (.error e)
  | none => (d.resizeLevels typeNdx.toNat newNumLvls).map .ok

/-- Each key is as wide as the types of its groups, and its symbols are its own. -/
structure WellFormed (d : SymsPool) : Prop where
  size : d.numSyms ≤ d.syms.length
  wide : ∀ key ∈ d.keys, ∀ g < d.numGroups key, d.groupWidth key g ≤ (d.keySymMap key).width
  inside : ∀ key ∈ d.keys, 0 < d.keyNumSyms key → (d.keySymMap key).offset + d.keyNumSyms key ≤ d.numSyms
  apart : ∀ key ∈ d.keys, ∀ key' ∈ d.keys, key ≠ key' → 0 < d.keyNumSyms key → 0 < d.keyNumSyms key' →
    (d.keySymMap key).offset + d.keyNumSyms key ≤ (d.keySymMap key').offset ∨
      (d.keySymMap key').offset + d.keyNumSyms key' ≤ (d.keySymMap key).offset

/-- The symbols can be read as before, and there are none at the levels that are new. -/
structure KeepsSyms (d d' : SymsPool) : Prop where
  kept : ∀ key ∈ d.keys, ∀ g < d.numGroups key, ∀ l < d.groupWidth key g, l < d'.groupWidth key g →
    d'.keySymEntry key g l = d.keySymEntry key g l
  gained : ∀ key ∈ d.keys, ∀ g < d.numGroups key, ∀ l < d'.groupWidth key g, d.groupWidth key g ≤ l →
    d'.keySymEntry key g l = some noSymbol
  wide : ∀ key ∈ d.keys, ∀ g < d.numGroups key, d'.groupWidth key g ≤ (d'.keySymMap key).width

end SymsPool

section Levels
variable {d d' : SymsPool} {syms syms' : List KeySym} {t w key g l n : ℕ}

lemma usesType_iff : d.usesType t key = true ↔ ∃ g < d.numGroups key, d.keyTypeIndex key g = t := by
  simp [SymsDesc.usesType]

lemma groupWidth_set (ht : t < d.types.length) :
    ({ d with types := d.types.set t n } : SymsPool).groupWidth key g =
      if d.keyTypeIndex key g = t then n else d.groupWidth key g := by
  change (d.types.set t n).getD (d.keyTypeIndex key g) 0 = _
  rw [List.getD_eq_getElem?_getD,List.getElem?_set]
  split_ifs with heq hlt heq
  · rfl
  · omega
  · omega
  · exact (List.getD_eq_getElem?_getD).symm

lemma group_le (hg : g < d.numGroups key) : d.groupStart key g + (d.keySymMap key).width ≤
    (d.keySymMap key).offset + d.keyNumSyms key := by
  have hmul := Nat.mul_le_mul_left (d.keySymMap key).width (Nat.succ_le_of_lt hg)
  rw [Nat.mul_succ] at hmul
  unfold SymsDesc.groupStart SymsDesc.keyNumSyms
  omega

lemma group_lt {g' : ℕ} (h : g < g') : d.groupStart key g + (d.keySymMap key).width ≤ d.groupStart key g' := by
  have hmul := Nat.mul_le_mul_left (d.keySymMap key).width (Nat.succ_le_of_lt h)
  rw [Nat.mul_succ] at hmul
  unfold SymsDesc.groupStart
  omega

lemma clearLevels_eq (hroom : ∀ g < n, d.groupStart key g + (d.keySymMap key).width ≤ syms.length) (hw : w ≤ (d.keySymMap key).width) :
    ∃ syms', d.clearLevels t w key syms n = some syms' ∧ syms'.length = syms.length ∧
      ∀ p, (∀ g < n, d.keyTypeIndex key g = t → p < d.groupStart key g + w ∨ d.groupStart key g + (d.keySymMap key).width ≤ p) →
        syms'[p]? = syms[p]? := by
  induction n generalizing syms with
  | zero => exact ⟨syms,rfl,rfl,fun _ _ => rfl⟩
  | succ n ih =>
    rw [SymsDesc.clearLevels]
    have hlast := hroom n (Nat.lt_succ_self n)
    split_ifs with ht
    · obtain ⟨cleared,hplace⟩ : ∃ cleared, place syms (d.groupStart key n + w)
          (List.replicate ((d.keySymMap key).width - w) noSymbol) = some cleared :=
        place_isSome (by rw [List.length_replicate]; omega)
      have hlen := length_of_place hplace
      have hroom' : ∀ g < n, d.groupStart key g + (d.keySymMap key).width ≤ cleared.length := by
        intro g hg
        rw [hlen]
        exact hroom g (Nat.lt_succ_of_lt hg)
      obtain ⟨syms',hclear,hlen',hkeep⟩ := ih hroom'
      refine ⟨syms',?_,hlen'.trans hlen,fun p hp => ?_⟩
      · change Option.bind _ (fun syms => _) = _
        rw [hplace,Option.bind_some,hclear]
      · rw [hkeep p fun g hg => hp g (Nat.lt_succ_of_lt hg)]
        apply place_outside hplace
        rw [List.length_replicate]
        obtain hlt | hge := hp n (Nat.lt_succ_self n) ht
        · exact .inl hlt
        · right
          omega
    · obtain ⟨syms',hclear,hlen',hkeep⟩ := ih fun g hg => hroom g (Nat.lt_succ_of_lt hg)
      exact ⟨syms',hclear,hlen',fun p hp => hkeep p fun g hg => hp g (Nat.lt_succ_of_lt hg)⟩

lemma foldlM_clearLevels {keys : List ℕ} (hw : ∀ key ∈ keys, w ≤ (d.keySymMap key).width)
    (hroom : ∀ key ∈ keys, ∀ g < d.numGroups key, d.groupStart key g + (d.keySymMap key).width ≤ syms.length) :
    ∃ syms', keys.foldlM (fun syms key => d.clearLevels t w key syms (d.numGroups key)) syms = some syms' ∧
      ∀ p, (∀ key ∈ keys, ∀ g < d.numGroups key, d.keyTypeIndex key g = t →
        p < d.groupStart key g + w ∨ d.groupStart key g + (d.keySymMap key).width ≤ p) → syms'[p]? = syms[p]? := by
  induction keys generalizing syms with
  | nil => exact ⟨syms,rfl,fun _ _ => rfl⟩
  | cons key keys ih =>
    obtain ⟨cleared,hclear,hlen,hkeep⟩ := clearLevels_eq (t := t) (hroom key (by simp)) (hw key (by simp))
    have hroom' : ∀ key ∈ keys, ∀ g < d.numGroups key, d.groupStart key g + (d.keySymMap key).width ≤ cleared.length := by
      intro key hkey g hg
      rw [hlen]
      exact hroom key (List.mem_cons_of_mem _ hkey) g hg
    obtain ⟨syms',hrest,hkeep'⟩ := ih (fun key hkey => hw key (List.mem_cons_of_mem _ hkey)) hroom'
    refine ⟨syms',?_,fun p hp => ?_⟩
    · rw [List.foldlM_cons,hclear]
      exact hrest
    · rw [hkeep' p fun key hkey => hp key (List.mem_cons_of_mem _ hkey),hkeep p (hp key (by simp))]

lemma kept_apart (h : d.WellFormed) (hkey : key ∈ d.keys) (hg : g < d.numGroups key) (hl : l < (d.keySymMap key).width)
    (hw : d.keyTypeIndex key g = t → l < w) {key' g' : ℕ} (hkey' : key' ∈ d.keys) (hg' : g' < d.numGroups key')
    (ht : d.keyTypeIndex key' g' = t) : d.groupStart key g + l < d.groupStart key' g' + w ∨
      d.groupStart key' g' + (d.keySymMap key').width ≤ d.groupStart key g + l := by
  have hin := group_le hg
  have hin' := group_le hg'
  have hstart : (d.keySymMap key).offset ≤ d.groupStart key g := Nat.le_add_right _ _
  have hstart' : (d.keySymMap key').offset ≤ d.groupStart key' g' := Nat.le_add_right _ _
  obtain rfl | hne := eq_or_ne key key'
  · obtain hlt | rfl | hgt := Nat.lt_trichotomy g g'
    · have hle : d.groupStart key g + (d.keySymMap key).width ≤ d.groupStart key g' := group_lt hlt
      omega
    · have hlw := hw ht
      omega
    · have hle : d.groupStart key g' + (d.keySymMap key).width ≤ d.groupStart key g := group_lt hgt
      omega
  · obtain hzero | hpos := Nat.eq_zero_or_pos (d.keySymMap key').width
    · omega
    · have happart := h.apart key hkey key' hkey' hne (Nat.mul_pos (by omega) (by omega)) (Nat.mul_pos hpos (by omega))
      omega

end Levels

namespace SymsPool
variable {d : SymsPool} {typeNdx mapCount : ℤ} {t newNumLvls : ℕ}

lemma types_of_accepted (h : d.resizeError typeNdx mapCount newNumLvls = none) : typeNdx.toNat < d.types.length := by
  unfold SymsDesc.resizeError at h
  by_contra hge
  rw [if_pos (by omega)] at h
  cases h

lemma mem_matching {p : ℕ → Prop} [DecidablePred p] {key : ℕ} :
    key ∈ d.keys.filter (fun key => p key ∧ d.usesType t key) ↔
      key ∈ d.keys ∧ p key ∧ ∃ g < d.numGroups key, d.keyTypeIndex key g = t := by
  rw [List.mem_filter,decide_eq_true_iff,usesType_iff]

lemma resizeLevels_shrink (h : d.WellFormed) (ht : t < d.types.length) (hlt : newNumLvls < d.types.getD t 0)
    (hbyte : newNumLvls < 256) : ∃ d', d.resizeLevels t newNumLvls = some d' ∧ KeepsSyms d d' := by
  have hw : ∀ key ∈ d.keys.filter (fun key => d.types.getD t 0 ≤ (d.keySymMap key).width ∧ d.usesType t key),
      newNumLvls ≤ (d.keySymMap key).width := by
    intro key hkey
    exact hlt.le.trans (mem_matching.1 hkey).2.1
  have hroom : ∀ key ∈ d.keys.filter (fun key => d.types.getD t 0 ≤ (d.keySymMap key).width ∧ d.usesType t key),
      ∀ g < d.numGroups key, d.groupStart key g + (d.keySymMap key).width ≤ d.syms.length := by
    intro key hkey g hg
    obtain ⟨hkey,hwidth,-⟩ := mem_matching.1 hkey
    have hgroup := group_le hg
    have hin := h.inside key hkey (Nat.mul_pos (by omega) (by omega))
    exact hgroup.trans (hin.trans h.size)
  obtain ⟨syms',hclear,hkeep⟩ := foldlM_clearLevels (t := t) hw hroom
  refine ⟨{ d with types := d.types.set t (newNumLvls % 256), syms := syms' },?_,?_⟩
  · unfold resizeLevels
    rw [if_neg hlt.not_gt,if_pos hlt]
    change Option.bind _ (fun syms => _) = _
    rw [hclear,Option.bind_some]
  · have hless : ∀ key g, ({ d with types := d.types.set t (newNumLvls % 256) } : SymsPool).groupWidth key g ≤
        d.groupWidth key g := by
      intro key g
      rw [groupWidth_set ht]
      split_ifs with hgt
      · rw [Nat.mod_eq_of_lt hbyte]
        subst hgt
        exact hlt.le
      · exact le_rfl
    refine ⟨fun key hkey g hg l hl hl' => ?_,fun key _ g _ l hl hge => ?_,fun key hkey g hg => ?_⟩
    · apply hkeep
      intro key' hkey' g' hg' hgt'
      refine kept_apart h hkey hg (hl.trans_le (h.wide key hkey g hg)) (fun hgt => ?_) (mem_matching.1 hkey').1 hg' hgt'
      have hnew : l < ({ d with types := d.types.set t (newNumLvls % 256) } : SymsPool).groupWidth key g := hl'
      rwa [groupWidth_set ht,if_pos hgt,Nat.mod_eq_of_lt hbyte] at hnew
    · exact absurd (hl.trans_le (hless key g)) hge.not_gt
    · exact (hless key g).trans (h.wide key hkey g hg)

lemma resizeLevels_grow (hge : d.types.getD t 0 ≤ newNumLvls)
    (hwide : ∀ key ∈ d.keys, ∀ g < d.numGroups key, d.keyTypeIndex key g = t → newNumLvls ≤ (d.keySymMap key).width) :
    d.resizeLevels t newNumLvls = some { d with types := d.types.set t (newNumLvls % 256) } := by
  unfold resizeLevels
  obtain heq | hgt := Nat.eq_or_lt_of_le hge
  · rw [if_neg (by omega),if_neg (by omega)]
  · have hnone : d.keys.filter (fun key => (d.types.getD t 0 ≤ (d.keySymMap key).width ∧
        (d.keySymMap key).width < newNumLvls) ∧ d.usesType t key) = [] := by
      rw [List.eq_nil_iff_forall_not_mem]
      intro key hkey
      obtain ⟨hkey,hwidth,g,hg,hgt⟩ := mem_matching.1 hkey
      exact (hwide key hkey g hg hgt).not_gt hwidth.2
    rw [if_pos hgt]
    dsimp only
    rw [if_pos hnone]

lemma resizeLevels_rebuild (h : d.WellFormed) (ht : t < d.types.length) (hbyte : newNumLvls < 256) {key g : ℕ}
    (hkey : key ∈ d.keys) (hg : g < d.numGroups key) (hgt : d.keyTypeIndex key g = t)
    (hwide : (d.keySymMap key).width < newNumLvls) {d' : SymsPool} (hd' : d.resizeLevels t newNumLvls = some d') :
    ¬ KeepsSyms d d' := by
  have hold : d.types.getD t 0 ≤ (d.keySymMap key).width := by
    have hle := h.wide key hkey g hg
    subst hgt
    exact hle
  have hsome : d.keys.filter (fun key => (d.types.getD t 0 ≤ (d.keySymMap key).width ∧
      (d.keySymMap key).width < newNumLvls) ∧ d.usesType t key) ≠ [] :=
    List.ne_nil_of_mem (mem_matching.2 ⟨hkey,⟨hold,hwide⟩,g,hg,hgt⟩)
  unfold resizeLevels at hd'
  rw [if_pos (by omega)] at hd'
  dsimp only at hd'
  rw [if_neg hsome] at hd'
  obtain ⟨s,-,hd'⟩ := Option.bind_eq_some_iff.1 hd'
  intro hkeeps
  have hle := hkeeps.wide key hkey g hg
  have hset : ({ d with types := d.types.set t (newNumLvls % 256) } : SymsPool).groupWidth key g = newNumLvls := by
    rw [groupWidth_set ht,if_pos hgt,Nat.mod_eq_of_lt hbyte]
  have hnew : d'.groupWidth key g = newNumLvls ∧ (d'.keySymMap key).width = (d.keySymMap key).width := by
    cases hd'
    exact ⟨hset,rfl⟩
  omega

/-- The symbols are kept exactly when each key with the type is wide enough already, and has no symbols at the levels
that its groups of the type get. A number of levels is a byte in the request. -/
theorem resizeKeyType_keepsSyms_iff (h : d.WellFormed) (hbyte : newNumLvls < 256) :
    (∃ r, d.resizeKeyType typeNdx mapCount newNumLvls = some r ∧ ∀ d', r = .ok d' → KeepsSyms d d') ↔
      d.resizeError typeNdx mapCount newNumLvls ≠ none ∨
        ∀ key ∈ d.keys, ∀ g < d.numGroups key, d.keyTypeIndex key g = typeNdx.toNat →
          newNumLvls ≤ (d.keySymMap key).width ∧
            ∀ l < newNumLvls, d.types.getD typeNdx.toNat 0 ≤ l → d.keySymEntry key g l = some noSymbol := by
  unfold resizeKeyType
  cases hrefuse : d.resizeError typeNdx mapCount newNumLvls with
  | some e =>
    dsimp only
    exact ⟨fun _ => .inl nofun,fun _ => ⟨_,rfl,nofun⟩⟩
  | none =>
    dsimp only
    have ht := types_of_accepted hrefuse
    generalize typeNdx.toNat = t at ht ⊢
    have hthis : (∃ r, (d.resizeLevels t newNumLvls).map Except.ok = some r ∧
        ∀ d', r = (.ok d' : Except TypeError SymsPool) → KeepsSyms d d') ↔ ∃ d', d.resizeLevels t newNumLvls = some d' ∧ KeepsSyms d d' := by
      constructor
      · rintro ⟨r,hr,hkeeps⟩
        obtain ⟨d',hd',rfl⟩ := Option.map_eq_some_iff.1 hr
        exact ⟨d',hd',hkeeps d' rfl⟩
      · rintro ⟨d',hd',hkeeps⟩
        refine ⟨_,by rw [hd']; rfl,fun d'' hd'' => ?_⟩
        cases hd''
        exact hkeeps
    rw [hthis]
    constructor
    · rintro ⟨d',hd',hkeeps⟩
      have hwide : ∀ key ∈ d.keys, ∀ g < d.numGroups key, d.keyTypeIndex key g = t → newNumLvls ≤ (d.keySymMap key).width :=
        fun key hkey g hg hgt => Nat.le_of_not_lt fun hlt => resizeLevels_rebuild h ht hbyte hkey hg hgt hlt hd' hkeeps
      refine .inr fun key hkey g hg hgt => ⟨hwide key hkey g hg hgt,fun l hl hold => ?_⟩
      rw [resizeLevels_grow (by omega) hwide] at hd'
      cases hd'
      apply hkeeps.gained key hkey g hg l
      · rwa [groupWidth_set ht,if_pos hgt,Nat.mod_eq_of_lt hbyte]
      · subst hgt
        exact hold
    · rintro (hne | hcond)
      · exact absurd rfl hne
      · obtain hlt | hge := Nat.lt_or_ge newNumLvls (d.types.getD t 0)
        · exact resizeLevels_shrink h ht hlt hbyte
        · refine ⟨_,resizeLevels_grow hge fun key hkey g hg hgt => (hcond key hkey g hg hgt).1,?_,?_,?_⟩
          · exact fun _ _ _ _ _ _ _ => rfl
          · intro key hkey g hg l hl hgl
            rw [groupWidth_set ht] at hl
            split_ifs at hl with hgt
            · rw [Nat.mod_eq_of_lt hbyte] at hl
              subst hgt
              exact (hcond key hkey g hg rfl).2 l hl hgl
            · omega
          · intro key hkey g hg
            rw [groupWidth_set ht]
            split_ifs with hgt
            · rw [Nat.mod_eq_of_lt hbyte]
              exact (hcond key hkey g hg hgt).1
            · exact h.wide key hkey g hg

/-- Two keys: one has a group of a type with three levels and one of a type with two, the other has only the latter. -/
def wideAndNarrow : SymsPool where
  minKeyCode := 8
  maxKeyCode := 9
  types := [1,2,2,2,3,2]
  keySymMap key :=
    if key = 8 then { ktIndex := fun g => if g.val = 0 then 4 else 5, groupInfo := 2, width := 3, offset := 1 }
    else { ktIndex := fun _ => 5, groupInfo := 1, width := 2, offset := 7 }
  syms := [0,0x41,0x42,0x43,0x61,0x62,0,0x71,0x72,0]
  numSyms := 9

lemma wideAndNarrow_wellFormed : wideAndNarrow.WellFormed := ⟨by decide,by decide,by decide,by decide⟩

/-- The first of the types loses a level. -/
theorem resizeKeyType_keepsSyms_iff_fewer :
    ∃ r, wideAndNarrow.resizeKeyType 4 1 2 = some r ∧ ∀ d', r = .ok d' → KeepsSyms wideAndNarrow d' :=
  (resizeKeyType_keepsSyms_iff wideAndNarrow_wellFormed (by decide)).2 (.inr (by decide))

/-- The other type gets a third level, and the second key is left with two. -/
theorem wideAndNarrow_tooNarrow : ∃ d', wideAndNarrow.resizeKeyType 5 1 3 = some (.ok d') ∧ ¬ KeepsSyms wideAndNarrow d' := by
  refine ⟨_,rfl,fun hkeeps => ?_⟩
  exact absurd (hkeeps.wide 9 (by decide) 0 (by decide)) (by decide)

end SymsPool

end Xlibre.Xkb
