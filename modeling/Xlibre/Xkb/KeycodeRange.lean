import Xlibre.Xkb.CoreMap
import Xlibre.Xkb.VirtualMods

/-! A keyboard with more keycodes: the tables of the keys, and what is reported of them. -/
namespace Xlibre.Xkb
open Rows

/-- `MAP_LENGTH`: the entries of a table of keys. -/
def mapLength : ℕ := 256

def xkbKeyNamesMask : BitVec 32 := 1 <<< 9

structure XkbBehavior where
  type : BitVec 8 := 0
  data : BitVec 8 := 0

/-- The tables of `XkbDescRec` that have an entry for each key; one that is not allocated is none. -/
structure KeyTables where
  minKeyCode : ℕ
  maxKeyCode : ℕ
  keySymMap : Option (List XkbSymMapRec)
  modmap : Option (List (BitVec 8))
  behaviors : Option (List XkbBehavior)
  keyActs : Option (List (BitVec 16))
  vmodmap : Option (List (BitVec 16))
  keyNames : Option (List (BitVec 32))

/-- `XkbChangesRec`, as far as it is about keys. -/
structure KeyChanges where
  map : XkbMapChanges := {}
  minKeyCode : ℕ := 0
  maxKeyCode : ℕ := 0
  namesChanged : BitVec 32 := 0
  nameKeys : KeyRange := {}

inductive RangeError
  | badValue
  | badMatch

def extendRange {w : ℕ} (oldFlags flag : BitVec w) (newKC : ℕ) (old : KeyRange) : BitVec w × KeyRange :=
  if oldFlags &&& flag = 0 then (oldFlags ||| flag,⟨newKC,1⟩)
  else
    let last : ℤ := old.first + old.num - 1
    if newKC < old.first then (oldFlags,⟨newKC,card8 (last - newKC + 1)⟩)
    else if newKC > last then (oldFlags,⟨old.first,card8 (newKC - old.first + 1)⟩)
    else (oldFlags,old)

/-- Only for a table that is there. -/
def extendIf {w : ℕ} (there : Bool) (oldFlags flag : BitVec w) (newKC : ℕ) (old : KeyRange) : BitVec w × KeyRange :=
  if there then extendRange oldFlags flag newKC old else (oldFlags,old)

/-- `memset` to zero, of `n` entries from `start` on; nothing if the table is not that long. -/
def clearTable {α : Type} (zero : α) (start n : ℕ) : Option (List α) → Option (Option (List α))
  | none => some none
  | some table => (place table start (List.replicate n zero)).map some

namespace KeyTables
variable (d : KeyTables)

/-- The changes of the tables, which all get the same key. The first key of the virtual modifier map is put where that of
the modifier map is. -/
def reportMap (newKC : ℕ) (c : XkbMapChanges) : XkbMapChanges :=
  let s := extendIf d.keySymMap.isSome c.changed xkbKeySymsMask newKC c.keySyms
  let m := extendIf d.modmap.isSome s.1 xkbModifierMapMask newKC c.modMapKeys
  let b := extendIf d.behaviors.isSome m.1 xkbKeyBehaviorsMask newKC c.keyBehaviors
  let a := extendIf d.keyActs.isSome b.1 xkbKeyActionsMask newKC c.keyActs
  let v := extendIf d.vmodmap.isSome a.1 xkbVirtualModMapMask newKC ⟨m.2.first,c.vmodMapKeys.num⟩
  { c with
    changed := v.1
    keySyms := s.2
    modMapKeys := ⟨v.2.first,m.2.num⟩
    keyBehaviors := b.2
    keyActs := a.2
    vmodMapKeys.num := v.2.num }

def report (newKC : ℕ) (c : KeyChanges) : KeyChanges :=
  let n := extendIf d.keyNames.isSome c.namesChanged xkbKeyNamesMask newKC c.nameKeys
  { c with map := d.reportMap newKC c.map, namesChanged := n.1, nameKeys := n.2 }

/-- The same entries of every table. -/
def clear (start n : ℕ) : Option KeyTables := do
  let keySymMap ← clearTable {} start n d.keySymMap
  let modmap ← clearTable 0 start n d.modmap
  let behaviors ← clearTable {} start n d.behaviors
  let keyActs ← clearTable 0 start n d.keyActs
  let vmodmap ← clearTable 0 start n d.vmodmap
  let keyNames ← clearTable 0 start n d.keyNames
  some ⟨d.minKeyCode,d.maxKeyCode,keySymMap,modmap,behaviors,keyActs,vmodmap,keyNames⟩

def growBelow (minKC : ℕ) (changes : Option KeyChanges) : Option (KeyTables × Option KeyChanges) :=
  if minKC < d.minKeyCode then do
    let cleared ← d.clear minKC (d.minKeyCode - minKC)
    some ({ cleared with minKeyCode := minKC },changes.map fun c => { d.report minKC c with minKeyCode := minKC })
  else some (d,changes)

def growAbove (maxKC : ℕ) (changes : Option KeyChanges) : Option (KeyTables × Option KeyChanges) :=
  if maxKC > d.maxKeyCode then do
    let cleared ← d.clear d.maxKeyCode (mapLength - d.maxKeyCode)
    some ({ cleared with maxKeyCode := maxKC },changes.map fun c => { d.report maxKC c with maxKeyCode := maxKC })
  else some (d,changes)

/-- `XkbChangeKeycodeRange`; there is nothing after a write past the end of a table. -/
def changeKeycodeRange (minKC maxKC : ℕ) (changes : Option KeyChanges) :
    Option (Except RangeError (KeyTables × Option KeyChanges)) :=
  if minKC < xkbMinLegalKeyCode ∨ maxKC > xkbMaxLegalKeyCode then some (.error .badValue)
  else if minKC > maxKC then some (.error .badMatch)
  else do
    let (d,changes) ← d.growBelow minKC changes
    let r ← d.growAbove maxKC changes
    some (.ok r)

/-- The keys that the keyboard gets. -/
def Added (minKC maxKC key : ℕ) : Prop := minKC ≤ key ∧ key < d.minKeyCode ∨ d.maxKeyCode < key ∧ key ≤ maxKC

/-- The tables of a keyboard: those of the map have an entry for every legal key, the names for each key there was. -/
structure WellFormed (d : KeyTables) : Prop where
  range : d.minKeyCode ≤ d.maxKeyCode
  legal : xkbMinLegalKeyCode ≤ d.minKeyCode ∧ d.maxKeyCode ≤ xkbMaxLegalKeyCode
  keySymMap : ∀ l, d.keySymMap = some l → l.length = mapLength
  modmap : ∀ l, d.modmap = some l → l.length = mapLength
  behaviors : ∀ l, d.behaviors = some l → l.length = mapLength
  keyActs : ∀ l, d.keyActs = some l → l.length = mapLength
  vmodmap : ∀ l, d.vmodmap = some l → l.length = mapLength
  keyNames : ∀ l, d.keyNames = some l → d.maxKeyCode < l.length

def Keeps {α : Type} (d : KeyTables) (minKC maxKC : ℕ) (zero : α) (table table' : Option (List α)) : Prop :=
  ∀ l, table = some l → ∃ l', table' = some l' ∧ (∀ key, d.minKeyCode ≤ key → key ≤ d.maxKeyCode → l'[key]? = l[key]?) ∧
    ∀ key, d.Added minKC maxKC key → l'[key]? = some zero

structure KeepsKeys (d : KeyTables) (minKC maxKC : ℕ) (d' : KeyTables) : Prop where
  keySymMap : d.Keeps minKC maxKC {} d.keySymMap d'.keySymMap
  modmap : d.Keeps minKC maxKC 0 d.modmap d'.modmap
  behaviors : d.Keeps minKC maxKC {} d.behaviors d'.behaviors
  keyActs : d.Keeps minKC maxKC 0 d.keyActs d'.keyActs
  vmodmap : d.Keeps minKC maxKC 0 d.vmodmap d'.vmodmap
  keyNames : d.Keeps minKC maxKC 0 d.keyNames d'.keyNames

/-- What is reported for a table that is there has every key that was added. -/
def Covers {w : ℕ} (d : KeyTables) (minKC maxKC : ℕ) (there : Bool) (flags flag : BitVec w) (r : KeyRange) : Prop :=
  there = true → ∀ key, d.Added minKC maxKC key → flags &&& flag ≠ 0 ∧ r.Has key

structure Reports (d : KeyTables) (minKC maxKC : ℕ) (c : KeyChanges) : Prop where
  keySymMap : d.Covers minKC maxKC d.keySymMap.isSome c.map.changed xkbKeySymsMask c.map.keySyms
  modmap : d.Covers minKC maxKC d.modmap.isSome c.map.changed xkbModifierMapMask c.map.modMapKeys
  behaviors : d.Covers minKC maxKC d.behaviors.isSome c.map.changed xkbKeyBehaviorsMask c.map.keyBehaviors
  keyActs : d.Covers minKC maxKC d.keyActs.isSome c.map.changed xkbKeyActionsMask c.map.keyActs
  vmodmap : d.Covers minKC maxKC d.vmodmap.isSome c.map.changed xkbVirtualModMapMask c.map.vmodMapKeys
  keyNames : d.Covers minKC maxKC d.keyNames.isSome c.namesChanged xkbKeyNamesMask c.nameKeys

end KeyTables

section Tables
variable {α : Type} {d d' : KeyTables} {zero : α} {table table' : Option (List α)} {l : List α} {minKC maxKC start n : ℕ}

lemma isSome_clearTable (h : clearTable zero start n table = some table') : table'.isSome = table.isSome := by
  cases table with
  | none =>
    cases h
    rfl
  | some l =>
    obtain ⟨l',-,rfl⟩ := Option.map_eq_some_iff.1 h
    rfl

lemma clearTable_some (h : start + n ≤ l.length) : ∃ l', clearTable zero start n (some l) = some (some l') ∧
    l'.length = l.length ∧ (∀ key, key < start ∨ start + n ≤ key → l'[key]? = l[key]?) ∧
      ∀ key, start ≤ key → key < start + n → l'[key]? = some zero := by
  obtain ⟨l',hplace⟩ : ∃ l', place l start (List.replicate n zero) = some l' := place_isSome (by rwa [List.length_replicate])
  refine ⟨l',by rw [clearTable,hplace]; rfl,length_of_place hplace,fun key hkey => ?_,fun key hge hlt => ?_⟩
  · apply place_outside hplace
    rwa [List.length_replicate]
  · have hin := place_inside hplace (p := key - start) (by rw [List.length_replicate]; omega)
    rwa [List.getElem?_replicate_of_lt (by omega),show start + (key - start) = key by omega] at hin

structure EachTable (T : ∀ {α : Type}, α → Option (List α) → Option (List α) → Prop) (d d' : KeyTables) : Prop where
  keySymMap : T {} d.keySymMap d'.keySymMap
  modmap : T 0 d.modmap d'.modmap
  behaviors : T {} d.behaviors d'.behaviors
  keyActs : T 0 d.keyActs d'.keyActs
  vmodmap : T 0 d.vmodmap d'.vmodmap
  keyNames : T 0 d.keyNames d'.keyNames

section Each
variable {T U V : ∀ {α : Type}, α → Option (List α) → Option (List α) → Prop} {d₁ : KeyTables}

lemma EachTable.comp (h : EachTable T d d₁) (h' : EachTable U d₁ d')
    (hcomp : ∀ {α : Type} {zero : α} {t t₁ t'}, T zero t t₁ → U zero t₁ t' → V zero t t') : EachTable V d d' :=
  ⟨hcomp h.keySymMap h'.keySymMap,hcomp h.modmap h'.modmap,hcomp h.behaviors h'.behaviors,hcomp h.keyActs h'.keyActs,
    hcomp h.vmodmap h'.vmodmap,hcomp h.keyNames h'.keyNames⟩

lemma EachTable.and (h : EachTable T d d') (h' : EachTable U d d')
    (hand : ∀ {α : Type} {zero : α} {t t'}, T zero t t' → U zero t t' → V zero t t') : EachTable V d d' :=
  ⟨hand h.keySymMap h'.keySymMap,hand h.modmap h'.modmap,hand h.behaviors h'.behaviors,hand h.keyActs h'.keyActs,
    hand h.vmodmap h'.vmodmap,hand h.keyNames h'.keyNames⟩

lemma EachTable.between (h : EachTable (fun zero t t' => ∃ t₁, T zero t t₁ ∧ U zero t₁ t') d d') :
    ∃ d₁, EachTable T d d₁ ∧ EachTable U d₁ d' := by
  obtain ⟨⟨s,hs,hs'⟩,⟨m,hm,hm'⟩,⟨b,hb,hb'⟩,⟨a,ha,ha'⟩,⟨v,hv,hv'⟩,⟨k,hk,hk'⟩⟩ := h
  exact ⟨⟨0,0,s,m,b,a,v,k⟩,⟨hs,hm,hb,ha,hv,hk⟩,⟨hs',hm',hb',ha',hv',hk'⟩⟩

end Each

lemma clear_iff : d.clear start n = some d' ↔ EachTable (fun zero t t' => clearTable zero start n t = some t') d d' ∧
    d'.minKeyCode = d.minKeyCode ∧ d'.maxKeyCode = d.maxKeyCode := by
  unfold KeyTables.clear
  constructor
  · intro h
    obtain ⟨s,hs,h⟩ := Option.bind_eq_some_iff.1 h
    obtain ⟨m,hm,h⟩ := Option.bind_eq_some_iff.1 h
    obtain ⟨b,hb,h⟩ := Option.bind_eq_some_iff.1 h
    obtain ⟨a,ha,h⟩ := Option.bind_eq_some_iff.1 h
    obtain ⟨v,hv,h⟩ := Option.bind_eq_some_iff.1 h
    obtain ⟨k,hk,h⟩ := Option.bind_eq_some_iff.1 h
    cases h
    exact ⟨⟨hs,hm,hb,ha,hv,hk⟩,rfl,rfl⟩
  · intro ⟨⟨hs,hm,hb,ha,hv,hk⟩,hmin,hmax⟩
    simp only [hs,hm,hb,ha,hv,hk,Option.bind_eq_bind,Option.bind_some]
    rw [← hmin,← hmax]

def clearIf (p : Prop) [Decidable p] (zero : α) (start n : ℕ) (table : Option (List α)) : Option (Option (List α)) :=
  if p then clearTable zero start n table else some table

def growTable (d : KeyTables) (minKC maxKC : ℕ) (zero : α) (table : Option (List α)) : Option (Option (List α)) :=
  (clearIf (minKC < d.minKeyCode) zero minKC (d.minKeyCode - minKC) table).bind
    (clearIf (maxKC > d.maxKeyCode) zero d.maxKeyCode (mapLength - d.maxKeyCode))

lemma clearBelow (hd : d.WellFormed) (hlen : d.maxKeyCode < l.length) : ∃ l₁,
    clearIf (minKC < d.minKeyCode) zero minKC (d.minKeyCode - minKC) (some l) = some (some l₁) ∧
      l₁.length = l.length ∧ (∀ key, d.minKeyCode ≤ key → l₁[key]? = l[key]?) ∧
      ∀ key, minKC ≤ key → key < d.minKeyCode → l₁[key]? = some zero := by
  have hrange := hd.range
  unfold clearIf
  split_ifs with hlow
  · obtain ⟨l₁,hclear,hsame,hkeep,hzero⟩ : ∃ l₁, clearTable zero minKC (d.minKeyCode - minKC) (some l) = some (some l₁) ∧
        l₁.length = l.length ∧ (∀ key, key < minKC ∨ minKC + (d.minKeyCode - minKC) ≤ key → l₁[key]? = l[key]?) ∧
          ∀ key, minKC ≤ key → key < minKC + (d.minKeyCode - minKC) → l₁[key]? = some zero := clearTable_some (by omega)
    exact ⟨l₁,hclear,hsame,fun key hkey => hkeep key (by omega),fun key hge hlt => hzero key hge (by omega)⟩
  · exact ⟨l,rfl,rfl,fun _ _ => rfl,fun key hge hlt => by omega⟩

lemma growTable_iff (hd : d.WellFormed) (hmax : maxKC ≤ xkbMaxLegalKeyCode)
    (hlen : ∀ l, table = some l → d.maxKeyCode < l.length) :
    (∃ table', growTable d minKC maxKC zero table = some table' ∧ d.Keeps minKC maxKC zero table table') ↔
      ∀ l, table = some l → maxKC ≤ d.maxKeyCode ∨ mapLength ≤ l.length ∧ l[d.maxKeyCode]? = some zero := by
  have hrange := hd.range
  have hbyte : maxKC < mapLength := Nat.lt_succ_of_le hmax
  cases table with
  | none =>
    refine ⟨fun _ => nofun,fun _ => ⟨none,?_,nofun⟩⟩
    unfold growTable clearIf clearTable
    split_ifs <;> rfl
  | some l =>
    obtain ⟨l₁,hbelow,hsame,hkeep₁,hzero₁⟩ : ∃ l₁,
        clearIf (minKC < d.minKeyCode) zero minKC (d.minKeyCode - minKC) (some l) = some (some l₁) ∧ l₁.length = l.length ∧
          (∀ key, d.minKeyCode ≤ key → l₁[key]? = l[key]?) ∧
          ∀ key, minKC ≤ key → key < d.minKeyCode → l₁[key]? = some zero := clearBelow hd (hlen l rfl)
    unfold growTable
    rw [hbelow,Option.bind_some]
    unfold clearIf
    split_ifs with hhigh
    · obtain hshort | hlong := Nat.lt_or_ge l.length mapLength
      · have hnone : place l₁ d.maxKeyCode (List.replicate (mapLength - d.maxKeyCode) zero) = none := by
          apply place_none
          · rw [Ne,List.replicate_eq_nil_iff]
            omega
          · rw [List.length_replicate]
            omega
        constructor
        · rintro ⟨table',hclear,-⟩
          rw [clearTable,hnone] at hclear
          cases hclear
        · intro hlast
          have hlast := hlast l rfl
          omega
      · obtain ⟨l₂,hclear,-,hkeep₂,hzero₂⟩ : ∃ l₂, clearTable zero d.maxKeyCode (mapLength - d.maxKeyCode) (some l₁) =
            some (some l₂) ∧ l₂.length = l₁.length ∧
              (∀ key, key < d.maxKeyCode ∨ d.maxKeyCode + (mapLength - d.maxKeyCode) ≤ key → l₂[key]? = l₁[key]?) ∧
              ∀ key, d.maxKeyCode ≤ key → key < d.maxKeyCode + (mapLength - d.maxKeyCode) → l₂[key]? = some zero :=
          clearTable_some (by omega)
        have hcleared := hzero₂ d.maxKeyCode le_rfl (by omega)
        constructor
        · rintro ⟨table',htable,hkeeps⟩ l' hl'
          rw [hclear] at htable
          cases htable
          cases hl'
          obtain ⟨l',hl',hsame',-⟩ := hkeeps l rfl
          cases hl'
          exact .inr ⟨hlong,by rw [← hsame' d.maxKeyCode hrange le_rfl,hcleared]⟩
        · intro hlast
          have hempty : l[d.maxKeyCode]? = some zero := ((hlast l rfl).resolve_left (by omega)).2
          refine ⟨_,hclear,fun l' hl' => ⟨l₂,rfl,?_,?_⟩⟩
          · cases hl'
            intro key hge hle
            obtain rfl | hlt := Nat.eq_or_lt_of_le hle
            · rw [hcleared,hempty]
            · rw [hkeep₂ key (.inl hlt),hkeep₁ key hge]
          · rintro key (⟨hge,hlt⟩ | ⟨hgt,hle⟩)
            · rw [hkeep₂ key (.inl (by omega)),hzero₁ key hge hlt]
            · exact hzero₂ key hgt.le (by omega)
    · refine ⟨fun _ _ _ => .inl (by omega),fun _ => ⟨_,rfl,fun l' hl' => ?_⟩⟩
      cases hl'
      refine ⟨l₁,rfl,fun key hge _ => hkeep₁ key hge,?_⟩
      rintro key (⟨hge,hlt⟩ | ⟨hgt,hle⟩)
      · exact hzero₁ key hge hlt
      · omega

def ClearsTables (p : Prop) [Decidable p] (start n : ℕ) (d d' : KeyTables) : Prop :=
  EachTable (fun zero t t' => clearIf p zero start n t = some t') d d'

lemma clears_true {p : Prop} [Decidable p] (hp : p) :
    (ClearsTables p start n d d' ∧ d'.minKeyCode = d.minKeyCode ∧ d'.maxKeyCode = d.maxKeyCode) ↔ d.clear start n = some d' := by
  rw [clear_iff]
  unfold ClearsTables clearIf
  simp only [if_pos hp]

lemma clears_refl {p : Prop} [Decidable p] (hp : ¬ p) : ClearsTables p start n d d := by
  constructor <;> exact if_neg hp

lemma isSome_clearIf {p : Prop} [Decidable p] (h : clearIf p zero start n table = some table') :
    table'.isSome = table.isSome := by
  unfold clearIf at h
  split_ifs at h
  · exact isSome_clearTable h
  · rw [Option.some.inj h]

lemma ClearsTables.report {p : Prop} [Decidable p] (h : ClearsTables p start n d d') (newKC : ℕ) : d'.report newKC = d.report newKC := by
  funext c
  unfold KeyTables.report KeyTables.reportMap
  rw [isSome_clearIf h.keySymMap,isSome_clearIf h.modmap,isSome_clearIf h.behaviors,isSome_clearIf h.keyActs,
    isSome_clearIf h.vmodmap,isSome_clearIf h.keyNames]

lemma growBelow_clears {changes c : Option KeyChanges} (h : d.growBelow minKC changes = some (d',c)) :
    ClearsTables (minKC < d.minKeyCode) minKC (d.minKeyCode - minKC) d d' ∧ d'.maxKeyCode = d.maxKeyCode ∧
      c = if minKC < d.minKeyCode then changes.map fun c => { d.report minKC c with minKeyCode := minKC } else changes := by
  unfold KeyTables.growBelow at h
  split_ifs at h with hlow
  · obtain ⟨cleared,hclear,h⟩ := Option.bind_eq_some_iff.1 h
    obtain ⟨hs,-,hmax⟩ := (clears_true hlow).2 hclear
    cases h
    exact ⟨⟨hs.keySymMap,hs.modmap,hs.behaviors,hs.keyActs,hs.vmodmap,hs.keyNames⟩,hmax,(if_pos hlow).symm⟩
  · cases h
    exact ⟨clears_refl hlow,rfl,(if_neg hlow).symm⟩

lemma growAbove_clears {changes c : Option KeyChanges} (h : d.growAbove maxKC changes = some (d',c)) :
    ClearsTables (maxKC > d.maxKeyCode) d.maxKeyCode (mapLength - d.maxKeyCode) d d' ∧
      c = if maxKC > d.maxKeyCode then changes.map fun c => { d.report maxKC c with maxKeyCode := maxKC } else changes := by
  unfold KeyTables.growAbove at h
  split_ifs at h with hhigh
  · obtain ⟨cleared,hclear,h⟩ := Option.bind_eq_some_iff.1 h
    obtain ⟨hs,-⟩ := (clears_true hhigh).2 hclear
    cases h
    exact ⟨⟨hs.keySymMap,hs.modmap,hs.behaviors,hs.keyActs,hs.vmodmap,hs.keyNames⟩,(if_pos hhigh).symm⟩
  · cases h
    exact ⟨clears_refl hhigh,(if_neg hhigh).symm⟩

lemma ClearsTables.clear {p : Prop} [Decidable p] (hp : p) (h : ClearsTables p start n d d') : ∃ cleared, d.clear start n = some cleared :=
  ⟨{ d' with minKeyCode := d.minKeyCode, maxKeyCode := d.maxKeyCode },(clears_true hp).1
    ⟨⟨h.keySymMap,h.modmap,h.behaviors,h.keyActs,h.vmodmap,h.keyNames⟩,rfl,rfl⟩⟩

def KeyTables.reportAll (d : KeyTables) (minKC maxKC : ℕ) (c : KeyChanges) : KeyChanges :=
  let c := if minKC < d.minKeyCode then { d.report minKC c with minKeyCode := minKC } else c
  if maxKC > d.maxKeyCode then { d.report maxKC c with maxKeyCode := maxKC } else c

lemma EachTable.same {f : ∀ {α : Type}, α → Option (List α) → Option (Option (List α))} {d₁ d₂ : KeyTables}
    (h₁ : EachTable (fun zero t t' => f zero t = some t') d d₁) (h₂ : EachTable (fun zero t t' => f zero t = some t') d d₂) :
    d₁ = { d₂ with minKeyCode := d₁.minKeyCode, maxKeyCode := d₁.maxKeyCode } := by
  obtain ⟨hs,hm,hb,ha,hv,hk⟩ := h₁
  obtain ⟨hs',hm',hb',ha',hv',hk'⟩ := h₂
  rw [← Option.some.inj (hs.symm.trans hs'),← Option.some.inj (hm.symm.trans hm'),← Option.some.inj (hb.symm.trans hb'),
    ← Option.some.inj (ha.symm.trans ha'),← Option.some.inj (hv.symm.trans hv'),← Option.some.inj (hk.symm.trans hk')]

/-- Every table by itself. -/
def Grows (d : KeyTables) (minKC maxKC : ℕ) (d' : KeyTables) : Prop :=
  EachTable (fun zero t t' => growTable d minKC maxKC zero t = some t') d d'

variable {changes c : Option KeyChanges}

lemma changeKeycodeRange_grows (h : d.changeKeycodeRange minKC maxKC changes = some (.ok (d',c))) :
    Grows d minKC maxKC d' ∧ c = changes.map (d.reportAll minKC maxKC) := by
  unfold KeyTables.changeKeycodeRange at h
  split_ifs at h
  · cases h
  · cases h
  obtain ⟨⟨d₁,c₁⟩,hbelow,h⟩ := Option.bind_eq_some_iff.1 h
  obtain ⟨⟨d₂,c₂⟩,habove,h⟩ := Option.bind_eq_some_iff.1 h
  cases h
  obtain ⟨hs₁,hmax,hc₁⟩ := growBelow_clears hbelow
  obtain ⟨hs₂,hc₂⟩ := growAbove_clears habove
  rw [hmax] at hs₂ hc₂
  constructor
  · exact hs₁.comp hs₂ fun h h' => Option.bind_eq_some_iff.2 ⟨_,h,h'⟩
  · rw [hc₂,hc₁,hs₁.report]
    cases changes with
    | none => split_ifs <;> rfl
    | some c =>
      unfold KeyTables.reportAll
      split_ifs <;> rfl

lemma changeKeycodeRange_ok (hmin : xkbMinLegalKeyCode ≤ minKC) (hle : minKC ≤ maxKC) (hmax : maxKC ≤ xkbMaxLegalKeyCode)
    (h : Grows d minKC maxKC d') : ∃ r, d.changeKeycodeRange minKC maxKC changes = some (.ok r) := by
  obtain ⟨d₀,hs,hs'⟩ := (h.and h fun h _ => Option.bind_eq_some_iff.1 h).between
  have hbelow : ∃ d₁ c₁, d.growBelow minKC changes = some (d₁,c₁) := by
    unfold KeyTables.growBelow
    split_ifs with hlow
    · obtain ⟨cleared,hclear⟩ := ClearsTables.clear hlow hs
      rw [hclear]
      exact ⟨_,_,rfl⟩
    · exact ⟨_,_,rfl⟩
  obtain ⟨d₁,c₁,hbelow⟩ := hbelow
  obtain ⟨hs₁,hlast,-⟩ := growBelow_clears hbelow
  have hnext : ClearsTables (maxKC > d₁.maxKeyCode) d₁.maxKeyCode (mapLength - d₁.maxKeyCode) d₁ d' := by
    rw [hlast,hs₁.same hs]
    exact ⟨hs'.keySymMap,hs'.modmap,hs'.behaviors,hs'.keyActs,hs'.vmodmap,hs'.keyNames⟩
  have habove : ∃ r, d₁.growAbove maxKC c₁ = some r := by
    unfold KeyTables.growAbove
    split_ifs with hhigh
    · obtain ⟨cleared,hclear⟩ := hnext.clear hhigh
      rw [hclear]
      exact ⟨_,rfl⟩
    · exact ⟨_,rfl⟩
  obtain ⟨r,habove⟩ := habove
  refine ⟨r,?_⟩
  unfold KeyTables.changeKeycodeRange
  rw [if_neg (by omega),if_neg (by omega),hbelow]
  change Option.bind _ (fun r => _) = _
  rw [Option.bind_some]
  change Option.bind _ (fun r => _) = _
  rw [habove,Option.bind_some]

structure KeyTables.EmptyLast (d : KeyTables) : Prop where
  keySymMap : ∀ l, d.keySymMap = some l → l[d.maxKeyCode]? = some {}
  modmap : ∀ l, d.modmap = some l → l[d.maxKeyCode]? = some 0
  behaviors : ∀ l, d.behaviors = some l → l[d.maxKeyCode]? = some {}
  keyActs : ∀ l, d.keyActs = some l → l[d.maxKeyCode]? = some 0
  vmodmap : ∀ l, d.vmodmap = some l → l[d.maxKeyCode]? = some 0
  keyNames : ∀ l, d.keyNames = some l → mapLength ≤ l.length ∧ l[d.maxKeyCode]? = some 0

lemma emptyLast_iff (hd : d.WellFormed) : d.EmptyLast ↔
    EachTable (fun zero t _ => ∀ l, t = some l → mapLength ≤ l.length ∧ l[d.maxKeyCode]? = some zero) d d' := by
  constructor
  · intro h
    exact ⟨fun l hl => ⟨(hd.keySymMap l hl).ge,h.keySymMap l hl⟩,fun l hl => ⟨(hd.modmap l hl).ge,h.modmap l hl⟩,
      fun l hl => ⟨(hd.behaviors l hl).ge,h.behaviors l hl⟩,fun l hl => ⟨(hd.keyActs l hl).ge,h.keyActs l hl⟩,
      fun l hl => ⟨(hd.vmodmap l hl).ge,h.vmodmap l hl⟩,h.keyNames⟩
  · intro h
    exact ⟨fun l hl => (h.keySymMap l hl).2,fun l hl => (h.modmap l hl).2,fun l hl => (h.behaviors l hl).2,
      fun l hl => (h.keyActs l hl).2,fun l hl => (h.vmodmap l hl).2,h.keyNames⟩

lemma lastEntry (hd : d.WellFormed) : EachTable (fun _ t _ => ∀ l, t = some l → d.maxKeyCode < l.length) d d' := by
  have hfull : ∀ {n}, n = mapLength → d.maxKeyCode < n := fun hn => hn ▸ Nat.lt_succ_of_le hd.legal.2
  exact ⟨fun l hl => hfull (hd.keySymMap l hl),fun l hl => hfull (hd.modmap l hl),fun l hl => hfull (hd.behaviors l hl),
    fun l hl => hfull (hd.keyActs l hl),fun l hl => hfull (hd.vmodmap l hl),hd.keyNames⟩

lemma keepsKeys_each : d.KeepsKeys minKC maxKC d' ↔ EachTable (fun zero t t' => d.Keeps minKC maxKC zero t t') d d' :=
  ⟨fun h => ⟨h.keySymMap,h.modmap,h.behaviors,h.keyActs,h.vmodmap,h.keyNames⟩,
    fun h => ⟨h.keySymMap,h.modmap,h.behaviors,h.keyActs,h.vmodmap,h.keyNames⟩⟩

lemma keepsKeys_iff (hd : d.WellFormed) (hmin : xkbMinLegalKeyCode ≤ minKC) (hle : minKC ≤ maxKC)
    (hmax : maxKC ≤ xkbMaxLegalKeyCode) : (∃ d' c, d.changeKeycodeRange minKC maxKC changes = some (.ok (d',c)) ∧
      d.KeepsKeys minKC maxKC d') ↔ maxKC ≤ d.maxKeyCode ∨ d.EmptyLast := by
  constructor
  · rintro ⟨d',c,hrun,hk⟩
    obtain ⟨hg,-⟩ := changeKeycodeRange_grows hrun
    obtain hlast | hgt := le_or_gt maxKC d.maxKeyCode
    · exact .inl hlast
    · right
      rw [emptyLast_iff hd]
      refine (lastEntry hd).and (hg.and (keepsKeys_each.1 hk) And.intro) fun hlen h l hl => ?_
      exact ((growTable_iff hd hmax hlen).1 ⟨_,h⟩ l hl).resolve_left hgt.not_ge
  · intro h
    have hall : EachTable (fun zero t _ => ∀ l, t = some l → maxKC ≤ d.maxKeyCode ∨
        mapLength ≤ l.length ∧ l[d.maxKeyCode]? = some zero) d d := by
      obtain hlast | hempty := h
      · exact ⟨fun _ _ => .inl hlast,fun _ _ => .inl hlast,fun _ _ => .inl hlast,fun _ _ => .inl hlast,
          fun _ _ => .inl hlast,fun _ _ => .inl hlast⟩
      · exact (lastEntry hd).and ((emptyLast_iff hd).1 hempty) fun _ h l hl => .inr (h l hl)
    have hpair : EachTable (fun zero t _ => ∃ t', (growTable d minKC maxKC zero t = some t' ∧
        d.Keeps minKC maxKC zero t t') ∧ True) d d := by
      refine (lastEntry hd).and hall fun hlen h => ?_
      obtain ⟨t',ht'⟩ := (growTable_iff hd hmax hlen).2 h
      exact ⟨t',ht',trivial⟩
    obtain ⟨d₀,hboth,-⟩ := hpair.between (U := fun _ _ _ => True)
    have hg : Grows d minKC maxKC d₀ := hboth.and hboth fun h _ => h.1
    obtain ⟨⟨d',c⟩,hrun⟩ : ∃ r, d.changeKeycodeRange minKC maxKC changes = some (.ok r) :=
      changeKeycodeRange_ok hmin hle hmax hg
    obtain ⟨hg',-⟩ := changeKeycodeRange_grows hrun
    have hk : EachTable (fun zero t t' => d.Keeps minKC maxKC zero t t') d d₀ := hboth.and hboth fun h _ => h.2
    refine ⟨d',c,hrun,?_⟩
    rw [EachTable.same hg' hg]
    exact ⟨hk.keySymMap,hk.modmap,hk.behaviors,hk.keyActs,hk.vmodmap,hk.keyNames⟩

end Tables

section Reports
variable {w : ℕ} {flags m m' : BitVec w} {there : Bool} {newKC minKC maxKC lo n : ℕ} {r : KeyRange} {d : KeyTables}

/-- A table that is there is reported, with these keys. -/
def Marked (there : Bool) (flags m : BitVec w) (r : KeyRange) (lo n : ℕ) : Prop := there = true → flags &&& m = m ∧ r = ⟨lo,n⟩

lemma extendIf_and (h : m &&& m' = 0) : (extendIf there flags m newKC r).1 &&& m' = flags &&& m' := by
  unfold extendIf extendRange
  dsimp only
  split_ifs
  · rw [BitVec.and_or_distrib_right,h]
    exact BitVec.or_zero
  all_goals rfl

lemma marked_first (h : flags &&& m = 0) :
    Marked there (extendIf there flags m newKC r).1 m (extendIf there flags m newKC r).2 newKC 1 := by
  intro ht
  unfold extendIf extendRange
  rw [if_pos ht,if_pos h,BitVec.and_or_distrib_right,h,BitVec.and_self]
  exact ⟨BitVec.zero_or,rfl⟩

lemma marked_second (h : Marked there flags m r minKC 1) (hm : m ≠ 0) (hlt : minKC < newKC) (hbyte : newKC < minKC + 255) :
    Marked there (extendIf there flags m newKC r).1 m (extendIf there flags m newKC r).2 minKC (newKC - minKC + 1) := by
  intro ht
  obtain ⟨hflag,rfl⟩ := h ht
  unfold extendIf extendRange card8
  dsimp only
  rw [if_pos ht,if_neg (by rw [hflag]; exact hm),if_neg (by omega),if_pos (by omega)]
  refine ⟨hflag,?_⟩
  dsimp only
  congr 1
  omega

/-- The tables other than the virtual modifier map. -/
structure MarkedAll (d : KeyTables) (c : KeyChanges) (lo n : ℕ) : Prop where
  keySymMap : Marked d.keySymMap.isSome c.map.changed xkbKeySymsMask c.map.keySyms lo n
  modmap : Marked d.modmap.isSome c.map.changed xkbModifierMapMask c.map.modMapKeys lo n
  behaviors : Marked d.behaviors.isSome c.map.changed xkbKeyBehaviorsMask c.map.keyBehaviors lo n
  keyActs : Marked d.keyActs.isSome c.map.changed xkbKeyActionsMask c.map.keyActs lo n
  keyNames : Marked d.keyNames.isSome c.namesChanged xkbKeyNamesMask c.nameKeys lo n

lemma Marked.congr {flags' : BitVec w} (h : Marked there flags m r lo n) (hflags : flags' &&& m = flags &&& m) :
    Marked there flags' m r lo n := by
  intro ht
  rw [hflags]
  exact h ht

lemma report_first (hv : d.vmodmap = none) : MarkedAll d (d.report newKC {}) newKC 1 := by
  unfold KeyTables.report KeyTables.reportMap
  rw [hv]
  constructor
  · refine (marked_first (m := xkbKeySymsMask) (by decide)).congr ?_
    simp (disch := decide) only [extendIf_and]
  · refine (marked_first (m := xkbModifierMapMask) (by simp (disch := decide) only [extendIf_and]; decide)).congr ?_
    simp (disch := decide) only [extendIf_and]
  · refine (marked_first (m := xkbKeyBehaviorsMask) (by simp (disch := decide) only [extendIf_and]; decide)).congr ?_
    simp (disch := decide) only [extendIf_and]
  · refine (marked_first (m := xkbKeyActionsMask) (by simp (disch := decide) only [extendIf_and]; decide)).congr ?_
    simp (disch := decide) only [extendIf_and]
  · exact marked_first (by decide)

lemma report_second (hv : d.vmodmap = none) {c : KeyChanges} (h : MarkedAll d c minKC 1) (hlt : minKC < newKC)
    (hbyte : newKC < minKC + 255) : MarkedAll d (d.report newKC c) minKC (newKC - minKC + 1) := by
  unfold KeyTables.report KeyTables.reportMap
  rw [hv]
  constructor
  · refine (marked_second h.keySymMap (by decide) hlt hbyte).congr ?_
    simp (disch := decide) only [extendIf_and]
  · refine (marked_second (h.modmap.congr (by simp (disch := decide) only [extendIf_and])) (by decide) hlt hbyte).congr ?_
    simp (disch := decide) only [extendIf_and]
  · refine (marked_second (h.behaviors.congr (by simp (disch := decide) only [extendIf_and])) (by decide) hlt hbyte).congr ?_
    simp (disch := decide) only [extendIf_and]
  · refine (marked_second (h.keyActs.congr (by simp (disch := decide) only [extendIf_and])) (by decide) hlt hbyte).congr ?_
    simp (disch := decide) only [extendIf_and]
  · exact marked_second h.keyNames (by decide) hlt hbyte

structure MarkedElsewhere (d : KeyTables) (c : KeyChanges) (lo n : ℕ) : Prop where
  flag : c.map.changed &&& xkbVirtualModMapMask = xkbVirtualModMapMask
  elsewhere : c.map.modMapKeys.first = lo
  modmap : Marked d.modmap.isSome c.map.changed xkbModifierMapMask c.map.modMapKeys lo n
  keys : c.map.vmodMapKeys = ⟨0,n⟩

lemma elsewhere_first (hv : d.vmodmap.isSome = true) : MarkedElsewhere d (d.report newKC {}) newKC 1 := by
  have hvmod : ∀ (flags : BitVec 16) (r : KeyRange), flags &&& xkbVirtualModMapMask = 0 →
      Marked true (extendIf d.vmodmap.isSome flags xkbVirtualModMapMask newKC r).1 xkbVirtualModMapMask
        (extendIf d.vmodmap.isSome flags xkbVirtualModMapMask newKC r).2 newKC 1 := by
    intro flags r h
    rw [hv]
    exact marked_first h
  unfold KeyTables.report KeyTables.reportMap
  dsimp only
  constructor
  · exact (hvmod _ _ (by simp (disch := decide) only [extendIf_and]; decide) rfl).1
  · dsimp only
    rw [(hvmod _ _ (by simp (disch := decide) only [extendIf_and]; decide) rfl).2]
  · intro ht
    dsimp only
    rw [(hvmod _ _ (by simp (disch := decide) only [extendIf_and]; decide) rfl).2,extendIf_and (by decide),
      extendIf_and (by decide),extendIf_and (by decide),
      (marked_first (m := xkbModifierMapMask) (by simp (disch := decide) only [extendIf_and]; decide) ht).2]
    exact ⟨(marked_first (by simp (disch := decide) only [extendIf_and]; decide) ht).1,rfl⟩
  · dsimp only
    rw [(hvmod _ _ (by simp (disch := decide) only [extendIf_and]; decide) rfl).2]

lemma elsewhere_second (hv : d.vmodmap.isSome = true) {c : KeyChanges} (h : MarkedElsewhere d c minKC 1) (hlt : minKC < newKC)
    (hbyte : newKC < minKC + 255) : (d.report newKC c).map.vmodMapKeys = ⟨0,newKC - minKC + 1⟩ := by
  have hfirst : ∀ flags : BitVec 16, flags &&& xkbModifierMapMask = c.map.changed &&& xkbModifierMapMask →
      (extendIf d.modmap.isSome flags xkbModifierMapMask newKC c.map.modMapKeys).2.first = minKC := by
    intro flags hflags
    cases hm : d.modmap.isSome with
    | false => exact h.elsewhere
    | true =>
      have hmod := h.modmap
      rw [hm] at hmod
      rw [(marked_second (hmod.congr hflags) (by decide) hlt hbyte rfl).2]
  have hvmod : ∀ (flags : BitVec 16), flags &&& xkbVirtualModMapMask = c.map.changed &&& xkbVirtualModMapMask →
      (extendIf d.vmodmap.isSome flags xkbVirtualModMapMask newKC ⟨minKC,1⟩).2 = ⟨minKC,newKC - minKC + 1⟩ := by
    intro flags hflags
    have hmarked : Marked d.vmodmap.isSome flags xkbVirtualModMapMask ⟨minKC,1⟩ minKC 1 := fun _ => ⟨hflags.trans h.flag,rfl⟩
    exact (marked_second hmarked (by decide) hlt hbyte hv).2
  unfold KeyTables.report KeyTables.reportMap
  dsimp only
  rw [hfirst _ (by simp (disch := decide) only [extendIf_and]),h.keys,
    hvmod _ (by simp (disch := decide) only [extendIf_and])]

def KeyTables.HasTable (d : KeyTables) : Prop := d.keySymMap.isSome = true ∨ d.modmap.isSome = true ∨
  d.behaviors.isSome = true ∨ d.keyActs.isSome = true ∨ d.keyNames.isSome = true

lemma reports_iff (hv : d.vmodmap = none) {c : KeyChanges} (h : MarkedAll d c lo n) : d.Reports minKC maxKC c ↔
    (d.HasTable → ∀ key, d.Added minKC maxKC key → lo ≤ key ∧ key < lo + n) := by
  have hcovers : ∀ {w : ℕ} {there : Bool} {flags m : BitVec w} {r : KeyRange}, Marked there flags m r lo n → m ≠ 0 →
      (d.Covers minKC maxKC there flags m r ↔ (there = true → ∀ key, d.Added minKC maxKC key → lo ≤ key ∧ key < lo + n)) := by
    intro w there flags m r hm hne
    constructor
    · intro hc ht key hkey
      have hhas := (hc ht key hkey).2
      rw [(hm ht).2] at hhas
      exact hhas
    · intro hc ht key hkey
      obtain ⟨hflag,rfl⟩ := hm ht
      exact ⟨by rw [hflag]; exact hne,hc ht key hkey⟩
  constructor
  · intro hr
    rintro (ht | ht | ht | ht | ht)
    · exact (hcovers h.keySymMap (by decide)).1 hr.keySymMap ht
    · exact (hcovers h.modmap (by decide)).1 hr.modmap ht
    · exact (hcovers h.behaviors (by decide)).1 hr.behaviors ht
    · exact (hcovers h.keyActs (by decide)).1 hr.keyActs ht
    · exact (hcovers h.keyNames (by decide)).1 hr.keyNames ht
  · intro hall
    constructor
    · exact (hcovers h.keySymMap (by decide)).2 fun ht => hall (.inl ht)
    · exact (hcovers h.modmap (by decide)).2 fun ht => hall (.inr (.inl ht))
    · exact (hcovers h.behaviors (by decide)).2 fun ht => hall (.inr (.inr (.inl ht)))
    · exact (hcovers h.keyActs (by decide)).2 fun ht => hall (.inr (.inr (.inr (.inl ht))))
    · intro ht
      rw [hv] at ht
      cases ht
    · exact (hcovers h.keyNames (by decide)).2 fun ht => hall (.inr (.inr (.inr (.inr ht))))

lemma reportAll_vmodmap (hthere : d.vmodmap.isSome = true) (hrange : d.minKeyCode ≤ d.maxKeyCode) (hmin : 8 ≤ minKC)
    (hle : minKC ≤ maxKC) (hmax : maxKC ≤ 255) (hadd : minKC < d.minKeyCode ∨ d.maxKeyCode < maxKC) :
    ¬ d.Reports minKC maxKC (d.reportAll minKC maxKC {}) := by
  have hfirst : ∀ {newKC}, MarkedElsewhere d (d.report newKC {}) newKC 1 := elsewhere_first hthere
  intro hr
  have hhas := fun key hkey => (hr.vmodmap hthere key hkey).2
  unfold KeyTables.reportAll KeyRange.Has at hhas
  obtain hlow | hlow := Nat.lt_or_ge minKC d.minKeyCode <;> obtain hhigh | hhigh := Nat.lt_or_ge d.maxKeyCode maxKC
  · have hboth : (d.report maxKC { d.report minKC {} with minKeyCode := minKC }).map.vmodMapKeys = ⟨0,maxKC - minKC + 1⟩ :=
      elsewhere_second hthere ⟨hfirst.flag,hfirst.elsewhere,hfirst.modmap,hfirst.keys⟩ (by omega) (by omega)
    have hkey := hhas maxKC (.inr ⟨hhigh,le_rfl⟩)
    rw [if_pos hlow,if_pos hhigh] at hkey
    dsimp only at hkey
    rw [hboth] at hkey
    dsimp only at hkey
    omega
  · have hkey := hhas minKC (.inl ⟨le_rfl,hlow⟩)
    rw [if_pos hlow,if_neg hhigh.not_gt] at hkey
    dsimp only at hkey
    rw [hfirst.keys] at hkey
    dsimp only at hkey
    omega
  · have hkey := hhas maxKC (.inr ⟨hhigh,le_rfl⟩)
    rw [if_neg hlow.not_gt,if_pos hhigh] at hkey
    dsimp only at hkey
    rw [hfirst.keys] at hkey
    dsimp only at hkey
    omega
  · omega

lemma reportAll_both (hv : d.vmodmap = none) (hlow : minKC < d.minKeyCode) (hhigh : d.maxKeyCode < maxKC) (hlt : minKC < maxKC)
    (hbyte : maxKC < minKC + 255) : MarkedAll d (d.reportAll minKC maxKC {}) minKC (maxKC - minKC + 1) := by
  have hfirst : MarkedAll d (d.report minKC {}) minKC 1 := report_first hv
  have hsecond := report_second hv (c := { d.report minKC {} with minKeyCode := minKC })
    ⟨hfirst.keySymMap,hfirst.modmap,hfirst.behaviors,hfirst.keyActs,hfirst.keyNames⟩ hlt hbyte
  unfold KeyTables.reportAll
  rw [if_pos hlow,if_pos hhigh]
  exact ⟨hsecond.keySymMap,hsecond.modmap,hsecond.behaviors,hsecond.keyActs,hsecond.keyNames⟩

lemma reportAll_below (hv : d.vmodmap = none) (hlow : minKC < d.minKeyCode) (hhigh : maxKC ≤ d.maxKeyCode) :
    MarkedAll d (d.reportAll minKC maxKC {}) minKC 1 := by
  have hfirst : MarkedAll d (d.report minKC {}) minKC 1 := report_first hv
  unfold KeyTables.reportAll
  rw [if_pos hlow,if_neg hhigh.not_gt]
  exact ⟨hfirst.keySymMap,hfirst.modmap,hfirst.behaviors,hfirst.keyActs,hfirst.keyNames⟩

lemma reportAll_above (hv : d.vmodmap = none) (hlow : d.minKeyCode ≤ minKC) (hhigh : d.maxKeyCode < maxKC) :
    MarkedAll d (d.reportAll minKC maxKC {}) maxKC 1 := by
  have hfirst : MarkedAll d (d.report maxKC {}) maxKC 1 := report_first hv
  unfold KeyTables.reportAll
  rw [if_neg hlow.not_gt,if_pos hhigh]
  exact ⟨hfirst.keySymMap,hfirst.modmap,hfirst.behaviors,hfirst.keyActs,hfirst.keyNames⟩

lemma reportAll_iff (hd : d.WellFormed) (hmin : xkbMinLegalKeyCode ≤ minKC) (hle : minKC ≤ maxKC)
    (hmax : maxKC ≤ xkbMaxLegalKeyCode) : d.Reports minKC maxKC (d.reportAll minKC maxKC {}) ↔
      d.minKeyCode ≤ minKC ∧ maxKC ≤ d.maxKeyCode ∨ d.vmodmap = none ∧
        (¬ d.HasTable ∨ minKC < d.minKeyCode ∧ d.maxKeyCode < maxKC ∨ d.minKeyCode ≤ minKC + 1 ∧ maxKC ≤ d.maxKeyCode + 1) := by
  have hrange := hd.range
  have hlegal := hd.legal
  unfold xkbMinLegalKeyCode xkbMaxLegalKeyCode at *
  obtain ⟨hlow,hhigh⟩ | hadd : (d.minKeyCode ≤ minKC ∧ maxKC ≤ d.maxKeyCode) ∨ (minKC < d.minKeyCode ∨ d.maxKeyCode < maxKC) := by omega
  · have hnone : ∀ key, ¬ d.Added minKC maxKC key := by
      intro key hkey
      unfold KeyTables.Added at hkey
      omega
    refine ⟨fun _ => .inl ⟨hlow,hhigh⟩,fun _ => ?_⟩
    constructor <;> exact fun _ key hkey => absurd hkey (hnone key)
  · cases hv : d.vmodmap with
    | some l =>
      constructor
      · intro hr
        exact absurd hr (reportAll_vmodmap (by rw [hv]; rfl) hrange hmin hle hmax hadd)
      · rintro (hnone | ⟨hnone,-⟩)
        · omega
        · cases hnone
    | none =>
      have hiff : ∀ {lo n}, MarkedAll d (d.reportAll minKC maxKC {}) lo n → (d.Reports minKC maxKC (d.reportAll minKC maxKC {}) ↔
          (¬ d.HasTable ∨ ∀ key, d.Added minKC maxKC key → lo ≤ key ∧ key < lo + n)) := by
        intro lo n hm
        rw [reports_iff hv hm]
        exact imp_iff_not_or
      unfold KeyTables.Added at hiff
      obtain hlow | hlow := Nat.lt_or_ge minKC d.minKeyCode <;> obtain hhigh | hhigh := Nat.lt_or_ge d.maxKeyCode maxKC
      · rw [hiff (reportAll_both hv hlow hhigh (by omega) (by omega))]
        constructor
        · intro _
          exact .inr ⟨rfl,.inr (.inl ⟨hlow,hhigh⟩)⟩
        · intro _
          right
          intro key hkey
          omega
      · rw [hiff (reportAll_below hv hlow hhigh)]
        constructor
        · rintro (hnone | hall)
          · exact .inr ⟨rfl,.inl hnone⟩
          · have hkey := hall (d.minKeyCode - 1) (by omega)
            exact .inr ⟨rfl,.inr (.inr (by omega))⟩
        · rintro (hnone | ⟨-,hnone | hboth | hnext⟩)
          · omega
          · exact .inl hnone
          · omega
          · right
            intro key hkey
            omega
      · rw [hiff (reportAll_above hv hlow hhigh)]
        constructor
        · rintro (hnone | hall)
          · exact .inr ⟨rfl,.inl hnone⟩
          · have hkey := hall (d.maxKeyCode + 1) (by omega)
            exact .inr ⟨rfl,.inr (.inr (by omega))⟩
        · rintro (hnone | ⟨-,hnone | hboth | hnext⟩)
          · omega
          · exact .inl hnone
          · omega
          · right
            intro key hkey
            omega
      · omega

end Reports

namespace KeyTables
variable {d : KeyTables} {minKC maxKC : ℕ} {changes : Option KeyChanges}

/-- Keys are added without harm exactly when none come after the last one, or that one has nothing, and what is reported is
one key, or goes from the first to the last; the virtual modifier map is never reported right. The changes that the request
hands over are empty. -/
theorem changeKeycodeRange_keeps_iff (hd : d.WellFormed) (hmin : xkbMinLegalKeyCode ≤ minKC) (hle : minKC ≤ maxKC)
    (hmax : maxKC ≤ xkbMaxLegalKeyCode) (hchanges : ∀ c, changes = some c → c = {}) :
    (∃ d' c', d.changeKeycodeRange minKC maxKC changes = some (.ok (d',c')) ∧ d.KeepsKeys minKC maxKC d' ∧
      ∀ c, c' = some c → d.Reports minKC maxKC c) ↔
    (maxKC ≤ d.maxKeyCode ∨ d.EmptyLast) ∧ (changes = none ∨ d.minKeyCode ≤ minKC ∧ maxKC ≤ d.maxKeyCode ∨ d.vmodmap = none ∧
      (¬ d.HasTable ∨ minKC < d.minKeyCode ∧ d.maxKeyCode < maxKC ∨ d.minKeyCode ≤ minKC + 1 ∧ maxKC ≤ d.maxKeyCode + 1)) := by
  have htables : (∃ d' c, d.changeKeycodeRange minKC maxKC changes = some (.ok (d',c)) ∧ d.KeepsKeys minKC maxKC d') ↔
      maxKC ≤ d.maxKeyCode ∨ d.EmptyLast := keepsKeys_iff hd hmin hle hmax
  rw [← htables,← reportAll_iff hd hmin hle hmax]
  constructor
  · rintro ⟨d',c',hrun,hkeeps,hreports⟩
    refine ⟨⟨d',c',hrun,hkeeps⟩,?_⟩
    obtain ⟨-,rfl⟩ := changeKeycodeRange_grows hrun
    cases changes with
    | none => exact .inl rfl
    | some c =>
      rw [hchanges c rfl] at hreports
      exact .inr (hreports _ rfl)
  · rintro ⟨⟨d',c',hrun,hkeeps⟩,hreports⟩
    refine ⟨d',c',hrun,hkeeps,fun c hc => ?_⟩
    obtain ⟨-,rfl⟩ := changeKeycodeRange_grows hrun
    obtain ⟨c₀,rfl,rfl⟩ := Option.map_eq_some_iff.1 hc
    rw [hchanges c₀ rfl]
    exact hreports.resolve_left nofun

def fromNine : KeyTables where
  minKeyCode := 9
  maxKeyCode := 255
  keySymMap := some (List.replicate mapLength {})
  modmap := none
  behaviors := none
  keyActs := none
  vmodmap := none
  keyNames := none

/-- One key below the first. -/
theorem changeKeycodeRange_keeps_iff_one : ∃ d' c', fromNine.changeKeycodeRange 8 255 (some {}) = some (.ok (d',c')) ∧
    fromNine.KeepsKeys 8 255 d' ∧ ∀ c, c' = some c → fromNine.Reports 8 255 c :=
  (changeKeycodeRange_keeps_iff ⟨by decide,by decide,fun l hl => by cases hl; exact List.length_replicate,
    fun l hl => (by cases hl),fun l hl => (by cases hl),fun l hl => (by cases hl),fun l hl => (by cases hl),
    fun l hl => (by cases hl)⟩ (by decide) (by decide) (by decide) fun c hc => (Option.some.inj hc).symm).2
    ⟨.inl (by decide),.inr (.inr ⟨rfl,.inr (.inr (by decide))⟩)⟩

def controlLast : KeyTables where
  minKeyCode := 8
  maxKeyCode := 100
  keySymMap := none
  modmap := some ((List.replicate mapLength 0).set 100 4)
  behaviors := none
  keyActs := none
  vmodmap := none
  keyNames := none

/-- With keys up to 200 it is no modifier any more. -/
theorem controlLast_lost : ¬ ∃ d' c', controlLast.changeKeycodeRange 8 200 (some {}) = some (.ok (d',c')) ∧
    controlLast.KeepsKeys 8 200 d' ∧ ∀ c, c' = some c → controlLast.Reports 8 200 c := by
  rintro ⟨d',c',hrun,hkeeps,-⟩
  have hd : controlLast.WellFormed := ⟨by decide,by decide,nofun,fun l hl => by cases hl; simp,nofun,nofun,nofun,nofun⟩
  obtain hle | hlast := (keepsKeys_iff hd (by decide) (by decide) (by decide)).1 ⟨d',c',hrun,hkeeps⟩
  · exact absurd hle (by decide)
  · exact absurd (hlast.modmap _ rfl) (by decide)

end KeyTables

end Xlibre.Xkb
