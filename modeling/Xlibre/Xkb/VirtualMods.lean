import Mathlib.Data.List.FinRange

/-! The masks of modifiers that records keep for their virtual modifiers, and their refreshing when the bindings of the
virtual modifiers change. -/
namespace Xlibre.Xkb

/-- The low 8 bits of a number, as in a field of that size. -/
def card8 (n : ℤ) : ℕ := (n % 256).toNat

/-- The first of some keys, or types, and their number. -/
structure KeyRange where
  first : ℕ := 0
  num : ℕ := 0

/-- `XkbMapChangesRec` -/
structure XkbMapChanges where
  changed : BitVec 16 := 0
  types : KeyRange := {}
  keySyms : KeyRange := {}
  keyActs : KeyRange := {}
  keyBehaviors : KeyRange := {}
  keyExplicit : KeyRange := {}
  modMapKeys : KeyRange := {}
  vmodMapKeys : KeyRange := {}
  vmods : BitVec 16 := 0

/-- `XkbChangesRec` -/
structure XkbChanges where
  map : XkbMapChanges := {}
  changedCtrls : BitVec 32 := 0
  mapChanges : BitVec 32 := 0
  changedGroups : BitVec 32 := 0

def xkbKeyTypesMask : BitVec 16 := 1 <<< 0
def xkbKeySymsMask : BitVec 16 := 1 <<< 1
def xkbModifierMapMask : BitVec 16 := 1 <<< 2
def xkbExplicitComponentsMask : BitVec 16 := 1 <<< 3
def xkbKeyActionsMask : BitVec 16 := 1 <<< 4
def xkbKeyBehaviorsMask : BitVec 16 := 1 <<< 5
def xkbVirtualModsMask : BitVec 16 := 1 <<< 6
def xkbVirtualModMapMask : BitVec 16 := 1 <<< 7

def xkbIgnoreLockModsMask : BitVec 32 := 1 <<< 29
def xkbInternalModsMask : BitVec 32 := 1 <<< 28

structure XkbModsRec where
  mask : BitVec 8 := 0
  realMods : BitVec 8 := 0
  vmods : BitVec 16 := 0

/-- `XkbKTMapEntryRec`, without its level. -/
structure XkbKTMapEntry where
  active : Bool := true
  mods : XkbModsRec

/-- `XkbKeyTypeRec`, as far as it is about modifiers. -/
structure XkbKeyType where
  mods : XkbModsRec := {}
  map : List XkbKTMapEntry := []
  preserve : List XkbModsRec := []

inductive ModActionType
  | setMods | latchMods | lockMods | isoLock | other
  deriving DecidableEq

/-- `XkbModAction` and `XkbISOAction`. Other actions have no modifiers of their own. -/
structure XkbModAction where
  type : ModActionType := .other
  mods : XkbModsRec := {}

/-- The part of `XkbDescRec` that has to do with modifiers. What is not there is empty. -/
structure ModsDesc where
  minKeyCode : ℕ
  maxKeyCode : ℕ
  legal : 0 < minKeyCode ∧ maxKeyCode < 256
  vmods : Fin 16 → BitVec 8
  types : List XkbKeyType := []
  internal : XkbModsRec := {}
  ignoreLock : XkbModsRec := {}
  indicators : List XkbModsRec := []
  groups : List XkbModsRec := []
  /-- Where the actions of a key are; those of a key without actions are at 0. -/
  keyActs : ℕ → ℕ := fun _ => 0
  numActions : ℕ → ℕ := fun _ => 0
  acts : ℕ → XkbModAction := fun _ => {}

section Update
variable (vmods : Fin 16 → BitVec 8) (changed : BitVec 32)

/-- `XkbVirtualModsToReal` -/
def virtualModsToReal (virtualMask : BitVec 32) : BitVec 8 :=
  (List.finRange 16).foldl (fun mask (i : Fin 16) => if virtualMask.getLsbD i then mask ||| vmods i else mask) 0

namespace XkbModsRec

/-- The mask that the record should have. -/
def bound (r : XkbModsRec) : BitVec 8 := r.realMods ||| virtualModsToReal vmods (r.vmods.setWidth 32)

def refresh (r : XkbModsRec) : XkbModsRec := { r with mask := r.bound vmods }

/-- One of the record's virtual modifiers is among those that changed. -/
def hit (r : XkbModsRec) : Bool := r.vmods.setWidth 32 &&& changed ≠ 0

/-- A new mask, if it is another one; whether it is. -/
def renew (r : XkbModsRec) : XkbModsRec × Bool := if r.mask ≠ r.bound vmods then (r.refresh vmods,true) else (r,false)

end XkbModsRec

/-- `XkbUpdateActionVirtualMods`. What the action has for virtual modifiers comes as a signed number. -/
def updateActionVirtualMods (act : XkbModAction) : XkbModAction × Bool :=
  let tmp := act.mods.vmods.signExtend 32
  let updated : XkbModAction := { act with mods.mask := act.mods.realMods ||| virtualModsToReal vmods tmp }
  match act.type with
  | .setMods | .latchMods | .lockMods => if tmp &&& changed ≠ 0 then (updated,true) else (act,false)
  -- Here it is the comparison with 0 that is masked.
  | .isoLock => if (if tmp ≠ 0 then 1 else 0) &&& changed ≠ 0 then (updated,true) else (act,false)
  | .other => (act,false)

/-- The entries of a type's map; an entry is active if its virtual modifiers are bound to anything. -/
def XkbKTMapEntry.update (entry : XkbKTMapEntry) : XkbKTMapEntry :=
  if entry.mods.vmods ≠ 0 then
    ⟨virtualModsToReal vmods (entry.mods.vmods.setWidth 32) ≠ 0,entry.mods.refresh vmods⟩
  else { entry with active := true }

/-- What `XkbUpdateKeyTypeVirtualMods` makes of the type. -/
def XkbKeyType.updateVirtualMods (type : XkbKeyType) : XkbKeyType :=
  { type with
    mods := type.mods.refresh vmods
    map := if type.map.length > 0 ∧ type.mods.vmods ≠ 0 then type.map.map (·.update vmods) else type.map }

/-- What it notes. -/
def XkbMapChanges.addType (changes : XkbMapChanges) (ndx : ℕ) : XkbMapChanges :=
  if changes.changed &&& xkbKeyTypesMask ≠ 0 then
    let last : ℤ := changes.types.first + changes.types.num - 1
    if ndx < changes.types.first then { changes with types := ⟨ndx,card8 (last - ndx + 1)⟩ }
    else if ndx > last then { changes with types.num := card8 (ndx - changes.types.first + 1) }
    else changes
  else { changes with changed := changes.changed ||| xkbKeyTypesMask, types := ⟨ndx,1⟩ }

/-- The types from `ndx` on. -/
def updateTypes (ndx : ℕ) (changes : Option XkbChanges) : List XkbKeyType → List XkbKeyType × Option XkbChanges
  | [] => ([],changes)
  | type::types =>
    if type.mods.hit changed then
      let rest := updateTypes (ndx+1) (changes.map fun c => { c with map := c.map.addType ndx }) types
      (type.updateVirtualMods vmods::rest.1,rest.2)
    else
      let rest := updateTypes (ndx+1) changes types
      (type::rest.1,rest.2)

/-- The affected ones of some records from `ndx` on, and the bits of those with a new mask. -/
def renewAll (affected : XkbModsRec → Bool) (ndx : ℕ) : List XkbModsRec → List XkbModsRec × BitVec 32
  | [] => ([],0)
  | r::rs =>
    let rest := renewAll affected (ndx+1) rs
    if affected r then
      ((r.renew vmods).1::rest.1,if (r.renew vmods).2 then 1 <<< ndx ||| rest.2 else rest.2)
    else (r::rest.1,rest.2)

structure ActionSweep where
  acts : ℕ → XkbModAction
  lowChange : Option ℕ := none
  highChange : ℕ := 0

/-- The action at a place, of a key. -/
def ActionSweep.visit (s : ActionSweep) (site : ℕ × ℕ) : ActionSweep :=
  let updated := updateActionVirtualMods vmods changed (s.acts site.2)
  if updated.2 then
    { acts := Function.update s.acts site.2 updated.1
      lowChange := some (s.lowChange.getD site.1)
      highChange := site.1 }
  else s

/-- What is noted of the keys. -/
def XkbMapChanges.addKeyActs (changes : XkbMapChanges) (lowChange : Option ℕ) (highChange : ℕ) : XkbMapChanges :=
  match lowChange with
  | some (low+1) =>
    let merge := changes.changed &&& xkbKeyActionsMask ≠ 0
    let first := if merge ∧ changes.keyActs.first < low+1 then changes.keyActs.first else low+1
    let last : ℤ := changes.keyActs.first + changes.keyActs.num - 1
    let high : ℤ := if merge ∧ last > highChange then last else highChange
    { changes with
      changed := changes.changed ||| xkbKeyActionsMask
      keyActs := ⟨first,card8 (high - first + 1)⟩ }
  | _ => changes

end Update

namespace ModsDesc

def places (k : ModsDesc) (key : ℕ) : List ℕ :=
  if k.keyActs key ≠ 0 then List.range' (k.keyActs key) (k.numActions key) else []

def keys (k : ModsDesc) : List ℕ := List.range' k.minKeyCode (k.maxKeyCode + 1 - k.minKeyCode)

/-- All actions of all keys. -/
def sites (k : ModsDesc) : List (ℕ × ℕ) := k.keys.flatMap fun key => (k.places key).map fun p => (key,p)

/-- `XkbApplyVirtualModChanges` -/
def applyVirtualModChanges (k : ModsDesc) (changed : BitVec 32) (changes : Option XkbChanges) :
    ModsDesc × Option XkbChanges × Bool :=
  if changed = 0 then (k,changes,false)
  else
    let types := updateTypes k.vmods changed 0 changes k.types
    let internal := if k.internal.hit changed then k.internal.renew k.vmods else (k.internal,false)
    let ignoreLock := if k.ignoreLock.hit changed then k.ignoreLock.renew k.vmods else (k.ignoreLock,false)
    let indicators := renewAll k.vmods (·.hit changed) 0 k.indicators
    let groups := renewAll k.vmods (fun _ => true) 0 k.groups
    let actions := k.sites.foldl (ActionSweep.visit k.vmods changed) { acts := k.acts }
    ({ k with
        types := types.1
        internal := internal.1
        ignoreLock := ignoreLock.1
        indicators := indicators.1
        groups := groups.1
        acts := actions.acts },
      types.2.map fun c =>
        { map := c.map.addKeyActs actions.lowChange actions.highChange
          changedCtrls := c.changedCtrls ||| (if internal.2 then xkbInternalModsMask else 0) |||
            (if ignoreLock.2 then xkbIgnoreLockModsMask else 0)
          mapChanges := c.mapChanges ||| indicators.2
          changedGroups := c.changedGroups ||| groups.2 },
      changes.isSome && (internal.2 || ignoreLock.2 || indicators.2 ≠ 0 || groups.2 ≠ 0))

end ModsDesc

section Bindings
variable {old new : Fin 16 → BitVec 8} {changed : BitVec 32} {r : XkbModsRec} {act : XkbModAction} {m m' : BitVec 32}

/-- The record has the mask that it should have. -/
def XkbModsRec.Coherent (vmods : Fin 16 → BitVec 8) (r : XkbModsRec) : Prop := r.mask = r.bound vmods

def ChangedOnly (changed : BitVec 32) (old new : Fin 16 → BitVec 8) : Prop :=
  ∀ i : Fin 16, new i ≠ old i → changed.getLsbD i = true

lemma virtualModsToReal_congr (h : ∀ i : Fin 16, (if m.getLsbD i then old i else 0) = if m'.getLsbD i then new i else 0) :
    virtualModsToReal old m = virtualModsToReal new m' := by
  have hor : ∀ (p : Prop) [Decidable p] (a b : BitVec 8), (if p then a ||| b else a) = a ||| if p then b else 0 := by
    intro p _ a b
    split_ifs
    · rfl
    · exact (BitVec.or_zero ..).symm
  unfold virtualModsToReal
  congr 1
  funext mask i
  rw [hor,hor,h i]

lemma virtualModsToReal_signExtend (v : BitVec 16) :
    virtualModsToReal new (v.signExtend 32) = virtualModsToReal new (v.setWidth 32) := by
  apply virtualModsToReal_congr
  intro i
  have hi : i.val < 16 := i.isLt
  rw [BitVec.getLsbD_signExtend,BitVec.getLsbD_setWidth]
  simp [hi,show i.val < 32 by omega]

lemma signExtend_eq_zero {v : BitVec 16} (h : v.signExtend 32 = 0) : v = 0 := by
  apply BitVec.eq_of_getLsbD_eq
  intro i hi
  have hbit := congrArg (fun b => b.getLsbD i) h
  rw [BitVec.getLsbD_signExtend] at hbit
  simpa [hi,show i < 32 by omega] using hbit

lemma virtualModsToReal_eq (h : ChangedOnly changed old new) (hm : m &&& changed = 0) :
    virtualModsToReal new m = virtualModsToReal old m := by
  apply virtualModsToReal_congr
  intro i
  split_ifs with hi
  · by_contra hne
    have hbit := congrArg (fun b => b.getLsbD i) hm
    simp [hi,h i hne] at hbit
  · rfl

lemma XkbModsRec.bound_eq (h : ChangedOnly changed old new) (hr : r.hit changed = false) : r.bound new = r.bound old := by
  have hzero : r.vmods.setWidth 32 &&& changed = 0 := by simpa [XkbModsRec.hit] using hr
  unfold XkbModsRec.bound
  rw [virtualModsToReal_eq h hzero]

lemma XkbModsRec.bound_zero (h : r.vmods = 0) : r.bound new = r.bound old := by
  unfold XkbModsRec.bound
  rw [h]
  exact congrArg _ (virtualModsToReal_congr fun i => by simp)

lemma XkbModsRec.coherent_refresh : (r.refresh new).Coherent new := rfl

lemma XkbModsRec.Coherent.iff (h : r.Coherent old) : r.Coherent new ↔ r.bound new = r.bound old := by
  unfold XkbModsRec.Coherent at h ⊢
  rw [h]
  exact eq_comm

lemma XkbModsRec.renew_eq : (r.renew new).1 = r.refresh new := by
  unfold XkbModsRec.renew
  split_ifs with h
  · rfl
  · unfold XkbModsRec.refresh
    rw [← not_not.1 h]

lemma updateTypes_eq {ndx : ℕ} {changes : Option XkbChanges} {types : List XkbKeyType} :
    (updateTypes new changed ndx changes types).1 =
      types.map fun type => if type.mods.hit changed then type.updateVirtualMods new else type := by
  induction types generalizing ndx changes with
  | nil => rfl
  | cons type types ih =>
    rw [updateTypes,List.map_cons]
    split_ifs
    · exact congrArg _ ih
    · exact congrArg _ ih

lemma renewAll_eq {affected : XkbModsRec → Bool} {ndx : ℕ} {rs : List XkbModsRec} :
    (renewAll new affected ndx rs).1 = rs.map fun r => if affected r then r.refresh new else r := by
  induction rs generalizing ndx with
  | nil => rfl
  | cons r rs ih =>
    have hrest : (renewAll new affected (ndx+1) rs).1 = _ := ih
    rw [renewAll,List.map_cons,← hrest]
    cases affected r with
    | false => rfl
    | true => exact congrArg (· :: _) XkbModsRec.renew_eq

/-- What the update is about. Of the virtual modifiers that changed only the first counts for an `isoLock`. -/
def XkbModAction.affected (changed : BitVec 32) (act : XkbModAction) : Bool :=
  match act.type with
  | .setMods | .latchMods | .lockMods => act.mods.vmods.signExtend 32 &&& changed ≠ 0
  | .isoLock => act.mods.vmods ≠ 0 ∧ changed.getLsbD 0
  | .other => false

lemma updateActionVirtualMods_eq : updateActionVirtualMods new changed act =
    if act.affected changed then ({ act with mods := act.mods.refresh new },true) else (act,false) := by
  have hiso : (if act.mods.vmods.signExtend 32 ≠ 0 then (1 : BitVec 32) else 0) &&& changed ≠ 0 ↔
      act.mods.vmods ≠ 0 ∧ changed.getLsbD 0 = true := by
    have hone : 1 &&& changed ≠ 0 ↔ changed.getLsbD 0 = true := by
      rw [BitVec.and_comm,show (1 : BitVec 32) = 1#32 from rfl,BitVec.and_one_eq_setWidth_ofBool_getLsbD]
      cases changed.getLsbD 0 <;> decide
    split_ifs with hv
    · rw [hone]
      exact (and_iff_right fun hzero => hv (by rw [hzero]; rfl)).symm
    · have hzero : act.mods.vmods = 0 := signExtend_eq_zero (not_not.1 hv)
      simp [hzero]
  unfold updateActionVirtualMods XkbModAction.affected XkbModsRec.refresh XkbModsRec.bound
  simp only [virtualModsToReal_signExtend]
  cases act.type with
  | isoLock =>
    dsimp only
    simp only [hiso,decide_eq_true_eq]
  | setMods | latchMods | lockMods | other => simp

lemma updateActionVirtualMods_type : (updateActionVirtualMods new changed act).1.type = act.type := by
  rw [updateActionVirtualMods_eq]
  split_ifs <;> rfl

lemma ActionSweep.visit_acts {s : ActionSweep} {site : ℕ × ℕ} : (s.visit new changed site).acts =
    Function.update s.acts site.2 (updateActionVirtualMods new changed (s.acts site.2)).1 := by
  unfold ActionSweep.visit
  rw [updateActionVirtualMods_eq]
  split_ifs with h
  · rfl
  · exact (Function.update_eq_self ..).symm

lemma foldl_visit_acts {s : ActionSweep} {sites : List (ℕ × ℕ)} {p : ℕ} :
    (sites.foldl (ActionSweep.visit new changed) s).acts p =
      if p ∈ sites.map Prod.snd then (updateActionVirtualMods new changed (s.acts p)).1 else s.acts p := by
  induction sites generalizing s with
  | nil => rfl
  | cons site sites ih =>
    rw [List.foldl_cons,ih,ActionSweep.visit_acts,List.map_cons]
    by_cases hp : p = site.2
    · subst hp
      rw [Function.update_self,if_pos List.mem_cons_self]
      simp only [updateActionVirtualMods_eq]
      split_ifs <;> rfl
    · rw [Function.update_of_ne hp]
      simp only [List.mem_cons,hp,false_or]

/-- What has been noted of keys up to `key`. -/
structure ActionSweep.Notes (s : ActionSweep) (seen : List ℕ) : Prop where
  covers : ∀ key ∈ seen, ∃ low, s.lowChange = some low ∧ low ≤ key ∧ key ≤ s.highChange
  low : ∀ low, s.lowChange = some low → low ∈ seen ∧ s.highChange ∈ seen

lemma ActionSweep.Notes.visit {s : ActionSweep} {seen : List ℕ} {site : ℕ × ℕ} (h : s.Notes seen)
    (hle : ∀ key ∈ seen, key ≤ site.1) (hact : (s.acts site.2).affected changed = true) :
    (s.visit new changed site).Notes (site.1::seen) := by
  unfold ActionSweep.visit
  rw [updateActionVirtualMods_eq,if_pos hact]
  dsimp only
  rw [if_pos rfl]
  constructor
  · intro key hkey
    cases hlow : s.lowChange with
    | none =>
      obtain rfl | hkey := List.mem_cons.1 hkey
      · exact ⟨site.1,rfl,le_rfl,le_rfl⟩
      · obtain ⟨low,hsome,-⟩ := h.covers key hkey
        exact absurd (hlow.symm.trans hsome) (by simp)
    | some low =>
      refine ⟨low,rfl,?_⟩
      obtain rfl | hkey := List.mem_cons.1 hkey
      · exact ⟨hle low (h.low low hlow).1,le_rfl⟩
      · obtain ⟨low',hsome,hlow',-⟩ := h.covers key hkey
        obtain rfl := Option.some.inj (hlow.symm.trans hsome)
        exact ⟨hlow',hle key hkey⟩
  · intro low hsome
    refine ⟨?_,List.mem_cons_self⟩
    cases hlow : s.lowChange with
    | none =>
      obtain rfl : site.1 = low := by simpa [hlow] using hsome
      exact List.mem_cons_self
    | some low' =>
      obtain rfl : low' = low := by simpa [hlow] using hsome
      exact List.mem_cons_of_mem site.1 (h.low low' hlow).1

lemma ActionSweep.visit_affected {s : ActionSweep} {site : ℕ × ℕ} {p : ℕ} :
    ((s.visit new changed site).acts p).affected changed = (s.acts p).affected changed := by
  rw [visit_acts]
  by_cases hp : p = site.2
  · subst hp
    rw [Function.update_self,updateActionVirtualMods_eq]
    split_ifs <;> rfl
  · rw [Function.update_of_ne hp]

lemma ActionSweep.Notes.foldl {s : ActionSweep} {seen : List ℕ} {sites : List (ℕ × ℕ)} (h : s.Notes seen)
    (new : Fin 16 → BitVec 8) (changed : BitVec 32)
    (hle : ∀ key ∈ seen, ∀ site ∈ sites, key ≤ site.1) (hsort : sites.Pairwise fun a b => a.1 ≤ b.1) :
    ∃ seen', (sites.foldl (ActionSweep.visit new changed) s).Notes seen' ∧
      (∀ site ∈ sites, (s.acts site.2).affected changed = true → site.1 ∈ seen') ∧ (∀ key ∈ seen, key ∈ seen') ∧
      ∀ key ∈ seen', key ∈ seen ∨ ∃ site ∈ sites, site.1 = key := by
  induction sites generalizing s seen with
  | nil => exact ⟨seen,h,by simp,fun _ => id,fun _ => .inl⟩
  | cons site sites ih =>
    obtain ⟨hfirst,hsort⟩ := List.pairwise_cons.1 hsort
    have hrest : ∀ key ∈ seen, ∀ site' ∈ sites, key ≤ site'.1 := fun key hkey site' hsite =>
      hle key hkey site' (List.mem_cons_of_mem site hsite)
    rw [List.foldl_cons]
    cases hact : (s.acts site.2).affected changed with
    | true =>
      obtain ⟨seen',hnotes,hall,hold,honly⟩ := ih (h.visit (fun key hkey => hle key hkey site List.mem_cons_self) hact)
        (List.forall_mem_cons.2 ⟨hfirst,hrest⟩) hsort
      refine ⟨seen',hnotes,?_,fun key hkey => hold key (List.mem_cons_of_mem site.1 hkey),?_⟩
      · intro site' hsite haff
        obtain rfl | hsite := List.mem_cons.1 hsite
        · exact hold site'.1 List.mem_cons_self
        · exact hall site' hsite (by rw [visit_affected]; exact haff)
      · intro key hkey
        obtain hkey | ⟨site',hsite,hkey⟩ := honly key hkey
        · obtain rfl | hkey := List.mem_cons.1 hkey
          · exact .inr ⟨site,List.mem_cons_self,rfl⟩
          · exact .inl hkey
        · exact .inr ⟨site',List.mem_cons_of_mem site hsite,hkey⟩
    | false =>
      have hsame : s.visit new changed site = s := by
        unfold ActionSweep.visit
        rw [updateActionVirtualMods_eq,hact]
        rfl
      obtain ⟨seen',hnotes,hall,hold,honly⟩ := ih h hrest hsort
      rw [hsame]
      refine ⟨seen',hnotes,?_,hold,?_⟩
      · intro site' hsite haff
        obtain rfl | hsite := List.mem_cons.1 hsite
        · exact absurd (hact.symm.trans haff) (by simp)
        · exact hall site' hsite haff
      · intro key hkey
        exact (honly key hkey).imp_right fun ⟨site',hsite,hkey⟩ => ⟨site',List.mem_cons_of_mem site hsite,hkey⟩

/-- The keys of the range. -/
def KeyRange.Has (r : KeyRange) (key : ℕ) : Prop := r.first ≤ key ∧ key < r.first + r.num

/-- The range has keys of keyboards only. -/
def KeyRange.Legal (r : KeyRange) : Prop := 0 < r.first ∧ r.first + r.num ≤ 256

def XkbMapChanges.ReportsActs (changes : XkbMapChanges) (key : ℕ) : Prop :=
  changes.changed &&& xkbKeyActionsMask ≠ 0 ∧ changes.keyActs.Has key

lemma XkbMapChanges.reportsActs {changes : XkbMapChanges} {s : ActionSweep} {seen : List ℕ} {key : ℕ} (h : s.Notes seen)
    (hlegal : changes.changed &&& xkbKeyActionsMask ≠ 0 → changes.keyActs.Legal) (hseen : ∀ key ∈ seen, 0 < key ∧ key < 256)
    (hkey : key ∈ seen) : (changes.addKeyActs s.lowChange s.highChange).ReportsActs key := by
  obtain ⟨low,hlow,hle,hhigh⟩ := h.covers key hkey
  obtain ⟨hlows,hhighs⟩ := h.low low hlow
  have hpos := hseen low hlows
  have hmax := hseen s.highChange hhighs
  obtain ⟨n,rfl⟩ := Nat.exists_eq_succ_of_ne_zero hpos.1.ne'
  rw [hlow]
  refine ⟨?_,?_⟩
  · change (changes.changed ||| xkbKeyActionsMask) &&& xkbKeyActionsMask ≠ 0
    intro hzero
    have hbit := congrArg (fun b => b.getLsbD 4) hzero
    simp [xkbKeyActionsMask] at hbit
  · unfold XkbMapChanges.addKeyActs KeyRange.Has card8
    unfold KeyRange.Legal at hlegal
    dsimp only
    split_ifs <;> grind

lemma XkbMapChanges.addType_keyActs {changes : XkbMapChanges} {ndx : ℕ} : (changes.addType ndx).keyActs = changes.keyActs ∧
    (changes.addType ndx).changed &&& xkbKeyActionsMask = changes.changed &&& xkbKeyActionsMask := by
  have hor : (changes.changed ||| xkbKeyTypesMask) &&& xkbKeyActionsMask = changes.changed &&& xkbKeyActionsMask := by
    rw [BitVec.and_or_distrib_right,show xkbKeyTypesMask &&& xkbKeyActionsMask = 0 from rfl]
    exact BitVec.or_zero ..
  unfold addType
  dsimp only
  split_ifs
  · exact ⟨rfl,rfl⟩
  · exact ⟨rfl,rfl⟩
  · exact ⟨rfl,rfl⟩
  · exact ⟨rfl,hor⟩

lemma updateTypes_changes {ndx : ℕ} {changes : Option XkbChanges} {types : List XkbKeyType} {c' : XkbChanges}
    (h : (updateTypes new changed ndx changes types).2 = some c') : ∃ c, changes = some c ∧
      c'.map.keyActs = c.map.keyActs ∧ c'.map.changed &&& xkbKeyActionsMask = c.map.changed &&& xkbKeyActionsMask := by
  induction types generalizing ndx changes with
  | nil => exact ⟨c',h,rfl,rfl⟩
  | cons type types ih =>
    rw [updateTypes] at h
    split_ifs at h
    · obtain ⟨c,hc,hacts,hflag⟩ := ih h
      obtain ⟨c₀,rfl,rfl⟩ := Option.map_eq_some_iff.1 hc
      exact ⟨c₀,rfl,hacts.trans XkbMapChanges.addType_keyActs.1,hflag.trans XkbMapChanges.addType_keyActs.2⟩
    · exact ih h

end Bindings

namespace ModsDesc
variable {k : ModsDesc} {new : Fin 16 → BitVec 8} {changed : BitVec 32} {changes : Option XkbChanges}

/-- All records have the masks that they should have. -/
structure Coherent (k : ModsDesc) : Prop where
  types : ∀ type ∈ k.types, type.mods.Coherent k.vmods
  map : ∀ type ∈ k.types, ∀ entry ∈ type.map, entry.mods.Coherent k.vmods
  preserve : ∀ type ∈ k.types, ∀ r ∈ type.preserve, r.Coherent k.vmods
  internal : k.internal.Coherent k.vmods
  ignoreLock : k.ignoreLock.Coherent k.vmods
  indicators : ∀ r ∈ k.indicators, r.Coherent k.vmods
  groups : ∀ r ∈ k.groups, r.Coherent k.vmods
  acts : ∀ site ∈ k.sites, (k.acts site.2).type ≠ .other → (k.acts site.2).mods.Coherent k.vmods

/-- The masks of the records that are not looked after need not change: those of the preserve entries, of the map entries
of a type that has none of the changed virtual modifiers itself, and of the `isoLock` actions unless the first virtual
modifier is among the changed ones. -/
structure Unconcerned (k : ModsDesc) (changed : BitVec 32) (new : Fin 16 → BitVec 8) : Prop where
  preserve : ∀ type ∈ k.types, ∀ r ∈ type.preserve, r.bound new = r.bound k.vmods
  map : ∀ type ∈ k.types, type.mods.hit changed = false → ∀ entry ∈ type.map, entry.mods.bound new = entry.mods.bound k.vmods
  isoLock : ∀ site ∈ k.sites, (k.acts site.2).type = .isoLock → changed.getLsbD 0 = false →
    (k.acts site.2).mods.bound new = (k.acts site.2).mods.bound k.vmods

/-- The keymap with other bindings. -/
def rebind (k : ModsDesc) (new : Fin 16 → BitVec 8) : ModsDesc := { k with vmods := new }

def ActsChanged (k k' : ModsDesc) (key : ℕ) : Prop := ∃ p ∈ k.places key, (k'.acts p).mods.mask ≠ (k.acts p).mods.mask

lemma refresh_or_same_iff {r : XkbModsRec} {b : Bool} {old : Fin 16 → BitVec 8} (h : r.Coherent old) :
    (if b then r.refresh new else r).Coherent new ↔ (b = false → r.bound new = r.bound old) := by
  cases b with
  | true => exact iff_of_true rfl (fun hb => absurd hb (by simp))
  | false => exact h.iff.trans (by simp)

lemma hit_of_affected {r : XkbModsRec} (h : r.vmods.signExtend 32 &&& changed = 0) : r.hit changed = false := by
  have hzero : r.vmods.setWidth 32 &&& changed = 0 := by
    apply BitVec.eq_of_getLsbD_eq
    intro i hi
    have hbit := congrArg (fun b => b.getLsbD i) h
    rw [BitVec.getLsbD_and,BitVec.getLsbD_signExtend] at hbit
    rw [BitVec.getLsbD_and,BitVec.getLsbD_setWidth]
    by_cases hlow : i < 16
    · simpa [hi,hlow] using hbit
    · rw [BitVec.getLsbD_of_ge _ _ (by omega)]
      simp
  simpa [XkbModsRec.hit] using hzero

lemma acts_coherent_iff {act : XkbModAction} {old : Fin 16 → BitVec 8} (h : act.type ≠ .other → act.mods.Coherent old)
    (hch : ChangedOnly changed old new) : ((updateActionVirtualMods new changed act).1.type ≠ .other →
      (updateActionVirtualMods new changed act).1.mods.Coherent new) ↔
      (act.type = .isoLock → changed.getLsbD 0 = false → act.mods.bound new = act.mods.bound old) := by
  have hupdated : (updateActionVirtualMods new changed act).1.mods =
      if act.affected changed then act.mods.refresh new else act.mods := by
    rw [updateActionVirtualMods_eq]
    split_ifs <;> rfl
  rw [updateActionVirtualMods_type,hupdated]
  cases htype : act.type with
  | other => simp
  | isoLock =>
    rw [htype] at h
    rw [imp_iff_right (by simp),refresh_or_same_iff (h (by simp)),imp_iff_right rfl]
    simp only [XkbModAction.affected,htype]
    constructor
    · intro hsame hbit
      exact hsame (decide_eq_false fun hboth => Bool.false_ne_true (hbit.symm.trans hboth.2))
    · intro hsame haff
      cases hbit : changed.getLsbD 0 with
      | false => exact hsame hbit
      | true =>
        have hzero : act.mods.vmods = 0 := by simpa [hbit] using haff
        apply XkbModsRec.bound_eq hch
        simp [XkbModsRec.hit,hzero]
  | setMods | latchMods | lockMods =>
    rw [htype] at h
    rw [imp_iff_right (by simp),refresh_or_same_iff (h (by simp))]
    apply iff_of_true
    · intro haff
      apply XkbModsRec.bound_eq hch
      apply hit_of_affected
      simpa [XkbModAction.affected,htype] using haff
    · exact fun hiso => absurd hiso (by simp)

lemma eq_of_changedOnly_zero {old : Fin 16 → BitVec 8} (h : ChangedOnly 0 old new) : new = old := by
  funext i
  by_contra hne
  exact absurd (h i hne) (by simp)

lemma coherent_of_mem_map {type : XkbKeyType} {entry : XkbKTMapEntry} {old : Fin 16 → BitVec 8}
    (h : ∀ entry ∈ type.map, entry.mods.Coherent old) (hhit : type.mods.hit changed = true)
    (hentry : entry ∈ (type.updateVirtualMods new).map) : entry.mods.Coherent new := by
  have hvmods : type.mods.vmods ≠ 0 := by
    intro hzero
    simp [XkbModsRec.hit,hzero] at hhit
  unfold XkbKeyType.updateVirtualMods at hentry
  dsimp only at hentry
  split_ifs at hentry with hmap
  · obtain ⟨entry,he,rfl⟩ := List.mem_map.1 hentry
    unfold XkbKTMapEntry.update
    split_ifs with hzero
    · exact XkbModsRec.coherent_refresh
    · exact (h entry he).iff.2 (XkbModsRec.bound_zero (not_not.1 hzero))
  · exact absurd ⟨List.length_pos_of_mem hentry,hvmods⟩ hmap

lemma coherent_applyVirtualModChanges_iff (h : k.Coherent) (hch : ChangedOnly changed k.vmods new) :
    ((k.rebind new).applyVirtualModChanges changed changes).1.Coherent ↔ k.Unconcerned changed new := by
  by_cases hzero : changed = 0
  · subst hzero
    obtain rfl := eq_of_changedOnly_zero hch
    exact iff_of_true h ⟨fun _ _ _ _ => rfl,fun _ _ _ _ _ => rfl,fun _ _ _ _ => rfl⟩
  have hbound : ∀ {r : XkbModsRec}, r.hit changed = false → r.bound new = r.bound k.vmods := XkbModsRec.bound_eq hch
  have hacts : ∀ site ∈ k.sites, (k.sites.foldl (ActionSweep.visit new changed) { acts := k.acts }).acts site.2 =
      (updateActionVirtualMods new changed (k.acts site.2)).1 := by
    intro site hsite
    rw [foldl_visit_acts,if_pos (List.mem_map_of_mem hsite)]
  unfold applyVirtualModChanges
  rw [if_neg hzero]
  dsimp only
  have hmem : ∀ type ∈ k.types, (if type.mods.hit changed then type.updateVirtualMods new else type) ∈
      (updateTypes new changed 0 changes k.types).1 := by
    intro type ht
    rw [updateTypes_eq]
    exact List.mem_map_of_mem ht
  constructor
  · intro hco
    constructor
    · intro type ht r hr
      apply (h.preserve type ht r hr).iff.1
      apply hco.preserve _ (hmem type ht)
      split_ifs <;> exact hr
    · intro type ht hhit entry hentry
      apply (h.map type ht entry hentry).iff.1
      apply hco.map _ (hmem type ht)
      rwa [if_neg (by simp [hhit])]
    · intro site hsite
      apply (acts_coherent_iff (h.acts site hsite) hch).1
      rw [← hacts site hsite]
      exact hco.acts site hsite
  · intro hun
    have hrefreshed : ∀ {r : XkbModsRec}, r.Coherent k.vmods →
        (if r.hit changed then r.refresh new else r).Coherent new := fun hr => (refresh_or_same_iff hr).2 hbound
    have hsingle : ∀ {r : XkbModsRec}, r.Coherent k.vmods →
        (if r.hit changed then r.renew new else (r,false)).1.Coherent new := by
      intro r hr
      have hr' := hrefreshed hr
      split_ifs at hr' ⊢
      · rw [XkbModsRec.renew_eq]
        exact hr'
      · exact hr'
    constructor
    · rw [updateTypes_eq]
      intro _ htype
      obtain ⟨type,ht,rfl⟩ := List.mem_map.1 htype
      rw [apply_ite XkbKeyType.mods]
      exact hrefreshed (h.types type ht)
    · rw [updateTypes_eq]
      intro _ htype entry hentry
      obtain ⟨type,ht,rfl⟩ := List.mem_map.1 htype
      split_ifs at hentry with hhit
      · exact coherent_of_mem_map (h.map type ht) hhit hentry
      · exact (h.map type ht entry hentry).iff.2 (hun.map type ht (by simpa using hhit) entry hentry)
    · rw [updateTypes_eq]
      intro _ htype r hr
      obtain ⟨type,ht,rfl⟩ := List.mem_map.1 htype
      have hr' : r ∈ type.preserve := by split_ifs at hr <;> exact hr
      exact (h.preserve type ht r hr').iff.2 (hun.preserve type ht r hr')
    · exact hsingle h.internal
    · exact hsingle h.ignoreLock
    · change ∀ r ∈ (renewAll new (·.hit changed) 0 k.indicators).1, r.Coherent new
      rw [renewAll_eq]
      intro _ hr
      obtain ⟨r,hmem',rfl⟩ := List.mem_map.1 hr
      exact hrefreshed (h.indicators r hmem')
    · change ∀ r ∈ (renewAll new (fun _ => true) 0 k.groups).1, r.Coherent new
      rw [renewAll_eq]
      intro _ hr
      obtain ⟨r,-,rfl⟩ := List.mem_map.1 hr
      exact XkbModsRec.coherent_refresh
    · intro site hsite
      change ((k.sites.foldl (ActionSweep.visit new changed) { acts := k.acts }).acts site.2).type ≠ .other →
        ((k.sites.foldl (ActionSweep.visit new changed) { acts := k.acts }).acts site.2).mods.Coherent new
      rw [hacts site hsite]
      exact (acts_coherent_iff (h.acts site hsite) hch).2 (hun.isoLock site hsite)

lemma mem_sites {site : ℕ × ℕ} : site ∈ k.sites ↔ site.1 ∈ k.keys ∧ site.2 ∈ k.places site.1 := by
  unfold sites
  rw [List.mem_flatMap]
  constructor
  · rintro ⟨key,hkey,hsite⟩
    obtain ⟨p,hp,rfl⟩ := List.mem_map.1 hsite
    exact ⟨hkey,hp⟩
  · rintro ⟨hkey,hp⟩
    exact ⟨site.1,hkey,List.mem_map_of_mem hp⟩

lemma sites_sorted (k : ModsDesc) : k.sites.Pairwise fun a b => a.1 ≤ b.1 := by
  unfold sites
  apply List.pairwise_flatMap.2
  constructor
  · intro key hkey
    exact List.pairwise_map.2 (List.pairwise_of_forall fun _ _ => le_rfl)
  · apply List.Pairwise.imp _ List.pairwise_lt_range'
    intro key key' hlt site hsite site' hsite'
    obtain ⟨p,-,rfl⟩ := List.mem_map.1 hsite
    obtain ⟨p',-,rfl⟩ := List.mem_map.1 hsite'
    exact hlt.le

lemma reportsActs_of_changed {c : XkbChanges}
    (hlegal : ∀ c, changes = some c → c.map.changed &&& xkbKeyActionsMask ≠ 0 → c.map.keyActs.Legal)
    (hc : ((k.rebind new).applyVirtualModChanges changed changes).2.1 = some c) {key : ℕ} (hkey : key ∈ k.keys)
    (hacts : k.ActsChanged ((k.rebind new).applyVirtualModChanges changed changes).1 key) : c.map.ReportsActs key := by
  obtain ⟨p,hp,hne⟩ := hacts
  unfold applyVirtualModChanges at hc hne
  by_cases hzero : changed = 0
  · rw [if_pos hzero] at hne
    exact absurd rfl hne
  rw [if_neg hzero] at hc hne
  change (updateTypes new changed 0 changes k.types).2.map _ = some c at hc
  change ((k.sites.foldl (ActionSweep.visit new changed) { acts := k.acts }).acts p).mods.mask ≠ (k.acts p).mods.mask at hne
  obtain ⟨c₁,hc₁,rfl⟩ := Option.map_eq_some_iff.1 hc
  obtain ⟨c₀,hc₀,hrange,hflag⟩ := updateTypes_changes hc₁
  have hsite : (key,p) ∈ k.sites := mem_sites.2 ⟨hkey,hp⟩
  have haff : (k.acts p).affected changed = true := by
    by_contra haff
    rw [foldl_visit_acts,updateActionVirtualMods_eq,if_neg haff] at hne
    split_ifs at hne <;> exact hne rfl
  have hstart : ActionSweep.Notes { acts := k.acts } [] := ⟨by simp,by simp⟩
  obtain ⟨seen,hnotes,hall,-,honly⟩ := hstart.foldl new changed (by simp) k.sites_sorted
  apply XkbMapChanges.reportsActs hnotes
  · rw [hflag,hrange]
    exact hlegal c₀ hc₀
  · intro key' hkey'
    obtain hkey' | ⟨site,hsite',rfl⟩ := honly key' hkey'
    · exact absurd hkey' (List.not_mem_nil)
    · have hmem := (mem_sites.1 hsite').1
      have hlegal' := k.legal
      unfold keys at hmem
      rw [List.mem_range'_1] at hmem
      omega
  · exact hall (key,p) hsite haff

/-- The keymap is coherent again, and the keys whose actions have changed are reported, exactly if no record that the
refreshing forgets has to have another mask. -/
theorem applyVirtualModChanges_coherent_iff (h : k.Coherent) (hch : ChangedOnly changed k.vmods new)
    (hlegal : ∀ c, changes = some c → c.map.changed &&& xkbKeyActionsMask ≠ 0 → c.map.keyActs.Legal) :
    (((k.rebind new).applyVirtualModChanges changed changes).1.Coherent ∧
      ∀ c, ((k.rebind new).applyVirtualModChanges changed changes).2.1 = some c → ∀ key ∈ k.keys,
        k.ActsChanged ((k.rebind new).applyVirtualModChanges changed changes).1 key → c.map.ReportsActs key) ↔
      k.Unconcerned changed new := by
  rw [coherent_applyVirtualModChanges_iff h hch]
  exact and_iff_left fun c hc key hkey hacts => reportsActs_of_changed hlegal hc hkey hacts

/-- A key with an `isoLock` for the second virtual modifier, which is not bound to anything. -/
def isoLockMap : ModsDesc where
  minKeyCode := 8
  maxKeyCode := 8
  legal := by decide
  vmods := fun _ => 0
  keyActs := fun _ => 1
  numActions := fun _ => 1
  acts := fun _ => ⟨.isoLock,{ vmods := 2 }⟩

def secondBound (i : Fin 16) : BitVec 8 := if i = 1 then 8 else 0

lemma isoLockMap_coherent : isoLockMap.Coherent := by
  constructor
  iterate 3 exact fun _ h => absurd h List.not_mem_nil
  · exact (by decide : isoLockMap.internal.mask = isoLockMap.internal.bound isoLockMap.vmods)
  · exact (by decide : isoLockMap.ignoreLock.mask = isoLockMap.ignoreLock.bound isoLockMap.vmods)
  iterate 2 exact fun _ h => absurd h List.not_mem_nil
  · exact fun site _ _ => (by decide : (0 : BitVec 8) = (isoLockMap.acts 1).mods.bound isoLockMap.vmods)

lemma secondBound_changedOnly : ChangedOnly 2 isoLockMap.vmods secondBound :=
  (by decide : ∀ i : Fin 16, secondBound i ≠ 0 → (2 : BitVec 32).getLsbD i = true)

theorem applyVirtualModChanges_coherent_iff_isoLock :
    (((isoLockMap.rebind secondBound).applyVirtualModChanges 2 (some {})).1.Coherent ∧
      ∀ c, ((isoLockMap.rebind secondBound).applyVirtualModChanges 2 (some {})).2.1 = some c → ∀ key ∈ isoLockMap.keys,
        isoLockMap.ActsChanged ((isoLockMap.rebind secondBound).applyVirtualModChanges 2 (some {})).1 key →
          c.map.ReportsActs key) ↔ isoLockMap.Unconcerned 2 secondBound :=
  applyVirtualModChanges_coherent_iff isoLockMap_coherent secondBound_changedOnly fun c hc hflag => by
    obtain rfl := Option.some.inj hc
    exact absurd rfl hflag

/-- The mask of the `isoLock` stays as it was. -/
theorem isoLock_stale : isoLockMap.Coherent ∧ ChangedOnly 2 isoLockMap.vmods secondBound ∧
    ¬((isoLockMap.rebind secondBound).applyVirtualModChanges 2 (some {})).1.Coherent := by
  refine ⟨isoLockMap_coherent,secondBound_changedOnly,fun h => ?_⟩
  have hmask := h.acts (8,1) (by decide) (by decide)
  exact absurd hmask (by unfold XkbModsRec.Coherent; decide)

end ModsDesc

end Xlibre.Xkb
