import Xlibre.Xkb.KeycodeRange

/-! The actions of the keys from the symbol interpretations, and the ranges of keys that are reported as changed. -/
namespace Xlibre.Xkb

def xkbSILevelOneOnly : BitVec 8 := 0x80
def xkbSIOpMask : BitVec 8 := 0x7f
def xkbSILockingKey : BitVec 8 := 1 <<< 1
def xkbSAUseModMapMods : BitVec 8 := 1 <<< 2
def xkbNoModifier : ℕ := 0xff
def xkbExplicitInterpretMask : BitVec 8 := 1 <<< 4
def xkbExplicitBehaviorMask : BitVec 8 := 1 <<< 6
def xkbExplicitVModMapMask : BitVec 8 := 1 <<< 7
def xkbKBLock : BitVec 8 := 1
def xkbKBDefault : BitVec 8 := 0

/-- `XkbAction`; there are no fields for the data that only some types have. -/
structure CompatAction extends XkbModAction where
  none : Bool := true
  flags : BitVec 8 := 0
  data : BitVec 48 := 0

/-- `XkbSymInterpretRec` -/
structure XkbSymInterpret where
  sym : KeySym
  flags : BitVec 8
  «match» : BitVec 8
  mods : BitVec 8
  virtualMod : ℕ
  act : CompatAction

/-- The part of `XkbDescRec` from which the actions of a key are made. A key without actions has none. -/
structure CompatMap where
  minKeyCode : ℕ
  maxKeyCode : ℕ
  legal : xkbMinLegalKeyCode ≤ minKeyCode ∧ maxKeyCode ≤ xkbMaxLegalKeyCode
  syms : ℕ → List KeySym
  width : ℕ → ℕ
  modmap : ℕ → BitVec 8
  explicit : ℕ → BitVec 8
  vmodmap : ℕ → BitVec 16
  behaviors : ℕ → XkbBehavior
  acts : ℕ → Option (List CompatAction)
  vmods : Fin 16 → BitVec 8
  symInterpret : List XkbSymInterpret

/-- `_XkbAddKeyChange` -/
def KeyRange.addKeyChange (r : KeyRange) (newKey : ℕ) : KeyRange :=
  let last := card8 (r.first + r.num)
  if newKey < r.first then ⟨newKey,card8 ((last : ℤ) - newKey + 1)⟩
  else if newKey > last then { r with num := card8 ((last : ℤ) - r.first + 1) }
  else r

/-- Whether the interpretation is for keys with these modifiers. -/
def XkbSymInterpret.matchesMods (interp : XkbSymInterpret) (realMods : BitVec 8) (level : ℕ) : Bool :=
  let mods := if level = 0 ∨ interp.match &&& xkbSILevelOneOnly = 0 then realMods else 0
  match (interp.match &&& xkbSIOpMask).toNat with
  | 0 => interp.mods &&& mods = 0
  | 1 => mods = 0 ∨ interp.mods &&& mods ≠ 0
  | 2 => interp.mods &&& mods ≠ 0
  | 3 => interp.mods &&& mods = interp.mods
  | 4 => interp.mods = mods
  | _ => false

/-- `_XkbFindMatchingInterp`; `rtrn` is the first one for any symbol. -/
def findMatchingInterp (sym : KeySym) (realMods : BitVec 8) (level : ℕ) (rtrn : Option XkbSymInterpret) :
    List XkbSymInterpret → Option XkbSymInterpret
  | [] => rtrn
  | interp::interps =>
    if (interp.sym = noSymbol ∨ sym = interp.sym) ∧ interp.matchesMods realMods level then
      if interp.sym ≠ noSymbol then some interp
      else findMatchingInterp sym realMods level (rtrn.orElse fun _ => some interp) interps
    else findMatchingInterp sym realMods level rtrn interps

/-- `_XkbSetActionKeyMods` -/
def CompatAction.setKeyMods (vmods : Fin 16 → BitVec 8) (mods : BitVec 8) (act : CompatAction) : CompatAction :=
  if act.type = .other then act
  else
    let m := if act.flags &&& xkbSAUseModMapMods ≠ 0 then { act.mods with realMods := mods, mask := mods } else act.mods
    let tmp := m.vmods.signExtend 32
    { act with mods := if tmp ≠ 0 then { m with mask := m.mask ||| virtualModsToReal vmods tmp } else m }

structure KeySweep where
  acts : ℕ → Option (List CompatAction)
  lowChange : Option ℕ := none
  highChange : ℕ := 0

/-- The actions of one key in `XkbApplyVirtualModChanges`. -/
def KeySweep.visit (vmods : Fin 16 → BitVec 8) (changed : BitVec 32) (s : KeySweep) (key : ℕ) : KeySweep :=
  match s.acts key with
  | none => s
  | some acts =>
    let updated := acts.map fun act => updateActionVirtualMods vmods changed act.toXkbModAction
    if updated.any (·.2) then
      { acts := Function.update s.acts key (some (acts.map fun act =>
          { act with toXkbModAction := (updateActionVirtualMods vmods changed act.toXkbModAction).1 }))
        lowChange := some (s.lowChange.getD key)
        highChange := key }
    else s

namespace XkbMapChanges

/-- A range when these bits change in one call. -/
def noteKey (c : XkbMapChanges) (changed flag : BitVec 16) (r : KeyRange) (key : ℕ) : KeyRange :=
  if changed &&& c.changed &&& flag ≠ 0 then r.addKeyChange key
  else if changed &&& flag ≠ 0 then ⟨key,1⟩
  else r

def noteKeys (c : XkbMapChanges) (changed : BitVec 16) (key : ℕ) : XkbMapChanges :=
  { c with
    keyActs := c.noteKey changed xkbKeyActionsMask c.keyActs key
    keyBehaviors := c.noteKey changed xkbKeyBehaviorsMask c.keyBehaviors key
    vmodMapKeys := c.noteKey changed xkbVirtualModMapMask c.vmodMapKeys key
    changed := c.changed ||| changed }

/-- The keys of the whole call, in the range of the actions. -/
def mergeActs (c : XkbMapChanges) (first num : ℕ) : XkbMapChanges :=
  if c.changed &&& xkbKeyActionsMask ≠ 0 then
    let oldLast := card8 ((c.keyActs.first : ℤ) + c.keyActs.num - 1)
    let newLast := card8 ((first : ℤ) + num - 1)
    let firstKeyAct := if first < c.keyActs.first then first else c.keyActs.first
    let newLast := if newLast > oldLast then oldLast else newLast
    { c with keyActs := ⟨firstKeyAct,card8 ((newLast : ℤ) - firstKeyAct + 1)⟩ }
  else { c with changed := c.changed ||| xkbKeyActionsMask, keyActs := ⟨first,num⟩ }

end XkbMapChanges

namespace CompatMap
variable (d : CompatMap) (key : ℕ)

def keys : List ℕ := List.range' d.minKeyCode (d.maxKeyCode + 1 - d.minKeyCode)

def interps : List (Option XkbSymInterpret) :=
  (d.syms key).mapIdx fun n sym =>
    if sym = noSymbol then none
    else (findMatchingInterp sym (d.modmap key) (n % d.width key) none d.symInterpret).filter fun interp => !interp.act.none

def forLevel (interp : XkbSymInterpret) (n : ℕ) : Bool := n = 0 ∨ interp.match &&& xkbSILevelOneOnly = 0

def newActs : List CompatAction :=
  (d.interps key).mapIdx fun n interp =>
    match interp with
    | some interp => interp.act.setKeyMods d.vmods (if forLevel interp n then d.modmap key else 0)
    | none => {}

def newVModMask : BitVec 32 :=
  (d.interps key).zipIdx.foldl (fun mask p =>
    match p.1 with
    | some interp =>
      if forLevel interp p.2 ∧ interp.virtualMod ≠ xkbNoModifier then mask ||| (1 : BitVec 32) <<< interp.virtualMod else mask
    | none => mask) 0

def found : Bool := (d.interps key).any (·.isSome)

def firstInterp : Option XkbSymInterpret := (d.interps key).head?.join

def clearsActs : Bool := !d.found key && (d.acts key).isSome

def setsVMods : Bool :=
  d.found key && d.explicit key &&& xkbExplicitVModMapMask = 0 && (d.vmodmap key).setWidth 32 ≠ d.newVModMask key

def locks : Bool :=
  (d.firstInterp key).any (fun interp => interp.flags &&& xkbSILockingKey ≠ 0) && d.explicit key &&& xkbExplicitBehaviorMask = 0

def unlocks : Bool :=
  (d.firstInterp key).isNone && d.explicit key &&& xkbExplicitBehaviorMask = 0 && (d.behaviors key).type = xkbKBLock

/-- Nothing is done for the key. -/
def skips : Bool := key < d.minKeyCode || key > d.maxKeyCode || d.explicit key &&& xkbExplicitInterpretMask ≠ 0

/-- What changes in one call of `XkbApplyCompatMapToKey`. -/
def changed : BitVec 16 :=
  if d.skips key then 0
  else (if d.found key || d.clearsActs key then xkbKeyActionsMask else 0) |||
    (if d.setsVMods key then xkbVirtualModMapMask else 0) |||
    (if d.locks key || d.unlocks key then xkbKeyBehaviorsMask else 0)

/-- The keymap after `XkbApplyCompatMapToKey`. -/
def applyCompat : CompatMap :=
  if d.skips key then d
  else
    { d with
      acts := Function.update d.acts key (if d.found key then some (d.newActs key) else none)
      vmodmap := if d.setsVMods key then Function.update d.vmodmap key ((d.newVModMask key).setWidth 16) else d.vmodmap
      behaviors :=
        if d.locks key then Function.update d.behaviors key { d.behaviors key with type := xkbKBLock }
        else if d.unlocks key then Function.update d.behaviors key { d.behaviors key with type := xkbKBDefault }
        else d.behaviors }

/-- `XkbApplyCompatMapToKey` -/
def applyCompatMapToKey (s : CompatMap × XkbMapChanges) (key : ℕ) : CompatMap × XkbMapChanges :=
  (s.1.applyCompat key,s.2.noteKeys (s.1.changed key) key)

/-- The real modifiers of the keys that have a virtual modifier, and whether any key has it. -/
def newVMods (i : Fin 16) : BitVec 8 × Bool :=
  d.keys.foldl (fun s key => if (d.vmodmap key).getLsbD i then (s.1 ||| d.modmap key,true) else s) (0,false)

def rebinds (i : Fin 16) : Bool := (d.newVMods i).2 && (d.newVMods i).1 ≠ d.vmods i

def bindVMods (s : CompatMap × XkbMapChanges) : CompatMap × XkbMapChanges :=
  if s.2.changed &&& (xkbVirtualModMapMask ||| xkbModifierMapMask) ≠ 0 then
    ({ s.1 with vmods i := if s.1.rebinds i then (s.1.newVMods i).1 else s.1.vmods i },
      { s.2 with
        changed := if (List.finRange 16).any s.1.rebinds then s.2.changed ||| xkbVirtualModsMask else s.2.changed
        vmods := s.2.vmods ||| (List.finRange 16).foldl (fun m i => if s.1.rebinds i then m ||| (1 : BitVec 16) <<< i.val else m) 0 })
  else s

/-- `XkbApplyVirtualModChanges`, of which only the actions count here. -/
def applyVMods (s : CompatMap × XkbMapChanges) : CompatMap × XkbMapChanges :=
  if s.2.changed &&& xkbVirtualModsMask ≠ 0 ∧ s.2.vmods ≠ 0 then
    let sweep := s.1.keys.foldl (KeySweep.visit s.1.vmods (s.2.vmods.setWidth 32)) { acts := s.1.acts }
    ({ s.1 with acts := sweep.acts },s.2.addKeyActs sweep.lowChange sweep.highChange)
  else s

/-- `XkbUpdateDescActions`; a key is a byte. -/
def updateDescActions (s : CompatMap × XkbMapChanges) (call : KeyRange) : CompatMap × XkbMapChanges :=
  let s := ((List.range' call.first call.num).map (· % 256)).foldl applyCompatMapToKey s
  let s := applyVMods (bindVMods s)
  (s.1,s.2.mergeActs call.first call.num)

end CompatMap

def XkbMapChanges.ReportsBehavior (c : XkbMapChanges) (key : ℕ) : Prop :=
  c.changed &&& xkbKeyBehaviorsMask ≠ 0 ∧ c.keyBehaviors.Has key

def XkbMapChanges.ReportsVMods (c : XkbMapChanges) (key : ℕ) : Prop :=
  c.changed &&& xkbVirtualModMapMask ≠ 0 ∧ c.vmodMapKeys.Has key

/-- A byte is enough for the number of keys up to one past the end. -/
def KeyRange.AddFits (r : KeyRange) (key : ℕ) : Prop := (key < r.first → r.first + r.num < key + 255) ∧
  (r.first ≤ key → 256 ≤ r.first + r.num → r.num < 255)

/-- The key does not come after the range. -/
def KeyRange.Reaches (r : KeyRange) (key : ℕ) : Prop := key < r.first + r.num

/-- All keys of the range before the last of the call, in 8 bits, and a byte for the number of keys. -/
def KeyRange.MergeFits (r : KeyRange) (first num : ℕ) : Prop := r.num = 0 ∨
  card8 ((r.first : ℤ) + r.num - 1) ≤ card8 ((first : ℤ) + num - 1) ∧ r.first + r.num ≤ min first r.first + 255

/-- A byte is enough for the number of keys from the first one of the keyboard. -/
def KeyRange.SweepFits (r : KeyRange) (d : CompatMap) : Prop := 0 < r.first ∧ r.first + r.num ≤ min r.first d.minKeyCode + 255

namespace CompatMap
variable {d : CompatMap} {c : XkbMapChanges} {s s' s'' : CompatMap × XkbMapChanges} {r : KeyRange} {key : ℕ}

/-- What changes is reported, with all that was reported before. -/
structure Covered (s s' : CompatMap × XkbMapChanges) : Prop where
  acts : ∀ key, s'.1.acts key ≠ s.1.acts key ∨ s.2.ReportsActs key → s'.2.ReportsActs key
  behaviors : ∀ key, s'.1.behaviors key ≠ s.1.behaviors key ∨ s.2.ReportsBehavior key → s'.2.ReportsBehavior key
  vmodmap : ∀ key, s'.1.vmodmap key ≠ s.1.vmodmap key ∨ s.2.ReportsVMods key → s'.2.ReportsVMods key

lemma Covered.refl : Covered s s := by
  constructor <;> exact fun key h => h.resolve_left fun hne => hne rfl

lemma Covered.trans (h : Covered s s') (h' : Covered s' s'') : Covered s s'' := by
  constructor
  · intro key hkey
    obtain heq | hne := eq_or_ne (s''.1.acts key) (s'.1.acts key)
    · rw [heq] at hkey
      exact h'.acts key (.inr (h.acts key hkey))
    · exact h'.acts key (.inl hne)
  · intro key hkey
    obtain heq | hne := eq_or_ne (s''.1.behaviors key) (s'.1.behaviors key)
    · rw [heq] at hkey
      exact h'.behaviors key (.inr (h.behaviors key hkey))
    · exact h'.behaviors key (.inl hne)
  · intro key hkey
    obtain heq | hne := eq_or_ne (s''.1.vmodmap key) (s'.1.vmodmap key)
    · rw [heq] at hkey
      exact h'.vmodmap key (.inr (h.vmodmap key hkey))
    · exact h'.vmodmap key (.inl hne)

lemma and_flag {x : BitVec 16} {b : ℕ} (hb : b < 16) : x &&& (1 : BitVec 16) <<< b ≠ 0 ↔ x.getLsbD b = true := by
  have hpow : (1 : BitVec 16) <<< b = BitVec.twoPow 16 b := (BitVec.twoPow_eq ..).symm
  rw [hpow,BitVec.and_twoPow]
  cases x.getLsbD b with
  | false => simp
  | true =>
    rw [if_pos rfl]
    refine ⟨fun _ => rfl,fun _ hzero => ?_⟩
    have h := congrArg (fun x => x.getLsbD b) hzero
    simp [hb] at h

lemma addKeyChange_has (h : r.AddFits key) {k : ℕ} (hk : k = key ∧ r.Reaches key ∨ r.Has k) (hbyte : key < 256) :
    (r.addKeyChange key).Has k := by
  unfold KeyRange.AddFits at h
  unfold KeyRange.Reaches at hk
  unfold KeyRange.addKeyChange KeyRange.Has card8 at *
  dsimp only
  split_ifs
  · dsimp only
    omega
  · dsimp only
    omega
  · omega

lemma noteKey_has {changed : BitVec 16} {b : ℕ} (hb : b < 16) (hbyte : key < 256)
    (hfit : changed.getLsbD b = true → c.changed.getLsbD b = true → r.AddFits key) {k : ℕ}
    (hk : changed.getLsbD b = true ∧ k = key ∧ (c.changed.getLsbD b = true → r.Reaches key) ∨
      c.changed.getLsbD b = true ∧ r.Has k) :
    (c.changed ||| changed) &&& (1 : BitVec 16) <<< b ≠ 0 ∧ (c.noteKey changed ((1 : BitVec 16) <<< b) r key).Has k := by
  rw [and_flag hb,BitVec.getLsbD_or]
  unfold XkbMapChanges.noteKey
  rw [BitVec.and_assoc]
  have hboth : changed &&& (c.changed &&& (1 : BitVec 16) <<< b) ≠ 0 ↔ changed.getLsbD b = true ∧ c.changed.getLsbD b = true := by
    rw [← BitVec.and_assoc,and_flag hb,BitVec.getLsbD_and,Bool.and_eq_true]
  simp only [hboth,and_flag hb]
  split_ifs with hall hnew
  · refine ⟨by simp [hall.1],addKeyChange_has (hfit hall.1 hall.2) (hk.imp ?_ And.right) hbyte⟩
    exact fun h => ⟨h.2.1,h.2.2 hall.2⟩
  · obtain ⟨-,rfl,-⟩ | ⟨hold,-⟩ := hk
    · exact ⟨by simp [hnew],le_rfl,Nat.lt_succ_self _⟩
    · exact absurd ⟨hnew,hold⟩ hall
  · obtain ⟨hflag,-⟩ | ⟨hold,hhas⟩ := hk
    · exact absurd hflag hnew
    · exact ⟨by simp [hold],hhas⟩

structure KeyFits (s : CompatMap × XkbMapChanges) (key : ℕ) : Prop where
  acts : (s.1.changed key).getLsbD 4 = true → s.2.changed.getLsbD 4 = true → s.2.keyActs.AddFits key ∧
    ((s.1.applyCompat key).acts key ≠ s.1.acts key → s.2.keyActs.Reaches key)
  behaviors : (s.1.changed key).getLsbD 5 = true → s.2.changed.getLsbD 5 = true → s.2.keyBehaviors.AddFits key ∧
    ((s.1.applyCompat key).behaviors key ≠ s.1.behaviors key → s.2.keyBehaviors.Reaches key)
  vmodmap : (s.1.changed key).getLsbD 7 = true → s.2.changed.getLsbD 7 = true → s.2.vmodMapKeys.AddFits key ∧
    ((s.1.applyCompat key).vmodmap key ≠ s.1.vmodmap key → s.2.vmodMapKeys.Reaches key)

lemma changed_bits (hskip : d.skips key = false) : (d.changed key).getLsbD 4 = (d.found key || d.clearsActs key) ∧
    (d.changed key).getLsbD 5 = (d.locks key || d.unlocks key) ∧ (d.changed key).getLsbD 7 = d.setsVMods key := by
  unfold changed
  rw [hskip]
  cases d.found key || d.clearsActs key <;> cases d.locks key || d.unlocks key <;> cases d.setsVMods key <;> decide

lemma applyCompat_changed (k : ℕ) :
    ((d.applyCompat key).acts k ≠ d.acts k → k = key ∧ (d.changed key).getLsbD 4 = true) ∧
    ((d.applyCompat key).behaviors k ≠ d.behaviors k → k = key ∧ (d.changed key).getLsbD 5 = true) ∧
    ((d.applyCompat key).vmodmap k ≠ d.vmodmap k → k = key ∧ (d.changed key).getLsbD 7 = true) := by
  unfold applyCompat
  cases hskip : d.skips key with
  | true => exact ⟨fun h => absurd rfl h,fun h => absurd rfl h,fun h => absurd rfl h⟩
  | false =>
    obtain ⟨hacts,hbehaviors,hvmods⟩ := changed_bits hskip
    rw [hacts,hbehaviors,hvmods]
    dsimp only [Bool.false_eq_true,if_false]
    simp only [Bool.false_eq_true,if_false]
    obtain rfl | hne := eq_or_ne k key
    · refine ⟨fun h => ⟨rfl,?_⟩,fun h => ⟨rfl,?_⟩,fun h => ⟨rfl,?_⟩⟩
      · rw [Function.update_self] at h
        cases hfound : d.found k with
        | true => rfl
        | false =>
          rw [hfound,if_neg (by decide)] at h
          unfold clearsActs
          rw [hfound,Option.isSome_iff_ne_none.2 h.symm]
          rfl
      · by_contra hno
        rw [Bool.or_eq_true,not_or] at hno
        rw [if_neg hno.1,if_neg hno.2] at h
        exact h rfl
      · by_contra hno
        rw [if_neg hno] at h
        exact h rfl
    · refine ⟨fun h => absurd ?_ h,fun h => absurd ?_ h,fun h => absurd ?_ h⟩
      · exact Function.update_of_ne hne _ _
      · split_ifs
        · exact Function.update_of_ne hne _ _
        · exact Function.update_of_ne hne _ _
        · rfl
      · split_ifs
        · exact Function.update_of_ne hne _ _
        · rfl

lemma covered_key (hfit : KeyFits s key) (hbyte : key < 256) : Covered s (applyCompatMapToKey s key) := by
  obtain ⟨d,c⟩ := s
  constructor
  · intro k hk
    apply noteKey_has (b := 4) (by decide) hbyte fun hbit hflag => (hfit.acts hbit hflag).1
    obtain hne | ⟨hflag,hhas⟩ := hk
    · obtain ⟨rfl,hbit⟩ := (applyCompat_changed k).1 hne
      exact .inl ⟨hbit,rfl,fun hflag => (hfit.acts hbit hflag).2 hne⟩
    · exact .inr ⟨(and_flag (by decide)).1 hflag,hhas⟩
  · intro k hk
    apply noteKey_has (b := 5) (by decide) hbyte fun hbit hflag => (hfit.behaviors hbit hflag).1
    obtain hne | ⟨hflag,hhas⟩ := hk
    · obtain ⟨rfl,hbit⟩ := (applyCompat_changed k).2.1 hne
      exact .inl ⟨hbit,rfl,fun hflag => (hfit.behaviors hbit hflag).2 hne⟩
    · exact .inr ⟨(and_flag (by decide)).1 hflag,hhas⟩
  · intro k hk
    apply noteKey_has (b := 7) (by decide) hbyte fun hbit hflag => (hfit.vmodmap hbit hflag).1
    obtain hne | ⟨hflag,hhas⟩ := hk
    · obtain ⟨rfl,hbit⟩ := (applyCompat_changed k).2.2 hne
      exact .inl ⟨hbit,rfl,fun hflag => (hfit.vmodmap hbit hflag).2 hne⟩
    · exact .inr ⟨(and_flag (by decide)).1 hflag,hhas⟩

lemma covered_bindVMods : Covered s (bindVMods s) := by
  obtain ⟨d,c⟩ := s
  unfold bindVMods
  split
  · have hmore : ∀ b : ℕ, b < 16 → c.changed &&& (1 : BitVec 16) <<< b ≠ 0 →
        (if (List.finRange 16).any d.rebinds then c.changed ||| xkbVirtualModsMask else c.changed) &&& (1 : BitVec 16) <<< b ≠ 0 := by
      intro b hb h
      rw [and_flag hb] at h ⊢
      split
      · rw [BitVec.getLsbD_or,h]
        rfl
      · exact h
    constructor
    · exact fun key h => ⟨hmore 4 (by decide) (h.resolve_left fun hne => hne rfl).1,(h.resolve_left fun hne => hne rfl).2⟩
    · exact fun key h => ⟨hmore 5 (by decide) (h.resolve_left fun hne => hne rfl).1,(h.resolve_left fun hne => hne rfl).2⟩
    · exact fun key h => ⟨hmore 7 (by decide) (h.resolve_left fun hne => hne rfl).1,(h.resolve_left fun hne => hne rfl).2⟩
  · exact Covered.refl

/-- What a sweep over keys in order has noted. -/
structure Swept (acts : ℕ → Option (List CompatAction)) (seen : List ℕ) (w : KeySweep) : Prop where
  changes : ∀ k, w.acts k ≠ acts k → ∃ low, w.lowChange = some low ∧ low ≤ k ∧ k ≤ w.highChange
  low : ∀ low, w.lowChange = some low → low ∈ seen ∧ w.highChange ∈ seen

lemma Swept.visit {acts : ℕ → Option (List CompatAction)} {seen : List ℕ} {w : KeySweep} (h : Swept acts seen w)
    (vmods : Fin 16 → BitVec 8) (changed : BitVec 32) (hle : ∀ k ∈ seen, k ≤ key) :
    Swept acts (seen ++ [key]) (w.visit vmods changed key) := by
  have hsame : Swept acts (seen ++ [key]) w := by
    refine ⟨h.changes,fun low hlow => ?_⟩
    obtain ⟨hmem,hhigh⟩ := h.low low hlow
    exact ⟨List.mem_append_left _ hmem,List.mem_append_left _ hhigh⟩
  unfold KeySweep.visit
  split
  · exact hsame
  · dsimp only
    split
    · refine ⟨fun k hk => ?_,fun low hlow => ⟨?_,List.mem_append_right _ (List.mem_singleton_self key)⟩⟩
      · refine ⟨_,rfl,?_⟩
        dsimp only at hk ⊢
        obtain rfl | hne := eq_or_ne k key
        · cases hlow : w.lowChange with
          | none => exact ⟨le_rfl,le_rfl⟩
          | some low => exact ⟨hle low (h.low low hlow).1,le_rfl⟩
        · rw [Function.update_of_ne hne] at hk
          obtain ⟨low,hlow,hlk,hkh⟩ := h.changes k hk
          rw [hlow]
          exact ⟨hlk,hkh.trans (hle _ (h.low low hlow).2)⟩
      · dsimp only at hlow
        cases hold : w.lowChange with
        | none =>
          rw [hold] at hlow
          cases hlow
          exact List.mem_append_right _ (List.mem_singleton_self key)
        | some low' =>
          rw [hold] at hlow
          cases hlow
          exact List.mem_append_left _ (h.low _ hold).1
    · exact hsame

lemma swept_foldl {acts : ℕ → Option (List CompatAction)} (vmods : Fin 16 → BitVec 8) (changed : BitVec 32) {keys : List ℕ}
    (hsort : keys.Pairwise (· ≤ ·)) : Swept acts keys (keys.foldl (KeySweep.visit vmods changed) { acts := acts }) := by
  induction keys using List.reverseRecOn with
  | nil => exact ⟨fun k hk => absurd rfl hk,fun low hlow => by cases hlow⟩
  | append_singleton keys key ih =>
    obtain ⟨hkeys,-,hlast⟩ := List.pairwise_append.1 hsort
    rw [List.foldl_append]
    exact (ih hkeys).visit vmods changed fun k hk => hlast k hk key (List.mem_singleton_self key)

lemma sweep_has {n high k : ℕ} (hfit : c.changed &&& xkbKeyActionsMask ≠ 0 → c.keyActs.SweepFits d) (hlow : d.minKeyCode ≤ n + 1)
    (hhigh : high < 256) (hmin : xkbMinLegalKeyCode ≤ d.minKeyCode) (hk : n + 1 ≤ k ∧ k ≤ high ∨ c.ReportsActs k) :
    (c.addKeyActs (some (n+1)) high).keyActs.Has k := by
  unfold XkbMapChanges.ReportsActs KeyRange.Has at hk
  unfold XkbMapChanges.addKeyActs KeyRange.Has card8
  unfold KeyRange.SweepFits at hfit
  unfold xkbMinLegalKeyCode at hmin
  dsimp only
  obtain hno | hmerge := em (c.changed &&& xkbKeyActionsMask = 0)
  · have hk := hk.resolve_right fun h => h.1 hno
    simp only [hno,ne_eq,not_true_eq_false,false_and,if_false]
    omega
  · have hfit := hfit hmerge
    simp only [ne_eq,hmerge,not_false_eq_true,true_and] at hk ⊢
    split_ifs <;> omega

lemma covered_applyVMods (hfit : s.2.changed.getLsbD 4 = true → s.2.keyActs.SweepFits s.1) : Covered s (applyVMods s) := by
  obtain ⟨d,c⟩ := s
  unfold applyVMods
  split
  · have hswept : Swept d.acts d.keys (d.keys.foldl (KeySweep.visit d.vmods (c.vmods.setWidth 32)) { acts := d.acts }) :=
      swept_foldl d.vmods (c.vmods.setWidth 32) List.pairwise_le_range'
    dsimp only
    generalize d.keys.foldl (KeySweep.visit d.vmods (c.vmods.setWidth 32)) { acts := d.acts } = w at hswept ⊢
    cases hlow : w.lowChange with
    | none =>
      have hacts : w.acts = d.acts := by
        funext k
        by_contra hne
        obtain ⟨low,hsome,-⟩ := hswept.changes k hne
        rw [hlow] at hsome
        cases hsome
      rw [hacts]
      exact Covered.refl
    | some low =>
      obtain ⟨hlowIn,hhighIn⟩ := hswept.low low hlow
      have hlegal := d.legal
      have hlowKey := List.mem_range'_1.1 hlowIn
      have hhighKey := List.mem_range'_1.1 hhighIn
      unfold xkbMinLegalKeyCode xkbMaxLegalKeyCode at hlegal
      obtain ⟨n,rfl⟩ := Nat.exists_eq_add_of_le' (show 1 ≤ low by omega)
      have hmore : ∀ b : ℕ, b < 16 → c.changed &&& (1 : BitVec 16) <<< b ≠ 0 →
          (c.changed ||| xkbKeyActionsMask) &&& (1 : BitVec 16) <<< b ≠ 0 := by
        intro b hb h
        rw [and_flag hb] at h ⊢
        rw [BitVec.getLsbD_or,h]
        rfl
      constructor
      · intro key hkey
        have hkey : (n + 1 ≤ key ∧ key ≤ w.highChange) ∨ c.ReportsActs key := by
          apply hkey.imp_left
          intro hne
          obtain ⟨low,hsome,hle⟩ := hswept.changes key hne
          cases hlow.symm.trans hsome
          exact hle
        refine ⟨?_,sweep_has (fun hmerge => hfit ((and_flag (by decide)).1 hmerge)) hlowKey.1 ?_ ?_ hkey⟩
        · change (c.changed ||| xkbKeyActionsMask) &&& (1 : BitVec 16) <<< 4 ≠ 0
          rw [and_flag (by decide),BitVec.getLsbD_or]
          exact Bool.or_true _
        · omega
        · exact d.legal.1
      · exact fun key h => ⟨hmore 5 (by decide) (h.resolve_left fun hne => hne rfl).1,(h.resolve_left fun hne => hne rfl).2⟩
      · exact fun key h => ⟨hmore 7 (by decide) (h.resolve_left fun hne => hne rfl).1,(h.resolve_left fun hne => hne rfl).2⟩
  · exact Covered.refl

lemma covered_mergeActs {first num : ℕ} (hfit : s.2.changed.getLsbD 4 = true → s.2.keyActs.MergeFits first num) :
    Covered s (s.1,s.2.mergeActs first num) := by
  obtain ⟨d,c⟩ := s
  unfold XkbMapChanges.mergeActs
  split
  · rename_i hflag
    have hfit := hfit ((and_flag (by decide)).1 hflag)
    constructor
    · intro key hkey
      refine ⟨hflag,?_⟩
      have hhas := (hkey.resolve_left fun hne => hne rfl).2
      unfold KeyRange.MergeFits card8 at hfit
      unfold KeyRange.Has card8 at *
      dsimp only at *
      split_ifs <;> omega
    · exact fun key h => h.resolve_left fun hne => hne rfl
    · exact fun key h => h.resolve_left fun hne => hne rfl
  · rename_i hflag
    have hmore : ∀ b : ℕ, b < 16 → c.changed &&& (1 : BitVec 16) <<< b ≠ 0 →
        (c.changed ||| xkbKeyActionsMask) &&& (1 : BitVec 16) <<< b ≠ 0 := by
      intro b hb h
      rw [and_flag hb] at h ⊢
      rw [BitVec.getLsbD_or,h]
      rfl
    constructor
    · exact fun key h => absurd (h.resolve_left fun hne => hne rfl).1 hflag
    · exact fun key h => ⟨hmore 5 (by decide) (h.resolve_left fun hne => hne rfl).1,(h.resolve_left fun hne => hne rfl).2⟩
    · exact fun key h => ⟨hmore 7 (by decide) (h.resolve_left fun hne => hne rfl).1,(h.resolve_left fun hne => hne rfl).2⟩

def KeysFit : CompatMap × XkbMapChanges → List ℕ → Prop
  | _, [] => True
  | s, key::keys => KeyFits s key ∧ KeysFit (applyCompatMapToKey s key) keys

structure CallFits (s : CompatMap × XkbMapChanges) (call : KeyRange) : Prop where
  keys : KeysFit s ((List.range' call.first call.num).map (· % 256))
  sweep : ∀ s', s' = bindVMods (((List.range' call.first call.num).map (· % 256)).foldl applyCompatMapToKey s) →
    s'.2.changed.getLsbD 4 = true → s'.2.keyActs.SweepFits s'.1
  merge : ∀ s', s' = applyVMods (bindVMods (((List.range' call.first call.num).map (· % 256)).foldl applyCompatMapToKey s)) →
    s'.2.changed.getLsbD 4 = true → s'.2.keyActs.MergeFits call.first call.num

def RunFits : CompatMap × XkbMapChanges → List KeyRange → Prop
  | _, [] => True
  | s, call::calls => CallFits s call ∧ RunFits (updateDescActions s call) calls

lemma covered_keys {keys : List ℕ} (hbyte : ∀ key ∈ keys, key < 256) (h : KeysFit s keys) :
    Covered s (keys.foldl applyCompatMapToKey s) := by
  induction keys generalizing s with
  | nil => exact Covered.refl
  | cons key keys ih =>
    exact (covered_key h.1 (hbyte key (by simp))).trans (ih (fun key hkey => hbyte key (List.mem_cons_of_mem _ hkey)) h.2)

lemma covered_updateDescActions {call : KeyRange} (h : CallFits s call) : Covered s (updateDescActions s call) := by
  have hbyte : ∀ key ∈ (List.range' call.first call.num).map (· % 256), key < 256 := by
    intro key hkey
    obtain ⟨n,-,rfl⟩ := List.mem_map.1 hkey
    exact Nat.mod_lt _ (by decide)
  exact (((covered_keys hbyte h.keys).trans covered_bindVMods).trans (covered_applyVMods (h.sweep _ rfl))).trans
    (covered_mergeActs (h.merge _ rfl))

/-- In a run of calls whose steps all find room in the ranges, what differs in the end is reported, and so is what was
reported before. -/
theorem run_covered {calls : List KeyRange} (h : RunFits s calls) : Covered s (calls.foldl updateDescActions s) := by
  induction calls generalizing s with
  | nil => exact Covered.refl
  | cons call calls ih => exact (covered_updateDescActions h.1).trans (ih h.2)

def twoLocks : CompatMap where
  minKeyCode := 8
  maxKeyCode := 15
  legal := by decide
  syms key := if key = 10 ∨ key = 12 then [0x41] else []
  width _ := 1
  modmap _ := 0
  explicit _ := 0
  vmodmap _ := 0
  behaviors _ := {}
  acts _ := none
  vmods _ := 0
  symInterpret := [⟨0x41,0,0,0,0xff,{ type := .lockMods, mods := { mask := 1, realMods := 1 }, none := false }⟩]

/-- One of the keys. -/
theorem run_covered_oneKey : Covered (twoLocks,{}) ([(⟨10,1⟩ : KeyRange)].foldl updateDescActions (twoLocks,{})) :=
  run_covered ⟨⟨⟨⟨fun _ h => absurd h (by decide),fun _ h => absurd h (by decide),fun _ h => absurd h (by decide)⟩,trivial⟩,
    fun s' hs' _ => by subst hs'; unfold KeyRange.SweepFits; decide,
    fun s' hs' _ => by subst hs'; unfold KeyRange.MergeFits; decide⟩,trivial⟩

/-- Both keys in one call: the second one is not reported. -/
theorem twoLocks_lost : ¬ Covered (twoLocks,{}) ([(⟨10,3⟩ : KeyRange)].foldl updateDescActions (twoLocks,{})) := by
  intro h
  have hreports := h.acts 12 (.inl nofun)
  exact absurd hreports.2 (by unfold KeyRange.Has; decide)

end CompatMap

end Xlibre.Xkb
