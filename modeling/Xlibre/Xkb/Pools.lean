import Mathlib.Algebra.Order.BigOperators.Group.List
import Mathlib.Algebra.Order.Group.Nat
import Xlibre.Xkb.ResizeType

/-! The pools of symbols and of actions, while keys get other numbers of groups and levels. -/
namespace Xlibre.Xkb
open Rows

/-- The symbols and the actions of the keys. There are as many as `size_syms` and `size_acts`; `keyActs` is 0 for a key that
has no actions. -/
structure KeyPools extends SymsPool where
  acts : List XkbAction
  numActs : ℕ
  keyActs : ℕ → ℕ

structure KeyChange where
  key : ℕ
  nGroups : ℕ
  width : ℕ

def KeyChange.needed (c : KeyChange) : ℕ := c.nGroups*c.width

/-- `XkbSetNumGroups` -/
def setNumGroups (groupInfo : BitVec 8) (n : ℕ) : BitVec 8 := groupInfo &&& 0xf0 ||| BitVec.ofNat 8 n &&& 0x0f

namespace KeyPools
variable (d : KeyPools) (key needed : ℕ)

/-- `XkbKeySymsOffset` -/
def offset : ℕ := (d.keySymMap key).offset

/-- Other symbols, and where those of the keys are. -/
def withSyms (offset : ℕ → ℕ) (syms : List KeySym) (numSyms : ℕ) : KeyPools :=
  { d with
    keySymMap key := { d.keySymMap key with offset := offset key }
    syms
    numSyms }

/-- `XkbKeyNumActions` -/
def keyNumActions : ℕ := if d.keyActs key ≠ 0 then d.keyNumSyms key else 1

def nKeySyms : ℕ → ℕ := Function.update d.keyNumSyms key needed

def nKeyActs : ℕ → ℕ := Function.update d.keyNumActions key needed

def nCopyActs (i : ℕ) : ℕ := if i = key ∧ needed < d.keyNumActions i then needed else d.keyNumActions i

/-- `size_syms` of a new pool, in its 16 bits. -/
def newSizeSyms : ℕ := (d.syms.length + if needed > 32 then needed else 32) % 65536

/-- `size_acts` of a new pool. -/
def newSizeActs : ℕ := (d.numActs + needed + 8) % 65536

/-- `XkbResizeKeySyms`; nothing when it reads or writes outside of the symbols. -/
def resizeKeySyms : Option KeyPools :=
  if needed = 0 then some (d.withSyms (Function.update d.offset key 0) d.syms d.numSyms)
  else if d.keyNumSyms key ≥ needed then some d
  -- The difference is compared as an unsigned number.
  else if d.syms.length < d.numSyms ∨ d.syms.length - d.numSyms ≥ needed then do
    let s ← moveBlock d.syms noSymbol d.offset d.keyNumSyms (d.nKeySyms key needed) ⟨d.syms,d.numSyms,d.offset⟩ key
    some (d.withSyms s.off s.row (s.next % 65536))
  else do
    let newSyms := List.replicate (d.newSizeSyms needed) noSymbol
    let keys := d.keys.filter fun i => d.keyNumSyms i ≠ 0 ∨ i = key
    let s ← keys.foldlM (moveBlock d.syms noSymbol d.offset d.keyNumSyms (d.nKeySyms key needed)) ⟨newSyms,1,d.offset⟩
    some (d.withSyms s.off s.row (s.next % 65536))

/-- `XkbResizeKeyActions`; the actions that a key had are not copied to the end of the pool. -/
def resizeKeyActions : Option KeyPools :=
  if needed = 0 then some { d with keyActs := Function.update d.keyActs key 0 }
  else if d.keyActs key ≠ 0 ∧ d.keyNumSyms key ≥ needed then some d
  else if d.acts.length < d.numActs ∨ d.acts.length - d.numActs ≥ needed then
    some { d with keyActs := Function.update d.keyActs key d.numActs, numActs := (d.numActs + needed) % 65536 }
  else do
    let newActs := List.replicate (d.newSizeActs needed) XkbAction.zeroed
    let keys := d.keys.filter fun i => d.keyActs i ≠ 0 ∨ i = key
    let s ← keys.foldlM (moveBlock d.acts .zeroed d.keyActs (d.nCopyActs key needed) (d.nKeyActs key needed))
      ⟨newActs,1,d.keyActs⟩
    some { d with acts := s.row, keyActs := s.off, numActs := s.next % 65536 }

/-- The new number of groups and the new width. -/
def storeShape (c : KeyChange) : KeyPools :=
  { d with keySymMap := Function.update d.keySymMap c.key { d.keySymMap c.key with
    groupInfo := setNumGroups (d.keySymMap c.key).groupInfo c.nGroups
    width := c.width % 256 } }

/-- The actions, if the key has any, and the new shape. -/
def finish (c : KeyChange) : Option KeyPools := do
  let d ← (if d.keyActs c.key ≠ 0 then d.resizeKeyActions c.key c.needed else some d)
  some (d.storeShape c)

/-- Symbols and actions of a key have their own places in the pools. -/
structure WellFormed (d : KeyPools) : Prop where
  size : d.syms.length < 65536 ∧ d.acts.length < 65536
  numSyms : d.numSyms ≤ d.syms.length
  numActs : d.numActs ≤ d.acts.length
  firstAct : ∀ key ∈ d.keys, d.keyActs key ≠ 0 → 1 ≤ d.numActs
  syms : Apart d.keys d.offset d.keyNumSyms d.numSyms
  acts : Apart d.keys d.keyActs (fun key => if d.keyActs key ≠ 0 then d.keyNumSyms key else 0) d.numActs

/-- A change that the keymap can have. -/
structure Legal (d : KeyPools) (c : KeyChange) : Prop where
  key : c.key ∈ d.keys
  nGroups : c.nGroups < 16
  width : c.width < 256
  needed : c.needed ≤ 252

structure KeepsKey (d d' : KeyPools) (key : ℕ) : Prop where
  num : d'.keyNumSyms key = d.keyNumSyms key
  syms : ∀ i < d.keyNumSyms key, d'.syms[d'.offset key + i]? = d.syms[d.offset key + i]?
  hasActs : d'.keyActs key = 0 ↔ d.keyActs key = 0
  acts : d.keyActs key ≠ 0 → ∀ i < d.keyNumSyms key, d'.acts[d'.keyActs key + i]? = d.acts[d.keyActs key + i]?

/-- What one change leaves, and where the places that it returns are: after the symbols, and in the end. -/
structure Keeps (d : KeyPools) (c : KeyChange) (d₁ d' : KeyPools) : Prop where
  others : ∀ key ∈ d.keys, key ≠ c.key → KeepsKey d d₁ key ∧ KeepsKey d d' key
  first : ∀ i < min (d.keyNumSyms c.key) c.needed, d₁.syms[d₁.offset c.key + i]? = d.syms[d.offset c.key + i]?
  symsPlace : 0 < c.needed → d₁.offset c.key + c.needed ≤ d₁.syms.length
  actsPlace : 0 < c.needed → d.keyActs c.key ≠ 0 → d'.keyActs c.key + c.needed ≤ d'.acts.length
  sizes : d'.numSyms ≤ d'.syms.length ∧ d'.numActs ≤ d'.acts.length

/-- Changes one after the other, each with what it should leave. -/
def RunKeeps : KeyPools → List KeyChange → Prop
  | _, [] => True
  | d, c::cs => ∃ d₁ d', d.resizeKeySyms c.key c.needed = some d₁ ∧ d₁.finish c = some d' ∧ Keeps d c d₁ d' ∧ RunKeeps d' cs

/-- A new pool of symbols, if there has to be one, has room for those of all keys in its 16 bits; and so for actions. -/
def Fits (d : KeyPools) (c : KeyChange) : Prop :=
  (c.needed ≤ d.keyNumSyms c.key ∨ d.numSyms + c.needed ≤ d.syms.length ∨
    1 + ((d.keys.filter fun i => d.keyNumSyms i ≠ 0 ∨ i = c.key).map (d.nKeySyms c.key c.needed)).sum ≤ d.newSizeSyms c.needed) ∧
  (d.keyActs c.key = 0 ∨ c.needed ≤ d.keyNumSyms c.key ∨ d.numActs + c.needed ≤ d.acts.length ∨
    1 + ((d.keys.filter fun i => d.keyActs i ≠ 0 ∨ i = c.key).map (d.nKeyActs c.key c.needed)).sum ≤ d.newSizeActs c.needed)

/-- The step after which the pools are those. -/
def changeKey (c : KeyChange) : Option KeyPools := (d.resizeKeySyms c.key c.needed).bind fun d => d.finish c

def RunFits : KeyPools → List KeyChange → Prop
  | _, [] => True
  | d, c::cs => Fits d c ∧ ∀ d', d.changeKey c = some d' → RunFits d' cs

/-- The actions of a key, if it has any. -/
def numActsOf (d : KeyPools) (key : ℕ) : ℕ := if d.keyActs key ≠ 0 then d.keyNumSyms key else 0

variable {d d' : KeyPools} {key needed : ℕ} {c : KeyChange}

lemma nodup_keys : d.keys.Nodup := List.nodup_range'

lemma keyNumSyms_le (hmore : d.keyNumSyms key ≤ needed) (i : ℕ) : d.keyNumSyms i ≤ d.nKeySyms key needed i := by
  unfold nKeySyms
  obtain rfl | hne := eq_or_ne i key
  · rwa [Function.update_self]
  · rw [Function.update_of_ne hne]

lemma moveSyms (h : d.WellFormed) (hkey : key ∈ d.keys) (hmore : d.keyNumSyms key < needed) {row : List KeySym}
    (hroom : 1 + ((d.keys.filter fun i => d.keyNumSyms i ≠ 0 ∨ i = key).map (d.nKeySyms key needed)).sum ≤ row.length) :
    ∃ s, (d.keys.filter fun i => d.keyNumSyms i ≠ 0 ∨ i = key).foldlM
      (moveBlock d.syms noSymbol d.offset d.keyNumSyms (d.nKeySyms key needed)) ⟨row,1,d.offset⟩ = some s ∧
      s.row.length = row.length ∧ Resized d.keys d.syms d.offset d.keyNumSyms key needed s.row s.off s.next ∧
      ∀ i < d.keyNumSyms key, s.row[s.off key + i]? = d.syms[d.offset key + i]? := by
  have hle : ∀ i ∈ d.keys.filter (fun i => d.keyNumSyms i ≠ 0 ∨ i = key), d.keyNumSyms i ≤ d.nKeySyms key needed i :=
    fun i _ => keyNumSyms_le hmore.le i
  have hold : ∀ i ∈ d.keys.filter (fun i => d.keyNumSyms i ≠ 0 ∨ i = key), 0 < d.keyNumSyms i →
      d.offset i + d.keyNumSyms i ≤ d.syms.length :=
    fun i hi hpos => (h.syms.last i (List.mem_of_mem_filter hi) hpos).trans h.numSyms
  obtain ⟨s,hrun,hlen,hmoved⟩ : ∃ s, (d.keys.filter fun i => d.keyNumSyms i ≠ 0 ∨ i = key).foldlM
      (moveBlock d.syms noSymbol d.offset d.keyNumSyms (d.nKeySyms key needed)) ⟨row,1,d.offset⟩ = some s ∧
      s.row.length = row.length ∧ Moved d.syms d.offset d.keyNumSyms (d.nKeySyms key needed)
        (d.keys.filter fun i => d.keyNumSyms i ≠ 0 ∨ i = key) s := foldlM_moveBlock (nodup_keys.filter _) hle hold hroom
  refine ⟨s,hrun,hlen,?_,fun i hi => hmoved.values key ?_ i hi⟩
  · apply hmoved.resized
    · rw [hmoved.next,hlen]
      exact hroom
    · exact fun _ _ => rfl
    · intro i hi hpos
      rw [List.mem_filter,decide_eq_true_iff]
      refine ⟨hi,?_⟩
      obtain rfl | hne := eq_or_ne i key
      · exact .inr rfl
      · rw [Function.update_of_ne hne] at hpos
        exact .inl hpos.ne'
    · exact fun _ _ _ => rfl
  · rw [List.mem_filter,decide_eq_true_iff]
    exact ⟨hkey,.inr rfl⟩

lemma resizeKeySyms_some (h : d.WellFormed) (hkey : key ∈ d.keys)
    (hfit : needed ≤ d.keyNumSyms key ∨ d.numSyms + needed ≤ d.syms.length ∨
      1 + ((d.keys.filter fun i => d.keyNumSyms i ≠ 0 ∨ i = key).map (d.nKeySyms key needed)).sum ≤ d.newSizeSyms needed) :
    ∃ off syms num, d.resizeKeySyms key needed = some (d.withSyms off syms num) ∧
      Resized d.keys d.syms d.offset d.keyNumSyms key needed syms off num ∧ syms.length < 65536 ∧
      ∀ i < min (d.keyNumSyms key) needed, syms[off key + i]? = d.syms[d.offset key + i]? := by
  unfold resizeKeySyms
  split_ifs with hzero henough hend
  · subst hzero
    exact ⟨_,_,_,rfl,h.syms.resized_zero h.numSyms 0,h.size.1,fun i hi => by omega⟩
  · exact ⟨d.offset,_,_,rfl,h.syms.resized h.numSyms henough,h.size.1,fun _ _ => rfl⟩
  · have hnum := h.numSyms
    have hsize := h.size.1
    have hroom : d.numSyms + needed ≤ d.syms.length := by omega
    have hnew : d.nKeySyms key needed key = needed := Function.update_self _ _ _
    obtain ⟨syms,hmove,hbefore,hown⟩ : ∃ syms, moveBlock d.syms noSymbol d.offset d.keyNumSyms (d.nKeySyms key needed)
          ⟨d.syms,d.numSyms,d.offset⟩ key =
            some ⟨syms,d.numSyms + d.nKeySyms key needed key,Function.update d.offset key d.numSyms⟩ ∧
        (∀ i < d.numSyms, syms[i]? = d.syms[i]?) ∧ ∀ i < d.keyNumSyms key, syms[d.numSyms + i]? = d.syms[d.offset key + i]? :=
      moveBlock_some (by omega) (fun hpos => (h.syms.last key hkey hpos).trans h.numSyms) (by rw [hnew]; exact hroom)
    have hlen : syms.length = d.syms.length := length_moveBlock hmove
    refine ⟨_,_,_,?_,h.syms.resized_append (by rwa [hlen]) hbefore,by rwa [hlen],fun i hi => ?_⟩
    · change Option.bind _ (fun s => _) = _
      rw [hmove,Option.bind_some,hnew]
      dsimp only
      rw [Nat.mod_eq_of_lt (by omega)]
    · rw [Function.update_self]
      exact hown i (by omega)
  · have hroom := (hfit.resolve_left henough).resolve_left (by omega)
    have hsize : d.newSizeSyms needed < 65536 := Nat.mod_lt _ (by decide)
    have hmore : d.keyNumSyms key < needed := by omega
    rw [← List.length_replicate (n := d.newSizeSyms needed) (a := noSymbol)] at hroom
    obtain ⟨s,hrun,hlen,hresized,hown⟩ := moveSyms h hkey hmore hroom
    rw [List.length_replicate] at hlen
    have hnext := hresized.size
    refine ⟨s.off,s.row,s.next,?_,hresized,by omega,fun i hi => hown i (by omega)⟩
    change Option.bind _ (fun s => _) = _
    rw [hrun,Option.bind_some,Nat.mod_eq_of_lt (by omega)]

lemma fits_of_resizeKeySyms (h : d.WellFormed) (hkey : key ∈ d.keys) (hrun : d.resizeKeySyms key needed = some d') :
    needed ≤ d.keyNumSyms key ∨ d.numSyms + needed ≤ d.syms.length ∨
      1 + ((d.keys.filter fun i => d.keyNumSyms i ≠ 0 ∨ i = key).map (d.nKeySyms key needed)).sum ≤ d.newSizeSyms needed := by
  have hnum := h.numSyms
  unfold resizeKeySyms at hrun
  split_ifs at hrun with hzero henough hend
  · left
    omega
  · exact .inl henough
  · right
    left
    omega
  · right
    right
    obtain ⟨s,hmove,-⟩ := Option.bind_eq_some_iff.1 hrun
    have hle : ∀ i ∈ d.keys.filter (fun i => d.keyNumSyms i ≠ 0 ∨ i = key), d.keyNumSyms i ≤ d.nKeySyms key needed i :=
      fun i _ => keyNumSyms_le (by omega) i
    obtain ⟨-,hnext,hroom⟩ := room_of_foldlM hle hmove
    have hmem : key ∈ d.keys.filter (fun i => d.keyNumSyms i ≠ 0 ∨ i = key) := by
      rw [List.mem_filter,decide_eq_true_iff]
      exact ⟨hkey,.inr rfl⟩
    have hsum := List.single_le_sum (fun _ _ => Nat.zero_le _) _ (List.mem_map_of_mem (f := d.nKeySyms key needed) hmem)
    have hnew : d.nKeySyms key needed key = needed := Function.update_self _ _ _
    rw [List.length_replicate] at hroom
    omega

/-- The part of it that is about actions. -/
structure ActsWellFormed (d : KeyPools) : Prop where
  size : d.acts.length < 65536
  numActs : d.numActs ≤ d.acts.length
  firstAct : ∀ key ∈ d.keys, d.keyActs key ≠ 0 → 1 ≤ d.numActs
  acts : Apart d.keys d.keyActs d.numActsOf d.numActs

lemma nCopyActs_le (i : ℕ) : d.nCopyActs key needed i ≤ d.nKeyActs key needed i := by
  unfold nCopyActs nKeyActs
  obtain rfl | hne := eq_or_ne i key
  · rw [Function.update_self]
    split_ifs <;> omega
  · rw [Function.update_of_ne hne,if_neg fun heq => hne heq.1]

lemma actCounts (hhas : d.keyActs key ≠ 0) (hmore : d.keyNumSyms key < needed) {i : ℕ}
    (hi : i ∈ d.keys.filter fun i => d.keyActs i ≠ 0 ∨ i = key) :
    d.nCopyActs key needed i = d.numActsOf i ∧ d.nKeyActs key needed i = Function.update d.numActsOf key needed i := by
  rw [List.mem_filter,decide_eq_true_iff] at hi
  have hacts : d.keyActs i ≠ 0 := hi.2.elim id fun heq => by rwa [heq]
  have hnumber : d.keyNumActions i = d.numActsOf i := by
    unfold keyNumActions numActsOf
    rw [if_pos hacts,if_pos hacts]
  have hsyms : d.keyNumActions i = d.keyNumSyms i := if_pos hacts
  unfold nCopyActs nKeyActs
  obtain rfl | hne := eq_or_ne i key
  · rw [if_neg (by omega),Function.update_self,Function.update_self]
    exact ⟨hnumber,rfl⟩
  · rw [if_neg fun heq => hne heq.1,Function.update_of_ne hne,Function.update_of_ne hne]
    exact ⟨hnumber,hnumber⟩

lemma moveActs (h : d.ActsWellFormed) (hkey : key ∈ d.keys) (hhas : d.keyActs key ≠ 0) (hmore : d.keyNumSyms key < needed)
    {row : List XkbAction}
    (hroom : 1 + ((d.keys.filter fun i => d.keyActs i ≠ 0 ∨ i = key).map (d.nKeyActs key needed)).sum ≤ row.length) :
    ∃ s, (d.keys.filter fun i => d.keyActs i ≠ 0 ∨ i = key).foldlM
      (moveBlock d.acts .zeroed d.keyActs (d.nCopyActs key needed) (d.nKeyActs key needed)) ⟨row,1,d.keyActs⟩ = some s ∧
      s.row.length = row.length ∧ Resized d.keys d.acts d.keyActs d.numActsOf key needed s.row s.off s.next ∧ 1 ≤ s.next ∧
      (∀ i ∈ d.keys, i ≠ key → (s.off i = 0 ↔ d.keyActs i = 0)) ∧ s.off key ≠ 0 := by
  have hold : ∀ i ∈ d.keys.filter (fun i => d.keyActs i ≠ 0 ∨ i = key), 0 < d.nCopyActs key needed i →
      d.keyActs i + d.nCopyActs key needed i ≤ d.acts.length := by
    intro i hi hpos
    rw [(actCounts hhas hmore hi).1] at hpos ⊢
    exact (h.acts.last i (List.mem_of_mem_filter hi) hpos).trans h.numActs
  obtain ⟨s,hrun,hlen,hmoved⟩ : ∃ s, (d.keys.filter fun i => d.keyActs i ≠ 0 ∨ i = key).foldlM
      (moveBlock d.acts .zeroed d.keyActs (d.nCopyActs key needed) (d.nKeyActs key needed)) ⟨row,1,d.keyActs⟩ = some s ∧
      s.row.length = row.length ∧ Moved d.acts d.keyActs (d.nCopyActs key needed) (d.nKeyActs key needed)
        (d.keys.filter fun i => d.keyActs i ≠ 0 ∨ i = key) s :=
    foldlM_moveBlock (nodup_keys.filter _) (fun i _ => nCopyActs_le i) hold hroom
  have hin : ∀ i ∈ d.keys, d.keyActs i ≠ 0 ∨ i = key → i ∈ d.keys.filter fun i => d.keyActs i ≠ 0 ∨ i = key := by
    intro i hi hor
    rw [List.mem_filter,decide_eq_true_iff]
    exact ⟨hi,hor⟩
  refine ⟨s,hrun,hlen,?_,?_,fun i hi hne => ?_,?_⟩
  · apply hmoved.resized
    · rw [hmoved.next,hlen]
      exact hroom
    · exact fun i hi => (actCounts hhas hmore hi).2
    · intro i hi hpos
      apply hin i hi
      obtain rfl | hne := eq_or_ne i key
      · exact .inr rfl
      · rw [Function.update_of_ne hne] at hpos
        unfold numActsOf at hpos
        exact .inl fun hzero => by simp [hzero] at hpos
    · exact fun i hi _ => (actCounts hhas hmore hi).1
  · rw [hmoved.next]
    exact Nat.le_add_right _ _
  · constructor
    · intro hoff
      by_contra hacts
      have hone := hmoved.first i (hin i hi (.inl hacts))
      omega
    · intro hacts
      rw [hmoved.stays i fun hmem => ?_,hacts]
      rw [List.mem_filter,decide_eq_true_iff] at hmem
      exact hmem.2.elim (fun hacts' => hacts' hacts) hne
  · have hone := hmoved.first key (hin key hkey (.inr rfl))
    omega

lemma resizeKeyActions_some (h : d.ActsWellFormed) (hkey : key ∈ d.keys) (hhas : d.keyActs key ≠ 0)
    (hfit : needed ≤ d.keyNumSyms key ∨ d.numActs + needed ≤ d.acts.length ∨
      1 + ((d.keys.filter fun i => d.keyActs i ≠ 0 ∨ i = key).map (d.nKeyActs key needed)).sum ≤ d.newSizeActs needed) :
    ∃ off acts num, d.resizeKeyActions key needed = some { d with acts := acts, keyActs := off, numActs := num } ∧
      Resized d.keys d.acts d.keyActs d.numActsOf key needed acts off num ∧ acts.length < 65536 ∧ 1 ≤ num ∧
      (∀ i ∈ d.keys, i ≠ key → (off i = 0 ↔ d.keyActs i = 0)) ∧ (0 < needed → off key ≠ 0) := by
  have hfirst := h.firstAct key hkey hhas
  have hnum := h.numActs
  have hsize := h.size
  have hlen : d.numActsOf key = d.keyNumSyms key := if_pos hhas
  unfold resizeKeyActions
  split_ifs with hzero henough hend
  · subst hzero
    exact ⟨_,_,_,rfl,h.acts.resized_zero hnum 0,hsize,hfirst,fun i _ hne => by rw [Function.update_of_ne hne],nofun⟩
  · exact ⟨_,_,_,rfl,h.acts.resized hnum (henough.2.trans hlen.ge),hsize,hfirst,fun _ _ _ => Iff.rfl,fun _ => hhas⟩
  · have hroom : d.numActs + needed ≤ d.acts.length := by omega
    refine ⟨_,_,_,rfl,?_,hsize,?_,fun i _ hne => by rw [Function.update_of_ne hne],fun _ => ?_⟩
    · rw [Nat.mod_eq_of_lt (by omega)]
      exact h.acts.resized_append hroom fun _ _ => rfl
    · rw [Nat.mod_eq_of_lt (by omega)]
      omega
    · rw [Function.update_self]
      omega
  · have hmore : d.keyNumSyms key < needed := Nat.lt_of_not_ge fun hge => henough ⟨hhas,hge⟩
    have hroom := (hfit.resolve_left (by omega)).resolve_left (by omega)
    have hnew : d.newSizeActs needed < 65536 := Nat.mod_lt _ (by decide)
    rw [← List.length_replicate (n := d.newSizeActs needed) (a := XkbAction.zeroed)] at hroom
    obtain ⟨s,hrun,hlen',hresized,hone,hothers,hown⟩ := moveActs h hkey hhas hmore hroom
    rw [List.length_replicate] at hlen'
    have hnext := hresized.size
    refine ⟨s.off,s.row,s.next,?_,hresized,by omega,hone,hothers,fun _ => hown⟩
    change Option.bind _ (fun s => _) = _
    rw [hrun,Option.bind_some,Nat.mod_eq_of_lt (by omega)]

lemma fits_of_resizeKeyActions (h : d.ActsWellFormed) (hkey : key ∈ d.keys) (hhas : d.keyActs key ≠ 0)
    (hrun : d.resizeKeyActions key needed = some d') : needed ≤ d.keyNumSyms key ∨ d.numActs + needed ≤ d.acts.length ∨
      1 + ((d.keys.filter fun i => d.keyActs i ≠ 0 ∨ i = key).map (d.nKeyActs key needed)).sum ≤ d.newSizeActs needed := by
  have hnum := h.numActs
  unfold resizeKeyActions at hrun
  split_ifs at hrun with hzero henough hend
  · left
    omega
  · exact .inl henough.2
  · right
    left
    omega
  · right
    right
    have hmore : d.keyNumSyms key < needed := Nat.lt_of_not_ge fun hge => henough ⟨hhas,hge⟩
    obtain ⟨s,hmove,-⟩ := Option.bind_eq_some_iff.1 hrun
    have hle : ∀ i ∈ d.keys.filter (fun i => d.keyActs i ≠ 0 ∨ i = key), d.nCopyActs key needed i ≤ d.nKeyActs key needed i :=
      fun i _ => nCopyActs_le i
    obtain ⟨-,hnext,hroom⟩ := room_of_foldlM hle hmove
    have hmem : key ∈ d.keys.filter (fun i => d.keyActs i ≠ 0 ∨ i = key) := by
      rw [List.mem_filter,decide_eq_true_iff]
      exact ⟨hkey,.inr rfl⟩
    have hsum := List.single_le_sum (fun _ _ => Nat.zero_le _) _ (List.mem_map_of_mem (f := d.nKeyActs key needed) hmem)
    have hnew : d.nKeyActs key needed key = needed := Function.update_self _ _ _
    rw [List.length_replicate] at hroom
    omega

lemma numGroups_setNumGroups {g : BitVec 8} {n : ℕ} (hn : n < 16) : (setNumGroups g n &&& 0x0f).toNat = n := by
  have hhigh : g &&& 0xf0 &&& 0x0f = 0#8 := by
    rw [BitVec.and_assoc]
    exact BitVec.and_zero
  unfold setNumGroups
  rw [BitVec.and_or_distrib_right,hhigh,BitVec.zero_or,BitVec.and_assoc,BitVec.and_self,BitVec.toNat_and,BitVec.toNat_ofNat]
  change n % 2^8 &&& (2^4 - 1) = n
  rw [Nat.and_two_pow_sub_one_eq_mod]
  omega

def changed (d : KeyPools) (c : KeyChange) (off : ℕ → ℕ) (syms : List KeySym) (num : ℕ) (offActs : ℕ → ℕ) (acts : List XkbAction)
    (numActs : ℕ) : KeyPools :=
  ({ d.withSyms off syms num with
    acts := acts
    keyActs := offActs
    numActs := numActs } : KeyPools).storeShape c

section Changed
variable {off offActs : ℕ → ℕ} {syms : List KeySym} {acts : List XkbAction} {num numActs : ℕ}

lemma changed_offset : (d.changed c off syms num offActs acts numActs).offset = off := by
  funext i
  unfold changed storeShape offset
  obtain rfl | hne := eq_or_ne i c.key
  · dsimp only
    rw [Function.update_self]
    rfl
  · dsimp only
    rw [Function.update_of_ne hne]
    rfl

lemma changed_keyNumSyms (hc : d.Legal c) : (d.changed c off syms num offActs acts numActs).keyNumSyms =
    Function.update d.keyNumSyms c.key c.needed := by
  funext i
  unfold changed storeShape SymsDesc.keyNumSyms SymsDesc.numGroups XkbSymMap.numGroups
  obtain rfl | hne := eq_or_ne i c.key
  · dsimp only
    rw [Function.update_self,Function.update_self,Nat.mod_eq_of_lt hc.width,numGroups_setNumGroups hc.nGroups]
    exact Nat.mul_comm _ _
  · dsimp only
    rw [Function.update_of_ne hne,Function.update_of_ne hne]
    rfl

lemma keeps_changed (hc : d.Legal c) (hs : Resized d.keys d.syms d.offset d.keyNumSyms c.key c.needed syms off num)
    (ha : Resized d.keys d.acts d.keyActs d.numActsOf c.key (if d.keyActs c.key ≠ 0 then c.needed else 0) acts offActs numActs)
    (hsize : syms.length < 65536 ∧ acts.length < 65536) (hfirst : ∀ key ∈ d.keys, d.keyActs key ≠ 0 → 1 ≤ numActs)
    (hother : ∀ i ∈ d.keys, i ≠ c.key → (offActs i = 0 ↔ d.keyActs i = 0)) (hzero : d.keyActs c.key = 0 → offActs c.key = 0)
    (hown : ∀ i < min (d.keyNumSyms c.key) c.needed, syms[off c.key + i]? = d.syms[d.offset c.key + i]?) :
    Keeps d c (d.withSyms off syms num) (d.changed c off syms num offActs acts numActs) ∧
      (d.changed c off syms num offActs acts numActs).WellFormed := by
  have hnum : (d.changed c off syms num offActs acts numActs).keyNumSyms = Function.update d.keyNumSyms c.key c.needed :=
    changed_keyNumSyms hc
  have hoff : (d.changed c off syms num offActs acts numActs).offset = off := changed_offset
  constructor
  · refine ⟨fun key hkey hne => ⟨⟨rfl,hs.others key hkey hne,Iff.rfl,fun _ _ _ => rfl⟩,?_,?_,hother key hkey hne,?_⟩,hown,
      fun hpos => ?_,fun hpos hhas => ?_,hs.size,ha.size⟩
    · rw [hnum,Function.update_of_ne hne]
    · rw [hoff]
      exact hs.others key hkey hne
    · intro hhas i hi
      exact ha.others key hkey hne i (by unfold numActsOf; rwa [if_pos hhas])
    · have hlast := hs.places.last c.key hc.key (by rwa [Function.update_self])
      rw [Function.update_self] at hlast
      exact hlast.trans hs.size
    · rw [if_pos hhas] at ha
      have hlast := ha.places.last c.key hc.key (by rwa [Function.update_self])
      rw [Function.update_self] at hlast
      exact hlast.trans ha.size
  · refine ⟨hsize,hs.size,ha.size,fun key hkey hhas => ?_,?_,ha.places.congr fun i hi hpos => ⟨rfl,?_⟩⟩
    · obtain rfl | hne := eq_or_ne key c.key
      · exact hfirst _ hc.key fun hnone => hhas (hzero hnone)
      · exact hfirst key hkey fun hnone => hhas ((hother key hkey hne).2 hnone)
    · rw [hoff,hnum]
      exact hs.places
    · rw [hnum]
      change (if offActs i ≠ 0 then _ else 0) ≤ _
      obtain rfl | hne := eq_or_ne i c.key
      · rw [Function.update_self,Function.update_self]
        split_ifs with hoffs hhas hhas
        · exact le_rfl
        · exact absurd (hzero (not_not.1 hhas)) hoffs
        · exact Nat.zero_le _
        · exact le_rfl
      · rw [Function.update_of_ne hne,Function.update_of_ne hne]
        unfold numActsOf
        simp only [ne_eq,hother i hi hne,le_refl]

end Changed

lemma step_of_fits (h : d.WellFormed) (hc : d.Legal c) (hfit : Fits d c) : ∃ d₁ d', d.resizeKeySyms c.key c.needed = some d₁ ∧
    d₁.finish c = some d' ∧ Keeps d c d₁ d' ∧ d'.WellFormed ∧ d'.keys = d.keys := by
  have hacts : ∀ off syms num, (d.withSyms off syms num).ActsWellFormed :=
    fun off syms num => ⟨h.size.2,h.numActs,h.firstAct,h.acts⟩
  obtain ⟨off,syms,num,hsyms,hs,hsize,hown⟩ := resizeKeySyms_some h hc.key hfit.1
  obtain hnone | hhas := eq_or_ne (d.keyActs c.key) 0
  · have hsame : Resized d.keys d.acts d.keyActs d.numActsOf c.key (if d.keyActs c.key ≠ 0 then c.needed else 0) d.acts d.keyActs
        d.numActs := by
      rw [if_neg (not_not.2 hnone)]
      exact Apart.resized h.acts h.numActs (Nat.zero_le _)
    have hfinish : (d.withSyms off syms num).finish c = some (d.changed c off syms num d.keyActs d.acts d.numActs) := by
      unfold finish
      rw [if_neg (not_not.2 (show (d.withSyms off syms num).keyActs c.key = 0 from hnone))]
      rfl
    obtain ⟨hkeeps,hwf⟩ := keeps_changed hc hs hsame ⟨hsize,h.size.2⟩ h.firstAct (fun _ _ _ => Iff.rfl) id hown
    exact ⟨_,_,hsyms,hfinish,hkeeps,hwf,rfl⟩
  · obtain ⟨offActs,acts,numActs,hresize,ha,hsize',hfirst,hother,hpos⟩ :=
      resizeKeyActions_some (hacts off syms num) hc.key hhas (hfit.2.resolve_left hhas)
    have hfinish : (d.withSyms off syms num).finish c = some (d.changed c off syms num offActs acts numActs) := by
      unfold finish
      rw [if_pos (show (d.withSyms off syms num).keyActs c.key ≠ 0 from hhas),hresize]
      rfl
    have hneeded : Resized d.keys d.acts d.keyActs d.numActsOf c.key (if d.keyActs c.key ≠ 0 then c.needed else 0) acts offActs
        numActs := by
      rw [if_pos hhas]
      exact ha
    obtain ⟨hkeeps,hwf⟩ := keeps_changed hc hs hneeded ⟨hsize,hsize'⟩ (fun _ _ _ => hfirst) hother (fun hno => absurd hno hhas) hown
    exact ⟨_,_,hsyms,hfinish,hkeeps,hwf,rfl⟩

lemma step_iff (h : d.WellFormed) (hc : d.Legal c) :
    (∃ d₁ d', d.resizeKeySyms c.key c.needed = some d₁ ∧ d₁.finish c = some d' ∧ Keeps d c d₁ d') ↔ Fits d c := by
  have hacts : ∀ off syms num, (d.withSyms off syms num).ActsWellFormed :=
    fun off syms num => ⟨h.size.2,h.numActs,h.firstAct,h.acts⟩
  constructor
  · rintro ⟨d₁,d',hsyms,hfinish,-⟩
    have hfit := fits_of_resizeKeySyms h hc.key hsyms
    refine ⟨hfit,?_⟩
    obtain ⟨off,syms,num,hrun,-⟩ := resizeKeySyms_some h hc.key hfit
    cases hsyms.symm.trans hrun
    obtain hnone | hhas := eq_or_ne (d.keyActs c.key) 0
    · exact .inl hnone
    · obtain ⟨d₂,hresize,-⟩ := Option.bind_eq_some_iff.1 hfinish
      have hresize : (d.withSyms off syms num).resizeKeyActions c.key c.needed = some d₂ := (if_pos hhas).symm.trans hresize
      have hfit' := fits_of_resizeKeyActions (hacts off syms num) hc.key hhas hresize
      exact .inr hfit'
  · intro hfit
    obtain ⟨d₁,d',hsyms,hfinish,hkeeps,-⟩ := step_of_fits h hc hfit
    exact ⟨d₁,d',hsyms,hfinish,hkeeps⟩

lemma Legal.congr (h : d.Legal c) (hkeys : d'.keys = d.keys) : d'.Legal c :=
  ⟨by rw [hkeys]; exact h.key,h.nGroups,h.width,h.needed⟩

/-- In any run of changes every one keeps the other keys exactly when the new pools that are made have room. -/
theorem runKeeps_iff {cs : List KeyChange} (h : d.WellFormed) (hcs : ∀ c ∈ cs, d.Legal c) : RunKeeps d cs ↔ RunFits d cs := by
  induction cs generalizing d with
  | nil => exact Iff.rfl
  | cons c cs ih =>
    have hc := hcs c (by simp)
    constructor
    · rintro ⟨d₁,d',hsyms,hfinish,hkeeps,hrest⟩
      have hfit := (step_iff h hc).1 ⟨d₁,d',hsyms,hfinish,hkeeps⟩
      refine ⟨hfit,fun d'' hd'' => ?_⟩
      obtain ⟨e₁,e',hsyms',hfinish',-,hwf,hkeys⟩ := step_of_fits h hc hfit
      cases hsyms.symm.trans hsyms'
      cases hfinish.symm.trans hfinish'
      unfold changeKey at hd''
      rw [hsyms,Option.bind_some,hfinish] at hd''
      cases hd''
      exact (ih hwf fun a ha => (hcs a (List.mem_cons_of_mem _ ha)).congr hkeys).1 hrest
    · rintro ⟨hfit,hrest⟩
      obtain ⟨d₁,d',hsyms,hfinish,hkeeps,hwf,hkeys⟩ := step_of_fits h hc hfit
      refine ⟨d₁,d',hsyms,hfinish,hkeeps,(ih hwf fun a ha => (hcs a (List.mem_cons_of_mem _ ha)).congr hkeys).2 (hrest d' ?_)⟩
      unfold changeKey
      rw [hsyms,Option.bind_some,hfinish]

def twoKeys : KeyPools where
  minKeyCode := 8
  maxKeyCode := 9
  types := []
  keySymMap key := { groupInfo := 1, width := 1, offset := key - 7 }
  syms := [0,0x41,0x42,0,0,0]
  numSyms := 3
  acts := [.zeroed,.zeroed,.zeroed]
  numActs := 2
  keyActs key := if key = 9 then 1 else 0

lemma twoKeys_wellFormed : twoKeys.WellFormed :=
  ⟨by decide,by decide,by decide,by decide,⟨by decide,by decide⟩,⟨by decide,by decide⟩⟩

/-- The first key gets two symbols, at the end, and then the second one four, in a new pool. -/
theorem runKeeps_iff_twoKeys : RunKeeps twoKeys [⟨8,2,1⟩,⟨9,2,2⟩] :=
  (runKeeps_iff twoKeys_wellFormed fun c hc => ⟨by revert c; decide,by revert c; decide,by revert c; decide,by revert c; decide⟩).2
    ⟨by unfold Fits; decide,fun d' hd' => by
      cases hd'
      exact ⟨by unfold Fits; decide,fun _ _ => trivial⟩⟩

def fullPool : KeyPools where
  minKeyCode := 8
  maxKeyCode := 8
  types := []
  keySymMap _ := { groupInfo := 1, width := 1, offset := 1 }
  syms := List.replicate 65530 0x41
  numSyms := 65530
  acts := []
  numActs := 0
  keyActs _ := 0

lemma length_fullPool : fullPool.syms.length = 65530 := List.length_replicate

lemma fullPool_wellFormed : fullPool.WellFormed := by
  refine ⟨⟨by rw [length_fullPool]; decide,by decide⟩,length_fullPool.ge,le_rfl,by decide,⟨?_,?_⟩,⟨by decide,by decide⟩⟩
  · decide
  · decide

lemma newSizeSyms_eq {n : ℕ} (h : d.syms.length = n) :
    d.newSizeSyms needed = (n + if needed > 32 then needed else 32) % 65536 := by
  unfold newSizeSyms
  rw [h]

/-- The size of the pool for forty symbols more is 34. -/
theorem fullPool_wraps : ¬ RunKeeps fullPool [⟨8,1,40⟩] := by
  rintro ⟨d₁,d',hsyms,hfinish,hkeeps,-⟩
  obtain hold | hend | hnew := fits_of_resizeKeySyms fullPool_wellFormed (by decide) hsyms
  · exact absurd hold (by decide)
  · rw [length_fullPool] at hend
    exact absurd hend (by decide)
  · exact absurd (hnew.trans (newSizeSyms_eq length_fullPool).le) (by decide)

end KeyPools

end Xlibre.Xkb
