import Xlibre.Xkb.CoreMap
import Xlibre.Xkb.VirtualMods
import Mathlib.Algebra.BigOperators.Ring.List

/-! The parts of a keymap on the wire, and what is computed of their sizes beforehand. -/
namespace Xlibre.Xkb

abbrev Byte := BitVec 8

/-- `XkbPaddedSize` -/
def paddedSize (n : ℕ) : ℕ := (n+3)/4*4

/-- Two bytes, the low one first unless they are swapped. -/
def card16 (swapped : Bool) (v : BitVec 16) : List Byte :=
  if swapped then [(v >>> 8).setWidth 8,v.setWidth 8] else [v.setWidth 8,(v >>> 8).setWidth 8]

def card32 (swapped : Bool) (v : BitVec 32) : List Byte :=
  if swapped then card16 true ((v >>> 16).setWidth 16) ++ card16 true (v.setWidth 16)
  else card16 false (v.setWidth 16) ++ card16 false ((v >>> 16).setWidth 16)

/-- `x_rpcbuf_pad` -/
def rpcbufPad (buf : List Byte) : List Byte := buf ++ List.replicate ((buf.length+3)/4*4 - buf.length) 0

def reserved (space : ℕ) (bytes : List Byte) : List Byte := bytes ++ List.replicate (space - bytes.length) 0

/-- `XkbKTMapEntryRec` -/
structure TypeMapEntry where
  active : Bool
  level : Byte
  mods : XkbModsRec

/-- `XkbKeyTypeRec`. There is a preserve entry for each map entry, or none at all. -/
structure TypeDesc where
  mods : XkbModsRec
  numLevels : Byte
  map : List TypeMapEntry
  preserve : Option (List XkbModsRec)
  preserve_length : ∀ l ∈ preserve, l.length = map.length

/-- `XkbServerMapRec` -/
structure ServerTables where
  acts : ℕ → Fin 8 → Byte
  keyActs : Option (ℕ → ℕ)
  /-- The type and the data of each key's behavior. -/
  behaviors : Option (ℕ → Byte × Byte)
  explicit : Option (ℕ → Byte)
  vmods : Fin 16 → Byte
  vmodmap : Option (ℕ → BitVec 16)

/-- The parts of `XkbDescRec` that a reply can have. -/
structure MapTables where
  minKeyCode : ℕ
  maxKeyCode : ℕ
  types : Option (List TypeDesc)
  keySymMap : Option (ℕ → XkbSymMapRec)
  syms : ℕ → KeySym
  modmap : Option (ℕ → Byte)
  server : Option ServerTables

/-- The keys of a part of a reply, and the number of its entries. -/
structure MapSection where
  range : KeyRange := {}
  total : ℕ := 0

/-- `xkbGetMapReply` -/
structure GetMapReply where
  length : BitVec 32
  present : BitVec 16
  minKeyCode : ℕ
  maxKeyCode : ℕ
  types : KeyRange
  syms : MapSection
  acts : MapSection
  behaviors : MapSection
  explicit : MapSection
  modMap : MapSection
  vmodMap : MapSection
  virtualMods : BitVec 16

def KeyRange.keys (r : KeyRange) : List ℕ := List.range' r.first r.num

def asked {α : Type} (present mask : BitVec 16) (num : ℕ) (table : Option α) : Option α :=
  if present &&& mask ≠ 0 ∧ 1 ≤ num then table else none

/-- The bit of a part is cleared when there is nothing to send. -/
def kept (present mask : BitVec 16) (there : Bool) : BitVec 16 := if there then present else present &&& ~~~mask

/-- The keys with something in a table. -/
def nonzero {w : ℕ} (table : ℕ → BitVec w) (r : KeyRange) : List ℕ := r.keys.filter fun key => table key ≠ 0

section Wire
variable (swapped : Bool)

def XkbModsRec.wire (m : XkbModsRec) : List Byte := [m.mask,m.realMods] ++ card16 swapped m.vmods

def TypeMapEntry.wire (e : TypeMapEntry) : List Byte :=
  [if e.active then 1 else 0,e.mods.mask,e.level,e.mods.realMods] ++ card16 swapped e.mods.vmods ++ [0,0]

/-- A type in `XkbWriteKeyTypes`. -/
def TypeDesc.wire (t : TypeDesc) : List Byte :=
  t.mods.wire swapped ++ [t.numLevels,BitVec.ofNat 8 t.map.length,if t.preserve.isSome then 1 else 0,0] ++
    if t.map.length > 0 then t.map.flatMap (·.wire swapped) ++ (t.preserve.getD []).flatMap (·.wire swapped) else []

/-- A type in `XkbSizeKeyTypes`. -/
def TypeDesc.wireSize (t : TypeDesc) : ℕ :=
  8 + if t.map.length > 0 then t.map.length*8 + (if t.preserve.isSome then t.map.length*4 else 0) else 0

end Wire

namespace MapTables
variable (d : MapTables) (swapped : Bool)

def symMap (key : ℕ) : XkbSymMapRec := (d.keySymMap.map (· key)).getD {}
def numSyms (key : ℕ) : ℕ := (d.symMap key).width*(d.symMap key).numGroups
def symsAt (key : ℕ) : List KeySym := (List.range' (d.symMap key).offset (d.numSyms key)).map d.syms

def keyActs : Option (ℕ → ℕ) := d.server.bind (·.keyActs)
def actsOffset (key : ℕ) : ℕ := (d.keyActs.map (· key)).getD 0
/-- `XkbKeyNumActions` -/
def numActions (key : ℕ) : ℕ := if d.actsOffset key ≠ 0 then d.numSyms key else 1
def actsAt (key : ℕ) : List (Fin 8 → Byte) :=
  if d.actsOffset key ≠ 0 then
    (List.range' (d.actsOffset key) (d.numActions key)).map fun p => (d.server.map (·.acts p)).getD fun _ => 0
  else []

def behaviors : Option (ℕ → Byte × Byte) := d.server.bind (·.behaviors)
def behavior (key : ℕ) : Byte × Byte := (d.behaviors.map (· key)).getD (0,0)
def explicit : Option (ℕ → Byte) := d.server.bind (·.explicit)
def explicitOf (key : ℕ) : Byte := (d.explicit.map (· key)).getD 0
def modsOf (key : ℕ) : Byte := (d.modmap.map (· key)).getD 0
def vmodmap : Option (ℕ → BitVec 16) := d.server.bind (·.vmodmap)
def vmodsOf (key : ℕ) : BitVec 16 := (d.vmodmap.map (· key)).getD 0

/-- The real modifiers of some virtual ones. -/
def vmodsIn (mask : BitVec 16) : List Byte :=
  ((List.finRange 16).filter fun (i : Fin 16) => mask.getLsbD i).map fun i => (d.server.map (·.vmods i)).getD 0

section Sizes
variable (rep : GetMapReply)

/-- `XkbSizeKeyTypes` -/
def sizeKeyTypes : GetMapReply × ℕ :=
  let there := (asked rep.present xkbKeyTypesMask rep.types.num d.types).isSome
  ({ rep with
      present := kept rep.present xkbKeyTypesMask there
      types := if there then rep.types else {} },
    if there then ((((d.types.getD []).drop rep.types.first).take rep.types.num).map TypeDesc.wireSize).sum else 0)

/-- `XkbSizeKeySyms` -/
def sizeKeySyms : GetMapReply × ℕ :=
  let there := (asked rep.present xkbKeySymsMask rep.syms.range.num d.keySymMap).isSome
  let nSyms := (rep.syms.range.keys.map d.numSyms).sum
  ({ rep with
      present := kept rep.present xkbKeySymsMask there
      syms := if there then { rep.syms with total := nSyms % 65536 } else {} },
    if there then rep.syms.range.num*8 + nSyms*4 else 0)

/-- `XkbSizeKeyActions` -/
def sizeKeyActions : GetMapReply × ℕ :=
  let there := (asked rep.present xkbKeyActionsMask rep.acts.range.num d.keyActs).isSome
  let nActs := (rep.acts.range.keys.map fun key => if d.actsOffset key ≠ 0 then d.numActions key else 0).sum
  ({ rep with
      present := kept rep.present xkbKeyActionsMask there
      acts := if there then { rep.acts with total := nActs % 65536 } else {} },
    if there then paddedSize rep.acts.range.num + nActs*8 else 0)

/-- `XkbSizeKeyBehaviors` -/
def sizeKeyBehaviors : GetMapReply × ℕ :=
  let there := (asked rep.present xkbKeyBehaviorsMask rep.behaviors.range.num d.behaviors).isSome
  let nBhvr := (nonzero (fun key => (d.behavior key).1) rep.behaviors.range).length
  ({ rep with
      present := kept rep.present xkbKeyBehaviorsMask there
      behaviors := if there then { rep.behaviors with total := nBhvr % 256 } else {} },
    if there then nBhvr*4 else 0)

/-- `XkbSizeVirtualMods` -/
def sizeVirtualMods : GetMapReply × ℕ :=
  let there := rep.present &&& xkbVirtualModsMask ≠ 0 ∧ rep.virtualMods ≠ 0 ∧ d.server.isSome
  ({ rep with
      present := kept rep.present xkbVirtualModsMask there
      virtualMods := if there then rep.virtualMods else 0 },
    if there then paddedSize (d.vmodsIn rep.virtualMods).length else 0)

/-- `XkbSizeExplicit` -/
def sizeExplicit : GetMapReply × ℕ :=
  let there := (asked rep.present xkbExplicitComponentsMask rep.explicit.range.num d.explicit).isSome
  let nRtrn := (nonzero d.explicitOf rep.explicit.range).length
  ({ rep with
      present := kept rep.present xkbExplicitComponentsMask there
      explicit := if there then { rep.explicit with total := nRtrn % 256 } else {} },
    if there then paddedSize (nRtrn*2) else 0)

/-- `XkbSizeModifierMap` -/
def sizeModifierMap : GetMapReply × ℕ :=
  let there := (asked rep.present xkbModifierMapMask rep.modMap.range.num d.modmap).isSome
  let nRtrn := (nonzero d.modsOf rep.modMap.range).length
  ({ rep with
      present := kept rep.present xkbModifierMapMask there
      modMap := if there then { rep.modMap with total := nRtrn % 256 } else {} },
    if there then paddedSize (nRtrn*2) else 0)

/-- `XkbSizeVirtualModMap` -/
def sizeVirtualModMap : GetMapReply × ℕ :=
  let there := (asked rep.present xkbVirtualModMapMask rep.vmodMap.range.num d.vmodmap).isSome
  let nRtrn := (nonzero d.vmodsOf rep.vmodMap.range).length
  ({ rep with
      present := kept rep.present xkbVirtualModMapMask there
      vmodMap := if there then { rep.vmodMap with total := nRtrn % 256 } else {} },
    if there then nRtrn*4 else 0)

/-- `XkbComputeGetMapReplySize` -/
def computeGetMapReplySize : GetMapReply :=
  let types := d.sizeKeyTypes { rep with minKeyCode := d.minKeyCode, maxKeyCode := d.maxKeyCode }
  let syms := d.sizeKeySyms types.1
  let acts := d.sizeKeyActions syms.1
  let behaviors := d.sizeKeyBehaviors acts.1
  let virtualMods := d.sizeVirtualMods behaviors.1
  let explicit := d.sizeExplicit virtualMods.1
  let modMap := d.sizeModifierMap explicit.1
  let vmodMap := d.sizeVirtualModMap modMap.1
  let len := types.2 + syms.2 + acts.2 + behaviors.2 + virtualMods.2 + explicit.2 + modMap.2 + vmodMap.2
  { vmodMap.1 with length := vmodMap.1.length + BitVec.ofNat 32 (len/4) }

end Sizes

section Writers
variable (r : KeyRange) (buf : List Byte)

/-- `XkbWriteKeyTypes` -/
def writeKeyTypes : List Byte := buf ++ (((d.types.getD []).drop r.first).take r.num).flatMap (·.wire swapped)

/-- A key in `XkbWriteKeySyms`. -/
def symsWire (key : ℕ) : List Byte :=
  let nSyms := BitVec.ofNat 16 (d.numSyms key)
  (List.ofFn fun g => BitVec.ofNat 8 ((d.symMap key).ktIndex g)) ++
    [(d.symMap key).groupInfo,BitVec.ofNat 8 (d.symMap key).width] ++ card16 swapped nSyms ++
    if nSyms ≠ 0 then (d.symsAt key).flatMap (card32 swapped) else []

/-- `XkbWriteKeySyms` -/
def writeKeySyms : List Byte := buf ++ r.keys.flatMap (d.symsWire swapped)

/-- `XkbWriteKeyActions` -/
def writeKeyActions : List Byte :=
  buf ++ reserved (paddedSize r.num)
    (r.keys.map fun key => if d.actsOffset key = 0 then 0 else BitVec.ofNat 8 (d.numActions key)) ++
    r.keys.flatMap fun key => (d.actsAt key).flatMap List.ofFn

/-- `XkbWriteKeyBehaviors` -/
def writeKeyBehaviors : List Byte :=
  buf ++ (nonzero (fun key => (d.behavior key).1) r).flatMap fun key =>
    [BitVec.ofNat 8 key,(d.behavior key).1,(d.behavior key).2,0]

/-- The virtual modifiers in `XkbAssembleMap`. -/
def writeVirtualMods (mask : BitVec 16) : List Byte := buf ++ reserved (paddedSize (d.vmodsIn mask).length) (d.vmodsIn mask)

/-- `XkbWriteExplicit` -/
def writeExplicit : List Byte :=
  buf ++ reserved (paddedSize ((nonzero d.explicitOf r).length*2))
    ((nonzero d.explicitOf r).flatMap fun key => [BitVec.ofNat 8 key,d.explicitOf key])

/-- `XkbWriteModifierMap` -/
def writeModifierMap : List Byte :=
  rpcbufPad (buf ++ (nonzero d.modsOf r).flatMap fun key => [BitVec.ofNat 8 key,d.modsOf key])

/-- `XkbWriteVirtualModMap`, which does not swap anything. -/
def writeVirtualModMap : List Byte :=
  buf ++ (nonzero d.vmodsOf r).flatMap fun key => [BitVec.ofNat 8 key,0] ++ card16 false (d.vmodsOf key)

/-- The sections in `XkbAssembleMap`, in their order. -/
def writers (rep : GetMapReply) : List (List Byte → List Byte) :=
  [d.writeKeyTypes swapped rep.types,
    d.writeKeySyms swapped rep.syms.range,
    d.writeKeyActions rep.acts.range,
    fun buf => if rep.behaviors.total > 0 then d.writeKeyBehaviors rep.behaviors.range buf else buf,
    fun buf => if rep.virtualMods ≠ 0 then d.writeVirtualMods buf rep.virtualMods else buf,
    fun buf => if rep.explicit.total > 0 then d.writeExplicit rep.explicit.range buf else buf,
    fun buf => if rep.modMap.total > 0 then d.writeModifierMap rep.modMap.range buf else buf,
    fun buf => if rep.vmodMap.total > 0 then d.writeVirtualModMap rep.vmodMap.range buf else buf]

/-- `XkbAssembleMap` -/
def assembleMap (rep : GetMapReply) : List Byte := (d.writers swapped rep).foldl (fun buf write => write buf) buf

end Writers

/-- Keys have up to four groups of up to 63 levels, and actions only if they have symbols. -/
structure WellFormed : Prop where
  range : xkbMinLegalKeyCode ≤ d.minKeyCode ∧ d.maxKeyCode ≤ xkbMaxLegalKeyCode
  keys : ∀ key, (d.symMap key).numGroups ≤ xkbNumKbdGroups ∧ (d.symMap key).width ≤ xkbMaxShiftLevel
  acts : d.keyActs.isSome → d.keySymMap.isSome

end MapTables

/-- The keys of a range are keys of the keyboard. -/
def KeyRange.Inside (r : KeyRange) (d : MapTables) : Prop := 1 ≤ r.num → d.minKeyCode ≤ r.first ∧ r.first + r.num ≤ d.maxKeyCode+1

structure GetMapReply.InRange (rep : GetMapReply) (d : MapTables) : Prop where
  types : 1 ≤ rep.types.num → rep.types.first + rep.types.num ≤ (d.types.getD []).length
  syms : rep.syms.range.Inside d
  acts : rep.acts.range.Inside d
  behaviors : rep.behaviors.range.Inside d
  explicit : rep.explicit.range.Inside d
  modMap : rep.modMap.range.Inside d
  vmodMap : rep.vmodMap.range.Inside d

section Fields
variable {d : MapTables} {rep : GetMapReply} {p m m' : BitVec 16} {b : Bool}

lemma kept_and (h : ~~~m &&& m' = m') : kept p m b &&& m' = p &&& m' := by
  unfold kept
  split_ifs
  · rfl
  · rw [BitVec.and_assoc,h]

lemma asked_kept {α : Type} {n : ℕ} {table : Option α} (h : ~~~m &&& m' = m') :
    asked (kept p m b) m' n table = asked p m' n table := by
  unfold asked
  rw [kept_and h]

namespace MapTables

lemma computeGetMapReplySize_eq (d : MapTables) (rep : GetMapReply) : ∃ present, d.computeGetMapReplySize rep =
    { length := rep.length + BitVec.ofNat 32 (((d.sizeKeyTypes rep).2 + (d.sizeKeySyms rep).2 + (d.sizeKeyActions rep).2 +
        (d.sizeKeyBehaviors rep).2 + (d.sizeVirtualMods rep).2 + (d.sizeExplicit rep).2 + (d.sizeModifierMap rep).2 +
        (d.sizeVirtualModMap rep).2)/4)
      present := present
      minKeyCode := d.minKeyCode
      maxKeyCode := d.maxKeyCode
      types := (d.sizeKeyTypes rep).1.types
      syms := (d.sizeKeySyms rep).1.syms
      acts := (d.sizeKeyActions rep).1.acts
      behaviors := (d.sizeKeyBehaviors rep).1.behaviors
      explicit := (d.sizeExplicit rep).1.explicit
      modMap := (d.sizeModifierMap rep).1.modMap
      vmodMap := (d.sizeVirtualModMap rep).1.vmodMap
      virtualMods := (d.sizeVirtualMods rep).1.virtualMods } := by
  refine ⟨(d.computeGetMapReplySize rep).present,?_⟩
  unfold computeGetMapReplySize sizeKeyTypes sizeKeySyms sizeKeyActions sizeKeyBehaviors sizeVirtualMods sizeExplicit
    sizeModifierMap sizeVirtualModMap
  dsimp only
  simp (disch := decide) only [asked_kept,kept_and]

end MapTables

end Fields

section Lengths
variable {swapped : Bool} {n : ℕ} {bytes buf : List Byte}

/-- To a buffer of whole words, `w` appends `n` bytes, which are whole words too. -/
def Appends (w : List Byte → List Byte) (n : ℕ) : Prop :=
  4 ∣ n ∧ ∀ buf, 4 ∣ buf.length → ∃ bytes, w buf = buf ++ bytes ∧ bytes.length = n

lemma appends_nil {w : List Byte → List Byte} (hw : ∀ buf, w buf = buf) : Appends w 0 :=
  ⟨dvd_zero 4,fun buf _ => ⟨[],(hw buf).trans (List.append_nil buf).symm,rfl⟩⟩

lemma appends_of_eq {w : List Byte → List Byte} (hw : ∀ buf, w buf = buf ++ bytes) (hlen : bytes.length = n) (hn : 4 ∣ n) :
    Appends w n := ⟨hn,fun buf _ => ⟨bytes,hw buf,hlen⟩⟩

lemma Appends.foldl {ws : List (List Byte → List Byte)} {ns : List ℕ} (h : List.Forall₂ Appends ws ns) (hbuf : 4 ∣ buf.length) :
    (∃ bytes, ws.foldl (fun buf write => write buf) buf = buf ++ bytes ∧ bytes.length = ns.sum) ∧ 4 ∣ ns.sum ∧
      ∀ i, 4 ∣ ((ws.take i).foldl (fun buf write => write buf) buf).length := by
  induction h generalizing buf with
  | nil => exact ⟨⟨[],(List.append_nil buf).symm,rfl⟩,dvd_zero 4,fun i => by simpa using hbuf⟩
  | cons hw _ ih =>
    obtain ⟨hn,hw⟩ := hw
    obtain ⟨bytes,happ,hlen⟩ := hw buf hbuf
    have hnext : 4 ∣ (buf ++ bytes).length := by
      rw [List.length_append,hlen]
      exact Nat.dvd_add hbuf hn
    obtain ⟨⟨rest,hrest,hlen'⟩,hsum,hall⟩ := ih hnext
    refine ⟨⟨bytes ++ rest,?_,?_⟩,?_,?_⟩
    · rw [List.foldl_cons,happ,hrest,List.append_assoc]
    · rw [List.length_append,hlen,hlen',List.sum_cons]
    · rw [List.sum_cons]
      exact Nat.dvd_add hn hsum
    · intro i
      cases i with
      | zero => exact hbuf
      | succ i =>
        rw [List.take_succ_cons,List.foldl_cons,happ]
        exact hall i

lemma length_flatMap_const {α : Type} {l : List α} {f : α → List Byte} (h : ∀ a ∈ l, (f a).length = n) :
    (l.flatMap f).length = l.length*n := by
  induction l with
  | nil => simp
  | cons a l ih =>
    rw [List.flatMap_cons,List.length_append,h a List.mem_cons_self,ih fun b hb => h b (List.mem_cons_of_mem a hb),
      List.length_cons,Nat.succ_mul,Nat.add_comm]

@[simp] lemma length_card16 {v : BitVec 16} : (card16 swapped v).length = 2 := by
  unfold card16
  split_ifs <;> rfl

@[simp] lemma length_card32 {v : BitVec 32} : (card32 swapped v).length = 4 := by
  unfold card32
  split_ifs <;> simp

lemma le_paddedSize : n ≤ paddedSize n := by
  unfold paddedSize
  omega

lemma dvd_paddedSize : 4 ∣ paddedSize n := ⟨(n+3)/4,by unfold paddedSize; omega⟩

lemma length_reserved (h : bytes.length ≤ n) : (reserved n bytes).length = n := by
  unfold reserved
  rw [List.length_append,List.length_replicate]
  omega

@[simp] lemma length_modsWire {m : XkbModsRec} : (m.wire swapped).length = 4 := by simp [XkbModsRec.wire]

@[simp] lemma length_entryWire {e : TypeMapEntry} : (e.wire swapped).length = 8 := by simp [TypeMapEntry.wire]

lemma TypeDesc.length_wire {t : TypeDesc} : (t.wire swapped).length = t.wireSize := by
  have hmap : (t.map.flatMap (·.wire swapped)).length = t.map.length*8 := length_flatMap_const fun e _ => length_entryWire
  have hpreserve : ((t.preserve.getD []).flatMap (·.wire swapped)).length =
      if t.preserve.isSome then t.map.length*4 else 0 := by
    rw [length_flatMap_const (n := 4) fun m _ => length_modsWire]
    cases h : t.preserve with
    | none => rfl
    | some l => exact congrArg (· * 4) (t.preserve_length l h)
  unfold wire wireSize
  rw [List.length_append,List.length_append,apply_ite List.length,List.length_append,hmap,hpreserve,length_modsWire]
  rfl

lemma TypeDesc.dvd_wireSize {t : TypeDesc} : 4 ∣ t.wireSize := by
  unfold wireSize
  split_ifs <;> omega

end Lengths

namespace MapTables
variable {d : MapTables} {rep : GetMapReply} {r : KeyRange} {swapped : Bool} {n : ℕ}

@[simp] lemma length_keys : r.keys.length = r.num := List.length_range'

lemma WellFormed.num_le (h : d.WellFormed) (hr : r.Inside d) : r.num ≤ 248 := by
  have hrange := h.range
  unfold xkbMinLegalKeyCode xkbMaxLegalKeyCode at hrange
  unfold KeyRange.Inside at hr
  by_contra hlt
  have hin := hr (by omega)
  omega

lemma WellFormed.numSyms_le (h : d.WellFormed) (key : ℕ) : d.numSyms key ≤ 252 := by
  obtain ⟨hgroups,hwidth⟩ := h.keys key
  exact Nat.mul_le_mul hwidth hgroups

lemma sum_map_le {l : List ℕ} {f : ℕ → ℕ} (h : ∀ key, f key ≤ n) : (l.map f).sum ≤ l.length*n := by
  induction l with
  | nil => simp
  | cons a l ih =>
    have ha := h a
    rw [List.map_cons,List.sum_cons,List.length_cons,Nat.succ_mul]
    omega

lemma WellFormed.sum_lt (h : d.WellFormed) (hr : r.Inside d) {f : ℕ → ℕ} (hf : ∀ key, f key ≤ 252) :
    (r.keys.map f).sum < 65536 := by
  have hsum := sum_map_le (l := r.keys) hf
  have hnum := h.num_le hr
  rw [length_keys] at hsum
  omega

lemma nonzero_le {w : ℕ} {table : ℕ → BitVec w} (h : d.WellFormed) (hr : r.Inside d) : (nonzero table r).length < 256 := by
  have hlen := List.length_filter_le (fun key => table key ≠ 0) r.keys
  have hnum := h.num_le hr
  rw [length_keys] at hlen
  unfold nonzero
  omega

lemma length_symsAt {key : ℕ} : (d.symsAt key).length = d.numSyms key := by simp [symsAt]

lemma WellFormed.length_symsWire (h : d.WellFormed) (key : ℕ) : (d.symsWire swapped key).length = 8 + d.numSyms key*4 := by
  have hle := h.numSyms_le key
  have hsyms : ((d.symsAt key).flatMap (card32 swapped)).length = d.numSyms key*4 := by
    rw [length_flatMap_const fun v _ => length_card32,length_symsAt]
  unfold symsWire
  dsimp only
  rw [List.length_append,List.length_append,List.length_append,List.length_ofFn,length_card16,apply_ite List.length,hsyms]
  split_ifs with hzero
  · rfl
  · have hnat := congrArg BitVec.toNat (not_not.1 hzero)
    rw [BitVec.toNat_ofNat,Nat.mod_eq_of_lt (by omega)] at hnat
    simp [hnat]

lemma length_flatMap_sum {α β : Type} {l : List α} {f : α → List β} {size : α → ℕ} (h : ∀ a ∈ l, (f a).length = size a) :
    (l.flatMap f).length = (l.map size).sum := by
  induction l with
  | nil => rfl
  | cons a l ih =>
    rw [List.flatMap_cons,List.length_append,h a List.mem_cons_self,ih fun b hb => h b (List.mem_cons_of_mem a hb),
      List.map_cons,List.sum_cons]

lemma appends_section {w : KeyRange → List Byte → List Byte} {there : Bool} {s : MapSection} {count total : ℕ} (size : ℕ → ℕ)
    (htotal : total = count) (hw : Appends (w s.range) (size count)) (hzero : size 0 = 0) :
    Appends (fun buf => if (if there then { s with total := total } else {} : MapSection).total > 0 then
      w (if there then { s with total := total } else {} : MapSection).range buf else buf)
      (if there then size count else 0) := by
  subst htotal
  cases there with
  | false => exact appends_nil fun _ => rfl
  | true =>
    cases total with
    | zero => exact (congrArg (Appends _) hzero).mpr (appends_nil fun _ => rfl)
    | succ n => simpa using hw

lemma appends_types : Appends (d.writeKeyTypes swapped (d.sizeKeyTypes rep).1.types) (d.sizeKeyTypes rep).2 := by
  unfold sizeKeyTypes
  dsimp only
  split_ifs
  · apply appends_of_eq (fun buf => rfl) (length_flatMap_sum fun t _ => TypeDesc.length_wire)
    apply List.dvd_sum
    intro n hn
    obtain ⟨t,-,rfl⟩ := List.mem_map.1 hn
    exact TypeDesc.dvd_wireSize
  · apply appends_nil
    intro buf
    simp [writeKeyTypes]

lemma appends_syms (h : d.WellFormed) :
    Appends (d.writeKeySyms swapped (d.sizeKeySyms rep).1.syms.range) (d.sizeKeySyms rep).2 := by
  unfold sizeKeySyms
  dsimp only
  split_ifs
  · have hsum : ∀ l : List ℕ, (l.map fun key => 8 + d.numSyms key*4).sum = l.length*8 + (l.map d.numSyms).sum*4 := by
      intro l
      induction l with
      | nil => rfl
      | cons key l ih =>
        simp only [List.map_cons,List.sum_cons,List.length_cons,ih]
        omega
    have hlen : (rep.syms.range.keys.flatMap (d.symsWire swapped)).length = _ :=
      length_flatMap_sum fun key _ => h.length_symsWire key
    rw [hsum,length_keys] at hlen
    exact appends_of_eq (fun buf => rfl) hlen (by omega)
  · apply appends_nil
    intro buf
    simp [writeKeySyms,KeyRange.keys]

lemma length_actsAt {key : ℕ} : (d.actsAt key).length = if d.actsOffset key ≠ 0 then d.numActions key else 0 := by
  unfold actsAt
  rw [apply_ite List.length,List.length_map,List.length_range']
  rfl

lemma appends_acts : Appends (d.writeKeyActions (d.sizeKeyActions rep).1.acts.range) (d.sizeKeyActions rep).2 := by
  unfold sizeKeyActions
  dsimp only
  split_ifs
  · have hsum : ∀ l : List ℕ, (l.map fun key => (d.actsAt key).length*8).sum =
        (l.map fun key => if d.actsOffset key ≠ 0 then d.numActions key else 0).sum*8 := by
      intro l
      induction l with
      | nil => rfl
      | cons key l ih => rw [List.map_cons,List.sum_cons,ih,length_actsAt,List.map_cons,List.sum_cons,Nat.add_mul]
    have hlen : (rep.acts.range.keys.flatMap fun key => (d.actsAt key).flatMap List.ofFn).length = _ :=
      length_flatMap_sum fun key _ => length_flatMap_const fun a _ => List.length_ofFn
    rw [hsum] at hlen
    have hdesc : (reserved (paddedSize rep.acts.range.num) (rep.acts.range.keys.map fun key =>
        if d.actsOffset key = 0 then 0 else BitVec.ofNat 8 (d.numActions key))).length = paddedSize rep.acts.range.num := by
      apply length_reserved
      rw [List.length_map,length_keys]
      exact le_paddedSize
    have hpad : 4 ∣ paddedSize rep.acts.range.num := dvd_paddedSize
    apply appends_of_eq (fun buf => List.append_assoc ..)
    · rw [List.length_append,hdesc,hlen]
    · omega
  · apply appends_nil
    intro buf
    simp [writeKeyActions,KeyRange.keys,reserved,paddedSize]

lemma appends_behaviors (h : d.WellFormed) (hr : rep.behaviors.range.Inside d) :
    Appends (fun buf => if (d.sizeKeyBehaviors rep).1.behaviors.total > 0 then
      d.writeKeyBehaviors (d.sizeKeyBehaviors rep).1.behaviors.range buf else buf) (d.sizeKeyBehaviors rep).2 := by
  apply appends_section (· * 4) (Nat.mod_eq_of_lt (nonzero_le h hr)) _ rfl
  exact appends_of_eq (fun buf => rfl) (length_flatMap_const fun key _ => rfl) (Nat.dvd_mul_left ..)

lemma appends_vmodMap (h : d.WellFormed) (hr : rep.vmodMap.range.Inside d) :
    Appends (fun buf => if (d.sizeVirtualModMap rep).1.vmodMap.total > 0 then
      d.writeVirtualModMap (d.sizeVirtualModMap rep).1.vmodMap.range buf else buf) (d.sizeVirtualModMap rep).2 := by
  apply appends_section (· * 4) (Nat.mod_eq_of_lt (nonzero_le h hr)) _ rfl
  exact appends_of_eq (fun buf => rfl) (length_flatMap_const fun key _ => rfl) (Nat.dvd_mul_left ..)

lemma appends_explicit (h : d.WellFormed) (hr : rep.explicit.range.Inside d) :
    Appends (fun buf => if (d.sizeExplicit rep).1.explicit.total > 0 then
      d.writeExplicit (d.sizeExplicit rep).1.explicit.range buf else buf) (d.sizeExplicit rep).2 := by
  apply appends_section (fun n => paddedSize (n*2)) (Nat.mod_eq_of_lt (nonzero_le h hr)) _ rfl
  apply appends_of_eq (fun buf => rfl) (length_reserved _) dvd_paddedSize
  rw [length_flatMap_const (n := 2) fun key _ => rfl]
  exact le_paddedSize

lemma appends_modMap (h : d.WellFormed) (hr : rep.modMap.range.Inside d) :
    Appends (fun buf => if (d.sizeModifierMap rep).1.modMap.total > 0 then
      d.writeModifierMap (d.sizeModifierMap rep).1.modMap.range buf else buf) (d.sizeModifierMap rep).2 := by
  apply appends_section (fun n => paddedSize (n*2)) (Nat.mod_eq_of_lt (nonzero_le h hr)) _ rfl
  refine ⟨dvd_paddedSize,fun buf hbuf => ⟨_,List.append_assoc ..,?_⟩⟩
  rw [List.length_append,List.length_replicate,List.length_append,length_flatMap_const (n := 2) fun key _ => rfl]
  unfold paddedSize
  omega

lemma appends_virtualMods :
    Appends (fun buf => if (d.sizeVirtualMods rep).1.virtualMods ≠ 0 then
      d.writeVirtualMods buf (d.sizeVirtualMods rep).1.virtualMods else buf) (d.sizeVirtualMods rep).2 := by
  unfold sizeVirtualMods
  dsimp only
  by_cases hthere : rep.present &&& xkbVirtualModsMask ≠ 0 ∧ rep.virtualMods ≠ 0 ∧ d.server.isSome
  · simp only [if_pos hthere,if_pos hthere.2.1]
    exact appends_of_eq (fun buf => rfl) (length_reserved le_paddedSize) dvd_paddedSize
  · simp only [if_neg hthere]
    exact appends_nil fun _ => rfl

/-- The totals of the header are the numbers of entries in the sections. -/
structure Announces (d : MapTables) (rep : GetMapReply) : Prop where
  syms : rep.syms.total = (rep.syms.range.keys.flatMap d.symsAt).length
  acts : rep.acts.total = (rep.acts.range.keys.flatMap d.actsAt).length
  behaviors : rep.behaviors.total = (nonzero (fun key => (d.behavior key).1) rep.behaviors.range).length
  explicit : rep.explicit.total = (nonzero d.explicitOf rep.explicit.range).length
  modMap : rep.modMap.total = (nonzero d.modsOf rep.modMap.range).length
  vmodMap : rep.vmodMap.total = (nonzero d.vmodsOf rep.vmodMap.range).length

lemma total_nonzero {w : ℕ} {table : ℕ → BitVec w} {s : MapSection} {there : Bool} (h : d.WellFormed) (hr : s.range.Inside d) :
    (if there then { s with total := (nonzero table s.range).length % 256 } else {} : MapSection).total =
      (nonzero table (if there then { s with total := (nonzero table s.range).length % 256 } else {} : MapSection).range).length := by
  cases there with
  | false => rfl
  | true => exact Nat.mod_eq_of_lt (nonzero_le h hr)

lemma announces_computeGetMapReplySize (h : d.WellFormed) (hrep : rep.InRange d) :
    d.Announces (d.computeGetMapReplySize rep) := by
  obtain ⟨present,heq⟩ := d.computeGetMapReplySize_eq rep
  rw [heq]
  constructor
  · unfold sizeKeySyms
    dsimp only
    split_ifs
    · rw [length_flatMap_sum fun key _ => length_symsAt]
      exact Nat.mod_eq_of_lt (h.sum_lt hrep.syms h.numSyms_le)
    · rfl
  · unfold sizeKeyActions
    dsimp only
    split_ifs
    · rw [length_flatMap_sum fun key _ => length_actsAt]
      apply Nat.mod_eq_of_lt (h.sum_lt hrep.acts _)
      intro key
      have hsyms := h.numSyms_le key
      unfold numActions
      split_ifs <;> omega
    · rfl
  · exact total_nonzero h hrep.behaviors
  · exact total_nonzero h hrep.explicit
  · exact total_nonzero h hrep.modMap
  · exact total_nonzero h hrep.vmodMap

/-- What is computed beforehand is what is written: a quarter of the number of bytes for the length, and the numbers of
entries in the sections, each of which starts at a word. -/
theorem assembleMap_computeGetMapReplySize (h : d.WellFormed) (hrep : rep.InRange d) (swapped : Bool) {buf : List Byte}
    (hbuf : 4 ∣ buf.length) : (∃ bytes, d.assembleMap swapped buf (d.computeGetMapReplySize rep) = buf ++ bytes ∧
      4 ∣ bytes.length ∧ (d.computeGetMapReplySize rep).length = rep.length + BitVec.ofNat 32 (bytes.length/4)) ∧
    (∀ i, 4 ∣ (((d.writers swapped (d.computeGetMapReplySize rep)).take i).foldl (fun buf write => write buf) buf).length) ∧
    d.Announces (d.computeGetMapReplySize rep) := by
  have hann := announces_computeGetMapReplySize h hrep
  obtain ⟨present,heq⟩ := d.computeGetMapReplySize_eq rep
  have hall : List.Forall₂ Appends (d.writers swapped (d.computeGetMapReplySize rep))
      [(d.sizeKeyTypes rep).2,(d.sizeKeySyms rep).2,(d.sizeKeyActions rep).2,(d.sizeKeyBehaviors rep).2,
        (d.sizeVirtualMods rep).2,(d.sizeExplicit rep).2,(d.sizeModifierMap rep).2,(d.sizeVirtualModMap rep).2] := by
    rw [heq]
    exact .cons appends_types (.cons (appends_syms h) (.cons appends_acts (.cons (appends_behaviors h hrep.behaviors)
      (.cons appends_virtualMods (.cons (appends_explicit h hrep.explicit) (.cons (appends_modMap h hrep.modMap)
      (.cons (appends_vmodMap h hrep.vmodMap) .nil)))))))
  obtain ⟨⟨bytes,happ,hlen⟩,hdvd,hstarts⟩ := Appends.foldl hall hbuf
  refine ⟨⟨bytes,happ,hlen ▸ hdvd,?_⟩,hstarts,hann⟩
  rw [hlen,heq]
  simp only [List.sum_cons,List.sum_nil,Nat.add_zero,Nat.add_assoc]

def twoSymbols : MapTables where
  minKeyCode := 8
  maxKeyCode := 10
  types := some [⟨{},2,[⟨true,1,{}⟩],none,nofun⟩]
  keySymMap := some fun _ => { groupInfo := 1, width := 2 }
  syms := fun _ => 0x41
  modmap := some fun key => if key % 2 = 0 then 1 else 0
  server := some
    { acts := fun _ _ => 0
      keyActs := some fun _ => 1
      behaviors := none
      explicit := none
      vmods := fun _ => 0
      vmodmap := none }

lemma twoSymbols_wellFormed : twoSymbols.WellFormed :=
  ⟨by decide,fun _ => ⟨(by decide : ((1 : BitVec 8) &&& 0x0f).toNat ≤ 4),(by decide : 2 ≤ 63)⟩,fun _ => rfl⟩

def allParts : GetMapReply where
  length := 2
  present := 0xff
  minKeyCode := 8
  maxKeyCode := 10
  types := ⟨0,1⟩
  syms := ⟨⟨8,3⟩,0⟩
  acts := ⟨⟨9,1⟩,0⟩
  behaviors := {}
  explicit := ⟨⟨8,3⟩,0⟩
  modMap := ⟨⟨8,3⟩,0⟩
  vmodMap := ⟨⟨8,3⟩,0⟩
  virtualMods := 5

theorem assembleMap_twoSymbols : (∃ bytes,
      twoSymbols.assembleMap true [] (twoSymbols.computeGetMapReplySize allParts) = [] ++ bytes ∧ 4 ∣ bytes.length ∧
      (twoSymbols.computeGetMapReplySize allParts).length = allParts.length + BitVec.ofNat 32 (bytes.length/4)) ∧
    (∀ i, 4 ∣ (((twoSymbols.writers true (twoSymbols.computeGetMapReplySize allParts)).take i).foldl
      (fun buf write => write buf) []).length) ∧ twoSymbols.Announces (twoSymbols.computeGetMapReplySize allParts) :=
  assembleMap_computeGetMapReplySize twoSymbols_wellFormed
    ⟨by decide,fun _ => by decide,fun _ => by decide,fun h => absurd h (by decide),fun _ => by decide,fun _ => by decide,
      fun _ => by decide⟩ true (by decide)

end MapTables

end Xlibre.Xkb
