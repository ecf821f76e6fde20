import Mathlib.Data.Fintype.Card
import Mathlib.Tactic.IntervalCases

/-! The buttons of a pointer device: the bitmap of those that are down, their number, the motion mask and the state word,
over presses, releases and changes of the map. -/
namespace Xlibre.Xinput

def button1Mask : BitVec 16 := 0x100
def deviceButtonMotionMask : BitVec 32 := 0x2000

/-- `ButtonClassRec`. Button zero is never mapped. -/
structure ButtonClass where
  buttonsDown : BitVec 8 := 0
  state : BitVec 16 := 0
  motionMask : BitVec 32 := 0
  down : Fin 256 → Bool := fun _ => false
  map : Fin 256 → BitVec 8

inductive ButtonEvent
  | press (key : Fin 256)
  /-- A master's button stays down while some slave has a button down that is mapped to it. -/
  | release (key : Fin 256) (heldBySlave : Bool)

/-- The buttons from the first on, as they are to be mapped. -/
abbrev PointerMap := { map : List (BitVec 8) // map.length ≤ 255 }

namespace ButtonClass

def buttonBit (logical : BitVec 8) : BitVec 16 := (button1Mask >>> 1) <<< logical.toNat

def increaseButtonCount (b : ButtonClass) (key : Fin 256) : ButtonClass :=
  { b with
    buttonsDown := b.buttonsDown+1
    motionMask := deviceButtonMotionMask
    state := if b.map key ≤ 5 then b.state ||| buttonBit (b.map key) else b.state }

def decreaseButtonCount (b : ButtonClass) (key : Fin 256) : ButtonClass :=
  { b with
    buttonsDown := if b.buttonsDown ≥ 1 then b.buttonsDown-1 else b.buttonsDown
    motionMask := if b.buttonsDown ≥ 1 ∧ b.buttonsDown-1 = 0 then 0 else b.motionMask
    state := if b.map key ≤ 5 then b.state &&& ~~~buttonBit (b.map key) else b.state }

/-- `UpdateDeviceState` for buttons. -/
def updateDeviceState (b : ButtonClass) : ButtonEvent → ButtonClass
  | .press key =>
    if b.down key then b
    else
      let b := { b with down := Function.update b.down key true }
      if b.map key = 0 then b else b.increaseButtonCount key
  | .release key heldBySlave =>
    if !b.down key ∨ heldBySlave then b
    else
      let b := { b with down := Function.update b.down key false }
      if b.map key = 0 then b else b.decreaseButtonCount key

def buttonAt (map : PointerMap) (i : Fin map.1.length) : Fin 256 := ⟨i+1,by have := map.2; omega⟩

/-- `check_butmap_change`: a button that is down keeps its logical button. -/
def checkButmapChange (b : ButtonClass) (map : PointerMap) : Bool :=
  !decide (∃ i : Fin map.1.length, b.map (buttonAt map i) ≠ map.1[i] ∧ b.down (buttonAt map i) = true)

def applyPointerMapping (b : ButtonClass) (map : PointerMap) : ButtonClass :=
  if b.checkButmapChange map then
    { b with map := fun key => if h : 1 ≤ key.val ∧ key.val - 1 < map.1.length then map.1[key.val - 1] else b.map key }
  else b

/-- Nothing is down, and button zero is not mapped. -/
structure Released (b : ButtonClass) : Prop where
  buttonsDown : b.buttonsDown = 0
  state : b.state = 0
  motionMask : b.motionMask = 0
  down : ∀ key, b.down key = false
  map : b.map 0 = 0

/-- The states that presses, releases and changes of the map lead to. -/
inductive Reach (allowed : ButtonClass → ButtonEvent → Prop) : ButtonClass → Prop
  | start {b : ButtonClass} : b.Released → Reach allowed b
  | event {b : ButtonClass} {e : ButtonEvent} : Reach allowed b → allowed b e → Reach allowed (b.updateDeviceState e)
  | mapping {b : ButtonClass} (map : PointerMap) : Reach allowed b → Reach allowed (b.applyPointerMapping map)

/-- The buttons that are down and have a logical button. -/
def counted (b : ButtonClass) : Finset (Fin 256) := Finset.univ.filter fun key => b.down key = true ∧ b.map key ≠ 0

structure Counts (b : ButtonClass) : Prop where
  buttonsDown : b.buttonsDown.toNat = b.counted.card
  motionMask : b.motionMask = if 0 < b.counted.card then deviceButtonMotionMask else 0

/-- The state word has the bits of the logical buttons that are down. -/
def Shows (b : ButtonClass) : Prop :=
  ∀ i, 1 ≤ i → i ≤ 5 → (b.state.getLsbD (7+i) = true ↔ ∃ key, b.down key = true ∧ (b.map key).toNat = i)

/-- The release of a button that is the only one down for its logical button, as far as the state word shows that one. -/
def Alone (b : ButtonClass) : ButtonEvent → Prop
  | .press _ => True
  | .release key heldBySlave => b.down key = true → heldBySlave = false → b.map key ≠ 0 → b.map key ≤ 5 →
      ∀ other, other ≠ key → b.down other = true → b.map other ≠ b.map key

lemma buttonBit_getLsbD {logical : BitVec 8} (h : logical ≤ 5) {i : ℕ} (h1 : 1 ≤ i) (h5 : i ≤ 5) :
    (buttonBit logical).getLsbD (7+i) = decide (logical.toNat = i) := by
  have hle : logical.toNat ≤ 5 := h
  unfold buttonBit
  generalize logical.toNat = m at hle
  interval_cases m <;> interval_cases i <;> rfl

section Counted
variable {b : ButtonClass} {key : Fin 256}

lemma mem_counted {key : Fin 256} : key ∈ b.counted ↔ b.down key = true ∧ b.map key ≠ 0 := by
  simp [counted]

lemma card_counted_lt (h0 : b.map 0 = 0) (hkey : key ∉ b.counted) (hmap : b.map key ≠ 0) : b.counted.card < 255 := by
  have hne : key ≠ 0 := by
    rintro rfl
    exact hmap h0
  have hsub : b.counted ⊆ ((Finset.univ.erase 0).erase key : Finset (Fin 256)) := by
    intro k hk
    rw [Finset.mem_erase,Finset.mem_erase]
    refine ⟨?_,?_,Finset.mem_univ k⟩
    · rintro rfl
      exact hkey hk
    · rintro rfl
      exact (mem_counted.mp hk).2 h0
  have hcard := Finset.card_le_card hsub
  rw [Finset.card_erase_of_mem (Finset.mem_erase.mpr ⟨hne,Finset.mem_univ key⟩),
    Finset.card_erase_of_mem (Finset.mem_univ 0),Finset.card_univ,Fintype.card_fin] at hcard
  omega

lemma counted_press (hmap : b.map key ≠ 0) :
    counted { b with down := Function.update b.down key true } = insert key b.counted := by
  ext k
  rw [mem_counted,Finset.mem_insert,mem_counted]
  by_cases hk : k = key
  · subst hk
    simpa using hmap
  · simp [hk]

lemma counted_release : counted { b with down := Function.update b.down key false } = b.counted.erase key := by
  ext k
  rw [mem_counted,Finset.mem_erase,mem_counted]
  by_cases hk : k = key
  · subst hk
    simp
  · simp [hk]

lemma counted_unmapped (hmap : b.map key = 0) (d : Bool) : counted { b with down := Function.update b.down key d } = b.counted := by
  ext k
  rw [mem_counted,mem_counted]
  by_cases hk : k = key
  · subst hk
    simp [hmap]
  · simp [hk]

end Counted

section Counts
variable {b : ButtonClass} {key : Fin 256}

lemma map_updateDeviceState (e : ButtonEvent) : (b.updateDeviceState e).map = b.map := by
  cases e with
  | press key =>
    simp only [updateDeviceState]
    split
    · rfl
    · split <;> rfl
  | release key heldBySlave =>
    simp only [updateDeviceState]
    split
    · rfl
    · split <;> rfl

lemma Counts.press (h : b.Counts) (h0 : b.map 0 = 0) : (b.updateDeviceState (.press key)).Counts := by
  simp only [updateDeviceState]
  split
  · exact h
  · next hup =>
    split
    · next hmap => exact ⟨by rw [counted_unmapped hmap]; exact h.buttonsDown,by rw [counted_unmapped hmap]; exact h.motionMask⟩
    · next hmap =>
      have hkey : key ∉ b.counted := fun hk => hup (mem_counted.mp hk).1
      have hlt := card_counted_lt h0 hkey hmap
      have hcard : (increaseButtonCount { b with down := Function.update b.down key true } key).counted.card =
          b.counted.card+1 := by
        rw [show (increaseButtonCount { b with down := Function.update b.down key true } key).counted = _ from
          counted_press hmap,Finset.card_insert_of_notMem hkey]
      refine ⟨?_,by rw [hcard,if_pos (Nat.succ_pos _)]; rfl⟩
      rw [hcard]
      simp only [increaseButtonCount,BitVec.toNat_add,h.buttonsDown]
      exact Nat.mod_eq_of_lt (show b.counted.card + 1 < 2^8 by omega)

lemma Counts.release (h : b.Counts) (heldBySlave : Bool) : (b.updateDeviceState (.release key heldBySlave)).Counts := by
  simp only [updateDeviceState]
  split
  · exact h
  · next hdown =>
    split
    · next hmap => exact ⟨by rw [counted_unmapped hmap]; exact h.buttonsDown,by rw [counted_unmapped hmap]; exact h.motionMask⟩
    · next hmap =>
      have hkey : key ∈ b.counted := by
        rw [mem_counted]
        simp only [Bool.not_eq_eq_eq_not,Bool.not_true,not_or,Bool.not_eq_false] at hdown
        exact ⟨hdown.1,hmap⟩
      have hpos : 0 < b.counted.card := Finset.card_pos.mpr ⟨key,hkey⟩
      have hge : b.buttonsDown ≥ 1 := by
        have := h.buttonsDown
        rw [ge_iff_le,BitVec.le_def]
        show 1 ≤ b.buttonsDown.toNat
        omega
      have hcard : (decreaseButtonCount { b with down := Function.update b.down key false } key).counted.card =
          b.counted.card-1 := by
        rw [show (decreaseButtonCount { b with down := Function.update b.down key false } key).counted = _ from
          counted_release,Finset.card_erase_of_mem hkey]
      have hless : (b.buttonsDown-1).toNat = b.counted.card-1 := by
        rw [BitVec.toNat_sub_of_le hge,h.buttonsDown]
        rfl
      refine ⟨?_,?_⟩
      · rw [hcard]
        simp only [decreaseButtonCount,if_pos hge,hless]
      · rw [hcard]
        have hzero : b.buttonsDown-1 = 0 ↔ ¬0 < b.counted.card-1 := by
          rw [← BitVec.toNat_inj,hless]
          show b.counted.card-1 = 0 ↔ _
          omega
        simp only [decreaseButtonCount,hzero,hge,true_and]
        rw [h.motionMask,if_pos hpos]
        split <;> simp_all

lemma mapped_of_down (map : PointerMap) (hkey : b.down key = true) : (b.applyPointerMapping map).map key = b.map key := by
  unfold applyPointerMapping
  split
  · next hok =>
    dsimp only
    split
    · next hin =>
      unfold checkButmapChange at hok
      simp only [Bool.not_eq_true',decide_eq_false_iff_not,not_exists,not_and] at hok
      by_contra hne
      have hat : buttonAt map ⟨key.val - 1,hin.2⟩ = key := Fin.ext (by simp only [buttonAt]; omega)
      refine hok ⟨key.val - 1,hin.2⟩ ?_ (by rw [hat]; exact hkey)
      rw [hat]
      exact fun heq => hne heq.symm
    · rfl
  · rfl

lemma down_applyPointerMapping (map : PointerMap) : (b.applyPointerMapping map).down = b.down := by
  unfold applyPointerMapping
  split <;> rfl

lemma counted_applyPointerMapping (map : PointerMap) : (b.applyPointerMapping map).counted = b.counted := by
  ext k
  rw [mem_counted,mem_counted,down_applyPointerMapping]
  constructor
  · rintro ⟨hk,hm⟩
    exact ⟨hk,by rwa [mapped_of_down map hk] at hm⟩
  · rintro ⟨hk,hm⟩
    exact ⟨hk,by rwa [mapped_of_down map hk]⟩

lemma Counts.mapping (h : b.Counts) (map : PointerMap) : (b.applyPointerMapping map).Counts := by
  have hsame : (b.applyPointerMapping map).buttonsDown = b.buttonsDown ∧
      (b.applyPointerMapping map).motionMask = b.motionMask := by
    unfold applyPointerMapping
    split <;> exact ⟨rfl,rfl⟩
  refine ⟨?_,?_⟩
  · rw [hsame.1,counted_applyPointerMapping]
    exact h.buttonsDown
  · rw [hsame.2,counted_applyPointerMapping]
    exact h.motionMask

lemma Released.counts (h : b.Released) : b.Counts := by
  have hnone : b.counted = ∅ := by
    ext k
    simp [mem_counted,h.down k]
  exact ⟨by rw [hnone,h.buttonsDown]; rfl,by rw [hnone,h.motionMask]; rfl⟩

/-- The counter and the motion mask are right in every run. -/
theorem Reach.counts {allowed : ButtonClass → ButtonEvent → Prop} (h : Reach allowed b) : b.map 0 = 0 ∧ b.Counts := by
  induction h with
  | start h => exact ⟨h.map,h.counts⟩
  | @event b e _ _ ih =>
    refine ⟨by rw [map_updateDeviceState]; exact ih.1,?_⟩
    cases e with
    | press key => exact ih.2.press ih.1
    | release key heldBySlave => exact ih.2.release heldBySlave
  | @mapping b map _ ih =>
    refine ⟨?_,ih.2.mapping map⟩
    unfold applyPointerMapping
    split
    · simpa using ih.1
    · exact ih.1

end Counts

section Shows
variable {b : ButtonClass} {key : Fin 256}

lemma Shows.press (h : b.Shows) : (b.updateDeviceState (.press key)).Shows := by
  simp only [updateDeviceState]
  split
  · exact h
  · next hup =>
    intro i h1 h5
    have hex : (∃ k, Function.update b.down key true k = true ∧ (b.map k).toNat = i) ↔
        (b.map key).toNat = i ∨ ∃ k, b.down k = true ∧ (b.map k).toNat = i := by
      constructor
      · rintro ⟨k,hk,hm⟩
        by_cases hkk : k = key
        · exact .inl (hkk ▸ hm)
        · rw [Function.update_of_ne hkk] at hk
          exact .inr ⟨k,hk,hm⟩
      · rintro (hm | ⟨k,hk,hm⟩)
        · exact ⟨key,by simp,hm⟩
        · refine ⟨k,?_,hm⟩
          by_cases hkk : k = key
          · simp [hkk]
          · rwa [Function.update_of_ne hkk]
    split
    · next hmap =>
      have hzero : (b.map key).toNat ≠ i := by
        rw [show b.map key = 0 from hmap]
        show 0 ≠ i
        omega
      rw [hex]
      simpa [hzero] using h i h1 h5
    · simp only [increaseButtonCount,hex]
      split
      · next hle =>
        rw [BitVec.getLsbD_or,buttonBit_getLsbD hle h1 h5,Bool.or_eq_true,decide_eq_true_iff,h i h1 h5,or_comm]
      · next hgt =>
        have hne : (b.map key).toNat ≠ i := fun heq => hgt (show (b.map key).toNat ≤ 5 by omega)
        simpa [hne] using h i h1 h5

lemma Shows.release (h : b.Shows) (heldBySlave : Bool) (halone : b.Alone (.release key heldBySlave)) :
    (b.updateDeviceState (.release key heldBySlave)).Shows := by
  simp only [updateDeviceState]
  split
  · exact h
  · next hdown =>
    simp only [Bool.not_eq_eq_eq_not,Bool.not_true,not_or,Bool.not_eq_false,Bool.not_eq_true] at hdown
    intro i h1 h5
    have hex : (∃ k, Function.update b.down key false k = true ∧ (b.map k).toNat = i) ↔
        ∃ k, k ≠ key ∧ b.down k = true ∧ (b.map k).toNat = i := by
      constructor
      · rintro ⟨k,hk,hm⟩
        have hkk : k ≠ key := by
          rintro rfl
          simp at hk
        rw [Function.update_of_ne hkk] at hk
        exact ⟨k,hkk,hk,hm⟩
      · rintro ⟨k,hkk,hk,hm⟩
        exact ⟨k,by rwa [Function.update_of_ne hkk],hm⟩
    -- The released button does not matter to other logical buttons.
    have hother : (b.map key).toNat ≠ i → ((∃ k, k ≠ key ∧ b.down k = true ∧ (b.map k).toNat = i) ↔
        b.state.getLsbD (7+i) = true) := by
      intro hne
      rw [h i h1 h5]
      constructor
      · rintro ⟨k,-,hk,hm⟩
        exact ⟨k,hk,hm⟩
      · rintro ⟨k,hk,hm⟩
        refine ⟨k,?_,hk,hm⟩
        rintro rfl
        exact hne hm
    split
    · next hmap =>
      have hzero : (b.map key).toNat ≠ i := by
        rw [show b.map key = 0 from hmap]
        show 0 ≠ i
        omega
      rw [hex,hother hzero]
    · next hmap =>
      simp only [decreaseButtonCount,hex]
      split
      · next hle =>
        rw [BitVec.getLsbD_and,BitVec.getLsbD_not,buttonBit_getLsbD hle h1 h5]
        by_cases heq : (b.map key).toNat = i
        · have hnone : ¬∃ k, k ≠ key ∧ b.down k = true ∧ (b.map k).toNat = i := by
            rintro ⟨k,hkk,hk,hm⟩
            exact halone hdown.1 hdown.2 hmap hle k hkk hk (BitVec.eq_of_toNat_eq (hm.trans heq.symm))
          simp [heq,hnone]
        · rw [hother heq]
          have h16 : 7+i < 16 := by omega
          simp [heq,h16]
      · next hgt =>
        have hne : (b.map key).toNat ≠ i := fun heq => hgt (show (b.map key).toNat ≤ 5 by omega)
        exact (hother hne).symm

lemma Shows.mapping (h : b.Shows) (map : PointerMap) : (b.applyPointerMapping map).Shows := by
  have hstate : (b.applyPointerMapping map).state = b.state := by
    unfold applyPointerMapping
    split <;> rfl
  intro i h1 h5
  rw [hstate,h i h1 h5,down_applyPointerMapping]
  constructor
  · rintro ⟨k,hk,hm⟩
    exact ⟨k,hk,by rwa [mapped_of_down map hk]⟩
  · rintro ⟨k,hk,hm⟩
    exact ⟨k,hk,by rwa [mapped_of_down map hk] at hm⟩

end Shows

theorem button_counters_match {b : ButtonClass} (h : Reach Alone b) : b.Counts ∧ b.Shows := by
  refine ⟨h.counts.2,?_⟩
  induction h with
  | start h => exact fun i _ _ => by simp [h.state,h.down]
  | @event b e _ halone ih =>
    cases e with
    | press key => exact ih.press
    | release key heldBySlave => exact ih.release heldBySlave halone
  | mapping map _ ih => exact ih.mapping map

def twinButtons : ButtonClass where
  map key := if key = 0 then 0 else if key ≤ 2 then 1 else BitVec.ofNat 8 key

lemma twinButtons_released : twinButtons.Released := ⟨rfl,rfl,rfl,fun _ => rfl,rfl⟩

theorem button_counters_match_press : (twinButtons.updateDeviceState (.press 1)).Counts ∧
    (twinButtons.updateDeviceState (.press 1)).Shows :=
  button_counters_match (.event (.start twinButtons_released) trivial)

/-- Both of them go down and the second one goes up: the state word no longer shows the first one. -/
theorem button_state_lost : ¬∀ b, Reach (fun _ _ => True) b → b.Counts ∧ b.Shows := by
  intro hall
  have hreach : Reach (fun _ _ => True) (((twinButtons.updateDeviceState (.press 1)).updateDeviceState (.press 2)).updateDeviceState
      (.release 2 false)) := .event (.event (.event (.start twinButtons_released) trivial) trivial) trivial
  have hshown := (hall _ hreach).2 1 le_rfl (by decide)
  have hbit : (((twinButtons.updateDeviceState (.press 1)).updateDeviceState (.press 2)).updateDeviceState
      (.release 2 false)).state.getLsbD 8 = false := by decide +kernel
  exact absurd (hshown.mpr ⟨1,by decide +kernel,by decide +kernel⟩) (by rw [hbit]; decide)

end ButtonClass

end Xlibre.Xinput
