import Xlibre.Xkb.Groups
import Mathlib.Data.Int.ModEq

/-! Runs of SetMap and SetControls requests and of events: the effective group stays legal, as long as no request leaves
all keys without groups. -/
namespace Xlibre.Xkb

open XkbSrvInfo

namespace MappedKeyboard

structure Grouped (k : MappedKeyboard) : Prop where
  least : 1 ≤ k.xkbi.ctrls.numGroups
  most : k.xkbi.ctrls.numGroups ≤ xkbNumKbdGroups
  keys : ∀ i, (k.map.keySymMap i).numGroups ≤ xkbNumKbdGroups

/-- The states that requests and events lead to, where each SetMap is allowed. -/
inductive Reach (allowed : MappedKeyboard → SetMapReq → Prop) : MappedKeyboard → Prop
  | start {k : MappedKeyboard} : k.Grouped → Reach allowed k
  | setMap {k : MappedKeyboard} {req : SetMapReq} (ancient : Bool) : Reach allowed k →
      k.setMapChecks (k.withRange ancient req) = true → allowed k (k.withRange ancient req) →
      Reach allowed (k.setMap (k.withRange ancient req))
  | setControls {k : MappedKeyboard} {req : SetControlsReq} {x : XkbSrvInfo} : Reach allowed k →
      k.xkbi.checkControls req = true → k.xkbi.setControls req = some x → Reach allowed { k with xkbi := x }
  | event {k : MappedKeyboard} {e : Event} {kbd : Keyboard} : Reach allowed k → k.toKeyboard.handleActions e = some kbd →
      Reach allowed { k with toKeyboard := kbd }

def KeepsGroup (k : MappedKeyboard) (req : SetMapReq) : Prop :=
  ∀ first wires, req.keySyms = some (first,wires) →
    (∃ w ∈ wires, 1 ≤ w.numGroups) ∨
      ∃ i, min req.minKeyCode k.xkbi.minKeyCode ≤ i ∧ i ≤ max req.maxKeyCode k.xkbi.maxKeyCode ∧
        ¬(first ≤ i ∧ i - first < wires.length) ∧
        1 ≤ ((k.changeKeycodeRange req.minKeyCode req.maxKeyCode).map.keySymMap i).numGroups

structure Legal (k : MappedKeyboard) : Prop where
  numGroups : 1 ≤ k.xkbi.ctrls.numGroups
  derived : ∃ x, k.xkbi.computeDerivedState = some x ∧ x.state.group.toNat < k.xkbi.ctrls.numGroups ∧
    x.state.lockedGroup.toNat < k.xkbi.ctrls.numGroups ∧ ∃ g, x.compatGroup = some g ∧ g.toNat < k.xkbi.ctrls.numGroups

def Wrapped (k : MappedKeyboard) : Prop :=
  ∀ x, k.xkbi.computeDerivedState = some x → k.xkbi.ctrls.Wraps →
    (x.state.group.toNat : ℤ) = x.groupSum % k.xkbi.ctrls.numGroups

section MostGroups

lemma foldl_most_le (g : ℕ → ℕ) (l : List ℕ) (s : ℕ) :
    s ≤ l.foldl (fun s i => if g i > s then g i else s) s ∧
      ∀ i ∈ l, g i ≤ l.foldl (fun s i => if g i > s then g i else s) s := by
  induction l generalizing s with
  | nil => simp
  | cons j l ih =>
    obtain ⟨hs,hl⟩ := ih (if g j > s then g j else s)
    rw [List.foldl_cons]
    have hj : g j ≤ (if g j > s then g j else s) ∧ s ≤ (if g j > s then g j else s) := by
      split <;> omega
    refine ⟨hj.2.trans hs,fun i hi => ?_⟩
    rcases List.mem_cons.mp hi with rfl | hi
    · exact hj.1.trans hs
    · exact hl i hi

lemma foldl_most_bound (g : ℕ → ℕ) (l : List ℕ) (s b : ℕ) (hs : s ≤ b) (hg : ∀ i ∈ l, g i ≤ b) :
    l.foldl (fun s i => if g i > s then g i else s) s ≤ b := by
  induction l generalizing s with
  | nil => exact hs
  | cons j l ih =>
    rw [List.foldl_cons]
    refine ih _ ?_ fun i hi => hg i (List.mem_cons_of_mem j hi)
    split
    · exact hg j List.mem_cons_self
    · exact hs

end MostGroups

section Steps
variable {k : MappedKeyboard}

lemma keys_changeKeycodeRange (h : ∀ i, (k.map.keySymMap i).numGroups ≤ xkbNumKbdGroups) (minKC maxKC i : ℕ) :
    ((k.changeKeycodeRange minKC maxKC).map.keySymMap i).numGroups ≤ xkbNumKbdGroups := by
  simp only [changeKeycodeRange]
  split
  · exact Nat.zero_le _
  · exact h i

lemma checked_keySyms {req : SetMapReq} {first : ℕ} {wires : List SymMapWire} (hc : k.setMapChecks req = true)
    (hreq : req.keySyms = some (first,wires)) :
    req.minKeyCode ≤ first ∧ first+wires.length ≤ req.maxKeyCode+1 ∧ ∀ w ∈ wires, w.numGroups ≤ xkbNumKbdGroups := by
  unfold setMapChecks at hc
  obtain ⟨-,hc⟩ := Bool.and_eq_true_iff.mp hc
  split at hc
  · cases hc
  · obtain ⟨hc,-⟩ := Bool.and_eq_true_iff.mp hc
    obtain ⟨-,hc⟩ := Bool.and_eq_true_iff.mp hc
    simp only [hreq,checkKeySyms,Bool.and_eq_true,decide_eq_true_eq] at hc
    refine ⟨hc.1.1.2,hc.1.1.1,fun w hw => ?_⟩
    have hcheck := List.all_eq_true.mp hc.1.2 w hw
    by_contra hmore
    unfold SymMapWire.check at hcheck
    simp [if_pos (not_le.mp hmore)] at hcheck

lemma keys_setKeySyms (h : ∀ i, (k.map.keySymMap i).numGroups ≤ xkbNumKbdGroups) (first : ℕ) {wires : List SymMapWire}
    (hw : ∀ w ∈ wires, w.numGroups ≤ xkbNumKbdGroups) (i : ℕ) :
    ((k.setKeySyms first wires).map.keySymMap i).numGroups ≤ xkbNumKbdGroups := by
  simp only [setKeySyms]
  split
  · exact hw _ (List.getElem_mem _)
  · exact h i

lemma setKeySyms_most (h : ∀ i, (k.map.keySymMap i).numGroups ≤ xkbNumKbdGroups) (first : ℕ) {wires : List SymMapWire}
    (hw : ∀ w ∈ wires, w.numGroups ≤ xkbNumKbdGroups) : (k.setKeySyms first wires).xkbi.ctrls.numGroups ≤ xkbNumKbdGroups :=
  foldl_most_bound _ _ 0 _ (Nat.zero_le _) fun i _ => keys_setKeySyms h first hw i

lemma le_setKeySyms (first : ℕ) (wires : List SymMapWire) {i : ℕ} (hmin : k.xkbi.minKeyCode ≤ i) (hmax : i ≤ k.xkbi.maxKeyCode) :
    ((k.setKeySyms first wires).map.keySymMap i).numGroups ≤ (k.setKeySyms first wires).xkbi.ctrls.numGroups := by
  have hi : i ∈ List.range' k.xkbi.minKeyCode (k.xkbi.maxKeyCode+1-k.xkbi.minKeyCode) := by
    rw [List.mem_range'_1]
    omega
  exact (foldl_most_le (fun i => ((k.setKeySyms first wires).map.keySymMap i).numGroups) _ 0).2 i hi

lemma keySymMap_sent (first : ℕ) {wires : List SymMapWire} {n : ℕ} (hn : n < wires.length) :
    (k.setKeySyms first wires).map.keySymMap (first+n) = wires[n].toXkbSymMap := by
  have hin : first ≤ first+n ∧ n < wires.length := ⟨by omega,hn⟩
  simp only [setKeySyms,Nat.add_sub_cancel_left,dif_pos hin]

lemma keySymMap_unsent {first i : ℕ} {wires : List SymMapWire} (hi : ¬(first ≤ i ∧ i - first < wires.length)) :
    (k.setKeySyms first wires).map.keySymMap i = k.map.keySymMap i := by
  simp only [setKeySyms,dif_neg hi]

lemma numGroups_setKeySyms {first b : ℕ} {wires : List SymMapWire} (hmin : first ≤ k.xkbi.minKeyCode)
    (hmax : k.xkbi.maxKeyCode < first+wires.length) (hw : ∀ w ∈ wires, w.toXkbSymMap.numGroups ≤ b) :
    (k.setKeySyms first wires).xkbi.ctrls.numGroups ≤ b := by
  refine foldl_most_bound _ _ 0 b (Nat.zero_le b) fun i hi => ?_
  change i ∈ List.range' k.xkbi.minKeyCode (k.xkbi.maxKeyCode+1-k.xkbi.minKeyCode) at hi
  rw [List.mem_range'_1] at hi
  have hin : first ≤ i ∧ i - first < wires.length := by omega
  simp only [dif_pos hin]
  exact hw _ (List.getElem_mem hin.2)

lemma setMap_eq (req : SetMapReq) : ∃ y : MappedKeyboard, y.map.keySymMap =
      (k.changeKeycodeRange req.minKeyCode req.maxKeyCode).map.keySymMap ∧
    y.xkbi.minKeyCode = min req.minKeyCode k.xkbi.minKeyCode ∧ y.xkbi.maxKeyCode = max req.maxKeyCode k.xkbi.maxKeyCode ∧
    y.xkbi.ctrls = k.xkbi.ctrls ∧
    k.setMap req = match req.keySyms with
      | none => y
      | some (first,wires) => y.setKeySyms first wires := by
  unfold setMap
  set y := k.changeKeycodeRange req.minKeyCode req.maxKeyCode
  cases req.keyTypes with
  | true => exact ⟨y.setKeyTypes req,rfl,rfl,rfl,rfl,rfl⟩
  | false => exact ⟨y,rfl,rfl,rfl,rfl,rfl⟩

lemma Grouped.setMap (h : k.Grouped) {req : SetMapReq} (hc : k.setMapChecks req = true) (hkeeps : k.KeepsGroup req) :
    (k.setMap req).Grouped := by
  obtain ⟨y,hkeys,hmin,hmax,hctrls,heq⟩ := setMap_eq (k := k) req
  have hy : ∀ i, (y.map.keySymMap i).numGroups ≤ xkbNumKbdGroups := by
    rw [hkeys]
    exact keys_changeKeycodeRange h.keys _ _
  rw [heq]
  cases hreq : req.keySyms with
  | none => exact ⟨hctrls ▸ h.least,hctrls ▸ h.most,hy⟩
  | some sent =>
    obtain ⟨first,wires⟩ := sent
    obtain ⟨hfirst,hlast,hw⟩ := checked_keySyms hc hreq
    refine ⟨?_,setKeySyms_most hy first hw,keys_setKeySyms hy first hw⟩
    rcases hkeeps first wires hreq with ⟨w,hwm,hw1⟩ | ⟨i,hi,hi',hunsent,hi1⟩
    · obtain ⟨n,hn,rfl⟩ := List.getElem_of_mem hwm
      refine le_trans ?_ (le_setKeySyms first wires (i := first+n) (by omega) (by omega))
      rw [keySymMap_sent first hn]
      exact hw1
    · refine le_trans ?_ (le_setKeySyms first wires (i := i) (by omega) (by omega))
      rw [keySymMap_unsent hunsent,hkeys]
      exact hi1

lemma numGroups_setControls {xkbi x : XkbSrvInfo} {req : SetControlsReq} (hsome : 1 ≤ xkbi.ctrls.numGroups)
    (hmost : xkbi.ctrls.numGroups ≤ xkbNumKbdGroups) (h : xkbi.setControls req = some x) :
    x.ctrls.numGroups = xkbi.ctrls.numGroups := by
  unfold XkbSrvInfo.setControls at h
  dsimp only at h
  split at h
  · split at h
    · set cleared := clearAllLatchesAndLocks _ with hcleared
      have hsame : cleared.ctrls.numGroups = xkbi.ctrls.numGroups := regroups_clearAllLatchesAndLocks _
      obtain ⟨x',hx',hd⟩ := derives_computeDerivedState cleared (by omega) (by omega)
      obtain rfl := Option.some.inj (h.symm.trans hx')
      rw [hd.ctrls,hsame]
    · obtain rfl := Option.some.inj h
      exact regroups_clearAllLatchesAndLocks _
  · obtain rfl := Option.some.inj h
    rfl

lemma Grouped.handleActions (h : k.Grouped) (e : Event) :
    ∃ kbd, k.toKeyboard.handleActions e = some kbd ∧ kbd.xkbi.ctrls.numGroups = k.xkbi.ctrls.numGroups := by
  set changed := Keyboard.makeChanges { k.toKeyboard with xkbi := k.filterEvent e } with hchanged
  have hsame : changed.xkbi.ctrls.numGroups = k.xkbi.ctrls.numGroups := numGroups_filterEvent k.toKeyboard e
  obtain ⟨x,hx,hd⟩ := derives_computeDerivedState changed.xkbi (hsame ▸ h.least) (hsame ▸ h.most)
  refine ⟨{ changed with xkbi := x },?_,?_⟩
  · simp only [Keyboard.handleActions,← hchanged,hx,Option.map_some]
  · simp only [hd.ctrls,hsame]

lemma Reach.grouped (h : Reach KeepsGroup k) : k.Grouped := by
  induction h with
  | start h => exact h
  | setMap ancient _ hc hkeeps ih => exact ih.setMap hc hkeeps
  | setControls _ _ hx ih =>
    have hsame := numGroups_setControls ih.least ih.most hx
    exact ⟨hsame ▸ ih.least,hsame ▸ ih.most,ih.keys⟩
  | @event k e kbd _ hk ih =>
    obtain ⟨kbd',hk',hsame⟩ := ih.handleActions e
    obtain rfl := Option.some.inj (hk.symm.trans hk')
    exact ⟨hsame ▸ ih.least,hsame ▸ ih.most,ih.keys⟩

end Steps

lemma remainder_iff {group sum cut : ℤ} {n : ℕ} (h : group = cut % n) : group = sum % n ↔ (n : ℤ) ∣ sum - cut := by
  rw [h]
  exact Int.modEq_iff_dvd

theorem effective_group_legal {k : MappedKeyboard} (h : Reach KeepsGroup k) :
    k.Legal ∧ (∀ e, (k.toKeyboard.handleActions e).isSome) ∧
      ∀ x, k.xkbi.computeDerivedState = some x → k.xkbi.ctrls.Wraps →
        ((x.state.group.toNat : ℤ) = x.groupSum % k.xkbi.ctrls.numGroups ↔
          (k.xkbi.ctrls.numGroups : ℤ) ∣ x.groupSum - x.cutSum) := by
  have hg := h.grouped
  obtain ⟨x,hx,hd⟩ := derives_computeDerivedState k.xkbi hg.least hg.most
  refine ⟨⟨hg.least,x,hx,hd.group,hd.lockedGroup,hd.compat⟩,fun e => ?_,fun y hy hw => ?_⟩
  · obtain ⟨kbd,hk,-⟩ := hg.handleActions e
    rw [hk]
    rfl
  · obtain rfl := Option.some.inj (hy.symm.trans hx)
    exact remainder_iff (hd.wrapped hw)

/-- A keyboard at rest with the canonical types, whose keys all have so many groups. -/
def uniform (n : ℕ) : MappedKeyboard where
  xkbi := { ctrls.numGroups := n }
  map := { types := [1,2,2,2], keySymMap := fun _ => { ktIndex := fun _ => 1, groupInfo := BitVec.ofNat 8 n, width := 2 } }

lemma uniform_grouped {n : ℕ} (h : n ∈ [1,2,3,4]) : (uniform n).Grouped := by
  have hn : 1 ≤ n ∧ n ≤ 4 ∧ (BitVec.ofNat 8 n &&& 0x0f).toNat ≤ 4 := by
    simp only [List.mem_cons,List.not_mem_nil,or_false] at h
    rcases h with rfl | rfl | rfl | rfl <;> decide
  exact ⟨hn.1,hn.2.1,fun _ => hn.2.2⟩

theorem effective_group_legal_uniform : (uniform 3).Legal ∧ (∀ e, ((uniform 3).toKeyboard.handleActions e).isSome) ∧
    ∀ x, (uniform 3).xkbi.computeDerivedState = some x → (uniform 3).xkbi.ctrls.Wraps →
      ((x.state.group.toNat : ℤ) = x.groupSum % 3 ↔ (3 : ℤ) ∣ x.groupSum - x.cutSum) :=
  effective_group_legal (.start (uniform_grouped (by decide)))

def takeGroups : SetMapReq := { keySyms := some (8,List.replicate 248 {}) }

lemma takeGroups_takes : ((uniform 1).setMap takeGroups).xkbi.ctrls.numGroups = 0 := by
  have hset : (uniform 1).setMap takeGroups =
      ((uniform 1).changeKeycodeRange takeGroups.minKeyCode takeGroups.maxKeyCode).setKeySyms 8 (List.replicate 248 {}) := rfl
  rw [hset]
  refine Nat.le_zero.1 (numGroups_setKeySyms (by decide) (by rw [List.length_replicate]; decide) fun w hw => ?_)
  rw [List.eq_of_mem_replicate hw]
  decide

lemma takeGroups_accepted : (uniform 1).setMapChecks takeGroups = true := by decide +kernel

def farGroup : Option Keyboard :=
  [.press { input := keyOf 41 (by decide), act := { type := .setGroup, group := 100 } },
   .press { input := keyOf 42 (by decide), act := { type := .setGroup, group := 100 } }].foldlM
    Keyboard.handleActions (uniform 3).toKeyboard

lemma farGroup_off : (farGroup.bind fun k => k.xkbi.computeDerivedState.map fun x =>
    (x.state.group.toNat,x.groupSum % 3,k.xkbi.ctrls.numGroups,k.xkbi.ctrls.groupsWrap)) = some (1,2,3,0) := by decide +kernel

lemma Reach.foldlM {allowed : MappedKeyboard → SetMapReq → Prop} {k : MappedKeyboard} (h : Reach allowed k) {l : List Event}
    {kbd : Keyboard} (hl : l.foldlM Keyboard.handleActions k.toKeyboard = some kbd) :
    Reach allowed { k with toKeyboard := kbd } := by
  induction l generalizing k with
  | nil =>
    obtain rfl := Option.some.inj hl
    exact h
  | cons e l ih =>
    rw [List.foldlM_cons] at hl
    obtain ⟨d,hd,hl⟩ := Option.bind_eq_some_iff.mp hl
    exact ih (k := { k with toKeyboard := d }) (h.event hd) hl

theorem effective_group_illegal : (¬∀ k, Reach (fun _ _ => True) k → k.Legal) ∧ ¬∀ k, Reach KeepsGroup k → k.Wrapped := by
  constructor
  · intro hall
    have hreach : Reach (fun _ _ => True) ((uniform 1).setMap takeGroups) :=
      .setMap false (.start (uniform_grouped (by decide))) takeGroups_accepted trivial
    have hone := (hall _ hreach).numGroups
    rw [takeGroups_takes] at hone
    exact absurd hone (by decide)
  · intro hall
    obtain ⟨kbd,hk,hoff⟩ := Option.bind_eq_some_iff.mp farGroup_off
    obtain ⟨x,hx,hvals⟩ := Option.map_eq_some_iff.mp hoff
    simp only [Prod.mk.injEq] at hvals
    obtain ⟨hgroup,hsum,hnum,hwrap⟩ := hvals
    have hw : kbd.xkbi.ctrls.Wraps := by
      rw [XkbControls.Wraps,hwrap]
      decide
    have hreach : Reach KeepsGroup { uniform 3 with toKeyboard := kbd } :=
      Reach.foldlM (k := uniform 3) (.start (uniform_grouped (by decide))) hk
    have heq := hall _ hreach x hx hw
    simp only [hgroup,hnum,Nat.cast_one,Nat.cast_ofNat,hsum] at heq
    exact absurd heq (by decide)

end MappedKeyboard

end Xlibre.Xkb
