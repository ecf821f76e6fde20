import Xlibre.Xkb.Slots

/-! Runs of key and button events on one keyboard, with the keys that are down and what their filters have set. -/
namespace Xlibre.Xkb

open XkbFilter

/-- A key or button that is down, the slot of the filter that its press has started, and what the press has set. -/
structure Hold where
  input : Input
  slot : ℕ
  mods : BitVec 8
  group : BitVec 16

structure Course where
  kbd : Keyboard
  down : List Input := []
  holds : List Hold := []

/-- The filter that a press starts, if it does. -/
def Keyboard.newHold (k : Keyboard) (p : Press) : List Hold :=
  let slot := (k.passed (.press p)).xkbi.nextFreeFilter.2
  let after := k.filterEvent (.press p)
  if (after.filters.getD slot .zeroed).active then [⟨p.input,slot,after.setMods,after.groupChange⟩] else []

/-- Nothing is held. -/
structure Keyboard.Idle (k : Keyboard) : Prop where
  filters : ∀ f ∈ k.xkbi.filters, f.active = false
  counts : ∀ i, k.modifierKeyCount i = 0
  baseMods : k.xkbi.state.baseMods = 0
  baseGroup : k.xkbi.state.baseGroup = 0

/-- The runs from an idle keyboard whose presses are allowed. A key or button is pressed only while up and released only
while down. -/
inductive Course.Reach (allowed : Keyboard → Press → Prop) : Course → Prop
  | idle {k : Keyboard} : k.Idle → Reach allowed { kbd := k }
  | press {c : Course} {p : Press} {k : Keyboard} : Reach allowed c → p.input ∉ c.down → allowed c.kbd p →
      c.kbd.handleActions (.press p) = some k → Reach allowed ⟨k,p.input::c.down,c.kbd.newHold p ++ c.holds⟩
  | release {c : Course} {x : Input} {k : Keyboard} : Reach allowed c → x ∈ c.down →
      c.kbd.handleActions (.release x) = some k → Reach allowed ⟨k,c.down.erase x,c.holds.filter fun h => h.input ≠ x⟩

/-- One event of a run, if it can come. -/
def Course.next (c : Course) : Event → Option Course
  | .press p =>
    if p.input ∈ c.down then none
    else (c.kbd.handleActions (.press p)).map fun k => ⟨k,p.input::c.down,c.kbd.newHold p ++ c.holds⟩
  | .release x =>
    if x ∈ c.down then
      (c.kbd.handleActions (.release x)).map fun k => ⟨k,c.down.erase x,c.holds.filter fun h => h.input ≠ x⟩
    else none

lemma Course.Reach.next {allowed : Keyboard → Press → Prop} {c c' : Course} {e : Event} (h : Reach allowed c)
    (hallowed : ∀ p, e = .press p → allowed c.kbd p) (hnext : c.next e = some c') : Reach allowed c' := by
  cases e with
  | press p =>
    simp only [Course.next] at hnext
    split at hnext
    · cases hnext
    · next hp =>
      obtain ⟨k,hk,rfl⟩ := Option.map_eq_some_iff.mp hnext
      exact h.press hp (hallowed p rfl) hk
  | release x =>
    simp only [Course.next] at hnext
    split at hnext
    · next hx =>
      obtain ⟨k,hk,rfl⟩ := Option.map_eq_some_iff.mp hnext
      exact h.release hx hk
    · cases hnext

lemma Course.Reach.foldlM {allowed : Press → Prop} {c c' : Course} {l : List Event} (h : Reach (fun _ p => allowed p) c)
    (hallowed : ∀ p, .press p ∈ l → allowed p) (hnext : l.foldlM Course.next c = some c') :
    Reach (fun _ p => allowed p) c' := by
  induction l generalizing c with
  | nil =>
    obtain rfl := Option.some.inj hnext
    exact h
  | cons e l ih =>
    rw [List.foldlM_cons] at hnext
    obtain ⟨d,hd,hnext⟩ := Option.bind_eq_some_iff.mp hnext
    refine ih (h.next (fun p hp => ?_) hd) (fun p hp => hallowed p (List.mem_cons_of_mem _ hp)) hnext
    exact hallowed p (hp ▸ List.mem_cons_self)

/-- The modifiers and the group of a keyboard are those that its held keys have set. -/
structure Course.Accounted (c : Course) : Prop where
  ordinary : c.kbd.xkbi.AllOrdinary
  kept : ∀ h ∈ c.holds, c.kbd.xkbi.heldAt h.slot = some (h.input.kc,h.mods,h.group)
  owned : ∀ j v, c.kbd.xkbi.heldAt j = some v → ∃ h ∈ c.holds, h.slot = j
  inputs : (c.holds.map Hold.input).Nodup
  down : ∀ h ∈ c.holds, h.input ∈ c.down
  downNodup : c.down.Nodup
  counts : ∀ i : Fin 8, c.kbd.modifierKeyCount i = c.holds.countP fun h => h.mods[i]
  baseMods : ∀ i : Fin 8, c.kbd.xkbi.state.baseMods[i] = decide (0 < c.kbd.modifierKeyCount i)
  baseGroup : c.kbd.xkbi.state.baseGroup = (c.holds.map Hold.group).sum

section Changes

lemma getElem_foldl_drop (drop : Fin 8 → Prop) [DecidablePred drop] (l : List (Fin 8)) (mods : BitVec 8) (j : Fin 8) :
    (l.foldl (fun m i => if drop i then m &&& ~~~BitVec.twoPow 8 i else m) mods)[j] =
      (mods[j] && !(decide (j ∈ l) && decide (drop j))) := by
  induction l generalizing mods with
  | nil => simp
  | cons i l ih =>
    rw [List.foldl_cons,ih]
    by_cases hi : drop i
    · rw [if_pos hi]
      by_cases hj : j = i
      · subst hj
        simp [hi]
      · have : (j : ℕ) ≠ i := fun h => hj (Fin.ext h)
        simp [hj,this]
    · rw [if_neg hi]
      by_cases hj : j = i
      · subst hj
        simp [hi]
      · simp [hj]

structure Changed (k k' : Keyboard) : Prop where
  filters : k'.xkbi.filters = k.xkbi.filters
  counts : ∀ i : Fin 8, k'.modifierKeyCount i =
    let c := if k.xkbi.setMods[i] then k.modifierKeyCount i + 1 else k.modifierKeyCount i
    if k.xkbi.clearMods[i] then max (c-1) 0 else c
  baseMods : ∀ i : Fin 8, k'.xkbi.state.baseMods[i] = ((k.xkbi.state.baseMods[i] || k.xkbi.setMods[i]) &&
    !(k.xkbi.clearMods[i] && decide ((if k.xkbi.setMods[i] then k.modifierKeyCount i + 1 else k.modifierKeyCount i) - 1 ≤ 0)))
  baseGroup : k'.xkbi.state.baseGroup = k.xkbi.state.baseGroup + k.xkbi.groupChange

lemma changed_makeChanges (k : Keyboard) : Changed k k.makeChanges := by
  constructor
  · rfl
  · exact fun i => rfl
  · intro i
    simp only [Keyboard.makeChanges,Keyboard.dropMods,Keyboard.holdMods]
    rw [getElem_foldl_drop]
    simp
  · rfl

lemma computeDerivedState_same {xkbi x : XkbSrvInfo} (h : xkbi.computeDerivedState = some x) :
    x.filters = xkbi.filters ∧ x.state.baseMods = xkbi.state.baseMods ∧ x.state.baseGroup = xkbi.state.baseGroup ∧
      x.state.latchedMods = xkbi.state.latchedMods ∧ x.state.latchedGroup = xkbi.state.latchedGroup := by
  unfold XkbSrvInfo.computeDerivedState at h
  split at h
  · cases h
  · dsimp only at h
    split at h
    · cases h
    · cases h
      exact ⟨rfl,rfl,rfl,rfl,rfl⟩

lemma changed_handleActions {k k' : Keyboard} {e : Event} (h : k.handleActions e = some k') :
    Changed { k with xkbi := k.filterEvent e } k' := by
  unfold Keyboard.handleActions at h
  obtain ⟨x,hx,rfl⟩ := Option.map_eq_some_iff.mp h
  obtain ⟨h₁,h₂,h₃,-,-⟩ := computeDerivedState_same hx
  have hc := changed_makeChanges { k with xkbi := k.filterEvent e }
  exact ⟨h₁.trans hc.filters,hc.counts,fun i => by rw [h₂]; exact hc.baseMods i,h₃.trans hc.baseGroup⟩

end Changes

lemma Input.kc_key (k : KeyCode) : (Input.key k).kc = k := rfl

lemma Input.kc_button (b : Button) : (Input.button b).kc = b + 256 := by
  have h : 256 + (b : ℕ) = 256 ||| b := by
    simpa using Nat.two_pow_add_eq_or_of_lt (i := 8) (b := (b : ℕ)) (by have := b.2.2; omega) 1
  show (b : ℕ) ||| 256 = b + 256
  rw [Nat.or_comm]
  omega

lemma Input.kc_injective : Function.Injective Input.kc := by
  rintro (⟨k,hk⟩ | ⟨b,hb⟩) (⟨k',hk'⟩ | ⟨b',hb'⟩) h
  · exact congrArg Input.key (Subtype.ext h)
  · rw [kc_key,kc_button] at h
    simp only at h
    omega
  · rw [kc_key,kc_button] at h
    simp only at h
    omega
  · rw [kc_button,kc_button] at h
    simp only at h
    exact congrArg Input.button (Subtype.ext (by simp only; omega))

/-- The presses that the accounts are kept for: actions of modifiers and groups on keys, none on buttons, and no absolute
change of the group that a filter cannot keep. -/
structure Keyboard.Sound (k : Keyboard) (p : Press) : Prop where
  ofState : p.act.type.ofState
  input : p.act.type = .noAction ∨ ∃ key, p.input = .key key
  fits : (k.passed (.press p)).xkbi.Fits ((k.passed (.press p)).action.getD .zeroed)

lemma ofState_plain {act : XkbAction} (h : act.type.ofState) : Plain (some act) := by
  rintro a ha
  obtain rfl := Option.some.inj ha
  constructor <;> (intro hbad; simp [hbad,ActionType.ofState] at h)

lemma Relocked.ofState {act : XkbAction} {act' : Option XkbAction} (h : Relocked (some act) act') (ht : act.type.ofState) :
    (act'.getD .zeroed).type.ofState ∧ (act.type = .noAction → (act'.getD .zeroed).type = .noAction) := by
  rcases h with rfl | ⟨a,t,ha,h0,rfl,rfl | rfl⟩
  · exact ⟨ht,id⟩
  all_goals
    obtain rfl := Option.some.inj ha
    exact ⟨rfl,fun h => absurd h h0⟩

namespace Course.Accounted
variable {c : Course} (h : c.Accounted)
include h

lemma unique {kc : ℕ} {j j' : ℕ} {v v' : ℕ × BitVec 8 × BitVec 16} (hv : c.kbd.xkbi.heldAt j = some v)
    (hv' : c.kbd.xkbi.heldAt j' = some v') (hkc : v.1 = kc) (hkc' : v'.1 = kc) : j = j' := by
  obtain ⟨a,ha,rfl⟩ := h.owned j v hv
  obtain ⟨b,hb,rfl⟩ := h.owned j' v' hv'
  have hva := Option.some.inj ((h.kept a ha).symm.trans hv)
  have hvb := Option.some.inj ((h.kept b hb).symm.trans hv')
  have hin : a.input = b.input := by
    apply Input.kc_injective
    rw [show a.input.kc = v.1 from congrArg Prod.fst hva,show b.input.kc = v'.1 from congrArg Prod.fst hvb,hkc,hkc']
  rw [List.inj_on_of_nodup_map h.inputs ha hb hin]

lemma not_held {x : Input} (hx : x ∉ c.down) {j : ℕ} {v : ℕ × BitVec 8 × BitVec 16} (hv : c.kbd.xkbi.heldAt j = some v) :
    v.1 ≠ x.kc := by
  obtain ⟨a,ha,rfl⟩ := h.owned j v hv
  have hva := Option.some.inj ((h.kept a ha).symm.trans hv)
  intro hkc
  have hin : a.input = x := Input.kc_injective (by rw [show a.input.kc = v.1 from congrArg Prod.fst hva,hkc])
  exact hx (hin ▸ h.down a ha)

lemma passed (e : Event) (hplain : Plain e.action) (hpress : e.action ≠ none → e.input ∉ c.down) :
    PassedTo c.kbd.xkbi.ready e.input.kc c.kbd.xkbi.ready.filters.length e.action (c.kbd.passed e) :=
  passedTo_applyFilters _ h.ordinary hplain rfl rfl (fun _ _ _ _ => h.unique)
    fun hne _ _ hv => h.not_held (hpress hne) hv

lemma took {p : Press} (hp : p.input ∉ c.down) (hs : c.kbd.Sound p) :
    (c.kbd.filterEvent (.press p)).AllOrdinary ∧
      Took (c.kbd.passed (.press p)).xkbi (c.kbd.filterEvent (.press p)) p.input.kc ((c.kbd.passed (.press p)).action.getD .zeroed) := by
  have hpass := h.passed (.press p) (ofState_plain hs.ofState) fun _ => hp
  have hset : (c.kbd.passed (.press p)).xkbi.setMods = 0 := hpass.setMods
  have hquiet := hpass.quiet fun j v _ hv => h.not_held hp hv
  obtain ⟨htype,hno⟩ := hpass.action.ofState hs.ofState
  have htook : Took (c.kbd.passed (.press p)).xkbi (c.kbd.filterEvent (.press p)) p.input.kc
      ((c.kbd.passed (.press p)).action.getD .zeroed) := by
    unfold Keyboard.filterEvent
    simp only [hpass.send,if_true]
    rcases hs.input with hnone | ⟨key,hkey⟩
    · have hself : (c.kbd.passed (.press p)).xkbi.actionGetFilter p.focus p.sourceid p.input.kc
          ((c.kbd.passed (.press p)).action.getD .zeroed) = (c.kbd.passed (.press p)).xkbi := by
        simp [XkbSrvInfo.actionGetFilter,hno hnone,XkbSrvInfo.procOf]
      rw [hself]
      exact took_self _ _ _
    · rw [hkey,Input.kc_key]
      have := key.2
      exact took_actionGetFilter p.focus p.sourceid htype (by omega) (by omega) hset hquiet.2 hs.fits
  exact ⟨htook.ordinary hpass.ordinary,htook⟩

omit h in
lemma letGo_eq_heldAt {xkbi : XkbSrvInfo} {kc : ℕ} (hno : ∀ j v, xkbi.heldAt j = some v → v.1 ≠ kc) (j : ℕ) :
    xkbi.letGo kc xkbi.filters.length j = xkbi.heldAt j := by
  rw [letGo_length]
  cases hv : xkbi.heldAt j with
  | none => rfl
  | some v => simp [Option.filter,hno j v hv]

omit h in
lemma baseMods_hold {count : ℤ} {base set : Bool} (hbase : base = decide (0 < count)) (hcount : 0 ≤ count) :
    (base || set) = decide (0 < if set then count+1 else count) := by
  cases set
  · simpa using hbase
  · simp only [Bool.or_true,if_true]
    exact (decide_eq_true (by omega)).symm

omit h in
lemma baseMods_drop {n : ℕ} {clear : Bool} :
    (decide (0 < (n : ℤ) + if clear then 1 else 0) && !(clear && decide ((n : ℤ) + (if clear then 1 else 0) - 1 ≤ 0))) =
      decide (0 < (n : ℤ)) := by
  cases clear
  · simp
  · rw [Bool.eq_iff_iff]
    simp only [if_true,Bool.true_and,Bool.and_eq_true,decide_eq_true_eq,Bool.not_eq_true',decide_eq_false_iff_not]
    omega

theorem press {p : Press} {k : Keyboard} (hp : p.input ∉ c.down) (hs : c.kbd.Sound p)
    (hk : c.kbd.handleActions (.press p) = some k) :
    Course.Accounted ⟨k,p.input::c.down,c.kbd.newHold p ++ c.holds⟩ := by
  have hpass := h.passed (.press p) (ofState_plain hs.ofState) fun _ => hp
  have hquiet := hpass.quiet fun j v _ hv => h.not_held hp hv
  obtain ⟨hord,htook⟩ := h.took hp hs
  have hch := changed_handleActions hk
  have hheld : ∀ j, (c.kbd.passed (.press p)).xkbi.heldAt j = c.kbd.xkbi.heldAt j := fun j =>
    (hpass.holds j).trans (letGo_eq_heldAt (fun j v hv => h.not_held hp hv) j)
  have hkheld : ∀ j, k.xkbi.heldAt j = (c.kbd.filterEvent (.press p)).heldAt j := fun j => by
    unfold XkbSrvInfo.heldAt
    rw [hch.filters]
  have hclear : (c.kbd.filterEvent (.press p)).clearMods = 0 := htook.clearMods.trans hquiet.1
  have hcount : ∀ i : Fin 8, k.modifierKeyCount i =
      if (c.kbd.filterEvent (.press p)).setMods[i] then c.kbd.modifierKeyCount i + 1 else c.kbd.modifierKeyCount i := by
    intro i
    rw [hch.counts i]
    simp [hclear]
  have hbase : ∀ i : Fin 8, k.xkbi.state.baseMods[i] = decide (0 < k.modifierKeyCount i) := by
    intro i
    rw [hch.baseMods i,hcount i]
    simp only [hclear,htook.baseMods,hpass.baseMods]
    rw [← baseMods_hold (h.baseMods i) (by rw [h.counts i]; exact Int.natCast_nonneg _)]
    simp [XkbSrvInfo.ready]
  have hgroup : k.xkbi.state.baseGroup = c.kbd.xkbi.state.baseGroup + (c.kbd.filterEvent (.press p)).groupChange := by
    rw [hch.baseGroup,htook.baseGroup,hpass.baseGroup]
    rfl
  have hkord : k.xkbi.AllOrdinary := fun j f hf => hord j f (hch.filters ▸ hf)
  rcases htook.outcome with ⟨hidle,hsame,hset,hchange⟩ | ⟨htaken,hfree,hslots⟩
  · -- The press starts no filter.
    have hnew : c.kbd.newHold p = [] := by
      simp only [Keyboard.newHold,hidle,Bool.false_eq_true,if_false]
    have hset0 : (c.kbd.filterEvent (.press p)).setMods = 0 := hset.trans hpass.setMods
    have hchange0 : (c.kbd.filterEvent (.press p)).groupChange = 0 := hchange.trans hquiet.2
    rw [hnew,List.nil_append]
    refine ⟨hkord,fun a ha => ?_,fun j v hv => ?_,h.inputs,fun a ha => List.mem_cons_of_mem _ (h.down a ha),
      List.nodup_cons.mpr ⟨hp,h.downNodup⟩,fun i => ?_,hbase,?_⟩
    · rw [hkheld,hsame,hheld]
      exact h.kept a ha
    · rw [hkheld,hsame,hheld] at hv
      exact h.owned j v hv
    · rw [hcount i]
      simpa [hset0] using h.counts i
    · simp only [hgroup,hchange0]
      simpa using h.baseGroup
  · have hnew : c.kbd.newHold p = [⟨p.input,(c.kbd.passed (.press p)).xkbi.nextFreeFilter.2,
        (c.kbd.filterEvent (.press p)).setMods,(c.kbd.filterEvent (.press p)).groupChange⟩] := by
      simp only [Keyboard.newHold,htaken,if_true]
    rw [hnew]
    have hslot : ∀ a ∈ c.holds, a.slot ≠ (c.kbd.passed (.press p)).xkbi.nextFreeFilter.2 := by
      intro a ha heq
      have hk := h.kept a ha
      rw [← hheld,heq,hfree] at hk
      cases hk
    refine ⟨hkord,fun a ha => ?_,fun j v hv => ?_,?_,fun a ha => ?_,List.nodup_cons.mpr ⟨hp,h.downNodup⟩,fun i => ?_,hbase,?_⟩
    · rw [hkheld,hslots]
      rcases List.mem_cons.mp ha with rfl | ha
      · rw [if_pos rfl]
      · rw [if_neg (hslot a ha),hheld]
        exact h.kept a ha
    · rw [hkheld,hslots] at hv
      by_cases hj : j = (c.kbd.passed (.press p)).xkbi.nextFreeFilter.2
      · exact ⟨_,List.mem_cons_self,hj.symm⟩
      · rw [if_neg hj,hheld] at hv
        obtain ⟨a,ha,haj⟩ := h.owned j v hv
        exact ⟨a,List.mem_cons_of_mem _ ha,haj⟩
    · simp only [List.cons_append,List.nil_append,List.map_cons,List.nodup_cons]
      refine ⟨fun hmem => ?_,h.inputs⟩
      obtain ⟨a,ha,hin⟩ := List.mem_map.mp hmem
      exact hp (hin ▸ h.down a ha)
    · rcases List.mem_cons.mp ha with rfl | ha
      · exact List.mem_cons_self
      · exact List.mem_cons_of_mem _ (h.down a ha)
    · simp only [hcount i,List.cons_append,List.nil_append,List.countP_cons]
      rw [h.counts i]
      split <;> simp
    · simp only [hgroup,List.cons_append,List.nil_append,List.map_cons,List.sum_cons]
      rw [h.baseGroup,BitVec.add_comm]

omit h in
lemma perm_hold {l : List Hold} (hl : (l.map Hold.input).Nodup) {a : Hold} (ha : a ∈ l) :
    l.Perm (a::l.filter fun b => b.input ≠ a.input) := by
  induction l with
  | nil => simp at ha
  | cons b l ih =>
    simp only [List.map_cons,List.nodup_cons] at hl
    rcases List.mem_cons.mp ha with rfl | ha
    · have hrest : l.filter (fun b => b.input ≠ a.input) = l := by
        refine List.filter_eq_self.mpr fun b hb => ?_
        simp only [ne_eq,decide_not,Bool.not_eq_eq_eq_not,Bool.not_true,decide_eq_false_iff_not]
        exact fun heq => hl.1 (heq ▸ List.mem_map_of_mem hb)
      rw [List.filter_cons_of_neg (by simp),hrest]
    · have hne : b.input ≠ a.input := fun heq => hl.1 (heq ▸ List.mem_map_of_mem ha)
      rw [List.filter_cons_of_pos (by simp [hne])]
      exact (ih hl.2 ha).cons b |>.trans (List.Perm.swap a b _)

lemma release_kept {x : Input} {j : ℕ} :
    (c.kbd.passed (.release x)).xkbi.heldAt j = (c.kbd.xkbi.heldAt j).filter fun v => v.1 ≠ x.kc := by
  have hpass := h.passed (.release x) (fun a ha => by cases ha) fun hne => absurd rfl hne
  rw [hpass.holds j]
  exact letGo_length j

lemma release_changes {x : Input} (l : List Hold) (hl : l = c.holds.filter fun b => b.input ≠ x) :
    (∀ i : Fin 8, c.kbd.modifierKeyCount i = l.countP (fun b => b.mods[i]) +
        if (c.kbd.passed (.release x)).xkbi.clearMods[i] then 1 else 0) ∧
      c.kbd.xkbi.state.baseGroup + (c.kbd.passed (.release x)).xkbi.groupChange = (l.map Hold.group).sum := by
  have hpass := h.passed (.release x) (fun a ha => by cases ha) fun hne => absurd rfl hne
  by_cases hex : ∃ a ∈ c.holds, a.input = x
  · obtain ⟨a,ha,rfl⟩ := hex
    have hkept := h.kept a ha
    have hlt : a.slot < c.kbd.xkbi.ready.filters.length := by
      by_contra hge
      have : c.kbd.xkbi.filters[a.slot]? = none := List.getElem?_eq_none (by simpa [XkbSrvInfo.ready] using hge)
      simp [XkbSrvInfo.heldAt,this] at hkept
    obtain ⟨hclear,hchange⟩ := hpass.fired a.slot _ hlt hkept rfl
    have hperm := perm_hold h.inputs ha
    rw [← hl] at hperm
    constructor
    · intro i
      rw [h.counts i,hperm.countP_eq,List.countP_cons,hclear]
      push_cast
      rfl
    · rw [h.baseGroup,(hperm.map Hold.group).sum_eq,List.map_cons,List.sum_cons,hchange]
      simp only
      rw [add_comm a.group,add_assoc,add_neg_cancel,add_zero]
  · have hquiet : _ ∧ _ := hpass.quiet fun j v _ hv hkc => by
      obtain ⟨b,hb,rfl⟩ := h.owned j v hv
      have hvb := Option.some.inj ((h.kept b hb).symm.trans hv)
      refine hex ⟨b,hb,Input.kc_injective ?_⟩
      rw [show b.input.kc = v.1 from congrArg Prod.fst hvb,hkc]
      rfl
    have hsame : l = c.holds := by
      rw [hl]
      exact List.filter_eq_self.mpr fun b hb => by simpa using fun heq => hex ⟨b,hb,heq⟩
    rw [hquiet.1,hquiet.2,hsame]
    constructor
    · intro i
      rw [h.counts i]
      simp [XkbSrvInfo.ready]
    · rw [h.baseGroup]
      simp [XkbSrvInfo.ready]

theorem release {x : Input} {k : Keyboard} (hk : c.kbd.handleActions (.release x) = some k) :
    Course.Accounted ⟨k,c.down.erase x,c.holds.filter fun a => a.input ≠ x⟩ := by
  have hpass := h.passed (.release x) (fun a ha => by cases ha) fun hne => absurd rfl hne
  have hch := changed_handleActions hk
  obtain ⟨hcounts,hgroup⟩ := h.release_changes (x := x) _ rfl
  have hset : (c.kbd.passed (.release x)).xkbi.setMods = 0 := hpass.setMods
  have hzero : ∀ i : Fin 8, (0 : BitVec 8)[i] = false := fun i => by simp
  have hevent : c.kbd.filterEvent (.release x) = (c.kbd.passed (.release x)).xkbi := rfl
  rw [hevent] at hch
  have hkheld : ∀ j, k.xkbi.heldAt j = (c.kbd.xkbi.heldAt j).filter fun v => v.1 ≠ x.kc := fun j => by
    rw [← h.release_kept]
    unfold XkbSrvInfo.heldAt
    rw [hch.filters]
  have hcount : ∀ i : Fin 8, k.modifierKeyCount i = ((c.holds.filter fun a => a.input ≠ x).countP fun b => b.mods[i] : ℕ) := by
    intro i
    rw [hch.counts i]
    simp only [hset,hzero,Bool.false_eq_true,if_false]
    rw [hcounts i]
    split <;> simp
  refine ⟨fun j f hf => hpass.ordinary j f (hch.filters ▸ hf),fun a ha => ?_,fun j v hv => ?_,?_,fun a ha => ?_,
    h.downNodup.erase x,hcount,fun i => ?_,?_⟩
  · obtain ⟨ha,hne⟩ := List.mem_filter.mp ha
    rw [hkheld,h.kept a ha]
    have hkc : a.input.kc ≠ x.kc := fun heq => by simp [Input.kc_injective heq] at hne
    simp [Option.filter,hkc]
  · rw [hkheld] at hv
    obtain ⟨hv,hkc⟩ := Option.filter_eq_some_iff.mp hv
    obtain ⟨a,ha,rfl⟩ := h.owned j v hv
    refine ⟨a,List.mem_filter.mpr ⟨ha,?_⟩,rfl⟩
    have hva := Option.some.inj ((h.kept a ha).symm.trans hv)
    simp only [ne_eq,decide_not,Bool.not_eq_eq_eq_not,Bool.not_true,decide_eq_false_iff_not]
    rintro rfl
    exact absurd (congrArg Prod.fst hva).symm (by simpa using hkc)
  · exact h.inputs.sublist (List.filter_sublist.map _)
  · obtain ⟨ha,hne⟩ := List.mem_filter.mp ha
    exact (List.mem_erase_of_ne (by simpa using hne)).mpr (h.down a ha)
  · rw [hch.baseMods i]
    simp only [hset,hpass.baseMods,hcount i,hzero,Bool.or_false,Bool.false_eq_true,if_false]
    have hbase : c.kbd.xkbi.ready.state.baseMods[i] = decide (0 < c.kbd.modifierKeyCount i) := h.baseMods i
    rw [hbase,hcounts i]
    exact baseMods_drop
  · exact (hch.baseGroup.trans (congrArg (· + _) hpass.baseGroup)).trans hgroup

end Course.Accounted

lemma Keyboard.Idle.accounted {k : Keyboard} (h : k.Idle) : Course.Accounted { kbd := k } := by
  have hactive : ∀ (j : ℕ) (f : XkbFilter), k.xkbi.filters[j]? = some f → f.active = false := fun j f hf =>
    h.filters f (List.mem_of_getElem? hf)
  refine ⟨fun j f hf hact => ?_,by simp,fun j v hv => ?_,by simp,by simp,by simp,?_,?_,by simpa using h.baseGroup⟩
  · rw [hactive j f hf] at hact
    cases hact
  · obtain ⟨f,hf,hv⟩ := Option.bind_eq_some_iff.mp hv
    rw [hold_of_inactive (hactive j f hf)] at hv
    cases hv
  · exact fun i => by simpa using h.counts i
  · intro i
    simp [h.baseMods,h.counts]

/-- The accounts are kept over every run of sound presses. -/
theorem Course.Reach.accounted {allowed : Keyboard → Press → Prop} (hsound : ∀ k p, allowed k p → k.Sound p) {c : Course}
    (h : Reach allowed c) : c.Accounted := by
  induction h with
  | idle h => exact h.accounted
  | press _ hp hallowed hk ih => exact ih.press hp (hsound _ _ hallowed) hk
  | release _ _ hk ih => exact ih.release hk

end Xlibre.Xkb

/-! Base modifiers and base group follow the keys that are held, as long as the filters can keep what is to be undone. -/
namespace Xlibre.Xkb

open XkbFilter

structure StatePress (p : Press) : Prop where
  key : ∃ k, p.input = .key k
  ofState : p.act.type.ofState

/-- The same, where an absolute change of the group is in the range of what the filter can keep. -/
structure FittingPress (k : Keyboard) (p : Press) : Prop extends StatePress p where
  fits : (k.passed (.press p)).xkbi.Fits ((k.passed (.press p)).action.getD .zeroed)

/-- Base modifiers, their counts and the base group are what the held keys' filters have set. -/
structure Course.Follows (c : Course) : Prop where
  counts : ∀ i : Fin 8, c.kbd.modifierKeyCount i = c.holds.countP fun h => h.mods[i]
  baseMods : ∀ i : Fin 8, c.kbd.xkbi.state.baseMods[i] = true ↔ 0 < c.kbd.modifierKeyCount i
  baseGroup : c.kbd.xkbi.state.baseGroup = (c.holds.map Hold.group).sum
  /-- Each hold is that of another key that is down, and its filter is still active. -/
  inputs : (c.holds.map Hold.input).Nodup
  down : ∀ h ∈ c.holds, h.input ∈ c.down
  active : ∀ h ∈ c.holds, ∃ f, c.kbd.xkbi.filters[h.slot]? = some f ∧ f.active = true ∧ f.pending = false
  up : c.down = [] → c.kbd.xkbi.state.baseMods = 0 ∧ c.kbd.xkbi.state.baseGroup = 0 ∧
    ∀ f ∈ c.kbd.xkbi.filters, f.active = true → f.pending = true

lemma exists_of_heldAt {xkbi : XkbSrvInfo} {j : ℕ} {v : ℕ × BitVec 8 × BitVec 16} (h : xkbi.heldAt j = some v) :
    ∃ f, xkbi.filters[j]? = some f ∧ f.active = true ∧ f.pending = false := by
  obtain ⟨f,hf,hhold⟩ := Option.bind_eq_some_iff.mp h
  have hheld : f.held = true := by
    by_contra hne
    simp [hold_eq_none.mpr (by simpa using hne)] at hhold
  exact ⟨f,hf,by simpa [held] using hheld⟩

lemma Course.Accounted.owned_or_pending {c : Course} (h : c.Accounted) {j : ℕ} {f : XkbFilter}
    (hf : c.kbd.xkbi.filters[j]? = some f) (hact : f.active = true) : f.pending = true ∨ ∃ a ∈ c.holds, a.slot = j := by
  cases hp : f.pending with
  | true => exact .inl rfl
  | false =>
    refine .inr (h.owned j (f.keycode,f.holdMods,f.holdGroup) ?_)
    rw [heldAt_of_getElem? hf,hold_of_held (by simp [held,hact,hp])]

lemma Course.Accounted.follows {c : Course} (h : c.Accounted) : c.Follows := by
  refine ⟨h.counts,fun i => by rw [h.baseMods i,decide_eq_true_iff],h.baseGroup,h.inputs,h.down,
    fun a ha => exists_of_heldAt (h.kept a ha),fun hup => ?_⟩
  have hnone : c.holds = [] := List.eq_nil_iff_forall_not_mem.mpr fun a ha => by simpa [hup] using h.down a ha
  refine ⟨?_,by rw [h.baseGroup,hnone]; rfl,fun f hf hact => ?_⟩
  · ext i hi
    have := h.baseMods ⟨i,hi⟩
    rw [h.counts,hnone] at this
    simpa using this
  · obtain ⟨j,hj⟩ := List.getElem?_of_mem hf
    rcases h.owned_or_pending hj hact with hp | ⟨a,ha,-⟩
    · exact hp
    · simp [hnone] at ha

theorem base_follows_held_keys {c : Course} (h : Course.Reach FittingPress c) : c.Follows :=
  (h.accounted fun _ _ hp => ⟨hp.ofState,.inr hp.key,hp.fits⟩).follows

def idleKeyboard : Keyboard := { xkbi := {} }

lemma idleKeyboard_idle : idleKeyboard.Idle := ⟨by simp [idleKeyboard],fun _ => rfl,rfl,rfl⟩

def keyOf (n : ℕ) (h : 8 ≤ n ∧ n ≤ 255) : Input := .key ⟨n,h⟩

/-- A key that sets the first group. -/
def absolutePress : Press := { input := keyOf 38 (by decide), act := { type := .setGroup, flags := groupAbsolute, group := 1 } }

theorem base_follows_held_keys_absolute : absolutePress.act.type = .setGroup ∧
    ∃ c : Course, idleKeyboard.handleActions (.press absolutePress) = some c.kbd ∧ c.Follows := by
  obtain ⟨k,hk⟩ : ∃ k, idleKeyboard.handleActions (.press absolutePress) = some k :=
    Option.isSome_iff_exists.mp (by decide +kernel)
  have hreach : Course.Reach FittingPress { kbd := idleKeyboard } := .idle idleKeyboard_idle
  have hfits : FittingPress idleKeyboard absolutePress :=
    ⟨⟨⟨_,rfl⟩,rfl⟩,by decide +kernel⟩
  have hpress := hreach.press List.not_mem_nil hfits hk
  exact ⟨rfl,_,hk,base_follows_held_keys hpress⟩

/-- Two keys move the group by a hundred each, a third one sets it to the first group and has two hundred to undo, which
its filter cannot keep. All three go up again. -/
def driftingKeys : List Event :=
  [.press { input := keyOf 38 (by decide), act := { type := .setGroup, group := 100 } },
   .press { input := keyOf 39 (by decide), act := { type := .setGroup, group := 100 } },
   .press { input := keyOf 40 (by decide), act := { type := .setGroup, flags := groupAbsolute } },
   .release (keyOf 40 (by decide)), .release (keyOf 39 (by decide)), .release (keyOf 38 (by decide))]

theorem base_group_drifts : ¬∀ c, Course.Reach (fun _ p => StatePress p) c → c.Follows := by
  intro hall
  have hrun : ((driftingKeys.foldlM Course.next { kbd := idleKeyboard }).map fun c =>
      (c.down.length,c.kbd.xkbi.state.baseGroup)) = some (0,0xff00) := by decide +kernel
  obtain ⟨c,hc,heq⟩ := Option.map_eq_some_iff.mp hrun
  have hreach : Course.Reach (fun _ p => StatePress p) c := by
    refine Course.Reach.foldlM (.idle idleKeyboard_idle) (fun p hp => ?_) hc
    simp only [driftingKeys,List.mem_cons,Event.press.injEq,reduceCtorEq,List.not_mem_nil,or_false] at hp
    rcases hp with rfl | rfl | rfl <;> exact ⟨⟨_,rfl⟩,rfl⟩
  have hup := (hall c hreach).up (List.length_eq_zero_iff.mp (congrArg Prod.fst heq))
  have hgroup : c.kbd.xkbi.state.baseGroup = 0xff00 := congrArg Prod.snd heq
  rw [hgroup] at hup
  exact absurd hup.2.1 (by decide)

end Xlibre.Xkb
