import Xlibre.Xkb.Held

/-! New filters: the slot that one takes, and what it is to undo. -/
namespace Xlibre.Xkb

open XkbFilter

structure Freed (xkbi xkbi' : XkbSrvInfo) (i : ℕ) : Prop where
  same : xkbi' = { xkbi with filters := xkbi'.filters }
  free : ∃ f, xkbi'.filters[i]? = some f ∧ f.active = false ∧ f.keycode = 0
  before : ∀ f, xkbi.filters[i]? = some f → f.active = false
  others : ∀ j, j ≠ i → xkbi'.filters[j]? = xkbi.filters[j]? ∨
    xkbi.filters[j]? = none ∧ ∃ f, xkbi'.filters[j]? = some f ∧ f.active = false

/-- Slots without an active filter added at the end of a table. -/
def Extends (l l' : List XkbFilter) : Prop :=
  ∀ j : ℕ, l'[j]? = l[j]? ∨ l[j]? = none ∧ ∃ f : XkbFilter, l'[j]? = some f ∧ f.active = false

lemma extends_append_zeroed (l : List XkbFilter) (n : ℕ) : Extends l (l ++ List.replicate n .zeroed) := by
  intro j
  by_cases hj : j < l.length
  · exact .inl (by rw [List.getElem?_append_left hj])
  · have hnone : l[j]? = none := List.getElem?_eq_none (by omega)
    rw [List.getElem?_append_right (by omega),List.getElem?_replicate]
    split
    · exact .inr ⟨hnone,_,rfl,rfl⟩
    · exact .inl hnone.symm

lemma Extends.trans {l l' l'' : List XkbFilter} (h : Extends l l') (h' : Extends l' l'') : Extends l l'' := by
  intro j
  rcases h' j with h'' | ⟨hnone,hnew⟩
  · rw [h'']
    exact h j
  · rcases h j with h | ⟨-,f,hf,-⟩
    · exact .inr ⟨h ▸ hnone,hnew⟩
    · simp [hf] at hnone

lemma nextFreeFilter_table (xkbi : XkbSrvInfo) : ∃ l, Extends xkbi.filters l ∧
    xkbi.nextFreeFilter.1 = { xkbi with filters := l.modify xkbi.nextFreeFilter.2 fun f => { f with keycode := 0 } } ∧
    ∃ f, l[xkbi.nextFreeFilter.2]? = some f ∧ f.active = false := by
  set l₀ := if xkbi.filters.length = 0 then List.replicate 4 XkbFilter.zeroed else xkbi.filters with hl₀
  have hext : Extends xkbi.filters l₀ := by
    rw [hl₀]
    split
    · next h =>
      rw [List.length_eq_zero_iff.mp h]
      exact extends_append_zeroed [] 4
    · exact fun j => .inl rfl
  have hpos : 0 < l₀.length := by
    rw [hl₀]
    split <;> simp_all [Nat.pos_iff_ne_zero]
  by_cases hi : l₀.findIdx (fun f => !f.active) < l₀.length
  · refine ⟨l₀,hext,?_,l₀[l₀.findIdx fun f => !f.active],?_,?_⟩
    · simp only [XkbSrvInfo.nextFreeFilter,← hl₀,if_pos hi]
    · simp only [XkbSrvInfo.nextFreeFilter,← hl₀]
      exact List.getElem?_eq_getElem hi
    · have hfree := @List.findIdx_getElem _ (fun f : XkbFilter => !f.active) l₀ hi
      simpa using hfree
  · have heq : l₀.findIdx (fun f => !f.active) = l₀.length :=
      Nat.le_antisymm List.findIdx_le_length (by omega)
    refine ⟨l₀ ++ List.replicate l₀.length .zeroed,hext.trans (extends_append_zeroed l₀ _),?_,.zeroed,?_,rfl⟩
    · simp only [XkbSrvInfo.nextFreeFilter,← hl₀,if_neg hi]
    · simp only [XkbSrvInfo.nextFreeFilter,← hl₀,heq]
      rw [List.getElem?_append_right (Nat.le_refl _),Nat.sub_self,List.getElem?_replicate,if_pos hpos]

theorem nextFreeFilter_freed (xkbi : XkbSrvInfo) : Freed xkbi xkbi.nextFreeFilter.1 xkbi.nextFreeFilter.2 := by
  obtain ⟨l,hext,heq,f,hf,hact⟩ := nextFreeFilter_table xkbi
  constructor
  · rw [heq]
  · refine ⟨{ f with keycode := 0 },?_,hact,rfl⟩
    rw [heq]
    simp [hf]
  · intro g hg
    rcases hext xkbi.nextFreeFilter.2 with h | ⟨hnone,-⟩
    · rw [hg,hf] at h
      exact Option.some.inj h ▸ hact
    · simp [hg] at hnone
  · intro j hj
    rw [heq]
    simp only [List.getElem?_modify,if_neg (Ne.symm hj),id_map']
    exact hext j

def ActionType.ofState : ActionType → Bool
  | noAction | setMods | latchMods | lockMods | setGroup | latchGroup | lockGroup | isoLock => true
  | _ => false

def Narrow (change : BitVec 16) : Prop := (change.setWidth 8).signExtend 16 = change

instance (change : BitVec 16) : Decidable (Narrow change) := inferInstanceAs (Decidable (_ = _))

lemma narrow_saGroup (act : XkbAction) : Narrow (saGroup act) := by
  unfold Narrow saGroup
  generalize act.group = g
  revert g
  decide +kernel

/-- An absolute change of the group is one that can be undone from what the filter keeps. -/
def XkbSrvInfo.Fits (xkbi : XkbSrvInfo) (act : XkbAction) : Prop :=
  act.type = .setGroup ∨ act.type = .latchGroup → has act.flags groupAbsolute → Narrow (saGroup act - xkbi.state.baseGroup)

instance (xkbi : XkbSrvInfo) (act : XkbAction) : Decidable (xkbi.Fits act) := inferInstanceAs (Decidable (_ → _))

lemma saGroup_saSetGroup (act : XkbAction) (g : BitVec 16) : saGroup (saSetGroup act g) = (g.setWidth 8).signExtend 16 := rfl

section Start
variable {xkbi : XkbSrvInfo} {act : XkbAction} {kc : ℕ}

lemma narrow_pressGroup (ht : act.type = .setGroup ∨ act.type = .latchGroup) (hfits : xkbi.Fits act) :
    Narrow (xkbi.pressGroup act) := by
  unfold XkbSrvInfo.pressGroup
  split
  · next h => exact hfits ht h
  · exact narrow_saGroup act

/-- What the initial press of a filter does with its slot. -/
structure Begins (xkbi : XkbSrvInfo) (f : XkbFilter) (kc : ℕ) (act : XkbAction) (r : Filtered) : Prop where
  filters : r.xkbi.filters = xkbi.filters
  baseMods : r.xkbi.state.baseMods = xkbi.state.baseMods
  baseGroup : r.xkbi.state.baseGroup = xkbi.state.baseGroup
  clearMods : r.xkbi.clearMods = xkbi.clearMods
  taken : r.filter.Ordinary ∧ r.filter.hold = some (kc,r.xkbi.setMods,r.xkbi.groupChange) ∨
    act.type = .lockGroup ∧ r.filter = f ∧ r.xkbi.setMods = xkbi.setMods ∧ r.xkbi.groupChange = xkbi.groupChange
  latch : r.filter.filter = some .latchState → r.filter = f ∨ act.type = .latchMods ∨ act.type = .latchGroup

variable (xkbi) in
lemma begins_of_procOf {f : XkbFilter} {proc : FilterProc} (ht : act.type.ofState) (hproc : XkbSrvInfo.procOf act.type = some proc)
    (hf : f.keycode = 0) (hkc : kc ≠ 0) (hlt : kc < 2^16) (hset : xkbi.setMods = 0) (hchange : xkbi.groupChange = 0)
    (hfits : xkbi.Fits act) : Begins xkbi f kc act (runFilter xkbi f kc id proc (some act)) := by
  have hmod : kc % 65536 = kc := Nat.mod_eq_of_lt hlt
  have hdown : latchKeyDown ≠ latchPending := by decide
  cases htype : act.type <;> simp only [htype,ActionType.ofState,Bool.false_eq_true] at ht <;>
    simp only [htype,XkbSrvInfo.procOf,Option.some.injEq,reduceCtorEq] at hproc <;> subst hproc
  case setMods =>
    constructor <;> simp [runFilter,filterSetState,hf,htype,start,Ordinary,hold,held,pending,holdMods,holdGroup,hmod,
      hkc,hchange]
  case latchMods =>
    constructor <;> simp [runFilter,filterLatchState,hf,htype,start,Ordinary,hold,held,pending,holdMods,holdGroup,
      hmod,hkc,hchange,hdown]
  case lockMods =>
    constructor <;> simp [runFilter,filterLockState,hf,htype,start,Ordinary,hold,held,pending,holdMods,holdGroup,
      hmod,hkc,hchange]
  case setGroup =>
    have hnarrow := narrow_pressGroup (.inl htype) hfits
    have htype' : (saSetGroup act (xkbi.pressGroup act)).type = .setGroup := htype
    constructor <;> simp [runFilter,filterSetState,hf,htype,htype',start,Ordinary,hold,held,pending,holdMods,holdGroup,
      hmod,hkc,hset,saGroup_saSetGroup]
    exact hnarrow
  case latchGroup =>
    have hnarrow := narrow_pressGroup (.inr htype) hfits
    have htype' : (saSetGroup act (xkbi.pressGroup act)).type = .latchGroup := htype
    constructor <;> simp [runFilter,filterLatchState,hf,htype,htype',start,Ordinary,hold,held,pending,holdMods,
      holdGroup,hmod,hkc,hset,hdown,saGroup_saSetGroup]
    exact hnarrow
  case lockGroup => constructor <;> simp [runFilter,filterLockState,htype]
  case isoLock =>
    by_cases hg : has act.flags isoDfltIsGroup = true
    · constructor <;> simp [runFilter,filterISOLock,hf,hg,htype,start,Ordinary,hold,held,pending,holdMods,holdGroup,
        hmod,hkc]
    · constructor <;> simp [runFilter,filterISOLock,hf,hg,htype,start,Ordinary,hold,held,pending,holdMods,holdGroup,
        hmod,hkc]

/-- What a new action comes to: a filter in the free slot, or none. -/
structure Took (xkbi x : XkbSrvInfo) (kc : ℕ) (act : XkbAction) : Prop where
  baseMods : x.state.baseMods = xkbi.state.baseMods
  baseGroup : x.state.baseGroup = xkbi.state.baseGroup
  clearMods : x.clearMods = xkbi.clearMods
  ordinary : xkbi.AllOrdinary → x.AllOrdinary
  latch : ∀ (j : ℕ) (f : XkbFilter), x.filters[j]? = some f → f.active = true → f.filter = some .latchState →
    (∃ f₀, xkbi.filters[j]? = some f₀ ∧ f₀.active = true ∧ f₀.filter = some .latchState) ∨
      act.type = .latchMods ∨ act.type = .latchGroup
  outcome : ((x.filters.getD xkbi.nextFreeFilter.2 .zeroed).active = false ∧ (∀ j, x.heldAt j = xkbi.heldAt j) ∧
      x.setMods = xkbi.setMods ∧ x.groupChange = xkbi.groupChange) ∨
    ((x.filters.getD xkbi.nextFreeFilter.2 .zeroed).active = true ∧ xkbi.heldAt xkbi.nextFreeFilter.2 = none ∧
      ∀ j, x.heldAt j = if j = xkbi.nextFreeFilter.2 then some (kc,x.setMods,x.groupChange) else xkbi.heldAt j)

lemma Freed.heldAt {x : XkbSrvInfo} {i : ℕ} (h : Freed xkbi x i) (j : ℕ) : x.heldAt j = xkbi.heldAt j := by
  unfold XkbSrvInfo.heldAt
  by_cases hj : j = i
  · subst hj
    obtain ⟨f,hf,hact,-⟩ := h.free
    rw [hf,Option.bind_some,hold_of_inactive hact]
    cases hg : xkbi.filters[j]? with
    | none => rfl
    | some g => exact (hold_of_inactive (h.before g hg)).symm
  · rcases h.others j hj with hsame | ⟨hnone,f,hf,hact⟩
    · rw [hsame]
    · rw [hnone,hf,Option.bind_some,hold_of_inactive hact]
      rfl

lemma Freed.active {x : XkbSrvInfo} {i j : ℕ} {f : XkbFilter} (h : Freed xkbi x i) (hf : x.filters[j]? = some f)
    (hact : f.active = true) : j ≠ i ∧ xkbi.filters[j]? = some f := by
  have hj : j ≠ i := by
    rintro rfl
    obtain ⟨g,hg,hgact,-⟩ := h.free
    obtain rfl := Option.some.inj (hf.symm.trans hg)
    simp [hact] at hgact
  refine ⟨hj,?_⟩
  rcases h.others j hj with hsame | ⟨-,g,hg,hgact⟩
  · rw [← hsame,hf]
  · obtain rfl := Option.some.inj (hf.symm.trans hg)
    simp [hact] at hgact

lemma getD_nextFree_inactive (xkbi : XkbSrvInfo) : (xkbi.filters.getD xkbi.nextFreeFilter.2 .zeroed).active = false := by
  have h := nextFreeFilter_freed xkbi
  rw [List.getD_eq_getElem?_getD]
  cases hf : xkbi.filters[xkbi.nextFreeFilter.2]? with
  | none => rfl
  | some f => exact h.before f hf

lemma took_self (xkbi : XkbSrvInfo) (kc : ℕ) (act : XkbAction) : Took xkbi xkbi kc act :=
  ⟨rfl,rfl,rfl,id,fun _ f hf hact hlatch => .inl ⟨f,hf,hact,hlatch⟩,
    .inl ⟨getD_nextFree_inactive xkbi,fun _ => rfl,rfl,rfl⟩⟩

lemma took_startFilter {proc : FilterProc} (ht : act.type.ofState) (hproc : XkbSrvInfo.procOf act.type = some proc)
    (hkc : kc ≠ 0) (hlt : kc < 2^16) (hset : xkbi.setMods = 0) (hchange : xkbi.groupChange = 0) (hfits : xkbi.Fits act) :
    Took xkbi (xkbi.startFilter kc proc act id).1 kc act := by
  have hfree := nextFreeFilter_freed xkbi
  simp only [XkbSrvInfo.startFilter,id]
  generalize hx : xkbi.nextFreeFilter.1 = x at hfree ⊢
  generalize hi : xkbi.nextFreeFilter.2 = i at hfree ⊢
  obtain ⟨f,hf,hact,h0⟩ := hfree.free
  have hget : x.filters.getD i .zeroed = f := by rw [List.getD_eq_getElem?_getD,hf,Option.getD_some]
  have hst : x.state = xkbi.state := by rw [hfree.same]
  have hxset : x.setMods = xkbi.setMods := by rw [hfree.same]
  have hxchange : x.groupChange = xkbi.groupChange := by rw [hfree.same]
  have hxclear : x.clearMods = xkbi.clearMods := by rw [hfree.same]
  have hb := begins_of_procOf x ht hproc h0 hkc hlt (hxset.trans hset) (hxchange.trans hchange)
    (by unfold XkbSrvInfo.Fits; rw [hst]; exact hfits)
  rw [hget]
  set r := runFilter x f kc id proc (some act)
  have hslot : ∀ j, (r.xkbi.filters.set i r.filter)[j]? = if j = i then some r.filter else x.filters[j]? := fun j => by
    rw [hb.filters]
    exact getElem?_set_slot hf r.filter j
  have hgetD : ((r.xkbi.filters.set i r.filter).getD i .zeroed) = r.filter := by
    rw [List.getD_eq_getElem?_getD,hslot,if_pos rfl,Option.getD_some]
  constructor
  · exact hb.baseMods.trans (congrArg _ hst)
  · exact hb.baseGroup.trans (congrArg _ hst)
  · exact hb.clearMods.trans hxclear
  · intro hord j g hg hgact
    rw [hslot j] at hg
    by_cases hj : j = i
    · rw [if_pos hj] at hg
      obtain rfl := Option.some.inj hg
      rcases hb.taken with ⟨hord',-⟩ | ⟨-,hsame,-⟩
      · exact hord'
      · rw [hsame,hact] at hgact
        cases hgact
    · rw [if_neg hj] at hg
      obtain ⟨-,hold⟩ := hfree.active hg hgact
      exact hord j g hold hgact
  · intro j g hg hgact hlatch
    rw [hslot j] at hg
    by_cases hj : j = i
    · rw [if_pos hj] at hg
      obtain rfl := Option.some.inj hg
      rcases hb.latch hlatch with hsame | h
      · rw [hsame,hact] at hgact
        cases hgact
      · exact .inr h
    · rw [if_neg hj] at hg
      exact .inl ⟨g,(hfree.active hg hgact).2,hgact,hlatch⟩
  · rw [hi,hgetD]
    have hheld : ∀ j, XkbSrvInfo.heldAt { r.xkbi with filters := r.xkbi.filters.set i r.filter } j =
        if j = i then r.filter.hold else xkbi.heldAt j := by
      intro j
      rw [← hfree.heldAt j]
      simp only [XkbSrvInfo.heldAt,hslot]
      split <;> rfl
    have hnone : xkbi.heldAt i = none := by
      rw [← hfree.heldAt i,heldAt_of_getElem? hf,hold_of_inactive hact]
    rcases hb.taken with ⟨-,htaken⟩ | ⟨-,hsame,h₁,h₂⟩
    · right
      refine ⟨?_,hnone,fun j => by rw [hheld j,htaken]⟩
      by_contra hne
      simp [hold_of_inactive (by simpa using hne)] at htaken
    · left
      refine ⟨by rw [hsame,hact],fun j => ?_,h₁.trans hxset,h₂.trans hxchange⟩
      rw [hheld j,hsame,hold_of_inactive hact]
      split
      · next hj => rw [hj,hnone]
      · rfl

/-- `XkbActionGetFilter` with a key's action. -/
theorem took_actionGetFilter (focus : Bool) (sourceid : BitVec 32) (ht : act.type.ofState) (hkc : kc ≠ 0) (hlt : kc < 2^8)
    (hset : xkbi.setMods = 0) (hchange : xkbi.groupChange = 0) (hfits : xkbi.Fits act) :
    Took xkbi (xkbi.actionGetFilter focus sourceid kc act) kc act := by
  unfold XkbSrvInfo.actionGetFilter
  rw [Nat.mod_eq_of_lt hlt]
  split
  · exact took_self xkbi kc act
  · split
    · exact took_self xkbi kc act
    · next hproc => cases htype : act.type <;> simp [htype,XkbSrvInfo.procOf,ActionType.ofState] at hproc ht
    · next proc _ hproc => exact took_startFilter ht hproc hkc (by omega) hset hchange hfits

end Start

end Xlibre.Xkb
