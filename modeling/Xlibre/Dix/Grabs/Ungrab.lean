import Mathlib.Data.List.Forall2
import Xlibre.Dix.Grabs.Covers

/-! What `DeletePassiveGrabFromList` takes away. -/
namespace Xlibre.Dix.Grabs

open Lib.Checked

section Edit

/-- What becomes of a grab: what is left of it, and what is added for it. -/
def Edit.Yields (e : Edit) (g h : Grab) : Prop := e.apply g = some h ∨ e.added = some h

/-- An edit takes away the pairs of the minuend and nothing else. -/
structure Leaves (m g : Grab) (e : Edit) : Prop where
  cover : ∀ p, (∃ h, e.Yields g h ∧ p ∈ h.cover) ↔ p ∈ g.cover ∧ p ∉ m.wideCover
  same : ∀ h, e.Yields g h → h.toTarget = g.toTarget ∧ h.toAttributes = g.toAttributes ∧ h.client = g.client

variable {m g : Grab}

lemma Leaves.keep (h : ∀ p ∈ g.cover, p ∉ m.wideCover) : Leaves m g .keep := by
  constructor
  · intro p
    constructor
    · rintro ⟨_,hy,hp⟩
      obtain hy | hy := hy
      · cases hy
        exact ⟨hp,h p hp⟩
      · cases hy
    · rintro ⟨hp,-⟩
      exact ⟨g,.inl rfl,hp⟩
  · rintro _ (hy | hy)
    · cases hy
      exact ⟨rfl,rfl,rfl⟩
    · cases hy

lemma Leaves.delete (h : g.cover ⊆ m.wideCover) : Leaves m g .delete := by
  constructor
  · intro p
    constructor
    · rintro ⟨_,hy | hy,-⟩
      · cases hy
      · cases hy
    · rintro ⟨hp,hn⟩
      exact absurd (h hp) hn
  · rintro _ (hy | hy)
    · cases hy
    · cases hy

lemma Leaves.detail (hg : g.detail.exact = anyKey) (hm : m.detail.exact ≠ anyKey) (ht : g.grabtype = m.grabtype)
    (hmod : g.modifiersDetail.values (anyModifier m.grabtype) ⊆ m.modifiersDetail.wide (anyModifier m.grabtype)) :
    Leaves m g (.update .detail (g.detail.pMask.getD (BitVec.allOnes 256) &&& ~~~BitVec.twoPow 256 m.detail.exact)) := by
  have hv := DetailRec.values_clear hg m.detail_lt
  constructor
  · intro p
    constructor
    · rintro ⟨_,hy | hy,hp⟩
      · cases hy
        obtain ⟨h1,h2⟩ := hp
        rw [hv] at h1
        refine ⟨⟨h1.1,h2⟩,fun hw => h1.2 ?_⟩
        have hw1 := hw.1
        rwa [DetailRec.wide_exact hm] at hw1
      · cases hy
    · rintro ⟨⟨h1,h2⟩,hn⟩
      refine ⟨_,.inl rfl,?_,h2⟩
      rw [hv]
      refine ⟨h1,fun he => hn ⟨.inr he,hmod ?_⟩⟩
      rwa [← ht]
  · rintro _ (hy | hy)
    · cases hy
      exact ⟨rfl,rfl,rfl⟩
    · cases hy

lemma Leaves.modifiers (hg : g.modifiersDetail.exact = anyModifier m.grabtype)
    (hm : m.modifiersDetail.exact ≠ anyModifier m.grabtype) (ht : g.grabtype = m.grabtype) (hlt : m.modifiersDetail.exact < 256)
    (hdet : g.detail.values anyKey ⊆ m.detail.wide anyKey) :
    Leaves m g (.update .modifiers
      (g.modifiersDetail.pMask.getD (BitVec.allOnes 256) &&& ~~~BitVec.twoPow 256 m.modifiersDetail.exact)) := by
  have hv := DetailRec.values_clear hg hlt
  rw [← ht] at hv hm
  constructor
  · intro p
    constructor
    · rintro ⟨_,hy | hy,hp⟩
      · cases hy
        obtain ⟨h1,h2⟩ := hp
        rw [hv] at h2
        refine ⟨⟨h1,h2.1⟩,fun hw => h2.2 ?_⟩
        have hw2 := hw.2
        rwa [← ht,DetailRec.wide_exact hm] at hw2
      · cases hy
    · rintro ⟨⟨h1,h2⟩,hn⟩
      refine ⟨_,.inl rfl,h1,?_⟩
      rw [hv]
      exact ⟨h2,fun he => hn ⟨hdet h1,.inr he⟩⟩
  · rintro _ (hy | hy)
    · cases hy
      exact ⟨rfl,rfl,rfl⟩
    · cases hy

lemma oneBit_toNat (b : Bool) : oneBit b.toNat = b := by cases b <;> rfl

lemma createGrab_split (hx : g.grabtype ≠ .xi2) (any d : ℕ) (hd : d < 256) : ∃ new,
    createGrab g.client g.toTarget ⟨g.eventMask,none⟩ ⟨g.ownerEvents.toNat,g.keyboardMode.toNat,g.pointerMode.toNat,any⟩ d
      g.confineTo g.cursor = .ok new ∧ new.toTarget = g.toTarget ∧ new.toAttributes = g.toAttributes ∧ new.client = g.client ∧
      new.modifiersDetail = ⟨any,none⟩ ∧ new.detail = ⟨d,none⟩ := by
  unfold createGrab
  rw [dif_neg hx]
  refine ⟨_,rfl,rfl,?_,rfl,rfl,?_⟩
  · rw [Attributes.mk.injEq]
    exact ⟨oneBit_toNat _,oneBit_toNat _,oneBit_toNat _,rfl,rfl,rfl,(g.no_xi2mask hx).symm⟩
  · exact congrArg (DetailRec.mk · none) (Nat.mod_eq_of_lt hd)

lemma Leaves.split (hgd : g.detail.exact = anyKey) (hgm : g.modifiersDetail.exact = anyModifier m.grabtype)
    (hmd : m.detail.exact ≠ anyKey) (hmm : m.modifiersDetail.exact ≠ anyModifier m.grabtype) (ht : g.grabtype = m.grabtype)
    (hd : m.detail.exact ∈ g.detail.values anyKey) (hlt : m.modifiersDetail.exact < 256) {new : Grab}
    (hnt : new.toTarget = g.toTarget) (hna : new.toAttributes = g.toAttributes) (hnc : new.client = g.client)
    (hnd : new.detail = ⟨m.detail.exact,none⟩)
    (hnm : new.modifiersDetail = ⟨anyModifier m.grabtype,
      some (g.modifiersDetail.pMask.getD (BitVec.allOnes 256) &&& ~~~BitVec.twoPow 256 m.modifiersDetail.exact)⟩) :
    Leaves m g (.split (g.detail.pMask.getD (BitVec.allOnes 256) &&& ~~~BitVec.twoPow 256 m.detail.exact) new) := by
  have hv := DetailRec.values_clear hgd m.detail_lt
  have hv' := DetailRec.values_clear hgm hlt
  have hng : new.grabtype = m.grabtype := (congrArg Target.grabtype hnt).trans ht
  have hcover : new.cover = {m.detail.exact} ×ˢ (g.modifiersDetail.values (anyModifier m.grabtype) \ {m.modifiersDetail.exact}) := by
    rw [hgm] at hv'
    have hd : (DetailRec.mk m.detail.exact none).values anyKey = {m.detail.exact} := DetailRec.values_exact hmd
    rw [Grab.cover,hng,hnd,hnm,hv',hd]
  have hwide : m.wideCover = {(m.detail.exact,m.modifiersDetail.exact)} := by
    rw [Grab.wideCover,DetailRec.wide_exact hmd,DetailRec.wide_exact hmm,Set.singleton_prod_singleton]
  constructor
  · rintro ⟨d,k⟩
    rw [hwide,Set.mem_singleton_iff,Prod.mk.injEq]
    constructor
    · rintro ⟨_,hy | hy,hp⟩
      · cases hy
        obtain ⟨h1,h2⟩ := hp
        rw [hv] at h1
        exact ⟨⟨h1.1,h2⟩,fun he => h1.2 he.1⟩
      · cases hy
        rw [hcover] at hp
        obtain ⟨h1,h2⟩ := hp
        have h1 : d = m.detail.exact := h1
        refine ⟨⟨?_,?_⟩,fun he => h2.2 he.2⟩
        · rw [h1]
          exact hd
        · rw [ht]
          exact h2.1
    · rintro ⟨⟨h1,h2⟩,hn⟩
      by_cases hdd : d = m.detail.exact
      · refine ⟨new,.inr rfl,?_⟩
        rw [hcover]
        rw [ht] at h2
        exact ⟨hdd,h2,fun he => hn ⟨hdd,he⟩⟩
      · refine ⟨_,.inl rfl,?_,h2⟩
        rw [hv]
        exact ⟨h1,hdd⟩
  · rintro _ (hy | hy)
    · cases hy
      exact ⟨rfl,rfl,rfl⟩
    · cases hy
      exact ⟨hnt,hna,hnc⟩

end Edit

section Round

variable {m g : Grab} {alloc : Allocs} {e : Edit}

lemma update_some {b : Bool} {part : Part} {pMask : Option DetailMask} {exact : ℕ} (h : update b part pMask exact = .ok (some e)) :
    exact < 256 ∧ e = .update part (pMask.getD (BitVec.allOnes 256) &&& ~~~BitVec.twoPow 256 exact) := by
  obtain ⟨mask,hm,he⟩ := bind_eq_ok.1 h
  cases mask with
  | none => cases he
  | some mask =>
    cases he
    obtain ⟨hlt,rfl⟩ := deleteDetailFromMask_some hm
    exact ⟨hlt,rfl⟩

lemma splitGrab_some (hx : g.grabtype ≠ .xi2) (h : splitGrab alloc m g = .ok (some e)) :
    m.modifiersDetail.exact < 256 ∧ ∃ new : Grab, new.toTarget = g.toTarget ∧ new.toAttributes = g.toAttributes ∧
      new.client = g.client ∧ new.detail = ⟨m.detail.exact,none⟩ ∧
      new.modifiersDetail = ⟨anyModifier m.grabtype,
        some (g.modifiersDetail.pMask.getD (BitVec.allOnes 256) &&& ~~~BitVec.twoPow 256 m.modifiersDetail.exact)⟩ ∧
      e = .split (g.detail.pMask.getD (BitVec.allOnes 256) &&& ~~~BitVec.twoPow 256 m.detail.exact) new := by
  unfold splitGrab at h
  obtain ⟨dm,hdm,h⟩ := bind_eq_ok.1 h
  obtain ⟨new,hnew,hnt,hna,hnc,hnm,hnd⟩ := createGrab_split hx (anyModifier m.grabtype) m.detail.exact m.detail_lt
  cases hg : alloc.grab with
  | false =>
    rw [hg] at h
    cases h
  | true =>
    rw [hg,if_pos rfl] at h
    obtain ⟨_,hn,h⟩ := bind_eq_ok.1 h
    obtain rfl := Except.ok.inj (hnew.symm.trans hn)
    obtain ⟨mask,hmask,h⟩ := bind_eq_ok.1 h
    cases dm with
    | none => cases h
    | some dm =>
      cases mask with
      | none => cases h
      | some mask =>
        dsimp only at h
        split_ifs at h
        · obtain ⟨-,rfl⟩ := deleteDetailFromMask_some hdm
          obtain ⟨hlt,rfl⟩ := deleteDetailFromMask_some hmask
          cases h
          refine ⟨hlt,{ new with modifiersDetail := ⟨new.modifiersDetail.exact,some _⟩ },hnt,hna,hnc,hnd,?_,rfl⟩
          rw [hnm]
        · cases h

lemma splitGrab_xi2 (hx : g.grabtype = .xi2) : splitGrab alloc m g ≠ .ok (some e) := by
  intro h
  unfold splitGrab at h
  obtain ⟨dm,-,h⟩ := bind_eq_ok.1 h
  cases hg : alloc.grab with
  | false =>
    rw [hg] at h
    cases h
  | true =>
    rw [hg,if_pos rfl] at h
    obtain ⟨_,hn,-⟩ := bind_eq_ok.1 h
    unfold createGrab at hn
    rw [dif_pos hx] at hn
    cases hn

/-- What the branches of a round know: the minuend does not stand above the grab, and past the first two branches neither
the detail nor the modifiers of the grab are single. -/
structure Narrows (m g : Grab) : Prop where
  detail : g.modifiersDetail.exact ≠ anyModifier m.grabtype → m.detail.exact ≠ anyKey ∧
    g.modifiersDetail.values (anyModifier m.grabtype) ⊆ m.modifiersDetail.wide (anyModifier m.grabtype)
  modifiers : g.detail.exact ≠ anyKey → m.modifiersDetail.exact ≠ anyModifier m.grabtype ∧
    g.detail.values anyKey ⊆ m.detail.wide anyKey
  any : m.detail.exact = anyKey → m.modifiersDetail.exact ≠ anyModifier m.grabtype
  both : ¬(g.detail.exact = anyKey ∧ g.modifiersDetail.exact ≠ anyModifier m.grabtype) →
    ¬(g.modifiersDetail.exact = anyModifier m.grabtype ∧ g.detail.exact ≠ anyKey) →
    g.detail.exact = anyKey ∧ g.modifiersDetail.exact = anyModifier m.grabtype

lemma narrows_of_meets (hmeets : g.meets m = true) (hbelow : g.below m = false) : Narrows m g := by
  obtain ⟨hdet,hmod⟩ := Bool.and_eq_true_iff.1 hmeets
  have hno : g.modifiersDetail.below m.modifiersDetail (anyModifier m.grabtype) = true → g.detail.below m.detail anyKey = true →
      False := by
    intro h1 h2
    rw [Grab.below,h1,h2] at hbelow
    cases hbelow
  have hanyD : m.detail.exact = anyKey → g.detail.below m.detail anyKey = true := fun hm => decide_eq_true (.inl hm)
  have hanyM : m.modifiersDetail.exact = anyModifier m.grabtype →
      g.modifiersDetail.below m.modifiersDetail (anyModifier m.grabtype) = true := fun hm => decide_eq_true (.inl hm)
  constructor
  · intro hg
    have hb := DetailRec.below_of_meets hg hmod
    exact ⟨fun he => hno hb (hanyD he),DetailRec.subset_wide_of_below hb⟩
  · intro hg
    have hb := DetailRec.below_of_meets hg hdet
    exact ⟨fun he => hno (hanyM he) hb,DetailRec.subset_wide_of_below hb⟩
  · intro hd hm
    exact hno (hanyM hm) (hanyD hd)
  · intro h1 h2
    by_cases hd : g.detail.exact = anyKey
    · exact ⟨hd,not_not.1 fun hm => h1 ⟨hd,hm⟩⟩
    · by_cases hk : g.modifiersDetail.exact = anyModifier m.grabtype
      · exact absurd ⟨hk,hd⟩ h2
      · exact (hno (DetailRec.below_of_meets hk hmod) (DetailRec.below_of_meets hd hdet)).elim

lemma narrowGrab_leaves (ht : g.grabtype = m.grabtype) (hmeets : g.meets m = true) (hbelow : g.below m = false)
    (h : narrowGrab alloc m g = .ok (some e)) : Leaves m g e := by
  have hn := narrows_of_meets hmeets hbelow
  unfold narrowGrab at h
  dsimp only at h
  split_ifs at h with h1 h2 h3 h4
  · obtain ⟨-,rfl⟩ := update_some h
    exact Leaves.detail h1.1 (hn.detail h1.2).1 ht (hn.detail h1.2).2
  · obtain ⟨hlt,rfl⟩ := update_some h
    exact Leaves.modifiers h2.1 (hn.modifiers h2.2).1 ht hlt (hn.modifiers h2.2).2
  · obtain ⟨hgd,hgm⟩ := hn.both h1 h2
    have hx : g.grabtype ≠ .xi2 := fun hx => splitGrab_xi2 hx h
    obtain ⟨hlt,new,hnt,hna,hnc,hnd,hnm,rfl⟩ := splitGrab_some hx h
    have hd := DetailRec.mem_values_of_meets h3.1 m.detail_lt (Bool.and_eq_true_iff.1 hmeets).1
    exact Leaves.split hgd hgm h3.1 h3.2 ht hd hlt hnt hna hnc hnd hnm
  · obtain ⟨hgd,hgm⟩ := hn.both h1 h2
    obtain ⟨hlt,rfl⟩ := update_some h
    exact Leaves.modifiers hgm (hn.any h4) ht hlt fun _ _ => .inl h4
  · obtain ⟨hgd,hgm⟩ := hn.both h1 h2
    obtain ⟨-,rfl⟩ := update_some h
    have hk : m.modifiersDetail.exact = anyModifier m.grabtype := not_not.1 fun hn => h3 ⟨h4,hn⟩
    exact Leaves.detail hgd h4 ht fun _ _ => .inl hk

lemma editGrab_other (h : g.client ≠ m.client ∨ g.matches m.toTarget g.ignoresDevice = false) :
    editGrab alloc m g = .ok (some .keep) := by
  unfold editGrab
  by_cases hc : g.client ≠ m.client
  · rw [if_pos hc]
  · rw [if_neg hc,grabMatchesSecond_other (h.resolve_left hc)]
    rfl

lemma grabSupersedesSecond_plain (hm : m.Plain) : grabSupersedesSecond m g = .ok (g.below m) :=
  and_ok (DetailRec.plain_supersedes hm.modifiers) (DetailRec.plain_supersedes hm.detail)

lemma editGrab_eq (hm : m.Plain) (hc : g.client = m.client) (hg : g.matches m.toTarget g.ignoresDevice = true)
    (hr : g.Readable m) : editGrab alloc m g =
      if g.meets m then if g.below m then .ok (some .delete) else narrowGrab alloc m g else .ok (some .keep) := by
  unfold editGrab
  rw [if_neg (not_not.2 hc),grabMatchesSecond_plain hg hm hr,grabSupersedesSecond_plain hm]
  cases g.meets m with
  | false => rfl
  | true => rfl

lemma editGrab_unreadable (hc : g.client = m.client) (hg : g.matches m.toTarget g.ignoresDevice = true)
    (hr : ¬g.Readable m) : editGrab alloc m g = .error (.maskIndex m.modifiersDetail.exact) := by
  unfold editGrab
  rw [if_neg (not_not.2 hc),grabMatchesSecond_unreadable hg hr]
  rfl

lemma editGrab_leaves (hm : m.Plain) (hc : g.client = m.client) (hg : g.matches m.toTarget g.ignoresDevice = true)
    (h : editGrab alloc m g = .ok (some e)) : Leaves m g e := by
  have ht := (matches_of_true hg).1
  by_cases hr : g.Readable m
  swap
  · rw [editGrab_unreadable hc hg hr] at h
    cases h
  rw [editGrab_eq hm hc hg hr] at h
  split_ifs at h with hmeets hsup
  · cases h
    obtain ⟨h1,h2⟩ := Bool.and_eq_true_iff.1 hsup
    refine Leaves.delete fun p hp => ⟨DetailRec.subset_wide_of_below h2 hp.1,DetailRec.subset_wide_of_below h1 ?_⟩
    rw [← ht]
    exact hp.2
  · exact narrowGrab_leaves ht hmeets (Bool.eq_false_iff.2 hsup) h
  · cases h
    refine Leaves.keep fun p hp hw => hmeets ?_
    have hd := DetailRec.meets_of_mem hp.1 hw.1
    have hmod := DetailRec.meets_of_mem (ht ▸ hp.2) hw.2
    rw [Grab.meets,hd,hmod]
    rfl

end Round

section Loop

variable {m g h : Grab} {l : List Grab} {es : List Edit} {allocs : ℕ → Allocs} {i : ℕ}

def Edited (m g : Grab) (e : Edit) : Prop := ∃ alloc, editGrab alloc m g = .ok (some e)

lemma editGrabs_some (h : editGrabs allocs m i l = .ok (some es)) : List.Forall₂ (Edited m) l es := by
  induction l generalizing i es with
  | nil =>
    cases h
    exact .nil
  | cons g l ih =>
    rw [editGrabs] at h
    obtain ⟨r,hr,h⟩ := bind_eq_ok.1 h
    cases r with
    | none => cases h
    | some e =>
      obtain ⟨r',hr',h⟩ := bind_eq_ok.1 h
      cases r' with
      | none => cases h
      | some es' =>
        cases h
        exact .cons ⟨_,hr⟩ (ih hr')

lemma mem_afterEdits (hl : l.length = es.length) : h ∈ afterEdits l es ↔ ∃ p ∈ l.zip es, p.2.Yields p.1 h := by
  have hsnd : (l.zip es).map Prod.snd = es := List.map_snd_zip hl.ge
  rw [afterEdits,List.mem_append,List.mem_reverse,List.mem_filterMap,List.mem_filterMap]
  constructor
  · rintro (⟨e,he,ha⟩ | ⟨p,hp,ha⟩)
    · rw [← hsnd,List.mem_map] at he
      obtain ⟨p,hp,rfl⟩ := he
      exact ⟨p,hp,.inr ha⟩
    · exact ⟨p,hp,.inl ha⟩
  · rintro ⟨p,hp,ha | ha⟩
    · exact .inr ⟨p,hp,ha⟩
    · exact .inl ⟨p.2,(List.of_mem_zip hp).2,ha⟩

lemma Edited.cases {e : Edit} (hm : m.Plain) (he : Edited m g e) :
    ((g.client ≠ m.client ∨ g.matches m.toTarget g.ignoresDevice = false) ∧ e = .keep) ∨
      (g.client = m.client ∧ g.matches m.toTarget g.ignoresDevice = true ∧ Leaves m g e) := by
  obtain ⟨alloc,he⟩ := he
  by_cases hg : g.client ≠ m.client ∨ g.matches m.toTarget g.ignoresDevice = false
  · rw [editGrab_other hg] at he
    cases he
    exact .inl ⟨hg,rfl⟩
  · obtain ⟨hc,hma⟩ := not_or.1 hg
    have hma : g.matches m.toTarget g.ignoresDevice = true := by simpa using hma
    exact .inr ⟨not_not.1 hc,hma,editGrab_leaves hm (not_not.1 hc) hma he⟩

def covered (l : List Grab) (client : ℕ) (t : Target) : Set ((ℕ × ℕ) × Attributes) :=
  {q | ∃ g ∈ l, g.client = client ∧ g.toTarget = t ∧ q.1 ∈ g.cover ∧ q.2 = g.toAttributes}

lemma mem_covered_afterEdits (hm : m.Plain) (hl : List.Forall₂ (Edited m) l es) (t : Target) (q : (ℕ × ℕ) × Attributes) :
    q ∈ covered (afterEdits l es) m.client t ↔
      q ∈ covered l m.client t ∧ (t.matches m.toTarget t.ignoresDevice = true → q.1 ∉ m.wideCover) := by
  have hlen := hl.length_eq
  constructor
  · rintro ⟨h,hh,hc,rfl,hq,ha⟩
    obtain ⟨⟨g,e⟩,hp,hy⟩ := (mem_afterEdits hlen).1 hh
    have hmem := (List.of_mem_zip hp).1
    obtain ⟨hg,rfl⟩ | ⟨hgc,hgm,hleaves⟩ := (List.forall₂_zip hl hp).cases hm
    · obtain hy | hy := hy
      · cases hy
        refine ⟨⟨g,hmem,hc,rfl,hq,ha⟩,fun ht => ?_⟩
        rw [hg.resolve_left (not_not.2 hc)] at ht
        cases ht
      · cases hy
    · obtain ⟨hgq,hn⟩ := (hleaves.cover q.1).1 ⟨h,hy,hq⟩
      obtain ⟨hst,hsa,-⟩ := hleaves.same h hy
      exact ⟨⟨g,hmem,hgc,hst.symm,hgq,ha.trans hsa⟩,fun _ => hn⟩
  · rintro ⟨⟨g,hg,hc,rfl,hq,ha⟩,hn⟩
    have hfst : (l.zip es).map Prod.fst = l := List.map_fst_zip hlen.le
    rw [← hfst,List.mem_map] at hg
    obtain ⟨⟨g,e⟩,hp,rfl⟩ := hg
    obtain ⟨-,rfl⟩ | ⟨hgc,hgm,hleaves⟩ := (List.forall₂_zip hl hp).cases hm
    · exact ⟨g,(mem_afterEdits hlen).2 ⟨_,hp,.inl rfl⟩,hc,rfl,hq,ha⟩
    · obtain ⟨h,hy,hqh⟩ := (hleaves.cover q.1).2 ⟨hq,hn hgm⟩
      obtain ⟨hst,hsa,hsc⟩ := hleaves.same h hy
      exact ⟨h,(mem_afterEdits hlen).2 ⟨_,hp,hy⟩,hsc.trans hgc,hst,hqh,ha.trans hsa.symm⟩

lemma filter_afterEdits (hm : m.Plain) (hl : List.Forall₂ (Edited m) l es) {c : ℕ} (hc : c ≠ m.client) :
    (afterEdits l es).filter (·.client = c) = l.filter (·.client = c) := by
  have hkept : ((l.zip es).filterMap fun p => p.2.apply p.1).filter (·.client = c) = l.filter (·.client = c) := by
    induction hl with
    | nil => rfl
    | cons he hl ih =>
      rename_i g e l es
      rw [List.zip_cons_cons,List.filterMap_cons,List.filter_cons]
      obtain ⟨hg,rfl⟩ | ⟨hgc,-,hleaves⟩ := he.cases hm
      · have hk : Edit.keep.apply g = some g := rfl
        simp only [hk]
        rw [List.filter_cons,ih]
      · rw [if_neg (by simpa [hgc] using Ne.symm hc)]
        cases ha : e.apply g with
        | none => exact ih
        | some h =>
          have hhc : h.client = m.client := (hleaves.same h (.inl ha)).2.2.trans hgc
          simp only
          rw [List.filter_cons,if_neg (by simpa [hhc] using Ne.symm hc),ih]
  have hadded : (es.filterMap Edit.added).reverse.filter (·.client = c) = [] := by
    rw [List.filter_eq_nil_iff]
    intro h hh
    rw [List.mem_reverse,List.mem_filterMap] at hh
    obtain ⟨e,he,ha⟩ := hh
    have hsnd : (l.zip es).map Prod.snd = es := List.map_snd_zip hl.length_eq.ge
    rw [← hsnd,List.mem_map] at he
    obtain ⟨⟨g,e⟩,hp,rfl⟩ := he
    obtain ⟨-,rfl⟩ | ⟨hgc,-,hleaves⟩ := (List.forall₂_zip hl hp).cases hm
    · cases ha
    · have hhc : h.client = m.client := (hleaves.same h (.inr ha)).2.2.trans hgc
      simpa [hhc] using Ne.symm hc
  rw [afterEdits,List.filter_append,hadded,hkept,List.nil_append]

end Loop

section Faults

variable {m g : Grab} {l : List Grab} {alloc : Allocs}

/-- The condition on a matching grab of the client: single modifiers past 255 are not compared with a mask of modifiers, nor
taken out of one; any modifiers do not stand for modifiers past 255; and no XI2 grab of any detail and any modifiers is split. -/
structure Ungrabbable (m g : Grab) : Prop where
  range : g.modifiersDetail.exact = anyModifier m.grabtype → m.modifiersDetail.exact ≠ anyModifier m.grabtype →
    256 ≤ m.modifiersDetail.exact → g.modifiersDetail.pMask = none ∧ g.detail.meets m.detail anyKey = false
  narrow : ∀ p ∈ g.cover, p ∈ m.wideCover → p ∈ m.cover
  whole : g.grabtype = .xi2 → g.detail.exact = anyKey → g.modifiersDetail.exact = anyModifier m.grabtype →
    m.detail.exact ≠ anyKey → m.modifiersDetail.exact ≠ anyModifier m.grabtype → g.meets m = false

lemma Ungrabbable.readable (h : Ungrabbable m g) : g.Readable m := by
  intro hg hp hm
  by_contra hlt
  exact hp (h.range hg hm (not_lt.1 hlt)).1

lemma Ungrabbable.inRange (h : Ungrabbable m g) (hg : g.modifiersDetail.exact = anyModifier m.grabtype)
    (hm : m.modifiersDetail.exact ≠ anyModifier m.grabtype) (hmeets : g.meets m = true) : m.modifiersDetail.exact < 256 := by
  by_contra hlt
  have hd := (Bool.and_eq_true_iff.1 hmeets).1
  rw [(h.range hg hm (not_lt.1 hlt)).2] at hd
  cases hd

def Allocs.all : Allocs := ⟨true,true,true,true,true⟩

lemma update_ok (b : Bool) (part : Part) (pMask : Option DetailMask) {exact : ℕ} (h : exact < 256) :
    ∃ r, update b part pMask exact = .ok r := by
  rw [update,deleteDetailFromMask_ok b pMask h]
  exact ⟨_,rfl⟩

lemma update_all {part : Part} {pMask : Option DetailMask} {exact : ℕ} {r : Option Edit}
    (h : update true part pMask exact = .ok r) : exact < 256 ∧ r ≠ none := by
  by_cases he : exact < 256
  · rw [update,deleteDetailFromMask_ok true pMask he] at h
    cases h
    exact ⟨he,Option.some_ne_none _⟩
  · rw [update,deleteDetailFromMask_error pMask he] at h
    cases h

lemma splitGrab_ok (hx : g.grabtype ≠ .xi2) (h : m.modifiersDetail.exact < 256) : ∃ r, splitGrab alloc m g = .ok r := by
  obtain ⟨new,hnew,-⟩ := createGrab_split hx (anyModifier m.grabtype) m.detail.exact m.detail_lt
  unfold splitGrab
  rw [deleteDetailFromMask_ok _ _ m.detail_lt,deleteDetailFromMask_ok _ _ h]
  dsimp only
  rw [hnew]
  obtain ⟨mask,grab,newMask,optional,resource⟩ := alloc
  cases grab with
  | false => exact ⟨none,rfl⟩
  | true =>
    cases mask with
    | false => exact ⟨none,rfl⟩
    | true =>
      cases newMask with
      | false => exact ⟨none,rfl⟩
      | true => cases optional <;> cases resource <;> exact ⟨_,rfl⟩

lemma splitGrab_all {r : Option Edit} (h : splitGrab .all m g = .ok r) :
    g.grabtype ≠ .xi2 ∧ m.modifiersDetail.exact < 256 ∧ r ≠ none := by
  unfold splitGrab at h
  rw [deleteDetailFromMask_ok _ _ m.detail_lt] at h
  have hx : g.grabtype ≠ .xi2 := by
    intro hx
    obtain ⟨_,_,h⟩ := bind_eq_ok.1 h
    rw [if_pos (show Allocs.all.grab = true from rfl)] at h
    obtain ⟨_,hn,-⟩ := bind_eq_ok.1 h
    unfold createGrab at hn
    rw [dif_pos hx] at hn
    cases hn
  obtain ⟨new,hnew,-⟩ := createGrab_split hx (anyModifier m.grabtype) m.detail.exact m.detail_lt
  dsimp only at h
  rw [hnew] at h
  by_cases hlt : m.modifiersDetail.exact < 256
  · rw [deleteDetailFromMask_ok _ _ hlt] at h
    cases h
    exact ⟨hx,hlt,Option.some_ne_none _⟩
  · have he := deleteDetailFromMask_error g.modifiersDetail.pMask hlt
    have ha : Allocs.all.newMask = true := rfl
    rw [ha,he] at h
    cases h

lemma narrowGrab_ok (h : Ungrabbable m g) (hmeets : g.meets m = true) (hbelow : g.below m = false) :
    ∃ r, narrowGrab alloc m g = .ok r := by
  have hn := narrows_of_meets hmeets hbelow
  unfold narrowGrab
  dsimp only
  split_ifs with h1 h2 h3 h4
  · exact update_ok _ _ _ m.detail_lt
  · exact update_ok _ _ _ (h.inRange h2.1 (hn.modifiers h2.2).1 hmeets)
  · obtain ⟨hgd,hgm⟩ := hn.both h1 h2
    refine splitGrab_ok (fun hx => ?_) (h.inRange hgm h3.2 hmeets)
    rw [h.whole hx hgd hgm h3.1 h3.2] at hmeets
    cases hmeets
  · exact update_ok _ _ _ (h.inRange (hn.both h1 h2).2 (hn.any h4) hmeets)
  · exact update_ok _ _ _ m.detail_lt

lemma narrowGrab_all (hmeets : g.meets m = true) (hbelow : g.below m = false) {r : Option Edit}
    (h : narrowGrab .all m g = .ok r) : r ≠ none ∧
      (g.modifiersDetail.exact = anyModifier m.grabtype → m.modifiersDetail.exact ≠ anyModifier m.grabtype →
        m.modifiersDetail.exact < 256) ∧
      (g.detail.exact = anyKey → g.modifiersDetail.exact = anyModifier m.grabtype → m.detail.exact ≠ anyKey →
        m.modifiersDetail.exact ≠ anyModifier m.grabtype → g.grabtype ≠ .xi2) := by
  have hn := narrows_of_meets hmeets hbelow
  unfold narrowGrab at h
  dsimp only at h
  split_ifs at h with h1 h2 h3 h4
  · exact ⟨(update_all h).2,fun hg => absurd hg h1.2,fun _ hg => absurd hg h1.2⟩
  · obtain ⟨hlt,hr⟩ := update_all h
    exact ⟨hr,fun _ _ => hlt,fun hg => absurd hg h2.2⟩
  · obtain ⟨hx,hlt,hr⟩ := splitGrab_all h
    exact ⟨hr,fun _ _ => hlt,fun _ _ _ _ => hx⟩
  · obtain ⟨hlt,hr⟩ := update_all h
    exact ⟨hr,fun _ _ => hlt,fun _ _ hd => absurd h4 hd⟩
  · have hk : m.modifiersDetail.exact = anyModifier m.grabtype := not_not.1 fun hn => h3 ⟨h4,hn⟩
    exact ⟨(update_all h).2,fun _ hm => absurd hk hm,fun _ _ _ hm => absurd hk hm⟩

lemma editGrab_ok (hm : m.Plain)
    (h : g.client = m.client → g.matches m.toTarget g.ignoresDevice = true → Ungrabbable m g) :
    ∃ r, editGrab alloc m g = .ok r := by
  by_cases hg : g.client ≠ m.client ∨ g.matches m.toTarget g.ignoresDevice = false
  · exact ⟨_,editGrab_other hg⟩
  · obtain ⟨hc,hma⟩ := not_or.1 hg
    have hma : g.matches m.toTarget g.ignoresDevice = true := by simpa using hma
    have hu := h (not_not.1 hc) hma
    rw [editGrab_eq hm (not_not.1 hc) hma hu.readable]
    split_ifs with hmeets hsup
    · exact ⟨_,rfl⟩
    · exact narrowGrab_ok hu hmeets (Bool.eq_false_iff.2 hsup)
    · exact ⟨_,rfl⟩

lemma editGrab_all (hm : m.Plain) {r : Option Edit} (h : editGrab .all m g = .ok r) :
    r ≠ none ∧ (g.client = m.client → g.matches m.toTarget g.ignoresDevice = true →
      (∀ p ∈ g.cover, p ∈ m.wideCover → p ∈ m.cover) → Ungrabbable m g) := by
  by_cases hg : g.client ≠ m.client ∨ g.matches m.toTarget g.ignoresDevice = false
  · rw [editGrab_other hg] at h
    cases h
    refine ⟨Option.some_ne_none _,fun hc hma => ?_⟩
    rw [hg.resolve_left (not_not.2 hc)] at hma
    cases hma
  obtain ⟨hc,hma⟩ := not_or.1 hg
  have hma : g.matches m.toTarget g.ignoresDevice = true := by simpa using hma
  have hr : g.Readable m := by
    by_contra hr
    rw [editGrab_unreadable (not_not.1 hc) hma hr] at h
    cases h
  have hunmasked : g.modifiersDetail.exact = anyModifier m.grabtype → m.modifiersDetail.exact ≠ anyModifier m.grabtype →
      256 ≤ m.modifiersDetail.exact → g.modifiersDetail.pMask = none := by
    intro h1 h2 h3
    by_contra hp
    exact absurd (hr h1 hp h2) (not_lt.2 h3)
  rw [editGrab_eq hm (not_not.1 hc) hma hr] at h
  split_ifs at h with hmeets hsup
  · cases h
    refine ⟨Option.some_ne_none _,fun _ _ hnarrow => ⟨?_,hnarrow,?_⟩⟩
    · intro h1 h2 _
      obtain hb | hb := of_decide_eq_true (Bool.and_eq_true_iff.1 hsup).1
      · exact absurd hb h2
      · exact absurd (hb.trans h1) h2
    · intro _ _ h1 _ h2
      obtain hb | hb := of_decide_eq_true (Bool.and_eq_true_iff.1 hsup).1
      · exact absurd hb h2
      · exact absurd (hb.trans h1) h2
  · obtain ⟨hne,hrange,hwhole⟩ := narrowGrab_all hmeets (Bool.eq_false_iff.2 hsup) h
    refine ⟨hne,fun _ _ hnarrow => ⟨?_,hnarrow,?_⟩⟩
    · intro h1 h2 h3
      exact absurd (hrange h1 h2) (not_lt.2 h3)
    · intro hx h1 h2 h3 h4
      exact absurd hx (hwhole h1 h2 h3 h4)
  · cases h
    have hmeets : g.meets m = false := Bool.eq_false_iff.2 hmeets
    refine ⟨Option.some_ne_none _,fun _ _ hnarrow => ⟨?_,hnarrow,fun _ _ _ _ _ => hmeets⟩⟩
    intro h1 h2 h3
    have hp := hunmasked h1 h2 h3
    refine ⟨hp,?_⟩
    -- Any modifiers without mask meet the modifiers of the minuend.
    have hmod : g.modifiersDetail.meets m.modifiersDetail (anyModifier m.grabtype) = true := by
      rw [DetailRec.meets,DetailRec.above,if_pos h1,hp]
      rfl
    rw [Grab.meets,hmod,Bool.and_true] at hmeets
    exact hmeets

end Faults

section Whole

variable {m : Grab} {l : List Grab} {allocs : ℕ → Allocs} {i : ℕ}

lemma editGrabs_ok (h : ∀ g ∈ l, ∀ alloc, ∃ r, editGrab alloc m g = .ok r) : ∃ r, editGrabs allocs m i l = .ok r := by
  induction l generalizing i with
  | nil => exact ⟨_,rfl⟩
  | cons g l ih =>
    obtain ⟨r,hr⟩ := h g List.mem_cons_self (allocs i)
    obtain ⟨r',hr'⟩ := ih (i := i+1) fun g hg => h g (List.mem_cons_of_mem _ hg)
    rw [editGrabs,hr]
    cases r with
    | none => exact ⟨none,rfl⟩
    | some e =>
      refine ⟨r'.map (e::·),bind_eq_ok.2 ⟨some e,rfl,?_⟩⟩
      exact bind_eq_ok.2 ⟨r',hr',rfl⟩

lemma editGrabs_all (hm : m.Plain) {r : Option (List Edit)} (h : editGrabs (fun _ => .all) m i l = .ok r) :
    r ≠ none ∧ ∀ g ∈ l, ∃ r, editGrab .all m g = .ok r := by
  induction l generalizing i r with
  | nil =>
    cases h
    exact ⟨Option.some_ne_none _,fun g hg => by cases hg⟩
  | cons g l ih =>
    rw [editGrabs] at h
    obtain ⟨r₁,hr₁,h⟩ := bind_eq_ok.1 h
    cases r₁ with
    | none => exact absurd rfl (editGrab_all hm hr₁).1
    | some e =>
      obtain ⟨r₂,hr₂,h⟩ := bind_eq_ok.1 h
      obtain ⟨hne,hl⟩ := ih hr₂
      cases h
      refine ⟨fun hn => hne (Option.map_eq_none_iff.1 hn),fun g' hg' => ?_⟩
      obtain rfl | hg' := List.mem_cons.1 hg'
      · exact ⟨_,hr₁⟩
      · exact hl g' hg'

/-- What `DeletePassiveGrabFromList` is for: it returns; if `TRUE`, then for each target the pairs of the client that are left
are the old ones without those of the minuend, with the attributes they had, and grabs of other clients are as before; if
`FALSE`, the list is as before. -/
def Ungrabs (memory : Memory) (l : List Grab) (m : Grab) : Prop :=
  match deletePassiveGrabFromList memory l m with
  | .error _ => False
  | .ok (false,l') => l' = l
  | .ok (true,l') =>
    (∀ t q, q ∈ covered l' m.client t ↔
      q ∈ covered l m.client t ∧ (t.matches m.toTarget t.ignoresDevice = true → q.1 ∉ m.cover)) ∧
    ∀ c, c ≠ m.client → l'.filter (·.client = c) = l.filter (·.client = c)

lemma deletePassiveGrabFromList_eq (memory : Memory) (hl : l ≠ []) (ha : memory.arrays = true) :
    deletePassiveGrabFromList memory l m = (do
      match ← editGrabs memory.grabs m 0 l with
      | none => .ok (false,l)
      | some es => .ok (true,afterEdits l es)) := by
  have harrays : ¬memory.arrays = false := by rw [ha]; exact Bool.noConfusion
  exact (if_neg hl).trans (if_neg harrays)

/-- **Ungrabbing is a set difference.** Whatever the memory, `DeletePassiveGrabFromList` does what it is for with a minuend
without masks, exactly if every grab of the client that matches the minuend meets the condition. -/
theorem ungrab_is_difference {l : List Grab} {m : Grab} (hm : m.Plain) :
    (∀ memory, Ungrabs memory l m) ↔
      ∀ g ∈ l, g.client = m.client → g.matches m.toTarget g.ignoresDevice = true → Ungrabbable m g := by
  constructor
  · intro h g hg hc hma
    have hall := h ⟨true,fun _ => .all⟩
    rw [Ungrabs,deletePassiveGrabFromList_eq _ (List.ne_nil_of_mem hg) rfl] at hall
    cases he : editGrabs (fun _ => .all) m 0 l with
    | error f =>
      rw [he] at hall
      exact hall.elim
    | ok r =>
      obtain ⟨hne,hl⟩ := editGrabs_all hm he
      obtain ⟨r',hr'⟩ := hl g hg
      refine (editGrab_all hm hr').2 hc hma fun p hp hw => ?_
      cases r with
      | none => exact absurd rfl hne
      | some es =>
        rw [he] at hall
        by_contra hn
        have hq := (hall.1 g.toTarget (p,g.toAttributes)).2 ⟨⟨g,hg,hc,rfl,hp,rfl⟩,fun _ => hn⟩
        exact ((mem_covered_afterEdits hm (editGrabs_some he) _ _).1 hq).2 hma hw
  · intro h memory
    rw [Ungrabs]
    by_cases hl : l = []
    · rw [deletePassiveGrabFromList,if_pos hl,hl]
      exact ⟨fun t q => ⟨fun ⟨g,hg,_⟩ => (by cases hg),fun ⟨⟨g,hg,_⟩,_⟩ => (by cases hg)⟩,fun _ _ => rfl⟩
    cases ha : memory.arrays with
    | false => rw [deletePassiveGrabFromList,if_neg hl,if_pos ha]
    | true =>
      rw [deletePassiveGrabFromList_eq _ hl ha]
      have hedit : ∀ g ∈ l, ∀ alloc, ∃ r, editGrab alloc m g = .ok r := fun g hg _ => editGrab_ok hm (h g hg)
      obtain ⟨r,hr⟩ : ∃ r, editGrabs memory.grabs m 0 l = .ok r := editGrabs_ok hedit
      rw [hr]
      cases r with
      | none => rfl
      | some es =>
        have he := editGrabs_some hr
        refine ⟨fun t q => ?_,fun c hc => filter_afterEdits hm he hc⟩
        rw [mem_covered_afterEdits hm he]
        refine and_congr_right fun hq => forall_congr' fun ht => not_congr ⟨fun hw => ?_,fun hcover => ?_⟩
        · obtain ⟨g,hg,hc,rfl,hp,-⟩ := hq
          exact (h g hg hc ht).narrow q.1 hp hw
        · exact ⟨DetailRec.values_subset_wide _ _ hcover.1,DetailRec.values_subset_wide _ _ hcover.2⟩

def buttonGrab (grabtype : InputLevel) (button modifiers : ℕ) (h : button < 256) : Grab where
  grabtype := grabtype
  type := 4
  device := .device 2 true
  modifierDevice := .device 3 true
  ownerEvents := true
  keyboardMode := true
  pointerMode := true
  confineTo := none
  cursor := none
  eventMask := if grabtype = .xi2 then 0 else 12
  xi2mask := if grabtype = .xi2 then 48 else 0
  client := 1
  modifiersDetail := ⟨modifiers,none⟩
  detail := ⟨button,none⟩
  detail_lt := h
  no_xi2mask hx := if_neg hx

/-- Any button and any modifiers, less button 5 with `Shift`. -/
theorem ungrab_is_difference_core : (buttonGrab .core 5 1 (by decide)).Plain ∧ ∀ memory,
    Ungrabs memory [buttonGrab .core anyKey (anyModifier .core) (by decide)] (buttonGrab .core 5 1 (by decide)) := by
  have hm : (buttonGrab .core 5 1 (by decide)).Plain := ⟨fun _ => rfl,fun _ => rfl⟩
  refine ⟨hm,(ungrab_is_difference hm).2 ?_⟩
  rintro g hg - -
  obtain rfl := List.mem_singleton.1 hg
  constructor
  · intro _ _ h
    exact absurd h (by decide)
  · rintro p - ⟨h1,h2⟩
    rw [DetailRec.wide_exact (by decide)] at h1 h2
    rw [Grab.cover,DetailRec.values_exact (by decide),DetailRec.values_exact (by decide)]
    exact ⟨h1,h2⟩
  · intro hx
    cases hx

/-- An XI2 grab of any button and any modifiers, less button 1 without modifiers: the XI2 mask of the new grab is taken from
`NULL`. -/
theorem ungrab_split_faults :
    deletePassiveGrabFromList ⟨true,fun _ => .all⟩ [buttonGrab .xi2 anyKey (anyModifier .xi2) (by decide)]
      (buttonGrab .xi2 1 0 (by decide)) = .error .nullMask ∧
    ¬Ungrabs ⟨true,fun _ => .all⟩ [buttonGrab .xi2 anyKey (anyModifier .xi2) (by decide)] (buttonGrab .xi2 1 0 (by decide)) := by
  have h : deletePassiveGrabFromList ⟨true,fun _ => .all⟩ [buttonGrab .xi2 anyKey (anyModifier .xi2) (by decide)]
      (buttonGrab .xi2 1 0 (by decide)) = .error .nullMask := by
    rfl
  refine ⟨h,?_⟩
  rw [Ungrabs,h]
  exact id

end Whole

end Xlibre.Dix.Grabs
