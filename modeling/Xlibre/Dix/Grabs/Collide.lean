import Xlibre.Dix.Grabs.Ungrab

/-! Passive grabs of different clients on one window. -/
namespace Xlibre.Dix.Grabs

open Lib.Checked

section Shrink

variable {m n g : Grab} {l l' : List Grab} {memory : Memory}

/-- Every grab of a list comes from one of another, of the same client and for the same events, and covers no more. -/
def Shrinks (l l' : List Grab) : Prop :=
  ∀ h ∈ l', ∃ g ∈ l, h.client = g.client ∧ h.toTarget = g.toTarget ∧ h.cover ⊆ g.cover

lemma Shrinks.refl (l : List Grab) : Shrinks l l := fun h hh => ⟨h,hh,rfl,rfl,subset_rfl⟩

lemma Shrinks.afterEdits {es : List Edit} (hm : m.Plain) (hl : List.Forall₂ (Edited m) l es) : Shrinks l (afterEdits l es) := by
  intro h hh
  obtain ⟨⟨g,e⟩,hp,hy⟩ := (mem_afterEdits hl.length_eq).1 hh
  refine ⟨g,(List.of_mem_zip hp).1,?_⟩
  obtain ⟨-,rfl⟩ | ⟨-,-,hleaves⟩ := (List.forall₂_zip hl hp).cases hm
  · obtain hy | hy := hy
    · cases hy
      exact ⟨rfl,rfl,subset_rfl⟩
    · cases hy
  · obtain ⟨ht,-,hc⟩ := hleaves.same h hy
    exact ⟨hc,ht,fun p hp => ((hleaves.cover p).1 ⟨h,hy,hp⟩).1⟩

lemma Shrinks.delete (hm : m.Plain) {b : Bool} (h : deletePassiveGrabFromList memory l m = .ok (b,l')) : Shrinks l l' := by
  by_cases hl : l = []
  · rw [deletePassiveGrabFromList,if_pos hl] at h
    cases h
    rw [hl]
    exact Shrinks.refl []
  cases ha : memory.arrays with
  | false =>
    rw [deletePassiveGrabFromList,if_neg hl,if_pos ha] at h
    cases h
    exact Shrinks.refl l
  | true =>
    rw [deletePassiveGrabFromList_eq _ hl ha] at h
    obtain ⟨r,hr,h⟩ := bind_eq_ok.1 h
    cases r with
    | none =>
      cases h
      exact Shrinks.refl l
    | some es =>
      cases h
      exact Shrinks.afterEdits hm (editGrabs_some hr)

lemma plain_of_identical {c second : DetailRec} {any : ℕ} (hs : second.exact = any → second.pMask = none)
    (h1 : detailSupersedesSecond second c any = .ok true) (h2 : detailSupersedesSecond c second any = .ok true)
    (hc : c.exact = any) : c.pMask = none := by
  by_contra hp
  by_cases hr : c.Readable second any
  · rw [DetailRec.supersedes_readable hr,DetailRec.above,if_pos hc] at h2
    rw [DetailRec.plain_supersedes hs] at h1
    have hb : second.exact = any := by
      obtain hb | hb := of_decide_eq_true (Except.ok.inj h1)
      · exact hb
      · exact hb.trans hc
    obtain ⟨mask,hmask⟩ := Option.ne_none_iff_exists'.1 hp
    rw [hmask] at h2
    simp [hb] at h2
  · rw [DetailRec.supersedes_unreadable hr] at h2
    cases h2

lemma identical_plain (hn : n.Plain) (h : grabsAreIdentical n g = .ok true) : g.Plain := by
  unfold grabsAreIdentical at h
  split_ifs at h with h1 h2
  · cases h
  · cases h
  · have hg := not_not.1 h1
    obtain ⟨hd,hk⟩ := and_eq_ok_true h
    obtain ⟨hd1,hd2⟩ := and_eq_ok_true hd
    obtain ⟨hk1,hk2⟩ := and_eq_ok_true hk
    refine ⟨plain_of_identical hn.detail hd1 hd2,?_⟩
    rw [← hg]
    exact plain_of_identical hn.modifiers hk1 hk2

lemma findIdentical_some (h : findIdentical n l = .ok (some g)) : g ∈ l ∧ grabsAreIdentical n g = .ok true := by
  induction l with
  | nil => cases h
  | cons g' l ih =>
    rw [findIdentical] at h
    obtain ⟨b,hb,h⟩ := bind_eq_ok.1 h
    cases b with
    | false =>
      obtain ⟨hg,hi⟩ := ih h
      exact ⟨List.mem_cons_of_mem _ hg,hi⟩
    | true =>
      cases h
      exact ⟨List.mem_cons_self,hb⟩

lemma Shrinks.removeIdentical (hn : n.Plain) (h : removeIdentical memory l n = .ok l') : Shrinks l l' := by
  unfold Grabs.removeIdentical at h
  obtain ⟨r,hr,h⟩ := bind_eq_ok.1 h
  cases r with
  | none =>
    cases h
    exact Shrinks.refl l
  | some g =>
    obtain ⟨⟨b,l''⟩,hd,rfl⟩ := map_eq_ok.1 h
    exact Shrinks.delete (identical_plain hn (findIdentical_some hr).2) hd

end Shrink

section Collisions

variable {n g : Grab} {l l' : List Grab} {out : Outside} {status : Status}

/-- Two grabs of different clients for the same events cover a pair in common. -/
def Collide (g h : Grab) : Prop :=
  g.client ≠ h.client ∧ g.matches h.toTarget g.ignoresDevice = true ∧ ∃ p, p ∈ g.cover ∧ p ∈ h.cover

lemma Target.ignoresDevice_of_matches {t t' : Target} {b : Bool} (h : t.matches t' b = true) : t.ignoresDevice = t'.ignoresDevice := by
  simp only [Target.matches,Bool.and_eq_true,decide_eq_true_eq] at h
  rw [Target.ignoresDevice,Target.ignoresDevice,h.1.1]

lemma Collide.symm {h : Grab} (hc : Collide g h) : Collide h g := by
  obtain ⟨hne,hm,p,hg,hh⟩ := hc
  refine ⟨hne.symm,?_,p,hh,hg⟩
  rw [Target.matches_comm,← Target.ignoresDevice_of_matches hm]
  exact hm

lemma readable_of_ok (hn : n.Plain) (hm : n.matches g.toTarget n.ignoresDevice = true) {b : Bool}
    (h : grabMatchesSecond n g n.ignoresDevice = .ok b) : g.Readable n ∧ b = g.meets n := by
  have hr : g.Readable n := by
    by_contra hr
    rw [plain_grabMatchesSecond_unreadable hm hn hr] at h
    cases h
  rw [plain_grabMatchesSecond hm hn hr] at h
  exact ⟨hr,(Except.ok.inj h).symm⟩

lemma meets_of_collide (h : Collide n g) : g.meets n = true := by
  obtain ⟨-,hm,p,hp,hg⟩ := h
  have ht := (matches_of_true hm).1
  have hd := DetailRec.meets_of_mem hg.1 (DetailRec.values_subset_wide _ _ hp.1)
  have hk : g.modifiersDetail.meets n.modifiersDetail (anyModifier n.grabtype) = true :=
    DetailRec.meets_of_mem (ht ▸ hg.2) (DetailRec.values_subset_wide _ _ hp.2)
  rw [Grab.meets,hd,hk]
  rfl

lemma grabbedByOther_false (h : grabbedByOther n l = .ok false) :
    ∀ g ∈ l, ∃ b, grabMatchesSecond n g n.ignoresDevice = .ok b ∧ (b = true → n.client = g.client) := by
  induction l with
  | nil => exact fun g hg => by cases hg
  | cons g' l ih =>
    rw [grabbedByOther] at h
    obtain ⟨b,hb,h⟩ := bind_eq_ok.1 h
    have hrest : grabbedByOther n l = .ok false ∧ (b = true → n.client = g'.client) := by
      split_ifs at h with h1 h2
      · cases h
      · exact ⟨h,fun _ => not_not.1 h2⟩
      · exact ⟨h,fun hb => absurd hb h1⟩
    intro g hg
    obtain rfl | hg := List.mem_cons.1 hg
    · exact ⟨b,hb,hrest.2⟩
    · exact ih hrest.1 g hg

lemma grabbedByOther_true (h : grabbedByOther n l = .ok true) :
    ∃ g ∈ l, n.client ≠ g.client ∧ grabMatchesSecond n g n.ignoresDevice = .ok true := by
  induction l with
  | nil => cases h
  | cons g' l ih =>
    rw [grabbedByOther] at h
    obtain ⟨b,hb,h⟩ := bind_eq_ok.1 h
    split_ifs at h with h1 h2
    · rw [h1] at hb
      exact ⟨g',List.mem_cons_self,h2,hb⟩
    · obtain ⟨g,hg,hc,hm⟩ := ih h
      exact ⟨g,List.mem_cons_of_mem _ hg,hc,hm⟩
    · obtain ⟨g,hg,hc,hm⟩ := ih h
      exact ⟨g,List.mem_cons_of_mem _ hg,hc,hm⟩

lemma grabbedByOther_ok (h : ∀ g ∈ l, ∃ b, grabMatchesSecond n g n.ignoresDevice = .ok b) : ∃ b, grabbedByOther n l = .ok b := by
  induction l with
  | nil => exact ⟨_,rfl⟩
  | cons g l ih =>
    obtain ⟨b,hb⟩ := h g List.mem_cons_self
    obtain ⟨b',hb'⟩ := ih fun g hg => h g (List.mem_cons_of_mem _ hg)
    rw [grabbedByOther,hb,hb']
    cases b with
    | false => exact ⟨_,rfl⟩
    | true =>
      by_cases hc : n.client ≠ g.client
      · exact ⟨true,bind_eq_ok.2 ⟨true,rfl,by rw [if_pos rfl,if_pos hc]⟩⟩
      · exact ⟨b',bind_eq_ok.2 ⟨true,rfl,by rw [if_pos rfl,if_neg hc]⟩⟩

def NoCollision (l : List Grab) : Prop := ∀ g ∈ l, ∀ h ∈ l, ¬Collide g h

lemma NoCollision.shrinks (h : NoCollision l) (hs : Shrinks l l') : NoCollision l' := by
  rintro g hg k hk ⟨hne,hm,p,hpg,hpk⟩
  obtain ⟨g',hg',hgc,hgt,hgp⟩ := hs g hg
  obtain ⟨k',hk',hkc,hkt,hkp⟩ := hs k hk
  refine h g' hg' k' hk' ⟨?_,?_,p,hgp hpg,hkp hpk⟩
  · rwa [← hgc,← hkc]
  · rwa [← hgt,← hkt]

lemma addPassiveGrabToList_cases (h : addPassiveGrabToList out l n = .ok (status,l')) :
    (grabbedByOther n l = .ok true ∧ status = .badAccess ∧ l' = l) ∨
      (grabbedByOther n l = .ok false ∧ ((status = out.access ∧ out.access ≠ .success ∧ l' = l) ∨
        ∃ l'', removeIdentical out.memory l n = .ok l'' ∧
          ((status = .badAlloc ∧ l' = l'') ∨ (status = .success ∧ l' = n::l'')))) := by
  unfold addPassiveGrabToList at h
  obtain ⟨b,hb,h⟩ := bind_eq_ok.1 h
  cases b with
  | true =>
    cases h
    exact .inl ⟨hb,rfl,rfl⟩
  | false =>
    refine .inr ⟨hb,?_⟩
    by_cases ha : out.access ≠ .success
    · rw [if_pos ha] at h
      cases h
      exact .inl ⟨rfl,ha,rfl⟩
    · rw [if_neg ha] at h
      obtain ⟨l'',hl,h⟩ := bind_eq_ok.1 h
      refine .inr ⟨l'',hl,?_⟩
      split_ifs at h
      · cases h
        exact .inl ⟨rfl,rfl⟩
      · cases h
        exact .inl ⟨rfl,rfl⟩
      · cases h
        exact .inr ⟨rfl,rfl⟩

lemma NoCollision.add (h : NoCollision l) (hn : n.Plain) (ha : addPassiveGrabToList out l n = .ok (status,l')) :
    NoCollision l' := by
  obtain ⟨-,-,rfl⟩ | ⟨hb,⟨-,-,rfl⟩ | ⟨l'',hl,⟨-,rfl⟩ | ⟨-,rfl⟩⟩⟩ := addPassiveGrabToList_cases ha
  · exact h
  · exact h
  · exact h.shrinks (Shrinks.removeIdentical hn hl)
  · have hs := Shrinks.removeIdentical hn hl
    -- A grab that collides with the new one would have been found.
    have hnew : ∀ g ∈ l'', ¬Collide n g := by
      rintro k hk ⟨hne,hm,p,hpn,hpk⟩
      obtain ⟨g,hg,hc,ht,hp⟩ := hs k hk
      rw [ht] at hm
      rw [hc] at hne
      obtain ⟨b,hbg,hsame⟩ := grabbedByOther_false hb g hg
      have hmeets := meets_of_collide ⟨hne,hm,p,hpn,hp hpk⟩
      exact hne (hsame ((readable_of_ok hn hm hbg).2.trans hmeets))
    intro g hg k hk hc
    obtain rfl | hg' := List.mem_cons.1 hg
    · obtain rfl | hk' := List.mem_cons.1 hk
      · exact hc.1 rfl
      · exact hnew k hk' hc
    · obtain rfl | hk' := List.mem_cons.1 hk
      · exact hnew g hg' hc.symm
      · exact h.shrinks hs g hg' k hk' hc

end Collisions

section Runs

variable {n g : Grab} {l l' : List Grab}

/-- One call on the grabs of a window, by any client. -/
inductive Step : List Grab → List Grab → Prop
  | add {l l' : List Grab} {out : Outside} {n : Grab} {status : Status} : n.Plain →
    addPassiveGrabToList out l n = .ok (status,l') → Step l l'
  | delete {l l' : List Grab} {memory : Memory} {m : Grab} {b : Bool} : m.Plain →
    deletePassiveGrabFromList memory l m = .ok (b,l') → Step l l'

/-- The lists that such calls make. -/
def Reach (l : List Grab) : Prop := Relation.ReflTransGen Step [] l

lemma NoCollision.step (h : NoCollision l) (hs : Step l l') : NoCollision l' := by
  cases hs with
  | add hn ha => exact h.add hn ha
  | delete hm hd => exact h.shrinks (Shrinks.delete hm hd)

lemma Reach.noCollision (h : Reach l) : NoCollision l := by
  induction h with
  | refl => exact fun g hg => by cases hg
  | tail _ hs ih => exact ih.step hs

/-- The condition on a new grab: no comparison looks past the end of a mask; and for each grab of another client for the same
events, what is any in the new grab meets a value of at most 255 in the other one, and single modifiers past 255 do not meet
any modifiers. -/
structure Comparable (l : List Grab) (n : Grab) : Prop where
  readable : ∀ g ∈ l, n.matches g.toTarget n.ignoresDevice = true → g.Readable n
  detail : ∀ g ∈ l, n.client ≠ g.client → n.matches g.toTarget n.ignoresDevice = true → n.detail.exact = anyKey →
    (g.detail.values anyKey).Nonempty
  modifiers : ∀ g ∈ l, n.client ≠ g.client → n.matches g.toTarget n.ignoresDevice = true →
    n.modifiersDetail.exact = anyModifier n.grabtype → ∃ v ∈ g.modifiersDetail.values (anyModifier n.grabtype), v < 256
  range : ∀ g ∈ l, n.client ≠ g.client → n.matches g.toTarget n.ignoresDevice = true →
    n.modifiersDetail.exact ≠ anyModifier n.grabtype → 256 ≤ n.modifiersDetail.exact →
    g.modifiersDetail.exact ≠ anyModifier n.grabtype

lemma DetailRec.mem_values_any {c : DetailRec} {any v : ℕ} (hc : c.exact = any) (hp : c.pMask = none) :
    v ∈ c.values any ↔ v < 256 := by
  rw [values,if_pos hc,hp]
  change (BitVec.allOnes 256).getLsbD v = true ↔ v < 256
  rw [BitVec.getLsbD_allOnes,decide_eq_true_iff]

lemma detail_values_lt {d : ℕ} (h : d ∈ g.detail.values anyKey) : d < 256 := by
  unfold DetailRec.values at h
  split_ifs at h with hany
  · exact lt_of_getLsbD h
  · rw [Set.mem_singleton_iff.1 h]
    exact g.detail_lt

lemma Comparable.collide (h : Comparable l n) (hn : n.Plain) (hg : g ∈ l) (hc : n.client ≠ g.client)
    (hm : n.matches g.toTarget n.ignoresDevice = true) (hmeets : g.meets n = true) : Collide n g := by
  have ht := (matches_of_true hm).1
  obtain ⟨hd,hk⟩ := Bool.and_eq_true_iff.1 hmeets
  have hdetail : ∃ d, d ∈ n.detail.values anyKey ∧ d ∈ g.detail.values anyKey := by
    by_cases hany : n.detail.exact = anyKey
    · obtain ⟨d,hd⟩ := h.detail g hg hc hm hany
      exact ⟨d,(DetailRec.mem_values_any hany (hn.detail hany)).2 (detail_values_lt hd),hd⟩
    · refine ⟨n.detail.exact,?_,DetailRec.mem_values_of_meets hany n.detail_lt hd⟩
      rw [DetailRec.values_exact hany]
      rfl
  have hmodifiers : ∃ k, k ∈ n.modifiersDetail.values (anyModifier n.grabtype) ∧
      k ∈ g.modifiersDetail.values (anyModifier n.grabtype) := by
    by_cases hany : n.modifiersDetail.exact = anyModifier n.grabtype
    · obtain ⟨k,hk,hlt⟩ := h.modifiers g hg hc hm hany
      exact ⟨k,(DetailRec.mem_values_any hany (hn.modifiers hany)).2 hlt,hk⟩
    · refine ⟨n.modifiersDetail.exact,?_,?_⟩
      · rw [DetailRec.values_exact hany]
        rfl
      · by_cases hlt : n.modifiersDetail.exact < 256
        · exact DetailRec.mem_values_of_meets hany hlt hk
        · have hgany := h.range g hg hc hm hany (not_lt.1 hlt)
          rw [DetailRec.values_exact hgany]
          obtain hb | hb := of_decide_eq_true (DetailRec.below_of_meets hgany hk)
          · exact absurd hb hany
          · exact hb
  obtain ⟨d,hnd,hgd⟩ := hdetail
  obtain ⟨k,hnk,hgk⟩ := hmodifiers
  refine ⟨hc,hm,(d,k),⟨hnd,hnk⟩,hgd,?_⟩
  rw [← ht]
  exact hgk

/-- **Passive grabs of different clients never collide**, whatever calls are made. And as long as a new grab is comparable, and
the access callback does not itself refuse it with `BadAccess`, it is refused so exactly if it collides with one. -/
theorem passive_grabs_never_collide {l : List Grab} (h : Reach l) : NoCollision l ∧
    ∀ (out : Outside) (n : Grab), n.Plain → out.access ≠ .badAccess → Comparable l n →
      ((∃ l', addPassiveGrabToList out l n = .ok (.badAccess,l')) ↔ ∃ g ∈ l, Collide n g) := by
  refine ⟨h.noCollision,fun out n hn hout hcomp => ?_⟩
  constructor
  · rintro ⟨l',ha⟩
    obtain ⟨hb,-,-⟩ | ⟨-,⟨hs,-,-⟩ | ⟨l'',-,⟨hs,-⟩ | ⟨hs,-⟩⟩⟩ := addPassiveGrabToList_cases ha
    · obtain ⟨g,hg,hc,hmatch⟩ := grabbedByOther_true hb
      cases hm : n.matches g.toTarget n.ignoresDevice with
      | false =>
        rw [grabMatchesSecond_other hm] at hmatch
        cases hmatch
      | true => exact ⟨g,hg,hcomp.collide hn hg hc hm (readable_of_ok hn hm hmatch).2.symm⟩
    · exact absurd hs.symm hout
    · cases hs
    · cases hs
  · rintro ⟨g,hg,hc⟩
    have hok : ∀ g ∈ l, ∃ b, grabMatchesSecond n g n.ignoresDevice = .ok b := by
      intro g hg
      cases hm : n.matches g.toTarget n.ignoresDevice with
      | false => exact ⟨_,grabMatchesSecond_other hm⟩
      | true => exact ⟨_,plain_grabMatchesSecond hm hn (hcomp.readable g hg hm)⟩
    obtain ⟨b,hb⟩ := grabbedByOther_ok hok
    cases b with
    | true => exact ⟨l,bind_eq_ok.2 ⟨true,hb,rfl⟩⟩
    | false =>
      obtain ⟨b,hbg,hsame⟩ := grabbedByOther_false hb g hg
      exact absurd (hsame ((readable_of_ok hn hc.2.1 hbg).2.trans (meets_of_collide hc))) hc.1

def allGranted : Outside := ⟨.success,true,true,⟨true,fun _ => .all⟩⟩

def anyModifiers : Grab := buttonGrab .core 5 (anyModifier .core) (by decide)

lemma plain_buttonGrab (grabtype : InputLevel) (button modifiers : ℕ) (h : button < 256) :
    (buttonGrab grabtype button modifiers h).Plain := ⟨fun _ => rfl,fun _ => rfl⟩

lemma reach_anyModifiers : Reach [anyModifiers] := by
  have h : addPassiveGrabToList allGranted [] anyModifiers = .ok (.success,[anyModifiers]) := rfl
  exact .tail .refl (.add (plain_buttonGrab .core 5 (anyModifier .core) (by decide)) h)

theorem passive_grabs_never_collide_anyModifiers : Reach [anyModifiers] ∧ NoCollision [anyModifiers] ∧
    ∃ g ∈ [anyModifiers], Collide { buttonGrab .core 5 1 (by decide) with client := 2 } g := by
  obtain ⟨hno,hiff⟩ := passive_grabs_never_collide reach_anyModifiers
  refine ⟨reach_anyModifiers,hno,(hiff allGranted { buttonGrab .core 5 1 (by decide) with client := 2 }
    ⟨fun _ => rfl,fun _ => rfl⟩ (by decide) ?_).1 ⟨_,rfl⟩⟩
  constructor
  · intro g hg _ _ hp
    obtain rfl := List.mem_singleton.1 hg
    exact absurd rfl hp
  · intro g _ _ _ hd
    cases hd
  · intro g _ _ _ hk
    cases hk
  · intro g _ _ _ _ hlt
    exact absurd hlt (by decide)

/-- The mask after the modifiers below `k` have been ungrabbed. -/
def cleared : ℕ → Option DetailMask
  | 0 => none
  | k+1 => some ((cleared k).getD (BitVec.allOnes 256) &&& ~~~BitVec.twoPow 256 k)

lemma getLsbD_cleared {k : ℕ} (hk : k ≤ 256) (v : ℕ) :
    ((cleared k).getD (BitVec.allOnes 256)).getLsbD v = true ↔ k ≤ v ∧ v < 256 := by
  induction k with
  | zero =>
    change (BitVec.allOnes 256).getLsbD v = true ↔ 0 ≤ v ∧ v < 256
    rw [BitVec.getLsbD_allOnes,decide_eq_true_iff]
    omega
  | succ k ih =>
    change ((cleared k).getD (BitVec.allOnes 256) &&& ~~~BitVec.twoPow 256 k).getLsbD v = true ↔ k+1 ≤ v ∧ v < 256
    rw [getLsbD_clear _ (by omega),ih (by omega)]
    omega

/-- Button 5 with what is left of any modifiers. -/
def narrowed (k : ℕ) : Grab := { anyModifiers with modifiersDetail := ⟨anyModifier .core,cleared k⟩ }

lemma ungrab_narrowed {k : ℕ} (hk : k < 256) :
    deletePassiveGrabFromList ⟨true,fun _ => .all⟩ [narrowed k] (buttonGrab .core 5 k (by decide)) =
      .ok (true,[narrowed (k+1)]) := by
  have hany : k ≠ 2^15 := by omega
  have hplain := plain_buttonGrab .core 5 k (by decide)
  have hbit : ((cleared k).getD (BitVec.allOnes 256)).getLsbD k = true := (getLsbD_cleared hk.le k).2 ⟨le_rfl,hk⟩
  have hmeets : (narrowed k).meets (buttonGrab .core 5 k (by decide)) = true := by
    refine Bool.and_eq_true_iff.2 ⟨rfl,DetailRec.meets_of_mem ?_ (.inr rfl)⟩
    exact hbit
  have hbelow : (narrowed k).below (buttonGrab .core 5 k (by decide)) = false := by
    have hb : (narrowed k).modifiersDetail.below ⟨k,none⟩ (anyModifier .core) = false :=
      decide_eq_false fun h => h.elim hany hany
    exact Bool.and_eq_false_iff.2 (.inl hb)
  have hc : (narrowed k).client = (buttonGrab .core 5 k (by decide)).client := rfl
  have hma : (narrowed k).matches (buttonGrab .core 5 k (by decide)).toTarget (narrowed k).ignoresDevice = true := rfl
  have hedit : editGrab .all (buttonGrab .core 5 k (by decide)) (narrowed k) =
      .ok (some (.update .modifiers ((cleared k).getD (BitVec.allOnes 256) &&& ~~~BitVec.twoPow 256 k))) := by
    rw [editGrab_eq hplain hc hma fun _ _ _ => hk,hmeets,hbelow]
    have hdel := deleteDetailFromMask_ok true (cleared k) hk
    have hnarrow : narrowGrab .all (buttonGrab .core 5 k (by decide)) (narrowed k) = update true .modifiers (cleared k) k := rfl
    rw [if_pos rfl,if_neg Bool.noConfusion,hnarrow,update,hdel]
    rfl
  rw [deletePassiveGrabFromList_eq _ (List.cons_ne_nil _ _) rfl,editGrabs,hedit]
  rfl

lemma reach_narrowed {k : ℕ} (hk : k ≤ 256) : Reach [narrowed k] := by
  induction k with
  | zero => exact reach_anyModifiers
  | succ k ih =>
    exact .tail (ih (by omega)) (.delete (plain_buttonGrab .core 5 k (by decide)) (ungrab_narrowed (by omega)))

/-- Client 1 has grabbed button 5 with any modifiers, and then has ungrabbed it with each of the 256 combinations. Client 2 is
still refused, though nothing is covered. -/
theorem emptied_grab_refuses : Reach [narrowed 256] ∧ (narrowed 256).cover = ∅ ∧
    addPassiveGrabToList allGranted [narrowed 256] { anyModifiers with client := 2 } = .ok (.badAccess,[narrowed 256]) ∧
    ¬∃ g ∈ [narrowed 256], Collide { anyModifiers with client := 2 } g := by
  have hcover : (narrowed 256).cover = ∅ := by
    ext ⟨d,k⟩
    constructor
    · rintro ⟨-,hk⟩
      have hbit : ((cleared 256).getD (BitVec.allOnes 256)).getLsbD k = true := hk
      rw [getLsbD_cleared le_rfl] at hbit
      exact absurd hbit.1 (not_le.2 hbit.2)
    · intro h
      cases h
  refine ⟨reach_narrowed le_rfl,hcover,?_,?_⟩
  · have hma : ({ anyModifiers with client := 2 } : Grab).matches (narrowed 256).toTarget
        ({ anyModifiers with client := 2 } : Grab).ignoresDevice = true := rfl
    have hmatch := plain_grabMatchesSecond hma ⟨fun _ => rfl,fun _ => rfl⟩ fun _ _ hs => absurd rfl hs
    have hmeets : (narrowed 256).meets { anyModifiers with client := 2 } = true := by
      refine Bool.and_eq_true_iff.2 ⟨rfl,Bool.or_eq_true_iff.2 (.inr (decide_eq_true (.inl rfl)))⟩
    rw [hmeets] at hmatch
    rw [addPassiveGrabToList,grabbedByOther,hmatch]
    rfl
  · rintro ⟨g,hg,-,-,p,-,hp⟩
    obtain rfl := List.mem_singleton.1 hg
    rw [hcover] at hp
    cases hp

end Runs

end Xlibre.Dix.Grabs
