import Xlibre.Xinput.SelectEvents

/-! Requests of XISelectEvents keep the selections well formed. -/
namespace Xlibre.Xinput
open Xlibre.Lib Checked

def AllOrNone (selected : ℕ → Bool) (events : List ℕ) : Prop :=
  (∀ e ∈ events, selected e = true) ∨ ∀ e ∈ events, selected e = false

def exclusiveEvents : List ℕ := [xiTouchBegin,xiGesturePinchBegin,xiGestureSwipeBegin]

/-- What one client may select for a device id on a window. -/
structure MaskOk (isRoot : Bool) (dev : ℕ) (selected : ℕ → Bool) : Prop where
  touch : AllOrNone selected touchEvents
  pinch : AllOrNone selected pinchEvents
  swipe : AllOrNone selected swipeEvents
  raw : isRoot = false → ∀ e ∈ rawEvents, selected e = false
  hierarchy : dev ≠ xiAllDevices → selected xiHierarchyChanged = false

structure RecordsOk (isRoot : Bool) (l : List InputClient) : Prop where
  owners : l.Pairwise fun a b => a.resource.client ≠ b.resource.client
  masks : ∀ o ∈ l, ∀ dev, MaskOk isRoot dev (o.xi2mask.isSet dev)
  exclusive : ∀ a ∈ l, ∀ b ∈ l, a.resource.client ≠ b.resource.client → ∀ dev, ∀ e ∈ exclusiveEvents,
    ¬(a.xi2mask.isSet dev e = true ∧ b.xi2mask.isSet dev e = true)

section Windows

variable {W : Type} [DecidableEq W] {T : Lib.Tree W}

def WellFormed (T : Lib.Tree W) (s : Selections W) : Prop := ∀ w, RecordsOk (T.parent w).isNone (s.clients w)

/-- The events that a mask of `len` bytes selects once it is stored. -/
def stored (len : ℕ) (mask : ℕ → BitVec 8) (e : ℕ) : Bool :=
  decide (e/8 < min len xi2MaskSize) && (mask (e/8)).getLsbD (e%8)

lemma setEventMask_bytes (dev len : ℕ) (mask : ℕ → BitVec 8) (o : InputClient) (d : ℕ) :
    (o.setEventMask dev len mask).xi2mask d =
      if d = dev then fun j => if j < min len xi2MaskSize then mask j else 0 else o.xi2mask d := by
  unfold InputClient.setEventMask
  dsimp only
  split_ifs with hlen hd hd
  · subst hd
    funext j
    simp [Xi2Mask.setOneMask,Xi2Mask.zero]
  · simp [Xi2Mask.setOneMask,Xi2Mask.zero,hd]
  · subst hd
    rw [not_not] at hlen
    simp [Xi2Mask.zero,hlen]
  · simp [Xi2Mask.zero,hd]

lemma setEventMask_isSet (dev len : ℕ) (mask : ℕ → BitVec 8) (o : InputClient) (d e : ℕ) :
    (o.setEventMask dev len mask).xi2mask.isSet d e = if d = dev then stored len mask e else o.xi2mask.isSet d e := by
  unfold Xi2Mask.isSet stored
  rw [setEventMask_bytes]
  by_cases hd : d = dev
  · by_cases he : e/8 < min len xi2MaskSize <;> simp [hd,he]
  · simp [hd]

/-- A mask that may be stored for a client beside the records of a window. -/
structure Allowed (isRoot : Bool) (client dev : ℕ) (others : List InputClient) (selected : ℕ → Bool) : Prop where
  mask : MaskOk isRoot dev selected
  free : ∀ o ∈ others, o.resource.client ≠ client → ∀ e ∈ exclusiveEvents, selected e = true →
    o.xi2mask.isSet dev e = false

section Records

variable {isRoot : Bool} {client dev len : ℕ} {mask : ℕ → BitVec 8} {others l : List InputClient}

def setOwn (client dev len : ℕ) (mask : ℕ → BitVec 8) (o : InputClient) : InputClient :=
  if o.resource.client = client then o.setEventMask dev len mask else o

@[simp] lemma setOwn_resource (o : InputClient) : (setOwn client dev len mask o).resource = o.resource := by
  unfold setOwn
  split_ifs <;> rfl

lemma setOwn_isSet (o : InputClient) (d e : ℕ) :
    (setOwn client dev len mask o).xi2mask.isSet d e =
      if o.resource.client = client ∧ d = dev then stored len mask e else o.xi2mask.isSet d e := by
  unfold setOwn
  by_cases ho : o.resource.client = client
  · rw [if_pos ho,setEventMask_isSet]
    simp [ho]
  · simp [ho]

lemma map_setOwn_of_not_any (h : ∀ o ∈ l, o.resource.client ≠ client) : l.map (setOwn client dev len mask) = l := by
  conv_rhs => rw [← List.map_id l]
  exact List.map_congr_left fun o ho => if_neg (h o ho)

lemma modifyFirst_sameClient (h : l.Pairwise fun a b => a.resource.client ≠ b.resource.client) :
    modifyFirst (sameClient client) (InputClient.setEventMask dev len mask) l = l.map (setOwn client dev len mask) := by
  induction l with
  | nil => rfl
  | cons o l ih =>
    obtain ⟨ho,hl⟩ := List.pairwise_cons.1 h
    rw [modifyFirst,List.map_cons]
    by_cases hc : o.resource.client = client
    · rw [if_pos (by simpa [sameClient] using hc),setOwn,if_pos hc,map_setOwn_of_not_any]
      intro o' ho'
      rw [← hc]
      exact (ho o' ho').symm
    · rw [if_neg (by simpa [sameClient] using hc),setOwn,if_neg hc,ih hl]

lemma RecordsOk.set (h : RecordsOk isRoot l) (ha : Allowed isRoot client dev others (stored len mask))
    (hothers : ∀ o ∈ l, o.resource.client ≠ client → o ∈ others) :
    RecordsOk isRoot (l.map (setOwn client dev len mask)) := by
  refine ⟨?_,?_,?_⟩
  · rw [List.pairwise_map]
    simpa only [setOwn_resource] using h.owners
  · intro o' ho' d
    obtain ⟨o,ho,rfl⟩ := List.mem_map.1 ho'
    have hset : (setOwn client dev len mask o).xi2mask.isSet d = fun e =>
        if o.resource.client = client ∧ d = dev then stored len mask e else o.xi2mask.isSet d e :=
      funext (setOwn_isSet o d)
    rw [hset]
    by_cases hc : o.resource.client = client ∧ d = dev
    · simpa only [hc,and_self,if_true] using ha.mask
    · simpa only [if_neg hc] using h.masks o ho d
  · intro a' ha' b' hb' hne d e he
    obtain ⟨a,haMem,rfl⟩ := List.mem_map.1 ha'
    obtain ⟨b,hbMem,rfl⟩ := List.mem_map.1 hb'
    rw [setOwn_resource,setOwn_resource] at hne
    rw [setOwn_isSet,setOwn_isSet]
    rintro ⟨hea,heb⟩
    by_cases hd : d = dev
    · subst hd
      by_cases hac : a.resource.client = client
      · have hbc : b.resource.client ≠ client := fun hbc => hne (hac.trans hbc.symm)
        rw [if_pos ⟨hac,rfl⟩] at hea
        rw [if_neg fun hb => hbc hb.1] at heb
        exact absurd heb (by simp [ha.free b (hothers b hbMem hbc) hbc e he hea])
      · rw [if_neg fun hb => hac hb.1] at hea
        by_cases hbc : b.resource.client = client
        · rw [if_pos ⟨hbc,rfl⟩] at heb
          exact absurd hea (by simp [ha.free a (hothers a haMem hac) hac e he heb])
        · rw [if_neg fun hb => hbc hb.1] at heb
          exact h.exclusive a haMem b hbMem hne d e he ⟨hea,heb⟩
    · rw [if_neg fun hb => hd hb.2] at hea heb
      exact h.exclusive a haMem b hbMem hne d e he ⟨hea,heb⟩

lemma allOrNone_none (events : List ℕ) : AllOrNone (fun _ => false) events := Or.inr fun _ _ => rfl

lemma empty_isSet (dev e : ℕ) : Xi2Mask.empty.isSet dev e = false := by simp [Xi2Mask.empty,Xi2Mask.isSet]

lemma RecordsOk.cons {o : InputClient} (h : RecordsOk isRoot l) (ho : o.xi2mask = .empty)
    (hl : ∀ o' ∈ l, o'.resource.client ≠ o.resource.client) : RecordsOk isRoot (o :: l) := by
  have hset : ∀ d e, o.xi2mask.isSet d e = false := by
    intro d e
    rw [ho,empty_isSet]
  refine ⟨List.pairwise_cons.2 ⟨fun o' ho' => (hl o' ho').symm,h.owners⟩,?_,?_⟩
  · intro o' ho' d
    obtain rfl | ho' := List.mem_cons.1 ho'
    · rw [funext (hset d)]
      exact ⟨allOrNone_none _,allOrNone_none _,allOrNone_none _,fun _ _ _ => rfl,fun _ => rfl⟩
    · exact h.masks o' ho' d
  · intro a ha b hb hne d e he
    obtain rfl | ha := List.mem_cons.1 ha
    · simp [hset]
    · obtain rfl | hb := List.mem_cons.1 hb
      · simp [hset]
      · exact h.exclusive a ha b hb hne d e he

end Records

section Checks

variable {m : Memory} {bits client deviceid maskLen : ℕ} {isRoot : Bool} {others : List InputClient} {L : Lookups W}

lemma rejectIf_ok {c : Prop} [Decidable c] {e : Reject} : rejectIf c e = .ok () ↔ ¬c := by
  unfold rejectIf
  split_ifs with h <;> simp [h]

omit [DecidableEq W] in
lemma free_of_noConflict {evtype : ℕ} (h : checkForTouchSelectionConflicts L client deviceid evtype others = .success)
    {o : InputClient} (ho : o ∈ others) (hc : o.resource.client ≠ client) : o.xi2mask.isSet deviceid evtype = false := by
  induction others with
  | nil => cases ho
  | cons A l ih =>
    rw [checkForTouchSelectionConflicts] at h
    by_cases hA : sameClient client A
    · rw [if_pos hA] at h
      obtain rfl | ho := List.mem_cons.1 ho
      · exact absurd (by simpa [sameClient] using hA) hc
      · exact ih h ho
    · rw [if_neg hA] at h
      split_ifs at h with _ _ _ hset
      obtain rfl | ho := List.mem_cons.1 ho
      · simpa using hset
      · exact ih h ho

omit [DecidableEq W] in
lemma free_of_checkConflicts {evtype : ℕ} (h : checkConflicts L m bits client deviceid others evtype = .ok ())
    (hbit : m.bitIsOn bits evtype = true) {o : InputClient} (ho : o ∈ others) (hc : o.resource.client ≠ client) :
    o.xi2mask.isSet deviceid evtype = false := by
  have hnot := rejectIf_ok.1 h
  exact free_of_noConflict (by_contra fun hrc => hnot ⟨hbit,hrc⟩) ho hc

lemma stored_eq (e : ℕ) : stored (maskLen*4) (fun j => m (bits+j)) e =
    (decide (e/8 < min (maskLen*4) xi2MaskSize) && m.bitIsOn bits e) := rfl

lemma stored_of_lt {e : ℕ} (hlen : maskLen ≥ 1) (he : e < 32) :
    stored (maskLen*4) (fun j => m (bits+j)) e = m.bitIsOn bits e := by
  rw [stored_eq,decide_eq_true (by unfold xi2MaskSize; omega),Bool.true_and]

lemma stored_zero (e : ℕ) (mask : ℕ → BitVec 8) : stored (0*4) mask e = false := by simp [stored]

lemma stored_last (hlen : maskLen ≥ 1) : stored (maskLen*4) (fun j => m (bits+j)) 32 =
    (decide (maskLen ≥ 2) && m.bitIsOn bits 32) := by
  rw [stored_eq]
  congr 1
  rw [decide_eq_decide]
  unfold xi2MaskSize
  omega

lemma allOrNone_of_check {anyOf allOf : List ℕ} {errorValue : ℕ} {selected : ℕ → Bool}
    (h : checkAllOrNone m bits anyOf allOf errorValue = .ok ()) (hsub : ∀ e ∈ allOf, e ∈ anyOf)
    (heq : ∀ e ∈ allOf, selected e = m.bitIsOn bits e) : AllOrNone selected allOf := by
  have hnot := rejectIf_ok.1 h
  by_cases hall : allOf.all (m.bitIsOn bits)
  · exact Or.inl fun e he => (heq e he).trans (List.all_eq_true.1 hall e he)
  · refine Or.inr fun e he => ?_
    rw [heq e he]
    by_contra hon
    exact hnot ⟨List.any_eq_true.2 ⟨e,hsub e he,by simpa using hon⟩,hall⟩

lemma swipe_of_check (hlen : maskLen ≥ 1) (h : checkSwipe m bits maskLen = .ok ()) :
    AllOrNone (stored (maskLen*4) fun j => m (bits+j)) swipeEvents := by
  unfold checkSwipe at h
  split_ifs at h with hone htwo
  · -- the last swipe event is not in a mask of one word
    have hnot := rejectIf_ok.1 h
    rw [not_or] at hnot
    refine Or.inr fun e he => ?_
    simp only [swipeEvents,List.mem_cons,List.not_mem_nil,or_false] at he
    obtain rfl | rfl | rfl := he
    · rw [stored_of_lt hlen (by omega)]
      exact Bool.eq_false_iff.2 hnot.1
    · rw [stored_of_lt hlen (by omega)]
      exact Bool.eq_false_iff.2 hnot.2
    · rw [stored_last hlen,hone]
      rfl
  · refine allOrNone_of_check h (fun e he => he) fun e he => ?_
    simp only [swipeEvents,List.mem_cons,List.not_mem_nil,or_false] at he
    obtain rfl | rfl | rfl := he
    · exact stored_of_lt hlen (by omega)
    · exact stored_of_lt hlen (by omega)
    · rw [stored_last hlen,decide_eq_true htwo,Bool.true_and]
  · omega

lemma unit_bind {x : Except Reject Unit} {f : Unit → Except Reject Unit} :
    (x >>= f) = .ok () ↔ x = .ok () ∧ f () = .ok () := by
  rw [Checked.bind_eq_ok]
  exact ⟨fun ⟨_,hx,hf⟩ => ⟨hx,hf⟩,fun ⟨hx,hf⟩ => ⟨(),hx,hf⟩⟩

omit [DecidableEq W] in
/-- A mask that passes the checks may be stored. -/
theorem allowed_of_check (h : checkEventMask L m bits client deviceid maskLen isRoot others = .ok ()) :
    Allowed isRoot client deviceid others (stored (maskLen*4) fun j => m (bits+j)) := by
  unfold checkEventMask at h
  simp only [unit_bind,rejectIf_ok] at h
  obtain ⟨-,hhier,hraw,hevents,-⟩ := h
  obtain rfl | hlen := Nat.eq_zero_or_pos maskLen
  · -- an empty mask selects nothing
    have hnone : (stored (0*4) fun j => m (bits+j)) = fun _ => false := funext fun e => stored_zero e _
    rw [hnone]
    exact ⟨⟨allOrNone_none _,allOrNone_none _,allOrNone_none _,fun _ _ _ => rfl,fun _ => rfl⟩,
      fun _ _ _ _ _ he => nomatch he⟩
  · unfold checkEvents at hevents
    rw [if_pos (show maskLen ≥ 1 from hlen)] at hevents
    simp only [unit_bind] at hevents
    obtain ⟨htouch,hpinch,hswipe,hct,hcp,hcs⟩ := hevents
    have hlow : ∀ e < 32, stored (maskLen*4) (fun j => m (bits+j)) e = m.bitIsOn bits e := fun e he => stored_of_lt hlen he
    refine ⟨⟨?_,?_,swipe_of_check hlen hswipe,?_,?_⟩,?_⟩
    · refine allOrNone_of_check htouch (fun e he => List.mem_append_left _ he) fun e he => hlow e ?_
      revert e
      decide
    · refine allOrNone_of_check hpinch (fun e he => he) fun e he => hlow e ?_
      revert e
      decide
    · intro hroot e he
      have hlt : e < 32 := by
        revert e
        decide
      rw [hlow e hlt]
      by_contra hon
      exact hraw ⟨hroot,hlen,List.any_eq_true.2 ⟨e,he,by simpa using hon⟩⟩
    · intro hdev
      rw [hlow _ (by decide)]
      by_contra hon
      exact hhier ⟨hdev,hlen,by simpa using hon⟩
    · intro o ho hc e he hsel
      simp only [exclusiveEvents,List.mem_cons,List.not_mem_nil,or_false] at he
      obtain rfl | rfl | rfl := he
      · exact free_of_checkConflicts hct (by rwa [hlow _ (by decide)] at hsel) ho hc
      · exact free_of_checkConflicts hcp (by rwa [hlow _ (by decide)] at hsel) ho hc
      · exact free_of_checkConflicts hcs (by rwa [hlow _ (by decide)] at hsel) ho hc

end Checks

section Requests

variable {s s' : Selections W} {client : ℕ} {win : W} {others : List InputClient}

/-- The others' records are those that the masks of a request have been checked against. -/
def Known (client : ℕ) (others l : List InputClient) : Prop := ∀ o ∈ l, o.resource.client ≠ client → o ∈ others

lemma xiSetEventMask_ok {alloc : Allocs} {dev len : ℕ} {mask : ℕ → BitVec 8} {rc : Status}
    (h : xiSetEventMask T alloc s dev win client len mask = .ok (rc,s')) (hs : WellFormed T s)
    (ha : Allowed (T.parent win).isNone client dev others (stored len mask))
    (hk : Known client others (s.clients win)) : WellFormed T s' ∧ Known client others (s'.clients win) := by
  obtain ⟨hne,hwin⟩ := xiSetEventMask_clients h
  -- every shape of the new list is the old one, perhaps with a new record, with the client's mask set
  have hshape : s'.clients win = s.clients win ∨ ∃ l, RecordsOk (T.parent win).isNone l ∧ Known client others l ∧
      s'.clients win = l.map (setOwn client dev len mask) := by
    obtain hsame | hset | ⟨hnot,o,hoc,hom,hnew⟩ := hwin
    · exact Or.inl hsame
    · exact Or.inr ⟨_,hs win,hk,hset.trans (modifyFirst_sameClient (hs win).owners)⟩
    · have hno : ∀ o' ∈ s.clients win, o'.resource.client ≠ client := by
        intro o' ho' hc
        exact List.any_eq_false.1 hnot o' ho' (by simpa [sameClient] using hc)
      refine Or.inr ⟨o :: s.clients win,(hs win).cons hom (by rwa [hoc]),?_,?_⟩
      · intro o' ho' hc
        obtain rfl | ho' := List.mem_cons.1 ho'
        · exact absurd hoc hc
        · exact hk o' ho' hc
      · rw [hnew,List.map_cons,map_setOwn_of_not_any hno,setOwn,if_pos hoc]
  obtain hsame | ⟨l,hl,hkl,hset⟩ := hshape
  · refine ⟨fun v => ?_,by rwa [hsame]⟩
    by_cases hv : v = win
    · rw [hv,hsame]
      exact hs win
    · rw [hne v hv]
      exact hs v
  · constructor
    · intro v
      by_cases hv : v = win
      · rw [hv,hset]
        exact hl.set ha hkl
      · rw [hne v hv]
        exact hs v
    · intro o' ho' hc
      rw [hset] at ho'
      obtain ⟨o,ho,rfl⟩ := List.mem_map.1 ho'
      rw [setOwn_resource] at hc
      rw [setOwn,if_neg hc]
      exact hkl o ho hc

lemma setMasks_ok {bigEndian : Bool} {L : Lookups W} {m : Memory} {reqLen : ℕ} {alloc : ℕ → Allocs} {n evmask len len' : ℕ}
    {rc : Status} (hcheck : checkMasks bigEndian L m client reqLen (T.parent win).isNone others n evmask len = .ok len')
    (hset : setMasks bigEndian T m alloc win client n evmask s = .ok (rc,s')) (hs : WellFormed T s)
    (hk : Known client others (s.clients win)) : WellFormed T s' := by
  induction n generalizing evmask len s with
  | zero =>
    cases hset
    exact hs
  | succ n ih =>
    obtain ⟨-,-,hcheck⟩ := Checked.bind_eq_ok.1 hcheck
    obtain ⟨_,hmask,hcheck⟩ := Checked.bind_eq_ok.1 hcheck
    obtain ⟨⟨rc1,s1⟩,hone,hset⟩ := Checked.bind_eq_ok.1 hset
    obtain ⟨hs1,hk1⟩ := xiSetEventMask_ok hone hs (allowed_of_check hmask) hk
    dsimp only at hset
    split_ifs at hset with hrc
    · cases hset
      exact hs1
    · exact ih hcheck hset hs1 hk1

lemma setMasks_status {bigEndian : Bool} {m : Memory} {alloc : ℕ → Allocs} {n evmask : ℕ} {rc : Status}
    (hset : setMasks bigEndian T m alloc win client n evmask s = .ok (rc,s')) : rc = .success ∨ rc = .badAlloc := by
  induction n generalizing evmask s with
  | zero =>
    cases hset
    exact Or.inl rfl
  | succ n ih =>
    obtain ⟨⟨rc1,s1⟩,-,hset⟩ := Checked.bind_eq_ok.1 hset
    dsimp only at hset
    split_ifs at hset with hrc
    · cases hset
      exact Or.inr rfl
    · exact ih hset

omit [DecidableEq W] in
lemma validateRequest_ok {bigEndian : Bool} {L : Lookups W} {r : Request} {n : ℕ} {m : Memory}
    (h : validateRequest bigEndian T L s r = .ok (some (win,n,m))) : ∃ len,
    checkMasks bigEndian L m r.client r.reqLen (T.parent win).isNone (s.clients win) n szXISelectEventsReq
      szXISelectEventsReq = .ok len := by
  unfold validateRequest at h
  obtain ⟨-,-,h⟩ := Checked.bind_eq_ok.1 h
  obtain ⟨m',-,h⟩ := Checked.bind_eq_ok.1 h
  obtain ⟨-,-,h⟩ := Checked.bind_eq_ok.1 h
  split at h
  · cases h
  · cases h
  · obtain ⟨len,hlen,h⟩ := Checked.bind_eq_ok.1 h
    obtain ⟨-,-,h⟩ := Checked.bind_eq_ok.1 h
    cases h
    exact ⟨len,hlen⟩

lemma procXISelectEvents_unchanged {bigEndian : Bool} {L : Lookups W} {alloc : ℕ → Allocs} {r : Request} {rc : Status}
    {e : Option ℕ} (h : procXISelectEvents bigEndian T L alloc s r = .ok (rc,e,s')) (hrc : rc ≠ .success)
    (halloc : rc ≠ .badAlloc) : s' = s := by
  unfold procXISelectEvents at h
  split at h
  · cases h
    rfl
  · cases h
    rfl
  · obtain ⟨⟨rc1,s1⟩,hset,h⟩ := Checked.bind_eq_ok.1 h
    cases h
    exact absurd (setMasks_status hset) (by simp [hrc,halloc])

lemma procXISelectEvents_ok {bigEndian : Bool} {L : Lookups W} {alloc : ℕ → Allocs} {r : Request} {rc : Status}
    {e : Option ℕ} (h : procXISelectEvents bigEndian T L alloc s r = .ok (rc,e,s')) (hs : WellFormed T s) :
    WellFormed T s' := by
  unfold procXISelectEvents at h
  split at h
  · cases h
    exact hs
  · cases h
    exact hs
  · next win n m hval =>
    obtain ⟨⟨rc1,s1⟩,hset,h⟩ := Checked.bind_eq_ok.1 h
    cases h
    obtain ⟨len,hcheck⟩ := validateRequest_ok hval
    exact setMasks_ok hcheck hset hs fun o ho _ => ho

end Requests

omit [DecidableEq W] in
lemma wellFormed_start (fakeID : ℕ → ℕ) : WellFormed T ⟨fun _ => none,fakeID⟩ :=
  fun _ => ⟨List.Pairwise.nil,fun _ ho => (nomatch ho),fun _ ha => (nomatch ha)⟩

/-- In any server, whatever requests of XISelectEvents its clients make: an answer with an error other than BadAlloc
leaves every mask as it is, and the selections are well formed. -/
theorem xiSelectEvents_wellFormed {bigEndian : Bool} {s : Selections W} (h : Reach bigEndian T s) :
    WellFormed T s ∧
    ∀ (L : Lookups W) (alloc : ℕ → Allocs) (r : Request) (rc : Status) (e : Option ℕ) (s' : Selections W),
      procXISelectEvents bigEndian T L alloc s r = .ok (rc,e,s') → rc ≠ .success → rc ≠ .badAlloc → s' = s := by
  refine ⟨?_,fun L alloc r rc e s' hproc => procXISelectEvents_unchanged hproc⟩
  induction h with
  | start fakeID => exact wellFormed_start fakeID
  | request _ hproc ih => exact procXISelectEvents_ok hproc ih

end Windows

def touchRequest (client : ℕ) : Request where
  client := client
  swapped := false
  reqLen := 5
  bytes i := [0x8C#8,46#8,5#8,0#8,1#8,0#8,0#8,0#8,1#8,0#8,0#8,0#8,2#8,0#8,1#8,0#8,0#8,0#8,0x1C#8,0#8].getD i 0

def everyDevice : Lookups Unit := ⟨fun _ => .ok (),fun _ => .success,fun _ => true⟩

set_option maxRecDepth 20000 in
/-- One client selects touch events; the next that asks for them is refused. -/
theorem xiSelectEvents_wellFormed_touch :
    ∃ s, Reach false rootWindow s ∧ (s.clients ()).map (·.xi2mask.isSet 2 xiTouchBegin) = [true] ∧
      WellFormed rootWindow s ∧
      procXISelectEvents false rootWindow everyDevice (fun _ => .all) s (touchRequest 2) = .ok (.badAccess,none,s) := by
  have hfirst : ∃ s, procXISelectEvents false rootWindow everyDevice (fun _ => .all) ⟨fun _ => none,fun _ => 0⟩
      (touchRequest 1) = .ok (.success,none,s) ∧ (s.clients ()).map (·.xi2mask.isSet 2 xiTouchBegin) = [true] ∧
      validateRequest false rootWindow everyDevice s (touchRequest 2) = .error ⟨.badAccess,none⟩ :=
    ⟨_,rfl,rfl,rfl⟩
  obtain ⟨s,hproc,hset,hval⟩ := hfirst
  have hreach : Reach false rootWindow s := (Reach.start _).request hproc
  have hsecond : procXISelectEvents false rootWindow everyDevice (fun _ => .all) s (touchRequest 2) =
      .ok (.badAccess,none,s) := by
    unfold procXISelectEvents
    rw [hval]
  exact ⟨s,hreach,hset,(xiSelectEvents_wellFormed hreach).1,hsecond⟩

end Xlibre.Xinput
