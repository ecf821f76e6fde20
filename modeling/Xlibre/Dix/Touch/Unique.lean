import Xlibre.Dix.Touch.Queue

/-! Active touch points are unique, whatever begins, ends and is resized. -/
namespace Xlibre.Dix.Touch

variable {s s' : Server} {σ σ' : Session} {dev i j : ℕ} {ddxId : BitVec 32} {p q ti : DDXTouchPointInfo}
  {l l' : List DDXTouchPointInfo} {emulate alloc : Bool}

def Active (s : Server) (dev i : ℕ) (p : DDXTouchPointInfo) : Prop :=
  (s.device dev).touches[i]? = some p ∧ p.active = true

/-- No two active touch points of a device have one id, and one of them at most emulates the pointer. -/
structure Unique (s : Server) : Prop where
  ddxId : ∀ dev i j p q, Active s dev i p → Active s dev j q → p.ddxId = q.ddxId → i = j
  emulate : ∀ dev i j p q, Active s dev i p → Active s dev j q → p.emulatePointer = true → q.emulatePointer = true → i = j

def DistinctClients (s : Server) : Prop := ∀ dev i p dev' j q, Active s dev i p → Active s dev' j q →
  p.clientId = q.clientId → dev = dev' ∧ i = j

structure Counted (σ : Session) : Prop where
  next : σ.server.nextClientId.toNat = if σ.begun + 1 < 2^32 then σ.begun + 1 else 1
  used : ∀ dev i p, Active σ.server dev i p → 1 ≤ p.clientId.toNat ∧ p.clientId.toNat ≤ σ.begun
  distinct : DistinctClients σ.server

structure Valid (σ : Session) : Prop where
  unique : Unique σ.server
  counted : σ.begun < 2^32 → Counted σ

/-- Nothing becomes active. -/
structure Fewer (s s' : Server) : Prop where
  active : ∀ dev i p, Active s' dev i p → Active s dev i p
  next : s'.nextClientId = s.nextClientId

/-- One touch point becomes active. -/
structure Begins (s s' : Server) (dev i : ℕ) (ddxId : BitVec 32) : Prop where
  free : ∀ p, ¬Active s dev i p
  fresh : ∀ j q, Active s dev j q → q.ddxId ≠ ddxId
  others : ∀ dev' j p, ¬(dev' = dev ∧ j = i) → Active s' dev' j p → Active s dev' j p
  own : ∀ p, Active s' dev i p → p.ddxId = ddxId ∧ p.clientId = s.nextClientId ∧
    (p.emulatePointer = true → ∀ j q, ¬Active s dev j q)
  next : s'.nextClientId = if s.nextClientId + 1 = 0 then 1 else s.nextClientId + 1

lemma Fewer.refl : Fewer s s := ⟨fun _ _ _ h => h,rfl⟩

lemma Valid.fewer (hv : Valid σ) (h : Fewer σ.server s') : Valid ⟨s',σ.begun⟩ := by
  refine ⟨⟨fun dev i j p q hp hq => ?_,fun dev i j p q hp hq => ?_⟩,fun hsmall => ?_⟩
  · exact hv.unique.ddxId dev i j p q (h.active _ _ _ hp) (h.active _ _ _ hq)
  · exact hv.unique.emulate dev i j p q (h.active _ _ _ hp) (h.active _ _ _ hq)
  · obtain ⟨hnext,hused,hdistinct⟩ := hv.counted hsmall
    refine ⟨by rw [h.next]; exact hnext,fun dev i p hp => hused dev i p (h.active _ _ _ hp),?_⟩
    exact fun dev i p dev' j q hp hq => hdistinct dev i p dev' j q (h.active _ _ _ hp) (h.active _ _ _ hq)

lemma toNat_next {c : BitVec 32} {n : ℕ} (hc : c.toNat = n) (hpos : 0 < n) :
    (if c + 1 = 0 then 1 else c + 1).toNat = if n + 1 < 2^32 then n + 1 else 1 := by
  have hlt := c.isLt
  split_ifs with hzero hsmall hsmall
  · have := congrArg BitVec.toNat hzero
    rw [BitVec.toNat_add] at this
    simp at this
    omega
  · rfl
  · rw [BitVec.toNat_add,hc]
    exact Nat.mod_eq_of_lt hsmall
  · refine absurd ?_ hzero
    apply BitVec.eq_of_toNat_eq
    rw [BitVec.toNat_add,hc]
    simp
    omega

lemma Valid.begins (hv : Valid σ) (h : Begins σ.server s' dev i ddxId) : Valid ⟨s',σ.begun + 1⟩ := by
  have hold : ∀ {dev' j p}, Active s' dev' j p → Active σ.server dev' j p ∨ dev' = dev ∧ j = i := by
    intro dev' j p hp
    by_cases hown : dev' = dev ∧ j = i
    · exact .inr hown
    · exact .inl (h.others dev' j p hown hp)
  refine ⟨⟨fun dev' j k p q hp hq heq => ?_,fun dev' j k p q hp hq he he' => ?_⟩,fun hsmall => ?_⟩
  · obtain hp' | ⟨rfl,rfl⟩ := hold hp <;> obtain hq' | ⟨hdev,hk⟩ := hold hq
    · exact hv.unique.ddxId dev' j k p q hp' hq' heq
    · subst hdev hk
      exact absurd (heq.trans (h.own q hq).1) (h.fresh j p hp')
    · exact absurd (heq.symm.trans (h.own p hp).1) (h.fresh k q hq')
    · exact hk.symm
  · obtain hp' | ⟨rfl,rfl⟩ := hold hp <;> obtain hq' | ⟨hdev,hk⟩ := hold hq
    · exact hv.unique.emulate dev' j k p q hp' hq' he he'
    · subst hdev hk
      exact absurd hp' ((h.own q hq).2.2 he' j p)
    · exact absurd hq' ((h.own p hp).2.2 he k q)
    · exact hk.symm
  · dsimp only at hsmall ⊢
    obtain ⟨hnext,hused,hdistinct⟩ := hv.counted (by omega)
    rw [if_pos hsmall] at hnext
    have hown : ∀ p, Active s' dev i p → p.clientId.toNat = σ.begun + 1 := by
      intro p hp
      rw [(h.own p hp).2.1,hnext]
    refine ⟨?_,fun dev' j p hp => ?_,fun dev' j p dev'' k q hp hq heq => ?_⟩
    · rw [h.next]
      exact toNat_next hnext (Nat.succ_pos _)
    · obtain hp' | ⟨rfl,rfl⟩ := hold hp
      · have := hused dev' j p hp'
        exact ⟨this.1,Nat.le_succ_of_le this.2⟩
      · rw [hown p hp]
        exact ⟨Nat.succ_pos _,le_rfl⟩
    · obtain hp' | ⟨rfl,rfl⟩ := hold hp <;> obtain hq' | ⟨hdev,hk⟩ := hold hq
      · exact hdistinct dev' j p dev'' k q hp' hq' heq
      · subst hdev hk
        have hle := (hused dev' j p hp').2
        rw [heq,hown q hq] at hle
        omega
      · have hle := (hused dev'' k q hq').2
        rw [← heq,hown p hp] at hle
        omega
      · exact ⟨hdev.symm,hk.symm⟩

lemma scan_spec {tp : Option ℕ} (n : ℕ) (l : List DDXTouchPointInfo) :
    ((scan emulate tp n l).1 = true → emulate = true ∧ ∀ p ∈ l, p.active = false) ∧
      (∀ k, (scan emulate tp n l).2 = some k → tp = some k ∨ ∃ j p, k = n + j ∧ l[j]? = some p ∧ p.active = false) ∧
      ((scan emulate tp n l).2 = none → tp = none ∧ ∀ p ∈ l, p.active = true) := by
  induction l generalizing emulate tp n with
  | nil => exact ⟨fun h => ⟨h,fun p hp => (nomatch hp)⟩,fun k hk => .inl hk,fun h => ⟨h,fun p hp => (nomatch hp)⟩⟩
  | cons q l ih =>
    -- what is known of the rest is known of all of it
    have hlater : ∀ {k}, (∃ j p, k = n + 1 + j ∧ l[j]? = some p ∧ p.active = false) →
        ∃ j p, k = n + j ∧ (q::l)[j]? = some p ∧ p.active = false := by
      rintro k ⟨j,p,rfl,hj,hp⟩
      exact ⟨j+1,p,by omega,hj,hp⟩
    unfold scan
    cases hq : q.active with
    | true =>
      dsimp only
      rw [if_pos rfl,if_pos rfl]
      obtain ⟨htrue,hsome,hnone⟩ := @ih false tp (n + 1)
      by_cases hstop : (!false && tp.isSome) = true
      · rw [if_pos hstop]
        refine ⟨fun h => (nomatch h),fun k hk => .inl hk,fun hno => ?_⟩
        rw [show tp = none from hno] at hstop
        cases hstop
      · rw [if_neg hstop]
        refine ⟨fun h => absurd (htrue h).1 Bool.false_ne_true,fun k hk => (hsome k hk).imp_right hlater,
          fun h => ⟨(hnone h).1,List.forall_mem_cons.2 ⟨hq,(hnone h).2⟩⟩⟩
    | false =>
      dsimp only
      rw [if_neg Bool.false_ne_true,if_neg Bool.false_ne_true]
      obtain ⟨tp',htp,hfound,hfirst⟩ : ∃ tp', (if tp = none then some n else tp) = tp' ∧ tp' ≠ none ∧
          ∀ k, tp' = some k → tp = some k ∨ ∃ j p, k = n + j ∧ (q::l)[j]? = some p ∧ p.active = false := by
        split_ifs with hno
        · exact ⟨_,rfl,Option.some_ne_none n,fun k hk => .inr ⟨0,q,(Option.some.inj hk).symm,rfl,hq⟩⟩
        · exact ⟨_,rfl,hno,fun k hk => .inl hk⟩
      rw [htp]
      obtain ⟨htrue,hsome,hnone⟩ := @ih emulate tp' (n + 1)
      by_cases hstop : (!emulate && tp'.isSome) = true
      · rw [if_pos hstop]
        refine ⟨fun h => ?_,hfirst,fun hno => absurd hno hfound⟩
        rw [show emulate = true from h] at hstop
        cases hstop
      · rw [if_neg hstop]
        refine ⟨fun h => ⟨(htrue h).1,List.forall_mem_cons.2 ⟨hq,(htrue h).2⟩⟩,fun k hk => ?_,
          fun h => absurd (hnone h).1 hfound⟩
        obtain hk | hk := hsome k hk
        · exact hfirst k hk
        · exact .inr (hlater hk)

/-- A queue that has become longer: nothing in it has changed or is active that was not. -/
structure Grown (l l' : List DDXTouchPointInfo) : Prop where
  active : ∀ (i : ℕ) (p : DDXTouchPointInfo), l'[i]? = some p → p.active = true → l[i]? = some p
  kept : ∀ (i : ℕ) (p : DDXTouchPointInfo), l[i]? = some p → l'[i]? = some p

lemma Grown.refl : Grown l l := ⟨fun _ _ h _ => h,fun _ _ h => h⟩

lemma resizeQueue_grown (h : resizeQueue alloc l = some l') : Grown l l' ∧ ∃ p ∈ l', p.active = false := by
  unfold resizeQueue at h
  dsimp only at h
  split_ifs at h
  obtain rfl := Option.some.inj h
  refine ⟨⟨fun i p hi hp => ?_,fun i p hi => ?_⟩,initDDXTouchPoint,List.mem_append_right _ ?_,rfl⟩
  · obtain hlt | hle := Nat.lt_or_ge i l.length
    · rwa [List.getElem?_append_left hlt] at hi
    · rw [List.getElem?_append_right hle] at hi
      rw [(List.mem_replicate.1 (List.mem_of_getElem? hi)).2] at hp
      cases hp
  · obtain ⟨hlt,-⟩ := List.getElem?_eq_some_iff.1 hi
    rwa [List.getElem?_append_left hlt]
  · exact List.mem_replicate.2 ⟨by omega,rfl⟩

structure Searched (l : List DDXTouchPointInfo) (e : Bool) (ti : Option ℕ) (l' : List DDXTouchPointInfo) : Prop where
  grown : Grown l l'
  free : ∀ k, ti = some k → ∃ p, l'[k]? = some p ∧ p.active = false
  emulate : e = true → ∀ p ∈ l', p.active = false

lemma searched_scan (h : Grown l l') {k : ℕ} (hk : (scan emulate none 0 l').2 = some k) :
    Searched l (scan emulate none 0 l').1 (some k) l' := by
  obtain ⟨htrue,hsome,-⟩ := @scan_spec emulate none 0 l'
  refine ⟨h,fun i hi => ?_,fun he => (htrue he).2⟩
  obtain rfl := Option.some.inj hi
  obtain hno | ⟨j,p,rfl,hp,hactive⟩ := hsome k hk
  · cases hno
  · exact ⟨p,by rwa [Nat.zero_add],hactive⟩

lemma search_searched (alloc emulate : Bool) (l : List DDXTouchPointInfo) :
    ∃ e ti l', search alloc 2 emulate l = some (e,ti,l') ∧ Searched l e ti l' := by
  unfold search
  dsimp only
  cases hfound : (scan emulate none 0 l).2 with
  | some k =>
    exact ⟨_,_,_,if_pos rfl,searched_scan .refl hfound⟩
  | none =>
    rw [if_neg (by decide)]
    cases hresize : resizeQueue alloc l with
    | none =>
      exact ⟨_,none,l,rfl,.refl,fun k hk => (nomatch hk),fun he => ((@scan_spec emulate none 0 l).1 he).2⟩
    | some l' =>
      obtain ⟨hgrown,p,hp,hfree⟩ := resizeQueue_grown hresize
      unfold search
      dsimp only
      cases hagain : (scan (scan emulate none 0 l).1 none 0 l').2 with
      | some k =>
        exact ⟨_,_,_,if_pos rfl,searched_scan hgrown hagain⟩
      | none =>
        have hall := ((@scan_spec (scan emulate none 0 l).1 none 0 l').2.2 hagain).2 p hp
        rw [hfree] at hall
        cases hall

@[simp] lemma set_self (d : Device) : (s.set dev d).device dev = d := Function.update_self _ _ _

lemma set_ne {dev' : ℕ} (d : Device) (h : dev' ≠ dev) : (s.set dev d).device dev' = s.device dev' :=
  Function.update_of_ne h _ _

lemma fewer_set {d : Device} (h : ∀ (i : ℕ) (p : DDXTouchPointInfo), d.touches[i]? = some p → p.active = true → (s.device dev).touches[i]? = some p) :
    Fewer s (s.set dev d) := by
  refine ⟨fun dev' i p hp => ?_,rfl⟩
  obtain ⟨hi,hactive⟩ := hp
  by_cases hdev : dev' = dev
  · subst hdev
    rw [set_self] at hi
    exact ⟨h i p hi hactive,hactive⟩
  · rw [set_ne d hdev] at hi
    exact ⟨hi,hactive⟩

/-- A call that returns a new touch point, or none. -/
def Outcome (s : Server) (dev : ℕ) (ddxId : BitVec 32) : Option ℕ × Server → Prop
  | (none,s') => Fewer s s'
  | (some i,s') => Begins s s' dev i ddxId

theorem touchBeginDDXTouch_outcome (emulate alloc : Bool) (s : Server) (dev : ℕ) (ddxId : BitVec 32) :
    ∃ r, s.touchBeginDDXTouch emulate alloc dev ddxId = some r ∧ Outcome s dev ddxId r := by
  unfold Server.touchBeginDDXTouch
  cases htouch : (s.device dev).touch with
  | none => exact ⟨(none,s),by dsimp only; rw [htouch],Fewer.refl⟩
  | some mode =>
    dsimp only
    rw [htouch]
    cases hfind : findDDXID (s.device dev).touches ddxId with
    | some i => exact ⟨(none,s),if_pos rfl,Fewer.refl⟩
    | none =>
      dsimp only
      rw [if_neg (show ¬(none : Option ℕ).isSome = true by decide)]
      obtain ⟨e,ti,l',hsearch,hs⟩ := search_searched alloc (emulate && mode == .directTouch) (s.device dev).touches
      rw [hsearch]
      cases ti with
      | none => exact ⟨_,rfl,fewer_set hs.grown.active⟩
      | some i =>
        refine ⟨_,rfl,?_⟩
        obtain ⟨p,hp,hfree⟩ := hs.free i rfl
        obtain ⟨hlt,-⟩ := List.getElem?_eq_some_iff.1 hp
        refine ⟨fun q hq => ?_,fun j q hq heq => ?_,fun dev' j q hne hq => ?_,fun q hq => ?_,rfl⟩
        · -- the place was free before
          have hsame := hs.grown.kept i q hq.1
          rw [hp] at hsame
          obtain rfl := Option.some.inj hsame
          exact Bool.false_ne_true (hfree.symm.trans hq.2)
        · have hnone := List.findIdx?_eq_none_iff.1 hfind q (List.mem_of_getElem? hq.1)
          simp [hq.2,heq] at hnone
        · obtain ⟨hj,hactive⟩ := hq
          by_cases hdev : dev' = dev
          · subst hdev
            have hij : i ≠ j := fun h => hne ⟨rfl,h.symm⟩
            change ((s.set dev' _).device dev').touches[j]? = some q at hj
            rw [set_self] at hj
            dsimp only at hj
            rw [List.getElem?_set_ne hij] at hj
            exact ⟨hs.grown.active j q hj hactive,hactive⟩
          · change ((s.set dev _).device dev').touches[j]? = some q at hj
            rw [set_ne _ hdev] at hj
            exact ⟨hj,hactive⟩
        · obtain ⟨hi,-⟩ := hq
          change ((s.set dev _).device dev).touches[i]? = some q at hi
          rw [set_self] at hi
          dsimp only at hi
          rw [List.getElem?_set_self hlt] at hi
          obtain rfl := Option.some.inj hi
          refine ⟨rfl,rfl,fun he j r hr => ?_⟩
          have hidle := hs.emulate he r (List.mem_of_getElem? (hs.grown.kept j r hr.1))
          exact Bool.false_ne_true (hidle.symm.trans hr.2)

theorem call_valid (call : Call) (hv : Valid σ) : ∃ σ', σ.call call = some σ' ∧ Valid σ' := by
  cases call with
  | init dev maxTouches mode =>
    refine ⟨_,rfl,hv.fewer ?_⟩
    unfold Server.initTouchClass
    split_ifs
    · exact .refl
    all_goals
      refine fewer_set fun i p hi hactive => ?_
      rw [(List.mem_replicate.1 (List.mem_of_getElem? hi)).2] at hactive
      cases hactive
  | remove dev => exact ⟨_,rfl,hv.fewer (fewer_set fun i p hi _ => (nomatch hi))⟩
  | begin dev ddxId emulate alloc =>
    obtain ⟨⟨ti,s'⟩,hbegin,ho⟩ := touchBeginDDXTouch_outcome emulate alloc σ.server dev ddxId
    unfold Session.call
    dsimp only
    rw [hbegin]
    cases ti with
    | none => exact ⟨_,rfl,hv.fewer ho⟩
    | some i => exact ⟨_,rfl,hv.begins ho⟩
  | find dev ddxId create emulate alloc =>
    unfold Session.call Server.touchFindByDDXID
    dsimp only
    by_cases htouch : (σ.server.device dev).touch = none
    · rw [if_pos htouch]
      exact ⟨_,rfl,hv⟩
    rw [if_neg htouch]
    cases hfind : findDDXID (σ.server.device dev).touches ddxId with
    | some i => exact ⟨_,rfl,hv⟩
    | none =>
      cases create with
      | false => exact ⟨_,rfl,hv⟩
      | true =>
        obtain ⟨⟨ti,s'⟩,hbegin,ho⟩ := touchBeginDDXTouch_outcome emulate alloc σ.server dev ddxId
        dsimp only
        rw [if_pos rfl,hbegin]
        cases ti with
        | none => exact ⟨_,rfl,hv.fewer ho⟩
        | some i => exact ⟨_,rfl,hv.begins ho⟩
  | finish dev i =>
    refine ⟨_,rfl,hv.fewer ?_⟩
    unfold Server.touchEndDDXTouch
    dsimp only
    split_ifs
    · exact .refl
    · refine fewer_set fun j p hj hactive => ?_
      rw [List.getElem?_modify] at hj
      obtain ⟨q,hq,rfl⟩ := Option.map_eq_some_iff.1 hj
      split_ifs at hactive ⊢
      exact hq
  | resize dev alloc =>
    refine ⟨_,rfl,hv.fewer (fewer_set fun i p hi hactive => ?_)⟩
    dsimp only at hi
    cases hresize : resizeQueue alloc (σ.server.device dev).touches with
    | none =>
      rw [hresize] at hi
      exact hi
    | some l' =>
      rw [hresize] at hi
      exact (resizeQueue_grown hresize).1.active i p hi hactive

lemma initial_valid : Valid ⟨.initial,0⟩ := by
  have hnone : ∀ dev i p, ¬Active Server.initial dev i p := fun dev i p hp => (nomatch hp.1)
  refine ⟨⟨fun dev i j p q hp => absurd hp (hnone _ _ _),fun dev i j p q hp => absurd hp (hnone _ _ _)⟩,fun _ => ?_⟩
  exact ⟨by decide,fun dev i p hp => absurd hp (hnone _ _ _),fun dev i p dev' j q hp => absurd hp (hnone _ _ _)⟩

lemma run_valid (calls : List Call) (hv : Valid σ) : ∃ σ', σ.run calls = some σ' ∧ Valid σ' := by
  induction calls generalizing σ with
  | nil => exact ⟨σ,rfl,hv⟩
  | cons call calls ih =>
    obtain ⟨σ1,hcall,hv1⟩ := call_valid call hv
    obtain ⟨σ',hrun,hv'⟩ := ih hv1
    refine ⟨σ',?_,hv'⟩
    unfold Session.run
    rw [List.foldlM_cons,hcall]
    exact hrun

/-- Every run returns, with active touch points that are unique and, while fewer than 2^32 touches have begun, have
distinct client ids, over all devices. -/
theorem run_unique (calls : List Call) : ∃ σ, Session.run ⟨.initial,0⟩ calls = some σ ∧ Unique σ.server ∧
    (σ.begun < 2^32 → DistinctClients σ.server) := by
  obtain ⟨σ,hrun,hv⟩ := run_valid calls initial_valid
  exact ⟨σ,hrun,hv.unique,fun hsmall => (hv.counted hsmall).distinct⟩

end Xlibre.Dix.Touch
