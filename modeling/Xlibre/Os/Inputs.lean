import Xlibre.Os.Reads

/-! The clients' buffers, whoever has them: what a client has yet to consume. -/
namespace Xlibre.Os.Input
open Xlibre.Lib Checked

lemma moveUp_keeps {oci : ConnectionInput} {gotnow count : ℕ} (hplace : oci.bufptr + gotnow = oci.bufcnt)
    (hwithin : oci.bufcnt ≤ oci.size) (hroom : gotnow + count ≤ oci.size) (hlast : oci.lenLastReq = 0) :
    let oci' := oci.moveUp gotnow count
    count ≤ oci'.bufptr ∧ oci'.bufptr + gotnow = oci'.bufcnt ∧ oci'.bufcnt ≤ oci'.size ∧ oci'.size = oci.size ∧
      oci'.lenLastReq = 0 ∧ oci'.ignoreBytes = oci.ignoreBytes ∧
      slice oci'.buffer oci'.bufptr gotnow = slice oci.buffer oci.bufptr gotnow := by
  unfold ConnectionInput.moveUp
  by_cases hup : oci.bufptr < count
  · rw [if_pos hup]
    refine ⟨le_rfl,?_,?_,rfl,hlast,rfl,?_⟩
    · change count + gotnow = oci.bufcnt + (count - oci.bufptr)
      omega
    · change oci.bufcnt + (count - oci.bufptr) ≤ oci.size
      omega
    · dsimp only
      by_cases hzero : gotnow = 0
      · rw [hzero]
        rfl
      · rw [if_pos (by omega),Int.toNat_natCast]
        have hstore := slice_store (m := oci.buffer) (a := count) (l := slice oci.buffer oci.bufptr gotnow)
        rwa [length_slice] at hstore
  · rw [if_neg hup]
    exact ⟨Nat.le_of_not_lt hup,hplace,hwithin,rfl,hlast,rfl,rfl⟩

lemma insert_pending {oci : ConnectionInput} {data : List Byte} (realloc : Bool) (h : oci.Ok)
    (hsmall : oci.pending.length + data.length < 2^31) : ∃ ok oci', oci.insert data realloc = .ok (ok,oci') ∧ oci'.Ok ∧
      oci'.ignoreBytes = oci.ignoreBytes ∧ oci'.pending = (if ok then data else []) ++ oci.pending := by
  obtain ⟨hplace,hwithin,hpos,hsize⟩ := h
  rw [ConnectionInput.pending,length_slice] at hsmall
  set p := oci.bufptr + oci.lenLastReq with hp
  obtain ⟨n,hn⟩ := Nat.exists_eq_add_of_le hplace
  have hgot : ((oci.bufcnt : ℤ) - (p : ℕ)) = (n : ℤ) := by omega
  have hpending : oci.pending = slice oci.buffer p n := by
    rw [ConnectionInput.pending,← hp,hn,Nat.add_sub_cancel_left]
  unfold ConnectionInput.insert
  dsimp only
  rw [← hp,hgot,if_neg (by omega)]
  by_cases hfail : (n : ℤ) + data.length > oci.size ∧ realloc = false
  · rw [if_pos hfail]
    refine ⟨_,_,rfl,⟨hplace,hwithin,hpos,hsize⟩,rfl,?_⟩
    rw [hpending,ConnectionInput.pending]
    dsimp only
    rw [Nat.add_zero,hn,Nat.add_sub_cancel_left]
    rfl
  rw [if_neg hfail]
  -- the buffer with its lengths and with room for the bytes
  obtain ⟨o,ho,hbuffer,hptr,hcnt,hlast,hign,hbig,hroom,hosize⟩ : ∃ o : ConnectionInput,
      (if (n : ℤ) + data.length > oci.size then
        { oci with bufptr := p, lenLastReq := 0, size := ((n : ℤ) + data.length).toNat }
      else { oci with bufptr := p, lenLastReq := 0 }) = o ∧ o.buffer = oci.buffer ∧ o.bufptr = p ∧
      o.bufcnt = oci.bufcnt ∧ o.lenLastReq = 0 ∧ o.ignoreBytes = oci.ignoreBytes ∧ oci.size ≤ o.size ∧
      n + data.length ≤ o.size ∧ o.size < 2^31 := by
    split_ifs with hgrow
    · refine ⟨_,rfl,rfl,rfl,rfl,rfl,rfl,?_,?_,?_⟩ <;> dsimp only <;> omega
    · refine ⟨_,rfl,rfl,rfl,rfl,rfl,rfl,le_rfl,?_,hsize⟩
      change n + data.length ≤ oci.size
      omega
  rw [ho]
  obtain ⟨hcount,hplace',hwithin',hsize',hlast',hign',hdata⟩ := moveUp_keeps (hptr ▸ hcnt ▸ hn.symm : o.bufptr + n = o.bufcnt)
    (by omega) hroom hlast
  generalize o.moveUp n data.length = u at hcount hplace' hwithin' hsize' hlast' hign' hdata
  refine ⟨_,_,rfl,⟨?_,hwithin',?_,?_⟩,hign'.trans hign,?_⟩
  · change u.bufptr - data.length + u.lenLastReq ≤ u.bufcnt
    omega
  · change 0 < u.size
    omega
  · change u.size < 2^31
    omega
  · have hcells : u.bufcnt - (u.bufptr - data.length + u.lenLastReq) = data.length + n := by omega
    have hback : u.bufptr - data.length + data.length = u.bufptr := by omega
    rw [ConnectionInput.pending]
    dsimp only
    rw [hcells,hlast',Nat.add_zero,slice_add,slice_store,slice_store_after le_rfl,hback,hdata,hbuffer,hptr,hpending]
    rfl

namespace Client

def ignoring (c : Client) : ℕ := c.input.elim 0 ConnectionInput.ignoreBytes

def pending (c : Client) : List Byte := c.input.elim [] ConnectionInput.pending

/-- All that is not consumed. -/
def source (c : Client) : Source := ⟨c.swapped,c.bigRequests,(c.pending ++ c.stream).drop c.ignoring⟩

/-- What has come of it. -/
def buffered (c : Client) : Source := ⟨c.swapped,c.bigRequests,c.pending⟩

def returned (c : Client) : List Byte :=
  c.input.elim [] fun oci => slice oci.buffer c.requestBuffer (max 4 (4*c.reqLen))

end Client

structure SaneBut (s : Server) (who : ℕ) : Prop where
  inputs : ∀ c oci, c ≠ who → (s.client c).input = some oci → oci.Ok
  own : ∀ oci, (s.client who).input = some oci → 0 < oci.size ∧ oci.size < 2^31
  free : ∀ oci ∈ s.freeInputs, oci.Ok ∧ oci.Empty
  available : ∀ c, c ≠ who → s.availableInput = some c → ∃ oci, (s.client c).input = some oci ∧ oci.Empty

structure Sane (s : Server) : Prop where
  inputs : ∀ c oci, (s.client c).input = some oci → oci.Ok
  free : ∀ oci ∈ s.freeInputs, oci.Ok ∧ oci.Empty
  available : ∀ c, s.availableInput = some c → ∃ oci, (s.client c).input = some oci ∧ oci.Empty

variable {s s' : Server} {who c : ℕ} {oci : ConnectionInput}

lemma Sane.but (h : Sane s) (who : ℕ) : SaneBut s who :=
  ⟨fun c oci _ hin => h.inputs c oci hin,fun oci hin => ⟨(h.inputs who oci hin).positive,(h.inputs who oci hin).small⟩,
    h.free,fun c _ hav => h.available c hav⟩

lemma ConnectionInput.Empty.pending (h : oci.Empty) : oci.pending = [] := by
  rw [ConnectionInput.pending,h.1,Nat.sub_self,slice_zero]

@[simp] lemma set_self (c' : Client) : (s.set who c').client who = c' := Function.update_self _ _ _

lemma set_ne (c' : Client) (hc : c ≠ who) : (s.set who c').client c = s.client c := Function.update_of_ne hc _ _

structure Handed (s s' : Server) : Prop where
  sane : Sane s'
  available : s'.availableInput = none
  sources : ∀ c, (s'.client c).source = (s.client c).source

lemma nextAvailableInput_handed (hs : Sane s) (who : ℕ) :
    ∃ s', s.nextAvailableInput who = .ok s' ∧ Handed s s' ∧ s'.client who = s.client who := by
  unfold Server.nextAvailableInput
  cases hav : s.availableInput with
  | none => exact ⟨s,rfl,⟨hs,hav,fun _ => rfl⟩,rfl⟩
  | some oc =>
    dsimp only
    by_cases hwho : oc = who
    · rw [if_pos hwho]
      exact ⟨_,rfl,⟨⟨hs.inputs,hs.free,fun c h => (nomatch h)⟩,rfl,fun _ => rfl⟩,rfl⟩
    rw [if_neg hwho]
    obtain ⟨aci,hin,hempty⟩ := hs.available oc hav
    rw [hin]
    have hother : ∀ c, c ≠ oc → (s.set oc { s.client oc with input := none }).client c = s.client c :=
      fun c hc => set_ne _ hc
    refine ⟨_,rfl,⟨⟨fun c oci hoci => ?_,fun oci hoci => ?_,fun c h => (nomatch h)⟩,rfl,fun c => ?_⟩,hother who (Ne.symm hwho)⟩
    · by_cases hc : c = oc
      · subst hc
        change ((s.set c _).client c).input = some oci at hoci
        rw [set_self] at hoci
        cases hoci
      · exact hs.inputs c oci (by rw [← hother c hc]; exact hoci)
    · dsimp only at hoci
      split_ifs at hoci with hbig
      · exact hs.free oci hoci
      · obtain rfl | hfree := List.mem_cons.1 hoci
        · exact ⟨hs.inputs oc oci hin,hempty⟩
        · exact hs.free oci hfree
    · by_cases hc : c = oc
      · subst hc
        change ((s.set c _).client c).source = _
        rw [set_self]
        simp [Client.source,Client.pending,Client.ignoring,hin,hempty.pending,hempty.2]
      · exact congrArg Client.source (hother c hc)

/-- What having a buffer does: the client's own one is kept, and another one is empty. -/
structure HasInput (s s' : Server) (who : ℕ) (oci : ConnectionInput) : Prop where
  handed : Handed s s'
  input : (s'.client who).input = some oci
  ignoring : oci.ignoreBytes = (s.client who).ignoring
  pending : oci.pending = (s.client who).pending
  old : (s.client who).input = some oci ∨ oci.ignoreBytes = 0

lemma hasInput_empty (hs : Sane s) (hav : s.availableInput = none) (hin : (s.client who).input = none) (hok : oci.Ok)
    (hempty : oci.Empty) : HasInput s (s.set who { s.client who with input := some oci }) who oci := by
  refine ⟨⟨⟨fun c oci' hoci => ?_,hs.free,fun c h => ?_⟩,hav,fun c => ?_⟩,by rw [set_self],?_,?_,.inr hempty.2⟩
  · by_cases hc : c = who
    · subst hc
      rw [set_self] at hoci
      obtain rfl := Option.some.inj hoci
      exact hok
    · rw [set_ne _ hc] at hoci
      exact hs.inputs c oci' hoci
  · change s.availableInput = some c at h
    rw [hav] at h
    cases h
  · by_cases hc : c = who
    · subst hc
      rw [set_self]
      simp [Client.source,Client.pending,Client.ignoring,hin,hempty.pending,hempty.2]
    · rw [set_ne _ hc]
  · rw [Client.ignoring,hin,hempty.2]
    rfl
  · rw [Client.pending,hin,hempty.pending]
    rfl

lemma ensureInput_has (hs : Sane s) (hav : s.availableInput = none) (alloc : Bool) :
    ((s.ensureInput who alloc).1 = none → (s.ensureInput who alloc).2 = s) ∧
      ∀ oci, (s.ensureInput who alloc).1 = some oci → HasInput s (s.ensureInput who alloc).2 who oci := by
  unfold Server.ensureInput
  split
  · next oci _ hin =>
    refine ⟨fun h => (nomatch h),fun oci' h => ?_⟩
    obtain rfl := Option.some.inj h
    exact ⟨⟨hs,hav,fun _ => rfl⟩,hin,by rw [Client.ignoring,hin]; rfl,by rw [Client.pending,hin]; rfl,.inl hin⟩
  · next oci rest hin hfree =>
    refine ⟨fun h => (nomatch h),fun oci' h => ?_⟩
    obtain rfl := Option.some.inj h
    obtain ⟨hok,hempty⟩ := hs.free oci (by rw [hfree]; exact List.mem_cons_self)
    have hrest : Sane { s with freeInputs := rest } :=
      ⟨hs.inputs,fun o ho => hs.free o (by rw [hfree]; exact List.mem_cons_of_mem _ ho),hs.available⟩
    have hin' : (({ s with freeInputs := rest } : Server).client who).input = none := hin
    obtain ⟨hhanded,hinput,hignoring,hpending,hold⟩ := hasInput_empty hrest hav hin' hok hempty
    exact ⟨⟨hhanded.sane,hhanded.available,hhanded.sources⟩,hinput,hignoring,hpending,hold⟩
  · next hin hfree =>
    split_ifs
    · refine ⟨fun h => (nomatch h),fun oci' h => ?_⟩
      obtain rfl := Option.some.inj h
      exact hasInput_empty hs hav hin ⟨le_rfl,Nat.zero_le _,by decide,by decide⟩ ⟨rfl,rfl⟩
    · exact ⟨fun _ => rfl,fun oci h => (nomatch h)⟩

lemma freeOsBuffers_sane (hs : SaneBut s who) : Sane (s.freeOsBuffers who) ∧
    ∀ c, c ≠ who → (s.freeOsBuffers who).client c = s.client c := by
  have hother : ∀ c, c ≠ who → (s.freeOsBuffers who).client c = s.client c := fun c hc => set_ne _ hc
  have hself : (s.freeOsBuffers who).client who = { s.client who with input := none } := set_self _
  refine ⟨⟨fun c oci hin => ?_,fun oci hoci => ?_,fun c hav => ?_⟩,hother⟩
  · by_cases hc : c = who
    · rw [hc,hself] at hin
      cases hin
    · rw [hother c hc] at hin
      exact hs.inputs c oci hc hin
  · unfold Server.freeOsBuffers at hoci
    dsimp only at hoci
    split at hoci
    · next own hin hfree =>
      obtain rfl := List.mem_singleton.1 hoci
      obtain ⟨hpos,hsmall⟩ := hs.own own hin
      exact ⟨⟨le_rfl,Nat.zero_le _,hpos,hsmall⟩,rfl,rfl⟩
    · exact hs.free oci hoci
  · change (if s.availableInput = some who then none else s.availableInput) = some c at hav
    split_ifs at hav with hown
    have hc : c ≠ who := fun hc => hown (hc ▸ hav)
    rw [hother c hc]
    exact hs.available c hc hav

end Xlibre.Os.Input
