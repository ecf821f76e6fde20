import Xlibre.Os.Inputs

/-! Runs of reads and insertions: the requests of every client are those of its own stream. -/
namespace Xlibre.Os.Input
open Xlibre.Lib Checked

/-- What the caller makes of a length: the request, unless it is longer than the limit. -/
def Client.event (maxBigRequestSize n : ℕ) (c : Client) : Event :=
  if n > 4*maxBigRequestSize then .refused n else .request c.returned c.reqLen

/-- The server, what has happened to each client's requests, and the clients that have been closed down. -/
structure Session where
  server : Server
  log : ℕ → List Event
  closed : ℕ → Bool

inductive Call
  | read (who : ℕ) (env : Surroundings)
  | insert (who : ℕ) (data : List Byte) (env : Surroundings)
  | next (who : ℕ)
  | order (who : ℕ) (swapped bigRequests : Bool)
  | close (who : ℕ)

namespace Session

def note (σ : Session) (who : ℕ) (e : Event) : Session :=
  { σ with log := Function.update σ.log who (σ.log who ++ [e]) }

/-- `CloseDownClient`, for the input. -/
def closeDown (σ : Session) (who : ℕ) : Session :=
  { σ with server := σ.server.freeOsBuffers who, closed := Function.update σ.closed who true }

def call (maxBigRequestSize : ℕ) (σ : Session) : Call → Except Fault Session
  | .read who env =>
    if σ.closed who then .ok σ
    else do
      let (result,server) ← readRequestFromClient maxBigRequestSize env σ.server who
      let σ := { σ with server }
      match result with
      | .value n => return σ.note who ((server.client who).event maxBigRequestSize n)
      | .notYet => return σ
      | .terminate => return σ.closeDown who
      | .badLength => return σ.note who (.refused (4*(server.client who).reqLen))
  | .insert who data env =>
    if σ.closed who then .ok σ
    else do
      let (ok,server) ← insertFakeRequest env σ.server who data
      let σ := { σ with server }
      return if ok then σ.note who (.inserted data) else σ
  | .next who => do
    let server ← σ.server.nextAvailableInput who
    return { σ with server }
  | .order who swapped bigRequests =>
    if σ.closed who then .ok σ
    else .ok ({ σ with server := σ.server.set who { σ.server.client who with swapped, bigRequests } }.note who
      (.order swapped bigRequests))
  | .close who => .ok (σ.closeDown who)

/-- Before the first call: no client has a buffer, and the free ones are empty. -/
structure Initial (σ : Session) : Prop where
  input : ∀ c, (σ.server.client c).input = none
  free : ∀ oci ∈ σ.server.freeInputs, oci.Ok ∧ oci.Empty
  available : σ.server.availableInput = none
  log : ∀ c, σ.log c = []

/-- The requests of every client are those of the stream that it began with, and of what was inserted, and what is left of
these is what it has not consumed. -/
def Framed (maxBigRequestSize : ℕ) (σ₀ σ : Session) : Prop := ∀ c, ∃ s,
  (σ₀.server.client c).source.replay maxBigRequestSize (σ.log c) = some s ∧
    (σ.closed c = false → (σ.server.client c).source = s)

end Session

/-- A read needs a sound length ahead, or little enough to ignore at once; an insertion needs that nothing is to be
ignored, and a sum that is an `int`. -/
def Call.Fits (maxBigRequestSize : ℕ) (σ : Session) : Call → Prop
  | .read who _ => σ.closed who = false → let c := σ.server.client who
    (c.ignoring = 0 → c.source.Sound) ∧
      ∀ oci, c.input = some oci → 0 < oci.ignoreBytes → min oci.size oci.ignoreBytes ≤ 4*maxBigRequestSize
  | .insert who data _ => σ.closed who = false → let c := σ.server.client who
    c.ignoring = 0 ∧ c.pending.length + data.length < 2^31
  | _ => True

inductive Session.Run (maxBigRequestSize : ℕ) (σ₀ : Session) : Session → Prop
  | start : Run maxBigRequestSize σ₀ σ₀
  | call {σ σ' : Session} {call : Call} (h : Run maxBigRequestSize σ₀ σ) (fits : call.Fits maxBigRequestSize σ)
      (hcall : σ.call maxBigRequestSize call = .ok σ') : Run maxBigRequestSize σ₀ σ'

variable {maxBigRequestSize : ℕ} {s s' : Server} {who : ℕ} {env : Surroundings}

/-- What a call of `ReadRequestFromClient` does. -/
structure Read (maxBigRequestSize : ℕ) (s : Server) (who : ℕ) (result : Result) (s' : Server) : Prop where
  others : ∀ c, c ≠ who → (s'.client c).source = (s.client c).source
  sane : result ≠ .terminate → Sane s'
  lost : SaneBut s' who
  sound : result ≠ .badLength
  notYet : result = .notYet → (s'.client who).source = (s.client who).source
  value : ∀ n, result = .value n → (s.client who).source.next maxBigRequestSize
    ((s'.client who).event maxBigRequestSize n) = some (s'.client who).source
  waits : result = .notYet → (s.client who).ignoring = 0 → (s'.client who).buffered.Waits

lemma read_finished {oci : ConnectionInput} {result : Result} {r : Reading} {available : Bool} (hs : Sane s)
    (hav : s.availableInput = none) (hin : (s.client who).input = some oci)
    (h : Settled maxBigRequestSize ⟨(s.client who).swapped,(s.client who).bigRequests,oci.pending ++ (s.client who).stream⟩
      oci.ignoreBytes result r available) :
    Read maxBigRequestSize s who result { s.set who ((s.client who).finished r) with
      availableInput := if available then some who else s.availableInput } := by
  set s' : Server := { s.set who ((s.client who).finished r) with
    availableInput := if available then some who else s.availableInput } with hs'
  have hself : s'.client who = (s.client who).finished r := Function.update_self _ _ _
  have hother : ∀ c, c ≠ who → s'.client c = s.client c := fun c hc => Function.update_of_ne hc _ _
  have hsource : (s.client who).source =
      ⟨(s.client who).swapped,(s.client who).bigRequests,(oci.pending ++ (s.client who).stream).drop oci.ignoreBytes⟩ := by
    rw [Client.source,Client.pending,Client.ignoring,hin]
    rfl
  have hleft : (s'.client who).source = ⟨(s.client who).swapped,(s.client who).bigRequests,r.left⟩ := by
    rw [hself]
    rfl
  have hzero : (s.client who).ignoring = 0 → oci.ignoreBytes = 0 := by
    rw [Client.ignoring,hin]
    exact fun h => h
  have hbut : SaneBut s' who := by
    refine ⟨fun c o hc ho => ?_,fun o ho => ?_,hs.free,fun c hc ha => ?_⟩
    · rw [hother c hc] at ho
      exact hs.inputs c o ho
    · rw [hself] at ho
      obtain rfl := Option.some.inj ho
      exact h.size
    · change (if available then some who else s.availableInput) = some c at ha
      rw [hav] at ha
      split_ifs at ha
      cases ha
      exact absurd rfl hc
  refine ⟨fun c hc => by rw [hother c hc],fun hne => ⟨fun c o ho => ?_,hs.free,fun c ha => ?_⟩,hbut,h.sound,fun hr => ?_,
    fun n hr => ?_,fun hr hi => ?_⟩
  · by_cases hc : c = who
    · rw [hc,hself] at ho
      obtain rfl := Option.some.inj ho
      exact h.ok hne
    · exact hbut.inputs c o hc ho
  · change (if available then some who else s.availableInput) = some c at ha
    rw [hav] at ha
    split_ifs at ha with htrue
    cases ha
    exact ⟨r.oci,by rw [hself]; rfl,h.available htrue hne⟩
  · rw [hleft,hsource,h.notYet hr]
  · obtain ⟨hi,hdrop,f,hframe,hlen,hwhole⟩ := h.value n hr
    rw [hsource,hi,List.drop_zero,hself,Client.event]
    split_ifs with hover
    · unfold Source.next
      dsimp only
      rw [hframe]
      change (if 4*maxBigRequestSize < f.length ∧ f.length = n then _ else _) = _
      rw [if_pos ⟨by omega,hlen⟩,← hself,hleft,hdrop]
    · obtain ⟨hle,hbytes,hreqLen⟩ := hwhole (Nat.le_of_not_lt hover)
      unfold Source.next
      dsimp only
      rw [hframe]
      change (if f.length ≤ 4*maxBigRequestSize ∧ f.length ≤ (oci.pending ++ (s.client who).stream).length ∧
        f.bytes = r.returned ∧ f.reqLen = r.reqLen then _ else _) = _
      rw [if_pos ⟨by omega,by rw [hlen]; exact hle,hbytes,hreqLen⟩,← hself,hleft,hdrop,hlen]
  · have hw := h.waits hr (hzero hi)
    have hbuffered : (s'.client who).buffered = ⟨(s.client who).swapped,(s.client who).bigRequests,r.oci.pending⟩ := by
      rw [hself]
      rfl
    rw [hbuffered]
    exact hw

variable (env) in
/-- A call that meets its condition. -/
theorem readRequestFromClient_read (hmax : 2 ≤ maxBigRequestSize) (hs : Sane s)
    (hsound : (s.client who).ignoring = 0 → (s.client who).source.Sound)
    (hskip : ∀ oci, (s.client who).input = some oci → 0 < oci.ignoreBytes →
      min oci.size oci.ignoreBytes ≤ 4*maxBigRequestSize) :
    ∃ result s', readRequestFromClient maxBigRequestSize env s who = .ok (result,s') ∧
      Read maxBigRequestSize s who result s' := by
  obtain ⟨s1,hnext,h1,hself⟩ := nextAvailableInput_handed hs who
  have hbind : ∀ f : Server → Except Fault (Result × Server), ((.ok s1 : Except Fault Server) >>= f) = f s1 := fun _ => rfl
  unfold readRequestFromClient
  rw [hnext,hbind]
  obtain ⟨hnone,hsome⟩ := ensureInput_has h1.sane h1.available env.alloc
  cases hfound : s1.ensureInput who env.alloc with
  | mk found s2 =>
    rw [hfound] at hnone hsome
    cases found with
    | none =>
      obtain rfl : s2 = s1 := hnone rfl
      exact ⟨_,_,rfl,fun c _ => h1.sources c,fun hne => absurd rfl hne,h1.sane.but who,fun h => (nomatch h),
        fun h => (nomatch h),fun _ h => (nomatch h),fun h => (nomatch h)⟩
    | some oci =>
      obtain ⟨hhanded,hin,hignoring,hpend,hold⟩ := hsome oci rfl
      have hsources : ∀ c, (s2.client c).source = (s.client c).source :=
        fun c => (hhanded.sources c).trans (h1.sources c)
      rw [hself] at hignoring hold
      have hsound' : oci.ignoreBytes = 0 →
          (Source.mk (s2.client who).swapped (s2.client who).bigRequests (oci.pending ++ (s2.client who).stream)).Sound := by
        intro hi
        have heq : (s2.client who).source =
            ⟨(s2.client who).swapped,(s2.client who).bigRequests,oci.pending ++ (s2.client who).stream⟩ := by
          rw [Client.source,Client.pending,Client.ignoring,hin]
          change Source.mk _ _ ((oci.pending ++ (s2.client who).stream).drop oci.ignoreBytes) = _
          rw [hi,List.drop_zero]
        rw [← heq,hsources who]
        exact hsound (hignoring ▸ hi)
      have hskip' : 0 < oci.ignoreBytes → min oci.size oci.ignoreBytes ≤ 4*maxBigRequestSize := by
        intro hi
        obtain hown | hnothing := hold
        · exact hskip oci hown hi
        · omega
      obtain ⟨result,r,available,hread,hsettled⟩ := readRequest_settled (c := s2.client who) hmax rfl rfl
        (hhanded.sane.inputs who oci hin) rfl hsound' hskip'
      dsimp only
      rw [hread]
      have hr := read_finished hhanded.sane hhanded.available hin hsettled
      refine ⟨_,_,rfl,fun c hc => (hr.others c hc).trans (hsources c),hr.sane,hr.lost,hr.sound,
        fun h => (hr.notYet h).trans (hsources who),fun n h => ?_,fun h hi => hr.waits h ?_⟩
      · rw [← hsources who]
        exact hr.value n h
      · rw [Client.ignoring,hin]
        exact hignoring.trans hi

variable (env) in
/-- `InsertFakeRequest` meets its condition: the bytes are next, unless there is no memory. -/
theorem insertFakeRequest_inserts {data : List Byte} (hs : Sane s) (hzero : (s.client who).ignoring = 0)
    (hsmall : (s.client who).pending.length + data.length < 2^31) :
    ∃ ok s', insertFakeRequest env s who data = .ok (ok,s') ∧ Sane s' ∧
      (∀ c, c ≠ who → (s'.client c).source = (s.client c).source) ∧ (s'.client who).source =
        { (s.client who).source with ahead := (if ok then data else []) ++ (s.client who).source.ahead } := by
  obtain ⟨s1,hnext,h1,hself⟩ := nextAvailableInput_handed hs who
  have hbind : ∀ f : Server → Except Fault (Bool × Server), ((.ok s1 : Except Fault Server) >>= f) = f s1 := fun _ => rfl
  unfold insertFakeRequest
  rw [hnext,hbind]
  obtain ⟨hnone,hsome⟩ := ensureInput_has h1.sane h1.available env.alloc
  cases hfound : s1.ensureInput who env.alloc with
  | mk found s2 =>
    rw [hfound] at hnone hsome
    cases found with
    | none =>
      obtain rfl : s2 = s1 := hnone rfl
      exact ⟨_,_,rfl,h1.sane,fun c _ => h1.sources c,h1.sources who⟩
    | some oci =>
      obtain ⟨hhanded,hin,hignoring,hpend,hold⟩ := hsome oci rfl
      have hsources : ∀ c, (s2.client c).source = (s.client c).source :=
        fun c => (hhanded.sources c).trans (h1.sources c)
      rw [hself] at hignoring hpend
      have hpending : oci.pending.length + data.length < 2^31 := by rwa [hpend]
      obtain ⟨ok,oci',hinsert,hok,hign,hdata⟩ := insert_pending env.realloc (hhanded.sane.inputs who oci hin) hpending
      dsimp only
      rw [hinsert]
      refine ⟨ok,_,rfl,⟨fun c o ho => ?_,hhanded.sane.free,fun c h => ?_⟩,fun c hc => ?_,?_⟩
      · by_cases hc : c = who
        · subst hc
          rw [set_self] at ho
          obtain rfl := Option.some.inj ho
          exact hok
        · rw [set_ne _ hc] at ho
          exact hhanded.sane.inputs c o ho
      · change s2.availableInput = some c at h
        rw [hhanded.available] at h
        cases h
      · rw [set_ne _ hc]
        exact hsources c
      · rw [set_self,← hsources who]
        have hi : oci.ignoreBytes = 0 := hignoring.trans hzero
        rw [Client.source,Client.source,Client.pending,Client.pending,Client.ignoring,Client.ignoring,hin]
        change Source.mk _ _ ((oci'.pending ++ (s2.client who).stream).drop oci'.ignoreBytes) =
          Source.mk _ _ ((if ok then data else []) ++ (oci.pending ++ (s2.client who).stream).drop oci.ignoreBytes)
        rw [hign,hi,List.drop_zero,List.drop_zero,hdata,List.append_assoc]

end Xlibre.Os.Input
