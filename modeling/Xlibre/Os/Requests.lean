import Xlibre.Os.Framed

/-! Every run of reads and insertions frames the requests of a client as its stream does. -/
namespace Xlibre.Os.Input
open Xlibre.Lib Checked

variable {maxBigRequestSize : ℕ} {σ₀ σ σ' : Session} {who : ℕ} {env : Surroundings} {data : List Byte}

/-- What a run keeps. -/
structure Session.Valid (maxBigRequestSize : ℕ) (σ₀ σ : Session) : Prop where
  sane : Sane σ.server
  framed : Session.Framed maxBigRequestSize σ₀ σ

lemma Session.Initial.valid (h : σ.Initial) : Session.Valid maxBigRequestSize σ σ := by
  refine ⟨⟨fun c oci hin => ?_,h.free,fun c hav => ?_⟩,fun c => ⟨_,by rw [h.log c]; rfl,fun _ => rfl⟩⟩
  · rw [h.input c] at hin
    cases hin
  · rw [h.available] at hav
    cases hav

section One
variable (hv : Session.Valid maxBigRequestSize σ₀ σ)
include hv

lemma framed_of {σ' : Session} (hothers : ∀ c, c ≠ who → (σ'.server.client c).source = (σ.server.client c).source ∧
    σ'.log c = σ.log c ∧ σ'.closed c = σ.closed c)
    (hown : ∃ s, (σ₀.server.client who).source.replay maxBigRequestSize (σ'.log who) = some s ∧
      (σ'.closed who = false → (σ'.server.client who).source = s)) : Session.Framed maxBigRequestSize σ₀ σ' := by
  intro c
  by_cases hc : c = who
  · exact hc ▸ hown
  · obtain ⟨hsource,hlog,hclosed⟩ := hothers c hc
    rw [hsource,hlog,hclosed]
    exact hv.framed c

lemma note_framed {server : Server} {e : Event} (hopen : σ.closed who = false)
    (hothers : ∀ c, c ≠ who → (server.client c).source = (σ.server.client c).source)
    (hown : (σ.server.client who).source.next maxBigRequestSize e = some (server.client who).source) :
    Session.Framed maxBigRequestSize σ₀ (Session.note { σ with server } who e) := by
  obtain ⟨s,hlog,hsource⟩ := hv.framed who
  refine framed_of hv (fun c hc => ⟨hothers c hc,Function.update_of_ne hc _ _,rfl⟩) ⟨_,?_,fun _ => rfl⟩
  change (σ₀.server.client who).source.replay maxBigRequestSize (Function.update σ.log who _ who) = _
  rw [Function.update_self,replay_append hlog,← hsource hopen]
  exact hown

lemma quiet_framed {server : Server} (hsource : ∀ c, (server.client c).source = (σ.server.client c).source) :
    Session.Framed maxBigRequestSize σ₀ { σ with server } :=
  fun c => by
    rw [hsource c]
    exact hv.framed c

lemma closeDown_valid {server : Server} (hbut : SaneBut server who)
    (hothers : ∀ c, c ≠ who → (server.client c).source = (σ.server.client c).source) :
    Session.Valid maxBigRequestSize σ₀ (Session.closeDown { σ with server } who) := by
  obtain ⟨hsane,hclient⟩ := freeOsBuffers_sane hbut
  obtain ⟨s,hlog,-⟩ := hv.framed who
  refine ⟨hsane,framed_of hv (fun c hc => ⟨?_,rfl,Function.update_of_ne hc _ _⟩) ⟨s,hlog,fun h => ?_⟩⟩
  · exact (congrArg Client.source (hclient c hc)).trans (hothers c hc)
  · change Function.update σ.closed who true who = false at h
    rw [Function.update_self] at h
    cases h

lemma read_valid (hmax : 2 ≤ maxBigRequestSize) (hfits : (Call.read who env).Fits maxBigRequestSize σ) :
    ∃ σ', σ.call maxBigRequestSize (.read who env) = .ok σ' ∧ Session.Valid maxBigRequestSize σ₀ σ' := by
  unfold Session.call
  cases hclosed : σ.closed who with
  | true => exact ⟨σ,if_pos hclosed,hv⟩
  | false =>
    obtain ⟨hsound,hskip⟩ := hfits hclosed
    obtain ⟨result,server,hread,hr⟩ := readRequestFromClient_read env hmax hv.sane hsound hskip
    dsimp only
    rw [if_neg (hclosed ▸ Bool.false_ne_true),hread]
    cases result with
    | value n =>
      exact ⟨_,rfl,hr.sane (fun h => (nomatch h)),note_framed hv hclosed hr.others (hr.value n rfl)⟩
    | notYet =>
      refine ⟨_,rfl,hr.sane (fun h => (nomatch h)),quiet_framed hv fun c => ?_⟩
      by_cases hc : c = who
      · exact hc ▸ hr.notYet rfl
      · exact hr.others c hc
    | terminate => exact ⟨_,rfl,closeDown_valid hv hr.lost hr.others⟩
    | badLength => exact absurd rfl hr.sound

lemma insert_valid (hfits : (Call.insert who data env).Fits maxBigRequestSize σ) :
    ∃ σ', σ.call maxBigRequestSize (.insert who data env) = .ok σ' ∧ Session.Valid maxBigRequestSize σ₀ σ' := by
  unfold Session.call
  cases hclosed : σ.closed who with
  | true => exact ⟨σ,if_pos hclosed,hv⟩
  | false =>
    obtain ⟨hzero,hsmall⟩ := hfits hclosed
    obtain ⟨ok,server,hinsert,hsane,hothers,hown⟩ := insertFakeRequest_inserts env hv.sane hzero hsmall
    dsimp only
    rw [if_neg (hclosed ▸ Bool.false_ne_true),hinsert]
    cases ok with
    | true =>
      refine ⟨_,rfl,hsane,note_framed hv hclosed hothers ?_⟩
      rw [hown]
      rfl
    | false =>
      refine ⟨_,rfl,hsane,quiet_framed hv fun c => ?_⟩
      by_cases hc : c = who
      · exact hc ▸ hown
      · exact hothers c hc

end One

lemma call_valid {call : Call} (hmax : 2 ≤ maxBigRequestSize) (hv : Session.Valid maxBigRequestSize σ₀ σ)
    (hfits : call.Fits maxBigRequestSize σ) :
    ∃ σ', σ.call maxBigRequestSize call = .ok σ' ∧ Session.Valid maxBigRequestSize σ₀ σ' := by
  cases call with
  | read who env => exact read_valid hv hmax hfits
  | insert who data env => exact insert_valid hv hfits
  | next who =>
    obtain ⟨server,hnext,hhanded,-⟩ := nextAvailableInput_handed hv.sane who
    unfold Session.call
    dsimp only
    rw [hnext]
    exact ⟨_,rfl,hhanded.sane,quiet_framed hv hhanded.sources⟩
  | order who swapped bigRequests =>
    unfold Session.call
    cases hclosed : σ.closed who with
    | true => exact ⟨σ,if_pos hclosed,hv⟩
    | false =>
      refine ⟨_,if_neg (hclosed ▸ Bool.false_ne_true),⟨fun c oci hin => ?_,hv.sane.free,fun c hav => ?_⟩,
        note_framed hv hclosed (fun c hc => by rw [set_ne _ hc]) (by rw [set_self]; rfl)⟩
      · change ((σ.server.set who _).client c).input = some oci at hin
        by_cases hc : c = who
        · subst hc
          rw [set_self] at hin
          exact hv.sane.inputs c oci hin
        · rw [set_ne _ hc] at hin
          exact hv.sane.inputs c oci hin
      · obtain ⟨oci,hin,hempty⟩ := hv.sane.available c hav
        refine ⟨oci,?_,hempty⟩
        change ((σ.server.set who _).client c).input = some oci
        by_cases hc : c = who
        · subst hc
          rw [set_self]
          exact hin
        · rw [set_ne _ hc]
          exact hin
  | close who => exact ⟨_,rfl,closeDown_valid hv (hv.sane.but who) fun _ _ => rfl⟩

lemma Session.Run.valid (hmax : 2 ≤ maxBigRequestSize) (hinit : σ₀.Initial) (hrun : Session.Run maxBigRequestSize σ₀ σ) :
    Session.Valid maxBigRequestSize σ₀ σ := by
  induction hrun with
  | start => exact hinit.valid
  | call _ fits hcall ih =>
    obtain ⟨σ',hok,hv⟩ := call_valid hmax ih fits
    rw [hcall] at hok
    cases hok
    exact hv

/-- A call of `ReadRequestFromClient` that has found nothing has left nothing to be found. -/
def Session.Whole (maxBigRequestSize : ℕ) (σ : Session) : Prop := ∀ who env server,
  (Call.read who env).Fits maxBigRequestSize σ → σ.closed who = false → (σ.server.client who).ignoring = 0 →
    readRequestFromClient maxBigRequestSize env σ.server who = .ok (.notYet,server) →
      (server.client who).buffered.Waits

/-- In every run whose calls meet their condition, what is returned for a client are the requests of its own stream, and
all of those that have come. -/
theorem framed_when_fits (hmax : 2 ≤ maxBigRequestSize) (hinit : σ₀.Initial)
    (hrun : Session.Run maxBigRequestSize σ₀ σ) : Session.Framed maxBigRequestSize σ₀ σ ∧ σ.Whole maxBigRequestSize ∧
      ∀ call : Call, call.Fits maxBigRequestSize σ → ∃ σ', σ.call maxBigRequestSize call = .ok σ' := by
  have hv := hrun.valid hmax hinit
  refine ⟨hv.framed,fun who env server hfits hclosed hzero hread => ?_,fun call hfits => ?_⟩
  · obtain ⟨hsound,hskip⟩ := hfits hclosed
    obtain ⟨result,s',hok,hr⟩ := readRequestFromClient_read env hmax hv.sane hsound hskip
    rw [hread] at hok
    cases hok
    exact hr.waits rfl hzero
  · obtain ⟨σ',hok,-⟩ := call_valid hmax hv hfits
    exact ⟨σ',hok⟩

/-- A first session: each client has a stream before it. -/
def Session.opening (stream : List Byte) : Session :=
  ⟨⟨fun _ => ⟨none,true,false,true,0,0,stream⟩,[],none⟩,fun _ => [],fun _ => false⟩

lemma opening_initial (stream : List Byte) : (Session.opening stream).Initial :=
  ⟨fun _ => rfl,fun _ h => (nomatch h),rfl,fun _ => rfl⟩

/-- There is memory, and the transport gives all that there is room for. -/
def plenty : Surroundings := ⟨true,true,true,.takes bufSize⟩

theorem framed_when_fits_one : ∃ σ, Session.Run 4194303 (Session.opening [127,0,2,0,1,2,3,4,98,0,1,0]) σ ∧
    σ.log 0 = [.request [127,0,2,0,1,2,3,4] 2] ∧
      Session.Framed 4194303 (Session.opening [127,0,2,0,1,2,3,4,98,0,1,0]) σ := by
  obtain ⟨σ,hcall,hlog⟩ := map_eq_ok.1 (show (fun σ => σ.log 0) <$> (Session.opening [127,0,2,0,1,2,3,4,98,0,1,0]).call
    4194303 (.read 0 plenty) = .ok [.request [127,0,2,0,1,2,3,4] 2] by decide +kernel)
  have hfits : (Call.read 0 plenty).Fits 4194303 (Session.opening [127,0,2,0,1,2,3,4,98,0,1,0]) :=
    fun _ => ⟨fun _ => by decide +kernel,fun oci h => (nomatch h)⟩
  have hrun := Session.Run.call Session.Run.start hfits hcall
  exact ⟨σ,hrun,hlog,(framed_when_fits (by decide) (opening_initial _) hrun).1⟩

/-- A length of 2^32-1 words: it is refused, and the next request is looked for behind as many bytes as the request before
had. -/
theorem longest_not_framed : ∃ σ, [Call.read 0 plenty,.read 0 plenty,.read 0 plenty].foldlM (Session.call 4194303)
    (Session.opening [127,0,2,0,1,2,3,4,127,0,0,0,255,255,255,255,127,0,1,0]) = .ok σ ∧
      σ.log 0 = [.request [127,0,2,0,1,2,3,4] 2,.refused (4*(2^32-1)),.request [127,0,1,0] 1] ∧
      ¬Session.Framed 4194303 (Session.opening [127,0,2,0,1,2,3,4,127,0,0,0,255,255,255,255,127,0,1,0]) σ := by
  obtain ⟨σ,hcall,hlog⟩ := map_eq_ok.1 (show (fun σ => σ.log 0) <$> [Call.read 0 plenty,.read 0 plenty,.read 0 plenty].foldlM
    (Session.call 4194303) (Session.opening [127,0,2,0,1,2,3,4,127,0,0,0,255,255,255,255,127,0,1,0]) = .ok [.request [127,0,2,0,1,2,3,4] 2,.refused (4*(2^32-1)),.request [127,0,1,0] 1] by
    decide +kernel)
  refine ⟨σ,hcall,hlog,fun h => ?_⟩
  obtain ⟨s,hreplay,-⟩ := h 0
  rw [hlog] at hreplay
  have hnone : Source.replay 4194303 ⟨false,true,[127,0,2,0,1,2,3,4,127,0,0,0,255,255,255,255,127,0,1,0]⟩
      [.request [127,0,2,0,1,2,3,4] 2,.refused (4*(2^32-1)),.request [127,0,1,0] 1] = none := by
    decide +kernel
  cases hnone.symm.trans hreplay

end Xlibre.Os.Input
