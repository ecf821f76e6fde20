import Xlibre.Os.Integrity

/-! Runs of writes and flushes: the stream of every client is made of the padded messages that were written to it. -/
namespace Xlibre.Os
open Xlibre.Lib Checked

/-- The server and the messages that have been written to each client. -/
structure Session where
  server : Server
  written : ℕ → List (List Byte)

inductive Call
  | write (who : ℕ) (msg : List Byte) (env : Surroundings)
  | flush (who : ℕ) (answers : List Attempt)
  | flushAll (ready : ℕ → Bool) (answers : ℕ → List Attempt)

/-- The length of a message is an `int`. -/
def Call.Typed : Call → Prop
  | .write _ msg _ => msg.length < 2^31
  | _ => True

/-- A write needs a sum that is an `int`, and a flush nothing. -/
def Call.Fits (s : Server) : Call → Prop
  | .write who msg env => Os.Fits env s who msg
  | _ => True

def Session.call (σ : Session) : Call → Except Stop Session
  | .write who msg env => do
    let (_,server) ← writeToClient env σ.server who msg
    return ⟨server,Function.update σ.written who (σ.written who ++ [msg])⟩
  | .flush who answers => do
    let (_,server) ← flushClient σ.server who answers
    return { σ with server }
  | .flushAll ready answers => do
    let server ← flushAllOutput σ.server ready answers
    return { σ with server }

/-- Before the first call: no client has a buffer, and the free ones are empty. -/
structure Session.Initial (σ : Session) : Prop where
  output : ∀ c, (σ.server.client c).output = none
  accepted : ∀ c, (σ.server.client c).accepted = []
  free : ∀ oco ∈ σ.server.freeOutputs, oco.count = 0 ∧ oco.size < 2^31
  pending : σ.server.outputPending = []
  written : ∀ c, σ.written c = []

inductive Session.Run : Session → Prop
  | initial {σ : Session} (h : σ.Initial) : Run σ
  | call {σ σ' : Session} {call : Call} (h : Run σ) (typed : call.Typed) (hcall : σ.call call = .ok σ') : Run σ'

/-- The stream of each client that is still there is that of its messages, and it is on the list when its buffer has
something. -/
def Session.Integrity (σ : Session) : Prop := ∀ c, c ≠ serverClient → (σ.server.client c).transConn = true →
  (σ.server.client c).clientGone = false →
    (σ.server.client c).carried = (σ.written c).flatMap padded ∧
      ((σ.server.client c).output.elim [] ConnectionOutput.contents ≠ [] → c ∈ σ.server.outputPending)

/-- A call that does nothing undefined and leaves the streams as they are to be. -/
def Session.Keeps (σ : Session) (call : Call) : Prop :=
  Avoids Undefined (σ.call call) ∧ ∀ σ', σ.call call = .ok σ' → σ'.Integrity

/-- What a call does to all clients: those that are still there get some more. -/
structure Advances (s s' : Server) (extra : ℕ → List Byte) : Prop where
  gone : ∀ c, (s'.client c).clientGone = (s.client c).clientGone
  carried : ∀ c, (s'.client c).transConn = true →
    (s.client c).transConn = true ∧ (s'.client c).carried = (s.client c).carried ++ extra c
  listed : (∀ c, Listed s c) → ∀ c, Listed s' c
  sane : Sane s → Sane s'

variable {s s1 s' : Server} {who : ℕ} {extra : ℕ → List Byte}

lemma Advances.refl : Advances s s fun _ => [] :=
  ⟨fun _ => rfl,fun _ h => ⟨h,(List.append_nil _).symm⟩,fun h => h,fun h => h⟩

lemma Advances.trans (h : Advances s s1 fun _ => []) (h' : Advances s1 s' extra) : Advances s s' extra := by
  refine ⟨fun c => (h'.gone c).trans (h.gone c),fun c ht => ?_,fun hl => h'.listed (h.listed hl),
    fun hs => h'.sane (h.sane hs)⟩
  obtain ⟨ht1,hc1⟩ := h'.carried c ht
  obtain ⟨ht0,hc0⟩ := h.carried c ht1
  rw [List.append_nil] at hc0
  exact ⟨ht0,by rw [hc1,hc0]⟩

lemma Carries.advances {msg : List Byte} (h : Carries s s' who msg) (hlisted : Listed s' who) :
    Advances s s' fun c => if c = who then msg else [] := by
  refine ⟨fun c => ?_,fun c ht => ?_,fun hl c => ?_,h.sane⟩
  · by_cases hc : c = who
    · rw [hc,h.gone]
    · rw [h.others c hc]
  · by_cases hc : c = who
    · rw [if_pos hc]
      subst hc
      exact h.carried ht
    · rw [if_neg hc]
      rw [h.others c hc] at ht ⊢
      exact ⟨ht,(List.append_nil _).symm⟩
  · by_cases hc : c = who
    · exact hc ▸ hlisted
    · intro ht hg hne
      rw [h.others c hc] at ht hg hne
      exact h.pending c hc (hl c ht hg hne)

lemma flushClient_advances {answers : List Attempt} {alive : Bool} (hs : Sane s)
    (h : flushClient s who answers = .ok (alive,s')) : Advances s s' fun _ => [] := by
  have hf := flushClient_flushed hs h
  simpa only [ite_self] using hf.carries.advances hf.listed

lemma Advances.of_eq (hc : s'.client = s.client) (hf : s'.freeOutputs = s.freeOutputs)
    (hp : s'.outputPending = s.outputPending) : Advances s s' fun _ => [] := by
  refine ⟨fun c => by rw [hc],fun c ht => ?_,fun hl c => ?_,fun hs => hs.of_eq hc hf⟩
  · rw [hc] at ht ⊢
    exact ⟨ht,(List.append_nil _).symm⟩
  · unfold Listed
    rw [hc,hp]
    exact hl c

lemma flushEach_advances {ready : ℕ → Bool} {answers : ℕ → List Attempt} {pending : List ℕ} (hs : Sane s)
    (h : pending.foldlM (fun s client =>
      if (s.client client).clientGone then (.ok s : Except Stop Server)
      else if ready client then .ok { s with newOutputPending := true }
      else do
        let (_,s) ← flushClient s client (answers client)
        return s) s = .ok s') : Advances s s' fun _ => [] := by
  induction pending generalizing s with
  | nil =>
    cases h
    exact Advances.refl
  | cons client pending ih =>
    rw [List.foldlM_cons] at h
    obtain ⟨s1,hclient,h⟩ := bind_eq_ok.1 h
    have hone : Advances s s1 fun _ => [] := by
      split_ifs at hclient with hgone hready
      · cases hclient
        exact Advances.refl
      · cases hclient
        exact Advances.of_eq rfl rfl rfl
      · obtain ⟨⟨alive,s2⟩,hflush,hclient⟩ := bind_eq_ok.1 hclient
        cases hclient
        exact flushClient_advances hs hflush
    exact hone.trans (ih (hone.sane hs) h)

lemma flushAllOutput_advances {ready : ℕ → Bool} {answers : ℕ → List Attempt} (hs : Sane s)
    (h : flushAllOutput s ready answers = .ok s') : Advances s s' fun _ => [] := by
  unfold flushAllOutput at h
  split_ifs at h with hnew
  · cases h
    exact Advances.refl
  · have hflags : Advances s { s with criticalOutputPending := false, newOutputPending := false } fun _ => [] :=
      Advances.of_eq rfl rfl rfl
    exact hflags.trans (flushEach_advances (hflags.sane hs) h)

lemma flushAllOutput_avoids (s : Server) (ready : ℕ → Bool) (answers : ℕ → List Attempt) :
    Avoids Undefined (flushAllOutput s ready answers) := by
  unfold flushAllOutput
  refine Avoids.ite (fun _ => Avoids.ok _) fun _ => ?_
  generalize ({ s with criticalOutputPending := false, newOutputPending := false } : Server) = s1
  induction s.outputPending generalizing s1 with
  | nil => exact Avoids.ok _
  | cons client pending ih =>
    rw [List.foldlM_cons]
    refine Avoids.bind (Avoids.ite (fun _ => Avoids.ok _) fun _ => Avoids.ite (fun _ => Avoids.ok _) fun _ => ?_)
      fun s2 _ => ih s2
    exact Avoids.bind (flushClient_avoids _ _ _) fun _ _ => Avoids.ok _

/-- What holds between calls. -/
structure Session.Sound (σ : Session) : Prop where
  stream : ∀ c, c ≠ serverClient → (σ.server.client c).transConn = true → (σ.server.client c).clientGone = false →
    (σ.server.client c).carried = (σ.written c).flatMap padded
  listed : ∀ c, Listed σ.server c
  sane : Sane σ.server

lemma Session.Sound.integrity {σ : Session} (h : σ.Sound) : σ.Integrity :=
  fun c hc ht hg => ⟨h.stream c hc ht hg,h.listed c ht hg⟩

lemma Session.Initial.sound {σ : Session} (h : σ.Initial) : σ.Sound := by
  refine ⟨fun c _ _ _ => ?_,fun c => listed_of_empty (by rw [h.output c]; rfl),⟨fun c oco ho => ?_,h.free⟩⟩
  · rw [h.written c,Client.carried,h.accepted c,h.output c]
    rfl
  · rw [h.output c] at ho
    cases ho

lemma Session.Sound.advance {σ σ' : Session} (h : σ.Sound) (ha : Advances σ.server σ'.server extra)
    (hextra : ∀ c, c ≠ serverClient → (σ.server.client c).clientGone = false →
      (σ'.written c).flatMap padded = (σ.written c).flatMap padded ++ extra c) : σ'.Sound := by
  refine ⟨fun c hc ht hg => ?_,ha.listed h.listed,ha.sane h.sane⟩
  obtain ⟨ht0,hcarried⟩ := ha.carried c ht
  rw [ha.gone c] at hg
  rw [hcarried,h.stream c hc ht0 hg,hextra c hc hg]

lemma Session.Sound.call {σ σ' : Session} {call : Call} (h : σ.Sound) (htyped : call.Typed)
    (hcall : σ.call call = .ok σ') : σ'.Sound := by
  cases call with
  | write who msg env =>
    obtain ⟨⟨r,server⟩,hwrite,hcall⟩ := bind_eq_ok.1 hcall
    cases hcall
    have hw := writeToClient_written h.sane (h.listed who) htyped hwrite
    refine h.advance (hw.carries.advances hw.listed) fun c hc hg => ?_
    by_cases hwho : c = who
    · subst hwho
      dsimp only
      rw [Function.update_self,List.flatMap_append,List.flatMap_singleton,if_pos rfl]
      congr 1
      split_ifs with hdrop
      · have hempty : msg = [] := by
          obtain hlen | hserver | hgone := hdrop
          · exact List.length_eq_zero_iff.1 hlen
          · exact absurd hserver hc
          · rw [hg] at hgone
            cases hgone
        rw [hempty]
        rfl
      · rfl
    · dsimp only
      rw [Function.update_of_ne hwho,if_neg hwho,List.append_nil]
  | flush who answers =>
    obtain ⟨⟨alive,server⟩,hflush,hcall⟩ := bind_eq_ok.1 hcall
    cases hcall
    exact h.advance (flushClient_advances h.sane hflush) fun c _ _ => (List.append_nil _).symm
  | flushAll ready answers =>
    obtain ⟨server,hflush,hcall⟩ := bind_eq_ok.1 hcall
    cases hcall
    exact h.advance (flushAllOutput_advances h.sane hflush) fun c _ _ => (List.append_nil _).symm

lemma Session.Run.sound {σ : Session} (h : σ.Run) : σ.Sound := by
  induction h with
  | initial h => exact h.sound
  | call _ typed hcall ih => exact ih.call typed hcall

lemma Session.Sound.avoids_iff {σ : Session} {call : Call} (h : σ.Sound) (htyped : call.Typed) :
    Avoids Undefined (σ.call call) ↔ call.Fits σ.server := by
  cases call with
  | write who msg env =>
    constructor
    · intro hav
      by_contra hfits
      have hover := writeToClient_overflow h.sane hfits
      refine hav .signedOverflow (fun h => nomatch h) ?_
      change (writeToClient env σ.server who msg >>= _) = _
      rw [hover]
      rfl
    · intro hfits
      exact Avoids.bind (writeToClient_avoids h.sane htyped hfits) fun _ _ => Avoids.ok _
  | flush who answers =>
    exact iff_of_true (Avoids.bind (flushClient_avoids _ _ _) fun _ _ => Avoids.ok _) trivial
  | flushAll ready answers =>
    exact iff_of_true (Avoids.bind (flushAllOutput_avoids _ _ _) fun _ _ => Avoids.ok _) trivial

/-- In every state that a run gets to the streams are as they are to be, and a next call keeps them so exactly when the
sum that it makes is an `int`. -/
theorem outputStream_iff_fits {σ : Session} (h : σ.Run) :
    σ.Integrity ∧ ∀ call : Call, call.Typed → (σ.Keeps call ↔ call.Fits σ.server) := by
  refine ⟨h.sound.integrity,fun call htyped => ⟨fun hk => (h.sound.avoids_iff htyped).1 hk.1,fun hfits => ?_⟩⟩
  exact ⟨(h.sound.avoids_iff htyped).2 hfits,fun σ' hcall => (h.sound.call htyped hcall).integrity⟩

/-- Clients of another host, before the first call. -/
def opened : Session :=
  ⟨⟨fun _ => ⟨none,true,false,false,false,[]⟩,[],[],false,false⟩,fun _ => []⟩

lemma opened_run : opened.Run := .initial ⟨fun _ => rfl,fun _ => rfl,fun _ h => (nomatch h),rfl,fun _ => rfl⟩

/-- There is memory, and the transport would block. -/
def stuffed : Surroundings := ⟨true,true,[.wouldBlock],[.wouldBlock]⟩

/-- A message of five bytes, and the session after it. -/
theorem outputStream_iff_fits_five : ∃ σ, opened.call (.write 1 [1,2,3,4,5] stuffed) = .ok σ ∧ σ.Integrity ∧
    σ.Keeps (.write 1 [6] stuffed) := by
  have htyped : (Call.write 1 [1,2,3,4,5] stuffed).Typed := (by decide : 5 < 2^31)
  have hrun : ∀ σ, opened.call (.write 1 [1,2,3,4,5] stuffed) = .ok σ → σ.Run := fun σ h => .call opened_run htyped h
  refine ⟨_,rfl,(outputStream_iff_fits (hrun _ rfl)).1,?_⟩
  refine ((outputStream_iff_fits (hrun _ rfl)).2 (.write 1 [6] stuffed) (by decide : (1 : ℕ) < 2^31)).2 ?_
  exact Or.inr (Or.inr (Or.inr (by decide : 8 + needed [6] < 2^31)))

/-- The longest message that an `int` can count. -/
def longest : List Byte := List.replicate (2^31-1) 0

/-- With its one byte of padding the longest message makes a sum of 2³¹. -/
theorem longest_not_kept : opened.Run ∧ (Call.write 1 longest stuffed).Typed ∧
    opened.call (.write 1 longest stuffed) = .error .signedOverflow ∧ ¬opened.Keeps (.write 1 longest stuffed) := by
  have hlen : longest.length = 2^31-1 := List.length_replicate
  have hfits : ¬Fits stuffed opened.server 1 longest := by
    rintro (hdrop | hbuffer | hlocal | hsum)
    · obtain h | h | h := hdrop
      · rw [hlen] at h
        exact absurd h (by decide)
      · exact absurd h (by decide)
      · cases h
    · cases hbuffer.2.2
    · cases hlocal.2
    · rw [needed,hlen] at hsum
      exact absurd hsum (by decide)
  have hover : opened.call (.write 1 longest stuffed) = .error .signedOverflow := by
    change (writeToClient stuffed opened.server 1 longest >>= _) = _
    rw [writeToClient_overflow opened_run.sound.sane hfits]
    rfl
  refine ⟨opened_run,?_,hover,fun hk => hk.1 .signedOverflow (fun h => by cases h) hover⟩
  change longest.length < 2^31
  rw [hlen]
  decide

end Xlibre.Os
