import Xlibre.Os.Output

/-! What has been accepted from a client's buffer and what waits in it make up all that was written to the client. -/
namespace Xlibre.Os
open Xlibre.Lib Checked

/-- What the loop of a flush has done when it ends, of so many bytes in all. -/
def Flushed.Ok (buf : ℕ → Byte) (total : ℕ) : Flushed → Prop
  | .all sent => sent = slice buf 0 total
  | .blocked written notWritten sent => written+notWritten = total ∧ sent = slice buf 0 written
  | .failed _ => True

lemma flushLoop_ok {buf : ℕ → Byte} {answers : List Attempt} {written notWritten todo : ℕ} {sent : List Byte}
    {r : Flushed} (htodo : todo ≤ notWritten) (hsent : sent = slice buf 0 written)
    (h : flushLoop buf answers written notWritten todo sent = .ok r) : r.Ok buf (written+notWritten) := by
  induction answers generalizing written notWritten todo sent with
  | nil =>
    simp only [flushLoop] at h
    split_ifs at h with hdone
    cases h
    rw [hdone]
    exact hsent
  | cons answer answers ih =>
    unfold flushLoop at h
    by_cases hdone : notWritten = 0
    · rw [if_pos hdone] at h
      cases h
      rw [hdone]
      exact hsent
    rw [if_neg hdone] at h
    cases answer with
    | takes n =>
      have hle : min n todo ≤ notWritten := (Nat.min_le_right _ _).trans htodo
      have hnew := ih le_rfl (by rw [slice_add,hsent,Nat.zero_add]) h
      rwa [Nat.add_assoc,Nat.add_sub_cancel' hle] at hnew
    | wouldBlock =>
      cases h
      exact ⟨rfl,hsent⟩
    | tooBig => exact ih ((Nat.div_le_self _ _).trans htodo) hsent h
    | fails =>
      cases h
      trivial

/-- What the transport has of a client's output, followed by what the client's buffer has. -/
def Client.carried (c : Client) : List Byte := c.accepted ++ c.output.elim [] ConnectionOutput.contents

/-- No buffer holds more than fits, and those that no client has are empty. -/
structure Sane (s : Server) : Prop where
  clients : ∀ c oco, (s.client c).output = some oco → oco.count ≤ oco.size ∧ oco.size < 2^31
  free : ∀ oco ∈ s.freeOutputs, oco.count = 0 ∧ oco.size < 2^31

/-- What a part of a call does to its client's output, unless it loses the client, and to the others: they keep all. -/
structure Carries (s s' : Server) (who : ℕ) (extra : List Byte) : Prop where
  others : ∀ c, c ≠ who → s'.client c = s.client c
  pending : ∀ c, c ≠ who → c ∈ s.outputPending → c ∈ s'.outputPending
  gone : (s'.client who).clientGone = (s.client who).clientGone
  place : (s'.client who).isLocal = (s.client who).isLocal
  carried : (s'.client who).transConn = true → (s.client who).transConn = true ∧
    (s'.client who).carried = (s.client who).carried ++ extra
  sane : Sane s → Sane s'

/-- A client with something in its buffer is waiting for a flush. -/
def Listed (s : Server) (who : ℕ) : Prop := (s.client who).transConn = true → (s.client who).clientGone = false →
  (s.client who).output.elim [] ConnectionOutput.contents ≠ [] → who ∈ s.outputPending

variable {s s1 s' : Server} {who c : ℕ} {extra : List Byte}

lemma Carries.refl : Carries s s who [] :=
  ⟨fun _ _ => rfl,fun _ _ h => h,rfl,rfl,fun h => ⟨h,(List.append_nil _).symm⟩,fun h => h⟩

lemma Carries.trans {extra' : List Byte} (h : Carries s s1 who extra) (h' : Carries s1 s' who extra') :
    Carries s s' who (extra ++ extra') := by
  refine ⟨fun c hc => (h'.others c hc).trans (h.others c hc),fun c hc hp => h'.pending c hc (h.pending c hc hp),
    h'.gone.trans h.gone,h'.place.trans h.place,fun ht => ?_,fun hs => h'.sane (h.sane hs)⟩
  obtain ⟨ht1,hc1⟩ := h'.carried ht
  obtain ⟨ht0,hc0⟩ := h.carried ht1
  exact ⟨ht0,by rw [hc1,hc0,List.append_assoc]⟩

@[simp] lemma set_self (f : Client → Client) : (s.set who f).client who = f (s.client who) := Function.update_self _ _ _

lemma set_ne (f : Client → Client) (hc : c ≠ who) : (s.set who f).client c = s.client c := Function.update_of_ne hc _ _

@[simp] lemma mark_client (who : ℕ) : (s.outputPendingMark who).client = s.client := by
  unfold Server.outputPendingMark
  split_ifs <;> rfl

@[simp] lemma mark_free (who : ℕ) : (s.outputPendingMark who).freeOutputs = s.freeOutputs := by
  unfold Server.outputPendingMark
  split_ifs <;> rfl

lemma mem_mark (h : c ∈ s.outputPending) : c ∈ (s.outputPendingMark who).outputPending := by
  unfold Server.outputPendingMark
  split_ifs
  · exact List.mem_append_left _ h
  · exact h

lemma mem_mark_self (h : (s.client who).clientGone = false) : who ∈ (s.outputPendingMark who).outputPending := by
  unfold Server.outputPendingMark
  split_ifs with hmark
  · exact List.mem_append_right _ (List.mem_singleton_self who)
  · simpa [h] using hmark

lemma mem_clear (hc : c ≠ who) (h : c ∈ s.outputPending) : c ∈ (s.outputPendingClear who).outputPending :=
  List.mem_filter.2 ⟨h,by simpa using hc⟩

lemma sane_set {f : Client → Client} (hs : Sane s)
    (hf : ∀ oco, (f (s.client who)).output = some oco → oco.count ≤ oco.size ∧ oco.size < 2^31) : Sane (s.set who f) := by
  refine ⟨fun c oco hoco => ?_,hs.free⟩
  by_cases hc : c = who
  · subst hc
    rw [set_self] at hoco
    exact hf oco hoco
  · rw [set_ne f hc] at hoco
    exact hs.clients c oco hoco

lemma Sane.of_eq (hs : Sane s) (hc : s'.client = s.client) (hf : s'.freeOutputs = s.freeOutputs) : Sane s' := by
  refine ⟨fun c oco => ?_,?_⟩
  · rw [hc]
    exact hs.clients c oco
  · rw [hf]
    exact hs.free

lemma carried_of_output {c : Client} {oco : ConnectionOutput} (h : c.output = some oco) :
    c.carried = c.accepted ++ oco.contents := by
  rw [Client.carried,h]
  rfl

lemma carries_setOutput {oco : ConnectionOutput}
    (hc : oco.contents = (s.client who).output.elim [] ConnectionOutput.contents ++ extra)
    (hsane : oco.count ≤ oco.size ∧ oco.size < 2^31) : Carries s (s.setOutput who (some oco)) who extra := by
  refine ⟨fun c hc => set_ne _ hc,fun c _ h => h,?_,?_,fun ht => ?_,fun hs => sane_set hs fun oco' h' => ?_⟩
  · rw [Server.setOutput,set_self]
  · rw [Server.setOutput,set_self]
  · rw [Server.setOutput,set_self] at ht ⊢
    refine ⟨ht,?_⟩
    rw [carried_of_output rfl,hc,Client.carried,List.append_assoc]
  · obtain rfl := Option.some.inj h'
    exact hsane

lemma carries_lost {f : Client → Client} (hgone : (f (s.client who)).clientGone = (s.client who).clientGone)
    (hplace : (f (s.client who)).isLocal = (s.client who).isLocal) (hconn : (f (s.client who)).transConn = false)
    (hf : Sane s → ∀ oco, (f (s.client who)).output = some oco → oco.count ≤ oco.size ∧ oco.size < 2^31) :
    Carries s (s.set who f) who extra := by
  refine ⟨fun c hc => set_ne _ hc,fun c _ h => h,?_,?_,fun ht => ?_,fun hs => sane_set hs (hf hs)⟩
  · rw [set_self,hgone]
  · rw [set_self,hplace]
  · rw [set_self,hconn] at ht
    cases ht

lemma set_set (f g : Client → Client) : (s.set who f).set who g = s.set who (g ∘ f) := by
  simp [Server.set]

lemma contents_take (oco : ConnectionOutput) {written notWritten : ℕ} (h : written+notWritten = oco.count) :
    slice oco.buf 0 written ++ (oco.keep written notWritten).contents = oco.contents := by
  have hmoved : (oco.keep written notWritten).contents = slice oco.buf written notWritten := by
    unfold ConnectionOutput.keep ConnectionOutput.contents
    by_cases hw : 0 < written
    · rw [if_pos hw]
      have hstore := slice_store (m := oco.buf) (a := 0) (l := slice oco.buf written notWritten)
      rw [length_slice] at hstore
      dsimp only
      rw [show oco.count-written = notWritten by omega]
      exact hstore
    · rw [if_neg hw]
      obtain rfl : written = 0 := by omega
      rfl
  rw [hmoved,ConnectionOutput.contents,← h,slice_add,Nat.zero_add]

lemma keep_size (oco : ConnectionOutput) (written notWritten : ℕ) : (oco.keep written notWritten).size = oco.size ∧
    (oco.keep written notWritten).count = notWritten := by
  unfold ConnectionOutput.keep
  split_ifs <;> exact ⟨rfl,rfl⟩

/-- What `FlushClient` leaves: the client is lost, or its buffer has no more than before and it is on the list if
something is left. -/
structure FlushedTo (s s' : Server) (who : ℕ) (alive : Bool) : Prop where
  carries : Carries s s' who []
  listed : Listed s' who
  lost : alive = false → (s'.client who).transConn = false
  less : ∀ oco', (s'.client who).output = some oco' → ∃ oco, (s.client who).output = some oco ∧ oco'.count ≤ oco.count

lemma listed_of_lost (h : (s.client who).transConn = false) : Listed s who := by
  intro ht
  rw [h] at ht
  cases ht

lemma listed_of_empty (h : (s.client who).output.elim [] ConnectionOutput.contents = []) : Listed s who :=
  fun _ _ hne => absurd h hne

@[simp] lemma recycle_client (oco : ConnectionOutput) : (s.recycle oco).client = s.client := by
  unfold Server.recycle
  split_ifs <;> rfl

@[simp] lemma recycle_pending (oco : ConnectionOutput) : (s.recycle oco).outputPending = s.outputPending := by
  unfold Server.recycle
  split_ifs <;> rfl

lemma sane_recycle {oco : ConnectionOutput} (hs : Sane s) (hsize : oco.size < 2^31) : Sane (s.recycle oco) := by
  unfold Server.recycle
  split_ifs
  · exact hs
  · exact ⟨hs.clients,List.forall_mem_cons.2 ⟨⟨rfl,hsize⟩,hs.free⟩⟩

@[simp] lemma setOutput_client (output : Option ConnectionOutput) :
    (s.setOutput who output).client who = { s.client who with output := output } := set_self _

lemma flushed_all {oco : ConnectionOutput} {sent : List Byte} (hs : Sane s) (ho : (s.client who).output = some oco)
    (hsent : sent = slice oco.buf 0 oco.count) :
    FlushedTo s ((((s.set who (·.take sent)).outputPendingClear who).setOutput who none).recycle oco) who true := by
  set s1 := ((s.set who (·.take sent)).outputPendingClear who).setOutput who none with hs1
  have hself : s1.client who = { (s.client who).take sent with output := none } := by
    rw [hs1,setOutput_client]
    change { (s.set who (·.take sent)).client who with output := none } = _
    rw [set_self]
  have hother : ∀ c, c ≠ who → s1.client c = s.client c := by
    intro c hc
    rw [hs1,Server.setOutput,set_ne _ hc]
    change (s.set who (·.take sent)).client c = s.client c
    exact set_ne _ hc
  have hsane : Sane s1 := by
    have htaken : Sane (s.set who (·.take sent)) := sane_set hs fun oco' h' => hs.clients who oco' h'
    exact sane_set (htaken.of_eq rfl rfl) fun oco' h' => nomatch h'
  refine ⟨⟨?_,?_,?_,?_,?_,fun _ => sane_recycle hsane (hs.clients who oco ho).2⟩,?_,fun hf => (nomatch hf),?_⟩
  · simpa only [recycle_client] using hother
  · intro c hc hp
    rw [recycle_pending]
    exact mem_clear hc hp
  · rw [recycle_client,hself]
    rfl
  · rw [recycle_client,hself]
    rfl
  · rw [recycle_client,hself]
    refine fun ht => ⟨ht,?_⟩
    rw [carried_of_output ho,Client.carried,Client.take,hsent,ConnectionOutput.contents]
    rfl
  · apply listed_of_empty
    rw [recycle_client,hself]
    rfl
  · intro oco' h'
    rw [recycle_client,hself] at h'
    cases h'

lemma flushed_blocked {oco : ConnectionOutput} {written notWritten : ℕ} {sent : List Byte} (hs : Sane s)
    (ho : (s.client who).output = some oco) (hsum : written+notWritten = oco.count)
    (hsent : sent = slice oco.buf 0 written) :
    FlushedTo s (((s.set who (·.take sent)).outputPendingMark who).setOutput who (some (oco.keep written notWritten)))
      who true := by
  set s1 := ((s.set who (·.take sent)).outputPendingMark who).setOutput who (some (oco.keep written notWritten)) with hs1
  obtain ⟨hcount,hsize⟩ := hs.clients who oco ho
  obtain ⟨hksize,hkcount⟩ := keep_size oco written notWritten
  have hself : s1.client who = { (s.client who).take sent with output := some (oco.keep written notWritten) } := by
    rw [hs1,setOutput_client,mark_client,set_self]
  have hother : ∀ c, c ≠ who → s1.client c = s.client c := by
    intro c hc
    rw [hs1,Server.setOutput,set_ne _ hc,mark_client]
    exact set_ne _ hc
  have hsane : Sane s1 := by
    refine sane_set (Sane.of_eq ?_ (mark_client who) (mark_free who)) fun oco' h' => ?_
    · exact sane_set hs fun oco' h' => hs.clients who oco' h'
    · obtain rfl := Option.some.inj h'
      rw [hksize,hkcount]
      omega
  refine ⟨⟨hother,fun c _ hp => mem_mark hp,?_,?_,fun ht => ?_,fun _ => hsane⟩,?_,fun hf => (nomatch hf),?_⟩
  · rw [hself]
    rfl
  · rw [hself]
    rfl
  · rw [hself] at ht ⊢
    refine ⟨ht,?_⟩
    rw [carried_of_output ho,carried_of_output rfl,Client.take,hsent,List.append_nil,← contents_take oco hsum,
      List.append_assoc]
  · intro _ hgone _
    apply mem_mark_self
    rw [hself] at hgone
    rw [set_self]
    exact hgone
  · intro oco' h'
    rw [hself] at h'
    obtain rfl := Option.some.inj h'
    exact ⟨oco,ho,by rw [hkcount]; omega⟩

theorem flushClient_flushed {answers : List Attempt} {alive : Bool} (hs : Sane s)
    (h : flushClient s who answers = .ok (alive,s')) : FlushedTo s s' who alive := by
  cases ho : (s.client who).output with
  | none =>
    simp only [flushClient,ho] at h
    cases h
    refine ⟨Carries.refl,listed_of_empty (by rw [ho]; rfl),fun hf => (nomatch hf),fun oco' h' => ?_⟩
    rw [ho] at h'
    cases h'
  | some oco =>
    obtain ⟨hcount,hsize⟩ := hs.clients who oco ho
    have hzero : ∀ oco', some { oco with count := 0 } = some oco' → oco'.count ≤ oco'.size ∧ oco'.size < 2^31 := by
      intro oco' h'
      obtain rfl := Option.some.inj h'
      exact ⟨Nat.zero_le _,hsize⟩
    simp only [flushClient,ho] at h
    split_ifs at h with hconn hempty
    · -- there is no transport: the client is lost already
      cases h
      unfold Server.abort Server.setOutput
      rw [set_set]
      refine ⟨carries_lost rfl rfl rfl fun _ => hzero,listed_of_lost (by rw [set_self]; rfl),fun _ => by rw [set_self]; rfl,
        fun oco' h' => ?_⟩
      rw [set_self] at h'
      obtain rfl := Option.some.inj h'
      exact ⟨oco,ho,Nat.zero_le _⟩
    · cases h
      refine ⟨Carries.refl,listed_of_empty ?_,fun hf => (nomatch hf),fun oco' h' => ⟨oco',h',le_rfl⟩⟩
      rw [ho,Option.elim_some,ConnectionOutput.contents,hempty]
      rfl
    · obtain ⟨r,hr,h⟩ := bind_eq_ok.1 h
      have hok := flushLoop_ok le_rfl rfl hr
      rw [Nat.zero_add] at hok
      cases r with
      | all sent =>
        cases h
        exact flushed_all hs ho hok
      | blocked written notWritten sent =>
        cases h
        exact flushed_blocked hs ho hok.1 hok.2
      | failed sent =>
        cases h
        unfold Server.abort Server.setOutput
        rw [set_set,set_set]
        refine ⟨carries_lost rfl rfl rfl fun _ => hzero,listed_of_lost (by rw [set_self]; rfl),
          fun _ => by rw [set_self]; rfl,fun oco' h' => ?_⟩
        rw [set_self] at h'
        obtain rfl := Option.some.inj h'
        exact ⟨oco,ho,Nat.zero_le _⟩

end Xlibre.Os
