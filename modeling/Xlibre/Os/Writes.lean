import Xlibre.Os.Stream

/-! A call of `WriteToClient` adds the padded message to what the client gets, and nothing else. -/
namespace Xlibre.Os
open Xlibre.Lib Checked

variable {s s' : Server} {who : ℕ} {env : Surroundings} {msg : List Byte}

lemma append_ok {oco : ConnectionOutput} (h : oco.count + needed msg ≤ oco.size) :
    ∃ oco', oco.append msg = .ok oco' ∧ oco'.contents = oco.contents ++ padded msg ∧
      oco'.count = oco.count + needed msg ∧ oco'.size = oco.size := by
  unfold needed at h
  unfold ConnectionOutput.append
  rw [if_pos (by omega)]
  refine ⟨_,rfl,?_,by rw [needed,Nat.add_assoc],rfl⟩
  have hpad := slice_store_append (m := store oco.buf oco.count msg) (b := 0) (a := oco.count+msg.length)
    (l := List.replicate (padding msg.length) 0) (Nat.zero_add _).symm
  have hmsg := slice_store_append (m := oco.buf) (b := 0) (a := oco.count) (l := msg) (Nat.zero_add _).symm
  rw [List.length_replicate] at hpad
  unfold ConnectionOutput.contents
  dsimp only
  rw [hpad,hmsg,padded,List.append_assoc]

/-- What `OutputEnsureBuffer` finds: the client's own buffer or an empty one, unless the client is lost. -/
structure Ensured (s s' : Server) (who : ℕ) (found : Option ConnectionOutput) : Prop where
  carries : Carries s s' who []
  output : ∀ oco, found = some oco → (s'.client who).output = some oco
  old : ∀ oco, found = some oco → (s.client who).output = some oco ∨ (s.client who).output = none ∧ oco.count = 0
  lost : found = none → (s'.client who).transConn = false

lemma outputEnsureBuffer_ensured (hs : Sane s) (alloc : Bool) :
    Ensured s (outputEnsureBuffer s who alloc).2 who (outputEnsureBuffer s who alloc).1 := by
  unfold outputEnsureBuffer
  split
  · next oco _ ho =>
    exact ⟨Carries.refl,fun oco' h => h ▸ ho,fun oco' h => Or.inl (h ▸ ho),fun h => by cases h⟩
  · next oco rest ho hfree =>
    obtain ⟨hzero,hsize⟩ := hs.free oco (by rw [hfree]; exact List.mem_cons_self)
    have hrest : Carries s { s with freeOutputs := rest } who [] := by
      refine ⟨fun _ _ => rfl,fun _ _ h => h,rfl,rfl,fun h => ⟨h,(List.append_nil _).symm⟩,fun hs => ⟨hs.clients,?_⟩⟩
      intro oco' h'
      exact hs.free oco' (by rw [hfree]; exact List.mem_cons_of_mem _ h')
    have hset : Carries { s with freeOutputs := rest } (({ s with freeOutputs := rest } : Server).setOutput who (some oco))
        who [] := by
      refine carries_setOutput ?_ ⟨by omega,hsize⟩
      simp [ho,ConnectionOutput.contents,hzero]
    refine ⟨hrest.trans hset,fun oco' h => ?_,fun oco' h => Or.inr ⟨ho,?_⟩,fun h => by cases h⟩
    · rw [setOutput_client]
      exact h
    · rw [← Option.some.inj h]
      exact hzero
  · next ho hfree =>
    split_ifs
    · refine ⟨carries_setOutput ?_ ⟨by decide,by decide⟩,fun oco' h => ?_,fun oco' h => Or.inr ⟨ho,?_⟩,
        fun h => by cases h⟩
      · rw [ho]
        rfl
      · rw [setOutput_client]
        exact h
      · rw [← Option.some.inj h]
        rfl
    · have hlost : Carries s (s.abort who) who [] := carries_lost rfl rfl rfl fun hs oco' h' => hs.clients who oco' h'
      refine ⟨hlost,fun oco' h => (by cases h),fun oco' h => (by cases h),fun _ => ?_⟩
      change ((s.abort who).client who).transConn = false
      rw [Server.abort,set_self]

/-- What a part of a call leaves: the message has been added, and a client with something in its buffer is on the list. -/
structure Written (s s' : Server) (who : ℕ) (extra : List Byte) : Prop where
  carries : Carries s s' who extra
  listed : Listed s' who

lemma memcpyAndFlush_written {oco : ConnectionOutput} {answers : List Attempt} {r : Option ℕ} (hs : Sane s)
    (hold : oco.contents = (s.client who).output.elim [] ConnectionOutput.contents) (hsize : oco.size < 2^31)
    (hfits : oco.count + needed msg ≤ oco.size) (h : memcpyAndFlush s who oco msg answers = .ok (r,s')) :
    Written s s' who (padded msg) := by
  obtain ⟨oco',happ,hcont,hcount,hsz⟩ := append_ok hfits
  obtain ⟨oco1,h1,h⟩ := bind_eq_ok.1 h
  obtain rfl : oco' = oco1 := Except.ok.inj (happ.symm.trans h1)
  obtain ⟨⟨alive,s1⟩,hflush,h⟩ := bind_eq_ok.1 h
  cases h
  have hset : Carries s (s.setOutput who (some oco')) who (padded msg) :=
    carries_setOutput (by rw [hcont,hold]) ⟨by omega,by omega⟩
  have hf := flushClient_flushed (hset.sane hs) hflush
  refine ⟨?_,hf.listed⟩
  have := hset.trans hf.carries
  rwa [List.append_nil] at this

lemma toInt_of_lt {n : ℕ} (h : n < 2^32) (hn : ¬toInt n < 0) : (toInt n).toNat = n ∧ n < 2^31 := by
  unfold toInt at hn ⊢
  rw [Nat.mod_eq_of_lt h] at hn ⊢
  split_ifs at hn ⊢ with hlt
  · exact ⟨Int.toNat_natCast n,hlt⟩
  · omega

lemma contents_size (oco : ConnectionOutput) (size : ℕ) :
    ({ oco with size } : ConnectionOutput).contents = oco.contents := rfl

lemma rounded_fits {c n : ℕ} (h : c + n ≤ 2^31) :
    c + n ≤ c + (n/bufSize + 1)*bufSize ∧ c + (n/bufSize + 1)*bufSize < 2^32 := by
  unfold bufSize
  omega

lemma enlargeAndFlush_written {r : Option ℕ} (hs : Sane s)
    (hsum : ∀ oco, (s.client who).output = some oco → oco.count + needed msg ≤ 2^31) (hmsg : needed msg ≤ 2^31)
    (h : enlargeAndFlush env s who msg = .ok (r,s')) : Written s s' who (padded msg) := by
  have he : Ensured s _ who _ := outputEnsureBuffer_ensured hs env.alloc
  unfold enlargeAndFlush at h
  cases hfound : outputEnsureBuffer s who env.alloc with
  | mk found s1 =>
    rw [hfound] at h he
    cases found with
    | none =>
      cases h
      have hlost := he.lost rfl
      refine ⟨⟨he.carries.others,he.carries.pending,he.carries.gone,he.carries.place,fun ht => ?_,he.carries.sane⟩,
        listed_of_lost hlost⟩
      rw [hlost] at ht
      cases ht
    | some oco =>
      dsimp only at h
      have hout := he.output oco rfl
      have hs1 := he.carries.sane hs
      obtain ⟨hcount,hsize⟩ := hs1.clients who oco hout
      have hold : oco.contents = (s1.client who).output.elim [] ConnectionOutput.contents := by rw [hout]; rfl
      have hadd : Written s1 s' who (padded msg) → Written s s' who (padded msg) :=
        fun hw => ⟨he.carries.trans hw.carries,hw.listed⟩
      apply hadd
      split_ifs at h with hfits hneg
      · exact memcpyAndFlush_written hs1 hold hsize hfits h
      · cases h
        unfold Server.abort Server.setOutput
        rw [set_set]
        refine ⟨carries_lost rfl rfl rfl fun _ oco' h' => ?_,listed_of_lost (by rw [set_self]; rfl)⟩
        obtain rfl := Option.some.inj h'
        exact ⟨Nat.zero_le _,hsize⟩
      · have hbound : oco.count + needed msg ≤ 2^31 := by
          obtain ho | ⟨-,hz⟩ := he.old oco rfl
          · exact hsum oco ho
          · rwa [hz,Nat.zero_add]
        obtain ⟨hroom,hlt⟩ := rounded_fits hbound
        have hpos : ¬toInt (oco.count + (needed msg/bufSize + 1)*bufSize) < 0 := fun hn => hneg (by simp [hn])
        obtain ⟨hnat,hsmall⟩ := toInt_of_lt hlt hpos
        refine memcpyAndFlush_written hs1 ((contents_size oco _).trans hold) ?_ ?_ h
        · dsimp only
          rwa [hnat]
        · dsimp only
          rwa [hnat]

lemma makeRoomAndFlush_written {r : Option ℕ} (hs : Sane s)
    (hsum : ∀ oco, (s.client who).output = some oco → oco.count + needed msg ≤ 2^31) (hmsg : needed msg ≤ 2^31)
    (h : outputBufferMakeRoomAndFlush env s who msg = .ok (r,s')) : Written s s' who (padded msg) := by
  cases ho : (s.client who).output with
  | none =>
    simp only [outputBufferMakeRoomAndFlush,ho] at h
    exact enlargeAndFlush_written hs hsum hmsg h
  | some oco =>
    obtain ⟨hcount,hsize⟩ := hs.clients who oco ho
    simp only [outputBufferMakeRoomAndFlush,ho] at h
    split_ifs at h with hfits
    · exact memcpyAndFlush_written hs (by rw [ho]; rfl) hsize hfits h
    · obtain ⟨⟨alive,s1⟩,hflush,h⟩ := bind_eq_ok.1 h
      have hf := flushClient_flushed hs hflush
      cases alive with
      | false =>
        cases h
        have hlost := hf.lost rfl
        refine ⟨⟨hf.carries.others,hf.carries.pending,hf.carries.gone,hf.carries.place,fun ht => ?_,hf.carries.sane⟩,
          hf.listed⟩
        rw [hlost] at ht
        cases ht
      | true =>
        have hw := enlargeAndFlush_written (hf.carries.sane hs) (fun oco' h' => ?_) hmsg h
        · exact ⟨hf.carries.trans hw.carries,hw.listed⟩
        · obtain ⟨oco1,h1,hle⟩ := hf.less oco' h'
          have := hsum oco1 h1
          omega

/-- Messages that `WriteToClient` does not look at. -/
def Dropped (s : Server) (who : ℕ) (msg : List Byte) : Prop :=
  msg.length = 0 ∨ who = serverClient ∨ (s.client who).clientGone = true

instance (s : Server) (who : ℕ) (msg : List Byte) : Decidable (Dropped s who msg) :=
  inferInstanceAs (Decidable (_ ∨ _))

def buffered (s : Server) (who : ℕ) : ℕ := (s.client who).output.elim 0 (·.count)

lemma Ensured.count {oco : ConnectionOutput} (h : Ensured s s' who (some oco)) : oco.count = buffered s who := by
  unfold buffered
  obtain ho | ⟨ho,hz⟩ := h.old oco rfl
  · rw [ho]
    rfl
  · rw [ho]
    exact hz

lemma needed_le (h : msg.length < 2^31) : needed msg ≤ 2^31 := by
  unfold needed padding
  omega

lemma needsRoom_eq (oco : ConnectionOutput) (isLocal : Bool) (msg : List Byte) : needsRoom oco isLocal msg.length =
    if oco.count = 0 ∧ isLocal = true then .ok true
    else if oco.count + needed msg < 2^31 then .ok (decide (oco.count + needed msg > oco.size))
    else .error .signedOverflow := by
  unfold needsRoom needed
  by_cases hlocal : oco.count = 0 ∧ isLocal = true
  · rw [if_pos hlocal,if_pos hlocal]
  rw [if_neg hlocal,if_neg hlocal]
  by_cases hfirst : oco.count + msg.length < 2^31
  · have h1 : addInt oco.count msg.length = .ok (oco.count + msg.length) := if_pos hfirst
    rw [h1]
    by_cases hsum : oco.count + (msg.length + padding msg.length) < 2^31
    · have h2 : addInt (oco.count + msg.length) (padding msg.length) =
          .ok (oco.count + msg.length + padding msg.length) := if_pos (by omega)
      rw [if_pos hsum,← Nat.add_assoc]
      change (addInt (oco.count + msg.length) (padding msg.length) >>= _) = _
      rw [h2]
      rfl
    · have h2 : addInt (oco.count + msg.length) (padding msg.length) = .error .signedOverflow := if_neg (by omega)
      rw [if_neg hsum]
      change (addInt (oco.count + msg.length) (padding msg.length) >>= _) = _
      rw [h2]
      rfl
  · have h1 : addInt oco.count msg.length = .error .signedOverflow := if_neg hfirst
    rw [h1,if_neg (by omega)]
    rfl

lemma listed_mark {f : Client → Client} (hgone : (f (s.client who)).clientGone = (s.client who).clientGone) :
    Listed ((s.outputPendingMark who).set who f) who := by
  intro _ hg _
  apply mem_mark_self
  rw [set_self,mark_client,hgone] at hg
  exact hg

lemma bufferMessage_written {oco oco' : ConnectionOutput} (ho : (s.client who).output = some oco)
    (hsize : oco.size < 2^31) (hfits : oco.count + needed msg ≤ oco.size) (h : oco.append msg = .ok oco') :
    Written s ((({ s with newOutputPending := true } : Server).outputPendingMark who).setOutput who (some oco')) who
      (padded msg) := by
  obtain ⟨oco1,happ,hcont,hcount,hsz⟩ := append_ok hfits
  obtain rfl : oco1 = oco' := Except.ok.inj (happ.symm.trans h)
  have hmark : Carries s (({ s with newOutputPending := true } : Server).outputPendingMark who) who [] := by
    refine ⟨fun c _ => ?_,fun c _ hp => mem_mark hp,?_,?_,fun ht => ?_,fun hs => hs.of_eq (mark_client who) (mark_free who)⟩
    · rw [mark_client]
    · rw [mark_client]
    · rw [mark_client]
    · rw [mark_client] at ht ⊢
      exact ⟨ht,(List.append_nil _).symm⟩
  refine ⟨?_,listed_mark rfl⟩
  refine hmark.trans (carries_setOutput ?_ ⟨by omega,by omega⟩)
  rw [mark_client,ho,hcont]
  rfl

@[simp] lemma beforeFlush_client (who : ℕ) : (s.beforeFlush who).client = s.client := by
  unfold Server.beforeFlush
  dsimp only
  split_ifs <;> rfl

lemma beforeFlush_carries : Carries s (s.beforeFlush who) who [] := by
  have hclear : Carries s (s.outputPendingClear who) who [] :=
    ⟨fun _ _ => rfl,fun c hc hp => mem_clear hc hp,rfl,rfl,fun h => ⟨h,(List.append_nil _).symm⟩,
      fun hs => ⟨hs.clients,hs.free⟩⟩
  unfold Server.beforeFlush
  dsimp only
  split_ifs
  · exact ⟨hclear.others,hclear.pending,hclear.gone,hclear.place,hclear.carried,fun hs => ⟨hs.clients,hs.free⟩⟩
  · exact hclear

/-- `WriteToClient` adds the message and its padding to the client's output, or nothing of a message that it does not
look at. -/
theorem writeToClient_written {r : Option ℕ} (hs : Sane s) (hlisted : Listed s who) (hmsg : msg.length < 2^31)
    (h : writeToClient env s who msg = .ok (r,s')) :
    Written s s' who (if Dropped s who msg then [] else padded msg) := by
  unfold writeToClient at h
  by_cases hdrop : Dropped s who msg
  · rw [if_pos hdrop]
    unfold Dropped at hdrop
    rw [if_pos hdrop] at h
    cases h
    exact ⟨Carries.refl,hlisted⟩
  rw [if_neg hdrop]
  unfold Dropped at hdrop
  rw [if_neg hdrop] at h
  have he : Ensured s _ who _ := outputEnsureBuffer_ensured hs env.alloc
  cases hfound : outputEnsureBuffer s who env.alloc with
  | mk found s1 =>
    rw [hfound] at h he
    cases found with
    | none =>
      cases h
      have hlost := he.lost rfl
      refine ⟨⟨he.carries.others,he.carries.pending,he.carries.gone,he.carries.place,fun ht => ?_,he.carries.sane⟩,
        listed_of_lost hlost⟩
      rw [hlost] at ht
      cases ht
    | some oco =>
      have hout := he.output oco rfl
      have hs1 := he.carries.sane hs
      obtain ⟨hcount,hsize⟩ := hs1.clients who oco hout
      obtain ⟨room,hroom,h⟩ := bind_eq_ok.1 h
      rw [needsRoom_eq] at hroom
      have hadd : Written s1 s' who (padded msg) → Written s s' who (padded msg) :=
        fun hw => ⟨he.carries.trans hw.carries,hw.listed⟩
      apply hadd
      cases room with
      | true =>
        have hsum : oco.count + needed msg ≤ 2^31 := by
          have hle := needed_le hmsg
          split_ifs at hroom with hlocal hlt
          · omega
          · omega
        have hclear : Carries s1 (s1.beforeFlush who) who [] := beforeFlush_carries
        have hbound : ∀ oco', ((s1.beforeFlush who).client who).output = some oco' → oco'.count + needed msg ≤ 2^31 := by
          intro oco' h'
          rw [beforeFlush_client] at h'
          obtain rfl : oco = oco' := Option.some.inj (hout.symm.trans h')
          exact hsum
        have hw := makeRoomAndFlush_written (hclear.sane hs1) hbound (needed_le hmsg) h
        exact ⟨hclear.trans hw.carries,hw.listed⟩
      | false =>
        have hfits : oco.count + needed msg ≤ oco.size := by
          split_ifs at hroom with hlocal hlt
          · cases Except.ok.inj hroom
          · exact Nat.le_of_not_lt (of_decide_eq_false (Except.ok.inj hroom))
        obtain ⟨oco',happ,h⟩ := bind_eq_ok.1 h
        cases h
        exact bufferMessage_written hout hsize hfits happ

end Xlibre.Os
