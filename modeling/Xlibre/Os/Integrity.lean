import Xlibre.Os.Writes

/-! The output stream of every client along any run of writes and flushes. -/
namespace Xlibre.Os
open Xlibre.Lib Checked

variable {s s' : Server} {who : ℕ} {env : Surroundings} {msg : List Byte}

/-- All stops but that of a call which goes on writing. -/
def Undefined (e : Stop) : Prop := e ≠ .stillWriting

lemma flushLoop_avoids (buf : ℕ → Byte) (answers : List Attempt) (written notWritten todo : ℕ) (sent : List Byte) :
    Avoids Undefined (flushLoop buf answers written notWritten todo sent) := by
  induction answers generalizing written notWritten todo sent with
  | nil =>
    unfold flushLoop
    exact Avoids.ite (fun _ => Avoids.ok _) fun _ => Avoids.error fun h => h rfl
  | cons answer answers ih =>
    unfold flushLoop
    refine Avoids.ite (fun _ => Avoids.ok _) fun _ => ?_
    cases answer with
    | takes n => exact ih _ _ _ _
    | wouldBlock => exact Avoids.ok _
    | tooBig => exact ih _ _ _ _
    | fails => exact Avoids.ok _

lemma flushClient_avoids (s : Server) (who : ℕ) (answers : List Attempt) :
    Avoids Undefined (flushClient s who answers) := by
  unfold flushClient
  split
  · exact Avoids.ok _
  · refine Avoids.ite (fun _ => Avoids.ok _) fun _ => Avoids.ite (fun _ => Avoids.ok _) fun _ => ?_
    refine Avoids.bind (flushLoop_avoids _ _ _ _ _ _) fun r _ => ?_
    cases r <;> exact Avoids.ok _

lemma memcpyAndFlush_avoids {oco : ConnectionOutput} (answers : List Attempt) (h : oco.count + needed msg ≤ oco.size) :
    Avoids Undefined (memcpyAndFlush s who oco msg answers) := by
  obtain ⟨oco',happ,-⟩ := append_ok h
  unfold memcpyAndFlush
  refine Avoids.bind (Avoids.of_ok happ) fun _ _ => Avoids.bind (flushClient_avoids _ _ _) fun _ _ => Avoids.ok _

lemma enlargeAndFlush_avoids (hs : Sane s)
    (hsum : ∀ oco, (s.client who).output = some oco → oco.count + needed msg ≤ 2^31) (hmsg : needed msg ≤ 2^31) :
    Avoids Undefined (enlargeAndFlush env s who msg) := by
  have he : Ensured s _ who _ := outputEnsureBuffer_ensured hs env.alloc
  unfold enlargeAndFlush
  cases hfound : outputEnsureBuffer s who env.alloc with
  | mk found s1 =>
    rw [hfound] at he
    cases found with
    | none => exact Avoids.ok _
    | some oco =>
      refine Avoids.ite (fun hfits => memcpyAndFlush_avoids _ hfits) fun _ =>
        Avoids.ite (fun _ => Avoids.ok _) fun hneg => memcpyAndFlush_avoids _ ?_
      have hbound : oco.count + needed msg ≤ 2^31 := by
        obtain ho | ⟨-,hz⟩ := he.old oco rfl
        · exact hsum oco ho
        · rwa [hz,Nat.zero_add]
      obtain ⟨hroom,hlt⟩ := rounded_fits hbound
      have hpos : ¬toInt (oco.count + (needed msg/bufSize + 1)*bufSize) < 0 := fun hn => hneg (by simp [hn])
      dsimp only
      rwa [(toInt_of_lt hlt hpos).1]

lemma makeRoomAndFlush_avoids (hs : Sane s)
    (hsum : ∀ oco, (s.client who).output = some oco → oco.count + needed msg ≤ 2^31) (hmsg : needed msg ≤ 2^31) :
    Avoids Undefined (outputBufferMakeRoomAndFlush env s who msg) := by
  unfold outputBufferMakeRoomAndFlush
  split
  · exact enlargeAndFlush_avoids hs hsum hmsg
  · next oco ho =>
    refine Avoids.ite (fun hfits => memcpyAndFlush_avoids _ hfits) fun _ => ?_
    refine Avoids.bind (flushClient_avoids _ _ _) fun ⟨alive,s1⟩ hflush => ?_
    have hf := flushClient_flushed hs hflush
    refine Avoids.ite (fun _ => ?_) fun _ => Avoids.ok _
    apply enlargeAndFlush_avoids (hf.carries.sane hs) _ hmsg
    intro oco' h'
    obtain ⟨oco1,h1,hle⟩ := hf.less oco' h'
    have := hsum oco1 h1
    omega

def NoBuffer (env : Surroundings) (s : Server) (who : ℕ) : Prop :=
  (s.client who).output = none ∧ s.freeOutputs = [] ∧ env.alloc = false

/-- The sum of what the buffer has, the message and its padding is an `int`, or is not asked for. -/
def Fits (env : Surroundings) (s : Server) (who : ℕ) (msg : List Byte) : Prop :=
  Dropped s who msg ∨ NoBuffer env s who ∨ (buffered s who = 0 ∧ (s.client who).isLocal = true) ∨
    buffered s who + needed msg < 2^31

lemma outputEnsureBuffer_none {found : Option ConnectionOutput} (h : outputEnsureBuffer s who env.alloc = (found,s')) :
    found = none ↔ NoBuffer env s who := by
  unfold outputEnsureBuffer at h
  unfold NoBuffer
  split at h
  · next ho =>
    cases h
    simp [ho]
  · next hfree =>
    cases h
    simp [hfree]
  · next ho hfree =>
    split_ifs at h with halloc
    · cases h
      simp [halloc]
    · cases h
      simp [ho,hfree,halloc]

lemma writeToClient_avoids (hs : Sane s) (hmsg : msg.length < 2^31) (hfits : Fits env s who msg) :
    Avoids Undefined (writeToClient env s who msg) := by
  have he : Ensured s _ who _ := outputEnsureBuffer_ensured hs env.alloc
  unfold writeToClient
  refine Avoids.ite (fun _ => Avoids.ok _) fun hdrop => ?_
  cases hfound : outputEnsureBuffer s who env.alloc with
  | mk found s1 =>
    rw [hfound] at he
    cases found with
    | none => exact Avoids.ok _
    | some oco =>
      have hout := he.output oco rfl
      have hs1 := he.carries.sane hs
      have hcount : oco.count = buffered s who := he.count
      have hplace : (s1.client who).isLocal = (s.client who).isLocal := he.carries.place
      have hle := needed_le hmsg
      have hsmall : (oco.count = 0 ∧ (s1.client who).isLocal = true) ∨ oco.count + needed msg < 2^31 := by
        rw [hplace,hcount]
        obtain hd | hn | h := hfits
        · exact absurd hd hdrop
        · cases (outputEnsureBuffer_none hfound).2 hn
        · exact h
      have hroom : ∃ room, needsRoom oco (s1.client who).isLocal msg.length = .ok room ∧
          (room = false → oco.count + needed msg ≤ oco.size) := by
        rw [needsRoom_eq]
        by_cases hlocal : oco.count = 0 ∧ (s1.client who).isLocal = true
        · exact ⟨true,if_pos hlocal,fun h => nomatch h⟩
        · refine ⟨_,(if_neg hlocal).trans (if_pos (hsmall.resolve_left hlocal)),fun h => ?_⟩
          exact Nat.le_of_not_lt (of_decide_eq_false h)
      obtain ⟨room,hroom,hno⟩ := hroom
      refine Avoids.bind (Avoids.of_ok hroom) fun room' h' => ?_
      obtain rfl : room = room' := Except.ok.inj (hroom.symm.trans h')
      refine Avoids.ite (fun _ => ?_) fun hf => ?_
      · apply makeRoomAndFlush_avoids (beforeFlush_carries.sane hs1) _ hle
        intro oco' h''
        rw [beforeFlush_client] at h''
        obtain rfl : oco = oco' := Option.some.inj (hout.symm.trans h'')
        omega
      · obtain ⟨oco',happ,-⟩ := append_ok (hno (Bool.eq_false_iff.2 hf))
        exact Avoids.bind (Avoids.of_ok happ) fun _ _ => Avoids.ok _

lemma writeToClient_overflow (hs : Sane s) (hfits : ¬Fits env s who msg) :
    writeToClient env s who msg = .error .signedOverflow := by
  unfold Fits at hfits
  push Not at hfits
  obtain ⟨hdrop,hbuffer,hlocal,hsum⟩ := hfits
  have he : Ensured s _ who _ := outputEnsureBuffer_ensured hs env.alloc
  unfold writeToClient
  rw [if_neg (by simpa only [Dropped] using hdrop)]
  cases hfound : outputEnsureBuffer s who env.alloc with
  | mk found s1 =>
    rw [hfound] at he
    cases found with
    | none => exact absurd ((outputEnsureBuffer_none hfound).1 rfl) hbuffer
    | some oco =>
      have hcount : oco.count = buffered s who := he.count
      have hplace : (s1.client who).isLocal = (s.client who).isLocal := he.carries.place
      have hroom : needsRoom oco (s1.client who).isLocal msg.length = .error .signedOverflow := by
        rw [needsRoom_eq,hcount,hplace,if_neg (fun h => hlocal h.1 h.2),if_neg (Nat.not_lt.2 hsum)]
      dsimp only
      rw [hroom]
      rfl

end Xlibre.Os
