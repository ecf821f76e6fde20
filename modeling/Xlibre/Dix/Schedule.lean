import Mathlib.Data.List.Nodup
import Mathlib.Data.List.Perm.Subperm
import Mathlib.Data.Int.Notation

/-! Whose requests are read next: `SmartScheduleClient`, and what else moves the priorities and the lists of ready clients. -/
namespace Xlibre.Dix.Schedule

def smartMaxPriority : ℤ := 20
def smartMinPriority : ℤ := -20

structure Client where
  priority : ℤ
  smartPriority : ℤ
  smartStartTick : ℤ
  smartStopTick : ℤ

/-- Clients are known by their index. The entry of `SmartLastIndex` for a priority is kept under that priority. -/
structure Scheduler where
  clients : ℕ → Client
  readyClients : List ℕ
  savedReadyClients : List ℕ
  lastIndex : ℤ → ℕ
  lastClient : Option ℕ
  slice : ℤ
  interval : ℤ
  maxSlice : ℤ
  latencyLimited : ℕ

def praise (now idle : ℤ) (c : Client) : Client :=
  if idle ≤ now-c.smartStopTick ∧ c.smartPriority < 0 then { c with smartPriority := c.smartPriority+1 } else c

def robin (lastIndex : ℤ → ℕ) (clients : ℕ → Client) (i : ℕ) : ℤ :=
  ((i : ℤ) - lastIndex (clients i).smartPriority) % 256

def Better (c best : Client) (robin bestRobin : ℤ) : Prop :=
  best.priority < c.priority ∨ c.priority = best.priority ∧ (best.smartPriority < c.smartPriority ∨
    c.smartPriority = best.smartPriority ∧ bestRobin < robin)

instance (c best : Client) (robin bestRobin : ℤ) : Decidable (Better c best robin bestRobin) :=
  inferInstanceAs (Decidable (_ ∨ _ ∧ _))

structure Choice where
  clients : ℕ → Client
  best : Option ℕ
  bestRobin : ℤ

/-- The loop of `SmartScheduleClient` at one client. -/
def visit (now idle : ℤ) (lastIndex : ℤ → ℕ) (x : Choice) (i : ℕ) : Choice :=
  let clients := Function.update x.clients i (praise now idle (x.clients i))
  let r := robin lastIndex clients i
  match x.best with
  | none => ⟨clients,some i,r⟩
  | some b => if Better (clients i) (clients b) r x.bestRobin then ⟨clients,some i,r⟩ else { x with clients }

/-- Nothing without ready clients, where the code would follow a null pointer. -/
def smartScheduleClient (s : Scheduler) (now : ℤ) : Option (ℕ × Scheduler) :=
  let x := s.readyClients.foldl (visit now (2*s.slice) s.lastIndex) ⟨s.clients,none,0⟩
  x.best.map fun best =>
    let start := if s.lastClient = some best then (x.clients best).smartStartTick else now
    (best,{ s with
      clients := Function.update x.clients best { x.clients best with smartStartTick := start }
      lastIndex := Function.update s.lastIndex (x.clients best).smartPriority best
      lastClient := some best
      slice :=
        if s.readyClients.length = 1 ∧ s.latencyLimited = 0 then
          if 1000 < now-start ∧ s.slice < s.maxSlice then s.slice+s.interval else s.slice
        else s.interval })

/-- What happens between two choices. `stop` is the end of a client's turn, and `penalize` that of a slice. -/
inductive Event
  | initClient (i : ℕ) (now : ℤ)
  | setPriority (i : ℕ) (priority : ℤ)
  | penalize (i : ℕ)
  | stop (i : ℕ) (now : ℤ)
  | criticalEvent (i : ℕ)
  | markReady (i : ℕ)
  | markSavedReady (i : ℕ)
  | markNotReady (i : ℕ)
  | markGrab (grab : ℕ)
  | markUngrab
  | limitLatency (n : ℕ)

def Scheduler.set (s : Scheduler) (i : ℕ) (c : Client) : Scheduler :=
  { s with clients := Function.update s.clients i c }

def Scheduler.listed (s : Scheduler) : List ℕ := s.readyClients ++ s.savedReadyClients

def Scheduler.handle (s : Scheduler) : Event → Scheduler
  | .initClient i now => s.set i ⟨0,0,now,now⟩
  | .setPriority i priority => s.set i { s.clients i with priority }
  | .penalize i =>
    if smartMinPriority < (s.clients i).smartPriority then
      s.set i { s.clients i with smartPriority := (s.clients i).smartPriority-1 }
    else s
  | .stop i now => if s.lastClient = some i then s.set i { s.clients i with smartStopTick := now } else s
  | .criticalEvent i =>
    if (s.clients i).smartPriority < smartMaxPriority then
      s.set i { s.clients i with smartPriority := (s.clients i).smartPriority+1 }
    else s
  | .markReady i => if i ∈ s.listed then s else { s with readyClients := s.readyClients ++ [i] }
  | .markSavedReady i => if i ∈ s.listed then s else { s with savedReadyClients := s.savedReadyClients ++ [i] }
  | .markNotReady i =>
    { s with readyClients := s.readyClients.erase i, savedReadyClients := s.savedReadyClients.erase i }
  | .markGrab grab =>
    { s with
      readyClients := s.readyClients.filter (· = grab)
      savedReadyClients := s.savedReadyClients ++ s.readyClients.filter (· ≠ grab) }
  | .markUngrab => { s with readyClients := s.listed, savedReadyClients := [] }
  | .limitLatency n => { s with latencyLimited := n }

/-- The server starts: all tables are zero. -/
def Scheduler.init (interval maxSlice : ℤ) : Scheduler where
  clients _ := ⟨0,0,0,0⟩
  readyClients := []
  savedReadyClients := []
  lastIndex _ := 0
  lastClient := none
  slice := interval
  interval := interval
  maxSlice := maxSlice
  latencyLimited := 0

inductive Run (s : Scheduler) : List (ℕ × Scheduler) → Scheduler → Prop
  | start : Run s [] s
  | turn {l : List (ℕ × Scheduler)} {s₁ s₂ : Scheduler} {i : ℕ} {now : ℤ} (h : Run s l s₁)
      (hchoice : smartScheduleClient s₁ now = some (i,s₂)) : Run s (l ++ [(i,s₂)]) s₂
  | event {l : List (ℕ × Scheduler)} {s₁ : Scheduler} (h : Run s l s₁) (e : Event) : Run s l (s₁.handle e)

variable {s s' : Scheduler} {l : List ℕ} {now idle : ℤ} {lastIndex : ℤ → ℕ} {i : ℕ}

/-- The loop has been at the clients of the list. -/
structure Visited (now idle : ℤ) (lastIndex : ℤ → ℕ) (clients : ℕ → Client) (l : List ℕ) (x : Choice) : Prop where
  praised : ∀ j, x.clients j = if j ∈ l then praise now idle (clients j) else clients j
  none : x.best = none → l = []
  bestRobin : ∀ b, x.best = some b → x.bestRobin = robin lastIndex x.clients b
  best : ∀ b, x.best = some b → b ∈ l ∧ ∀ j ∈ l,
    ¬Better (x.clients j) (x.clients b) (robin lastIndex x.clients j) (robin lastIndex x.clients b)

lemma visit_visited {clients : ℕ → Client} {x : Choice} (h : Visited now idle lastIndex clients l x) (hi : i ∉ l) :
    Visited now idle lastIndex clients (l ++ [i]) (visit now idle lastIndex x i) := by
  have hold (j : ℕ) (hj : j ∈ l) : Function.update x.clients i (praise now idle (x.clients i)) j = x.clients j :=
    Function.update_of_ne (fun he : j = i => hi (he ▸ hj)) ..
  have hpraised (j : ℕ) : Function.update x.clients i (praise now idle (x.clients i)) j =
      if j ∈ l ++ [i] then praise now idle (clients j) else clients j := by
    by_cases hj : j = i
    · rw [hj,Function.update_self,h.praised,if_neg hi,if_pos (by simp)]
    · rw [Function.update_of_ne hj,h.praised]
      simp [hj]
  have hsame (j : ℕ) (hj : j ∈ l) :
      robin lastIndex (Function.update x.clients i (praise now idle (x.clients i))) j = robin lastIndex x.clients j := by
    rw [robin,robin,hold j hj]
  unfold visit
  generalize Function.update x.clients i (praise now idle (x.clients i)) = clients' at *
  dsimp only
  cases hb : x.best with
  | none =>
    refine ⟨hpraised,by simp,fun b h' => by rw [← Option.some.inj h'],fun b h' => ?_⟩
    obtain rfl := Option.some.inj h'
    refine ⟨by simp,fun j hj => ?_⟩
    obtain rfl : j = i := by simpa [h.none hb] using hj
    simp [Better]
  | some b =>
    obtain ⟨hbl,hbest⟩ := h.best b hb
    have hrobin := h.bestRobin b hb
    rw [hrobin,← hsame b hbl]
    dsimp only
    split_ifs with hbetter
    · refine ⟨hpraised,by simp,fun b' h' => by rw [← Option.some.inj h'],fun b' h' => ?_⟩
      obtain rfl := Option.some.inj h'
      refine ⟨by simp,fun j hj => ?_⟩
      obtain hj | rfl : j ∈ l ∨ j = i := by simpa using hj
      · have hnot := hbest j hj
        rw [← hsame j hj,← hold j hj,← hold b hbl,← hsame b hbl] at hnot
        unfold Better at hbetter hnot ⊢
        dsimp only
        omega
      · simp [Better]
    · refine ⟨hpraised,by simp,fun b' h' => by rw [← Option.some.inj h'],fun b' h' => ?_⟩
      obtain rfl := Option.some.inj h'
      refine ⟨List.mem_append_left _ hbl,fun j hj => ?_⟩
      obtain hj | rfl : j ∈ l ∨ j = i := by simpa using hj
      · have hnot := hbest j hj
        rwa [← hsame j hj,← hold j hj,← hold b hbl,← hsame b hbl] at hnot
      · exact hbetter

lemma visited_foldl {clients : ℕ → Client} {x : Choice} {m : List ℕ} (h : Visited now idle lastIndex clients m x)
    (hl : (m ++ l).Nodup) : Visited now idle lastIndex clients (m ++ l) (l.foldl (visit now idle lastIndex) x) := by
  induction l generalizing m x with
  | nil => simpa using h
  | cons i l ih =>
    have hi : i ∉ m := fun hm => (List.nodup_append.1 hl).2.2 i hm i List.mem_cons_self rfl
    simpa using ih (visit_visited h hi) (by simpa using hl)

/-- The client that is chosen is a best one, and the others are at most praised. -/
lemma smartScheduleClient_spec (hl : s.readyClients.Nodup) (h : smartScheduleClient s now = some (i,s')) :
    i ∈ s.readyClients ∧ s'.readyClients = s.readyClients ∧ s'.savedReadyClients = s.savedReadyClients ∧
    s'.lastIndex = Function.update s.lastIndex (s'.clients i).smartPriority i ∧
    (∀ j ∈ s.readyClients, ¬Better (s'.clients j) (s'.clients i) (robin s.lastIndex s'.clients j)
      (robin s.lastIndex s'.clients i)) ∧
    ∀ j, (s'.clients j).smartPriority = (s.clients j).smartPriority ∨ (s.clients j).smartPriority < 0 ∧
      (s'.clients j).smartPriority = (s.clients j).smartPriority+1 := by
  have hstart : Visited now (2*s.slice) s.lastIndex s.clients [] ⟨s.clients,none,0⟩ :=
    ⟨by simp,fun _ => rfl,by simp,by simp⟩
  have hvisited := visited_foldl hstart hl
  rw [List.nil_append] at hvisited
  unfold smartScheduleClient at h
  obtain ⟨b,hb,heq⟩ := Option.map_eq_some_iff.1 h
  obtain ⟨rfl,rfl⟩ := Prod.mk.inj heq
  obtain ⟨hbl,hbest⟩ := hvisited.best b hb
  have hpraised := hvisited.praised
  generalize s.readyClients.foldl _ _ = x at *
  -- the tick that is stored in the end plays no part in the comparison
  have hkept (start : ℤ) (j : ℕ) :
      (Function.update x.clients b { x.clients b with smartStartTick := start } j).priority = (x.clients j).priority ∧
      (Function.update x.clients b { x.clients b with smartStartTick := start } j).smartPriority =
        (x.clients j).smartPriority := by
    by_cases hj : j = b
    · rw [hj,Function.update_self]
      exact ⟨rfl,rfl⟩
    · rw [Function.update_of_ne hj]
      exact ⟨rfl,rfl⟩
  refine ⟨hbl,rfl,rfl,by rw [(hkept _ b).2],fun j hj => ?_,fun j => ?_⟩
  · have hnot := hbest j hj
    simp only [Better,robin,(hkept _ _).1,(hkept _ _).2] at hnot ⊢
    exact hnot
  · rw [(hkept _ j).2,hpraised,praise]
    split_ifs with _ hlow
    · exact .inr ⟨hlow.2,rfl⟩
    · exact .inl rfl
    · exact .inl rfl

/-- No client is on the two lists twice, and the priorities are in the range of `SmartLastIndex`. -/
structure Scheduler.Sound (s : Scheduler) : Prop where
  listed : s.listed.Nodup
  inRange : ∀ i, smartMinPriority ≤ (s.clients i).smartPriority ∧ (s.clients i).smartPriority ≤ smartMaxPriority

lemma Scheduler.Sound.init (interval maxSlice : ℤ) : (Scheduler.init interval maxSlice).Sound :=
  ⟨List.nodup_nil,fun _ => ⟨show (-20:ℤ) ≤ 0 by decide,show (0:ℤ) ≤ 20 by decide⟩⟩

lemma Scheduler.Sound.set (h : s.Sound) {c : Client} (hc : smartMinPriority ≤ c.smartPriority ∧ c.smartPriority ≤ smartMaxPriority) :
    (s.set i c).Sound := by
  refine ⟨h.listed,fun j => ?_⟩
  by_cases hj : j = i
  · subst hj
    simpa [Scheduler.set] using hc
  · simpa [Scheduler.set,hj] using h.inRange j

lemma Scheduler.Sound.handle (h : s.Sound) (e : Event) : (s.handle e).Sound := by
  cases e with
  | initClient i now => exact h.set ((Scheduler.Sound.init 0 0).inRange i)
  | setPriority i priority => exact h.set (h.inRange i)
  | penalize i | criticalEvent i =>
    simp only [Scheduler.handle]
    split_ifs with hlow
    · have hrange := h.inRange i
      exact h.set ⟨by dsimp only; omega,by dsimp only; omega⟩
    · exact h
  | stop i now =>
    simp only [Scheduler.handle]
    split_ifs
    · exact h.set (h.inRange i)
    · exact h
  | markReady i =>
    simp only [Scheduler.handle]
    split_ifs with hi
    · exact h
    · refine ⟨?_,h.inRange⟩
      have hperm : (s.readyClients ++ [i] ++ s.savedReadyClients).Perm (i::s.listed) := by
        simp [Scheduler.listed]
      exact hperm.nodup_iff.2 (List.nodup_cons.2 ⟨hi,h.listed⟩)
  | markSavedReady i =>
    simp only [Scheduler.handle]
    split_ifs with hi
    · exact h
    · refine ⟨?_,h.inRange⟩
      have hperm : (s.readyClients ++ (s.savedReadyClients ++ [i])).Perm (i::s.listed) := by
        simpa [Scheduler.listed] using List.perm_append_singleton i s.listed
      exact hperm.nodup_iff.2 (List.nodup_cons.2 ⟨hi,h.listed⟩)
  | markNotReady i =>
    exact ⟨h.listed.sublist ((List.erase_sublist ..).append (List.erase_sublist ..)),h.inRange⟩
  | markGrab grab =>
    refine ⟨?_,h.inRange⟩
    have hperm : (s.readyClients.filter (· = grab) ++ (s.savedReadyClients ++ s.readyClients.filter (· ≠ grab))).Perm
        s.listed := by
      refine (List.perm_append_comm.append_left _).trans ?_
      rw [← List.append_assoc]
      refine List.Perm.append_right _ ?_
      simp [List.filter_append_perm]
    exact hperm.nodup_iff.2 h.listed
  | markUngrab => exact ⟨by simpa [Scheduler.handle,Scheduler.listed] using h.listed,h.inRange⟩
  | limitLatency n => exact ⟨h.listed,h.inRange⟩

lemma Run.sound {l : List (ℕ × Scheduler)} (h : Run s l s') (hs : s.Sound) : s'.Sound := by
  induction h with
  | start => exact hs
  | turn _ hchoice ih =>
    have hready := ih.listed.sublist (List.sublist_append_left ..)
    obtain ⟨-,hkept,hsaved,-,-,hpraised⟩ := smartScheduleClient_spec hready hchoice
    refine ⟨by rw [Scheduler.listed,hkept,hsaved]; exact ih.listed,fun j => ?_⟩
    have hrange := ih.inRange j
    unfold smartMinPriority smartMaxPriority at *
    obtain hj | hj := hpraised j <;> omega
  | event _ e ih => exact ih.handle e

/-- How far a client has got in the round of a priority whose last client is `last`. -/
def place (last i : ℕ) : ℤ := ((i : ℤ)-last) % 256

lemma place_update {last k c d : ℕ} (hck : place last c < place last k) (hdc : place last d < place last c) :
    place k d < place k c := by
  unfold place at *
  omega

lemma place_inj {last c d : ℕ} (hc : c < 256) (hd : d < 256) (h : place last c = place last d) : c = d := by
  unfold place at h
  omega

lemma lastIndex_handle (e : Event) : (s.handle e).lastIndex = s.lastIndex := by
  cases e <;> simp only [Scheduler.handle,Scheduler.set]
  all_goals split_ifs <;> rfl

def turnsAt (p : ℤ) (l : List (ℕ × Scheduler)) : List ℕ :=
  (l.filter fun x => (x.2.clients x.1).smartPriority = p).map Prod.fst

/-- While a client is ready and keeps its priority, no client of the same priority has two turns before it; so after
255 of them it has one itself. -/
theorem overtaken_once {s₀ : Scheduler} {l₀ l : List (ℕ × Scheduler)} {interval maxSlice p : ℤ} {c : ℕ} (hc : c < 256)
    (h₀ : Run (.init interval maxSlice) l₀ s₀) (h : Run s₀ l s)
    (hwaits : ∀ x ∈ l, x.1 ≠ c ∧ x.1 < 256 ∧ c ∈ x.2.readyClients ∧ (x.2.clients c).smartPriority = p ∧
      (x.2.clients x.1).priority ≤ (x.2.clients c).priority) :
    (turnsAt p l).Nodup ∧ (turnsAt p l).length ≤ 255 := by
  have hsound₀ : s₀.Sound := h₀.sound (.init ..)
  have hturns : (turnsAt p l).Nodup ∧ ∀ d ∈ turnsAt p l, d < 256 ∧ place (s.lastIndex p) d < place (s.lastIndex p) c := by
    induction h with
    | start => exact ⟨List.nodup_nil,by simp [turnsAt]⟩
    | event h e ih =>
      rw [lastIndex_handle]
      exact ih hwaits
    | @turn l s₁ s₂ k now h hchoice ih =>
      obtain ⟨hnodup,hbehind⟩ := ih fun x hx => hwaits x (by simp [hx])
      have hwait := hwaits (k,s₂) (by simp)
      dsimp only at hwait
      obtain ⟨hkc,hk,hready,hpc,hpriority⟩ := hwait
      obtain ⟨-,hkept,-,hlast,hbest,-⟩ := smartScheduleClient_spec
        ((h.sound hsound₀).listed.sublist (List.sublist_append_left ..)) hchoice
      have hturn : turnsAt p (l ++ [(k,s₂)]) = turnsAt p l ++ if (s₂.clients k).smartPriority = p then [k] else [] := by
        by_cases hp : (s₂.clients k).smartPriority = p <;> simp [turnsAt,List.filter_append,hp]
      rw [hturn]
      split_ifs with hp
      · have hnot := hbest c (by rw [← hkept]; exact hready)
        have hahead : place (s₁.lastIndex p) c < place (s₁.lastIndex p) k := by
          have hne : place (s₁.lastIndex p) c ≠ place (s₁.lastIndex p) k := fun he => hkc (place_inj hc hk he).symm
          simp only [Better,robin,hpc,hp,true_and,Int.lt_irrefl,false_or] at hnot
          unfold place at hne ⊢
          omega
        have hnew (d : ℕ) (hd : d ∈ turnsAt p l) : d ≠ k := by
          rintro rfl
          exact absurd (hbehind d hd).2 (by omega)
        refine ⟨List.nodup_append.2 ⟨hnodup,by simp,fun d hd e he => ?_⟩,fun d hd => ?_⟩
        · rw [List.mem_singleton.1 he]
          exact hnew d hd
        · rw [hlast,hp,Function.update_self]
          obtain hd | rfl : d ∈ turnsAt p l ∨ d = k := by simpa using hd
          · obtain ⟨hsmall,hless⟩ := hbehind d hd
            exact ⟨hsmall,place_update hahead hless⟩
          · refine ⟨hk,?_⟩
            unfold place at hahead ⊢
            omega
      · rw [List.append_nil,hlast,Function.update_of_ne fun he => hp he.symm]
        exact ⟨hnodup,hbehind⟩
  refine ⟨hturns.1,?_⟩
  have hsub : c::turnsAt p l ⊆ List.range 256 := by
    intro d hd
    obtain rfl | hd := List.mem_cons.1 hd
    · exact List.mem_range.2 hc
    · exact List.mem_range.2 (hturns.2 d hd).1
  have hnodup : (c::turnsAt p l).Nodup :=
    List.nodup_cons.2 ⟨fun hmem => absurd (hturns.2 c hmem).2 (by omega),hturns.1⟩
  have hle := (List.subperm_of_subset hnodup hsub).length_le
  simp only [List.length_cons,List.length_range] at hle
  omega

def twoReady : Scheduler := ((Scheduler.init 5 15).handle (.markReady 1)).handle (.markReady 2)

/-- The second one goes first. -/
theorem overtaken_once_twoReady : ∃ s, smartScheduleClient twoReady 7 = some (2,s) ∧
    (turnsAt 0 [(2,s)]).Nodup ∧ (turnsAt 0 [(2,s)]).length ≤ 255 := by
  have hreach : Run (.init 5 15) [] twoReady := .event (.event .start _) _
  have hturn : Run twoReady ([] ++ [(2,_)]) _ := .turn .start (rfl : smartScheduleClient twoReady 7 = _)
  refine ⟨_,rfl,overtaken_once (show 1 < 256 by decide) hreach hturn fun x hx => ?_⟩
  obtain rfl := List.mem_singleton.1 hx
  exact ⟨by decide,by decide,by decide,rfl,by decide⟩

theorem smartPriority_inRange {l : List (ℕ × Scheduler)} {interval maxSlice : ℤ} (h : Run (.init interval maxSlice) l s)
    (i : ℕ) : smartMinPriority ≤ (s.clients i).smartPriority ∧ (s.clients i).smartPriority ≤ smartMaxPriority :=
  (h.sound (.init ..)).inRange i

end Xlibre.Dix.Schedule
