import Xlibre.Mi.EventQueue

/-! The event queue is a FIFO with motion merging as long as its slots have numbers. -/
namespace Xlibre.Mi
open Xlibre.Lib Xlibre.Lib.Ring

section Integers

lemma toUnsigned_natCast {n : ℕ} (h : n < 2^32) : toUnsigned n = n := by
  unfold toUnsigned
  omega

lemma toSize_natCast {n : ℕ} (h : n < 2^64) : toSize n = n := by
  unfold toSize
  omega

lemma toInt_of_lt {n : ℕ} (h : n < 2^31) : toInt n = .ok n := if_pos h

lemma succInt_natCast {n : ℕ} (h : n+1 < 2^31) : succInt n = .ok ((n+1 : ℕ) : ℤ) := by
  unfold succInt
  rw [if_pos (by omega)]
  push_cast
  rfl

end Integers

/-- The buckets in use: `len` of them from `head` on, in a ring whose size is a power of two. -/
structure RingAt (q : EventQueue) (head len : ℕ) : Prop where
  head_eq : q.head = head
  tail_eq : q.tail = cell q.nevents head len
  head_lt : head < q.nevents
  len_lt : len < q.nevents
  size : ∃ k, k ≤ 31 ∧ q.nevents = 2^k

namespace RingAt

variable {q : EventQueue} {head len : ℕ} (h : RingAt q head len)
include h

lemma nevents_le : q.nevents ≤ 2^31 := by
  obtain ⟨k,hk,hn⟩ := h.size
  rw [hn]
  exact Nat.pow_le_pow_right (by omega) hk

lemma nevents_dvd : q.nevents ∣ 2^32 := by
  obtain ⟨k,hk,hn⟩ := h.size
  rw [hn]
  exact Nat.pow_dvd_pow 2 (by omega)

lemma tail_lt : cell q.nevents head len < q.nevents := cell_lt (by have := h.head_lt; omega) len

lemma tail_cases : cell q.nevents head len = head+len ∧ head+len < q.nevents ∨
    cell q.nevents head len+q.nevents = head+len := by
  have hh := h.head_lt
  have hl := h.len_lt
  unfold cell
  by_cases hwrap : head+len < q.nevents
  · exact Or.inl ⟨Nat.mod_eq_of_lt hwrap,hwrap⟩
  · refine Or.inr ?_
    rw [Nat.mod_eq_sub_mod (by omega),Nat.mod_eq_of_lt (by omega)]
    omega

lemma mieqNumEnqueued_eq : mieqNumEnqueued q = .ok len := by
  have hle := h.nevents_le
  have hh := h.head_lt
  have hl := h.len_lt
  have ht := h.tail_lt
  have hpos : q.nevents ≠ 0 := by omega
  unfold mieqNumEnqueued subInt
  rw [if_neg hpos,h.head_eq,h.tail_eq,if_pos (by omega)]
  change Except.ok _ = Except.ok _
  congr 1
  unfold toSize
  obtain ⟨ht,hlt⟩ | ht := h.tail_cases
  · rw [ht]
    have hd : (((head+len : ℕ) : ℤ)-head) % 2^64 = len := by omega
    rw [hd]
    split_ifs <;> omega
  · have hd : ((cell q.nevents head len : ℤ)-head) % 2^64 = 2^64+len-q.nevents := by omega
    rw [hd]
    split_ifs <;> omega

lemma tail_eq_head_iff : q.tail = q.head ↔ len = 0 := by
  rw [h.head_eq,h.tail_eq]
  have hh := h.head_lt
  have hl := h.len_lt
  obtain ⟨ht,-⟩ | ht := h.tail_cases <;> omega

lemma toUnsigned_tail : toUnsigned q.tail = cell q.nevents head len := by
  have hle := h.nevents_le
  have ht := h.tail_lt
  rw [h.tail_eq,toUnsigned_natCast (by omega)]

lemma toUnsigned_head : toUnsigned q.head = head := by
  have hle := h.nevents_le
  have hh := h.head_lt
  rw [h.head_eq,toUnsigned_natCast (by omega)]

lemma storeEvent_eq (a : Arrival) {m : ℕ} (hnext : m+1 < q.nevents) :
    ∃ q', storeEvent q a (cell q.nevents head m) = .ok q' ∧ RingAt q' head (m+1) ∧ q'.nevents = q.nevents ∧
      q'.events = Function.update q.events (cell q.nevents head m) a.record ∧ q'.lastMotion = a.isMotion := by
  have hle := h.nevents_le
  have hh := h.head_lt
  have hcell : cell q.nevents head m < q.nevents := cell_lt (by omega) m
  have hnew : (cell q.nevents head m+1) % 2^32 % q.nevents = cell q.nevents head (m+1) := by
    rw [Nat.mod_mod_of_dvd _ h.nevents_dvd]
    exact cell_cell m 1
  have hlt : cell q.nevents head (m+1) < q.nevents := cell_lt (by omega) _
  unfold storeEvent
  rw [if_pos hcell,hnew,toInt_of_lt (by omega)]
  exact ⟨_,rfl,⟨h.head_eq,rfl,hh,hnext,h.size⟩,rfl,rfl,rfl⟩

lemma lastBucket_eq (hlen : len ≠ 0) :
    (toUnsigned q.tail+(2^32-1)) % 2^32 % q.nevents = cell q.nevents head (len-1) := by
  obtain ⟨c,hc⟩ := h.nevents_dvd
  rw [h.toUnsigned_tail,Nat.mod_mod_of_dvd _ h.nevents_dvd]
  have hsum : cell q.nevents head len+(2^32-1) ≡ head+len+(2^32-1) [MOD q.nevents] :=
    Nat.ModEq.add_right _ (Nat.mod_modEq _ _)
  have hturn : head+len+(2^32-1) = head+(len-1)+q.nevents*c := by omega
  rw [hturn] at hsum
  exact hsum.trans (Nat.add_mul_mod_self_left _ _ _)

lemma mieqGrowQueue_eq (hfull : len+1 = q.nevents) :
    ∃ q', mieqGrowQueue q (q.nevents*2 % 2^64) = .ok (some q') ∧ q'.head = 0 ∧ q'.tail = len ∧
      q'.nevents = q.nevents*2 ∧ contents q'.events (q.nevents*2) 0 len = contents q.events q.nevents head len := by
  have hle := h.nevents_le
  have hh := h.head_lt
  have hnew : q.nevents*2 % 2^64 = q.nevents*2 := Nat.mod_eq_of_lt (by omega)
  unfold mieqGrowQueue
  rw [hnew,if_neg (by omega),h.mieqNumEnqueued_eq]
  have hint : toInt len = .ok len := toInt_of_lt (by omega)
  change ∃ q', (toInt len).bind _ = _ ∧ _
  rw [hint]
  refine ⟨_,rfl,rfl,rfl,rfl,?_⟩
  apply contents_grow (by omega)
  intro i hi
  have hhead : toSize q.head = head := by rw [h.head_eq,toSize_natCast (by omega)]
  dsimp only
  rw [hhead]
  unfold cell
  split_ifs with h₁ h₂
  · rw [Nat.mod_eq_of_lt (by omega)]
  · rw [Nat.mod_eq_sub_mod (by omega),Nat.mod_eq_of_lt (by omega)]
    congr 1
    omega
  · omega

end RingAt

def EventRec.motionOf (e : EventRec) : ℕ := if e.event.motion then (e.pDev.map Device.id).getD 0 else 0

structure Fifo.Numbered (f : Fifo) : Prop where
  last : f.queue = [] ∨
    ∃ l e, f.queue = l ++ [(f.count-1,e)] ∧ 0 < f.count ∧ f.previous = some e ∧ ∀ x ∈ l, x.1+1 < f.count
  device : ∀ p, f.previous = some p → p.event.motion = true → p.pDev.isSome = true

/-- The queue holds the events of the FIFO, and knows the last motion. -/
structure Refines (q : EventQueue) (f : Fifo) : Prop where
  ring : ∃ head len, RingAt q head len ∧ contents q.events q.nevents head len = f.queue.map Prod.snd
  numbered : f.Numbered
  lastMotion : q.lastMotion = (f.previous.map EventRec.motionOf).getD 0

section Merging

variable {q : EventQueue} {f : Fifo} {a : Arrival}

lemma Fifo.Numbered.any_last (h : f.Numbered) :
    (f.queue.any fun x => decide (x.1+1 = f.count)) = decide (f.queue ≠ []) := by
  obtain hnil | ⟨l,e,hq,hpos,-,-⟩ := h.last
  · simp [hnil]
  · have hcount : f.count-1+1 = f.count := by omega
    simp [hq,hcount]

lemma sameMotion_eq (h : f.Numbered) :
    (a.record.event.motion && f.previous.any fun p => p.event.motion && a.record.sameDevice p) =
      (decide (a.isMotion ≠ 0) && decide (a.isMotion = (f.previous.map EventRec.motionOf).getD 0)) := by
  cases hm : a.event.motion with
  | false => simp [Arrival.record,Arrival.isMotion,hm]
  | true =>
    obtain ⟨d,hd⟩ := Option.isSome_iff_exists.1 (a.device_of_motion hm)
    have hid : a.isMotion = d.id := by simp [Arrival.isMotion,hm,hd]
    have hne : d.id ≠ 0 := d.id_ne
    cases hp : f.previous with
    | none => simp [hid,hne]
    | some p =>
      cases hpm : p.event.motion with
      | false => simp [hid,hne,hpm,EventRec.motionOf]
      | true =>
        obtain ⟨d',hd'⟩ := Option.isSome_iff_exists.1 (h.device p hp hpm)
        simp [hid,hne,hpm,EventRec.motionOf,EventRec.sameDevice,Arrival.record,hm,hd,hd',beq_eq_decide,eq_comm]

lemma Refines.merges_eq {head len : ℕ} (h : Refines q f) (hr : RingAt q head len)
    (hc : contents q.events q.nevents head len = f.queue.map Prod.snd) :
    merges q a = ((a.record.event.motion && f.previous.any fun p => p.event.motion && a.record.sameDevice p) &&
      f.queue.any fun x => decide (x.1+1 = f.count)) := by
  rw [sameMotion_eq h.numbered,h.numbered.any_last,merges,h.lastMotion]
  congr 1
  have hnil : f.queue = [] ↔ len = 0 := by
    rw [← @contents_eq_nil _ q.events q.nevents head len,hc,List.map_eq_nil_iff]
  rw [decide_eq_decide,hr.toUnsigned_tail,hr.toUnsigned_head]
  refine not_congr ?_
  rw [hnil,← hr.tail_eq_head_iff,hr.tail_eq,hr.head_eq,Int.natCast_inj]

lemma Fifo.Numbered.map_last (h : f.Numbered) (hne : f.queue ≠ []) (e : EventRec) :
    ∃ l, (f.queue.map fun x => if x.1+1 = f.count then (f.count,e) else x) = l ++ [(f.count,e)] ∧
      l.map Prod.snd = (f.queue.map Prod.snd).dropLast ∧ ∀ x ∈ l, x.1 < f.count := by
  obtain hnil | ⟨l,e',hq,hpos,-,hl⟩ := h.last
  · exact absurd hnil hne
  · refine ⟨l,?_,by simp [hq],fun x hx => by have := hl x hx; omega⟩
    have hkeep : (l.map fun x => if x.1+1 = f.count then (f.count,e) else x) = l := by
      refine (List.map_congr_left fun x hx => ?_).trans (List.map_id l)
      exact if_neg (hl x hx).ne
    have hcount : f.count-1+1 = f.count := by omega
    rw [hq,List.map_append,hkeep]
    simp [hcount]

lemma Fifo.Numbered.lt_count (h : f.Numbered) : ∀ x ∈ f.queue, x.1 < f.count := by
  intro x hx
  obtain hnil | ⟨l,e,hq,hpos,-,hl⟩ := h.last
  · simp [hnil] at hx
  · rw [hq] at hx
    rcases List.mem_append.1 hx with hx | hx
    · have := hl x hx
      omega
    · obtain rfl := List.mem_singleton.1 hx
      exact Nat.sub_lt hpos Nat.one_pos

lemma Fifo.Numbered.enqueue (h : f.Numbered) (a : Arrival) : (f.enqueue a.record).Numbered := by
  constructor
  · refine Or.inr ?_
    simp only [Fifo.enqueue,Nat.add_sub_cancel]
    split_ifs with hover
    · have hne : f.queue ≠ [] := by
        rw [h.any_last] at hover
        simp only [Bool.and_eq_true,decide_eq_true_eq] at hover
        exact hover.2
      obtain ⟨l,hl,-,hlt⟩ := h.map_last hne a.record
      exact ⟨l,_,hl,Nat.succ_pos _,rfl,fun x hx => Nat.succ_lt_succ (hlt x hx)⟩
    · exact ⟨f.queue,_,rfl,Nat.succ_pos _,rfl,fun x hx => Nat.succ_lt_succ (h.lt_count x hx)⟩
  · rintro p hp hm
    cases hp
    exact a.device_of_motion hm

lemma Fifo.Numbered.tail (h : f.Numbered) : Fifo.Numbered { f with queue := f.queue.tail } := by
  refine ⟨?_,h.device⟩
  obtain hnil | ⟨l,e,hq,hpos,hp,hl⟩ := h.last
  · exact Or.inl (by simp [hnil])
  · cases l with
    | nil => exact Or.inl (by simp [hq])
    | cons x l => exact Or.inr ⟨l,e,by simp [hq],hpos,hp,fun y hy => hl y (List.mem_cons_of_mem _ hy)⟩

end Merging

section Steps

variable {q : EventQueue} {f : Fifo} {a : Arrival} {head len : ℕ}

lemma Refines.map_enqueue (h : Refines q f) (hr : RingAt q head len)
    (hc : contents q.events q.nevents head len = f.queue.map Prod.snd) :
    (f.enqueue a.record).queue.map Prod.snd =
      if merges q a then (f.queue.map Prod.snd).dropLast ++ [a.record] else f.queue.map Prod.snd ++ [a.record] := by
  rw [h.merges_eq hr hc]
  simp only [Fifo.enqueue]
  split_ifs with hover
  · have hne : f.queue ≠ [] := by
      rw [h.numbered.any_last] at hover
      simp only [Bool.and_eq_true,decide_eq_true_eq] at hover
      exact hover.2
    obtain ⟨l,hl,hdrop,-⟩ := h.numbered.map_last hne a.record
    rw [hl,List.map_append,hdrop]
    rfl
  · rw [List.map_append]
    rfl

lemma RingAt.push (hr : RingAt q head len) (hlen : len+1 < q.nevents) (a : Arrival) :
    ∃ q', storeEvent q a (toUnsigned q.tail) = .ok q' ∧ RingAt q' head (len+1) ∧
      contents q'.events q'.nevents head (len+1) = contents q.events q.nevents head len ++ [a.record] ∧
      q'.lastMotion = a.isMotion := by
  rw [hr.toUnsigned_tail]
  obtain ⟨q',hq',hr',hn,he,hm⟩ := hr.storeEvent_eq a hlen
  refine ⟨q',hq',hr',?_,hm⟩
  rw [hn,he]
  exact contents_push hr.len_lt a.record

lemma RingAt.overwrite (hr : RingAt q head len) (hlen : len ≠ 0) (a : Arrival) :
    ∃ q', storeEvent q a ((toUnsigned q.tail+(2^32-1)) % 2^32 % q.nevents) = .ok q' ∧ RingAt q' head len ∧
      contents q'.events q'.nevents head len = (contents q.events q.nevents head len).dropLast ++ [a.record] ∧
      q'.lastMotion = a.isMotion := by
  obtain ⟨m,rfl⟩ := Nat.exists_eq_succ_of_ne_zero hlen
  rw [hr.lastBucket_eq hlen]
  obtain ⟨q',hq',hr',hn,he,hm⟩ := hr.storeEvent_eq a (m := m) hr.len_lt
  refine ⟨q',hq',hr',?_,hm⟩
  rw [hn,he]
  exact contents_overwrite (Nat.lt_of_succ_lt hr.len_lt) a.record

lemma RingAt.merges_len (hr : RingAt q head len) (h : merges q a = true) : len ≠ 0 := by
  intro hlen
  have hne : toUnsigned q.tail ≠ toUnsigned q.head := by
    simp only [merges,Bool.and_eq_true,decide_eq_true_eq] at h
    exact h.2
  exact hne (congrArg toUnsigned (hr.tail_eq_head_iff.2 hlen))

lemma RingAt.grown (hr : RingAt q head len) (hfull : len+1 = q.nevents) (hsize : q.nevents ≠ 2^31) {grown : EventQueue}
    (hhead : grown.head = 0) (htail : grown.tail = len) (hn : grown.nevents = q.nevents*2) : RingAt grown 0 len := by
  have hlt : len < q.nevents*2 := by omega
  obtain ⟨k,hk,hnev⟩ := hr.size
  refine ⟨hhead,?_,by omega,by omega,k+1,?_,by rw [hn,hnev,Nat.pow_succ]⟩
  · rw [htail,hn,cell,Nat.zero_add,Nat.mod_eq_of_lt hlt]
  · have hne : k ≠ 31 := by
      rintro rfl
      exact hsize hnev
    omega

lemma mieqEnqueue_of_merges (hr : RingAt q head len) (hmerge : merges q a = true) :
    mieqEnqueue q a = storeEvent q a ((toUnsigned q.tail+(2^32-1)) % 2^32 % q.nevents) := by
  unfold mieqEnqueue
  dsimp only
  rw [hr.mieqNumEnqueued_eq,Checked.ok_bind,if_pos hmerge]

lemma mieqEnqueue_of_full (hr : RingAt q head len) (hmerge : merges q a = false) (hfull : len+1 = q.nevents)
    {grown : EventQueue} (hg : mieqGrowQueue q (q.nevents*2 % 2^64) = .ok (some grown)) :
    mieqEnqueue q a = storeEvent grown a (toUnsigned grown.tail) := by
  unfold mieqEnqueue
  dsimp only
  rw [hr.mieqNumEnqueued_eq,Checked.ok_bind,hmerge,if_neg Bool.false_ne_true,if_pos hfull,hg,Checked.ok_bind]

lemma mieqEnqueue_of_room (hr : RingAt q head len) (hmerge : merges q a = false) (hroom : len+1 ≠ q.nevents) :
    mieqEnqueue q a = storeEvent q a (toUnsigned q.tail) := by
  unfold mieqEnqueue
  dsimp only
  rw [hr.mieqNumEnqueued_eq,Checked.ok_bind,hmerge,if_neg Bool.false_ne_true,if_neg hroom]

lemma Refines.enqueue (h : Refines q f) (hfit : Fits q (.enqueue a)) :
    ∃ q', mieqEnqueue q a = .ok q' ∧ Refines q' (f.enqueue a.record) := by
  obtain ⟨head,len,hr,hc⟩ := h.ring
  have hmap := h.map_enqueue (a := a) hr hc
  have hnum := h.numbered.enqueue a
  cases hmerge : merges q a with
  | true =>
    rw [hmerge,if_pos rfl] at hmap
    obtain ⟨q',hq',hr',hc',hm⟩ := hr.overwrite (hr.merges_len hmerge) a
    rw [mieqEnqueue_of_merges hr hmerge]
    refine ⟨q',hq',⟨head,len,hr',?_⟩,hnum,hm⟩
    rw [hc',hc,hmap]
  | false =>
    rw [hmerge,if_neg Bool.false_ne_true] at hmap
    by_cases hfull : len+1 = q.nevents
    · obtain ⟨grown,hg,hhead,htail,hn,hcg⟩ := hr.mieqGrowQueue_eq hfull
      have hsize : q.nevents ≠ 2^31 := by
        intro hsize
        have hlen : len = 2^31-1 := by omega
        exact hfit ⟨hsize,hlen ▸ hr.mieqNumEnqueued_eq,hmerge⟩
      obtain ⟨q',hq',hr',hc',hm⟩ := (hr.grown hfull hsize hhead htail hn).push (by omega) a
      rw [mieqEnqueue_of_full hr hmerge hfull hg]
      refine ⟨q',hq',⟨0,len+1,hr',?_⟩,hnum,hm⟩
      rw [hc',hn,hcg,hc,hmap]
    · obtain ⟨q',hq',hr',hc',hm⟩ := hr.push (by have := hr.len_lt; omega) a
      rw [mieqEnqueue_of_room hr hmerge hfull]
      refine ⟨q',hq',⟨head,len+1,hr',?_⟩,hnum,hm⟩
      rw [hc',hc,hmap]

lemma mieqEnqueue_fault (h : Refines q f) (hfit : ¬Fits q (.enqueue a)) :
    mieqEnqueue q a = .error .intConversion := by
  obtain ⟨head,len,hr,-⟩ := h.ring
  obtain ⟨hsize,hlen,hmerge⟩ := not_not.1 hfit
  rw [hr.mieqNumEnqueued_eq] at hlen
  have hlen : len = 2^31-1 := Except.ok.inj hlen
  have hfull : len+1 = q.nevents := by omega
  obtain ⟨grown,hg,hhead,htail,hn,-⟩ := hr.mieqGrowQueue_eq hfull
  rw [mieqEnqueue_of_full hr hmerge hfull hg,htail,toUnsigned_natCast (by omega)]
  have hslot : (len+1) % 2^32 % grown.nevents = 2^31 := by
    rw [hn,hsize,hlen]
    rfl
  unfold storeEvent toInt
  rw [if_pos (by omega),hslot,if_neg (lt_irrefl _)]
  rfl

lemma RingAt.dequeue {m : ℕ} (hr : RingAt q head (m+1)) (hmax : head ≠ 2^31-1) :
    mieqDequeue q = .ok ({ q with head := (cell q.nevents head 1 : ℕ) },some (q.events head)) ∧
      RingAt { q with head := (cell q.nevents head 1 : ℕ) } (cell q.nevents head 1) m := by
  have hne : q.head ≠ q.tail := fun he => Nat.succ_ne_zero m (hr.tail_eq_head_iff.1 he.symm)
  have hle := hr.nevents_le
  have hh := hr.head_lt
  have hsize : toSize q.head = head := by rw [hr.head_eq,toSize_natCast (by omega)]
  have hcell : cell q.nevents head 1 < q.nevents := cell_lt (by omega) 1
  constructor
  · unfold mieqDequeue
    rw [if_neg hne,if_pos ⟨by rw [hr.head_eq]; exact Int.natCast_nonneg head,hsize ▸ hh⟩,hsize,hr.head_eq,
      succInt_natCast (by omega),Checked.ok_bind,toSize_natCast (by omega)]
    change (toInt (cell q.nevents head 1)).bind _ = _
    rw [toInt_of_lt (by omega),Checked.ok_bind]
  · refine ⟨rfl,?_,hcell,Nat.lt_of_succ_lt hr.len_lt,hr.size⟩
    exact hr.tail_eq.trans (by rw [cell_cell,Nat.add_comm])

lemma Refines.dequeue (h : Refines q f) (hfit : Fits q .dequeue) :
    ∃ q', mieqDequeue q = .ok (q',f.queue.head?.map Prod.snd) ∧ Refines q' { f with queue := f.queue.tail } := by
  obtain ⟨head,len,hr,hc⟩ := h.ring
  have hnum := h.numbered.tail
  cases len with
  | zero =>
    have hnil : f.queue = [] := List.map_eq_nil_iff.1 hc.symm
    unfold mieqDequeue
    rw [if_pos (hr.tail_eq_head_iff.2 rfl).symm,hnil]
    refine ⟨q,rfl,⟨head,0,hr,rfl⟩,?_,h.lastMotion⟩
    rwa [hnil] at hnum
  | succ m =>
    have hmax : head ≠ 2^31-1 := by
      rintro rfl
      have he := hfit (by rw [hr.head_eq]; rfl)
      exact Nat.succ_ne_zero m (hr.tail_eq_head_iff.1 he.symm)
    obtain ⟨hdeq,hr'⟩ := hr.dequeue hmax
    rw [contents_pop hr.head_lt] at hc
    cases hq : f.queue with
    | nil =>
      rw [hq] at hc
      cases hc
    | cons x rest =>
      rw [hq,List.map_cons,List.cons.injEq] at hc
      rw [hq] at hnum
      exact ⟨_,by rw [hdeq,hc.1]; rfl,⟨_,m,hr',hc.2⟩,hnum,h.lastMotion⟩

lemma RingAt.dequeue_fault (hr : RingAt q head len) (hhead : q.head = 2^31-1) (hne : q.head ≠ q.tail) :
    mieqDequeue q = .error .signedOverflow := by
  have hle := hr.nevents_le
  have hh := hr.head_lt
  have hsize : toSize q.head = head := by rw [hr.head_eq,toSize_natCast (by omega)]
  unfold mieqDequeue succInt
  rw [if_neg hne,if_pos ⟨by rw [hr.head_eq]; exact Int.natCast_nonneg head,hsize ▸ hh⟩,if_neg (by omega)]
  rfl

end Steps

section Runs

variable {q : EventQueue} {f : Fifo}

lemma Refines.step (h : Refines q f) (op : Op) (hfit : Fits q op) :
    ∃ q', step q op = .ok (q',(f.step op).2) ∧ Refines q' (f.step op).1 := by
  cases op with
  | enqueue a =>
    obtain ⟨q',hq',hr⟩ := h.enqueue hfit
    exact ⟨q',by rw [Mi.step,hq']; rfl,hr⟩
  | dequeue => exact h.dequeue hfit

lemma Refines.step_fault (h : Refines q f) (op : Op) (hfit : ¬Fits q op) : ∃ e, Mi.step q op = .error e := by
  cases op with
  | enqueue a => exact ⟨_,by rw [Mi.step,mieqEnqueue_fault h hfit]; rfl⟩
  | dequeue =>
    obtain ⟨head,len,hr,-⟩ := h.ring
    obtain ⟨hhead,hne⟩ := Classical.not_imp.1 hfit
    exact ⟨_,hr.dequeue_fault hhead hne⟩

lemma Refines.dequeued_iff (h : Refines q f) (ops : List Op) :
    dequeued q ops = .ok (f.dequeued ops) ↔ FitsAlong q ops := by
  induction ops generalizing q f with
  | nil => exact iff_of_true rfl trivial
  | cons op ops ih =>
    by_cases hfit : Fits q op
    · obtain ⟨q',hstep,hr⟩ := h.step op hfit
      have hrest : FitsAlong q (op :: ops) ↔ FitsAlong q' ops := by
        refine ⟨fun hall => hall.2 _ hstep,fun hall => ⟨hfit,fun r hr => ?_⟩⟩
        obtain rfl := Except.ok.inj (hstep.symm.trans hr)
        exact hall
      rw [hrest,← ih hr,dequeued,hstep,Checked.ok_bind,Fifo.dequeued]
      cases hd : dequeued q' ops with
      | error e => exact iff_of_false (fun he => by cases he) fun he => by cases he
      | ok l =>
        change Except.ok _ = Except.ok _ ↔ Except.ok _ = Except.ok _
        rw [Except.ok.injEq,Except.ok.injEq,List.append_cancel_left_eq]
    · obtain ⟨e,he⟩ := h.step_fault op hfit
      refine iff_of_false ?_ fun hall => hfit hall.1
      rw [dequeued,he]
      exact fun h => by cases h

lemma ringAt_init (time : ℕ) : RingAt (mieqInit time) 0 0 :=
  ⟨rfl,rfl,Nat.succ_pos 511,Nat.succ_pos 511,9,by decide,rfl⟩

lemma refines_init (time : ℕ) : Refines (mieqInit time) Fifo.empty where
  ring := ⟨0,0,ringAt_init time,rfl⟩
  numbered := ⟨Or.inl rfl,fun p hp => by cases hp⟩
  lastMotion := rfl

/-- A run of the event queue dequeues what the FIFO does exactly when every step finds numbers for its slots. -/
theorem dequeued_eq_fifo_iff (time : ℕ) (ops : List Op) :
    dequeued (mieqInit time) ops = .ok (Fifo.empty.dequeued ops) ↔ FitsAlong (mieqInit time) ops :=
  (refines_init time).dequeued_iff ops

def deviceless : Arrival := ⟨none,⟨false,0,0⟩,fun h => by cases h⟩

lemma merges_deviceless (q : EventQueue) : merges q deviceless = false := rfl

lemma RingAt.enqueue_deviceless {len : ℕ} (hr : RingAt q 0 len) (hlen : len+1 < 2^31) :
    ∃ q', mieqEnqueue q deviceless = .ok q' ∧ RingAt q' 0 (len+1) := by
  have hmerge := merges_deviceless q
  by_cases hfull : len+1 = q.nevents
  · obtain ⟨grown,hg,hhead,htail,hn,-⟩ := hr.mieqGrowQueue_eq hfull
    obtain ⟨q',hq',hr',-,-⟩ := (hr.grown hfull (by omega) hhead htail hn).push (by omega) deviceless
    exact ⟨q',(mieqEnqueue_of_full hr hmerge hfull hg).trans hq',hr'⟩
  · obtain ⟨q',hq',hr',-,-⟩ := hr.push (by have := hr.len_lt; omega) deviceless
    exact ⟨q',(mieqEnqueue_of_room hr hmerge hfull).trans hq',hr'⟩

lemma dequeued_cons_ok {q q' : EventQueue} {op : Op} {ops : List Op} {r : Option EventRec} {e : Fault}
    (h : step q op = .ok (q',r)) (he : dequeued q' ops = .error e) : dequeued q (op :: ops) = .error e := by
  rw [dequeued,h,Checked.ok_bind,he]
  rfl

lemma RingAt.fault_at_end (m : ℕ) : ∀ {q : EventQueue} {head : ℕ}, RingAt q head m → q.nevents = 2^31 →
    head+m = 2^31-1 → ∃ e, dequeued q (List.replicate m .dequeue ++ [.enqueue deviceless,.dequeue]) = .error e := by
  induction m with
  | zero =>
    intro q head hr hn hsum
    obtain ⟨q',hq',hr',-,-⟩ := hr.push (by omega) deviceless
    have hstep : step q (.enqueue deviceless) = .ok (q',none) := by
      rw [step,mieqEnqueue_of_room hr (merges_deviceless q) (by omega),hq']
      rfl
    have hne : q'.head ≠ q'.tail := fun he => Nat.one_ne_zero (hr'.tail_eq_head_iff.1 he.symm)
    have hfault := hr'.dequeue_fault (by rw [hr'.head_eq]; omega) hne
    refine ⟨.signedOverflow,dequeued_cons_ok hstep ?_⟩
    rw [dequeued,step,hfault]
    rfl
  | succ m ih =>
    intro q head hr hn hsum
    obtain ⟨hdeq,hr'⟩ := hr.dequeue (by omega)
    have hcell : cell q.nevents head 1 = head+1 := Nat.mod_eq_of_lt (by omega)
    obtain ⟨e,he⟩ := ih hr' hn (by omega)
    rw [List.replicate_succ,List.cons_append]
    exact ⟨e,dequeued_cons_ok hdeq he⟩

lemma RingAt.fault_filled (n : ℕ) : ∀ {q : EventQueue} {len : ℕ}, RingAt q 0 len → len+n = 2^31-1 →
    ∃ e, dequeued q (List.replicate n (.enqueue deviceless) ++
      (List.replicate (len+n) .dequeue ++ [.enqueue deviceless,.dequeue])) = .error e := by
  induction n with
  | zero =>
    intro q len hr hsum
    obtain ⟨k,hk,hn⟩ := hr.size
    have hl := hr.len_lt
    have hk : k = 31 := by
      by_contra hne
      have hlt : 2^k ≤ 2^30 := Nat.pow_le_pow_right (by omega) (by omega)
      omega
    exact hr.fault_at_end _ (by rw [hn,hk]) (by omega)
  | succ n ih =>
    intro q len hr hsum
    obtain ⟨q',hq',hr'⟩ := hr.enqueue_deviceless (by omega)
    have hstep : step q (.enqueue deviceless) = .ok (q',none) := by
      rw [step,hq']
      rfl
    obtain ⟨e,he⟩ := ih hr' (by omega)
    rw [Nat.add_right_comm,Nat.add_assoc] at he
    rw [List.replicate_succ,List.cons_append]
    exact ⟨e,dequeued_cons_ok hstep he⟩

def passLastSlot (n : ℕ) : List Op :=
  List.replicate n (.enqueue deviceless) ++ (List.replicate n .dequeue ++ [.enqueue deviceless,.dequeue])

theorem dequeued_passLastSlot_ne :
    dequeued (mieqInit 0) (passLastSlot (2^31-1)) ≠ .ok (Fifo.empty.dequeued (passLastSlot (2^31-1))) := by
  obtain ⟨e,he⟩ := (ringAt_init 0).fault_filled (2^31-1) (Nat.zero_add _)
  rw [Nat.zero_add] at he
  intro h
  rw [passLastSlot,he] at h
  cases h

end Runs

end Xlibre.Mi
