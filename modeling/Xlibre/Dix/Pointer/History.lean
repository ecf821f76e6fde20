import Xlibre.Lib.Ring
import Xlibre.Lib.Rows

/-! The motion history of a device: a ring of records in one buffer. -/
namespace Xlibre.Dix.Motion
open Rows Lib.Ring

abbrev Word := BitVec 32

def maxValuators : ℕ := 36

/-- `AxisInfo`; the mode says whether the axis is absolute. -/
structure AxisInfo where
  mode : Bool := false
  minValue : Word := 0
  maxValue : Word := 0

structure Device where
  master : Bool := false
  numMotionEvents : ℕ
  axes : List AxisInfo
  legal : axes.length ≤ maxValuators

/-- One call of `updateMotionHistory`: the valuators in the mask, with their values as integers. -/
structure Update where
  ms : Word
  mask : ℕ → Bool
  valuators : ℕ → Word

/-- The buffer, in words, and the ring in it. -/
structure History where
  motion : List Word
  firstMotion : ℕ := 0
  lastMotion : ℕ := 0

namespace Device
variable (d : Device)

def numAxes : ℕ := d.axes.length

def leadingAxes : ℕ := (d.axes.takeWhile fun a => a.mode = (d.axes.headD {}).mode).length

/-- `AllocateMotionHistory`. The time is one word. -/
def allocateMotionHistory : History where
  motion := List.replicate (d.numMotionEvents*((if d.master then 3*maxValuators else d.leadingAxes) + 1)) 0

def recordSize : ℕ := (if d.master then 3*maxValuators else d.numAxes) + 1

/-- The axes of a master; XI1 doesn't support mixed mode devices. -/
def writeRanges (u : Update) (mode : Bool) (buff : List Word) (pos i : ℕ) : List AxisInfo → Option (List Word)
  | [] => some buff
  | a::as =>
    if a.mode ≠ mode then some buff
    else if u.mask i then do writeRanges u mode (← place buff pos [a.minValue,a.maxValue,u.valuators i]) (pos+3) (i+1) as
    else writeRanges u mode buff (pos+3) (i+1) as

/-- The valuators of a slave, from the `i`-th on. -/
def writeValuators (u : Update) (buff : List Word) (pos i : ℕ) : ℕ → Option (List Word)
  | 0 => some buff
  | n+1 =>
    if u.mask i then do writeValuators u (← place buff pos [u.valuators i]) (pos+1) (i+1) n
    else writeValuators u buff (pos+1) (i+1) n

/-- `updateMotionHistory`; nothing when it writes outside of the buffer. -/
def updateMotionHistory (h : History) (u : Update) : Option History :=
  if d.numMotionEvents = 0 then some h
  else do
    let buff := d.recordSize*h.lastMotion
    let motion ← place h.motion buff [u.ms]
    let motion ← place motion (buff+1) (List.replicate (d.recordSize - 1) 0)
    let motion ← (if d.master then writeRanges u (d.axes.headD {}).mode motion (buff+1) 0 d.axes
      else writeValuators u motion (buff+1) 0 maxValuators)
    let last := (h.lastMotion+1) % d.numMotionEvents
    -- If we're wrapping around, just keep the circular buffer going.
    let first := if h.firstMotion = last then (h.firstMotion+1) % d.numMotionEvents else h.firstMotion
    some ⟨motion,first,last⟩

/-- The records from the `i`-th cell to the last one; the loop takes at most as many rounds as it is given. -/
def collect (h : History) (start stop : ℕ) : ℕ → ℕ → Option (List (List Word))
  | 0, _ => some []
  | rounds+1, i =>
    if i = h.lastMotion then some []
    else
      let ibuff := (h.motion.drop (i*d.recordSize)).take d.recordSize
      if ibuff.length < d.recordSize then none
      else
        let current := (ibuff.headD 0).toNat
        if current > stop then some []
        else
          (collect h start stop rounds ((i+1) % d.numMotionEvents)).map fun rest =>
            if current ≥ start then ibuff::rest else rest

/-- `GetMotionHistory` for a slave, not for core. Nothing is for a read outside of the buffer. -/
def getMotionHistory (h : History) (start stop : ℕ) : Option (List (List Word)) :=
  if d.numMotionEvents = 0 then some []
  else d.collect h start stop d.numMotionEvents h.firstMotion

/-- Updates one after the other, with the buffer just allocated. -/
def run (us : List Update) : Option History := us.foldlM d.updateMotionHistory d.allocateMotionHistory

def record (u : Update) : List Word := u.ms::(List.range d.numAxes).map fun i => if u.mask i then u.valuators i else 0

/-- The last updates, as many as the ring can hold. -/
def recent (us : List Update) : List Update := us.drop (us.length - (d.numMotionEvents - 1))

/-- The words of a record. -/
def slot (h : List Word) (i : ℕ) : List Word := (h.drop (i*d.recordSize)).take d.recordSize

end Device

section Slave
open Device
variable {d : Device} {u : Update} {h : History} {pre post : List Word} {i k m n : ℕ}

lemma recordSize_slave (hd : d.master = false) : d.recordSize = d.numAxes + 1 := by simp [recordSize,hd]

lemma writeValuators_none {pos : ℕ} (hmask : ∀ j, i ≤ j → j < i + m → u.mask j = false) :
    writeValuators u pre pos i m = some pre := by
  induction m generalizing pos i with
  | zero => rfl
  | succ m ih =>
    rw [writeValuators,if_neg (by simp [hmask i le_rfl (by omega)])]
    exact ih fun j hj hlt => hmask j (by omega) (by omega)

lemma writeValuators_eq (hm : k ≤ m) (hmask : ∀ j, i + k ≤ j → j < i + m → u.mask j = false) :
    writeValuators u (pre ++ (List.replicate k 0 ++ post)) pre.length i m =
      some (pre ++ ((List.range' i k).map (fun i => if u.mask i then u.valuators i else 0) ++ post)) := by
  induction k generalizing pre i m with
  | zero => exact writeValuators_none fun j hj hlt => hmask j (by omega) hlt
  | succ k ih =>
    obtain ⟨m,rfl⟩ := Nat.exists_eq_add_of_le' (Nat.le_trans (Nat.le_add_left 1 k) hm)
    have hrest : ∀ v : Word, writeValuators u (pre ++ [v] ++ (List.replicate k 0 ++ post)) (pre.length+1) (i+1) m =
        some (pre ++ [v] ++ ((List.range' (i+1) k).map (fun i => if u.mask i then u.valuators i else 0) ++ post)) := by
      intro v
      rw [show pre.length + 1 = (pre ++ [v]).length by simp]
      exact ih (by omega) fun j hj hlt => hmask j (by omega) (by omega)
    rw [writeValuators,List.range'_succ,List.map_cons]
    split_ifs
    · have hset : place (pre ++ (List.replicate (k+1) 0 ++ post)) pre.length [u.valuators i] =
          some (pre ++ [u.valuators i] ++ (List.replicate k 0 ++ post)) := by
        rw [List.append_assoc]
        exact place_segment (show [(0 : Word)].length = [u.valuators i].length from rfl)
      rw [hset]
      simpa using hrest (u.valuators i)
    · simpa [List.replicate_succ] using hrest 0

lemma updateMotionHistory_slave (hd : d.master = false) (hN : 0 < d.numMotionEvents)
    (hmask : ∀ i < maxValuators, u.mask i = true → i < d.numAxes) {old : List Word} (hold : old.length = d.recordSize)
    (hpre : pre.length = d.recordSize*h.lastMotion) (hmotion : h.motion = pre ++ (old ++ post)) :
    d.updateMotionHistory h u = some ⟨pre ++ (d.record u ++ post),
      if h.firstMotion = (h.lastMotion+1) % d.numMotionEvents then (h.firstMotion+1) % d.numMotionEvents else h.firstMotion,
      (h.lastMotion+1) % d.numMotionEvents⟩ := by
  have hsize : d.recordSize = d.numAxes + 1 := recordSize_slave hd
  obtain ⟨o,os,rfl⟩ : ∃ o os, old = o::os := List.exists_cons_of_length_eq_add_one (hold.trans hsize)
  have hos : os.length = d.numAxes := by simpa [hsize] using hold
  have htime : place h.motion (d.recordSize*h.lastMotion) [u.ms] = some (pre ++ [u.ms] ++ (os ++ post)) := by
    rw [hmotion,← hpre,List.append_assoc]
    exact place_segment (show [o].length = [u.ms].length from rfl)
  have hclear : place (pre ++ [u.ms] ++ (os ++ post)) (d.recordSize*h.lastMotion+1) (List.replicate (d.recordSize - 1) 0) =
      some (pre ++ [u.ms] ++ (List.replicate d.numAxes 0 ++ post)) := by
    rw [hsize,Nat.add_sub_cancel,show (d.numAxes+1)*h.lastMotion + 1 = (pre ++ [u.ms]).length by simp [hpre,hsize]]
    exact place_segment (by simp [hos])
  have hvalues : writeValuators u (pre ++ [u.ms] ++ (List.replicate d.numAxes 0 ++ post)) (d.recordSize*h.lastMotion+1) 0
      maxValuators = some (pre ++ (d.record u ++ post)) := by
    rw [show d.recordSize*h.lastMotion + 1 = (pre ++ [u.ms]).length by simp [hpre],
      writeValuators_eq (show d.numAxes ≤ maxValuators from d.legal)]
    · rw [← List.range_eq_range',List.append_assoc]
      rfl
    · intro j hj hlt
      by_contra hmem
      have hlt' := hmask j (by omega) (by simpa using hmem)
      omega
  unfold updateMotionHistory
  rw [if_neg hN.ne']
  simp only [htime,hclear,hd,hvalues,Option.bind_eq_bind,Option.bind_some,Bool.false_eq_true,if_false]

lemma updateMotionHistory_none (hN : 0 < d.numMotionEvents)
    (hroom : h.motion.length < d.recordSize*h.lastMotion + d.recordSize) : d.updateMotionHistory h u = none := by
  unfold updateMotionHistory
  rw [if_neg hN.ne']
  change Option.bind _ (fun motion => Option.bind _ fun motion => _) = none
  obtain hlt | hge := Nat.lt_or_ge (d.recordSize*h.lastMotion) h.motion.length
  · have hsize : 0 < d.recordSize - 1 := by omega
    cases htime : place h.motion (d.recordSize*h.lastMotion) [u.ms] with
    | none => rfl
    | some motion =>
      have hlen := length_of_place htime
      rw [Option.bind_some,place_none (by simp; omega) (by simp; omega)]
      rfl
  · rw [place_none (by simp) (by simp; omega)]
    rfl

lemma mod_ne {i j N : ℕ} (hij : i < j) (hj : j < i + N) : i % N ≠ j % N := by
  have hcell : cell N 0 i ≠ cell N 0 j := cell_ne hij hj
  unfold cell at hcell
  rwa [Nat.zero_add,Nat.zero_add] at hcell

lemma slot_write {s t : ℕ} {rec old : List Word} (hpre : pre.length = d.recordSize*t) (hrec : rec.length = d.recordSize)
    (hold : old.length = d.recordSize) : d.slot (pre ++ (rec ++ post)) s =
      if s = t then rec else d.slot (pre ++ (old ++ post)) s := by
  unfold slot
  generalize d.recordSize = c at *
  split_ifs with hst
  · subst hst
    rw [Nat.mul_comm,← hpre,List.drop_left,List.take_left' hrec]
  · obtain hlt | hgt := Nat.lt_or_gt_of_ne hst
    · have hle : s*c + c ≤ pre.length := by
        rw [hpre,Nat.mul_comm c t,← Nat.succ_mul]
        exact Nat.mul_le_mul_right c hlt
      rw [List.drop_append_of_le_length (by omega),List.drop_append_of_le_length (by omega),
        List.take_append_of_le_length (by simp; omega),List.take_append_of_le_length (by simp; omega)]
    · have hle : pre.length + c ≤ s*c := by
        rw [hpre,Nat.mul_comm c t,← Nat.succ_mul]
        exact Nat.mul_le_mul_right c hgt
      simp only [List.drop_append,hrec,hold]
      rw [List.drop_eq_nil_of_le (show rec.length ≤ s*c - pre.length by omega),
        List.drop_eq_nil_of_le (show old.length ≤ s*c - pre.length by omega)]

/-- After some updates: where the ring starts and ends, and the records that are in it. -/
structure Device.Holds (d : Device) (us : List Update) (h : History) : Prop where
  length : h.motion.length = d.allocateMotionHistory.motion.length
  last : h.lastMotion = us.length % d.numMotionEvents
  first : h.firstMotion = (us.length - min us.length (d.numMotionEvents - 1)) % d.numMotionEvents
  slots : ∀ j u, us[j]? = some u → us.length < j + d.numMotionEvents → d.slot h.motion (j % d.numMotionEvents) = d.record u

lemma holds_nil : d.Holds [] d.allocateMotionHistory :=
  ⟨rfl,(Nat.zero_mod _).symm,by simp [allocateMotionHistory],by simp⟩

lemma first_next {k N : ℕ} (hN : 0 < N) : (if (k - min k (N-1)) % N = (k+1) % N then ((k - min k (N-1)) % N + 1) % N
    else (k - min k (N-1)) % N) = (k + 1 - min (k+1) (N-1)) % N := by
  obtain hlt | hge := Nat.lt_or_ge k (N-1)
  · rw [Nat.min_eq_left hlt.le,Nat.min_eq_left hlt,Nat.sub_self,Nat.sub_self,Nat.zero_mod,Nat.mod_eq_of_lt (by omega),
      if_neg (by omega)]
  · have hturn : (k - (N-1)) % N = (k+1) % N := by
      rw [show k + 1 = k - (N-1) + N by omega,Nat.add_mod_right]
    rw [Nat.min_eq_right hge,Nat.min_eq_right (by omega),if_pos hturn,Nat.mod_add_mod]
    congr 1
    omega

lemma length_record : (d.record u).length = d.numAxes + 1 := by simp [record]

lemma Device.Holds.update (hd : d.master = false) (hN : 0 < d.numMotionEvents) {us : List Update} (hh : d.Holds us h)
    (hmask : ∀ i < maxValuators, u.mask i = true → i < d.numAxes)
    (hroom : d.recordSize*h.lastMotion + d.recordSize ≤ h.motion.length) :
    ∃ h', d.updateMotionHistory h u = some h' ∧ d.Holds (us ++ [u]) h' := by
  have hsize : d.recordSize = d.numAxes + 1 := recordSize_slave hd
  obtain ⟨pre,old,post,hmotion,hpre,hold⟩ : ∃ pre old post, h.motion = pre ++ (old ++ post) ∧
      pre.length = d.recordSize*h.lastMotion ∧ old.length = d.recordSize := by
    refine ⟨h.motion.take (d.recordSize*h.lastMotion),(h.motion.drop (d.recordSize*h.lastMotion)).take d.recordSize,
      (h.motion.drop (d.recordSize*h.lastMotion)).drop d.recordSize,?_,?_,?_⟩
    · rw [List.take_append_drop,List.take_append_drop]
    · rw [List.length_take]
      omega
    · rw [List.length_take,List.length_drop]
      omega
  refine ⟨_,updateMotionHistory_slave hd hN hmask hold hpre hmotion,?_,?_,?_,?_⟩
  · rw [← hh.length,hmotion]
    simp only [List.length_append,hold,length_record,hsize]
  · rw [hh.last,Nat.mod_add_mod,List.length_append]
    rfl
  · rw [hh.last,Nat.mod_add_mod,hh.first,first_next hN,List.length_append]
    rfl
  · intro j v hj hlive
    rw [List.length_append,List.length_singleton] at hlive
    dsimp only
    rw [slot_write hpre (by rw [length_record,hsize]) hold,← hmotion,hh.last]
    obtain hlt | rfl | hgt := Nat.lt_trichotomy j us.length
    · rw [List.getElem?_append_left hlt] at hj
      rw [if_neg (mod_ne hlt (by omega))]
      exact hh.slots j v hj (by omega)
    · rw [List.getElem?_append_right le_rfl,Nat.sub_self] at hj
      rw [if_pos rfl,Option.some.inj hj]
    · rw [List.getElem?_eq_none (by simp; omega)] at hj
      cases hj

lemma collect_eq {us : List Update} (hh : d.Holds us h) (hd : d.master = false) (hsort : us.Pairwise fun a b => a.ms.toNat ≤ b.ms.toNat)
    {start stop rounds j : ℕ} (hj : j ≤ us.length) (hlive : us.length < j + d.numMotionEvents) (hrounds : us.length < j + rounds) :
    d.collect h start stop rounds (j % d.numMotionEvents) =
      some (((us.drop j).filter fun u => start ≤ u.ms.toNat ∧ u.ms.toNat ≤ stop).map d.record) := by
  induction rounds generalizing j with
  | zero => omega
  | succ rounds ih =>
    rw [collect]
    obtain rfl | hlt := Nat.eq_or_lt_of_le hj
    · rw [if_pos hh.last.symm]
      simp
    · have hne : j % d.numMotionEvents ≠ h.lastMotion := by
        rw [hh.last]
        exact mod_ne hlt hlive
      have hslot : (h.motion.drop (j % d.numMotionEvents*d.recordSize)).take d.recordSize = d.record us[j] :=
        hh.slots j us[j] (List.getElem?_eq_getElem hlt) hlive
      have hsize : d.recordSize = d.numAxes + 1 := recordSize_slave hd
      have hrest : d.collect h start stop rounds ((j+1) % d.numMotionEvents) = some (((us.drop (j+1)).filter fun u =>
          start ≤ u.ms.toNat ∧ u.ms.toNat ≤ stop).map d.record) := ih hlt (by omega) (by omega)
      have hlater : ∀ v ∈ us.drop (j+1), us[j].ms.toNat ≤ v.ms.toNat := by
        have hdrop := hsort.drop (i := j)
        rw [List.drop_eq_getElem_cons hlt] at hdrop
        exact (List.pairwise_cons.1 hdrop).1
      have hms : (d.record us[j]).headD 0 = us[j].ms := rfl
      rw [if_neg hne,hslot,List.drop_eq_getElem_cons hlt]
      dsimp only
      rw [length_record,hsize,if_neg (lt_irrefl _),Nat.mod_add_mod,hrest,hms]
      split_ifs with hlate hearly
      · -- The times that follow are too late as well.
        rw [List.filter_eq_nil_iff.2]
        · rfl
        · intro v hv
          obtain rfl | hv := List.mem_cons.1 hv
          · simp only [decide_eq_true_eq]
            omega
          · have hle := hlater v hv
            simp only [decide_eq_true_eq]
            omega
      · rw [Option.map_some,List.filter_cons_of_pos (by simp only [decide_eq_true_eq]; omega)]
        rfl
      · rw [Option.map_some,List.filter_cons_of_neg (by simp only [decide_eq_true_eq]; omega)]

lemma Device.Holds.getMotionHistory {us : List Update} (hh : d.Holds us h) (hd : d.master = false) (hN : 0 < d.numMotionEvents)
    (hsort : us.Pairwise fun a b => a.ms.toNat ≤ b.ms.toNat) (start stop : ℕ) : d.getMotionHistory h start stop =
      some (((d.recent us).filter fun u => start ≤ u.ms.toNat ∧ u.ms.toNat ≤ stop).map d.record) := by
  have hfirst : us.length - min us.length (d.numMotionEvents - 1) = us.length - (d.numMotionEvents - 1) := by omega
  unfold Device.getMotionHistory recent
  rw [if_neg hN.ne',hh.first,hfirst]
  exact collect_eq hh hd hsort (Nat.sub_le _ _) (by omega) (by omega)

end Slave

section Runs
open Device
variable {d : Device} {u : Update} {h h' : History} {us vs : List Update} {buff buff' : List Word} {i n pos : ℕ}

lemma length_writeValuators (hw : writeValuators u buff pos i n = some buff') : buff'.length = buff.length := by
  induction n generalizing buff pos i with
  | zero => exact (congrArg List.length (Option.some.inj hw)).symm
  | succ n ih =>
    rw [writeValuators] at hw
    split_ifs at hw
    · obtain ⟨written,hplace,hw⟩ := Option.bind_eq_some_iff.1 hw
      exact (ih hw).trans (length_of_place hplace)
    · exact ih hw

lemma writeValuators_outside {j : ℕ} (hij : i ≤ j) (hj : j < i + n) (hmask : u.mask j = true)
    (hend : buff.length ≤ pos + (j - i)) : writeValuators u buff pos i n = none := by
  induction n generalizing buff pos i with
  | zero => omega
  | succ n ih =>
    rw [writeValuators]
    obtain rfl | hlt := Nat.eq_or_lt_of_le hij
    · rw [if_pos hmask,place_none (by simp) (by simp; omega)]
      rfl
    · split_ifs
      · cases hplace : place buff pos [u.valuators i] with
        | none => rfl
        | some written =>
          apply ih hlt (by omega)
          rw [length_of_place hplace]
          omega
      · exact ih hlt (by omega) (by omega)

lemma writeRanges_isSome {mode : Bool} {as : List AxisInfo} (hroom : pos + 3*as.length ≤ buff.length) :
    ∃ buff', writeRanges u mode buff pos i as = some buff' := by
  induction as generalizing buff pos i with
  | nil => exact ⟨buff,rfl⟩
  | cons a as ih =>
    rw [List.length_cons] at hroom
    rw [writeRanges]
    split_ifs
    · exact ⟨buff,rfl⟩
    · obtain ⟨written,hplace⟩ : ∃ written, place buff pos [a.minValue,a.maxValue,u.valuators i] = some written :=
        place_isSome (by simp only [List.length_cons,List.length_nil]; omega)
      have hlen := length_of_place hplace
      rw [hplace]
      exact ih (by omega)
    · exact ih (by omega)

lemma length_writeRanges {mode : Bool} {as : List AxisInfo} (hw : writeRanges u mode buff pos i as = some buff') :
    buff'.length = buff.length := by
  induction as generalizing buff pos i with
  | nil => exact (congrArg List.length (Option.some.inj hw)).symm
  | cons a as ih =>
    rw [writeRanges] at hw
    split_ifs at hw
    · exact (congrArg List.length (Option.some.inj hw)).symm
    · obtain ⟨written,hplace,hw⟩ := Option.bind_eq_some_iff.1 hw
      exact (ih hw).trans (length_of_place hplace)
    · exact ih hw

lemma updateMotionHistory_eq (hN : 0 < d.numMotionEvents) (hu : d.updateMotionHistory h u = some h') :
    ∃ timed cleared, place h.motion (d.recordSize*h.lastMotion) [u.ms] = some timed ∧
      place timed (d.recordSize*h.lastMotion+1) (List.replicate (d.recordSize - 1) 0) = some cleared ∧
      (if d.master then writeRanges u (d.axes.headD {}).mode cleared (d.recordSize*h.lastMotion+1) 0 d.axes
        else writeValuators u cleared (d.recordSize*h.lastMotion+1) 0 maxValuators) = some h'.motion ∧
      h'.lastMotion = (h.lastMotion+1) % d.numMotionEvents := by
  unfold updateMotionHistory at hu
  rw [if_neg hN.ne'] at hu
  obtain ⟨timed,htimed,hu⟩ := Option.bind_eq_some_iff.1 hu
  obtain ⟨cleared,hcleared,hu⟩ := Option.bind_eq_some_iff.1 hu
  obtain ⟨motion,hmotion,hu⟩ := Option.bind_eq_some_iff.1 hu
  cases hu
  exact ⟨timed,cleared,htimed,hcleared,hmotion,rfl⟩

lemma length_updateMotionHistory (hN : 0 < d.numMotionEvents) (hu : d.updateMotionHistory h u = some h') :
    h'.motion.length = h.motion.length := by
  obtain ⟨timed,cleared,htimed,hcleared,hmotion,-⟩ := updateMotionHistory_eq hN hu
  have hlen : cleared.length = h.motion.length := (length_of_place hcleared).trans (length_of_place htimed)
  split_ifs at hmotion
  · exact (length_writeRanges hmotion).trans hlen
  · exact (length_writeValuators hmotion).trans hlen

lemma run_append : d.run (us ++ [u]) = (d.run us).bind (d.updateMotionHistory · u) := by
  unfold Device.run
  rw [List.foldlM_append]
  cases us.foldlM d.updateMotionHistory d.allocateMotionHistory with
  | none => rfl
  | some h => exact Option.bind_fun_some (d.updateMotionHistory h u)

lemma run_none (hrun : d.run us = none) : d.run (us ++ vs) = none := by
  unfold Device.run at hrun ⊢
  rw [List.foldlM_append,hrun]
  rfl

lemma run_last (hN : 0 < d.numMotionEvents) (hrun : d.run us = some h) :
    h.motion.length = d.allocateMotionHistory.motion.length ∧ h.lastMotion = us.length % d.numMotionEvents := by
  induction us using List.reverseRecOn generalizing h with
  | nil =>
    cases hrun
    exact ⟨rfl,(Nat.zero_mod _).symm⟩
  | append_singleton us u ih =>
    rw [run_append] at hrun
    obtain ⟨before,hbefore,hu⟩ := Option.bind_eq_some_iff.1 hrun
    obtain ⟨hlen,hlast⟩ := ih hbefore
    refine ⟨(length_updateMotionHistory hN hu).trans hlen,?_⟩
    obtain ⟨_,_,-,-,-,hnext⟩ := updateMotionHistory_eq hN hu
    rw [hnext,hlast,Nat.mod_add_mod,List.length_append]
    rfl

lemma length_allocateMotionHistory (hd : d.master = false) :
    d.allocateMotionHistory.motion.length = d.numMotionEvents*(d.leadingAxes+1) := by simp [allocateMotionHistory,hd]

lemma leadingAxes_le : d.leadingAxes ≤ d.numAxes := (List.takeWhile_sublist _).length_le

/-- Every record is inside, and GetMotionHistory on a slave has the last records in the range of times. -/
def Device.Remembers (d : Device) (us : List Update) : Prop := ∃ h, d.run us = some h ∧
  (d.master = false → ∀ start stop, d.getMotionHistory h start stop =
    some (((d.recent us).filter fun u => start ≤ u.ms.toNat ∧ u.ms.toNat ≤ stop).map d.record))

lemma remembers_noEvents (hN : d.numMotionEvents = 0) : d.Remembers us := by
  refine ⟨d.allocateMotionHistory,?_,fun hd start stop => ?_⟩
  · induction us using List.reverseRecOn with
    | nil => rfl
    | append_singleton us u ih => rw [run_append,ih,Option.bind_some,updateMotionHistory,if_pos hN]
  · have hrecent : d.recent us = [] := List.drop_eq_nil_of_le (by omega)
    rw [getMotionHistory,if_pos hN,hrecent]
    rfl

lemma run_master (hd : d.master = true) (hN : 0 < d.numMotionEvents) : ∃ h, d.run us = some h := by
  induction us using List.reverseRecOn with
  | nil => exact ⟨_,rfl⟩
  | append_singleton us u ih =>
    obtain ⟨h,hrun⟩ := ih
    obtain ⟨hlen,hlast⟩ := run_last hN hrun
    have hsize : d.recordSize = 3*maxValuators + 1 := by simp [recordSize,hd]
    have hroom : d.recordSize*h.lastMotion + d.recordSize ≤ h.motion.length := by
      have hle : h.lastMotion + 1 ≤ d.numMotionEvents := by
        rw [hlast]
        exact Nat.mod_lt _ hN
      rw [hlen,← Nat.mul_succ,hsize,Nat.mul_comm]
      simpa [allocateMotionHistory,hd] using Nat.mul_le_mul_right (3*maxValuators+1) hle
    have hlegal := d.legal
    obtain ⟨timed,htimed⟩ : ∃ timed, place h.motion (d.recordSize*h.lastMotion) [u.ms] = some timed :=
      place_isSome (by simp; omega)
    obtain ⟨cleared,hcleared⟩ : ∃ cleared,
        place timed (d.recordSize*h.lastMotion+1) (List.replicate (d.recordSize - 1) 0) = some cleared :=
      place_isSome (by rw [length_of_place htimed,List.length_replicate]; omega)
    obtain ⟨motion,hmotion⟩ : ∃ motion,
        writeRanges u (d.axes.headD {}).mode cleared (d.recordSize*h.lastMotion+1) 0 d.axes = some motion :=
      writeRanges_isSome (by rw [length_of_place hcleared,length_of_place htimed]; omega)
    rw [run_append,hrun,Option.bind_some]
    unfold updateMotionHistory
    rw [if_neg hN.ne']
    simp only [htimed,hcleared,hd,hmotion,Option.bind_eq_bind,Option.bind_some,if_true]
    exact ⟨_,rfl⟩

lemma run_holds (hd : d.master = false) (hN : 0 < d.numMotionEvents)
    (hmask : ∀ u ∈ us, ∀ i < maxValuators, u.mask i = true → i < d.numAxes)
    (hfit : d.leadingAxes = d.numAxes ∨ us.length*(d.numAxes+1) ≤ d.numMotionEvents*(d.leadingAxes+1)) :
    ∃ h, d.run us = some h ∧ d.Holds us h := by
  induction us using List.reverseRecOn with
  | nil => exact ⟨_,rfl,holds_nil⟩
  | append_singleton us u ih =>
    rw [List.length_append,List.length_singleton] at hfit
    obtain ⟨h,hrun,hh⟩ := ih (fun v hv => hmask v (List.mem_append_left _ hv))
      (hfit.imp_right fun hle => (Nat.mul_le_mul_right _ (Nat.le_succ _)).trans hle)
    have hroom : d.recordSize*h.lastMotion + d.recordSize ≤ h.motion.length := by
      rw [hh.length,length_allocateMotionHistory hd,recordSize_slave hd,← Nat.mul_succ,Nat.mul_comm,hh.last]
      obtain heq | hle := hfit
      · rw [heq]
        exact Nat.mul_le_mul_right _ (Nat.mod_lt _ hN)
      · exact (Nat.mul_le_mul_right _ (Nat.succ_le_succ (Nat.mod_le _ _))).trans hle
    obtain ⟨h',hu,hh'⟩ := hh.update hd hN (hmask u (by simp)) hroom
    exact ⟨h',by rw [run_append,hrun,Option.bind_some,hu],hh'⟩

lemma run_outside (hd : d.master = false) (hfit : d.leadingAxes ≠ d.numAxes)
    (hlong : d.numMotionEvents*(d.leadingAxes+1) < us.length*(d.numAxes+1)) (hN : 0 < d.numMotionEvents) : d.run us = none := by
  have hlt : d.leadingAxes + 1 < d.numAxes + 1 := Nat.succ_lt_succ (lt_of_le_of_ne leadingAxes_le hfit)
  generalize hk : d.numMotionEvents*(d.leadingAxes+1)/(d.numAxes+1) = k
  have hkN : k < d.numMotionEvents := by
    rw [← hk]
    exact Nat.div_lt_of_lt_mul (by rw [Nat.mul_comm]; exact Nat.mul_lt_mul_of_pos_right hlt hN)
  have hkus : k < us.length := by
    rw [← hk]
    exact Nat.div_lt_of_lt_mul (by rw [Nat.mul_comm (d.numAxes+1)]; exact hlong)
  have hend : d.numMotionEvents*(d.leadingAxes+1) < (d.numAxes+1)*(k+1) := by
    rw [← hk]
    exact Nat.lt_mul_div_succ _ (Nat.succ_pos _)
  have hsplit : us.take k ++ [us[k]] ++ us.drop (k+1) = us := by
    rw [List.append_assoc,List.singleton_append,List.getElem_cons_drop,List.take_append_drop]
  rw [← hsplit]
  apply run_none
  rw [run_append]
  cases hrun : d.run (us.take k) with
  | none => rfl
  | some h =>
    obtain ⟨hlen,hlast⟩ := run_last hN hrun
    rw [List.length_take_of_le hkus.le,Nat.mod_eq_of_lt hkN] at hlast
    apply updateMotionHistory_none hN
    rw [hlen,length_allocateMotionHistory hd,recordSize_slave hd,hlast]
    exact hend

lemma run_outside_mask (hd : d.master = false) (hN : 0 < d.numMotionEvents) (hfew : d.leadingAxes < maxValuators)
    (hmask : ∀ i, u.mask i = true) : d.run (List.replicate d.numMotionEvents u) = none := by
  obtain ⟨n,hn⟩ := Nat.exists_eq_succ_of_ne_zero hN.ne'
  rw [hn,List.replicate_succ',run_append]
  cases hrun : d.run (List.replicate n u) with
  | none => rfl
  | some h =>
    obtain ⟨hlen,hlast⟩ := run_last hN hrun
    rw [List.length_replicate,hn,Nat.mod_eq_of_lt (Nat.lt_succ_self n)] at hlast
    cases hu : d.updateMotionHistory h u with
    | none => exact hu
    | some h' =>
      exfalso
      obtain ⟨timed,cleared,htimed,hcleared,hmotion,-⟩ := updateMotionHistory_eq hN hu
      have hle := leadingAxes_le (d := d)
      have hend : cleared.length ≤ d.recordSize*h.lastMotion + 1 + (maxValuators - 1 - 0) := by
        rw [length_of_place hcleared,length_of_place htimed,hlen,length_allocateMotionHistory hd,recordSize_slave hd,hlast,hn,
          Nat.succ_mul]
        have hmul : n*(d.leadingAxes+1) ≤ n*(d.numAxes+1) := Nat.mul_le_mul_left n (Nat.succ_le_succ hle)
        rw [Nat.mul_comm (d.numAxes+1)]
        omega
      rw [if_neg (by simp [hd]),writeValuators_outside (Nat.zero_le _) (by decide) (hmask (maxValuators - 1)) hend] at hmotion
      cases hmotion

/-- The buffer of a slave is for the axes before the first one of another mode, but the records have every axis, and a
mask may have valuators that are no axes. -/
theorem remembers_iff (d : Device) :
    ((∀ us : List Update, (us.Pairwise fun a b => a.ms.toNat ≤ b.ms.toNat) → d.Remembers us) ↔
      d.master = true ∨ d.numMotionEvents = 0 ∨ d.leadingAxes = maxValuators) ∧
    ∀ us : List Update, (us.Pairwise fun a b => a.ms.toNat ≤ b.ms.toNat) →
      (∀ u ∈ us, ∀ i < maxValuators, u.mask i = true → i < d.numAxes) →
      (d.Remembers us ↔ d.master = true ∨ d.numMotionEvents = 0 ∨ d.leadingAxes = d.numAxes ∨
        us.length*(d.numAxes+1) ≤ d.numMotionEvents*(d.leadingAxes+1)) := by
  have hall : d.numAxes ≤ maxValuators := d.legal
  have hle : d.leadingAxes ≤ d.numAxes := leadingAxes_le
  have hmaster : ∀ us : List Update, d.master = true → 0 < d.numMotionEvents → d.Remembers us := by
    intro us hd hN
    obtain ⟨h,hrun⟩ : ∃ h, d.run us = some h := run_master hd hN
    exact ⟨h,hrun,fun hslave => by rw [hd] at hslave; cases hslave⟩
  obtain hN | hN := Nat.eq_zero_or_pos d.numMotionEvents
  · exact ⟨⟨fun _ => .inr (.inl hN),fun _ us _ => remembers_noEvents hN⟩,
      fun us _ _ => ⟨fun _ => .inr (.inl hN),fun _ => remembers_noEvents hN⟩⟩
  cases hd : d.master with
  | true => exact ⟨⟨fun _ => .inl rfl,fun _ us _ => hmaster us hd hN⟩,fun us _ _ => ⟨fun _ => .inl rfl,fun _ => hmaster us hd hN⟩⟩
  | false =>
    have hslave : ∀ us : List Update, (us.Pairwise fun a b => a.ms.toNat ≤ b.ms.toNat) →
        (∀ u ∈ us, ∀ i < maxValuators, u.mask i = true → i < d.numAxes) →
        (d.leadingAxes = d.numAxes ∨ us.length*(d.numAxes+1) ≤ d.numMotionEvents*(d.leadingAxes+1)) → d.Remembers us := by
      intro us hsort hmask hfit
      obtain ⟨h,hrun,hh⟩ := run_holds hd hN hmask hfit
      exact ⟨h,hrun,fun _ => hh.getMotionHistory hd hN hsort⟩
    refine ⟨⟨fun hrem => ?_,?_⟩,fun us hsort hmask => ⟨fun hrem => ?_,?_⟩⟩
    · refine .inr (.inr (by_contra fun hfew => ?_))
      obtain ⟨h,hrun,-⟩ := hrem (List.replicate d.numMotionEvents ⟨0,fun _ => true,0⟩)
        (List.pairwise_replicate.2 (.inr le_rfl))
      rw [run_outside_mask hd hN (by omega) fun _ => rfl] at hrun
      cases hrun
    · rintro (htrue | hzero | hlead) us hsort
      · cases htrue
      · omega
      · exact hslave us hsort (fun u _ i hi _ => by omega) (.inl (by omega))
    · obtain hlead | hlead := eq_or_ne d.leadingAxes d.numAxes
      · exact .inr (.inr (.inl hlead))
      · refine .inr (.inr (.inr (Nat.le_of_not_lt fun hlong => ?_)))
        obtain ⟨h,hrun,-⟩ := hrem
        rw [run_outside hd hlead hlong hN] at hrun
        cases hrun
    · rintro (htrue | hzero | hfit)
      · cases htrue
      · omega
      · exact hslave us hsort hmask hfit

/-- A relative axis and then an absolute one. -/
def wheelAndSlider : Device where
  numMotionEvents := 3
  axes := [⟨false,0,0⟩,⟨true,0,100⟩]
  legal := by decide

/-- Both axes at a time. -/
def moved (ms x y : Word) : Update := ⟨ms,fun i => i < 2,fun i => if i = 0 then x else y⟩

/-- There is room for the first two records. -/
theorem remembers_iff_twoUpdates : wheelAndSlider.Remembers [moved 5 1 2,moved 6 3 4] :=
  ((remembers_iff wheelAndSlider).2 [moved 5 1 2,moved 6 3 4] (by decide) (by decide)).2 (by decide)

/-- The third record is past the end, although the ring has three. -/
theorem wheelAndSlider_forgets : ¬ ∀ us : List Update, (us.Pairwise fun a b => a.ms.toNat ≤ b.ms.toNat) →
    wheelAndSlider.Remembers us := by
  intro hall
  obtain ⟨h,hrun,-⟩ := hall [moved 5 1 2,moved 6 3 4,moved 7 5 6] (by decide)
  have hnone : wheelAndSlider.run [moved 5 1 2,moved 6 3 4,moved 7 5 6] = none := by decide
  rw [hnone] at hrun
  cases hrun

end Runs

end Xlibre.Dix.Motion
