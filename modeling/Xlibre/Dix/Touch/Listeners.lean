import Mathlib.Data.BitVec

/-! The listeners of a touch point and the copies of grabs that they hold: `TouchAddListener`, `TouchRemoveListener`, and
the end of a touch. -/
namespace Xlibre.Dix.Touch

/-- `TouchListenerType` -/
inductive ListenerType
  | grab
  | pointerGrab
  | regular
  | pointerRegular

/-- `TouchListenerState` -/
inductive ListenerState
  | awaitingBegin
  | awaitingOwner
  | earlyAccept
  | isOwner
  | hasAccepted
  | hasEnd

inductive InputLevel
  | core
  | xi
  | xi2

/-- `TouchListener`; the copies of grabs are numbered. -/
structure Listener where
  listener : ℕ
  resourceType : ℕ
  level : InputLevel
  state : ListenerState
  type : ListenerType
  window : ℕ
  grab : Option ℕ

/-- `TouchPointInfo`, as far as the listeners go; an array that is not there has no entries. `freed` has what `FreeGrab` got
so far. -/
structure TouchPoint where
  active : Bool := false
  pendingFinish : Bool := false
  clientId : BitVec 32 := 0
  listeners : List Listener
  numListeners : ℕ := 0
  numGrabs : ℤ := 0
  freed : List ℕ := []

/-- What `TouchAddListener` gets: whether there is a grab, and what `AllocGrab` makes of it. -/
structure NewListener where
  resource : ℕ
  resourceType : ℕ
  level : InputLevel
  type : ListenerType
  state : ListenerState
  window : ℕ
  grab : Bool
  copy : Option ℕ

def NewListener.made (r : NewListener) : Listener :=
  ⟨r.resource,r.resourceType,r.level,r.state,r.type,r.window,if r.grab then r.copy else none⟩

/-- The copies that listeners hold. -/
def held (l : List Listener) : List ℕ := l.filterMap Listener.grab

/-- From the `j`-th entry on, `n` entries get what is in the next one. -/
def shiftDown {α : Type} (l : List α) (j : ℕ) : ℕ → List α
  | 0 => l
  | n+1 =>
    match l[j+1]? with
    | none => l
    | some x => shiftDown (l.set j x) (j+1) n

namespace TouchPoint
variable (ti : TouchPoint)

/-- The listeners that count. -/
def live : List Listener := ti.listeners.take ti.numListeners

/-- The array is as long as it has to be. -/
def Room : Prop := ti.numListeners ≤ ti.listeners.length

/-- `TouchAddListener`; nothing when the array is full. -/
def addListener (r : NewListener) : Option TouchPoint :=
  if ti.numListeners < ti.listeners.length then
    some { ti with
      listeners := ti.listeners.set ti.numListeners r.made
      numListeners := ti.numListeners + 1
      numGrabs := if r.grab then ti.numGrabs + 1 else ti.numGrabs }
  else none

/-- `TouchRemoveListener` -/
def removeListener (resource : ℕ) : Bool × TouchPoint :=
  match ti.live.findIdx? fun l => l.listener = resource with
  | none => (false,ti)
  | some i =>
    let grab := ti.listeners[i]?.bind Listener.grab
    let taken := ti.listeners.modify i fun l => { l with grab := none }
    let shifted := shiftDown taken i (ti.numListeners - 1 - i)
    (true,{ ti with
      listeners := shifted.modify (ti.numListeners - 1) fun l => { l with listener := 0, state := .awaitingBegin }
      numListeners := ti.numListeners - 1
      numGrabs := if grab.isSome then ti.numGrabs - 1 else ti.numGrabs
      freed := ti.freed ++ grab.toList })

def removeFirst (ti : TouchPoint) (i : ℕ) : ℕ → TouchPoint
  | 0 => ti
  | rounds+1 =>
    if i < ti.numListeners then
      match ti.listeners[0]? with
      | none => ti
      | some l => removeFirst (ti.removeListener l.listener).2 (i+1) rounds
    else ti

def touchEndTouch : TouchPoint :=
  { ti.removeFirst 0 ti.numListeners with
    active := false
    pendingFinish := false
    listeners := []
    numListeners := 0
    numGrabs := 0
    clientId := 0 }

/-- `TouchFreeTouchPoint`, for a touch point that the device has. -/
def touchFreeTouchPoint : TouchPoint :=
  let ti := if ti.active then ti.touchEndTouch else ti
  { ti.removeFirst 0 ti.numListeners with listeners := [] }

/-- Every copy was freed once, and there are no listeners. -/
def AllReleased (ti' : TouchPoint) : Prop :=
  ti'.numListeners = 0 ∧ ∀ g, ti'.freed.count g = ti.freed.count g + (held ti.live).count g

/-- The listeners in the second half hold no copy. -/
def LaterFree : Prop := ∀ l ∈ ti.live.drop ((ti.numListeners + 1)/2), l.grab = none

end TouchPoint

inductive ListenerCall
  | add (r : NewListener)
  | remove (resource : ℕ)

namespace ListenerCall

def apply (ti : TouchPoint) : ListenerCall → Option TouchPoint
  | add r => ti.addListener r
  | remove resource => some (ti.removeListener resource).2

/-- What a call should do with the listeners. -/
def change (l : List Listener) : ListenerCall → List Listener
  | add r => l ++ [r.made]
  | remove resource => l.eraseP fun x => x.listener = resource

def added : ListenerCall → Option Listener
  | add r => some r.made
  | remove _ => none

end ListenerCall

/-- A sequence of calls for which the array is long enough. -/
def TouchPoint.Fits (ti : TouchPoint) (cs : List ListenerCall) : Prop :=
  ∀ before r after, cs = before ++ .add r::after → (before.foldl ListenerCall.change ti.live).length < ti.listeners.length

section Steps
variable {α : Type} {a b c : List α} {x : α} {ti ti' : TouchPoint} {cs : List ListenerCall} {i resource rounds : ℕ}

lemma length_shiftDown {l : List α} {n : ℕ} : (shiftDown l i n).length = l.length := by
  induction n generalizing l i with
  | zero => rfl
  | succ n ih =>
    unfold shiftDown
    cases l[i+1]? with
    | none => rfl
    | some x => exact ih.trans List.length_set

lemma take_shiftDown : (shiftDown (a ++ x::(b ++ c)) a.length b.length).take (a.length + b.length) = a ++ b := by
  induction b generalizing a x with
  | nil =>
    change (a ++ x::c).take a.length = a ++ []
    rw [List.take_left,List.append_nil]
  | cons y b ih =>
    have hnext : (a ++ x::(y::b ++ c))[a.length + 1]? = some y := by simp
    have hset : (a ++ x::(y::b ++ c)).set a.length y = a ++ [y] ++ y::(b ++ c) := by simp
    rw [List.length_cons,shiftDown,hnext]
    dsimp only
    rw [hset,show a.length + 1 = (a ++ [y]).length by simp,show a.length + (b.length + 1) = (a ++ [y]).length + b.length by simp; omega,
      ih,List.append_assoc]
    rfl

lemma length_live (h : ti.Room) : ti.live.length = ti.numListeners := List.length_take_of_le h

lemma removeListener_mem (h : ti.Room) {a b : List Listener} {x : Listener} (hlive : ti.live = a ++ x::b)
    (hbefore : ∀ y ∈ a, y.listener ≠ resource) (hx : x.listener = resource) : ∃ ti', ti.removeListener resource = (true,ti') ∧
      ti'.live = a ++ b ∧ ti'.numListeners + 1 = ti.numListeners ∧ ti'.listeners.length = ti.listeners.length ∧
      ti'.freed = ti.freed ++ x.grab.toList ∧ ti'.active = ti.active := by
  have hlen := length_live h
  rw [hlive,List.length_append,List.length_cons] at hlen
  have hfind : ti.live.findIdx? (fun l => l.listener = resource) = some a.length := by
    rw [hlive,List.findIdx?_append,List.findIdx?_eq_none_iff.2 (fun y hy => by simp [hbefore y hy]),List.findIdx?_cons]
    simp [hx]
  obtain ⟨c,hsplit⟩ : ∃ c, ti.listeners = a ++ x::(b ++ c) := by
    refine ⟨ti.listeners.drop ti.numListeners,?_⟩
    calc ti.listeners = ti.live ++ ti.listeners.drop ti.numListeners := (List.take_append_drop _ _).symm
      _ = a ++ x::(b ++ ti.listeners.drop ti.numListeners) := by rw [hlive,List.append_assoc,List.cons_append]
  have hget : ti.listeners[a.length]? = some x := by
    rw [hsplit]
    simp
  unfold TouchPoint.removeListener
  rw [hfind]
  refine ⟨_,rfl,?_,?_,?_,?_,rfl⟩
  · unfold TouchPoint.live
    dsimp only
    have htaken : ti.listeners.modify a.length (fun l => { l with grab := none }) =
        a ++ { x with grab := none }::(b ++ c) := by
      rw [hsplit,List.modify_eq_take_drop,List.take_left,List.drop_left]
      rfl
    rw [List.take_modify,List.modify_eq_self (by rw [List.length_take]; omega),htaken,
      show ti.numListeners - 1 - a.length = b.length by omega,show ti.numListeners - 1 = a.length + b.length by omega]
    exact take_shiftDown
  · dsimp only
    omega
  · dsimp only
    rw [List.length_modify,length_shiftDown,List.length_modify]
  · dsimp only
    rw [hget,Option.bind_some]

lemma removeListener_none (hnone : ∀ y ∈ ti.live, y.listener ≠ resource) : ti.removeListener resource = (false,ti) := by
  unfold TouchPoint.removeListener
  rw [List.findIdx?_eq_none_iff.2 fun y hy => by simp [hnone y hy]]

lemma removeListener_first (h : ti.Room) {x : Listener} {rest : List Listener} (hlive : ti.live = x::rest) :
    ∃ ti', ti.removeListener x.listener = (true,ti') ∧ ti'.live = rest ∧ ti'.numListeners + 1 = ti.numListeners ∧
      ti'.listeners.length = ti.listeners.length ∧ ti'.freed = ti.freed ++ x.grab.toList ∧ ti'.active = ti.active :=
  removeListener_mem h (a := []) hlive (by simp) rfl

lemma removeFirst_eq (h : ti.Room) (hrounds : ti.numListeners ≤ i + rounds) :
    (ti.removeFirst i rounds).numListeners = ti.numListeners - (ti.numListeners + 1 - i)/2 ∧
      (ti.removeFirst i rounds).freed = ti.freed ++ held (ti.live.take ((ti.numListeners + 1 - i)/2)) := by
  induction rounds generalizing ti i with
  | zero =>
    rw [show (ti.numListeners + 1 - i)/2 = 0 by omega,List.take_zero]
    exact ⟨rfl,(List.append_nil _).symm⟩
  | succ rounds ih =>
    unfold TouchPoint.removeFirst
    split_ifs with hi
    · have hlen := length_live h
      obtain ⟨x,rest,hlive⟩ : ∃ x rest, ti.live = x::rest :=
        List.exists_cons_of_length_pos (by omega)
      have hget : ti.listeners[0]? = some x := by
        have hzero : ti.live[0]? = some x := by rw [hlive]; rfl
        rw [← hzero]
        exact (List.getElem?_take_of_lt (by omega)).symm
      obtain ⟨ti',hremove,hlive',hnum,hsize,hfreed,-⟩ := removeListener_first h hlive
      have hroom' : ti'.Room := by
        unfold TouchPoint.Room at *
        omega
      obtain ⟨hnum',hfreed'⟩ := ih hroom' (i := i+1) (by omega)
      rw [hget]
      dsimp only
      rw [hremove]
      dsimp only
      rw [hnum',hfreed',hfreed,hlive,hlive',show (ti.numListeners + 1 - i)/2 = (ti'.numListeners + 1 - (i+1))/2 + 1 by omega,
        List.take_succ_cons,List.append_assoc]
      refine ⟨by omega,congrArg (ti.freed ++ ·) ?_⟩
      unfold held
      rw [List.filterMap_cons]
      cases x.grab <;> rfl
    · rw [show (ti.numListeners + 1 - i)/2 = 0 by omega,List.take_zero]
      exact ⟨rfl,(List.append_nil _).symm⟩

lemma count_held_take {k : ℕ} {l : List Listener} : (∀ g, (held (l.take k)).count g = (held l).count g) ↔
    ∀ x ∈ l.drop k, x.grab = none := by
  have hparts : ∀ g, (held l).count g = (held (l.take k)).count g + (held (l.drop k)).count g := by
    intro g
    conv_lhs => rw [← List.take_append_drop k l]
    unfold held
    rw [List.filterMap_append,List.count_append]
  constructor
  · intro hall x hx
    cases hg : x.grab with
    | none => rfl
    | some g =>
      have hmem : g ∈ held (l.drop k) := List.mem_filterMap.2 ⟨x,hx,hg⟩
      have hpos := List.count_pos_iff.2 hmem
      have heq := hall g
      rw [hparts g] at heq
      omega
  · intro hnone g
    have hnil : held (l.drop k) = [] := List.filterMap_eq_nil_iff.2 hnone
    rw [hparts g,hnil]
    rfl

lemma touchEndTouch_released (h : ti.Room) : ti.AllReleased ti.touchEndTouch ↔ ti.LaterFree := by
  have hfreed : ti.touchEndTouch.freed = ti.freed ++ held (ti.live.take ((ti.numListeners + 1)/2)) :=
    (removeFirst_eq h (i := 0) (by omega)).2
  have hcount : ti.AllReleased ti.touchEndTouch ↔
      ∀ g, (held (ti.live.take ((ti.numListeners + 1)/2))).count g = (held ti.live).count g := by
    unfold TouchPoint.AllReleased
    rw [hfreed]
    constructor
    · rintro ⟨-,hall⟩ g
      have heq := hall g
      rw [List.count_append] at heq
      omega
    · intro hall
      refine ⟨rfl,fun g => ?_⟩
      rw [List.count_append,hall g]
  rw [hcount,count_held_take]
  rfl

lemma touchFreeTouchPoint_released (h : ti.Room) :
    ti.AllReleased ti.touchFreeTouchPoint ↔ if ti.active = true then ti.LaterFree else ti.numListeners ≤ 1 := by
  split_ifs with hactive
  · have hsame : ti.AllReleased ti.touchFreeTouchPoint ↔ ti.AllReleased ti.touchEndTouch := by
      unfold TouchPoint.touchFreeTouchPoint
      rw [if_pos hactive]
      exact Iff.rfl
    rw [hsame,touchEndTouch_released h]
  · have hrounds : ti.numListeners ≤ 0 + ti.numListeners := (Nat.zero_add _).ge
    obtain ⟨hnum,hfreed⟩ := removeFirst_eq h hrounds
    unfold TouchPoint.AllReleased TouchPoint.touchFreeTouchPoint
    rw [if_neg hactive]
    dsimp only
    rw [hnum,hfreed]
    constructor
    · rintro ⟨hzero,-⟩
      omega
    · intro hone
      refine ⟨by omega,fun g => ?_⟩
      rw [List.count_append,List.take_of_length_le (by rw [length_live h]; omega)]

lemma count_held_append {l l' : List Listener} {g : ℕ} : (held (l ++ l')).count g = (held l).count g + (held l').count g := by
  unfold held
  rw [List.filterMap_append,List.count_append]

lemma count_held_cons {x : Listener} {l : List Listener} {g : ℕ} : (held (x::l)).count g = x.grab.toList.count g + (held l).count g := by
  unfold held
  rw [List.filterMap_cons]
  cases x.grab with
  | none => exact (Nat.zero_add _).symm
  | some g' =>
    change ([g'] ++ held l).count g = _
    rw [List.count_append]
    rfl

lemma apply_some {c : ListenerCall} (h : ti.Room) (hroom : ∀ r, c = .add r → ti.live.length < ti.listeners.length) :
    ∃ ti', c.apply ti = some ti' ∧ ti'.Room ∧ ti'.live = c.change ti.live ∧ ti'.listeners.length = ti.listeners.length ∧
      ∀ g, ti'.freed.count g + (held ti'.live).count g =
        ti.freed.count g + (held ti.live).count g + (held c.added.toList).count g := by
  have hroom' := h
  unfold TouchPoint.Room at hroom'
  cases c with
  | add r =>
    have hlt : ti.numListeners < ti.listeners.length := by
      rw [← length_live h]
      exact hroom r rfl
    have hlive : (ti.listeners.set ti.numListeners r.made).take (ti.numListeners + 1) = ti.live ++ [r.made] := by
      rw [List.take_add_one,List.take_set_of_le le_rfl,List.getElem?_set_self hlt]
      rfl
    refine ⟨_,if_pos hlt,?_,hlive,List.length_set,fun g => ?_⟩
    · unfold TouchPoint.Room
      dsimp only
      rw [List.length_set]
      exact hlt
    · unfold TouchPoint.live at hlive ⊢
      dsimp only
      rw [hlive,count_held_append]
      exact (Nat.add_assoc _ _ _).symm
  | remove resource =>
    by_cases hmem : ∃ x ∈ ti.live, x.listener = resource
    · obtain ⟨x,hx,hres⟩ := hmem
      obtain ⟨y,a,b,hbefore,hy,hlive,herase⟩ :=
        List.exists_of_eraseP (p := fun x : Listener => x.listener = resource) hx (decide_eq_true hres)
      obtain ⟨ti',hremove,hlive',hnum,hsize,hfreed,-⟩ :=
        removeListener_mem h hlive (fun z hz => by simpa using hbefore z hz) (of_decide_eq_true hy)
      refine ⟨ti',?_,?_,?_,hsize,fun g => ?_⟩
      · unfold ListenerCall.apply
        dsimp only
        rw [hremove]
      · unfold TouchPoint.Room
        omega
      · rw [hlive']
        exact herase.symm
      · rw [hfreed,hlive',hlive,List.count_append,count_held_append,count_held_append,count_held_cons]
        change _ = _ + 0
        omega
    · have hnone : ∀ y ∈ ti.live, y.listener ≠ resource := fun y hy he => hmem ⟨y,hy,he⟩
      refine ⟨ti,?_,h,?_,rfl,fun g => rfl⟩
      · unfold ListenerCall.apply
        dsimp only
        rw [removeListener_none hnone]
      · exact (List.eraseP_of_forall_not fun y hy => by simp [hnone y hy]).symm

/-- Calls one after the other. -/
def TouchPoint.run (ti : TouchPoint) (cs : List ListenerCall) : Option TouchPoint := cs.foldlM ListenerCall.apply ti

lemma Fits.tail {c : ListenerCall} (h : ti.Fits (c::cs)) (hlive : ti'.live = c.change ti.live)
    (hsize : ti'.listeners.length = ti.listeners.length) : ti'.Fits cs := by
  intro before r after hcs
  rw [hlive,hsize]
  exact h (c::before) r after (by rw [hcs]; rfl)

lemma run_some (h : ti.Room) (hfits : ti.Fits cs) : ∃ ti', ti.run cs = some ti' ∧ ti'.live = cs.foldl ListenerCall.change ti.live ∧
    ∀ g, ti'.freed.count g + (held ti'.live).count g =
      ti.freed.count g + (held ti.live).count g + (held (cs.filterMap ListenerCall.added)).count g := by
  induction cs generalizing ti with
  | nil => exact ⟨ti,rfl,rfl,fun g => rfl⟩
  | cons c cs ih =>
    obtain ⟨ti₁,happly,hroom₁,hlive₁,hsize₁,hcount₁⟩ : ∃ ti₁, c.apply ti = some ti₁ ∧ ti₁.Room ∧ ti₁.live = c.change ti.live ∧
        ti₁.listeners.length = ti.listeners.length ∧ ∀ g, ti₁.freed.count g + (held ti₁.live).count g =
          ti.freed.count g + (held ti.live).count g + (held c.added.toList).count g :=
      apply_some h fun r hr => hfits [] r cs (by rw [hr]; rfl)
    obtain ⟨ti',hrun,hlive,hcount⟩ := ih hroom₁ (Fits.tail hfits hlive₁ hsize₁)
    refine ⟨ti',?_,?_,fun g => ?_⟩
    · unfold TouchPoint.run at hrun ⊢
      rw [List.foldlM_cons,happly]
      exact hrun
    · rw [hlive,hlive₁]
      rfl
    · rw [hcount g,hcount₁ g,List.filterMap_cons]
      cases hadd : c.added with
      | none => exact congrArg (· + _) (Nat.add_zero _)
      | some x =>
        dsimp only
        rw [count_held_cons,Option.toList_some,count_held_cons]
        change _ + (_ + 0) + _ = _
        omega

lemma foldl_change_sublist (l : List Listener) : (cs.foldl ListenerCall.change l).Sublist (l ++ cs.filterMap ListenerCall.added) := by
  induction cs generalizing l with
  | nil => rw [List.foldl_nil,List.filterMap_nil,List.append_nil]
  | cons c cs ih =>
    rw [List.foldl_cons]
    apply (ih _).trans
    cases c with
    | add r =>
      change (l ++ [r.made] ++ _).Sublist (l ++ r.made::_)
      rw [List.append_assoc,List.singleton_append]
    | remove resource => exact List.Sublist.append_right List.eraseP_sublist _

end Steps

/-- The listeners that are left after some calls: each in its place, with the copy that it had. -/
def TouchPoint.Keeps (ti : TouchPoint) (cs : List ListenerCall) (ti' : TouchPoint) : Prop :=
  ti'.live = cs.foldl ListenerCall.change ti.live ∧ ti'.live.Sublist (ti.live ++ cs.filterMap ListenerCall.added) ∧
    ∀ g, ti'.freed.count g + (held ti'.live).count g =
      ti.freed.count g + (held ti.live).count g + (held (cs.filterMap ListenerCall.added)).count g

/-- The end of a touch frees all copies exactly when those in the second half of the listeners hold none, since the loop
counts up while the listeners get fewer. Without `TouchEndTouch` they also stay. -/
theorem allReleased_iff (ti : TouchPoint) (hroom : ti.Room) : (ti.AllReleased ti.touchEndTouch ↔ ti.LaterFree) ∧
    (ti.AllReleased ti.touchFreeTouchPoint ↔ if ti.active = true then ti.LaterFree else ti.numListeners ≤ 1) ∧
    ∀ cs, ti.Fits cs → ∃ ti', ti.run cs = some ti' ∧ ti.Keeps cs ti' := by
  refine ⟨touchEndTouch_released hroom,touchFreeTouchPoint_released hroom,fun cs hfits => ?_⟩
  obtain ⟨ti',hrun,hlive,hcount⟩ := run_some hroom hfits
  refine ⟨ti',hrun,hlive,?_,hcount⟩
  rw [hlive]
  exact foldl_change_sublist ti.live

def grabbing (g : ℕ) : Listener := ⟨g,0,.xi2,.isOwner,.grab,0,some g⟩

def selecting (resource : ℕ) : Listener := ⟨resource,0,.xi2,.awaitingBegin,.regular,0,none⟩

/-- One grab before a selection. -/
theorem allReleased_iff_one : ({ active := true, listeners := [grabbing 1,selecting 2], numListeners := 2 } : TouchPoint).AllReleased
    (TouchPoint.touchEndTouch { active := true, listeners := [grabbing 1,selecting 2], numListeners := 2 }) :=
  (allReleased_iff _ (by unfold TouchPoint.Room; decide)).1.2 (by
    intro l hl
    obtain rfl : l = selecting 2 := by simpa [TouchPoint.live] using hl
    rfl)

/-- The copy of the second of two grabs is not freed. -/
theorem twoGrabs_kept : ¬ ({ active := true, listeners := [grabbing 1,grabbing 2], numListeners := 2 } : TouchPoint).AllReleased
    (TouchPoint.touchEndTouch { active := true, listeners := [grabbing 1,grabbing 2], numListeners := 2 }) := by
  intro h
  exact absurd (h.2 2) (by decide)

end Xlibre.Dix.Touch
