import Xlibre.Xinput.Barriers

/-! The requests that make barriers, remove them and let the pointer through them, and what happens to them when master
devices come and go. -/
namespace Xlibre.Xinput

inductive BarrierError
  | badValue
  | badWindow
  | badDevice
  | badBarrier
  | badAccess
  deriving DecidableEq, Repr

abbrev BarrierScreens := ℕ → List PointerBarrierClient

structure BarrierLookups where
  devices : List ℕ
  isMaster : ℕ → Bool
  isMasterPointer : ℕ → Bool
  screen : ℕ → Option ℕ
  client : ℕ → ℕ

structure CreatePointerBarrier where
  barrier : ℕ
  window : ℕ
  x1 : ℤ
  y1 : ℤ
  x2 : ℤ
  y2 : ℤ
  directions : BitVec 32
  devices : List ℕ

structure ReleasePointerInfo where
  deviceid : ℕ
  barrier : ℕ
  eventid : BitVec 32

/-- `sort_min_max` leaves rays and lines alone. -/
def sortMinMax (a b : ℤ) : ℤ × ℤ := if a < 0 ∨ b < 0 then (a,b) else (min a b,max a b)

def CreatePointerBarrier.pointerBarrier (stuff : CreatePointerBarrier) : PointerBarrier :=
  let (x1,x2) := sortMinMax stuff.x1 stuff.x2
  let (y1,y2) := sortMinMax stuff.y1 stuff.y2
  let b : PointerBarrier := ⟨x1,x2,y1,y2,stuff.directions.setWidth 4⟩
  let directions := if b.isHorizontal then b.directions &&& ~~~(barrierPositiveX ||| barrierNegativeX) else b.directions
  { b with
    directions := if b.isVertical then directions &&& ~~~(barrierPositiveY ||| barrierNegativeY) else directions }

namespace BarrierScreens

def set (σ : BarrierScreens) (screen : ℕ) (cs : List PointerBarrierClient) : BarrierScreens :=
  Function.update σ screen cs

/-- `XICreatePointerBarrier`. The barrier knows of each master pointer there is. -/
def createPointerBarrier (env : BarrierLookups) (stuff : CreatePointerBarrier) (σ : BarrierScreens) :
    Except BarrierError BarrierScreens :=
  let b : PointerBarrier := ⟨stuff.x1,stuff.x2,stuff.y1,stuff.y2,0⟩
  if !b.isHorizontal && !b.isVertical then .error .badValue
  -- no 0-sized barriers
  else if b.isHorizontal && b.isVertical then .error .badValue
  -- no infinite barriers on the wrong axis
  else if b.isHorizontal && (b.y1 < 0 || b.y2 < 0) then .error .badValue
  else if b.isVertical && (b.x1 < 0 || b.x2 < 0) then .error .badValue
  else match env.screen stuff.window with
    | none => .error .badWindow
    | some screen =>
      if stuff.devices.all fun id => id ∈ env.devices && env.isMaster id then
        let c := ⟨stuff.barrier,stuff.window,stuff.pointerBarrier,stuff.devices,
          ((env.devices.filter env.isMasterPointer).map allocBarrierDevice).reverse⟩
        .ok (σ.set screen (c::σ screen))
      else .error .badDevice

/-- `BarrierFreeBarrier`, when the resource is freed. -/
def destroyPointerBarrier (barrier : ℕ) (σ : BarrierScreens) : BarrierScreens :=
  fun screen => (σ screen).filter fun c => c.id ≠ barrier

/-- `XIBarrierNewMasterDevice`. -/
def newMasterDevice (deviceid : ℕ) (σ : BarrierScreens) : BarrierScreens :=
  fun screen => (σ screen).map fun c => { c with perDevice := allocBarrierDevice deviceid::c.perDevice }

/-- `XIBarrierRemoveMasterDevice`. -/
def removeMasterDevice (deviceid : ℕ) (σ : BarrierScreens) : BarrierScreens :=
  fun screen => (σ screen).map fun c => { c with perDevice := c.perDevice.eraseP fun p => p.deviceid = deviceid }

/-- The barrier with a resource id, on one of the screens. -/
def lookup (screens : List ℕ) (σ : BarrierScreens) (barrier : ℕ) : Option (ℕ × PointerBarrierClient) :=
  screens.findSome? fun screen => ((σ screen).find? fun c => c.id = barrier).map fun c => (screen,c)

def releaseOne (env : BarrierLookups) (screens : List ℕ) (client : ℕ) (info : ReleasePointerInfo) (σ : BarrierScreens) :
    Except BarrierError BarrierScreens :=
  if info.deviceid ∉ env.devices then .error .badDevice
  else match σ.lookup screens info.barrier with
    | none => .error .badBarrier
    | some (screen,c) =>
      if env.client info.barrier ≠ client then .error .badAccess
      else match c.device info.deviceid with
        | none => .error .badDevice
        | some pbd =>
          if pbd.barrierEventId = info.eventid then
            .ok (σ.set screen ((σ screen).map fun c' =>
              if c'.id = info.barrier then c'.set { pbd with releaseEventId := info.eventid } else c'))
          else .ok σ

/-- `ProcXIBarrierReleasePointer`. The entries before an error are in effect. -/
def releasePointer (env : BarrierLookups) (screens : List ℕ) (client : ℕ) :
    List ReleasePointerInfo → BarrierScreens → BarrierScreens × Option BarrierError
  | [], σ => (σ,none)
  | info::infos, σ => match σ.releaseOne env screens client info with
    | .ok σ' => σ'.releasePointer env screens client infos
    | .error e => (σ,some e)

end BarrierScreens

section History
variable {F D : Type} [MachineNumber F] [MachineNumber D]

inductive BarrierHistory (ops : Floats F D) : BarrierScreens → Prop
  | init : BarrierHistory ops fun _ => []
  | create {σ σ' : BarrierScreens} (env : BarrierLookups) (stuff : CreatePointerBarrier) (h : BarrierHistory ops σ)
      (heq : σ.createPointerBarrier env stuff = .ok σ') : BarrierHistory ops σ'
  | destroy {σ : BarrierScreens} (barrier : ℕ) (h : BarrierHistory ops σ) :
      BarrierHistory ops (σ.destroyPointerBarrier barrier)
  | newMaster {σ : BarrierScreens} (deviceid : ℕ) (h : BarrierHistory ops σ) :
      BarrierHistory ops (σ.newMasterDevice deviceid)
  | removeMaster {σ : BarrierScreens} (deviceid : ℕ) (h : BarrierHistory ops σ) :
      BarrierHistory ops (σ.removeMasterDevice deviceid)
  | release {σ : BarrierScreens} (env : BarrierLookups) (screens : List ℕ) (client : ℕ) (infos : List ReleasePointerInfo)
      (h : BarrierHistory ops σ) : BarrierHistory ops (σ.releasePointer env screens client infos).1
  | move {σ : BarrierScreens} (ms : BitVec 32) (deviceid root : ℕ) (master : Option ℕ) (screen : ℕ) (current dest : ℤ × ℤ)
      (h : BarrierHistory ops σ) :
      BarrierHistory ops (σ.set screen (inputConstrainCursor ops ms deviceid root master (σ screen) current dest).1)

end History

end Xlibre.Xinput

/-! How many events a movement makes: one for each barrier that stops the pointer and one for each that it leaves. -/
namespace Xlibre.Xinput
open PointerBarrierClient

variable {m : ℕ} {c : PointerBarrierClient} {cs : List PointerBarrierClient} {p q : PointerBarrierDevice}
  {ps : List PointerBarrierDevice} {w : Walk} {ev : BarrierEvent} {i j n : ℕ}

/-- The barrier has been met on the way, and its hit is not released. -/
def stopped (master : ℕ) (c : PointerBarrierClient) : Bool :=
  match c.device master with
  | none => false
  | some pbd => pbd.seen && !pbd.released

/-- The barrier has been hit, and the pointer ends outside of its hit box. -/
def leaves (master : ℕ) (dest : ℤ × ℤ) (c : PointerBarrierClient) : Bool :=
  match c.device master with
  | none => false
  | some pbd => pbd.hit && !c.barrier.insideHitBox dest.1 dest.2

/-- No barrier is marked, as it is between two movements. -/
def Calm (c : PointerBarrierClient) : Prop := ∀ p ∈ c.perDevice, p.seen = false

section Crossed
variable {F D : Type} [MachineNumber F] [MachineNumber D]

/-- The barriers that stop the pointer on its way, and those that it leaves. -/
def crossed (ops : Floats F D) (ms : BitVec 32) (deviceid root : ℕ) (master : Option ℕ) (cs : List PointerBarrierClient)
    (current dest : ℤ × ℤ) : ℕ :=
  match master with
  | none => 0
  | some master =>
    let w := walk ops master (barrierEvent ms deviceid root current dest) cs current dest
    w.barriers.countP (stopped master) + w.barriers.countP (leaves master w.dest)

end Crossed

lemma mem_setDevice (h : p ∈ setDevice q ps) : p = q ∨ p ∈ ps := by
  induction ps with
  | nil => exact .inr h
  | cons r ps ih =>
    rw [setDevice] at h
    split at h
    · exact (List.mem_cons.1 h).imp_right (List.mem_cons_of_mem r)
    · obtain rfl | h := List.mem_cons.1 h
      · exact .inr List.mem_cons_self
      · exact (ih h).imp_right (List.mem_cons_of_mem r)

lemma setDevice_setDevice (h : p.deviceid = q.deviceid) : setDevice q (setDevice p ps) = setDevice q ps := by
  induction ps with
  | nil => rfl
  | cons r ps ih =>
    by_cases hr : r.deviceid = p.deviceid
    · rw [setDevice,setDevice,if_pos hr,if_pos (hr.trans h),setDevice,if_pos h]
    · have hr' : r.deviceid ≠ q.deviceid := fun heq => hr (heq.trans h.symm)
      rw [setDevice,setDevice,if_neg hr,if_neg hr',setDevice,if_neg hr',ih]

lemma set_set (h : p.deviceid = q.deviceid) : (c.set p).set q = c.set q :=
  congrArg (fun devices => { c with perDevice := devices }) (setDevice_setDevice h)

lemma device_id (h : c.device m = some p) : p.deviceid = m := by
  have := List.find?_some h
  simpa using this

lemma device_mem (h : c.device m = some p) : p ∈ c.perDevice := List.mem_of_find?_eq_some h

lemma set_of_none (h : c.device m = none) (hq : q.deviceid = m) : c.set q = c := by
  obtain ⟨id,window,barrier,deviceIds,ps⟩ := c
  suffices hps : setDevice q ps = ps from
    congrArg (fun devices => (⟨id,window,barrier,deviceIds,devices⟩ : PointerBarrierClient)) hps
  simp only [device,List.find?_eq_none,decide_eq_true_eq] at h
  induction ps with
  | nil => rfl
  | cons r ps ih =>
    have hr : r.deviceid ≠ q.deviceid := fun heq => h r List.mem_cons_self (heq.trans hq)
    rw [setDevice,if_neg hr,ih fun p hp => h p (List.mem_cons_of_mem r hp)]

lemma device_set (h : c.device m = some p) (hq : q.deviceid = m) : (c.set q).device m = some q := by
  obtain ⟨id,window,barrier,deviceIds,ps⟩ := c
  change (setDevice q ps).find? (fun p => p.deviceid = m) = some q
  change ps.find? (fun p => p.deviceid = m) = some p at h
  induction ps with
  | nil => cases h
  | cons r ps ih =>
    by_cases hr : r.deviceid = m
    · rw [setDevice,if_pos (hr.trans hq.symm),List.find?_cons_of_pos (by simpa using hq)]
    · rw [List.find?_cons_of_neg (by simpa using hr)] at h
      rw [setDevice,if_neg (fun heq => hr (heq.trans hq)),List.find?_cons_of_neg (by simpa using hr),ih h]

/-- Only the record of one master may be marked. -/
def CalmBut (m : ℕ) (c : PointerBarrierClient) : Prop := ∀ q, q.deviceid = m → q.seen = false → Calm (c.set q)

lemma Calm.set (h : Calm c) (hq : q.seen = false) : Calm (c.set q) := by
  intro p hp
  obtain rfl | hp := mem_setDevice hp
  · exact hq
  · exact h p hp

lemma Calm.calmBut (h : Calm c) : CalmBut m c := fun _ _ hseen => h.set hseen

lemma CalmBut.set (h : CalmBut m c) (hp : p.deviceid = m) : CalmBut m (c.set p) := by
  intro q hq hseen
  rw [set_set (hp.trans hq.symm)]
  exact h q hq hseen

lemma Calm.device (h : Calm c) (hp : c.device m = some p) : p.seen = false := h p (device_mem hp)

lemma leave_calm {dest : ℤ × ℤ} (h : CalmBut m c) : Calm (c.leave m ev dest).1 := by
  unfold leave
  cases hdevice : c.device m with
  | none =>
    rw [← set_of_none hdevice (q := allocBarrierDevice m) rfl]
    exact h _ rfl rfl
  | some pbd =>
    have hid := device_id hdevice
    dsimp only
    split <;> exact h _ hid rfl

lemma leave_isSome {dest : ℤ × ℤ} : (c.leave m ev dest).2.isSome = leaves m dest c := by
  unfold leave leaves
  cases c.device m with
  | none => rfl
  | some pbd =>
    dsimp only
    cases pbd.hit <;> cases c.barrier.insideHitBox dest.1 dest.2 <;> rfl

section Walk
variable {F D : Type} [MachineNumber F] [MachineNumber D] {ops : Floats F D} {distance : PointerBarrierClient → Option D}

lemma nearestFrom_some {d : D} {found : Option ℕ} (h : nearestFrom distance cs j d found = some i) :
    found = some i ∨ ∃ k c, i = j + k ∧ cs[k]? = some c ∧ (distance c).isSome := by
  induction cs generalizing j d found with
  | nil => exact .inl h
  | cons c cs ih =>
    have hlater {d : D} {found' : Option ℕ} (h : nearestFrom distance cs (j+1) d found' = some i) :
        found' = some i ∨ ∃ k c', i = j + k ∧ (c::cs)[k]? = some c' ∧ (distance c').isSome := by
      obtain h | ⟨k,c',hi,hk,hc'⟩ := ih h
      · exact .inl h
      · exact .inr ⟨k+1,c',by omega,by simpa using hk,hc'⟩
    rw [nearestFrom] at h
    cases hd : distance c with
    | none =>
      rw [hd] at h
      exact hlater h
    | some d' =>
      rw [hd] at h
      dsimp only at h
      split at h
      · obtain heq | hfound := hlater h
        · exact .inr ⟨0,c,by cases heq; rfl,rfl,by rw [hd]; rfl⟩
        · exact .inr hfound
      · exact hlater h

lemma findNearest_some (h : w.findNearest ops m = some i) :
    ∃ c pbd, w.barriers[i]? = some c ∧ c.device m = some pbd ∧ pbd.seen = false := by
  obtain h | ⟨k,c,hi,hk,hc⟩ := nearestFrom_some h
  · cases h
  · rw [Nat.zero_add] at hi
    subst hi
    unfold PointerBarrierClient.distance at hc
    cases hdevice : c.device m with
    | none =>
      rw [hdevice] at hc
      cases hc
    | some pbd =>
      refine ⟨c,pbd,hk,hdevice,?_⟩
      rw [hdevice] at hc
      dsimp only at hc
      split at hc
      · rename_i hseen
        simp only [Bool.and_eq_true,Bool.not_eq_true'] at hseen
        exact hseen.1.1
      · cases hc

/-- An event for each barrier that has stopped the pointer, and no marks elsewhere. -/
structure Counted (m : ℕ) (w : Walk) : Prop where
  events : w.events.length = w.barriers.countP (stopped m)
  calm : ∀ c ∈ w.barriers, CalmBut m c

lemma countP_set_new {α : Type} {l : List α} {a b : α} {P : α → Bool} (h : l[i]? = some a) (ha : P a = false) :
    (l.set i b).countP P = l.countP P + (if P b then 1 else 0) := by
  obtain ⟨hlt,hget⟩ := List.getElem?_eq_some_iff.1 h
  rw [List.countP_set hlt,hget,ha]
  rfl

lemma stopped_set (h : c.device m = some p) (hq : q.deviceid = m) : stopped m (c.set q) = (q.seen && !q.released) := by
  rw [stopped,device_set h hq]

lemma Counted.meet {pbd : PointerBarrierDevice} (h : Counted m w) (hi : w.barriers[i]? = some c)
    (hdevice : c.device m = some pbd) (hseen : pbd.seen = false) : Counted m (w.meet ev i c pbd) := by
  have hid := device_id hdevice
  have hstopped : stopped m c = false := by rw [stopped,hdevice]; simp [hseen]
  have hcalm (q : PointerBarrierDevice) (hq : q.deviceid = m) : ∀ c' ∈ w.barriers.set i (c.set q), CalmBut m c' := by
    intro c' hc'
    obtain hc' | rfl := List.mem_or_eq_of_mem_set hc'
    · exact h.calm c' hc'
    · exact (h.calm c (List.mem_of_getElem? hi)).set hq
  unfold Walk.meet
  dsimp only
  cases hreleased : pbd.released with
  | true =>
    refine ⟨?_,hcalm _ hid⟩
    rw [if_pos rfl]
    dsimp only
    rw [h.events,countP_set_new hi hstopped,stopped_set hdevice]
    · simp only [PointerBarrierDevice.released] at hreleased ⊢
      simp [hreleased]
    · exact hid
  | false =>
    rw [if_neg (by decide)]
    refine ⟨?_,hcalm _ hid⟩
    dsimp only
    rw [List.length_append,h.events,countP_set_new hi hstopped,stopped_set hdevice]
    · simp only [PointerBarrierDevice.released] at hreleased ⊢
      simp [hreleased]
    · exact hid

lemma Counted.hitLoop (h : Counted m w) : Counted m (hitLoop ops m ev n w) := by
  induction n generalizing w with
  | zero => exact h
  | succ n ih =>
    rw [Xinput.hitLoop]
    split
    · exact h
    · cases hfind : w.findNearest ops m with
      | none => exact h
      | some i =>
        obtain ⟨c,pbd,hi,hdevice,hseen⟩ := findNearest_some hfind
        simp only [hi,hdevice]
        exact ih (h.meet hi hdevice hseen)

lemma walk_counted {current dest : ℤ × ℤ} (h : ∀ c ∈ cs, Calm c) : Counted m (walk ops m ev cs current dest) := by
  refine Counted.hitLoop ⟨?_,fun c hc => (h c hc).calmBut⟩
  symm
  refine List.countP_eq_zero.2 fun c hc => ?_
  rw [stopped]
  cases hdevice : c.device m with
  | none => simp
  | some pbd => simp [(h c hc).device hdevice]

variable {ms : BitVec 32} {deviceid root : ℕ} {master : Option ℕ} {current dest : ℤ × ℤ}

/-- The events of a movement are those of the barriers that stop the pointer and of those that it leaves. -/
theorem inputConstrainCursor_length (h : ∀ c ∈ cs, Calm c) :
    (inputConstrainCursor ops ms deviceid root master cs current dest).2.2.length =
      crossed ops ms deviceid root master cs current dest := by
  unfold inputConstrainCursor crossed
  cases master with
  | none => rfl
  | some m =>
    dsimp only
    have hcounted : Counted m (walk ops m (barrierEvent ms deviceid root current dest) cs current dest) := walk_counted h
    split
    · rename_i hempty
      obtain rfl := List.isEmpty_iff.1 hempty
      rfl
    · rw [List.length_append,hcounted.events,List.filterMap_map,List.length_filterMap_eq_countP]
      congr 1
      refine List.countP_congr fun c _ => ?_
      rw [Function.comp_apply,leave_isSome]

/-- A movement leaves no marks. -/
theorem inputConstrainCursor_calm (h : ∀ c ∈ cs, Calm c) :
    ∀ c ∈ (inputConstrainCursor ops ms deviceid root master cs current dest).1, Calm c := by
  unfold inputConstrainCursor
  cases master with
  | none => exact h
  | some m =>
    dsimp only
    split
    · exact h
    · intro c hc
      simp only [List.map_map,List.mem_map] at hc
      obtain ⟨c,hc,rfl⟩ := hc
      exact leave_calm ((walk_counted h).calm c hc)

/-- The number of barriers that are still to be looked at. -/
def unseen (m : ℕ) (c : PointerBarrierClient) : Bool :=
  match c.device m with
  | none => false
  | some pbd => !pbd.seen

variable (ev) in
lemma unseen_meet {pbd : PointerBarrierDevice} (hi : w.barriers[i]? = some c) (hdevice : c.device m = some pbd)
    (hseen : pbd.seen = false) : w.barriers.countP (unseen m) = (w.meet ev i c pbd).barriers.countP (unseen m) + 1 := by
  have hid := device_id hdevice
  have hbefore : unseen m c := by rw [unseen,hdevice]; simp [hseen]
  have hafter (q : PointerBarrierDevice) (hq : q.deviceid = m) (hseen : q.seen) : unseen m (c.set q) = false := by
    rw [unseen,device_set hdevice hq]
    simp [hseen]
  have hset (q : PointerBarrierDevice) (hq : q.deviceid = m) (hseen : q.seen) :
      w.barriers.countP (unseen m) = (w.barriers.set i (c.set q)).countP (unseen m) + 1 := by
    obtain ⟨hlt,hget⟩ := List.getElem?_eq_some_iff.1 hi
    have hback : (w.barriers.set i (c.set q)).set i c = w.barriers := by
      rw [List.set_set,← hget]
      exact List.set_getElem_self hlt
    have := countP_set_new (b := c) (P := unseen m) (List.getElem?_set_self hlt) (hafter q hq hseen)
    rw [hback,hbefore,if_pos rfl] at this
    exact this
  unfold Walk.meet
  dsimp only
  split
  · exact hset _ hid rfl
  · exact hset _ hid rfl

/-- The loop ends after as many rounds as there are barriers: no direction is left, or nothing is in the way. -/
theorem hitLoop_done (h : w.barriers.countP (unseen m) ≤ n) :
    (hitLoop ops m ev n w).dir = 0 ∨ (hitLoop ops m ev n w).findNearest ops m = none := by
  induction n generalizing w with
  | zero =>
    rw [hitLoop]
    cases hfind : w.findNearest ops m with
    | none => exact .inr rfl
    | some i =>
      obtain ⟨c,pbd,hi,hdevice,hseen⟩ := findNearest_some hfind
      have := unseen_meet ev hi hdevice hseen
      omega
  | succ n ih =>
    rw [hitLoop]
    split
    · rename_i hdir
      exact .inl hdir
    · cases hfind : w.findNearest ops m with
      | none => exact .inr hfind
      | some i =>
        obtain ⟨c,pbd,hi,hdevice,hseen⟩ := findNearest_some hfind
        simp only [hi,hdevice]
        have := unseen_meet ev hi hdevice hseen
        exact ih (by omega)

end Walk

namespace BarrierScreens
variable {σ σ' : BarrierScreens} {env : BarrierLookups} {screens : List ℕ} {client : ℕ}

/-- No barrier on any screen is marked. -/
def AllCalm (σ : BarrierScreens) : Prop := ∀ screen, ∀ c ∈ σ screen, Calm c

lemma AllCalm.set {screen : ℕ} (h : AllCalm σ) (hcs : ∀ c ∈ cs, Calm c) : AllCalm (σ.set screen cs) := by
  intro screen'
  by_cases hscreen : screen' = screen
  · subst hscreen
    rw [BarrierScreens.set,Function.update_self]
    exact hcs
  · rw [BarrierScreens.set,Function.update_of_ne hscreen]
    exact h screen'

lemma AllCalm.create {stuff : CreatePointerBarrier} (h : AllCalm σ) (heq : σ.createPointerBarrier env stuff = .ok σ') :
    AllCalm σ' := by
  unfold createPointerBarrier at heq
  dsimp only at heq
  iterate 4 (split at heq; · cases heq)
  cases hscreen : env.screen stuff.window with
  | none =>
    rw [hscreen] at heq
    cases heq
  | some screen =>
    rw [hscreen] at heq
    dsimp only at heq
    split at heq
    · cases heq
      refine h.set fun c hc => ?_
      obtain rfl | hc := List.mem_cons.1 hc
      · intro p hp
        obtain ⟨id,-,rfl⟩ := List.mem_map.1 (List.mem_reverse.1 hp)
        rfl
      · exact h screen c hc
    · cases heq

lemma AllCalm.lookup {barrier screen : ℕ} (h : AllCalm σ) (heq : σ.lookup screens barrier = some (screen,c)) : Calm c := by
  obtain ⟨screen',-,hfind⟩ := List.exists_of_findSome?_eq_some heq
  obtain ⟨c',hc',heq⟩ := Option.map_eq_some_iff.1 hfind
  cases heq
  exact h screen c (List.mem_of_find?_eq_some hc')

lemma AllCalm.releaseOne {info : ReleasePointerInfo} (h : AllCalm σ)
    (heq : σ.releaseOne env screens client info = .ok σ') : AllCalm σ' := by
  unfold BarrierScreens.releaseOne at heq
  split at heq
  · cases heq
  · cases hlookup : σ.lookup screens info.barrier with
    | none =>
      rw [hlookup] at heq
      cases heq
    | some found =>
      obtain ⟨screen,c⟩ := found
      rw [hlookup] at heq
      dsimp only at heq
      split at heq
      · cases heq
      · cases hdevice : c.device info.deviceid with
        | none =>
          rw [hdevice] at heq
          cases heq
        | some pbd =>
          rw [hdevice] at heq
          dsimp only at heq
          split at heq
          · cases heq
            have hseen := (h.lookup hlookup).device hdevice
            refine h.set fun c' hc' => ?_
            obtain ⟨c',hmem,rfl⟩ := List.mem_map.1 hc'
            split
            · exact (h screen c' hmem).set hseen
            · exact h screen c' hmem
          · cases heq
            exact h

lemma AllCalm.releasePointer {infos : List ReleasePointerInfo} (h : AllCalm σ) :
    AllCalm (σ.releasePointer env screens client infos).1 := by
  induction infos generalizing σ with
  | nil => exact h
  | cons info infos ih =>
    rw [BarrierScreens.releasePointer]
    cases heq : σ.releaseOne env screens client info with
    | ok σ' => exact ih (h.releaseOne heq)
    | error e => exact h

end BarrierScreens

section History
variable {F D : Type} [MachineNumber F] [MachineNumber D] {ops : Floats F D}

/-- No barrier is marked between two movements. -/
theorem BarrierHistory.allCalm {σ : BarrierScreens} (h : BarrierHistory ops σ) : σ.AllCalm := by
  induction h with
  | init => exact fun screen c hc => absurd hc List.not_mem_nil
  | create env stuff h heq ih => exact ih.create heq
  | destroy barrier h ih => exact fun screen c hc => ih screen c (List.mem_filter.1 hc).1
  | newMaster deviceid h ih =>
    intro screen c hc p hp
    obtain ⟨c',hc',rfl⟩ := List.mem_map.1 hc
    obtain rfl | hp := List.mem_cons.1 hp
    · rfl
    · exact ih screen c' hc' p hp
  | removeMaster deviceid h ih =>
    intro screen c hc p hp
    obtain ⟨c',hc',rfl⟩ := List.mem_map.1 hc
    exact ih screen c' hc' p (List.mem_of_mem_eraseP hp)
  | release env screens client infos h ih => exact ih.releasePointer
  | move ms deviceid root master screen current dest h ih => exact ih.set (inputConstrainCursor_calm (ih screen))

end History

end Xlibre.Xinput
