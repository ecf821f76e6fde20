import Xlibre.Dix.Pointer.Bound
import Xlibre.Xinput.Crossings

/-! A pointer leaves any number of released barriers at once. -/
namespace Xlibre.Dix.Pointer
open Xlibre.Xinput

section Walls
variable {F D : Type} [MachineNumber F] [MachineNumber D] {ops : Floats F D} {distance : PointerBarrierClient → Option D}
  {m n i : ℕ} {b : PointerBarrier} {ev : BarrierEvent} {w : Walk} {cs : List PointerBarrierClient} {current dest : ℤ × ℤ}
  {dir : BitVec 4}

/-- The barrier lets the pointer through, and it is hit if it has been met. -/
def Opened (m : ℕ) (b : PointerBarrier) (c : PointerBarrierClient) : Prop :=
  c.barrier = b ∧ c.deviceIds = [] ∧ ∃ pbd, c.device m = some pbd ∧ pbd.released = true ∧ (pbd.seen = true → pbd.hit = true)

/-- The pointer is on its way, and no barrier stops it. -/
structure Through (m : ℕ) (b : PointerBarrier) (dir : BitVec 4) (current dest : ℤ × ℤ) (size : ℕ) (w : Walk) : Prop where
  dir : w.dir = dir
  current : w.current = current
  dest : w.dest = dest
  opened : ∀ c ∈ w.barriers, Opened m b c
  size : w.barriers.length = size

lemma Opened.meet {c : PointerBarrierClient} {p : PointerBarrierDevice} (h : Opened m b c) (hp : c.device m = some p) :
    Opened m b (c.set { p with seen := true, hit := true }) ∧ p.released = true := by
  obtain ⟨hb,hall,pbd,hdevice,hreleased,-⟩ := h
  rw [hp] at hdevice
  cases hdevice
  have hid := device_id hp
  exact ⟨⟨hb,hall,_,device_set hp hid,hreleased,fun _ => rfl⟩,hreleased⟩

lemma Through.hitLoop (h : Through m b dir current dest i w) : Through m b dir current dest i (hitLoop ops m ev n w) := by
  induction n generalizing w with
  | zero => exact h
  | succ n ih =>
    rw [Xinput.hitLoop]
    split
    · exact h
    · cases hfind : w.findNearest ops m with
      | none => exact h
      | some j =>
        obtain ⟨c,pbd,hj,hdevice,-⟩ := findNearest_some hfind
        simp only [hj,hdevice]
        obtain ⟨hmet,hreleased⟩ := (h.opened c (List.mem_of_getElem? hj)).meet hdevice
        refine ih ?_
        rw [Walk.meet,if_pos hreleased]
        refine ⟨h.dir,h.current,h.dest,fun c' hc' => ?_,?_⟩
        · obtain hc' | rfl := List.mem_or_eq_of_mem_set hc'
          · exact h.opened c' hc'
          · exact hmet
        · exact (List.length_set ..).trans h.size

lemma nearestFrom_none {d : D} {j : ℕ} {found : Option ℕ} (h : nearestFrom distance cs j d found = none) :
    found = none ∧ ∀ c ∈ cs, ∀ d', distance c = some d' → ¬ d' < d := by
  induction cs generalizing j d found with
  | nil => exact ⟨h,by simp⟩
  | cons c cs ih =>
    rw [nearestFrom] at h
    cases hd : distance c with
    | none =>
      rw [hd] at h
      obtain ⟨hfound,hlater⟩ := ih h
      refine ⟨hfound,fun c' hc' d' hd' => ?_⟩
      obtain rfl | hc' := List.mem_cons.1 hc'
      · rw [hd] at hd'
        cases hd'
      · exact hlater c' hc' d' hd'
    | some d₁ =>
      rw [hd] at h
      dsimp only at h
      split at h
      · cases (ih h).1
      · rename_i hnot
        obtain ⟨hfound,hlater⟩ := ih h
        refine ⟨hfound,fun c' hc' d' hd' => ?_⟩
        obtain rfl | hc' := List.mem_cons.1 hc'
        · rw [hd] at hd'
          cases hd'
          exact hnot
        · exact hlater c' hc' d' hd'

lemma crossed_opened {d : D} {ms : BitVec 32} {deviceid screen : ℕ} (h : ∀ c ∈ cs, Opened m b c)
    (hdir : barrierGetDirection current.1 current.2 dest.1 dest.2 ≠ 0)
    (hblocks : b.isBlockingDirection (barrierGetDirection current.1 current.2 dest.1 dest.2))
    (hdistance : b.isBlocking ops current.1 current.2 dest.1 dest.2 = some d) (hnear : d < ((2^31-1 : ℤ) : D))
    (hbox : b.insideHitBox dest.1 dest.2 = false) :
    cs.length ≤ crossed ops ms deviceid screen (some m) cs current dest := by
  refine Nat.le_trans ?_ (Nat.le_add_left _ _)
  have hstart : Through m b (barrierGetDirection current.1 current.2 dest.1 dest.2) current dest cs.length
      ⟨cs,barrierGetDirection current.1 current.2 dest.1 dest.2,current,dest,[]⟩ := ⟨rfl,rfl,rfl,h,rfl⟩
  have hwalk : Through m b (barrierGetDirection current.1 current.2 dest.1 dest.2) current dest cs.length
      (walk ops m (barrierEvent ms deviceid screen current dest) cs current dest) := hstart.hitLoop
  have hdone : (walk ops m (barrierEvent ms deviceid screen current dest) cs current dest).dir = 0 ∨
      (walk ops m (barrierEvent ms deviceid screen current dest) cs current dest).findNearest ops m = none :=
    hitLoop_done (List.countP_le_length)
  rw [hwalk.dir] at hdone
  have hnone := (nearestFrom_none (hdone.resolve_left hdir)).2
  rw [hwalk.dir,hwalk.current,hwalk.dest] at hnone
  rw [hwalk.dest,← hwalk.size]
  refine (List.countP_eq_length.2 fun c hc => ?_).ge
  obtain ⟨hb,hall,pbd,hdevice,hreleased,hseen⟩ := hwalk.opened c hc
  have hmet : pbd.seen = true := by
    by_contra hunseen
    refine hnone c hc d ?_ hnear
    rw [PointerBarrierClient.distance,hdevice,hb]
    dsimp only
    rw [PointerBarrierClient.blocksDevice,hall,hblocks,if_pos (by simpa using hunseen),hdistance]
  rw [leaves,hdevice,hb]
  dsimp only
  rw [hseen hmet,hbox]
  rfl

end Walls

instance : MachineNumber ℤ := { decidableLT := inferInstance }

/-- The least number whose square is not less. -/
def root (x : ℤ) : ℤ := (((List.range (x.toNat+1)).filter fun k => k*k < x.toNat).length : ℕ)

def exact : Floats ℚ ℤ := ⟨fun q => q.num.tdiv q.den,fun q => q.num,fun x n => x^n,root⟩

/-- One screen, and a pointer device whose axes have the range of the screen and that does not accelerate. -/
def desktop : Server ℚ ℤ Unit where
  ops := exact
  ms := 0
  screens := fun _ => ⟨0,0,1920,1080,0⟩
  cursorOffScreen := fun screen p => (screen,p)
  constrainCursorHarder := fun _ _ p => p
  aim := fun last _ f =>
    let moved (i : Fin maxValuators) : ℤ := last.valuators i + ((f.mask.getD fun _ => none) i).getD 0
    (last,moved 0,moved 1)
  land := fun last _ _ p => { last with valuators := fun i => if i = 0 then p.1 else p.2 }
  fromMaster := id

def mouse : Device ℤ := ⟨4,true,false,some ⟨2,fun _ => ⟨.none,0⟩,none,none⟩,some 2⟩

def lookups : BarrierLookups := ⟨[2,3,4],fun id => id = 2 ∨ id = 3,fun id => id = 2,fun _ => some 0,fun _ => 1⟩

/-- A request for a barrier from (100,0) to (100,1000) that blocks both ways. -/
def wall (barrier : ℕ) : CreatePointerBarrier := ⟨barrier,0,100,0,100,1000,0,[]⟩

/-- The pointer is at (99,500). -/
def scene (barriers : BarrierScreens) : PointerState ℤ Unit :=
  ⟨barriers,⟨0,99,500,⟨0,0,1920,1080⟩,false⟩,true,⟨2,fun i => if i = 0 then 99 else 500,fun _ => none,()⟩,some 4⟩

/-- The mouse moves by 51 to the right. -/
def motion : Fill ℤ :=
  ⟨.motionNotify,0,⟨false,false,false,false,false,false,false⟩,some fun i => if i = 0 then some 51 else none⟩

def wallClient (barrier : ℕ) : PointerBarrierClient := ⟨barrier,0,(wall 0).pointerBarrier,[],[allocBarrierDevice 2]⟩

def releasedDevice : PointerBarrierDevice := { allocBarrierDevice 2 with releaseEventId := 1 }

lemma wallClient_opened (barrier : ℕ) : Opened 2 (wall 0).pointerBarrier ((wallClient barrier).set releasedDevice) :=
  ⟨rfl,rfl,releasedDevice,rfl,rfl,fun hseen => by cases hseen⟩

lemma release_wall {σ : BarrierScreens} {cs : List PointerBarrierClient} {n : ℕ} (h : σ 0 = wallClient n::cs)
    (hother : ∀ c ∈ cs, c.id < n) :
    (σ.releasePointer lookups [0] 1 [⟨2,n,1⟩]).1 0 = (wallClient n).set releasedDevice::cs := by
  have hlookup : σ.lookup [0] n = some (0,wallClient n) := by
    simp [BarrierScreens.lookup,h,wallClient]
  have hone : σ.releaseOne lookups [0] 1 ⟨2,n,1⟩ = .ok (σ.set 0 ((σ 0).map fun c =>
      if c.id = n then c.set releasedDevice else c)) := by
    unfold BarrierScreens.releaseOne
    dsimp only
    rw [if_neg (by decide),hlookup]
    rfl
  rw [BarrierScreens.releasePointer,hone]
  change Function.update σ 0 ((σ 0).map fun c => if c.id = n then c.set releasedDevice else c) 0 = _
  rw [Function.update_self,h,List.map_cons,if_pos (show (wallClient n).id = n from rfl)]
  congr 1
  refine (List.map_congr_left fun c hc => ?_).trans (List.map_id' cs)
  exact if_neg (hother c hc).ne

lemma released_walls (n : ℕ) : ∃ σ, BarrierHistory exact σ ∧ (σ 0).length = n ∧
    ∀ c ∈ σ 0, c.id < n ∧ Opened 2 (wall 0).pointerBarrier c := by
  induction n with
  | zero => exact ⟨fun _ => [],.init,rfl,by simp⟩
  | succ n ih =>
    obtain ⟨σ,hhistory,hlength,hopened⟩ := ih
    have hcreate : σ.createPointerBarrier lookups (wall n) = .ok (σ.set 0 (wallClient n::σ 0)) := rfl
    have hlist : (σ.set 0 (wallClient n::σ 0)) 0 = wallClient n::σ 0 := Function.update_self ..
    have hrelease := release_wall hlist fun c hc => (hopened c hc).1
    refine ⟨_,(hhistory.create lookups (wall n) hcreate).release lookups [0] 1 [⟨2,n,1⟩],?_,fun c hc => ?_⟩
    · rw [hrelease,List.length_cons,hlength]
    · rw [hrelease] at hc
      obtain rfl | hc := List.mem_cons.1 hc
      · exact ⟨Nat.lt_succ_self n,wallClient_opened n⟩
      · exact ⟨Nat.lt_succ_of_lt (hopened c hc).1,(hopened c hc).2⟩

lemma motion_length {σ : BarrierScreens} (h : BarrierHistory exact σ)
    (hopened : ∀ c ∈ σ 0, Opened 2 (wall 0).pointerBarrier c) :
    (σ 0).length + 2 ≤ (getPointerEvents desktop mouse motion 0 (scene σ)).2.length := by
  have hcrossed : (σ 0).length ≤ crossed exact 0 4 0 (some 2) (σ 0) (99,500) (150,500) :=
    crossed_opened (d := 1) hopened (by decide) (by decide) (by decide +kernel) (by decide) (by decide)
  have hevents : (getPointerEvents desktop mouse motion 0 (scene σ)).2 =
      (fillPointerEvents desktop mouse motion (scene σ)).2 := by
    have haxes : scrolledAxes ⟨2,fun _ => ⟨.none,0⟩,none,none⟩ (fun i => if i = 0 then some (51:ℤ) else none) = [0] := by
      decide
    simp [getPointerEvents,updateFromMaster,smooth,emulateAll,emulateScrollButtonEvents,mouse,motion,scene,haxes,maxButtons]
  have hslots : slots desktop mouse motion (scene σ) = 1 + crossed exact 0 4 0 (some 2) (σ 0) (99,500) (150,500) + 1 := rfl
  rw [hevents,fill_length h.allCalm,hslots]
  omega

section Bare
variable {F D A : Type} [MachineNumber F] [MachineNumber D]
  {env : Server F D A} {dev : Device D} {f : Fill D} {σ : PointerState D A} {dest : ℤ × ℤ} {relative : Bool}
  {r : Course D A} {out : PointerState D A × List InternalEvent} {base : ℕ}

/-- No barrier can stop the device's pointer. -/
def Bare (dev : Device D) (σ : PointerState D A) : Prop := dev.master = none ∨ ∀ screen, σ.barriers screen = []

omit [MachineNumber F] [MachineNumber D] in
lemma Bare.last {last : Last D A} (h : Bare dev σ) : Bare dev { σ with last } := h

lemma Bare.setPosition (h : Bare dev σ) : Bare dev (setPosition env dev relative dest σ).1 := by
  obtain hmaster | hempty := h
  · exact .inl hmaster
  · refine .inr fun screen => ?_
    have hkept : (Pointer.setPosition env dev relative dest σ).1.barriers σ.pointer.pScreen = [] := by
      unfold Pointer.setPosition
      cases relative with
      | true =>
        change Function.update σ.barriers σ.pointer.pScreen _ σ.pointer.pScreen = _
        rw [Function.update_self,hempty]
        cases dev.master <;> rfl
      | false => exact (Function.update_self ..).trans (hempty _)
    by_cases hscreen : screen = σ.pointer.pScreen
    · rw [hscreen,hkept]
    · unfold Pointer.setPosition
      exact (Function.update_of_ne hscreen ..).trans (hempty screen)

lemma Bare.fill (h : Bare dev σ) : Bare dev (fillPointerEvents env dev f σ).1 := by
  unfold fillPointerEvents
  split
  · exact h
  · refine Bare.last ?_
    unfold positionSprite
    cases dev.valuator with
    | none => exact h
    | some v =>
      dsimp only
      split
      · exact h
      · exact Bare.setPosition (Bare.last h)

lemma Bare.crossedBy (h : Bare dev σ) : crossedBy env dev f σ = 0 := by
  unfold Pointer.crossedBy
  cases dev.valuator with
  | none => rfl
  | some v =>
    dsimp only
    split
    · rfl
    · obtain hmaster | hempty := h
      · rw [hmaster]
        rfl
      · rw [hempty]
        cases dev.master <;> rfl

lemma Bare.slots_le (h : Bare dev σ) : slots env dev f σ ≤ 2 := by
  unfold slots
  rw [h.crossedBy]
  split
  · exact Nat.zero_le 2
  · cases f.flags.noRaw <;> cases f.flags.rawOnly <;> decide

omit [MachineNumber F] [MachineNumber D] in
lemma Bare.changed (h : Bare dev σ) : Bare dev (updateFromMaster env dev σ).1 := by
  unfold updateFromMaster
  split
  · exact h
  · split <;> exact h

lemma Bare.smooth {mask : ValuatorMask D} (h : Bare dev σ) : Bare dev (smooth dev f mask σ).2.2 := by
  unfold Pointer.smooth
  split <;> exact h

namespace Course

structure Roomy (env : Server F D A) (dev : Device D) (r : Course D A) : Prop where
  bare : Bare dev r.state
  room : ∀ v ∈ r.visits, v.used + slots env dev v.fill v.state ≤ getMaximumEventsNum

lemma Roomy.fill (h : r.Roomy env dev) (hused : r.used + 2 ≤ getMaximumEventsNum) :
    (r.fill env dev f).Roomy env dev ∧ (r.fill env dev f).used ≤ r.used + 2 := by
  have hslots : slots env dev f r.state ≤ 2 := h.bare.slots_le
  refine ⟨⟨h.bare.fill,fun v hv => ?_⟩,Nat.add_le_add_left hslots _⟩
  obtain hv | hv := List.mem_append.1 hv
  · exact h.room v hv
  · obtain rfl := List.mem_singleton.1 hv
    exact Nat.le_trans (Nat.add_le_add_left hslots _) hused

lemma Roomy.fills {fs : List (Fill D)} (h : r.Roomy env dev) (hused : r.used + 2 * fs.length ≤ getMaximumEventsNum) :
    (fs.foldl (Course.fill env dev) r).Roomy env dev := by
  induction fs generalizing r with
  | nil => exact h
  | cons f fs ih =>
    rw [List.length_cons] at hused
    obtain ⟨hfill,hle⟩ := h.fill (f := f) (by omega)
    exact ih hfill (by omega)

omit [MachineNumber D] in
lemma round_length {s : Scroll D} {forward : Bool} : (s.round forward).length ≤ 2 := by
  unfold Scroll.round
  cases s.realType <;> simp

lemma Roomy.scroll {s : Scroll D} {forward : Bool} {rounds : ℕ} {lastScroll : D} (h : r.Roomy env dev) :
    (scroll env dev s forward rounds r lastScroll).1.Roomy env dev := by
  induction rounds generalizing r lastScroll with
  | zero => exact h
  | succ rounds ih =>
    rw [Course.scroll]
    split
    · exact h
    · apply ih
      split
      · have : (s.round forward).length ≤ 2 := round_length
        exact h.fills (by omega)
      · exact h

lemma Roomy.emulate {s : Scroll D} {rounds : ℕ} (h : r.Roomy env dev) : (emulate env dev s rounds r).1.Roomy env dev := by
  unfold Course.emulate
  split
  · exact h
  · split
    · exact h
    · exact ⟨h.scroll.bare,h.scroll.room⟩

lemma Roomy.emulateAll {v : ValuatorClass D} {before : Fin maxValuators → D} {realType : EventKind} {rounds : ℕ}
    {axes : List (Fin maxValuators)} (h : r.Roomy env dev) :
    (emulateAll env dev v before realType rounds axes r).Roomy env dev := by
  induction axes generalizing r with
  | nil => exact h
  | cons i axes ih =>
    rw [Course.emulateAll]
    dsimp only
    split
    · exact ih h.emulate
    · exact h.emulate

end Course

lemma barriersFit_of_bare (h : Bare dev σ) : BarriersFit env dev f σ := by
  intro rounds
  suffices hroomy : (Course.ofCall env dev f rounds σ).Roomy env dev from hroomy.room
  unfold Course.ofCall
  split
  · exact ⟨h,by simp⟩
  · have hbare₁ : Bare dev (updateFromMaster env dev σ).1 := h.changed
    have hlength : (updateFromMaster env dev σ).2.length ≤ 1 := changed_length
    generalize updateFromMaster env dev σ = change at hbare₁ hlength ⊢
    obtain ⟨σ₁,changed⟩ := change
    have hbare₂ : Bare dev (Pointer.smooth dev f (f.mask.getD fun _ => none) σ₁).2.2 := hbare₁.smooth
    dsimp only at hlength ⊢
    generalize smooth dev f (f.mask.getD fun _ => none) σ₁ = start at hbare₂ ⊢
    obtain ⟨f',mask,σ₂⟩ := start
    have hstart : Course.Roomy env dev ⟨σ₂,changed.length,[]⟩ := ⟨hbare₂,by simp⟩
    have hfill : (Course.fill env dev ⟨σ₂,changed.length,[]⟩ f').Roomy env dev :=
      (hstart.fill (Nat.le_trans (Nat.add_le_add_right hlength 2) (by decide))).1
    cases dev.valuator with
    | none => exact hfill
    | some v => exact hfill.emulateAll

/-- Where no barrier can stop the device's pointer, the events of a call fit the event list. -/
theorem getPointerEvents_fit_of_bare (hbarriers : BarrierHistory env.ops σ.barriers) (h : Bare dev σ) (rounds : ℕ) :
    (getPointerEvents env dev f rounds σ).2.length ≤ getMaximumEventsNum :=
  (events_fit_iff hbarriers.allCalm).2 (barriersFit_of_bare h) rounds

theorem getPointerEvents_fit_of_bare_motion :
    (getPointerEvents desktop mouse motion 3 (scene fun _ => [])).2.length ≤ getMaximumEventsNum :=
  getPointerEvents_fit_of_bare .init (.inr fun _ => rfl) 3

end Bare

end Xlibre.Dix.Pointer
