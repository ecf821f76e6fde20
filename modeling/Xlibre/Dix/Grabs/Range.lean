import Xlibre.Dix.Grabs.Collide
import Xlibre.Dix.Grabs.Requests

/-! Bit numbers past the end of the masks. -/
namespace Xlibre.Dix.Grabs

open Lib.Checked

section Lists

variable {m n g : Grab} {l : List Grab} {alloc : Allocs} {allocs : ℕ → Allocs} {memory : Memory}

/-- A bit past the end of a mask. -/
def Fault.IsIndex : Fault → Prop
  | .maskIndex _ => True
  | .nullMask => False

/-- No bit past the end of a mask is read or cleared. -/
abbrev InBounds {α : Type} (x : Except Fault α) : Prop := Avoids Fault.IsIndex x

/-- Any modifiers, or a combination of the eight that there are. -/
def Grab.InRange (m : Grab) : Prop :=
  m.modifiersDetail.exact = anyModifier m.grabtype ∨ m.modifiersDetail.exact < 256

lemma Grab.InRange.readable (h : m.InRange) (g : Grab) : g.Readable m := fun _ _ hm => h.resolve_left hm

lemma Grab.InRange.lt (h : m.InRange) (hm : m.modifiersDetail.exact ≠ anyModifier m.grabtype) : m.modifiersDetail.exact < 256 :=
  h.resolve_left hm

lemma splitGrab_inBounds (h : m.modifiersDetail.exact < 256) : InBounds (splitGrab alloc m g) := by
  by_cases hx : g.grabtype = .xi2
  · unfold splitGrab
    rw [deleteDetailFromMask_ok _ _ m.detail_lt]
    refine (Avoids.ok _).bind fun d _ => Avoids.ite (fun _ => ?_) fun _ => Avoids.ok none
    -- The XI2 mask at `NULL` comes first.
    have hn : createGrab g.client g.toTarget ⟨g.eventMask,none⟩ ⟨g.ownerEvents.toNat,g.keyboardMode.toNat,g.pointerMode.toNat,
        anyModifier m.grabtype⟩ m.detail.exact g.confineTo g.cursor = .error .nullMask := by
      unfold createGrab
      rw [dif_pos hx]
    dsimp only
    rw [hn]
    exact Avoids.error id
  · have hok : ∃ r, splitGrab alloc m g = .ok r := splitGrab_ok hx h
    obtain ⟨r,hr⟩ := hok
    exact Avoids.of_ok hr

lemma narrowGrab_inBounds (h : m.InRange) (hmeets : g.meets m = true) (hbelow : g.below m = false) :
    InBounds (narrowGrab alloc m g) := by
  have hn := narrows_of_meets hmeets hbelow
  have hup {b : Bool} {part : Part} {pMask : Option DetailMask} {exact : ℕ} (he : exact < 256) :
      InBounds (update b part pMask exact) := by
    obtain ⟨r,hr⟩ := update_ok b part pMask he
    exact Avoids.of_ok hr
  unfold narrowGrab
  dsimp only
  split_ifs with h1 h2 h3 h4
  · exact hup m.detail_lt
  · exact hup (h.lt (hn.modifiers h2.2).1)
  · exact splitGrab_inBounds (h.lt h3.2)
  · exact hup (h.lt (hn.any h4))
  · exact hup m.detail_lt

lemma editGrab_inBounds (hm : m.Plain) (h : m.InRange) : InBounds (editGrab alloc m g) := by
  by_cases hg : g.client ≠ m.client ∨ g.matches m.toTarget g.ignoresDevice = false
  · exact Avoids.of_ok (editGrab_other hg)
  · obtain ⟨hc,hma⟩ := not_or.1 hg
    rw [editGrab_eq hm (not_not.1 hc) (by simpa using hma) (h.readable g)]
    split_ifs with hmeets hsup
    · exact Avoids.ok _
    · exact narrowGrab_inBounds h hmeets (Bool.eq_false_iff.2 hsup)
    · exact Avoids.ok _

lemma editGrabs_inBounds (hm : m.Plain) (h : m.InRange) (i : ℕ) : InBounds (editGrabs allocs m i l) := by
  induction l generalizing i with
  | nil => exact Avoids.ok _
  | cons g l ih =>
    rw [editGrabs]
    refine (editGrab_inBounds hm h).bind fun r _ => ?_
    cases r with
    | none => exact Avoids.ok _
    | some e => exact (ih (i+1)).bind fun es _ => Avoids.ok _

lemma deletePassiveGrabFromList_inBounds (hm : m.Plain) (h : m.InRange) : InBounds (deletePassiveGrabFromList memory l m) := by
  unfold deletePassiveGrabFromList
  refine Avoids.ite (fun _ => Avoids.ok _) fun _ => Avoids.ite (fun _ => Avoids.ok _) fun _ => ?_
  refine (editGrabs_inBounds hm h 0).bind fun r _ => ?_
  cases r with
  | none => exact Avoids.ok _
  | some es => exact Avoids.ok _

lemma grabMatchesSecond_inBounds (hn : n.Plain) (h : n.InRange) (b : Bool) : InBounds (grabMatchesSecond n g b) := by
  cases hm : n.matches g.toTarget b with
  | false => exact Avoids.of_ok (grabMatchesSecond_other hm)
  | true => exact Avoids.of_ok (plain_grabMatchesSecond hm hn (h.readable g))

lemma grabbedByOther_inBounds (hn : n.Plain) (h : n.InRange) : InBounds (grabbedByOther n l) := by
  induction l with
  | nil => exact Avoids.ok _
  | cons g l ih =>
    rw [grabbedByOther]
    refine (grabMatchesSecond_inBounds hn h _).bind fun b _ => Avoids.ite (fun _ => ?_) fun _ => ih
    exact Avoids.ite (fun _ => Avoids.ok _) fun _ => ih

lemma grabsAreIdentical_inBounds (hn : n.Plain) (h : n.InRange) : InBounds (grabsAreIdentical n g) := by
  unfold grabsAreIdentical
  refine Avoids.ite (fun _ => Avoids.ok _) fun hg => Avoids.ite (fun _ => Avoids.ok _) fun _ => ?_
  have hr := h.readable g
  have hd := and_ok (DetailRec.plain_supersedes (c := g.detail) hn.detail) (DetailRec.supersedes_readable (detail_readable g n))
  have hk := and_ok (DetailRec.plain_supersedes (c := g.modifiersDetail) hn.modifiers) (DetailRec.supersedes_readable hr)
  exact Avoids.of_ok (and_ok hd hk)

lemma findIdentical_inBounds (hn : n.Plain) (h : n.InRange) : InBounds (findIdentical n l) := by
  induction l with
  | nil => exact Avoids.ok _
  | cons g l ih =>
    rw [findIdentical]
    refine (grabsAreIdentical_inBounds hn h).bind fun b _ => ?_
    cases b with
    | false => exact ih
    | true => exact Avoids.ok _

lemma identical_inRange (h : n.InRange) (hi : grabsAreIdentical n g = .ok true) : g.InRange := by
  unfold grabsAreIdentical at hi
  split_ifs at hi with h1 h2
  · cases hi
  · cases hi
  · have hg := not_not.1 h1
    have hk2 := (and_eq_ok_true (and_eq_ok_true hi).2).2
    rw [DetailRec.supersedes_readable (h.readable g)] at hk2
    rw [Grab.InRange,← hg]
    by_cases ha : g.modifiersDetail.exact = anyModifier n.grabtype
    · exact .inl ha
    · rw [DetailRec.above,if_neg ha] at hk2
      rw [of_decide_eq_true (Except.ok.inj hk2)]
      exact h

lemma addPassiveGrabToList_inBounds (out : Outside) (hn : n.Plain) (h : n.InRange) : InBounds (addPassiveGrabToList out l n) := by
  unfold addPassiveGrabToList
  refine (grabbedByOther_inBounds hn h).bind fun b _ => ?_
  refine Avoids.ite (fun _ => Avoids.ok _) fun _ => Avoids.ite (fun _ => Avoids.ok _) fun _ => ?_
  refine Avoids.bind ?_ fun l' _ => Avoids.ite (fun _ => Avoids.ok _) fun _ => Avoids.ite (fun _ => Avoids.ok _) fun _ => Avoids.ok _
  unfold removeIdentical
  refine (findIdentical_inBounds hn h).bind fun r hr => ?_
  cases r with
  | none => exact Avoids.ok _
  | some g =>
    have hi := (findIdentical_some hr).2
    exact (deletePassiveGrabFromList_inBounds (identical_plain hn hi) (identical_inRange h hi)).map _

end Lists

section Handlers

variable {env : Env} {i client : ℕ} {window : XID} {target : Target} {mask : GrabMask} {param : GrabParameters} {keybut : ℕ}
  {confineTo cursor : Option XID} {l : List Grab}

def ModifiersOk (grabtype : InputLevel) (modifiers : ℕ) : Prop := modifiers = anyModifier grabtype ∨ modifiers < 256

lemma createGrab_inBounds : InBounds (createGrab client target mask param keybut confineTo cursor) := by
  unfold createGrab
  dsimp only
  split
  · cases mask.xi2mask with
    | none => exact Avoids.error id
    | some x => exact Avoids.ok _
  · exact Avoids.ok _

lemma createGrab_plain {g : Grab} (h : createGrab client target mask param keybut confineTo cursor = .ok g)
    (hm : ModifiersOk target.grabtype param.modifiers) : g.Plain ∧ g.InRange := by
  unfold createGrab at h
  dsimp only at h
  split at h
  · cases hx : mask.xi2mask with
    | none =>
      rw [hx] at h
      cases h
    | some x =>
      rw [hx] at h
      cases h
      exact ⟨⟨fun _ => rfl,fun _ => rfl⟩,hm⟩
  · cases h
    exact ⟨⟨fun _ => rfl,fun _ => rfl⟩,hm⟩

lemma addGrab_inBounds (hm : ModifiersOk target.grabtype param.modifiers) :
    InBounds (addGrab env i client target mask param keybut confineTo cursor l) := by
  unfold addGrab
  refine Avoids.ite (fun _ => Avoids.ok _) fun _ => createGrab_inBounds.bind fun g hg => ?_
  obtain ⟨hp,hr⟩ := createGrab_plain hg hm
  exact addPassiveGrabToList_inBounds _ hp hr

lemma removeGrab_inBounds {modifiers : ℕ} (hm : ModifiersOk target.grabtype modifiers) :
    InBounds (removeGrab env i client target modifiers keybut l) := by
  unfold removeGrab
  refine Avoids.ite (fun _ => Avoids.ok _) fun _ => createGrab_inBounds.bind fun g hg => ?_
  obtain ⟨hp,hr⟩ := createGrab_plain hg hm
  exact (deletePassiveGrabFromList_inBounds hp hr).bind fun _ _ => Avoids.ok _

lemma checkGrabValues_modifiers (h : checkGrabValues param = .success) :
    param.modifiers = anyModifier .core ∨ param.modifiers = anyModifier .xi2 ∨ param.modifiers < 256 := by
  unfold checkGrabValues strangeModifiers at h
  split_ifs at h with h1 h2 h3 h4
  by_contra hn
  push Not at hn
  exact h3 ⟨hn.1,hn.2.1,decide_eq_true hn.2.2⟩

lemma checkGrabValues_small (h : checkGrabValues param = .success) (hs : param.modifiers < 2^16) :
    ModifiersOk .core param.modifiers := by
  obtain h | h | h := checkGrabValues_modifiers h
  · exact .inl h
  · rw [h] at hs
    exact absurd hs (by decide)
  · exact .inr h

lemma badModifiers_small {modifiers : ℕ} (h : badModifiers modifiers = false) : ModifiersOk .core modifiers := by
  unfold badModifiers strangeModifiers at h
  rw [ModifiersOk]
  simpa [or_iff_not_imp_left] using h

lemma checkGrabValues_xi2 (h : checkGrabValues param = .success) (hm : param.modifiers ≠ anyModifier .core) :
    ModifiersOk .xi2 param.modifiers := (checkGrabValues_modifiers h).resolve_left hm

lemma checked {c : Prop} [Decidable c] {r : Status × List Grab} {x : Except Fault (Status × List Grab)} (h : ¬c → InBounds x) :
    InBounds (if c then .ok r else x) := Avoids.ite (fun _ => Avoids.ok r) h

lemma procGrabKey_inBounds {o k p : UInt8} {m : UInt16} {key : UInt8} : InBounds (procGrabKey env client window o k p m key l) := by
  unfold procGrabKey
  refine checked fun hv => checked fun _ => checked fun _ => addGrab_inBounds ?_
  exact checkGrabValues_small (not_not.1 hv) m.toNat_lt

lemma procUngrabKey_inBounds {m : UInt16} {key : UInt8} : InBounds (procUngrabKey env client window m key l) := by
  unfold procUngrabKey
  refine checked fun _ => checked fun _ => checked fun hm => removeGrab_inBounds ?_
  exact badModifiers_small (Bool.eq_false_iff.2 hm)

lemma procGrabButton_inBounds {o p k : UInt8} {e : UInt16} {w c : XID} {m : UInt16} {b : UInt8} :
    InBounds (procGrabButton env client window o p k e w c m b l) := by
  unfold procGrabButton
  refine checked fun _ => checked fun _ => checked fun hm => checked fun _ => checked fun _ => ?_
  refine checked fun _ => checked fun _ => checked fun _ => checked fun _ => addGrab_inBounds ?_
  exact badModifiers_small (Bool.eq_false_iff.2 hm)

lemma procUngrabButton_inBounds {m : UInt16} {b : UInt8} : InBounds (procUngrabButton env client window m b l) := by
  unfold procUngrabButton
  refine checked fun hm => checked fun _ => removeGrab_inBounds ?_
  exact badModifiers_small (Bool.eq_false_iff.2 hm)

lemma grabButton_inBounds {dev mdev : Device} {button : ℕ} {c : XID} {level : InputLevel}
    (h : checkGrabValues param = .success → ModifiersOk level param.modifiers) :
    InBounds (grabButton env i client window dev mdev button param c level mask l) := by
  unfold grabButton
  exact checked fun hv => checked fun _ => checked fun _ => checked fun _ => addGrab_inBounds (h (not_not.1 hv))

lemma grabKey_inBounds {dev mdev : Device} {key : ℕ} {level : InputLevel}
    (h : checkGrabValues param = .success → ModifiersOk level param.modifiers) :
    InBounds (grabKey env i client window dev mdev key param level mask l) := by
  unfold grabKey
  exact checked fun hv => checked fun _ => checked fun _ => checked fun _ => checked fun _ => addGrab_inBounds (h (not_not.1 hv))

lemma grabWindow_inBounds {dev : Device} {type : ℕ} {c : XID}
    (h : checkGrabValues param = .success → ModifiersOk .xi2 param.modifiers) :
    InBounds (grabWindow env i client window dev type param c mask l) := by
  unfold grabWindow
  exact checked fun hv => checked fun _ => checked fun _ => checked fun _ => addGrab_inBounds (h (not_not.1 hv))

lemma grabTouchOrGesture_inBounds {dev mdev : Device} {type : ℕ}
    (h : checkGrabValues param = .success → ModifiersOk .xi2 param.modifiers) :
    InBounds (grabTouchOrGesture env i client window dev mdev type param mask l) := by
  unfold grabTouchOrGesture
  exact checked fun hv => checked fun _ => checked fun _ => addGrab_inBounds (h (not_not.1 hv))

lemma procXGrabDevice_inBounds {d md : ℕ} {grab : Device → Device → ℕ → Except Fault (Status × List Grab)}
    (h : ∀ dev mdev mask, InBounds (grab dev mdev mask)) : InBounds (procXGrabDevice env d md l grab) := by
  unfold procXGrabDevice
  cases env.lookupDevice d with
  | error e => exact Avoids.ok _
  | ok dev =>
    cases xiModifierDevice env md with
    | error e => exact Avoids.ok _
    | ok mdev =>
      cases env.createMaskFromList with
      | error e => exact Avoids.ok _
      | ok mask => exact h dev mdev mask

lemma procXUngrabDevice_inBounds {d md type : ℕ} {usable bad : Device → Bool} {m : UInt16} {key : UInt8} :
    InBounds (procXUngrabDevice env client window d md type usable bad m key l) := by
  unfold procXUngrabDevice
  cases env.lookupDevice d with
  | error e => exact Avoids.ok _
  | ok dev =>
    refine checked fun _ => ?_
    cases xiUngrabModifierDevice env md with
    | error e => exact Avoids.ok _
    | ok mdev =>
      refine checked fun _ => checked fun _ => checked fun hm => checked fun _ => (removeGrab_inBounds ?_).map _
      exact badModifiers_small (Bool.eq_false_iff.2 hm)

lemma xiGrab_inBounds {dev : Device} {t : XiGrabtype} {detail : ℕ} {c : XID}
    (h : checkGrabValues param = .success → ModifiersOk .xi2 param.modifiers) :
    InBounds (xiGrab env i client window dev t detail c param mask l) := by
  cases t with
  | button => exact grabButton_inBounds h
  | keycode => exact grabKey_inBounds h
  | enter => exact grabWindow_inBounds h
  | focusIn => exact grabWindow_inBounds h
  | touchBegin => exact grabTouchOrGesture_inBounds h
  | gesturePinchBegin => exact grabTouchOrGesture_inBounds h
  | gestureSwipeBegin => exact grabTouchOrGesture_inBounds h

lemma xiGrabs_inBounds {dev : Device} {t : XiGrabtype} {detail : ℕ} {c : XID} {ms : List UInt32}
    (h : ∀ m ∈ ms, m.toNat ≠ anyModifier .core) :
    InBounds (xiGrabs env client window dev t detail c param mask i ms l) := by
  induction ms generalizing i l param with
  | nil => exact Avoids.ok _
  | cons m ms ih =>
    have hms := fun m' hm' => h m' (List.mem_cons_of_mem m hm')
    rw [xiGrabs]
    refine Avoids.ite (fun _ => ih hms) fun _ => checked fun _ => (xiGrab_inBounds fun hv => ?_).bind fun r _ => ih hms
    exact checkGrabValues_xi2 hv (h m List.mem_cons_self)

lemma procXIPassiveGrabDevice_inBounds {d : UInt16} {gt : UInt8} {detail : UInt32} {g p o : UInt8} {c : XID} {x : ℕ}
    {ms : List UInt32} (h : ∀ m ∈ ms, m.toNat ≠ anyModifier .core) :
    InBounds (procXIPassiveGrabDevice env client window d gt detail g p o c x ms l) := by
  unfold procXIPassiveGrabDevice
  cases xiDevice env d.toNat with
  | error e => exact Avoids.ok _
  | ok dev =>
    cases XiGrabtype.ofRequest gt.toNat with
    | none => exact Avoids.ok _
    | some t =>
      refine checked fun _ => checked fun _ => checked fun _ => checked fun _ => ?_
      exact checked fun _ => checked fun _ => checked fun _ => xiGrabs_inBounds h

lemma xiUngrabs_inBounds {detail : ℕ} {ms : List UInt32} (h : ∀ m ∈ ms, ModifiersOk target.grabtype m.toNat) :
    InBounds (xiUngrabs env client target detail i ms l) := by
  induction ms generalizing i l with
  | nil => exact Avoids.ok _
  | cons m ms ih =>
    rw [xiUngrabs]
    exact (removeGrab_inBounds (h m List.mem_cons_self)).bind fun r _ => ih fun m' hm' => h m' (List.mem_cons_of_mem m hm')

lemma procXIPassiveUngrabDevice_inBounds {d : UInt16} {gt : UInt8} {detail : UInt32} {ms : List UInt32}
    (h : ∀ m ∈ ms, ModifiersOk .xi2 m.toNat) : InBounds (procXIPassiveUngrabDevice env client window d gt detail ms l) := by
  unfold procXIPassiveUngrabDevice
  cases xiDevice env d.toNat with
  | error e => exact Avoids.ok _
  | ok dev =>
    cases XiGrabtype.ofRequest gt.toNat with
    | none => exact Avoids.ok _
    | some t => exact checked fun _ => checked fun _ => checked fun _ => checked fun _ => xiUngrabs_inBounds h

end Handlers

section Run

/-- The condition on a request. The core's `AnyModifier` gets through `CheckGrabValues` in an XI2 grab, where it is not any
modifiers, and nobody looks at the modifiers of an XI2 ungrab. -/
def Req.InRange : Req → Prop
  | .xiPassiveGrabDevice _ _ _ _ _ _ _ _ modifiers => ∀ m ∈ modifiers, m.toNat ≠ anyModifier .core
  | .xiPassiveUngrabDevice _ _ _ modifiers => ∀ m ∈ modifiers, ModifiersOk .xi2 m.toNat
  | _ => True

lemma handle_inBounds {env : Env} {client : ℕ} {window : XID} {l : List Grab} {req : Req} (h : req.InRange) :
    InBounds (handle env client window l req) := by
  cases req with
  | grabKey => exact procGrabKey_inBounds
  | ungrabKey => exact procUngrabKey_inBounds
  | grabButton => exact procGrabButton_inBounds
  | ungrabButton => exact procUngrabButton_inBounds
  | xGrabDeviceKey _ _ _ _ _ m =>
    exact procXGrabDevice_inBounds fun _ _ _ => grabKey_inBounds fun hv => checkGrabValues_small hv m.toNat_lt
  | xGrabDeviceButton _ _ _ _ _ m =>
    exact procXGrabDevice_inBounds fun _ _ _ => grabButton_inBounds fun hv => checkGrabValues_small hv m.toNat_lt
  | xUngrabDeviceKey => exact procXUngrabDevice_inBounds
  | xUngrabDeviceButton => exact procXUngrabDevice_inBounds
  | xiPassiveGrabDevice => exact procXIPassiveGrabDevice_inBounds h
  | xiPassiveUngrabDevice => exact procXIPassiveUngrabDevice_inBounds h

lemma runRequests_inBounds {reqs : List (Env × ℕ × XID × Req)} {s : XID → List Grab} (h : ∀ r ∈ reqs, r.2.2.2.InRange) :
    InBounds (runRequests reqs s) := by
  induction reqs generalizing s with
  | nil => exact Avoids.ok _
  | cons r reqs ih =>
    obtain ⟨env,client,window,req⟩ := r
    have hreq : req.InRange := h (env,client,window,req) List.mem_cons_self
    exact (handle_inBounds hreq).bind fun r _ => ih fun r' hr' => h r' (List.mem_cons_of_mem _ hr')

/-- Masks are indexed in range, in every run of requests that meet the condition. -/
theorem grab_masks_in_range {reqs : List (Env × ℕ × XID × Req)} (h : ∀ r ∈ reqs, r.2.2.2.InRange) (s : XID → List Grab)
    (i : ℕ) : runRequests reqs s ≠ .error (.maskIndex i) :=
  runRequests_inBounds h _ trivial

/-- A server with two devices, where every lookup and allocation succeeds. -/
def calmEnv : Env where
  keyboard := .device 3 true
  pointer := .device 2 true
  modifierDevice := fun _ => .device 3 true
  isKeyboard := fun dev => decide (dev = .device 3 true)
  hasKeys := fun dev => decide (dev = .device 3 true)
  hasButtons := fun dev => decide (dev = .device 2 true)
  minKeyCode := fun _ => 8
  maxKeyCode := fun _ => 255
  deviceKeyPress := 66
  deviceButtonPress := 68
  lookupDevice := fun id => if id = 2 ∨ id = 3 then .ok (.device id true) else .error .badDevice
  lookupWindow := fun _ => .success
  lookupCursor := fun _ => .success
  access := fun _ => .success
  createMaskFromList := .ok 0
  invalidMaskBits := false
  alloc := true
  out := fun _ => allGranted

def xiGrabButton (modifiers : List UInt32) : Env × ℕ × XID × Req :=
  (calmEnv,1,100,.xiPassiveGrabDevice 2 0 1 1 1 0 0 0 modifiers)

def xiUngrabButton (modifiers : List UInt32) : Env × ℕ × XID × Req := (calmEnv,1,100,.xiPassiveUngrabDevice 2 0 1 modifiers)

theorem grab_masks_in_range_any : (∀ r ∈ [xiGrabButton [0x80000000],xiUngrabButton [5,0x80000000]], r.2.2.2.InRange) ∧
    ∀ i, runRequests [xiGrabButton [0x80000000],xiUngrabButton [5,0x80000000]] (fun _ => []) ≠ .error (.maskIndex i) := by
  have h : ∀ r ∈ [xiGrabButton [0x80000000],xiUngrabButton [5,0x80000000]], r.2.2.2.InRange := by
    simp [xiGrabButton,xiUngrabButton,Req.InRange,ModifiersOk,anyModifier]
  exact ⟨h,fun i => grab_masks_in_range h _ i⟩

/-- Modifiers 256 are taken out of a mask of 256 bits, and a grab with the core's `AnyModifier` is looked up in one. -/
theorem grab_masks_out_of_range :
    runRequests [xiGrabButton [0x80000000],xiUngrabButton [256]] (fun _ => []) = .error (.maskIndex 256) ∧
    runRequests [xiGrabButton [0x80000000],xiUngrabButton [5],xiGrabButton [0x8000]] (fun _ => []) =
      .error (.maskIndex 0x8000) := by
  exact ⟨rfl,rfl⟩

end Run

end Xlibre.Dix.Grabs
