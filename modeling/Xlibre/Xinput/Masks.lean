import Mathlib.Algebra.GroupWithZero.Nat
import Xlibre.Lib.Checked
import Xlibre.Lib.Preorder

/-! What clients select of the devices' events: the masks on the windows and the unions kept of them. -/
namespace Xlibre.Xinput
open Xlibre.Lib

abbrev Mask := BitVec 32

/-- Slots of a table of masks: one for each device id and two more. -/
abbrev emaskSize : ℕ := 258

instance : NeZero emaskSize := ⟨by decide⟩

def xi2MaskSize : ℕ := 5

def xiPropagateMask : Mask := 0x4F#32

structure XID where
  client : ℕ
  fakeID : ℕ
  deriving DecidableEq, Repr

abbrev Xi2Mask := ℕ → ℕ → BitVec 8

def Xi2Mask.empty : Xi2Mask := fun _ _ => 0

/-- `xi2mask_isset_for_device`. -/
def Xi2Mask.isSet (m : Xi2Mask) (dev : ℕ) (eventType : ℕ) : Bool := (m dev (eventType/8)).getLsbD (eventType%8)

/-- `xi2mask_zero` for one device. -/
def Xi2Mask.zero (m : Xi2Mask) (dev : ℕ) : Xi2Mask := Function.update m dev fun _ => 0

def Xi2Mask.merge (dest source : Xi2Mask) : Xi2Mask := fun i j => dest i j ||| source i j

/-- `xi2mask_set_one_mask`: no more bytes than fit are copied. -/
def Xi2Mask.setOneMask (m : Xi2Mask) (dev : ℕ) (mask : ℕ → BitVec 8) (maskSize : ℕ) : Xi2Mask :=
  Function.update m dev fun j => if j < min xi2MaskSize maskSize then mask j else m dev j

structure InputClient where
  resource : XID
  mask : Fin emaskSize → Mask
  xi2mask : Xi2Mask

structure OtherInputMasks where
  deliverableEvents : Fin emaskSize → Mask
  inputEvents : Fin emaskSize → Mask
  dontPropagateMask : Fin emaskSize → Mask
  inputClients : List InputClient
  xi2mask : Xi2Mask

/-- `MakeInputMasks`. -/
def OtherInputMasks.make : OtherInputMasks := ⟨fun _ => 0,fun _ => 0,fun _ => 0,[],.empty⟩

/-- The masks of the windows that have some, and the next XID that the server makes for each client. -/
structure Selections (W : Type*) where
  inputMasks : W → Option OtherInputMasks
  fakeID : ℕ → ℕ

inductive Status
  | success
  | badValue
  | badWindow
  | badAccess
  | badAlloc
  | badLength
  | badImplementation
  | badDevice
  | other (code : ℕ)
  deriving DecidableEq, Repr

/-- Where the server does not go on: a record freed twice, or freed and still linked; a record deleted for want of a
resource while it is being deleted; masks read where there are none; the FatalError for an unknown record. -/
inductive Fault
  | freedRecord
  | endlessDeletion
  | nullMasks
  | fatalError
  deriving DecidableEq, Repr

structure Allocs where
  record : Bool
  inputMasks : Bool
  xi2mask : Bool
  resource : Bool
  deriving DecidableEq, Repr

def Allocs.all : Allocs := ⟨true,true,true,true⟩

section Windows

variable {W : Type*}

/-- The records on a window. -/
def Selections.clients (s : Selections W) (w : W) : List InputClient := (s.inputMasks w).elim [] (·.inputClients)

def Selections.empty : Selections W := ⟨fun _ => none,fun _ => 0⟩

variable [DecidableEq W]

def Selections.setMasks (s : Selections W) (w : W) (m : Option OtherInputMasks) : Selections W :=
  { s with inputMasks := Function.update s.inputMasks w m }

def Selections.modify (s : Selections W) (w : W) (f : OtherInputMasks → OtherInputMasks) : Selections W :=
  s.setMasks w ((s.inputMasks w).map f)

/-- The unions over the records of a window: those of the core-style masks are added to what is there. -/
def OtherInputMasks.gather (m : OtherInputMasks) : OtherInputMasks :=
  let m := m.inputClients.foldl (fun m others =>
    { m with
      inputEvents := fun i => m.inputEvents i ||| others.mask i
      xi2mask := m.xi2mask.merge others.xi2mask }) { m with xi2mask := .empty }
  { m with deliverableEvents := m.inputEvents }

/-- What an ancestor's masks add to the deliverable events. -/
def OtherInputMasks.inherit (m : OtherInputMasks) (above : Option OtherInputMasks) : OtherInputMasks :=
  above.elim m fun a =>
    { m with
      deliverableEvents := fun i =>
        m.deliverableEvents i ||| (a.deliverableEvents i &&& ~~~m.dontPropagateMask i &&& xiPropagateMask) }

/-- One turn of the walk of `RecalculateDeviceDeliverableEvents`. -/
def recalculateWindow (T : Lib.Tree W) (w : W) (m : W → Option OtherInputMasks) : Option OtherInputMasks :=
  (m w).map fun inputMasks => (T.ancestors w).foldl (fun im tmp => im.inherit (m tmp)) inputMasks.gather

/-- `RecalculateDeviceDeliverableEvents`: the window and all below it, parents first. -/
def recalculateDeviceDeliverableEvents (T : Lib.Tree W) (s : Selections W) (pWin : W) : Selections W :=
  { s with inputMasks := T.recompute (recalculateWindow T) pWin s.inputMasks }

/-- `AddExtensionClient`. When the resource cannot be added, its deletion frees the record, and so does the
way out of the function. -/
def addExtensionClient (alloc : Allocs) (s : Selections W) (pWin : W) (client : ℕ) (mask : Mask)
    (mskidx : Fin emaskSize) : Except Fault (Status × Selections W) :=
  if !alloc.record then .ok (.badAlloc,s)
  else if (s.inputMasks pWin).isNone && !alloc.inputMasks then .ok (.badAlloc,s)
  else
    let inputMasks := (s.inputMasks pWin).getD .make
    if !alloc.xi2mask then .ok (.badAlloc,s.setMasks pWin (some inputMasks))
    else
      let others : InputClient :=
        ⟨⟨client,s.fakeID client⟩,Function.update (fun _ => 0) mskidx mask,.empty⟩
      if !alloc.resource then .error .freedRecord
      else .ok (.success,
        { inputMasks := Function.update s.inputMasks pWin
            (some { inputMasks with inputClients := others :: inputMasks.inputClients })
          fakeID := Function.update s.fakeID client (s.fakeID client+1) })

def modifyFirst (p : InputClient → Bool) (f : InputClient → InputClient) : List InputClient → List InputClient
  | [] => []
  | o::os => if p o then f o :: os else o :: modifyFirst p f os

def sameClient (client : ℕ) (others : InputClient) : Bool := decide (others.resource.client = client)

/-- The end of `XISetEventMask` for the record it has found. -/
def InputClient.setEventMask (dev len : ℕ) (mask : ℕ → BitVec 8) (others : InputClient) : InputClient :=
  let zeroed := others.xi2mask.zero dev
  let len := min len xi2MaskSize
  { others with xi2mask := if len ≠ 0 then zeroed.setOneMask dev mask len else zeroed }

def xiSetEventMask (T : Lib.Tree W) (alloc : Allocs) (s : Selections W) (dev : ℕ) (win : W) (client len : ℕ)
    (mask : ℕ → BitVec 8) : Except Fault (Status × Selections W) :=
  if (s.clients win).any (sameClient client) then
    let s := s.modify win fun m =>
      { m with inputClients := modifyFirst (sameClient client) (InputClient.setEventMask dev len mask) m.inputClients }
    .ok (.success,recalculateDeviceDeliverableEvents T s win)
  else if len ≠ 0 then do
    let (rc,s) ← addExtensionClient alloc s win client 0 0
    if rc ≠ .success then return (.badAlloc,s)
    -- the new record is the first one
    let s := s.modify win fun m =>
      { m with inputClients := modifyFirst (fun _ => true) (InputClient.setEventMask dev len mask) m.inputClients }
    return (.success,recalculateDeviceDeliverableEvents T s win)
  else .ok (.success,recalculateDeviceDeliverableEvents T s win)

@[simp] lemma gather_inputClients (m : OtherInputMasks) : m.gather.inputClients = m.inputClients := by
  have h : ∀ (l : List InputClient) (m : OtherInputMasks), (l.foldl (fun m others =>
      { m with
        inputEvents := fun i => m.inputEvents i ||| others.mask i
        xi2mask := m.xi2mask.merge others.xi2mask }) m).inputClients = m.inputClients := by
    intro l
    induction l with
    | nil => exact fun m => rfl
    | cons o l ih => exact fun m => ih _
  exact h m.inputClients { m with xi2mask := .empty }

@[simp] lemma inherit_inputClients (m : OtherInputMasks) (above : Option OtherInputMasks) :
    (m.inherit above).inputClients = m.inputClients := by
  cases above <;> rfl

omit [DecidableEq W] in
lemma recalculateWindow_inputClients (T : Lib.Tree W) (w : W) (m : W → Option OtherInputMasks) :
    (recalculateWindow T w m).elim [] (·.inputClients) = (m w).elim [] (·.inputClients) := by
  unfold recalculateWindow
  cases m w with
  | none => rfl
  | some im =>
    rw [Option.map_some,Option.elim_some,Option.elim_some]
    conv_rhs => rw [← gather_inputClients im]
    generalize im.gather = g
    induction T.ancestors w generalizing g with
    | nil => rfl
    | cons a l ih => rw [List.foldl_cons,ih,inherit_inputClients]

@[simp] lemma recalculate_clients (T : Lib.Tree W) (s : Selections W) (w v : W) :
    (recalculateDeviceDeliverableEvents T s w).clients v = s.clients v :=
  T.recompute_keeps (fun m => m.elim [] (·.inputClients)) (recalculateWindow_inputClients T) w s.inputMasks v

lemma clients_of_ne {s s' : Selections W} {m : Option OtherInputMasks} {w v : W}
    (h : s'.inputMasks = Function.update s.inputMasks w m) (hv : v ≠ w) : s'.clients v = s.clients v := by
  rw [Selections.clients,h,Function.update_of_ne hv,Selections.clients]

@[simp] lemma modify_clients_of_ne (s : Selections W) (f : OtherInputMasks → OtherInputMasks) {w v : W} (hv : v ≠ w) :
    (s.modify w f).clients v = s.clients v := clients_of_ne rfl hv

lemma modify_clients (s : Selections W) (g : List InputClient → List InputClient) (hg : g [] = []) (w : W) :
    (s.modify w fun m => { m with inputClients := g m.inputClients }).clients w = g (s.clients w) := by
  simp only [Selections.clients,Selections.modify,Selections.setMasks,Function.update_self]
  cases s.inputMasks w with
  | none => exact hg.symm
  | some m => rfl

lemma addExtensionClient_clients {alloc : Allocs} {s s' : Selections W} {w : W} {client : ℕ} {mask : Mask}
    {mskidx : Fin emaskSize} {rc : Status} (h : addExtensionClient alloc s w client mask mskidx = .ok (rc,s')) :
    (∀ v, v ≠ w → s'.clients v = s.clients v) ∧
    (rc ≠ .success → s'.clients w = s.clients w) ∧
    (rc = .success → s'.clients w =
      ⟨⟨client,s.fakeID client⟩,Function.update (fun _ => 0) mskidx mask,.empty⟩ :: s.clients w) := by
  have hmake : ((s.inputMasks w).getD .make).inputClients = s.clients w := by
    unfold Selections.clients
    cases s.inputMasks w <;> rfl
  unfold addExtensionClient at h
  dsimp only at h
  split_ifs at h with hrecord hmasks hxi2 hres
  · cases h
    exact ⟨fun v hv => rfl,fun _ => rfl,fun hrc => nomatch hrc⟩
  · cases h
    exact ⟨fun v hv => rfl,fun _ => rfl,fun hrc => nomatch hrc⟩
  · cases h
    refine ⟨fun v hv => clients_of_ne rfl hv,fun _ => ?_,fun hrc => nomatch hrc⟩
    rw [← hmake]
    simp [Selections.clients,Selections.setMasks]
  · cases h
    refine ⟨fun v hv => clients_of_ne rfl hv,fun hrc => absurd rfl hrc,fun _ => ?_⟩
    rw [← hmake]
    simp [Selections.clients]

lemma modifyFirst_nil (p : InputClient → Bool) (f : InputClient → InputClient) : modifyFirst p f [] = [] := rfl

/-- What `XISetEventMask` does to the records: a record of the client is changed, or one is put in front and then
changed, or none is touched. -/
lemma xiSetEventMask_clients {T : Lib.Tree W} {alloc : Allocs} {s s' : Selections W} {dev : ℕ} {w : W} {client len : ℕ}
    {mask : ℕ → BitVec 8} {rc : Status} (h : xiSetEventMask T alloc s dev w client len mask = .ok (rc,s')) :
    (∀ v, v ≠ w → s'.clients v = s.clients v) ∧
    (s'.clients w = s.clients w ∨
      s'.clients w = modifyFirst (sameClient client) (InputClient.setEventMask dev len mask) (s.clients w) ∨
      (s.clients w).any (sameClient client) = false ∧ ∃ o : InputClient, o.resource.client = client ∧
        o.xi2mask = .empty ∧ s'.clients w = o.setEventMask dev len mask :: s.clients w) := by
  unfold xiSetEventMask at h
  dsimp only at h
  split_ifs at h with hfound hlen
  · cases h
    refine ⟨fun v hv => ?_,Or.inr (Or.inl ?_)⟩
    · rw [recalculate_clients,modify_clients_of_ne s _ hv]
    · rw [recalculate_clients,modify_clients _ _ (modifyFirst_nil _ _)]
  · obtain ⟨⟨rc',s1⟩,hadd,h⟩ := Checked.bind_eq_ok.1 h
    obtain ⟨hne,hfail,hok⟩ := addExtensionClient_clients hadd
    dsimp only at h
    split_ifs at h with hrc
    · cases h
      exact ⟨hne,Or.inl (hfail hrc)⟩
    · cases h
      rw [not_not] at hrc
      refine ⟨fun v hv => ?_,Or.inr (Or.inr ⟨by simpa using hfound,
        ⟨⟨client,s.fakeID client⟩,Function.update (fun _ => 0) 0 0,.empty⟩,rfl,rfl,?_⟩)⟩
      · rw [recalculate_clients,modify_clients_of_ne s1 _ hv,hne v hv]
      · rw [recalculate_clients,modify_clients _ _ (modifyFirst_nil _ _),hok hrc]
        rfl
  · cases h
    exact ⟨fun v hv => recalculate_clients T s w v,Or.inl (recalculate_clients T s w w)⟩

end Windows

def rootWindow : Lib.Tree Unit where
  parent _ := none
  depth _ := 0
  depth_lt _ _ h := nomatch h
  children _ := []
  mem_children _ _ := by simp
  children_nodup _ := List.nodup_nil
  height _ := 0
  height_lt _ _ h := nomatch h

end Xlibre.Xinput
