import Xlibre.Xinput.Masks

/-! The steps that change what is selected on a window: selections of both kinds, suppression of propagation, and clients
that go away. -/
namespace Xlibre.Xinput
open Xlibre.Lib

section Windows

variable {W : Type}

/-- `ShouldFreeInputMasks`. -/
def OtherInputMasks.shouldFree (m : OtherInputMasks) (ignoreSelectedEvents : Bool) : Bool :=
  decide (∀ i, m.dontPropagateMask i = 0) && (ignoreSelectedEvents || decide (∀ i, m.inputEvents i = 0))

def InputClient.setMask (mskidx : Fin emaskSize) (mask : Mask) (others : InputClient) : InputClient :=
  { others with mask := Function.update others.mask mskidx mask }

def serverClient : ℕ := 0

def hasResource (id : XID) (others : InputClient) : Bool := decide (others.resource = id)

/-- Some other client selects one of the events on the window and device. -/
def Selections.conflicts (s : Selections W) (win : W) (client : ℕ) (mskidx : Fin emaskSize) (check : Mask) : Bool :=
  (s.inputMasks win).elim false fun m =>
    decide (check &&& m.inputEvents mskidx ≠ 0) &&
      m.inputClients.any fun others => !sameClient client others && decide (check &&& others.mask mskidx ≠ 0)

variable [DecidableEq W]

/-- `InputClientGone`. A client's last record goes together with the masks, unless they suppress propagation: then
the server takes the record over. -/
def inputClientGone (T : Lib.Tree W) (resource : Bool) (s : Selections W) (pWin : W) (id : XID) :
    Except Fault (Status × Selections W) :=
  match s.inputMasks pWin with
  | none => .ok (.success,s)
  | some m =>
    if m.inputClients.any (hasResource id) then
      match m.inputClients with
      | [other] =>
        if m.shouldFree true then .ok (.success,recalculateDeviceDeliverableEvents T (s.setMasks pWin none) pWin)
        else if !resource then .error .endlessDeletion
        else
          let other := { other with resource := ⟨serverClient,s.fakeID serverClient⟩ }
          let s : Selections W :=
            { inputMasks := Function.update s.inputMasks pWin (some { m with inputClients := [other] })
              fakeID := Function.update s.fakeID serverClient (s.fakeID serverClient+1) }
          .ok (.success,recalculateDeviceDeliverableEvents T s pWin)
      | others =>
        let m := { m with inputClients := others.eraseP (hasResource id) }
        .ok (.success,recalculateDeviceDeliverableEvents T (s.setMasks pWin (some m)) pWin)
    else .error .fatalError

def selectForWindow (T : Lib.Tree W) (alloc : Allocs) (s : Selections W) (mskidx : Fin emaskSize) (pWin : W) (client : ℕ)
    (mask exclusivemasks : Mask) : Except Fault (Status × Selections W) :=
  if s.conflicts pWin client mskidx (mask &&& exclusivemasks) then .ok (.badAccess,s)
  else
    match (s.clients pWin).find? (sameClient client) with
    | some others =>
      let s := recalculateDeviceDeliverableEvents T (s.modify pWin fun m =>
        { m with inputClients := modifyFirst (sameClient client) (InputClient.setMask mskidx mask) m.inputClients }) pWin
      if mask = 0 ∧ (∀ i, i ≠ mskidx → others.mask i = 0) ∧ ((s.inputMasks pWin).elim false (·.shouldFree false)) then do
        let (_,s) ← inputClientGone T alloc.resource s pWin others.resource
        return (.success,s)
      else .ok (.success,s)
    | none => do
      let (rc,s) ← addExtensionClient alloc s pWin client mask mskidx
      if rc ≠ .success then return (rc,s)
      return (.success,recalculateDeviceDeliverableEvents T s pWin)

/-- The first part of `DeviceEventSuppressForWindow`: the mask is set, on masks that are made for it if need be. -/
def setDontPropagate (alloc : Allocs) (s : Selections W) (pWin : W) (client : ℕ) (mask : Mask)
    (maskndx : Fin emaskSize) : Except Fault (Status × Selections W) :=
  let set (s : Selections W) := s.modify pWin fun m =>
    { m with dontPropagateMask := Function.update m.dontPropagateMask maskndx mask }
  if mask ≠ 0 ∧ (s.inputMasks pWin).isNone then do
    let (rc,s) ← addExtensionClient alloc s pWin client 0 0
    if rc ≠ .success then return (rc,s)
    return (.success,set s)
  else .ok (.success,set s)

/-- The last part of `DeviceEventSuppressForWindow`: the masks go when they are of no use. -/
def dropUnused (T : Lib.Tree W) (resource : Bool) (s : Selections W) (pWin : W) : Except Fault (Status × Selections W) :=
  match s.inputMasks pWin with
  | none => .error .nullMasks
  | some m =>
    if m.shouldFree false then
      match m.inputClients with
      | [] => .ok (.badImplementation,s)
      | others::_ => do
        let (_,s) ← inputClientGone T resource s pWin others.resource
        return (.success,s)
    else .ok (.success,s)

def deviceEventSuppressForWindow (T : Lib.Tree W) (alloc : Allocs) (s : Selections W) (pWin : W) (client : ℕ) (mask : Mask)
    (maskndx : Fin emaskSize) : Except Fault (Status × Selections W) :=
  if mask &&& ~~~xiPropagateMask ≠ 0 then .ok (.badValue,s)
  else do
    let (rc,s) ← setDontPropagate alloc s pWin client mask maskndx
    if rc ≠ .success then return (rc,s)
    dropUnused T alloc.resource (recalculateDeviceDeliverableEvents T s pWin) pWin

/-- What `InputClientGone` does to the masks before it recalculates them: they are freed, their only record is taken
over by the server, or the record is taken out of them. -/
lemma inputClientGone_cases {T : Lib.Tree W} {resource : Bool} {s s' : Selections W} {w : W} {id : XID} {rc : Status}
    {m : OtherInputMasks} (hm : s.inputMasks w = some m) (h : inputClientGone T resource s w id = .ok (rc,s')) :
    ∃ s1 : Selections W, s'.inputMasks = (recalculateDeviceDeliverableEvents T s1 w).inputMasks ∧
      (∀ v, v ≠ w → s1.inputMasks v = s.inputMasks v) ∧
      ((∃ o, m.inputClients = [o] ∧ m.shouldFree true = true ∧ s1.inputMasks w = none) ∨
        (∃ o fakeID, m.inputClients = [o] ∧ m.shouldFree true = false ∧
          s1.inputMasks w = some { m with inputClients := [{ o with resource := ⟨serverClient,fakeID⟩ }] }) ∨
        (∀ o, m.inputClients ≠ [o]) ∧
          s1.inputMasks w = some { m with inputClients := m.inputClients.eraseP (hasResource id) }) := by
  unfold inputClientGone at h
  rw [hm] at h
  dsimp only at h
  by_cases hany : m.inputClients.any (hasResource id) = true
  swap
  · rw [if_neg hany] at h
    cases h
  rw [if_pos hany] at h
  split at h
  · next o ho =>
    split_ifs at h with hfree hres
    · cases h
      refine ⟨_,rfl,fun v hv => Function.update_of_ne hv _ _,Or.inl ⟨o,ho,hfree,?_⟩⟩
      exact Function.update_self _ _ _
    · cases h
      refine ⟨_,rfl,fun v hv => Function.update_of_ne hv _ _,Or.inr (Or.inl
        ⟨o,s.fakeID serverClient,ho,by simpa using hfree,?_⟩)⟩
      exact Function.update_self _ _ _
  · next hne =>
    cases h
    refine ⟨_,rfl,fun v hv => Function.update_of_ne hv _ _,Or.inr (Or.inr ⟨hne,?_⟩)⟩
    exact Function.update_self _ _ _

/-- What `AddExtensionClient` does to the masks: a record is put in front, or nothing is done, or masks without any
record are left on the window. -/
lemma addExtensionClient_cases {alloc : Allocs} {s s' : Selections W} {w : W} {client : ℕ} {mask : Mask}
    {mskidx : Fin emaskSize} {rc : Status} (h : addExtensionClient alloc s w client mask mskidx = .ok (rc,s')) :
    (rc = .success ∧ s'.inputMasks = Function.update s.inputMasks w (some { (s.inputMasks w).getD .make with
        inputClients := ⟨⟨client,s.fakeID client⟩,Function.update (fun _ => 0) mskidx mask,.empty⟩ ::
          ((s.inputMasks w).getD .make).inputClients })) ∨
    (rc ≠ .success ∧ (s'.inputMasks = s.inputMasks ∨
      s.inputMasks w = none ∧ alloc.record = true ∧ alloc.inputMasks = true ∧ alloc.xi2mask = false)) := by
  unfold addExtensionClient at h
  dsimp only at h
  split_ifs at h with hrecord hmasks hxi2 hres
  · cases h
    exact Or.inr ⟨by simp,Or.inl rfl⟩
  · cases h
    exact Or.inr ⟨by simp,Or.inl rfl⟩
  · cases h
    refine Or.inr ⟨by simp,?_⟩
    cases hm : s.inputMasks w with
    | none => exact Or.inr ⟨rfl,by simpa using hrecord,by simpa [hm] using hmasks,by simpa using hxi2⟩
    | some m =>
      refine Or.inl (funext fun v => ?_)
      by_cases hv : v = w
      · subst hv
        simp [Selections.setMasks,hm]
      · simp [Selections.setMasks,hv]
  · cases h
    exact Or.inl ⟨rfl,rfl⟩

inductive Action (W : Type)
  | select (mskidx : Fin emaskSize) (pWin : W) (client : ℕ) (mask exclusivemasks : Mask)
  | setEventMask (dev : ℕ) (win : W) (client len : ℕ) (mask : ℕ → BitVec 8)
  | suppress (pWin : W) (client : ℕ) (mask : Mask) (maskndx : Fin emaskSize)
  | gone (pWin : W) (id : XID)

def Action.window : Action W → W
  | .select _ w _ _ _ => w
  | .setEventMask _ w _ _ _ => w
  | .suppress w _ _ _ => w
  | .gone w _ => w

/-- An action while some allocations succeed. -/
def Action.run (T : Lib.Tree W) (alloc : Allocs) (s : Selections W) : Action W → Except Fault (Status × Selections W)
  | .select mskidx w client mask exclusivemasks => selectForWindow T alloc s mskidx w client mask exclusivemasks
  | .setEventMask dev w client len mask => xiSetEventMask T alloc s dev w client len mask
  | .suppress w client mask maskndx => deviceEventSuppressForWindow T alloc s w client mask maskndx
  | .gone w id => inputClientGone T alloc.resource s w id

def Action.fromClient (s : Selections W) : Action W → Prop
  | .select _ _ client _ _ => client ≠ serverClient
  | .setEventMask _ _ client _ _ => client ≠ serverClient
  | .suppress _ client _ _ => client ≠ serverClient
  | .gone w id => id.client ≠ serverClient ∧ ∃ o ∈ s.clients w, o.resource = id

structure Step (T : Lib.Tree W) (s : Selections W) (action : Action W) (alloc : Allocs) (s' : Selections W) : Prop where
  fromClient : action.fromClient s
  run : ∃ rc, action.run T alloc s = .ok (rc,s')

structure Taken (W : Type) where
  before : Selections W
  action : Action W
  alloc : Allocs
  after : Selections W

/-- Runs from no selections at all, with the steps taken, the last one first. -/
inductive Run (T : Lib.Tree W) : List (Taken W) → Selections W → Prop
  | start (fakeID : ℕ → ℕ) : Run T [] ⟨fun _ => none,fakeID⟩
  | step {l : List (Taken W)} {s s' : Selections W} {action : Action W} {alloc : Allocs} :
      Run T l s → Step T s action alloc s' → Run T (⟨s,action,alloc,s'⟩ :: l) s'

end Windows

end Xlibre.Xinput
