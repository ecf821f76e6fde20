import Xlibre.Dix.Crossing.EnterLeave

/-! Core focus events for several keyboards. -/
namespace Xlibre.Dix.Crossing
open Xlibre.Lib NotifyDetail

inductive FocusWin (W : Type*)
  | noneWin
  | pointerRootWin
  | window (win : W)
  deriving DecidableEq, Repr

def FocusWin.window? {W : Type*} : FocusWin W → Option W
  | .window win => some win
  | _ => none

inductive FocusType
  | focusIn
  | focusOut
  deriving DecidableEq, Repr

structure FocusEvent (W : Type*) where
  type : FocusType
  mode : ℕ
  detail : NotifyDetail
  window : W
  deriving Repr

structure KeyboardDevice (n : ℕ) (W : Type*) where
  id : Fin n
  isMaster : Bool
  focus : Option (FocusWin W)
  pointer : Fin n

abbrev FocusWindows (n : ℕ) (W : Type*) := Fin n → FocusWin W

open FocusType

variable {W : Type*} [DecidableEq W] {n : ℕ}

def hasFocus (focusWindows : FocusWindows n W) (win : W) : Bool :=
  (List.finRange n).any fun i => decide (focusWindows i = .window win)

def firstFocusChild (F : Forest W) (focusWindows : FocusWindows n W) (win : W) : Option W :=
  (List.finRange n).findSome? fun i => (focusWindows i).window?.filter fun v => windowIsParent F win v

def setFocusIn (dev : KeyboardDevice n W) (win : FocusWin W) (focusWindows : FocusWindows n W) : FocusWindows n W :=
  Function.update focusWindows dev.id win

def setFocusOut (dev : KeyboardDevice n W) (focusWindows : FocusWindows n W) : FocusWindows n W :=
  Function.update focusWindows dev.id .noneWin

def noFocus (F : Forest W) (focusWindows : FocusWindows n W) (win : W) : Bool :=
  !hasFocus focusWindows win && (firstFocusChild F focusWindows win).isNone

def coreFocusInEvents (F : Forest W) (focusWindows : FocusWindows n W) (ancestor : Option W) (child : W) (mode : ℕ)
    (detail : NotifyDetail) : List (FocusEvent W) :=
  notifiesIn (noFocus F focusWindows) (fun win _ => ⟨focusIn,mode,detail,win⟩) ancestor child (F.ancestors child)

def coreFocusOutEvents (F : Forest W) (focusWindows : FocusWindows n W) (child : W) (ancestor : Option W) (mode : ℕ)
    (detail : NotifyDetail) : List (FocusEvent W) :=
  if ancestor = some child then []
  else notifiesOut (noFocus F focusWindows) (fun win _ => ⟨focusOut,mode,detail,win⟩) ancestor child
    (F.ancestors child)

section Keyboard

variable (F : Forest W) (dev : KeyboardDevice n W) (pointerWindows : PointerWindows n W)
  (focusWindows : FocusWindows n W)

/-- FocusOut with detail Pointer from the paired pointer's window up to the given one. -/
def coreFocusOutNotifyPointerEvents (pwinParent : W) (exclude : FocusWin W) (mode : ℕ) (inclusive : Bool) :
    List (FocusEvent W) :=
  match pointerWindows dev.pointer with
  | none => []
  | some P =>
    if !windowIsParent F pwinParent P && !(decide (pwinParent = P) && inclusive) then []
    else if exclude.window?.any fun e => windowIsParent F e P || windowIsParent F P e then []
    else
      let stopAt := if inclusive then F.parent pwinParent else some pwinParent
      ((P :: F.ancestors P).takeWhile fun v => decide (some v ≠ stopAt)).map fun v => ⟨focusOut,mode,pointer,v⟩

def coreFocusInRecurse (stopAt : W) (mode : ℕ) (inclusive : Bool) : List W → List (FocusEvent W)
  | [] => []
  | win :: rest =>
    if !inclusive && decide (win = stopAt) then []
    else coreFocusInRecurse stopAt mode inclusive rest ++ [⟨focusIn,mode,pointer,win⟩]

/-- FocusIn with detail Pointer from the given window down to the paired pointer's. -/
def coreFocusInNotifyPointerEvents (pwinParent : W) (exclude : Option W) (mode : ℕ) (inclusive : Bool) :
    List (FocusEvent W) :=
  match pointerWindows dev.pointer with
  | none => []
  | some P =>
    if decide (some P = exclude) || !(decide (pwinParent = P) || windowIsParent F pwinParent P) then []
    else if exclude.any fun e => windowIsParent F e P || windowIsParent F P e then []
    else coreFocusInRecurse pwinParent mode inclusive (P :: F.ancestors P)

/-- The end of the change in a window that gets the focus and whose old focus was not around it. -/
def coreFocusNonLinearIn (B : W) (mode : ℕ) : List (FocusEvent W) :=
  if hasFocus focusWindows B then []
  else
    match firstFocusChild F focusWindows B with
    | some child =>
      ⟨focusIn,mode,inferior,B⟩ :: coreFocusInNotifyPointerEvents F dev pointerWindows B (some child) mode false
    | none => ⟨focusIn,mode,nonlinear,B⟩ :: coreFocusInNotifyPointerEvents F dev pointerWindows B none mode false

/-- From A to B when neither is above the other. -/
def coreFocusNonLinear (A B : W) (mode : ℕ) : List (FocusEvent W) :=
  let X := commonAncestor F A B
  let leave :=
    if hasFocus focusWindows A then []
    else
      match firstFocusChild F focusWindows A with
      | some child =>
        coreFocusOutNotifyPointerEvents F dev pointerWindows A (.window child) mode false ++
          [⟨focusOut,mode,inferior,A⟩]
      | none =>
        coreFocusOutNotifyPointerEvents F dev pointerWindows A .noneWin mode false ++ [⟨focusOut,mode,nonlinear,A⟩]
  leave ++ coreFocusOutEvents F focusWindows A X mode nonlinearVirtual ++
    coreFocusInEvents F focusWindows X B mode nonlinearVirtual ++
    coreFocusNonLinearIn F dev pointerWindows focusWindows B mode

/-- From A to its ancestor B. -/
def coreFocusToAncestor (A B : W) (mode : ℕ) : List (FocusEvent W) :=
  let leave :=
    if hasFocus focusWindows A then []
    else
      match firstFocusChild F focusWindows A with
      | some child =>
        coreFocusOutNotifyPointerEvents F dev pointerWindows A (.window child) mode false ++
          [⟨focusOut,mode,inferior,A⟩]
      | none => [⟨focusOut,mode,ancestor,A⟩]
  let enter :=
    if hasFocus focusWindows B then []
    else ⟨focusIn,mode,inferior,B⟩ :: coreFocusInNotifyPointerEvents F dev pointerWindows B (some A) mode false
  leave ++ coreFocusOutEvents F focusWindows A (some B) mode virtual ++ enter

/-- From A to its descendant B. -/
def coreFocusToDescendant (A B : W) (mode : ℕ) : List (FocusEvent W) :=
  let leave :=
    if hasFocus focusWindows A then []
    else
      coreFocusOutNotifyPointerEvents F dev pointerWindows A (.window B) mode false ++ [⟨focusOut,mode,inferior,A⟩]
  let enter :=
    if hasFocus focusWindows B then []
    else
      match firstFocusChild F focusWindows B with
      | some child =>
        ⟨focusIn,mode,inferior,B⟩ :: coreFocusInNotifyPointerEvents F dev pointerWindows B (some child) mode false
      | none => [⟨focusIn,mode,ancestor,B⟩]
  leave ++ coreFocusInEvents F focusWindows (some A) B mode virtual ++ enter

def hasOtherPointer (win : W) (exclude : Fin n) : Bool :=
  (List.finRange n).any fun i => decide (i ≠ exclude ∧ pointerWindows i = some win)

def noWindowDetail (A : FocusWin W) : NotifyDetail := if A = .noneWin then detailNone else pointerRoot

def coreFocusLeavePointerRoot (B : FocusWin W) (root : W) (mode : ℕ) (ofRoot : W → Bool) : List (FocusEvent W) :=
  if decide (dev.focus = some .pointerRootWin) && decide (B ≠ .pointerRootWin) &&
      (pointerWindows dev.pointer).any ofRoot then
    coreFocusOutNotifyPointerEvents F dev pointerWindows root .noneWin mode true
  else []

def coreFocusPointerRootNoneSwitchScr (A B : FocusWin W) (mode : ℕ) (root : W) : List (FocusEvent W) :=
  if hasOtherPointer pointerWindows root dev.pointer || (firstFocusChild F focusWindows root).isSome then []
  else
    coreFocusLeavePointerRoot F dev pointerWindows B root mode (windowIsParent F root) ++
      [⟨focusOut,mode,noWindowDetail A,root⟩,⟨focusIn,mode,noWindowDetail B,root⟩] ++
      if B = .pointerRootWin then coreFocusInNotifyPointerEvents F dev pointerWindows root none mode true else []

/-- From PointerRoot to None or from None to PointerRoot. -/
def coreFocusPointerRootNoneSwitch (roots : List W) (A B : FocusWin W) (mode : ℕ) : List (FocusEvent W) :=
  roots.flatMap (coreFocusPointerRootNoneSwitchScr F dev pointerWindows focusWindows A B mode)

def coreFocusToPointerRootOrNoneScr (B : FocusWin W) (mode : ℕ) (root : W) : List (FocusEvent W) :=
  if hasFocus focusWindows root || (firstFocusChild F focusWindows root).isSome then []
  else
    ⟨focusIn,mode,noWindowDetail B,root⟩ ::
      if B = .pointerRootWin then coreFocusInNotifyPointerEvents F dev pointerWindows root none mode true else []

/-- From window A to PointerRoot or None. -/
def coreFocusToPointerRootOrNone (roots : List W) (A : W) (B : FocusWin W) (mode : ℕ) : List (FocusEvent W) :=
  let leave :=
    if hasFocus focusWindows A then []
    else
      match firstFocusChild F focusWindows A with
      | some _ => coreFocusOutNotifyPointerEvents F dev pointerWindows A B mode false ++ [⟨focusOut,mode,inferior,A⟩]
      | none =>
        coreFocusOutNotifyPointerEvents F dev pointerWindows A .noneWin mode false ++ [⟨focusOut,mode,nonlinear,A⟩]
  leave ++ coreFocusOutEvents F focusWindows A none mode nonlinearVirtual ++
    roots.flatMap (coreFocusToPointerRootOrNoneScr F dev pointerWindows focusWindows B mode)

def coreFocusFromPointerRootOrNoneScr (A B : FocusWin W) (mode : ℕ) (root : W) : List (FocusEvent W) :=
  if hasFocus focusWindows root || (firstFocusChild F focusWindows root).isSome then []
  else
    coreFocusLeavePointerRoot F dev pointerWindows B root mode (fun _ => true) ++
      [⟨focusOut,mode,noWindowDetail A,root⟩]

def coreFocusFromPointerRootOrNone (roots : List W) (A : FocusWin W) (B : W) (mode : ℕ) : List (FocusEvent W) :=
  let root := F.root B
  let enter :=
    if B ≠ root then
      ⟨focusIn,mode,nonlinearVirtual,root⟩ :: coreFocusInEvents F focusWindows (some root) B mode nonlinearVirtual
    else []
  roots.flatMap (coreFocusFromPointerRootOrNoneScr F dev pointerWindows focusWindows A (.window B) mode) ++ enter ++
    coreFocusNonLinearIn F dev pointerWindows focusWindows B mode

end Keyboard

def coreFocusEvents (F : Forest W) (roots : List W) (dev : KeyboardDevice n W) (pointerWindows : PointerWindows n W)
    (src dst : FocusWin W) (mode : ℕ) (focusWindows : FocusWindows n W) : FocusWindows n W × List (FocusEvent W) :=
  if !dev.isMaster then (focusWindows,[])
  else
    let focusWindows := setFocusOut dev focusWindows
    let events :=
      match src, dst with
      | .window A, .window B =>
        if windowIsParent F A B then coreFocusToDescendant F dev pointerWindows focusWindows A B mode
        else if windowIsParent F B A then coreFocusToAncestor F dev pointerWindows focusWindows A B mode
        else coreFocusNonLinear F dev pointerWindows focusWindows A B mode
      | .window A, B => coreFocusToPointerRootOrNone F dev pointerWindows focusWindows roots A B mode
      | A, .window B => coreFocusFromPointerRootOrNone F dev pointerWindows focusWindows roots A B mode
      | A, B => coreFocusPointerRootNoneSwitch F dev pointerWindows focusWindows roots A B mode
    (setFocusIn dev dst focusWindows,events)

end Xlibre.Dix.Crossing
