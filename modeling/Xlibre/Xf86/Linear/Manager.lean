import Mathlib.Algebra.Group.Nat.Defs
import Mathlib.Algebra.Group.Int.Defs
import Xlibre.Lib.Tiling
import Xlibre.Lib.Checked

/-! Linear blocks of offscreen memory: `AllocateLinear`, `localFreeOffscreenLinear`, and the links that stand for areas. -/
namespace Xlibre.Xf86.Linear
open Xlibre.Lib

inductive Fault
  | signedOverflow
  | notEnabled
  deriving DecidableEq, Repr

/-- A result of `int` arithmetic. -/
def int (x : ℤ) : Except Fault ℤ := if -2^31 ≤ x ∧ x < 2^31 then .ok x else .error .signedOverflow

structure FBLinearLink where
  id : ℕ
  offset : ℤ
  size : ℤ
  granularity : ℤ
  free : Bool
  area : Bool
  deriving DecidableEq, Repr

/-- The list, and the address that the next allocation of a link returns. -/
structure FBManager where
  linearAreas : List FBLinearLink
  next : ℕ

/-- `((offset + granularity - 1) / granularity) * granularity`. -/
def roundUp (offset granularity : ℤ) : Except Fault ℤ := do
  let sum ← int (offset + granularity)
  let sum ← int (sum - 1)
  int (sum.tdiv granularity * granularity)

def firstOffset (offset granularity : ℤ) : Except Fault ℤ :=
  if granularity > 1 then roundUp offset granularity else .ok offset

/-- Where in a link a block of the size goes, if it fits. -/
def place (size granularity : ℤ) (linear : FBLinearLink) : Except Fault (Option ℤ) :=
  if !linear.area && linear.free then do
    let offset ← firstOffset linear.offset granularity
    let last ← int (offset + size)
    let limit ← int (linear.offset + linear.size)
    return if last ≤ limit then some offset else none
  else .ok none

/-- The first link that the block fits in, where it goes there, and the links before and after. -/
def search (size granularity : ℤ) :
    List FBLinearLink → Except Fault (Option (List FBLinearLink × FBLinearLink × ℤ × List FBLinearLink))
  | [] => .ok none
  | linear::rest => do
    match ← place size granularity linear with
    | some offset => return some ([],linear,offset,rest)
    | none => return (← search size granularity rest).map fun found => (linear::found.1,found.2)

namespace FBManager

/-- The block gets its link of its own out of the one that it was found in. -/
def breakUp (σ : FBManager) (size granularity : ℤ) :
    List FBLinearLink × FBLinearLink × ℤ × List FBLinearLink → FBLinearLink × FBManager
  | (before,linear,offset,after) =>
    -- break left
    let (before,linear,next) :=
      if offset > linear.offset then
        let newlink := ⟨σ.next,offset,linear.size - (offset - linear.offset),0,true,false⟩
        (before ++ [{ linear with size := linear.size - newlink.size }],newlink,σ.next+1)
      else (before,linear,σ.next)
    -- break right
    let (linear,after,next) :=
      if size < linear.size then
        let newlink := ⟨next,offset + size,linear.size - size,0,true,false⟩
        ({ linear with size },newlink::after,next+1)
      else (linear,after,next)
    let linear := { linear with granularity, free := false }
    (linear,⟨before ++ linear::after,next⟩)

/-- `AllocateLinear`. Once a link is found the offset and the sizes that come from it cannot overflow. -/
def allocateLinear (σ : FBManager) (size granularity : ℤ) : Except Fault (Option FBLinearLink × FBManager) :=
  if size ≤ 0 then .ok (none,σ)
  else do
    match ← search size granularity σ.linearAreas with
    | none => return (none,σ)
    | some found =>
      let linear := σ.breakUp size granularity found
      return (some linear.1,linear.2)

/-- `localAllocateOffscreenLinear` where the block comes out of an area. -/
def pushArea (σ : FBManager) (offset size granularity : ℤ) : FBManager :=
  ⟨⟨σ.next,offset,size,granularity,false,true⟩::σ.linearAreas,σ.next+1⟩

def mergeNext (pLink : FBLinearLink) : List FBLinearLink → List FBLinearLink
  | [] => [pLink]
  | p::rest => if p.free then { pLink with size := pLink.size + p.size }::rest else pLink::p::rest

def mergePrev : Option FBLinearLink → List FBLinearLink → List FBLinearLink
  | none, after => after
  | some pLinkPrev, [] => [pLinkPrev]
  | some pLinkPrev, p::rest =>
    -- `pLinkPrev->next->free`, where `p` is the link that is being freed
    if p.free && !pLinkPrev.area then { pLinkPrev with size := pLinkPrev.size + p.size }::rest else pLinkPrev::p::rest

def localFreeOffscreenLinear (σ : FBManager) (linear : ℕ) : FBManager :=
  let before := σ.linearAreas.takeWhile (·.id ≠ linear)
  match σ.linearAreas.dropWhile (·.id ≠ linear) with
  | [] => σ
  | pLink::after =>
    if pLink.area then { σ with linearAreas := before ++ after }
    else { σ with
      linearAreas := before.dropLast ++ mergePrev before.getLast? (mergeNext { pLink with free := true } after) }

def linearRemoveCBWrapper (σ : FBManager) (area : ℕ) : FBManager :=
  { σ with linearAreas := σ.linearAreas.eraseP (·.id = area) }

/-- `xf86InitFBManagerLinear`. -/
def initLinear (offset size : ℤ) : FBManager := ⟨[⟨0,offset,size,0,true,false⟩],1⟩

/-- The links that do not stand for areas. -/
def linear (σ : FBManager) : List FBLinearLink := σ.linearAreas.filter (!·.area)

/-- A place in linear memory that is free. -/
def Available (σ : FBManager) (x : ℤ) : Prop :=
  ∃ l ∈ σ.linear, l.free ∧ Tiling.Has FBLinearLink.offset FBLinearLink.size l x

end FBManager

structure Block where
  id : ℕ
  offset : ℤ
  size : ℤ
  requested : ℤ
  granularity : ℤ
  deriving DecidableEq, Repr

/-- A place in a block. -/
def Block.Has (b : Block) (x : ℤ) : Prop := Tiling.Has Block.offset Block.size b x

/-- The manager, and the blocks that were allocated from linear memory and not freed. -/
structure Session where
  manager : FBManager
  held : List Block

/-- A block is allocated or freed; a block that comes out of an area is allocated, freed or taken away. -/
inductive Call
  | allocate (size granularity : ℤ)
  | free (block : Block)
  | allocateArea (offset size granularity : ℤ)
  | freeArea (id : ℕ)
  | removeArea (id : ℕ)

/-- A call can be made: blocks are freed that are held, and areas that there are. -/
def Session.Enabled (σ : Session) : Call → Prop
  | .free block => block ∈ σ.held
  | .freeArea id => ∃ l ∈ σ.manager.linearAreas, l.id = id ∧ l.area
  | .removeArea id => ∃ l ∈ σ.manager.linearAreas, l.id = id ∧ l.area
  | _ => True

instance (σ : Session) (call : Call) : Decidable (σ.Enabled call) :=
  match call with
  | .free block => inferInstanceAs (Decidable (block ∈ σ.held))
  | .freeArea id => inferInstanceAs (Decidable (∃ l ∈ σ.manager.linearAreas, l.id = id ∧ l.area))
  | .removeArea id => inferInstanceAs (Decidable (∃ l ∈ σ.manager.linearAreas, l.id = id ∧ l.area))
  | .allocate _ _ | .allocateArea _ _ _ => .isTrue trivial

def Session.run (σ : Session) : Call → Except Fault Session
  | .allocate size granularity => do
    let (linear,manager) ← σ.manager.allocateLinear size granularity
    return ⟨manager,(linear.map fun l => ⟨l.id,l.offset,l.size,size,granularity⟩).toList ++ σ.held⟩
  | .free block => .ok ⟨σ.manager.localFreeOffscreenLinear block.id,σ.held.erase block⟩
  | .allocateArea offset size granularity => .ok { σ with manager := σ.manager.pushArea offset size granularity }
  | .freeArea id => .ok { σ with manager := σ.manager.localFreeOffscreenLinear id }
  | .removeArea id => .ok { σ with manager := σ.manager.linearRemoveCBWrapper id }

def Session.step (σ : Session) (call : Call) : Except Fault Session :=
  if σ.Enabled call then σ.run call else .error .notEnabled

def Session.initial (offset size : ℤ) : Session := ⟨.initLinear offset size,[]⟩

/-- The states that calls lead to that meet a condition. -/
inductive Reaches (meets : Session → Call → Prop) (offset size : ℤ) : Session → Prop
  | initial : Reaches meets offset size (.initial offset size)
  | step {σ σ' : Session} (call : Call) (h : Reaches meets offset size σ) (hmeets : meets σ call)
      (hstep : σ.step call = .ok σ') : Reaches meets offset size σ'

structure Divided (offset size : ℤ) (σ : Session) : Prop where
  tiles : Tiling.Tiles FBLinearLink.offset FBLinearLink.size offset σ.manager.linear (offset + size)
  kept : ∀ b ∈ σ.held, ∃ l ∈ σ.manager.linear, l.id = b.id ∧ l.free = false ∧ l.offset = b.offset ∧ l.size = b.size
  enough : ∀ b ∈ σ.held, b.requested ≤ b.size
  aligned : ∀ b ∈ σ.held, 1 < b.granularity → b.granularity ∣ b.offset
  available : ∀ x, σ.manager.Available x ↔ (offset ≤ x ∧ x < offset + size) ∧ ∀ b ∈ σ.held, ¬ b.Has x
  whole : σ.held = [] → ∃ l, σ.manager.linear = [l] ∧ l.free ∧ l.offset = offset ∧ l.size = size

/-- A call leaves the blocks as they are that it does not free, and what it frees is available again. -/
def Session.Exact (σ σ' : Session) : Call → Prop
  | .free block => σ'.held = σ.held.erase block ∧
      ∀ x, σ'.manager.Available x ↔ σ.manager.Available x ∨ block.Has x
  | _ => ∀ b ∈ σ.held, b ∈ σ'.held

def firstMultiple (granularity offset : ℤ) : ℤ :=
  if granularity > 1 then (offset + granularity - 1).tdiv granularity * granularity else offset

/-- A block of the size fits in a link. -/
def Room (size granularity : ℤ) (l : FBLinearLink) : Prop :=
  l.area = false ∧ l.free ∧ firstMultiple granularity l.offset + size ≤ l.offset + l.size

instance (size granularity : ℤ) (l : FBLinearLink) : Decidable (Room size granularity l) :=
  inferInstanceAs (Decidable (_ ∧ _))

/-- The ends of a link and of a block that is put there are below 2^31. -/
def InRange (size granularity : ℤ) (l : FBLinearLink) : Prop :=
  (1 < granularity → l.offset + granularity < 2^31) ∧ firstMultiple granularity l.offset + size < 2^31 ∧
    l.offset + l.size < 2^31

/-- The free links up to the first one that the block fits in are in range. -/
def Safe (size granularity : ℤ) (links : List FBLinearLink) : Prop :=
  ∀ before l after, links = before ++ l::after → (∀ b ∈ before, ¬ Room size granularity b) →
    l.area = false → l.free → InRange size granularity l

/-- Nothing overflows, and the link before the one that is freed is free too, unless it stands for an area. -/
def Call.Fits (σ : Session) : Call → Prop
  | .allocate size granularity => 0 < size → Safe size granularity σ.manager.linearAreas
  | .free block => ∀ before pLinkPrev pLink after, σ.manager.linearAreas = before ++ pLinkPrev::pLink::after →
      pLink.id = block.id → pLinkPrev.area ∨ pLinkPrev.free
  | _ => True

end Xlibre.Xf86.Linear

/-! The link that `AllocateLinear` finds, and what it makes of it. -/
namespace Xlibre.Xf86.Linear
open Xlibre.Lib Checked

variable {size granularity offset x : ℤ} {l : FBLinearLink} {links before after : List FBLinearLink}

lemma int_ok (hlow : -2^31 ≤ x) (hhigh : x < 2^31) : int x = .ok x := if_pos ⟨hlow,hhigh⟩

lemma int_error (h : 2^31 ≤ x) : int x = .error .signedOverflow := if_neg (by omega)

lemma rounded_bounds (offset : ℤ) (hpos : 1 < granularity) :
    offset ≤ (offset + granularity - 1).tdiv granularity * granularity ∧
      ((offset + granularity - 1).tdiv granularity * granularity < offset + granularity ∨
        (offset + granularity - 1).tdiv granularity * granularity ≤ 0) := by
  have hparts := Int.tdiv_mul_add_tmod (offset + granularity - 1) granularity
  have hlt := Int.tmod_lt_of_pos (offset + granularity - 1) (b := granularity) (by omega)
  by_cases hnonneg : 0 ≤ offset + granularity - 1
  · have hrest := Int.tmod_nonneg granularity hnonneg
    omega
  · have hneg := Int.neg_tdiv (-(offset + granularity - 1)) granularity
    have hquotient : 0 ≤ (-(offset + granularity - 1)).tdiv granularity := Int.tdiv_nonneg (by omega) (by omega)
    have hproduct := Int.mul_nonneg hquotient (show 0 ≤ granularity by omega)
    have hrest := Int.tmod_nonneg granularity (show 0 ≤ -(offset + granularity - 1) by omega)
    rw [Int.neg_tmod] at hrest
    rw [Int.neg_neg] at hneg
    rw [hneg,Int.neg_mul] at hparts ⊢
    omega

lemma le_firstMultiple (granularity offset : ℤ) : offset ≤ firstMultiple granularity offset := by
  unfold firstMultiple
  split_ifs with h
  · exact (rounded_bounds offset h).1
  · exact le_rfl

lemma dvd_firstMultiple (h : 1 < granularity) : granularity ∣ firstMultiple granularity offset := by
  rw [firstMultiple,if_pos h]
  exact Int.dvd_mul_left _ _

lemma roundUp_ok (hlow : -2^31 ≤ offset) (hpos : 1 < granularity) (h : offset + granularity < 2^31) :
    roundUp offset granularity = .ok (firstMultiple granularity offset) := by
  have hbounds := rounded_bounds offset hpos
  unfold roundUp firstMultiple
  rw [int_ok (by omega) h,if_pos hpos]
  change (int (offset + granularity - 1) >>= _) = _
  rw [int_ok (by omega) (by omega)]
  exact int_ok (by omega) (by omega)

lemma firstOffset_ok (hlow : -2^31 ≤ offset) (h : 1 < granularity → offset + granularity < 2^31) :
    firstOffset offset granularity = .ok (firstMultiple granularity offset) := by
  unfold firstOffset
  split_ifs with hpos
  · exact roundUp_ok hlow hpos (h hpos)
  · rw [firstMultiple,if_neg hpos]

lemma place_skip (h : ¬(l.area = false ∧ l.free)) : place size granularity l = .ok none :=
  if_neg (by simpa using h)

lemma place_ok (hlow : -2^31 ≤ l.offset) (hlen : 0 < l.size) (hsize : 0 < size) (harea : l.area = false) (hfree : l.free)
    (h : InRange size granularity l) : place size granularity l =
      .ok (if Room size granularity l then some (firstMultiple granularity l.offset) else none) := by
  have hle := le_firstMultiple granularity l.offset
  unfold place
  rw [if_pos (by simp [harea,hfree]),firstOffset_ok hlow h.1]
  change (int (firstMultiple granularity l.offset + size) >>= _) = _
  rw [int_ok (by omega) h.2.1]
  change (int (l.offset + l.size) >>= _) = _
  rw [int_ok (by omega) h.2.2]
  change Except.ok _ = _
  congr 1
  simp [Room,harea,hfree]

lemma place_error (hlow : -2^31 ≤ l.offset) (hsize : 0 < size) (harea : l.area = false) (hfree : l.free)
    (h : ¬ InRange size granularity l) : place size granularity l = .error .signedOverflow := by
  have hle := le_firstMultiple granularity l.offset
  unfold place
  rw [if_pos (by simp [harea,hfree])]
  by_cases hsum : 1 < granularity → l.offset + granularity < 2^31
  · rw [firstOffset_ok hlow hsum]
    change (int (firstMultiple granularity l.offset + size) >>= _) = _
    by_cases hlast : firstMultiple granularity l.offset + size < 2^31
    · rw [int_ok (by omega) hlast]
      change (int (l.offset + l.size) >>= _) = _
      rw [int_error (not_lt.1 fun hlimit => h ⟨hsum,hlast,hlimit⟩)]
      rfl
    · rw [int_error (not_lt.1 hlast)]
      rfl
  · push Not at hsum
    rw [firstOffset,if_pos hsum.1,roundUp,int_error hsum.2]
    rfl

lemma search_safe (hlow : ∀ l ∈ links, l.area = false → -2^31 ≤ l.offset ∧ 0 < l.size) (hsize : 0 < size)
    (h : Safe size granularity links) :
    search size granularity links = .ok none ∨
      ∃ before l after, links = before ++ l::after ∧ Room size granularity l ∧
        search size granularity links = .ok (some (before,l,firstMultiple granularity l.offset,after)) := by
  induction links with
  | nil => exact .inl rfl
  | cons l links ih =>
    have htail (hroom : ¬ Room size granularity l) : Safe size granularity links := by
      intro before c after heq hbefore
      exact h (l::before) c after (by rw [heq]; rfl) (List.forall_mem_cons.2 ⟨hroom,hbefore⟩)
    -- a link that the block does not fit in is passed over
    have hpass (hplace : place size granularity l = .ok none) (hroom : ¬ Room size granularity l) :
        search size granularity (l::links) = .ok none ∨ ∃ before c after, l::links = before ++ c::after ∧
          Room size granularity c ∧ search size granularity (l::links) =
            .ok (some (before,c,firstMultiple granularity c.offset,after)) := by
      obtain hnone | ⟨before,c,after,heq,hc,hsome⟩ := ih (fun c hc => hlow c (List.mem_cons_of_mem l hc)) (htail hroom)
      · refine .inl ?_
        rw [search,hplace]
        change (search size granularity links >>= _) = _
        rw [hnone]
        rfl
      · refine .inr ⟨l::before,c,after,by rw [heq]; rfl,hc,?_⟩
        rw [search,hplace]
        change (search size granularity links >>= _) = _
        rw [hsome]
        rfl
    by_cases husable : l.area = false ∧ l.free
    · obtain ⟨hlowl,hlenl⟩ := hlow l List.mem_cons_self husable.1
      have hplace := place_ok hlowl hlenl hsize husable.1 husable.2
        (h [] l links rfl (by simp) husable.1 husable.2)
      by_cases hroom : Room size granularity l
      · rw [if_pos hroom] at hplace
        refine .inr ⟨[],l,links,rfl,hroom,?_⟩
        rw [search,hplace]
        rfl
      · rw [if_neg hroom] at hplace
        exact hpass hplace hroom
    · exact hpass (place_skip husable) fun hroom => husable ⟨hroom.1,hroom.2.1⟩

lemma search_overflow (hlow : ∀ l ∈ links, l.area = false → -2^31 ≤ l.offset ∧ 0 < l.size) (hsize : 0 < size)
    (h : ¬ Safe size granularity links) : search size granularity links = .error .signedOverflow := by
  unfold Safe at h
  push Not at h
  obtain ⟨before,l,after,heq,hbefore,harea,hfree,hrange⟩ := h
  induction before generalizing links with
  | nil =>
    subst heq
    rw [List.nil_append,search,place_error (hlow l List.mem_cons_self harea).1 hsize harea hfree hrange]
    rfl
  | cons c before ih =>
    subst heq
    have hroom := hbefore c List.mem_cons_self
    have hrest : search size granularity (before ++ l::after) = .error .signedOverflow :=
      ih (fun b hb => hlow b (List.mem_cons_of_mem c hb)) rfl fun b hb => hbefore b (List.mem_cons_of_mem c hb)
    rw [List.cons_append,search]
    -- the link before is passed over, or overflows itself
    by_cases husable : c.area = false ∧ c.free
    · obtain ⟨hlowc,hlenc⟩ := hlow c List.mem_cons_self husable.1
      by_cases hrange : InRange size granularity c
      · rw [place_ok hlowc hlenc hsize husable.1 husable.2 hrange,if_neg hroom]
        change (search size granularity (before ++ l::after) >>= _) = _
        rw [hrest]
        rfl
      · rw [place_error hlowc hsize husable.1 husable.2 hrange]
        rfl
    · rw [place_skip husable]
      change (search size granularity (before ++ l::after) >>= _) = _
      rw [hrest]
      rfl

end Xlibre.Xf86.Linear
