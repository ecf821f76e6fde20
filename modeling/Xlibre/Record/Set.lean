import Mathlib.Algebra.Group.Nat.Defs
import Mathlib.Algebra.Group.Int.Defs
import Mathlib.Data.Int.Basic
import Xlibre.Lib.Runs

/-! The sets of the RECORD extension: a bit vector or a sorted list of intervals, whichever is smaller. -/
namespace Xlibre.Record

open Xlibre.Lib.Runs

abbrev RecordSetInterval := Lib.Runs.Interval

/-- A `CARD16` field of an interval. -/
def toCard16 (k : ℤ) : ℕ := (k%2^16).toNat

/-- The sizes that depend on the machine: of an `unsigned long`, of the header of either kind of set, and the
alignment of both. -/
structure Machine where
  sizeofLong : ℕ
  sizeofSet : ℕ
  alignment : ℕ
  longPos : 0 < sizeofLong

def Machine.bitsPerLong (mc : Machine) : ℕ := mc.sizeofLong*8

lemma Machine.bitsPos (mc : Machine) : 0 < mc.bitsPerLong := Nat.mul_pos mc.longPos (by decide)

def maxMemberInInterval (pIntervals : List RecordSetInterval) : ℤ :=
  pIntervals.foldl (fun maxMember i => if maxMember < i.last then i.last else maxMember) (-1)

section BitVector

/-- `BitVectorSet` with the bit vector that follows it. -/
structure BitVectorSet (w : ℕ) where
  maxMember : ℤ
  pbitvec : List (BitVec w)

variable {w : ℕ}

/-- `BitVectorIsMemberOfSet`; `none` when it reads outside of the bit vector. -/
def bitVectorIsMemberOfSet (pbvs : BitVectorSet w) (pm : ℕ) : Option Bool :=
  if (pm : ℤ) > pbvs.maxMember then some false
  else do
    let bits ← pbvs.pbitvec[pm/w]?
    some (decide (bits &&& (1#w <<< (pm%w)) ≠ 0))

/-- The loop of `BitVectorFindBit` over whole words; the list is what `pbitvec` points to. -/
def skipWords (maxMember : ℤ) (skipval : BitVec w) : List (BitVec w) → ℕ → Option (List (BitVec w) × ℕ)
  | [],startbit => if (startbit : ℤ) ≤ maxMember then none else some ([],startbit)
  | bits::rest,startbit =>
    if (startbit : ℤ) ≤ maxMember ∧ bits = skipval then skipWords maxMember skipval rest (startbit+w)
    else some (bits::rest,startbit)

/-- The loop of `BitVectorFindBit` inside a word, with the bits left to look at. -/
def walkBits (bits : BitVec w) (bitval : Bool) : ℕ → ℕ → ℕ
  | 0,walkbit => walkbit
  | k+1,walkbit =>
    if decide (bits &&& (1#w <<< walkbit) = 0) = bitval then walkBits bits bitval k (walkbit+1) else walkbit

def bitVectorFindBit (pbvs : BitVectorSet w) (iterbit : ℕ) (bitval : Bool) : Option ℤ :=
  let startlong := iterbit/w
  let startbit := startlong*w
  let skipval : BitVec w := if bitval then 0 else BitVec.allOnes w
  if (startbit : ℤ) > pbvs.maxMember then some (-1)
  else do
    let bits ← pbvs.pbitvec[startlong]?
    let usefulbits : BitVec w := ~~~((1#w <<< (iterbit-startbit))-1#w)
    let (pbitvec,startbit) ←
      if bits &&& usefulbits = skipval &&& usefulbits then
        skipWords pbvs.maxMember skipval (pbvs.pbitvec.drop (startlong+1)) (startbit+w)
      else some (pbvs.pbitvec.drop startlong,startbit)
    if (startbit : ℤ) > pbvs.maxMember then some (-1)
    else
      let walkbit := if startbit < iterbit then iterbit-startbit else 0
      let bits ← pbitvec.head?
      some (startbit+walkBits bits bitval (w-walkbit) walkbit : ℕ)

/-- `BitVectorIterateSet`; the inner `none` is the null pointer. -/
def bitVectorIterateSet (pbvs : BitVectorSet w) (pIter : ℕ) : Option (Option (RecordSetInterval × ℕ)) := do
  let b ← bitVectorFindBit pbvs pIter true
  if b = -1 then some none
  else
    let first := toCard16 b
    let b ← bitVectorFindBit pbvs b.toNat false
    let last := toCard16 (if b < 0 then pbvs.maxMember else b-1)
    some (some (⟨first,last⟩,last+1))

/-- One bit of `BitVectorCreateSet`. -/
def setMember (pbitvec : List (BitVec w)) (j : ℕ) : Option (List (BitVec w)) :=
  if j/w < pbitvec.length then some (pbitvec.modify (j/w) (· ||| 1#w <<< (j%w))) else none

/-- The words of a bit vector. -/
def numLongs (w : ℕ) (maxMember : ℤ) : ℕ := ((maxMember+w)/w).toNat

/-- `BitVectorCreateSet`; `none` when it writes outside of the bit vector. -/
def bitVectorCreateSet (w : ℕ) (pIntervals : List RecordSetInterval) : Option (BitVectorSet w) := do
  let maxMember := maxMemberInInterval pIntervals
  let pbitvec ← pIntervals.foldlM (fun v i => (List.range' i.first (i.last+1-i.first)).foldlM setMember v)
    (List.replicate (numLongs w maxMember) 0)
  some ⟨maxMember,pbitvec⟩

end BitVector

section IntervalList

/-- The search of `IntervalListIsMemberOfSet` between `lo` and `hi`; `none` when it reads outside of the list. -/
def searchIntervals (pInterval : List RecordSetInterval) (pm : ℕ) (lo hi : ℤ) : Option Bool :=
  if lo ≤ hi then
    let probe := (hi+lo)/2
    match pInterval[probe.toNat]? with
    | none => none
    | some i =>
      if pm ≥ i.first ∧ pm ≤ i.last then some true
      else if pm < i.first then searchIntervals pInterval pm lo (probe-1)
      else searchIntervals pInterval pm (probe+1) hi
  else some false
termination_by (hi+1-lo).toNat

def intervalListIsMemberOfSet (prls : List RecordSetInterval) (pm : ℕ) : Option Bool :=
  searchIntervals prls pm 0 (prls.length-1)

/-- `IntervalListIterateSet`; a pointer is the index of what it points to, and the null pointer is 0. -/
def intervalListIterateSet (prls : List RecordSetInterval) (pIter : ℕ) : Option (Option (RecordSetInterval × ℕ)) :=
  if pIter < prls.length then do
    let i ← prls[pIter]?
    some (some (i,pIter+1))
  else some none

def insertInterval (stackIntervals : List RecordSetInterval) (i : RecordSetInterval) : List RecordSetInterval :=
  match stackIntervals with
  | [] => [i]
  | s::rest => if i.first < s.first then i::s::rest else s::insertInterval rest i

/-- The merge loop of `IntervalListCreateSet`, with the interval at `i` and those behind it. -/
def mergeIntervals (i : RecordSetInterval) : List RecordSetInterval → List RecordSetInterval
  | [] => [i]
  | next::rest =>
    if i.last+1 < next.first then i::mergeIntervals next rest
    else mergeIntervals { i with last := max i.last next.last } rest

def intervalListCreateSet (pIntervals : List RecordSetInterval) : List RecordSetInterval :=
  match pIntervals.foldl insertInterval [] with
  | [] => []
  | i::rest => mergeIntervals i rest

end IntervalList

/-- `RecordSetRec` of either kind. -/
inductive RecordSet (w : ℕ)
  | bitVector (pbvs : BitVectorSet w)
  | intervalList (prls : List RecordSetInterval)

/-- `RecordIsMemberOfSet`. -/
def RecordSet.isMemberOfSet {w : ℕ} : RecordSet w → ℕ → Option Bool
  | .bitVector pbvs => bitVectorIsMemberOfSet pbvs
  | .intervalList prls => intervalListIsMemberOfSet prls

/-- `RecordIterateSet`. -/
def RecordSet.iterateSet {w : ℕ} : RecordSet w → ℕ → Option (Option (RecordSetInterval × ℕ))
  | .bitVector pbvs => bitVectorIterateSet pbvs
  | .intervalList prls => intervalListIterateSet prls

def bitVectorSetMemoryRequirements (mc : Machine) (maxMember : ℤ) : ℕ :=
  mc.sizeofSet+numLongs mc.bitsPerLong maxMember*mc.sizeofLong

/-- `IntervalListMemoryRequirements`; an interval takes four bytes. -/
def intervalListMemoryRequirements (mc : Machine) (nIntervals : ℕ) : ℕ := mc.sizeofSet+nIntervals*4

/-- `_RecordSetMemoryRequirements`: the size, and whether it is that of a bit vector. -/
def recordSetMemoryRequirements (mc : Machine) (pIntervals : List RecordSetInterval) : ℕ × Bool :=
  let maxMember := maxMemberInInterval pIntervals
  let bmsize := bitVectorSetMemoryRequirements mc maxMember
  let rlsize := intervalListMemoryRequirements mc pIntervals.length
  if (pIntervals.length > 1 ∧ maxMember ≤ 255) ∨ bmsize < rlsize then (bmsize,true) else (rlsize,false)

def memoryFits (mc : Machine) (size : ℕ) : Option (ℕ × ℤ) → Bool
  | none => true
  | some (pMem,memsize) => decide (pMem &&& (mc.alignment-1) = 0) && decide ((size : ℤ) ≤ memsize)

/-- `RecordCreateSet` for memory with its size, or none; the inner `none` is the null pointer. -/
def recordCreateSet (mc : Machine) (pIntervals : List RecordSetInterval) (pMem : Option (ℕ × ℤ)) :
    Option (Option (RecordSet mc.bitsPerLong)) :=
  let (size,isBitVector) := recordSetMemoryRequirements mc pIntervals
  if memoryFits mc size pMem = false then some none
  else if isBitVector then do
    let pbvs ← bitVectorCreateSet mc.bitsPerLong pIntervals
    some (some (.bitVector pbvs))
  else some (some (.intervalList (intervalListCreateSet pIntervals)))

/-- The intervals that `IterateSet` returns from `pIter` on until it returns the null pointer. -/
inductive Iterates {w : ℕ} (pSet : RecordSet w) : ℕ → List RecordSetInterval → Prop
  | done {pIter : ℕ} : pSet.iterateSet pIter = some none → Iterates pSet pIter []
  | next {pIter pIter' : ℕ} {i : RecordSetInterval} {l : List RecordSetInterval} :
    pSet.iterateSet pIter = some (some (i,pIter')) → Iterates pSet pIter' l → Iterates pSet pIter (i::l)

end Xlibre.Record
