import Xlibre.Mi.Poly.Bres

/-! `miFillGeneralPoly`: the edge table, the active edge table and its winding links, and the spans sent out. -/
namespace Xlibre.Mi.Poly

/-- An `EdgeTableEntry`: the header of the active edge table, or one of the `pETEs`. -/
inductive Node
  | aet
  | ete (i : ℕ)
  deriving DecidableEq, Repr

/-- The fields of all `EdgeTableEntry`s. -/
structure Heap where
  ymax : Node → ℤ
  bres : Node → BresInfo
  next : Node → Option Node
  back : Node → Option Node
  nextWETE : Node → Option Node
  clockWise : Node → Bool

namespace Heap

variable (h : Heap)

/-- `bres.minor` -/
def minor (n : Node) : ℤ := (h.bres n).minor

def setNext (n : Node) (v : Option Node) : Heap := { h with next := Function.update h.next n v }

def setBack (n : Node) (v : Option Node) : Heap := { h with back := Function.update h.back n v }

def setWETE (n : Node) (v : Option Node) : Heap := { h with nextWETE := Function.update h.nextWETE n v }

def setBres (n : Node) (b : BresInfo) : Heap := { h with bres := Function.update h.bres n b }

end Heap

/-- `DDXPointRec` -/
structure Point where
  x : ℤ
  y : ℤ
  deriving DecidableEq, Repr

/-- `ScanLineList`; the list of them is a Lean list. -/
structure ScanLineList where
  scanline : ℤ
  edgelist : Option Node
  deriving DecidableEq, Repr

/-- `EdgeTable`, and `nETEs` of the entries in use. -/
structure EdgeTable where
  ymax : ℤ
  ymin : ℤ
  scanlines : List ScanLineList
  nETEs : ℕ
  deriving Repr

/-- `MININT` and `MAXINT` -/
def minInt : ℤ := -2^31

def maxInt : ℤ := 2^31-1

/-- The search for the place of an edge in its bucket: `prev` and `start`. -/
def bucketPlace (h : Heap) (ete : Node) : ℕ → Option Node → Option Node → Option (Option Node × Option Node)
  | 0, _, _ => none
  | _+1, prev, none => some (prev,none)
  | n+1, prev, some start =>
    if h.minor start < h.minor ete then bucketPlace h ete n (some start) (h.next start)
    else some (prev,some start)

/-- Inserts an edge into the bucket `edgelist`. -/
def insertInBucket (fuel : ℕ) (h : Heap) (edgelist : Option Node) (ete : Node) : Option (Heap × Option Node) := do
  let (prev,start) ← bucketPlace h ete fuel none edgelist
  let h := h.setNext ete start
  match prev with
  | some p => some (h.setNext p (some ete),edgelist)
  | none => some (h,some ete)

/-- `miInsertEdgeInET`: the bucket of the scanline is found or made, and the edge put into it. -/
def miInsertEdgeInET (fuel : ℕ) (h : Heap) (ete : Node) (scanline : ℤ) : List ScanLineList → Option (Heap × List ScanLineList)
  | [] => do
    let (h,edgelist) ← insertInBucket fuel h none ete
    some (h,[⟨scanline,edgelist⟩])
  | pSLL::rest =>
    if pSLL.scanline < scanline then do
      let (h,rest) ← miInsertEdgeInET fuel h ete scanline rest
      some (h,pSLL::rest)
    else if pSLL.scanline > scanline then do
      let (h,edgelist) ← insertInBucket fuel h none ete
      some (h,⟨scanline,edgelist⟩::pSLL::rest)
    else do
      let (h,edgelist) ← insertInBucket fuel h pSLL.edgelist ete
      some (h,⟨scanline,edgelist⟩::rest)

/-- The loop of `miCreateETandAET` over the points. -/
def addEdges (fuel : ℕ) : Point → List Point → Heap → EdgeTable → Option (Heap × EdgeTable)
  | _, [], h, ET => some (h,ET)
  | prevPt, currPt::pts, h, ET =>
    let ete := Node.ete ET.nETEs
    let clockWise := !decide (prevPt.y > currPt.y)
    let bottom := if prevPt.y > currPt.y then prevPt else currPt
    let top := if prevPt.y > currPt.y then currPt else prevPt
    let h := { h with clockWise := Function.update h.clockWise ete clockWise }
    -- don't add horizontal edges to the Edge table
    if bottom.y ≠ top.y then do
      let dy := bottom.y-top.y
      let h := { h with ymax := Function.update h.ymax ete (bottom.y-1) }
      let h := h.setBres ete (bresInitPgon dy top.x bottom.x)
      let (h,scanlines) ← miInsertEdgeInET fuel h ete top.y ET.scanlines
      addEdges fuel currPt pts h ⟨max ET.ymax prevPt.y,min ET.ymin prevPt.y,scanlines,ET.nETEs+1⟩
    else addEdges fuel currPt pts h ET

/-- The entries before the edges are filled in: `calloc` has cleared them, and the header's `minor` is `MININT`. -/
def initHeap : Heap where
  ymax _ := 0
  bres n := ⟨if n = .aet then minInt else 0,0,0,0,0,0⟩
  next _ := none
  back _ := none
  nextWETE _ := none
  clockWise _ := false

def miCreateETandAET (fuel : ℕ) (pts : List Point) : Option (Heap × EdgeTable) := do
  let last ← pts.getLast?
  addEdges fuel last pts initHeap ⟨minInt,maxInt,[],0⟩

/-- `miloadAET`: the two loops as one, `AET` running on until the first entry of `ETEs` belongs before it. -/
def miloadAET : ℕ → Heap → Node → Option Node → Option Node → Option Heap
  | 0, _, _, _, _ => none
  | _+1, h, _, _, none => some h
  | n+1, h, pPrevAET, none, some ete =>
    let tmp := h.next ete
    let h := h.setNext ete none
    let h := h.setBack ete (some pPrevAET)
    let h := h.setNext pPrevAET (some ete)
    miloadAET n h ete none tmp
  | n+1, h, pPrevAET, some a, some ete =>
    if h.minor a < h.minor ete then miloadAET n h a (h.next a) (some ete)
    else
      let tmp := h.next ete
      let h := h.setNext ete (some a)
      let h := h.setBack a (some ete)
      let h := h.setBack ete (some pPrevAET)
      let h := h.setNext pPrevAET (some ete)
      miloadAET n h ete (some a) tmp

/-- The loop of `micomputeWAET`. -/
def windingLoop : ℕ → Heap → (inside : Bool) → (isInside : ℤ) → (pWETE : Node) → Option Node → Option Heap
  | 0, _, _, _, _, _ => none
  | _+1, h, _, _, pWETE, none => some (h.setWETE pWETE none)
  | n+1, h, inside, isInside, pWETE, some a =>
    let isInside := if h.clockWise a then isInside+1 else isInside-1
    if (!inside && isInside == 0) || (inside && isInside != 0) then
      windingLoop n (h.setWETE pWETE (some a)) (!inside) isInside a (h.next a)
    else windingLoop n h inside isInside pWETE (h.next a)

def micomputeWAET (fuel : ℕ) (h : Heap) : Option Heap :=
  windingLoop fuel (h.setWETE .aet none) true 0 .aet (h.next .aet)

/-- `while (pETEchase->back->bres.minor > AET->bres.minor)`; following a `NULL` fails. -/
def chase (h : Heap) (key : ℤ) : ℕ → Node → Option Node
  | 0, _ => none
  | n+1, pETEchase => do
    let b ← h.back pETEchase
    if h.minor b > key then chase h key n b else some pETEchase

/-- The loop of `miInsertionSort`. -/
def sortLoop (fuel : ℕ) : ℕ → Heap → (changed : Bool) → Option Node → Option (Heap × Bool)
  | 0, _, _, _ => none
  | _+1, h, changed, none => some (h,changed)
  | n+1, h, changed, some pETEinsert => do
    let pETEchase ← chase h (h.minor pETEinsert) fuel pETEinsert
    let aet := h.next pETEinsert
    if pETEchase ≠ pETEinsert then do
      let pETEchaseBackTMP ← h.back pETEchase
      let insertBack ← h.back pETEinsert
      let h := h.setNext insertBack aet
      let h := match aet with
        | some a => h.setBack a (some insertBack)
        | none => h
      let h := h.setNext pETEinsert (some pETEchase)
      let h := h.setNext pETEchaseBackTMP (some pETEinsert)
      let h := h.setBack pETEchase (some pETEinsert)
      let h := h.setBack pETEinsert (some pETEchaseBackTMP)
      sortLoop fuel n h true aet
    else sortLoop fuel n h changed aet

def miInsertionSort (fuel : ℕ) (h : Heap) : Option (Heap × Bool) := sortLoop fuel fuel h false (h.next .aet)

/-- `EVALUATEEDGEWINDING` and `EVALUATEEDGEEVENODD`: the heap, `pAET`, `pPrevAET`, and whether the edge was left. -/
def evaluateEdge (h : Heap) (pAET pPrevAET : Node) (y : ℤ) : Heap × Option Node × Node × Bool :=
  if h.ymax pAET = y then
    let h := h.setNext pPrevAET (h.next pAET)
    match h.next pPrevAET with
    | some a => (h.setBack a (some pPrevAET),some a,pPrevAET,true)
    | none => (h,none,pPrevAET,true)
  else
    let h := h.setBres pAET (bresIncrPgon (h.bres pAET))
    (h,h.next pAET,pAET,false)

/-- A span: `ptsOut->x`, `ptsOut->y`, `*width`. -/
structure Span where
  x : ℤ
  y : ℤ
  width : ℤ
  deriving DecidableEq, Repr

def numPtsToBuffer : ℕ := 200

/-- The spans given to `FillSpans` so far, and the output buffers. -/
structure Out where
  sent : List Span
  buffer : List Span
  deriving DecidableEq, Repr

/-- A span goes into the buffers, which are sent out when they are full. -/
def Out.put (out : Out) (s : Span) : Out :=
  if out.buffer.length+1 = numPtsToBuffer then ⟨out.sent ++ (out.buffer ++ [s]),[]⟩
  else ⟨out.sent,out.buffer ++ [s]⟩

/-- `while (pAET)` under the even-odd rule; following a `NULL` fails. -/
def evenOddLine (y : ℤ) : ℕ → Heap → Out → (pPrevAET : Node) → (pAET : Option Node) → Option (Heap × Out)
  | 0, _, _, _, _ => none
  | _+1, h, out, _, none => some (h,out)
  | n+1, h, out, pPrevAET, some pAET => do
    let next ← h.next pAET
    let out := out.put ⟨h.minor pAET,y,h.minor next-h.minor pAET⟩
    let (h,pAET,pPrevAET,_) := evaluateEdge h pAET pPrevAET y
    let pAET ← pAET
    let (h,pAET,pPrevAET,_) := evaluateEdge h pAET pPrevAET y
    evenOddLine y n h out pPrevAET pAET

/-- `while (pWETE != pAET)` -/
def skipTo (y : ℤ) (pWETE : Node) : ℕ → Heap → Node → Node → Bool → Option (Heap × Node × Node × Bool)
  | 0, _, _, _, _ => none
  | n+1, h, pAET, pPrevAET, fixWAET =>
    if pWETE = pAET then some (h,pAET,pPrevAET,fixWAET)
    else do
      let (h,pAET,pPrevAET,left) := evaluateEdge h pAET pPrevAET y
      let pAET ← pAET
      skipTo y pWETE n h pAET pPrevAET (fixWAET || left)

/-- `while (pAET)` under the winding rule; following a `NULL` fails. -/
def windingLine (y : ℤ) : ℕ → Heap → Out → (pPrevAET : Node) → (pAET pWETE : Option Node) → (fixWAET : Bool) →
    Option (Heap × Out × Bool)
  | 0, _, _, _, _, _, _ => none
  | _+1, h, out, _, none, _, fixWAET => some (h,out,fixWAET)
  | n+1, h, out, pPrevAET, some pAET, pWETE, fixWAET =>
    if pWETE = some pAET then do
      let last ← h.nextWETE pAET
      let out := out.put ⟨h.minor pAET,y,h.minor last-h.minor pAET⟩
      let (h,pAET,pPrevAET,fixWAET) ← skipTo y last n h pAET pPrevAET fixWAET
      let pWETE := h.nextWETE last
      let (h,pAET,pPrevAET,left) := evaluateEdge h pAET pPrevAET y
      windingLine y n h out pPrevAET pAET pWETE (fixWAET || left)
    else
      let (h,pAET,pPrevAET,left) := evaluateEdge h pAET pPrevAET y
      windingLine y n h out pPrevAET pAET pWETE (fixWAET || left)

/-- The scanlines from `y` on under the even-odd rule, `n` of them. -/
def evenOddLines (fuel : ℕ) : ℕ → ℤ → Heap → List ScanLineList → Out → Option Out
  | 0, _, _, _, out => some out
  | n+1, y, h, scanlines, out => do
    let (h,rest) ← match scanlines with
      | pSLL::rest =>
        if y = pSLL.scanline then do
          let h ← miloadAET fuel h .aet (h.next .aet) pSLL.edgelist
          some (h,rest)
        else some (h,scanlines)
      | [] => some (h,[])
    let (h,out) ← evenOddLine y fuel h out .aet (h.next .aet)
    let (h,_) ← miInsertionSort fuel h
    evenOddLines fuel n (y+1) h rest out

/-- The scanlines from `y` on under the winding rule, `n` of them. -/
def windingLines (fuel : ℕ) : ℕ → ℤ → Heap → List ScanLineList → Out → (fixWAET : Bool) → Option Out
  | 0, _, _, _, out, _ => some out
  | n+1, y, h, scanlines, out, fixWAET => do
    let (h,rest) ← match scanlines with
      | pSLL::rest =>
        if y = pSLL.scanline then do
          let h ← miloadAET fuel h .aet (h.next .aet) pSLL.edgelist
          let h ← micomputeWAET fuel h
          some (h,rest)
        else some (h,scanlines)
      | [] => some (h,[])
    let (h,out,fixWAET) ← windingLine y fuel h out .aet (h.next .aet) (h.next .aet) fixWAET
    let (h,changed) ← miInsertionSort fuel h
    if changed || fixWAET then do
      let h ← micomputeWAET fuel h
      windingLines fuel n (y+1) h rest out false
    else windingLines fuel n (y+1) h rest out fixWAET

inductive FillRule
  | evenOdd | winding
  deriving DecidableEq, Repr

/-- `miFillGeneralPoly`: the spans given to `FillSpans`. The fuel bounds the loops over lists of edges. -/
def miFillGeneralPoly (fuel : ℕ) (rule : FillRule) (pts : List Point) : Option (List Span) :=
  if pts.length < 3 then some []
  else do
    let (h,ET) ← miCreateETandAET fuel pts
    let n := (ET.ymax-ET.ymin).toNat
    let out ← match rule with
      | .evenOdd => evenOddLines fuel n ET.ymin h ET.scanlines ⟨[],[]⟩
      | .winding => windingLines fuel n ET.ymin h ET.scanlines ⟨[],[]⟩ false
    -- Get any spans that we missed by buffering
    some (out.sent ++ out.buffer)

end Xlibre.Mi.Poly
