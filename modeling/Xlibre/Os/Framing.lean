import Xlibre.Os.Input

/-! Requests as the length fields of a byte stream tell them, whatever pieces the stream comes in. -/
namespace Xlibre.Os.Input
open Xlibre.Lib

/-- What is known of a client's requests to come: how its lengths are to be read, and the bytes that are not consumed. -/
structure Source where
  swapped : Bool
  bigRequests : Bool
  ahead : List Byte
  deriving DecidableEq

/-- A request: how many bytes of the stream it takes, its length in words without the length of a big request, and its
bytes without that. -/
structure Frame where
  length : ℕ
  reqLen : ℕ
  bytes : List Byte
  deriving DecidableEq

def Source.bigLength (s : Source) : Option ℕ :=
  if 8 ≤ s.ahead.length ∧ getReqLen s.swapped s.ahead = 0 ∧ s.bigRequests = true then
    some (getBigReqLen s.swapped s.ahead)
  else none

/-- The next request, once its length is known. There is none if a big request has no length. -/
def Source.frame (s : Source) : Option Frame :=
  if s.ahead.length < 4 then none
  else
    let n := getReqLen s.swapped s.ahead
    if n = 0 ∧ s.bigRequests = true then
      match s.bigLength with
      | some (n+1) => some ⟨4*(n+1),n,s.ahead.take 4 ++ (s.ahead.take (4*(n+1))).drop 8⟩
      | _ => none
    else
      -- a request has its header at least
      some ⟨max 4 (4*n),n,s.ahead.take (max 4 (4*n))⟩

/-- No more than some bytes are known. -/
def Source.first (s : Source) (n : ℕ) : Source := { s with ahead := s.ahead.take n }

/-- The next request is not there yet. -/
def Source.Waits (s : Source) : Prop := ∀ f, s.frame = some f → s.ahead.length < f.length

/-- What happens to a client's requests: its lengths are to be read in another way, bytes are inserted, a request is
returned, or a request is refused because of its length. -/
inductive Event
  | order (swapped bigRequests : Bool)
  | inserted (data : List Byte)
  | request (bytes : List Byte) (reqLen : ℕ)
  | refused (n : ℕ)
  deriving DecidableEq

def Source.next (maxBigRequestSize : ℕ) (s : Source) : Event → Option Source
  | .order swapped bigRequests => some { s with swapped, bigRequests }
  | .inserted data => some { s with ahead := data ++ s.ahead }
  | .request bytes reqLen => do
    let f ← s.frame
    if f.length ≤ 4*maxBigRequestSize ∧ f.length ≤ s.ahead.length ∧ f.bytes = bytes ∧ f.reqLen = reqLen then
      some { s with ahead := s.ahead.drop f.length }
    else none
  | .refused n => do
    let f ← s.frame
    if 4*maxBigRequestSize < f.length ∧ f.length = n then some { s with ahead := s.ahead.drop n } else none

def Source.replay (maxBigRequestSize : ℕ) (s : Source) (log : List Event) : Option Source :=
  log.foldlM (Source.next maxBigRequestSize) s

variable {maxBigRequestSize : ℕ} {s s' : Source}

lemma replay_append {log : List Event} {e : Event} (h : s.replay maxBigRequestSize log = some s') :
    s.replay maxBigRequestSize (log ++ [e]) = s'.next maxBigRequestSize e := by
  unfold Source.replay at h ⊢
  rw [List.foldlM_append,h]
  change (List.foldlM _ s' [e] : Option Source) = _
  rw [List.foldlM_cons]
  cases s'.next maxBigRequestSize e <;> rfl

/-- A big request's length of one word does not leave room for the length itself, and one above `maxWords` is more than
the code computes with. -/
def Source.Sound (s : Source) : Prop := ∀ n, s.bigLength = some n → n ≠ 1 ∧ n ≤ maxWords

instance (s : Source) : Decidable s.Sound :=
  decidable_of_iff (∀ n ∈ s.bigLength, n ≠ 1 ∧ n ≤ maxWords) Iff.rfl

lemma frame_small (hlen : 4 ≤ s.ahead.length) (has : ¬(getReqLen s.swapped s.ahead = 0 ∧ s.bigRequests = true)) :
    s.frame = some ⟨max 4 (4*getReqLen s.swapped s.ahead),getReqLen s.swapped s.ahead,
      s.ahead.take (max 4 (4*getReqLen s.swapped s.ahead))⟩ := by
  unfold Source.frame
  rw [if_neg (Nat.not_lt.2 hlen)]
  dsimp only
  rw [if_neg has]

lemma bigLength_eq (hlen : 8 ≤ s.ahead.length) (hzero : getReqLen s.swapped s.ahead = 0) (hbig : s.bigRequests = true) :
    s.bigLength = some (getBigReqLen s.swapped s.ahead) := if_pos ⟨hlen,hzero,hbig⟩

lemma frame_big {n : ℕ} (hlen : 8 ≤ s.ahead.length) (hzero : getReqLen s.swapped s.ahead = 0)
    (hbig : s.bigRequests = true) (hn : getBigReqLen s.swapped s.ahead = n+1) :
    s.frame = some ⟨4*(n+1),n,s.ahead.take 4 ++ (s.ahead.take (4*(n+1))).drop 8⟩ := by
  unfold Source.frame
  rw [if_neg (by omega)]
  dsimp only
  rw [if_pos ⟨hzero,hbig⟩,bigLength_eq hlen hzero hbig,hn]

lemma frame_short (hlen : s.ahead.length < 4) : s.frame = none := if_pos hlen

lemma frame_unknown (hlen : s.ahead.length < 8) (hzero : getReqLen s.swapped s.ahead = 0) (hbig : s.bigRequests = true) :
    s.frame = none := by
  have hnone : s.bigLength = none := if_neg fun h => absurd h.1 (Nat.not_le.2 hlen)
  unfold Source.frame
  split_ifs
  · rfl
  · dsimp only
    rw [if_pos ⟨hzero,hbig⟩,hnone]

lemma getReqLen_take (swapped : Bool) (l : List Byte) {n : ℕ} (hn : 4 ≤ n) :
    getReqLen swapped (l.take n) = getReqLen swapped l := by
  have hcell : ∀ i < 4, (l.take n).getD i 0 = l.getD i 0 := by
    intro i hi
    rw [List.getD_eq_getElem?_getD,List.getD_eq_getElem?_getD,List.getElem?_take_of_lt (by omega)]
  unfold getReqLen
  rw [hcell 2 (by decide),hcell 3 (by decide)]

lemma getBigReqLen_take (swapped : Bool) (l : List Byte) {n : ℕ} (hn : 8 ≤ n) :
    getBigReqLen swapped (l.take n) = getBigReqLen swapped l := by
  have hcell : ∀ i < 8, (l.take n).getD i 0 = l.getD i 0 := by
    intro i hi
    rw [List.getD_eq_getElem?_getD,List.getD_eq_getElem?_getD,List.getElem?_take_of_lt (by omega)]
  unfold getBigReqLen
  rw [hcell 4 (by decide),hcell 5 (by decide),hcell 6 (by decide),hcell 7 (by decide)]

lemma getReqLen_slice (swapped : Bool) (m : ℕ → Byte) (a : ℕ) {n : ℕ} (hn : 4 ≤ n) (l : List Byte) :
    getReqLen swapped (slice m a 4) = getReqLen swapped (slice m a n ++ l) := by
  rw [← getReqLen_take swapped (slice m a n ++ l) le_rfl,List.take_append_of_le_length (by rwa [length_slice]),take_slice hn]

lemma getBigReqLen_slice (swapped : Bool) (m : ℕ → Byte) (a : ℕ) {n : ℕ} (hn : 8 ≤ n) (l : List Byte) :
    getBigReqLen swapped (slice m a 8) = getBigReqLen swapped (slice m a n ++ l) := by
  rw [← getBigReqLen_take swapped (slice m a n ++ l) le_rfl,List.take_append_of_le_length (by rwa [length_slice]),
    take_slice hn]

end Xlibre.Os.Input

/-! A call of `ReadRequestFromClient` that finds all of a request, or that has skipped some of one. -/
namespace Xlibre.Os.Input
open Xlibre.Lib Checked

/-- What a buffer has behind the request that was returned last. -/
def ConnectionInput.pending (oci : ConnectionInput) : List Byte :=
  slice oci.buffer (oci.bufptr + oci.lenLastReq) (oci.bufcnt - (oci.bufptr + oci.lenLastReq))

structure ConnectionInput.Ok (oci : ConnectionInput) : Prop where
  place : oci.bufptr + oci.lenLastReq ≤ oci.bufcnt
  within : oci.bufcnt ≤ oci.size
  positive : 0 < oci.size
  small : oci.size < 2^31

/-- Nothing is left in the buffer, and nothing is to be ignored. -/
def ConnectionInput.Empty (oci : ConnectionInput) : Prop :=
  oci.bufptr + oci.lenLastReq = oci.bufcnt ∧ oci.ignoreBytes = 0

namespace Reading

/-- The bytes of the request that are in the buffer, and those behind them. -/
def data (r : Reading) : List Byte := slice r.oci.buffer r.oci.bufptr r.gotnow

def ahead (r : Reading) : List Byte := r.data ++ r.stream

structure Ok (r : Reading) : Prop where
  place : r.oci.bufptr + r.gotnow = r.oci.bufcnt
  within : r.oci.bufcnt ≤ r.oci.size
  positive : 0 < r.oci.size
  small : r.oci.size < 2^31

/-- What is not consumed when the call ends. -/
def left (r : Reading) : List Byte := (r.oci.pending ++ r.stream).drop r.oci.ignoreBytes

def returned (r : Reading) : List Byte := slice r.oci.buffer r.requestBuffer (max 4 (4*r.reqLen))

/-- The length of the request is known, and in `needed`. -/
inductive Known (swapped bigRequests : Bool) (r : Reading) : Prop
  | small (four : 4 ≤ r.gotnow) (has : ¬(getReqLen swapped r.ahead = 0 ∧ bigRequests = true))
      (move : r.moveHeader = false) (needed : r.needed = 4*getReqLen swapped r.ahead)
      (reqLen : r.reqLen = getReqLen swapped r.ahead)
  | big (eight : 8 ≤ r.gotnow) (zero : getReqLen swapped r.ahead = 0) (enabled : bigRequests = true)
      (move : r.moveHeader = true) (needed : r.needed = 4*getBigReqLen swapped r.ahead)
      (reqLen : r.reqLen = getBigReqLen swapped r.ahead)

end Reading

/-- How a call ends that has begun with some bytes not consumed, of which the first `i` are to be ignored. -/
structure Settled (maxBigRequestSize : ℕ) (s : Source) (i : ℕ) (result : Result) (r : Reading) (available : Bool) :
    Prop where
  size : 0 < r.oci.size ∧ r.oci.size < 2^31
  ok : result ≠ .terminate → r.oci.Ok
  sound : result ≠ .badLength
  notYet : result = .notYet → r.left = s.ahead.drop i
  value : ∀ n, result = .value n → i = 0 ∧ r.left = s.ahead.drop n ∧ ∃ f, s.frame = some f ∧ f.length = n ∧
    (n ≤ 4*maxBigRequestSize → n ≤ s.ahead.length ∧ f.bytes = r.returned ∧ f.reqLen = r.reqLen)
  available : available = true → result ≠ .terminate → r.oci.Empty
  waits : result = .notYet → i = 0 → ({ s with ahead := r.oci.pending } : Source).Waits

variable {maxBigRequestSize : ℕ} {swapped bigRequests : Bool} {r : Reading} {i : ℕ}

lemma settled_terminate {s : Source} {available : Bool} (h : 0 < r.oci.size ∧ r.oci.size < 2^31) :
    Settled maxBigRequestSize s i .terminate r available :=
  ⟨h,fun hne => absurd rfl hne,fun h => (nomatch h),fun h => (nomatch h),fun _ h => (nomatch h),
    fun _ hne => absurd rfl hne,fun h => (nomatch h)⟩

@[simp] lemma Reading.length_data : r.data.length = r.gotnow := length_slice

lemma Reading.gotnow_le : r.gotnow ≤ r.ahead.length := by
  rw [Reading.ahead,List.length_append,Reading.length_data]
  exact Nat.le_add_right _ _

lemma Reading.drop_ahead {n : ℕ} (h : n ≤ r.gotnow) :
    r.ahead.drop n = slice r.oci.buffer (r.oci.bufptr + n) (r.gotnow - n) ++ r.stream := by
  rw [Reading.ahead,List.drop_append_of_le_length (by rw [Reading.length_data]; exact h),Reading.data,drop_slice]

lemma Reading.take_ahead {n : ℕ} (h : n ≤ r.gotnow) : r.ahead.take n = slice r.oci.buffer r.oci.bufptr n := by
  rw [Reading.ahead,List.take_append_of_le_length (by rw [Reading.length_data]; exact h),Reading.data,take_slice h]

lemma finish_skip {s : Source} (h : r.Ok) (hs : s.ahead = r.ahead) (hi : 0 < r.oci.ignoreBytes)
    (hneeded : r.needed = r.oci.ignoreBytes ∨ r.needed = r.oci.size ∧ r.oci.size ≤ r.oci.ignoreBytes)
    (hmove : r.moveHeader = false) (hall : r.needed ≤ r.gotnow) :
    ∃ result r' available, r.finish bigRequests = .ok (result,r',available) ∧
      Settled maxBigRequestSize s r.oci.ignoreBytes result r' available := by
  have hpos := h.positive
  have hne : r.needed ≠ 0 := by omega
  have hle : r.needed ≤ r.oci.ignoreBytes := by omega
  have hassert : ¬(r.needed ≠ r.oci.ignoreBytes ∧ r.needed ≠ r.oci.size) := by omega
  unfold Reading.finish
  dsimp only
  rw [if_neg hne,if_pos hi,Reading.ignore,if_neg hassert]
  dsimp only
  rw [if_neg (Nat.not_lt.2 hall)]
  refine ⟨.notYet,_,_,by simp only [hmove]; rfl,?_⟩
  have hplace := h.place
  refine ⟨⟨hpos,h.small⟩,fun _ => ⟨?_,h.within,hpos,h.small⟩,fun h => (nomatch h),fun _ => ?_,fun _ h => (nomatch h),
    fun hav _ => ?_,fun _ hzero => absurd hzero hi.ne'⟩
  · change r.oci.bufptr + r.needed + 0 ≤ r.oci.bufcnt
    omega
  · change (slice r.oci.buffer (r.oci.bufptr + r.needed + 0) (r.oci.bufcnt - (r.oci.bufptr + r.needed + 0)) ++
      r.stream).drop (r.oci.ignoreBytes - r.needed) = _
    rw [hs,← Nat.add_sub_cancel' hle,← List.drop_drop,Reading.drop_ahead hall,Nat.add_zero,
      Nat.add_sub_cancel_left]
    congr 3
    omega
  · have hav := of_decide_eq_true hav
    refine ⟨?_,hav.2⟩
    change r.oci.bufptr + r.needed + 0 = r.oci.bufcnt
    have hzero : r.gotnow - r.needed - 0 = 0 := hav.1
    omega

/-- The reading when the first bytes are the request. -/
def Reading.taken (r : Reading) (n : ℕ) : Reading :=
  { r with oci := { r.oci with lenLastReq := n }, gotnow := r.gotnow - n, needed := n }

lemma finish_eq {n : ℕ} (hi : r.oci.ignoreBytes = 0)
    (hn : (if r.needed = 0 then (if bigRequests then 8 else 4) else r.needed) = n) (hne : n ≠ 0) :
    r.finish bigRequests =
      if r.moveHeader = true ∧ r.reqLen < 1 then .ok (.terminate,r.taken n,decide (r.gotnow ≤ n))
      else
        let r' := if r.moveHeader then (r.taken n).moveHeaderUp else r.taken n
        .ok (.value n,{ r' with requestBuffer := r'.oci.bufptr },decide (r.gotnow ≤ n)) := by
  have havailable : decide (r.gotnow ≤ n) = decide (r.gotnow - n = 0 ∧ r.oci.ignoreBytes = 0) := by
    simp only [hi,and_true,Nat.sub_eq_zero_iff_le]
  rw [havailable]
  unfold Reading.finish
  dsimp only
  rw [hn,if_neg (by omega)]
  change (if r.moveHeader = true ∧ r.reqLen < 1 then _ else _) = _
  congr 1
  obtain ⟨oci,stream,reqLen,requestBuffer,gotnow,needed,needHeader,moveHeader⟩ := r
  cases moveHeader with
  | false =>
    change Except.ok (if n = 0 then Result.notYet else Result.value n,_,_) = _
    rw [if_neg hne]
    rfl
  | true =>
    change Except.ok (if n = 0 then Result.notYet else Result.value n,_,_) = _
    rw [if_neg hne]
    rfl

lemma finish_small {s : Source} (h : r.Ok) (hs : s.ahead = r.ahead) (hi : r.oci.ignoreBytes = 0) (hfour : 4 ≤ r.gotnow)
    (has : ¬(getReqLen s.swapped s.ahead = 0 ∧ s.bigRequests = true)) (hmove : r.moveHeader = false)
    (hneeded : r.needed = 4*getReqLen s.swapped s.ahead) (hreqLen : r.reqLen = getReqLen s.swapped s.ahead)
    (hall : r.needed ≤ r.gotnow) : ∃ result r' available, r.finish s.bigRequests = .ok (result,r',available) ∧
      Settled maxBigRequestSize s 0 result r' available := by
  have hplace := h.place
  have hlen : 4 ≤ s.ahead.length := by
    rw [hs]
    exact hfour.trans Reading.gotnow_le
  have hframe := frame_small hlen has
  generalize hn : getReqLen s.swapped s.ahead = n at has hneeded hreqLen hframe
  have hlong : (if r.needed = 0 then (if s.bigRequests then 8 else 4) else r.needed) = max 4 (4*n) := by
    by_cases hzero : n = 0
    · have hbig : s.bigRequests = false := by simpa [hzero] using has
      rw [hneeded,hzero,if_pos rfl,hbig]
      rfl
    · rw [if_neg (by omega)]
      omega
  have hle : max 4 (4*n) ≤ r.gotnow := by omega
  have hfinish := finish_eq hi hlong (by omega)
  rw [if_neg (by simp [hmove]),hmove] at hfinish
  refine ⟨_,_,_,hfinish,⟨h.positive,h.small⟩,fun _ => ⟨?_,h.within,h.positive,h.small⟩,fun h => (nomatch h),
    fun h => (nomatch h),?_,fun hav' _ => ⟨?_,hi⟩,fun h => (nomatch h)⟩
  · change r.oci.bufptr + max 4 (4*n) ≤ r.oci.bufcnt
    omega
  · rintro _ ⟨⟩
    refine ⟨rfl,?_,_,hframe,rfl,fun _ => ⟨?_,?_,?_⟩⟩
    · change (slice r.oci.buffer (r.oci.bufptr + max 4 (4*n)) (r.oci.bufcnt - (r.oci.bufptr + max 4 (4*n))) ++
        r.stream).drop r.oci.ignoreBytes = _
      rw [hi,List.drop_zero,hs,Reading.drop_ahead hle]
      congr 2
      omega
    · rw [hs]
      exact hle.trans Reading.gotnow_le
    · change _ = slice r.oci.buffer r.oci.bufptr (max 4 (4*r.reqLen))
      rw [hreqLen,hs,Reading.take_ahead hle]
    · exact hreqLen.symm
  · change r.oci.bufptr + max 4 (4*n) = r.oci.bufcnt
    have := of_decide_eq_true hav'
    omega

lemma finish_big {s : Source} (h : r.Ok) (hs : s.ahead = r.ahead) (hsound : s.Sound) (hi : r.oci.ignoreBytes = 0)
    (height : 8 ≤ r.gotnow) (hzero : getReqLen s.swapped s.ahead = 0) (hbig : s.bigRequests = true)
    (hmove : r.moveHeader = true) (hneeded : r.needed = 4*getBigReqLen s.swapped s.ahead)
    (hreqLen : r.reqLen = getBigReqLen s.swapped s.ahead) (hall : r.needed ≤ r.gotnow) :
    ∃ result r' available, r.finish s.bigRequests = .ok (result,r',available) ∧
      Settled maxBigRequestSize s 0 result r' available := by
  have hplace := h.place
  have hwithin := h.within
  have hlen : 8 ≤ s.ahead.length := by
    rw [hs]
    exact height.trans Reading.gotnow_le
  have hone := (hsound _ (bigLength_eq hlen hzero hbig)).1
  cases hn : getBigReqLen s.swapped s.ahead with
  | zero =>
    rw [hn] at hneeded hreqLen
    have hlong : (if r.needed = 0 then (if s.bigRequests then 8 else 4) else r.needed) = 8 := by
      rw [if_pos (by omega),hbig]
      rfl
    have hfinish := finish_eq hi hlong (by decide)
    rw [if_pos ⟨hmove,by omega⟩] at hfinish
    exact ⟨_,_,_,hfinish,settled_terminate ⟨h.positive,h.small⟩⟩
  | succ n =>
    have hframe := frame_big hlen hzero hbig hn
    rw [hn] at hneeded hreqLen hone
    have hnpos : 1 ≤ n := by omega
    have hle : 4*(n+1) ≤ r.gotnow := by omega
    have hlong : (if r.needed = 0 then (if s.bigRequests then 8 else 4) else r.needed) = 4*(n+1) := by
      rw [if_neg (by omega),hneeded]
    have hfinish := finish_eq hi hlong (by omega)
    rw [if_neg (by omega),hmove] at hfinish
    refine ⟨_,_,_,hfinish,⟨h.positive,h.small⟩,fun _ => ⟨?_,h.within,h.positive,h.small⟩,fun h => (nomatch h),
      fun h => (nomatch h),?_,fun hav' _ => ⟨?_,hi⟩,fun h => (nomatch h)⟩
    · change r.oci.bufptr + 4 + (4*(n+1) - 4) ≤ r.oci.bufcnt
      omega
    · rintro _ ⟨⟩
      refine ⟨rfl,?_,_,hframe,rfl,fun _ => ⟨?_,?_,?_⟩⟩
      · change (slice (store r.oci.buffer (r.oci.bufptr + 4) (slice r.oci.buffer r.oci.bufptr 4))
          (r.oci.bufptr + 4 + (4*(n+1) - 4)) (r.oci.bufcnt - (r.oci.bufptr + 4 + (4*(n+1) - 4))) ++
            r.stream).drop r.oci.ignoreBytes = _
        rw [hi,List.drop_zero,hs,Reading.drop_ahead hle,slice_store_after (by rw [length_slice]; omega)]
        congr 2 <;> omega
      · rw [hs]
        exact hle.trans Reading.gotnow_le
      · change _ = slice (store r.oci.buffer (r.oci.bufptr + 4) (slice r.oci.buffer r.oci.bufptr 4)) (r.oci.bufptr + 4)
          (max 4 (4*(r.reqLen - 1)))
        -- the header as it is now, and the data behind it as it was
        have hsplit : max 4 (4*(r.reqLen - 1)) = (slice r.oci.buffer r.oci.bufptr 4).length + (4*(n+1) - 8) := by
          rw [length_slice]
          omega
        rw [hsplit,slice_add,slice_store,slice_store_after le_rfl,length_slice,hs,Reading.take_ahead (by omega),
          Reading.take_ahead hle,drop_slice]
      · change n = r.reqLen - 1
        omega
    · change r.oci.bufptr + 4 + (4*(n+1) - 4) = r.oci.bufcnt
      have := of_decide_eq_true hav'
      omega

lemma finish_known {s : Source} (h : r.Ok) (hs : s.ahead = r.ahead) (hsound : s.Sound) (hi : r.oci.ignoreBytes = 0)
    (hknown : r.Known s.swapped s.bigRequests) (hall : r.needed ≤ r.gotnow) :
    ∃ result r' available, r.finish s.bigRequests = .ok (result,r',available) ∧
      Settled maxBigRequestSize s 0 result r' available := by
  cases hknown with
  | small four has move needed reqLen =>
    rw [← hs] at has needed reqLen
    exact finish_small h hs hi four has move needed reqLen hall
  | big eight zero enabled move needed reqLen =>
    rw [← hs] at zero needed reqLen
    exact finish_big h hs hsound hi eight zero enabled move needed reqLen hall

end Xlibre.Os.Input
