import Xlibre.Os.Framing

/-! A call of `ReadRequestFromClient`, with the reading of more bytes. -/
namespace Xlibre.Os.Input
open Xlibre.Lib Checked

variable {maxBigRequestSize : ℕ} {s : Source} {r r' r1 : Reading}

/-- What making room and reading do to the variables: the bytes are the same, and more of them may be in the buffer. -/
structure Keeps (r r' : Reading) : Prop where
  ahead : r'.ahead = r.ahead
  more : r.gotnow ≤ r'.gotnow
  reqLen : r'.reqLen = r.reqLen
  needed : r'.needed = r.needed
  needHeader : r'.needHeader = r.needHeader
  moveHeader : r'.moveHeader = r.moveHeader
  ignore : r'.oci.ignoreBytes = r.oci.ignoreBytes
  last : r'.oci.lenLastReq = r.oci.lenLastReq
  skips : r.needed = min r.oci.size r.oci.ignoreBytes → r'.needed = min r'.oci.size r'.oci.ignoreBytes

lemma Keeps.refl : Keeps r r := ⟨rfl,le_rfl,rfl,rfl,rfl,rfl,rfl,rfl,fun h => h⟩

lemma Keeps.trans (h : Keeps r r1) (h' : Keeps r1 r') : Keeps r r' :=
  ⟨h'.ahead.trans h.ahead,h.more.trans h'.more,h'.reqLen.trans h.reqLen,h'.needed.trans h.needed,
    h'.needHeader.trans h.needHeader,h'.moveHeader.trans h.moveHeader,h'.ignore.trans h.ignore,h'.last.trans h.last,
    fun hs => h'.skips (h.skips hs)⟩

lemma Reading.Known.keeps {swapped bigRequests : Bool} (hk : r.Known swapped bigRequests) (h : Keeps r r') :
    r'.Known swapped bigRequests := by
  cases hk with
  | small four has move needed reqLen =>
    rw [← h.ahead] at has needed reqLen
    exact .small (four.trans h.more) has (h.moveHeader.trans move) (h.needed.trans needed) (h.reqLen.trans reqLen)
  | big eight zero enabled move needed reqLen =>
    rw [← h.ahead] at zero needed reqLen
    exact .big (eight.trans h.more) zero enabled (h.moveHeader.trans move) (h.needed.trans needed)
      (h.reqLen.trans reqLen)

lemma makeRoom_keeps (realloc : Bool) (h : r.Ok) (hshort : r.gotnow < r.needed) (hsmall : r.needed < 2^31) :
    (0 < (r.makeRoom realloc).2.oci.size ∧ (r.makeRoom realloc).2.oci.size < 2^31) ∧
      (r.makeRoom realloc).2.gotnow = r.gotnow ∧ ((r.makeRoom realloc).1 = true → (r.makeRoom realloc).2.Ok ∧ Keeps r (r.makeRoom realloc).2) := by
  have hplace := h.place
  have hwithin := h.within
  unfold Reading.makeRoom
  by_cases hmove : r.gotnow = 0 ∨ r.oci.size < r.oci.bufptr + r.needed
  · rw [if_pos hmove]
    have hmoved : slice (if 0 < r.gotnow ∧ r.oci.bufptr ≠ 0 then
        store r.oci.buffer 0 (slice r.oci.buffer r.oci.bufptr r.gotnow) else r.oci.buffer) 0 r.gotnow = r.data := by
      split_ifs with hcopy
      · have hstore := slice_store (m := r.oci.buffer) (a := 0) (l := r.data)
        rwa [Reading.length_data] at hstore
      · by_cases hzero : r.gotnow = 0
        · rw [Reading.data,hzero]
          rfl
        · have hptr : r.oci.bufptr = 0 := by omega
          rw [Reading.data,hptr]
    generalize (if 0 < r.gotnow ∧ r.oci.bufptr ≠ 0 then
      store r.oci.buffer 0 (slice r.oci.buffer r.oci.bufptr r.gotnow) else r.oci.buffer) = buffer at hmoved ⊢
    have hahead : slice buffer 0 r.gotnow ++ r.stream = r.ahead := by rw [hmoved,Reading.ahead]
    dsimp only
    by_cases hgrow : r.oci.size < r.needed
    · rw [if_pos hgrow]
      cases realloc with
      | false => exact ⟨⟨h.positive,h.small⟩,rfl,fun hf => by cases hf⟩
      | true =>
        refine ⟨⟨by change 0 < r.needed; omega,hsmall⟩,rfl,fun _ => ⟨⟨Nat.zero_add _,hshort.le,?_,hsmall⟩,?_⟩⟩
        · change 0 < r.needed
          omega
        · refine ⟨hahead,le_rfl,rfl,rfl,rfl,rfl,rfl,rfl,fun hs => ?_⟩
          omega
    · rw [if_neg hgrow]
      refine ⟨⟨h.positive,h.small⟩,rfl,fun _ => ⟨⟨Nat.zero_add _,?_,h.positive,h.small⟩,?_⟩⟩
      · change r.gotnow ≤ r.oci.size
        omega
      · exact ⟨hahead,le_rfl,rfl,rfl,rfl,rfl,rfl,rfl,fun hs => hs⟩
  · rw [if_neg hmove]
    exact ⟨⟨h.positive,h.small⟩,rfl,fun _ => ⟨h,Keeps.refl⟩⟩

lemma receive_keeps {got : List Byte} (h : r.Ok) (hgot : got <+: r.stream)
    (hroom : r.oci.bufcnt + got.length ≤ r.oci.size) : (r.receive got).Ok ∧ Keeps r (r.receive got) := by
  have hplace := h.place
  refine ⟨⟨?_,hroom,h.positive,h.small⟩,?_,Nat.le_add_right _ _,rfl,rfl,rfl,rfl,rfl,rfl,fun hs => hs⟩
  · change r.oci.bufptr + (r.gotnow + got.length) = r.oci.bufcnt + got.length
    omega
  · change slice (store r.oci.buffer r.oci.bufcnt got) r.oci.bufptr (r.gotnow + got.length) ++
      r.stream.drop got.length = r.ahead
    have hsplit : got ++ r.stream.drop got.length = r.stream := by
      obtain ⟨rest,hrest⟩ := hgot
      rw [← hrest,List.drop_left]
    rw [slice_store_append hplace.symm,List.append_assoc,hsplit]
    rfl

lemma shrink_keeps (shrinks : Bool) (h : r.Ok) : (r.shrink shrinks).Ok ∧ Keeps r (r.shrink shrinks) := by
  have hplace := h.place
  unfold Reading.shrink
  split_ifs with hbig
  · obtain ⟨hsize,hcnt,hneeded,-⟩ := hbig
    have hptr : r.oci.bufcnt - r.gotnow = r.oci.bufptr := by omega
    rw [hptr]
    refine ⟨⟨hplace,hcnt.le,(by decide : 0 < bufSize),(by decide : bufSize < 2^31)⟩,rfl,le_rfl,rfl,rfl,rfl,rfl,rfl,rfl,fun hs => ?_⟩
    change r.needed = min bufSize r.oci.ignoreBytes
    unfold bufWatermark at hsize
    unfold bufSize at hneeded ⊢
    omega
  · exact ⟨h,Keeps.refl⟩

lemma Reading.pending_eq (h : r.Ok) (hlast : r.oci.lenLastReq = 0) : r.oci.pending = r.data := by
  have hplace := h.place
  rw [ConnectionInput.pending,hlast,Nat.add_zero,show r.oci.bufcnt - r.oci.bufptr = r.gotnow by omega]
  rfl

lemma Reading.left_eq (h : r.Ok) (hlast : r.oci.lenLastReq = 0) : r.left = r.ahead.drop r.oci.ignoreBytes := by
  rw [Reading.left,Reading.pending_eq h hlast,Reading.ahead]

lemma settled_notYet (h : r.Ok) (hs : s.ahead = r.ahead) (hlast : r.oci.lenLastReq = 0)
    (hwaits : r.oci.ignoreBytes = 0 → (s.first r.gotnow).Waits) :
    Settled maxBigRequestSize s r.oci.ignoreBytes .notYet r false := by
  have hplace := h.place
  refine ⟨⟨h.positive,h.small⟩,fun _ => ⟨by omega,h.within,h.positive,h.small⟩,fun h => (nomatch h),fun _ => ?_,
    fun _ h => (nomatch h),fun h => (nomatch h),fun _ hi => ?_⟩
  · rw [r.left_eq h hlast,hs]
  · have hfirst : s.first r.gotnow = { s with ahead := r.oci.pending } := by
      rw [Source.first,hs,Reading.ahead,List.take_left' Reading.length_data,Reading.pending_eq h hlast]
    rw [← hfirst]
    exact hwaits hi

lemma getReqLen_lt (swapped : Bool) (l : List Byte) : getReqLen swapped l < 2^16 := by
  have ha := (l.getD 2 0).isLt
  have hb := (l.getD 3 0).isLt
  unfold getReqLen
  dsimp only
  split_ifs <;> omega

lemma length_first (hs : s.ahead = r.ahead) : (s.first r.gotnow).ahead.length = r.gotnow := by
  rw [Source.first,hs]
  exact List.length_take_of_le Reading.gotnow_le

lemma Reading.Known.waits (hk : r.Known s.swapped s.bigRequests) (hs : s.ahead = r.ahead) (hshort : r.gotnow < r.needed) :
    (s.first r.gotnow).Waits := by
  have hlen := length_first hs
  cases hk with
  | small four has move needed =>
    have hsame : getReqLen s.swapped (s.first r.gotnow).ahead = getReqLen s.swapped r.ahead := by
      rw [← hs]
      exact getReqLen_take _ _ four
    have hframe := frame_small (s := s.first r.gotnow) (by rw [hlen]; exact four) (by rw [← hsame] at has; exact has)
    intro f hf
    obtain rfl := Option.some.inj (hframe.symm.trans hf)
    change _ < max 4 (4*getReqLen s.swapped (s.first r.gotnow).ahead)
    rw [hlen,hsame]
    omega
  | big eight zero enabled move needed =>
    have hsame : getReqLen s.swapped (s.first r.gotnow).ahead = getReqLen s.swapped r.ahead := by
      rw [← hs]
      exact getReqLen_take _ _ (by omega)
    have hbig : getBigReqLen s.swapped (s.first r.gotnow).ahead = getBigReqLen s.swapped r.ahead := by
      rw [← hs]
      exact getBigReqLen_take _ _ eight
    obtain ⟨n,hn⟩ := Nat.exists_eq_succ_of_ne_zero (show getBigReqLen s.swapped r.ahead ≠ 0 by omega)
    have hframe := frame_big (s := s.first r.gotnow) (by rw [hlen]; exact eight) (hsame.trans zero) enabled (hbig.trans hn)
    intro f hf
    obtain rfl := Option.some.inj (hframe.symm.trans hf)
    change _ < 4*(n+1)
    rw [hlen]
    omega

lemma header_waits (hs : s.ahead = r.ahead) (hshort : r.gotnow < r.needed) (height : r.needed ≤ 8)
    (hlong : 4 < r.needed → 4 ≤ r.gotnow ∧ getReqLen s.swapped s.ahead = 0 ∧ s.bigRequests = true) :
    (s.first r.gotnow).Waits := by
  have hlen := length_first hs
  intro f hf
  by_cases hfour : r.gotnow < 4
  · rw [frame_short (by rwa [hlen])] at hf
    cases hf
  · obtain ⟨hfour,hzero,hbig⟩ := hlong (by omega)
    have hfirst : getReqLen s.swapped (s.first r.gotnow).ahead = 0 := (getReqLen_take _ _ hfour).trans hzero
    have hframe := frame_unknown (s := s.first r.gotnow) (by omega) hfirst hbig
    rw [hframe] at hf
    cases hf

lemma header_reads (swapped bigRequests : Bool) (h : r.Ok) (hfour : 4 ≤ r.gotnow)
    (hmove : r.moveHeader = true → getReqLen swapped r.ahead = 0 ∧ bigRequests = true) :
    ∃ r', r.header swapped bigRequests = .ok r' ∧ r'.oci = r.oci ∧ r'.stream = r.stream ∧ r'.gotnow = r.gotnow ∧
      (({ r' with needed := 4*r'.needed } : Reading).Known swapped bigRequests ∧ r'.needHeader = r.needHeader ∨
        r.gotnow < 8 ∧ r'.needed = 2 ∧ r'.needHeader = true ∧ getReqLen swapped r.ahead = 0 ∧ bigRequests = true) := by
  have hplace := h.place
  have hwithin := h.within
  have hread : getReqLen swapped (slice r.oci.buffer r.oci.bufptr 4) = getReqLen swapped r.ahead :=
    getReqLen_slice _ _ _ hfour _
  unfold Reading.header
  rw [if_neg (by omega)]
  dsimp only
  rw [hread]
  by_cases hbig : getReqLen swapped r.ahead = 0 ∧ bigRequests = true
  · rw [if_pos hbig]
    by_cases hseven : r.gotnow < 8
    · rw [if_pos hseven]
      exact ⟨_,rfl,rfl,rfl,rfl,.inr ⟨hseven,rfl,rfl,hbig⟩⟩
    · have height : 8 ≤ r.gotnow := Nat.le_of_not_lt hseven
      have hlength : getBigReqLen swapped (slice r.oci.buffer r.oci.bufptr 8) = getBigReqLen swapped r.ahead :=
        getBigReqLen_slice _ _ _ height _
      rw [if_neg hseven,if_neg (by omega),hlength]
      exact ⟨_,rfl,rfl,rfl,rfl,.inl ⟨.big height hbig.1 hbig.2 rfl rfl rfl,rfl⟩⟩
  · rw [if_neg hbig]
    have hstay : r.moveHeader = false := Bool.eq_false_iff.2 fun hm => hbig (hmove hm)
    exact ⟨_,rfl,rfl,rfl,rfl,.inl ⟨.small hfour hbig hstay rfl rfl,rfl⟩⟩

lemma Reading.Known.words_le (hk : r.Known s.swapped s.bigRequests) (hs : s.ahead = r.ahead) (hsound : s.Sound) {n : ℕ}
    (hn : r.needed = 4*n) : n ≤ maxWords := by
  cases hk with
  | small four has move needed =>
    have := getReqLen_lt s.swapped r.ahead
    unfold maxWords
    omega
  | big eight zero enabled move needed =>
    rw [← hs] at zero needed
    have hlen : 8 ≤ s.ahead.length := by
      rw [hs]
      exact eight.trans Reading.gotnow_le
    have := (hsound _ (bigLength_eq hlen zero enabled)).2
    omega

lemma header_tells (h : r.Ok) (hs : s.ahead = r.ahead) (hsound : s.Sound) (hfour : 4 ≤ r.gotnow)
    (hmove : r.moveHeader = true → getReqLen s.swapped s.ahead = 0 ∧ s.bigRequests = true) :
    ∃ r', r.header s.swapped s.bigRequests = .ok r' ∧ r'.oci = r.oci ∧ r'.gotnow = r.gotnow ∧ r'.needed ≤ maxWords ∧
      ({ r' with needed := 4*r'.needed } : Reading).Ok ∧ s.ahead = ({ r' with needed := 4*r'.needed } : Reading).ahead ∧
      (({ r' with needed := 4*r'.needed } : Reading).Known s.swapped s.bigRequests ∧ r'.needHeader = r.needHeader ∨
        r.gotnow < 8 ∧ r'.needed = 2 ∧ r'.needHeader = true ∧
          getReqLen s.swapped s.ahead = 0 ∧ s.bigRequests = true) := by
  rw [hs] at hmove
  obtain ⟨r',hr',hoci,hstream,hgot,htells⟩ := header_reads _ _ h hfour hmove
  have hahead : s.ahead = ({ r' with needed := 4*r'.needed } : Reading).ahead := by
    rw [hs]
    change _ = slice r'.oci.buffer r'.oci.bufptr r'.gotnow ++ r'.stream
    rw [hoci,hstream,hgot]
    rfl
  refine ⟨r',hr',hoci,hgot,?_,?_,hahead,by rwa [← hs] at htells⟩
  · obtain ⟨hknown,-⟩ | ⟨-,htwo,-⟩ := htells
    · exact hknown.words_le hahead hsound rfl
    · rw [htwo]
      decide
  · exact ⟨by rw [hoci,hgot]; exact h.place,by rw [hoci]; exact h.within,by rw [hoci]; exact h.positive,
      by rw [hoci]; exact h.small⟩

inductive Wants (maxBigRequestSize : ℕ) (s : Source) (r : Reading) : Prop
  | skip (ignores : 0 < r.oci.ignoreBytes) (needed : r.needed = min r.oci.size r.oci.ignoreBytes)
      (few : r.needed ≤ 4*maxBigRequestSize) (head : r.needHeader = false) (move : r.moveHeader = false)
  | header (ignores : r.oci.ignoreBytes = 0) (sound : s.Sound) (short : r.gotnow < r.needed)
      (needed : 4 ≤ r.needed ∧ r.needed ≤ 8) (head : r.needHeader = true)
      (move : r.moveHeader = true ∨ 4 < r.needed → 4 ≤ r.gotnow ∧ getReqLen s.swapped s.ahead = 0 ∧ s.bigRequests = true)
  | request (ignores : r.oci.ignoreBytes = 0) (sound : s.Sound) (known : r.Known s.swapped s.bigRequests)
      (head : r.needHeader = false)

lemma Wants.needed_lt (h : Wants maxBigRequestSize s r) (hok : r.Ok) (hs : s.ahead = r.ahead) : r.needed < 2^31 := by
  have hsmall := hok.small
  cases h with
  | skip ignores needed => omega
  | header _ _ _ needed => omega
  | request _ sound known =>
    obtain ⟨n,hn⟩ : ∃ n, r.needed = 4*n := by
      cases known with
      | small four has move needed => exact ⟨_,needed⟩
      | big eight zero enabled move needed => exact ⟨_,needed⟩
    have := known.words_le hs sound hn
    unfold maxWords at this
    omega

lemma Wants.waits (hw : Wants maxBigRequestSize s r) (hs : s.ahead = r.ahead) (hshort : r.gotnow < r.needed)
    (hi : r.oci.ignoreBytes = 0) : (s.first r.gotnow).Waits := by
  cases hw with
  | skip ignores => omega
  | header _ _ short needed head move => exact header_waits hs short needed.2 fun h => move (.inr h)
  | request _ _ known => exact known.waits hs hshort

lemma finish_settled (h : r.Ok) (hs : s.ahead = r.ahead) (hw : Wants maxBigRequestSize s r) (hall : r.needed ≤ r.gotnow) :
    ∃ result r' available, r.finish s.bigRequests = .ok (result,r',available) ∧
      Settled maxBigRequestSize s r.oci.ignoreBytes result r' available := by
  cases hw with
  | skip ignores needed few head move => exact finish_skip h hs ignores (by omega) move hall
  | header ignores sound short => omega
  | request ignores sound known head =>
    rw [ignores]
    exact finish_known h hs sound ignores known hall

lemma settle_settled (h : r.Ok) (hs : s.ahead = r.ahead) (hlast : r.oci.lenLastReq = 0)
    (hw : Wants maxBigRequestSize s r) : ∃ result r' available, r.settle s.bigRequests = .ok (result,r',available) ∧
      Settled maxBigRequestSize s r.oci.ignoreBytes result r' available := by
  unfold Reading.settle
  by_cases hshort : r.gotnow < r.needed
  · rw [if_pos hshort]
    exact ⟨_,_,_,rfl,settled_notYet h hs hlast (hw.waits hs hshort)⟩
  · rw [if_neg hshort]
    exact finish_settled h hs hw (Nat.le_of_not_lt hshort)

lemma settled_refused (h : r.Ok) (hs : s.ahead = r.ahead) (hknown : r.Known s.swapped s.bigRequests)
    (hshort : r.gotnow < r.needed) (hover : 4*maxBigRequestSize < r.needed) :
    Settled maxBigRequestSize s 0 (.value r.needed)
      { r with oci := { r.oci with ignoreBytes := r.needed - r.gotnow, lenLastReq := r.gotnow } } false := by
  have hplace := h.place
  refine ⟨⟨h.positive,h.small⟩,fun _ => ⟨hplace.le,h.within,h.positive,h.small⟩,fun h => (nomatch h),fun h => (nomatch h),
    ?_,fun h => (nomatch h),fun h => (nomatch h)⟩
  rintro _ ⟨⟩
  refine ⟨rfl,?_,?_⟩
  · change (slice r.oci.buffer (r.oci.bufptr + r.gotnow) (r.oci.bufcnt - (r.oci.bufptr + r.gotnow)) ++
      r.stream).drop (r.needed - r.gotnow) = _
    have hdata : r.data.drop r.needed = [] := List.drop_eq_nil_of_le (by rw [Reading.length_data]; exact hshort.le)
    rw [hplace,Nat.sub_self,slice_zero,List.nil_append,hs,Reading.ahead,List.drop_append,Reading.length_data,hdata,
      List.nil_append]
  · have hlen : r.gotnow ≤ s.ahead.length := by
      rw [hs]
      exact Reading.gotnow_le
    cases hknown with
    | small four has move needed =>
      rw [← hs] at has needed
      exact ⟨_,frame_small (four.trans hlen) has,by dsimp only; omega,fun hle => by omega⟩
    | big eight zero enabled move needed =>
      rw [← hs] at zero needed
      obtain ⟨n,hn⟩ := Nat.exists_eq_succ_of_ne_zero (show getBigReqLen s.swapped s.ahead ≠ 0 by omega)
      exact ⟨_,frame_big (eight.trans hlen) zero enabled hn,by rw [needed,hn],fun hle => by omega⟩

lemma received_settled {c : Client} (hswapped : c.swapped = s.swapped) (hbig : c.bigRequests = s.bigRequests)
    (hs : s.ahead = r.ahead) (hlast : r.oci.lenLastReq = 0) (hw : Wants maxBigRequestSize s r) (hok : r'.Ok)
    (hk : Keeps r r') : ∃ result r2 available, r'.received c = .ok (result,r2,available) ∧
      Settled maxBigRequestSize s r.oci.ignoreBytes result r2 available := by
  unfold Reading.received
  rw [hswapped,hbig,← hk.ignore]
  have hs' : s.ahead = r'.ahead := hs.trans hk.ahead.symm
  have hlast' : r'.oci.lenLastReq = 0 := hk.last.trans hlast
  cases hw with
  | skip ignores needed few head move =>
    rw [if_neg (by simp [hk.needHeader,head])]
    exact settle_settled hok hs' hlast' (.skip (hk.ignore ▸ ignores) (hk.skips needed) (hk.needed ▸ few)
      (hk.needHeader.trans head) (hk.moveHeader.trans move))
  | request ignores sound known head =>
    rw [if_neg (by simp [hk.needHeader,head])]
    exact settle_settled hok hs' hlast' (.request (hk.ignore.trans ignores) sound (known.keeps hk)
      (hk.needHeader.trans head))
  | header ignores sound short needed head move =>
    rw [← hk.needed] at needed
    rw [← hk.moveHeader,← hk.needed] at move
    replace move := fun h => (⟨(move h).1.trans hk.more,(move h).2⟩ :
      4 ≤ r'.gotnow ∧ getReqLen s.swapped s.ahead = 0 ∧ s.bigRequests = true)
    by_cases hcome : r'.needed ≤ r'.gotnow
    · rw [if_pos ⟨hk.needHeader.trans head,hcome⟩]
      obtain ⟨r2,hr2,hoci,hgot,hmax,hok2,hs2,htells⟩ := header_tells hok hs' sound (needed.1.trans hcome)
        fun hm => (move (.inl hm)).2
      rw [hr2]
      change ∃ result r3 available, (if r2.needed > maxWords then _ else _) = _ ∧ _
      rw [if_neg (Nat.not_lt.2 hmax),← hoci]
      have hlast2 : r2.oci.lenLastReq = 0 := by rw [hoci,hlast']
      have hign2 : r2.oci.ignoreBytes = 0 := by rw [hoci,hk.ignore,ignores]
      obtain ⟨hknown,-⟩ | ⟨hseven,htwo,hhead,hlong⟩ := htells
      · unfold Reading.settle
        split_ifs with hmore
        · exact ⟨_,_,_,rfl,settled_notYet hok2 hs2 hlast2 fun _ => hknown.waits hs2 hmore⟩
        · rw [hign2]
          exact finish_known hok2 hs2 sound hign2 hknown (Nat.le_of_not_lt hmore)
      · refine settle_settled hok2 hs2 hlast2 (.header hign2 sound ?_ ?_ hhead fun _ => ⟨?_,hlong⟩)
        · change r2.gotnow < 4*r2.needed
          omega
        · change 4 ≤ 4*r2.needed ∧ 4*r2.needed ≤ 8
          omega
        · change 4 ≤ r2.gotnow
          omega
    · rw [if_neg (fun h => hcome h.2)]
      exact settle_settled hok hs' hlast' (.header (hk.ignore.trans ignores) sound (Nat.lt_of_not_le hcome) needed
        (hk.needHeader.trans head) move)

lemma Wants.forget (hw : Wants maxBigRequestSize s r) :
    Wants maxBigRequestSize s { r with oci := { r.oci with lenLastReq := 0 } } := by
  cases hw with
  | skip ignores needed few head move => exact .skip ignores needed few head move
  | header ignores sound short needed head move => exact .header ignores sound short needed head move
  | request ignores sound known head =>
    refine .request ignores sound ?_ head
    cases known with
    | small four has move needed reqLen => exact .small four has move needed reqLen
    | big eight zero enabled move needed reqLen => exact .big eight zero enabled move needed reqLen

lemma more_settled {c : Client} {env : Surroundings} (hmax : 2 ≤ maxBigRequestSize) (hswapped : c.swapped = s.swapped)
    (hbig : c.bigRequests = s.bigRequests) (h : r.Ok) (hs : s.ahead = r.ahead) (hlast : r.oci.lenLastReq = 0)
    (hw : Wants maxBigRequestSize s r) (hshort : r.gotnow < r.needed) :
    ∃ result r' available, r.more maxBigRequestSize env c = .ok (result,r',available) ∧
      Settled maxBigRequestSize s r.oci.ignoreBytes result r' available := by
  unfold Reading.more
  by_cases hover : r.needed > 4*maxBigRequestSize
  · rw [if_pos hover]
    cases hw with
    | skip ignores needed few => omega
    | header ignores sound short needed => omega
    | request ignores sound known =>
      rw [ignores]
      exact ⟨_,_,_,rfl,settled_refused h hs known hshort hover⟩
  rw [if_neg hover]
  obtain ⟨hsize,hgotnow,hroom⟩ := makeRoom_keeps env.realloc h hshort (hw.needed_lt h hs)
  generalize r.makeRoom env.realloc = made at hsize hgotnow hroom ⊢
  obtain ⟨room,r1⟩ := made
  dsimp only at hsize hgotnow hroom ⊢
  split_ifs with hlost
  · exact ⟨_,_,_,rfl,settled_terminate hsize⟩
  obtain ⟨hok,hk⟩ := hroom (by cases room <;> simp_all)
  cases env.read with
  | wouldBlock =>
    rw [← hk.ignore]
    refine ⟨_,_,_,rfl,settled_notYet hok (hs.trans hk.ahead.symm) (hk.last.trans hlast) fun hi => ?_⟩
    rw [hgotnow]
    exact hw.waits hs hshort (hk.ignore ▸ hi)
  | fails => exact ⟨_,_,_,rfl,settled_terminate hsize⟩
  | takes n =>
    dsimp only
    split_ifs with hend
    · exact ⟨_,_,_,rfl,settled_terminate hsize⟩
    generalize hgot : r1.stream.take (min n (r1.oci.size - r1.oci.bufcnt)) = got
    have hfits : r1.oci.bufcnt + got.length ≤ r1.oci.size := by
      have := hok.within
      rw [← hgot,List.length_take]
      omega
    obtain ⟨hok2,hk2⟩ := receive_keeps hok (hgot ▸ List.take_prefix _ _) hfits
    obtain ⟨hok3,hk3⟩ := shrink_keeps env.shrink hok2
    exact received_settled hswapped hbig hs hlast hw hok3 (hk.trans (hk2.trans hk3))

lemma fetch_settled {c : Client} {env : Surroundings} (hmax : 2 ≤ maxBigRequestSize) (hswapped : c.swapped = s.swapped)
    (hbig : c.bigRequests = s.bigRequests) (h : r.Ok) (hs : s.ahead = r.ahead) (hw : Wants maxBigRequestSize s r) :
    ∃ result r' available, r.fetch maxBigRequestSize env c = .ok (result,r',available) ∧
      Settled maxBigRequestSize s r.oci.ignoreBytes result r' available := by
  unfold Reading.fetch
  by_cases hshort : r.gotnow < r.needed
  · rw [if_pos hshort]
    exact more_settled hmax hswapped hbig ⟨h.place,h.within,h.positive,h.small⟩ hs rfl hw.forget hshort
  · rw [if_neg hshort,hbig]
    exact finish_settled h hs hw (Nat.le_of_not_lt hshort)

lemma start_ok (c : Client) {oci : ConnectionInput} (h : oci.Ok) :
    (c.start oci).Ok ∧ (c.start oci).ahead = oci.pending ++ c.stream := by
  obtain ⟨hplace,hwithin,hpos,hsmall⟩ := h
  have hgot : (oci.bufcnt + 2^32 - (oci.bufptr + oci.lenLastReq)) % 2^32 = oci.bufcnt - (oci.bufptr + oci.lenLastReq) := by
    omega
  refine ⟨⟨?_,hwithin,hpos,hsmall⟩,?_⟩
  · change oci.bufptr + oci.lenLastReq + (oci.bufcnt + 2^32 - (oci.bufptr + oci.lenLastReq)) % 2^32 = oci.bufcnt
    omega
  · change slice oci.buffer (oci.bufptr + oci.lenLastReq)
      ((oci.bufcnt + 2^32 - (oci.bufptr + oci.lenLastReq)) % 2^32) ++ c.stream = _
    rw [hgot]
    rfl

/-- `ReadRequestFromClient` with a buffer. -/
theorem readRequest_settled {c : Client} {oci : ConnectionInput} {env : Surroundings} (hmax : 2 ≤ maxBigRequestSize)
    (hswapped : c.swapped = s.swapped) (hbig : c.bigRequests = s.bigRequests) (h : oci.Ok)
    (hs : s.ahead = oci.pending ++ c.stream) (hsound : oci.ignoreBytes = 0 → s.Sound)
    (hskip : 0 < oci.ignoreBytes → min oci.size oci.ignoreBytes ≤ 4*maxBigRequestSize) :
    ∃ result r available, c.readRequest maxBigRequestSize env oci = .ok (result,r,available) ∧
      Settled maxBigRequestSize s oci.ignoreBytes result r available := by
  obtain ⟨hok,hahead⟩ := start_ok c h
  rw [← hahead] at hs
  have hign : oci.ignoreBytes = (c.start oci).oci.ignoreBytes := rfl
  have hsize : oci.size = (c.start oci).oci.size := rfl
  have hhead : (c.start oci).needHeader = false := rfl
  have hmove : (c.start oci).moveHeader = false := rfl
  rw [hign] at hsound hskip ⊢
  rw [hsize] at hskip
  unfold Client.readRequest
  dsimp only
  generalize c.start oci = r at *
  by_cases hignores : 0 < r.oci.ignoreBytes
  · rw [if_pos hignores]
    have hmin : (if r.oci.ignoreBytes > r.oci.size then r.oci.size else r.oci.ignoreBytes) =
        min r.oci.size r.oci.ignoreBytes := by
      split_ifs <;> omega
    rw [hmin]
    have hfew := hskip hignores
    generalize hn : min r.oci.size r.oci.ignoreBytes = n at hfew ⊢
    exact fetch_settled (r := { r with needed := n }) hmax hswapped hbig ⟨hok.place,hok.within,hok.positive,hok.small⟩ hs
      (.skip hignores hn.symm hfew hhead hmove)
  have hzero : r.oci.ignoreBytes = 0 := Nat.eq_zero_of_not_pos hignores
  rw [if_neg hignores]
  by_cases hfour : r.gotnow < 4
  · rw [if_pos hfour]
    exact fetch_settled (r := { r with needed := 4, needHeader := true }) hmax hswapped hbig
      ⟨hok.place,hok.within,hok.positive,hok.small⟩ hs
      (.header hzero (hsound hzero) hfour ⟨le_rfl,(by decide : 4 ≤ 8)⟩ rfl fun hm => by simp [hmove] at hm)
  rw [if_neg hfour,hswapped,hbig]
  obtain ⟨r1,hr1,hoci,hgot,hmaxw,hok1,hs1,htells⟩ := header_tells hok hs (hsound hzero) (Nat.le_of_not_lt hfour)
    fun hm => by simp [hmove] at hm
  rw [hr1]
  change ∃ result r3 available, (if r1.needed > maxWords then _ else _) = _ ∧ _
  rw [if_neg (Nat.not_lt.2 hmaxw),← hoci]
  rw [← hoci] at hzero
  refine fetch_settled (r := { r1 with needed := 4*r1.needed }) hmax hswapped hbig hok1 hs1 ?_
  obtain ⟨hknown,hneed⟩ | ⟨hseven,htwo,hneed,hlong⟩ := htells
  · exact .request hzero (hsound (hoci ▸ hzero)) hknown (hneed.trans hhead)
  · refine .header hzero (hsound (hoci ▸ hzero)) ?_ ?_ hneed fun _ => ⟨?_,hlong⟩
    · change r1.gotnow < 4*r1.needed
      omega
    · change 4 ≤ 4*r1.needed ∧ 4*r1.needed ≤ 8
      omega
    · change 4 ≤ r1.gotnow
      omega

end Xlibre.Os.Input
