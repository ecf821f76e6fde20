import Xlibre.Os.Requests

/-! A request that is read a second time: `ResetCurrentRequest`. -/
namespace Xlibre.Os.Input
open Xlibre.Lib Checked

/-- The bytes of a `CARD32` as the client writes them. -/
def cardBytes (swapped : Bool) (n : ℕ) : List Byte :=
  let l := [BitVec.ofNat 8 n,BitVec.ofNat 8 (n/2^8),BitVec.ofNat 8 (n/2^16),BitVec.ofNat 8 (n/2^24)]
  if swapped then l.reverse else l

/-- The buffer as `ResetCurrentRequest` leaves it: the last request is the next one again, and a big one gets back a length
of so many words. -/
def ConnectionInput.reset (swapped bigRequests : Bool) (reqLen : ℕ) (oci : ConnectionInput) :
    Except Fault ConnectionInput :=
  let oci := { oci with lenLastReq := 0 }
  let gotnow : ℤ := oci.bufcnt - oci.bufptr
  -- `sizeof` is unsigned, so that a negative number is not below it
  if 0 ≤ gotnow ∧ gotnow < 4 then .ok oci
  else if oci.size < oci.bufptr + 4 then .error .overread
  else
    let request := slice oci.buffer oci.bufptr 4
    if getReqLen swapped request = 0 ∧ bigRequests = true then
      if oci.bufptr < 4 then .error .overread
      else
        let bufptr := oci.bufptr - 4
        .ok { oci with bufptr, buffer := store (store oci.buffer bufptr request) (bufptr + 4) (cardBytes swapped reqLen) }
    else .ok oci

def resetCurrentRequest (s : Server) (who : ℕ) : Except Fault Server :=
  let c := s.client who
  match c.input with
  | none => .error .nullPointer
  | some oci => do
    let availableInput := if s.availableInput = some who then none else s.availableInput
    let oci ← oci.reset c.swapped c.bigRequests c.reqLen
    return { s.set who { c with input := some oci } with availableInput }

variable {maxBigRequestSize n : ℕ} {swapped bigRequests available : Bool} {r r' : Reading} {c : Client}
  {oci : ConnectionInput} {env : Surroundings} {s s' : Server} {who : ℕ}

section Found

/-- All of a request is in the buffer, and its length is known. -/
structure Reading.Whole (swapped bigRequests : Bool) (r : Reading) : Prop where
  ok : r.Ok
  ignores : r.oci.ignoreBytes = 0
  known : r.Known swapped bigRequests
  all : r.needed ≤ r.gotnow

/-- What a call is after, whether or not the lengths to come are sound. -/
inductive Aims (swapped bigRequests : Bool) (r : Reading) : Prop
  | skip (ignores : 0 < r.oci.ignoreBytes) (head : r.needHeader = false)
  | header (ignores : r.oci.ignoreBytes = 0) (needed : 4 ≤ r.needed) (head : r.needHeader = true)
      (move : r.moveHeader = true → getReqLen swapped r.ahead = 0 ∧ bigRequests = true)
  | request (ignores : r.oci.ignoreBytes = 0) (known : r.Known swapped bigRequests) (head : r.needHeader = false)

lemma Aims.keeps (h : Aims swapped bigRequests r) (hk : Keeps r r') : Aims swapped bigRequests r' := by
  cases h with
  | skip ignores head => exact .skip (hk.ignore ▸ ignores) (hk.needHeader.trans head)
  | header ignores needed head move =>
    refine .header (hk.ignore.trans ignores) (hk.needed ▸ needed) (hk.needHeader.trans head) fun hm => ?_
    rw [hk.ahead]
    exact move (hk.moveHeader.symm.trans hm)
  | request ignores known head => exact .request (hk.ignore.trans ignores) (known.keeps hk) (hk.needHeader.trans head)

lemma ignore_needed {r₁ : Reading} (h : r.ignore = .ok r₁) : r₁.needed = 0 := by
  unfold Reading.ignore at h
  by_cases hassert : r.needed ≠ r.oci.ignoreBytes ∧ r.needed ≠ r.oci.size
  · rw [if_pos hassert] at h
    cases h
  · rw [if_neg hassert] at h
    rw [← Except.ok.inj h]

lemma finish_ignores (hi : 0 < r.oci.ignoreBytes) : r.finish bigRequests ≠ .ok (.value n,r',available) := by
  unfold Reading.finish
  dsimp only
  rw [if_pos hi]
  intro h
  obtain ⟨r₁,hr₁,hrest⟩ := bind_eq_ok.1 h
  have hzero := ignore_needed hr₁
  by_cases hmove : r₁.moveHeader = true ∧ r₁.reqLen < 1
  · rw [if_pos hmove] at hrest
    cases hrest
  · rw [if_neg hmove] at hrest
    have hresult : (if r₁.moveHeader then
        ({ r₁ with oci := { r₁.oci with lenLastReq := r₁.needed }, gotnow := r₁.gotnow - r₁.needed } : Reading).moveHeaderUp
        else { r₁ with oci := { r₁.oci with lenLastReq := r₁.needed }, gotnow := r₁.gotnow - r₁.needed }).needed = 0 := by
      split_ifs
      · exact hzero
      · exact hzero
    have hvalue := congrArg Prod.fst (Except.ok.inj hrest)
    dsimp only at hvalue
    rw [if_pos hresult] at hvalue
    cases hvalue

lemma settle_value (h : r.settle bigRequests = .ok (.value n,r',available)) :
    r.needed ≤ r.gotnow ∧ r.finish bigRequests = .ok (.value n,r',available) := by
  unfold Reading.settle at h
  by_cases hshort : r.gotnow < r.needed
  · rw [if_pos hshort] at h
    cases h
  · rw [if_neg hshort] at h
    exact ⟨Nat.le_of_not_lt hshort,h⟩

lemma received_value (hok : r.Ok) (haims : Aims c.swapped c.bigRequests r)
    (h : r.received c = .ok (.value n,r',available)) :
    ∃ r₀ : Reading, r₀.Whole c.swapped c.bigRequests ∧ r₀.finish c.bigRequests = .ok (.value n,r',available) := by
  unfold Reading.received at h
  cases haims with
  | skip ignores head =>
    rw [if_neg (by simp [head])] at h
    exact absurd (settle_value h).2 (finish_ignores ignores)
  | request ignores known head =>
    rw [if_neg (by simp [head])] at h
    exact ⟨r,⟨hok,ignores,known,(settle_value h).1⟩,(settle_value h).2⟩
  | header ignores needed head move =>
    by_cases hcome : r.needed ≤ r.gotnow
    · rw [if_pos ⟨head,hcome⟩] at h
      obtain ⟨r₁,hr₁,hoci,hstream,hgot,htells⟩ := header_reads _ _ hok (needed.trans hcome) move
      rw [hr₁] at h
      change (if r₁.needed > maxWords then _ else _) = _ at h
      have hok₁ : ({ r₁ with needed := 4*r₁.needed } : Reading).Ok :=
        ⟨by rw [hoci,hgot]; exact hok.place,by rw [hoci]; exact hok.within,by rw [hoci]; exact hok.positive,
          by rw [hoci]; exact hok.small⟩
      split_ifs at h with hmax
      · cases h
      · obtain ⟨hall,hfinish⟩ := settle_value h
        obtain ⟨hknown,-⟩ | ⟨hseven,htwo,-⟩ := htells
        · exact ⟨_,⟨hok₁,(congrArg _ hoci).trans ignores,hknown,hall⟩,hfinish⟩
        · dsimp only at hall
          omega
    · rw [if_neg fun hh => hcome hh.2] at h
      exact absurd (settle_value h).1 hcome

lemma more_value (hok : r.Ok) (haims : Aims c.swapped c.bigRequests r) (hshort : r.gotnow < r.needed)
    (hsmall : r.needed < 2^31) (hn : n ≤ 4*maxBigRequestSize)
    (h : r.more maxBigRequestSize env c = .ok (.value n,r',available)) :
    ∃ r₀ : Reading, r₀.Whole c.swapped c.bigRequests ∧ r₀.finish c.bigRequests = .ok (.value n,r',available) := by
  unfold Reading.more at h
  by_cases hover : r.needed > 4*maxBigRequestSize
  · rw [if_pos hover] at h
    cases h
    omega
  rw [if_neg hover] at h
  obtain ⟨-,-,hroom⟩ := makeRoom_keeps env.realloc hok hshort hsmall
  generalize r.makeRoom env.realloc = made at hroom h
  obtain ⟨room,r₁⟩ := made
  dsimp only at hroom h
  split_ifs at h with hlost
  · cases h
  obtain ⟨hok₁,hk₁⟩ := hroom (by cases room <;> simp_all)
  cases hread : env.read with
  | wouldBlock =>
    rw [hread] at h
    cases h
  | fails =>
    rw [hread] at h
    cases h
  | takes k =>
    rw [hread] at h
    dsimp only at h
    split_ifs at h with hend
    · cases h
    generalize hgot : r₁.stream.take (min k (r₁.oci.size - r₁.oci.bufcnt)) = got at h
    have hfits : r₁.oci.bufcnt + got.length ≤ r₁.oci.size := by
      have := hok₁.within
      rw [← hgot,List.length_take]
      omega
    obtain ⟨hok₂,hk₂⟩ := receive_keeps hok₁ (hgot ▸ List.take_prefix _ _) hfits
    obtain ⟨hok₃,hk₃⟩ := shrink_keeps env.shrink hok₂
    exact received_value hok₃ (haims.keeps (hk₁.trans (hk₂.trans hk₃))) h

lemma fetch_value (hok : r.Ok) (haims : Aims c.swapped c.bigRequests r) (hsmall : r.needed < 2^31)
    (hn : n ≤ 4*maxBigRequestSize) (hhead : r.needHeader = true → r.gotnow < r.needed)
    (h : r.fetch maxBigRequestSize env c = .ok (.value n,r',available)) :
    ∃ r₀ : Reading, r₀.Whole c.swapped c.bigRequests ∧ r₀.finish c.bigRequests = .ok (.value n,r',available) := by
  unfold Reading.fetch at h
  by_cases hshort : r.gotnow < r.needed
  · rw [if_pos hshort] at h
    refine more_value (r := { r with oci := { r.oci with lenLastReq := 0 } }) ⟨hok.place,hok.within,hok.positive,hok.small⟩ ?_ hshort hsmall hn h
    cases haims with
    | skip ignores head => exact .skip ignores head
    | header ignores needed head move => exact .header ignores needed head move
    | request ignores known head =>
      refine .request ignores ?_ head
      cases known with
      | small four has move needed reqLen => exact .small four has move needed reqLen
      | big eight zero enabled move needed reqLen => exact .big eight zero enabled move needed reqLen
  · rw [if_neg hshort] at h
    cases haims with
    | skip ignores head => exact absurd h (finish_ignores ignores)
    | header ignores needed head move => exact absurd (hhead head) hshort
    | request ignores known head => exact ⟨r,⟨hok,ignores,known,Nat.le_of_not_lt hshort⟩,h⟩

lemma readRequest_value (h : oci.Ok) (hn : n ≤ 4*maxBigRequestSize)
    (hread : c.readRequest maxBigRequestSize env oci = .ok (.value n,r,available)) :
    ∃ r₀ : Reading, r₀.Whole c.swapped c.bigRequests ∧ r₀.finish c.bigRequests = .ok (.value n,r,available) := by
  obtain ⟨hok,-⟩ := start_ok c h
  have hhead : (c.start oci).needHeader = false := rfl
  have hmove : (c.start oci).moveHeader = false := rfl
  unfold Client.readRequest at hread
  dsimp only at hread
  generalize c.start oci = r₁ at *
  by_cases hignores : 0 < r₁.oci.ignoreBytes
  · have hless : (if r₁.oci.ignoreBytes > r₁.oci.size then r₁.oci.size else r₁.oci.ignoreBytes) < 2^31 := by
      have := hok.small
      split_ifs <;> omega
    rw [if_pos hignores] at hread
    generalize (if r₁.oci.ignoreBytes > r₁.oci.size then r₁.oci.size else r₁.oci.ignoreBytes) = k at hread hless
    exact fetch_value (r := { r₁ with needed := k }) ⟨hok.place,hok.within,hok.positive,hok.small⟩
      (.skip hignores hhead) hless hn (fun hh => nomatch hhead.symm.trans hh) hread
  have hzero : r₁.oci.ignoreBytes = 0 := Nat.eq_zero_of_not_pos hignores
  rw [if_neg hignores] at hread
  by_cases hfour : r₁.gotnow < 4
  · rw [if_pos hfour] at hread
    refine fetch_value (r := { r₁ with needed := 4, needHeader := true })
      ⟨hok.place,hok.within,hok.positive,hok.small⟩ (.header hzero le_rfl rfl fun hm => ?_) (show 4 < 2^31 by decide) hn
      (fun _ => hfour) hread
    cases hmove.symm.trans hm
  rw [if_neg hfour] at hread
  obtain ⟨r₂,hr₂,hoci,hstream,hgot,htells⟩ := header_reads c.swapped c.bigRequests hok
    (Nat.le_of_not_lt hfour) fun hm => nomatch hmove.symm.trans hm
  rw [hr₂] at hread
  change (if r₂.needed > maxWords then _ else _) = _ at hread
  have hok₂ : ({ r₂ with needed := 4*r₂.needed } : Reading).Ok :=
    ⟨by rw [hoci,hgot]; exact hok.place,by rw [hoci]; exact hok.within,by rw [hoci]; exact hok.positive,
      by rw [hoci]; exact hok.small⟩
  split_ifs at hread with hmax
  · cases hread
  rw [← hoci] at hzero
  have hsmall : 4*r₂.needed < 2^31 := by
    unfold maxWords at hmax
    omega
  obtain ⟨hknown,hneed⟩ | ⟨hseven,htwo,hneed,hlong⟩ := htells
  · exact fetch_value hok₂ (.request hzero hknown (hneed.trans hhead)) hsmall hn
      (fun hh => nomatch (hneed.trans hhead).symm.trans hh) hread
  · refine fetch_value hok₂ (.header hzero ?_ hneed fun _ => ?_) hsmall hn (fun _ => ?_) hread
    · dsimp only
      omega
    · change getReqLen c.swapped (slice r₂.oci.buffer r₂.oci.bufptr r₂.gotnow ++ r₂.stream) = 0 ∧ _
      rw [hoci,hgot,hstream]
      exact hlong
    · dsimp only
      omega

lemma readRequest_whole (maxBigRequestSize : ℕ) (env : Surroundings) (h : oci.Ok) (hi : oci.ignoreBytes = 0) (hfour : 4 ≤ oci.pending.length)
    (hall : if getReqLen c.swapped oci.pending = 0 ∧ c.bigRequests = true then
      8 ≤ oci.pending.length ∧ 4*getBigReqLen c.swapped oci.pending ≤ oci.pending.length
      else 4*getReqLen c.swapped oci.pending ≤ oci.pending.length) :
    ∃ r₀ : Reading, r₀.Whole c.swapped c.bigRequests ∧
      c.readRequest maxBigRequestSize env oci = r₀.finish c.bigRequests ∧
      r₀.oci = { oci with bufptr := oci.bufptr + oci.lenLastReq } ∧ r₀.stream = c.stream := by
  obtain ⟨hok,-⟩ := start_ok c h
  have hpending : (c.start oci).data = oci.pending := by
    have hplace := hok.place
    change slice oci.buffer (oci.bufptr + oci.lenLastReq) (c.start oci).gotnow = slice _ _ _
    congr 1
    change oci.bufptr + oci.lenLastReq + (c.start oci).gotnow = oci.bufcnt at hplace
    omega
  have hgot : (c.start oci).gotnow = oci.pending.length := by rw [← hpending,Reading.length_data]
  have hstart : (c.start oci).oci = { oci with bufptr := oci.bufptr + oci.lenLastReq } ∧
    (c.start oci).stream = c.stream ∧ (c.start oci).moveHeader = false := ⟨rfl,rfl,rfl⟩
  have hzero : (c.start oci).oci.ignoreBytes = 0 := hi
  rw [← hstart.1,← hstart.2.1]
  unfold Client.readRequest
  dsimp only
  generalize c.start oci = r₁ at *
  rw [← hgot] at hfour hall
  have hreq : getReqLen c.swapped r₁.ahead = getReqLen c.swapped oci.pending := by
    rw [← getReqLen_take _ _ hfour,← hpending,Reading.ahead,List.take_left' Reading.length_data]
  rw [if_neg (by omega),if_neg (by omega)]
  obtain ⟨r₂,hr₂,hoci,hstream,hgot₂,htells⟩ := header_reads c.swapped c.bigRequests hok hfour
    fun hm => by cases hstart.2.2.symm.trans hm
  have hok₂ : ({ r₂ with needed := 4*r₂.needed } : Reading).Ok :=
    ⟨by rw [hoci,hgot₂]; exact hok.place,by rw [hoci]; exact hok.within,by rw [hoci]; exact hok.positive,
      by rw [hoci]; exact hok.small⟩
  have hahead : ({ r₂ with needed := 4*r₂.needed } : Reading).ahead = r₁.ahead := by
    change slice r₂.oci.buffer r₂.oci.bufptr r₂.gotnow ++ r₂.stream = _
    rw [hoci,hstream,hgot₂]
    rfl
  have hknown : ({ r₂ with needed := 4*r₂.needed } : Reading).Known c.swapped c.bigRequests := by
    obtain ⟨hknown,-⟩ | ⟨hseven,-,-,hlong⟩ := htells
    · exact hknown
    · rw [hreq] at hlong
      rw [if_pos hlong] at hall
      omega
  have henough : 4*r₂.needed ≤ r₂.gotnow := by
    rw [hgot₂]
    cases hknown with
    | small four has move needed =>
      rw [hahead,hreq] at has needed
      rw [if_neg has] at hall
      exact needed.le.trans hall
    | big eight zero enabled move needed =>
      rw [hahead] at zero needed
      rw [if_pos ⟨hreq ▸ zero,enabled⟩] at hall
      have hbig : getBigReqLen c.swapped r₁.ahead = getBigReqLen c.swapped oci.pending := by
        rw [← getBigReqLen_take _ _ hall.1,← hpending,Reading.ahead,List.take_left' Reading.length_data]
      rw [hbig] at needed
      exact needed.le.trans hall.2
  refine ⟨{ r₂ with needed := 4*r₂.needed },⟨hok₂,(congrArg _ hoci).trans hzero,hknown,henough⟩,?_,hoci,hstream⟩
  have hwithin := hok₂.within
  have hplace := hok₂.place
  have hsmall := hok₂.small
  rw [hr₂]
  change (if r₂.needed > maxWords then _ else _) = _
  rw [if_neg (by unfold maxWords; dsimp only at hwithin hplace hsmall; omega)]
  unfold Reading.fetch
  rw [if_neg (Nat.not_lt.2 henough)]

lemma Reading.Whole.finish_small (h : r.Whole swapped bigRequests)
    (has : ¬(getReqLen swapped r.ahead = 0 ∧ bigRequests = true)) :
    r.reqLen = getReqLen swapped r.ahead ∧ r.oci.bufptr + max 4 (4*r.reqLen) ≤ r.oci.bufcnt ∧
    r.finish bigRequests = .ok (.value (max 4 (4*r.reqLen)),
      { r.taken (max 4 (4*r.reqLen)) with requestBuffer := r.oci.bufptr },decide (r.gotnow ≤ max 4 (4*r.reqLen))) := by
  have hplace := h.ok.place
  have hall := h.all
  cases h.known with
  | big eight zero enabled => exact absurd ⟨zero,enabled⟩ has
  | small four _ move needed reqLen =>
    refine ⟨reqLen,by omega,?_⟩
    have hlong : (if r.needed = 0 then (if bigRequests then 8 else 4) else r.needed) = max 4 (4*r.reqLen) := by
      by_cases hzero : r.reqLen = 0
      · have hbig : bigRequests = false := by simpa [← reqLen,hzero] using has
        rw [if_pos (by omega),hzero,hbig]
        rfl
      · rw [if_neg (by omega)]
        omega
    have hfinish := finish_eq h.ignores hlong (by omega)
    rwa [if_neg (by simp [move]),move] at hfinish

lemma Reading.Whole.finish_big (h : r.Whole swapped bigRequests)
    (hbig : getReqLen swapped r.ahead = 0 ∧ bigRequests = true) :
    r.reqLen = getBigReqLen swapped r.ahead ∧ 8 ≤ r.gotnow ∧ 4*r.reqLen ≤ r.gotnow ∧
    ((∃ r',r.finish bigRequests = .ok (.terminate,r',decide (r.gotnow ≤ 8))) ∧ r.reqLen = 0 ∨
      r.finish bigRequests = .ok (.value (4*r.reqLen),
        { (r.taken (4*r.reqLen)).moveHeaderUp with requestBuffer := r.oci.bufptr + 4 },decide (r.gotnow ≤ 4*r.reqLen)) ∧
      r.reqLen ≠ 0) := by
  have hall := h.all
  cases h.known with
  | small _ has => exact absurd hbig has
  | big eight zero enabled move needed reqLen =>
    refine ⟨reqLen,eight,by omega,?_⟩
    by_cases hzero : r.reqLen = 0
    · refine .inl ⟨?_,hzero⟩
      have hlong : (if r.needed = 0 then (if bigRequests then 8 else 4) else r.needed) = 8 := by
        rw [if_pos (by omega),enabled]
        rfl
      have hfinish := finish_eq h.ignores hlong (by decide)
      rw [if_pos ⟨move,by omega⟩] at hfinish
      exact ⟨_,hfinish⟩
    · refine .inr ⟨?_,hzero⟩
      have hlong : (if r.needed = 0 then (if bigRequests then 8 else 4) else r.needed) = 4*r.reqLen := by
        rw [if_neg (by omega)]
        omega
      have hfinish := finish_eq h.ignores hlong (by omega)
      rwa [if_neg (by omega),move] at hfinish

end Found

section Servers

structure Server.Placed (s : Server) : Prop where
  inputs : ∀ c oci, (s.client c).input = some oci → oci.Ok
  free : ∀ oci ∈ s.freeInputs, oci.Ok

lemma nextAvailableInput_placed (hs : s.Placed) (h : s.nextAvailableInput who = .ok s') :
    s'.Placed ∧ s'.availableInput = none := by
  unfold Server.nextAvailableInput at h
  cases hav : s.availableInput with
  | none =>
    rw [hav] at h
    cases h
    exact ⟨hs,hav⟩
  | some oc =>
    rw [hav] at h
    dsimp only at h
    by_cases hwho : oc = who
    · rw [if_pos hwho] at h
      cases h
      exact ⟨⟨hs.inputs,hs.free⟩,rfl⟩
    rw [if_neg hwho] at h
    cases hin : (s.client oc).input with
    | none =>
      rw [hin] at h
      cases h
    | some aci =>
      rw [hin] at h
      cases h
      refine ⟨⟨fun c oci hoci => ?_,fun oci hoci => ?_⟩,rfl⟩
      · change ((s.set oc _).client c).input = some oci at hoci
        by_cases hc : c = oc
        · rw [hc,set_self] at hoci
          cases hoci
        · rw [set_ne _ hc] at hoci
          exact hs.inputs c oci hoci
      · dsimp only at hoci
        split_ifs at hoci
        · exact hs.free oci hoci
        · obtain rfl | hfree := List.mem_cons.1 hoci
          · exact hs.inputs oc oci hin
          · exact hs.free oci hfree

lemma ensureInput_placed (hs : s.Placed) {alloc : Bool} (h : s.ensureInput who alloc = (some oci,s')) :
    oci.Ok ∧ s'.availableInput = s.availableInput := by
  unfold Server.ensureInput at h
  split at h
  · next own _ hin =>
    cases h
    exact ⟨hs.inputs who _ hin,rfl⟩
  · next own rest hin hfree =>
    cases h
    exact ⟨hs.free _ (by rw [hfree]; exact List.mem_cons_self),rfl⟩
  · split_ifs at h with halloc <;> cases h
    exact ⟨⟨le_rfl,Nat.zero_le _,by decide,by decide⟩,rfl⟩

lemma read_found (hs : s.Placed) (hn : n ≤ 4*maxBigRequestSize)
    (hread : readRequestFromClient maxBigRequestSize env s who = .ok (.value n,s')) :
    ∃ (r₀ r : Reading) (available : Bool), r₀.Whole (s'.client who).swapped (s'.client who).bigRequests ∧
      r₀.finish (s'.client who).bigRequests = .ok (.value n,r,available) ∧
      s'.client who = (s'.client who).finished r ∧ s'.availableInput = if available then some who else none := by
  unfold readRequestFromClient at hread
  obtain ⟨s₁,hnext,hread⟩ := bind_eq_ok.1 hread
  obtain ⟨hplaced,hav⟩ := nextAvailableInput_placed hs hnext
  generalize hens : s₁.ensureInput who env.alloc = e at hread
  obtain ⟨own,s₂⟩ := e
  cases own with
  | none => cases hread
  | some oci =>
    obtain ⟨hok,hav₂⟩ := ensureInput_placed hplaced hens
    obtain ⟨⟨result,r,available⟩,hcall,hrest⟩ := bind_eq_ok.1 hread
    cases hrest
    obtain ⟨r₀,hwhole,hfinish⟩ := readRequest_value hok hn hcall
    have hclient : ({ s₂.set who ((s₂.client who).finished r) with
        availableInput := if available then some who else s₂.availableInput } : Server).client who =
        (s₂.client who).finished r := set_self _
    refine ⟨r₀,r,available,?_,?_,?_,?_⟩
    · rw [hclient]
      exact hwhole
    · rw [hclient]
      exact hfinish
    · rw [hclient]
      rfl
    · rw [← hav,← hav₂]

lemma read_own (hav : s.availableInput = none) (hin : (s.client who).input = some oci) :
    readRequestFromClient maxBigRequestSize env s who = do
      let (result,r,available) ← (s.client who).readRequest maxBigRequestSize env oci
      return (result,{ s.set who ((s.client who).finished r) with
        availableInput := if available then some who else s.availableInput }) := by
  have hnext : s.nextAvailableInput who = .ok s := by
    unfold Server.nextAvailableInput
    rw [hav]
  have hens : s.ensureInput who env.alloc = (some oci,s) := by
    unfold Server.ensureInput
    rw [hin]
  unfold readRequestFromClient
  rw [hnext]
  dsimp only [bind,Except.bind]
  rw [hens]

end Servers

section Again

lemma set_again {c c' : Client} {av av' : Option ℕ} (hc : c' = s.client who) (hav : av' = s.availableInput) :
    { ({ s.set who c with availableInput := av } : Server).set who c' with availableInput := av' } = s := by
  subst hc hav
  obtain ⟨client,freeInputs,availableInput⟩ := s
  simp only [Server.set,Function.update_idem,Function.update_eq_self]

lemma given_up {av : Option ℕ} {b : Bool} (h : av = if b then some who else none) :
    (if av = some who then none else av) = none := by
  subst h
  cases b <;> simp

lemma reset_set {ic : ConnectionInput} {available : Bool} (hin : (s.client who).input = some ic)
    (hreset : ConnectionInput.reset (s.client who).swapped (s.client who).bigRequests (s.client who).reqLen ic = .ok oci)
    (hav : s.availableInput = if available then some who else none) : resetCurrentRequest s who =
      .ok { s.set who { s.client who with input := some oci } with availableInput := none } := by
  unfold resetCurrentRequest
  dsimp only
  rw [hin]
  dsimp only
  rw [hreset,given_up hav]
  rfl

lemma reset_small (maxBigRequestSize : ℕ) {r₀ : Reading} (h : r₀.Whole (s.client who).swapped (s.client who).bigRequests)
    (has : ¬(getReqLen (s.client who).swapped r₀.ahead = 0 ∧ (s.client who).bigRequests = true))
    (hfinish : r₀.finish (s.client who).bigRequests = .ok (.value n,r,available))
    (hclient : s.client who = (s.client who).finished r)
    (hav : s.availableInput = if available then some who else none) :
    ∃ s', resetCurrentRequest s who = .ok s' ∧
      ∀ env, readRequestFromClient maxBigRequestSize env s' who = .ok (.value n,s) := by
  obtain ⟨hreqLen,hend,hvalue⟩ := h.finish_small has
  rw [hvalue] at hfinish
  cases hfinish
  have hplace := h.ok.place
  have hwithin := h.ok.within
  generalize hm : max 4 (4*r₀.reqLen) = m at *
  have hin : (s.client who).input = some { r₀.oci with lenLastReq := m } := by rw [hclient]; rfl
  set oci : ConnectionInput := { r₀.oci with lenLastReq := 0 } with hoci
  have hpending : oci.pending = r₀.data := by
    change slice r₀.oci.buffer (r₀.oci.bufptr + 0) (r₀.oci.bufcnt - (r₀.oci.bufptr + 0)) = _
    rw [Nat.add_zero,← hplace,Nat.add_sub_cancel_left]
    rfl
  have hfour : 4 ≤ r₀.gotnow := by omega
  have hlength : getReqLen (s.client who).swapped r₀.data = getReqLen (s.client who).swapped r₀.ahead := by
    rw [← getReqLen_take _ r₀.ahead hfour,Reading.ahead,List.take_left' Reading.length_data]
  have hheader : getReqLen (s.client who).swapped (slice r₀.oci.buffer r₀.oci.bufptr 4) =
      getReqLen (s.client who).swapped r₀.ahead := getReqLen_slice _ _ _ hfour _
  have hreset : ConnectionInput.reset (s.client who).swapped (s.client who).bigRequests (s.client who).reqLen
      { r₀.oci with lenLastReq := m } = .ok oci := by
    unfold ConnectionInput.reset
    dsimp only
    rw [if_neg (by omega),if_neg (by omega),hheader,if_neg has]
  refine ⟨{ s.set who { s.client who with input := some oci } with availableInput := none },reset_set hin hreset hav,fun env => ?_⟩
  have hown : ({ s.set who { s.client who with input := some oci } with availableInput := none } : Server).client who =
      { s.client who with input := some oci } := set_self _
  rw [read_own rfl (by rw [hown]),hown]
  obtain ⟨r₁,hwhole,hread,hoci₁,hstream⟩ := readRequest_whole (c := { s.client who with input := some oci })
    maxBigRequestSize env (show oci.Ok from
      ⟨by change r₀.oci.bufptr + 0 ≤ r₀.oci.bufcnt; omega,hwithin,h.ok.positive,h.ok.small⟩) h.ignores
    (by rw [hpending,Reading.length_data]; exact hfour) (by
      rw [hpending,Reading.length_data]
      dsimp only
      rw [hlength,if_neg has]
      omega)
  have hplace₁ := hwhole.ok.place
  have hgot : r₁.gotnow = r₀.gotnow := by
    rw [hoci₁] at hplace₁
    change r₀.oci.bufptr + 0 + r₁.gotnow = r₀.oci.bufcnt at hplace₁
    omega
  have hbuf : r₁.stream = r₀.stream := by
    rw [hstream]
    change (s.client who).stream = _
    rw [hclient]
    rfl
  have hahead : r₁.ahead = r₀.ahead := by
    rw [Reading.ahead,Reading.ahead,Reading.data,Reading.data,hgot,hbuf,hoci₁]
    rfl
  obtain ⟨hreqLen₁,-,hvalue₁⟩ := hwhole.finish_small (by rw [hahead]; exact has)
  have hsame : r₁.reqLen = r₀.reqLen := by
    rw [hreqLen₁,hreqLen,hahead]
  rw [hread,hvalue₁,hsame,hm,hgot]
  change Except.ok (Result.value m,_) = _
  congr 2
  refine set_again ?_ hav.symm
  have hparts : r₁.oci = oci := hoci₁
  rw [hclient]
  simp only [Client.finished,Reading.taken,hparts,hbuf,hsame,hoci]

@[simp] lemma length_cardBytes (swapped : Bool) (n : ℕ) : (cardBytes swapped n).length = 4 := by
  unfold cardBytes
  cases swapped <;> rfl

lemma getBigReqLen_cardBytes {l : List Byte} (hl : l.length = 4) (hn : n < 2^32) :
    getBigReqLen swapped (l ++ cardBytes swapped n) = n := by
  obtain ⟨a,b,c,d,rfl⟩ := List.length_eq_four.1 hl
  cases swapped <;>
  · simp only [getBigReqLen,cardBytes,List.cons_append,List.nil_append,List.reverse_cons,List.reverse_nil,
      List.getD_cons_succ,List.getD_cons_zero,BitVec.toNat_ofNat,if_true,if_false,Bool.false_eq_true]
    omega

lemma reset_big (maxBigRequestSize : ℕ) {r₀ : Reading} (h : r₀.Whole (s.client who).swapped (s.client who).bigRequests)
    (hbig : getReqLen (s.client who).swapped r₀.ahead = 0 ∧ (s.client who).bigRequests = true)
    (hfinish : r₀.finish (s.client who).bigRequests = .ok (.value n,r,available))
    (hclient : s.client who = (s.client who).finished r)
    (hav : s.availableInput = if available then some who else none) :
    ∃ s', resetCurrentRequest s who = .ok s' ∧ ∀ env n' s'',
      readRequestFromClient maxBigRequestSize env s' who = .ok (.value n',s'') →
        n' + 4 = n ∧ (s''.client who).reqLen + 1 = (s.client who).reqLen := by
  obtain ⟨hreqLen,height,hall,⟨⟨r',hterminate⟩,-⟩ | ⟨hvalue,hpos⟩⟩ := h.finish_big hbig
  · rw [hterminate] at hfinish
    cases hfinish
  rw [hvalue] at hfinish
  cases hfinish
  have hplace := h.ok.place
  have hwithin := h.ok.within
  have hsmall := h.ok.small
  obtain ⟨k,hk⟩ := Nat.exists_eq_succ_of_ne_zero hpos
  have hwords : (s.client who).reqLen = k := by
    rw [hclient]
    change r₀.reqLen - 1 = k
    omega
  set head := slice r₀.oci.buffer r₀.oci.bufptr 4 with hhead
  have hfour : head.length = 4 := length_slice
  set moved := store r₀.oci.buffer (r₀.oci.bufptr + 4) head with hmoved
  have hin : (s.client who).input = some
      { r₀.oci with buffer := moved, bufptr := r₀.oci.bufptr + 4, lenLastReq := 4*r₀.reqLen - 4 } := by
    rw [hclient]
    rfl
  have hrequest : slice moved (r₀.oci.bufptr + 4) 4 = head := by
    have := slice_store (m := r₀.oci.buffer) (a := r₀.oci.bufptr + 4) (l := head)
    rwa [hfour] at this
  have hzero : getReqLen (s.client who).swapped head = 0 :=
    (getReqLen_slice _ _ _ (show 4 ≤ r₀.gotnow by omega) _).trans hbig.1
  set back := store (store moved r₀.oci.bufptr head) (r₀.oci.bufptr + 4) (cardBytes (s.client who).swapped k) with hback
  set oci : ConnectionInput := { r₀.oci with buffer := back, lenLastReq := 0 } with hoci
  have hreset : ConnectionInput.reset (s.client who).swapped (s.client who).bigRequests (s.client who).reqLen
      { r₀.oci with buffer := moved, bufptr := r₀.oci.bufptr + 4, lenLastReq := 4*r₀.reqLen - 4 } = .ok oci := by
    unfold ConnectionInput.reset
    dsimp only
    rw [if_neg (by omega),if_neg (by omega),hrequest,if_pos ⟨hzero,hbig.2⟩,if_neg (by omega),hwords]
    rfl
  -- the words at the start of the buffer as it is now
  have hfirst : slice back r₀.oci.bufptr 4 = head := by
    rw [hback,slice_store_before le_rfl]
    have := slice_store (m := moved) (a := r₀.oci.bufptr) (l := head)
    rwa [hfour] at this
  have hboth : slice back r₀.oci.bufptr 8 = head ++ cardBytes (s.client who).swapped k := by
    have hsecond : slice back (r₀.oci.bufptr + 4) 4 = cardBytes (s.client who).swapped k := by
      have := slice_store (m := store moved r₀.oci.bufptr head) (a := r₀.oci.bufptr + 4)
        (l := cardBytes (s.client who).swapped k)
      rwa [length_cardBytes] at this
    rw [← hfirst,← hsecond]
    exact slice_add (n := 4) (k := 4)
  have hlength : getBigReqLen (s.client who).swapped (slice back r₀.oci.bufptr 8) = k := by
    rw [hboth]
    exact getBigReqLen_cardBytes hfour (by omega)
  have hpending : oci.pending = slice back r₀.oci.bufptr r₀.gotnow := by
    change slice back (r₀.oci.bufptr + 0) (r₀.oci.bufcnt - (r₀.oci.bufptr + 0)) = _
    rw [Nat.add_zero,← hplace,Nat.add_sub_cancel_left]
  refine ⟨{ s.set who { s.client who with input := some oci } with availableInput := none },reset_set hin hreset hav,
    fun env n' s'' hread => ?_⟩
  have hown : ({ s.set who { s.client who with input := some oci } with availableInput := none } : Server).client who =
      { s.client who with input := some oci } := set_self _
  rw [read_own rfl (by rw [hown]),hown] at hread
  have hreq : ∀ l, getReqLen (s.client who).swapped (slice back r₀.oci.bufptr r₀.gotnow ++ l) = 0 := fun l => by
    rw [← getReqLen_slice _ _ _ (show 4 ≤ r₀.gotnow by omega) l,hfirst,hzero]
  have hlen : ∀ l, getBigReqLen (s.client who).swapped (slice back r₀.oci.bufptr r₀.gotnow ++ l) = k := fun l => by
    rw [← getBigReqLen_slice _ _ _ height l,hlength]
  have hreq₀ := hreq []
  have hlen₀ := hlen []
  rw [List.append_nil] at hreq₀ hlen₀
  obtain ⟨r₁,hwhole,hcall,hoci₁,hstream⟩ := readRequest_whole (c := { s.client who with input := some oci })
    maxBigRequestSize env (show oci.Ok from
      ⟨by change r₀.oci.bufptr + 0 ≤ r₀.oci.bufcnt; omega,hwithin,h.ok.positive,h.ok.small⟩) h.ignores
    (by rw [hpending,length_slice]; omega) (by
      rw [hpending,length_slice]
      dsimp only
      rw [if_pos ⟨hreq₀,hbig.2⟩,hlen₀]
      omega)
  have hplace₁ := hwhole.ok.place
  have hgot : r₁.gotnow = r₀.gotnow := by
    rw [hoci₁] at hplace₁
    change r₀.oci.bufptr + 0 + r₁.gotnow = r₀.oci.bufcnt at hplace₁
    omega
  have hahead : r₁.ahead = slice back r₀.oci.bufptr r₀.gotnow ++ r₁.stream := by
    rw [Reading.ahead,Reading.data,hgot,hoci₁]
    rfl
  obtain ⟨hreqLen₁,-,-,⟨⟨r',hterminate⟩,-⟩ | ⟨hvalue₁,hpos₁⟩⟩ := hwhole.finish_big
    ⟨by rw [hahead]; exact hreq _,hbig.2⟩
  · rw [hcall,hterminate] at hread
    cases hread
  · rw [hahead,hlen] at hreqLen₁
    rw [hcall,hvalue₁] at hread
    cases hread
    refine ⟨by omega,?_⟩
    rw [hwords]
    change (((s.set who { s.client who with input := some oci }).set who _).client who).reqLen + 1 = k
    rw [set_self]
    change r₁.reqLen - 1 + 1 = k
    omega

/-- Reading again after a reset gives the same request, and the requests of every client go on as they would have without the
reset. -/
def Unnoticed (maxBigRequestSize : ℕ) (s : Server) (who : ℕ) : Prop :=
  ∃ s', resetCurrentRequest s who = .ok s' ∧ ∀ env, ∃ n s'',
    readRequestFromClient maxBigRequestSize env s' who = .ok (.value n,s'') ∧
    (s''.client who).returned = (s.client who).returned ∧ (s''.client who).reqLen = (s.client who).reqLen ∧
    ∀ (log : ℕ → List Event) (closed : ℕ → Bool) (calls : List Call),
      Session.log <$> calls.foldlM (Session.call maxBigRequestSize) ⟨s'',log,closed⟩ =
        Session.log <$> calls.foldlM (Session.call maxBigRequestSize) ⟨s,log,closed⟩

/-- A reset goes unnoticed exactly when the request is none whose length stands behind its header. -/
theorem resetCurrentRequest_iff (hs : s.Placed) (hn : n ≤ 4*maxBigRequestSize)
    (hread : readRequestFromClient maxBigRequestSize env s who = .ok (.value n,s')) :
    Unnoticed maxBigRequestSize s' who ↔
      ¬(getReqLen (s'.client who).swapped (s'.client who).returned = 0 ∧ (s'.client who).bigRequests = true) := by
  obtain ⟨r₀,r,available,hwhole,hfinish,hclient,hav⟩ := read_found hs hn hread
  by_cases hbig : getReqLen (s'.client who).swapped r₀.ahead = 0 ∧ (s'.client who).bigRequests = true
  · obtain ⟨s₁,hreset,hagain⟩ := reset_big maxBigRequestSize hwhole hbig hfinish hclient hav
    refine iff_of_false ?_ (not_not.2 ⟨?_,hbig.2⟩)
    · rintro ⟨s₂,hreset₂,hread₂⟩
      rw [hreset] at hreset₂
      cases hreset₂
      obtain ⟨n',s'',hcall,-,hreqLen,-⟩ := hread₂ env
      have := (hagain env n' s'' hcall).2
      omega
    · obtain ⟨-,height,-,⟨⟨r',hterminate⟩,-⟩ | ⟨hvalue,-⟩⟩ := hwhole.finish_big hbig
      · rw [hterminate] at hfinish
        cases hfinish
      · rw [hvalue] at hfinish
        cases hfinish
        have hreturned : (s'.client who).returned = slice (store r₀.oci.buffer (r₀.oci.bufptr + 4)
            (slice r₀.oci.buffer r₀.oci.bufptr 4)) (r₀.oci.bufptr + 4) (max 4 (4*(r₀.reqLen - 1))) := by
          rw [hclient]
          rfl
        have hstore := slice_store (m := r₀.oci.buffer) (a := r₀.oci.bufptr + 4) (l := slice r₀.oci.buffer r₀.oci.bufptr 4)
        rw [length_slice] at hstore
        rw [hreturned,← getReqLen_take _ _ le_rfl,take_slice (by omega),hstore,
          getReqLen_slice _ _ _ (show 4 ≤ r₀.gotnow by omega) r₀.stream]
        exact hbig.1
  · obtain ⟨s₁,hreset,hagain⟩ := reset_small maxBigRequestSize hwhole hbig hfinish hclient hav
    refine iff_of_true ⟨s₁,hreset,fun env' => ⟨n,s',hagain env',rfl,rfl,fun _ _ _ => rfl⟩⟩ ?_
    obtain ⟨hreqLen,hend,hvalue⟩ := hwhole.finish_small hbig
    rw [hvalue] at hfinish
    cases hfinish
    have hplace := hwhole.ok.place
    have hreturned : (s'.client who).returned = slice r₀.oci.buffer r₀.oci.bufptr (max 4 (4*r₀.reqLen)) := by
      rw [hclient]
      rfl
    rw [hreturned,← getReqLen_take _ _ le_rfl,take_slice (by omega),
      getReqLen_slice _ _ _ (show 4 ≤ r₀.gotnow by omega) r₀.stream]
    exact hbig

lemma opening_placed (stream : List Byte) : (Session.opening stream).server.Placed :=
  ⟨fun _ _ h => (nomatch h),fun _ h => (nomatch h)⟩

theorem resetCurrentRequest_iff_two_words : ∃ s',
    readRequestFromClient 4194303 plenty (Session.opening [127,0,2,0,1,2,3,4,98,0,1,0]).server 0 = .ok (.value 8,s') ∧
      (s'.client 0).returned = [127,0,2,0,1,2,3,4] ∧ Unnoticed 4194303 s' 0 := by
  obtain ⟨⟨result,s'⟩,hread,hview⟩ := map_eq_ok.1 (show
    (fun p => (p.1,(p.2.client 0).swapped,(p.2.client 0).bigRequests,(p.2.client 0).returned)) <$>
      readRequestFromClient 4194303 plenty (Session.opening [127,0,2,0,1,2,3,4,98,0,1,0]).server 0 =
      .ok (.value 8,false,true,[127,0,2,0,1,2,3,4]) by decide +kernel)
  simp only [Prod.mk.injEq] at hview
  obtain ⟨rfl,hswapped,-,hreturned⟩ := hview
  refine ⟨s',hread,hreturned,(resetCurrentRequest_iff (opening_placed _) (by decide) hread).2 ?_⟩
  rw [hswapped,hreturned]
  exact fun h => absurd h.1 (by decide)

/-- A big request of two words: after a reset one word of it is left, and its last four bytes begin the next request. -/
theorem big_request_noticed : ∃ s',
    readRequestFromClient 4194303 plenty (Session.opening [127,0,0,0,3,0,0,0,1,2,3,4,98,0,1,0]).server 0 =
      .ok (.value 12,s') ∧ (s'.client 0).returned = [127,0,0,0,1,2,3,4] ∧
    (∃ s₁ s₂, resetCurrentRequest s' 0 = .ok s₁ ∧ readRequestFromClient 4194303 plenty s₁ 0 = .ok (.value 8,s₂) ∧
      (s₂.client 0).returned = [127,0,0,0] ∧ (s₂.client 0).pending = [1,2,3,4,98,0,1,0]) ∧
    ¬Unnoticed 4194303 s' 0 := by
  obtain ⟨⟨result,s'⟩,hread,hrest⟩ := bind_eq_ok.1 (show (do
      let p ← readRequestFromClient 4194303 plenty (Session.opening [127,0,0,0,3,0,0,0,1,2,3,4,98,0,1,0]).server 0
      let s₁ ← resetCurrentRequest p.2 0
      let q ← readRequestFromClient 4194303 plenty s₁ 0
      return (p.1,(p.2.client 0).returned,q.1,(q.2.client 0).returned,(q.2.client 0).pending)) =
    Except.ok (.value 12,[127,0,0,0,1,2,3,4],.value 8,[127,0,0,0],[1,2,3,4,98,0,1,0]) by decide +kernel)
  obtain ⟨s₁,hreset,hrest⟩ := bind_eq_ok.1 hrest
  obtain ⟨⟨result₂,s₂⟩,hagain,hview⟩ := bind_eq_ok.1 hrest
  have hview := Except.ok.inj hview
  simp only [Prod.mk.injEq] at hview
  obtain ⟨rfl,hreturned,rfl,hreturned₂,hpending⟩ := hview
  refine ⟨s',hread,hreturned,⟨s₁,s₂,hreset,hagain,hreturned₂,hpending⟩,?_⟩
  rintro ⟨s₃,hreset',hcall⟩
  rw [hreset] at hreset'
  cases hreset'
  obtain ⟨n,s'',hcall,hsame,-⟩ := hcall plenty
  rw [hagain] at hcall
  cases hcall
  rw [hreturned,hreturned₂] at hsame
  cases hsame

end Again

end Xlibre.Os.Input
