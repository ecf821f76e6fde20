import Xlibre.Dix.Resource.Multimap

/-! The search for a range of unused XIDs, and the bounds of a client's server-reserved XIDs. -/
namespace Xlibre.Dix.Resource
open Xlibre.Lib.Buckets

section Search
variable {V : Type*} (L : Limits) (t : ClientResourceRec V)

/-- Whether the chain of `id` has a record of `id`. -/
def idInUse (id : XID) : Bool :=
  (chain t.resources (L.hashResourceID id t.hashsize)).any (fun res => res.id = id)

/-- The counting loop of `AvailableID`; the fuel is the number of XIDs left to try. -/
def availableIDLoop : ℕ → XID → XID → XID
  | 0,_,_ => 0#32
  | fuel+1,id,maxid =>
    if id ≤ maxid then
      if idInUse L t id then availableIDLoop fuel (id+1#32) maxid else id
    else 0#32

def availableID (id maxid goodid : XID) : XID :=
  if goodid ≥ id ∧ goodid ≤ maxid then goodid
  else availableIDLoop L t (maxid.toNat+1-id.toNat) id maxid

/-- The loop state of `GetXIDRange`. -/
structure XidSearch where
  id : XID
  maxid : XID
  goodid : XID

/-- One record met by `GetXIDRange`: keep the longer side, or the one that has a free XID. -/
def splitRange (st : XidSearch) (res : ResourceRec V) : XidSearch :=
  if res.id < st.id ∨ res.id > st.maxid then st
  else if res.id - st.id ≥ st.maxid - res.id then
    let goodid := availableID L t st.id (res.id-1#32) st.goodid
    if goodid ≠ 0#32 then ⟨st.id,res.id-1#32,goodid⟩ else ⟨res.id+1#32,st.maxid,goodid⟩
  else
    let goodid := availableID L t (res.id+1#32) st.maxid st.goodid
    if goodid = 0#32 then ⟨st.id,res.id-1#32,goodid⟩ else ⟨res.id+1#32,st.maxid,goodid⟩

def firstXID (client : ℕ) (server : Bool) : XID :=
  let id := Server.clientAsMask L client
  if server then id ||| (if client ≠ 0 then serverBit else serverMinId) else id

def getXIDRange (client : ℕ) (server : Bool) : XID × XID :=
  let id := firstXID L client server
  let st := (t.resources.take t.buckets).flatten.foldl (splitRange L t)
    ⟨id,id ||| L.resourceIdMask,0#32⟩
  if st.id > st.maxid then (0#32,0#32) else (st.id,st.maxid)

end Search

section Search
variable {V : Type*} {L : Limits} {client : ℕ} {t : ClientResourceRec V}

lemma idInUse_iff (h : TableInv L client t) (id : XID) :
    idInUse L t id = true ↔ ∃ r ∈ t.resources.flatten, r.id = id := by
  simp only [idInUse,List.any_eq_true,decide_eq_true_eq]
  constructor
  · rintro ⟨r,hr,hid⟩
    exact ⟨r,(mem_chain_iff _ r).mpr ⟨_,hr⟩,hid⟩
  · rintro ⟨r,hr,rfl⟩
    obtain ⟨i,hi⟩ := (mem_chain_iff _ r).mp hr
    have hp : L.hashResourceID r.id t.hashsize = i := h.placed i r hi
    exact ⟨r,hp ▸ hi,rfl⟩

lemma availableIDLoop_spec (fuel : ℕ) (id maxid : XID) (hpos : 0 < id.toNat)
    (hmax : maxid.toNat < 2^32-1) (hf : maxid.toNat + 1 - id.toNat = fuel) :
    (availableIDLoop L t fuel id maxid = 0#32 ∧
      ∀ x, id ≤ x → x ≤ maxid → idInUse L t x = true) ∨
    (availableIDLoop L t fuel id maxid ≠ 0#32 ∧ id ≤ availableIDLoop L t fuel id maxid ∧
      availableIDLoop L t fuel id maxid ≤ maxid ∧
      idInUse L t (availableIDLoop L t fuel id maxid) = false) := by
  induction fuel generalizing id with
  | zero =>
    refine .inl ⟨rfl,fun x h₁ h₂ => ?_⟩
    rw [BitVec.le_def] at h₁ h₂
    omega
  | succ fuel ih =>
    have hle : id ≤ maxid := by rw [BitVec.le_def]; omega
    have hnext : (id+1#32).toNat = id.toNat+1 := by
      rw [BitVec.toNat_add]
      simp only [BitVec.toNat_ofNat]
      omega
    cases hu : idInUse L t id with
    | false =>
      refine .inr ?_
      rw [availableIDLoop,if_pos hle,if_neg (by simp [hu])]
      refine ⟨?_,BitVec.le_refl id,hle,hu⟩
      rintro rfl
      simp at hpos
    | true =>
      simp only [availableIDLoop,hle,hu,if_true]
      rcases ih (id+1#32) (by omega) (by omega) with ⟨h0,hall⟩ | ⟨h0,hlo,hhi,hfree⟩
      · refine .inl ⟨h0,fun x h₁ h₂ => ?_⟩
        rcases eq_or_ne x id with rfl | hne
        · exact hu
        · refine hall x ?_ h₂
          have : x.toNat ≠ id.toNat := fun e => hne (BitVec.eq_of_toNat_eq e)
          rw [BitVec.le_def] at h₁ ⊢
          omega
      · refine .inr ⟨h0,?_,hhi,hfree⟩
        rw [BitVec.le_def] at hlo ⊢
        omega

lemma availableID_spec (id maxid goodid : XID) (hpos : 0 < id.toNat) (hmax : maxid.toNat < 2^32-1)
    (hgood : goodid ≠ 0#32 → idInUse L t goodid = false) :
    (availableID L t id maxid goodid = 0#32 ∧ ∀ x, id ≤ x → x ≤ maxid → idInUse L t x = true) ∨
    (availableID L t id maxid goodid ≠ 0#32 ∧ id ≤ availableID L t id maxid goodid ∧
      availableID L t id maxid goodid ≤ maxid ∧
      idInUse L t (availableID L t id maxid goodid) = false) := by
  unfold availableID
  split_ifs with h
  · have hne : goodid ≠ 0#32 := by
      rintro rfl
      have := h.1
      rw [ge_iff_le,BitVec.le_def] at this
      simp at this
      omega
    exact .inr ⟨hne,h.1,h.2,hgood hne⟩
  · exact availableIDLoop_spec _ id maxid hpos hmax rfl

structure SearchInv (L : Limits) (t : ClientResourceRec V) (lo hi : ℕ) (seen : List (ResourceRec V))
    (st : XidSearch) : Prop where
  lo_le : lo ≤ st.id.toNat
  le_hi : st.maxid.toNat ≤ hi
  goodid : st.goodid ≠ 0#32 → idInUse L t st.goodid = false
  free : ∃ x, st.id ≤ x ∧ x ≤ st.maxid ∧ idInUse L t x = false
  seen : ∀ r ∈ seen, r.id < st.id ∨ r.id > st.maxid

lemma SearchInv.splitRange {lo hi : ℕ} (hlo : 0 < lo) (hhi : hi < 2^32-1)
    {seen : List (ResourceRec V)} {st : XidSearch} (h : SearchInv L t lo hi seen st)
    (res : ResourceRec V) (hres : idInUse L t res.id = true) :
    SearchInv L t lo hi (seen ++ [res]) (splitRange L t st res) := by
  have hl := h.lo_le
  have hh := h.le_hi
  obtain ⟨x,hx₁,hx₂,hxf⟩ := h.free
  have hxr : x.toNat ≠ res.id.toNat := fun e => by
    rw [BitVec.eq_of_toNat_eq e,hres] at hxf
    cases hxf
  rw [BitVec.le_def] at hx₁ hx₂
  by_cases hout : res.id < st.id ∨ res.id > st.maxid
  · rw [Resource.splitRange,if_pos hout]
    refine ⟨hl,hh,h.goodid,h.free,fun r hr => ?_⟩
    rcases List.mem_append.mp hr with hr | hr
    · exact h.seen r hr
    · rw [List.mem_singleton.mp hr]; exact hout
  · have hin : st.id.toNat ≤ res.id.toNat ∧ res.id.toNat ≤ st.maxid.toNat := by
      simp only [gt_iff_lt,BitVec.lt_def,not_or,not_lt] at hout
      exact hout
    have hdn : (res.id-1#32).toNat = res.id.toNat-1 := by
      rw [BitVec.toNat_sub_of_le (by rw [BitVec.le_def]; simp; omega)]
      simp
    have hup : (res.id+1#32).toNat = res.id.toNat+1 := by
      rw [BitVec.toNat_add]
      simp only [BitVec.toNat_ofNat]
      omega
    -- Either side excludes the record; a free XID of that side is all that is left to show.
    have hlow : ∀ g, (g ≠ 0#32 → idInUse L t g = false) →
        (∃ y, st.id ≤ y ∧ y ≤ res.id-1#32 ∧ idInUse L t y = false) →
        SearchInv L t lo hi (seen ++ [res]) ⟨st.id,res.id-1#32,g⟩ := by
      intro g hg hy
      refine ⟨hl,by simp only [hdn]; omega,hg,hy,fun r hr => ?_⟩
      rcases List.mem_append.mp hr with hr | hr
      · refine (h.seen r hr).imp id fun hgt => ?_
        rw [gt_iff_lt,BitVec.lt_def] at hgt ⊢
        simp only [hdn]
        omega
      · rw [List.mem_singleton.mp hr]
        right
        rw [gt_iff_lt,BitVec.lt_def]
        simp only [hdn]
        omega
    have hhigh : ∀ g, (g ≠ 0#32 → idInUse L t g = false) →
        (∃ y, res.id+1#32 ≤ y ∧ y ≤ st.maxid ∧ idInUse L t y = false) →
        SearchInv L t lo hi (seen ++ [res]) ⟨res.id+1#32,st.maxid,g⟩ := by
      intro g hg hy
      refine ⟨by simp only [hup]; omega,hh,hg,hy,fun r hr => ?_⟩
      rcases List.mem_append.mp hr with hr | hr
      · refine (h.seen r hr).imp (fun hlt => ?_) id
        rw [BitVec.lt_def] at hlt ⊢
        simp only [hup]
        omega
      · rw [List.mem_singleton.mp hr]
        left
        rw [BitVec.lt_def]
        simp only [hup]
        omega
    have hlowfree := availableID_spec (L := L) (t := t) st.id (res.id-1#32) st.goodid (by omega)
      (by omega) h.goodid
    have hhighfree := availableID_spec (L := L) (t := t) (res.id+1#32) st.maxid st.goodid (by omega)
      (by omega) h.goodid
    have hxhigh : (∀ y, st.id ≤ y → y ≤ res.id-1#32 → idInUse L t y = true) →
        ∃ y, res.id+1#32 ≤ y ∧ y ≤ st.maxid ∧ idInUse L t y = false := by
      intro hall
      refine ⟨x,?_,by rw [BitVec.le_def]; exact hx₂,hxf⟩
      by_contra hc
      rw [BitVec.le_def,hup] at hc
      have := hall x (by rw [BitVec.le_def]; exact hx₁) (by rw [BitVec.le_def,hdn]; omega)
      rw [hxf] at this
      cases this
    have hxlow : (∀ y, res.id+1#32 ≤ y → y ≤ st.maxid → idInUse L t y = true) →
        ∃ y, st.id ≤ y ∧ y ≤ res.id-1#32 ∧ idInUse L t y = false := by
      intro hall
      refine ⟨x,by rw [BitVec.le_def]; exact hx₁,?_,hxf⟩
      by_contra hc
      rw [BitVec.le_def,hdn] at hc
      have := hall x (by rw [BitVec.le_def,hup]; omega) (by rw [BitVec.le_def]; exact hx₂)
      rw [hxf] at this
      cases this
    rw [Resource.splitRange,if_neg hout]
    split_ifs with hside
    · rcases hlowfree with ⟨h0,hall⟩ | ⟨h0,h₁,h₂,hf⟩
      · simp only [h0,ne_eq,not_true_eq_false,if_false]
        exact hhigh _ (fun h => absurd rfl h) (hxhigh hall)
      · simp only [h0,ne_eq,not_false_eq_true,if_true]
        exact hlow _ (fun _ => hf) ⟨_,h₁,h₂,hf⟩
    · rcases hhighfree with ⟨h0,hall⟩ | ⟨h0,h₁,h₂,hf⟩
      · simp only [h0,if_true]
        exact hlow _ (fun h => absurd rfl h) (hxlow hall)
      · simp only [h0,if_false]
        exact hhigh _ (fun _ => hf) ⟨_,h₁,h₂,hf⟩

lemma SearchInv.foldl {lo hi : ℕ} (hlo : 0 < lo) (hhi : hi < 2^32-1) (rest : List (ResourceRec V))
    {seen : List (ResourceRec V)} {st : XidSearch} (h : SearchInv L t lo hi seen st)
    (hrest : ∀ r ∈ rest, idInUse L t r.id = true) :
    SearchInv L t lo hi (seen ++ rest) (rest.foldl (Resource.splitRange L t) st) := by
  induction rest generalizing seen st with
  | nil => simpa using h
  | cons res rest ih =>
    have hstep := h.splitRange hlo hhi res (hrest res (by simp))
    simpa using ih hstep (fun r hr => hrest r (by simp [hr]))

/-- With a free XID in the client's range, the search returns a non-empty range of it in which
no XID is in use. -/
theorem getXIDRange_spec (h : TableInv L client t) (server : Bool)
    (hpos : 0 < (firstXID L client server).toNat)
    (hmax : (firstXID L client server ||| L.resourceIdMask).toNat < 2^32-1)
    (hfree : ∃ x, firstXID L client server ≤ x ∧ x ≤ firstXID L client server ||| L.resourceIdMask ∧
      ∀ r ∈ t.resources.flatten, r.id ≠ x) :
    firstXID L client server ≤ (getXIDRange L t client server).1 ∧
    (getXIDRange L t client server).1 ≤ (getXIDRange L t client server).2 ∧
    (getXIDRange L t client server).2 ≤ firstXID L client server ||| L.resourceIdMask ∧
    ∀ r ∈ t.resources.flatten, ¬ ((getXIDRange L t client server).1 ≤ r.id ∧
      r.id ≤ (getXIDRange L t client server).2) := by
  obtain ⟨x,hx₁,hx₂,hx⟩ := hfree
  have hxf : idInUse L t x = false := by
    rw [Bool.eq_false_iff,ne_eq,idInUse_iff h]
    rintro ⟨r,hr,rfl⟩
    exact hx r hr rfl
  have htake : t.resources.take t.buckets = t.resources := by
    apply List.take_of_length_le
    rw [h.length,h.buckets]
  have hinit : SearchInv L t (firstXID L client server).toNat
      (firstXID L client server ||| L.resourceIdMask).toNat []
      ⟨firstXID L client server,firstXID L client server ||| L.resourceIdMask,0#32⟩ :=
    ⟨le_rfl,le_rfl,fun h => absurd rfl h,⟨x,hx₁,hx₂,hxf⟩,by simp⟩
  have hend := hinit.foldl hpos hmax t.resources.flatten
    (fun r hr => (idInUse_iff h r.id).mpr ⟨r,hr,rfl⟩)
  rw [List.nil_append] at hend
  unfold getXIDRange
  simp only [htake]
  generalize t.resources.flatten.foldl (splitRange L t)
    ⟨firstXID L client server,firstXID L client server ||| L.resourceIdMask,0#32⟩ = st at hend ⊢
  obtain ⟨y,hy₁,hy₂,_⟩ := hend.free
  have hle : st.id ≤ st.maxid := BitVec.le_trans hy₁ hy₂
  rw [if_neg (BitVec.not_lt.mpr hle)]
  refine ⟨hend.lo_le,hle,hend.le_hi,fun r hr hc => ?_⟩
  rcases hend.seen r hr with hlt | hgt
  · exact absurd hc.1 (BitVec.not_le.mpr hlt)
  · exact absurd hc.2 (BitVec.not_le.mpr hgt)

end Search
end Xlibre.Dix.Resource
