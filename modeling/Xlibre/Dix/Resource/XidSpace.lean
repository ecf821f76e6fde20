import Xlibre.Dix.Resource.FakeId

/-! The range of unused XIDs that is found in a client's space, and when there is none. -/
namespace Xlibre.Dix.Resource
open Xlibre.Lib.Buckets

variable {V : Type*} {L : Limits} {client : ℕ} {t : ClientResourceRec V} {res : ResourceRec V} {st : XidSearch}
  {seen : List (ResourceRec V)} {lo hi : ℕ}

lemma splitRange_cases (L : Limits) (t : ClientResourceRec V) (st : XidSearch) (res : ResourceRec V) :
    (res.id < st.id ∨ res.id > st.maxid) ∧ splitRange L t st res = st ∨
    (st.id ≤ res.id ∧ res.id ≤ st.maxid) ∧ ∃ g, splitRange L t st res = ⟨st.id,res.id-1#32,g⟩ ∨
      splitRange L t st res = ⟨res.id+1#32,st.maxid,g⟩ := by
  unfold splitRange
  by_cases hout : res.id < st.id ∨ res.id > st.maxid
  · exact .inl ⟨hout,if_pos hout⟩
  · rw [if_neg hout]
    refine .inr ⟨?_,?_⟩
    · simp only [gt_iff_lt,BitVec.lt_def,not_or,not_lt] at hout
      exact hout
    · dsimp only
      split_ifs
      · exact ⟨_,.inl rfl⟩
      · exact ⟨_,.inr rfl⟩
      · exact ⟨_,.inl rfl⟩
      · exact ⟨_,.inr rfl⟩

structure Narrowed (lo hi : ℕ) (seen : List (ResourceRec V)) (st : XidSearch) : Prop where
  lo_le : lo ≤ st.id.toNat
  le_hi : st.maxid.toNat ≤ hi
  seen : ∀ r ∈ seen, r.id.toNat < st.id.toNat ∨ st.maxid.toNat < r.id.toNat

lemma Narrowed.splitRange (h : Narrowed lo hi seen st) (hlo : 0 < lo) (hhi : hi < 2^32-1) :
    Narrowed lo hi (seen ++ [res]) (splitRange L t st res) := by
  have hl := h.lo_le
  have hh := h.le_hi
  -- the record is outside of a range that lies in the old one
  have hnarrow : ∀ st' : XidSearch, st.id.toNat ≤ st'.id.toNat → st'.maxid.toNat ≤ st.maxid.toNat →
      (res.id.toNat < st'.id.toNat ∨ st'.maxid.toNat < res.id.toNat) → Narrowed lo hi (seen ++ [res]) st' := by
    intro st' hid hmaxid hres
    refine ⟨hl.trans hid,hmaxid.trans hh,fun r hr => ?_⟩
    obtain hr | hr := List.mem_append.1 hr
    · have := h.seen r hr
      omega
    · rw [List.mem_singleton.1 hr]
      exact hres
  obtain ⟨hout,hsplit⟩ | ⟨⟨hlow,hhigh⟩,g,hsplit | hsplit⟩ := splitRange_cases L t st res
  · rw [hsplit]
    exact hnarrow st le_rfl le_rfl hout
  · rw [BitVec.le_def] at hlow hhigh
    have hdown : (res.id-1#32).toNat = res.id.toNat-1 := by
      rw [BitVec.toNat_sub_of_le (by rw [BitVec.le_def]; simp; omega)]
      simp
    rw [hsplit]
    exact hnarrow _ le_rfl (by simp only [hdown]; omega) (.inr (by simp only [hdown]; omega))
  · rw [BitVec.le_def] at hlow hhigh
    have hup : (res.id+1#32).toNat = res.id.toNat+1 := by
      rw [BitVec.toNat_add]
      simp only [BitVec.toNat_ofNat]
      omega
    rw [hsplit]
    exact hnarrow _ (by simp only [hup]; omega) le_rfl (.inl (by simp only [hup]; omega))

lemma Narrowed.foldl (h : Narrowed lo hi seen st) (hlo : 0 < lo) (hhi : hi < 2^32-1) (rest : List (ResourceRec V)) :
    Narrowed lo hi (seen ++ rest) (rest.foldl (Resource.splitRange L t) st) := by
  induction rest generalizing seen st with
  | nil => simpa using h
  | cons res rest ih => simpa using ih (h.splitRange (L := L) (t := t) hlo hhi)

lemma spaceEnd_lt (h : client < L.limitClients) (server : Bool) :
    (firstXID L client server ||| L.resourceIdMask).toNat < 2^32-1 := by
  cases server with
  | true => exact lastXID_lt h
  | false =>
    obtain ⟨hm,hle⟩ := toNat_clientAsMask h
    obtain ⟨-,h29,-⟩ := L.clientOffset_bounds
    have hmask : L.resourceIdMask.toNat < 2^29 := by
      rw [L.toNat_resourceIdMask]
      have : 2^L.clientOffset ≤ 2^29 := Nat.pow_le_pow_right (by norm_num) h29
      have : 0 < 2^L.clientOffset := by positivity
      omega
    have hfirst : (firstXID L client false).toNat < 2^29 := by
      have : 0 < 2^L.clientOffset := by positivity
      change (Server.clientAsMask L client).toNat < 2^29
      omega
    rw [BitVec.toNat_or]
    exact (Nat.or_lt_two_pow hfirst hmask).trans (by norm_num)

def InSpace (L : Limits) (client : ℕ) (server : Bool) (x : XID) : Prop :=
  firstXID L client server ≤ x ∧ x ≤ firstXID L client server ||| L.resourceIdMask

/-- An XID that some record has. -/
def IdInUse (t : ClientResourceRec V) (x : XID) : Prop := ∃ r ∈ t.resources.flatten, r.id = x

lemma getXIDRange_full (ht : TableInv L client t) (hc : client < L.limitClients) {server : Bool}
    (hpos : 0 < (firstXID L client server).toNat) (hfull : ∀ x, InSpace L client server x → IdInUse t x) :
    getXIDRange L t client server = (0#32,0#32) := by
  have htake : t.resources.take t.buckets = t.resources := by
    apply List.take_of_length_le
    rw [ht.length,ht.buckets]
  have hinit : Narrowed (V := V) (firstXID L client server).toNat (firstXID L client server ||| L.resourceIdMask).toNat []
      ⟨firstXID L client server,firstXID L client server ||| L.resourceIdMask,0#32⟩ := ⟨le_rfl,le_rfl,by simp⟩
  have hend := hinit.foldl (L := L) (t := t) hpos (spaceEnd_lt hc server) t.resources.flatten
  unfold getXIDRange
  simp only [htake]
  generalize t.resources.flatten.foldl (splitRange L t)
    ⟨firstXID L client server,firstXID L client server ||| L.resourceIdMask,0#32⟩ = st at hend ⊢
  refine if_pos (BitVec.lt_def.2 (Nat.lt_of_not_le fun hle => ?_))
  obtain ⟨r,hr,hid⟩ := hfull st.id ⟨BitVec.le_def.2 hend.lo_le,BitVec.le_def.2 (hle.trans hend.le_hi)⟩
  have := hend.seen r (by simpa using hr)
  rw [hid] at this
  omega

/-- The range lies in the client's space and has no XID in use, and it is missing exactly when all XIDs of the space are in
use. -/
theorem getXIDRange_unused (ht : TableInv L client t) (hc : client < L.limitClients) (server : Bool)
    (hpos : firstXID L client server ≠ 0#32) :
    let range := getXIDRange L t client server
    (range = (0#32,0#32) ↔ ∀ x, InSpace L client server x → IdInUse t x) ∧
    (range ≠ (0#32,0#32) → InSpace L client server range.1 ∧ InSpace L client server range.2 ∧ range.1 ≤ range.2 ∧
      ∀ x, range.1 ≤ x → x ≤ range.2 → ¬IdInUse t x) := by
  intro range
  have hpos : 0 < (firstXID L client server).toNat := Nat.pos_of_ne_zero fun h => hpos (BitVec.eq_of_toNat_eq h)
  by_cases hfull : ∀ x, InSpace L client server x → IdInUse t x
  · have hzero : range = (0#32,0#32) := getXIDRange_full ht hc hpos hfull
    exact ⟨iff_of_true hzero hfull,fun h => absurd hzero h⟩
  · have hfree : ∃ x, firstXID L client server ≤ x ∧ x ≤ firstXID L client server ||| L.resourceIdMask ∧
        ∀ r ∈ t.resources.flatten, r.id ≠ x := by
      push Not at hfull
      obtain ⟨x,⟨hlow,hhigh⟩,hunused⟩ := hfull
      exact ⟨x,hlow,hhigh,fun r hr hid => hunused ⟨r,hr,hid⟩⟩
    obtain ⟨hlow,hle,hhigh,hclear⟩ := getXIDRange_spec ht server hpos (spaceEnd_lt hc server) hfree
    refine ⟨iff_of_false (fun hzero => ?_) hfull,fun _ => ⟨⟨hlow,BitVec.le_trans hle hhigh⟩,
      ⟨BitVec.le_trans hlow hle,hhigh⟩,hle,?_⟩⟩
    · change (getXIDRange L t client server) = _ at hzero
      rw [hzero,BitVec.le_def] at hlow
      exact absurd hlow (by simpa using hpos.ne')
    · rintro x hx₁ hx₂ ⟨r,hr,rfl⟩
      exact hclear r hr ⟨hx₁,hx₂⟩

/-- Client 1 with a resource under the first XID of the server's part of its space. -/
theorem getXIDRange_unused_one : ∃ s,
    (Server.started defaultLimits ℕ [1]).addResource defaultLimits 0x40200000#32 5#32 70 = some s ∧
    getXIDRange defaultLimits (s.clientTable 1) 1 true = (0x40200001#32,0x403fffff#32) ∧
    ∀ x, 0x40200001#32 ≤ x → x ≤ 0x403fffff#32 → ¬IdInUse (s.clientTable 1) x := by
  obtain ⟨hinv,href⟩ := started_refines (L := defaultLimits) (V := ℕ) [1]
  obtain ⟨s,hs,hrange⟩ := Option.map_eq_some_iff.1 (show
    ((Server.started defaultLimits ℕ [1]).addResource defaultLimits 0x40200000#32 5#32 70).map
      (fun s => ((s.clientTable 1).buckets,getXIDRange defaultLimits (s.clientTable 1) 1 true)) =
      some (64,0x40200001#32,0x403fffff#32) by decide +kernel)
  obtain ⟨hbuckets,hrange⟩ := Prod.mk.inj hrange
  have ht := (refines_addResource hinv href _ _ _ hs).1 1 (by rw [hbuckets]; decide)
  obtain ⟨-,hunused⟩ := getXIDRange_unused ht (by decide) true (by decide +kernel)
  rw [hrange] at hunused
  exact ⟨s,hs,hrange,(hunused (by decide)).2.2.2⟩

end Xlibre.Dix.Resource
