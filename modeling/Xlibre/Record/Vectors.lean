import Mathlib.Data.Nat.Bitwise
import Mathlib.Tactic.Ring
import Xlibre.Record.Set

/-! Sets as bit vectors: which bits are set, and that the word-wise search finds the next bit of either value. -/
namespace Xlibre.Record

open Xlibre.Lib.Runs

variable {w : ℕ}

section Words

lemma and_bit_eq_zero (bits : BitVec w) (k : ℕ) : bits &&& (1#w <<< k) = 0 ↔ bits.getLsbD k = false := by
  have htwo : 1#w <<< k = BitVec.twoPow w k := rfl
  rw [htwo,BitVec.and_twoPow]
  cases hb : bits.getLsbD k with
  | false => simp
  | true =>
    have hk : k < w := BitVec.lt_of_getLsbD hb
    refine iff_of_false (fun hz => ?_) (by simp)
    have := congrArg (BitVec.getLsbD · k) hz
    simp [hk] at this

lemma getLsbD_useful {k : ℕ} (hk : k < w) (j : ℕ) : (~~~((1#w <<< k)-1#w)).getLsbD j = (decide (k ≤ j) && decide (j < w)) := by
  have hone : (1#w).toNat = 1 := by simp [show 0 < w by omega]
  have hpow : 2^k < 2^w := Nat.pow_lt_pow_right (by decide) hk
  have hshift : (1#w <<< k).toNat = 2^k := by
    rw [BitVec.toNat_shiftLeft,hone,Nat.one_shiftLeft,Nat.mod_eq_of_lt hpow]
  have hle : (1#w) ≤ 1#w <<< k := by
    rw [BitVec.le_def,hone,hshift]
    exact Nat.one_le_two_pow
  have hsub : ((1#w <<< k)-1#w).toNat = 2^k-1 := by rw [BitVec.toNat_sub_of_le hle,hshift,hone]
  rw [BitVec.getLsbD_not]
  have hbit : ((1#w <<< k)-1#w).getLsbD j = decide (j < k) := by
    rw [← BitVec.testBit_toNat,hsub,Nat.testBit_two_pow_sub_one]
  rw [hbit]
  by_cases h₁ : j < k
  · simp [h₁,Nat.not_le.mpr h₁]
  · simp [h₁,Nat.not_lt.mp h₁]

lemma getLsbD_skipval (bitval : Bool) {j : ℕ} (hj : j < w) :
    (if bitval then 0 else BitVec.allOnes w : BitVec w).getLsbD j = !bitval := by
  cases bitval <;> simp [hj]

lemma eq_skipval_iff (bits : BitVec w) (bitval : Bool) :
    bits = (if bitval then 0 else BitVec.allOnes w) ↔ ∀ j < w, bits.getLsbD j = !bitval := by
  constructor
  · rintro rfl j hj
    exact getLsbD_skipval bitval hj
  · intro h
    apply BitVec.eq_of_getLsbD_eq
    intro j hj
    rw [h j hj,getLsbD_skipval bitval hj]

lemma useful_eq_iff (bits : BitVec w) (bitval : Bool) {k : ℕ} (hk : k < w) :
    bits &&& ~~~((1#w <<< k)-1#w) = (if bitval then 0 else BitVec.allOnes w) &&& ~~~((1#w <<< k)-1#w) ↔
      ∀ j, k ≤ j → j < w → bits.getLsbD j = !bitval := by
  constructor
  · intro h j hkj hj
    have := congrArg (BitVec.getLsbD · j) h
    simp only [BitVec.getLsbD_and,getLsbD_useful hk,hkj,hj,decide_true,Bool.and_true] at this
    rw [this,getLsbD_skipval bitval hj]
  · intro h
    apply BitVec.eq_of_getLsbD_eq
    intro j hj
    rw [BitVec.getLsbD_and,BitVec.getLsbD_and,getLsbD_useful hk,getLsbD_skipval bitval hj]
    by_cases hkj : k ≤ j
    · rw [h j hkj hj]
    · simp [hkj]

lemma walkBits_spec (bits : BitVec w) (bitval : Bool) (k s : ℕ) (hs : s+k = w) :
    s ≤ walkBits bits bitval k s ∧ walkBits bits bitval k s ≤ w ∧
      (∀ j, s ≤ j → j < walkBits bits bitval k s → bits.getLsbD j = !bitval) ∧
      (walkBits bits bitval k s < w → bits.getLsbD (walkBits bits bitval k s) = bitval) := by
  induction k generalizing s with
  | zero =>
    rw [walkBits]
    exact ⟨Nat.le_refl _,by omega,fun j h₁ h₂ => by omega,fun h => by omega⟩
  | succ k ih =>
    have hbit : decide (bits &&& (1#w <<< s) = 0) = !bits.getLsbD s := by
      cases hb : bits.getLsbD s with
      | false => exact decide_eq_true ((and_bit_eq_zero bits s).mpr hb)
      | true => exact decide_eq_false fun hz => by simp [(and_bit_eq_zero bits s).mp hz] at hb
    rw [walkBits,hbit]
    split_ifs with h
    · obtain ⟨h₁,h₂,h₃,h₄⟩ := ih (s+1) (by omega)
      refine ⟨by omega,h₂,fun j hj hjr => ?_,h₄⟩
      rcases Nat.eq_or_lt_of_le hj with rfl | hlt
      · cases hb : bits.getLsbD s <;> simp_all
      · exact h₃ j hlt hjr
    · refine ⟨Nat.le_refl _,by omega,fun j h₁ h₂ => by omega,fun _ => ?_⟩
      cases hb : bits.getLsbD s <;> cases bitval <;> simp_all

end Words

def bitAt (v : List (BitVec w)) (x : ℕ) : Bool := (v[x/w]?.getD 0).getLsbD (x%w)

/-- A bit vector for the numbers up to `maxMember`, with no other bit set. -/
structure VectorOk (pbvs : BitVectorSet w) : Prop where
  pos : 0 < w
  max : -1 ≤ pbvs.maxMember
  length : pbvs.pbitvec.length = numLongs w pbvs.maxMember
  above : ∀ x, bitAt pbvs.pbitvec x = true → (x : ℤ) ≤ pbvs.maxMember

lemma start_le_iff (hw : 0 < w) {maxMember : ℤ} (hmax : -1 ≤ maxMember) (q : ℕ) :
    ((q*w : ℕ) : ℤ) ≤ maxMember ↔ q < numLongs w maxMember := by
  have hw' : (0 : ℤ) < w := by exact_mod_cast hw
  have hdiv : (maxMember+w)/w = maxMember/w+1 := by
    rw [Int.add_ediv_of_dvd_right (dvd_refl _),Int.ediv_self hw'.ne']
  have hge : -1 ≤ maxMember/w := (Int.le_ediv_iff_mul_le hw').mpr (by omega)
  rw [numLongs,hdiv]
  push_cast
  rw [← Int.le_ediv_iff_mul_le hw']
  omega

section Find

variable {pbvs : BitVectorSet w}

lemma skipWords_spec (h : VectorOk pbvs) (skipval : BitVec w) (q : ℕ) (hq : q ≤ pbvs.pbitvec.length) :
    ∃ q', skipWords pbvs.maxMember skipval (pbvs.pbitvec.drop q) (q*w) = some (pbvs.pbitvec.drop q',q'*w) ∧ q ≤ q' ∧
      q' ≤ pbvs.pbitvec.length ∧ (∀ k, q ≤ k → k < q' → pbvs.pbitvec[k]? = some skipval) ∧
      pbvs.pbitvec[q']? ≠ some skipval := by
  have hiff := start_le_iff h.pos h.max q
  rw [← h.length] at hiff
  by_cases hlt : q < pbvs.pbitvec.length
  · rw [List.drop_eq_getElem_cons hlt,skipWords]
    split_ifs with hskip
    · obtain ⟨q',h₁,h₂,h₃,h₄,h₅⟩ := skipWords_spec h skipval (q+1) hlt
      rw [Nat.add_mul,Nat.one_mul] at h₁
      refine ⟨q',h₁,by omega,h₃,fun k hk hk' => ?_,h₅⟩
      rcases Nat.eq_or_lt_of_le hk with rfl | hk
      · rw [List.getElem?_eq_getElem hlt,hskip.2]
      · exact h₄ k hk hk'
    · refine ⟨q,by rw [List.drop_eq_getElem_cons hlt],Nat.le_refl _,hq,fun k h₁ h₂ => by omega,?_⟩
      rw [List.getElem?_eq_getElem hlt]
      simpa using fun heq => hskip ⟨hiff.mpr hlt,heq⟩
  · rw [List.drop_eq_nil_of_le (by omega),skipWords,if_neg (fun hle => hlt (hiff.mp hle))]
    refine ⟨q,by rw [List.drop_eq_nil_of_le (by omega)],Nat.le_refl _,hq,fun k h₁ h₂ => by omega,?_⟩
    rw [List.getElem?_eq_none (by omega)]
    simp
termination_by pbvs.pbitvec.length-q

lemma bitAt_skipped {v : List (BitVec w)} (hw : 0 < w) {bitval : Bool} {q x : ℕ}
    (hq : v[q]? = some (if bitval then 0 else BitVec.allOnes w)) (hx : x/w = q) : bitAt v x = !bitval := by
  rw [bitAt,hx,hq,Option.getD_some]
  exact getLsbD_skipval bitval (Nat.mod_lt x hw)

/-- What `BitVectorFindBit` returns: the first bit with the value, within the words of the vector. -/
def Found (v : List (BitVec w)) (iterbit : ℕ) (bitval : Bool) (r : ℤ) : Prop :=
  (r = -1 ∧ ∀ x, iterbit ≤ x → x < v.length*w → bitAt v x = !bitval) ∨
    ∃ b : ℕ, r = b ∧ iterbit ≤ b ∧ b < v.length*w ∧ bitAt v b = bitval ∧
      ∀ x, iterbit ≤ x → x < b → bitAt v x = !bitval

lemma found_walk {v : List (BitVec w)} (hw : 0 < w) (bitval : Bool) {iterbit q : ℕ} (hq : q < v.length)
    (hstart : iterbit/w ≤ q) (hbefore : ∀ x, iterbit ≤ x → x < q*w → bitAt v x = !bitval) {bits : BitVec w}
    (hbits : v[q]? = some bits)
    (hsome : ∃ j, (if q*w < iterbit then iterbit-q*w else 0) ≤ j ∧ j < w ∧ bits.getLsbD j ≠ !bitval) :
    Found v iterbit bitval ((q*w+walkBits bits bitval (w-(if q*w < iterbit then iterbit-q*w else 0))
      (if q*w < iterbit then iterbit-q*w else 0) : ℕ) : ℤ) := by
  have hlt : iterbit < (q+1)*w := by
    have hdiv : iterbit/w < q+1 := by omega
    exact (Nat.div_lt_iff_lt_mul hw).mp hdiv
  rw [Nat.add_mul,Nat.one_mul] at hlt
  generalize hs : (if q*w < iterbit then iterbit-q*w else 0) = s at *
  have hsw : s < w := by
    rw [← hs]
    split_ifs <;> omega
  have hsge : iterbit ≤ q*w+s := by
    rw [← hs]
    split_ifs <;> omega
  obtain ⟨h₁,h₂,h₃,h₄⟩ := walkBits_spec bits bitval (w-s) s (by omega)
  generalize walkBits bits bitval (w-s) s = r at *
  have hr : r < w := by
    obtain ⟨j,hj,hjw,hne⟩ := hsome
    by_contra hge
    exact hne (h₃ j hj (by omega))
  have hword : ∀ j, j < w → bitAt v (q*w+j) = bits.getLsbD j := by
    intro j hj
    rw [bitAt,Nat.mul_comm,Nat.mul_add_div hw,Nat.div_eq_of_lt hj,Nat.add_zero,hbits,Option.getD_some,
      Nat.mul_add_mod,Nat.mod_eq_of_lt hj]
  refine .inr ⟨q*w+r,rfl,by omega,?_,by rw [hword r hr]; exact h₄ hr,fun x hx hxr => ?_⟩
  · calc q*w+r < q*w+w := by omega
      _ = (q+1)*w := by ring
      _ ≤ v.length*w := Nat.mul_le_mul_right w hq
  · rcases Nat.lt_or_ge x (q*w) with hlow | hhigh
    · exact hbefore x hx hlow
    · obtain ⟨j,rfl⟩ : ∃ j, x = q*w+j := ⟨x-q*w,by omega⟩
      rw [hword j (by omega)]
      refine h₃ j ?_ (by omega)
      rw [← hs]
      split_ifs <;> omega

lemma exists_bit {bits : BitVec w} {bitval : Bool} {k : ℕ} (h : ¬ ∀ j, k ≤ j → j < w → bits.getLsbD j = !bitval) :
    ∃ j, k ≤ j ∧ j < w ∧ bits.getLsbD j ≠ !bitval := by
  push Not at h
  exact h

/-- `BitVectorFindBit` finds the first bit with the value. -/
theorem bitVectorFindBit_spec (h : VectorOk pbvs) (iterbit : ℕ) (bitval : Bool) :
    ∃ r, bitVectorFindBit pbvs iterbit bitval = some r ∧ Found pbvs.pbitvec iterbit bitval r := by
  have hw := h.pos
  have hiff : ∀ q : ℕ, ((q*w : ℕ) : ℤ) ≤ pbvs.maxMember ↔ q < pbvs.pbitvec.length := fun q => by
    rw [start_le_iff h.pos h.max q,h.length]
  have hiter := Nat.div_add_mod iterbit w
  have hmod := Nat.mod_lt iterbit hw
  have hmul : iterbit/w*w = w*(iterbit/w) := Nat.mul_comm _ _
  have hrest : iterbit-iterbit/w*w = iterbit%w := by omega
  simp only [bitVectorFindBit]
  by_cases hin : iterbit/w < pbvs.pbitvec.length
  · have hge := (hiff (iterbit/w)).mpr hin
    rw [if_neg (by omega),List.getElem?_eq_getElem hin]
    simp only [Option.bind_eq_bind,Option.bind_some,hrest]
    by_cases hskip : pbvs.pbitvec[iterbit/w] &&& ~~~((1#w <<< (iterbit%w))-1#w) =
        (if bitval then 0 else BitVec.allOnes w) &&& ~~~((1#w <<< (iterbit%w))-1#w)
    · rw [if_pos hskip]
      rw [useful_eq_iff _ _ hmod] at hskip
      obtain ⟨q,h₁,h₂,h₃,h₄,h₅⟩ := skipWords_spec h (if bitval then 0 else BitVec.allOnes w) (iterbit/w+1) hin
      rw [Nat.add_mul,Nat.one_mul] at h₁
      rw [h₁,Option.bind_some]
      -- Nothing is found in the first word behind `iterbit` nor in the skipped ones.
      have hbefore : ∀ x, iterbit ≤ x → x < q*w → bitAt pbvs.pbitvec x = !bitval := by
        intro x hx hxq
        have hdiv : iterbit/w ≤ x/w := Nat.div_le_div_right hx
        rcases Nat.eq_or_lt_of_le hdiv with heq | hlt
        · rw [bitAt,← heq,List.getElem?_eq_getElem hin,Option.getD_some]
          have hxmod := Nat.div_add_mod x w
          rw [← heq] at hxmod
          exact hskip _ (by omega) (Nat.mod_lt x hw)
        · exact bitAt_skipped hw (h₄ (x/w) hlt ((Nat.div_lt_iff_lt_mul hw).mpr hxq)) rfl
      by_cases hq : q < pbvs.pbitvec.length
      · have hle := (hiff q).mpr hq
        rw [if_neg (by omega)]
        have hhead : (pbvs.pbitvec.drop q).head? = some pbvs.pbitvec[q] := by
          rw [List.drop_eq_getElem_cons hq,List.head?_cons]
        rw [hhead,Option.bind_some]
        refine ⟨_,rfl,found_walk hw bitval hq (by omega) hbefore (List.getElem?_eq_getElem hq) ?_⟩
        have hge : ¬ q*w < iterbit := by
          have : (iterbit/w+1)*w ≤ q*w := Nat.mul_le_mul_right w h₂
          rw [Nat.add_mul,Nat.one_mul] at this
          omega
        rw [if_neg hge]
        refine exists_bit fun hall => h₅ ?_
        rw [List.getElem?_eq_getElem hq,(eq_skipval_iff _ _).mpr fun j hj => hall j (Nat.zero_le j) hj]
      · have hgt : ¬ ((q*w : ℕ) : ℤ) ≤ pbvs.maxMember := fun hle => hq ((hiff q).mp hle)
        rw [if_pos (by omega)]
        refine ⟨_,rfl,.inl ⟨rfl,fun x hx hxl => hbefore x hx ?_⟩⟩
        have : q = pbvs.pbitvec.length := by omega
        rwa [this]
    · rw [if_neg hskip]
      rw [useful_eq_iff _ _ hmod] at hskip
      rw [if_neg (by omega)]
      have hhead : (pbvs.pbitvec.drop (iterbit/w)).head? = some pbvs.pbitvec[iterbit/w] := by
        rw [List.drop_eq_getElem_cons hin,List.head?_cons]
      rw [hhead,Option.bind_some]
      have hwalk : (if iterbit/w*w < iterbit then iterbit%w else 0) = iterbit%w := by
        split_ifs <;> omega
      refine ⟨_,rfl,?_⟩
      have := found_walk hw bitval hin (Nat.le_refl _) (fun x h₁ h₂ => by omega) (List.getElem?_eq_getElem hin)
        (by rw [hrest,hwalk]; exact exists_bit hskip)
      rwa [hrest] at this
  · have hgt : ¬ ((iterbit/w*w : ℕ) : ℤ) ≤ pbvs.maxMember := fun hle => hin ((hiff _).mp hle)
    rw [if_pos (by omega)]
    refine ⟨_,rfl,.inl ⟨rfl,fun x hx hxl => ?_⟩⟩
    have hle : pbvs.pbitvec.length*w ≤ iterbit/w*w := Nat.mul_le_mul_right w (by omega)
    omega

/-- `BitVectorIsMemberOfSet` reads the bit. -/
theorem bitVectorIsMemberOfSet_spec (h : VectorOk pbvs) (pm : ℕ) :
    bitVectorIsMemberOfSet pbvs pm = some (bitAt pbvs.pbitvec pm) := by
  rw [bitVectorIsMemberOfSet]
  split_ifs with hgt
  · cases hb : bitAt pbvs.pbitvec pm with
    | false => rfl
    | true =>
      have := h.above pm hb
      omega
  · have hlt : pm/w < pbvs.pbitvec.length := by
      rw [h.length,← start_le_iff h.pos h.max]
      have := Nat.div_mul_le_self pm w
      omega
    rw [bitAt,List.getElem?_eq_getElem hlt]
    simp only [Option.bind_eq_bind,Option.bind_some,Option.getD_some,Option.some.injEq,ne_eq]
    cases hb : pbvs.pbitvec[pm/w].getLsbD (pm%w) with
    | false => exact decide_eq_false fun hne => hne ((and_bit_eq_zero _ _).mpr hb)
    | true => exact decide_eq_true fun hz => by simp [(and_bit_eq_zero _ _).mp hz] at hb

end Find

section Iterate

variable {pbvs : BitVectorSet w}

lemma toCard16_of_lt {k : ℕ} (hk : k < 2^16) : toCard16 k = k := by
  rw [toCard16]
  omega

lemma bitVectorIterateSet_spec (h : VectorOk pbvs) (hsmall : pbvs.maxMember < 2^16) (p : ℕ) :
    (bitVectorIterateSet pbvs p = some none ∧ ∀ x, p ≤ x → bitAt pbvs.pbitvec x = false) ∨
      ∃ i : RecordSetInterval, bitVectorIterateSet pbvs p = some (some (i,i.last+1)) ∧ p ≤ i.first ∧ i.first ≤ i.last ∧
        (∀ x, p ≤ x → x < i.first → bitAt pbvs.pbitvec x = false) ∧
        (∀ x, i.Has x → bitAt pbvs.pbitvec x = true) ∧ bitAt pbvs.pbitvec (i.last+1) = false := by
  have houtside : ∀ x, pbvs.pbitvec.length*w ≤ x → bitAt pbvs.pbitvec x = false := by
    intro x hx
    rw [bitAt,List.getElem?_eq_none ((Nat.le_div_iff_mul_le h.pos).mpr hx)]
    simp
  obtain ⟨r,hr,⟨rfl,hnone⟩ | ⟨b,rfl,hpb,hlen,hbit,hbefore⟩⟩ := bitVectorFindBit_spec h p true
  · refine .inl ⟨by simp [bitVectorIterateSet,hr],fun x hx => ?_⟩
    rcases Nat.lt_or_ge x (pbvs.pbitvec.length*w) with hlt | hge
    · exact hnone x hx hlt
    · exact houtside x hge
  have hbmax := h.above b hbit
  have hneg : ¬ ((b : ℤ) = -1) := by omega
  obtain ⟨r,hr',hfound⟩ := bitVectorFindBit_spec h b false
  right
  simp only [bitVectorIterateSet,hr,Option.bind_eq_bind,Option.bind_some,if_neg hneg,Int.toNat_natCast,hr']
  rw [toCard16_of_lt (by omega)]
  rcases hfound with ⟨rfl,hall⟩ | ⟨e,rfl,hbe,_,hclear,hset⟩
  · -- The run goes on to the end of the last word, which is then full.
    have hmax : pbvs.maxMember = (pbvs.maxMember.toNat : ℕ) := by omega
    have hle : pbvs.maxMember.toNat < pbvs.pbitvec.length*w := by
      have hdiv := Nat.div_add_mod pbvs.maxMember.toNat w
      have hmod := Nat.mod_lt pbvs.maxMember.toNat h.pos
      have hin : pbvs.maxMember.toNat/w < pbvs.pbitvec.length := by
        rw [h.length,← start_le_iff h.pos h.max]
        have := Nat.div_mul_le_self pbvs.maxMember.toNat w
        omega
      exact (Nat.div_lt_iff_lt_mul h.pos).mp hin
    have hmax' : toCard16 pbvs.maxMember = pbvs.maxMember.toNat := by
      rw [hmax,toCard16_of_lt (by omega),Int.toNat_natCast]
    refine ⟨⟨b,pbvs.maxMember.toNat⟩,by simp [hmax'],hpb,by dsimp only; omega,hbefore,fun x hx => ?_,?_⟩
    · simp only [Lib.Runs.Interval.Has] at hx
      exact hall x (by omega) (by omega)
    · cases hb : bitAt pbvs.pbitvec (pbvs.maxMember.toNat+1) with
      | false => rfl
      | true =>
        have := h.above _ hb
        omega
  · have hlt : b < e := by
      rcases Nat.eq_or_lt_of_le hbe with rfl | hlt
      · rw [hbit] at hclear
        simp at hclear
      · exact hlt
    have hlast : bitAt pbvs.pbitvec (e-1) = true := hset (e-1) (by omega) (by omega)
    have hemax := h.above _ hlast
    have hcard : toCard16 ((e : ℤ)-1) = e-1 := by
      rw [show (e : ℤ)-1 = ((e-1 : ℕ) : ℤ) by omega,toCard16_of_lt (by omega)]
    have hnonneg : ¬ (e : ℤ) < 0 := by omega
    refine ⟨⟨b,e-1⟩,by simp [hnonneg,hcard],hpb,by dsimp only; omega,hbefore,fun x hx => ?_,?_⟩
    · simp only [Lib.Runs.Interval.Has] at hx
      exact hset x (by omega) (by omega)
    · dsimp only
      rw [Nat.sub_add_cancel (by omega)]
      exact hclear

lemma iterates_bitVector (h : VectorOk pbvs) (hsmall : pbvs.maxMember < 2^16) (p : ℕ) :
    ∃ l, Iterates (.bitVector pbvs) p l ∧ Separated l ∧ (∀ i ∈ l, p ≤ i.first) ∧
      ∀ x, Covers l x ↔ p ≤ x ∧ bitAt pbvs.pbitvec x = true := by
  rcases bitVectorIterateSet_spec h hsmall p with ⟨hdone,hnone⟩ | ⟨i,hnext,hp,hle,hbefore,hmem,hafter⟩
  · refine ⟨[],.done hdone,separated_nil,by simp,fun x => iff_of_false (covers_nil x) ?_⟩
    rintro ⟨hx,hb⟩
    rw [hnone x hx] at hb
    simp at hb
  · have hlast := h.above i.last (hmem i.last ⟨hle,Nat.le_refl _⟩)
    obtain ⟨l,h₁,h₂,h₃,h₄⟩ := iterates_bitVector h hsmall (i.last+1)
    refine ⟨i::l,.next hnext h₁,h₂.cons hle fun j hj => ?_,fun j hj => ?_,fun x => ?_⟩
    · -- The next run does not begin right behind, where the bit is clear.
      refine Nat.lt_of_le_of_ne (h₃ j hj) fun heq => ?_
      have := ((h₄ j.first).mp ⟨j,hj,Nat.le_refl _,h₂.le j hj⟩).2
      rw [← heq,hafter] at this
      simp at this
    · rcases List.mem_cons.mp hj with rfl | hj
      · exact hp
      · have := h₃ j hj
        omega
    · rw [covers_cons,h₄]
      constructor
      · rintro (hx | ⟨hx,hb⟩)
        · exact ⟨by have := hx.1; omega,hmem x hx⟩
        · exact ⟨by omega,hb⟩
      · rintro ⟨hx,hb⟩
        rcases Nat.lt_or_ge x i.first with hlow | hlow
        · rw [hbefore x hx hlow] at hb
          simp at hb
        · rcases Nat.lt_or_ge i.last x with hhigh | hhigh
          · exact .inr ⟨hhigh,hb⟩
          · exact .inl ⟨hlow,hhigh⟩
termination_by (pbvs.maxMember+1-p).toNat
decreasing_by omega

end Iterate

section Create

lemma maxMember_fold (l : List RecordSetInterval) (k : ℤ) :
    k ≤ l.foldl (fun (m : ℤ) i => if m < i.last then i.last else m) k ∧
      (∀ i ∈ l, (i.last : ℤ) ≤ l.foldl (fun (m : ℤ) i => if m < i.last then i.last else m) k) ∧
      (l.foldl (fun (m : ℤ) i => if m < i.last then i.last else m) k = k ∨
        ∃ i ∈ l, l.foldl (fun (m : ℤ) i => if m < i.last then i.last else m) k = i.last) := by
  induction l generalizing k with
  | nil => exact ⟨le_refl _,by simp,.inl rfl⟩
  | cons a l ih =>
    obtain ⟨h₁,h₂,h₃⟩ := ih (if k < a.last then a.last else k)
    rw [List.foldl_cons]
    have hk : k ≤ if k < a.last then (a.last : ℤ) else k := by split_ifs <;> omega
    have ha : (a.last : ℤ) ≤ if k < a.last then (a.last : ℤ) else k := by split_ifs <;> omega
    refine ⟨hk.trans h₁,fun i hi => ?_,?_⟩
    · rcases List.mem_cons.mp hi with rfl | hi
      · exact ha.trans h₁
      · exact h₂ i hi
    · rcases h₃ with h₃ | ⟨i,hi,h₃⟩
      · rw [h₃]
        split_ifs
        · exact .inr ⟨a,by simp,rfl⟩
        · exact .inl rfl
      · exact .inr ⟨i,by simp [hi],h₃⟩

lemma maxMemberInInterval_ge (l : List RecordSetInterval) : -1 ≤ maxMemberInInterval l := (maxMember_fold l (-1)).1

lemma last_le_maxMember {l : List RecordSetInterval} {i : RecordSetInterval} (hi : i ∈ l) :
    (i.last : ℤ) ≤ maxMemberInInterval l := (maxMember_fold l (-1)).2.1 i hi

lemma setMember_spec (hw : 0 < w) (v : List (BitVec w)) {j : ℕ} (hj : j < v.length*w) :
    ∃ v', setMember v j = some v' ∧ v'.length = v.length ∧ ∀ x, bitAt v' x = true ↔ bitAt v x = true ∨ x = j := by
  have hdiv : j/w < v.length := (Nat.div_lt_iff_lt_mul hw).mpr hj
  refine ⟨_,if_pos hdiv,by simp,fun x => ?_⟩
  have hxw := Nat.mod_lt x hw
  simp only [bitAt,List.getElem?_modify]
  by_cases heq : j/w = x/w
  · rw [← heq,List.getElem?_eq_getElem hdiv]
    simp only [if_true,Option.map_eq_map,Option.map_some,Option.getD_some,BitVec.getLsbD_or,Bool.or_eq_true]
    refine or_congr_right ?_
    have htwo : 1#w <<< (j%w) = BitVec.twoPow w (j%w) := rfl
    rw [htwo,BitVec.getLsbD_twoPow]
    simp only [Bool.and_eq_true,decide_eq_true_eq]
    have h₁ := Nat.div_add_mod j w
    have h₂ := Nat.div_add_mod x w
    rw [← heq] at h₂
    constructor
    · rintro ⟨_,hmod⟩
      omega
    · rintro rfl
      exact ⟨hxw,rfl⟩
  · have hne : x ≠ j := by
      rintro rfl
      exact heq rfl
    simp [heq,hne]

lemma setMembers_spec (hw : 0 < w) (js : List ℕ) (v : List (BitVec w)) (hjs : ∀ j ∈ js, j < v.length*w) :
    ∃ v', js.foldlM setMember v = some v' ∧ v'.length = v.length ∧
      ∀ x, bitAt v' x = true ↔ bitAt v x = true ∨ x ∈ js := by
  induction js generalizing v with
  | nil => exact ⟨v,rfl,rfl,by simp⟩
  | cons j js ih =>
    obtain ⟨v₁,h₁,hlen,hbit⟩ := setMember_spec hw v (hjs j (by simp))
    obtain ⟨v₂,h₂,hlen₂,hbit₂⟩ := ih v₁ fun k hk => by
      rw [hlen]
      exact hjs k (by simp [hk])
    refine ⟨v₂,?_,hlen₂.trans hlen,fun x => ?_⟩
    · rw [List.foldlM_cons,h₁]
      exact h₂
    · rw [hbit₂,hbit,List.mem_cons,or_assoc]

lemma fillIntervals_spec (hw : 0 < w) (l : List RecordSetInterval) (v : List (BitVec w))
    (hl : ∀ i ∈ l, i.last < v.length*w) :
    ∃ v', l.foldlM (fun v i => (List.range' i.first (i.last+1-i.first)).foldlM setMember v) v = some v' ∧
      v'.length = v.length ∧ ∀ x, bitAt v' x = true ↔ bitAt v x = true ∨ Covers l x := by
  induction l generalizing v with
  | nil => exact ⟨v,rfl,rfl,by simp⟩
  | cons i l ih =>
    have hi := hl i (by simp)
    have hrange : ∀ x, x ∈ List.range' i.first (i.last+1-i.first) ↔ i.Has x := by
      intro x
      rw [List.mem_range'_1,Lib.Runs.Interval.Has]
      omega
    obtain ⟨v₁,h₁,hlen,hbit⟩ := setMembers_spec hw (List.range' i.first (i.last+1-i.first)) v fun j hj => by
      have := ((hrange j).mp hj).2
      omega
    obtain ⟨v₂,h₂,hlen₂,hbit₂⟩ := ih v₁ fun k hk => by
      rw [hlen]
      exact hl k (by simp [hk])
    refine ⟨v₂,?_,hlen₂.trans hlen,fun x => ?_⟩
    · rw [List.foldlM_cons,h₁]
      exact h₂
    · rw [hbit₂,hbit,hrange,covers_cons,or_assoc]

/-- `BitVectorCreateSet` sets exactly the bits of the given intervals. -/
theorem bitVectorCreateSet_spec (hw : 0 < w) (l : List RecordSetInterval) :
    ∃ pbvs, bitVectorCreateSet w l = some pbvs ∧ VectorOk pbvs ∧ pbvs.maxMember = maxMemberInInterval l ∧
      ∀ x, bitAt pbvs.pbitvec x = true ↔ Covers l x := by
  have hmin := maxMemberInInterval_ge l
  have hin : ∀ i ∈ l, i.last < (List.replicate (numLongs w (maxMemberInInterval l)) (0 : BitVec w)).length*w := by
    intro i hi
    rw [List.length_replicate]
    have hdiv : i.last/w < numLongs w (maxMemberInInterval l) := by
      rw [← start_le_iff hw hmin]
      have := Nat.div_mul_le_self i.last w
      have := last_le_maxMember hi
      omega
    exact (Nat.div_lt_iff_lt_mul hw).mp hdiv
  obtain ⟨v,hv,hlen,hbit⟩ := fillIntervals_spec hw l (List.replicate (numLongs w (maxMemberInInterval l)) 0) hin
  have hzero : ∀ x, bitAt (List.replicate (numLongs w (maxMemberInInterval l)) (0 : BitVec w)) x = false := by
    intro x
    rw [bitAt,List.getElem?_replicate]
    split_ifs <;> simp
  have hcover : ∀ x, bitAt v x = true ↔ Covers l x := by
    intro x
    rw [hbit,hzero]
    simp
  refine ⟨⟨maxMemberInInterval l,v⟩,by simp only [bitVectorCreateSet,hv]; rfl,?_,rfl,hcover⟩
  refine ⟨hw,hmin,by simpa using hlen,fun x hx => ?_⟩
  obtain ⟨i,hi,hhas⟩ := (hcover x).mp hx
  have h₁ := last_le_maxMember hi
  have h₂ := hhas.2
  dsimp only
  omega

lemma maxMember_lt {l : List RecordSetInterval} (hl : ∀ i ∈ l, i.last < 2^16) : maxMemberInInterval l < 2^16 := by
  obtain ⟨_,_,hmax | ⟨i,hi,hmax⟩⟩ := maxMember_fold l (-1)
  · rw [maxMemberInInterval,hmax]
    omega
  · rw [maxMemberInInterval,hmax]
    exact_mod_cast hl i hi

end Create

end Xlibre.Record
