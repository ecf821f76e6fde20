import Xlibre.Fb.BltRows

/-! The byte copies of `fbBlt`'s fast path, and the call as a whole. -/
namespace Xlibre.Fb

variable (o : BitOrder)

lemma byteShift_place {q q' p : ℕ} (hq : q < 4) (hq' : q' < 4) (hp : p < 8) :
    byteShift o q 1 ≤ o.place (8*q'+p) ∧ o.place (8*q'+p) < byteShift o q 1+8 ↔ q = q' := by
  cases o <;> simp only [BitOrder.place,byteShift] <;> omega

lemma place_moved {q q' p : ℕ} (hq : q < 4) (hq' : q' < 4) (hp : p < 8) :
    byteShift o q' 1+(o.place (8*q+p)-byteShift o q 1) = o.place (8*q'+p) := by
  cases o <;> simp only [BitOrder.place,byteShift] <;> omega

lemma bit_of_byte {a k p : ℤ} (h : a = 8*k+p) (hp : 0 ≤ p) (hlt : p < 8) :
    (a%32).toNat = 8*(k%4).toNat+p.toNat ∧ a/32 = k/4 := by
  omega

lemma setByte_bit (m : ℤ → FbBits) (k j a : ℤ) :
    memBit o (setByte o m k (getByte o m j)) a = if a/8 = k then memBit o m (a+8*(j-k)) else memBit o m a := by
  have hp : (a%32).toNat < 32 := by omega
  have hq : (a%8).toNat < 8 := by omega
  have hk : (k%4).toNat < 4 := by omega
  have hupdate : memBit o (setByte o m k (getByte o m j)) a =
      if a/32 = k/4 then scrBit o _ (a%32).toNat else memBit o m a := Lib.BitMemory.bit_update 32 (scrBit o) m _ _ a
  rw [hupdate,scrBit,insert_bit _ _ _ (place_lt o hp)]
  have hbyte : a = 8*(a/8)+a%8 := (Int.mul_ediv_add_emod a 8).symm
  have hbits := bit_of_byte hbyte (Int.emod_nonneg a (by decide)) (Int.emod_lt_of_pos a (by decide))
  by_cases hsame : a/8 = k
  · rw [hsame] at hbyte hbits
    have hmoved := bit_of_byte (a := a+8*(j-k)) (k := j) (p := a%8) (by omega) (Int.emod_nonneg a (by decide))
      (Int.emod_lt_of_pos a (by decide))
    have hin := (byteShift_place o hk hk hq).2 rfl
    rw [← hbits.1] at hin
    have hplace := place_moved o hk (show (j%4).toNat < 4 by omega) hq
    rw [← hbits.1,← hmoved.1] at hplace
    have hlt : o.place (a%32).toNat-byteShift o (k%4).toNat 1 < 8 := by omega
    rw [if_pos hbits.2,if_pos hin,if_pos hsame,getByte,BitVec.getLsbD_setWidth,BitVec.getLsbD_ushiftRight,hplace]
    simp only [hlt,decide_true,Bool.true_and,memBit,Lib.BitMemory.bit,Nat.cast_ofNat,hmoved.2,scrBit]
  · rw [if_neg hsame]
    split_ifs with hword hin
    · exfalso
      rw [hbits.1] at hin
      have hplace := (byteShift_place o hk (show (a/8%4).toNat < 4 by omega) hq).1 hin
      clear hin
      omega
    · simp only [memBit,Lib.BitMemory.bit,Nat.cast_ofNat,hword,scrBit]
    · rfl

lemma copyBytes_bit {dst src : ℤ} {n : ℕ} (h : src+n ≤ dst ∨ dst+n ≤ src) (s : Store) (a : ℤ) :
    memBit o (copyBytes o dst src n s).mem a =
      if 8*dst ≤ a ∧ a < 8*(dst+n) then memBit o s.mem (a+8*(src-dst)) else memBit o s.mem a := by
  induction n generalizing a with
  | zero =>
    rw [if_neg (by omega)]
    rfl
  | succ n ih =>
    simp only [copyBytes]
    rw [setByte_bit]
    by_cases hbyte : a/8 = dst+n
    · have hshift : a+8*(src+n-(dst+n)) = a+8*(src-dst) := by omega
      rw [if_pos hbyte,if_pos (by push_cast; omega),hshift,ih (by push_cast at h; omega),if_neg (by push_cast at h; omega)]
    · rw [if_neg hbyte,ih (by push_cast at h; omega)]
      exact if_congr (by push_cast; omega) rfl rfl

lemma copyBytes_reads (dst src : ℤ) (n : ℕ) (s : Store) :
    ∀ k ∈ (copyBytes o dst src n s).reads, k ∈ s.reads ∨ ∃ i < n, k = (src+i)/4 := by
  induction n with
  | zero => exact fun k hk => Or.inl hk
  | succ n ih =>
    intro k hk
    simp only [copyBytes,List.mem_cons] at hk
    obtain rfl | hk := hk
    · exact Or.inr ⟨n,by omega,rfl⟩
    · obtain hk | ⟨i,hi,heq⟩ := ih k hk
      · exact Or.inl hk
      · exact Or.inr ⟨i,by omega,heq⟩

namespace Blt

variable {b : Blt}

structure Fast (b : Blt) : Prop where
  alu : b.alu = .copy
  pm : b.pm = fbAllOnes
  srcX : b.srcX%8 = 0
  dstX : b.dstX%8 = 0
  width : b.width%8 = 0
  apart : b.srcByte+b.widthByte ≤ b.dstByte ∨ b.dstByte+b.widthByte ≤ b.srcByte

lemma fast_iff : b.fast = true ↔ b.Fast := by
  simp only [fast,Bool.and_eq_true,Bool.or_eq_true,beq_iff_eq,decide_eq_true_eq]
  constructor
  · rintro ⟨⟨⟨⟨⟨h₁,h₂⟩,h₃⟩,h₄⟩,h₅⟩,h₆⟩
    exact ⟨h₁,h₂,h₃,h₄,h₅,h₆⟩
  · intro h
    exact ⟨⟨⟨⟨⟨h.alu,h.pm⟩,h.srcX⟩,h.dstX⟩,h.width⟩,h.apart⟩

/-- The bytes of row `r` of the source and of the destination are apart. -/
def BytesApart (b : Blt) (r : ℕ) : Prop :=
  b.srcByte+r*(4*b.srcStride)+b.widthByte ≤ b.dstByte+r*(4*b.dstStride) ∨
  b.dstByte+r*(4*b.dstStride)+b.widthByte ≤ b.srcByte+r*(4*b.srcStride)

lemma Fast.srcBit (h : b.Fast) (r : ℕ) : b.srcBit r 0 = 8*(b.srcByte+r*(4*b.srcStride)) := by
  have hx := h.srcX
  have hbits : 8*(b.srcX/8) = b.srcX := by omega
  simp only [Blt.srcBit,srcByte,mul_add,hbits]
  push_cast
  ring

lemma Fast.dstBit (h : b.Fast) (r : ℕ) : b.dstBit r 0 = 8*(b.dstByte+r*(4*b.dstStride)) := by
  have hx := h.dstX
  have hbits : 8*(b.dstX/8) = b.dstX := by omega
  simp only [Blt.dstBit,dstByte,mul_add,hbits]
  push_cast
  ring

lemma Fast.width_eq (h : b.Fast) : (b.width : ℤ) = 8*b.widthByte := by
  have hw := h.width
  unfold widthByte
  omega

lemma Apart.bytesApart (h : b.Apart) (hf : b.Fast) {r : ℕ} (hr : r < b.height) : b.BytesApart r := by
  have hsrc := hf.srcBit r
  have hdst := hf.dstBit r
  have hwidth := hf.width_eq
  unfold BytesApart
  by_contra hmeet
  push Not at hmeet
  -- the later of the two starts would be a bit of both rows
  obtain hle | hle := le_total (b.srcBit r 0) (b.dstBit r 0)
  · have hi : (b.dstBit r 0-b.srcBit r 0).toNat < b.width := by omega
    apply h.source r hr r hr _ hi 0 (by omega)
    rw [srcBit_eq]
    omega
  · have hj : (b.srcBit r 0-b.dstBit r 0).toNat < b.width := by omega
    apply h.source r hr r hr 0 (by omega) _ hj
    rw [b.dstBit_eq r (b.srcBit r 0-b.dstBit r 0).toNat]
    omega

lemma SameBuffer.bytesApart {dy left : ℤ} (h : b.SameBuffer dy left) (hf : b.Fast) (r : ℕ) : b.BytesApart r := by
  have hapart := hf.apart
  unfold BytesApart
  rw [h.stride]
  omega

lemma memcpy_row (hf : b.Fast) {r : ℕ} (hapart : b.BytesApart r) (s : Store) :
    ∃ s', memcpy o (b.dstByte+r*(4*b.dstStride)) (b.srcByte+r*(4*b.srcStride)) b.widthByte s = some s' ∧
      (∀ a, memBit o s'.mem a = (b.span o r).value s.mem a) ∧
      ∀ k ∈ s'.reads, k ∈ s.reads ∨ (b.span o r).SourceWord k := by
  have hsrc := hf.srcBit r
  have hdst := hf.dstBit r
  have hwidth := hf.width_eq
  have hcovers : ∀ a, (b.span o r).Covers a ↔ b.dstBit r 0 ≤ a ∧ a < b.dstBit r 0+b.width := fun a => Iff.rfl
  have hshift : (b.span o r).shift = b.srcBit r 0-b.dstBit r 0 := rfl
  refine ⟨_,if_pos hapart,?_,?_⟩
  · intro a
    rw [copyBytes_bit o hapart,Span.value]
    refine (if_congr ?_ ?_ rfl).trans rfl
    · rw [hcovers]
      omega
    · have hbit : scrBit o b.pm (a%32).toNat = true := by
        rw [hf.pm]
        exact scrBit_allOnes o (by omega)
      have hplace : a+8*(b.srcByte+r*(4*b.srcStride)-(b.dstByte+r*(4*b.dstStride))) = a+(b.span o r).shift := by omega
      rw [hplace]
      simp only [span,merged,hf.alu,hbit,if_true,Alu.apply]
  · intro k hk
    obtain hk | ⟨i,hi,rfl⟩ := copyBytes_reads o _ _ _ s k hk
    · exact Or.inl hk
    · refine Or.inr ⟨b.dstBit r 0+8*i,?_,?_⟩
      · rw [hcovers]
        omega
      · rw [hshift]
        omega

lemma copyRows_run (hf : b.Fast) {l : List ℕ} (hapart : ∀ r ∈ l, b.BytesApart r) (s : Store) :
    ∃ s', l.foldlM (fun s (i : ℕ) =>
        memcpy o (b.dstByte+i*(4*b.dstStride)) (b.srcByte+i*(4*b.srcStride)) b.widthByte s) s = some s' ∧
      RowRun b o l s s' := by
  induction l generalizing s with
  | nil => exact ⟨s,rfl,RowRun.nil s⟩
  | cons r l ih =>
    obtain ⟨s₁,hcopy,hvalue,hreads⟩ := memcpy_row o hf (hapart r (by simp)) s
    obtain ⟨s₂,hrest,hrun⟩ := ih (fun r' hr' => hapart r' (by simp [hr'])) s₁
    refine ⟨s₂,?_,RowRun.cons hvalue hreads hrun⟩
    rw [List.foldlM_cons,hcopy]
    exact hrest

lemma general_run (h : b.Orderly) (hw : 0 < b.width) (mem : ℤ → FbBits) :
    RowRun b o b.rowOrder ⟨mem,[]⟩ (b.general o mem) := by
  have hrun := rows_run o h hw b.height le_rfl ⟨mem,[]⟩
  simp only [Nat.sub_self,List.drop_zero,Nat.cast_zero,zero_mul,add_zero] at hrun
  exact hrun

/-- Bit `a` after the call, row by row. -/
structure Done (b : Blt) (o : BitOrder) (mem mem' : ℤ → FbBits) : Prop where
  bits : ∀ r < b.height, ∀ i < b.width, memBit o mem' (b.dstBit r i) =
    if scrBit o b.pm ((b.dstX+i)%32).toNat then
      b.alu.apply (memBit o mem (b.srcBit r i)) (memBit o mem (b.dstBit r i))
    else memBit o mem (b.dstBit r i)
  others : ∀ a, (∀ r < b.height, ∀ i < b.width, a ≠ b.dstBit r i) → memBit o mem' a = memBit o mem a

lemma RowRun.done (h : b.Orderly) {mem : ℤ → FbBits} {s : Store} (hrun : RowRun b o b.rowOrder ⟨mem,[]⟩ s) :
    b.Done o mem s.mem ∧ ∀ k ∈ s.reads, ∃ r < b.height, ∃ i < b.width, k = b.srcBit r i/32 := by
  obtain ⟨hdone,hothers,hreads⟩ := hrun.value o h (fun r hr => (mem_rowOrder b r).mp hr) b.rowOrder_pairwise
  refine ⟨⟨?_,?_⟩,?_⟩
  · intro r hr i hi
    rw [hdone r ((mem_rowOrder b r).mpr hr) i hi,Span.value,if_pos ((b.covers_span o r _).mpr ⟨i,hi,rfl⟩),shift_span]
    have hplace : b.dstBit r i%32 = (b.dstX+i)%32 := by
      unfold dstBit
      omega
    rw [hplace]
    rfl
  · intro a ha
    exact hothers a (fun r hr i hi => ha r ((mem_rowOrder b r).mp hr) i hi)
  · intro k hk
    obtain hk | ⟨r,hr,a,ha,rfl⟩ := hreads k hk
    · simp at hk
    · obtain ⟨i,hi,rfl⟩ := (b.covers_span o r a).mp ha
      exact ⟨r,(mem_rowOrder b r).mp hr,i,hi,by rw [shift_span]⟩

lemma Done.unique {mem m₁ m₂ : ℤ → FbBits} (h₁ : b.Done o mem m₁) (h₂ : b.Done o mem m₂) : m₁ = m₂ := by
  apply Lib.BitMemory.ext_bit (w := 32) (fun x y h => ext_scrBit o h)
  intro a
  change memBit o m₁ a = memBit o m₂ a
  by_cases ha : ∀ r < b.height, ∀ i < b.width, a ≠ b.dstBit r i
  · rw [h₁.others a ha,h₂.others a ha]
  · push Not at ha
    obtain ⟨r,hr,i,hi,rfl⟩ := ha
    rw [h₁.bits r hr i hi,h₂.bits r hr i hi]

end Blt

/-- `fbBlt` is the bitwise raster operation under the plane mask, on rectangles that are apart or that lie in one
buffer in the way the flags allow; it reads only words of the source, and the fast path leaves the same memory as the
general one. -/
theorem fbBlt_rasterOp (b : Blt) (mem : ℤ → FbBits) (hw : 0 < b.width)
    (hrect : b.Apart ∨ ∃ dy left, b.SameBuffer dy left) :
    ∃ s, fbBlt o b mem = some s ∧
      (∀ r < b.height, ∀ i < b.width, memBit o s.mem (b.dstBit r i) =
        if scrBit o b.pm ((b.dstX+i)%32).toNat then
          b.alu.apply (memBit o mem (b.srcBit r i)) (memBit o mem (b.dstBit r i))
        else memBit o mem (b.dstBit r i)) ∧
      (∀ a, (∀ r < b.height, ∀ i < b.width, a ≠ b.dstBit r i) → memBit o s.mem a = memBit o mem a) ∧
      (∀ k ∈ s.reads, ∃ r < b.height, ∃ i < b.width, k = b.srcBit r i/32) ∧
      s.mem = (b.general o mem).mem := by
  have horderly : b.Orderly := by
    obtain h | ⟨dy,left,h⟩ := hrect
    · exact h.orderly
    · exact h.orderly
  obtain ⟨hgeneral,hgreads⟩ := (Blt.general_run o horderly hw mem).done o horderly
  cases hfast : b.fast with
  | true =>
    have hf := Blt.fast_iff.mp hfast
    have hapart : ∀ r ∈ b.rowOrder, b.BytesApart r := by
      intro r hr
      obtain h | ⟨dy,left,h⟩ := hrect
      · exact h.bytesApart hf ((Blt.mem_rowOrder b r).mp hr)
      · exact h.bytesApart hf r
    obtain ⟨s,hcopy,hrun⟩ := Blt.copyRows_run o hf hapart ⟨mem,[]⟩
    obtain ⟨hdone,hreads⟩ := hrun.done o horderly
    refine ⟨s,?_,hdone.bits,hdone.others,hreads,hdone.unique o hgeneral⟩
    rw [fbBlt,hfast]
    exact hcopy
  | false =>
    refine ⟨b.general o mem,?_,hgeneral.bits,hgeneral.others,hgreads,rfl⟩
    rw [fbBlt,hfast]
    rfl

/-- A scroll by one row and four bits, bottom up and right to left. -/
theorem fbBlt_rasterOp_scroll :
    ∃ s, fbBlt .lsbFirst ⟨0,2,5,2,2,9,40,3,.xor,fbAllOnes,true,true⟩ (fun k => BitVec.ofInt 32 k) = some s ∧
      memBit .lsbFirst s.mem 164 =
        (memBit .lsbFirst (fun k => BitVec.ofInt 32 k) 96 ^^ memBit .lsbFirst (fun k => BitVec.ofInt 32 k) 164) := by
  obtain ⟨s,hs,hbits,-⟩ := fbBlt_rasterOp .lsbFirst ⟨0,2,5,2,2,9,40,3,.xor,fbAllOnes,true,true⟩
    (fun k => BitVec.ofInt 32 k) (by decide)
    (Or.inr ⟨1,0,⟨rfl,rfl,by decide,by decide,by decide,by decide,fun _ => rfl,by decide,by decide,by decide⟩⟩)
  refine ⟨s,hs,?_⟩
  have hbit := hbits 1 (by decide) 27 (by decide)
  simpa [Blt.srcBit,Blt.dstBit,scrBit_allOnes,Alu.apply] using hbit

end Xlibre.Fb
