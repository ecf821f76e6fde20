import Mathlib.Algebra.Order.Ring.Abs
import Mathlib.Tactic.Ring
import Xlibre.Fb.RowWords

/-! `fbBlt` over its rows: which rectangles the order of the rows is right for, and what the whole call leaves. -/
namespace Xlibre.Fb

namespace Blt

variable (b : Blt) (o : BitOrder)

/-- Bit `i` of row `r` of the source rectangle. -/
def srcBit (r i : ℕ) : ℤ := 32*(b.srcLine+r*b.srcStride)+b.srcX+i

/-- Bit `i` of row `r` of the destination rectangle. -/
def dstBit (r i : ℕ) : ℤ := 32*(b.dstLine+r*b.dstStride)+b.dstX+i

/-- The bits of the destination are those of a rectangle, and none is a source bit. -/
structure Apart : Prop where
  rows : ∀ r < b.height, ∀ r' < b.height, r ≠ r' → ∀ i < b.width, ∀ j < b.width, b.dstBit r i ≠ b.dstBit r' j
  source : ∀ r < b.height, ∀ r' < b.height, ∀ i < b.width, ∀ j < b.width, b.srcBit r i ≠ b.dstBit r' j

/-- Both rectangles lie in one buffer, the destination `dy` rows further, and the flags allow it. -/
structure SameBuffer (dy left : ℤ) : Prop where
  stride : b.dstStride = b.srcStride
  line : b.dstLine = b.srcLine+dy*b.srcStride
  srcLeft : left ≤ b.srcX
  srcRight : b.srcX+b.width ≤ left+32*|b.srcStride|
  dstLeft : left ≤ b.dstX
  dstRight : b.dstX+b.width ≤ left+32*|b.srcStride|
  down : 0 < dy → b.upsidedown = true
  up : dy < 0 → b.upsidedown = false
  right : dy = 0 → b.srcX < b.dstX → b.reverse = true
  leftward : dy = 0 → b.dstX < b.srcX → b.reverse = false

/-- Row `r` is done before row `r'`. -/
def Before (r r' : ℕ) : Prop := if b.upsidedown then r' < r else r < r'

structure Orderly : Prop where
  rows : ∀ r < b.height, ∀ r' < b.height, r ≠ r' → ∀ i < b.width, ∀ j < b.width, b.dstBit r i ≠ b.dstBit r' j
  later : ∀ r < b.height, ∀ r' < b.height, b.Before r r' → ∀ i < b.width, ∀ j < b.width, b.dstBit r i ≠ b.srcBit r' j
  same : ∀ r < b.height, (∀ i < b.width, ∀ j < b.width, b.srcBit r i ≠ b.dstBit r j) ∨
    (if b.reverse then b.srcBit r 0 ≤ b.dstBit r 0 else b.dstBit r 0 ≤ b.srcBit r 0)

lemma row_unique {l stride u v x y : ℤ} (hx : l ≤ x) (hx' : x < l+32*|stride|) (hy : l ≤ y)
    (hy' : y < l+32*|stride|) (h : 32*(u*stride)+x = 32*(v*stride)+y) : u = v := by
  by_contra hne
  have hprod : (u-v)*stride = u*stride-v*stride := by ring
  have hone : 1 ≤ |u-v| := Int.one_le_abs (sub_ne_zero.mpr hne)
  have habs : |stride| ≤ |(u-v)*stride| := by
    rw [abs_mul]
    exact le_mul_of_one_le_left (abs_nonneg _) hone
  rw [hprod] at habs
  obtain hsign | hsign := abs_cases (u*stride-v*stride) <;> omega

variable {b}

lemma Apart.orderly (h : b.Apart) : b.Orderly where
  rows := h.rows
  later := fun r hr r' hr' _ i hi j hj heq => h.source r' hr' r hr j hj i hi heq.symm
  same := fun r hr => Or.inl (h.source r hr r hr)

lemma SameBuffer.orderly {dy left : ℤ} (h : b.SameBuffer dy left) : b.Orderly := by
  have hsl := h.srcLeft
  have hsr := h.srcRight
  have hdl := h.dstLeft
  have hdr := h.dstRight
  have hdst : ∀ r i : ℕ, b.dstBit r i = 32*((dy+r)*b.srcStride)+(b.dstX+i)+32*b.srcLine := by
    intro r i
    rw [dstBit,h.stride,h.line]
    ring
  have hsrc : ∀ r i : ℕ, b.srcBit r i = 32*(r*b.srcStride)+(b.srcX+i)+32*b.srcLine := by
    intro r i
    rw [srcBit]
    ring
  have hcross : ∀ r r' i j : ℕ, i < b.width → j < b.width → b.dstBit r i = b.srcBit r' j → dy+r = r' := by
    intro r r' i j hi hj heq
    rw [hdst,hsrc] at heq
    exact row_unique (l := left) (by omega) (by omega) (by omega) (by omega) (add_right_cancel heq)
  refine ⟨?_,?_,?_⟩
  · intro r _ r' _ hne i hi j hj heq
    rw [hdst,hdst] at heq
    have := row_unique (l := left) (by omega) (by omega) (by omega) (by omega) (add_right_cancel heq)
    omega
  · intro r _ r' _ hbefore i hi j hj heq
    have hrow := hcross r r' i j hi hj heq
    unfold Before at hbefore
    split_ifs at hbefore with hud
    · have := h.up (by omega)
      rw [hud] at this
      exact Bool.noConfusion this
    · exact hud (h.down (by omega))
  · intro r _
    by_cases hdy : dy = 0
    · right
      rw [hdst,hsrc,hdy]
      split_ifs with hrev
      · by_contra hlt
        have := h.leftward hdy (by simp only [Nat.cast_zero,zero_add] at hlt; omega)
        rw [hrev] at this
        exact Bool.noConfusion this
      · by_contra hlt
        exact hrev (h.right hdy (by simp only [Nat.cast_zero,zero_add] at hlt; omega))
    · left
      intro i hi j hj heq
      have := hcross r r j i hj hi heq.symm
      omega

/-- Row `r` of the call. -/
def span (b : Blt) (o : BitOrder) (r : ℕ) : Span :=
  { o, alu := b.alu, pm := b.pm, reverse := b.reverse, src := b.srcBit r 0, dst := b.dstBit r 0, width := b.width }

lemma srcBit_eq (b : Blt) (r i : ℕ) : b.srcBit r i = b.srcBit r 0+i := by simp [srcBit]

lemma dstBit_eq (b : Blt) (r i : ℕ) : b.dstBit r i = b.dstBit r 0+i := by simp [dstBit]

lemma covers_span (b : Blt) (o : BitOrder) (r : ℕ) (a : ℤ) :
    (b.span o r).Covers a ↔ ∃ i < b.width, a = b.dstBit r i := by
  simp only [Span.Covers,span]
  constructor
  · intro h
    refine ⟨(a-b.dstBit r 0).toNat,by omega,?_⟩
    have := b.dstBit_eq r (a-b.dstBit r 0).toNat
    omega
  · rintro ⟨i,hi,rfl⟩
    have := b.dstBit_eq r i
    omega

lemma shift_span (b : Blt) (o : BitOrder) (r i : ℕ) : b.dstBit r i+(b.span o r).shift = b.srcBit r i := by
  rw [dstBit_eq,srcBit_eq]
  simp only [Span.shift,span]
  omega

lemma plan_span (b : Blt) (o : BitOrder) (r : ℕ) : (b.span o r).plan = b.plan o := by
  have hmasks : fbMaskBitsBytes o (b.dstBit r 0) b.width (fbInitializeMergeRop b.alu b.pm).destInvarient =
      fbMaskBitsBytes o b.dstX b.width (fbInitializeMergeRop b.alu b.pm).destInvarient := by
    rw [← fbMaskBitsBytes_add o b.dstX (b.dstLine+r*b.dstStride)]
    simp [dstBit]
  have hplace : ∀ line x : ℤ, (32*line+x+((0:ℕ):ℤ))%32 = x%32 ∧
      (32*line+x+((0:ℕ):ℤ)+b.width-1)%32 = (x+b.width-1)%32 := by
    intro line x
    omega
  simp only [Span.plan,span,plan,hmasks]
  simp only [srcBit,dstBit,(hplace _ _).1,(hplace _ _).2]

lemma Orderly.safe (h : b.Orderly) {r : ℕ} (hr : r < b.height) : (b.span o r).Safe := by
  obtain hdisjoint | horder := h.same r hr
  · left
    intro a c ha hc heq
    obtain ⟨i,hi,rfl⟩ := (b.covers_span o r a).mp ha
    obtain ⟨j,hj,rfl⟩ := (b.covers_span o r c).mp hc
    rw [shift_span] at heq
    exact hdisjoint i hi j hj heq
  · right
    cases hrev : b.reverse <;>
      simp only [Span.shift,span,hrev,if_true,if_false,Bool.false_eq_true] at horder ⊢ <;> omega

/-- The rows of the list are done one after the other. -/
inductive RowRun (b : Blt) (o : BitOrder) : List ℕ → Store → Store → Prop
  | nil (s : Store) : RowRun b o [] s s
  | cons {r : ℕ} {l : List ℕ} {s s' s'' : Store} (value : ∀ a, memBit o s'.mem a = (b.span o r).value s.mem a)
      (reads : ∀ k ∈ s'.reads, k ∈ s.reads ∨ (b.span o r).SourceWord k) (rest : RowRun b o l s' s'') :
      RowRun b o (r :: l) s s''

/-- Rows done in an order that spares what is still to be read are all done from the first memory. -/
theorem RowRun.value (h : b.Orderly) {l : List ℕ} {s s' : Store} (hrun : RowRun b o l s s')
    (hl : ∀ r ∈ l, r < b.height) (hpair : l.Pairwise b.Before) :
    (∀ r ∈ l, ∀ i < b.width, memBit o s'.mem (b.dstBit r i) = (b.span o r).value s.mem (b.dstBit r i)) ∧
    (∀ a, (∀ r ∈ l, ∀ i < b.width, a ≠ b.dstBit r i) → memBit o s'.mem a = memBit o s.mem a) ∧
    ∀ k ∈ s'.reads, k ∈ s.reads ∨ ∃ r ∈ l, (b.span o r).SourceWord k := by
  induction hrun with
  | nil s => exact ⟨by simp,fun _ _ => rfl,fun k hk => Or.inl hk⟩
  | @cons r l s s' s'' hvalue hreads hrest ih =>
    obtain ⟨hfirst,hpair⟩ := List.pairwise_cons.mp hpair
    obtain ⟨ihdone,ihrest,ihreads⟩ := ih (fun r' hr' => hl r' (by simp [hr'])) hpair
    have hr := hl r (by simp)
    have hout : ∀ a, (∀ i < b.width, a ≠ b.dstBit r i) → memBit o s'.mem a = memBit o s.mem a := by
      intro a ha
      rw [hvalue]
      apply Span.value_of_not_covers
      intro hc
      obtain ⟨i,hi,heq⟩ := (b.covers_span o r a).mp hc
      exact ha i hi heq
    have hne : ∀ r' ∈ l, r ≠ r' := by
      intro r' hr' heq
      have := hfirst r' hr'
      unfold Before at this
      split_ifs at this <;> omega
    refine ⟨?_,?_,?_⟩
    · intro r' hr' i hi
      obtain rfl | hr'l := List.mem_cons.mp hr'
      · rw [ihrest _ (fun r'' hr'' j hj => h.rows _ hr _ (hl r'' (by simp [hr''])) (hne r'' hr'') i hi j hj)]
        exact hvalue _
      · have hr'h := hl r' hr'
        have hdst := hout (b.dstBit r' i) (fun j hj => h.rows r' hr'h r hr (hne r' hr'l).symm i hi j hj)
        have hsrc := hout (b.srcBit r' i) (fun j hj heq => h.later r hr r' hr'h (hfirst r' hr'l) j hj i hi heq.symm)
        rw [ihdone r' hr'l i hi]
        simp only [Span.value,shift_span]
        exact if_congr Iff.rfl (congrArg₂ (merged _ _) hsrc hdst) hdst
    · intro a ha
      rw [ihrest a (fun r' hr' => ha r' (by simp [hr']))]
      exact hout a (ha r (by simp))
    · intro k hk
      obtain hk | ⟨r',hr',hk⟩ := ihreads k hk
      · obtain hk | hk := hreads k hk
        · exact Or.inl hk
        · exact Or.inr ⟨r,by simp,hk⟩
      · exact Or.inr ⟨r',by simp [hr'],hk⟩

/-- The row that the loop takes after `k` others. -/
def rowAt (b : Blt) (k : ℕ) : ℕ := if b.upsidedown then b.height-1-k else k

lemma rowOrder_length (b : Blt) : b.rowOrder.length = b.height := by
  unfold rowOrder
  split_ifs <;> simp

lemma rowOrder_getElem (b : Blt) (k : ℕ) (hk : k < b.rowOrder.length) : b.rowOrder[k] = b.rowAt k := by
  have hlen := b.rowOrder_length
  simp only [rowOrder,rowAt] at hk ⊢
  split_ifs at hk ⊢ with hud
  · simp
  · simp

lemma mem_rowOrder (b : Blt) (r : ℕ) : r ∈ b.rowOrder ↔ r < b.height := by
  unfold rowOrder
  split_ifs <;> simp

lemma rowOrder_pairwise (b : Blt) : b.rowOrder.Pairwise b.Before := by
  unfold rowOrder Before
  split_ifs with hud
  · rw [List.pairwise_reverse]
    simpa [hud] using List.pairwise_lt_range
  · simpa [hud] using List.pairwise_lt_range

lemma lines_at (b : Blt) (line stride x : ℤ) {k : ℕ} (hk : k < b.height) :
    b.firstLine line stride x+k*b.lineStep stride =
      if b.reverse then (32*(line+b.rowAt k*stride)+x+b.width-1)/32+1 else (32*(line+b.rowAt k*stride)+x)/32 := by
  have hline : (if b.upsidedown then line+(b.height-1)*stride else line)+k*b.lineStep stride =
      line+b.rowAt k*stride := by
    unfold lineStep rowAt
    split_ifs
    · have hcast : ((b.height-1-k : ℕ) : ℤ) = b.height-1-k := by omega
      rw [hcast]
      ring
    · rfl
  rw [← hline]
  simp only [firstLine]
  split_ifs <;> omega

lemma src_at (b : Blt) (o : BitOrder) {k : ℕ} (hk : k < b.height) :
    b.firstLine b.srcLine b.srcStride b.srcX+k*b.lineStep b.srcStride =
      let g := b.span o (b.rowAt k)
      if g.reverse then (g.src+g.width-1)/32+1 else g.src/32 := by
  rw [lines_at b _ _ _ hk]
  simp only [span,srcBit,Nat.cast_zero,add_zero]

lemma dst_at (b : Blt) (o : BitOrder) {k : ℕ} (hk : k < b.height) :
    b.firstLine b.dstLine b.dstStride b.dstX+k*b.lineStep b.dstStride =
      let g := b.span o (b.rowAt k)
      if g.reverse then (g.dst+g.width-1)/32+1 else g.dst/32 := by
  rw [lines_at b _ _ _ hk]
  simp only [span,dstBit,Nat.cast_zero,add_zero]

lemma rows_run (h : b.Orderly) (hw : 0 < b.width) (n : ℕ) (hn : n ≤ b.height) (s : Store) :
    RowRun b o (b.rowOrder.drop (b.height-n)) s
      ((b.plan o).rows (b.lineStep b.srcStride) (b.lineStep b.dstStride) n
        (b.firstLine b.srcLine b.srcStride b.srcX+(b.height-n : ℕ)*b.lineStep b.srcStride)
        (b.firstLine b.dstLine b.dstStride b.dstX+(b.height-n : ℕ)*b.lineStep b.dstStride) s) := by
  induction n generalizing s with
  | zero =>
    rw [Nat.sub_zero,List.drop_of_length_le (by rw [rowOrder_length])]
    exact RowRun.nil s
  | succ n ih =>
    have hk : b.height-(n+1) < b.height := by omega
    have hklen : b.height-(n+1) < b.rowOrder.length := by rw [rowOrder_length]; exact hk
    have hnext : b.height-n = b.height-(n+1)+1 := by omega
    have hrow : b.rowAt (b.height-(n+1)) < b.height := by
      rw [← mem_rowOrder,← rowOrder_getElem b _ hklen]
      exact List.getElem_mem hklen
    rw [List.drop_eq_getElem_cons hklen,rowOrder_getElem]
    have hvalue := Span.row_value (g := b.span o (b.rowAt (b.height-(n+1)))) (h.safe o hrow) hw s
    rw [plan_span] at hvalue
    rw [← src_at b o hk,← dst_at b o hk] at hvalue
    refine RowRun.cons hvalue.1 hvalue.2 ?_
    have hstep := fun line x stride => show b.firstLine line stride x+((b.height-(n+1) : ℕ) : ℤ)*b.lineStep stride+
        b.lineStep stride = b.firstLine line stride x+((b.height-n : ℕ) : ℤ)*b.lineStep stride by
      rw [hnext]
      push_cast
      ring
    rw [Plan.rows,hstep,hstep,← hnext]
    exact ih (by omega) _

end Blt

end Xlibre.Fb
