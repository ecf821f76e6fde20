import Mathlib.Tactic
import Xlibre.Lib.Runs

/-! Point sets of the integer plane as bands of separated spans. A banded list is in normal form:
its bands lie one below the other, and no two that touch have the same spans. -/
namespace Xlibre.Lib.Bands

/-- Half-open intervals on a line. -/
abbrev Span := ℤ × ℤ

def InSpans (x : ℤ) (l : List Span) : Prop := ∃ s ∈ l, s.1 ≤ x ∧ x < s.2

/-- Non-empty spans from left to right, with room between any two. -/
structure Separated (l : List Span) : Prop where
  proper : ∀ s ∈ l, s.1 < s.2
  gaps : l.Pairwise (fun s t => s.2 < t.1)

structure Band where
  y1 : ℤ
  y2 : ℤ
  spans : List Span
  deriving DecidableEq, Repr

structure Band.Wf (b : Band) : Prop where
  rows : b.y1 < b.y2
  nonempty : b.spans ≠ []
  separated : Separated b.spans

def Band.Covers (b : Band) (x y : ℤ) : Prop := b.y1 ≤ y ∧ y < b.y2 ∧ InSpans x b.spans

/-- Two bands that form one taller band. -/
def Mergeable (a b : Band) : Prop := a.y2 = b.y1 ∧ a.spans = b.spans

instance (a b : Band) : Decidable (Mergeable a b) := inferInstanceAs (Decidable (_ ∧ _))

structure Banded (l : List Band) : Prop where
  wf : ∀ b ∈ l, b.Wf
  ordered : l.Pairwise (fun a b => a.y2 ≤ b.y1)
  coalesced : l.IsChain (fun a b => ¬ Mergeable a b)

def Covered (l : List Band) (x y : ℤ) : Prop := ∃ b ∈ l, b.Covers x y

/-- Add a band at the bottom, merging it with the last one where possible. -/
def appendBand : List Band → Band → List Band
  | [],b => [b]
  | [a],b => if Mergeable a b then [{ a with y2 := b.y2 }] else [a,b]
  | a::a'::l,b => a::appendBand (a'::l) b

section Append
variable {l : List Band} {a b : Band}

theorem appendBand_concat (l : List Band) (a b : Band) :
    appendBand (l ++ [a]) b =
      if Mergeable a b then l ++ [{ a with y2 := b.y2 }] else l ++ [a,b] := by
  induction l with
  | nil => rfl
  | cons c l ih =>
    cases l with
    | nil =>
      simp only [List.cons_append,List.nil_append,appendBand]
      split_ifs <;> rfl
    | cons d l =>
      simp only [List.cons_append,appendBand] at ih ⊢
      rw [ih]
      split_ifs <;> rfl

/-- The last band after an addition has the spans and the bottom of the band added. -/
lemma exists_appendBand (l : List Band) (b : Band) :
    ∃ l' a, appendBand l b = l' ++ [a] ∧ a.y2 = b.y2 ∧ a.spans = b.spans := by
  cases l using List.reverseRecOn with
  | nil => exact ⟨[],b,rfl,rfl,rfl⟩
  | append_singleton l a =>
    rw [appendBand_concat]
    split_ifs with h
    · exact ⟨l,{ a with y2 := b.y2 },rfl,rfl,h.2⟩
    · exact ⟨l ++ [a],b,by simp,rfl,rfl⟩

lemma bottom_appendBand (h : ∀ c ∈ l, c.y2 ≤ b.y1) (hb : b.Wf) :
    ∀ c ∈ appendBand l b, c.y2 ≤ b.y2 := by
  have hrows := hb.rows
  cases l using List.reverseRecOn with
  | nil => simp [appendBand]
  | append_singleton l a =>
    intro c hc
    have hl : ∀ c ∈ l, c.y2 ≤ b.y2 := fun c hc => (h c (by simp [hc])).trans hrows.le
    have ha : a.y2 ≤ b.y2 := (h a (by simp)).trans hrows.le
    rw [appendBand_concat] at hc
    split_ifs at hc
    · rcases List.mem_append.mp hc with hc | hc
      · exact hl c hc
      · rw [List.mem_singleton.mp hc]
    · simp only [List.mem_append,List.mem_cons,List.not_mem_nil,or_false] at hc
      rcases hc with hc | rfl | rfl
      · exact hl c hc
      · exact ha
      · exact le_rfl

/-- A band below a normal form keeps it one. -/
theorem Banded.appendBand (hl : Banded l) (hb : b.Wf) (h : ∀ c ∈ l, c.y2 ≤ b.y1) :
    Banded (appendBand l b) := by
  cases l using List.reverseRecOn with
  | nil => exact ⟨by simpa [Bands.appendBand] using hb,by simp [Bands.appendBand],by simp [Bands.appendBand]⟩
  | append_singleton l a =>
    obtain ⟨hwf,hord,hco⟩ := hl
    have ha := hwf a (by simp)
    obtain ⟨hordl,_,hcross⟩ := List.pairwise_append.mp hord
    rw [appendBand_concat]
    split_ifs with hm
    · have hy : a.y1 < b.y2 := by
        have h₁ := ha.rows
        have h₂ := hb.rows
        have h₃ := hm.1
        omega
      refine ⟨fun c hc => ?_,?_,?_⟩
      · rcases List.mem_append.mp hc with hc | hc
        · exact hwf c (by simp [hc])
        · rw [List.mem_singleton.mp hc]
          exact ⟨hy,ha.nonempty,ha.separated⟩
      · refine List.pairwise_append.mpr ⟨hordl,by simp,fun c hc d hd => ?_⟩
        rw [List.mem_singleton.mp hd]
        exact hcross c hc a (by simp)
      · rw [List.isChain_append] at hco ⊢
        refine ⟨hco.1,by simp,fun c hc d hd => ?_⟩
        simp only [List.head?_cons,Option.mem_def,Option.some.injEq] at hd
        subst d
        exact hco.2.2 c hc a (by simp)
    · refine ⟨fun c hc => ?_,?_,?_⟩
      · simp only [List.mem_append,List.mem_cons,List.not_mem_nil,or_false] at hc
        rcases hc with hc | rfl | rfl
        · exact hwf c (by simp [hc])
        · exact ha
        · exact hb
      · rw [List.append_cons]
        refine List.pairwise_append.mpr ⟨hord,by simp,fun c hc d hd => ?_⟩
        rw [List.mem_singleton.mp hd]
        exact h c hc
      · rw [List.append_cons]
        rw [List.isChain_append]
        refine ⟨hco,by simp,fun c hc d hd => ?_⟩
        simp only [List.getLast?_append,List.getLast?_singleton,Option.some_or,Option.mem_def,
          Option.some.injEq,List.head?_cons] at hc hd
        subst c d
        exact hm

/-- Merging two bands covers what both cover. -/
lemma covers_merge (hm : Mergeable a b) (ha : a.Wf) (hb : b.Wf) (x y : ℤ) :
    Band.Covers { a with y2 := b.y2 } x y ↔ a.Covers x y ∨ b.Covers x y := by
  obtain ⟨hy,hs⟩ := hm
  have h₁ := ha.rows
  have h₂ := hb.rows
  unfold Band.Covers
  simp only [hs]
  constructor
  · rintro ⟨h3,h4,h5⟩
    rcases lt_or_ge y a.y2 with hlt | hge
    · exact .inl ⟨h3,hlt,h5⟩
    · exact .inr ⟨by omega,h4,h5⟩
  · rintro (⟨h3,h4,h5⟩ | ⟨h3,h4,h5⟩)
    · exact ⟨h3,by omega,h5⟩
    · exact ⟨by omega,h4,h5⟩

theorem covered_appendBand (hl : Banded l) (hb : b.Wf) (x y : ℤ) :
    Covered (Bands.appendBand l b) x y ↔ Covered l x y ∨ b.Covers x y := by
  cases l using List.reverseRecOn with
  | nil => simp [Bands.appendBand,Covered]
  | append_singleton l a =>
    rw [appendBand_concat]
    split_ifs with hm
    · have hc := covers_merge hm (hl.wf a (by simp)) hb x y
      simp only [Covered,List.mem_append,List.mem_singleton,or_and_right,exists_or,exists_eq_left,
        hc,or_assoc]
    · simp only [Covered,List.mem_append,List.mem_cons,List.not_mem_nil,or_false,or_and_right,
        exists_or,exists_eq_left,or_assoc]

/-- Behind an added band come those that were behind it before. -/
lemma Banded.appendBand_append {rest : List Band} (hl : Banded l) (hb : b.Wf)
    (h : ∀ c ∈ l, c.y2 ≤ b.y1) (hrest : Banded (b::rest)) :
    Banded (Bands.appendBand l b ++ rest) := by
  have hnew := hl.appendBand hb h
  have hbot := bottom_appendBand h hb
  obtain ⟨hord1,hord2⟩ := List.pairwise_cons.mp hrest.ordered
  refine ⟨fun c hc => ?_,?_,?_⟩
  · rcases List.mem_append.mp hc with hc | hc
    · exact hnew.wf c hc
    · exact hrest.wf c (by simp [hc])
  · refine List.pairwise_append.mpr ⟨hnew.ordered,hord2,fun c hc d hd => ?_⟩
    exact (hbot c hc).trans (hord1 d hd)
  · obtain ⟨l',a,he,hy,hs⟩ := exists_appendBand l b
    have hco := hrest.coalesced
    rw [he] at hnew ⊢
    rw [List.isChain_cons] at hco
    rw [List.isChain_append]
    refine ⟨hnew.coalesced,hco.2,fun c hc d hd => ?_⟩
    simp only [List.getLast?_append,List.getLast?_singleton,Option.some_or,Option.mem_def,
      Option.some.injEq] at hc
    subst c
    intro hm
    exact hco.1 d hd ⟨hy.symm.trans hm.1,hs.symm.trans hm.2⟩

end Append

section Cons
variable {b : Band} {l : List Band}

/-- Above its bottom the first band decides what a banded list covers. -/
lemma covered_cons_of_lt (h : Banded (b::l)) {x y : ℤ} (hy : y < b.y2) :
    Covered (b::l) x y ↔ b.y1 ≤ y ∧ InSpans x b.spans := by
  obtain ⟨hord,_⟩ := List.pairwise_cons.mp h.ordered
  constructor
  · rintro ⟨c,hc,h₁,h₂,h₃⟩
    rcases List.mem_cons.mp hc with rfl | hc
    · exact ⟨h₁,h₃⟩
    · have := hord c hc
      omega
  · rintro ⟨h₁,h₂⟩
    exact ⟨b,by simp,h₁,hy,h₂⟩

/-- Below its bottom the first band no longer matters. -/
lemma covered_cons_of_ge {x y : ℤ} (hy : b.y2 ≤ y) : Covered (b::l) x y ↔ Covered l x y := by
  constructor
  · rintro ⟨c,hc,h₁,h₂,h₃⟩
    rcases List.mem_cons.mp hc with rfl | hc
    · omega
    · exact ⟨c,hc,h₁,h₂,h₃⟩
  · rintro ⟨c,hc,h⟩
    exact ⟨c,by simp [hc],h⟩

lemma Banded.tail (h : Banded (b::l)) : Banded l :=
  ⟨fun c hc => h.wf c (by simp [hc]),(List.pairwise_cons.mp h.ordered).2,
    (List.isChain_cons.mp h.coalesced).2⟩

/-- The bands behind the first lie below it. -/
lemma Banded.below (h : Banded (b::l)) {m : ℤ} (hm : m < b.y2) : ∀ c ∈ b::l, m < c.y2 := by
  intro c hc
  rcases List.mem_cons.mp hc with rfl | hc
  · exact hm
  · have h₁ := (List.pairwise_cons.mp h.ordered).1 c hc
    have h₂ := (h.wf c (by simp [hc])).rows
    omega

end Cons

/-- The left-to-right union of spans in progress: finished spans, the current one, and whether
two spans have been found to overlap. -/
structure SpanSweep where
  out : List Span
  cur : Span
  overlap : Bool

def SpanSweep.add (st : SpanSweep) (s : Span) : SpanSweep :=
  if s.1 ≤ st.cur.2 then
    { st with
      cur := (st.cur.1,if st.cur.2 < s.2 then s.2 else st.cur.2)
      overlap := st.overlap || s.1 < st.cur.2 }
  else { st with out := st.out ++ [st.cur], cur := s }

/-- Two spans without a common point. -/
def Apart (s t : Span) : Prop := s.2 ≤ t.1 ∨ t.2 ≤ s.1

/-- What the sweep knows after the spans `seen`. -/
structure SpanSweep.Inv (seen : List Span) (flag : Prop) (st : SpanSweep) : Prop where
  separated : Separated (st.out ++ [st.cur])
  covers : ∀ x, InSpans x (st.out ++ [st.cur]) ↔ InSpans x seen
  left : ∃ s ∈ seen, s.1 = st.cur.1
  right : ∃ s ∈ seen, s.2 = st.cur.2
  right_max : ∀ s ∈ seen, s.2 ≤ st.cur.2
  overlap : st.overlap = true ↔ flag ∨ ¬ seen.Pairwise Apart

lemma InSpans.append (x : ℤ) (l m : List Span) : InSpans x (l ++ m) ↔ InSpans x l ∨ InSpans x m := by
  simp only [InSpans,List.mem_append,or_and_right,exists_or]

lemma InSpans.singleton (x : ℤ) (s : Span) : InSpans x [s] ↔ s.1 ≤ x ∧ x < s.2 := by
  simp [InSpans]

lemma SpanSweep.inv_start (s : Span) (hs : s.1 < s.2) (flag : Bool) :
    SpanSweep.Inv [s] (flag = true) ⟨[],s,flag⟩ where
  separated := ⟨by simpa using hs,by simp⟩
  covers x := by simp
  left := ⟨s,by simp,rfl⟩
  right := ⟨s,by simp,rfl⟩
  right_max := by simp
  overlap := by simp

/-- Adding a span that starts no further left than those seen. -/
theorem SpanSweep.Inv.add {seen : List Span} {flag : Prop} {st : SpanSweep}
    (h : SpanSweep.Inv seen flag st) (s : Span) (hs : s.1 < s.2) (hleft : ∀ t ∈ seen, t.1 ≤ s.1) :
    SpanSweep.Inv (seen ++ [s]) flag (st.add s) := by
  obtain ⟨l,hl,hl1⟩ := h.left
  obtain ⟨r,hr,hr2⟩ := h.right
  have hcur : st.cur.1 ≤ s.1 := hl1 ▸ hleft l hl
  have hsep := h.separated
  obtain ⟨hgl,_,hgx⟩ := List.pairwise_append.mp hsep.gaps
  have hcp : st.cur.1 < st.cur.2 := hsep.proper st.cur (by simp)
  have hpair : (seen ++ [s]).Pairwise Apart ↔ seen.Pairwise Apart ∧ ∀ t ∈ seen, Apart t s := by
    simp [List.pairwise_append]
  unfold SpanSweep.add
  by_cases hle : s.1 ≤ st.cur.2
  · rw [if_pos hle]
    refine ⟨⟨?_,?_⟩,fun x => ?_,⟨l,by simp [hl],hl1⟩,?_,?_,?_⟩
    · intro t ht
      rcases List.mem_append.mp ht with ht | ht
      · exact hsep.proper t (by simp [ht])
      · rw [List.mem_singleton.mp ht]
        dsimp only
        split_ifs <;> omega
    · refine List.pairwise_append.mpr ⟨hgl,by simp,fun t ht u hu => ?_⟩
      rw [List.mem_singleton.mp hu]
      exact hgx t ht st.cur (by simp)
    · rw [InSpans.append,InSpans.append,← h.covers x,InSpans.append,or_assoc]
      refine or_congr_right ?_
      simp only [InSpans.singleton]
      split_ifs <;> omega
    · dsimp only
      split_ifs
      · exact ⟨s,by simp,rfl⟩
      · exact ⟨r,by simp [hr],hr2⟩
    · intro t ht
      dsimp only
      rcases List.mem_append.mp ht with ht | ht
      · have := h.right_max t ht
        split_ifs <;> omega
      · rw [List.mem_singleton.mp ht]
        split_ifs <;> omega
    · rw [Bool.or_eq_true,h.overlap,hpair,decide_eq_true_eq]
      constructor
      · rintro ((hf | hp) | hlt)
        · exact .inl hf
        · exact .inr fun hc => hp hc.1
        · refine .inr fun hc => ?_
          have hap := hc.2 r hr
          have h₁ := hleft r hr
          simp only [Apart] at hap
          omega
      · rintro (hf | hp)
        · exact .inl (.inl hf)
        · by_contra hcon
          push Not at hcon
          refine hp ⟨hcon.1.2,fun t ht => .inl ?_⟩
          have := h.right_max t ht
          omega
  · rw [if_neg hle]
    refine ⟨⟨?_,?_⟩,fun x => ?_,⟨s,by simp,rfl⟩,⟨s,by simp,rfl⟩,?_,?_⟩
    · intro t ht
      rcases List.mem_append.mp ht with ht | ht
      · exact hsep.proper t ht
      · rw [List.mem_singleton.mp ht]; exact hs
    · refine List.pairwise_append.mpr ⟨hsep.gaps,by simp,fun t ht u hu => ?_⟩
      rw [List.mem_singleton.mp hu]
      dsimp only
      rcases List.mem_append.mp ht with ht | ht
      · have := hgx t ht st.cur (by simp)
        omega
      · rw [List.mem_singleton.mp ht]
        omega
    · rw [InSpans.append x (st.out ++ [st.cur]),h.covers x,InSpans.append]
    · intro t ht
      dsimp only
      rcases List.mem_append.mp ht with ht | ht
      · have := h.right_max t ht
        omega
      · rw [List.mem_singleton.mp ht]
    · rw [h.overlap,hpair]
      refine or_congr_right (not_congr ⟨fun hp => ⟨hp,fun t ht => .inl ?_⟩,fun hp => hp.1⟩)
      have := h.right_max t ht
      omega

/-- A whole sweep over spans ordered by their left ends. -/
theorem SpanSweep.Inv.foldl {seen rest : List Span} {flag : Prop} {st : SpanSweep}
    (h : SpanSweep.Inv seen flag st) (hproper : ∀ t ∈ seen ++ rest, t.1 < t.2)
    (hsorted : (seen ++ rest).Pairwise (fun s t => s.1 ≤ t.1)) :
    SpanSweep.Inv (seen ++ rest) flag (rest.foldl SpanSweep.add st) := by
  induction rest generalizing seen st with
  | nil => simpa using h
  | cons s rest ih =>
    rw [List.append_cons] at hproper hsorted ⊢
    refine ih (h.add s (hproper s (by simp)) fun t ht => ?_) hproper hsorted
    obtain ⟨hp,_,_⟩ := List.pairwise_append.mp hsorted
    exact (List.pairwise_append.mp hp).2.2 t ht s (by simp)

lemma apart_comm (s t : Span) : Apart s t ↔ Apart t s := or_comm

lemma Separated.apart {l : List Span} (h : Separated l) : l.Pairwise Apart :=
  h.gaps.imp fun hst => .inl hst.le

/-- Two spans without a common point, in terms of points. -/
lemma not_apart_iff {s t : Span} (hs : s.1 < s.2) (ht : t.1 < t.2) :
    ¬ Apart s t ↔ ∃ x, (s.1 ≤ x ∧ x < s.2) ∧ t.1 ≤ x ∧ x < t.2 := by
  simp only [Apart,not_or,not_le]
  constructor
  · intro h
    rcases le_total s.1 t.1 with hle | hle
    · exact ⟨t.1,⟨hle,by omega⟩,le_rfl,ht⟩
    · exact ⟨s.1,⟨le_rfl,hs⟩,hle,by omega⟩
  · rintro ⟨x,h₁,h₂⟩
    omega

section Rows
variable {R : List Band} {a b : Band} {l m : List Span} {s t : Span}

lemma Separated.eq_or_gap (h : Separated l) (hs : s ∈ l) (ht : t ∈ l) : s = t ∨ s.2 < t.1 ∨ t.2 < s.1 := by
  obtain ⟨before,after,rfl⟩ := List.append_of_mem hs
  obtain ⟨_,hafter,hcross⟩ := List.pairwise_append.mp h.gaps
  rw [List.mem_append,List.mem_cons] at ht
  obtain ht | rfl | ht := ht
  · exact .inr (.inr (hcross t ht s (by simp)))
  · exact .inl rfl
  · exact .inr (.inl ((List.pairwise_cons.mp hafter).1 t ht))

/-- Both ends of a span are free. -/
lemma Separated.ends (h : Separated l) (hs : s ∈ l) : ¬ InSpans (s.1-1) l ∧ ¬ InSpans s.2 l := by
  have hproper := h.proper s hs
  constructor
  · rintro ⟨t,ht,h₁,h₂⟩
    obtain rfl | hgap | hgap := h.eq_or_gap hs ht <;> omega
  · rintro ⟨t,ht,h₁,h₂⟩
    have := h.proper t ht
    obtain rfl | hgap | hgap := h.eq_or_gap hs ht <;> omega

lemma Separated.mem_of_covers (hl : Separated l) (hm : Separated m) (h : ∀ x, InSpans x l ↔ InSpans x m) (hs : s ∈ l) :
    s ∈ m := by
  have hproper := hl.proper s hs
  obtain ⟨t,ht,hle,hlt⟩ := (h s.1).mp ⟨s,hs,le_rfl,hproper⟩
  obtain ⟨hsstart,hsend⟩ := hl.ends hs
  obtain ⟨htstart,htend⟩ := hm.ends ht
  have hfirst : t.1 = s.1 := by
    by_contra hne
    exact hsstart ((h _).mpr ⟨t,ht,by omega,by omega⟩)
  have hlast : t.2 = s.2 := by
    by_contra hne
    obtain hlt | hgt := lt_or_gt_of_ne hne
    · exact htend ((h _).mp ⟨s,hs,by omega,hlt⟩)
    · exact hsend ((h _).mpr ⟨t,ht,by omega,hgt⟩)
  rwa [← Prod.ext hfirst hlast]

/-- Separated spans are determined by what they cover. -/
theorem Separated.unique (hl : Separated l) (hm : Separated m) (h : ∀ x, InSpans x l ↔ InSpans x m) : l = m := by
  refine Runs.ordered_unique hl.gaps hm.gaps (fun s hs t ht hst hts => ?_) fun s => ?_
  · have h₁ := hl.proper s hs
    have h₂ := hl.proper t ht
    omega
  · exact ⟨hl.mem_of_covers hm h,hm.mem_of_covers hl fun x => (h x).symm⟩

lemma Banded.eq_or_apart (h : Banded R) (ha : a ∈ R) (hb : b ∈ R) : a = b ∨ a.y2 ≤ b.y1 ∨ b.y2 ≤ a.y1 := by
  obtain ⟨before,after,rfl⟩ := List.append_of_mem ha
  obtain ⟨_,hafter,hcross⟩ := List.pairwise_append.mp h.ordered
  rw [List.mem_append,List.mem_cons] at hb
  obtain hb | rfl | hb := hb
  · exact .inr (.inr (hcross b hb a (by simp)))
  · exact .inl rfl
  · exact .inr (.inl ((List.pairwise_cons.mp hafter).1 b hb))

/-- A row is that of the band it is in. -/
lemma Banded.covered_row (h : Banded R) (ha : a ∈ R) {x y : ℤ} (h₁ : a.y1 ≤ y) (h₂ : y < a.y2) :
    Covered R x y ↔ InSpans x a.spans := by
  refine ⟨fun ⟨b,hb,hb₁,hb₂,hx⟩ => ?_,fun hx => ⟨a,ha,h₁,h₂,hx⟩⟩
  obtain rfl | hle | hle := h.eq_or_apart ha hb
  · exact hx
  · omega
  · omega

/-- Bands of a normal form that touch follow one another. -/
lemma Banded.not_mergeable (h : Banded R) (ha : a ∈ R) (hb : b ∈ R) (htouch : a.y2 = b.y1) : ¬ Mergeable a b := by
  have hrows := (h.wf b hb).rows
  obtain ⟨before,after,rfl⟩ := List.append_of_mem ha
  obtain ⟨_,hafter,hcross⟩ := List.pairwise_append.mp h.ordered
  have hbelow : b ∈ after := by
    rw [List.mem_append,List.mem_cons] at hb
    obtain hb | rfl | hb := hb
    · have := hcross b hb a (by simp)
      have := (h.wf a ha).rows
      omega
    · omega
    · exact hb
  obtain ⟨c,rest,rfl⟩ := List.exists_cons_of_ne_nil (List.ne_nil_of_mem hbelow)
  obtain rfl | hrest := List.mem_cons.mp hbelow
  · exact (List.isChain_append.mp h.coalesced).2.1.rel
  · have h₁ := (List.pairwise_cons.mp hafter).1 c (by simp)
    have h₂ := (List.pairwise_cons.mp (List.pairwise_cons.mp hafter).2).1 b hrest
    have h₃ := (h.wf c (by simp)).rows
    omega

/-- A band of a normal form begins where the rows change. -/
theorem Banded.row_ne (h : Banded R) (hb : b ∈ R) : ¬ ∀ x, Covered R x (b.y1-1) ↔ Covered R x b.y1 := by
  intro hsame
  have hwf := h.wf b hb
  have hrow : ∀ x, Covered R x b.y1 ↔ InSpans x b.spans := fun x => h.covered_row hb le_rfl hwf.rows
  obtain ⟨s,ss,hs⟩ := List.exists_cons_of_ne_nil hwf.nonempty
  have hmem : s ∈ b.spans := hs ▸ List.mem_cons_self
  obtain ⟨a,ha,h₁,h₂,_⟩ := (hsame s.1).mpr ((hrow s.1).mpr ⟨s,hmem,le_rfl,hwf.separated.proper s hmem⟩)
  have htouch : a.y2 = b.y1 := by
    have hrows := hwf.rows
    obtain rfl | hle | hle := h.eq_or_apart ha hb <;> omega
  refine h.not_mergeable ha hb htouch ⟨htouch,(h.wf a ha).separated.unique hwf.separated fun x => ?_⟩
  rw [← h.covered_row ha h₁ h₂,hsame,hrow]

end Rows

end Xlibre.Lib.Bands
