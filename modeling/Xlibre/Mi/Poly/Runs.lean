import Xlibre.Mi.Poly.Lines

/-! `miFillGeneralPoly` from the first scanline to the last follows the fill rule. -/
namespace Xlibre.Mi.Poly

open Lib.Links

/-- The spans draw scanlines `y` up to `y + n` by the rule, each pixel once. -/
structure Fills (rule : FillRule) (pts : List Point) (y : ℤ) (n : ℕ) (new : List Span) : Prop where
  tidy : Tidy new
  range : ∀ s ∈ new, y ≤ s.y ∧ s.y < y+n
  short : ∀ s ∈ new, -2^15 ≤ s.x ∧ s.x < 2^15
  rule : ∀ x y', y ≤ y' → y' < y+n → ((∃ s ∈ new, s.Covers x y') ↔ Inside rule pts x y')

variable {rule : FillRule} {pts : List Point} {E : List (Node × Side)} {y : ℤ} {q : Side → Prop} {r : ℤ → Prop}
  {h : Heap} {l : List Node} {bs : List (ℤ × List Node)} {n fuel : ℕ} {o : Out}

lemma Fills.nil (rule : FillRule) (pts : List Point) (y : ℤ) : Fills rule pts y 0 [] :=
  ⟨⟨by simp,List.Pairwise.nil⟩,by simp,by simp,fun x y' h₁ h₂ => absurd h₂ (by simpa using h₁)⟩

lemma Fills.cons {line rest : List Span} (hline : Tidy line) (hy : ∀ s ∈ line, s.y = y)
    (hshort : ∀ s ∈ line, -2^15 ≤ s.x ∧ s.x < 2^15)
    (hrule : ∀ x, (∃ s ∈ line, s.Covers x y) ↔ Inside rule pts x y) (hrest : Fills rule pts (y+1) n rest) :
    Fills rule pts y (n+1) (line ++ rest) := by
  refine ⟨⟨fun s hs => ?_,?_⟩,fun s hs => ?_,fun s hs => ?_,fun x y' h₁ h₂ => ?_⟩
  · obtain hs | hs := List.mem_append.1 hs
    · exact hline.width s hs
    · exact hrest.tidy.width s hs
  · refine List.pairwise_append.2 ⟨hline.apart,hrest.tidy.apart,fun s hs t ht x y' hc => ?_⟩
    have h₁ := hy s hs
    have h₂ := hrest.range t ht
    have h₃ := hc.1.1
    have h₄ := hc.2.1
    omega
  · obtain hs | hs := List.mem_append.1 hs
    · have := hy s hs
      push_cast
      omega
    · have := hrest.range s hs
      push_cast
      omega
  · obtain hs | hs := List.mem_append.1 hs
    · exact hshort s hs
    · exact hrest.short s hs
  · have hsplit : (∃ s ∈ line ++ rest, s.Covers x y') ↔ (∃ s ∈ line, s.Covers x y') ∨ ∃ s ∈ rest, s.Covers x y' := by
      simp only [List.mem_append,or_and_right,exists_or]
    rw [hsplit]
    obtain rfl | hlt := eq_or_lt_of_le h₁
    · have hnone : ¬∃ s ∈ rest, s.Covers x y := by
        rintro ⟨s,hs,hc⟩
        have h₃ := hrest.range s hs
        have h₄ := hc.1
        omega
      rw [or_iff_left hnone]
      exact hrule x
    · have hnone : ¬∃ s ∈ line, s.Covers x y' := by
        rintro ⟨s,hs,hc⟩
        have h₃ := hy s hs
        have h₄ := hc.1
        omega
      rw [or_iff_right hnone]
      push_cast at h₂
      exact hrest.rule x y' hlt (by omega)

lemma pairSpans_mem (h : Heap) (y : ℤ) (l : List Node) : ∀ s ∈ pairSpans h y l, ∃ n ∈ l, s.x = h.minor n := by
  induction l using pairSpans.induct with
  | case1 a b l ih =>
    intro s hs
    obtain rfl | hs := List.mem_cons.1 hs
    · exact ⟨a,by simp,rfl⟩
    · obtain ⟨n,hn,hx⟩ := ih s hs
      exact ⟨n,by simp [hn],hx⟩
  | case2 l hl =>
    rcases l with _ | ⟨a,_ | ⟨b,l⟩⟩
    · simp [pairSpans]
    · simp [pairSpans]
    · exact absurd rfl (hl a b l)

lemma pairSpans_y (h : Heap) (y : ℤ) (l : List Node) : ∀ s ∈ pairSpans h y l, s.y = y := by
  induction l using pairSpans.induct with
  | case1 a b l ih =>
    intro s hs
    obtain rfl | hs := List.mem_cons.1 hs
    · rfl
    · exact ih s hs
  | case2 l hl =>
    rcases l with _ | ⟨a,_ | ⟨b,l⟩⟩
    · simp [pairSpans]
    · simp [pairSpans]
    · exact absurd rfl (hl a b l)

lemma Stage.setWETE (hS : Stage E y q r h l bs) (f : Node → Option Node) : Stage E y q r { h with nextWETE := f } l bs :=
  ⟨hS.active.congr (fun _ _ => rfl) (fun _ _ => rfl),hS.sorted,hS.holds,
    hS.buckets.congr (fun _ _ => rfl) (fun _ _ => rfl),hS.pending,hS.keys,hS.entries,hS.bres,hS.header⟩

lemma Above.cases (hE : Entries E) (hS : Above E y h l bs) (hfuel : E.length < fuel) :
    (∃ b bs', bs = b::bs' ∧ b.1 = y ∧ ∃ h' l', miloadAET fuel h .aet (h.next .aet) b.2.head? = some h' ∧
      On E y h' l' bs' ∧ l'.length ≤ E.length) ∨
    (∀ b ∈ bs.head?, b.1 ≠ y) ∧ On E y h l bs ∧ l.length ≤ E.length := by
  cases bs with
  | nil => exact Or.inr ⟨by simp,hS.skip (by simp),hS.holds.length_le (List.nodup_cons.1 hS.active.nodup).2⟩
  | cons b bs =>
    by_cases hb : b.1 = y
    · exact Or.inl ⟨b,bs,rfl,hb,hS.load hE hb hfuel⟩
    · refine Or.inr ⟨by simpa using hb,hS.skip fun c hc => ?_,
        hS.holds.length_le (List.nodup_cons.1 hS.active.nodup).2⟩
      have hfirst := hS.keys b List.mem_cons_self
      obtain rfl | hc := List.mem_cons.1 hc
      · omega
      · have := (List.pairwise_cons.1 hS.buckets.order).1 c hc
        omega

lemma On.sort {h' : Heap} {p : Node} (hE : Entries E) (hS : On E y h l bs) (hL : LineAt h y l [] h' p)
    (hlen : l.length < fuel) :
    ∃ h'' l'' ch, miInsertionSort fuel h' = some (h'',ch) ∧ Above E (y+1) h'' l'' bs ∧ h''.nextWETE = h.nextWETE ∧
      h''.clockWise = h.clockWise ∧ (ch = false → l'' = staying h y l) ∧ l''.length ≤ l.length := by
  have hstay : (staying h y l).length ≤ l.length := List.length_filter_le _ _
  have hA : Active h' (staying h y l) := by simpa using hL.active
  have hheader : ∀ m ∈ staying h y l, h'.minor .aet ≤ h'.minor m := by
    intro m hm
    obtain ⟨hml,hne⟩ := List.mem_filter.1 hm
    obtain ⟨e,he,rfl,hact⟩ := (hS.holds m).1 hml
    have hstays := of_decide_eq_true hne
    rw [(hS.entries e he).1] at hstays
    have hbottom := hact.2
    have haet : Node.aet ∉ l := (List.nodup_cons.1 hS.active.nodup).1
    have hk : max (y-e.2.top.y) 0 = y-e.2.top.y := max_eq_left (sub_nonneg.2 hact.1)
    have hold := hS.bres e he hact.2
    rw [hk] at hold
    have hnew : h'.bres e.1 = bresIncrPgon (h.bres e.1) := by
      rw [hL.bres,if_pos ⟨hml,of_decide_eq_true hne⟩]
    have hbetween := (bresIncrPgon_at (by have := hact.1; omega) hold).between (by have := hact.1; omega)
      (by have := hact.1; omega) (by omega)
    have haet' : h'.minor .aet = minInt := by
      rw [← hS.header]
      simp [Heap.minor,hL.bres,haet]
    rw [haet',Heap.minor,hnew]
    exact (by decide : minInt ≤ -2^15).trans ((hE.short e he).1.trans hbetween.1)
  obtain ⟨h'',l'',ch,hsort,hfrom,hch⟩ := miInsertionSort_sorted hA hheader
    (show (staying h y l).length < fuel by omega)
  refine ⟨h'',l'',ch,hsort,hS.below hE hL hfrom,hfrom.wete.trans hL.wete,
    hfrom.same.clockWise.trans hL.clockWise,hch,?_⟩
  rw [hfrom.perm.length_eq]
  exact hstay

/-- All scanlines under the even-odd rule. -/
theorem evenOddLines_fill (hE : Entries E) (hpts : E.map Prod.snd = (polygon pts).filter Side.slanted)
    (hS : Above E y h l bs) (hfuel : E.length < fuel) (ho : o.buffer.length < numPtsToBuffer) :
    ∃ o' new, evenOddLines fuel n y h (heads bs) o = some o' ∧ o'.all = o.all ++ new ∧ Fills .evenOdd pts y n new := by
  induction n generalizing y h l bs o with
  | zero => exact ⟨o,[],rfl,by simp,Fills.nil _ _ _⟩
  | succ n ih =>
    -- from the loaded edges on the rest of the scanline is the same
    have hline : ∀ h₁ l₁ bs₁, On E y h₁ l₁ bs₁ → l₁.length ≤ E.length →
        ∃ h₂ o₂ h₃ l₃ ch, evenOddLine y fuel h₁ o .aet (h₁.next .aet) = some (h₂,o₂) ∧
          miInsertionSort fuel h₂ = some (h₃,ch) ∧ Above E (y+1) h₃ l₃ bs₁ ∧
          o₂.all = o.all ++ pairSpans h₁ y l₁ ∧ o₂.buffer.length < numPtsToBuffer := by
      intro h₁ l₁ bs₁ hOn hlen
      obtain ⟨h₂,o₂,p,hline,hL,hall,ho₂⟩ := evenOddLine_pairs (n := fuel) (LineAt.start hOn.active) (y := y)
        (hOn.closed hE hpts).1 (by omega) ho
      obtain ⟨h₃,l₃,ch,hsort,hA,-⟩ := hOn.sort hE hL (show l₁.length < fuel by omega)
      refine ⟨h₂,o₂,h₃,l₃,ch,?_,hsort,hA,hall,ho₂⟩
      rw [hOn.active.head]
      exact hline
    have hspans : ∀ h₁ l₁ bs₁ new, On E y h₁ l₁ bs₁ → Fills .evenOdd pts (y+1) n new →
        Fills .evenOdd pts y (n+1) (pairSpans h₁ y l₁ ++ new) := fun h₁ l₁ bs₁ new hOn hnew =>
      Fills.cons (pairSpans_tidy hOn.sorted) (pairSpans_y h₁ y l₁) (fun s hs => by
        obtain ⟨m,hm,hx⟩ := pairSpans_mem h₁ y l₁ s hs
        exact hx ▸ hOn.minor_short hE hm) (hOn.evenOdd hE hpts) hnew
    obtain ⟨b,bs',rfl,hb,h₁,l₁,hload,hOn,hlen⟩ | ⟨hfirst,hOn,hlen⟩ := hS.cases hE hfuel
    · obtain ⟨h₂,o₂,h₃,l₃,ch,hline,hsort,hA,hall,ho₂⟩ := hline h₁ l₁ bs' hOn hlen
      obtain ⟨o',new,hrun,hall',hfill⟩ := ih hA ho₂
      refine ⟨o',pairSpans h₁ y l₁ ++ new,?_,by rw [hall',hall,List.append_assoc],hspans _ _ _ _ hOn hfill⟩
      simp only [evenOddLines,heads,List.map_cons,hb,if_true,hload,hline,hsort,Option.bind_eq_bind,
        Option.bind_some]
      exact hrun
    · obtain ⟨h₂,o₂,h₃,l₃,ch,hline,hsort,hA,hall,ho₂⟩ := hline h l bs hOn hlen
      obtain ⟨o',new,hrun,hall',hfill⟩ := ih hA ho₂
      refine ⟨o',pairSpans h y l ++ new,?_,by rw [hall',hall,List.append_assoc],hspans _ _ _ _ hOn hfill⟩
      cases bs with
      | nil =>
        simp only [evenOddLines,heads,List.map_nil,hline,hsort,Option.bind_eq_bind,Option.bind_some]
        exact hrun
      | cons b bs =>
        have hb : ¬y = b.1 := fun heq => hfirst b rfl heq.symm
        simp only [evenOddLines,heads,List.map_cons,hb,if_false,hline,hsort,Option.bind_eq_bind,Option.bind_some]
        exact hrun

/-- All scanlines under the winding rule. -/
theorem windingLines_fill (hE : Entries E) (hpts : E.map Prod.snd = (polygon pts).filter Side.slanted)
    (hS : Above E y h l bs) (hwound : Wound h l) (hfuel : E.length < fuel) (ho : o.buffer.length < numPtsToBuffer) :
    ∃ o' new, windingLines fuel n y h (heads bs) o false = some o' ∧ o'.all = o.all ++ new ∧
      Fills .winding pts y n new := by
  induction n generalizing y h l bs o with
  | zero => exact ⟨o,[],rfl,by simp,Fills.nil _ _ _⟩
  | succ n ih =>
    have hline : ∀ h₁ l₁ bs₁, On E y h₁ l₁ bs₁ → Wound h₁ l₁ → l₁.length ≤ E.length →
        ∃ h₂ o₂ h₃ l₃ ch h₄, windingLine y fuel h₁ o .aet (h₁.next .aet) (h₁.next .aet) false =
            some (h₂,o₂,leaves h₁ y l₁) ∧ miInsertionSort fuel h₂ = some (h₃,ch) ∧
          (if ch || leaves h₁ y l₁ then micomputeWAET fuel h₃ = some h₄ else h₃ = h₄) ∧
          Above E (y+1) h₄ l₃ bs₁ ∧ Wound h₄ l₃ ∧
          o₂.all = o.all ++ pairSpans h₁ y (toggles h₁ true 0 l₁) ∧ o₂.buffer.length < numPtsToBuffer := by
      intro h₁ l₁ bs₁ hOn hw hlen
      have hhead : h₁.next .aet = (toggles h₁ true 0 l₁).head? := by
        rw [hOn.active.head]
        cases l₁ with
        | nil => rfl
        | cons a l₁ => rw [(toggles_enter h₁ a l₁).1]; rfl
      obtain ⟨h₂,o₂,p,hline,hL,hall,ho₂⟩ := windingLine_pairs (n := fuel) (f := false) (LineAt.start hOn.active) (y := y)
        hw.2 (hOn.closed hE hpts).2 (by omega) ho
      obtain ⟨h₃,l₃,ch,hsort,hA,hwete,hclock,hch,hlen₃⟩ := hOn.sort hE hL (show l₁.length < fuel by omega)
      rw [← hhead,← hOn.active.head] at hline
      by_cases hfix : (ch || leaves h₁ y l₁) = true
      · obtain ⟨f,hcompute,hw'⟩ := micomputeWAET_wound hA.active (show l₃.length < fuel by omega)
        refine ⟨h₂,o₂,h₃,l₃,ch,{ h₃ with nextWETE := f },by simpa using hline,hsort,?_,hA.setWETE f,hw',hall,ho₂⟩
        rw [if_pos hfix]
        exact hcompute
      · refine ⟨h₂,o₂,h₃,l₃,ch,h₃,by simpa using hline,hsort,by rw [if_neg hfix],hA,?_,hall,ho₂⟩
        -- nothing has been left and the order is the same, so the old links are still right
        rw [Bool.not_eq_true,Bool.or_eq_false_iff] at hfix
        have hstay : staying h₁ y l₁ = l₁ := by
          refine List.filter_eq_self.2 fun m hm => decide_eq_true fun heq => ?_
          have := List.any_eq_false.1 hfix.2 m hm
          simp [heq] at this
        rw [hch hfix.1,hstay,Wound,hwete,toggles_congr hclock]
        exact hw
    have hspans : ∀ h₁ l₁ bs₁ new, On E y h₁ l₁ bs₁ → Fills .winding pts (y+1) n new →
        Fills .winding pts y (n+1) (pairSpans h₁ y (toggles h₁ true 0 l₁) ++ new) := fun h₁ l₁ bs₁ new hOn hnew =>
      Fills.cons (pairSpans_tidy (hOn.sorted.toggles true 0)) (pairSpans_y h₁ y _) (fun s hs => by
        obtain ⟨m,hm,hx⟩ := pairSpans_mem h₁ y _ s hs
        exact hx ▸ hOn.minor_short hE ((toggles_sublist h₁ true 0 l₁).subset hm)) (hOn.winding hE hpts) hnew
    -- the links are rebuilt or kept, and the next scanline begins
    have hnext : ∀ (h₃ h₄ : Heap) (ch left : Bool) (bs₁ : List (ℤ × List Node)) (o₂ : Out) (o' : Out),
        (if ch || left then micomputeWAET fuel h₃ = some h₄ else h₃ = h₄) →
        windingLines fuel n (y+1) h₄ (heads bs₁) o₂ false = some o' →
        (if (ch || left) = true then (micomputeWAET fuel h₃).bind fun h =>
            windingLines fuel n (y+1) h (heads bs₁) o₂ false
          else windingLines fuel n (y+1) h₃ (heads bs₁) o₂ left) = some o' := by
      intro h₃ h₄ ch left bs₁ o₂ o' hcompute hrun
      by_cases hfix : (ch || left) = true
      · rw [if_pos hfix] at hcompute ⊢
        rw [hcompute]
        exact hrun
      · rw [if_neg hfix] at hcompute ⊢
        rw [Bool.not_eq_true,Bool.or_eq_false_iff] at hfix
        rw [hcompute,hfix.2]
        exact hrun
    obtain ⟨b,bs',rfl,hb,h₁,l₁,hload,hOn,hlen⟩ | ⟨hfirst,hOn,hlen⟩ := hS.cases hE hfuel
    · obtain ⟨f,hcompute,hw⟩ := micomputeWAET_wound hOn.active (show l₁.length < fuel by omega)
      have hOn' := hOn.setWETE f
      obtain ⟨h₂,o₂,h₃,l₃,ch,h₄,hline,hsort,hfix,hA,hw',hall,ho₂⟩ := hline _ l₁ bs' hOn' hw hlen
      obtain ⟨o',new,hrun,hall',hfill⟩ := ih hA hw' ho₂
      refine ⟨o',_ ++ new,?_,by rw [hall',hall,List.append_assoc],hspans _ _ _ _ hOn' hfill⟩
      simp only [windingLines,heads,List.map_cons,hb,if_true,hload,hcompute,hline,hsort,Option.bind_eq_bind,
        Option.bind_some]
      exact hnext _ _ _ _ _ _ _ hfix hrun
    · obtain ⟨h₂,o₂,h₃,l₃,ch,h₄,hline,hsort,hfix,hA,hw',hall,ho₂⟩ := hline h l bs hOn hwound hlen
      obtain ⟨o',new,hrun,hall',hfill⟩ := ih hA hw' ho₂
      refine ⟨o',_ ++ new,?_,by rw [hall',hall,List.append_assoc],hspans _ _ _ _ hOn hfill⟩
      cases bs with
      | nil =>
        simp only [windingLines,heads,List.map_nil,hline,hsort,Option.bind_eq_bind,Option.bind_some]
        exact hnext _ _ _ _ [] _ _ hfix hrun
      | cons b bs =>
        have hb : ¬y = b.1 := fun heq => hfirst b rfl heq.symm
        simp only [windingLines,heads,List.map_cons,hb,if_false,hline,hsort,Option.bind_eq_bind,Option.bind_some]
        exact hnext _ _ _ _ (b::bs) _ _ hfix hrun

/-- Coordinates of 16 bits. -/
def Point.Short (p : Point) : Prop := (-2^15 ≤ p.x ∧ p.x < 2^15) ∧ -2^15 ≤ p.y ∧ p.y < 2^15

lemma Created.entries_of {ET : EdgeTable} (hC : Created h ET E bs)
    (hpts : E.map Prod.snd = (polygon pts).filter Side.slanted) (hshort : ∀ p ∈ pts, p.Short) : Entries E := by
  refine ⟨hC.perm.nodup_iff.1 hC.buckets.nodup,fun e he heq => ?_,hC.slanted,fun e he => ?_⟩
  · obtain ⟨i,-,hnode⟩ := hC.nodes e he
    rw [hnode] at heq
    cases heq
  · have hmem : e.2 ∈ polygon pts := by
      have : e.2 ∈ (polygon pts).filter Side.slanted := hpts ▸ List.mem_map.2 ⟨e,he,rfl⟩
      exact (List.mem_filter.1 this).1
    obtain ⟨hprev,hcurr⟩ := mem_polygon hmem
    have h₁ := (hshort _ hprev).1
    have h₂ := (hshort _ hcurr).1
    unfold Side.top Side.bottom
    split_ifs <;> omega

lemma Created.bounds_of {ET : EdgeTable} (hC : Created h ET E bs)
    (hpts : E.map Prod.snd = (polygon pts).filter Side.slanted) {e : Node × Side} (he : e ∈ E) :
    ET.ymin ≤ e.2.top.y ∧ e.2.bottom.y ≤ ET.ymax := by
  have hmem : ∀ s, s ∈ polygon pts ∧ s.slanted = true ↔ ∃ e ∈ E, e.2 = s := by
    intro s
    rw [← List.mem_filter,← hpts,List.mem_map]
  obtain ⟨hside,hslanted⟩ := (hmem e.2).2 ⟨e,he,rfl⟩
  have hheight : ∀ v ∈ pts, ET.ymin ≤ v.y ∧ v.y ≤ ET.ymax := by
    intro v hv
    obtain ⟨s,hs,hsl,hy⟩ := slanted_from hside hslanted hv
    obtain ⟨e',he',rfl⟩ := (hmem s).1 ⟨hs,hsl⟩
    exact hy ▸ hC.bounds e' he'
  obtain ⟨hprev,hcurr⟩ := mem_polygon hside
  have h₁ := hheight _ hprev
  have h₂ := hheight _ hcurr
  unfold Side.top Side.bottom
  split_ifs <;> omega

lemma Created.above {ET : EdgeTable} (hC : Created h ET E bs)
    (hpts : E.map Prod.snd = (polygon pts).filter Side.slanted) : Above E ET.ymin h [] bs := by
  refine ⟨⟨⟨by simpa using hC.header.2.1,trivial⟩,trivial,by simp⟩,List.Pairwise.nil,fun n => ?_,hC.buckets,
    fun t n => ?_,fun b hb => ?_,fun e he => ?_,fun e he _ => ?_,hC.header.1⟩
  · simp only [List.not_mem_nil,false_iff,not_exists,not_and]
    intro e he _ htop
    have := (hC.bounds_of hpts he).1
    omega
  · rw [hC.inBucket]
    refine exists_congr fun e => and_congr_right fun he => and_congr_right fun _ => ?_
    have := (hC.bounds_of hpts he).1
    exact ⟨fun htop => ⟨htop,htop ▸ this⟩,fun htop => htop.1⟩
  · obtain ⟨e,he,hkey⟩ := hC.keys b hb
    exact hkey ▸ (hC.bounds_of hpts he).1
  · exact ⟨(hC.entries e he).1,(hC.entries e he).2.1⟩
  · have hk : max (ET.ymin-e.2.top.y) 0 = 0 := max_eq_right (by have := (hC.bounds_of hpts he).1; omega)
    rw [hk,(hC.entries e he).2.2]
    exact bresInitPgon_at (sub_pos.2 (Side.top_lt_bottom (hC.slanted e he)))

lemma Created.outside {ET : EdgeTable} (hC : Created h ET E bs)
    (hpts : E.map Prod.snd = (polygon pts).filter Side.slanted) {x y : ℤ} (hy : y < ET.ymin ∨ ET.ymax ≤ y)
    (rule : FillRule) : ¬Inside rule pts x y := by
  have hnone : ∀ s ∈ polygon pts, ¬decide (s.CrossesBefore x y) = true := by
    intro s hs hc
    obtain ⟨⟨htop,hbottom⟩,-⟩ := of_decide_eq_true hc
    have hsl : s ∈ (polygon pts).filter Side.slanted := List.mem_filter.2 ⟨hs,decide_eq_true (by omega)⟩
    rw [← hpts] at hsl
    obtain ⟨e,he,rfl⟩ := List.mem_map.1 hsl
    have := hC.bounds_of hpts he
    omega
  cases rule with
  | evenOdd =>
    simp only [Inside,List.countP_eq_zero.2 hnone]
    decide
  | winding =>
    simp only [Inside,List.filter_eq_nil_iff.2 hnone]
    simp

lemma Created.lines_fill {ET : EdgeTable} (hC : Created h ET E bs) (rule : FillRule) (hE : Entries E)
    (hpts : E.map Prod.snd = (polygon pts).filter Side.slanted) (hwound : Wound h []) (hfuel : E.length < fuel)
    (ho : o.buffer.length < numPtsToBuffer) :
    ∃ o' new, (match rule with
      | .evenOdd => evenOddLines fuel (ET.ymax-ET.ymin).toNat ET.ymin h ET.scanlines o
      | .winding => windingLines fuel (ET.ymax-ET.ymin).toNat ET.ymin h ET.scanlines o false) = some o' ∧
      o'.all = o.all ++ new ∧ Fills rule pts ET.ymin (ET.ymax-ET.ymin).toNat new := by
  have hA := hC.above hpts
  rw [hC.scanlines]
  cases rule with
  | evenOdd => exact evenOddLines_fill hE hpts hA hfuel ho
  | winding => exact windingLines_fill hE hpts hA hwound hfuel ho

/-- `miFillGeneralPoly` follows no null pointer and ends; its spans, none of negative width and no two with a pixel in
common, draw exactly the pixels that are inside by the fill rule, and start at coordinates of 16 bits. -/
theorem miFillGeneralPoly_fills (rule : FillRule) (pts : List Point) (hcount : 3 ≤ pts.length)
    (hshort : ∀ p ∈ pts, p.Short) (fuel : ℕ) (hfuel : pts.length < fuel) :
    ∃ spans, miFillGeneralPoly fuel rule pts = some spans ∧
      (∀ x y, (∃ s ∈ spans, s.Covers x y) ↔ Inside rule pts x y) ∧
      (spans.Pairwise fun s t => ∀ x y, ¬(s.Covers x y ∧ t.Covers x y)) ∧
      (∀ s ∈ spans, 0 ≤ s.width) ∧ ∀ s ∈ spans, -2^15 ≤ s.x ∧ s.x < 2^15 := by
  have hne : pts ≠ [] := by rintro rfl; simp at hcount
  obtain ⟨h,ET,E,bs,hcreate,hC,hpts⟩ := miCreateETandAET_created hne (show pts.length ≤ fuel by omega)
  have hE := hC.entries_of hpts hshort
  have hlen : E.length < fuel := by
    have hle := List.length_filter_le Side.slanted (polygon pts)
    have hsides : ∀ prev : Point, ∀ l : List Point, (sides prev l).length = l.length := by
      intro prev l
      induction l generalizing prev with
      | nil => rfl
      | cons c l ih => simp [sides,ih]
    have hpoly : (polygon pts).length ≤ pts.length := by
      unfold polygon
      cases pts.getLast? with
      | none => simp
      | some last => exact (hsides last pts).le
    rw [← hpts,List.length_map] at hle
    omega
  have hwound : Wound h [] := ⟨by simpa [toggles] using hC.header.2.2,trivial⟩
  have hbuffer : (⟨[],[]⟩ : Out).buffer.length < numPtsToBuffer := by decide
  obtain ⟨o,new,hrun,hall,hfill⟩ := hC.lines_fill rule hE hpts hwound hlen hbuffer
  refine ⟨new,?_,fun x y => ?_,hfill.tidy.apart,hfill.tidy.width,hfill.short⟩
  · have hthree : ¬pts.length < 3 := by omega
    have hnew : o.sent ++ o.buffer = new := by simpa [Out.all] using hall
    cases rule with
    | evenOdd =>
      simp only [miFillGeneralPoly,if_neg hthree,hcreate,Option.bind_eq_bind,Option.bind_some] at hrun ⊢
      rw [hrun,Option.bind_some,hnew]
    | winding =>
      simp only [miFillGeneralPoly,if_neg hthree,hcreate,Option.bind_eq_bind,Option.bind_some] at hrun ⊢
      rw [hrun,Option.bind_some,hnew]
  · by_cases hin : ET.ymin ≤ y ∧ y < ET.ymin+(ET.ymax-ET.ymin).toNat
    · exact hfill.rule x y hin.1 hin.2
    · refine iff_of_false ?_ (hC.outside hpts (by omega) rule)
      rintro ⟨s,hs,hc⟩
      have h₁ := hfill.range s hs
      have h₂ := hc.1
      omega

/-- A star of five points, whose sides cross. -/
theorem miFillGeneralPoly_fills_star :
    ∃ spans, miFillGeneralPoly 6 .winding [⟨0,3⟩,⟨10,3⟩,⟨2,9⟩,⟨5,0⟩,⟨8,9⟩] = some spans ∧
      ((∃ s ∈ spans, s.Covers 5 4) ↔ Inside .winding [⟨0,3⟩,⟨10,3⟩,⟨2,9⟩,⟨5,0⟩,⟨8,9⟩] 5 4) := by
  obtain ⟨spans,hfill,hrule,-⟩ := miFillGeneralPoly_fills .winding [⟨0,3⟩,⟨10,3⟩,⟨2,9⟩,⟨5,0⟩,⟨8,9⟩] (by decide)
    (by unfold Point.Short; decide) 6 (by decide)
  exact ⟨spans,hfill,hrule 5 4⟩

end Xlibre.Mi.Poly
