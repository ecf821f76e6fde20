import Xlibre.Mi.Poly.Scan
import Xlibre.Mi.Poly.Table

/-! What the spans of one scanline cover: the fill rules, on a sorted list of edges. -/
namespace Xlibre.Mi.Poly

/-- The span draws pixel `(x, y)`. -/
def Span.Covers (s : Span) (x y : ℤ) : Prop := s.y = y ∧ s.x ≤ x ∧ x < s.x+s.width

/-- Spans of no negative width, no two of which draw the same pixel. -/
structure Tidy (l : List Span) : Prop where
  width : ∀ s ∈ l, 0 ≤ s.width
  apart : l.Pairwise fun s t => ∀ x y, ¬(s.Covers x y ∧ t.Covers x y)

/-- How many of the edges have their crossing at or before `x`. -/
def crossings (h : Heap) (x : ℤ) (l : List Node) : ℕ := l.countP fun n => decide (h.minor n ≤ x)

/-- The winding number of the edges with their crossing at or before `x`. -/
def windingNumber (h : Heap) (x : ℤ) (l : List Node) : ℤ := total h (l.filter fun n => decide (h.minor n ≤ x))

variable {h : Heap} {l : List Node} {y : ℤ}

lemma pairSpans_from {h : Heap} {y m : ℤ} (hm : ∀ n ∈ l, m ≤ h.minor n) : ∀ s ∈ pairSpans h y l, s.y = y ∧ m ≤ s.x := by
  induction l using pairSpans.induct with
  | case1 a b l ih =>
    intro s hs
    obtain rfl | hs := List.mem_cons.1 hs
    · exact ⟨rfl,hm a (by simp)⟩
    · exact ih (fun n hn => hm n (by simp [hn])) s hs
  | case2 l hl =>
    intro s hs
    match l, hl with
    | [], _ => simp [pairSpans] at hs
    | [a], _ => simp [pairSpans] at hs
    | a::b::l, hl => exact absurd rfl (hl a b l)

lemma pairSpans_tidy (hs : Sorted h l) : Tidy (pairSpans h y l) := by
  induction l using pairSpans.induct with
  | case1 a b l ih =>
    obtain ⟨ha,hbl⟩ := List.pairwise_cons.1 hs
    obtain ⟨hb,hl⟩ := List.pairwise_cons.1 hbl
    obtain ⟨hwidth,hapart⟩ := ih hl
    refine ⟨fun s hs => ?_,List.pairwise_cons.2 ⟨fun t ht x y => ?_,hapart⟩⟩
    · obtain rfl | hs := List.mem_cons.1 hs
      · have := ha b (by simp)
        simpa using this
      · exact hwidth s hs
    · rintro ⟨⟨-,-,hlt⟩,⟨-,hle,-⟩⟩
      have := (pairSpans_from hb t ht).2
      simp only at hlt
      omega
  | case2 l hl =>
    match l, hl with
    | [], _ => exact ⟨by simp [pairSpans],List.Pairwise.nil⟩
    | [a], _ => exact ⟨by simp [pairSpans],List.Pairwise.nil⟩
    | a::b::l, hl => exact absurd rfl (hl a b l)

/-- Drawing between edges in pairs draws what has an odd number of crossings before it. -/
theorem pairSpans_odd (hs : Sorted h l) (heven : Even l.length) (x : ℤ) :
    (∃ s ∈ pairSpans h y l, s.Covers x y) ↔ Odd (crossings h x l) := by
  induction l using pairSpans.induct with
  | case1 a b l ih =>
    obtain ⟨ha,hbl⟩ := List.pairwise_cons.1 hs
    obtain ⟨hb,hl⟩ := List.pairwise_cons.1 hbl
    have hab := ha b (by simp)
    have hrest := ih hl (by simpa [Nat.even_add_one,parity_simps] using heven)
    have hnone : x < h.minor b → crossings h x l = 0 ∧ ¬∃ s ∈ pairSpans h y l, s.Covers x y := by
      intro hx
      refine ⟨List.countP_eq_zero.2 fun n hn => ?_,?_⟩
      · have := hb n hn
        simp only [decide_eq_true_eq]
        omega
      · rintro ⟨s,hs,-,hle,-⟩
        have := (pairSpans_from hb s hs).2
        omega
    simp only [pairSpans,List.exists_mem_cons_iff,crossings,List.countP_cons,decide_eq_true_eq] at hrest ⊢
    by_cases hxb : h.minor b ≤ x
    · have hxa : h.minor a ≤ x := hab.trans hxb
      have hnot : ¬(⟨h.minor a,y,h.minor b-h.minor a⟩ : Span).Covers x y := by
        rintro ⟨-,-,hlt⟩
        simp only at hlt
        omega
      rw [if_pos hxa,if_pos hxb,or_iff_right hnot,hrest,add_assoc]
      exact (Nat.odd_add (n := 1+1)).trans (by simp [even_two]) |>.symm
    · obtain ⟨hzero,hfree⟩ := hnone (by omega)
      have hcount : List.countP (fun n => decide (h.minor n ≤ x)) l = 0 := hzero
      rw [or_iff_left hfree,if_neg hxb,hcount]
      by_cases hxa : h.minor a ≤ x
      · rw [if_pos hxa]
        refine iff_of_true ⟨rfl,hxa,?_⟩ (by decide)
        simp only
        omega
      · rw [if_neg hxa]
        refine iff_of_false (fun hc => hxa hc.2.1) (by decide)
  | case2 l hl =>
    rcases l with _ | ⟨a,_ | ⟨b,l⟩⟩
    · simp [pairSpans,crossings]
    · simp at heven
    · exact absurd rfl (hl a b l)

lemma toggles_parity {q : Node → Bool} {i : Bool} {s : ℤ} (hin : i = decide (s = 0))
    (hq : l.Pairwise fun a b => q b = true → q a = true) :
    Odd ((toggles h i s l).countP q) ↔ ¬(s+total h (l.filter q) = 0 ↔ s = 0) := by
  induction l generalizing i s with
  | nil => simp [toggles]
  | cons a l ih =>
    obtain ⟨ha,hl⟩ := List.pairwise_cons.1 hq
    by_cases hqa : q a = true
    · have hstep : ∀ inside', inside' = decide (s+turn h a = 0) →
          (Odd ((toggles h inside' (s+turn h a) l).countP q) ↔
            ¬(s+total h ((a::l).filter q) = 0 ↔ s+turn h a = 0)) := by
        intro inside' hin'
        rw [ih hin' hl,List.filter_cons_of_pos hqa,total_cons,add_assoc]
      rw [toggles]
      split_ifs with htoggle
      · have hin' : (!i) = decide (s+turn h a = 0) := by
          subst hin
          by_cases h₁ : s = 0 <;> by_cases h₂ : s+turn h a = 0 <;> simp_all
        rw [List.countP_cons_of_pos hqa,Nat.odd_add_one,hstep _ hin']
        subst hin
        by_cases h₁ : s = 0 <;> by_cases h₂ : s+turn h a = 0 <;> simp_all
      · have hin' : i = decide (s+turn h a = 0) := by
          subst hin
          by_cases h₁ : s = 0 <;> by_cases h₂ : s+turn h a = 0 <;> simp_all
        rw [hstep _ hin']
        subst hin
        by_cases h₁ : s = 0 <;> by_cases h₂ : s+turn h a = 0 <;> simp_all
    · have hnone : ∀ n ∈ a::l, ¬q n = true := by
        intro n hn hqn
        obtain rfl | hn := List.mem_cons.1 hn
        · exact hqa hqn
        · exact hqa (ha n hn hqn)
      have hcount : (toggles h i s (a::l)).countP q = 0 :=
        List.countP_eq_zero.2 fun n hn => hnone n ((toggles_sublist h i s (a::l)).subset hn)
      have hfilter : (a::l).filter q = [] := List.filter_eq_nil_iff.2 hnone
      rw [hcount,hfilter]
      simp

lemma toggles_even (htotal : total h l = 0) : Even (toggles h true 0 l).length := by
  have hparity := toggles_parity (h := h) (l := l) (q := fun _ => true) (s := 0) rfl
    (List.pairwise_of_forall fun _ _ _ => rfl)
  rw [List.countP_true,List.filter_true,htotal] at hparity
  rw [← Nat.not_odd_iff_even,show (true : Bool) = decide ((0 : ℤ) = 0) from rfl,hparity]
  simp

lemma Sorted.prefix_closed (hs : Sorted h l) (x : ℤ) :
    l.Pairwise fun a b => decide (h.minor b ≤ x) = true → decide (h.minor a ≤ x) = true :=
  hs.imp fun hab hb => by
    rw [decide_eq_true_eq] at hb ⊢
    exact hab.trans hb

lemma Sorted.toggles (hs : Sorted h l) (inside : Bool) (s : ℤ) : Sorted h (toggles h inside s l) :=
  hs.sublist (toggles_sublist h inside s l)

/-- Drawing between the toggles draws where the winding number is not zero. -/
theorem pairSpans_winding (hs : Sorted h l) (htotal : total h l = 0) (x : ℤ) :
    (∃ s ∈ pairSpans h y (toggles h true 0 l), s.Covers x y) ↔ windingNumber h x l ≠ 0 := by
  have hparity := toggles_parity (h := h) (i := true) (s := 0) rfl (hs.prefix_closed x)
  rw [pairSpans_odd (hs.toggles true 0) (toggles_even htotal) x,crossings,hparity,zero_add]
  simp [windingNumber]

end Xlibre.Mi.Poly

/-! A polygon is closed: its sides turn as often one way as the other on each scanline, and the edge table's bounds
are those of its points. -/
namespace Xlibre.Mi.Poly

variable {prev : Point} {pts : List Point} {y : ℤ}

lemma sides_level (hkeep : ∀ s ∈ sides prev pts, s.prev.y = y → s.curr.y = y) (hprev : prev.y = y) :
    ∀ q ∈ pts, q.y = y := by
  induction pts generalizing prev with
  | nil => simp
  | cons c pts ih =>
    have hc : c.y = y := hkeep ⟨prev,c⟩ (by simp [sides]) hprev
    intro q hq
    obtain rfl | hq := List.mem_cons.1 hq
    · exact hc
    · exact ih (fun s hs => hkeep s (by simp [sides,hs])) hc q hq

lemma sides_last (hkeep : ∀ s ∈ sides prev pts, s.prev.y = y → s.curr.y = y) {v last : Point} (hv : v ∈ pts)
    (hvy : v.y = y) (hlast : pts.getLast? = some last) : last.y = y := by
  induction pts generalizing prev with
  | nil => simp at hv
  | cons c pts ih =>
    have hkeep' : ∀ s ∈ sides c pts, s.prev.y = y → s.curr.y = y := fun s hs => hkeep s (by simp [sides,hs])
    obtain rfl | hv := List.mem_cons.1 hv
    · have hall := sides_level hkeep' hvy
      obtain rfl | hmem := List.mem_cons.1 (List.mem_of_getLast? hlast)
      · exact hvy
      · exact hall last hmem
    · have hlast' : pts.getLast? = some last := by
        cases pts with
        | nil => simp at hv
        | cons d pts => simpa [List.getLast?_cons_cons] using hlast
      exact ih hkeep' hv hlast'

lemma mem_sides {s : Side} (hs : s ∈ sides prev pts) : (s.prev = prev ∨ s.prev ∈ pts) ∧ s.curr ∈ pts := by
  induction pts generalizing prev with
  | nil => simp [sides] at hs
  | cons c pts ih =>
    obtain rfl | hs := List.mem_cons.1 hs
    · exact ⟨Or.inl rfl,by simp⟩
    · obtain ⟨hprev,hcurr⟩ := ih hs
      refine ⟨Or.inr ?_,List.mem_cons_of_mem c hcurr⟩
      obtain hprev | hprev := hprev
      · exact hprev ▸ List.mem_cons_self
      · exact List.mem_cons_of_mem c hprev

lemma mem_polygon {s : Side} (hs : s ∈ polygon pts) : s.prev ∈ pts ∧ s.curr ∈ pts := by
  unfold polygon at hs
  cases hlast : pts.getLast? with
  | none => simp [hlast] at hs
  | some last =>
    rw [hlast] at hs
    obtain ⟨hprev,hcurr⟩ := mem_sides hs
    refine ⟨?_,hcurr⟩
    obtain hprev | hprev := hprev
    · exact hprev ▸ List.mem_of_getLast? hlast
    · exact hprev

lemma slanted_from {s₀ : Side} (hs₀ : s₀ ∈ polygon pts) (hslanted : s₀.slanted = true) {v : Point} (hv : v ∈ pts) :
    ∃ s ∈ polygon pts, s.slanted = true ∧ s.prev.y = v.y := by
  by_contra hnone
  push Not at hnone
  have hkeep : ∀ s ∈ polygon pts, s.prev.y = v.y → s.curr.y = v.y := by
    intro s hs hprev
    by_contra hne
    refine hnone s hs (decide_eq_true ?_) hprev
    unfold Side.top Side.bottom
    split_ifs <;> omega
  have hall : ∀ q ∈ pts, q.y = v.y := by
    unfold polygon at hkeep
    cases hlast : pts.getLast? with
    | none =>
      rw [List.getLast?_eq_none_iff] at hlast
      simp [hlast]
    | some last =>
      rw [hlast] at hkeep
      exact sides_level hkeep (sides_last hkeep hv rfl hlast)
  obtain ⟨hp,hc⟩ := mem_polygon hs₀
  exact hnone s₀ hs₀ hslanted (hall _ hp)

/-- The direction of a side. -/
def Side.turn (s : Side) : ℤ := if s.clockWise then 1 else -1

lemma sides_turn (prev : Point) (pts : List Point) (y : ℤ) :
    (((sides prev pts).filter fun s => decide (s.Active y)).map Side.turn).sum =
      (if prev.y ≤ y then 1 else 0)-(if (pts.getLastD prev).y ≤ y then 1 else 0) := by
  induction pts generalizing prev with
  | nil => simp [sides]
  | cons c pts ih =>
    have hside : (if (⟨prev,c⟩ : Side).Active y then (⟨prev,c⟩ : Side).turn else 0) =
        (if prev.y ≤ y then 1 else 0)-(if c.y ≤ y then 1 else 0) := by
      unfold Side.Active Side.turn Side.clockWise Side.top Side.bottom
      simp only [Bool.not_eq_true',decide_eq_false_iff_not,gt_iff_lt]
      split_ifs <;> omega
    rw [List.getLastD_cons,sides]
    by_cases hact : (⟨prev,c⟩ : Side).Active y
    · rw [List.filter_cons_of_pos (by simpa using hact),List.map_cons,List.sum_cons,ih]
      rw [if_pos hact] at hside
      omega
    · rw [List.filter_cons_of_neg (by simpa using hact),ih]
      rw [if_neg hact] at hside
      omega

lemma polygon_turn (pts : List Point) (y : ℤ) :
    (((polygon pts).filter fun s => decide (s.Active y)).map Side.turn).sum = 0 := by
  unfold polygon
  cases hlast : pts.getLast? with
  | none => rfl
  | some last =>
    have hD : pts.getLastD last = last := by
      rw [List.getLastD_eq_getLast?,hlast]
      rfl
    simp only [sides_turn,hD,sub_self]

lemma even_of_turns {l : List ℤ} (hl : ∀ t ∈ l, t = 1 ∨ t = -1) (hsum : l.sum = 0) : Even l.length := by
  have hparity : ∀ l : List ℤ, (∀ t ∈ l, t = 1 ∨ t = -1) → l.sum%2 = (l.length : ℤ)%2 := by
    intro l
    induction l with
    | nil => simp
    | cons t l ih =>
      intro hl
      have hrest := ih fun u hu => hl u (List.mem_cons_of_mem t hu)
      have ht := hl t (by simp)
      rw [List.sum_cons,List.length_cons]
      push_cast
      omega
  have := hparity l hl
  rw [hsum] at this
  rw [Nat.even_iff]
  omega

/-- A side whose exact crossing of scanline `y` is at or before `x`. -/
def Side.CrossesBefore (s : Side) (x y : ℤ) : Prop :=
  s.Active y ∧ (s.top.x+(y-s.top.y)*(s.bottom.x-s.top.x)/(s.bottom.y-s.top.y) : ℚ) ≤ x

instance (s : Side) (x y : ℤ) : Decidable (s.CrossesBefore x y) := by unfold Side.CrossesBefore; infer_instance

/-- The fill rules at a pixel. -/
def Inside (rule : FillRule) (pts : List Point) (x y : ℤ) : Prop :=
  match rule with
  | .evenOdd => Odd ((polygon pts).countP fun s => decide (s.CrossesBefore x y))
  | .winding => (((polygon pts).filter fun s => decide (s.CrossesBefore x y)).map Side.turn).sum ≠ 0

instance (rule : FillRule) (pts : List Point) (x y : ℤ) : Decidable (Inside rule pts x y) := by
  cases rule <;> (unfold Inside; infer_instance)

end Xlibre.Mi.Poly
