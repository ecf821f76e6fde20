import Mathlib.Data.List.Perm.Subperm
import Xlibre.Mi.Poly.Rule

/-! From scanline to scanline: which edges are active, and that each scanline's spans follow the fill rule. -/
namespace Xlibre.Mi.Poly

open Lib.Links

structure Entries (E : List (Node × Side)) : Prop where
  nodup : (E.map Prod.fst).Nodup
  header : ∀ e ∈ E, e.1 ≠ .aet
  slanted : ∀ e ∈ E, e.2.slanted = true
  short : ∀ e ∈ E, -2^15 ≤ min e.2.top.x e.2.bottom.x ∧ max e.2.top.x e.2.bottom.x < 2^15

/-- The edges of sides which satisfy `q`. -/
def Holds (E : List (Node × Side)) (q : Side → Prop) (l : List Node) : Prop := ∀ n, n ∈ l ↔ ∃ e ∈ E, e.1 = n ∧ q e.2

/-- The state at scanline `y`; the active edges are those of the sides which satisfy `q`, the buckets hold the sides
whose tops satisfy `r`. -/
structure Stage (E : List (Node × Side)) (y : ℤ) (q : Side → Prop) (r : ℤ → Prop) (h : Heap) (l : List Node)
    (bs : List (ℤ × List Node)) : Prop where
  active : Active h l
  sorted : Sorted h l
  holds : Holds E q l
  buckets : Buckets h bs
  pending : ∀ t n, InBucket bs t n ↔ ∃ e ∈ E, e.1 = n ∧ e.2.top.y = t ∧ r t
  keys : ∀ b ∈ bs, r b.1
  entries : ∀ e ∈ E, h.ymax e.1 = e.2.bottom.y-1 ∧ h.clockWise e.1 = e.2.clockWise
  bres : ∀ e ∈ E, y < e.2.bottom.y →
    BresAt (e.2.bottom.y-e.2.top.y) e.2.top.x e.2.bottom.x (max (y-e.2.top.y) 0) (h.bres e.1)
  header : h.minor .aet = minInt

/-- Before the buckets of scanline `y` are loaded. -/
abbrev Above (E : List (Node × Side)) (y : ℤ) : Heap → List Node → List (ℤ × List Node) → Prop :=
  Stage E y (fun s => s.top.y < y ∧ y < s.bottom.y) fun t => y ≤ t

/-- After they are loaded. -/
abbrev On (E : List (Node × Side)) (y : ℤ) : Heap → List Node → List (ℤ × List Node) → Prop :=
  Stage E y (fun s => s.Active y) fun t => y < t

variable {E : List (Node × Side)} {y : ℤ} {q : Side → Prop} {r : ℤ → Prop} {h h' : Heap} {l : List Node}
  {bs : List (ℤ × List Node)}

lemma Entries.side_eq (hE : Entries E) {e e' : Node × Side} (he : e ∈ E) (he' : e' ∈ E) (hn : e.1 = e'.1) : e = e' :=
  List.inj_on_of_nodup_map hE.nodup he he' hn

lemma Holds.length_le (hholds : Holds E q l) (hl : l.Nodup) : l.length ≤ E.length := by
  have hsub : l ⊆ E.map Prod.fst := by
    intro n hn
    obtain ⟨e,he,rfl,-⟩ := (hholds n).1 hn
    exact List.mem_map.2 ⟨e,he,rfl⟩
  simpa using (List.subperm_of_subset hl hsub).length_le

lemma On.minor_short (hE : Entries E) (hS : On E y h l bs) {n : Node} (hn : n ∈ l) :
    -2^15 ≤ h.minor n ∧ h.minor n < 2^15 := by
  obtain ⟨e,he,rfl,htop,hbottom⟩ := (hS.holds n).1 hn
  have hbetween := (hS.bres e he hbottom).between (by omega) (le_max_right _ _) (by omega)
  obtain ⟨hlo,hhi⟩ := hE.short e he
  exact ⟨hlo.trans hbetween.1,hbetween.2.trans_lt hhi⟩

lemma Stage.apart (hE : Entries E) (hS : Stage E y q r h l bs) (hqr : ∀ s, q s → ¬r s.top.y) {n : Node}
    (hn : n ∈ bs.flatMap Prod.snd) : n ∉ Node.aet::l := by
  obtain ⟨t,ht⟩ := mem_flatMap_iff.1 hn
  obtain ⟨e,he,hne,htop,hr⟩ := (hS.pending t n).1 ht
  rw [List.mem_cons,not_or]
  refine ⟨fun heq => hE.header e he (hne.trans heq),fun hmem => ?_⟩
  obtain ⟨e',he',hne',hq'⟩ := (hS.holds n).1 hmem
  obtain rfl := hE.side_eq he he' (hne.trans hne'.symm)
  exact hqr _ hq' (htop ▸ hr)

lemma Above.skip (hS : Above E y h l bs) (hnone : ∀ b ∈ bs, y < b.1) : On E y h l bs := by
  have htop : ∀ e ∈ E, e.2.top.y ≠ y := by
    intro e he heq
    obtain ⟨b,hb,hkey,-⟩ := (hS.pending y e.1).2 ⟨e,he,rfl,heq,le_refl y⟩
    have := hnone b hb
    omega
  refine ⟨hS.active,hS.sorted,fun n => ?_,hS.buckets,fun t n => ?_,hnone,hS.entries,hS.bres,hS.header⟩
  · rw [hS.holds]
    refine exists_congr fun e => and_congr_right fun he => and_congr_right fun _ => ?_
    have := htop e he
    unfold Side.Active
    omega
  · rw [hS.pending]
    refine exists_congr fun e => and_congr_right fun he => and_congr_right fun _ => ?_
    have := htop e he
    omega

lemma Above.load {b : ℤ × List Node} {fuel : ℕ} (hE : Entries E) (hS : Above E y h l (b::bs)) (hb : b.1 = y)
    (hfuel : E.length < fuel) :
    ∃ h' l', miloadAET fuel h .aet (h.next .aet) b.2.head? = some h' ∧ On E y h' l' bs ∧ l'.length ≤ E.length := by
  have hqr : ∀ s : Side, s.top.y < y ∧ y < s.bottom.y → ¬y ≤ s.top.y := fun s hs => by omega
  have hnodup : (Node.aet::([] ++ l) ++ b.2).Nodup := by
    refine List.nodup_append'.2 ⟨hS.active.nodup,?_,fun n hn hn' => ?_⟩
    · have := hS.buckets.nodup
      rw [List.flatMap_cons,List.nodup_append'] at this
      exact this.1
    · exact hS.apart hE hqr (List.mem_flatMap.2 ⟨b,List.mem_cons_self,hn'⟩) hn
  have hin : ∀ n, n ∈ b.2 ↔ ∃ e ∈ E, e.1 = n ∧ e.2.top.y = y := by
    intro n
    constructor
    · intro hn
      obtain ⟨e,he,hne,htop,-⟩ := (hS.pending y n).1 ⟨b,List.mem_cons_self,hb,hn⟩
      exact ⟨e,he,hne,htop⟩
    · rintro ⟨e,he,hne,htop⟩
      obtain ⟨c,hc,hkey,hn⟩ := (hS.pending y n).2 ⟨e,he,hne,htop,le_refl y⟩
      obtain rfl | hc := List.mem_cons.1 hc
      · exact hn
      · have := (List.pairwise_cons.1 hS.buckets.order).1 c hc
        omega
  have hholds : Holds E (fun s => s.Active y) (l ++ b.2) := by
    intro n
    rw [List.mem_append,hS.holds,hin]
    constructor
    · rintro (⟨e,he,hne,htop,hbottom⟩ | ⟨e,he,hne,htop⟩)
      · exact ⟨e,he,hne,htop.le,hbottom⟩
      · have := Side.top_lt_bottom (hE.slanted e he)
        exact ⟨e,he,hne,htop.le,by omega⟩
    · rintro ⟨e,he,hne,htop,hbottom⟩
      obtain hlt | heq := lt_or_eq_of_le htop
      · exact Or.inl ⟨e,he,hne,hlt,hbottom⟩
      · exact Or.inr ⟨e,he,hne,heq⟩
  have hlb : (l ++ b.2).Nodup := by
    have := (List.nodup_cons.1 (List.cons_append ▸ hnodup)).2
    simpa using this
  have hlen := hholds.length_le hlb
  rw [List.length_append] at hlen
  obtain ⟨h',hload,hA',hs',-,hframe⟩ := miloadAET_merge (n := fuel)
    (show Active h ([] ++ l) from hS.active) (hS.buckets.lists b (by simp)).1 hnodup (by omega)
  have hperm := merge_perm h l b.2
  have hminor : ∀ l, Sorted h' l ↔ Sorted h l := fun l => by rw [Sorted,Sorted,hs'.minor]
  refine ⟨h',merge h l b.2,?_,⟨hA',?_,fun n => ?_,?_,fun t n => ?_,fun c hc => ?_,?_,?_,?_⟩,?_⟩
  · rw [hS.active.head]
    exact hload
  · rw [hminor]
    exact merge_sorted hS.sorted (hS.buckets.lists b (by simp)).2
  · rw [hperm.mem_iff]
    exact hholds n
  · have horder := List.pairwise_cons.1 hS.buckets.order
    have hnod := hS.buckets.nodup
    rw [List.flatMap_cons,List.nodup_append'] at hnod
    refine Buckets.congr ⟨fun c hc => hS.buckets.lists c (List.mem_cons_of_mem b hc),horder.2,hnod.2.1⟩ ?_ ?_
    · intro n hn
      apply hframe
      rw [List.mem_append,not_or]
      refine ⟨?_,fun hnb => hnod.2.2 hnb hn⟩
      have := hS.apart hE hqr (n := n) (by rw [List.flatMap_cons]; exact List.mem_append_right _ hn)
      simpa using this
    · intro n _
      rw [hs'.minor]
  · constructor
    · rintro ⟨c,hc,hkey,hn⟩
      obtain ⟨e,he,hne,htop,-⟩ := (hS.pending t n).1 ⟨c,List.mem_cons_of_mem b hc,hkey,hn⟩
      have := (List.pairwise_cons.1 hS.buckets.order).1 c hc
      exact ⟨e,he,hne,htop,by omega⟩
    · rintro ⟨e,he,hne,htop,hlt⟩
      obtain ⟨c,hc,hkey,hn⟩ := (hS.pending t n).2 ⟨e,he,hne,htop,hlt.le⟩
      obtain rfl | hc := List.mem_cons.1 hc
      · omega
      · exact ⟨c,hc,hkey,hn⟩
  · have := (List.pairwise_cons.1 hS.buckets.order).1 c hc
    omega
  · rw [hs'.ymax,hs'.clockWise]
    exact hS.entries
  · rw [hs'.bres]
    exact hS.bres
  · rw [hs'.minor]
    exact hS.header
  · rw [hperm.length_eq,List.length_append]
    omega

lemma On.below {p : Node} {h'' : Heap} {l'' : List Node} (hE : Entries E) (hS : On E y h l bs)
    (hL : LineAt h y l [] h' p) (hsort : SortedFrom h' (staying h y l) h'' l'') : Above E (y+1) h'' l'' bs := by
  have hq : ∀ s : Side, s.Active y → ¬y < s.top.y := fun s hs => not_lt.2 hs.1
  have hmem : ∀ n, n ∈ l'' ↔ n ∈ l ∧ h.ymax n ≠ y := by
    intro n
    rw [hsort.perm.mem_iff,staying,List.mem_filter,decide_eq_true_eq]
  have hpending : ∀ n ∈ bs.flatMap Prod.snd, n ∉ Node.aet::l := fun n hn => hS.apart hE hq hn
  have hbres : ∀ n, n ∉ l → h''.bres n = h.bres n := by
    intro n hn
    rw [hsort.same.bres,hL.bres]
    simp [hn]
  refine ⟨hsort.active,hsort.sorted,fun n => ?_,hS.buckets.congr (fun n hn => ?_) (fun n hn => ?_),fun t n => ?_,
    fun b hb => Int.add_one_le_iff.2 (hS.keys b hb),fun e he => ?_,fun e he hbottom => ?_,?_⟩
  · rw [hmem,hS.holds]
    constructor
    · rintro ⟨⟨e,he,rfl,htop,hbottom⟩,hne⟩
      rw [(hS.entries e he).1] at hne
      exact ⟨e,he,rfl,by omega,by omega⟩
    · rintro ⟨e,he,rfl,htop,hbottom⟩
      refine ⟨⟨e,he,rfl,by omega,by omega⟩,?_⟩
      rw [(hS.entries e he).1]
      omega
  · have hnot := hpending n hn
    have hstay : n ∉ Node.aet::staying h y l := fun hin => hnot (by
      obtain rfl | hin := List.mem_cons.1 hin
      · simp
      · exact List.mem_cons_of_mem _ (List.mem_filter.1 hin).1)
    rw [hsort.frame n hstay,hL.frame n (by simpa using hnot)]
  · have hnot := hpending n hn
    rw [List.mem_cons,not_or] at hnot
    simp only [Heap.minor,hbres n hnot.2]
  · rw [hS.pending]
    refine exists_congr fun e => and_congr_right fun _ => and_congr_right fun _ => and_congr_right fun _ => ?_
    exact Int.add_one_le_iff.symm
  · rw [hsort.same.ymax,hsort.same.clockWise,hL.ymax,hL.clockWise]
    exact hS.entries e he
  · have hold := hS.bres e he (by omega)
    rw [hsort.same.bres,hL.bres]
    by_cases htop : e.2.top.y ≤ y
    · have hin : e.1 ∈ l := (hS.holds _).2 ⟨e,he,rfl,htop,by omega⟩
      have hstays : h.ymax e.1 ≠ y := by
        rw [(hS.entries e he).1]
        omega
      rw [if_pos ⟨hin,hstays⟩]
      have hk : max (y+1-e.2.top.y) 0 = max (y-e.2.top.y) 0+1 := by omega
      rw [hk]
      exact bresIncrPgon_at (by omega) hold
    · have hout : e.1 ∉ l := by
        intro hin
        obtain ⟨e',he',hne,hact⟩ := (hS.holds _).1 hin
        obtain rfl := hE.side_eq he he' hne.symm
        exact htop hact.1
      have hk : max (y+1-e.2.top.y) 0 = max (y-e.2.top.y) 0 := by omega
      rw [hk,if_neg (fun hc => hout hc.1)]
      exact hold
  · have haet : Node.aet ∉ l := (List.nodup_cons.1 hS.active.nodup).1
    have : h''.minor .aet = h.minor .aet := by simp only [Heap.minor,hbres _ haet]
    rw [this]
    exact hS.header

lemma On.filter_sides {pts : List Point} {p : Node → Bool} {c : Side → Bool} (hE : Entries E) (hS : On E y h l bs)
    (hpts : E.map Prod.snd = (polygon pts).filter Side.slanted)
    (hpc : ∀ e ∈ E, e.2.Active y → p e.1 = c e.2) :
    (l.filter p).length = ((polygon pts).filter fun s => decide (s.Active y) && c s).length ∧
    total h (l.filter p) = (((polygon pts).filter fun s => decide (s.Active y) && c s).map Side.turn).sum := by
  have hperm : (l.filter p).Perm ((E.filter fun e => decide (e.2.Active y) && c e.2).map Prod.fst) := by
    refine (List.perm_ext_iff_of_nodup ((List.nodup_cons.1 hS.active.nodup).2.filter _)
      (hE.nodup.sublist (List.filter_sublist.map _))).2 fun n => ?_
    simp only [List.mem_filter,List.mem_map,Bool.and_eq_true,decide_eq_true_eq,hS.holds n]
    constructor
    · rintro ⟨⟨e,he,rfl,hact⟩,hp⟩
      exact ⟨e,⟨he,hact,(hpc e he hact).symm.trans hp⟩,rfl⟩
    · rintro ⟨e,⟨he,hact,hc⟩,rfl⟩
      exact ⟨⟨e,he,rfl,hact⟩,(hpc e he hact).trans hc⟩
  have hsides : (E.filter fun e => decide (e.2.Active y) && c e.2).map Prod.snd =
      (polygon pts).filter fun s => decide (s.Active y) && c s := by
    have hmap : (E.filter fun e => decide (e.2.Active y) && c e.2).map Prod.snd =
        (E.map Prod.snd).filter fun s => decide (s.Active y) && c s := by
      rw [List.filter_map]
      rfl
    rw [hmap,hpts,List.filter_filter]
    apply List.filter_congr
    intro s _
    by_cases hact : s.Active y
    · have hslanted : s.slanted = true := by
        unfold Side.Active at hact
        exact decide_eq_true (by omega)
      rw [hslanted,Bool.and_true]
    · simp [hact]
  rw [← hsides]
  constructor
  · rw [hperm.length_eq,List.length_map,List.length_map]
  · unfold total
    rw [(hperm.map _).sum_eq,List.map_map,List.map_map]
    congr 1
    apply List.map_congr_left
    intro e he
    simp only [Function.comp_apply,turn,Side.turn,(hS.entries e (List.mem_filter.1 he).1).2]

lemma On.closed {pts : List Point} (hE : Entries E) (hS : On E y h l bs)
    (hpts : E.map Prod.snd = (polygon pts).filter Side.slanted) : Even l.length ∧ total h l = 0 := by
  obtain ⟨-,htotal⟩ := hS.filter_sides (p := fun _ => true) (c := fun _ => true) hE hpts (fun _ _ _ => rfl)
  simp only [Bool.and_true,polygon_turn,List.filter_true] at htotal
  refine ⟨?_,htotal⟩
  have heven := even_of_turns (l := l.map (turn h)) (fun t ht => ?_) htotal
  · simpa using heven
  · obtain ⟨n,-,rfl⟩ := List.mem_map.1 ht
    unfold turn
    split_ifs
    · exact Or.inl rfl
    · exact Or.inr rfl

lemma On.crossings {pts : List Point} (hE : Entries E) (hS : On E y h l bs)
    (hpts : E.map Prod.snd = (polygon pts).filter Side.slanted) (x : ℤ) :
    crossings h x l = (polygon pts).countP (fun s => decide (s.CrossesBefore x y)) ∧
    windingNumber h x l = (((polygon pts).filter fun s => decide (s.CrossesBefore x y)).map Side.turn).sum := by
  have hminor : ∀ e ∈ E, e.2.Active y → decide (h.minor e.1 ≤ x) =
      decide ((e.2.top.x+(y-e.2.top.y)*(e.2.bottom.x-e.2.top.x)/(e.2.bottom.y-e.2.top.y) : ℚ) ≤ x) := by
    intro e he hact
    have hmax : max (y-e.2.top.y) 0 = y-e.2.top.y := max_eq_left (by unfold Side.Active at hact; omega)
    have hle := (hS.bres e he hact.2).minor_le (sub_pos.2 (Side.top_lt_bottom (hE.slanted e he))) x
    rw [hmax] at hle
    push_cast at hle
    exact decide_eq_decide.2 hle
  have hsame : (fun s : Side => decide (s.Active y) &&
      decide ((s.top.x+(y-s.top.y)*(s.bottom.x-s.top.x)/(s.bottom.y-s.top.y) : ℚ) ≤ x)) =
      fun s => decide (s.CrossesBefore x y) := by
    funext s
    exact (Bool.decide_and _ _).symm
  obtain ⟨hlength,htotal⟩ := hS.filter_sides (p := fun n => decide (h.minor n ≤ x))
    (c := fun s => decide ((s.top.x+(y-s.top.y)*(s.bottom.x-s.top.x)/(s.bottom.y-s.top.y) : ℚ) ≤ x)) hE hpts hminor
  rw [hsame] at hlength htotal
  refine ⟨?_,htotal⟩
  rw [Poly.crossings,List.countP_eq_length_filter,List.countP_eq_length_filter]
  exact hlength

/-- The edges of a scanline, in pairs, are what the even-odd rule draws. -/
theorem On.evenOdd {pts : List Point} (hE : Entries E) (hS : On E y h l bs)
    (hpts : E.map Prod.snd = (polygon pts).filter Side.slanted) (x : ℤ) :
    (∃ s ∈ pairSpans h y l, s.Covers x y) ↔ Inside .evenOdd pts x y := by
  rw [pairSpans_odd hS.sorted (hS.closed hE hpts).1 x,(hS.crossings hE hpts x).1]
  rfl

/-- The toggles of a scanline, in pairs, are what the winding rule draws. -/
theorem On.winding {pts : List Point} (hE : Entries E) (hS : On E y h l bs)
    (hpts : E.map Prod.snd = (polygon pts).filter Side.slanted) (x : ℤ) :
    (∃ s ∈ pairSpans h y (toggles h true 0 l), s.Covers x y) ↔ Inside .winding pts x y := by
  rw [pairSpans_winding hS.sorted (hS.closed hE hpts).2 x,(hS.crossings hE hpts x).2]
  rfl

end Xlibre.Mi.Poly
