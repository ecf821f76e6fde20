import Xlibre.Dix.Region.Coalesce
import Xlibre.Lib.Rows

/-! `miCopyRegion` on one drawable: the order of the boxes, and of the pixels in a box, that lets a region be copied in place. -/
namespace Xlibre.Mi.CopyRegion
open Dix.Region Lib.Bands Rows

/-- `pboxNext` going down, one past the box before the band. Nothing is for a read outside of the boxes. -/
def bandStart (boxes : List Box) (y1 : ℤ) : ℕ → Option ℕ
  | 0 => some 0
  | n+1 => do
    let next ← boxes[n]?
    if y1 = next.y1 then bandStart boxes y1 n else some (n+1)

/-- The bands from the last one on, each as it is; `n` boxes are left. -/
def reverseBands (boxes : List Box) : ℕ → ℕ → Option (List Box)
  | _, 0 => some []
  | 0, _ => none
  | rounds+1, n+1 => do
    let base ← boxes[n]?
    let start ← bandStart boxes base.y1 (n+1)
    let band ← fetch boxes start (n+1 - start)
    let rest ← reverseBands boxes rounds start
    some (band ++ rest)

/-- `pboxNext` going up, from the `i`-th box. -/
def bandEnd (boxes : List Box) (y1 : ℤ) : ℕ → ℕ → Option ℕ
  | 0, _ => none
  | rounds+1, i =>
    if i < boxes.length then do
      let next ← boxes[i]?
      if next.y1 = y1 then bandEnd boxes y1 rounds (i+1) else some i
    else some i

/-- The bands in their order, each from right to left. -/
def reverseBoxes (boxes : List Box) : ℕ → ℕ → Option (List Box)
  | 0, _ => none
  | rounds+1, i =>
    if i < boxes.length then do
      let base ← boxes[i]?
      let stop ← bandEnd boxes base.y1 (boxes.length + 1) i
      let band ← fetch boxes i (stop - i)
      let rest ← reverseBoxes boxes rounds stop
      some (band.reverse ++ rest)
    else some []

structure CopyCall where
  boxes : List Box
  reverse : Bool
  upsidedown : Bool

/-- `miCopyRegion`; whether the drawables are the same, and whether both are windows. -/
def miCopyRegion (same windows : Bool) (boxes : List Box) (dx dy : ℤ) : Option CopyCall := do
  let careful := same || windows
  let upsidedown := careful && decide (dy < 0)
  let boxes ← (if upsidedown ∧ boxes.length > 1 then reverseBands boxes boxes.length boxes.length else some boxes)
  let rightToLeft := careful && decide (dx < 0)
  let reverse := rightToLeft && decide (dy ≤ 0)
  let boxes ← (if rightToLeft ∧ boxes.length > 1 then reverseBoxes boxes (boxes.length + 1) 0 else some boxes)
  some ⟨boxes,reverse,upsidedown⟩

/-- The numbers from `a` up to `b`. -/
def interval (a b : ℤ) : List ℤ := (List.range (b - a).toNat).map fun i : ℕ => a + i

/-- They can be had the other way round. -/
def directed (backwards : Bool) (l : List ℤ) : List ℤ := if backwards then l.reverse else l

def pixels (reverse upsidedown : Bool) (b : Box) : List (ℤ × ℤ) :=
  (directed upsidedown (interval b.y1 b.y2)).flatMap fun y => (directed reverse (interval b.x1 b.x2)).map fun x => (x,y)

/-- Where a pixel comes from. -/
def source (dx dy : ℤ) (p : ℤ × ℤ) : ℤ × ℤ := (p.1 + dx,p.2 + dy)

def copyPixels {P α : Type} [DecidableEq P] (src : P → P) (image : P → α) (ps : List P) : P → α :=
  ps.foldl (fun image p => Function.update image p (image (src p))) image

/-- The whole copy. -/
def CopyCall.run {α : Type} (c : CopyCall) (dx dy : ℤ) (image : ℤ × ℤ → α) : ℤ × ℤ → α :=
  copyPixels (source dx dy) image (c.boxes.flatMap (pixels c.reverse c.upsidedown))

def InBox (p : ℤ × ℤ) (b : Box) : Prop := (b.x1 ≤ p.1 ∧ p.1 < b.x2) ∧ b.y1 ≤ p.2 ∧ p.2 < b.y2

section Copies
variable {P α : Type} [DecidableEq P] {src : P → P} {image : P → α} {ps : List P} {p : P}

lemma copyPixels_eq (h : ps.Pairwise fun p q => p ≠ src q) :
    copyPixels src image ps p = if p ∈ ps then image (src p) else image p := by
  induction ps using List.reverseRecOn generalizing p with
  | nil => rfl
  | append_singleton ps q ih =>
    obtain ⟨hps,-,hq⟩ := List.pairwise_append.1 h
    have hsrc : src q ∉ ps := fun hmem => hq _ hmem q (List.mem_singleton_self q) rfl
    unfold copyPixels at ih ⊢
    rw [List.foldl_append,List.foldl_cons,List.foldl_nil,ih hps,if_neg hsrc]
    obtain rfl | hne := eq_or_ne p q
    · rw [Function.update_self,if_pos (List.mem_append_right _ (List.mem_singleton_self p))]
    · rw [Function.update_of_ne hne,ih hps]
      simp [hne]

end Copies

section Order
variable {a b x y : ℤ} {backwards reverse upsidedown : Bool} {dx dy : ℤ} {box : Box} {p : ℤ × ℤ}

lemma mem_interval : x ∈ interval a b ↔ a ≤ x ∧ x < b := by
  unfold interval
  rw [List.mem_map]
  constructor
  · rintro ⟨i,hi,rfl⟩
    rw [List.mem_range] at hi
    omega
  · intro h
    exact ⟨(x - a).toNat,by rw [List.mem_range]; omega,by omega⟩

lemma mem_directed {l : List ℤ} : x ∈ directed backwards l ↔ x ∈ l := by
  unfold directed
  split_ifs
  · exact List.mem_reverse
  · exact Iff.rfl

lemma directed_pairwise : (directed backwards (interval a b)).Pairwise fun x y => if backwards = true then y < x else x < y := by
  have hup : (interval a b).Pairwise (· < ·) := by
    unfold interval
    rw [List.pairwise_map]
    exact List.pairwise_lt_range.imp fun h => by omega
  unfold directed
  split_ifs
  · rw [List.pairwise_reverse]
    exact hup
  · exact hup

lemma mem_pixels : p ∈ pixels reverse upsidedown box ↔ InBox p box := by
  unfold pixels InBox
  simp only [List.mem_flatMap,List.mem_map,mem_directed,mem_interval]
  constructor
  · rintro ⟨y,hy,x,hx,rfl⟩
    exact ⟨hx,hy⟩
  · rintro ⟨hx,hy⟩
    exact ⟨p.2,hy,p.1,hx,rfl⟩

lemma pixels_pairwise (hup : upsidedown = decide (dy < 0)) (hrev : reverse = (decide (dx < 0) && decide (dy ≤ 0))) :
    (pixels reverse upsidedown box).Pairwise fun p q => p ≠ source dx dy q := by
  unfold pixels source
  rw [List.pairwise_flatMap]
  constructor
  · intro y _
    rw [List.pairwise_map]
    apply directed_pairwise.imp
    intro p q hpq he
    obtain ⟨hx,hy⟩ := Prod.mk.inj he
    have hzero : dy = 0 := by omega
    by_cases hdx : dx < 0
    · rw [if_pos (by simp [hrev,hdx,hzero])] at hpq
      omega
    · rw [if_neg (by simp [hrev,hdx])] at hpq
      omega
  · apply directed_pairwise.imp
    intro y y' hpq p hp q hq he
    obtain ⟨x,-,rfl⟩ := List.mem_map.1 hp
    obtain ⟨x',-,rfl⟩ := List.mem_map.1 hq
    obtain ⟨-,hy⟩ := Prod.mk.inj he
    by_cases hdy : dy < 0
    · rw [if_pos (by simp [hup,hdy])] at hpq
      omega
    · rw [if_neg (by simp [hup,hdy])] at hpq
      omega

end Order

/-- Bands as lists of boxes. -/
structure Grouped (gs : List (List Box)) : Prop where
  nonempty : ∀ g ∈ gs, g ≠ []
  level : ∀ g ∈ gs, ∀ a ∈ g, ∀ b ∈ g, a.y1 = b.y1
  distinct : gs.Pairwise fun g h => ∀ a ∈ g, ∀ b ∈ h, a.y1 ≠ b.y1

section Walks
variable {gs : List (List Box)} {g boxes pre post c : List Box} {y : ℤ} {k rounds : ℕ}

lemma fetch_middle {α : Type} {pre g post : List α} : fetch (pre ++ (g ++ post)) pre.length g.length = some g := by
  unfold fetch
  rw [if_pos (.inr (by simp)),List.drop_left,List.take_left]

lemma bandStart_eq (hpre : ∀ b ∈ pre, y ≠ b.y1) (hg : ∀ b ∈ g, y = b.y1) (hk : k ≤ g.length) :
    bandStart (pre ++ (g ++ post)) y (pre.length + k) = some pre.length := by
  induction k with
  | zero =>
    obtain rfl | ⟨pre,b,rfl⟩ := List.eq_nil_or_concat pre
    · rfl
    · have hget : (pre.concat b ++ (g ++ post))[pre.length]? = some b := by simp
      rw [Nat.add_zero,List.length_concat,bandStart,hget]
      exact if_neg (hpre b (by simp))
  | succ k ih =>
    have hget : (pre ++ (g ++ post))[pre.length + k]? = some g[k] := by
      rw [List.getElem?_append_right (Nat.le_add_right _ _),Nat.add_sub_cancel_left,List.getElem?_append_left hk,
        List.getElem?_eq_getElem hk]
    rw [← Nat.add_assoc,bandStart,hget]
    exact (if_pos (hg _ (List.getElem_mem hk))).trans (ih (Nat.le_of_succ_le hk))

lemma reverseBands_eq (h : Grouped gs) (hrounds : gs.length ≤ rounds) :
    reverseBands (gs.flatten ++ c) rounds gs.flatten.length = some gs.reverse.flatten := by
  induction gs using List.reverseRecOn generalizing c rounds with
  | nil =>
    cases rounds <;> rfl
  | append_singleton gs g ih =>
    obtain ⟨hgs,-,hg⟩ := List.pairwise_append.1 h.distinct
    have hne : g ≠ [] := h.nonempty g (by simp)
    have hlevel := h.level g (by simp)
    obtain ⟨n,hn⟩ := Nat.exists_eq_succ_of_ne_zero (List.length_pos_iff.2 hne).ne'
    obtain ⟨r,rfl⟩ := Nat.exists_eq_succ_of_ne_zero (show rounds ≠ 0 by rw [List.length_append] at hrounds; simp at hrounds; omega)
    have hboxes : (gs ++ [g]).flatten ++ c = gs.flatten ++ (g ++ c) := by simp
    have hlen : (gs ++ [g]).flatten.length = gs.flatten.length + n + 1 := by simp [hn]; omega
    have hlast : n < g.length := by omega
    have hget : (gs.flatten ++ (g ++ c))[gs.flatten.length + n]? = some g[n] := by
      rw [List.getElem?_append_right (Nat.le_add_right _ _),Nat.add_sub_cancel_left,List.getElem?_append_left hlast,
        List.getElem?_eq_getElem hlast]
    have hstart : bandStart (gs.flatten ++ (g ++ c)) g[n].y1 (gs.flatten.length + n + 1) = some gs.flatten.length := by
      rw [Nat.add_assoc]
      apply bandStart_eq
      · intro b hb
        obtain ⟨g',hg',hb⟩ := List.mem_flatten.1 hb
        exact (hg g' hg' g (List.mem_singleton_self g) b hb _ (List.getElem_mem hlast)).symm
      · exact fun b hb => hlevel _ (List.getElem_mem hlast) b hb
      · exact hn.ge
    have hrest : reverseBands (gs.flatten ++ (g ++ c)) r gs.flatten.length = some gs.reverse.flatten := by
      apply ih
      · exact ⟨fun g hg => h.nonempty g (List.mem_append_left _ hg),fun g hg => h.level g (List.mem_append_left _ hg),hgs⟩
      · rw [List.length_append] at hrounds
        exact Nat.le_of_succ_le_succ hrounds
    have hfetch : fetch (gs.flatten ++ (g ++ c)) gs.flatten.length (gs.flatten.length + n + 1 - gs.flatten.length) = some g := by
      rw [show gs.flatten.length + n + 1 - gs.flatten.length = g.length by omega]
      exact fetch_middle
    rw [hboxes,hlen,reverseBands,hget]
    change Option.bind (bandStart _ _ _) _ = _
    rw [hstart]
    change Option.bind (fetch _ _ _) _ = _
    rw [hfetch]
    change Option.bind (reverseBands _ _ _) _ = _
    rw [hrest]
    simp

lemma bandEnd_eq (hpost : ∀ b, post.head? = some b → b.y1 ≠ y) (hg : ∀ b ∈ g, b.y1 = y) (hk : k ≤ g.length)
    (hrounds : g.length < k + rounds) : bandEnd (pre ++ (g ++ post)) y rounds (pre.length + k) = some (pre.length + g.length) := by
  induction rounds generalizing k with
  | zero => omega
  | succ rounds ih =>
    unfold bandEnd
    obtain hlt | rfl := Nat.lt_or_eq_of_le hk
    · have hget : (pre ++ (g ++ post))[pre.length + k]? = some g[k] := by
        rw [List.getElem?_append_right (Nat.le_add_right _ _),Nat.add_sub_cancel_left,List.getElem?_append_left hlt,
          List.getElem?_eq_getElem hlt]
      rw [if_pos (by simp; omega),hget]
      exact (if_pos (hg _ (List.getElem_mem hlt))).trans (ih (k := k+1) hlt (by omega))
    · cases post with
      | nil => rw [if_neg (by simp)]
      | cons b post =>
        have hget : (pre ++ (g ++ b::post))[pre.length + g.length]? = some b := by simp
        rw [if_pos (by simp),hget]
        exact if_neg (hpost b rfl)

lemma reverseBoxes_eq (h : Grouped gs) (hrounds : gs.length < rounds) :
    reverseBoxes (c ++ gs.flatten) rounds c.length = some (gs.map List.reverse).flatten := by
  induction gs generalizing c rounds with
  | nil =>
    obtain ⟨r,rfl⟩ := Nat.exists_eq_succ_of_ne_zero (Nat.ne_of_gt hrounds)
    rw [reverseBoxes,if_neg (by simp)]
    rfl
  | cons g gs ih =>
    obtain ⟨hg,hgs⟩ := List.pairwise_cons.1 h.distinct
    obtain ⟨r,rfl⟩ := Nat.exists_eq_succ_of_ne_zero (Nat.ne_of_gt (Nat.zero_lt_of_lt hrounds))
    obtain ⟨b,rest,hcons⟩ := List.exists_cons_of_ne_nil (h.nonempty g (List.mem_cons_self ..))
    have hlevel := h.level g (List.mem_cons_self ..)
    have hb : b ∈ g := by rw [hcons]; exact List.mem_cons_self ..
    have hget : (c ++ (g ++ gs.flatten))[c.length]? = some b := by rw [hcons]; simp
    have hstop : bandEnd (c ++ (g ++ gs.flatten)) b.y1 ((c ++ (g ++ gs.flatten)).length + 1) c.length =
        some (c.length + g.length) := by
      apply bandEnd_eq (k := 0)
      · intro b' hb'
        obtain ⟨g',hg',hmem⟩ := List.mem_flatten.1 (List.mem_of_head? hb')
        exact (hg g' hg' b hb b' hmem).symm
      · exact fun b' hb' => hlevel b' hb' b hb
      · exact Nat.zero_le _
      · simp
        omega
    have hrest : reverseBoxes (c ++ g ++ gs.flatten) r (c ++ g).length = some (gs.map List.reverse).flatten := by
      apply ih
      · exact ⟨fun g hg => h.nonempty g (List.mem_cons_of_mem _ hg),fun g hg => h.level g (List.mem_cons_of_mem _ hg),hgs⟩
      · exact Nat.lt_of_succ_lt_succ hrounds
    rw [List.append_assoc,List.length_append] at hrest
    rw [List.flatten_cons,reverseBoxes,if_pos (by rw [hcons]; simp),hget]
    change Option.bind (bandEnd _ _ _ _) _ = _
    rw [hstop]
    change Option.bind (fetch _ _ _) _ = _
    rw [Nat.add_sub_cancel_left,fetch_middle]
    change Option.bind (reverseBoxes _ _ _) _ = _
    rw [hrest]
    rfl

end Walks

section Order
variable {R : List Band} {a b : Band} {s t : Box} {dx dy : ℤ} {p q : ℤ × ℤ}

lemma mem_boxesOfBand : s ∈ boxesOfBand b ↔ ∃ span ∈ b.spans, s = ⟨span.1,b.y1,span.2,b.y2⟩ := by
  unfold boxesOfBand
  rw [List.mem_map]
  exact ⟨fun ⟨span,hspan,he⟩ => ⟨span,hspan,he.symm⟩,fun ⟨span,hspan,he⟩ => ⟨span,hspan,he.symm⟩⟩

lemma grouped_bands (hR : Banded R) : Grouped (R.map boxesOfBand) := by
  constructor
  · intro g hg
    obtain ⟨b,hb,rfl⟩ := List.mem_map.1 hg
    exact fun hnil => (hR.wf b hb).nonempty (List.map_eq_nil_iff.1 hnil)
  · intro g hg s hs t ht
    obtain ⟨b,hb,rfl⟩ := List.mem_map.1 hg
    obtain ⟨_,-,rfl⟩ := mem_boxesOfBand.1 hs
    obtain ⟨_,-,rfl⟩ := mem_boxesOfBand.1 ht
    rfl
  · rw [List.pairwise_map]
    apply hR.ordered.imp_of_mem
    intro a b ha hb hab s hs t ht
    obtain ⟨_,-,rfl⟩ := mem_boxesOfBand.1 hs
    obtain ⟨_,-,rfl⟩ := mem_boxesOfBand.1 ht
    have hrows := (hR.wf a ha).rows
    dsimp only
    omega

/-- Where a box is read from. -/
def shifted (dx dy : ℤ) (b : Box) : Box := ⟨b.x1 + dx,b.y1 + dy,b.x2 + dx,b.y2 + dy⟩

/-- What is written does not lie where something is read. -/
def Clear (dx dy : ℤ) (a b : Box) : Prop := ∀ p, InBox p a → ¬ InBox p (shifted dx dy b)

def ordered (dx dy : ℤ) (gs : List (List Box)) : List (List Box) :=
  let gs := if dy < 0 then gs.reverse else gs
  if dx < 0 then gs.map List.reverse else gs

lemma flatten_map_reverse_perm {gs : List (List Box)} : (gs.map List.reverse).flatten.Perm gs.flatten := by
  induction gs with
  | nil => exact List.Perm.refl _
  | cons g gs ih =>
    rw [List.map_cons,List.flatten_cons,List.flatten_cons]
    exact (List.reverse_perm g).append ih

lemma eq_of_perm {l l' : List Box} (h : l'.Perm l) (hlen : ¬ l.length > 1) : l = l' := by
  match l with
  | [] => exact h.eq_nil.symm
  | [a] => exact (List.perm_singleton.1 h).symm
  | _::_::_ => exact absurd (by simp) hlen

lemma Grouped.reverse {gs : List (List Box)} (h : Grouped gs) : Grouped gs.reverse := by
  refine ⟨fun g hg => h.nonempty g (List.mem_reverse.1 hg),fun g hg => h.level g (List.mem_reverse.1 hg),?_⟩
  rw [List.pairwise_reverse]
  exact h.distinct.imp fun h a ha b hb => (h b hb a ha).symm

lemma length_le_flatten {gs : List (List Box)} (h : ∀ g ∈ gs, g ≠ []) : gs.length ≤ gs.flatten.length := by
  induction gs with
  | nil => exact le_rfl
  | cons g gs ih =>
    have hg := List.length_pos_iff.2 (h g (List.mem_cons_self ..))
    have hrest := ih fun g hg => h g (List.mem_cons_of_mem _ hg)
    rw [List.length_cons,List.flatten_cons,List.length_append]
    omega

lemma miCopyRegion_eq {gs : List (List Box)} (h : Grouped gs) (windows : Bool) : miCopyRegion true windows gs.flatten dx dy =
    some ⟨(ordered dx dy gs).flatten,decide (dx < 0) && decide (dy ≤ 0),decide (dy < 0)⟩ := by
  have hfirst : (if (decide (dy < 0)) = true ∧ gs.flatten.length > 1 then reverseBands gs.flatten gs.flatten.length gs.flatten.length
      else some gs.flatten) = some (if dy < 0 then gs.reverse else gs).flatten := by
    by_cases hdy : dy < 0
    · rw [if_pos hdy]
      split_ifs with hmany
      · have hrun := reverseBands_eq (c := []) h (length_le_flatten h.nonempty)
        rwa [List.append_nil] at hrun
      · rw [← eq_of_perm (List.Perm.flatten (List.reverse_perm gs)) fun hlen => hmany ⟨decide_eq_true hdy,hlen⟩]
    · rw [if_neg hdy,if_neg fun hboth => hdy (of_decide_eq_true hboth.1)]
  have hgrouped : Grouped (if dy < 0 then gs.reverse else gs) := by
    split_ifs
    · exact h.reverse
    · exact h
  unfold miCopyRegion ordered
  rw [Bool.true_or]
  dsimp only
  rw [Bool.true_and,Bool.true_and]
  change Option.bind _ _ = _
  rw [hfirst,Option.bind_some]
  generalize (if dy < 0 then gs.reverse else gs) = gs' at hgrouped
  change Option.bind _ _ = _
  have hsecond : (if decide (dx < 0) = true ∧ gs'.flatten.length > 1 then reverseBoxes gs'.flatten (gs'.flatten.length + 1) 0
      else some gs'.flatten) = some (if dx < 0 then gs'.map List.reverse else gs').flatten := by
    by_cases hdx : dx < 0
    · rw [if_pos hdx]
      split_ifs with hmany
      · exact reverseBoxes_eq (c := []) hgrouped (Nat.lt_succ_of_le (length_le_flatten hgrouped.nonempty))
      · rw [← eq_of_perm flatten_map_reverse_perm fun hlen => hmany ⟨decide_eq_true hdx,hlen⟩]
    · rw [if_neg hdx,if_neg fun hboth => hdx (of_decide_eq_true hboth.1)]
  rw [hsecond,Option.bind_some]

lemma ordered_perm {gs : List (List Box)} : (ordered dx dy gs).flatten.Perm gs.flatten := by
  have hbands : (if dy < 0 then gs.reverse else gs).flatten.Perm gs.flatten := by
    split_ifs
    · exact List.Perm.flatten (List.reverse_perm gs)
    · exact List.Perm.refl _
  unfold ordered
  dsimp only
  split_ifs at hbands ⊢
  · exact flatten_map_reverse_perm.trans hbands
  · exact flatten_map_reverse_perm
  · exact hbands
  · exact hbands

lemma clear_in_band (hb : b.Wf) : (if dx < 0 then (boxesOfBand b).reverse else boxesOfBand b).Pairwise (Clear dx dy) := by
  have hgaps : (boxesOfBand b).Pairwise fun s t => s.x2 < t.x1 := by
    unfold boxesOfBand
    rw [List.pairwise_map]
    exact hb.separated.gaps
  unfold Clear InBox shifted
  split_ifs
  · rw [List.pairwise_reverse]
    apply hgaps.imp
    intro s t hgap p hin hout
    dsimp only at hout
    omega
  · apply hgaps.imp
    intro s t hgap p hin hout
    dsimp only at hout
    omega

lemma clear_of_below (hR : Banded R) : ((if dy < 0 then (R.map boxesOfBand).reverse else R.map boxesOfBand)).Pairwise
    fun g h => ∀ s ∈ g, ∀ t ∈ h, Clear dx dy s t := by
  have hrows : (R.map boxesOfBand).Pairwise fun g h => ∀ s ∈ g, ∀ t ∈ h, s.y2 ≤ t.y1 := by
    rw [List.pairwise_map]
    apply hR.ordered.imp
    intro a b hab s hs t ht
    obtain ⟨_,-,rfl⟩ := mem_boxesOfBand.1 hs
    obtain ⟨_,-,rfl⟩ := mem_boxesOfBand.1 ht
    exact hab
  unfold Clear InBox shifted
  split_ifs
  · rw [List.pairwise_reverse]
    apply hrows.imp
    intro g h hgh s hs t ht p hin hout
    have hle := hgh t ht s hs
    dsimp only at hout
    omega
  · apply hrows.imp
    intro g h hgh s hs t ht p hin hout
    have hle := hgh s hs t ht
    dsimp only at hout
    omega

lemma ordered_clear (hR : Banded R) : (ordered dx dy (R.map boxesOfBand)).flatten.Pairwise (Clear dx dy) := by
  have hbands : ∀ g ∈ (if dy < 0 then (R.map boxesOfBand).reverse else R.map boxesOfBand), ∃ b ∈ R, g = boxesOfBand b := by
    intro g hg
    have hmem : g ∈ R.map boxesOfBand := by
      split_ifs at hg
      · exact List.mem_reverse.1 hg
      · exact hg
    obtain ⟨b,hb,rfl⟩ := List.mem_map.1 hmem
    exact ⟨b,hb,rfl⟩
  have hacross : (if dy < 0 then (R.map boxesOfBand).reverse else R.map boxesOfBand).Pairwise
      fun g h => ∀ s ∈ g, ∀ t ∈ h, Clear dx dy s t := clear_of_below hR
  unfold ordered
  dsimp only
  generalize (if dy < 0 then (R.map boxesOfBand).reverse else R.map boxesOfBand) = gs at hbands hacross
  rw [List.pairwise_flatten]
  by_cases hdx : dx < 0
  · rw [if_pos hdx]
    constructor
    · intro g hg
      obtain ⟨g',hg',rfl⟩ := List.mem_map.1 hg
      obtain ⟨b,hb,rfl⟩ := hbands g' hg'
      have hclear : (if dx < 0 then (boxesOfBand b).reverse else boxesOfBand b).Pairwise (Clear dx dy) := clear_in_band (hR.wf b hb)
      rwa [if_pos hdx] at hclear
    · rw [List.pairwise_map]
      exact hacross.imp fun h s hs t ht => h s (List.mem_reverse.1 hs) t (List.mem_reverse.1 ht)
  · rw [if_neg hdx]
    refine ⟨fun g hg => ?_,hacross⟩
    obtain ⟨b,hb,rfl⟩ := hbands g hg
    have hclear : (if dx < 0 then (boxesOfBand b).reverse else boxesOfBand b).Pairwise (Clear dx dy) := clear_in_band (hR.wf b hb)
    rwa [if_neg hdx] at hclear

end Order

/-- Within one drawable the boxes come in such an order, and the pixels of each box, that nothing is written over before it is
read: the copy is as if from an image that stays as it was. -/
theorem miCopyRegion_simultaneous (R : List Band) (hR : Banded R) (windows : Bool) (dx dy : ℤ) : ∃ c : CopyCall,
    miCopyRegion true windows (boxesOf R) dx dy = some c ∧ c.boxes.Perm (boxesOf R) ∧ c.boxes.Pairwise (Clear dx dy) ∧
    (∀ b ∈ c.boxes, (pixels c.reverse c.upsidedown b).Pairwise fun p q => p ≠ source dx dy q) ∧
    ∀ {α : Type} (image : ℤ × ℤ → α) p, ((∃ b ∈ boxesOf R, InBox p b) → c.run dx dy image p = image (source dx dy p)) ∧
      ((∀ b ∈ boxesOf R, ¬ InBox p b) → c.run dx dy image p = image p) := by
  have hboxes : boxesOf R = (R.map boxesOfBand).flatten := by
    unfold boxesOf
    rw [List.flatMap_def]
  refine ⟨_,by rw [hboxes]; exact miCopyRegion_eq (grouped_bands hR) windows,?_,ordered_clear hR,
    fun b _ => pixels_pairwise rfl rfl,?_⟩
  · rw [hboxes]
    exact ordered_perm
  · intro α image p
    have hmem : p ∈ (ordered dx dy (R.map boxesOfBand)).flatten.flatMap (pixels (decide (dx < 0) && decide (dy ≤ 0)) (decide (dy < 0))) ↔
        ∃ b ∈ boxesOf R, InBox p b := by
      rw [List.mem_flatMap,hboxes]
      constructor
      · intro ⟨b,hb,hp⟩
        exact ⟨b,ordered_perm.mem_iff.1 hb,mem_pixels.1 hp⟩
      · intro ⟨b,hb,hp⟩
        exact ⟨b,ordered_perm.mem_iff.2 hb,mem_pixels.2 hp⟩
    have hpairwise : ((ordered dx dy (R.map boxesOfBand)).flatten.flatMap
        (pixels (decide (dx < 0) && decide (dy ≤ 0)) (decide (dy < 0)))).Pairwise fun p q => p ≠ source dx dy q := by
      rw [List.pairwise_flatMap]
      refine ⟨fun b _ => pixels_pairwise rfl rfl,(ordered_clear hR).imp fun {a b} hclear p hp q hq he => ?_⟩
      apply hclear p (mem_pixels.1 hp)
      have hin := mem_pixels.1 hq
      subst he
      unfold InBox shifted source at *
      dsimp only at hin ⊢
      omega
    unfold CopyCall.run
    rw [copyPixels_eq hpairwise]
    exact ⟨fun h => if_pos (hmem.2 h),fun h => if_neg fun hp => (hmem.1 hp).elim fun b hb => h b hb.1 hb.2⟩

/-- Two bands, moved up and to the right. -/
theorem miCopyRegion_simultaneous_two : ∃ c : CopyCall,
    miCopyRegion true false (boxesOf [⟨0,2,[(0,2),(4,6)]⟩,⟨2,3,[(1,5)]⟩]) 1 (-1) = some c ∧
    c.boxes.Perm (boxesOf [⟨0,2,[(0,2),(4,6)]⟩,⟨2,3,[(1,5)]⟩]) ∧ c.boxes.Pairwise (Clear 1 (-1)) ∧
    (∀ b ∈ c.boxes, (pixels c.reverse c.upsidedown b).Pairwise fun p q => p ≠ source 1 (-1) q) ∧
    ∀ {α : Type} (image : ℤ × ℤ → α) p,
      ((∃ b ∈ boxesOf [⟨0,2,[(0,2),(4,6)]⟩,⟨2,3,[(1,5)]⟩], InBox p b) → c.run 1 (-1) image p = image (source 1 (-1) p)) ∧
      ((∀ b ∈ boxesOf [⟨0,2,[(0,2),(4,6)]⟩,⟨2,3,[(1,5)]⟩], ¬ InBox p b) → c.run 1 (-1) image p = image p) :=
  miCopyRegion_simultaneous [⟨0,2,[(0,2),(4,6)]⟩,⟨2,3,[(1,5)]⟩] (by
    refine ⟨fun b hb => ?_,by decide,by decide⟩
    obtain rfl | rfl : b = ⟨0,2,[(0,2),(4,6)]⟩ ∨ b = ⟨2,3,[(1,5)]⟩ := by simpa using hb
    · exact ⟨by decide,by decide,⟨by decide,by decide⟩⟩
    · exact ⟨by decide,by decide,⟨by decide,by decide⟩⟩) false 1 (-1)

end Xlibre.Mi.CopyRegion
