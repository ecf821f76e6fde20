import Xlibre.Dix.Region.Box

/-! What the array operations do to the boxes in use, and `RegionCoalesce` as the addition of a
band to a banded list. -/
namespace Xlibre.Dix.Region
open Xlibre.Lib.Bands

namespace RegData
variable {d : RegData}

/-- The boxes in use lie within the allocation. -/
def Wf (d : RegData) : Prop := d.numRects ≤ d.boxes.length

lemma length_rects (h : d.Wf) : d.rects.length = d.numRects := by
  rw [rects,List.length_take,min_eq_left h]

lemma getElem?_boxes {i : ℕ} (h : i < d.numRects) : d.boxes[i]? = d.rects[i]? := by
  rw [rects,List.getElem?_take_of_lt h]

lemma rectAlloc_spec (h : d.Wf) (n : ℕ) : (d.rectAlloc n).rects = d.rects ∧
    (d.rectAlloc n).numRects = d.numRects ∧ d.numRects + n ≤ (d.rectAlloc n).boxes.length := by
  unfold Wf at h
  unfold rectAlloc
  split_ifs with hs
  · unfold realloc size at *
    by_cases h0 : d.boxes.length = 0
    · have hn : d.numRects = 0 := by omega
      simp [h0,hn,rects]
    · simp only [h0,if_false]
      generalize hm : (if n = 1 then (if d.numRects > 500 then 250 else d.numRects) else n) = m
      have hmn : n ≤ m := by
        rw [← hm]
        split_ifs <;> omega
      refine ⟨?_,trivial,?_⟩
      · rw [rects,rects]
        dsimp only
        rw [List.take_append_of_le_length (by rw [List.length_take]; omega),List.take_take,
          min_eq_left (by omega)]
      · simp only [List.length_append,List.length_take,List.length_replicate]
        omega
  · unfold size at hs
    exact ⟨rfl,rfl,by omega⟩

lemma addRect_spec (h : d.numRects < d.boxes.length) (b : Box) :
    (d.addRect b).rects = d.rects ++ [b] ∧ (d.addRect b).Wf := by
  refine ⟨?_,by simpa [Wf,addRect] using h⟩
  rw [rects,addRect]
  dsimp only
  rw [List.take_add_one,List.take_set_of_le (le_refl _),List.getElem?_set_self h]
  rfl

lemma newRect_spec (h : d.Wf) (b : Box) :
    (d.newRect b).rects = d.rects ++ [b] ∧ (d.newRect b).Wf := by
  obtain ⟨h₁,h₂,h₃⟩ := rectAlloc_spec h 1
  rw [← h₁]
  exact addRect_spec (by omega) b

lemma foldl_addRect_spec (r : List Box) (f : Box → Box) (h : d.numRects + r.length ≤ d.boxes.length) :
    (r.foldl (fun d b => d.addRect (f b)) d).rects = d.rects ++ r.map f ∧
      (r.foldl (fun d b => d.addRect (f b)) d).Wf := by
  induction r generalizing d with
  | nil => exact ⟨by simp,by simpa [Wf] using h⟩
  | cons b r ih =>
    simp only [List.length_cons] at h
    obtain ⟨h₁,_⟩ := addRect_spec (d := d) (by omega) (f b)
    obtain ⟨h₃,h₄⟩ := ih (d := d.addRect (f b)) (by simp [addRect]; omega)
    rw [h₁] at h₃
    exact ⟨by rw [List.foldl_cons,h₃]; simp,h₄⟩

lemma appendNonO_spec (h : d.Wf) (r : List Box) (y1 y2 : ℤ) :
    (d.appendNonO r y1 y2).rects = d.rects ++ r.map (fun b => ⟨b.x1,y1,b.x2,y2⟩) ∧
      (d.appendNonO r y1 y2).Wf := by
  obtain ⟨h₁,h₂,h₃⟩ := rectAlloc_spec h r.length
  rw [← h₁]
  exact foldl_addRect_spec r (fun b => ⟨b.x1,y1,b.x2,y2⟩) (by omega)

lemma appendRegions_spec (h : d.Wf) (r : List Box) :
    (d.appendRegions r).rects = d.rects ++ r ∧ (d.appendRegions r).Wf := by
  unfold appendRegions
  split_ifs with hr
  · simpa [hr] using h
  · obtain ⟨h₁,h₂,h₃⟩ := rectAlloc_spec h r.length
    rw [← h₁]
    simpa using foldl_addRect_spec (d := d.rectAlloc r.length) r id (by omega)

end RegData

def boxesOfBand (b : Band) : List Box := b.spans.map (fun s => ⟨s.1,b.y1,s.2,b.y2⟩)

def boxesOf (l : List Band) : List Box := l.flatMap boxesOfBand

@[simp] lemma boxesOf_nil : boxesOf [] = [] := rfl

@[simp] lemma boxesOf_cons (b : Band) (l : List Band) : boxesOf (b::l) = boxesOfBand b ++ boxesOf l :=
  rfl

@[simp] lemma boxesOf_append (l m : List Band) : boxesOf (l ++ m) = boxesOf l ++ boxesOf m := by
  simp [boxesOf]

@[simp] lemma length_boxesOfBand (b : Band) : (boxesOfBand b).length = b.spans.length := by
  simp [boxesOfBand]

def lastStart (l : List Band) : ℕ := (boxesOf l.dropLast).length

@[simp] lemma lastStart_concat (l : List Band) (b : Band) : lastStart (l ++ [b]) = (boxesOf l).length := by
  simp [lastStart]

lemma sameSpans_iff (boxes : List Box) (prev cur n : ℕ) : RegData.sameSpans boxes prev cur n = true ↔
    ∀ i < n, (boxes.getD (prev+i) emptyBox).x1 = (boxes.getD (cur+i) emptyBox).x1 ∧
      (boxes.getD (prev+i) emptyBox).x2 = (boxes.getD (cur+i) emptyBox).x2 := by
  induction n generalizing prev cur with
  | zero => simp [RegData.sameSpans]
  | succ n ih =>
    have hshift : (∀ i < n+1, (boxes.getD (prev+i) emptyBox).x1 = (boxes.getD (cur+i) emptyBox).x1 ∧
        (boxes.getD (prev+i) emptyBox).x2 = (boxes.getD (cur+i) emptyBox).x2) ↔
        ((boxes.getD prev emptyBox).x1 = (boxes.getD cur emptyBox).x1 ∧
          (boxes.getD prev emptyBox).x2 = (boxes.getD cur emptyBox).x2) ∧
        ∀ i < n, (boxes.getD (prev+1+i) emptyBox).x1 = (boxes.getD (cur+1+i) emptyBox).x1 ∧
          (boxes.getD (prev+1+i) emptyBox).x2 = (boxes.getD (cur+1+i) emptyBox).x2 := by
      constructor
      · intro h
        refine ⟨h 0 (by omega),fun i hi => ?_⟩
        have := h (i+1) (by omega)
        rwa [show prev+(i+1) = prev+1+i by omega,show cur+(i+1) = cur+1+i by omega] at this
      · rintro ⟨h0,h⟩ i hi
        cases i with
        | zero => exact h0
        | succ i =>
          rw [show prev+(i+1) = prev+1+i by omega,show cur+(i+1) = cur+1+i by omega]
          exact h i (by omega)
    rw [hshift]
    simp only [RegData.sameSpans]
    split_ifs with hc
    · simp only [false_iff]
      rintro ⟨⟨h₁,h₂⟩,_⟩
      rcases hc with hc | hc
      · exact hc h₁
      · exact hc h₂
    · push Not at hc
      rw [ih]
      exact ⟨fun h => ⟨hc,h⟩,fun h => h.2⟩

lemma setBottoms_getElem? (y2 : ℤ) (prev n : ℕ) (boxes : List Box) (i : ℕ) :
    (RegData.setBottoms y2 prev n boxes)[i]? =
      if prev ≤ i ∧ i < prev+n then boxes[i]?.map (fun b => { b with y2 := y2 }) else boxes[i]? := by
  induction n generalizing boxes with
  | zero => simp [RegData.setBottoms]
  | succ n ih =>
    rw [RegData.setBottoms,ih,List.getElem?_modify]
    by_cases hi : prev+n = i
    · subst i
      simp
    · simp only [hi,if_false]
      have : (prev ≤ i ∧ i < prev+n) ↔ (prev ≤ i ∧ i < prev+(n+1)) := by omega
      simp only [this]
      cases boxes[i]? <;> simp

lemma getD_band (pre : List Box) (b : Band) (post : List Box) (i : ℕ) (h : i < b.spans.length) :
    (pre ++ (boxesOfBand b ++ post)).getD (pre.length+i) emptyBox =
      ⟨b.spans[i].1,b.y1,b.spans[i].2,b.y2⟩ := by
  rw [List.getD_eq_getElem?_getD,List.getElem?_append_right (by omega),Nat.add_sub_cancel_left,
    List.getElem?_append_left (by simpa using h)]
  simp [boxesOfBand,h]

lemma setBottoms_band (pre : List Box) (a : Band) (post : List Box) (y2 : ℤ) :
    RegData.setBottoms y2 pre.length a.spans.length (pre ++ (boxesOfBand a ++ post)) =
      pre ++ (boxesOfBand { a with y2 := y2 } ++ post) := by
  apply List.ext_getElem?
  intro i
  rw [setBottoms_getElem?]
  rcases lt_or_ge i pre.length with hi | hi
  · rw [if_neg (by omega),List.getElem?_append_left hi,List.getElem?_append_left hi]
  · obtain ⟨j,rfl⟩ := Nat.exists_eq_add_of_le hi
    rw [List.getElem?_append_right hi,List.getElem?_append_right hi,Nat.add_sub_cancel_left]
    rcases lt_or_ge j a.spans.length with hj | hj
    · rw [if_pos (by omega),List.getElem?_append_left (by simpa using hj),
        List.getElem?_append_left (by simpa using hj)]
      simp [boxesOfBand,hj]
    · rw [if_neg (by omega),List.getElem?_append_right (by simpa using hj),
        List.getElem?_append_right (by simpa using hj)]
      simp

lemma sameSpans_bands (pre : List Box) (a c : Band) (post : List Box)
    (hlen : a.spans.length = c.spans.length) :
    RegData.sameSpans (pre ++ (boxesOfBand a ++ (boxesOfBand c ++ post))) pre.length
      (pre.length+a.spans.length) a.spans.length = true ↔ a.spans = c.spans := by
  have hc : ∀ i (hi : i < a.spans.length),
      (pre ++ (boxesOfBand a ++ (boxesOfBand c ++ post))).getD (pre.length+a.spans.length+i) emptyBox =
        ⟨(c.spans[i]).1,c.y1,(c.spans[i]).2,c.y2⟩ := by
    intro i hi
    have h := getD_band (pre ++ boxesOfBand a) c post i (by omega)
    rwa [List.append_assoc,List.length_append,length_boxesOfBand] at h
  rw [sameSpans_iff]
  constructor
  · intro h
    refine List.ext_getElem hlen fun i h₁ h₂ => ?_
    have hi := h i h₁
    rw [getD_band pre a _ i h₁,hc i h₁] at hi
    exact Prod.ext hi.1 hi.2
  · intro h i hi
    rw [getD_band pre a _ i hi,hc i hi]
    simp [h]

/-- The coalescing step adds the last band of the array to the banded list before it. Entries
beyond those in use are left alone. -/
theorem coalesce_spec (d : RegData) (hd : d.Wf) (l : List Band) (c : Band) (hc : c.spans ≠ [])
    (hl : ∀ b ∈ l, b.spans ≠ []) (hr : d.rects = boxesOf l ++ boxesOfBand c) :
    (d.coalesce (lastStart l) (boxesOf l).length).1.rects = boxesOf (appendBand l c) ∧
    (d.coalesce (lastStart l) (boxesOf l).length).1.Wf ∧
    (d.coalesce (lastStart l) (boxesOf l).length).2 = lastStart (appendBand l c) ∧
    (d.coalesce (lastStart l) (boxesOf l).length).1.boxes.length = d.boxes.length ∧
    (d.coalesce (lastStart l) (boxesOf l).length).1.numRects ≤ d.numRects ∧
    ∀ i, d.numRects ≤ i →
      (d.coalesce (lastStart l) (boxesOf l).length).1.boxes[i]? = d.boxes[i]? := by
  have hnum : d.numRects = (boxesOf l).length + c.spans.length := by
    rw [← RegData.length_rects hd,hr,List.length_append,length_boxesOfBand]
  have hclen : 0 < c.spans.length := List.length_pos_iff.mpr hc
  have hkeep : ∀ p, p = (d,(boxesOf l).length) → boxesOf l ++ boxesOfBand c = boxesOf (appendBand l c) →
      (boxesOf l).length = lastStart (appendBand l c) →
      p.1.rects = boxesOf (appendBand l c) ∧ p.1.Wf ∧ p.2 = lastStart (appendBand l c) ∧
      p.1.boxes.length = d.boxes.length ∧ p.1.numRects ≤ d.numRects ∧
      ∀ i, d.numRects ≤ i → p.1.boxes[i]? = d.boxes[i]? := by
    rintro p rfl h₁ h₂
    exact ⟨hr.trans h₁,hd,h₂,rfl,le_rfl,fun _ _ => rfl⟩
  cases l using List.reverseRecOn with
  | nil =>
    refine hkeep _ ?_ (by simp [appendBand]) (by simp [appendBand,lastStart])
    rw [RegData.coalesce,if_neg]
    simp [lastStart,hnum]
    omega
  | append_singleton l a =>
    have halen : 0 < a.spans.length := List.length_pos_iff.mpr (hl a (by simp))
    simp only [boxesOf_append,boxesOf_cons,boxesOf_nil,List.append_nil,lastStart_concat,
      List.length_append,length_boxesOfBand] at hnum hkeep hr ⊢
    have hsep : ¬ Mergeable a c → ∀ p, p = (d,(boxesOf l).length + a.spans.length) →
        p.1.rects = boxesOf (appendBand (l ++ [a]) c) ∧ p.1.Wf ∧
        p.2 = lastStart (appendBand (l ++ [a]) c) ∧ p.1.boxes.length = d.boxes.length ∧
        p.1.numRects ≤ d.numRects ∧ ∀ i, d.numRects ≤ i → p.1.boxes[i]? = d.boxes[i]? := by
      intro hm p hp
      rw [appendBand_concat,if_neg hm] at hkeep ⊢
      refine hkeep p hp (by simp) ?_
      rw [List.append_cons,lastStart_concat]
      simp
    unfold RegData.coalesce
    by_cases hlen : a.spans.length = c.spans.length
    · have hboxes : d.boxes = boxesOf l ++ (boxesOfBand a ++ (boxesOfBand c ++ d.boxes.drop d.numRects)) := by
        conv_lhs => rw [← List.take_append_drop d.numRects d.boxes]
        rw [show d.boxes.take d.numRects = d.rects from rfl,hr]
        simp
      have hprev := getD_band (boxesOf l) a (boxesOfBand c ++ d.boxes.drop d.numRects) 0 halen
      have hcur := getD_band (boxesOf l ++ boxesOfBand a) c (d.boxes.drop d.numRects) 0 hclen
      rw [List.append_assoc,← hboxes,List.length_append,length_boxesOfBand,Nat.add_zero] at hcur
      rw [← hboxes,Nat.add_zero] at hprev
      have hsame := sameSpans_bands (boxesOf l) a c (d.boxes.drop d.numRects) hlen
      rw [← hboxes] at hsame
      rw [if_pos (by omega),RegData.regionCoalesce]
      simp only [RegData.box,hprev,hcur,Nat.add_sub_cancel_left,halen.ne',if_false]
      by_cases hy : a.y2 = c.y1
      · rw [if_neg (not_not.mpr hy)]
        by_cases hs : a.spans = c.spans
        · have hset := setBottoms_band (boxesOf l) a (boxesOfBand c ++ d.boxes.drop d.numRects) c.y2
          rw [← hboxes] at hset
          rw [if_pos (hsame.mpr hs),hset,appendBand_concat,if_pos ⟨hy,hs⟩]
          have hlen' : (boxesOf l ++ (boxesOfBand { a with y2 := c.y2 } ++
              (boxesOfBand c ++ d.boxes.drop d.numRects))).length = d.boxes.length := by
            conv_rhs => rw [hboxes]
            simp
          refine ⟨?_,?_,by simp,hlen',by simp,fun i hi => ?_⟩
          · rw [RegData.rects]
            dsimp only
            rw [← List.append_assoc,List.take_left' (by simp; omega)]
            simp
          · unfold RegData.Wf at hd ⊢
            dsimp only
            rw [hlen']
            omega
          · have hbehind : ∀ e : Band, e.spans.length = a.spans.length →
                (boxesOf l ++ (boxesOfBand e ++ (boxesOfBand c ++ d.boxes.drop d.numRects)))[i]? =
                  (boxesOfBand c ++ d.boxes.drop d.numRects)[i-(boxesOf l).length-a.spans.length]? := by
              intro e he
              rw [List.getElem?_append_right (by omega),
                List.getElem?_append_right (by rw [length_boxesOfBand]; omega),length_boxesOfBand,he]
            have hi' := hbehind a rfl
            rw [← hboxes] at hi'
            rw [hi']
            exact hbehind { a with y2 := c.y2 } rfl
        · rw [if_neg (fun h => hs (hsame.mp h))]
          exact hsep (fun hm => hs hm.2) _ rfl
      · rw [if_pos hy]
        exact hsep (fun hm => hy hm.1) _ rfl
    · rw [if_neg (by omega)]
      exact hsep (fun hm => hlen (by rw [hm.2])) _ rfl

end Xlibre.Dix.Region
