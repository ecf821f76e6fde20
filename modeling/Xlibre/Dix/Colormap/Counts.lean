import Xlibre.Dix.Colormap.Search
import Xlibre.Dix.Colormap.FindColor

/-! Reference counts, free counters and pixel lists of one cell table, and what each routine does to them. -/
namespace Xlibre.Dix.Colormap

open Xlibre.Lib.Submasks Xlibre.Lib.Tally

variable {n : ℕ} {t : Bool}

/-- How often a cell occurs in all pixel lists together. -/
def occ (s : SubMap n) (i : ℕ) : ℕ := ∑ c, (s.pixels c).count i

lemma occ_setPixels (s : SubMap n) (client : Fin n) (l : List ℕ) (i : ℕ) :
    occ (s.setPixels client l) i+(s.pixels client).count i = occ s i+l.count i :=
  sum_update Finset.univ s.pixels (fun l => l.count i) (Finset.mem_univ client) l

lemma count_le_occ (s : SubMap n) (client : Fin n) (i : ℕ) : (s.pixels client).count i ≤ occ s i :=
  Finset.single_le_sum (f := fun c => (s.pixels c).count i) (fun _ _ => Nat.zero_le _) (Finset.mem_univ client)

/-- The cells a free counter counts: empty ones and those lent to nobody. -/
def isSpare (e : Entry) : Bool := e.refcnt = 0 || e.refcnt = allocTemporary

lemma isSpare_eq_false {e : Entry} : isSpare e = false ↔ e.refcnt ≠ 0 ∧ e.refcnt ≠ -2 := by
  rw [isSpare,Bool.or_eq_false_iff,decide_eq_false_iff_not,decide_eq_false_iff_not]
  rfl

lemma isSpare_eq_true {e : Entry} : isSpare e = true ↔ e.refcnt = 0 ∨ e.refcnt = -2 := by
  rw [isSpare,Bool.or_eq_true,decide_eq_true_eq,decide_eq_true_eq]
  rfl

/-- A reference count agrees with the number of list entries; `t` allows temporary cells. -/
def CellOk (t : Bool) (r : ℤ) (k : ℕ) : Prop :=
  r < 2^15 ∧ ((r = 0 ∨ (t = true ∧ r = allocTemporary)) ∧ k = 0 ∨ r = allocPrivate ∧ k = 1 ∨ 0 < r ∧ r = k)

lemma cellOk_empty : CellOk t 0 0 := ⟨by norm_num,.inl ⟨.inl rfl,rfl⟩⟩

lemma cellOk_temporary : CellOk true allocTemporary 0 := ⟨by norm_num [allocTemporary],.inl ⟨.inr ⟨rfl,rfl⟩,rfl⟩⟩

lemma cellOk_private : CellOk t allocPrivate 1 := ⟨by norm_num [allocPrivate],.inr (.inl ⟨rfl,rfl⟩)⟩

lemma cellOk_one : CellOk t 1 1 := ⟨by norm_num,.inr (.inr ⟨by norm_num,rfl⟩)⟩

lemma toShort_of_bounds {x : ℤ} (h₁ : -2^15 ≤ x) (h₂ : x < 2^15) : toShort x = x := by
  unfold toShort
  rw [Int.bmod_def]
  omega

/-- All cells below `size` agree with the numbers given, and the counter with the cells. -/
structure Counts (t : Bool) (size : ℕ) (s : SubMap n) (k : ℕ → ℕ) : Prop where
  cell : ∀ i < size, CellOk t (s.cells i).refcnt (k i)
  free : s.free = tally size s.cells isSpare

lemma Counts.congr {size : ℕ} {s : SubMap n} {k k' : ℕ → ℕ} (h : Counts t size s k) (hk : ∀ i < size, k i = k' i) :
    Counts t size s k' := ⟨fun i hi => hk i hi ▸ h.cell i hi,h.free⟩

lemma Counts.of_eq {size : ℕ} {s s' : SubMap n} {k : ℕ → ℕ} (h : Counts t size s k) (hc : s'.cells = s.cells)
    (hf : s'.free = s.free) : Counts t size s' k := ⟨fun i hi => hc ▸ h.cell i hi,by rw [hf,hc,h.free]⟩

lemma Counts.update {size : ℕ} {s r : SubMap n} {k : ℕ → ℕ} (h : Counts t size s k) {i : ℕ} (hi : i < size) {e : Entry}
    {m : ℕ} (hcells : r.cells = Function.update s.cells i e) (hok : CellOk t e.refcnt m)
    (hfree : r.free+(isSpare (s.cells i)).toNat = s.free+(isSpare e).toNat) :
    Counts t size r (Function.update k i m) := by
  refine ⟨fun j hj => ?_,?_⟩
  · rw [hcells]
    by_cases hji : j = i
    · rw [hji,Function.update_self,Function.update_self]
      exact hok
    · rw [Function.update_of_ne hji,Function.update_of_ne hji]
      exact h.cell j hj
  · have := tally_update s.cells isSpare hi e
    have hf := h.free
    rw [hcells]
    omega

/-- The counts of a table agree with its lists, whose entries are cells of the table. -/
structure SubInv (t : Bool) (size : ℕ) (s : SubMap n) : Prop where
  counts : Counts t size s (occ s)
  range : ∀ c, ∀ x ∈ s.pixels c, x < size

section FreeCell

variable {size : ℕ} {s : SubMap n} {k : ℕ → ℕ}

@[simp] lemma freeCell_pixels (h : Heap) (s : SubMap n) (i : ℕ) : (freeCell h s i).2.pixels = s.pixels := by
  simp only [freeCell]
  split <;> rfl

lemma freeCell_cells (h : Heap) (s : SubMap n) (i : ℕ) :
    ∃ e, (freeCell h s i).2.cells = Function.update s.cells i e := by
  simp only [freeCell]
  split
  · exact ⟨_,rfl⟩
  · exact ⟨_,rfl⟩

lemma Counts.freeCell (hc : Counts t size s k) (h : Heap) {i : ℕ} (hi : i < size) (hk : 0 < k i) :
    Counts t size (freeCell h s i).2 (Function.update k i (k i-1)) := by
  have hcell := hc.cell i hi
  simp only [CellOk,allocPrivate,allocTemporary] at hcell
  have hspare : isSpare (s.cells i) = false := isSpare_eq_false.mpr (by omega)
  simp only [Colormap.freeCell]
  by_cases hr : (s.cells i).refcnt > 1
  · rw [if_pos hr]
    have hshort : toShort ((s.cells i).refcnt-1) = (s.cells i).refcnt-1 := toShort_of_bounds (by omega) (by omega)
    refine hc.update hi rfl ?_ ?_
    · simp only [CellOk,hshort,allocPrivate,allocTemporary]
      omega
    · have : isSpare { s.cells i with refcnt := toShort ((s.cells i).refcnt-1) } = false :=
        isSpare_eq_false.mpr (by simp only [hshort]; omega)
      rw [hspare,this]
      rfl
  · rw [if_neg hr]
    refine hc.update hi rfl ?_ ?_
    · rw [show k i-1 = 0 by omega]
      exact cellOk_empty
    · rw [hspare]
      simp [isSpare]

lemma Counts.freeCells (hc : Counts t size s k) (h : Heap) (l : List ℕ) (hl : ∀ i ∈ l, i < size)
    (hk : ∀ i, l.count i ≤ k i) :
    Counts t size (l.foldl (fun r i => Colormap.freeCell r.1 r.2 i) (h,s)).2 (fun i => k i-l.count i) ∧
      (l.foldl (fun r i => Colormap.freeCell r.1 r.2 i) (h,s)).2.pixels = s.pixels := by
  induction l generalizing h s k with
  | nil => exact ⟨hc,rfl⟩
  | cons i l ih =>
    have hi := hk i
    rw [List.count_cons_self] at hi
    have hstep := hc.freeCell h (hl i (by simp)) (by omega)
    obtain ⟨h₁,h₂⟩ := ih hstep (Colormap.freeCell h s i).1 (fun j hj => hl j (by simp [hj])) (fun j => by
      by_cases hj : j = i
      · rw [hj,Function.update_self]
        omega
      · have := hk j
        rw [List.count_cons_of_ne (Ne.symm hj)] at this
        rwa [Function.update_of_ne hj])
    refine ⟨h₁.congr fun j _ => ?_,?_⟩
    · by_cases hj : j = i
      · rw [hj,Function.update_self,List.count_cons_self]
        omega
      · rw [Function.update_of_ne hj,List.count_cons_of_ne (Ne.symm hj)]
    · rw [List.foldl_cons]
      exact h₂.trans (freeCell_pixels h s i)

/-- What `FreeCell` leaves of a reference count. -/
def released (r : ℤ) : ℤ := if r > 1 then r-1 else 0

lemma freeCell_refcnt (h : Heap) (s : SubMap n) (i : ℕ) (hr : (s.cells i).refcnt < 2^15) (j : ℕ) :
    ((freeCell h s i).2.cells j).refcnt = if j = i then released (s.cells i).refcnt else (s.cells j).refcnt := by
  simp only [Colormap.freeCell,released]
  by_cases hgt : (s.cells i).refcnt > 1
  · rw [if_pos hgt,if_pos hgt]
    by_cases hj : j = i
    · rw [if_pos hj,hj]
      simp only [SubMap.setCell,Function.update_self]
      exact toShort_of_bounds (by omega) (by omega)
    · rw [if_neg hj]
      simp only [SubMap.setCell,Function.update_of_ne hj]
  · rw [if_neg hgt,if_neg hgt]
    by_cases hj : j = i
    · rw [if_pos hj,hj]
      simp only [SubMap.setCell,Function.update_self]
    · rw [if_neg hj]
      simp only [SubMap.setCell,Function.update_of_ne hj]

lemma freeCell_free (h : Heap) (s : SubMap n) (i : ℕ) :
    (freeCell h s i).2.free = s.free+if (s.cells i).refcnt > 1 then 0 else 1 := by
  simp only [Colormap.freeCell]
  by_cases hgt : (s.cells i).refcnt > 1
  · rw [if_pos hgt,if_pos hgt,add_zero]
    rfl
  · rw [if_neg hgt,if_neg hgt]

lemma freeCells_refcnt (l : List ℕ) (hnd : l.Nodup) (h : Heap) (s : SubMap n)
    (hr : ∀ i ∈ l, (s.cells i).refcnt < 2^15) :
    (∀ j, ((l.foldl (fun r i => Colormap.freeCell r.1 r.2 i) (h,s)).2.cells j).refcnt =
      if j ∈ l then released (s.cells j).refcnt else (s.cells j).refcnt) ∧
    (l.foldl (fun r i => Colormap.freeCell r.1 r.2 i) (h,s)).2.free =
      s.free+(l.map fun i => if (s.cells i).refcnt > 1 then (0 : ℤ) else 1).sum := by
  induction l generalizing h s with
  | nil => simp
  | cons i l ih =>
    obtain ⟨hi,hnd'⟩ := List.nodup_cons.mp hnd
    have hcell := freeCell_refcnt h s i (hr i (by simp))
    have hother : ∀ j ∈ l, ((freeCell h s i).2.cells j).refcnt = (s.cells j).refcnt := fun j hj => by
      rw [hcell j,if_neg (by rintro rfl; exact hi hj)]
    obtain ⟨h₁,h₂⟩ := ih hnd' (freeCell h s i).1 (freeCell h s i).2 fun j hj => by
      rw [hother j hj]
      exact hr j (by simp [hj])
    refine ⟨fun j => ?_,?_⟩
    · rw [List.foldl_cons]
      refine (h₁ j).trans ?_
      by_cases hj : j ∈ l
      · rw [if_pos hj,if_pos (by simp [hj]),hother j hj]
      · rw [if_neg hj,hcell j]
        by_cases hji : j = i
        · simp [hji]
        · simp [hji,hj]
    · rw [List.foldl_cons,List.map_cons,List.sum_cons]
      refine h₂.trans ?_
      rw [freeCell_free,List.map_congr_left fun j hj => by rw [hother j hj]]
      ring

lemma SubInv.freePixelsOf (hs : SubInv t size s) (h : Heap) (client : Fin n) :
    SubInv t size (freePixelsOf true client h s).2 ∧
      (Colormap.freePixelsOf true client h s).2.pixels = Function.update s.pixels client [] := by
  obtain ⟨h₁,h₂⟩ := hs.counts.freeCells h (s.pixels client) (hs.range client) (count_le_occ s client)
  have hpix : (Colormap.freePixelsOf true client h s).2.pixels = Function.update s.pixels client [] := by
    simp only [Colormap.freePixelsOf,if_true,SubMap.setPixels,h₂]
  refine ⟨⟨?_,?_⟩,hpix⟩
  · have hcounts : Counts t size (Colormap.freePixelsOf true client h s).2 (fun i => occ s i-(s.pixels client).count i) :=
      ⟨h₁.cell,h₁.free⟩
    refine hcounts.congr fun i _ => ?_
    have hocc := occ_setPixels s client [] i
    have heq : occ (Colormap.freePixelsOf true client h s).2 i = occ (s.setPixels client []) i := by
      simp only [occ,hpix,SubMap.setPixels]
    rw [heq]
    simp only [List.count_nil] at hocc
    omega
  · intro c x hx
    rw [hpix] at hx
    by_cases hcc : c = client
    · rw [hcc,Function.update_self] at hx
      simp at hx
    · rw [Function.update_of_ne hcc] at hx
      exact hs.range c x hx

end FreeCell

section FreeCo

/-- The cell that `FreeCo` looks for, unless the pixel value is bad. -/
def target (v : Visual) (color : Channel) (bits p : ℕ) : Option ℕ :=
  let pixTest := ((p ||| bits) &&& v.mask color) >>> v.offset color
  if pixTest ≥ v.numEntries color ∨ p &&& (if color = .pseudoMap then 0 else allOnes ^^^ v.rgbMask) ≠ 0 then none
  else some pixTest

def listed (v : Visual) (color : Channel) (pixIn : List ℕ) (mask : ℕ) : List ℕ :=
  (submasks 32 mask).flatMap fun bits => pixIn.filterMap (target v color bits)

lemma filter_replace (l : List ℕ) (a : ℕ) (ha : a ≠ allOnes) :
    (l.replace a allOnes).filter (· ≠ allOnes) = (l.filter (· ≠ allOnes)).erase a := by
  induction l with
  | nil => rfl
  | cons b l ih =>
    rw [List.replace_cons]
    by_cases hab : a = b
    · subst hab
      simp [ha]
    · have hba : ¬ b = a := fun h => hab h.symm
      rw [beq_false_of_ne hab]
      by_cases hb : b = allOnes
      · rw [List.filter_cons_of_neg (by simp [hb]),List.filter_cons_of_neg (by simp [hb]),ih]
      · rw [List.filter_cons_of_pos (by simp [hb]),List.filter_cons_of_pos (by simp [hb]),ih,
          List.erase_cons_tail (by simp [hba])]

/-- `FreeCo` under way: what is left of the client's list, with the table counting just that. -/
structure FreeCoInv (t : Bool) (size : ℕ) (s : SubMap n) (client : Fin n) (left : List ℕ) (st : FreeCoState n) : Prop where
  view : st.pixClient.filter (· ≠ allOnes) = left
  zapped : left.length+st.zapped = (s.pixels client).length
  pixels : st.sub.pixels = s.pixels
  range : ∀ x ∈ left, x < size
  counts : Counts t size st.sub (fun i => occ s i-(s.pixels client).count i+left.count i)

variable {v : Visual} {color : Channel} {s : SubMap n} {client : Fin n}

lemma FreeCoInv.step (hdyn : v.cls.dynamic = true) (hsize : v.numEntries color < 2^31) {left : List ℕ}
    {st : FreeCoState n} (h : FreeCoInv t (v.numEntries color) s client left st) (bits p : ℕ) :
    FreeCoInv t (v.numEntries color) s client (left.diff (target v color bits p).toList)
      (freeCoPixel v color bits st p) := by
  simp only [freeCoPixel,target]
  by_cases hbad : ((p ||| bits) &&& v.mask color) >>> v.offset color ≥ v.numEntries color ∨
      p &&& (if color = .pseudoMap then 0 else allOnes ^^^ v.rgbMask) ≠ 0
  · rw [if_pos hbad,if_pos hbad]
    exact ⟨h.view,h.zapped,h.pixels,h.range,h.counts⟩
  rw [if_neg hbad,if_neg hbad]
  generalize ((p ||| bits) &&& v.mask color) >>> v.offset color = q at *
  have htsize : q < v.numEntries color := by omega
  have htone : q ≠ allOnes := by
    unfold allOnes
    omega
  have hmem : q ∈ st.pixClient ↔ q ∈ left := by
    rw [← h.view,List.mem_filter]
    simp [htone]
  have hdiff : left.diff (some q).toList = left.erase q := by
    rw [Option.toList_some,List.diff_cons,List.diff_nil]
  rw [hdiff]
  by_cases ht : q ∈ left
  · have hcount := List.count_pos_iff.mpr ht
    have hlen := List.length_erase_of_mem ht
    have hpos := List.length_pos_of_mem ht
    rw [if_pos (hmem.mpr ht),if_pos hdyn]
    refine ⟨?_,?_,?_,fun x hx => h.range x (List.mem_of_mem_erase hx),?_⟩
    · rw [filter_replace _ _ htone,h.view]
    · have := h.zapped
      dsimp only
      omega
    · exact (freeCell_pixels _ _ _).trans h.pixels
    · refine (h.counts.freeCell st.heap htsize (by omega)).congr fun i _ => ?_
      by_cases hi : i = q
      · rw [hi,Function.update_self,List.count_erase_self]
        omega
      · rw [Function.update_of_ne hi,List.count_erase_of_ne hi]
  · rw [if_neg (fun h' => ht (hmem.mp h')),List.erase_of_not_mem ht]
    exact ⟨h.view,h.zapped,h.pixels,h.range,h.counts⟩

lemma FreeCoInv.pass (hdyn : v.cls.dynamic = true) (hsize : v.numEntries color < 2^31) (bits : ℕ) (pixIn : List ℕ)
    {left : List ℕ} {st : FreeCoState n} (h : FreeCoInv t (v.numEntries color) s client left st) :
    FreeCoInv t (v.numEntries color) s client (left.diff (pixIn.filterMap (target v color bits)))
      (pixIn.foldl (freeCoPixel v color bits) st) := by
  induction pixIn generalizing left st with
  | nil => exact h
  | cons p pixIn ih =>
    have hcons : (p::pixIn).filterMap (target v color bits) =
        (target v color bits p).toList ++ pixIn.filterMap (target v color bits) := by
      rw [List.filterMap_cons]
      cases target v color bits p <;> rfl
    rw [List.foldl_cons,hcons,List.diff_append]
    exact ih (h.step hdyn hsize bits p)

lemma FreeCoInv.passes (hdyn : v.cls.dynamic = true) (hsize : v.numEntries color < 2^31) (all pixIn : List ℕ)
    {left : List ℕ} {st : FreeCoState n} (h : FreeCoInv t (v.numEntries color) s client left st) :
    FreeCoInv t (v.numEntries color) s client
      (left.diff (all.flatMap fun bits => pixIn.filterMap (target v color bits)))
      (all.foldl (fun st bits => pixIn.foldl (freeCoPixel v color bits) st) st) := by
  induction all generalizing left st with
  | nil => exact h
  | cons bits all ih =>
    rw [List.foldl_cons,List.flatMap_cons,List.diff_append]
    exact ih (h.pass hdyn hsize bits pixIn)

lemma freeCoPixel_frame {bits p i : ℕ} (st : FreeCoState n) (h : target v color bits p ≠ some i) :
    (freeCoPixel v color bits st p).sub.cells i = st.sub.cells i := by
  simp only [target] at h
  simp only [freeCoPixel]
  by_cases hbad : ((p ||| bits) &&& v.mask color) >>> v.offset color ≥ v.numEntries color ∨
      p &&& (if color = .pseudoMap then 0 else allOnes ^^^ v.rgbMask) ≠ 0
  · rw [if_pos hbad]
  · rw [if_neg hbad] at h ⊢
    have hne : i ≠ ((p ||| bits) &&& v.mask color) >>> v.offset color := fun hi => h (by rw [hi])
    split_ifs
    · obtain ⟨e,he⟩ := freeCell_cells st.heap st.sub (((p ||| bits) &&& v.mask color) >>> v.offset color)
      dsimp only
      rw [he,Function.update_of_ne hne]
    · rfl
    · rfl

lemma freeCo_frame (color : Channel) (i : ℕ) (all pixIn : List ℕ) (st : FreeCoState n)
    (h : i ∉ all.flatMap fun bits => pixIn.filterMap (target v color bits)) :
    (all.foldl (fun st bits => pixIn.foldl (freeCoPixel v color bits) st) st).sub.cells i = st.sub.cells i := by
  have hpass : ∀ (bits : ℕ) (l : List ℕ) (st : FreeCoState n), i ∉ l.filterMap (target v color bits) →
      (l.foldl (freeCoPixel v color bits) st).sub.cells i = st.sub.cells i := by
    intro bits l
    induction l with
    | nil => exact fun _ _ => rfl
    | cons p l ih =>
      intro st hl
      rw [List.mem_filterMap] at hl
      rw [List.foldl_cons,ih _ fun h => hl ?_]
      · exact freeCoPixel_frame st fun ht => hl ⟨p,by simp,ht⟩
      · obtain ⟨q,hq,ht⟩ := List.mem_filterMap.mp h
        exact ⟨q,by simp [hq],ht⟩
  induction all generalizing st with
  | nil => rfl
  | cons bits all ih =>
    rw [List.flatMap_cons,List.mem_append,not_or] at h
    rw [List.foldl_cons,ih _ h.2,hpass bits pixIn st h.1]

lemma setSub_sub (pmap : ColormapRec n) (color : Channel) : pmap.setSub (pmap.sub color) color = pmap := by
  cases color <;> rfl

lemma SubInv.setPixels {size : ℕ} {s s' : SubMap n} {client : Fin n} {l : List ℕ}
    (hs : SubInv t size s) (hpix : s'.pixels = Function.update s.pixels client l) (hl : ∀ x ∈ l, x < size)
    (hcounts : Counts t size s' (fun i => occ s i-(s.pixels client).count i+l.count i)) : SubInv t size s' := by
  refine ⟨hcounts.congr fun i _ => ?_,fun c x hx => ?_⟩
  · have hocc := occ_setPixels s client l i
    have hle := count_le_occ s client i
    have heq : occ s' i = occ (s.setPixels client l) i := by simp only [occ,hpix,SubMap.setPixels]
    rw [heq]
    omega
  · rw [hpix] at hx
    by_cases hc : c = client
    · rw [hc,Function.update_self] at hx
      exact hl x hx
    · rw [Function.update_of_ne hc] at hx
      exact hs.range c x hx

/-- `FreeCo` takes exactly the listed cells off the client's list and keeps the counts right. -/
theorem freeCo_spec (h : Heap) (pmap : ColormapRec n) (client : Fin n) (color : Channel) (pixIn : List ℕ) (mask : ℕ)
    (hdyn : pmap.visual.cls.dynamic = true) (hsize : pmap.visual.numEntries color < 2^31)
    (hs : SubInv t (pmap.visual.numEntries color) (pmap.sub color)) :
    ∃ s', (freeCo h pmap client color pixIn mask).2.2 = pmap.setSub s' color ∧
      SubInv t (pmap.visual.numEntries color) s' ∧
      s'.pixels = Function.update (pmap.sub color).pixels client
        (((pmap.sub color).pixels client).diff (listed pmap.visual color pixIn mask)) ∧
      ∀ i, i ∉ listed pmap.visual color pixIn mask → s'.cells i = (pmap.sub color).cells i := by
  by_cases hnil : pixIn = []
  · refine ⟨pmap.sub color,?_,hs,?_⟩
    · rw [freeCo,if_pos hnil,setSub_sub]
    · have : listed pmap.visual color pixIn mask = [] := by
        rw [listed,hnil]
        simp
      rw [this,List.diff_nil,Function.update_eq_self]
      exact ⟨rfl,fun _ _ => rfl⟩
  generalize hL : (pmap.sub color).pixels client = L
  have hone : ∀ x ∈ L, x ≠ allOnes := by
    intro x hx
    have := hs.range client x (hL ▸ hx)
    unfold allOnes
    omega
  have hstart : FreeCoInv t (pmap.visual.numEntries color) (pmap.sub color) client L
      ⟨h,pmap.sub color,(pmap.sub color).pixels client,0,.success⟩ := by
    refine ⟨?_,by simp [hL],rfl,fun x hx => hs.range client x (hL ▸ hx),hs.counts.congr fun i _ => ?_⟩
    · rw [hL]
      exact List.filter_eq_self.mpr (by simpa using hone)
    · have := count_le_occ (pmap.sub color) client i
      rw [hL] at this ⊢
      omega
  have hend := hstart.passes hdyn hsize (submasks 32 mask) pixIn
  have hframe := fun i => freeCo_frame (v := pmap.visual) color i (submasks 32 mask) pixIn
    ⟨h,pmap.sub color,(pmap.sub color).pixels client,0,.success⟩
  rw [freeCo,if_neg hnil]
  dsimp only
  generalize (submasks 32 mask).foldl _ _ = st at hend hframe
  rw [show (submasks 32 mask).flatMap (fun bits => pixIn.filterMap (target pmap.visual color bits)) =
    listed pmap.visual color pixIn mask from rfl] at hend
  have hzap := hend.zapped
  refine ⟨_,rfl,?_⟩
  by_cases hz : st.zapped ≠ 0
  · rw [if_pos hz]
    have htake : (st.pixClient.filter (· ≠ allOnes)).take (L.length-st.zapped) =
        L.diff (listed pmap.visual color pixIn mask) := by
      rw [hend.view]
      exact List.take_of_length_le (by rw [hL] at hzap; omega)
    rw [hL,htake]
    have hpix : (st.sub.setPixels client (L.diff (listed pmap.visual color pixIn mask))).pixels =
        Function.update (pmap.sub color).pixels client (L.diff (listed pmap.visual color pixIn mask)) := by
      rw [SubMap.setPixels,hend.pixels]
    exact ⟨hs.setPixels hpix hend.range (hend.counts.of_eq rfl rfl),hpix,hframe⟩
  · rw [if_neg hz]
    have hsame : L.diff (listed pmap.visual color pixIn mask) = L :=
      (List.diff_sublist _ _).eq_of_length (by rw [hL] at hzap; omega)
    have hpix : st.sub.pixels = Function.update (pmap.sub color).pixels client
        (L.diff (listed pmap.visual color pixIn mask)) := by
      rw [hsame,← hL,Function.update_eq_self,hend.pixels]
    exact ⟨hs.setPixels hpix hend.range hend.counts,hpix,hframe⟩

end FreeCo

end Xlibre.Dix.Colormap
