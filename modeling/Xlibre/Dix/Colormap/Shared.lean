import Xlibre.Dix.Colormap.Reach

/-! Shared colours: how many cells refer to each record, and that freeing and copying cells keep the
reference counts of the records right. -/
namespace Xlibre.Dix.Colormap

open Xlibre.Lib.Submasks Xlibre.Lib.Tally

variable {n : ℕ}

/-- The three pointers of a shared cell. -/
inductive Hue
  | red | green | blue
deriving DecidableEq

def Shco.at (s : Shco) : Hue → ℕ
  | .red => s.red
  | .green => s.green
  | .blue => s.blue

/-- Does a cell refer to the record at `a` for this colour? -/
def refers (x : Hue) (a : ℕ) (e : Entry) : Bool := e.fShared && decide (e.shco.at x = a)

lemma refers_of_not_shared {e : Entry} (h : e.fShared = false) (x : Hue) (a : ℕ) : refers x a e = false := by
  simp [refers,h]

/-- How many cells of a table refer to a record. -/
def refs (size : ℕ) (cells : ℕ → Entry) (x : Hue) (a : ℕ) : ℕ := tally size cells (refers x a)

lemma refs_eq_zero {size : ℕ} {cells : ℕ → Entry} (h : ∀ i < size, (cells i).fShared = false) (x : Hue) (a : ℕ) :
    refs size cells x a = 0 := by
  unfold refs tally
  refine Finset.sum_eq_zero fun i hi => ?_
  rw [refers_of_not_shared (h i (Finset.mem_range.mp hi))]
  rfl

/-- Each record counts its references, all of one colour, and there are some; addresses without a record are
not referred to. -/
structure HeapOk (h : Heap) (R : Hue → ℕ → ℕ) : Prop where
  live : ∀ a c, h.recs a = some c → c.refcnt < 2^15 ∧ ∃ x, c.refcnt = R x a ∧ 0 < R x a ∧ ∀ y, y ≠ x → R y a = 0
  dead : ∀ a, h.recs a = none → ∀ x, R x a = 0
  unused : ∀ a, h.next ≤ a → h.recs a = none

lemma HeapOk.congr {h : Heap} {R R' : Hue → ℕ → ℕ} (hh : HeapOk h R) (hR : ∀ x a, R x a = R' x a) : HeapOk h R' := by
  have : R = R' := funext fun x => funext (hR x)
  exact this ▸ hh

lemma HeapOk.release {h : Heap} {R : Hue → ℕ → ℕ} (hh : HeapOk h R) (x : Hue) (p : ℕ) (R' : Hue → ℕ → ℕ) (hp : R x p = R' x p+1)
    (hother : ∀ y a, ¬ (y = x ∧ a = p) → R y a = R' y a) : HeapOk (h.release p) R' := by
  cases hrec : h.recs p with
  | none =>
    have := hh.dead p hrec x
    omega
  | some c =>
    obtain ⟨hlt,z,hcount,hpos,hzero⟩ := hh.live p c hrec
    have hzx : z = x := by
      by_contra hne
      have := hzero x (Ne.symm hne)
      omega
    subst hzx
    have hshort : toShort (c.refcnt-1) = c.refcnt-1 := toShort_of_bounds (by omega) (by omega)
    have hR' : ∀ y, y ≠ z → R' y p = 0 := fun y hy => by
      rw [← hother y p fun hcon => hy hcon.1]
      exact hzero y hy
    simp only [Heap.release,hrec,hshort]
    refine ⟨fun a c' hc' => ?_,fun a ha y => ?_,fun a ha => ?_⟩
    · dsimp only at hc'
      by_cases hap : a = p
      · subst hap
        rw [Function.update_self] at hc'
        split_ifs at hc' with hk
        obtain rfl := Option.some.inj hc'
        dsimp only
        exact ⟨by omega,z,by omega,by omega,hR'⟩
      · rw [Function.update_of_ne hap] at hc'
        obtain ⟨h₁,y,h₂,h₃,h₄⟩ := hh.live a c' hc'
        have hsame : ∀ y, R y a = R' y a := fun y => hother y a fun hcon => hap hcon.2
        refine ⟨h₁,y,?_,?_,fun w hw => ?_⟩
        · rw [← hsame]
          exact h₂
        · rw [← hsame]
          exact h₃
        · rw [← hsame]
          exact h₄ w hw
    · dsimp only at ha
      by_cases hap : a = p
      · subst hap
        rw [Function.update_self] at ha
        split_ifs at ha with hk
        by_cases hy : y = z
        · subst hy
          omega
        · exact hR' y hy
      · rw [Function.update_of_ne hap] at ha
        rw [← hother y a fun hcon => hap hcon.2]
        exact hh.dead a ha y
    · dsimp only at ha ⊢
      have hap : a ≠ p := by
        rintro rfl
        rw [hh.unused a ha] at hrec
        simp at hrec
      rw [Function.update_of_ne hap]
      exact hh.unused a ha

lemma HeapOk.release_cell {h : Heap} {Q : Hue → ℕ → ℕ} (s : Shco)
    (hh : HeapOk h fun x a => Q x a+if a = s.at x then 1 else 0) :
    HeapOk (((h.release s.red).release s.green).release s.blue) Q := by
  have hred := hh.release .red s.red (fun x a => Q x a+if x = .red then 0 else if a = s.at x then 1 else 0)
    (by simp [Shco.at]) (by
      intro y a hya
      cases y with
      | red =>
        have ha : a ≠ s.red := fun ha => hya ⟨rfl,ha⟩
        simp [Shco.at,ha]
      | green => simp
      | blue => simp)
  have hgreen := hred.release .green s.green (fun x a => Q x a+if x = .blue then if a = s.at x then 1 else 0 else 0)
    (by simp [Shco.at]) (by
      intro y a hya
      cases y with
      | red => simp
      | green =>
        have ha : a ≠ s.green := fun ha => hya ⟨rfl,ha⟩
        simp [Shco.at,ha]
      | blue => simp)
  refine hgreen.release .blue s.blue Q (by simp [Shco.at]) ?_
  intro y a hya
  cases y with
  | red => simp
  | green => simp
  | blue =>
    have ha : a ≠ s.blue := fun ha => hya ⟨rfl,ha⟩
    simp [Shco.at,ha]

section Cell

variable {h : Heap} {size : ℕ} {s : SubMap n} {T : Hue → ℕ → ℕ}

lemma HeapOk.freeCell (hh : HeapOk h fun x a => T x a+refs size s.cells x a) {i : ℕ} (hi : i < size) :
    HeapOk (freeCell h s i).1 fun x a => T x a+refs size (Colormap.freeCell h s i).2.cells x a := by
  simp only [Colormap.freeCell]
  by_cases hr : (s.cells i).refcnt > 1
  · rw [if_pos hr]
    refine hh.congr fun x a => ?_
    have := tally_update s.cells (refers x a) hi { s.cells i with refcnt := toShort ((s.cells i).refcnt-1) }
    simp only [refers] at this
    simp only [refs,SubMap.setCell]
    omega
  rw [if_neg hr]
  have hnew : ∀ x a, refs size (Function.update s.cells i { s.cells i with refcnt := 0, fShared := false }) x a+
      (refers x a (s.cells i)).toNat = refs size s.cells x a := by
    intro x a
    have := tally_update s.cells (refers x a) hi { s.cells i with refcnt := 0, fShared := false }
    rw [show refers x a { s.cells i with refcnt := 0,fShared := false } = false from rfl] at this
    simpa [refs] using this
  cases hf : (s.cells i).fShared with
  | false =>
    refine hh.congr fun x a => ?_
    have := hnew x a
    rw [refers_of_not_shared hf] at this
    simp only [SubMap.setCell]
    simp only [Bool.toNat_false] at this
    omega
  | true =>
    have hone : ∀ x a, (refers x a (s.cells i)).toNat = if a = (s.cells i).shco.at x then 1 else 0 := by
      intro x a
      simp only [refers,hf,Bool.true_and]
      by_cases ha : (s.cells i).shco.at x = a
      · simp [ha]
      · simp [ha,Ne.symm ha]
    refine HeapOk.release_cell (s.cells i).shco (hh.congr fun x a => ?_)
    have := hnew x a
    rw [hone] at this
    rw [← this,← Nat.add_assoc]
    rfl

/-- The shared colours of a table: records count right, together with the references `T` from elsewhere, and
only private cells are shared. -/
structure SharedOk (T : Hue → ℕ → ℕ) (size : ℕ) (h : Heap) (cells : ℕ → Entry) : Prop where
  heap : HeapOk h fun x a => T x a+refs size cells x a
  own : ∀ i < size, (cells i).fShared = true → (cells i).refcnt = allocPrivate

lemma SharedOk.freeCell (hs : SharedOk T size h s.cells) {i : ℕ} (hi : i < size) :
    SharedOk T size (freeCell h s i).1 (Colormap.freeCell h s i).2.cells := by
  refine ⟨hs.heap.freeCell hi,fun j hj hf => ?_⟩
  revert hf
  simp only [Colormap.freeCell]
  split_ifs with hr
  · by_cases hji : j = i
    · subst hji
      simp only [SubMap.setCell,Function.update_self]
      intro hf
      have := hs.own j hj hf
      simp only [allocPrivate] at this
      omega
    · simp only [SubMap.setCell,Function.update_of_ne hji]
      exact hs.own j hj
  all_goals
    by_cases hji : j = i
    · subst hji
      simp [SubMap.setCell]
    · simp only [SubMap.setCell,Function.update_of_ne hji]
      exact hs.own j hj

lemma SharedOk.freeCells (hs : SharedOk T size h s.cells) (l : List ℕ) (hl : ∀ i ∈ l, i < size) :
    SharedOk T size (l.foldl (fun r i => Colormap.freeCell r.1 r.2 i) (h,s)).1
      (l.foldl (fun r i => Colormap.freeCell r.1 r.2 i) (h,s)).2.cells := by
  induction l generalizing h s with
  | nil => exact hs
  | cons i l ih => exact ih (hs.freeCell (hl i (by simp))) fun j hj => hl j (by simp [hj])

lemma SharedOk.freePixelsOf (hs : SharedOk T size h s.cells) (client : Fin n) (hl : ∀ i ∈ s.pixels client, i < size) :
    SharedOk T size (freePixelsOf true client h s).1 (Colormap.freePixelsOf true client h s).2.cells :=
  hs.freeCells (s.pixels client) hl

lemma SharedOk.freeCo {pmap : ColormapRec n} (ch : Channel)
    (hs : SharedOk T (pmap.visual.numEntries ch) h (pmap.sub ch).cells) (client : Fin n) (pixIn : List ℕ) (mask : ℕ) :
    SharedOk T (pmap.visual.numEntries ch) (freeCo h pmap client ch pixIn mask).2.1
      ((freeCo h pmap client ch pixIn mask).2.2.sub ch).cells := by
  rw [Colormap.freeCo]
  split
  · exact hs
  have hpixel : ∀ (st : FreeCoState n) (bits p : ℕ), SharedOk T (pmap.visual.numEntries ch) st.heap st.sub.cells →
      SharedOk T (pmap.visual.numEntries ch) (freeCoPixel pmap.visual ch bits st p).heap
        (freeCoPixel pmap.visual ch bits st p).sub.cells := by
    intro st bits p hst
    simp only [freeCoPixel]
    by_cases hbad : ((p ||| bits) &&& pmap.visual.mask ch) >>> pmap.visual.offset ch ≥ pmap.visual.numEntries ch ∨
        p &&& (if ch = .pseudoMap then 0 else allOnes ^^^ pmap.visual.rgbMask) ≠ 0
    · rw [if_pos hbad]
      exact hst
    · rw [if_neg hbad]
      push Not at hbad
      split
      · cases pmap.visual.cls.dynamic with
        | false => exact hst
        | true => exact hst.freeCell hbad.1
      · exact hst
  have hpass : ∀ (bits : ℕ) (l : List ℕ) (st : FreeCoState n),
      SharedOk T (pmap.visual.numEntries ch) st.heap st.sub.cells →
      SharedOk T (pmap.visual.numEntries ch) (l.foldl (freeCoPixel pmap.visual ch bits) st).heap
        (l.foldl (freeCoPixel pmap.visual ch bits) st).sub.cells := by
    intro bits l
    induction l with
    | nil => exact fun _ h => h
    | cons p l ih => exact fun st hst => ih _ (hpixel st bits p hst)
  have hall : ∀ (l : List ℕ) (st : FreeCoState n), SharedOk T (pmap.visual.numEntries ch) st.heap st.sub.cells →
      SharedOk T (pmap.visual.numEntries ch)
        (l.foldl (fun st bits => pixIn.foldl (freeCoPixel pmap.visual ch bits) st) st).heap
        (l.foldl (fun st bits => pixIn.foldl (freeCoPixel pmap.visual ch bits) st) st).sub.cells := by
    intro l
    induction l with
    | nil => exact fun _ h => h
    | cons bits l ih => exact fun st hst => ih _ (hpass bits pixIn st hst)
  have hend := hall (submasks 32 mask) ⟨h,pmap.sub ch,(pmap.sub ch).pixels client,0,.success⟩ hs
  have hsub : ∀ s : SubMap n, ((pmap.setSub s ch).sub ch).cells = s.cells := by
    intro s
    cases ch <;> rfl
  dsimp only
  rw [hsub]
  split_ifs
  · exact hend
  · exact hend

end Cell

section Copy

variable {size : ℕ} {T : Hue → ℕ → ℕ}

lemma refs_update (cells : ℕ → Entry) {i : ℕ} (hi : i < size) (e : Entry) (x : Hue) (a : ℕ) :
    refs size (Function.update cells i e) x a+(refers x a (cells i)).toNat =
      refs size cells x a+(refers x a e).toNat := tally_update cells (refers x a) hi e

lemma refs_update_plain {cells : ℕ → Entry} {i : ℕ} (hi : i < size) {e : Entry} (hold : (cells i).fShared = false)
    (hnew : e.fShared = false) (x : Hue) (a : ℕ) : refs size (Function.update cells i e) x a = refs size cells x a := by
  have := refs_update cells hi e x a
  rw [refers_of_not_shared hold,refers_of_not_shared hnew] at this
  simpa using this

lemma own_update {cells : ℕ → Entry} (hown : ∀ i < size, (cells i).fShared = true → (cells i).refcnt = allocPrivate)
    {i : ℕ} {e : Entry} (he : e.fShared = true → e.refcnt = allocPrivate) :
    ∀ j < size, (Function.update cells i e j).fShared = true → (Function.update cells i e j).refcnt = allocPrivate := by
  intro j hj
  by_cases hji : j = i
  · rw [hji,Function.update_self]
    exact he
  · rw [Function.update_of_ne hji]
    exact hown j hj

structure CopyShared (T : Hue → ℕ → ℕ) (size : ℕ) (st : CopyState n) : Prop where
  heap : HeapOk st.heap fun x a => T x a+refs size st.src.cells x a+refs size st.dst.cells x a
  src : ∀ i < size, (st.src.cells i).fShared = true → (st.src.cells i).refcnt = allocPrivate
  dst : ∀ i < size, (st.dst.cells i).fShared = true → (st.dst.cells i).refcnt = allocPrivate

lemma CopyShared.freeCell (st : CopyState n) (h : CopyShared T size st) {i : ℕ} (hi : i < size) :
    CopyShared T size { st with heap := (freeCell st.heap st.src i).1, src := (Colormap.freeCell st.heap st.src i).2 } := by
  have hs : SharedOk (fun x a => T x a+refs size st.dst.cells x a) size st.heap st.src.cells :=
    ⟨h.heap.congr fun x a => by omega,h.src⟩
  have hfree := hs.freeCell hi
  exact ⟨hfree.heap.congr fun x a => by dsimp only; omega,hfree.own,h.dst⟩

lemma CopyShared.step {st : CopyState n} (h : CopyShared T size st) {i : ℕ} (hi : i < size)
    (hne : (st.dst.cells i).refcnt ≠ allocPrivate) : CopyShared T size (copyPixel st i) := by
  have hdst : (st.dst.cells i).fShared = false := by
    cases hf : (st.dst.cells i).fShared with
    | false => rfl
    | true => exact absurd (h.dst i hi hf) hne
  simp only [copyPixel]
  split_ifs with hd hs
  · refine CopyShared.freeCell { st with dst := st.dst.setCell i _ } ⟨?_,h.src,own_update h.dst ?_⟩ hi
    · refine h.heap.congr fun x a => ?_
      have hsame := refs_update_plain hi hdst (e := { st.dst.cells i with
        refcnt := toShort ((st.dst.cells i).refcnt+1) }) hdst x a
      simp only [SubMap.setCell,hsame]
    · exact fun hf => by simp [hdst] at hf
  · have hsrc : (st.src.cells i).fShared = false := by
      cases hf : (st.src.cells i).fShared with
      | false => rfl
      | true =>
        have := h.src i hi hf
        simp only [allocPrivate] at this
        omega
    refine CopyShared.freeCell { st with dst := st.dst.setCell i _, nalloc := st.nalloc+1 }
      ⟨?_,h.src,own_update h.dst ?_⟩ hi
    · refine h.heap.congr fun x a => ?_
      have hsame := refs_update_plain hi hdst (e := { st.src.cells i with refcnt := 1 }) hsrc x a
      simp only [SubMap.setCell,hsame]
    · exact fun hf => by simp [hsrc] at hf
  · -- The shared colours go with the cell.
    refine CopyShared.freeCell { st with src := st.src.setCell i _, dst := st.dst.setCell i _, nalloc := st.nalloc+1 }
      ⟨?_,own_update h.src ?_,own_update h.dst ?_⟩ hi
    · refine h.heap.congr fun x a => ?_
      have h₁ := refs_update st.src.cells hi { st.src.cells i with fShared := false } x a
      have h₂ := refs_update st.dst.cells hi (st.src.cells i) x a
      rw [refers_of_not_shared (e := { st.src.cells i with fShared := false }) rfl] at h₁
      rw [refers_of_not_shared hdst] at h₂
      simp only [SubMap.setCell]
      simp only [Bool.toNat_false] at h₁ h₂
      omega
    · exact fun hf => by simp at hf
    · exact h.src i hi

lemma CopyShared.run {src dst : SubMap n} (hs : SubInv false size src) (rest : List ℕ) {done : List ℕ} {st : CopyState n}
    (hc : CopyInv false size src dst done st) (h : CopyShared T size st) (hrest : ∀ i ∈ rest, i < size)
    (hcount : ∀ i, (done ++ rest).count i ≤ occ src i) : CopyShared T size (rest.foldl copyPixel st) := by
  induction rest generalizing done st with
  | nil => exact h
  | cons i rest ih =>
    have hi := hcount i
    rw [List.count_append,List.count_cons_self] at hi
    have hlt := hrest i (by simp)
    have hstep := hc.step hs hlt (by omega)
    have hnot : (st.dst.cells i).refcnt ≠ allocPrivate := fun hp => by
      have := hc.whole i hlt hp
      omega
    rw [List.foldl_cons]
    refine ih hstep (h.step hlt hnot) (fun j hj => hrest j (by simp [hj])) fun j => ?_
    have := hcount j
    rwa [show done ++ i::rest = done ++ [i] ++ rest by simp] at this

end Copy

section Map

variable {T : Hue → ℕ → ℕ} {pmap : ColormapRec n} {hh : Heap}

def MapShared (T : Hue → ℕ → ℕ) (hh : Heap) (pmap : ColormapRec n) : Prop :=
  SharedOk T pmap.visual.colormapEntries hh pmap.red.cells

lemma freeCo_visual (hh : Heap) (pmap : ColormapRec n) (client : Fin n) (ch : Channel) (pixIn : List ℕ) (mask : ℕ) :
    (freeCo hh pmap client ch pixIn mask).2.2.visual = pmap.visual := by
  rw [freeCo]
  split
  · rfl
  · cases ch <;> rfl

lemma freeColors_shared (hd : pmap.visual.cls.direct = false) (hs : MapShared T hh pmap) (client : Fin n)
    (pixels : List ℕ) (mask : ℕ) :
    MapShared T (freeColors hh pmap client pixels mask).2.1 (freeColors hh pmap client pixels mask).2.2 := by
  cases hflag : pmap.allAllocated with
  | true =>
    have hsame : (freeColors hh pmap client pixels mask).2 = (hh,pmap) := by simp [freeColors,hflag]
    rw [hsame]
    exact hs
  | false =>
    rw [freeColors_map_pseudo pmap hd hflag]
    have hfree := SharedOk.freeCo .pseudoMap hs client pixels (mask &&& pmap.visual.freeMask .pseudoMap)
    rw [MapShared,freeCo_visual]
    exact hfree

lemma freePixels_shared (h : MapInv false pmap) (hd : pmap.visual.cls.direct = false) (hs : MapShared T hh pmap)
    (client : Fin n) : MapShared T (freePixels hh pmap client).1 (freePixels hh pmap client).2 := by
  simp only [freePixels,hd,h.visual.dynamic]
  exact SharedOk.freePixelsOf hs client ((h.only hd).range client)

lemma copyColormapAndFree_shared (h : MapInv false pmap) (hd : pmap.visual.cls.direct = false)
    (hfull : pmap.allAllocated = true → Full pmap) (hs : MapShared T hh pmap) (client : Fin n) :
    let r := copyColormapAndFree hh pmap client
    let size := pmap.visual.colormapEntries
    HeapOk r.1 (fun x a => T x a+refs size r.2.1.red.cells x a+refs size r.2.2.red.cells x a) ∧
      (∀ i < size, (r.2.1.red.cells i).fShared = true → (r.2.1.red.cells i).refcnt = allocPrivate) ∧
      ∀ i < size, (r.2.2.red.cells i).fShared = true → (r.2.2.red.cells i).refcnt = allocPrivate := by
  dsimp only
  cases hall : (pmap.allAllocated && decide (pmap.owner = client)) with
  | true =>
    have hflag : pmap.allAllocated = true := by
      simp only [Bool.and_eq_true] at hall
      exact hall.1
    have hplain : ∀ i < pmap.visual.colormapEntries, (pmap.red.cells i).fShared = false := fun i hi =>
      ((hfull hflag).cells .pseudoMap (by simp [channels_pseudo hd]) i hi).2
    have hsrc : MapInv false { pmap with allAllocated := false } := ⟨h.visual,h.created,h.sub⟩
    have hfree := freePixels_shared hsrc hd (show MapShared T hh { pmap with allAllocated := false } from hs) client
    have hvisual := (freePixels_spec hsrc hh client).2.visual
    rw [MapShared,hvisual] at hfree
    simp only [copyColormapAndFree,hall,if_true,dixCreateColormap,hd,Bool.false_eq_true,if_false]
    have hcopy : ∀ i < pmap.visual.colormapEntries, ((if i < pmap.visual.colormapEntries then pmap.red.cells i else
        (SubMap.create pmap.visual.colormapEntries true client).cells i)).fShared = false := by
      intro i hi
      rw [if_pos hi]
      exact hplain i hi
    refine ⟨hfree.heap.congr fun x a => ?_,hfree.own,fun i hi hf => by simp [hcopy i hi] at hf⟩
    have hzero := refs_eq_zero hcopy x a
    simp only [hzero,Nat.add_zero]
  | false =>
    have hstart : CopyShared T pmap.visual.colormapEntries
        ⟨hh,pmap.red,SubMap.create pmap.visual.colormapEntries false client,0⟩ := by
      refine ⟨hs.heap.congr fun x a => ?_,hs.own,fun i _ hf => by simp [SubMap.create,emptyEntry] at hf⟩
      have hzero : refs pmap.visual.colormapEntries (SubMap.create pmap.visual.colormapEntries false client).cells x a = 0 :=
        refs_eq_zero (fun i _ => by simp [SubMap.create,emptyEntry]) x a
      simp only [hzero,Nat.add_zero]
    have hrun := hstart.run (h.only hd) (pmap.red.pixels client) (copyInv_start (h.only hd) hh client)
      ((h.only hd).range client) (by simpa using count_le_occ pmap.red client)
    simp only [copyColormapAndFree,hall,Bool.false_eq_true,if_false,dixCreateColormap,hd,h.visual.dynamic,copyFree,
      if_true]
    exact ⟨hrun.heap,hrun.src,hrun.dst⟩

end Map

end Xlibre.Dix.Colormap
