import Xlibre.Dix.Colormap.Counts

/-! One channel under `CopyFree`, `AllocCP` with its callers, and `FindColor`. -/
namespace Xlibre.Dix.Colormap

open Xlibre.Lib.Submasks Xlibre.Lib.Tally

variable {n : ℕ} {t : Bool}

section Create

lemma subInv_create_none (size : ℕ) (client : Fin n) : SubInv t size (SubMap.create size false client) := by
  refine ⟨⟨fun i _ => ?_,?_⟩,by simp [SubMap.create]⟩
  · have : occ (SubMap.create size false client) i = 0 := by simp [occ,SubMap.create]
    rw [this]
    exact cellOk_empty
  · have : tally size (SubMap.create size false client).cells isSpare = size := by
      simp [tally,SubMap.create,emptyEntry,isSpare]
    rw [this]
    simp [SubMap.create]

lemma subInv_create_all (size : ℕ) (client : Fin n) : SubInv t size (SubMap.create size true client) := by
  refine ⟨⟨fun i hi => ?_,?_⟩,fun c x hx => ?_⟩
  · have hocc : occ (SubMap.create size true client) i = 1 := by
      have := occ_setPixels (⟨fun _ => emptyEntry,0,fun _ => []⟩ : SubMap n) client (List.range size) i
      have hempty : occ (⟨fun _ => emptyEntry,0,fun _ => []⟩ : SubMap n) i = 0 := by simp [occ]
      rw [hempty,List.count_eq_one_of_mem List.nodup_range (List.mem_range.mpr hi)] at this
      simpa [SubMap.create,occ,SubMap.setPixels] using this
    rw [hocc]
    simp only [SubMap.create,if_true,hi]
    exact cellOk_private
  · have : tally size (SubMap.create size true client).cells isSpare = 0 :=
      Finset.sum_eq_zero fun i hi => by
        rw [Finset.mem_range] at hi
        simp [SubMap.create,hi,isSpare,allocPrivate,allocTemporary]
    rw [this]
    simp [SubMap.create]
  · simp only [SubMap.create,if_true] at hx
    by_cases hc : c = client
    · rw [hc,Function.update_self] at hx
      exact List.mem_range.mp hx
    · rw [Function.update_of_ne hc] at hx
      simp at hx

end Create

section Copy

/-- `CopyFree` under way: `done` of the client's pixels are moved. -/
structure CopyInv (t : Bool) (size : ℕ) (src dst : SubMap n) (done : List ℕ) (st : CopyState n) : Prop where
  srcCounts : Counts t size st.src (fun i => occ src i-done.count i)
  srcPixels : st.src.pixels = src.pixels
  dstCounts : Counts t size { st.dst with free := st.dst.free-st.nalloc } (fun i => done.count i)
  dstPixels : st.dst.pixels = dst.pixels
  whole : ∀ i < size, (st.dst.cells i).refcnt = allocPrivate → occ src i = done.count i

variable {size : ℕ} {src dst : SubMap n}

lemma CopyInv.step {done : List ℕ} {st : CopyState n} (h : CopyInv t size src dst done st) (hs : SubInv t size src)
    {i : ℕ} (hi : i < size) (hmore : done.count i < occ src i) : CopyInv t size src dst (done ++ [i]) (copyPixel st i) := by
  have hsrc := h.srcCounts.cell i hi
  have hdst := h.dstCounts.cell i hi
  have hbound := hs.counts.cell i hi
  have hpriv := h.whole i hi
  dsimp only at hdst
  simp only [CellOk,allocPrivate,allocTemporary] at hsrc hdst hbound hpriv
  have hcount : ∀ j, (done ++ [i]).count j = Function.update (fun j => done.count j) i (done.count i+1) j := by
    intro j
    rw [List.count_append]
    by_cases hj : j = i
    · rw [hj,Function.update_self,List.count_singleton_self]
    · rw [Function.update_of_ne hj,List.count_singleton]
      simp [Ne.symm hj]
  have hfreed : ∀ {s : SubMap n} (hp : Heap), Counts t size s (fun j => occ src j-done.count j) →
      Counts t size (freeCell hp s i).2 (fun j => occ src j-(done ++ [i]).count j) := by
    intro s hp hc
    refine (hc.freeCell hp hi (by omega)).congr fun j _ => ?_
    rw [hcount j]
    by_cases hj : j = i
    · rw [hj,Function.update_self,Function.update_self]
      omega
    · rw [Function.update_of_ne hj,Function.update_of_ne hj]
  have hothers : ∀ {s : SubMap n} (e : Entry), (e.refcnt = allocPrivate → occ src i = done.count i+1) →
      ∀ j < size, ((s.setCell i e).cells j).refcnt = allocPrivate →
        (j ≠ i → (s.cells j).refcnt = (st.dst.cells j).refcnt) → occ src j = (done ++ [i]).count j := by
    intro s e he j hj hp hsame
    rw [hcount j]
    simp only [SubMap.setCell] at hp
    by_cases hji : j = i
    · rw [hji,Function.update_self] at hp ⊢
      exact he hp
    · rw [Function.update_of_ne hji] at hp ⊢
      exact h.whole j hj (hsame hji ▸ hp)
  simp only [copyPixel]
  by_cases hpos : (st.dst.cells i).refcnt > 0
  · -- The cell was moved before: one more reference.
    rw [if_pos hpos]
    have hshort : toShort ((st.dst.cells i).refcnt+1) = (st.dst.cells i).refcnt+1 :=
      toShort_of_bounds (by omega) (by omega)
    refine ⟨hfreed _ h.srcCounts,(freeCell_pixels _ _ _).trans h.srcPixels,?_,h.dstPixels,?_⟩
    · refine (h.dstCounts.update hi (e := { st.dst.cells i with refcnt := toShort ((st.dst.cells i).refcnt+1) })
        (m := done.count i+1) rfl ?_ ?_).congr fun j _ => (hcount j).symm
      · simp only [CellOk,hshort,allocPrivate,allocTemporary]
        omega
      · have h₁ : isSpare (st.dst.cells i) = false := isSpare_eq_false.mpr (by omega)
        have h₂ : isSpare { st.dst.cells i with refcnt := toShort ((st.dst.cells i).refcnt+1) } = false :=
          isSpare_eq_false.mpr (by simp only [hshort]; omega)
        dsimp only [SubMap.setCell]
        rw [h₁,h₂]
    · intro j hj hp
      refine hothers _ (fun hp' => ?_) j hj hp fun _ => rfl
      simp only [hshort,allocPrivate] at hp'
      omega
  rw [if_neg hpos]
  have hspare : isSpare (st.dst.cells i) = true := isSpare_eq_true.mpr (by omega)
  by_cases hsp : (st.src.cells i).refcnt > 0
  · -- A read-only cell: the new map starts to count its references.
    rw [if_pos hsp]
    refine ⟨hfreed _ h.srcCounts,(freeCell_pixels _ _ _).trans h.srcPixels,?_,h.dstPixels,?_⟩
    · refine (h.dstCounts.update hi (e := { st.src.cells i with refcnt := 1 }) (m := done.count i+1) rfl ?_ ?_).congr
        fun j _ => (hcount j).symm
      · rw [show done.count i+1 = 1 by omega]
        exact cellOk_one
      · have h₂ : isSpare { st.src.cells i with refcnt := 1 } = false := isSpare_eq_false.mpr (by simp)
        dsimp only [SubMap.setCell]
        rw [hspare,h₂]
        simp only [Bool.toNat_true,Bool.toNat_false]
        push_cast
        ring
    · intro j hj hp
      exact hothers _ (fun hp' => by simp [allocPrivate] at hp') j hj hp fun _ => rfl
  · -- A private cell, shared colours and all.
    rw [if_neg hsp]
    have hprivate : (st.src.cells i).refcnt = -1 := by omega
    have hsrc' : Counts t size (st.src.setCell i { st.src.cells i with fShared := false })
        (fun j => occ src j-done.count j) := by
      have := h.srcCounts.update hi (r := st.src.setCell i { st.src.cells i with fShared := false })
        (e := { st.src.cells i with fShared := false }) rfl (h.srcCounts.cell i hi) (by
          have : isSpare { st.src.cells i with fShared := false } = isSpare (st.src.cells i) := rfl
          rw [this]
          rfl)
      rwa [Function.update_eq_self] at this
    refine ⟨hfreed _ hsrc',(freeCell_pixels _ _ _).trans h.srcPixels,?_,h.dstPixels,?_⟩
    · refine (h.dstCounts.update hi (e := st.src.cells i) (m := done.count i+1) rfl ?_ ?_).congr
        fun j _ => (hcount j).symm
      · rw [hprivate,show done.count i+1 = 1 by omega]
        exact cellOk_private
      · have h₂ : isSpare (st.src.cells i) = false := isSpare_eq_false.mpr (by omega)
        dsimp only [SubMap.setCell]
        rw [hspare,h₂]
        simp only [Bool.toNat_true,Bool.toNat_false]
        push_cast
        ring
    · intro j hj hp
      exact hothers _ (fun _ => by omega) j hj hp fun _ => rfl

lemma CopyInv.run (hs : SubInv t size src) (rest : List ℕ) {done : List ℕ} {st : CopyState n}
    (h : CopyInv t size src dst done st) (hrest : ∀ i ∈ rest, i < size)
    (hcount : ∀ i, (done ++ rest).count i ≤ occ src i) :
    CopyInv t size src dst (done ++ rest) (rest.foldl copyPixel st) := by
  induction rest generalizing done st with
  | nil => simpa using h
  | cons i rest ih =>
    have hi := hcount i
    rw [List.count_append,List.count_cons_self] at hi
    have hstep := h.step hs (hrest i (by simp)) (by omega)
    rw [List.foldl_cons,show done ++ i::rest = done ++ [i] ++ rest by simp]
    exact ih hstep (fun j hj => hrest j (by simp [hj])) fun j => by
      have := hcount j
      rwa [show done ++ i::rest = done ++ [i] ++ rest by simp] at this

lemma occ_create (client : Fin n) (i : ℕ) : occ (SubMap.create size false client) i = 0 := by simp [occ,SubMap.create]

lemma copyInv_start (hs : SubInv t size src) (hp : Heap) (client : Fin n) :
    CopyInv t size src (SubMap.create size false client) [] ⟨hp,src,SubMap.create size false client,0⟩ := by
  refine ⟨hs.counts.congr fun i _ => by simp,rfl,?_,rfl,?_⟩
  · refine ((subInv_create_none size client).counts.of_eq rfl (by simp)).congr fun i _ => ?_
    rw [occ_create,List.count_nil]
  · intro i _ hi
    simp [SubMap.create,emptyEntry,allocPrivate] at hi

/-- `CopyFree` moves the client's cells from the old table to a new one. -/
theorem copyFree_spec (hs : SubInv t size src) (hp : Heap) (client : Fin n) :
    let st := copyFree true client hp src (SubMap.create size false client)
    SubInv t size st.src ∧ st.src.pixels = Function.update src.pixels client [] ∧
      SubInv t size st.dst ∧ st.dst.pixels = Function.update (fun _ => []) client (src.pixels client) := by
  have hnew := subInv_create_none (t := t) size client
  have hstart := copyInv_start hs hp client
  have hend := hstart.run hs (src.pixels client) (hs.range client) (by simpa using count_le_occ src client)
  rw [List.nil_append] at hend
  have hdst : (copyFree true client hp src (SubMap.create size false client)).dst.pixels =
      Function.update (fun _ => []) client (src.pixels client) := by
    simp only [copyFree,if_true,SubMap.setPixels,hend.dstPixels]
    simp [SubMap.create]
  have hsrc : (copyFree true client hp src (SubMap.create size false client)).src.pixels =
      Function.update src.pixels client [] := by
    simp only [copyFree,if_true,SubMap.setPixels,hend.srcPixels]
  have hsrcCounts : Counts t size (copyFree true client hp src (SubMap.create size false client)).src
      (fun i => occ src i-(src.pixels client).count i) := hend.srcCounts.of_eq rfl rfl
  have hdstCounts : Counts t size (copyFree true client hp src (SubMap.create size false client)).dst
      (fun i => (src.pixels client).count i) := hend.dstCounts.of_eq rfl rfl
  have hcreate : (SubMap.create size false client).pixels = fun _ => [] := by simp [SubMap.create]
  refine ⟨hs.setPixels hsrc (by simp) (hsrcCounts.congr fun i _ => ?_),hsrc,
    hnew.setPixels (hcreate ▸ hdst) (hs.range client) (hdstCounts.congr fun i _ => ?_),hdst⟩
  · rw [List.count_nil,Nat.add_zero]
  · rw [occ_create,Nat.zero_sub,Nat.zero_add]

end Copy

section Take

variable {size : ℕ} {s : SubMap n}

structure Same (s s' : SubMap n) : Prop where
  refcnt : ∀ i, (s'.cells i).refcnt = (s.cells i).refcnt
  free : s'.free = s.free
  pixels : s'.pixels = s.pixels

lemma Same.refl (s : SubMap n) : Same s s := ⟨fun _ => rfl,rfl,rfl⟩

lemma SubInv.same {s' : SubMap n} (hs : SubInv t size s) (h : Same s s') : SubInv t size s' := by
  refine ⟨⟨fun i hi => ?_,?_⟩,fun c x hx => hs.range c x (h.pixels ▸ hx)⟩
  · have hocc : occ s' i = occ s i := by simp only [occ,h.pixels]
    rw [hocc,h.refcnt]
    exact hs.counts.cell i hi
  · rw [h.free,hs.counts.free]
    congr 1
    exact tally_congr fun i _ => by simp only [isSpare,h.refcnt]

variable {count planes : ℕ} {r : CPResult}

lemma SubInv.take (hs : SubInv t size s) (h : Picked size s.cells count planes r) (client : Fin n) :
    SubInv t size (s.take client r (count*2^planes : ℕ)) := by
  have hpix : (s.take client r (count*2^planes : ℕ)).pixels =
      Function.update s.pixels client (s.pixels client ++ r.pixels) := rfl
  have hcell : ∀ i, (s.take client r (count*2^planes : ℕ)).cells i = taken s.cells r.pixels i := fun i => by
    rw [← h.ent_eq]
    rfl
  refine hs.setPixels hpix ?_ ⟨fun i hi => ?_,?_⟩
  · intro x hx
    rcases List.mem_append.mp hx with hx | hx
    · exact hs.range client x hx
    · exact (h.free x hx).1
  · have hle := count_le_occ s client i
    have hok := hs.counts.cell i hi
    rw [hcell,List.count_append]
    by_cases hmem : i ∈ r.pixels
    · have hzero := (h.free i hmem).2
      rw [hzero] at hok
      simp only [CellOk,allocPrivate,allocTemporary] at hok
      rw [List.count_eq_one_of_mem h.nodup_pixels hmem,
        show occ s i-(s.pixels client).count i+((s.pixels client).count i+1) = 1 by omega]
      simp only [taken,hmem,if_true]
      exact cellOk_private
    · rw [List.count_eq_zero_of_not_mem hmem,
        show occ s i-(s.pixels client).count i+((s.pixels client).count i+0) = occ s i by omega]
      simpa only [taken,hmem,if_false] using hok
  · have htally := tally_patch s.cells (taken s.cells r.pixels) isSpare r.pixels h.nodup_pixels
      (fun i hi => (h.free i hi).1) (fun i hi => isSpare_eq_true.mpr (.inl (h.free i hi).2))
      (fun i hi => isSpare_eq_false.mpr (by simp [taken,hi,allocPrivate]))
      (fun i hi => by simp only [taken,hi,if_false])
    rw [h.length_pixels] at htally
    have hfree : (s.take client r (count*2^planes : ℕ)).free = s.free-(count*2^planes : ℕ) := rfl
    have hcells : (s.take client r (count*2^planes : ℕ)).cells = taken s.cells r.pixels := funext hcell
    rw [hfree,hcells,hs.counts.free,← htally]
    push_cast
    ring

lemma same_clear (h : Picked size s.cells count planes r) :
    Same s { s with cells := clearCells r.ent r.pixels } := by
  have hclear : ∀ (l : List ℕ) (ent : ℕ → Entry) (i : ℕ),
      (clearCells ent l i).refcnt = if i ∈ l then 0 else (ent i).refcnt := by
    intro l
    induction l with
    | nil => exact fun _ _ => rfl
    | cons a l ih =>
      intro ent i
      have hstep := ih (Function.update ent a { ent a with refcnt := 0 }) i
      rw [clearCells] at hstep ⊢
      rw [List.foldl_cons,hstep]
      by_cases hi : i ∈ l
      · simp [hi]
      · by_cases hia : i = a
        · simp [hia]
        · simp [hi,hia]
  refine ⟨fun i => ?_,rfl,rfl⟩
  rw [hclear,h.ent_eq]
  by_cases hi : i ∈ r.pixels
  · rw [if_pos hi,(h.free i hi).2]
  · simp [hi,taken]

end Take

section Find

variable {size : ℕ}

/-- What the search of `FindColor` says about the cell it ends at. -/
def FoundOk (cells : ℕ → Entry) (size : ℕ) (isMatch : Entry → Bool) : Found → Prop
  | .hit p => p < size ∧ 0 < (cells p).refcnt ∧ isMatch (cells p) = true
  | .empty p => p < size ∧ (cells p).refcnt = 0
  | .nothing => True

lemma findLoop_spec (cells : ℕ → Entry) (isMatch : Entry → Bool) (beingCreated : Bool) (count pixel : ℕ)
    (free : Option ℕ) (hpixel : pixel < size) (hfree : ∀ f, free = some f → f < size ∧ (cells f).refcnt = 0) :
    FoundOk cells size isMatch (findLoop cells size isMatch beingCreated count pixel free) := by
  induction count generalizing pixel free with
  | zero =>
    cases free with
    | none => trivial
    | some f => exact hfree f rfl
  | succ count ih =>
    have hnext : (if pixel+1 ≥ size then 0 else pixel+1) < size := by split_ifs <;> omega
    rw [findLoop]
    by_cases hpos : (cells pixel).refcnt > 0
    · rw [if_pos hpos]
      by_cases hm : isMatch (cells pixel) = true
      · rw [if_pos hm]
        exact ⟨hpixel,hpos,hm⟩
      · rw [if_neg hm]
        exact ih _ free hnext hfree
    · rw [if_neg hpos]
      by_cases hz : free = none ∧ (cells pixel).refcnt = 0
      · rw [if_pos hz]
        cases beingCreated with
        | true => exact ⟨hpixel,hz.2⟩
        | false =>
          refine ih _ (some pixel) hnext fun f hf => ?_
          obtain rfl := Option.some.inj hf
          exact ⟨hpixel,hz.2⟩
      · rw [if_neg hz]
        exact ih _ free hnext hfree

/-- No matching cell has its count full, and the list can grow if there is one. -/
def FindOk (s : SubMap n) (size : ℕ) (channel : Channel) (rgb : Rgb) (realloc : Bool) : Prop :=
  ∀ i < size, 0 < (s.cells i).refcnt → compare channel (s.cells i) rgb = true →
    (s.cells i).refcnt < 2^15-1 ∧ realloc = true

variable {pmap : ColormapRec n} {channel : Channel} {rgb : Rgb} {pixel : ℕ}

lemma findStart_lt (pixel : ℕ) (h : 0 < pmap.visual.numEntries channel) :
    (if pixel ≥ pmap.visual.numEntries channel then 0 else pixel) < pmap.visual.numEntries channel := by
  split_ifs <;> omega

/-- One more reference to a read-only cell, with its entry in the client's list. -/
structure Added (s s' : SubMap n) (client : Fin n) (p : ℕ) : Prop where
  refcnt : ∀ i, (s'.cells i).refcnt = if i = p then (s.cells p).refcnt+1 else (s.cells i).refcnt
  nonneg : 0 ≤ (s.cells p).refcnt
  lt : (s.cells p).refcnt < 2^15-1
  free : s'.free = s.free-if (s.cells p).refcnt = 0 then 1 else 0
  pixels : s'.pixels = Function.update s.pixels client (s.pixels client ++ [p])

lemma Added.undo {s s' : SubMap n} {client : Fin n} {p : ℕ} (h : Added s s' client p) (hp : Heap) :
    (∀ i, ((freeCell hp s' p).2.cells i).refcnt = (s.cells i).refcnt) ∧ (freeCell hp s' p).2.free = s.free := by
  have hcell := h.refcnt p
  rw [if_pos rfl] at hcell
  have hnonneg := h.nonneg
  have hlt := h.lt
  refine ⟨fun i => ?_,?_⟩
  · rw [freeCell_refcnt hp s' p (by omega),hcell,h.refcnt i]
    by_cases hi : i = p
    · rw [if_pos hi,hi,released]
      split_ifs <;> omega
    · rw [if_neg hi,if_neg hi]
  · rw [freeCell_free,hcell,h.free]
    split_ifs <;> omega

/-- `FindColor` for a client: one more entry for a cell of the channel, or nothing changed. -/
theorem findColor_client (client : Fin n) (pixel : ℕ) {realloc : Bool} (hcreated : pmap.beingCreated = false)
    (hpos : 0 < pmap.visual.numEntries channel)
    (hs : SubInv t (pmap.visual.numEntries channel) (pmap.sub channel))
    (hok : FindOk (pmap.sub channel) (pmap.visual.numEntries channel) channel rgb realloc) :
    ∃ s', (findColor pmap channel rgb pixel (some client) realloc).2.2 = pmap.setSub s' channel ∧
      SubInv t (pmap.visual.numEntries channel) s' ∧
      (((findColor pmap channel rgb pixel (some client) realloc).1 = .success ∧
        ∃ p < pmap.visual.numEntries channel,
          (findColor pmap channel rgb pixel (some client) realloc).2.1 = p <<< pmap.visual.offset channel ∧
          Added (pmap.sub channel) s' client p) ∨
        ((findColor pmap channel rgb pixel (some client) realloc).1 = .badAlloc ∧ Same (pmap.sub channel) s')) := by
  have hfound := findLoop_spec (pmap.sub channel).cells (compare channel · rgb) pmap.beingCreated
    (pmap.visual.numEntries channel) _ none (findStart_lt pixel hpos) (by simp)
  -- The lists with one more entry are counted by a cell with one more reference.
  have hadd : ∀ {s' : SubMap n} {p : ℕ}, p < pmap.visual.numEntries channel →
      s'.pixels = Function.update (pmap.sub channel).pixels client ((pmap.sub channel).pixels client ++ [p]) →
      Counts t (pmap.visual.numEntries channel) s'
        (Function.update (occ (pmap.sub channel)) p (occ (pmap.sub channel) p+1)) →
      SubInv t (pmap.visual.numEntries channel) s' := by
    intro s' p hp hpix hc
    refine hs.setPixels hpix ?_ (hc.congr fun i _ => ?_)
    · intro x hx
      rcases List.mem_append.mp hx with hx | hx
      · exact hs.range client x hx
      · rw [List.mem_singleton] at hx
        omega
    · have := count_le_occ (pmap.sub channel) client i
      rw [List.count_append]
      by_cases hi : i = p
      · rw [hi,Function.update_self,List.count_singleton_self,← hi]
        omega
      · rw [Function.update_of_ne hi,List.count_singleton]
        simp only [beq_iff_eq,Ne.symm hi,if_false]
        omega
  unfold findColor
  dsimp only
  generalize findLoop (pmap.sub channel).cells (pmap.visual.numEntries channel) (compare channel · rgb)
    pmap.beingCreated (pmap.visual.numEntries channel)
    (if pixel ≥ pmap.visual.numEntries channel then 0 else pixel) none = found at hfound
  cases found with
  | nothing => exact ⟨pmap.sub channel,(setSub_sub pmap channel).symm,hs,.inr ⟨rfl,Same.refl _⟩⟩
  | hit p =>
    obtain ⟨hp,hpr,hm⟩ := hfound
    obtain ⟨hfull,rfl⟩ := hok p hp hpr hm
    have hcell := hs.counts.cell p hp
    simp only [CellOk,allocPrivate,allocTemporary] at hcell
    have hshort : toShort (((pmap.sub channel).cells p).refcnt+1) = ((pmap.sub channel).cells p).refcnt+1 :=
      toShort_of_bounds (by omega) (by omega)
    simp only [hcreated,Bool.false_eq_true,if_false,if_true]
    refine ⟨_,rfl,hadd hp rfl ?_,.inl ⟨trivial,p,hp,rfl,⟨fun i => ?_,by omega,hfull,?_,rfl⟩⟩⟩
    rotate_left
    · simp only [SubMap.setPixels,SubMap.setCell]
      by_cases hi : i = p
      · rw [if_pos hi,hi,Function.update_self,hshort]
      · rw [if_neg hi,Function.update_of_ne hi]
    · rw [if_neg (by omega)]
      simp [SubMap.setPixels,SubMap.setCell]
    refine hs.counts.update hp rfl ?_ ?_
    · simp only [CellOk,hshort,allocPrivate,allocTemporary]
      omega
    · have h₁ : isSpare ((pmap.sub channel).cells p) = false := isSpare_eq_false.mpr (by omega)
      have h₂ : isSpare { (pmap.sub channel).cells p with
          refcnt := toShort (((pmap.sub channel).cells p).refcnt+1) } = false :=
        isSpare_eq_false.mpr (by simp only [hshort]; omega)
      rw [h₁,h₂]
      rfl
  | empty p =>
    obtain ⟨hp,hz⟩ := hfound
    have hcell := hs.counts.cell p hp
    rw [hz] at hcell
    simp only [CellOk,allocPrivate,allocTemporary] at hcell
    have hspare : isSpare ((pmap.sub channel).cells p) = true := isSpare_eq_true.mpr (.inl hz)
    cases realloc with
    | true =>
      simp only [hcreated,Bool.false_eq_true,if_false,if_true]
      refine ⟨_,rfl,hadd hp rfl ?_,.inl ⟨trivial,p,hp,rfl,⟨fun i => ?_,by omega,by omega,?_,rfl⟩⟩⟩
      rotate_left
      · simp only [SubMap.setPixels,SubMap.setCell]
        by_cases hi : i = p
        · rw [if_pos hi,hi,Function.update_self,hz]
          rfl
        · rw [if_neg hi,Function.update_of_ne hi]
      · rw [if_pos hz]
        rfl
      refine hs.counts.update hp rfl ?_ ?_
      · rw [show occ (pmap.sub channel) p+1 = 1 by omega]
        exact cellOk_one
      · have h₂ : isSpare { (pmap.sub channel).cells p with
            fShared := false
            refcnt := 1
            co := storeColor channel ((pmap.sub channel).cells p).co rgb } = false :=
          isSpare_eq_false.mpr (by simp)
        rw [hspare,h₂]
        simp [SubMap.setPixels]
    | false =>
      simp only [hcreated,Bool.false_eq_true,if_false]
      have hsame : Same (pmap.sub channel)
          { ({ (pmap.sub channel).setCell p { (pmap.sub channel).cells p with
              fShared := false
              refcnt := 1
              co := storeColor channel ((pmap.sub channel).cells p).co rgb } with
              free := (pmap.sub channel).free-1 } : SubMap n).setCell p { (pmap.sub channel).cells p with
              fShared := false
              refcnt := 0
              co := storeColor channel ((pmap.sub channel).cells p).co rgb } with
            free := (pmap.sub channel).free-1+1 } := by
        refine ⟨fun i => ?_,by simp,rfl⟩
        simp only [SubMap.setCell]
        by_cases hi : i = p
        · rw [hi,Function.update_self,hz]
        · rw [Function.update_of_ne hi,Function.update_of_ne hi]
      exact ⟨_,rfl,hs.same hsame,.inr ⟨trivial,hsame⟩⟩

/-- `FindColor` for nobody: at most one free cell becomes a temporary one. -/
theorem findColor_nobody {realloc : Bool} (hpos : 0 < pmap.visual.numEntries channel)
    (hs : SubInv true (pmap.visual.numEntries channel) (pmap.sub channel)) :
    ∃ s', (findColor pmap channel rgb pixel none realloc).2.2 = pmap.setSub s' channel ∧
      SubInv true (pmap.visual.numEntries channel) s' := by
  have hfound := findLoop_spec (pmap.sub channel).cells (compare channel · rgb) pmap.beingCreated
    (pmap.visual.numEntries channel) _ none (findStart_lt pixel hpos) (by simp)
  unfold findColor
  dsimp only
  generalize findLoop (pmap.sub channel).cells (pmap.visual.numEntries channel) (compare channel · rgb)
    pmap.beingCreated (pmap.visual.numEntries channel)
    (if pixel ≥ pmap.visual.numEntries channel then 0 else pixel) none = found at hfound
  cases found with
  | nothing => exact ⟨pmap.sub channel,(setSub_sub pmap channel).symm,hs⟩
  | hit p => exact ⟨pmap.sub channel,(setSub_sub pmap channel).symm,hs⟩
  | empty p =>
    obtain ⟨hp,hz⟩ := hfound
    have hcell := hs.counts.cell p hp
    rw [hz] at hcell
    simp only [CellOk,allocPrivate,allocTemporary] at hcell
    have hspare : isSpare ((pmap.sub channel).cells p) = true := isSpare_eq_true.mpr (.inl hz)
    refine ⟨_,rfl,?_,fun c x hx => hs.range c x hx⟩
    have := hs.counts.update hp (r := (pmap.sub channel).setCell p { (pmap.sub channel).cells p with
        fShared := false
        refcnt := allocTemporary
        co := storeColor channel ((pmap.sub channel).cells p).co rgb }) rfl
      (show CellOk true allocTemporary 0 from cellOk_temporary) (by
        have h₂ : isSpare { (pmap.sub channel).cells p with
            fShared := false
            refcnt := allocTemporary
            co := storeColor channel ((pmap.sub channel).cells p).co rgb } = true :=
          isSpare_eq_true.mpr (.inr rfl)
        rw [hspare,h₂]
        rfl)
    rw [show (0 : ℕ) = occ (pmap.sub channel) p by omega,Function.update_eq_self] at this
    exact this

lemma SubInv.freeTemporary {s : SubMap n} (hs : SubInv true size s) (i : ℕ) (hi : i < size) :
    SubInv true size (freeTemporary s i) := by
  rw [Colormap.freeTemporary]
  by_cases htemp : (s.cells i).refcnt = allocTemporary
  · rw [if_pos htemp]
    have hcell := hs.counts.cell i hi
    rw [htemp] at hcell
    simp only [CellOk,allocPrivate,allocTemporary] at hcell
    have hspare : isSpare (s.cells i) = true := isSpare_eq_true.mpr (.inr htemp)
    have := hs.counts.update hi (r := s.setCell i { s.cells i with refcnt := 0 }) rfl
      (show CellOk true 0 0 from cellOk_empty) (by
        have h₂ : isSpare { s.cells i with refcnt := 0 } = true := isSpare_eq_true.mpr (.inl rfl)
        rw [hspare,h₂]
        rfl)
    rw [show (0 : ℕ) = occ s i by omega,Function.update_eq_self] at this
    exact ⟨this,fun c x hx => hs.range c x hx⟩
  · rw [if_neg htemp]
    exact hs

end Find

end Xlibre.Dix.Colormap
