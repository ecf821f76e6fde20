import Xlibre.Dix.Colormap.ColorRequests

/-! Freeing and copying all pixels of a client, temporary cells, and maps created with `AllocAll`. -/
namespace Xlibre.Dix.Colormap

open Xlibre.Lib.Submasks Xlibre.Lib.Tally

variable {n : ℕ} {t : Bool} {pmap : ColormapRec n}

section Move

/-- `FreePixels` keeps the counts right. -/
theorem freePixels_spec (h : MapInv t pmap) (hh : Heap) (client : Fin n) :
    MapInv t (freePixels hh pmap client).2 ∧ MapRel (fun _ _ => True) pmap (freePixels hh pmap client).2 := by
  cases hd : pmap.visual.cls.direct with
  | false =>
    simp only [freePixels,hd,h.visual.dynamic]
    exact ⟨h.pseudo hd ((h.only hd).freePixelsOf hh client).1,mapRel_pseudo hd trivial⟩
  | true =>
    simp only [freePixels,hd,h.visual.dynamic,if_true]
    exact ⟨h.direct hd ((h.red hd).freePixelsOf _ client).1 ((h.green hd).freePixelsOf _ client).1
      ((h.blue hd).freePixelsOf _ client).1,mapRel_direct hd trivial trivial trivial⟩

lemma mapInv_create {v : Visual} (hv : VisualOk v) (allocAll : Bool) (client : Fin n) :
    MapInv t (dixCreateColormap v allocAll client) := by
  have hcreate : ∀ size, SubInv t size (SubMap.create size allocAll client) := by
    cases allocAll with
    | false => exact fun size => subInv_create_none size client
    | true => exact fun size => subInv_create_all size client
  cases hd : v.cls.direct with
  | false =>
    simp only [dixCreateColormap,hd,Bool.false_eq_true,if_false]
    refine ⟨hv,rfl,fun ch hch => ?_⟩
    rw [channels_pseudo hd,List.mem_singleton] at hch
    subst hch
    exact hcreate _
  | true =>
    simp only [dixCreateColormap,hd,if_true]
    refine ⟨hv,rfl,fun ch hch => ?_⟩
    rw [channels_direct hd] at hch
    cases ch with
    | redMap => exact hcreate _
    | greenMap => exact hcreate _
    | blueMap => exact hcreate _
    | pseudoMap => simp at hch

/-- A map created with `AllocAll`: every cell is private to the owner. -/
structure Full (pmap : ColormapRec n) : Prop where
  cells : ∀ ch ∈ pmap.visual.channels, ∀ i < pmap.visual.numEntries ch,
    ((pmap.sub ch).cells i).refcnt = allocPrivate ∧ ((pmap.sub ch).cells i).fShared = false
  pixels : ∀ ch ∈ pmap.visual.channels, ∀ c, c ≠ pmap.owner → (pmap.sub ch).pixels c = []

lemma full_create {v : Visual} (client : Fin n) : Full (dixCreateColormap v true client) := by
  have hcell : ∀ size, ∀ i < size, ((SubMap.create size true client).cells i).refcnt = allocPrivate ∧
      ((SubMap.create size true client).cells i).fShared = false := by
    intro size i hi
    simp [SubMap.create,hi,emptyEntry]
  have hpix : ∀ size, ∀ c, c ≠ client → (SubMap.create size true client).pixels c = [] := by
    intro size c hc
    simp [SubMap.create,Function.update_of_ne hc]
  cases hd : v.cls.direct with
  | false =>
    simp only [dixCreateColormap,hd,Bool.false_eq_true,if_false]
    constructor
    · intro ch hch
      rw [channels_pseudo hd,List.mem_singleton] at hch
      subst hch
      exact hcell _
    · intro ch hch
      rw [channels_pseudo hd,List.mem_singleton] at hch
      subst hch
      exact hpix _
  | true =>
    simp only [dixCreateColormap,hd,if_true]
    constructor
    · intro ch hch
      rw [channels_direct hd] at hch
      cases ch with
      | redMap => exact hcell _
      | greenMap => exact hcell _
      | blueMap => exact hcell _
      | pseudoMap => simp at hch
    · intro ch hch
      rw [channels_direct hd] at hch
      cases ch with
      | redMap => exact hpix _
      | greenMap => exact hpix _
      | blueMap => exact hpix _
      | pseudoMap => simp at hch

lemma SubInv.of_agree {size : ℕ} {s s' : SubMap n} (hs : SubInv t size s)
    (hcells : ∀ i < size, (s'.cells i).refcnt = (s.cells i).refcnt) (hfree : s'.free = s.free)
    (hpix : s'.pixels = s.pixels) : SubInv t size s' := by
  refine ⟨⟨fun i hi => ?_,?_⟩,fun c x hx => hs.range c x (hpix ▸ hx)⟩
  · have hocc : occ s' i = occ s i := by simp only [occ,hpix]
    rw [hocc,hcells i hi]
    exact hs.counts.cell i hi
  · rw [hfree,hs.counts.free]
    congr 1
    exact tally_congr fun i hi => by simp only [isSpare,hcells i hi]

lemma subInv_copy {size entries : ℕ} {src : SubMap n} (hle : size ≤ entries)
    (hfull : ∀ i < size, (src.cells i).refcnt = allocPrivate) (client : Fin n) :
    SubInv t size { SubMap.create size true client with
      cells := fun i => if i < entries then src.cells i else (SubMap.create size true client).cells i } := by
  refine (subInv_create_all size client).of_agree (fun i hi => ?_) rfl rfl
  simp only [show i < entries by omega,if_true,hfull i hi]
  simp [SubMap.create,hi]

lemma copyFree_nil (client : Fin n) (hh : Heap) (src dst : SubMap n) (hnil : src.pixels client = []) :
    (copyFree true client hh src dst).src = src := by
  simp only [copyFree,if_true,hnil,List.foldl_nil,SubMap.setPixels]
  rw [← hnil,Function.update_eq_self]

/-- What `CopyColormapAndFree` makes of a map: the counts of the old and of the new map are right. -/
structure Copied (t : Bool) (pmap src dst : ColormapRec n) : Prop where
  srcInv : MapInv t src
  dstInv : MapInv t dst
  visual : src.visual = pmap.visual
  dstVisual : dst.visual = pmap.visual
  owner : src.owner = pmap.owner
  srcFull : src.allAllocated = true → pmap.allAllocated = true ∧ Full src
  dstFull : dst.allAllocated = true → pmap.allAllocated = true ∧ Full dst

lemma copied_all (h : MapInv t pmap) (hfull : Full pmap) (hflag : pmap.allAllocated = true) (hh : Heap) {client : Fin n}
    (hown : pmap.owner = client) :
    Copied t pmap (copyColormapAndFree hh pmap client).2.1 (copyColormapAndFree hh pmap client).2.2 := by
  subst hown
  have hsrc : MapInv t { pmap with allAllocated := false } := ⟨h.visual,h.created,h.sub⟩
  obtain ⟨hfreed,hrel⟩ := freePixels_spec hsrc hh pmap.owner
  have hnot : (freePixels hh { pmap with allAllocated := false } pmap.owner).2.allAllocated ≠ true := by
    rw [hrel.flag]
    simp
  have hcreated := full_create (v := pmap.visual) pmap.owner
  have hmk := mapInv_create (t := t) h.visual true pmap.owner
  simp only [copyColormapAndFree,hflag,decide_true,Bool.and_self,if_true]
  cases hd : pmap.visual.cls.direct with
  | false =>
    have hsize : ∀ i < pmap.visual.colormapEntries, (pmap.red.cells i).refcnt = allocPrivate ∧
        (pmap.red.cells i).fShared = false := hfull.cells .pseudoMap (by simp [channels_pseudo hd])
    simp only [dixCreateColormap,hd,Bool.false_eq_true,if_false] at hcreated hmk ⊢
    refine ⟨hfreed,?_,hrel.visual,rfl,hrel.owner,fun hf => absurd hf hnot,fun _ => ⟨hflag,?_⟩⟩
    · exact hmk.pseudo hd (subInv_copy (le_refl _) (fun i hi => (hsize i hi).1) pmap.owner)
    · constructor
      · intro ch hch i hi
        rw [channels_pseudo hd,List.mem_singleton] at hch
        subst hch
        simp only [ColormapRec.sub,show i < pmap.visual.colormapEntries from hi,if_true]
        exact hsize i hi
      · intro ch hch c hc
        rw [channels_pseudo hd,List.mem_singleton] at hch
        subst hch
        exact hcreated.pixels .pseudoMap (by simp [channels_pseudo hd]) c hc
  | true =>
    have hcell := fun ch hch => hfull.cells ch hch
    have hle := fun ch (hch : ch ∈ pmap.visual.channels) => (h.visual.numEntries_bounds hch).2
    have hred : Channel.redMap ∈ pmap.visual.channels := by simp [channels_direct hd]
    have hgreen : Channel.greenMap ∈ pmap.visual.channels := by simp [channels_direct hd]
    have hblue : Channel.blueMap ∈ pmap.visual.channels := by simp [channels_direct hd]
    simp only [dixCreateColormap,hd,if_true] at hcreated hmk ⊢
    refine ⟨hfreed,?_,hrel.visual,rfl,hrel.owner,fun hf => absurd hf hnot,fun _ => ⟨hflag,?_⟩⟩
    · exact hmk.direct hd (subInv_copy (hle _ hred) (fun i hi => (hcell _ hred i hi).1) pmap.owner)
        (subInv_copy (hle _ hgreen) (fun i hi => (hcell _ hgreen i hi).1) pmap.owner)
        (subInv_copy (hle _ hblue) (fun i hi => (hcell _ hblue i hi).1) pmap.owner)
    · constructor
      · intro ch hch i hi
        have hlt : i < pmap.visual.colormapEntries := Nat.lt_of_lt_of_le hi (hle ch hch)
        have hold := hcell ch hch i hi
        cases ch <;> simpa only [ColormapRec.sub,hlt,if_true] using hold
      · intro ch hch c hc
        have hold := hcreated.pixels ch hch c hc
        cases ch <;> exact hold

lemma copied_some (h : MapInv t pmap) (hfull : pmap.allAllocated = true → Full pmap) (hh : Heap) {client : Fin n}
    (hnot : ¬ (pmap.allAllocated = true ∧ pmap.owner = client)) :
    Copied t pmap (copyColormapAndFree hh pmap client).2.1 (copyColormapAndFree hh pmap client).2.2 := by
  have hall : (pmap.allAllocated && decide (pmap.owner = client)) = false := by
    rw [Bool.and_eq_false_iff,decide_eq_false_iff_not,← Bool.not_eq_true]
    tauto
  have hmk := mapInv_create (t := t) h.visual false client
  have hnil : pmap.allAllocated = true → ∀ ch ∈ pmap.visual.channels, (pmap.sub ch).pixels client = [] :=
    fun hf ch hch => (hfull hf).pixels ch hch client fun heq => hnot ⟨hf,heq.symm⟩
  simp only [copyColormapAndFree,hall,Bool.false_eq_true,if_false,h.visual.dynamic]
  cases hd : pmap.visual.cls.direct with
  | false =>
    obtain ⟨h₁,_,h₂,_⟩ := copyFree_spec (h.only hd) hh client
    simp only [dixCreateColormap,hd,Bool.false_eq_true,if_false,Bool.false_and] at hmk ⊢
    refine ⟨h.pseudo hd h₁,hmk.pseudo hd h₂,rfl,rfl,rfl,fun hf => ⟨hf,?_⟩,fun hf => by simp at hf⟩
    have hkeep := copyFree_nil client hh pmap.red (SubMap.create pmap.visual.colormapEntries false client)
      (hnil hf .pseudoMap (by simp [channels_pseudo hd]))
    rw [hkeep]
    exact hfull hf
  | true =>
    have hred : Channel.redMap ∈ pmap.visual.channels := by simp [channels_direct hd]
    have hgreen : Channel.greenMap ∈ pmap.visual.channels := by simp [channels_direct hd]
    have hblue : Channel.blueMap ∈ pmap.visual.channels := by simp [channels_direct hd]
    simp only [dixCreateColormap,hd,if_true,Bool.false_and] at hmk ⊢
    obtain ⟨hr₁,_,hr₂,_⟩ := copyFree_spec (h.red hd) hh client
    generalize hr : copyFree true client hh pmap.red
      (SubMap.create (pmap.visual.numEntries .redMap) false client) = red at hr₁ hr₂ ⊢
    obtain ⟨hg₁,_,hg₂,_⟩ := copyFree_spec (h.green hd) red.heap client
    generalize hg : copyFree true client red.heap pmap.green
      (SubMap.create (pmap.visual.numEntries .greenMap) false client) = green at hg₁ hg₂ ⊢
    obtain ⟨hb₁,_,hb₂,_⟩ := copyFree_spec (h.blue hd) green.heap client
    generalize hb : copyFree true client green.heap pmap.blue
      (SubMap.create (pmap.visual.numEntries .blueMap) false client) = blue at hb₁ hb₂ ⊢
    refine ⟨h.direct hd hr₁ hg₁ hb₁,hmk.direct hd hr₂ hg₂ hb₂,rfl,rfl,rfl,fun hf => ⟨hf,?_⟩,fun hf => by simp at hf⟩
    have hkr : red.src = pmap.red := by rw [← hr]; exact copyFree_nil client _ _ _ (hnil hf _ hred)
    have hkg : green.src = pmap.green := by rw [← hg]; exact copyFree_nil client _ _ _ (hnil hf _ hgreen)
    have hkb : blue.src = pmap.blue := by rw [← hb]; exact copyFree_nil client _ _ _ (hnil hf _ hblue)
    rw [hkr,hkg,hkb]
    exact hfull hf

/-- `CopyColormapAndFree` keeps the counts right in the old map and gets them right in the new one. -/
theorem copyColormapAndFree_spec (h : MapInv t pmap) (hfull : pmap.allAllocated = true → Full pmap) (hh : Heap)
    (client : Fin n) :
    Copied t pmap (copyColormapAndFree hh pmap client).2.1 (copyColormapAndFree hh pmap client).2.2 := by
  by_cases hall : pmap.allAllocated = true ∧ pmap.owner = client
  · exact copied_all h (hfull hall.1) hall.1 hh hall.2
  · exact copied_some h hfull hh hall

end Move

section Full

lemma findLoop_full {cells : ℕ → Entry} {size : ℕ} (hfull : ∀ i < size, (cells i).refcnt = allocPrivate)
    (isMatch : Entry → Bool) (beingCreated : Bool) (count pixel : ℕ) (hpixel : pixel < size) :
    findLoop cells size isMatch beingCreated count pixel none = .nothing := by
  induction count generalizing pixel with
  | zero => rfl
  | succ count ih =>
    have hnext : (if pixel+1 ≥ size then 0 else pixel+1) < size := by split_ifs <;> omega
    have hcell := hfull pixel hpixel
    rw [findLoop,hcell,if_neg (by decide),if_neg (by decide)]
    exact ih _ hnext

lemma findColor_full (h : MapInv t pmap) (hfull : Full pmap) (ch : Channel) (hch : ch ∈ pmap.visual.channels) (rgb : Rgb)
    (pixel : ℕ) (client : Option (Fin n)) (realloc : Bool) :
    findColor pmap ch rgb pixel client realloc = (.badAlloc,pixel,pmap) := by
  have hnone := findLoop_full (fun i hi => (hfull.cells ch hch i hi).1) (compare ch · rgb) pmap.beingCreated
    (pmap.visual.numEntries ch) _ (findStart_lt pixel (h.visual.numEntries_bounds hch).1)
  simp only [findColor,hnone]

lemma allocColor_full (h : MapInv t pmap) (hfull : Full pmap) (al : Allocs) (client : Fin n) (hh : Heap)
    (root : Option (ColormapRec n)) (rgb : Rgb) (pixel : ℕ) :
    (allocColor al client hh pmap root rgb pixel).status = .badAlloc ∧
      (allocColor al client hh pmap root rgb pixel).pmap = pmap ∧
      (allocColor al client hh pmap root rgb pixel).entry = false := by
  cases hd : pmap.visual.cls.direct with
  | false =>
    have hfind := findColor_full h hfull .pseudoMap (by simp [channels_pseudo hd]) rgb
    simp [allocColor,hd,h.visual.dynamic,hfind]
  | true =>
    have hfind := findColor_full h hfull .redMap (by simp [channels_direct hd]) rgb
    simp [allocColor,hd,h.visual.dynamic,allocColorDirect,hfind]

lemma full_free (h : MapInv t pmap) (hfull : Full pmap) (ch : Channel) (hch : ch ∈ pmap.visual.channels) :
    (pmap.sub ch).free = 0 := by
  rw [(h.sub ch hch).counts.free]
  have : tally (pmap.visual.numEntries ch) (pmap.sub ch).cells isSpare = 0 := by
    refine Finset.sum_eq_zero fun i hi => ?_
    have hcell := (hfull.cells ch hch i (Finset.mem_range.mp hi)).1
    have : isSpare ((pmap.sub ch).cells i) = false := isSpare_eq_false.mpr (by rw [hcell]; decide)
    rw [this]
    rfl
  omega

lemma allocPseudo_full (h : MapInv t pmap) (hfull : Full pmap) (hd : pmap.visual.cls.direct = false) {c : ℕ} (hc : 0 < c)
    (al : Allocs) (client : Fin n) (r : ℕ) (contig : Bool) :
    allocPseudo al client pmap c r contig = some ⟨.badAlloc,pmap,[],0,[]⟩ := by
  have hzero : pmap.red.free = 0 := full_free h hfull .pseudoMap (by simp [channels_pseudo hd])
  rw [allocPseudo]
  dsimp only
  rw [if_pos]
  omega

lemma allocDirect_full (h : MapInv t pmap) (hfull : Full pmap) (hd : pmap.visual.cls.direct = true) {c : ℕ} (hc : 0 < c)
    (al : Allocs) (client : Fin n) (r g b : ℕ) (contig : Bool) :
    allocDirect al client pmap c r g b contig = some ⟨.badAlloc,pmap,[],0,0,0⟩ := by
  have hzero : pmap.red.free = 0 := full_free h hfull .redMap (by simp [channels_direct hd])
  rw [allocDirect]
  dsimp only
  rw [if_pos]
  omega

lemma allocColorCells_full (h : MapInv t pmap) (hfull : Full pmap) {c : ℕ} (hc : 0 < c) (al : Allocs) (client : Fin n)
    (hh : Heap) (planes : ℕ) (contig : Bool) :
    ∃ rep, allocColorCells al client hh pmap c planes contig = some rep ∧ rep.status = .badAlloc ∧ rep.pmap = pmap ∧
      rep.heap = hh ∧ rep.entry = false := by
  rw [allocColorCells,if_neg (by simp [h.visual.dynamic])]
  split
  · exact ⟨_,rfl,rfl,rfl,rfl,rfl⟩
  split
  · rename_i hcls
    rw [allocDirect_full h hfull (h.visual.direct_iff.mp hcls) hc]
    exact ⟨_,rfl,rfl,rfl,rfl,rfl⟩
  · rename_i hcls
    have hd : pmap.visual.cls.direct = false := by
      rw [← Bool.not_eq_true,← h.visual.direct_iff]
      exact hcls
    rw [allocPseudo_full h hfull hd hc]
    exact ⟨_,rfl,rfl,rfl,rfl,rfl⟩

lemma allocColorPlanes_full (h : MapInv t pmap) (hfull : Full pmap) {c : ℕ} (hc : 0 < c) (al : Allocs) (client : Fin n)
    (hh : Heap) (r g b : ℕ) (contig : Bool) :
    ∃ rep, allocColorPlanes al client hh pmap c r g b contig = some rep ∧ rep.status = .badAlloc ∧ rep.pmap = pmap ∧
      rep.heap = hh ∧ rep.entry = false := by
  rw [allocColorPlanes,if_neg (by simp [h.visual.dynamic])]
  split
  · exact ⟨_,rfl,rfl,rfl,rfl,rfl⟩
  split
  · rename_i hcls
    rw [allocDirect_full h hfull (h.visual.direct_iff.mp hcls) hc]
    exact ⟨_,rfl,rfl,rfl,rfl,rfl⟩
  · rename_i hcls
    have hd : pmap.visual.cls.direct = false := by
      rw [← Bool.not_eq_true,← h.visual.direct_iff]
      exact hcls
    rw [allocPseudo_full h hfull hd hc]
    exact ⟨_,rfl,rfl,rfl,rfl,rfl⟩

lemma freePixels_full (h : MapInv t pmap) (hfull : Full pmap) {client : Fin n} (hne : pmap.owner ≠ client) (hh : Heap) :
    freePixels hh pmap client = (hh,pmap) := by
  have hnil : ∀ s : SubMap n, s.pixels client = [] → freePixelsOf true client hh s = (hh,s) := by
    intro s hs
    simp only [freePixelsOf,if_true,hs,List.foldl_nil,SubMap.setPixels]
    rw [← hs,Function.update_eq_self]
  have hpix := fun ch hch => hfull.pixels ch hch client (Ne.symm hne)
  cases hd : pmap.visual.cls.direct with
  | false =>
    have hr := hnil pmap.red (hpix .pseudoMap (by simp [channels_pseudo hd]))
    simp [freePixels,hd,h.visual.dynamic,hr]
  | true =>
    have hr := hnil pmap.red (hpix .redMap (by simp [channels_direct hd]))
    have hg := hnil pmap.green (hpix .greenMap (by simp [channels_direct hd]))
    have hb := hnil pmap.blue (hpix .blueMap (by simp [channels_direct hd]))
    simp [freePixels,hd,h.visual.dynamic,hr,hg,hb]

end Full

section Fake

lemma subInv_freeTemporary {size : ℕ} {s : SubMap n} (hs : SubInv true size s) (i : ℕ) :
    SubInv true size (freeTemporary s i) := by
  rcases Nat.lt_or_ge i size with hi | hi
  · exact hs.freeTemporary i hi
  · rw [freeTemporary]
    split_ifs
    · refine hs.of_agree (fun j hj => ?_) rfl rfl
      simp only [SubMap.setCell,Function.update_of_ne (show j ≠ i by omega)]
    · exact hs

/-- `FakeFreeColor` keeps the counts right. -/
theorem fakeFreeColor_spec (h : MapInv true pmap) (pixel : ℕ) :
    MapInv true (fakeFreeColor pmap pixel) ∧ MapRel (fun _ _ => True) pmap (fakeFreeColor pmap pixel) := by
  have hself : MapRel (fun _ _ => True) pmap pmap := ⟨rfl,rfl,rfl,rfl,fun _ _ => trivial⟩
  have hpseudo : pmap.visual.cls.direct = false →
      MapInv true { pmap with red := freeTemporary pmap.red pixel } ∧
        MapRel (fun _ _ => True) pmap { pmap with red := freeTemporary pmap.red pixel } := fun hd =>
    ⟨h.pseudo hd (subInv_freeTemporary (h.only hd) pixel),mapRel_pseudo hd trivial⟩
  rw [fakeFreeColor]
  cases hcls : pmap.visual.cls with
  | grayScale => exact hpseudo (by rw [hcls]; rfl)
  | pseudoColor => exact hpseudo (by rw [hcls]; rfl)
  | directColor =>
    have hd : pmap.visual.cls.direct = true := by rw [hcls]; rfl
    exact ⟨h.direct hd (subInv_freeTemporary (h.red hd) _) (subInv_freeTemporary (h.green hd) _)
      (subInv_freeTemporary (h.blue hd) _),mapRel_direct hd trivial trivial trivial⟩
  | staticGray => exact ⟨h,hself⟩
  | staticColor => exact ⟨h,hself⟩
  | trueColor => exact ⟨h,hself⟩

/-- `FakeAllocColor` keeps the counts right. -/
theorem fakeAllocColor_spec (h : MapInv true pmap) (rgb : Rgb) (pixel : ℕ) :
    MapInv true (fakeAllocColor pmap rgb pixel).2 ∧
      MapRel (fun _ _ => True) pmap (fakeAllocColor pmap rgb pixel).2 := by
  have hself : MapRel (fun _ _ => True) pmap pmap := ⟨rfl,rfl,rfl,rfl,fun _ _ => trivial⟩
  -- What one channel becomes, whether `FindColor` has a cell for it or not.
  have hfind : ∀ (pm : ColormapRec n) (ch : Channel) (p q : ℕ), MapInv true pm → ch ∈ pm.visual.channels →
      ∃ s', (if (findColor pm ch rgb p none true).1 = .success then (findColor pm ch rgb p none true).2
        else (q,(findColor pm ch rgb p none true).2.2)).2 = pm.setSub s' ch ∧ SubInv true (pm.visual.numEntries ch) s' := by
    intro pm ch p q hpm hch
    obtain ⟨s',h₁,h₂⟩ : ∃ s', (findColor pm ch rgb p none true).2.2 = pm.setSub s' ch ∧
        SubInv true (pm.visual.numEntries ch) s' :=
      findColor_nobody (hpm.visual.numEntries_bounds hch).1 (hpm.sub ch hch)
    refine ⟨s',?_,h₂⟩
    split_ifs <;> exact h₁
  have hpseudo : ∀ q, pmap.visual.cls.direct = false →
      MapInv true (if (findColor pmap .pseudoMap rgb 0 none true).1 = .success then
        (findColor pmap .pseudoMap rgb 0 none true).2 else (q,(findColor pmap .pseudoMap rgb 0 none true).2.2)).2 ∧
      MapRel (fun _ _ => True) pmap (if (findColor pmap .pseudoMap rgb 0 none true).1 = .success then
        (findColor pmap .pseudoMap rgb 0 none true).2 else (q,(findColor pmap .pseudoMap rgb 0 none true).2.2)).2 := by
    intro q hd
    obtain ⟨s',h₁,h₂⟩ := hfind pmap .pseudoMap 0 q h (by simp [channels_pseudo hd])
    rw [h₁]
    exact ⟨h.pseudo hd h₂,mapRel_pseudo hd trivial⟩
  rw [fakeAllocColor]
  cases hcls : pmap.visual.cls with
  | grayScale => exact hpseudo _ (by rw [hcls]; rfl)
  | pseudoColor => exact hpseudo _ (by rw [hcls]; rfl)
  | directColor =>
    have hd : pmap.visual.cls.direct = true := by rw [hcls]; rfl
    dsimp only
    obtain ⟨r,hr₁,hr₂⟩ := hfind pmap .redMap (pmap.visual.field .redMap pixel)
      (findBestPixel ((findColor pmap .redMap rgb (pmap.visual.field .redMap pixel) none true).2.2.sub .redMap).cells
        (pmap.visual.numEntries .redMap) rgb .redMap <<< pmap.visual.offset .redMap) h (by simp [channels_direct hd])
    rw [hr₁]
    have h' : MapInv true (pmap.setSub r .redMap) := h.direct hd hr₂ (h.green hd) (h.blue hd)
    obtain ⟨g,hg₁,hg₂⟩ := hfind (pmap.setSub r .redMap) .greenMap (pmap.visual.field .greenMap pixel)
      (findBestPixel ((findColor (pmap.setSub r .redMap) .greenMap rgb (pmap.visual.field .greenMap pixel) none
        true).2.2.sub .greenMap).cells (pmap.visual.numEntries .greenMap) rgb .greenMap <<< pmap.visual.offset .greenMap)
      h' (by simp [ColormapRec.setSub,channels_direct hd])
    rw [hg₁]
    have h'' : MapInv true ((pmap.setSub r .redMap).setSub g .greenMap) := h.direct hd hr₂ hg₂ (h.blue hd)
    obtain ⟨b,hb₁,hb₂⟩ := hfind ((pmap.setSub r .redMap).setSub g .greenMap) .blueMap (pmap.visual.field .blueMap pixel)
      (findBestPixel ((findColor ((pmap.setSub r .redMap).setSub g .greenMap) .blueMap rgb
        (pmap.visual.field .blueMap pixel) none true).2.2.sub .blueMap).cells (pmap.visual.numEntries .blueMap) rgb
        .blueMap <<< pmap.visual.offset .blueMap)
      h'' (by simp [ColormapRec.setSub,channels_direct hd])
    rw [hb₁]
    exact ⟨h.direct hd hr₂ hg₂ hb₂,mapRel_direct hd trivial trivial trivial⟩
  | staticGray => exact ⟨h,hself⟩
  | staticColor => exact ⟨h,hself⟩
  | trueColor => exact ⟨h,hself⟩

lemma fakeFreeColor_full (hfull : Full pmap) (pixel : ℕ) : Full (fakeFreeColor pmap pixel) := by
  have hcell : ∀ {size : ℕ} {s : SubMap n} (i : ℕ),
      (∀ j < size, (s.cells j).refcnt = allocPrivate ∧ (s.cells j).fShared = false) →
      ∀ j < size, ((freeTemporary s i).cells j).refcnt = allocPrivate ∧ ((freeTemporary s i).cells j).fShared = false := by
    intro size s i hs j hj
    rw [freeTemporary]
    split_ifs with htemp
    · have hne : j ≠ i := by
        rintro rfl
        rw [(hs j hj).1] at htemp
        exact absurd htemp (by decide)
      simp only [SubMap.setCell,Function.update_of_ne hne]
      exact hs j hj
    · exact hs j hj
  have hpix : ∀ (s : SubMap n) (i : ℕ), (freeTemporary s i).pixels = s.pixels := by
    intro s i
    rw [freeTemporary]
    split_ifs <;> rfl
  rw [fakeFreeColor]
  have hpseudo : pmap.visual.cls.direct = false → Full { pmap with red := freeTemporary pmap.red pixel } := by
    intro hd
    have hmem : Channel.pseudoMap ∈ pmap.visual.channels := by simp [channels_pseudo hd]
    constructor
    · intro ch hch
      rw [channels_pseudo hd,List.mem_singleton] at hch
      subst hch
      exact hcell pixel (hfull.cells _ hmem)
    · intro ch hch c hc
      rw [channels_pseudo hd,List.mem_singleton] at hch
      subst hch
      exact (congrFun (hpix _ _) c).trans (hfull.pixels _ hmem c hc)
  cases hcls : pmap.visual.cls with
  | grayScale => exact hpseudo (by rw [hcls]; rfl)
  | pseudoColor => exact hpseudo (by rw [hcls]; rfl)
  | directColor =>
    have hd : pmap.visual.cls.direct = true := by rw [hcls]; rfl
    have hred : Channel.redMap ∈ pmap.visual.channels := by simp [channels_direct hd]
    have hgreen : Channel.greenMap ∈ pmap.visual.channels := by simp [channels_direct hd]
    have hblue : Channel.blueMap ∈ pmap.visual.channels := by simp [channels_direct hd]
    constructor
    · intro ch hch
      rw [channels_direct hd] at hch
      cases ch with
      | redMap => exact hcell _ (hfull.cells _ hred)
      | greenMap => exact hcell _ (hfull.cells _ hgreen)
      | blueMap => exact hcell _ (hfull.cells _ hblue)
      | pseudoMap => simp at hch
    · intro ch hch c hc
      rw [channels_direct hd] at hch
      cases ch with
      | redMap => exact (congrFun (hpix _ _) c).trans (hfull.pixels _ hred c hc)
      | greenMap => exact (congrFun (hpix _ _) c).trans (hfull.pixels _ hgreen c hc)
      | blueMap => exact (congrFun (hpix _ _) c).trans (hfull.pixels _ hblue c hc)
      | pseudoMap => simp at hch
  | staticGray => exact hfull
  | staticColor => exact hfull
  | trueColor => exact hfull

lemma fakeAllocColor_full (h : MapInv t pmap) (hfull : Full pmap) (rgb : Rgb) (pixel : ℕ) :
    (fakeAllocColor pmap rgb pixel).2 = pmap := by
  have hpseudo := fun hd : pmap.visual.cls.direct = false =>
    findColor_full h hfull .pseudoMap (by simp [channels_pseudo hd]) rgb 0 none true
  rw [fakeAllocColor]
  cases hcls : pmap.visual.cls with
  | grayScale =>
    dsimp only
    rw [hpseudo (by rw [hcls]; rfl)]
    rfl
  | pseudoColor =>
    dsimp only
    rw [hpseudo (by rw [hcls]; rfl)]
    rfl
  | directColor =>
    have hd : pmap.visual.cls.direct = true := by rw [hcls]; rfl
    have hred := fun p => findColor_full h hfull .redMap (by simp [channels_direct hd]) rgb p none true
    have hgreen := fun p => findColor_full h hfull .greenMap (by simp [channels_direct hd]) rgb p none true
    have hblue := fun p => findColor_full h hfull .blueMap (by simp [channels_direct hd]) rgb p none true
    simp [hred,hgreen,hblue]
  | staticGray => rfl
  | staticColor => rfl
  | trueColor => rfl

end Fake

end Xlibre.Dix.Colormap
