import Xlibre.Dix.Colormap.ChannelOps

/-! The colormaps of a server and the requests on them, and what a request must meet so that the
counts stay right. -/
namespace Xlibre.Dix.Colormap

open Xlibre.Lib.Submasks Xlibre.Lib.Tally

variable {n : ℕ}

/-- All maps, the shared colours, and the `CMAPENTRY` resources (map and client). -/
structure World (n : ℕ) where
  maps : List (ColormapRec n)
  heap : Heap
  cmapEntries : List (ℕ × Fin n)

/-- Requests by the clients of a server and the calls of its sprite code. -/
inductive Req (n : ℕ)
  | allocColor (m : ℕ) (client : Fin n) (al : Allocs) (root : Option (ColormapRec n)) (rgb : Rgb) (pixel : ℕ)
  | allocColorCells (m : ℕ) (client : Fin n) (al : Allocs) (colors planes : UInt16) (contig : Bool)
  | allocColorPlanes (m : ℕ) (client : Fin n) (al : Allocs) (colors r g b : UInt16) (contig : Bool)
  | freeColors (m : ℕ) (client : Fin n) (pixels : List ℕ) (mask : ℕ)
  | freeClientPixels (k : ℕ)
  | copyColormapAndFree (m : ℕ) (client : Fin n) (create : Bool)
  | fakeAllocColor (m : ℕ) (rgb : Rgb) (pixel : ℕ)
  | fakeFreeColor (m : ℕ) (pixel : ℕ)

def World.addEntry (w : World n) (m : ℕ) (client : Fin n) (entry : Bool) : World n :=
  if entry then { w with cmapEntries := w.cmapEntries ++ [(m,client)] } else w

/-- Store the results of a request on map `m`. -/
def World.put (w : World n) (m : ℕ) (heap : Heap) (pmap : ColormapRec n) : World n :=
  { w with maps := w.maps.set m pmap, heap := heap }

def putCells (w : World n) (m : ℕ) (client : Fin n) (r : CellsReply n) : Status × World n :=
  (r.status,(w.put m r.heap r.pmap).addEntry m client r.entry)

/-- One request; `none` when it leaves a table. -/
def step (w : World n) : Req n → Option (Status × World n)
  | .allocColor m client al root rgb pixel =>
    match w.maps[m]? with
    | none => some (.badColor,w)
    | some pmap =>
      let r := allocColor al client w.heap pmap root rgb pixel
      some (r.status,(w.put m r.heap r.pmap).addEntry m client r.entry)
  | .allocColorCells m client al colors planes contig =>
    match w.maps[m]? with
    | none => some (.badColor,w)
    | some pmap =>
      if colors = 0 then some (.badValue 0,w)
      else do
        let r ← allocColorCells al client w.heap pmap colors.toNat planes.toNat contig
        some (putCells w m client r)
  | .allocColorPlanes m client al colors r g b contig =>
    match w.maps[m]? with
    | none => some (.badColor,w)
    | some pmap =>
      if colors = 0 then some (.badValue 0,w)
      else do
        let r ← allocColorPlanes al client w.heap pmap colors.toNat r.toNat g.toNat b.toNat contig
        some (putCells w m client r)
  | .freeColors m client pixels mask =>
    match w.maps[m]? with
    | none => some (.badColor,w)
    | some pmap =>
      let r := freeColors w.heap pmap client pixels mask
      some (r.1,w.put m r.2.1 r.2.2)
  | .freeClientPixels k =>
    match w.cmapEntries[k]? with
    | none => some (.success,w)
    | some (m,client) =>
      let w := { w with cmapEntries := w.cmapEntries.eraseIdx k }
      match w.maps[m]? with
      | none => some (.success,w)
      | some pmap =>
        let r := freePixels w.heap pmap client
        some (.success,w.put m r.1 r.2)
  | .copyColormapAndFree m client create =>
    match w.maps[m]? with
    | none => some (.badColor,w)
    | some pmap =>
      if create = false then some (.badAlloc,w)
      else
        let r := copyColormapAndFree w.heap pmap client
        some (.success,{ w.put m r.1 r.2.1 with maps := w.maps.set m r.2.1 ++ [r.2.2] })
  | .fakeAllocColor m rgb pixel =>
    match w.maps[m]? with
    | none => some (.success,w)
    | some pmap => some (.success,w.put m w.heap (fakeAllocColor pmap rgb pixel).2)
  | .fakeFreeColor m pixel =>
    match w.maps[m]? with
    | none => some (.success,w)
    | some pmap => some (.success,w.put m w.heap (fakeFreeColor pmap pixel))

def ChannelMask (v : Visual) (ch : Channel) : Prop :=
  ∃ w, v.mask ch = (2^w-1)*2^v.offset ch ∧ v.mask ch < 2^32 ∧ 2^w ≤ v.colormapEntries

structure VisualOk (v : Visual) : Prop where
  dynamic : v.cls.dynamic = true
  short : v.colormapEntries < 2^15
  pseudo : v.cls.direct = false → v.colormapEntries = 2^v.nplanes
  red : v.cls.direct = true → ChannelMask v .redMap
  green : v.cls.direct = true → ChannelMask v .greenMap
  blue : v.cls.direct = true → ChannelMask v .blueMap
  redGreen : v.cls.direct = true → Apart v.redMask v.greenMask
  redBlue : v.cls.direct = true → Apart v.redMask v.blueMask
  greenBlue : v.cls.direct = true → Apart v.greenMask v.blueMask

structure MapInv (t : Bool) (pmap : ColormapRec n) : Prop where
  visual : VisualOk pmap.visual
  created : pmap.beingCreated = false
  sub : ∀ ch ∈ pmap.visual.channels, SubInv t (pmap.visual.numEntries ch) (pmap.sub ch)

def Allocs.list (al : Allocs) : Channel → Bool
  | .redMap | .pseudoMap => al.red
  | .greenMap => al.green
  | .blueMap => al.blue

def planesOf (r g b : ℕ) : Channel → ℕ
  | .redMap => r
  | .greenMap => g
  | .blueMap => b
  | .pseudoMap => r+g+b

/-- The checks of `AllocPseudo` and `AllocDirect`. -/
def Passes (pmap : ColormapRec n) (c : ℕ) (planes : Channel → ℕ) : Prop :=
  ∀ ch ∈ pmap.visual.channels, planes ch < 32 ∧ (c : ℤ) ≤ shiftInt c (planes ch) ∧
    shiftInt c (planes ch) ≤ (pmap.sub ch).free

def isTemporary (e : Entry) : Bool := e.refcnt = allocTemporary

def TempOk (pmap : ColormapRec n) (c : ℕ) (planes : Channel → ℕ) (contig : Bool) : Prop :=
  Passes pmap c planes → ∀ ch ∈ pmap.visual.channels,
    planes ch = 0 ∨ (pmap.visual.cls.direct = false ∧ planes ch = pmap.visual.nplanes ∧ contig = false ∧
      3 ≤ pmap.visual.nplanes) →
    ((c*2^planes ch+tally (pmap.visual.numEntries ch) (pmap.sub ch).cells isTemporary : ℕ) : ℤ) ≤ (pmap.sub ch).free

/-- In a channel of a `DirectColor` map the first loop of `AllocCP` finds its blocks inside the channel:
at the first position of the mask, or at one where the channel is as large as the map. -/
def NarrowOk (pmap : ColormapRec n) (c : ℕ) (planes : Channel → ℕ) : Prop :=
  Passes pmap c planes → pmap.visual.cls.direct = true → ∀ ch ∈ pmap.visual.channels, 0 < planes ch →
    ∃ k, k+planes ch ≤ pmap.visual.nplanes ∧ (k = 0 ∨ pmap.visual.numEntries ch = pmap.visual.colormapEntries) ∧
      Fits (pmap.sub ch).cells (pmap.visual.numEntries ch) (planes ch) k c

/-- `AllocColor` meets no full count and no list that cannot grow on a cell in use, and where the
resource cannot be added, the client has nothing else in the map. -/
structure ColorOk (pmap : ColormapRec n) (client : Fin n) (al : Allocs) (rgb : Rgb) : Prop where
  find : ∀ ch ∈ pmap.visual.channels, FindOk (pmap.sub ch) (pmap.visual.numEntries ch) ch rgb (al.list ch)
  entry : al.addResource = false → pmap.visual.cls.direct = true → pmap.owner ≠ client →
    pmap.red.pixels client = [] → pmap.green.pixels client = [] ∧ pmap.blue.pixels client = []

end Xlibre.Dix.Colormap

/-! Whole maps: what `AllocColor` and the requests for cells do to the counts of all channels. -/
namespace Xlibre.Dix.Colormap

open Xlibre.Lib.Submasks Xlibre.Lib.Tally

variable {n : ℕ} {t : Bool}

section Visual

variable {v : Visual} (hv : VisualOk v)

lemma channels_direct (h : v.cls.direct = true) : v.channels = [.redMap,.greenMap,.blueMap] := if_pos h

lemma channels_pseudo (h : v.cls.direct = false) : v.channels = [.pseudoMap] := by
  rw [Visual.channels,h]
  rfl

include hv in
lemma VisualOk.channelMask {ch : Channel} (hd : v.cls.direct = true) (hch : ch ∈ v.channels) : ChannelMask v ch := by
  rw [channels_direct hd] at hch
  cases ch with
  | redMap => exact hv.red hd
  | greenMap => exact hv.green hd
  | blueMap => exact hv.blue hd
  | pseudoMap => simp at hch

lemma ChannelMask.numEntries {ch : Channel} (h : ChannelMask v ch) (hch : ch ≠ .pseudoMap) :
    ∃ w, v.mask ch = (2^w-1)*2^v.offset ch ∧ v.mask ch < 2^32 ∧ v.numEntries ch = 2^w ∧ 2^w ≤ v.colormapEntries := by
  obtain ⟨w,h₁,h₂,h₃⟩ := h
  refine ⟨w,h₁,h₂,?_,h₃⟩
  have hpos := Nat.two_pow_pos w
  have : v.numEntries ch = (v.mask ch >>> v.offset ch)+1 := by
    cases ch <;> first | rfl | exact absurd rfl hch
  rw [this,h₁,Nat.shiftRight_eq_div_pow,Nat.mul_div_cancel _ (Nat.two_pow_pos _)]
  omega

include hv in
lemma VisualOk.numEntries_bounds {ch : Channel} (hch : ch ∈ v.channels) :
    0 < v.numEntries ch ∧ v.numEntries ch ≤ v.colormapEntries := by
  cases hd : v.cls.direct with
  | false =>
    rw [channels_pseudo hd,List.mem_singleton] at hch
    subst hch
    have := hv.pseudo hd
    have := Nat.two_pow_pos v.nplanes
    simp only [Visual.numEntries]
    omega
  | true =>
    have hne : ch ≠ .pseudoMap := by
      rw [channels_direct hd] at hch
      rintro rfl
      simp at hch
    obtain ⟨w,_,_,h₃,h₄⟩ := (hv.channelMask hd hch).numEntries hne
    have := Nat.two_pow_pos w
    omega

lemma target_field {ch : Channel} (hch : ch ≠ .pseudoMap) (hm : ChannelMask v ch) {i rest : ℕ}
    (hi : i < v.numEntries ch) (hrest : Apart rest (v.mask ch))
    (hgood : (i <<< v.offset ch ||| rest) &&& (allOnes ^^^ v.rgbMask) = 0) :
    target v ch 0 (i <<< v.offset ch ||| rest) = some i := by
  obtain ⟨w,h₁,_,h₃,_⟩ := hm.numEntries hch
  have hfield : ((i <<< v.offset ch ||| rest) ||| 0) &&& v.mask ch = i <<< v.offset ch := by
    apply Nat.eq_of_testBit_eq
    intro j
    have hr := hrest j
    rw [Nat.or_zero,Nat.testBit_and,Nat.testBit_or,Nat.testBit_shiftLeft]
    have hbit : (v.mask ch).testBit j = (decide (v.offset ch ≤ j) && decide (j-v.offset ch < w)) := by
      rw [h₁,Nat.mul_comm,Nat.testBit_two_pow_mul,Nat.testBit_two_pow_sub_one]
    have hsmall : w ≤ j-v.offset ch → i.testBit (j-v.offset ch) = false := fun hw =>
      Nat.testBit_lt_two_pow (by
        have : 2^w ≤ 2^(j-v.offset ch) := Nat.pow_le_pow_right (by omega) hw
        omega)
    cases hbr : rest.testBit j with
    | true =>
      have hout := hr hbr
      rw [hout,Bool.and_false]
      rw [hbit,Bool.and_eq_false_iff,decide_eq_false_iff_not,decide_eq_false_iff_not] at hout
      by_cases ho : v.offset ch ≤ j
      · rw [hsmall (by omega),Bool.and_false]
      · simp [ho]
    | false =>
      rw [hbit]
      by_cases ho : v.offset ch ≤ j
      · by_cases hw : j-v.offset ch < w
        · simp [ho,hw]
        · simp [ho,hw,hsmall (by omega)]
      · simp [ho]
  have hback : (i <<< v.offset ch) >>> v.offset ch = i := by
    rw [Nat.shiftLeft_eq,Nat.shiftRight_eq_div_pow,Nat.mul_div_cancel _ (Nat.two_pow_pos _)]
  simp only [target]
  rw [hfield,hback,if_neg hch,if_neg (by rw [hgood]; omega)]

lemma target_pseudo (bits p : ℕ) (h : (p ||| bits) < v.colormapEntries) (hs : v.colormapEntries < 2^15) :
    target v .pseudoMap bits p = some (p ||| bits) := by
  have hall : (p ||| bits) &&& allOnes = p ||| bits := by
    rw [allOnes,Nat.and_two_pow_sub_one_eq_mod,Nat.mod_eq_of_lt (by omega)]
  simp only [target,Visual.mask,Visual.offset,Visual.numEntries,hall,Nat.shiftRight_zero,if_true,Nat.and_zero]
  rw [if_neg (by omega)]

end Visual

section Rel

structure SamePerm (s s' : SubMap n) : Prop where
  refcnt : ∀ i, (s'.cells i).refcnt = (s.cells i).refcnt
  free : s'.free = s.free
  pixels : ∀ c, (s'.pixels c).Perm (s.pixels c)

lemma Same.samePerm {s s' : SubMap n} (h : Same s s') : SamePerm s s' :=
  ⟨h.refcnt,h.free,fun c => by rw [h.pixels]⟩

lemma SubInv.samePerm {size : ℕ} {s s' : SubMap n} (hs : SubInv t size s) (h : SamePerm s s') : SubInv t size s' := by
  refine ⟨⟨fun i hi => ?_,?_⟩,fun c x hx => hs.range c x ((h.pixels c).mem_iff.mp hx)⟩
  · have hocc : occ s' i = occ s i := Finset.sum_congr rfl fun c _ => (h.pixels c).count_eq i
    rw [hocc,h.refcnt]
    exact hs.counts.cell i hi
  · rw [h.free,hs.counts.free]
    congr 1
    exact tally_congr fun i _ => by simp only [isSpare,h.refcnt]

structure MapRel (R : SubMap n → SubMap n → Prop) (pmap pmap' : ColormapRec n) : Prop where
  visual : pmap'.visual = pmap.visual
  owner : pmap'.owner = pmap.owner
  flag : pmap'.allAllocated = pmap.allAllocated
  created : pmap'.beingCreated = pmap.beingCreated
  sub : ∀ ch ∈ pmap.visual.channels, R (pmap.sub ch) (pmap'.sub ch)

lemma MapRel.imp {R R' : SubMap n → SubMap n → Prop} {pmap pmap' : ColormapRec n} (h : MapRel R pmap pmap')
    (hR : ∀ s s', R s s' → R' s s') : MapRel R' pmap pmap' :=
  ⟨h.visual,h.owner,h.flag,h.created,fun ch hch => hR _ _ (h.sub ch hch)⟩

lemma MapRel.refl (pmap : ColormapRec n) : MapRel Same pmap pmap := ⟨rfl,rfl,rfl,rfl,fun _ _ => Same.refl _⟩

lemma MapInv.rel {pmap pmap' : ColormapRec n} (h : MapInv t pmap) (hr : MapRel SamePerm pmap pmap') : MapInv t pmap' := by
  refine ⟨hr.visual ▸ h.visual,hr.created.trans h.created,fun ch hch => ?_⟩
  rw [hr.visual] at hch ⊢
  exact (h.sub ch hch).samePerm (hr.sub ch hch)

lemma mapRel_direct {R : SubMap n → SubMap n → Prop} {pmap : ColormapRec n} (hd : pmap.visual.cls.direct = true)
    {r g b : SubMap n} (hr : R pmap.red r) (hg : R pmap.green g) (hb : R pmap.blue b) :
    MapRel R pmap { pmap with red := r, green := g, blue := b } := by
  refine ⟨rfl,rfl,rfl,rfl,fun ch hch => ?_⟩
  rw [channels_direct hd] at hch
  cases ch with
  | redMap => exact hr
  | greenMap => exact hg
  | blueMap => exact hb
  | pseudoMap => simp at hch

lemma mapRel_pseudo {R : SubMap n → SubMap n → Prop} {pmap : ColormapRec n} (hd : pmap.visual.cls.direct = false)
    {r : SubMap n} (hr : R pmap.red r) : MapRel R pmap { pmap with red := r } := by
  refine ⟨rfl,rfl,rfl,rfl,fun ch hch => ?_⟩
  rw [channels_pseudo hd,List.mem_singleton] at hch
  subst hch
  exact hr

variable {pmap : ColormapRec n} (h : MapInv t pmap)

include h in
lemma MapInv.direct (hd : pmap.visual.cls.direct = true) {r g b : SubMap n}
    (hr : SubInv t (pmap.visual.numEntries .redMap) r) (hg : SubInv t (pmap.visual.numEntries .greenMap) g)
    (hb : SubInv t (pmap.visual.numEntries .blueMap) b) :
    MapInv t { pmap with red := r, green := g, blue := b } := by
  refine ⟨h.visual,h.created,fun ch hch => ?_⟩
  rw [channels_direct hd] at hch
  cases ch with
  | redMap => exact hr
  | greenMap => exact hg
  | blueMap => exact hb
  | pseudoMap => simp at hch

include h in
lemma MapInv.pseudo (hd : pmap.visual.cls.direct = false) {r : SubMap n}
    (hr : SubInv t pmap.visual.colormapEntries r) : MapInv t { pmap with red := r } := by
  refine ⟨h.visual,h.created,fun ch hch => ?_⟩
  rw [channels_pseudo hd,List.mem_singleton] at hch
  subst hch
  exact hr

include h in
lemma MapInv.red (hd : pmap.visual.cls.direct = true) : SubInv t (pmap.visual.numEntries .redMap) pmap.red :=
  h.sub .redMap (by simp [channels_direct hd])

include h in
lemma MapInv.green (hd : pmap.visual.cls.direct = true) : SubInv t (pmap.visual.numEntries .greenMap) pmap.green :=
  h.sub .greenMap (by simp [channels_direct hd])

include h in
lemma MapInv.blue (hd : pmap.visual.cls.direct = true) : SubInv t (pmap.visual.numEntries .blueMap) pmap.blue :=
  h.sub .blueMap (by simp [channels_direct hd])

include h in
lemma MapInv.only (hd : pmap.visual.cls.direct = false) : SubInv t pmap.visual.colormapEntries pmap.red :=
  h.sub .pseudoMap (by simp [channels_pseudo hd])

end Rel

end Xlibre.Dix.Colormap
