import Xlibre.Dix.Colormap.Requests

/-! Requests for read-only colours, and moving the pixels of a client: what they leave of a map. -/
namespace Xlibre.Dix.Colormap

open Xlibre.Lib.Submasks Xlibre.Lib.Tally

variable {n : ℕ} {t : Bool}

section Single

variable {pmap : ColormapRec n} {ch : Channel} {client : Fin n}

lemma freeCoPixel_hit {v : Visual} (hdyn : v.cls.dynamic = true) {bits i p : ℕ} (hp : target v ch bits p = some i)
    (st : FreeCoState n) (hi : i ∈ st.pixClient) :
    freeCoPixel v ch bits st p =
      { st with
        heap := (freeCell st.heap st.sub i).1
        sub := (freeCell st.heap st.sub i).2
        pixClient := st.pixClient.replace i allOnes
        zapped := st.zapped+1 } := by
  simp only [target] at hp
  simp only [freeCoPixel]
  by_cases hbad : ((p ||| bits) &&& v.mask ch) >>> v.offset ch ≥ v.numEntries ch ∨
      p &&& (if ch = .pseudoMap then 0 else allOnes ^^^ v.rgbMask) ≠ 0
  · rw [if_pos hbad] at hp
    simp at hp
  · rw [if_neg hbad,Option.some.injEq] at hp
    rw [if_neg hbad,hp,if_pos hi,if_pos hdyn]

lemma freeCo_single (pmap : ColormapRec n) (ch : Channel) (client : Fin n) (hdyn : pmap.visual.cls.dynamic = true) {i p : ℕ} (hp : target pmap.visual ch 0 p = some i)
    (hi : i ∈ (pmap.sub ch).pixels client) (hsize : pmap.visual.numEntries ch < 2^31)
    (hrange : ∀ x ∈ (pmap.sub ch).pixels client, x < pmap.visual.numEntries ch) (hh : Heap) :
    (freeCo hh pmap client ch [p] 0).2 =
      ((freeCell hh (pmap.sub ch) i).1,
        pmap.setSub ((freeCell hh (pmap.sub ch) i).2.setPixels client (((pmap.sub ch).pixels client).erase i)) ch) := by
  have hone : ∀ x ∈ (pmap.sub ch).pixels client, x ≠ allOnes := by
    intro x hx
    have := hrange x hx
    unfold allOnes
    omega
  have hmask : submasks 32 0 = [0] := rfl
  have hleft : ((((pmap.sub ch).pixels client).replace i allOnes).filter (· ≠ allOnes)).take
      (((pmap.sub ch).pixels client).length-1) = ((pmap.sub ch).pixels client).erase i := by
    rw [filter_replace _ _ (hone i hi),List.filter_eq_self.mpr (by simpa using hone)]
    exact List.take_of_length_le (by rw [List.length_erase_of_mem hi])
  have hst := freeCoPixel_hit hdyn hp ⟨hh,pmap.sub ch,(pmap.sub ch).pixels client,0,.success⟩ hi
  rw [freeCo,if_neg (by simp),hmask]
  simp only [List.foldl_cons,List.foldl_nil,hst,Nat.zero_add,ne_eq,Nat.one_ne_zero,not_false_eq_true,if_true]
  exact congrArg _ (congrArg (fun l => pmap.setSub ((freeCell hh (pmap.sub ch) i).2.setPixels client l) ch) hleft)

lemma Added.samePerm {s s' : SubMap n} {i : ℕ} (ha : Added s s' client i) (hh : Heap) :
    SamePerm s ((freeCell hh s' i).2.setPixels client ((s'.pixels client).erase i)) := by
  obtain ⟨h₁,h₂⟩ := ha.undo hh
  refine ⟨h₁,h₂,fun c => ?_⟩
  simp only [SubMap.setPixels,freeCell_pixels,ha.pixels,Function.update_idem]
  by_cases hc : c = client
  · rw [hc,Function.update_self,Function.update_self]
    have hswap : (s.pixels client ++ [i]).Perm ([i] ++ s.pixels client) := List.perm_append_comm
    have := hswap.erase i
    rwa [List.singleton_append,List.erase_cons_head] at this
  · rw [Function.update_of_ne hc]

lemma Added.same_nil {s s' : SubMap n} {i : ℕ} (ha : Added s s' client i) (hnil : s.pixels client = []) (hh : Heap) :
    Same s ((freeCell hh s' i).2.setPixels client []) := by
  obtain ⟨h₁,h₂⟩ := ha.undo hh
  refine ⟨h₁,h₂,?_⟩
  simp only [SubMap.setPixels,freeCell_pixels,ha.pixels,Function.update_idem]
  rw [← hnil,Function.update_eq_self]

lemma Added.mem {s s' : SubMap n} {i : ℕ} (ha : Added s s' client i) : i ∈ s'.pixels client := by
  rw [ha.pixels,Function.update_self]
  simp

lemma Added.freePixelsOf {s s' : SubMap n} {i : ℕ} (ha : Added s s' client i) (hnil : s.pixels client = []) (hh : Heap) :
    Same s (freePixelsOf true client hh s').2 := by
  have hlist : s'.pixels client = [i] := by rw [ha.pixels,Function.update_self,hnil,List.nil_append]
  simp only [Colormap.freePixelsOf,if_true,hlist,List.foldl_cons,List.foldl_nil]
  exact ha.same_nil hnil hh

end Single

section Fields

variable {v : Visual} (hv : VisualOk v)

lemma within_field (ch : Channel) (hm : ChannelMask v ch) (hch : ch ≠ .pseudoMap) {i : ℕ} (hi : i < v.numEntries ch) :
    Within (i <<< v.offset ch) (v.mask ch) := by
  obtain ⟨w,h₁,_,h₃,_⟩ := hm.numEntries hch
  intro j hj
  rw [Nat.testBit_shiftLeft,Bool.and_eq_true,decide_eq_true_eq] at hj
  rw [h₁,Nat.mul_comm,Nat.testBit_two_pow_mul,Nat.testBit_two_pow_sub_one,Bool.and_eq_true,decide_eq_true_eq,
    decide_eq_true_eq]
  refine ⟨hj.1,?_⟩
  by_contra hw
  have hpow : 2^w ≤ 2^(j-v.offset ch) := Nat.pow_le_pow_right (by omega) (by omega)
  have := Nat.testBit_lt_two_pow (x := i) (i := j-v.offset ch) (by omega)
  simp [this] at hj

lemma apart_or {a b m : ℕ} (ha : Apart a m) (hb : Apart b m) : Apart (a ||| b) m := by
  intro j hj
  rw [Nat.testBit_or,Bool.or_eq_true] at hj
  rcases hj with hj | hj
  · exact ha j hj
  · exact hb j hj

lemma within_or {a b m : ℕ} (ha : Within a m) (hb : Within b m) : Within (a ||| b) m := by
  intro j hj
  rw [Nat.testBit_or,Bool.or_eq_true] at hj
  rcases hj with hj | hj
  · exact ha j hj
  · exact hb j hj

lemma within_or_left (a b : ℕ) : Within a (a ||| b) := fun j hj => by simp [hj]

lemma within_or_right (a b : ℕ) : Within b (a ||| b) := fun j hj => by simp [hj]

lemma apart_alpha {m : ℕ} (hm : m < 2^32) (hin : Within m (v.redMask ||| v.greenMask ||| v.blueMask)) :
    Apart v.alphaMask m := by
  intro j hj
  by_contra hcon
  rw [Bool.not_eq_false] at hcon
  have hlt : j < 32 := by
    by_contra hge
    have hpow : 2^32 ≤ 2^j := Nat.pow_le_pow_right (by omega) (by omega)
    rw [Nat.testBit_lt_two_pow (by omega)] at hcon
    simp at hcon
  have hor := hin j hcon
  rw [Visual.alphaMask] at hj
  split_ifs at hj
  · simp at hj
  · rw [Nat.testBit_xor,hor,allOnes,Nat.testBit_two_pow_sub_one] at hj
    simp [hlt] at hj

include hv in
lemma rgbMask_lt (hd : v.cls.direct = true) : v.rgbMask < 2^32 := by
  obtain ⟨_,_,hr,_⟩ := hv.red hd
  obtain ⟨_,_,hg,_⟩ := hv.green hd
  obtain ⟨_,_,hb,_⟩ := hv.blue hd
  have hor := Nat.or_lt_two_pow (Nat.or_lt_two_pow hr hg) hb
  refine Nat.or_lt_two_pow hor ?_
  rw [Visual.alphaMask]
  split_ifs
  · exact Nat.two_pow_pos 32
  · exact Nat.xor_lt_two_pow (by decide) hor

include hv in
lemma target_of_parts (hd : v.cls.direct = true) {ch : Channel} (hch : ch ∈ v.channels) {i : ℕ} (rest : ℕ)
    (hi : i < v.numEntries ch) (hrest : Apart rest (v.mask ch)) (hin : Within rest v.rgbMask) :
    target v ch 0 (i <<< v.offset ch ||| rest) = some i := by
  have hne : ch ≠ .pseudoMap := by
    rw [channels_direct hd] at hch
    rintro rfl
    simp at hch
  have hm := hv.channelMask hd hch
  have hmask : Within (v.mask ch) v.rgbMask := by
    intro j hj
    rw [Visual.rgbMask]
    cases ch with
    | redMap => simp [show v.redMask.testBit j = true from hj]
    | greenMap => simp [show v.greenMask.testBit j = true from hj]
    | blueMap => simp [show v.blueMask.testBit j = true from hj]
    | pseudoMap => exact absurd rfl hne
  have hall : Within (i <<< v.offset ch ||| rest) v.rgbMask := within_or ((within_field ch hm hne hi).trans hmask) hin
  refine target_field hne hm hi hrest ((apart_iff_and _ _).mp fun j hj => ?_)
  have hbit := hall j hj
  have hlt : j < 32 := by
    by_contra hcon
    have hpow : 2^32 ≤ 2^j := Nat.pow_le_pow_right (by omega) (by omega)
    have := rgbMask_lt hv hd
    rw [Nat.testBit_lt_two_pow (by omega)] at hbit
    simp at hbit
  rw [Nat.testBit_xor,hbit,allOnes,Nat.testBit_two_pow_sub_one]
  simp [hlt]

end Fields

section Color

variable {pmap : ColormapRec n} (h : MapInv t pmap)

lemma Kept.imp {R R' : SubMap n → SubMap n → Prop} {status : Status} {pmap pmap' : ColormapRec n}
    (hk : Kept t R status pmap pmap') (hR : ∀ s s', R s s' → R' s s') : Kept t R' status pmap pmap' :=
  ⟨hk.inv,hk.frame,fun ht hs => (hk.error ht hs).imp hR⟩

lemma addColorEntry_cases (al : Allocs) (client : Fin n) (r : ColorReply n) :
    ((addColorEntry al client r).status = r.status ∧ (addColorEntry al client r).pmap = r.pmap) ∨
    ((r.pmap.red.pixels client).length = 1 ∧ (addColorEntry al client r).pmap =
      (freeColors r.heap r.pmap client [r.pixel] 0).2.2) ∨
    ((r.pmap.red.pixels client).length = 1 ∧ r.pmap.owner ≠ client ∧ al.addResource = false ∧
      (addColorEntry al client r).pmap = (freePixels r.heap r.pmap client).2) := by
  rw [addColorEntry]
  split
  · rename_i hfirst
    split
    · exact .inr (.inl ⟨hfirst.1,rfl⟩)
    · split
      · rename_i hadd
        exact .inr (.inr ⟨hfirst.1,hfirst.2.1,hadd,rfl⟩)
      · exact .inl ⟨rfl,rfl⟩
  · exact .inl ⟨rfl,rfl⟩

lemma Added.nil_of_length {s s' : SubMap n} {client : Fin n} {i : ℕ} (ha : Added s s' client i)
    (hlen : (s'.pixels client).length = 1) : s.pixels client = [] := by
  rw [ha.pixels,Function.update_self,List.length_append,List.length_singleton,Nat.add_eq_right,
    List.length_eq_zero_iff] at hlen
  exact hlen

include h in
/-- `AllocColor` on a map with one table keeps the counts right, and after an error the map is as it was. -/
theorem allocColor_pseudo (hd : pmap.visual.cls.direct = false) (hflag : pmap.allAllocated = false) (al : Allocs)
    (client : Fin n) (hh : Heap) (root : Option (ColormapRec n)) (rgb : Rgb) (pixel : ℕ)
    (hok : ColorOk pmap client al rgb) :
    let rep := allocColor al client hh pmap root rgb pixel
    Kept t Same rep.status pmap rep.pmap := by
  have hmem : Channel.pseudoMap ∈ pmap.visual.channels := by simp [channels_pseudo hd]
  simp only [allocColor,hd,Bool.false_eq_true,if_false,h.visual.dynamic,Bool.true_or,if_true]
  obtain ⟨s',hmap,hinv,⟨hst,i,hi,hpix,ha⟩ | ⟨hst,hsame⟩⟩ := findColor_client client
    (rootHint pmap root rgb pixel) h.created (h.visual.numEntries_bounds hmem).1 (h.sub _ hmem) (hok.find _ hmem)
  · simp only [Allocs.list] at hst hmap hpix
    rw [hst,if_neg (by simp),hmap,hpix]
    obtain ⟨h₁,h₂⟩ | ⟨hlen,h₂⟩ | ⟨hlen,_,_,h₂⟩ := addColorEntry_cases al client
      ⟨.success,hh,pmap.setSub s' .pseudoMap,i <<< pmap.visual.offset .pseudoMap,rgb,false⟩
    · rw [h₁,h₂]
      exact ⟨h.pseudo hd hinv,mapRel_pseudo hd trivial,fun _ hne => absurd rfl hne⟩
    · -- No memory for the resource: `FreeColors` takes the new pixel back.
      have hnil := ha.nil_of_length hlen
      have htarget : target pmap.visual .pseudoMap 0 (i <<< pmap.visual.offset .pseudoMap) = some i := by
        have := target_pseudo (v := pmap.visual) 0 i (by simpa [Visual.numEntries] using hi) h.visual.short
        simpa [Visual.offset] using this
      have hsmall : pmap.visual.numEntries .pseudoMap < 2^31 := by
        have := h.visual.short
        simp only [Visual.numEntries]
        omega
      have hfree := freeCo_single (pmap.setSub s' .pseudoMap) .pseudoMap client
        h.visual.dynamic htarget ha.mem hsmall (hinv.range client) hh
      have hlist : ((pmap.setSub s' .pseudoMap).sub .pseudoMap).pixels client = [i] := by
        change s'.pixels client = [i]
        rw [ha.pixels,Function.update_self,hnil,List.nil_append]
      rw [hlist,List.erase_cons_head] at hfree
      have hmap' := freeColors_map_pseudo (pmap.setSub s' .pseudoMap) hd hflag hh client
        [i <<< pmap.visual.offset .pseudoMap] 0
      rw [Nat.zero_and,hfree] at hmap'
      rw [h₂,hmap']
      exact Kept.of_same h (mapRel_pseudo hd (ha.same_nil hnil hh))
    · have heq : (freePixels hh (pmap.setSub s' .pseudoMap) client).2 =
          { pmap with red := (freePixelsOf true client hh s').2 } := by
        simp only [freePixels,ColormapRec.setSub,hd,h.visual.dynamic]
        rfl
      rw [h₂,heq]
      exact Kept.of_same h (mapRel_pseudo hd (ha.freePixelsOf (ha.nil_of_length hlen) hh))
  · simp only [Allocs.list] at hst hmap
    rw [hst,if_pos (by simp),hmap]
    exact Kept.of_same h (mapRel_pseudo hd hsame)

/-- What a channel of a `DirectColor` map looks like after `FindColor` took a cell of it. -/
structure Got (t : Bool) (v : Visual) (ch : Channel) (client : Fin n) (s s' : SubMap n) (i : ℕ) : Prop where
  inv : SubInv t (v.numEntries ch) s'
  lt : i < v.numEntries ch
  added : Added s s' client i

lemma Got.freeCo (pmap : ColormapRec n) (hv : VisualOk pmap.visual) {ch : Channel} (hch : ch ∈ pmap.visual.channels) {client : Fin n} {s s' : SubMap n} {i : ℕ} (hs' : pmap.sub ch = s')
    (hg : Got t pmap.visual ch client s s' i) {p : ℕ} (hp : target pmap.visual ch 0 p = some i) (hh : Heap) :
    ∃ s'', (freeCo hh pmap client ch [p] 0).2.2 = pmap.setSub s'' ch ∧ SamePerm s s'' := by
  have hsmall : pmap.visual.numEntries ch < 2^31 := by
    have := (hv.numEntries_bounds hch).2
    have := hv.short
    omega
  have hfree := freeCo_single pmap ch client hv.dynamic hp (hs' ▸ hg.added.mem) hsmall
    (hs' ▸ hg.inv.range client) hh
  rw [hfree,hs']
  exact ⟨_,rfl,hg.added.samePerm hh⟩

include h in
lemma allocColor_entry (hd : pmap.visual.cls.direct = true) (hflag : pmap.allAllocated = false) (al : Allocs)
    (client : Fin n) (hh : Heap) (rgb : Rgb) (hok : ColorOk pmap client al rgb) {r' g' b' : SubMap n} {i j k : ℕ}
    (hr : Got t pmap.visual .redMap client pmap.red r' i) (hg : Got t pmap.visual .greenMap client pmap.green g' j)
    (hb : Got t pmap.visual .blueMap client pmap.blue b' k) :
    let rep := addColorEntry al client
      ⟨.success,hh,{ pmap with red := r', green := g', blue := b' },
        (i <<< pmap.visual.offsetRed) ||| (j <<< pmap.visual.offsetGreen) ||| (k <<< pmap.visual.offsetBlue) |||
          pmap.visual.alphaMask,rgb,false⟩
    Kept t SamePerm rep.status pmap rep.pmap := by
  have hred : Channel.redMap ∈ pmap.visual.channels := by simp [channels_direct hd]
  have hgreen : Channel.greenMap ∈ pmap.visual.channels := by simp [channels_direct hd]
  have hblue : Channel.blueMap ∈ pmap.visual.channels := by simp [channels_direct hd]
  have hinv := h.direct hd hr.inv hg.inv hb.inv
  dsimp only
  generalize hpixel : (i <<< pmap.visual.offsetRed) ||| (j <<< pmap.visual.offsetGreen) |||
    (k <<< pmap.visual.offsetBlue) ||| pmap.visual.alphaMask = pixel
  obtain ⟨h₁,h₂⟩ | ⟨hlen,h₂⟩ | ⟨hlen,hown,hadd,h₂⟩ := addColorEntry_cases al client
    ⟨.success,hh,{ pmap with red := r', green := g', blue := b' },pixel,rgb,false⟩
  · rw [h₁,h₂]
    exact ⟨hinv,mapRel_direct hd trivial trivial trivial,fun _ hne => absurd rfl hne⟩
  · -- Each field of the pixel leads back to the cell that its channel got.
    have hwr : Within (i <<< pmap.visual.offsetRed) pmap.visual.redMask :=
      within_field .redMap (hinv.visual.red hd) (by simp) hr.lt
    have hwg : Within (j <<< pmap.visual.offsetGreen) pmap.visual.greenMask :=
      within_field .greenMap (hinv.visual.green hd) (by simp) hg.lt
    have hwb : Within (k <<< pmap.visual.offsetBlue) pmap.visual.blueMask :=
      within_field .blueMap (hinv.visual.blue hd) (by simp) hb.lt
    have hir : Within pmap.visual.redMask pmap.visual.rgbMask := fun x hx => by simp [Visual.rgbMask,hx]
    have hig : Within pmap.visual.greenMask pmap.visual.rgbMask := fun x hx => by simp [Visual.rgbMask,hx]
    have hib : Within pmap.visual.blueMask pmap.visual.rgbMask := fun x hx => by simp [Visual.rgbMask,hx]
    have hia : Within pmap.visual.alphaMask pmap.visual.rgbMask := within_or_right _ _
    have har : Apart pmap.visual.alphaMask pmap.visual.redMask := by
      obtain ⟨_,_,hlt,_⟩ := h.visual.red hd
      exact apart_alpha hlt fun x hx => by simp [hx]
    have hag : Apart pmap.visual.alphaMask pmap.visual.greenMask := by
      obtain ⟨_,_,hlt,_⟩ := h.visual.green hd
      exact apart_alpha hlt fun x hx => by simp [hx]
    have hab : Apart pmap.visual.alphaMask pmap.visual.blueMask := by
      obtain ⟨_,_,hlt,_⟩ := h.visual.blue hd
      exact apart_alpha hlt fun x hx => by simp [hx]
    have self : ∀ m, Within m m := fun _ _ hx => hx
    have htr : target pmap.visual .redMap 0 pixel = some i := by
      rw [← hpixel,Nat.or_assoc,Nat.or_assoc]
      refine target_of_parts h.visual hd hred _ hr.lt (apart_or ?_ (apart_or ?_ har)) ?_
      · exact (h.visual.redGreen hd).symm.mono hwg (self _)
      · exact (h.visual.redBlue hd).symm.mono hwb (self _)
      · exact within_or (hwg.trans hig) (within_or (hwb.trans hib) hia)
    have htg : target pmap.visual .greenMap 0 pixel = some j := by
      rw [← hpixel,Nat.or_comm (i <<< _),Nat.or_assoc,Nat.or_assoc]
      refine target_of_parts h.visual hd hgreen _ hg.lt (apart_or ?_ (apart_or ?_ hag)) ?_
      · exact (h.visual.redGreen hd).mono hwr (self _)
      · exact (h.visual.greenBlue hd).symm.mono hwb (self _)
      · exact within_or (hwr.trans hir) (within_or (hwb.trans hib) hia)
    have htb : target pmap.visual .blueMap 0 pixel = some k := by
      rw [← hpixel,Nat.or_comm (i <<< _ ||| _),Nat.or_assoc]
      refine target_of_parts h.visual hd hblue _ hb.lt (apart_or (apart_or ?_ ?_) hab) ?_
      · exact (h.visual.redBlue hd).mono hwr (self _)
      · exact (h.visual.greenBlue hd).mono hwg (self _)
      · exact within_or (within_or (hwr.trans hir) (hwg.trans hig)) hia
    have hmap := freeColors_map_direct { pmap with red := r', green := g', blue := b' } hd hflag hh client
      [pixel] 0
    simp only [Nat.zero_and] at hmap
    obtain ⟨r'',hr₁,hr₂⟩ := Got.freeCo { pmap with red := r', green := g', blue := b' } h.visual hred rfl hr
      htr hh
    rw [hr₁] at hmap
    obtain ⟨g'',hg₁,hg₂⟩ := Got.freeCo { pmap with red := r'', green := g', blue := b' } h.visual hgreen rfl
      hg htg (freeCo hh { pmap with red := r', green := g', blue := b' } client .redMap [pixel] 0).2.1
    simp only [ColormapRec.setSub] at hmap hg₁
    rw [hg₁] at hmap
    obtain ⟨b'',hb₁,hb₂⟩ := Got.freeCo { pmap with red := r'', green := g'', blue := b' } h.visual hblue rfl
      hb htb (freeCo (freeCo hh { pmap with red := r', green := g', blue := b' } client .redMap [pixel] 0).2.1
        { pmap with red := r'', green := g', blue := b' } client .greenMap [pixel] 0).2.1
    rw [h₂]
    dsimp only
    rw [hmap,hb₁]
    have hrel : MapRel SamePerm pmap { pmap with red := r'', green := g'', blue := b'' } := mapRel_direct hd hr₂ hg₂ hb₂
    exact ⟨h.rel hrel,hrel.imp fun _ _ _ => trivial,fun _ _ => hrel⟩
  · have hnil := hr.added.nil_of_length hlen
    obtain ⟨hng,hnb⟩ := hok.entry hadd hd hown hnil
    rw [h₂]
    simp only [freePixels,hd,h.visual.dynamic,if_true]
    exact (Kept.of_same h (mapRel_direct hd (hr.added.freePixelsOf hnil _) (hg.added.freePixelsOf hng _)
      (hb.added.freePixelsOf hnb _))).imp fun _ _ => Same.samePerm

lemma findColor_got (h : MapInv t pmap) {ch : Channel} (hch : ch ∈ pmap.visual.channels) (client : Fin n) (rgb : Rgb)
    (realloc : Bool) (hok : FindOk (pmap.sub ch) (pmap.visual.numEntries ch) ch rgb realloc) (pixel : ℕ) :
    ∃ s', (findColor pmap ch rgb pixel (some client) realloc).2.2 = pmap.setSub s' ch ∧
      (((findColor pmap ch rgb pixel (some client) realloc).1 = .success ∧ ∃ i,
        (findColor pmap ch rgb pixel (some client) realloc).2.1 = i <<< pmap.visual.offset ch ∧
        Got t pmap.visual ch client (pmap.sub ch) s' i) ∨
      ((findColor pmap ch rgb pixel (some client) realloc).1 = .badAlloc ∧ Same (pmap.sub ch) s')) := by
  obtain ⟨s',h₁,h₂,⟨h₃,i,hi,hpix,ha⟩ | h₃⟩ := findColor_client client pixel h.created
    (h.visual.numEntries_bounds hch).1 (h.sub _ hch) hok
  · exact ⟨s',h₁,.inl ⟨h₃,i,hpix,h₂,hi,ha⟩⟩
  · exact ⟨s',h₁,.inr h₃⟩

include h in
/-- `AllocColor` on a `DirectColor` map keeps the counts right; after an error the counts are as they were,
and the lists hold the same pixels. -/
theorem allocColor_direct (hd : pmap.visual.cls.direct = true) (hflag : pmap.allAllocated = false) (al : Allocs)
    (client : Fin n) (hh : Heap) (root : Option (ColormapRec n)) (rgb : Rgb) (pixel : ℕ)
    (hok : ColorOk pmap client al rgb) :
    let rep := allocColor al client hh pmap root rgb pixel
    Kept t SamePerm rep.status pmap rep.pmap := by
  have hred : Channel.redMap ∈ pmap.visual.channels := by simp [channels_direct hd]
  have hgreen : Channel.greenMap ∈ pmap.visual.channels := by simp [channels_direct hd]
  have hblue : Channel.blueMap ∈ pmap.visual.channels := by simp [channels_direct hd]
  have hkept : ∀ {status : Status} {r g b : SubMap n}, SamePerm pmap.red r → SamePerm pmap.green g →
      SamePerm pmap.blue b → Kept t SamePerm status pmap { pmap with red := r, green := g, blue := b } := by
    intro status r g b hr hg hb
    have hrel := mapRel_direct hd hr hg hb
    exact ⟨h.rel hrel,hrel.imp fun _ _ _ => trivial,fun _ _ => hrel⟩
  have hself : ∀ s : SubMap n, SamePerm s s := fun s => (Same.refl s).samePerm
  -- A shifted cell number alone leads back to the cell.
  have halone : ∀ {ch : Channel} {i : ℕ}, ch ∈ pmap.visual.channels → i < pmap.visual.numEntries ch →
      target pmap.visual ch 0 (i <<< pmap.visual.offset ch) = some i := by
    intro ch i hch hi
    have := target_of_parts h.visual hd hch 0 hi (by simp [Apart]) (by simp [Within])
    rwa [Nat.or_zero] at this
  simp only [allocColor,hd,h.visual.dynamic,Bool.true_or,if_true,allocColorDirect]
  generalize rootHint pmap root rgb pixel = start
  obtain ⟨r',hr₁,⟨hr₂,i,hr₃,hr₄⟩ | ⟨hr₂,hr₃⟩⟩ := findColor_got h hred client rgb al.red (hok.find _ hred)
    (pmap.visual.field .redMap start)
  swap
  · rw [hr₂,if_pos (by simp),hr₁]
    exact hkept hr₃.samePerm (hself _) (hself _)
  rw [hr₂,if_neg (by simp),hr₁,hr₃]
  have h' : MapInv t (pmap.setSub r' .redMap) := h.direct hd hr₄.inv (h.green hd) (h.blue hd)
  obtain ⟨g',hg₁,⟨hg₂,j,hg₃,hg₄⟩ | ⟨hg₂,hg₃⟩⟩ := findColor_got h' hgreen client rgb al.green (hok.find _ hgreen)
    (pmap.visual.field .greenMap start)
  swap
  · rw [hg₂,if_pos (by simp),hg₁]
    obtain ⟨r'',hr₅,hr₆⟩ := Got.freeCo ((pmap.setSub r' .redMap).setSub g' .greenMap) h.visual hred rfl hr₄
      (halone hred hr₄.lt) hh
    simp only [hr₅]
    exact hkept hr₆ hg₃.samePerm (hself _)
  rw [hg₂,if_neg (by simp),hg₁,hg₃]
  have h'' : MapInv t ((pmap.setSub r' .redMap).setSub g' .greenMap) := h.direct hd hr₄.inv hg₄.inv (h.blue hd)
  obtain ⟨b',hb₁,⟨hb₂,k,hb₃,hb₄⟩ | ⟨hb₂,hb₃⟩⟩ := findColor_got h'' hblue client rgb al.blue (hok.find _ hblue)
    (pmap.visual.field .blueMap start)
  swap
  · rw [hb₂,if_pos (by simp),hb₁]
    obtain ⟨g'',hg₅,hg₆⟩ := Got.freeCo
      (((pmap.setSub r' .redMap).setSub g' .greenMap).setSub b' .blueMap) h.visual hgreen rfl hg₄
      (halone hgreen hg₄.lt) hh
    obtain ⟨r'',hr₅,hr₆⟩ := Got.freeCo
      ((((pmap.setSub r' .redMap).setSub g' .greenMap).setSub b' .blueMap).setSub g'' .greenMap) h.visual hred
      rfl hr₄ (halone hred hr₄.lt) (freeCo hh (((pmap.setSub r' .redMap).setSub g' .greenMap).setSub b' .blueMap)
        client .greenMap [j <<< pmap.visual.offset .greenMap] 0).2.1
    have hvisual : (pmap.setSub r' .redMap).visual = pmap.visual := rfl
    simp only [hvisual,hg₅,hr₅]
    exact hkept hr₆ hg₆ hb₃.samePerm
  rw [hb₂,if_neg (by simp),hb₁,hb₃]
  exact allocColor_entry h hd hflag al client hh rgb hok hr₄ hg₄ hb₄

end Color

end Xlibre.Dix.Colormap
