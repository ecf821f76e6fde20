import Xlibre.Dix.Colormap.MapOps

/-! Requests for private cells: what `AllocPseudo`, `AllocDirect` and their two callers leave of a map. -/
namespace Xlibre.Dix.Colormap

open Xlibre.Lib.Submasks Xlibre.Lib.Tally

variable {n : ℕ} {t : Bool}

section Pick

lemma shiftInt_eq {c r : ℕ} {free : ℤ} (hc : 0 < c) (hc' : c < 2^16) (hr : r < 32) (hlow : (c : ℤ) ≤ shiftInt c r)
    (hhigh : shiftInt c r ≤ free) (hfree : free < 2^15) : shiftInt c r = (c*2^r : ℕ) := by
  have hcast : ((c*2^r : ℕ) : ℤ) = (c : ℤ)*2^r := by push_cast; rfl
  have hdvd : (2^r : ℤ) ∣ shiftInt c r := by
    have hq := Int.bmod_add_bdiv ((c : ℤ)*2^r) (2^32)
    generalize Int.bdiv ((c : ℤ)*2^r) (2^32) = q at hq
    push_cast at hq
    have hword : (2^32 : ℤ) = 2^r*2^(32-r) := by rw [← pow_add,Nat.add_sub_cancel' (by omega)]
    refine ⟨c-2^(32-r)*q,?_⟩
    rw [mul_sub,← mul_assoc,← hword,mul_comm]
    exact eq_sub_of_add_eq hq
  -- The shifted count is a positive multiple of 2^r below 2^15.
  have hle := Int.le_of_dvd (by omega) hdvd
  have hr' : r < 15 := by
    by_contra hcon
    have : (2^15 : ℤ) ≤ 2^r := pow_le_pow_right₀ (by norm_num) (by omega)
    omega
  have hsmall : c*2^r < 2^31 := by
    calc c*2^r ≤ c*2^15 := Nat.mul_le_mul_left c (Nat.pow_le_pow_right (by omega) (by omega))
      _ < 2^31 := by omega
  rw [hcast]
  exact Int.bmod_eq_of_le (by norm_num; omega) (by norm_num; omega)

lemma tally_spare (size : ℕ) (cells : ℕ → Entry) :
    tally size cells isSpare = tally size cells isFree+tally size cells isTemporary := by
  rw [tally,tally,tally,← Finset.sum_add_distrib]
  refine Finset.sum_congr rfl fun i _ => ?_
  simp only [isSpare,isFree,isTemporary,allocTemporary]
  by_cases h : (cells i).refcnt = 0
  · simp [h]
  · simp [h]

variable {pmap : ColormapRec n} (h : MapInv t pmap)

include h in
lemma MapInv.free_le {ch : Channel} (hch : ch ∈ pmap.visual.channels) : (pmap.sub ch).free < 2^15 := by
  have hf := (h.sub ch hch).counts.free
  have hle := tally_le (pmap.visual.numEntries ch) (pmap.sub ch).cells isSpare
  have hb := h.visual.numEntries_bounds hch
  have hs := h.visual.short
  omega

lemma tempOk_of_none {pmap : ColormapRec n} (h : MapInv false pmap) {c : ℕ} (hc : 0 < c) (hc' : c < 2^16)
    (planes : Channel → ℕ) (contig : Bool) : TempOk pmap c planes contig := by
  intro hp ch hch _
  obtain ⟨h₁,h₂,h₃⟩ := hp ch hch
  have hshift := shiftInt_eq hc hc' h₁ h₂ h₃ (h.free_le hch)
  have hnone : tally (pmap.visual.numEntries ch) (pmap.sub ch).cells isTemporary = 0 := by
    refine Finset.sum_eq_zero fun i hi => ?_
    have hcell := (h.sub ch hch).counts.cell i (Finset.mem_range.mp hi)
    simp only [CellOk,allocPrivate,allocTemporary] at hcell
    have : ((pmap.sub ch).cells i).refcnt ≠ -2 := by
      intro heq
      rw [heq] at hcell
      simp at hcell
    simp [isTemporary,allocTemporary,this]
  rw [hnone]
  omega

include h in
/-- `AllocCP` on a channel, after the checks: it stays inside the channel and picks free cells. -/
theorem MapInv.pick {c : ℕ} (hc : 0 < c) (hc' : c < 2^16) {planes : Channel → ℕ} {contig : Bool}
    (hp : Passes pmap c planes) (ht : TempOk pmap c planes contig) (hn : NarrowOk pmap c planes) (ch : Channel)
    (hch : ch ∈ pmap.visual.channels) {lim : ℕ} (hlim : pmap.visual.numEntries ch ≤ lim)
    (hlim' : lim ≤ pmap.visual.colormapEntries) :
    shiftInt c (planes ch) = (c*2^planes ch : ℕ) ∧
      ∃ o, allocCP lim pmap.visual (pmap.sub ch).cells c (planes ch) contig = some o ∧
        ∀ r, o = some r → Picked (pmap.visual.numEntries ch) (pmap.sub ch).cells c (planes ch) r := by
  obtain ⟨h₁,h₂,h₃⟩ := hp ch hch
  have hshift := shiftInt_eq hc hc' h₁ h₂ h₃ (h.free_le hch)
  have hspare := tally_spare (pmap.visual.numEntries ch) (pmap.sub ch).cells
  have hfree := (h.sub ch hch).counts.free
  have htemp := ht hp ch hch
  have henough : planes ch = 0 ∨ (pmap.visual.cls.direct = false ∧ planes ch = pmap.visual.nplanes ∧
      contig = false ∧ 3 ≤ pmap.visual.nplanes) →
      c*2^planes ch ≤ tally (pmap.visual.numEntries ch) (pmap.sub ch).cells isFree := by
    intro hcase
    have := htemp hcase
    omega
  refine ⟨hshift,?_⟩
  cases hd : pmap.visual.cls.direct with
  | false =>
    rw [channels_pseudo hd,List.mem_singleton] at hch
    subst hch
    have hlast : lim = pmap.visual.colormapEntries := Nat.le_antisymm hlim' hlim
    rw [hlast]
    refine allocCP_pseudo pmap.visual contig (h.visual.pseudo hd) h.visual.short hc fun hcase => henough ?_
    rcases hcase with h0 | hall
    · exact .inl h0
    · exact .inr ⟨hd,hall⟩
  | true =>
    rcases Nat.eq_zero_or_pos (planes ch) with h0 | hpos
    · have hplain := henough (.inl h0)
      rw [h0,pow_zero,Nat.mul_one] at hplain
      rw [h0]
      obtain ⟨r,hr,hpick⟩ := allocCP_plain pmap.visual contig hlim hplain
      exact ⟨some r,hr,fun r' hr' => Option.some.inj hr' ▸ hpick⟩
    · obtain ⟨k,hk,hwide,hfit⟩ := hn hp hd ch hch hpos
      obtain ⟨r,hr,hpick⟩ := allocCP_direct pmap.visual contig hlim hlim' h.visual.short hpos hc hk hwide hfit
      exact ⟨some r,hr,fun r' hr' => Option.some.inj hr' ▸ hpick⟩

end Pick

section Cells

/-- What a request leaves of a map: right counts, and after an error what was there before. -/
structure Kept (t : Bool) (R : SubMap n → SubMap n → Prop) (status : Status) (pmap pmap' : ColormapRec n) : Prop where
  inv : MapInv t pmap'
  frame : MapRel (fun _ _ => True) pmap pmap'
  error : t = false → status ≠ .success → MapRel R pmap pmap'

variable {pmap : ColormapRec n} (h : MapInv t pmap)

include h in
lemma Kept.of_same {pmap' : ColormapRec n} {status : Status} (hs : MapRel Same pmap pmap') : Kept t Same status pmap pmap' :=
  ⟨h.rel (hs.imp fun _ _ => Same.samePerm),hs.imp fun _ _ _ => trivial,fun _ _ => hs⟩

include h in
/-- `AllocPseudo` takes the cells that `AllocCP` picked, gives them back, or leaves the map alone. -/
theorem allocPseudo_cases (hd : pmap.visual.cls.direct = false) {c : ℕ} (hc : 0 < c) (hc' : c < 2^16)
    (planes : Channel → ℕ) {contig : Bool} (ht : TempOk pmap c planes contig) (al : Allocs) (client : Fin n) :
    ∃ rep, allocPseudo al client pmap c (planes .pseudoMap) contig = some rep ∧
      ((∃ cp, Picked pmap.visual.colormapEntries pmap.red.cells c (planes .pseudoMap) cp ∧
        rep = ⟨.success,{ pmap with red := pmap.red.take client cp (c*2^planes .pseudoMap : ℕ) },
          cp.pixels.take c,cp.mask,cp.pixels⟩) ∨
      (rep.status = .badAlloc ∧ (rep.pmap = pmap ∨
        ∃ cp, Picked pmap.visual.colormapEntries pmap.red.cells c (planes .pseudoMap) cp ∧
          rep.pmap = { pmap with red := { pmap.red with cells := clearCells cp.ent cp.pixels } }))) := by
  rw [allocPseudo]
  dsimp only
  by_cases hbad : planes .pseudoMap ≥ 32 ∨ shiftInt c (planes .pseudoMap) > pmap.red.free ∨
      shiftInt c (planes .pseudoMap) < c ∨ al.temp = false
  · rw [if_pos hbad]
    exact ⟨_,rfl,.inr ⟨rfl,.inl rfl⟩⟩
  rw [if_neg hbad]
  push Not at hbad
  have hp : Passes pmap c planes := by
    intro ch hch
    rw [channels_pseudo hd,List.mem_singleton] at hch
    subst hch
    exact ⟨hbad.1,hbad.2.2.1,hbad.2.1⟩
  have hn : NarrowOk pmap c planes := fun _ hd' => by simp [hd] at hd'
  obtain ⟨hshift,o,ho,hpick⟩ := h.pick hc hc' hp ht hn .pseudoMap (by simp [channels_pseudo hd])
    (le_refl pmap.visual.colormapEntries) (le_refl _)
  simp only [ColormapRec.sub] at ho
  rw [ho,hshift]
  cases o with
  | none => exact ⟨_,rfl,.inr ⟨rfl,.inl rfl⟩⟩
  | some cp =>
    have hcp : Picked pmap.visual.colormapEntries pmap.red.cells c (planes .pseudoMap) cp := hpick cp rfl
    simp only [Option.bind_eq_bind,Option.bind_some]
    cases al.red with
    | false => exact ⟨_,rfl,.inr ⟨rfl,.inr ⟨cp,hcp,rfl⟩⟩⟩
    | true => exact ⟨_,rfl,.inl ⟨cp,hcp,rfl⟩⟩

include h in
/-- `AllocPseudo` takes the cells that `AllocCP` picked, or leaves the map as it was. -/
theorem allocPseudo_spec (hd : pmap.visual.cls.direct = false) {c : ℕ} (hc : 0 < c) (hc' : c < 2^16)
    (planes : Channel → ℕ) {contig : Bool} (ht : TempOk pmap c planes contig) (al : Allocs) (client : Fin n) :
    ∃ rep, allocPseudo al client pmap c (planes .pseudoMap) contig = some rep ∧
      ((∃ cp, Picked pmap.visual.colormapEntries pmap.red.cells c (planes .pseudoMap) cp ∧
        rep = ⟨.success,{ pmap with red := pmap.red.take client cp (c*2^planes .pseudoMap : ℕ) },
          cp.pixels.take c,cp.mask,cp.pixels⟩) ∨
      (rep.status = .badAlloc ∧ MapRel Same pmap rep.pmap)) := by
  obtain ⟨rep,hrep,hcp | ⟨hst,hmap | ⟨cp,hcp,hmap⟩⟩⟩ := allocPseudo_cases h hd hc hc' planes ht al client
  · exact ⟨rep,hrep,.inl hcp⟩
  · exact ⟨rep,hrep,.inr ⟨hst,hmap ▸ MapRel.refl pmap⟩⟩
  · exact ⟨rep,hrep,.inr ⟨hst,hmap ▸ mapRel_pseudo hd (same_clear hcp)⟩⟩

lemma same_undo {size count planes : ℕ} {s : SubMap n} {o : Option CPResult}
    (ho : ∀ r, o = some r → Picked size s.cells count planes r) : Same s (s.undo o) := by
  cases o with
  | none => exact Same.refl s
  | some r => exact same_clear (ho r rfl)

include h in
/-- `AllocDirect` takes the cells that `AllocCP` picked in each channel, or leaves the map as it was. -/
theorem allocDirect_spec (hd : pmap.visual.cls.direct = true) {c : ℕ} (hc : 0 < c) (hc' : c < 2^16)
    (planes : Channel → ℕ) {contig : Bool} (ht : TempOk pmap c planes contig) (hn : NarrowOk pmap c planes) (al : Allocs)
    (client : Fin n) :
    ∃ rep, allocDirect al client pmap c (planes .redMap) (planes .greenMap) (planes .blueMap) contig = some rep ∧
      ((rep.status = .success ∧ ∃ cr cg cb,
        Picked (pmap.visual.numEntries .redMap) pmap.red.cells c (planes .redMap) cr ∧
        Picked (pmap.visual.numEntries .greenMap) pmap.green.cells c (planes .greenMap) cg ∧
        Picked (pmap.visual.numEntries .blueMap) pmap.blue.cells c (planes .blueMap) cb ∧
        rep.pmap =
          { pmap with
            red := pmap.red.take client cr (c*2^planes .redMap : ℕ)
            green := pmap.green.take client cg (c*2^planes .greenMap : ℕ)
            blue := pmap.blue.take client cb (c*2^planes .blueMap : ℕ) }) ∨
      (rep.status = .badAlloc ∧ MapRel Same pmap rep.pmap)) := by
  rw [allocDirect]
  dsimp only
  split
  · exact ⟨_,rfl,.inr ⟨rfl,MapRel.refl pmap⟩⟩
  rename_i hbad
  push Not at hbad
  obtain ⟨hr,hg,hb,hr₁,hr₂,hg₁,hg₂,hb₁,hb₂,-⟩ := hbad
  have hp : Passes pmap c planes := by
    intro ch hch
    rw [channels_direct hd] at hch
    cases ch with
    | redMap => exact ⟨hr,hr₂,hr₁⟩
    | greenMap => exact ⟨hg,hg₂,hg₁⟩
    | blueMap => exact ⟨hb,hb₂,hb₁⟩
    | pseudoMap => simp at hch
  have hpick := fun ch hch => h.pick hc hc' hp ht hn ch hch (h.visual.numEntries_bounds hch).2 (le_refl _)
  obtain ⟨hsr,okR,hR,hpR⟩ := hpick .redMap (by simp [channels_direct hd])
  obtain ⟨hsg,okG,hG,hpG⟩ := hpick .greenMap (by simp [channels_direct hd])
  obtain ⟨hsb,okB,hB,hpB⟩ := hpick .blueMap (by simp [channels_direct hd])
  simp only [ColormapRec.sub] at hR hG hB
  have hundo : MapRel Same pmap
      { pmap with red := pmap.red.undo okR, green := pmap.green.undo okG, blue := pmap.blue.undo okB } :=
    mapRel_direct hd (same_undo hpR) (same_undo hpG) (same_undo hpB)
  simp only [hR,hG,hB,Option.bind_eq_bind,Option.bind_some]
  split
  · rename_i cr cg cb
    split_ifs
    · refine ⟨_,rfl,.inl ⟨rfl,cr,cg,cb,hpR cr rfl,hpG cg rfl,hpB cb rfl,?_⟩⟩
      rw [← hsr,← hsg,← hsb]
    · exact ⟨_,rfl,.inr ⟨rfl,hundo⟩⟩
  · exact ⟨_,rfl,.inr ⟨rfl,hundo⟩⟩

lemma same_freePixelsOf {size count planes : ℕ} {s s' : SubMap n} {cp : CPResult} {client : Fin n}
    (hp : Picked size s.cells count planes cp) (hnil : s.pixels client = [])
    (hs' : Same (s.take client cp (count*2^planes : ℕ)) s') (hh : Heap) : Same s (freePixelsOf true client hh s').2 := by
  have hlist : s'.pixels client = cp.pixels := by
    simp only [hs'.pixels,SubMap.take,Function.update_self,hnil,List.nil_append]
  have hcell : ∀ i, (s'.cells i).refcnt = if i ∈ cp.pixels then -1 else (s.cells i).refcnt := by
    intro i
    simp only [hs'.refcnt,SubMap.take,hp.ent_eq,taken]
    split_ifs <;> rfl
  obtain ⟨h₁,h₂⟩ := freeCells_refcnt cp.pixels hp.nodup_pixels hh s' fun i hi => by
    rw [hcell i,if_pos hi]
    norm_num
  simp only [freePixelsOf,if_true,hlist]
  refine ⟨fun i => ?_,?_,?_⟩
  · refine (h₁ i).trans ?_
    rw [hcell i]
    by_cases hi : i ∈ cp.pixels
    · rw [if_pos hi,if_pos hi,(hp.free i hi).2]
      rfl
    · rw [if_neg hi,if_neg hi]
  · refine Eq.trans (b := (cp.pixels.foldl (fun r i => freeCell r.1 r.2 i) (hh,s')).2.free) rfl ?_
    have hone : cp.pixels.map (fun i => if (s'.cells i).refcnt > 1 then (0 : ℤ) else 1) =
        cp.pixels.map fun _ => 1 := by
      apply List.map_congr_left
      intro i hi
      rw [hcell i,if_pos hi]
      norm_num
    rw [h₂,hone,hs'.free,SubMap.take,List.map_const',List.sum_replicate,hp.length_pixels]
    simp
  · have hpix : ∀ (l : List ℕ) (r : Heap × SubMap n),
        (l.foldl (fun r i => freeCell r.1 r.2 i) r).2.pixels = r.2.pixels := by
      intro l
      induction l with
      | nil => exact fun _ => rfl
      | cons i l ih =>
        intro r
        rw [List.foldl_cons,ih,freeCell_pixels]
    simp only [SubMap.setPixels,hpix,hs'.pixels,SubMap.take,Function.update_idem]
    rw [← hnil,Function.update_eq_self]

lemma VisualOk.direct_iff {v : Visual} (hv : VisualOk v) : v.cls = .directColor ↔ v.cls.direct = true := by
  have hdyn := hv.dynamic
  cases hcls : v.cls <;> simp_all [VisualClass.dynamic,VisualClass.direct]

lemma firstPixels_nil {client : Fin n} (hf : firstPixels pmap client = true) :
    pmap.red.pixels client = [] ∧
      (pmap.visual.cls = .directColor → pmap.green.pixels client = [] ∧ pmap.blue.pixels client = []) := by
  simp only [firstPixels,Bool.and_eq_true,decide_eq_true_eq,Nat.add_eq_zero_iff,List.length_eq_zero_iff] at hf
  refine ⟨hf.1.1,fun hd => ?_⟩
  have hsum := hf.1.2
  rw [if_pos hd,Nat.add_eq_zero_iff,List.length_eq_zero_iff,List.length_eq_zero_iff] at hsum
  exact hsum

include h in
lemma kept_entry_pseudo (hd : pmap.visual.cls.direct = false) {c planes : ℕ} {cp : CPResult} {client : Fin n} {s' : SubMap n}
    (hp : Picked pmap.visual.colormapEntries pmap.red.cells c planes cp)
    (hs' : Same (pmap.red.take client cp (c*2^planes : ℕ)) s') (al : Allocs) (hh : Heap) (pixels masks : List ℕ) :
    let rep := addCmapEntry al client (firstPixels pmap client) ⟨.success,hh,{ pmap with red := s' },pixels,masks,false⟩
    Kept t Same rep.status pmap rep.pmap := by
  have htaken : MapInv t { pmap with red := s' } := h.pseudo hd (((h.only hd).take hp client).same hs')
  dsimp only [addCmapEntry]
  cases hf : firstPixels pmap client with
  | false =>
    rw [if_neg (by simp)]
    exact ⟨htaken,mapRel_pseudo hd trivial,fun _ hne => absurd rfl hne⟩
  | true =>
    rw [if_pos ⟨rfl,rfl⟩]
    cases al.addResource with
    | true => exact ⟨htaken,mapRel_pseudo hd trivial,fun _ hne => absurd rfl hne⟩
    | false =>
      have hback := same_freePixelsOf hp (firstPixels_nil hf).1 hs' hh
      have heq : (freePixels hh { pmap with red := s' } client).2 =
          { pmap with red := (freePixelsOf true client hh s').2 } := by
        simp only [freePixels,hd,h.visual.dynamic]
        rfl
      simp only [Bool.false_eq_true,if_false,heq]
      exact Kept.of_same h (mapRel_pseudo hd hback)

include h in
lemma kept_entry_direct (hd : pmap.visual.cls.direct = true) {c r g b : ℕ} {cr cg cb : CPResult}
    {client : Fin n} (hr : Picked (pmap.visual.numEntries .redMap) pmap.red.cells c r cr)
    (hg : Picked (pmap.visual.numEntries .greenMap) pmap.green.cells c g cg)
    (hb : Picked (pmap.visual.numEntries .blueMap) pmap.blue.cells c b cb) (al : Allocs) (hh : Heap)
    (pixels masks : List ℕ) :
    let rep := addCmapEntry al client (firstPixels pmap client)
      ⟨.success,hh,
        { pmap with
          red := pmap.red.take client cr (c*2^r : ℕ)
          green := pmap.green.take client cg (c*2^g : ℕ)
          blue := pmap.blue.take client cb (c*2^b : ℕ) },pixels,masks,false⟩
    Kept t Same rep.status pmap rep.pmap := by
  have htaken := h.direct hd ((h.red hd).take hr client) ((h.green hd).take hg client) ((h.blue hd).take hb client)
  dsimp only [addCmapEntry]
  cases hf : firstPixels pmap client with
  | false =>
    rw [if_neg (by simp)]
    exact ⟨htaken,mapRel_direct hd trivial trivial trivial,fun _ hne => absurd rfl hne⟩
  | true =>
    rw [if_pos ⟨rfl,rfl⟩]
    cases al.addResource with
    | true => exact ⟨htaken,mapRel_direct hd trivial trivial trivial,fun _ hne => absurd rfl hne⟩
    | false =>
      obtain ⟨hnr,hnone⟩ := firstPixels_nil hf
      obtain ⟨hng,hnb⟩ := hnone (h.visual.direct_iff.mpr hd)
      simp only [Bool.false_eq_true,if_false,freePixels,hd,h.visual.dynamic,if_true]
      exact Kept.of_same h (mapRel_direct hd (same_freePixelsOf hr hnr (Same.refl _) _)
        (same_freePixelsOf hg hng (Same.refl _) _) (same_freePixelsOf hb hnb (Same.refl _) _))

lemma Kept.of_reply (h : MapInv t pmap) {pmap' : ColormapRec n} (hs : MapRel Same pmap pmap') (al : Allocs) (client : Fin n)
    (pcr : Bool) (hh : Heap) (pixels masks : List ℕ) :
    let rep := addCmapEntry al client pcr ⟨.badAlloc,hh,pmap',pixels,masks,false⟩
    Kept t Same rep.status pmap rep.pmap := by
  simp only [addCmapEntry,reduceCtorEq,false_and,if_false]
  exact Kept.of_same h hs

include h in
/-- `AllocColorCells` keeps the counts right, and after an error the map is as it was. -/
theorem allocColorCells_spec {c : ℕ} (hc : 0 < c) (hc' : c < 2^16) (planes : ℕ) {contig : Bool}
    (ht : TempOk pmap c (fun _ => planes) contig) (hn : NarrowOk pmap c fun _ => planes) (al : Allocs) (client : Fin n)
    (hh : Heap) :
    ∃ rep, allocColorCells al client hh pmap c planes contig = some rep ∧ Kept t Same rep.status pmap rep.pmap := by
  rw [allocColorCells,if_neg (by simp [h.visual.dynamic])]
  split
  · exact ⟨_,rfl,Kept.of_same h (MapRel.refl pmap)⟩
  split
  · rename_i hcls
    have hd := h.visual.direct_iff.mp hcls
    obtain ⟨rep,hrep,⟨hst,cr,cg,cb,hr,hg,hb,hmap⟩ | ⟨hst,hsame⟩⟩ :=
      allocDirect_spec h hd hc hc' (fun _ => planes) ht hn al client
    · simp only [hrep,Option.bind_eq_bind,Option.bind_some,hst,hmap]
      exact ⟨_,rfl,kept_entry_direct h hd hr hg hb al hh _ _⟩
    · simp only [hrep,Option.bind_eq_bind,Option.bind_some,hst]
      exact ⟨_,rfl,Kept.of_reply h hsame al client _ hh _ _⟩
  · rename_i hcls
    have hd : pmap.visual.cls.direct = false := by
      rw [← Bool.not_eq_true,← h.visual.direct_iff]
      exact hcls
    obtain ⟨rep,hrep,⟨cp,hp,heq⟩ | ⟨hst,hsame⟩⟩ := allocPseudo_spec h hd hc hc' (fun _ => planes) ht al client
    · simp only [hrep,Option.bind_eq_bind,Option.bind_some,heq]
      exact ⟨_,rfl,kept_entry_pseudo h hd hp (Same.refl _) al hh _ _⟩
    · simp only [hrep,Option.bind_eq_bind,Option.bind_some,hst]
      exact ⟨_,rfl,Kept.of_reply h hsame al client _ hh _ _⟩

end Cells

section FreeColors

/-- The mask bits of `FreeColors` that a channel looks at. -/
def Visual.freeMask (v : Visual) : Channel → ℕ
  | .pseudoMap => 2^v.nplanes-1
  | ch => v.mask ch

variable {pmap : ColormapRec n}

lemma freeColors_map_pseudo (pmap : ColormapRec n) (hd : pmap.visual.cls.direct = false) (hflag : pmap.allAllocated = false) (hh : Heap)
    (client : Fin n) (pixels : List ℕ) (mask : ℕ) :
    (freeColors hh pmap client pixels mask).2 =
      (freeCo hh pmap client .pseudoMap pixels (mask &&& pmap.visual.freeMask .pseudoMap)).2 := by
  simp only [freeColors,hflag,hd,Bool.false_eq_true,if_false]
  cases pixels with
  | nil => rfl
  | cons p pixels =>
    dsimp only
    split_ifs <;> rfl

lemma freeColors_map_direct (pmap : ColormapRec n) (hd : pmap.visual.cls.direct = true) (hflag : pmap.allAllocated = false) (hh : Heap)
    (client : Fin n) (pixels : List ℕ) (mask : ℕ) :
    (freeColors hh pmap client pixels mask).2 =
      let red := freeCo hh pmap client .redMap pixels (mask &&& pmap.visual.freeMask .redMap)
      let green := freeCo red.2.1 red.2.2 client .greenMap pixels (mask &&& pmap.visual.freeMask .greenMap)
      (freeCo green.2.1 green.2.2 client .blueMap pixels (mask &&& pmap.visual.freeMask .blueMap)).2 := by
  simp only [freeColors,hflag,hd,Bool.false_eq_true,if_false,if_true]
  cases pixels with
  | nil => rfl
  | cons p pixels =>
    dsimp only
    split_ifs <;> rfl

/-- What `FreeColors` does to the table of a channel: the listed pixels leave the client's list, and no
cell but theirs changes. -/
structure Freed (v : Visual) (client : Fin n) (pixIn : List ℕ) (mask : ℕ) (ch : Channel) (s s' : SubMap n) : Prop where
  pixels : s'.pixels = Function.update s.pixels client
    ((s.pixels client).diff (listed v ch pixIn (mask &&& v.freeMask ch)))
  cells : ∀ i, i ∉ listed v ch pixIn (mask &&& v.freeMask ch) → s'.cells i = s.cells i

/-- `FreeColors` frees exactly the listed pixels that the client has, and keeps the counts right. -/
theorem freeColors_spec (h : MapInv t pmap) (hflag : pmap.allAllocated = false) (hh : Heap) (client : Fin n)
    (pixels : List ℕ) (mask : ℕ) :
    MapInv t (freeColors hh pmap client pixels mask).2.2 ∧
      MapRel (fun _ _ => True) pmap (freeColors hh pmap client pixels mask).2.2 ∧
      ∀ ch ∈ pmap.visual.channels, Freed pmap.visual client pixels mask ch (pmap.sub ch)
        ((freeColors hh pmap client pixels mask).2.2.sub ch) := by
  have hsmall : ∀ ch ∈ pmap.visual.channels, pmap.visual.numEntries ch < 2^31 := fun ch hch => by
    have := (h.visual.numEntries_bounds hch).2
    have := h.visual.short
    omega
  cases hd : pmap.visual.cls.direct with
  | false =>
    have hmem : Channel.pseudoMap ∈ pmap.visual.channels := by simp [channels_pseudo hd]
    rw [freeColors_map_pseudo pmap hd hflag]
    obtain ⟨s',h₁,h₂,h₃,h₄⟩ := freeCo_spec hh pmap client .pseudoMap pixels (mask &&& pmap.visual.freeMask .pseudoMap)
      h.visual.dynamic (hsmall _ hmem) (h.sub _ hmem)
    rw [h₁]
    refine ⟨h.pseudo hd h₂,mapRel_pseudo hd trivial,fun ch hch => ?_⟩
    rw [channels_pseudo hd,List.mem_singleton] at hch
    subst hch
    exact ⟨h₃,h₄⟩
  | true =>
    have hred : Channel.redMap ∈ pmap.visual.channels := by simp [channels_direct hd]
    have hgreen : Channel.greenMap ∈ pmap.visual.channels := by simp [channels_direct hd]
    have hblue : Channel.blueMap ∈ pmap.visual.channels := by simp [channels_direct hd]
    rw [freeColors_map_direct pmap hd hflag]
    dsimp only
    obtain ⟨r,hr,hr₂,hr₃,hr₄⟩ := freeCo_spec hh pmap client .redMap pixels (mask &&& pmap.visual.freeMask .redMap)
      h.visual.dynamic (hsmall _ hred) (h.sub _ hred)
    rw [hr]
    obtain ⟨g,hg,hg₂,hg₃,hg₄⟩ := freeCo_spec (freeCo hh pmap client .redMap pixels
        (mask &&& pmap.visual.freeMask .redMap)).2.1 (pmap.setSub r .redMap) client .greenMap pixels
        (mask &&& pmap.visual.freeMask .greenMap) h.visual.dynamic (hsmall _ hgreen) (h.sub _ hgreen)
    rw [hg]
    obtain ⟨b,hb,hb₂,hb₃,hb₄⟩ := freeCo_spec (freeCo (freeCo hh pmap client .redMap pixels
        (mask &&& pmap.visual.freeMask .redMap)).2.1 (pmap.setSub r .redMap) client .greenMap pixels
        (mask &&& pmap.visual.freeMask .greenMap)).2.1 ((pmap.setSub r .redMap).setSub g .greenMap) client .blueMap pixels
        (mask &&& pmap.visual.freeMask .blueMap) h.visual.dynamic (hsmall _ hblue) (h.sub _ hblue)
    rw [hb]
    refine ⟨h.direct hd hr₂ hg₂ hb₂,mapRel_direct hd trivial trivial trivial,fun ch hch => ?_⟩
    rw [channels_direct hd] at hch
    cases ch with
    | redMap => exact ⟨hr₃,hr₄⟩
    | greenMap => exact ⟨hg₃,hg₄⟩
    | blueMap => exact ⟨hb₃,hb₄⟩
    | pseudoMap => simp at hch

lemma diff_appended {L P : List ℕ} (hdisj : ∀ x ∈ P, x ∉ L) : (L ++ P).diff P = L := by
  induction P with
  | nil => rw [List.append_nil,List.diff_nil]
  | cons a P ih =>
    rw [List.diff_cons,List.erase_append_right _ (hdisj a (by simp)),List.erase_cons_head]
    exact ih fun x hx => hdisj x (by simp [hx])

lemma listed_picked {c planes : ℕ} {cp : CPResult} (hd : pmap.visual.cls.direct = false) (hv : VisualOk pmap.visual)
    (hc : 0 < c) {cells : ℕ → Entry} (hp : Picked pmap.visual.colormapEntries cells c planes cp) :
    (listed pmap.visual .pseudoMap (cp.pixels.take c) (cp.mask &&& pmap.visual.freeMask .pseudoMap)).Perm cp.pixels := by
  have hcombo : ∀ b ∈ cp.pixels.take c, ∀ s ∈ submasks 32 cp.mask, b+s < pmap.visual.colormapEntries := fun b hb s hs =>
    (hp.free (b+s) (hp.perm.mem_iff.mpr (List.mem_flatMap.mpr ⟨b,hb,List.mem_map.mpr ⟨s,hs,rfl⟩⟩))).1
  have hmask : cp.mask &&& pmap.visual.freeMask .pseudoMap = cp.mask := by
    obtain ⟨b,hb⟩ : ∃ b, b ∈ cp.pixels.take c :=
      List.exists_mem_of_length_pos (by rw [hp.length]; exact hc)
    have hlt := hcombo b hb cp.mask ((mem_submasks hp.lt).mpr fun _ h => h)
    rw [hv.pseudo hd] at hlt
    rw [Visual.freeMask,Nat.and_two_pow_sub_one_eq_mod,Nat.mod_eq_of_lt (by omega)]
  have hlist : listed pmap.visual .pseudoMap (cp.pixels.take c) cp.mask =
      (submasks 32 cp.mask).flatMap fun s => (cp.pixels.take c).map fun b => b+s := by
    unfold listed
    apply List.flatMap_congr
    intro s hs
    rw [← List.filterMap_eq_map]
    apply List.filterMap_congr
    intro b hb
    have hor : b+s = b ||| s :=
      Apart.add_eq_or ((hp.apart b hb).mono (fun _ h => h) ((mem_submasks hp.lt).mp hs))
    have hlt := hcombo b hb s hs
    rw [hor] at hlt
    rw [target_pseudo s b hlt hv.short,Function.comp,hor]
  rw [hmask,hlist]
  refine List.Perm.trans ?_ hp.perm.symm
  rw [← Multiset.coe_eq_coe,← Multiset.coe_bind,← Multiset.coe_bind]
  simp only [← Multiset.map_coe]
  exact Multiset.bind_map_comm _ _

lemma freeColors_picked (h : MapInv false pmap) (hd : pmap.visual.cls.direct = false) (hflag : pmap.allAllocated = false)
    {c planes : ℕ} (hc : 0 < c) {cp : CPResult} (hp : Picked pmap.visual.colormapEntries pmap.red.cells c planes cp)
    (client : Fin n) (hh : Heap) :
    MapRel Same pmap (freeColors hh { pmap with red := pmap.red.take client cp (c*2^planes : ℕ) } client
      (cp.pixels.take c) cp.mask).2.2 := by
  have htaken := h.pseudo hd ((h.only hd).take hp client)
  obtain ⟨hinv,hrel,hfreed⟩ := freeColors_spec htaken hflag hh client (cp.pixels.take c) cp.mask
  have hf := hfreed .pseudoMap (by simp [channels_pseudo hd])
  have hsub := hinv.sub .pseudoMap (by rw [hrel.visual]; simp [channels_pseudo hd])
  have hlisted := listed_picked hd h.visual hc hp
  generalize (freeColors hh { pmap with red := pmap.red.take client cp (c*2^planes : ℕ) } client
      (cp.pixels.take c) cp.mask).2.2 = pmap' at *
  have hzero : ∀ i ∈ cp.pixels, occ pmap.red i = 0 := by
    intro i hi
    obtain ⟨hlt,hz⟩ := hp.free i hi
    have hcell := (h.only hd).counts.cell i hlt
    rw [hz] at hcell
    simp only [CellOk,allocPrivate,allocTemporary] at hcell
    omega
  -- The client's list is the old one again.
  have hpix : (pmap'.sub .pseudoMap).pixels = pmap.red.pixels := by
    have hdiff : (pmap.red.pixels client ++ cp.pixels).diff
        (listed pmap.visual .pseudoMap (cp.pixels.take c) (cp.mask &&& pmap.visual.freeMask .pseudoMap)) =
        pmap.red.pixels client := by
      rw [hlisted.diff_left]
      refine diff_appended fun x hx hmem => ?_
      have hcount := List.count_pos_iff.mpr hmem
      have := count_le_occ pmap.red client x
      have := hzero x hx
      omega
    have hnew := hf.pixels
    simp only [ColormapRec.sub,SubMap.take,Function.update_self,Function.update_idem] at hnew
    rw [hdiff,Function.update_eq_self] at hnew
    exact hnew
  have hcell : ∀ i, ((pmap'.sub .pseudoMap).cells i).refcnt = (pmap.red.cells i).refcnt := by
    intro i
    by_cases hi : i ∈ cp.pixels
    · obtain ⟨hlt,hz⟩ := hp.free i hi
      have hok := hsub.counts.cell i (by rw [hrel.visual]; exact hlt)
      have hocc : occ (pmap'.sub .pseudoMap) i = 0 := by
        rw [occ,hpix]
        exact hzero i hi
      rw [hocc] at hok
      simp only [CellOk,allocPrivate,allocTemporary,Bool.false_eq_true,false_and,or_false] at hok
      omega
    · have := hf.cells i fun hmem => hi (hlisted.mem_iff.mp hmem)
      rw [this]
      simp only [ColormapRec.sub,SubMap.take,hp.ent_eq,taken,hi,if_false]
  have hsame : Same pmap.red (pmap'.sub .pseudoMap) := by
    refine ⟨hcell,?_,hpix⟩
    rw [hsub.counts.free,(h.only hd).counts.free,hrel.visual]
    congr 1
    exact tally_congr fun i _ => by simp only [isSpare,hcell]
  refine ⟨hrel.visual,hrel.owner,hrel.flag,hrel.created,fun ch hch => ?_⟩
  rw [channels_pseudo hd,List.mem_singleton] at hch
  subst hch
  exact hsame

end FreeColors

section Planes

lemma shareRecord_refcnt (start : ℕ) (set : Entry → ℕ → Entry) (hset : ∀ e p, (set e p).refcnt = e.refcnt)
    (others : ℕ) (pixFirst : List ℕ) (refcnt : ℤ) (key : ℕ) (st : ShareState) (i : ℕ) :
    ((shareRecord start set others pixFirst refcnt key st).cells i).refcnt = (st.cells i).refcnt := by
  simp only [shareRecord]
  generalize st.cells = cells
  induction pixFirst generalizing cells with
  | nil => rfl
  | cons p l ih =>
    rw [List.foldl_cons,ih]
    split_ifs with hkey
    · by_cases hi : i = p
      · rw [hi,Function.update_self,hset]
      · rw [Function.update_of_ne hi]
    · rfl

lemma shareColour_refcnt (start : ℕ) (set : Entry → ℕ → Entry) (hset : ∀ e p, (set e p).refcnt = e.refcnt)
    (mask others : ℕ) (pixFirst : List ℕ) (refcnt refcntNoMask : ℤ) (p : ℕ) (st : ShareState) (i : ℕ) :
    ((shareColour start set mask others pixFirst refcnt refcntNoMask p st).cells i).refcnt = (st.cells i).refcnt := by
  have hfold : ∀ (l : List ℕ) (st : ShareState),
      ((l.foldl (fun st bits => shareRecord start set others pixFirst refcnt (andNot p others ||| bits) st) st).cells
        i).refcnt = (st.cells i).refcnt := by
    intro l
    induction l with
    | nil => exact fun _ => rfl
    | cons b l ih =>
      intro st
      rw [List.foldl_cons,ih,shareRecord_refcnt start set hset]
  simp only [shareColour]
  split_ifs
  · exact hfold _ st
  · exact shareRecord_refcnt start set hset _ _ _ _ _ i

lemma allocShared_refcnt (hh : Heap) (cells : ℕ → Entry) (ppix : List ℕ) (c r g b rmask gmask bmask : ℕ)
    (pixFirst : List ℕ) (i : ℕ) :
    ((allocShared hh cells ppix c r g b rmask gmask bmask pixFirst).2 i).refcnt = (cells i).refcnt := by
  have hfold : ∀ (l : List ℕ) (st : ShareState),
      ((l.foldl (sharePixel hh.next r g b rmask gmask bmask pixFirst) st).cells i).refcnt = (st.cells i).refcnt := by
    intro l
    induction l with
    | nil => exact fun _ => rfl
    | cons p l ih =>
      intro st
      rw [List.foldl_cons,ih,sharePixel,shareColour_refcnt _ setShcoBlue fun _ _ => rfl,
        shareColour_refcnt _ setShcoGreen fun _ _ => rfl,shareColour_refcnt _ setShcoRed fun _ _ => rfl]
  exact hfold ppix _

variable {pmap : ColormapRec n} (h : MapInv t pmap)

include h in
/-- `AllocColorPlanes` keeps the counts right, and after an error the map is as it was. -/
theorem allocColorPlanes_spec (hflag : pmap.allAllocated = false) {c : ℕ} (hc : 0 < c) (hc' : c < 2^16) (r g b : ℕ)
    {contig : Bool} (ht : TempOk pmap c (planesOf r g b) contig) (hn : NarrowOk pmap c (planesOf r g b)) (al : Allocs)
    (client : Fin n) (hh : Heap) :
    ∃ rep, allocColorPlanes al client hh pmap c r g b contig = some rep ∧ Kept t Same rep.status pmap rep.pmap := by
  rw [allocColorPlanes,if_neg (by simp [h.visual.dynamic])]
  split
  · exact ⟨_,rfl,Kept.of_same h (MapRel.refl pmap)⟩
  split
  · rename_i hcls
    have hd := h.visual.direct_iff.mp hcls
    obtain ⟨rep,hrep,⟨hst,cr,cg,cb,hr,hg,hb,hmap⟩ | ⟨hst,hsame⟩⟩ :=
      allocDirect_spec h hd hc hc' (planesOf r g b) ht hn al client
    · simp only [planesOf] at hrep
      simp only [hrep,Option.bind_eq_bind,Option.bind_some,hst,hmap]
      exact ⟨_,rfl,kept_entry_direct h hd hr hg hb al hh _ _⟩
    · simp only [planesOf] at hrep
      simp only [hrep,Option.bind_eq_bind,Option.bind_some,hst]
      exact ⟨_,rfl,Kept.of_reply h hsame al client _ hh _ _⟩
  · rename_i hcls
    have hd : pmap.visual.cls.direct = false := by
      rw [← Bool.not_eq_true,← h.visual.direct_iff]
      exact hcls
    obtain ⟨rep,hrep,⟨cp,hp,heq⟩ | ⟨hst,hsame⟩⟩ := allocPseudo_spec h hd hc hc' (planesOf r g b) ht al client
    · simp only [planesOf] at hrep hp heq
      simp only [hrep,Option.bind_eq_bind,Option.bind_some,heq,if_true]
      cases al.shared with
      | true =>
        have hsame : Same (pmap.red.take client cp (c*2^(r+g+b) : ℕ)) { pmap.red.take client cp (c*2^(r+g+b) : ℕ) with
            cells := (allocShared hh (pmap.red.take client cp (c*2^(r+g+b) : ℕ)).cells (cp.pixels.take c) c r g b
              (splitMask cp.mask r g b).1 (splitMask cp.mask r g b).2.1 (splitMask cp.mask r g b).2.2 cp.pixels).2 } :=
          ⟨allocShared_refcnt _ _ _ _ _ _ _ _ _ _ _,rfl,rfl⟩
        exact ⟨_,rfl,kept_entry_pseudo h hd hp hsame al _ _ _⟩
      | false =>
        refine ⟨_,rfl,?_⟩
        have hspec := freeColors_spec (h.pseudo hd ((h.only hd).take hp client)) hflag hh client (cp.pixels.take c) cp.mask
        refine ⟨hspec.1,⟨hspec.2.1.visual,hspec.2.1.owner,hspec.2.1.flag,hspec.2.1.created,fun _ _ => trivial⟩,
          fun hfalse _ => ?_⟩
        subst hfalse
        exact freeColors_picked h hd hflag hc hp client hh
    · simp only [planesOf] at hrep
      simp only [hrep,Option.bind_eq_bind,Option.bind_some,hst]
      exact ⟨_,rfl,Kept.of_same h hsame⟩

end Planes

end Xlibre.Dix.Colormap
