import Xlibre.Dix.Colormap.ShareJobs

/-! Runs of `AllocColorPlanes` and of requests that free and copy its pixels: every shared colour counts the
cells that refer to it. -/
namespace Xlibre.Dix.Colormap

open Xlibre.Lib.Submasks Xlibre.Lib.Tally

variable {n : ℕ}

section Iff

variable {size c r g b : ℕ} {cells : ℕ → Entry} {cp : CPResult} {m : ℕ × ℕ × ℕ}

lemma jobs_others {ppix : List ℕ} {j : Job} (hj : j ∈ allJobs r g b m ppix) : j.others = othersOf m j.hue := by
  obtain ⟨p,_,hj⟩ := List.mem_flatMap.mp hj
  rw [pixelJobs,List.mem_append,List.mem_append] at hj
  rcases hj with (hj | hj) | hj
  all_goals
    rw [colourJobs_map,List.mem_map] at hj
    obtain ⟨bits,_,rfl⟩ := hj
    rfl

lemma andNot_eq_iff {m o q q' : ℕ} (hap : Apart m o) :
    andNot q o = andNot q' o ↔ andNot q (m ||| o) = andNot q' (m ||| o) ∧ q &&& m = q' &&& m := by
  constructor
  · intro h
    have hbit := fun i => congrArg (·.testBit i) h
    simp only [testBit_andNot] at hbit
    constructor
    · apply Nat.eq_of_testBit_eq
      intro i
      have h₁ := hbit i
      rw [testBit_andNot,testBit_andNot,Nat.testBit_or]
      cases hm : m.testBit i <;> cases ho : o.testBit i <;> simp_all
    · apply Nat.eq_of_testBit_eq
      intro i
      have h₁ := hbit i
      have h₂ := hap i
      rw [Nat.testBit_and,Nat.testBit_and]
      cases hm : m.testBit i <;> cases ho : o.testBit i <;> simp_all
  · rintro ⟨h,h'⟩
    apply Nat.eq_of_testBit_eq
    intro i
    have h₁ := congrArg (·.testBit i) h
    have h₂ := congrArg (·.testBit i) h'
    have h₃ := hap i
    simp only [testBit_andNot,Nat.testBit_or,Nat.testBit_and] at h₁ h₂
    rw [testBit_andNot,testBit_andNot]
    cases hm : m.testBit i <;> cases ho : o.testBit i <;> simp_all

/-- Two new cells share the record of a colour just if they come from the same base pixel and have the same
bits of the colour. -/
theorem shared_iff (hh : Heap) (hp : Picked size cells c (r+g+b) cp) (hs : Splits cp.mask r g b m) (x : Hue) {q q' : ℕ}
    (hq : q ∈ cp.pixels) (hq' : q' ∈ cp.pixels) :
    ((sharedState hh cp c r g b m).cells q).shco.at x = ((sharedState hh cp c r g b m).cells q').shco.at x ↔
      andNot q cp.mask = andNot q' cp.mask ∧ q &&& maskOf m x = q' &&& maskOf m x := by
  obtain ⟨hor,hap,_⟩ := hs.hue x
  rw [← hor,← andNot_eq_iff hap]
  obtain ⟨k,j,hk,hfor,hat⟩ := shared_pointer hh hp hs x hq
  obtain ⟨k',j',hk',hfor',hat'⟩ := shared_pointer hh hp hs x hq'
  have hothers := jobs_others (List.mem_of_getElem? hk)
  have hothers' := jobs_others (List.mem_of_getElem? hk')
  rw [hat,hat',Nat.add_left_cancel_iff]
  constructor
  · rintro rfl
    obtain rfl : j = j' := Option.some.inj (hk.symm.trans hk')
    simp only [Job.isFor,Bool.and_eq_true,decide_eq_true_eq] at hfor hfor'
    have h₁ := hfor.2
    have h₂ := hfor'.2
    rw [hothers,hfor.1] at h₁ h₂
    exact h₁.trans h₂.symm
  · intro heq
    refine index_unique (jobs_one hp hs x hq) hk hk' hfor ?_
    simp only [Job.isFor,Bool.and_eq_true,decide_eq_true_eq] at hfor hfor' ⊢
    refine ⟨hfor'.1,?_⟩
    rw [← hfor'.2,hothers',hfor'.1]
    exact heq

lemma base_mem {planes : ℕ} (hp : Picked size cells c planes cp) {q : ℕ} (hq : q ∈ cp.pixels) :
    andNot q cp.mask ∈ cp.pixels.take c := by
  obtain ⟨base,hbase,hq'⟩ := List.mem_flatMap.mp (hp.perm.mem_iff.mp hq)
  obtain ⟨s,hsub,rfl⟩ := List.mem_map.mp hq'
  have hw := (mem_submasks hp.lt).mp hsub
  have hap := hp.apart base hbase
  have : andNot (base+s) cp.mask = base := by
    rw [Apart.add_eq_or (hap.mono (fun _ h => h) hw)]
    apply Nat.eq_of_testBit_eq
    intro i
    have h₁ := hap i
    have h₂ := hw i
    rw [testBit_andNot,Nat.testBit_or]
    cases hbi : base.testBit i <;> cases hsi : s.testBit i <;> cases hmi : cp.mask.testBit i <;> simp_all
  rwa [this]

end Iff

section Request

variable {T : Hue → ℕ → ℕ} {pmap : ColormapRec n} {hh : Heap} {size c planes : ℕ} {cells : ℕ → Entry} {cp : CPResult}

lemma SharedOk.of_plain (h : SharedOk T size hh cells) {cells' : ℕ → Entry} (l : List ℕ)
    (hfree : ∀ i ∈ l, i < size ∧ (cells i).refcnt = 0) (hnew : ∀ i ∈ l, (cells' i).fShared = false)
    (hout : ∀ i, i ∉ l → cells' i = cells i) : SharedOk T size hh cells' := by
  have hold : ∀ i ∈ l, (cells i).fShared = false := by
    intro i hi
    obtain ⟨hlt,hzero⟩ := hfree i hi
    cases hf : (cells i).fShared with
    | false => rfl
    | true =>
      have := h.own i hlt hf
      rw [hzero] at this
      exact absurd this (by decide)
  refine ⟨h.heap.congr fun x a => ?_,fun i hi hf => ?_⟩
  · congr 1
    refine tally_congr fun i _ => ?_
    by_cases hi : i ∈ l
    · rw [refers_of_not_shared (hold i hi),refers_of_not_shared (hnew i hi)]
    · rw [hout i hi]
  · by_cases hmem : i ∈ l
    · rw [hnew i hmem] at hf
      simp at hf
    · rw [hout i hmem] at hf ⊢
      exact h.own i hi hf

lemma SharedOk.taken (h : SharedOk T size hh cells) (hp : Picked size cells c planes cp) : SharedOk T size hh cp.ent := by
  refine h.of_plain cp.pixels hp.free (fun i hi => ?_) fun i hi => ?_
  · rw [hp.ent_eq]
    simp [Colormap.taken,hi]
  · rw [hp.ent_eq]
    simp [Colormap.taken,hi]

lemma SharedOk.cleared (h : SharedOk T size hh cells) (hp : Picked size cells c planes cp) :
    SharedOk T size hh (clearCells cp.ent cp.pixels) := by
  have hclear : ∀ (l : List ℕ) (ent : ℕ → Entry) (i : ℕ), (clearCells ent l i).fShared = (ent i).fShared ∧
      (i ∉ l → clearCells ent l i = ent i) := by
    intro l
    induction l with
    | nil => exact fun _ _ => ⟨rfl,fun _ => rfl⟩
    | cons a l ih =>
      intro ent i
      obtain ⟨h₁,h₂⟩ := ih (Function.update ent a { ent a with refcnt := 0 }) i
      rw [clearCells] at h₁ h₂ ⊢
      rw [List.foldl_cons,h₁]
      by_cases hia : i = a
      · subst hia
        rw [Function.update_self]
        exact ⟨rfl,fun hi => absurd List.mem_cons_self hi⟩
      · rw [Function.update_of_ne hia]
        refine ⟨rfl,fun hi => ?_⟩
        rw [h₂ fun hmem => hi (List.mem_cons_of_mem a hmem),Function.update_of_ne hia]
  refine h.of_plain cp.pixels hp.free (fun i hi => ?_) fun i hi => ?_
  · rw [(hclear _ _ _).1,hp.ent_eq]
    simp [Colormap.taken,hi]
  · rw [(hclear _ _ _).2 hi,hp.ent_eq]
    simp [Colormap.taken,hi]

lemma addCmapEntry_shared (al : Allocs) (client : Fin n) (pcr : Bool) {r : CellsReply n} (h : MapInv false r.pmap)
    (hd : r.pmap.visual.cls.direct = false) (hs : MapShared T r.heap r.pmap) :
    MapShared T (addCmapEntry al client pcr r).heap (addCmapEntry al client pcr r).pmap := by
  rw [addCmapEntry]
  split_ifs
  · exact hs
  · exact freePixels_shared h hd hs client
  · exact hs

lemma allocColorPlanes_pseudo (h : MapInv false pmap) (hd : pmap.visual.cls.direct = false) (al : Allocs) (client : Fin n) (hh : Heap)
    (c r g b : ℕ) (contig : Bool) (hpcr : ¬ (firstPixels pmap client ∧ al.pcr = false)) :
    allocColorPlanes al client hh pmap c r g b contig =
      (allocPseudo al client pmap c (r+g+b) contig).bind fun d =>
        if d.status = .success then
          if al.shared then
            some (addCmapEntry al client (firstPixels pmap client)
              ⟨.success,(allocShared hh d.pmap.red.cells d.pixels c r g b (splitMask d.mask r g b).1
                (splitMask d.mask r g b).2.1 (splitMask d.mask r g b).2.2 d.pixFirst).1,
                { d.pmap with red := { d.pmap.red with
                  cells := (allocShared hh d.pmap.red.cells d.pixels c r g b (splitMask d.mask r g b).1
                    (splitMask d.mask r g b).2.1 (splitMask d.mask r g b).2.2 d.pixFirst).2 } },
                d.pixels,[(splitMask d.mask r g b).1,(splitMask d.mask r g b).2.1,(splitMask d.mask r g b).2.2],false⟩)
          else
            some ⟨.badAlloc,(freeColors hh d.pmap client d.pixels d.mask).2.1,
              (freeColors hh d.pmap client d.pixels d.mask).2.2,d.pixels,[],false⟩
        else some ⟨d.status,hh,d.pmap,[],[],false⟩ := by
  have hcls : pmap.visual.cls ≠ .directColor := by
    rw [Ne,h.visual.direct_iff,hd]
    simp
  rw [allocColorPlanes,if_neg (by simp [h.visual.dynamic]),if_neg hpcr,if_neg hcls]
  rfl

lemma allocColorPlanes_shared (h : MapInv false pmap) (hd : pmap.visual.cls.direct = false)
    (hs : MapShared T hh pmap) {c : ℕ} (hc : 0 < c) (hc' : c < 2^16) {r g b : ℕ} (hok : r = 0 ∨ (0 < g ∧ 0 < b)) (contig : Bool)
    (al : Allocs) (client : Fin n) {rep : CellsReply n} (hrep : allocColorPlanes al client hh pmap c r g b contig = some rep) :
    MapShared T rep.heap rep.pmap := by
  by_cases hpcr : firstPixels pmap client ∧ al.pcr = false
  · rw [allocColorPlanes,if_neg (by simp [h.visual.dynamic]),if_pos hpcr] at hrep
    obtain rfl := Option.some.inj hrep
    exact hs
  rw [allocColorPlanes_pseudo h hd al client hh c r g b contig hpcr] at hrep
  have ht := tempOk_of_none h hc hc' (planesOf r g b) contig
  obtain ⟨d,hd',hcases⟩ := allocPseudo_cases h hd hc hc' (planesOf r g b) ht al client
  simp only [planesOf] at hd' hcases
  rw [hd',Option.bind_some] at hrep
  rcases hcases with ⟨cp,hp,rfl⟩ | ⟨hst,hmap | ⟨cp,hp,hmap⟩⟩
  · have hsplit := splitMask_spec (r := r) (g := g) (b := b) hp.lt hp.popEq
    have htaken := (h.only hd).take hp client
    simp only [if_true] at hrep
    cases hal : al.shared with
    | true =>
      simp only [hal,if_true] at hrep
      obtain rfl := Option.some.inj hrep
      refine addCmapEntry_shared al client _ (h.pseudo hd (htaken.same ?_)) hd ?_
      · exact ⟨allocShared_refcnt _ _ _ _ _ _ _ _ _ _ _,rfl,rfl⟩
      · rw [MapShared,SubMap.take]
        dsimp only
        rw [allocShared_eq hh cp c r g b (splitMask cp.mask r g b)]
        exact sharedState_ok hok hc h.visual.short hs hp hsplit
    | false =>
      simp only [hal,Bool.false_eq_true,if_false] at hrep
      obtain rfl := Option.some.inj hrep
      have hs' : MapShared T hh { pmap with red := pmap.red.take client cp (c*2^(r+g+b) : ℕ) } := hs.taken hp
      exact freeColors_shared (by exact hd) hs' client (cp.pixels.take c) cp.mask
  · simp only [hst,reduceCtorEq,if_false] at hrep
    obtain rfl := Option.some.inj hrep
    rw [hmap]
    exact hs
  · simp only [hst,reduceCtorEq,if_false] at hrep
    obtain rfl := Option.some.inj hrep
    rw [hmap]
    exact hs.cleared hp

lemma mem_pixels_iff (hp : Picked size cells c planes cp) (q : ℕ) : q ∈ cp.pixels ↔ andNot q cp.mask ∈ cp.pixels.take c := by
  refine ⟨base_mem hp,fun hq => ?_⟩
  rw [hp.perm.mem_iff,List.mem_flatMap]
  have hw : Within (q &&& cp.mask) cp.mask := by
    intro i hi
    rw [Nat.testBit_and,Bool.and_eq_true] at hi
    exact hi.2
  refine ⟨_,hq,List.mem_map.mpr ⟨q &&& cp.mask,(mem_submasks hp.lt).mpr hw,?_⟩⟩
  rw [Apart.add_eq_or ((hp.apart _ hq).mono (fun _ h => h) hw)]
  apply Nat.eq_of_testBit_eq
  intro i
  rw [Nat.testBit_or,testBit_andNot,Nat.testBit_and]
  cases q.testBit i <;> cases cp.mask.testBit i <;> rfl

/-- Which of its new cells `AllocColorPlanes` lets share a record: all cells over the base pixels of the reply
are shared, and two of them have the same record for a colour just if they come from the same base pixel and
have the same bits of the mask of the colour. -/
def SharesByBase (rep : CellsReply n) : Prop :=
  ∃ m : ℕ × ℕ × ℕ, rep.masks = [m.1,m.2.1,m.2.2] ∧
    ∀ q q', andNot q (m.1 ||| m.2.1 ||| m.2.2) ∈ rep.pixels → andNot q' (m.1 ||| m.2.1 ||| m.2.2) ∈ rep.pixels →
      (rep.pmap.red.cells q).fShared = true ∧ ∀ x,
        ((rep.pmap.red.cells q).shco.at x = (rep.pmap.red.cells q').shco.at x ↔
          andNot q (m.1 ||| m.2.1 ||| m.2.2) = andNot q' (m.1 ||| m.2.1 ||| m.2.2) ∧ q &&& maskOf m x = q' &&& maskOf m x)

lemma allocColorPlanes_sharesByBase (h : MapInv false pmap) (hd : pmap.visual.cls.direct = false) {c : ℕ} (hc : 0 < c)
    (hc' : c < 2^16) {r g b : ℕ} (contig : Bool) (al : Allocs) (client : Fin n) {rep : CellsReply n}
    (hrep : allocColorPlanes al client hh pmap c r g b contig = some rep) (hst : rep.status = .success) : SharesByBase rep := by
  by_cases hpcr : firstPixels pmap client ∧ al.pcr = false
  · rw [allocColorPlanes,if_neg (by simp [h.visual.dynamic]),if_pos hpcr] at hrep
    obtain rfl := Option.some.inj hrep
    simp at hst
  rw [allocColorPlanes_pseudo h hd al client hh c r g b contig hpcr] at hrep
  have ht := tempOk_of_none h hc hc' (planesOf r g b) contig
  obtain ⟨d,hd',hcases⟩ := allocPseudo_cases h hd hc hc' (planesOf r g b) ht al client
  simp only [planesOf] at hd' hcases
  rw [hd',Option.bind_some] at hrep
  rcases hcases with ⟨cp,hp,rfl⟩ | ⟨hbad,_⟩
  · have hsplit := splitMask_spec (r := r) (g := g) (b := b) hp.lt hp.popEq
    simp only [if_true] at hrep
    cases hal : al.shared with
    | true =>
      simp only [hal,if_true,addCmapEntry,SubMap.take,allocShared_eq hh cp c r g b (splitMask cp.mask r g b)] at hrep
      refine ⟨splitMask cp.mask r g b,?_⟩
      rw [hsplit.whole]
      split_ifs at hrep
      · obtain rfl := Option.some.inj hrep
        refine ⟨rfl,fun q q' hq hq' => ?_⟩
        rw [← mem_pixels_iff hp] at hq hq'
        exact ⟨shared_fShared hp hsplit hq,fun x => shared_iff hh hp hsplit x hq hq'⟩
      · obtain rfl := Option.some.inj hrep
        simp at hst
      · obtain rfl := Option.some.inj hrep
        refine ⟨rfl,fun q q' hq hq' => ?_⟩
        rw [← mem_pixels_iff hp] at hq hq'
        exact ⟨shared_fShared hp hsplit hq,fun x => shared_iff hh hp hsplit x hq hq'⟩
    | false =>
      simp only [hal,Bool.false_eq_true,if_false] at hrep
      obtain rfl := Option.some.inj hrep
      simp at hst
  · simp only [hbad,reduceCtorEq,if_false] at hrep
    obtain rfl := Option.some.inj hrep
    exact absurd hst (by simp)

end Request

section World

def refsAll (maps : List (ColormapRec n)) (x : Hue) (a : ℕ) : ℕ :=
  (maps.map fun p => refs p.visual.colormapEntries p.red.cells x a).sum

lemma refsAll_append (maps : List (ColormapRec n)) (p : ColormapRec n) (x : Hue) (a : ℕ) :
    refsAll (maps ++ [p]) x a = refsAll maps x a+refs p.visual.colormapEntries p.red.cells x a := by
  simp [refsAll]

lemma refsAll_split {maps : List (ColormapRec n)} {m : ℕ} {pmap : ColormapRec n} (hm : maps[m]? = some pmap) (x : Hue)
    (a : ℕ) : refsAll maps x a = refsAll (maps.eraseIdx m) x a+refs pmap.visual.colormapEntries pmap.red.cells x a := by
  obtain ⟨hlt,rfl⟩ := List.getElem?_eq_some_iff.mp hm
  have hperm := (List.getElem_cons_eraseIdx_perm hlt).map fun p : ColormapRec n => refs p.visual.colormapEntries p.red.cells x a
  rw [refsAll,← hperm.sum_eq,List.map_cons,List.sum_cons,Nat.add_comm]
  rfl

structure SharedInv (w : World n) : Prop where
  inv : WorldInv false true w
  pseudo : ∀ p ∈ w.maps, p.visual.cls.direct = false
  heap : HeapOk w.heap (refsAll w.maps)
  own : ∀ p ∈ w.maps, ∀ i < p.visual.colormapEntries, (p.red.cells i).fShared = true → (p.red.cells i).refcnt = allocPrivate

variable {w w' : World n} {m : ℕ} {pmap pmap' : ColormapRec n}

lemma SharedInv.at (h : SharedInv w) (hm : w.maps[m]? = some pmap) : MapShared (refsAll (w.maps.eraseIdx m)) w.heap pmap :=
  ⟨h.heap.congr fun x a => refsAll_split hm x a,h.own pmap (List.mem_of_getElem? hm)⟩

lemma SharedInv.put (h : SharedInv w) (hm : w.maps[m]? = some pmap) (hinv : WorldInv false true w')
    (hmaps : w'.maps = w.maps.set m pmap') (hvisual : pmap'.visual = pmap.visual)
    (hs : MapShared (refsAll (w.maps.eraseIdx m)) w'.heap pmap') : SharedInv w' := by
  have hm' : w'.maps[m]? = some pmap' := by
    rw [hmaps,List.getElem?_set_self (List.getElem?_eq_some_iff.mp hm).1]
  refine ⟨hinv,fun p hp => ?_,hs.heap.congr fun x a => ?_,fun p hp => ?_⟩
  · rw [hmaps] at hp
    rcases List.mem_or_eq_of_mem_set hp with hp | rfl
    · exact h.pseudo p hp
    · rw [hvisual]
      exact h.pseudo pmap (List.mem_of_getElem? hm)
  · rw [refsAll_split hm',hmaps,List.eraseIdx_set_eq]
  · rw [hmaps] at hp
    rcases List.mem_or_eq_of_mem_set hp with hp | rfl
    · exact h.own p hp
    · exact hs.own

def Req.onShared : Req n → Prop
  | .allocColorPlanes _ _ _ _ _ _ _ _ | .freeColors _ _ _ _ | .freeClientPixels _ | .copyColormapAndFree _ _ _ => True
  | _ => False

def Req.planesOk : Req n → Prop
  | .allocColorPlanes _ _ _ _ r g b _ => r = 0 ∨ (0 < g ∧ 0 < b)
  | _ => True

/-- A server that has just created its maps, all with one table. -/
def FreshPseudo (w : World n) : Prop := Fresh true w ∧ ∀ p ∈ w.maps, p.visual.cls.direct = false

lemma create_fShared (size : ℕ) (allocAll : Bool) (client : Fin n) (i : ℕ) :
    ((SubMap.create size allocAll client).cells i).fShared = false := by
  cases allocAll with
  | false => rfl
  | true =>
    simp only [SubMap.create,if_true]
    split_ifs <;> rfl

lemma FreshPseudo.inv (h : FreshPseudo w) : SharedInv w := by
  have hplain : ∀ p ∈ w.maps, ∀ i, (p.red.cells i).fShared = false := by
    intro p hp i
    obtain ⟨v,allocAll,client,_,_,rfl⟩ := h.1.maps p hp
    rw [dixCreateColormap]
    split_ifs
    · exact create_fShared _ _ _ i
    · exact create_fShared _ _ _ i
  refine ⟨h.1.inv,h.2,⟨fun a c hc => ?_,fun a _ x => ?_,fun a _ => by rw [h.1.heap]⟩,fun p hp i _ hf => ?_⟩
  · rw [h.1.heap] at hc
    simp at hc
  · rw [refsAll,List.sum_eq_zero_iff]
    intro k hk
    obtain ⟨p,hp,rfl⟩ := List.mem_map.mp hk
    exact refs_eq_zero (fun i _ => hplain p hp i) x a
  · simp [hplain p hp i] at hf

lemma SharedInv.reqOk (h : SharedInv w) {req : Req n} (hreq : req.onShared) : ReqOk false w req := by
  cases req with
  | allocColorPlanes m client al c r g b contig =>
    refine fun pmap hm => ⟨fun _ hd => ?_,fun hf => by simp at hf⟩
    rw [h.pseudo pmap (List.mem_of_getElem? hm)] at hd
    simp at hd
  | freeColors | freeClientPixels | copyColormapAndFree => exact trivial
  | allocColor | allocColorCells | fakeAllocColor | fakeFreeColor => exact hreq.elim

lemma freeColors_visual (pmap : ColormapRec n) (hd : pmap.visual.cls.direct = false) (hh : Heap) (client : Fin n)
    (pixels : List ℕ) (mask : ℕ) : (freeColors hh pmap client pixels mask).2.2.visual = pmap.visual := by
  cases hflag : pmap.allAllocated with
  | true => simp [freeColors,hflag]
  | false =>
    rw [freeColors_map_pseudo pmap hd hflag]
    exact freeCo_visual hh pmap client .pseudoMap pixels _

lemma allocColorPlanes_visual (h : MapInv false pmap) (hfull : pmap.allAllocated = true → true = true ∧ Full pmap) {c : ℕ}
    (hc : 0 < c) (hc' : c < 2^16) {r g b : ℕ} {contig : Bool} (ht : TempOk pmap c (planesOf r g b) contig)
    (hn : NarrowOk pmap c (planesOf r g b)) {al : Allocs} {client : Fin n} {hh : Heap} {rep : CellsReply n}
    (hrep : allocColorPlanes al client hh pmap c r g b contig = some rep) : rep.pmap.visual = pmap.visual := by
  cases hflag : pmap.allAllocated with
  | false =>
    obtain ⟨rep',hrep',hk⟩ := allocColorPlanes_spec h hflag hc hc' r g b ht hn al client hh
    rw [hrep] at hrep'
    obtain rfl := Option.some.inj hrep'
    exact hk.frame.visual
  | true =>
    obtain ⟨rep',hrep',_,hmap,_⟩ := allocColorPlanes_full h (hfull hflag).2 hc al client hh r g b contig
    rw [hrep] at hrep'
    obtain rfl := Option.some.inj hrep'
    rw [hmap]

lemma SharedInv.copy (h : SharedInv w) (hm : w.maps[m]? = some pmap) {client : Fin n}
    (hinv : WorldInv false true
      { w.put m (copyColormapAndFree w.heap pmap client).1 (copyColormapAndFree w.heap pmap client).2.1 with
        maps := w.maps.set m (copyColormapAndFree w.heap pmap client).2.1 ++ [(copyColormapAndFree w.heap pmap client).2.2] }) :
    SharedInv
      { w.put m (copyColormapAndFree w.heap pmap client).1 (copyColormapAndFree w.heap pmap client).2.1 with
        maps := w.maps.set m (copyColormapAndFree w.heap pmap client).2.1 ++
          [(copyColormapAndFree w.heap pmap client).2.2] } := by
  obtain ⟨hmap,hfull⟩ := h.inv.at hm
  have hd := h.pseudo pmap (List.mem_of_getElem? hm)
  have hcopied := copyColormapAndFree_spec hmap (fun hf => (hfull hf).2) w.heap client
  obtain ⟨hheap,hsrc,hdst⟩ := copyColormapAndFree_shared hmap hd (fun hf => (hfull hf).2) (h.at hm) client
  generalize copyColormapAndFree w.heap pmap client = r at *
  have hset : (w.maps.set m r.2.1)[m]? = some r.2.1 := List.getElem?_set_self (List.getElem?_eq_some_iff.mp hm).1
  refine ⟨hinv,fun p hp => ?_,hheap.congr fun x a => ?_,fun p hp => ?_⟩
  · rcases List.mem_append.mp hp with hp | hp
    · rcases List.mem_or_eq_of_mem_set hp with hp | rfl
      · exact h.pseudo p hp
      · rw [hcopied.visual]
        exact hd
    · rw [List.mem_singleton.mp hp,hcopied.dstVisual]
      exact hd
  · dsimp only
    rw [refsAll_append,refsAll_split hset,List.eraseIdx_set_eq,hcopied.visual,hcopied.dstVisual]
  · rcases List.mem_append.mp hp with hp | hp
    · rcases List.mem_or_eq_of_mem_set hp with hp | rfl
      · exact h.own p hp
      · rw [hcopied.visual]
        exact hsrc
    · rw [List.mem_singleton.mp hp,hcopied.dstVisual]
      exact hdst

lemma SharedInv.step (h : SharedInv w) {req : Req n} (hreq : req.onShared) (hplanes : req.planesOk) {status : Status}
    (hstep : Colormap.step w req = some (status,w')) : SharedInv w' := by
  obtain ⟨status',w'',hstep',hst⟩ := step_spec h.inv req (h.reqOk hreq)
  obtain ⟨rfl,rfl⟩ : status' = status ∧ w'' = w' := by
    rw [hstep'] at hstep
    simpa using hstep
  clear hstep'
  have hinv := hst.inv
  cases req with
  | allocColorPlanes m client al c r g b contig =>
    simp only [Colormap.step] at hstep
    cases hm : w.maps[m]? with
    | none =>
      simp only [hm,Option.some.injEq,Prod.mk.injEq] at hstep
      exact hstep.2 ▸ h
    | some pmap =>
      simp only [hm] at hstep
      split_ifs at hstep with hzero
      · simp only [Option.some.injEq,Prod.mk.injEq] at hstep
        exact hstep.2 ▸ h
      obtain ⟨rep,hrep,heq⟩ := Option.bind_eq_some_iff.mp hstep
      simp only [putCells,Option.some.injEq,Prod.mk.injEq] at heq
      have hpos : 0 < c.toNat := by
        rw [Nat.pos_iff_ne_zero]
        exact fun hz => hzero (UInt16.toNat_inj.mp hz)
      have hd := h.pseudo pmap (List.mem_of_getElem? hm)
      have hmap := (h.inv.at hm).1
      have hok : r.toNat = 0 ∨ (0 < g.toNat ∧ 0 < b.toNat) := by
        rcases hplanes with rfl | ⟨hg,hb⟩
        · exact .inl rfl
        · exact .inr ⟨UInt16.lt_iff_toNat_lt.mp hg,UInt16.lt_iff_toNat_lt.mp hb⟩
      have hs := allocColorPlanes_shared hmap hd (h.at hm) hpos c.toNat_lt hok contig al client hrep
      have hvisual : rep.pmap.visual = pmap.visual := by
        have ht := tempOk_of_none hmap hpos c.toNat_lt (planesOf r.toNat g.toNat b.toNat) contig
        exact allocColorPlanes_visual hmap (h.inv.at hm).2 hpos c.toNat_lt ht (h.reqOk hreq pmap hm).1 hrep
      have hw' : w''.maps = w.maps.set m rep.pmap ∧ w''.heap = rep.heap := by
        rw [← heq.2]
        cases rep.entry <;> exact ⟨rfl,rfl⟩
      exact h.put hm hinv hw'.1 hvisual (hw'.2 ▸ hs)
  | freeColors m client pixels mask =>
    simp only [Colormap.step] at hstep
    cases hm : w.maps[m]? with
    | none =>
      simp only [hm,Option.some.injEq,Prod.mk.injEq] at hstep
      exact hstep.2 ▸ h
    | some pmap =>
      simp only [hm,Option.some.injEq,Prod.mk.injEq] at hstep
      obtain ⟨_,rfl⟩ := hstep
      have hd := h.pseudo pmap (List.mem_of_getElem? hm)
      refine h.put hm hinv rfl ?_ (freeColors_shared hd (h.at hm) client pixels mask)
      exact freeColors_visual pmap hd w.heap client pixels mask
  | freeClientPixels k =>
    simp only [Colormap.step] at hstep
    cases hk : w.cmapEntries[k]? with
    | none =>
      simp only [hk,Option.some.injEq,Prod.mk.injEq] at hstep
      exact hstep.2 ▸ h
    | some e =>
      obtain ⟨m,client⟩ := e
      simp only [hk] at hstep
      cases hm : w.maps[m]? with
      | none =>
        simp only [hm,Option.some.injEq,Prod.mk.injEq] at hstep
        obtain ⟨_,rfl⟩ := hstep
        exact ⟨hinv,h.pseudo,h.heap,h.own⟩
      | some pmap =>
        simp only [hm,Option.some.injEq,Prod.mk.injEq] at hstep
        obtain ⟨_,rfl⟩ := hstep
        have hmap := (h.inv.at hm).1
        exact h.put hm hinv rfl (freePixels_spec hmap w.heap client).2.visual
          (freePixels_shared hmap (h.pseudo pmap (List.mem_of_getElem? hm)) (h.at hm) client)
  | copyColormapAndFree m client create =>
    simp only [Colormap.step] at hstep
    cases hm : w.maps[m]? with
    | none =>
      simp only [hm,Option.some.injEq,Prod.mk.injEq] at hstep
      exact hstep.2 ▸ h
    | some pmap =>
      simp only [hm] at hstep
      split_ifs at hstep with hcreate
      · simp only [Option.some.injEq,Prod.mk.injEq] at hstep
        exact hstep.2 ▸ h
      simp only [Option.some.injEq,Prod.mk.injEq] at hstep
      obtain ⟨_,rfl⟩ := hstep
      exact h.copy hm hinv
  | allocColor | allocColorCells | fakeAllocColor | fakeFreeColor => exact hreq.elim

lemma Reach.sharedInv (hw : Reach FreshPseudo (fun _ req => req.onShared ∧ req.planesOk) w) : SharedInv w := by
  induction hw with
  | start h => exact h.inv
  | step _ hok hstep ih => exact ih.step hok.1 hok.2 hstep

/-- Every record counts the cells that refer to it, in the one colour it was made for, and is there just as
long as some cell does. -/
structure SharedCountsRight (w : World n) : Prop where
  live : ∀ a c, w.heap.recs a = some c →
    ∃ x, c.refcnt = refsAll w.maps x a ∧ 0 < refsAll w.maps x a ∧ ∀ y, y ≠ x → refsAll w.maps y a = 0
  freed : ∀ a, w.heap.recs a = none → ∀ x, refsAll w.maps x a = 0

/-- In every run of requests on shared colours where an allocation with red planes has green and blue ones too,
every shared colour counts the cells that refer to it, and the cells of an allocation share a record just if
they come from the same base pixel and have the same bits of the colour. -/
theorem shared_counts (hw : Reach FreshPseudo (fun _ req => req.onShared ∧ req.planesOk) w) :
    SharedCountsRight w ∧ ∀ (m : ℕ) (pmap : ColormapRec n) (client : Fin n) (al : Allocs) (c r g b : UInt16) (contig : Bool)
      (rep : CellsReply n), w.maps[m]? = some pmap → c ≠ 0 →
      allocColorPlanes al client w.heap pmap c.toNat r.toNat g.toNat b.toNat contig = some rep → rep.status = .success →
      SharesByBase rep := by
  have hinv := hw.sharedInv
  refine ⟨⟨fun a c hc => (hinv.heap.live a c hc).2,hinv.heap.dead⟩,?_⟩
  intro m pmap client al c r g b contig rep hm hc hrep hst
  have hpos : 0 < c.toNat := by
    rw [Nat.pos_iff_ne_zero]
    exact fun hz => hc (UInt16.toNat_inj.mp hz)
  exact allocColorPlanes_sharesByBase (hinv.inv.at hm).1 (hinv.pseudo pmap (List.mem_of_getElem? hm)) hpos c.toNat_lt
    contig al client hrep hst

def askPlanes (r g b : UInt16) : Req 1 := .allocColorPlanes 0 ⟨0,Nat.one_pos⟩ ⟨true,true,true,true,true,true,true⟩ 1 r g b false

/-- One green plane in the map of two cells. -/
theorem shared_counts_twoCells :
    ∃ w : World 1, step twoCells (askPlanes 0 1 0) = some (.success,w) ∧ SharedCountsRight w := by
  have hfresh : FreshPseudo twoCells := ⟨fresh_twoCells true,by simp [twoCells,dixCreateColormap,VisualClass.direct]⟩
  have hok : (askPlanes 0 1 0).onShared ∧ (askPlanes 0 1 0).planesOk := ⟨trivial,.inl rfl⟩
  have hstart : Reach FreshPseudo (fun _ req => req.onShared ∧ req.planesOk) twoCells := .start hfresh
  have hreach := hstart.step hok (rfl : step twoCells (askPlanes 0 1 0) = _)
  exact ⟨_,rfl,(shared_counts hreach).1⟩

/-- One red plane and no other: both cells refer to the green record, which counts one. -/
theorem shared_counts_drift :
    ∃ w : World 1, Reach FreshPseudo (fun _ req => req.onShared) w ∧ ¬ SharedCountsRight w := by
  have hfresh : FreshPseudo twoCells := ⟨fresh_twoCells true,by simp [twoCells,dixCreateColormap,VisualClass.direct]⟩
  refine ⟨_,@Reach.step 1 _ _ _ _ (askPlanes 1 0 0) _ (Reach.start hfresh) trivial rfl,fun h => ?_⟩
  obtain ⟨x,hcount,_⟩ := h.live 2 ⟨0,1⟩ (by decide)
  revert hcount
  cases x <;> decide

end World

end Xlibre.Dix.Colormap
