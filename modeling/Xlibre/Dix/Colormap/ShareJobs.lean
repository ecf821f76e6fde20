import Xlibre.Dix.Colormap.Shared

/-! `AllocShared` as a list of jobs, one for each record, and which cells each record gets. -/
namespace Xlibre.Dix.Colormap

open Xlibre.Lib.Submasks Xlibre.Lib.Tally

/-- Fill in one record and point the cells with this key, the bits of `others` apart, to it. -/
structure Job where
  hue : Hue
  others : ℕ
  key : ℕ
  refcnt : ℤ

def setHue : Hue → Entry → ℕ → Entry
  | .red => setShcoRed
  | .green => setShcoGreen
  | .blue => setShcoBlue

def Job.run (start : ℕ) (pixFirst : List ℕ) (st : ShareState) (j : Job) : ShareState :=
  shareRecord start (setHue j.hue) j.others pixFirst j.refcnt j.key st

def Job.isFor (x : Hue) (q : ℕ) (j : Job) : Bool := decide (j.hue = x) && decide (andNot q j.others = j.key)

def colourJobs (x : Hue) (mask others : ℕ) (refcnt refcntNoMask : ℤ) (p : ℕ) : List Job :=
  if mask ≠ 0 then (submasks 32 mask).map fun bits => ⟨x,others,andNot p others ||| bits,refcnt⟩
  else [⟨x,others,andNot p others,refcntNoMask⟩]

lemma shareColour_eq (start : ℕ) (x : Hue) (mask others : ℕ) (pixFirst : List ℕ) (refcnt refcntNoMask : ℤ) (p : ℕ)
    (st : ShareState) :
    shareColour start (setHue x) mask others pixFirst refcnt refcntNoMask p st =
      (colourJobs x mask others refcnt refcntNoMask p).foldl (Job.run start pixFirst) st := by
  simp only [shareColour,colourJobs]
  split_ifs
  · rw [List.foldl_map]
    rfl
  · rfl

def pixelJobs (r g b rmask gmask bmask p : ℕ) : List Job :=
  colourJobs .red rmask (gmask ||| bmask) (2^(g+b)) (2^(g+b)) p ++
    colourJobs .green gmask (rmask ||| bmask) (2^(r+b)) (2^(g+b)) p ++
    colourJobs .blue bmask (rmask ||| gmask) (2^(r+g)) (2^(g+b)) p

lemma sharePixel_eq (start r g b rmask gmask bmask : ℕ) (pixFirst : List ℕ) (st : ShareState) (p : ℕ) :
    sharePixel start r g b rmask gmask bmask pixFirst st p =
      (pixelJobs r g b rmask gmask bmask p).foldl (Job.run start pixFirst) st := by
  rw [pixelJobs,List.foldl_append,List.foldl_append,← shareColour_eq,← shareColour_eq,← shareColour_eq]
  rfl

lemma sharePixels_eq (start r g b rmask gmask bmask : ℕ) (pixFirst ppix : List ℕ) (st : ShareState) :
    ppix.foldl (sharePixel start r g b rmask gmask bmask pixFirst) st =
      (ppix.flatMap (pixelJobs r g b rmask gmask bmask)).foldl (Job.run start pixFirst) st := by
  induction ppix generalizing st with
  | nil => rfl
  | cons p ppix ih => rw [List.foldl_cons,List.flatMap_cons,List.foldl_append,ih,sharePixel_eq]

section Run

variable {start : ℕ} {pixFirst : List ℕ}

lemma setHue_at (x y : Hue) (e : Entry) (p : ℕ) : (setHue x e p).shco.at y = if y = x then p else e.shco.at y := by
  cases x <;> cases y <;> rfl

lemma setHue_fShared (x : Hue) (e : Entry) (p : ℕ) (h : x = .red ∨ e.fShared = true) : (setHue x e p).fShared = true := by
  cases x with
  | red => rfl
  | green => exact h.resolve_left (by simp)
  | blue => exact h.resolve_left (by simp)

lemma Job.run_cells (hnd : pixFirst.Nodup) (st : ShareState) (j : Job) (q : ℕ) :
    (j.run start pixFirst st).cells q =
      if q ∈ pixFirst ∧ andNot q j.others = j.key then setHue j.hue (st.cells q) (start+st.used) else st.cells q := by
  simp only [Job.run,shareRecord]
  generalize st.cells = cells
  induction pixFirst generalizing cells with
  | nil => simp
  | cons p l ih =>
    obtain ⟨hp,hnd'⟩ := List.nodup_cons.mp hnd
    rw [List.foldl_cons,ih hnd']
    by_cases hq : q = p
    · subst hq
      rw [if_neg (by simp [hp])]
      by_cases hkey : andNot q j.others = j.key
      · rw [if_pos hkey,if_pos (by simp [hkey]),Function.update_self]
      · rw [if_neg hkey,if_neg (by simp [hkey])]
    · have hsame : (if andNot p j.others = j.key then Function.update cells p (setHue j.hue (cells p) (start+st.used))
          else cells) q = cells q := by
        split_ifs
        · rw [Function.update_of_ne hq]
        · rfl
      rw [hsame]
      by_cases hmem : q ∈ l
      · simp [hmem]
      · simp [hmem,hq]

lemma runs_next (J : List Job) (st : ShareState) : (J.foldl (Job.run start pixFirst) st).heap.next = st.heap.next := by
  induction J generalizing st with
  | nil => rfl
  | cons j J ih =>
    rw [List.foldl_cons,ih]
    rfl

lemma runs_recs_outside (J : List Job) (st : ShareState) {a : ℕ} (ha : a < start+st.used ∨ start+st.used+J.length ≤ a) :
    (J.foldl (Job.run start pixFirst) st).heap.recs a = st.heap.recs a := by
  induction J generalizing st with
  | nil => rfl
  | cons j J ih =>
    rw [List.length_cons] at ha
    rw [List.foldl_cons,ih _ (by simp only [Job.run,shareRecord]; omega)]
    simp only [Job.run,shareRecord]
    rw [Function.update_of_ne (by omega)]

lemma runs_recs (J : List Job) (st : ShareState) {k : ℕ} {j : Job} (hk : J[k]? = some j) :
    (J.foldl (Job.run start pixFirst) st).heap.recs (start+st.used+k) = some ⟨0,toShort j.refcnt⟩ := by
  induction J generalizing st k with
  | nil => simp at hk
  | cons i J ih =>
    rw [List.foldl_cons]
    cases k with
    | zero =>
      obtain rfl : i = j := by simpa using hk
      rw [runs_recs_outside J _ (by simp only [Job.run,shareRecord]; omega)]
      simp only [Job.run,shareRecord,Nat.add_zero,Function.update_self]
    | succ k =>
      have := ih (i.run start pixFirst st) (by simpa using hk)
      rwa [show start+(i.run start pixFirst st).used+k = start+st.used+(k+1) by
        simp only [Job.run,shareRecord]; omega] at this

lemma runs_cells_outside (hnd : pixFirst.Nodup) (J : List Job) (st : ShareState) {q : ℕ} (hq : q ∉ pixFirst) :
    (J.foldl (Job.run start pixFirst) st).cells q = st.cells q := by
  induction J generalizing st with
  | nil => rfl
  | cons j J ih => rw [List.foldl_cons,ih,Job.run_cells hnd,if_neg (by simp [hq])]

lemma runs_at_none (hnd : pixFirst.Nodup) (J : List Job) (st : ShareState) {x : Hue} {q : ℕ}
    (hno : ∀ j ∈ J, j.isFor x q = false) :
    ((J.foldl (Job.run start pixFirst) st).cells q).shco.at x = (st.cells q).shco.at x := by
  induction J generalizing st with
  | nil => rfl
  | cons j J ih =>
    rw [List.foldl_cons,ih _ fun i hi => hno i (by simp [hi]),Job.run_cells hnd]
    split_ifs with hkey
    · have hj := hno j (by simp)
      simp only [Job.isFor,hkey.2,decide_true,Bool.and_true,decide_eq_false_iff_not] at hj
      rw [setHue_at,if_neg (Ne.symm hj)]
    · rfl

lemma runs_at (hnd : pixFirst.Nodup) (J : List Job) (st : ShareState) {x : Hue} {q k : ℕ} {j : Job} (hq : q ∈ pixFirst)
    (hk : J[k]? = some j) (hj : j.isFor x q = true) (hone : J.countP (Job.isFor x q) = 1) :
    ((J.foldl (Job.run start pixFirst) st).cells q).shco.at x = start+st.used+k := by
  induction J generalizing st k with
  | nil => simp at hk
  | cons i J ih =>
    rw [List.countP_cons] at hone
    rw [List.foldl_cons]
    cases k with
    | zero =>
      obtain rfl : i = j := by simpa using hk
      rw [if_pos hj,Nat.add_eq_right,List.countP_eq_zero] at hone
      simp only [Job.isFor,Bool.and_eq_true,decide_eq_true_eq] at hj
      rw [runs_at_none hnd J _ fun m hm => by simpa using hone m hm,Job.run_cells hnd,if_pos ⟨hq,hj.2⟩,setHue_at,
        if_pos hj.1.symm,Nat.add_zero]
    | succ k =>
      have hmem : j ∈ J := List.mem_of_getElem? (by simpa using hk)
      have hpos := List.countP_pos_iff.mpr ⟨j,hmem,hj⟩
      have hrest : J.countP (Job.isFor x q) = 1 := by
        split_ifs at hone <;> omega
      have := ih (i.run start pixFirst st) (by simpa using hk) hrest
      rw [this]
      simp only [Job.run,shareRecord]
      omega

lemma runs_fShared (hnd : pixFirst.Nodup) (J : List Job) (st : ShareState) {q : ℕ} (hq : q ∈ pixFirst)
    (hred : (st.cells q).fShared = true ∨ ∃ j ∈ J, j.isFor .red q = true) :
    ((J.foldl (Job.run start pixFirst) st).cells q).fShared = true := by
  induction J generalizing st with
  | nil => simpa using hred
  | cons i J ih =>
    rw [List.foldl_cons]
    refine ih _ ?_
    rw [Job.run_cells hnd]
    rcases hred with hold | ⟨j,hj,hfor⟩
    · left
      split_ifs
      · exact setHue_fShared _ _ _ (.inr hold)
      · exact hold
    · rcases List.mem_cons.mp hj with rfl | hj
      · simp only [Job.isFor,Bool.and_eq_true,decide_eq_true_eq] at hfor
        left
        rw [if_pos ⟨hq,hfor.2⟩]
        exact setHue_fShared _ _ _ (.inl hfor.1)
      · exact .inr ⟨j,hj,hfor⟩

lemma index_unique {J : List Job} {p : Job → Bool} (hone : J.countP p = 1) {k l : ℕ} {i j : Job} (hk : J[k]? = some i)
    (hl : J[l]? = some j) (hi : p i = true) (hj : p j = true) : k = l := by
  induction J generalizing k l with
  | nil => simp at hk
  | cons m J ih =>
    rw [List.countP_cons] at hone
    have hzero : ∀ {a : ℕ} {b : Job}, J[a]? = some b → p b = true → 0 < J.countP p := fun ha hb =>
      List.countP_pos_iff.mpr ⟨_,List.mem_of_getElem? ha,hb⟩
    cases k with
    | zero =>
      obtain rfl : m = i := by simpa using hk
      rw [if_pos hi] at hone
      cases l with
      | zero => rfl
      | succ l =>
        have := hzero (a := l) (by simpa using hl) hj
        omega
    | succ k =>
      have hpos := hzero (a := k) (by simpa using hk) hi
      cases l with
      | zero =>
        obtain rfl : m = j := by simpa using hl
        rw [if_pos hj] at hone
        omega
      | succ l =>
        have hrest : J.countP p = 1 := by
          split_ifs at hone <;> omega
        exact congrArg _ (ih hrest (by simpa using hk) (by simpa using hl))

end Run

section Masks

def maskOf (m : ℕ × ℕ × ℕ) : Hue → ℕ
  | .red => m.1
  | .green => m.2.1
  | .blue => m.2.2

def othersOf (m : ℕ × ℕ × ℕ) : Hue → ℕ
  | .red => m.2.1 ||| m.2.2
  | .green => m.1 ||| m.2.2
  | .blue => m.1 ||| m.2.1

def otherPlanes (r g b : ℕ) : Hue → ℕ
  | .red => g+b
  | .green => r+b
  | .blue => r+g

lemma Splits.hue {mask r g b : ℕ} {m : ℕ × ℕ × ℕ} (h : Splits mask r g b m) (x : Hue) :
    maskOf m x ||| othersOf m x = mask ∧ Apart (maskOf m x) (othersOf m x) ∧ pop (othersOf m x) = otherPlanes r g b x := by
  cases x with
  | red =>
    refine ⟨by rw [← h.whole,Nat.or_assoc]; rfl,(apart_or h.redGreen.symm h.redBlue.symm).symm,?_⟩
    rw [othersOf,pop_or h.greenBlue,h.green,h.blue,otherPlanes]
  | green =>
    refine ⟨?_,(apart_or h.redGreen h.greenBlue.symm).symm,?_⟩
    · rw [← h.whole,maskOf,othersOf,← Nat.or_assoc,Nat.or_comm m.2.1]
    · rw [othersOf,pop_or h.redBlue,h.red,h.blue,otherPlanes]
  | blue =>
    refine ⟨?_,(apart_or h.redBlue h.greenBlue).symm,?_⟩
    · rw [← h.whole,maskOf,othersOf,Nat.or_comm m.2.2]
    · rw [othersOf,pop_or h.redGreen,h.red,h.green,otherPlanes]

variable {m o b p s : ℕ}

lemma andNot_base (hb : Apart b (m ||| o)) : andNot b o = b := by
  apply Nat.eq_of_testBit_eq
  intro i
  have h₁ := hb i
  rw [testBit_andNot]
  rw [Nat.testBit_or] at h₁
  cases hbi : b.testBit i <;> cases hoi : o.testBit i <;> simp_all

lemma andNot_combo (hb : Apart b (m ||| o)) (hs : Within s (m ||| o)) (hap : Apart m o) :
    andNot (b+s) o = b ||| (s &&& m) := by
  rw [Apart.add_eq_or (hb.mono (fun _ h => h) hs)]
  apply Nat.eq_of_testBit_eq
  intro i
  have h₁ := hb i
  have h₂ := hs i
  have h₃ := hap i
  rw [testBit_andNot,Nat.testBit_or,Nat.testBit_or,Nat.testBit_and]
  rw [Nat.testBit_or] at h₁ h₂
  cases hbi : b.testBit i <;> cases hsi : s.testBit i <;> cases hmi : m.testBit i <;> cases hoi : o.testBit i <;> simp_all

lemma combo_inj {u v mask : ℕ} (hb : Apart b mask) (hp : Apart p mask) (hu : Within u mask) (hv : Within v mask) :
    b ||| u = p ||| v ↔ b = p ∧ u = v := by
  constructor
  · intro h
    have hbit := fun i => congrArg (·.testBit i) h
    simp only [Nat.testBit_or] at hbit
    constructor <;> apply Nat.eq_of_testBit_eq <;> intro i <;> have h₁ := hbit i <;> have h₂ := hb i <;>
      have h₃ := hp i <;> have h₄ := hu i <;> have h₅ := hv i <;>
      cases hbi : b.testBit i <;> cases hpi : p.testBit i <;> cases hui : u.testBit i <;> cases hvi : v.testBit i <;>
      simp_all
  · rintro ⟨rfl,rfl⟩
    rfl

lemma key_iff {bits : ℕ} (hap : Apart m o) (hb : Apart b (m ||| o)) (hp : Apart p (m ||| o)) (hs : Within s (m ||| o))
    (hbits : Within bits m) : andNot (b+s) o = andNot p o ||| bits ↔ b = p ∧ s &&& m = bits := by
  have hm : Within m (m ||| o) := within_or_left m o
  have hsm : Within (s &&& m) m := fun i hi => by
    rw [Nat.testBit_and,Bool.and_eq_true] at hi
    exact hi.2
  rw [andNot_combo hb hs hap,andNot_base hp]
  exact combo_inj hb hp (hsm.trans hm) (hbits.trans hm)

lemma sum_single (l : List ℕ) (b k : ℕ) : (l.map fun p => if b = p then k else 0).sum = l.count b*k := by
  induction l with
  | nil => simp
  | cons p l ih =>
    rw [List.map_cons,List.sum_cons,ih,List.count_cons]
    by_cases h : b = p
    · subst h
      simp only [if_true,beq_self_eq_true]
      ring
    · rw [if_neg h,beq_false_of_ne (Ne.symm h)]
      simp

end Masks

section Count

lemma colourJobs_map (x : Hue) (mask others : ℕ) (refcnt refcntNoMask : ℤ) (p : ℕ) :
    colourJobs x mask others refcnt refcntNoMask p =
      (submasks 32 mask).map fun bits =>
        ⟨x,others,andNot p others ||| bits,if mask ≠ 0 then refcnt else refcntNoMask⟩ := by
  rw [colourJobs]
  by_cases hm : mask = 0
  · subst hm
    rw [if_neg (by simp),show submasks 32 0 = [0] from rfl]
    simp
  · simp [hm]

variable {size c r g b : ℕ} {cells : ℕ → Entry} {cp : CPResult} {m : ℕ × ℕ × ℕ}

def allJobs (r g b : ℕ) (m : ℕ × ℕ × ℕ) (ppix : List ℕ) : List Job := ppix.flatMap (pixelJobs r g b m.1 m.2.1 m.2.2)

lemma countP_colour (hs : Splits cp.mask r g b m) (hlt : cp.mask < 2^32) (x y : Hue) (k l : ℤ) {q p s : ℕ}
    (hq : Apart q cp.mask) (hp : Apart p cp.mask) (hw : Within s cp.mask) :
    (colourJobs x (maskOf m x) (othersOf m x) k l p).countP (Job.isFor y (q+s)) = if x = y ∧ q = p then 1 else 0 := by
  obtain ⟨hor,hap,_⟩ := hs.hue x
  rw [← hor] at hq hp hw hlt
  have hm : maskOf m x < 2^32 := Nat.lt_of_le_of_lt (within_or_left _ _).le hlt
  rw [colourJobs_map,List.countP_map]
  by_cases hxy : x = y
  · subst hxy
    have hpred : ∀ bits ∈ submasks 32 (maskOf m x), (Job.isFor x (q+s) ∘ fun bits =>
        (⟨x,othersOf m x,andNot p (othersOf m x) ||| bits,if maskOf m x ≠ 0 then k else l⟩ : Job)) bits =
        decide (q = p ∧ s &&& maskOf m x = bits) := by
      intro bits hbits
      simp only [Function.comp,Job.isFor,decide_true,Bool.true_and]
      exact decide_eq_decide.mpr (key_iff hap hq hp hw ((mem_submasks hm).mp hbits))
    rw [List.countP_congr fun bits hbits => by rw [hpred bits hbits]]
    by_cases hqp : q = p
    · rw [if_pos ⟨rfl,hqp⟩]
      have hmem : s &&& maskOf m x ∈ submasks 32 (maskOf m x) := (mem_submasks hm).mpr fun i hi => by
        rw [Nat.testBit_and,Bool.and_eq_true] at hi
        exact hi.2
      have hcount := List.count_eq_one_of_mem (nodup_submasks hm) hmem
      rw [← hcount,List.count_eq_countP]
      refine List.countP_congr fun bits _ => ?_
      simp only [hqp,true_and,decide_eq_true_eq,beq_iff_eq]
      exact eq_comm
    · rw [if_neg (by simp [hqp]),List.countP_eq_zero]
      intro bits _
      simp [hqp]
  · rw [show (if x = y ∧ q = p then 1 else 0) = 0 by simp [hxy],List.countP_eq_zero]
    intro bits _
    simp [Job.isFor,hxy]

lemma jobs_one (hp : Picked size cells c (r+g+b) cp) (hs : Splits cp.mask r g b m) (y : Hue) {q : ℕ} (hq : q ∈ cp.pixels) :
    (allJobs r g b m (cp.pixels.take c)).countP (Job.isFor y q) = 1 := by
  obtain ⟨base,hbase,hq'⟩ := List.mem_flatMap.mp (hp.perm.mem_iff.mp hq)
  obtain ⟨s,hsub,rfl⟩ := List.mem_map.mp hq'
  have hw := (mem_submasks hp.lt).mp hsub
  have hone : ∀ p ∈ cp.pixels.take c, (pixelJobs r g b m.1 m.2.1 m.2.2 p).countP (Job.isFor y (base+s)) =
      if base = p then 1 else 0 := by
    intro p hpp
    have hcolour := fun x k l => countP_colour hs hp.lt x y k l (hp.apart base hbase) (hp.apart p hpp) hw
    have hred := hcolour .red (2^(g+b)) (2^(g+b))
    have hgreen := hcolour .green (2^(r+b)) (2^(g+b))
    have hblue := hcolour .blue (2^(r+g)) (2^(g+b))
    simp only [maskOf,othersOf] at hred hgreen hblue
    rw [pixelJobs,List.countP_append,List.countP_append,hred,hgreen,hblue]
    cases y <;> simp
  have hsum : (cp.pixels.take c).map (List.countP (Job.isFor y (base+s)) ∘ pixelJobs r g b m.1 m.2.1 m.2.2) =
      (cp.pixels.take c).map fun p => if base = p then 1 else 0 := List.map_congr_left hone
  rw [allJobs,List.countP_flatMap,hsum,sum_single,List.count_eq_one_of_mem hp.nodup hbase]

lemma jobs_cells (hp : Picked size cells c (r+g+b) cp) (hs : Splits cp.mask r g b m) {j : Job}
    (hj : j ∈ allJobs r g b m (cp.pixels.take c)) :
    cp.pixels.countP (fun q => decide (andNot q j.others = j.key)) = 2^otherPlanes r g b j.hue := by
  obtain ⟨p,hpp,hj⟩ := List.mem_flatMap.mp hj
  obtain ⟨x,k,l,hj⟩ : ∃ x k l, j ∈ colourJobs x (maskOf m x) (othersOf m x) k l p := by
    rw [pixelJobs,List.mem_append,List.mem_append] at hj
    rcases hj with (hj | hj) | hj
    · exact ⟨.red,_,_,hj⟩
    · exact ⟨.green,_,_,hj⟩
    · exact ⟨.blue,_,_,hj⟩
  obtain ⟨hor,hap,hpop⟩ := hs.hue x
  have hlt := hp.lt
  rw [colourJobs_map,List.mem_map] at hj
  obtain ⟨bits,hbits,rfl⟩ := hj
  have hm : maskOf m x < 2^32 := by
    rw [← hor] at hlt
    exact Nat.lt_of_le_of_lt (within_or_left _ _).le hlt
  rw [mem_submasks hm] at hbits
  have hbase : ∀ q ∈ cp.pixels.take c, ((submasks 32 cp.mask).map (q+·)).countP
      (fun q => decide (andNot q (othersOf m x) = andNot p (othersOf m x) ||| bits)) =
      if p = q then 2^otherPlanes r g b x else 0 := by
    intro q hq
    have hkey : ∀ s ∈ submasks 32 cp.mask, ((fun q => decide (andNot q (othersOf m x) = andNot p (othersOf m x) ||| bits)) ∘
        (q+·)) s = decide (q = p ∧ s &&& maskOf m x = bits) := by
      intro s hsub
      have hw := (mem_submasks hp.lt).mp hsub
      have hq' := hp.apart q hq
      have hp' := hp.apart p hpp
      rw [← hor] at hw hq' hp'
      exact decide_eq_decide.mpr (key_iff hap hq' hp' hw hbits)
    rw [List.countP_map,List.countP_congr fun s hsub => by rw [hkey s hsub]]
    by_cases hqp : p = q
    · subst hqp
      rw [if_pos rfl,← hpop,← hor]
      rw [← hor] at hlt
      rw [← countP_submasks hlt hap hbits]
      exact List.countP_congr fun s _ => by simp
    · rw [if_neg hqp,List.countP_eq_zero]
      intro s _
      simp [Ne.symm hqp]
  have hsum : (cp.pixels.take c).map (List.countP (fun q => decide (andNot q (othersOf m x) =
      andNot p (othersOf m x) ||| bits)) ∘ fun q => (submasks 32 cp.mask).map (q+·)) =
      (cp.pixels.take c).map fun q => if p = q then 2^otherPlanes r g b x else 0 := List.map_congr_left hbase
  rw [hp.perm.countP_eq,List.countP_flatMap,hsum,sum_single,List.count_eq_one_of_mem hp.nodup hpp,Nat.one_mul]

lemma jobs_refcnt (hs : Splits cp.mask r g b m) (hok : r = 0 ∨ (0 < g ∧ 0 < b)) {ppix : List ℕ} {j : Job}
    (hj : j ∈ allJobs r g b m ppix) : j.refcnt = 2^otherPlanes r g b j.hue := by
  obtain ⟨p,_,hj⟩ := List.mem_flatMap.mp hj
  rw [pixelJobs,List.mem_append,List.mem_append] at hj
  have hgreen : m.2.1 = 0 → g = 0 := fun hz => by rw [← hs.green,hz,pop_zero]
  have hblue : m.2.2 = 0 → b = 0 := fun hz => by rw [← hs.blue,hz,pop_zero]
  rcases hj with (hj | hj) | hj
  · rw [colourJobs_map,List.mem_map] at hj
    obtain ⟨bits,_,rfl⟩ := hj
    simp [otherPlanes]
  · rw [colourJobs_map,List.mem_map] at hj
    obtain ⟨bits,_,rfl⟩ := hj
    dsimp only [otherPlanes]
    split_ifs with hm
    · rfl
    · have hg := hgreen (by simpa using hm)
      rw [show g+b = r+b by omega]
  · rw [colourJobs_map,List.mem_map] at hj
    obtain ⟨bits,_,rfl⟩ := hj
    dsimp only [otherPlanes]
    split_ifs with hm
    · rfl
    · have hb := hblue (by simpa using hm)
      rw [show g+b = r+g by omega]

lemma length_allJobs (hs : Splits cp.mask r g b m) (hlt : cp.mask < 2^32) (ppix : List ℕ) :
    (allJobs r g b m ppix).length = ppix.length*2^r+ppix.length*2^g+ppix.length*2^b := by
  have hmask : ∀ x, maskOf m x < 2^32 := fun x => by
    rw [← (hs.hue x).1] at hlt
    exact Nat.lt_of_le_of_lt (within_or_left _ _).le hlt
  have hr := length_submasks (hmask .red)
  have hg := length_submasks (hmask .green)
  have hb := length_submasks (hmask .blue)
  simp only [maskOf] at hr hg hb
  rw [allJobs,List.length_flatMap]
  have hone : ∀ p, (pixelJobs r g b m.1 m.2.1 m.2.2 p).length = 2^r+2^g+2^b := by
    intro p
    rw [pixelJobs,colourJobs_map,colourJobs_map,colourJobs_map,List.length_append,List.length_append,List.length_map,
      List.length_map,List.length_map,hr,hg,hb,hs.red,hs.green,hs.blue]
  simp only [hone,List.map_const',List.sum_replicate,Nat.nsmul_eq_mul]
  ring

end Count

section Share

variable {size c r g b : ℕ} {cells : ℕ → Entry} {cp : CPResult} {m : ℕ × ℕ × ℕ} {hh : Heap} {T : Hue → ℕ → ℕ}

/-- The state at the end of `AllocShared`. -/
def sharedState (hh : Heap) (cp : CPResult) (c r g b : ℕ) (m : ℕ × ℕ × ℕ) : ShareState :=
  (allJobs r g b m (cp.pixels.take c)).foldl (Job.run hh.next cp.pixels)
    ⟨⟨fun a => if hh.next ≤ a ∧ a < hh.next+(c*2^r+c*2^g+c*2^b) then some ⟨0,0⟩ else hh.recs a,
      hh.next+(c*2^r+c*2^g+c*2^b)⟩,cp.ent,0⟩

lemma allocShared_eq (hh : Heap) (cp : CPResult) (c r g b : ℕ) (m : ℕ × ℕ × ℕ) :
    allocShared hh cp.ent (cp.pixels.take c) c r g b m.1 m.2.1 m.2.2 cp.pixels =
      ((sharedState hh cp c r g b m).heap,(sharedState hh cp c r g b m).cells) := by
  simp only [allocShared,sharedState,allJobs,← sharePixels_eq]

lemma shared_pointer (hh : Heap) (hp : Picked size cells c (r+g+b) cp) (hs : Splits cp.mask r g b m) (x : Hue) {q : ℕ}
    (hq : q ∈ cp.pixels) :
    ∃ k j, (allJobs r g b m (cp.pixels.take c))[k]? = some j ∧ j.isFor x q = true ∧
      ((sharedState hh cp c r g b m).cells q).shco.at x = hh.next+k := by
  have hone := jobs_one hp hs x hq
  obtain ⟨j,hj,hfor⟩ := List.countP_pos_iff.mp (show 0 < (allJobs r g b m (cp.pixels.take c)).countP (Job.isFor x q) by omega)
  obtain ⟨k,hk⟩ := List.getElem?_of_mem hj
  exact ⟨k,j,hk,hfor,runs_at hp.nodup_pixels _ _ hq hk hfor hone⟩

lemma shared_fShared (hp : Picked size cells c (r+g+b) cp) (hs : Splits cp.mask r g b m) {q : ℕ} (hq : q ∈ cp.pixels) :
    ((sharedState hh cp c r g b m).cells q).fShared = true := by
  obtain ⟨k,j,hk,hfor,_⟩ := shared_pointer hh hp hs .red hq
  exact runs_fShared hp.nodup_pixels _ _ hq (.inr ⟨j,List.mem_of_getElem? hk,hfor⟩)

lemma shared_outside (hp : Picked size cells c (r+g+b) cp) {q : ℕ} (hq : q ∉ cp.pixels) :
    (sharedState hh cp c r g b m).cells q = cells q := by
  rw [sharedState,runs_cells_outside hp.nodup_pixels _ _ hq,hp.ent_eq]
  simp [taken,hq]

lemma shared_refers (hp : Picked size cells c (r+g+b) cp) (hs : Splits cp.mask r g b m) (x : Hue) {q k : ℕ} {j : Job}
    (hq : q ∈ cp.pixels) (hk : (allJobs r g b m (cp.pixels.take c))[k]? = some j) :
    refers x (hh.next+k) ((sharedState hh cp c r g b m).cells q) = j.isFor x q := by
  obtain ⟨k',j',hk',hfor,hat⟩ := shared_pointer hh hp hs x hq
  rw [refers,shared_fShared hp hs hq,hat,Bool.true_and]
  cases hj : j.isFor x q with
  | true =>
    have := index_unique (jobs_one hp hs x hq) hk' hk hfor hj
    rw [this]
    simp
  | false =>
    rw [decide_eq_false_iff_not]
    intro heq
    obtain rfl : k' = k := by omega
    rw [hk] at hk'
    rw [← Option.some.inj hk',hj] at hfor
    simp at hfor

lemma picked_le (hp : Picked size cells c (r+g+b) cp) : c*2^(r+g+b) ≤ size := by
  rw [← hp.length_pixels,← List.toFinset_card_of_nodup hp.nodup_pixels]
  calc cp.pixels.toFinset.card ≤ (Finset.range size).card :=
        Finset.card_le_card fun q hq => Finset.mem_range.mpr (hp.free q (List.mem_toFinset.mp hq)).1
    _ = size := Finset.card_range size

lemma shared_refs (hh : Heap) (hown : ∀ i < size, (cells i).fShared = true → (cells i).refcnt = allocPrivate)
    (hp : Picked size cells c (r+g+b) cp) (x : Hue) (a : ℕ) :
    refs size (sharedState hh cp c r g b m).cells x a = refs size cells x a+
      cp.pixels.countP fun q => refers x a ((sharedState hh cp c r g b m).cells q) := by
  refine tally_extend cells _ (refers x a) cp.pixels hp.nodup_pixels (fun q hq => (hp.free q hq).1) (fun q hq => ?_)
    fun q hq => by rw [shared_outside hp hq]
  obtain ⟨hlt,hzero⟩ := hp.free q hq
  apply refers_of_not_shared
  cases hf : (cells q).fShared with
  | false => rfl
  | true =>
    have := hown q hlt hf
    rw [hzero] at this
    exact absurd this (by decide)

/-- `AllocShared` leaves every record with the right count, if green and blue have planes or red has none. -/
theorem sharedState_ok (hok : r = 0 ∨ (0 < g ∧ 0 < b)) (hc : 0 < c) (hsize : size < 2^15)
    (h : SharedOk T size hh cells) (hp : Picked size cells c (r+g+b) cp) (hs : Splits cp.mask r g b m) :
    SharedOk T size (sharedState hh cp c r g b m).heap (sharedState hh cp c r g b m).cells := by
  have hlen := length_allJobs hs hp.lt (cp.pixels.take c)
  rw [hp.length] at hlen
  have hrefs := fun x a => shared_refs hh (m := m) h.own hp x a
  -- Outside of the new records nothing is new.
  have hout : ∀ a, a < hh.next ∨ hh.next+(c*2^r+c*2^g+c*2^b) ≤ a → ∀ x,
      (cp.pixels.countP fun q => refers x a ((sharedState hh cp c r g b m).cells q)) = 0 := by
    intro a ha x
    rw [List.countP_eq_zero]
    intro q hq hcon
    obtain ⟨k,j,hk,_,hat⟩ := shared_pointer hh hp hs x hq
    have hlt := (List.getElem?_eq_some_iff.mp hk).1
    simp only [refers,hat,Bool.and_eq_true,decide_eq_true_eq] at hcon
    omega
  have hrecs : ∀ a, a < hh.next ∨ hh.next+(c*2^r+c*2^g+c*2^b) ≤ a →
      (sharedState hh cp c r g b m).heap.recs a = hh.recs a := by
    intro a ha
    rw [sharedState,runs_recs_outside _ _ (by dsimp only; omega)]
    dsimp only
    rw [if_neg (by omega)]
  -- A new record is referred to by the cells its job is for.
  have hin : ∀ {k : ℕ} {j : Job}, (allJobs r g b m (cp.pixels.take c))[k]? = some j → ∀ x,
      T x (hh.next+k)+refs size (sharedState hh cp c r g b m).cells x (hh.next+k) =
        if x = j.hue then 2^otherPlanes r g b j.hue else 0 := by
    intro k j hk x
    have hold := h.heap.dead (hh.next+k) (h.heap.unused _ (by omega)) x
    rw [hrefs,← Nat.add_assoc,hold,Nat.zero_add,
      List.countP_congr fun q hq => by rw [shared_refers hp hs x hq hk]]
    by_cases hx : x = j.hue
    · rw [if_pos hx,← jobs_cells hp hs (List.mem_of_getElem? hk)]
      exact List.countP_congr fun q _ => by simp [Job.isFor,hx]
    · rw [if_neg hx,List.countP_eq_zero]
      intro q _
      simp [Job.isFor,Ne.symm hx]
  refine ⟨⟨fun a rec hrec => ?_,fun a hrec x => ?_,fun a ha => ?_⟩,fun i hi hf => ?_⟩
  · by_cases ha : a < hh.next ∨ hh.next+(c*2^r+c*2^g+c*2^b) ≤ a
    · rw [hrecs a ha] at hrec
      obtain ⟨h₁,y,h₂,h₃,h₄⟩ := h.heap.live a rec hrec
      refine ⟨h₁,y,?_,?_,fun z hz => ?_⟩ <;> rw [hrefs,hout a ha,Nat.add_zero]
      · exact h₂
      · exact h₃
      · exact h₄ z hz
    · obtain ⟨k,rfl⟩ : ∃ k, a = hh.next+k := ⟨a-hh.next,by omega⟩
      obtain ⟨j,hk⟩ : ∃ j, (allJobs r g b m (cp.pixels.take c))[k]? = some j :=
        ⟨_,List.getElem?_eq_getElem (show k < (allJobs r g b m (cp.pixels.take c)).length by omega)⟩
      have hnew : (sharedState hh cp c r g b m).heap.recs (hh.next+k) = some ⟨0,toShort j.refcnt⟩ :=
        runs_recs _ ⟨⟨_,_⟩,cp.ent,0⟩ hk
      rw [hnew] at hrec
      obtain rfl := Option.some.inj hrec
      have hrc := jobs_refcnt hs hok (List.mem_of_getElem? hk)
      have hbound : 2^otherPlanes r g b j.hue < 2^15 := by
        calc 2^otherPlanes r g b j.hue ≤ 2^(r+g+b) := Nat.pow_le_pow_right (by omega) (by
              cases j.hue <;> simp only [otherPlanes] <;> omega)
          _ ≤ c*2^(r+g+b) := Nat.le_mul_of_pos_left _ hc
          _ ≤ size := picked_le hp
          _ < 2^15 := hsize
      have hcast : j.refcnt = ((2^otherPlanes r g b j.hue : ℕ) : ℤ) := by rw [hrc]; push_cast; rfl
      have hsmall : j.refcnt < 2^15 := by
        rw [hcast]
        exact_mod_cast hbound
      have hshort : toShort j.refcnt = j.refcnt := toShort_of_bounds (by
        rw [hcast]
        exact le_trans (by norm_num) (Int.natCast_nonneg _)) hsmall
      have hpos := Nat.two_pow_pos (otherPlanes r g b j.hue)
      refine ⟨by rw [hshort]; exact hsmall,j.hue,?_,?_,fun y hy => ?_⟩
      · rw [hin hk,if_pos rfl,hshort,hcast]
      · rw [hin hk,if_pos rfl]
        exact hpos
      · rw [hin hk,if_neg hy]
  · have ha : a < hh.next ∨ hh.next+(c*2^r+c*2^g+c*2^b) ≤ a := by
      by_contra hcon
      obtain ⟨k,rfl⟩ : ∃ k, a = hh.next+k := ⟨a-hh.next,by omega⟩
      obtain ⟨j,hk⟩ : ∃ j, (allJobs r g b m (cp.pixels.take c))[k]? = some j :=
        ⟨_,List.getElem?_eq_getElem (show k < (allJobs r g b m (cp.pixels.take c)).length by omega)⟩
      have hnew : (sharedState hh cp c r g b m).heap.recs (hh.next+k) = some ⟨0,toShort j.refcnt⟩ :=
        runs_recs _ ⟨⟨_,_⟩,cp.ent,0⟩ hk
      rw [hnew] at hrec
      simp at hrec
    rw [hrefs,hout a ha,Nat.add_zero]
    rw [hrecs a ha] at hrec
    exact h.heap.dead a hrec x
  · have hnext : (sharedState hh cp c r g b m).heap.next = hh.next+(c*2^r+c*2^g+c*2^b) := runs_next _ _
    rw [hnext] at ha
    rw [hrecs a (.inr ha)]
    exact h.heap.unused a (by omega)
  · by_cases hq : i ∈ cp.pixels
    · have hrefcnt := allocShared_refcnt hh cp.ent (cp.pixels.take c) c r g b m.1 m.2.1 m.2.2 cp.pixels i
      rw [allocShared_eq] at hrefcnt
      rw [hrefcnt,hp.ent_eq]
      simp [taken,hq]
    · rw [shared_outside hp hq] at hf ⊢
      exact h.own i hi hf

end Share

end Xlibre.Dix.Colormap
