import Xlibre.Dix.Region.Normal

/-! Appended regions that stay banded: their bands are not merged where the bands of two regions end up alike. -/
namespace Xlibre.Dix.Region
open Xlibre.Lib.Bands

structure NormalRegion (reg : RegionRec) : Prop extends ValidRegion reg where
  merged : ∃ R, Banded R ∧ reg.rects = boxesOf R

/-- More boxes at the end or at the front of some, if they are behind them or before them. -/
def stackOn (l new : List Box) : Option (List Box) :=
  if new = [] then some l
  else if l = [] then some new
  else if behind (new.getD 0 emptyBox) (l.getD (l.length-1) emptyBox) then some (l ++ new)
  else if behind (l.getD 0 emptyBox) (new.getD (new.length-1) emptyBox) then some (new ++ l)
  else none

def stack (rgns : List RegionRec) : Option (List Box) := rgns.foldlM (fun l rgn => stackOn l rgn.rects) []

def InUnion (rgns : List RegionRec) (x y : ℤ) : Prop := ∃ rgn ∈ rgns, InBoxes rgn.rects x y

/-- The regions can be stacked, and one of them starts a band at the row, which is like the row above in the union. -/
structure Seam (rgns : List RegionRec) (y : ℤ) : Prop where
  stacked : stack rgns ≠ none
  starts : ∃ rgn ∈ rgns, StartsAt rgn.rects y
  same : ∀ x, InUnion rgns x (y-1) ↔ InUnion rgns x y

/-- The target of some appends that started from `start`: the stacked boxes, or a region that knows that it is not
banded. -/
structure Stacks (start : RegionRec) (s : Option (List Box)) (dst : RegionRec) : Prop where
  boxes : ∀ l, s = some l → dst.rects = l ∧ l.Pairwise Before ∧ (l = [] → dst = start) ∧
    (l ≠ [] → dst.extents.x1 < dst.extents.x2)
  mixed : s = none → dst.rects ≠ [] ∧ dst.extents.x2 ≤ dst.extents.x1

variable {start dst rgn : RegionRec} {boxes l m : List Box} {s : Option (List Box)}

lemma box_of_take {d : RegData} {k i : ℕ} (hl : d.boxes.take k = l) (hi : i < l.length) : d.box i = l.getD i emptyBox := by
  have hk : l.length ≤ d.boxes.length := by
    rw [← hl,List.length_take]
    omega
  have hik : i < k := by
    rw [← hl,List.length_take] at hi
    omega
  rw [RegData.box,List.getD_eq_getElem?_getD,List.getD_eq_getElem?_getD,← hl,List.getElem?_take_of_lt hik]

lemma before_of_behind {first last : Box} (h : behind first last) : Before last first := by
  unfold behind at h
  unfold Before
  omega

lemma before_append (hl : l.Pairwise Before) (hm : m.Pairwise Before) (hlok : ∀ b ∈ l, b.Ok) (hmok : ∀ b ∈ m, b.Ok)
    (hlne : l ≠ []) (hmne : m ≠ []) (hb : behind (m.getD 0 emptyBox) (l.getD (l.length-1) emptyBox)) :
    (l ++ m).Pairwise Before := by
  refine List.pairwise_append.mpr ⟨hl,hm,fun a ha b hb' => ?_⟩
  cases l using List.reverseRecOn with
  | nil => exact absurd rfl hlne
  | append_singleton init last =>
    obtain ⟨first,rest,rfl⟩ := List.exists_cons_of_ne_nil hmne
    have hmid : Before last first := before_of_behind (by simpa using hb)
    have hleft : Before a first := by
      obtain ha | ha := List.mem_append.mp ha
      · exact ((List.pairwise_append.mp hl).2.2 a ha last (by simp)).trans (hlok last (by simp)) hmid
      · rwa [List.mem_singleton.mp ha]
    obtain rfl | hb' := List.mem_cons.mp hb'
    · exact hleft
    · exact hleft.trans (hmok first (by simp)) ((List.pairwise_cons.mp hm).1 b hb')

lemma NormalRegion.before (h : NormalRegion rgn) : rgn.rects.Pairwise Before := by
  obtain ⟨R,hR,hrects⟩ := h.merged
  rw [hrects]
  exact boxesOf_before hR

lemma BoundingBox.wide {e : Box} (h : BoundingBox l e) (hok : ∀ b ∈ l, b.Ok) : e.x1 < e.x2 := by
  obtain ⟨b,hb,_⟩ := h.left
  have := h.bound b hb
  have := (hok b hb).xs
  omega

lemma Stacks.append (h : Stacks start s dst) (ha : Appended boxes dst) (hr : NormalRegion rgn) :
    Stacks start (s.bind fun l => stackOn l rgn.rects) (regionAppend dst rgn).2 := by
  by_cases hne : rgn.rects = []
  · rw [regionAppend_nil hr.toValidRegion hne,hne]
    have hbind : (s.bind fun l => stackOn l []) = s := by cases s <;> rfl
    rwa [hbind]
  obtain ⟨d,e,reg,hcall,hrects,he,hext,hr',-,-,-⟩ := regionAppend_spec ha.wf hr.toValidRegion hne
  have hlen := length_rects_eq ha.wf
  rw [hcall]
  cases s with
  | none =>
    obtain ⟨hold,hdeg⟩ := h.mixed rfl
    rw [appendExtents,if_neg (by rw [← hlen]; exact fun hz => hold (List.length_eq_zero_iff.mp hz)),
      if_neg (by omega)] at he
    subst he
    refine ⟨fun l hl => (by cases hl),fun _ => ⟨?_,hext ▸ hdeg⟩⟩
    rw [hr']
    simp [hne]
  | some l =>
    obtain ⟨hl,hbefore,-,hwide⟩ := h.boxes l rfl
    rw [Option.bind_some,stackOn,if_neg hne]
    by_cases hlne : l = []
    · rw [if_pos hlne]
      rw [appendExtents,if_pos (by rw [← hlen,hl,hlne]; rfl)] at he
      subst he
      rw [hl,hlne] at hr'
      refine ⟨fun l' hl' => ?_,fun hn => by cases hn⟩
      obtain rfl := Option.some.inj hl'
      refine ⟨hr',hr.before,fun hn => absurd hn hne,fun _ => ?_⟩
      rw [hext]
      exact (hr.tight hne).wide hr.ok
    rw [if_neg hlne]
    have hpos := List.length_pos_iff.mpr hlne
    have hok : ∀ b ∈ l, b.Ok := hl ▸ ha.ok
    rw [appendExtents,if_neg (by rw [← hlen,hl]; omega),if_pos (hwide hlne)] at he
    rw [hl] at hrects hlen
    dsimp only at he
    rw [← hlen,box_of_take hrects (by omega),box_of_take hrects hpos] at he
    have hnew := hwide hlne
    have hx1 : (if rgn.extents.x1 < dst.extents.x1 then rgn.extents.x1 else dst.extents.x1) ≤ dst.extents.x1 := by
      split_ifs <;> omega
    have hx2 : dst.extents.x2 ≤ (if rgn.extents.x2 > dst.extents.x2 then rgn.extents.x2 else dst.extents.x2) := by
      split_ifs <;> omega
    by_cases hbehind : behind (rgn.rects.getD 0 emptyBox) (l.getD (l.length-1) emptyBox)
    · rw [if_pos hbehind] at he ⊢
      subst he
      refine ⟨fun l' hl' => ?_,fun hn => by cases hn⟩
      obtain rfl := Option.some.inj hl'
      rw [hl] at hr'
      refine ⟨hr',before_append hbefore hr.before hok hr.ok hlne hne hbehind,fun hn => by simp [hne] at hn,fun _ => ?_⟩
      rw [hext]
      exact (hx1.trans_lt hnew).trans_le hx2
    rw [if_neg hbehind] at he ⊢
    by_cases hahead : behind (l.getD 0 emptyBox) (rgn.rects.getD (rgn.rects.length-1) emptyBox)
    · rw [if_pos hahead] at he ⊢
      subst he
      refine ⟨fun l' hl' => ?_,fun hn => by cases hn⟩
      obtain rfl := Option.some.inj hl'
      rw [hl] at hr'
      refine ⟨hr',before_append hr.before hbefore hr.ok hok hne hlne hahead,fun hn => by simp [hne] at hn,fun _ => ?_⟩
      rw [hext]
      exact (hx1.trans_lt hnew).trans_le hx2
    · rw [if_neg hahead] at he ⊢
      subst he
      refine ⟨fun l' hl' => (by cases hl'),fun _ => ⟨?_,?_⟩⟩
      · rw [hr']
        simp [hne]
      · rw [hext]

lemma Stacks.all {rgns : List RegionRec} (h : Stacks start s dst) (ha : Appended boxes dst)
    (hr : ∀ rgn ∈ rgns, NormalRegion rgn) :
    Stacks start (s.bind fun l => rgns.foldlM (fun l rgn => stackOn l rgn.rects) l) (appendAll dst rgns) := by
  induction rgns generalizing s dst boxes with
  | nil =>
    have hbind : (s.bind fun l => List.foldlM (fun l (rgn : RegionRec) => stackOn l rgn.rects) l []) = s := by
      cases s <;> rfl
    rwa [hbind]
  | cons rgn rgns ih =>
    have hrgn := hr rgn (by simp)
    have hrest := ih (h.append ha hrgn) (ha.append hrgn.toValidRegion).2 fun r hr' => hr r (by simp [hr'])
    rw [Option.bind_assoc] at hrest
    exact hrest

lemma inUnion_iff (rgns : List RegionRec) (x y : ℤ) : InUnion rgns x y ↔ InBoxes (rgns.flatMap RegionRec.rects) x y := by
  simp only [InUnion,InBoxes,List.mem_flatMap]
  constructor
  · rintro ⟨rgn,hrgn,b,hb,hxy⟩
    exact ⟨b,⟨rgn,hrgn,hb⟩,hxy⟩
  · rintro ⟨b,⟨rgn,hrgn,hb⟩,hxy⟩
    exact ⟨rgn,hrgn,b,hb,hxy⟩

/-- The region after appending and validating: banded, over the union, and with the seams that the regions make. -/
structure Outcome (start : RegionRec) (rgns : List RegionRec) (reg : RegionRec) : Prop where
  valid : ValidRegion reg
  before : reg.rects.Pairwise Before
  covers : ∀ x y, InBoxes reg.rects x y ↔ InUnion rgns x y
  seams : ∀ y, SeamIn reg.rects y ↔ Seam rgns y
  empty : reg.rects = [] → reg = start

theorem regionAppend_outcome {rgns : List RegionRec} (hstart : ValidRegion start) (hempty : start.rects = [])
    (hrgns : ∀ rgn ∈ rgns, NormalRegion rgn) :
    ∃ reg overlap, regionValidate (appendAll start rgns) = some (true,reg,overlap) ∧ Outcome start rgns reg := by
  have hbegin : Appended [] start := ⟨hstart.intact,hstart.wf,by rw [hempty],hstart.ok,.empty hempty hstart.valid⟩
  have hall := hbegin.all fun r hr => (hrgns r hr).toValidRegion
  have hfirst : Stacks start (some []) start := by
    refine ⟨fun l hl => ?_,fun hn => by cases hn⟩
    obtain rfl := Option.some.inj hl
    exact ⟨hempty,List.Pairwise.nil,fun _ => rfl,fun hn => absurd rfl hn⟩
  have hstack : Stacks start (stack rgns) (appendAll start rgns) := hfirst.all hbegin hrgns
  rw [List.nil_append] at hall
  generalize appendAll start rgns = dst at hall hstack
  have hcov : ∀ x y, InBoxes dst.rects x y ↔ InUnion rgns x y := fun x y => by
    simp only [inUnion_iff,InBoxes,hall.perm.mem_iff]
  have hstarts : ∀ y, StartsAt dst.rects y ↔ ∃ rgn ∈ rgns, StartsAt rgn.rects y := fun y => by
    simp only [StartsAt,hall.perm.mem_iff,List.mem_flatMap]
    constructor
    · rintro ⟨b,⟨rgn,hrgn,hb⟩,hy⟩
      exact ⟨rgn,hrgn,b,hb,hy⟩
    · rintro ⟨rgn,hrgn,b,hb,hy⟩
      exact ⟨b,⟨rgn,hrgn,hb⟩,hy⟩
  cases hs : stack rgns with
  | none =>
    obtain ⟨hne,hdeg⟩ := hstack.mixed hs
    cases hall.shape with
    | empty hnil => exact absurd hnil hne
    | banded _ hbb => exact absurd (hbb.wide hall.ok) (by omega)
    | mixed d hd _ _ =>
      obtain ⟨reg,overlap,R,hcall,hvalid,hR,hsame,-⟩ := regionValidate_mixed hd (hall.wf d hd) hall.ok hne hdeg
      refine ⟨reg,overlap,hcall,hvalid,?_,fun x y => by rw [hsame,hcov],fun y => ?_,fun hnil => ?_⟩
      · rw [hR.rects]
        exact boxesOf_before hR.banded
      · rw [hR.rects]
        exact iff_of_false (not_seamIn hR.banded) fun h => h.stacked hs
      · rw [hR.rects] at hnil
        exact absurd hnil (boxesOf_ne_nil hR.banded hR.nonempty)
  | some l =>
    obtain ⟨hrects,hbefore,hnone,hwide⟩ := hstack.boxes l hs
    have hseams : ∀ y, SeamIn dst.rects y ↔ Seam rgns y := by
      intro y
      unfold SeamIn
      simp only [hcov,hstarts]
      exact ⟨fun h => ⟨by simp [hs],h.1,h.2⟩,fun h => ⟨h.starts,h.same⟩⟩
    rw [← hrects] at hbefore
    by_cases hnil : l = []
    · have hdst := hnone hnil
      refine ⟨dst,false,regionValidate_empty hall.intact hall.wf (hrects.trans hnil),?_,hbefore,hcov,hseams,fun _ => hdst⟩
      rw [hdst]
      exact hstart
    · have hbb : BoundingBox dst.rects dst.extents := by
        cases hall.shape with
        | empty hnil' => exact absurd (hrects ▸ hnil') hnil
        | banded _ hbb => exact hbb
        | mixed _ _ _ hdeg =>
          have := hwide hnil
          omega
      obtain ⟨reg,hcall,hvalid,hkept⟩ := regionValidate_banded hall.intact hall.wf hall.ok
        (hbefore.imp Before.inOrder) hbb
      rw [← hkept] at hbefore hcov hseams
      refine ⟨reg,false,hcall,hvalid,hbefore,hcov,hseams,fun hreg => ?_⟩
      exact absurd (hrects ▸ hkept ▸ hreg) hnil

def SameUnion (rgns rgns' : List RegionRec) : Prop := ∀ x y, InUnion rgns x y ↔ InUnion rgns' x y

/-- If two sequences have the same union, then they make the same seams, and if they have nothing in it, then their targets
started with the same extents. -/
def Settled (start : RegionRec) (rgns : List RegionRec) (start' : RegionRec) (rgns' : List RegionRec) : Prop :=
  SameUnion rgns rgns' → (∀ y, Seam rgns y ↔ Seam rgns' y) ∧
    ((∀ x y, ¬ InUnion rgns x y) → start.extents = start'.extents)

lemma Outcome.rects_nil_iff {rgns : List RegionRec} {reg : RegionRec} (h : Outcome start rgns reg) :
    reg.rects = [] ↔ ∀ x y, ¬ InUnion rgns x y := by
  simp only [← h.covers]
  refine ⟨fun hnil x y => by rw [hnil]; simp [InBoxes],fun hnone => ?_⟩
  by_contra hne
  obtain ⟨b,rest,hrects⟩ := List.exists_cons_of_ne_nil hne
  have hb : b ∈ reg.rects := hrects ▸ List.mem_cons_self
  have hok := h.valid.ok b hb
  exact hnone b.x1 b.y1 ⟨b,hb,le_rfl,hok.xs,le_rfl,hok.ys⟩

lemma Outcome.identical_iff {start' reg reg' : RegionRec} {rgns rgns' : List RegionRec} (h : Outcome start rgns reg)
    (h' : Outcome start' rgns' reg') (hsame : SameUnion rgns rgns') :
    (reg.extents = reg'.extents ∧ reg.rects = reg'.rects) ↔ Settled start rgns start' rgns' := by
  constructor
  · rintro ⟨hext,hrects⟩ _
    refine ⟨fun y => by rw [← h.seams,← h'.seams,hrects],fun hnone => ?_⟩
    have hnil := h.rects_nil_iff.mpr hnone
    rwa [← h.empty hnil,← h'.empty (hrects ▸ hnil)]
  · intro hsettled
    obtain ⟨hseams,hstart⟩ := hsettled hsame
    have hrects : reg.rects = reg'.rects := by
      refine eq_of_seams h.before h.valid.ok h'.before h'.valid.ok (fun x y => ?_) fun y => ?_
      · rw [h.covers,h'.covers,hsame]
      · rw [h.seams,h'.seams,hseams]
    refine ⟨?_,hrects⟩
    by_cases hnil : reg.rects = []
    · rw [h.empty hnil,h'.empty (hrects ▸ hnil)]
      exact hstart (h.rects_nil_iff.mp hnil)
    · have hbb := h'.valid.tight (hrects ▸ hnil)
      rw [← hrects] at hbb
      exact (h.valid.tight hnil).unique hbb

/-- Two sequences of appends, each from an empty region: that regions over one union are identical, so that comparing them
tells whether the unions are equal, holds exactly when no seam makes a difference. -/
theorem regionEqual_decides_iff (regionEqual : RegionRec → RegionRec → Bool)
    (hequal : ∀ r s, regionEqual r s = true ↔ r.extents = s.extents ∧ r.rects = s.rects)
    {start start' : RegionRec} {rgns rgns' : List RegionRec} (hstart : ValidRegion start) (hempty : start.rects = [])
    (hstart' : ValidRegion start') (hempty' : start'.rects = []) (hrgns : ∀ rgn ∈ rgns, NormalRegion rgn)
    (hrgns' : ∀ rgn ∈ rgns', NormalRegion rgn) :
    ∃ reg overlap reg' overlap', regionValidate (appendAll start rgns) = some (true,reg,overlap) ∧
      regionValidate (appendAll start' rgns') = some (true,reg',overlap') ∧
      (((SameUnion rgns rgns' → reg.extents = reg'.extents ∧ reg.rects = reg'.rects) ∧
        (regionEqual reg reg' = true ↔ SameUnion rgns rgns')) ↔ Settled start rgns start' rgns') := by
  obtain ⟨reg,overlap,hcall,h⟩ := regionAppend_outcome hstart hempty hrgns
  obtain ⟨reg',overlap',hcall',h'⟩ := regionAppend_outcome hstart' hempty' hrgns'
  refine ⟨reg,overlap,reg',overlap',hcall,hcall',?_⟩
  have hunion : reg.rects = reg'.rects → SameUnion rgns rgns' := fun hrects x y => by
    rw [← h.covers,← h'.covers,hrects]
  rw [hequal]
  constructor
  · rintro ⟨hid,-⟩ hsame
    exact (h.identical_iff h' hsame).mp (hid hsame) hsame
  · intro hsettled
    have hid := fun hsame => (h.identical_iff h' hsame).mpr hsettled
    exact ⟨hid,fun heq => hunion heq.2,hid⟩

lemma validRegion_null : ValidRegion ⟨emptyBox,.emptyData⟩ :=
  ⟨by simp,by simp,by simp [RegionRec.rects],by simp [RegionRec.rects],by simp [RegionRec.rects],by decide⟩

lemma normalRegion_box {b : Box} (hb : b.Ok) : NormalRegion ⟨b,.null⟩ := by
  refine ⟨validRegion_box hb,[⟨b.y1,b.y2,[(b.x1,b.x2)]⟩],⟨?_,by simp,by simp⟩,rfl⟩
  simpa using ⟨hb.ys,by simp,⟨by simpa using hb.xs,by simp⟩⟩

def columns : List RegionRec := [⟨⟨0,0,2,2⟩,.null⟩,⟨⟨4,0,6,2⟩,.null⟩]

lemma columns_normal : ∀ rgn ∈ columns, NormalRegion rgn := by
  intro rgn hrgn
  simp only [columns,List.mem_cons,List.not_mem_nil,or_false] at hrgn
  obtain rfl | rfl := hrgn
  · exact normalRegion_box ⟨by decide,by decide⟩
  · exact normalRegion_box ⟨by decide,by decide⟩

/-- The columns in either order. -/
theorem regionEqual_decides_iff_columns : ∃ reg overlap reg' overlap',
    regionValidate (appendAll ⟨emptyBox,.emptyData⟩ columns) = some (true,reg,overlap) ∧
      regionValidate (appendAll ⟨emptyBox,.emptyData⟩ columns.reverse) = some (true,reg',overlap') ∧
      reg.rects = reg'.rects := by
  have hsame : SameUnion columns columns.reverse := fun x y => by simp [InUnion]
  obtain ⟨reg,overlap,reg',overlap',hcall,hcall',hiff⟩ := regionEqual_decides_iff
    (fun r s => decide (r.extents = s.extents ∧ r.rects = s.rects)) (fun r s => by simp) validRegion_null rfl
    validRegion_null rfl columns_normal (fun rgn hrgn => columns_normal rgn (List.mem_reverse.mp hrgn))
  refine ⟨reg,overlap,reg',overlap',hcall,hcall',((hiff.mpr fun _ => ⟨fun y => ?_,fun _ => rfl⟩).1 hsame).2⟩
  have hstarts : (∃ rgn ∈ columns, StartsAt rgn.rects y) ↔ ∃ rgn ∈ columns.reverse, StartsAt rgn.rects y := by simp
  refine ⟨fun h => ⟨by decide,hstarts.mp h.starts,fun x => ?_⟩,fun h => ⟨by decide,hstarts.mpr h.starts,fun x => ?_⟩⟩
  · rw [← hsame,← hsame,h.same]
  · rw [hsame,hsame,h.same]

/-- A region of two bands, and the box that makes the second band like the first. -/
def shaped : List RegionRec :=
  [⟨⟨0,0,6,2⟩,.heap ⟨[⟨0,0,2,1⟩,⟨4,0,6,1⟩,⟨0,1,2,2⟩],3⟩⟩,⟨⟨4,1,6,2⟩,.null⟩]

set_option maxRecDepth 4000 in
/-- Four boxes are left where two columns are appended as two. -/
theorem shaped_not_equal : (∀ rgn ∈ shaped, NormalRegion rgn) ∧ (∀ rgn ∈ columns, NormalRegion rgn) ∧
    SameUnion shaped columns ∧ ∃ reg reg',
      regionValidate (appendAll ⟨emptyBox,.emptyData⟩ shaped) = some (true,reg,false) ∧
      regionValidate (appendAll ⟨emptyBox,.emptyData⟩ columns) = some (true,reg',false) ∧
      reg.rects = [⟨0,0,2,1⟩,⟨4,0,6,1⟩,⟨0,1,2,2⟩,⟨4,1,6,2⟩] ∧ reg'.rects = [⟨0,0,2,2⟩,⟨4,0,6,2⟩] := by
  refine ⟨fun rgn hrgn => ?_,columns_normal,fun x y => ?_,_,_,rfl,rfl,rfl,rfl⟩
  · simp only [shaped,List.mem_cons,List.not_mem_nil,or_false] at hrgn
    obtain rfl | rfl := hrgn
    · have hbanded : Banded [⟨0,1,[(0,2),(4,6)]⟩,⟨1,2,[(0,2)]⟩] := by
        refine ⟨?_,by simp,by simp [Mergeable]⟩
        simp only [List.mem_cons,List.not_mem_nil,or_false,forall_eq_or_imp,forall_eq]
        exact ⟨⟨by decide,by simp,⟨by decide,by decide⟩⟩,⟨by decide,by simp,⟨by decide,by decide⟩⟩⟩
      have hregion : IsRegion ⟨⟨0,0,6,2⟩,.heap ⟨[⟨0,0,2,1⟩,⟨4,0,6,1⟩,⟨0,1,2,2⟩],3⟩⟩ _ :=
        ⟨hbanded,by simp,rfl,.inr ⟨by decide,_,rfl,by simp [RegData.Wf]⟩⟩
      refine ⟨hregion.validRegion ⟨by decide,?_,?_,?_,?_⟩,_,hbanded,rfl⟩
      · exact ⟨⟨0,0,2,1⟩,by decide,rfl⟩
      · exact ⟨⟨0,0,2,1⟩,by decide,rfl⟩
      · exact ⟨⟨4,0,6,1⟩,by decide,rfl⟩
      · exact ⟨⟨0,1,2,2⟩,by decide,rfl⟩
    · exact normalRegion_box ⟨by decide,by decide⟩
  · simp only [InUnion,shaped,columns,List.mem_cons,List.not_mem_nil,or_false,exists_eq_or_imp,exists_eq_left,
      RegionRec.rects,RegData.rects,List.take_succ_cons,List.take_zero,InBoxes,Box.Has]
    omega

end Xlibre.Dix.Region
