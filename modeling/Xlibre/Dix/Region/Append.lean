import Xlibre.Dix.Region.BatchUnion

/-! `RegionAppend`, which keeps its target banded as long as it can and says so in the extents, and
`RegionValidate` after it. -/
namespace Xlibre.Dix.Region
open Xlibre.Lib.Bands

def RegionRec.numRects (reg : RegionRec) : ℕ :=
  match reg.data with
  | .null => 1
  | .emptyData | .brokenData => 0
  | .heap d => d.numRects

/-- The array of a region with room for `n` more boxes. -/
def RegionRec.rectAlloc (reg : RegionRec) (n : ℕ) : RegData :=
  match reg.data with
  | .null => ⟨reg.extents::List.replicate n emptyBox,1⟩
  | _ => reg.regData.rectAlloc n

/-- Write boxes into the array from index `i` on. -/
def RegData.write (d : RegData) (i : ℕ) (l : List Box) : RegData :=
  { d with boxes := d.boxes.take i ++ l ++ d.boxes.drop (i+l.length) }

/-- The test of both fast paths: `first` starts below `last`, or to the right of it in the same band. -/
def behind (first last : Box) : Prop :=
  first.y1 > last.y2 ∨ (first.y1 = last.y1 ∧ first.y2 = last.y2 ∧ first.x1 > last.x2)

instance (first last : Box) : Decidable (behind first last) := inferInstanceAs (Decidable (_ ∨ _))

def appendExtents (d : RegData) (dnumRects : ℕ) (old : List Box) (e r : Box) : Box × Bool :=
  if dnumRects = 0 then (r,false)
  else if e.x2 > e.x1 then
    let x1 := if r.x1 < e.x1 then r.x1 else e.x1
    let x2 := if r.x2 > e.x2 then r.x2 else e.x2
    if behind (old.getD 0 emptyBox) (d.box (dnumRects-1)) then (⟨x1,e.y1,x2,r.y2⟩,false)
    else if behind (d.box 0) (old.getD (old.length-1) emptyBox) then (⟨x1,r.y1,x2,e.y2⟩,true)
    else ({ e with x2 := e.x1 },false)
  else (e,false)

def regionAppend (dstrgn rgn : RegionRec) : Bool × RegionRec :=
  if rgn.data = .brokenData then (false,regionBreak)
  else if rgn.data = .null ∧ dstrgn.data = .emptyData then (true,⟨rgn.extents,.null⟩)
  else
    let numRects := rgn.numRects
    if numRects = 0 then (true,dstrgn)
    else
      let dnumRects := dstrgn.numRects
      let d := dstrgn.rectAlloc (if dnumRects = 0 ∧ numRects < 200 then 200 else numRects)
      let old := rgn.rects
      let e := appendExtents d dnumRects old dstrgn.extents rgn.extents
      let d' := if e.2 then (d.write numRects (d.boxes.take dnumRects)).write 0 old else d.write dnumRects old
      (true,⟨e.1,.heap { d' with numRects := dnumRects+numRects }⟩)

structure ValidRegion (reg : RegionRec) : Prop where
  intact : reg.data ≠ .brokenData
  wf : ∀ d, reg.data = .heap d → d.Wf
  ok : ∀ b ∈ reg.rects, b.Ok
  inOrder : reg.rects.Pairwise InOrder
  tight : reg.rects ≠ [] → BoundingBox reg.rects reg.extents
  valid : reg.regionIsValid = true

section Array

variable {reg : RegionRec}

lemma length_rects_eq (hwf : ∀ d, reg.data = .heap d → d.Wf) : reg.rects.length = reg.numRects := by
  unfold RegionRec.rects RegionRec.numRects
  cases hd : reg.data with
  | null => rfl
  | emptyData => rfl
  | brokenData => rfl
  | heap d => exact RegData.length_rects (hwf d hd)

lemma rectAlloc_spec (hwf : ∀ d, reg.data = .heap d → d.Wf) (n : ℕ) :
    (reg.rectAlloc n).boxes.take reg.numRects = reg.rects ∧ reg.numRects+n ≤ (reg.rectAlloc n).boxes.length := by
  unfold RegionRec.rectAlloc RegionRec.rects RegionRec.numRects
  cases hd : reg.data with
  | null => exact ⟨by simp,by simp; omega⟩
  | emptyData =>
    have hnil : reg.regData = ⟨[],0⟩ := by simp [RegionRec.regData,hd]
    obtain ⟨_,_,h₃⟩ := RegData.rectAlloc_spec (d := ⟨[],0⟩) (by simp [RegData.Wf]) n
    rw [hnil]
    exact ⟨by simp,h₃⟩
  | brokenData =>
    have hnil : reg.regData = ⟨[],0⟩ := by simp [RegionRec.regData,hd]
    obtain ⟨_,_,h₃⟩ := RegData.rectAlloc_spec (d := ⟨[],0⟩) (by simp [RegData.Wf]) n
    rw [hnil]
    exact ⟨by simp,h₃⟩
  | heap d =>
    have hreg : reg.regData = d := by simp [RegionRec.regData,hd]
    obtain ⟨h₁,h₂,h₃⟩ := RegData.rectAlloc_spec (hwf d hd) n
    rw [hreg]
    rw [RegData.rects,h₂] at h₁
    exact ⟨h₁,h₃⟩

lemma write_behind (d : RegData) {k : ℕ} {l rects : List Box} (hrects : d.boxes.take k = rects) (hk : rects.length = k) :
    RegData.rects { d.write k l with numRects := k+l.length } = rects ++ l ∧
      RegData.Wf { d.write k l with numRects := k+l.length } := by
  simp only [RegData.rects,RegData.write,RegData.Wf,hrects]
  refine ⟨?_,?_⟩
  · rw [List.take_append_of_le_length (by rw [List.length_append]; omega),List.take_of_length_le (by
      rw [List.length_append]
      omega)]
  · rw [List.length_append,List.length_append,List.length_drop]
    omega

lemma write_before (d : RegData) {k : ℕ} {l rects : List Box} (hrects : d.boxes.take k = rects) (hk : rects.length = k)
    (hroom : k+l.length ≤ d.boxes.length) :
    RegData.rects { (d.write l.length (d.boxes.take k)).write 0 l with numRects := k+l.length } = l ++ rects ∧
      RegData.Wf { (d.write l.length (d.boxes.take k)).write 0 l with numRects := k+l.length } := by
  simp only [RegData.rects,RegData.write,RegData.Wf,hrects,List.take_zero,List.nil_append,Nat.zero_add]
  have hdrop : (d.boxes.take l.length ++ rects ++ d.boxes.drop (l.length+rects.length)).drop l.length =
      rects ++ d.boxes.drop (l.length+rects.length) := by
    rw [List.append_assoc,List.drop_append_of_le_length (by rw [List.length_take]; omega),List.drop_take]
    simp
  rw [hdrop]
  refine ⟨?_,?_⟩
  · rw [← List.append_assoc,List.take_append_of_le_length (by rw [List.length_append]; omega),List.take_of_length_le (by
      rw [List.length_append]
      omega)]
  · rw [List.length_append,List.length_append,List.length_drop]
    omega

end Array

section Order

lemma inOrder_append {l m : List Box} {first last : Box} (hl : l.Pairwise InOrder) (hm : m.Pairwise InOrder)
    (hlok : ∀ b ∈ l, b.Ok) (hmok : ∀ b ∈ m, b.Ok) (hlast : l.getLast? = some last) (hfirst : m.head? = some first)
    (hb : behind first last) : (l ++ m).Pairwise InOrder := by
  refine List.pairwise_append.mpr ⟨hl,hm,fun a ha b hb' => ?_⟩
  have hal : a = last ∨ InOrder a last := by
    obtain ⟨init,rfl⟩ := List.getLast?_eq_some_iff.mp hlast
    rcases List.mem_append.mp ha with ha | ha
    · exact .inr ((List.pairwise_append.mp hl).2.2 a ha last (by simp))
    · exact .inl (List.mem_singleton.mp ha)
  have hfb : b = first ∨ InOrder first b := by
    obtain ⟨rest,rfl⟩ := List.head?_eq_some_iff.mp hfirst
    rcases List.mem_cons.mp hb' with rfl | hb'
    · exact .inl rfl
    · exact .inr ((List.pairwise_cons.mp hm).1 b hb')
  have h₁ := (hlok last (List.mem_of_getLast? hlast)).ys
  have h₂ := (hmok first (List.mem_of_head? hfirst)).ys
  have h₃ := (hlok last (List.mem_of_getLast? hlast)).xs
  have h₄ := (hmok first (List.mem_of_head? hfirst)).xs
  unfold behind at hb
  unfold InOrder at *
  rcases hal with rfl | hal
  · rcases hfb with rfl | hfb
    · omega
    · omega
  · rcases hfb with rfl | hfb
    · omega
    · omega

lemma boundingBox_append {l m : List Box} {e r : Box} (hl : BoundingBox l e) (hm : BoundingBox m r)
    (hlok : ∀ b ∈ l, b.Ok) (hmok : ∀ b ∈ m, b.Ok) (hord : (l ++ m).Pairwise InOrder) :
    BoundingBox (l ++ m) ⟨if r.x1 < e.x1 then r.x1 else e.x1,e.y1,if r.x2 > e.x2 then r.x2 else e.x2,r.y2⟩ := by
  have hcross := (List.pairwise_append.mp hord).2.2
  have hhull := hl.hull hm
  obtain ⟨a,ha,hatop⟩ := hl.top
  obtain ⟨a',ha',habot⟩ := hl.bot
  obtain ⟨b,hb,hbtop⟩ := hm.top
  obtain ⟨b',hb',hbbot⟩ := hm.bot
  have htop : ¬ r.y1 < e.y1 := by
    have := (hcross a ha b hb).y1_le (hlok a ha)
    omega
  have hbot : e.y2 ≤ r.y2 := by
    have := (hcross a' ha' b' hb').y2_le (hmok b' hb')
    omega
  have heq : hull e r = ⟨if r.x1 < e.x1 then r.x1 else e.x1,e.y1,if r.x2 > e.x2 then r.x2 else e.x2,r.y2⟩ := by
    unfold hull
    rw [if_neg htop]
    congr 1
    split_ifs <;> omega
  rwa [← heq]

lemma InOrder.disj {a b : Box} (h : InOrder a b) : Disj a b := by
  intro x y hxy
  unfold InOrder at h
  unfold Box.Has at hxy
  omega

end Order

section Append

/-- What the appended boxes look like in the target: nothing so far, bands, or boxes in any order. -/
inductive Shape (dst : RegionRec) : Prop
  | empty : dst.rects = [] → dst.regionIsValid = true → Shape dst
  | banded : dst.rects.Pairwise InOrder → BoundingBox dst.rects dst.extents → Shape dst
  | mixed (d : RegData) : dst.data = .heap d → dst.rects ≠ [] → dst.extents.x2 ≤ dst.extents.x1 → Shape dst

/-- The target after some calls of `RegionAppend`. -/
structure Appended (boxes : List Box) (dst : RegionRec) : Prop where
  intact : dst.data ≠ .brokenData
  wf : ∀ d, dst.data = .heap d → d.Wf
  perm : dst.rects.Perm boxes
  ok : ∀ b ∈ dst.rects, b.Ok
  shape : Shape dst

lemma getLast?_of_take {d : RegData} {k : ℕ} {rects : List Box} (hrects : d.boxes.take k = rects) (hk : rects.length = k)
    (hpos : 0 < k) : rects.getLast? = some (d.box (k-1)) := by
  have hlen : k ≤ d.boxes.length := by
    rw [← hrects,List.length_take] at hk
    omega
  rw [List.getLast?_eq_getElem?,hk,← hrects,List.getElem?_take_of_lt (by omega),RegData.box,List.getD_eq_getElem?_getD,
    List.getElem?_eq_getElem (by omega),Option.getD_some]

lemma head?_of_take {d : RegData} {k : ℕ} {rects : List Box} (hrects : d.boxes.take k = rects) (hk : rects.length = k)
    (hpos : 0 < k) : rects.head? = some (d.box 0) := by
  have hlen : k ≤ d.boxes.length := by
    rw [← hrects,List.length_take] at hk
    omega
  rw [List.head?_eq_getElem?,← hrects,List.getElem?_take_of_lt hpos,RegData.box,List.getD_eq_getElem?_getD,
    List.getElem?_eq_getElem (by omega),Option.getD_some]

lemma appendExtents_spec {dst rgn : RegionRec} {boxes : List Box} (h : Appended boxes dst) (hr : ValidRegion rgn)
    (hne : rgn.rects ≠ []) {d : RegData} (hrects : d.boxes.take dst.numRects = dst.rects) {e : Box × Bool}
    (he : appendExtents d dst.numRects rgn.rects dst.extents rgn.extents = e) :
    let new := if e.2 then rgn.rects ++ dst.rects else dst.rects ++ rgn.rects
    (new.Pairwise InOrder ∧ BoundingBox new e.1) ∨ (new ≠ [] ∧ e.1.x2 ≤ e.1.x1) := by
  have hlen := length_rects_eq h.wf
  have hext := hr.tight hne
  have hold : rgn.rects.head? = some (rgn.rects.getD 0 emptyBox) ∧
      rgn.rects.getLast? = some (rgn.rects.getD (rgn.rects.length-1) emptyBox) := by
    have hpos := List.length_pos_iff.mpr hne
    rw [List.head?_eq_getElem?,List.getLast?_eq_getElem?,List.getD_eq_getElem?_getD,List.getD_eq_getElem?_getD,
      List.getElem?_eq_getElem hpos,List.getElem?_eq_getElem (show rgn.rects.length-1 < _ by omega)]
    exact ⟨rfl,rfl⟩
  have hnew : ∀ prepend : Bool, (if prepend then rgn.rects ++ dst.rects else dst.rects ++ rgn.rects) ≠ [] := by
    intro prepend
    cases prepend <;> simp [hne]
  rw [appendExtents] at he
  cases h.shape with
  | empty hnil _ =>
    rw [if_pos (by rw [← hlen,hnil]; rfl)] at he
    subst he
    simp only [hnil,Bool.false_eq_true,if_false,List.nil_append]
    exact .inl ⟨hr.inOrder,hext⟩
  | mixed d' _ hne' hdeg =>
    rw [if_neg (by rw [← hlen]; exact fun hz => hne' (List.length_eq_zero_iff.mp hz)),if_neg (by omega)] at he
    subst he
    exact .inr ⟨hnew false,hdeg⟩
  | banded hord hbb =>
    obtain ⟨a,ha,_⟩ := hbb.left
    have hpos : 0 < dst.numRects := by
      rw [← hlen]
      exact List.length_pos_of_mem ha
    have hwide : dst.extents.x2 > dst.extents.x1 := by
      have := hbb.bound a ha
      have := (h.ok a ha).xs
      omega
    rw [if_neg (by omega),if_pos hwide] at he
    dsimp only at he
    by_cases happ : behind (rgn.rects.getD 0 emptyBox) (d.box (dst.numRects-1))
    · rw [if_pos happ] at he
      subst he
      have hord' := inOrder_append hord hr.inOrder h.ok hr.ok (getLast?_of_take hrects hlen hpos) hold.1 happ
      exact .inl ⟨hord',boundingBox_append hbb hext h.ok hr.ok hord'⟩
    rw [if_neg happ] at he
    by_cases hpre : behind (d.box 0) (rgn.rects.getD (rgn.rects.length-1) emptyBox)
    · rw [if_pos hpre] at he
      subst he
      have hord' := inOrder_append hr.inOrder hord hr.ok h.ok hold.2 (head?_of_take hrects hlen hpos) hpre
      refine .inl ⟨hord',?_⟩
      have hbox := boundingBox_append hext hbb hr.ok h.ok hord'
      have heq : (⟨if dst.extents.x1 < rgn.extents.x1 then dst.extents.x1 else rgn.extents.x1,rgn.extents.y1,
          if dst.extents.x2 > rgn.extents.x2 then dst.extents.x2 else rgn.extents.x2,dst.extents.y2⟩ : Box) =
          ⟨if rgn.extents.x1 < dst.extents.x1 then rgn.extents.x1 else dst.extents.x1,rgn.extents.y1,
            if rgn.extents.x2 > dst.extents.x2 then rgn.extents.x2 else dst.extents.x2,dst.extents.y2⟩ := by
        congr 1 <;> split_ifs <;> omega
      rw [heq] at hbox
      exact hbox
    · rw [if_neg hpre] at he
      subst he
      exact .inr ⟨hnew false,le_refl _⟩

lemma regionAppend_nil {dst rgn : RegionRec} (hr : ValidRegion rgn) (hnil : rgn.rects = []) :
    regionAppend dst rgn = (true,dst) := by
  have hnum : rgn.numRects = 0 := by rw [← length_rects_eq hr.wf,hnil]; rfl
  have hnull : ¬ (rgn.data = .null ∧ dst.data = .emptyData) := by
    rintro ⟨hdata,-⟩
    simp [RegionRec.rects,hdata] at hnil
  rw [regionAppend,if_neg hr.intact,if_neg hnull]
  dsimp only
  rw [if_pos hnum]

lemma regionAppend_spec {dst rgn : RegionRec} (hwf : ∀ d, dst.data = .heap d → d.Wf) (hr : ValidRegion rgn)
    (hne : rgn.rects ≠ []) : ∃ d e reg, regionAppend dst rgn = (true,reg) ∧ d.boxes.take dst.numRects = dst.rects ∧
      appendExtents d dst.numRects rgn.rects dst.extents rgn.extents = e ∧ reg.extents = e.1 ∧
      reg.rects = (if e.2 then rgn.rects ++ dst.rects else dst.rects ++ rgn.rects) ∧ reg.data ≠ .brokenData ∧
      (∀ d', reg.data = .heap d' → d'.Wf) ∧ (dst.rects ≠ [] → ∃ d', reg.data = .heap d') := by
  have hlen := length_rects_eq hwf
  have hrlen := length_rects_eq hr.wf
  rw [regionAppend,if_neg hr.intact]
  by_cases hquick : rgn.data = .null ∧ dst.data = .emptyData
  · rw [if_pos hquick]
    have hdst : dst.rects = [] := by simp [RegionRec.rects,hquick.2]
    have hrgn : rgn.rects = [rgn.extents] := by simp [RegionRec.rects,hquick.1]
    have hnum : dst.numRects = 0 := by rw [← hlen,hdst]; rfl
    refine ⟨⟨[],0⟩,(rgn.extents,false),_,rfl,?_,?_,rfl,?_,by simp,by simp,fun h => absurd hdst h⟩
    · rw [hnum,hdst]
      rfl
    · rw [appendExtents,if_pos hnum]
    · rw [hdst,hrgn]
      rfl
  rw [if_neg hquick]
  dsimp only
  rw [if_neg (fun hzero => hne (List.length_eq_zero_iff.mp (hrlen.trans hzero)))]
  obtain ⟨hrects,hroom⟩ := rectAlloc_spec hwf (if dst.numRects = 0 ∧ rgn.numRects < 200 then 200 else rgn.numRects)
  generalize dst.rectAlloc (if dst.numRects = 0 ∧ rgn.numRects < 200 then 200 else rgn.numRects) = d at hrects hroom ⊢
  have hroom' : dst.numRects+rgn.rects.length ≤ d.boxes.length := by
    rw [hrlen]
    split_ifs at hroom <;> omega
  refine ⟨d,_,_,rfl,hrects,rfl,rfl,?_⟩
  generalize appendExtents d dst.numRects rgn.rects dst.extents rgn.extents = e
  obtain ⟨e,prepend⟩ := e
  rw [← hrlen]
  -- The array holds both lists, in the order that `prepend` tells.
  cases prepend with
  | true =>
    obtain ⟨h₁,h₂⟩ := write_before d hrects hlen hroom'
    exact ⟨h₁,by simp,fun d' hd' => DataPtr.heap.inj hd' ▸ h₂,fun _ => ⟨_,rfl⟩⟩
  | false =>
    obtain ⟨h₁,h₂⟩ := write_behind d (l := rgn.rects) hrects hlen
    exact ⟨h₁,by simp,fun d' hd' => DataPtr.heap.inj hd' ▸ h₂,fun _ => ⟨_,rfl⟩⟩

/-- One call of `RegionAppend` with a valid region. -/
theorem Appended.append {dst rgn : RegionRec} {boxes : List Box} (h : Appended boxes dst) (hr : ValidRegion rgn) :
    (regionAppend dst rgn).1 = true ∧ Appended (boxes ++ rgn.rects) (regionAppend dst rgn).2 := by
  by_cases hne : rgn.rects = []
  · rw [regionAppend_nil hr hne,hne,List.append_nil]
    exact ⟨rfl,h⟩
  obtain ⟨d,⟨e,prepend⟩,reg,hcall,hrects,he,hext,hr',hintact,hwf,hheap⟩ := regionAppend_spec h.wf hr hne
  have hspec := appendExtents_spec h hr hne hrects he
  dsimp only at hext hr' hspec
  rw [← hr',← hext] at hspec
  rw [hcall]
  refine ⟨rfl,hintact,hwf,?_,?_,?_⟩
  · rw [hr']
    cases prepend with
    | true => exact List.perm_append_comm.trans (h.perm.append_right _)
    | false => exact h.perm.append_right _
  · rw [hr']
    intro b hb
    cases prepend with
    | true =>
      rcases List.mem_append.mp hb with hb | hb
      · exact hr.ok b hb
      · exact h.ok b hb
    | false =>
      rcases List.mem_append.mp hb with hb | hb
      · exact h.ok b hb
      · exact hr.ok b hb
  · rcases hspec with ⟨h₁,h₂⟩ | ⟨h₁,h₂⟩
    · exact .banded h₁ h₂
    · have hold : dst.rects ≠ [] := by
        intro hnil
        have hzero : dst.numRects = 0 := by rw [← length_rects_eq h.wf,hnil]; rfl
        rw [appendExtents,if_pos hzero] at he
        have hbb := hr.tight hne
        obtain ⟨b,hb,_⟩ := hbb.left
        have := hbb.bound b hb
        have := (hr.ok b hb).xs
        obtain rfl : rgn.extents = e := congrArg Prod.fst he
        rw [hext] at h₂
        omega
      obtain ⟨d',hd'⟩ := hheap hold
      exact .mixed d' hd' h₁ h₂

/-- A sequence of calls of `RegionAppend`. -/
def appendAll (dstrgn : RegionRec) (rgns : List RegionRec) : RegionRec :=
  rgns.foldl (fun dst rgn => (regionAppend dst rgn).2) dstrgn

lemma Appended.all {dst : RegionRec} {boxes : List Box} (h : Appended boxes dst) {rgns : List RegionRec}
    (hr : ∀ rgn ∈ rgns, ValidRegion rgn) : Appended (boxes ++ rgns.flatMap RegionRec.rects) (appendAll dst rgns) := by
  induction rgns generalizing boxes dst with
  | nil => simpa [appendAll] using h
  | cons rgn rgns ih =>
    have hstep := (h.append (hr rgn (by simp))).2
    have hrest := ih hstep fun r hr' => hr r (by simp [hr'])
    rwa [List.append_assoc,← List.flatMap_cons] at hrest

end Append

section Validate

lemma validRegion_of_banded {reg : RegionRec} (hintact : reg.data ≠ .brokenData) (hwf : ∀ d, reg.data = .heap d → d.Wf)
    (hok : ∀ b ∈ reg.rects, b.Ok) (hord : reg.rects.Pairwise InOrder) (hbb : BoundingBox reg.rects reg.extents)
    (hform : reg.rects.length = 1 → reg.data = .null) : ValidRegion reg :=
  ⟨hintact,hwf,hok,hord,fun _ => hbb,regionIsValid_of_inOrder hok hord hbb hform⟩

lemma IsRegion.validRegion {reg : RegionRec} {R : List Band} (h : IsRegion reg R)
    (he : BoundingBox (boxesOf R) reg.extents) : ValidRegion reg := by
  have hvalid := regionIsValid_of_isRegion h he
  refine ⟨?_,?_,?_,?_,fun _ => ?_,hvalid⟩
  · rcases h.form with ⟨hd,_⟩ | ⟨_,d,hd,_⟩ <;> simp [hd]
  · intro d hd
    rcases h.form with ⟨hd',_⟩ | ⟨_,d',hd',hwf⟩
    · simp [hd'] at hd
    · rw [hd'] at hd
      obtain rfl : d' = d := by simpa using hd
      exact hwf
  · rw [h.rects]
    exact ok_boxesOf h.banded
  · rw [h.rects]
    exact (boxesOf_before h.banded).imp Before.inOrder
  · rw [h.rects]
    exact he

lemma regionValidate_empty {dst : RegionRec} (hintact : dst.data ≠ .brokenData) (hwf : ∀ d, dst.data = .heap d → d.Wf)
    (hnil : dst.rects = []) : regionValidate dst = some (true,dst,false) := by
  have hlen := length_rects_eq hwf
  unfold regionValidate
  cases hd : dst.data with
  | null => simp [RegionRec.rects,hd] at hnil
  | emptyData => rfl
  | brokenData => exact absurd hd hintact
  | heap d =>
    rw [hnil] at hlen
    simp only [RegionRec.numRects,hd,List.length_nil] at hlen
    simp [← hlen]

lemma regionValidate_banded {dst : RegionRec} (hintact : dst.data ≠ .brokenData) (hwf : ∀ d, dst.data = .heap d → d.Wf)
    (hok : ∀ b ∈ dst.rects, b.Ok) (hord : dst.rects.Pairwise InOrder) (hbb : BoundingBox dst.rects dst.extents) :
    ∃ reg, regionValidate dst = some (true,reg,false) ∧ ValidRegion reg ∧ reg.rects = dst.rects := by
  have hlen := length_rects_eq hwf
  obtain ⟨a,ha,_⟩ := hbb.left
  unfold regionValidate
  cases hd : dst.data with
  | null => exact ⟨dst,rfl,validRegion_of_banded hintact hwf hok hord hbb fun _ => hd,rfl⟩
  | emptyData => simp [RegionRec.rects,hd] at ha
  | brokenData => exact absurd hd hintact
  | heap d =>
    have hrects : dst.rects = d.rects := by simp [RegionRec.rects,hd]
    have hnum : dst.rects.length = d.numRects := by rw [hlen]; simp [RegionRec.numRects,hd]
    have hpos := List.length_pos_of_mem ha
    have hwide : dst.extents.x1 < dst.extents.x2 := by
      have := hbb.bound a ha
      have := (hok a ha).xs
      omega
    dsimp only
    rw [if_neg (by omega),if_pos hwide]
    by_cases hone : d.numRects = 1
    · rw [if_pos hone]
      obtain ⟨b,hb⟩ := List.length_eq_one_iff.mp (hnum.trans hone)
      have hext : dst.extents = b := by
        rw [hb] at hbb
        exact hbb.unique (boundingBox_singleton b)
      have hbox : ({ dst with data := .null } : RegionRec).rects = dst.rects := by
        rw [hb,← hext]
        rfl
      refine ⟨_,rfl,validRegion_of_banded (by simp) (by simp) ?_ ?_ ?_ fun _ => rfl,hbox⟩
      · rw [hbox]
        exact hok
      · rw [hbox]
        exact hord
      · rw [hbox]
        exact hbb
    · rw [if_neg hone]
      obtain ⟨hwf',hdown⟩ := downsize_spec (hwf d hd)
      have hbox : ({ dst with data := .heap d.downsize } : RegionRec).rects = dst.rects := by
        rw [hrects,← hdown]
        rfl
      refine ⟨_,rfl,validRegion_of_banded (by simp) ?_ ?_ ?_ ?_ ?_,hbox⟩
      · intro d' hd'
        obtain rfl : d.downsize = d' := by simpa using hd'
        exact hwf'
      · rw [hbox]
        exact hok
      · rw [hbox]
        exact hord
      · rw [hbox]
        exact hbb
      · rw [hbox]
        intro hlen'
        omega

lemma regionValidate_mixed {dst : RegionRec} {d : RegData} (hd : dst.data = .heap d) (hwf : d.Wf)
    (hok : ∀ b ∈ dst.rects, b.Ok) (hne : dst.rects ≠ []) (hdeg : dst.extents.x2 ≤ dst.extents.x1) :
    ∃ reg overlap R, regionValidate dst = some (true,reg,overlap) ∧ ValidRegion reg ∧ IsRegion reg R ∧
      (∀ x y, InBoxes reg.rects x y ↔ InBoxes dst.rects x y) ∧ (overlap = true ↔ ¬ dst.rects.Pairwise Disj) := by
  have hrects : dst.rects = d.rects := by simp [RegionRec.rects,hd]
  rw [hrects] at hok hne ⊢
  have hpos : 0 < d.numRects := by
    rw [← RegData.length_rects hwf]
    exact List.length_pos_iff.mpr hne
  obtain ⟨reg,overlap,R,hcall,hR,hcov,hext,hov⟩ := regionValidate_isRegion dst.extents d hdeg hpos hwf hok
  have hdst : (⟨dst.extents,.heap d⟩ : RegionRec) = dst := by rw [← hd]
  rw [hdst] at hcall
  refine ⟨reg,overlap,R,hcall,hR.validRegion (hR.boundingBox hok hcov hext),hR,fun x y => ?_,hov⟩
  rw [hR.rects,inBoxes_boxesOf,hcov]

/-- `RegionValidate` after the calls of `RegionAppend`. -/
theorem Appended.validate {dst : RegionRec} {boxes : List Box} (h : Appended boxes dst) :
    ∃ reg overlap, regionValidate dst = some (true,reg,overlap) ∧ ValidRegion reg ∧
      (∀ x y, InBoxes reg.rects x y ↔ InBoxes boxes x y) ∧ (overlap = true ↔ ¬ boxes.Pairwise Disj) := by
  have hsame : ∀ x y, InBoxes dst.rects x y ↔ InBoxes boxes x y := fun x y => by simp only [InBoxes,h.perm.mem_iff]
  have hdisj : boxes.Pairwise Disj ↔ dst.rects.Pairwise Disj :=
    (h.perm.pairwise_iff fun {a b} hab x y hxy => hab x y hxy.symm).symm
  rw [hdisj]
  cases h.shape with
  | empty hnil hvalid =>
    refine ⟨dst,false,regionValidate_empty h.intact h.wf hnil,⟨h.intact,h.wf,h.ok,?_,fun hne => absurd hnil hne,hvalid⟩,
      hsame,?_⟩
    · rw [hnil]
      exact List.Pairwise.nil
    · rw [hnil]
      simp
  | banded hord hbb =>
    obtain ⟨reg,hcall,hvalid,hrects⟩ := regionValidate_banded h.intact h.wf h.ok hord hbb
    refine ⟨reg,false,hcall,hvalid,fun x y => by rw [hrects,hsame],?_⟩
    exact iff_of_false (by simp) fun hcon => hcon (hord.imp InOrder.disj)
  | mixed d hd hne hdeg =>
    obtain ⟨reg,overlap,R,hcall,hvalid,_,hcov,hov⟩ := regionValidate_mixed hd (h.wf d hd) h.ok hne hdeg
    exact ⟨reg,overlap,hcall,hvalid,fun x y => by rw [hcov,hsame],hov⟩

end Validate

def RegionsMeet (rgns : List RegionRec) : Prop :=
  ∃ (i j : ℕ) (r s : RegionRec), i ≠ j ∧ rgns[i]? = some r ∧ rgns[j]? = some s ∧
    ∃ x y, InBoxes r.rects x y ∧ InBoxes s.rects x y

lemma regionsMeet_iff {rgns : List RegionRec} (hr : ∀ rgn ∈ rgns, ValidRegion rgn) :
    RegionsMeet rgns ↔ ¬ (rgns.flatMap RegionRec.rects).Pairwise Disj := by
  rw [List.pairwise_flatMap]
  have hown : ∀ rgn ∈ rgns, rgn.rects.Pairwise Disj := fun rgn h => (hr rgn h).inOrder.imp InOrder.disj
  have hpair : rgns.Pairwise (fun r s => ∀ a ∈ r.rects, ∀ b ∈ s.rects, Disj a b) ↔ ¬ RegionsMeet rgns := by
    rw [List.pairwise_iff_getElem]
    constructor
    · rintro hall ⟨i,j,r,s,hij,hi,hj,x,y,⟨a,ha,hax⟩,b,hb,hbx⟩
      obtain ⟨hi',rfl⟩ := List.getElem?_eq_some_iff.mp hi
      obtain ⟨hj',rfl⟩ := List.getElem?_eq_some_iff.mp hj
      rcases Nat.lt_or_gt_of_ne hij with hlt | hgt
      · exact hall i j hi' hj' hlt a ha b hb x y ⟨hax,hbx⟩
      · exact hall j i hj' hi' hgt b hb a ha x y ⟨hbx,hax⟩
    · intro hnot i j hi hj hij a ha b hb x y hxy
      exact hnot ⟨i,j,_,_,hij.ne,List.getElem?_eq_getElem hi,List.getElem?_eq_getElem hj,x,y,⟨a,ha,hxy.1⟩,b,hb,hxy.2⟩
  rw [hpair]
  exact ⟨fun hm hcon => hcon.2 hm,fun hcon => by
    by_contra hm
    exact hcon ⟨hown,hm⟩⟩

/-- Append then validate: whatever path each call of `RegionAppend` takes, the calls succeed and
`RegionValidate` leaves a valid region that covers exactly the points of the appended ones; its flag tells
whether two of them share a point. -/
theorem regionAppend_validate (dstrgn : RegionRec) (hdst : ValidRegion dstrgn) (hempty : dstrgn.rects = [])
    (rgns : List RegionRec) (hrgns : ∀ rgn ∈ rgns, ValidRegion rgn) :
    (∀ k, ∀ rgn, rgns[k]? = some rgn → (regionAppend (appendAll dstrgn (rgns.take k)) rgn).1 = true) ∧
      ∃ reg overlap, regionValidate (appendAll dstrgn rgns) = some (true,reg,overlap) ∧ ValidRegion reg ∧
        (∀ x y, InBoxes reg.rects x y ↔ ∃ rgn ∈ rgns, InBoxes rgn.rects x y) ∧
        (overlap = true ↔ RegionsMeet rgns) := by
  have hstart : Appended [] dstrgn :=
    ⟨hdst.intact,hdst.wf,by rw [hempty],hdst.ok,.empty hempty hdst.valid⟩
  refine ⟨fun k rgn hk => ?_,?_⟩
  · have hbefore := hstart.all fun r (hr : r ∈ rgns.take k) => hrgns r (List.mem_of_mem_take hr)
    exact (hbefore.append (hrgns rgn (List.mem_of_getElem? hk))).1
  · have hall := hstart.all hrgns
    rw [List.nil_append] at hall
    obtain ⟨reg,overlap,hcall,hvalid,hcov,hov⟩ := hall.validate
    refine ⟨reg,overlap,hcall,hvalid,fun x y => ?_,?_⟩
    · rw [hcov]
      simp only [InBoxes,List.mem_flatMap]
      constructor
      · rintro ⟨b,⟨rgn,hrgn,hb⟩,hxy⟩
        exact ⟨rgn,hrgn,b,hb,hxy⟩
      · rintro ⟨rgn,hrgn,b,hb,hxy⟩
        exact ⟨b,⟨rgn,hrgn,hb⟩,hxy⟩
    · rw [hov,regionsMeet_iff hrgns]

lemma validRegion_box {b : Box} (hb : b.Ok) : ValidRegion ⟨b,.null⟩ := by
  have hone : (⟨b,.null⟩ : RegionRec).rects = [b] := rfl
  refine validRegion_of_banded (by simp) (by simp) ?_ ?_ ?_ fun _ => rfl
  · rw [hone]
    simpa using hb
  · rw [hone]
    exact List.pairwise_singleton _ _
  · rw [hone]
    exact boundingBox_singleton b

/-- Two boxes that overlap, appended to the empty region. -/
theorem regionAppend_validate_two_boxes :
    ∃ reg overlap, regionValidate (appendAll ⟨emptyBox,.emptyData⟩ [⟨⟨0,0,4,3⟩,.null⟩,⟨⟨2,1,6,5⟩,.null⟩]) =
      some (true,reg,overlap) ∧ overlap = true := by
  have hempty : ValidRegion ⟨emptyBox,.emptyData⟩ :=
    ⟨by simp,by simp,by simp [RegionRec.rects],by simp [RegionRec.rects],by simp [RegionRec.rects],by decide⟩
  obtain ⟨reg,overlap,hcall,_,_,hov⟩ := (regionAppend_validate ⟨emptyBox,.emptyData⟩ hempty rfl
    [⟨⟨0,0,4,3⟩,.null⟩,⟨⟨2,1,6,5⟩,.null⟩] (by
      intro rgn hrgn
      simp only [List.mem_cons,List.not_mem_nil,or_false] at hrgn
      rcases hrgn with rfl | rfl
      · exact validRegion_box ⟨by decide,by decide⟩
      · exact validRegion_box ⟨by decide,by decide⟩)).2
  refine ⟨reg,overlap,hcall,hov.mpr ?_⟩
  refine ⟨0,1,_,_,by decide,rfl,rfl,2,1,⟨⟨0,0,4,3⟩,by simp [RegionRec.rects],?_⟩,⟨2,1,6,5⟩,by simp [RegionRec.rects],?_⟩
  · unfold Box.Has
    decide
  · unfold Box.Has
    decide

end Xlibre.Dix.Region
