import Xlibre.Xf86.Areas.Manager
import Xlibre.Lib.Splits

/-! Where `AllocateArea` places an area. -/
namespace Xlibre.Xf86.Areas
open Xlibre.Dix.Region Xlibre.Lib Linear Checked

variable {w h granularity x : ℤ} {b : Box} {boxes front back : List Box} {links before after : List FBLink} {link : FBLink}
  {id : ℕ} {callbacks : Callbacks}

lemma short_eq (hx : InShort x) : short x = x := by
  obtain ⟨hlow,hhigh⟩ := hx
  rw [short,Int.emod_eq_of_lt (by omega) (by omega)]
  omega

lemma leftIn_ok (hb : InRange w h granularity b) [Decidable (Room w h granularity b)] :
    leftIn w h granularity b = .ok (if Room w h granularity b then some (firstMultiple granularity b.x1) else none) := by
  unfold leftIn
  rw [firstOffset_ok hb.rounded.1.1 fun hpos => (hb.rounded.2 hpos).2]
  change (if b.y2 - b.y1 < h then Except.ok none else int (b.x2 - firstMultiple granularity b.x1) >>= _) = _
  by_cases hheight : b.y2 - b.y1 < h
  · rw [if_pos hheight,if_neg fun hroom => not_le.2 hheight hroom.1]
  · obtain ⟨hlow,hhigh⟩ := hb.width (not_lt.1 hheight)
    rw [if_neg hheight,int_ok hlow hhigh]
    change Except.ok (if b.x2 - firstMultiple granularity b.x1 < w then none else some (firstMultiple granularity b.x1)) = _
    by_cases hwidth : b.x2 - firstMultiple granularity b.x1 < w
    · rw [if_pos hwidth,if_neg fun hroom => not_le.2 hwidth hroom.2]
    · rw [if_neg hwidth,if_pos ⟨not_lt.1 hheight,not_lt.1 hwidth⟩]

lemma Safe.head (hsafe : Safe w h granularity (b::boxes)) : InRange w h granularity b := hsafe [] b boxes rfl (by simp)

lemma Safe.tail (hsafe : Safe w h granularity (b::boxes)) (hroom : ¬ Room w h granularity b) :
    Safe w h granularity boxes :=
  fun before c after heq hbefore => hsafe (b::before) c after (by rw [heq]; rfl) (List.forall_mem_cons.2 ⟨hroom,hbefore⟩)

lemma Safe.left (hsafe : Safe w h granularity (front ++ back)) : Safe w h granularity front :=
  fun before c after heq hbefore => hsafe before c (after ++ back) (by rw [heq]; simp) hbefore

lemma Safe.right (hsafe : Safe w h granularity (front ++ back)) (hfront : ∀ c ∈ front, ¬ Room w h granularity c) :
    Safe w h granularity back := by
  refine fun before c after heq hbefore => hsafe (front ++ before) c after (by rw [heq]; simp) fun d hd => ?_
  exact (List.mem_append.1 hd).elim (hfront d) (hbefore d)

lemma searchBoxes_ok (hsafe : Safe w h granularity boxes) :
    searchBoxes w h granularity boxes = .ok none ∧ (∀ b ∈ boxes, ¬ Room w h granularity b) ∨
      ∃ b ∈ boxes, Room w h granularity b ∧ InRange w h granularity b ∧
        searchBoxes w h granularity boxes = .ok (some (firstMultiple granularity b.x1,b)) := by
  classical
  induction boxes with
  | nil => exact .inl ⟨rfl,by simp⟩
  | cons b boxes ih =>
    have hleft := leftIn_ok hsafe.head
    by_cases hroom : Room w h granularity b
    · rw [if_pos hroom] at hleft
      refine .inr ⟨b,List.mem_cons_self,hroom,hsafe.head,?_⟩
      rw [searchBoxes,hleft]
      rfl
    · rw [if_neg hroom] at hleft
      have hstep : searchBoxes w h granularity (b::boxes) = searchBoxes w h granularity boxes := by
        rw [searchBoxes,hleft]
        rfl
      rw [hstep]
      obtain ⟨hnone,hall⟩ | ⟨c,hc,hfound⟩ := ih (hsafe.tail hroom)
      · exact .inl ⟨hnone,List.forall_mem_cons.2 ⟨hroom,hall⟩⟩
      · exact .inr ⟨c,List.mem_cons_of_mem b hc,hfound⟩

/-- The boxes of the areas that may be evicted. -/
def removables (links : List FBLink) : List Box := (links.filter FBLink.removable).map fun link => link.area.box

lemma searchUsed_ok (hsafe : Safe w h granularity (removables links)) :
    searchUsed w h granularity links = .ok none ∨
      ∃ before link after, links = before ++ link::after ∧ Room w h granularity link.area.box ∧
        InRange w h granularity link.area.box ∧
        searchUsed w h granularity links = .ok (some (before,link,firstMultiple granularity link.area.box.x1,after)) := by
  classical
  induction links with
  | nil => exact .inl rfl
  | cons link links ih =>
    -- a record that is not taken is passed over
    have hpass (hskip : leftOf w h granularity link = .ok none)
        (htail : Safe w h granularity (removables links)) :
        searchUsed w h granularity (link::links) = .ok none ∨ ∃ before c after, link::links = before ++ c::after ∧
          Room w h granularity c.area.box ∧ InRange w h granularity c.area.box ∧
          searchUsed w h granularity (link::links) =
            .ok (some (before,c,firstMultiple granularity c.area.box.x1,after)) := by
      have hstep : searchUsed w h granularity (link::links) =
          (searchUsed w h granularity links >>= fun r => .ok (r.map fun found => (link::found.1,found.2))) := by
        rw [searchUsed,hskip]
        rfl
      rw [hstep]
      obtain hnone | ⟨before,c,after,heq,hroom,hin,hsome⟩ := ih htail
      · exact .inl (by rw [hnone]; rfl)
      · exact .inr ⟨link::before,c,after,by rw [heq]; rfl,hroom,hin,by rw [hsome]; rfl⟩
    by_cases hremovable : link.removable
    · have hhead : removables (link::links) = link.area.box::removables links := by
        rw [removables,List.filter_cons_of_pos hremovable]
        rfl
      rw [hhead] at hsafe
      have hleft := leftIn_ok hsafe.head
      by_cases hroom : Room w h granularity link.area.box
      · rw [if_pos hroom] at hleft
        refine .inr ⟨[],link,links,rfl,hroom,hsafe.head,?_⟩
        rw [searchUsed,leftOf,if_pos hremovable,hleft]
        rfl
      · rw [if_neg hroom] at hleft
        exact hpass (by rw [leftOf,if_pos hremovable,hleft]) (hsafe.tail hroom)
    · have hhead : removables (link::links) = removables links := by
        rw [removables,List.filter_cons_of_neg hremovable]
        rfl
      exact hpass (if_neg hremovable) (hhead ▸ hsafe)

/-- Sizes that are not negative and granularities that are not huge are in range. -/
theorem Safe.of_size (hw : 0 ≤ w) (hh : 0 ≤ h) (hgranularity : granularity ≤ 2^30)
    (hboxes : ∀ b ∈ boxes, InShort b.x1 ∧ InShort b.x2 ∧ InShort b.y1 ∧ InShort b.y2) : Safe w h granularity boxes := by
  intro before b after heq _
  obtain ⟨hx1,hx2,hy1,hy2⟩ := hboxes b (by rw [heq]; simp)
  have hle := le_firstMultiple granularity b.x1
  have hlt : firstMultiple granularity b.x1 < 2^31 - 2^15 := by
    unfold firstMultiple
    unfold InShort at hx1
    split_ifs with hpos
    · have := (rounded_bounds b.x1 hpos).2
      omega
    · omega
  unfold InShort at hx1 hx2 hy1 hy2
  refine ⟨⟨?_,fun hpos => ?_⟩,fun _ => ?_,fun hroom => ?_⟩
  · unfold InInt
    omega
  · unfold InInt
    omega
  · unfold InInt
    omega
  · obtain ⟨hheight,hwidth⟩ := hroom
    unfold InShort
    omega

def placed (w h granularity : ℤ) (b : Box) : Box :=
  ⟨firstMultiple granularity b.x1,b.y1,firstMultiple granularity b.x1 + w,b.y1 + h⟩

lemma newArea_ok (hroom : Room w h granularity b) (hb : InRange w h granularity b) :
    newArea w h granularity (firstMultiple granularity b.x1) callbacks b =
      .ok ⟨placed w h granularity b,granularity,callbacks⟩ := by
  obtain ⟨hx,hx2,hy2⟩ := hb.stored hroom
  unfold newArea
  rw [int_ok (by unfold InShort at hx2; omega) (by unfold InShort at hx2; omega)]
  change (int (b.y1 + h) >>= _) = _
  rw [int_ok (by unfold InShort at hy2; omega) (by unfold InShort at hy2; omega)]
  change Except.ok (FBArea.mk ⟨short _,_,short _,short _⟩ granularity callbacks) = _
  rw [short_eq hx,short_eq hx2,short_eq hy2]
  rfl

lemma placed_subset (hroom : Room w h granularity b) : Box.points (placed w h granularity b) ⊆ Box.points b := by
  rintro ⟨a,c⟩ ⟨hx1,hx2,hy1,hy2⟩
  obtain ⟨hheight,hwidth⟩ := hroom
  have hle := le_firstMultiple granularity b.x1
  simp only [placed,Box.points,Set.mem_ofPred_eq] at hx1 hx2 hy1 hy2 ⊢
  omega

lemma findLink_some (hfind : findLink id links = some (before,link,after)) : links = before ++ link::after ∧ link.id = id := by
  induction links generalizing before with
  | nil => cases hfind
  | cons c links ih =>
    rw [findLink] at hfind
    split at hfind
    · rename_i hid
      cases hfind
      exact ⟨rfl,hid⟩
    · obtain ⟨⟨front,c',back⟩,hfound,heq⟩ := Option.map_eq_some_iff.1 hfind
      cases heq
      obtain ⟨hlinks,hid⟩ := ih hfound
      exact ⟨by rw [hlinks]; rfl,hid⟩

lemma findLink_isSome (hmem : link ∈ links) : ∃ found, findLink link.id links = some found := by
  induction links with
  | nil => cases hmem
  | cons c links ih =>
    rw [findLink]
    split
    · exact ⟨_,rfl⟩
    · rename_i hne
      obtain rfl | hmem := List.mem_cons.1 hmem
      · exact absurd rfl hne
      · obtain ⟨found,hfound⟩ := ih hmem
        exact ⟨_,by rw [hfound]; rfl⟩

end Xlibre.Xf86.Areas

/-! What each function of the area manager keeps: the areas and the free boxes split the memory. -/
namespace Xlibre.Xf86.Areas
open Xlibre.Dix.Region Xlibre.Lib Linear Checked Splits

variable {R : Type} {ops : RegionOps R} {σ σ' : FBManager R} {w h granularity extra : ℤ} {b : Box}
  {links before after : List FBLink} {link new : FBLink} {id : ℕ} {callbacks : Callbacks}

def FBLink.points (link : FBLink) : Set (ℤ × ℤ) := Box.points link.area.box

/-- The area is at least as large as that. -/
def FBLink.Sized (link : FBLink) (w h : ℤ) : Prop :=
  w ≤ link.area.box.x2 - link.area.box.x1 ∧ h ≤ link.area.box.y2 - link.area.box.y1

def FBLink.Aligned (link : FBLink) : Prop := link.area.granularity = 0 ∨ link.area.granularity ∣ link.area.box.x1

/-- The records are distinct, the counter is ahead of the list by `extra`, and the memory is split. -/
structure Stocked (ops : RegionOps R) (extra : ℤ) (σ : FBManager R) : Prop where
  split : Split (ops.points σ.initialBoxes) (ops.points σ.freeBoxes::σ.usedAreas.map FBLink.points)
  counted : σ.numUsedAreas = σ.usedAreas.length + extra
  aligned : ∀ link ∈ σ.usedAreas, link.Aligned
  nodup : (σ.usedAreas.map FBLink.id).Nodup
  fresh : ∀ link ∈ σ.usedAreas, link.id < σ.next

/-- A new area, with a new record or one that was evicted. -/
structure Placed (σ σ' : FBManager R) (w h : ℤ) (link : FBLink) : Prop where
  initial : σ'.initialBoxes = σ.initialBoxes
  mem : link ∈ σ'.usedAreas
  others : ∀ l ∈ σ'.usedAreas, l = link ∨ l ∈ σ.usedAreas ∧ l.id ≠ link.id
  origin : link.id = σ.next ∨ ∃ l ∈ σ.usedAreas, l.id = link.id
  sized : link.Sized w h
  next : σ.next ≤ σ'.next

lemma points_subset {r : R} (hb : b ∈ ops.rects r) : Box.points b ⊆ ops.points r := fun _ hp => ⟨b,hb,hp⟩

lemma firstMultiple_normal (x : ℤ) :
    firstMultiple (if granularity ≤ 1 then 0 else granularity) x = firstMultiple granularity x := by
  unfold firstMultiple
  split_ifs <;> first | rfl | omega

lemma room_normal : Room w h (if granularity ≤ 1 then 0 else granularity) b ↔ Room w h granularity b := by
  rw [Room,Room,firstMultiple_normal]

lemma InRange.normal (hb : InRange w h granularity b) : InRange w h (if granularity ≤ 1 then 0 else granularity) b := by
  refine ⟨⟨hb.rounded.1,fun hpos => ?_⟩,?_,fun hroom => ?_⟩
  · split_ifs at hpos ⊢
    · omega
    · exact hb.rounded.2 hpos
  · rw [firstMultiple_normal]
    exact hb.width
  · rw [firstMultiple_normal]
    exact hb.stored (room_normal.1 hroom)

lemma Safe.normal {boxes : List Box} (hsafe : Safe w h granularity boxes) :
    Safe w h (if granularity ≤ 1 then 0 else granularity) boxes :=
  fun before b after heq hbefore =>
    (hsafe before b after heq fun c hc hroom => hbefore c hc (room_normal.2 hroom)).normal

lemma placed_aligned (hgranularity : granularity = 0 ∨ 1 < granularity) :
    granularity = 0 ∨ granularity ∣ (placed w h granularity b).x1 := hgranularity.imp_right dvd_firstMultiple

lemma placed_sized {i : ℕ} : FBLink.Sized ⟨i,⟨placed w h granularity b,granularity,callbacks⟩⟩ w h := by
  constructor <;> simp only [placed] <;> omega

namespace Stocked

variable (callbacks) in
lemma take (hexact : ops.Exact) (hs : Stocked ops extra σ) (hgranularity : granularity = 0 ∨ 1 < granularity)
    (hb : b ∈ ops.rects σ.freeBoxes) (hroom : Room w h granularity b) (hin : InRange w h granularity b) :
    ∃ link σ', σ.take ops w h granularity callbacks (firstMultiple granularity b.x1) b = .ok (some link,σ') ∧
      Stocked ops extra σ' ∧ Placed σ σ' w h link := by
  have hsub : Box.points (placed w h granularity b) ⊆ ops.points σ.freeBoxes :=
    (placed_subset hroom).trans (points_subset hb)
  have htake : σ.take ops w h granularity callbacks (firstMultiple granularity b.x1) b =
      .ok (some ⟨σ.next,⟨placed w h granularity b,granularity,callbacks⟩⟩,{ σ with
        freeBoxes := ops.subtract σ.freeBoxes (ops.ofBox (placed w h granularity b))
        usedAreas := ⟨σ.next,⟨placed w h granularity b,granularity,callbacks⟩⟩::σ.usedAreas
        numUsedAreas := σ.numUsedAreas + 1, next := σ.next + 1 }) := by
    rw [FBManager.take,newArea_ok hroom hin]
    rfl
  refine ⟨_,_,htake,⟨?_,?_,?_,?_,?_⟩,⟨rfl,List.mem_cons_self,?_,.inl rfl,placed_sized,Nat.le_succ _⟩⟩
  · dsimp only
    rw [hexact.subtract,hexact.ofBox]
    exact hs.split.cut hsub
  · dsimp only
    rw [hs.counted,List.length_cons]
    omega
  · exact List.forall_mem_cons.2 ⟨placed_aligned hgranularity,hs.aligned⟩
  · refine List.nodup_cons.2 ⟨fun hmem => ?_,hs.nodup⟩
    obtain ⟨l,hl,hid⟩ := List.mem_map.1 hmem
    exact absurd (hs.fresh l hl) (by rw [hid]; exact lt_irrefl _)
  · exact List.forall_mem_cons.2 ⟨Nat.lt_succ_self _,fun l hl => Nat.lt_succ_of_lt (hs.fresh l hl)⟩
  · intro l hl
    obtain rfl | hl := List.mem_cons.1 hl
    · exact .inl rfl
    · exact .inr ⟨hl,(hs.fresh l hl).ne⟩

lemma split_middle (hs : Stocked ops extra σ) (hused : σ.usedAreas = before ++ link::after) :
    Split (ops.points σ.initialBoxes) (ops.points σ.freeBoxes::link.points::(before ++ after).map FBLink.points) := by
  have hsplit := hs.split
  rw [hused] at hsplit
  refine hsplit.perm (List.Perm.cons _ ?_)
  exact (show (before ++ link::after).Perm (link::(before ++ after)) from List.perm_middle).map FBLink.points

lemma id_middle (hs : Stocked ops extra σ) (hused : σ.usedAreas = before ++ link::after) :
    (∀ l ∈ before ++ after, l.id ≠ link.id) ∧ ((before ++ after).map FBLink.id).Nodup := by
  have hnodup := hs.nodup
  rw [hused,(List.perm_middle.map FBLink.id).nodup_iff] at hnodup
  obtain ⟨hnot,hnodup⟩ := List.nodup_cons.1 hnodup
  exact ⟨fun l hl hid => hnot (List.mem_map.2 ⟨l,hl,hid⟩),hnodup⟩

variable (callbacks) in
lemma evict (hexact : ops.Exact) (hs : Stocked ops extra σ) (hgranularity : granularity = 0 ∨ 1 < granularity)
    (hused : σ.usedAreas = before ++ link::after) (hroom : Room w h granularity link.area.box)
    (hin : InRange w h granularity link.area.box) :
    ∃ new σ', σ.evict ops w h granularity callbacks (before,link,firstMultiple granularity link.area.box.x1,after) =
      .ok (some new,σ') ∧ Stocked ops extra σ' ∧ Placed σ σ' w h new := by
  obtain ⟨hid,hnodup⟩ := hs.id_middle hused
  have hmem (l : FBLink) (hl : l ∈ before ++ after) : l ∈ σ.usedAreas := by
    rw [hused]
    simp only [List.mem_append,List.mem_cons] at hl ⊢
    tauto
  have hperm (l : FBLink) : (before ++ l::after).Perm (l::(before ++ after)) := List.perm_middle
  have hevict : σ.evict ops w h granularity callbacks (before,link,firstMultiple granularity link.area.box.x1,after) =
      .ok (some ⟨link.id,⟨placed w h granularity link.area.box,granularity,callbacks⟩⟩,{ σ with
        freeBoxes := ops.subtract (ops.union σ.freeBoxes (ops.ofBox link.area.box))
          (ops.ofBox (placed w h granularity link.area.box))
        usedAreas := before ++ ⟨link.id,⟨placed w h granularity link.area.box,granularity,callbacks⟩⟩::after }) := by
    rw [FBManager.evict,newArea_ok hroom hin]
    rfl
  refine ⟨_,_,hevict,⟨?_,?_,?_,?_,?_⟩,⟨rfl,by simp,?_,.inr ⟨link,by rw [hused]; simp,rfl⟩,placed_sized,le_rfl⟩⟩
  · dsimp only
    rw [hexact.subtract,hexact.ofBox,hexact.union,hexact.ofBox]
    refine ((hs.split_middle hused).join.cut ?_).perm (List.Perm.cons _
      ((hperm ⟨link.id,⟨placed w h granularity link.area.box,granularity,callbacks⟩⟩).map FBLink.points).symm)
    exact (placed_subset hroom).trans Set.subset_union_right
  · dsimp only
    rw [hs.counted,hused]
    simp only [List.length_append,List.length_cons]
  · intro l hl
    obtain rfl | hl := List.mem_cons.1 ((hperm _).mem_iff.1 hl)
    · exact placed_aligned hgranularity
    · exact hs.aligned l (hmem l hl)
  · rw [((hperm _).map FBLink.id).nodup_iff]
    refine List.nodup_cons.2 ⟨fun hnot => ?_,hnodup⟩
    obtain ⟨l,hl,heq⟩ := List.mem_map.1 hnot
    exact hid l hl heq
  · intro l hl
    obtain rfl | hl := List.mem_cons.1 ((hperm _).mem_iff.1 hl)
    · exact hs.fresh link (by rw [hused]; simp)
    · exact hs.fresh l (hmem l hl)
  · intro l hl
    obtain rfl | hl := List.mem_cons.1 ((hperm _).mem_iff.1 hl)
    · exact .inl rfl
    · exact .inr ⟨hmem l hl,hid l hl⟩

lemma allocate (hexact : ops.Exact) (hs : Stocked ops extra σ)
    (hsafe : Safe w h granularity (σ.candidates ops callbacks.remove.isSome)) :
    σ.allocateArea ops w h granularity callbacks = .ok (none,σ) ∨
      ∃ link σ', σ.allocateArea ops w h granularity callbacks = .ok (some link,σ') ∧ Stocked ops extra σ' ∧
        Placed σ σ' w h link := by
  have hnormal : (if granularity ≤ 1 then 0 else granularity) = 0 ∨ 1 < (if granularity ≤ 1 then 0 else granularity) := by
    split_ifs with hle
    · exact .inl rfl
    · exact .inr (not_le.1 hle)
  have hsafe := hsafe.normal
  unfold FBManager.allocateArea
  dsimp only
  generalize (if granularity ≤ 1 then 0 else granularity) = granularity at hnormal hsafe ⊢
  obtain ⟨hnone,hall⟩ | ⟨b,hb,hroom,hin,hfound⟩ := searchBoxes_ok hsafe.left
  · rw [hnone]
    cases hremove : callbacks.remove.isSome with
    | true => exact .inl rfl
    | false =>
      rw [hremove] at hsafe
      obtain hnone' | ⟨before,link,after,hused,hroom,hin,hfound⟩ :=
        (searchUsed_ok (hsafe.right hall) : searchUsed w h granularity σ.usedAreas = .ok none ∨ _)
      · left
        change (searchUsed w h granularity σ.usedAreas >>= _) = _
        rw [hnone']
        rfl
      · right
        obtain ⟨new,σ',hevict,hkept⟩ := hs.evict callbacks hexact hnormal hused hroom hin
        refine ⟨new,σ',?_,hkept⟩
        change (searchUsed w h granularity σ.usedAreas >>= _) = _
        rw [hfound]
        exact hevict
  · right
    obtain ⟨link,σ',htake,hkept⟩ := hs.take callbacks hexact hnormal hb hroom hin
    refine ⟨link,σ',?_,hkept⟩
    rw [hfound]
    exact htake

lemma release (hexact : ops.Exact) (hs : Stocked ops extra σ) (hused : σ.usedAreas = before ++ link::after) :
    Stocked ops (extra + 1)
      { σ with freeBoxes := ops.union σ.freeBoxes (ops.ofBox link.area.box), usedAreas := before ++ after } := by
  have hmem (l : FBLink) (hl : l ∈ before ++ after) : l ∈ σ.usedAreas := by
    rw [hused]
    simp only [List.mem_append,List.mem_cons] at hl ⊢
    tauto
  refine ⟨?_,?_,fun l hl => hs.aligned l (hmem l hl),(hs.id_middle hused).2,fun l hl => hs.fresh l (hmem l hl)⟩
  · dsimp only
    rw [hexact.union,hexact.ofBox]
    exact (hs.split_middle hused).join
  · dsimp only
    rw [hs.counted,hused]
    simp only [List.length_append,List.length_cons]
    omega

lemma free (hexact : ops.Exact) (hs : Stocked ops 0 σ) (id : ℕ) :
    Stocked ops 0 (σ.freeArea ops id) ∧ (σ.freeArea ops id).initialBoxes = σ.initialBoxes ∧
      ∀ l ∈ (σ.freeArea ops id).usedAreas, l ∈ σ.usedAreas := by
  unfold FBManager.freeArea
  cases hfind : findLink id σ.usedAreas with
  | none => exact ⟨hs,rfl,fun l hl => hl⟩
  | some found =>
    obtain ⟨before,link,after⟩ := found
    obtain ⟨hused,-⟩ := findLink_some hfind
    have hreleased := hs.release hexact hused
    refine ⟨⟨hreleased.split,?_,hreleased.aligned,hreleased.nodup,hreleased.fresh⟩,rfl,fun l hl => ?_⟩
    · have := hreleased.counted
      dsimp only at this ⊢
      omega
    · rw [hused]
      simp only [List.mem_append,List.mem_cons] at hl ⊢
      tauto

end Stocked

end Xlibre.Xf86.Areas
