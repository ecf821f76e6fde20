import Xlibre.Exa.Find

/-! The areas after one are evicted until it is large enough. -/
namespace Xlibre.Exa.ExaScreen
open Xlibre.Lib Tiling Checked

variable {info : ExaDriver} {σ σ' : ExaScreen} {l pre post run rest : List ℕ} {i j n : ℕ} {size real : ℤ}

lemma reach_congr (h : ∀ j ∈ l, σ'.area j = σ.area j) : σ'.reach real size l = σ.reach real size l := by
  induction l generalizing size with
  | nil => rfl
  | cons j l ih =>
    have hj := h j List.mem_cons_self
    have hrest : σ'.reach real (size + σ.size j) l = σ.reach real (size + σ.size j) l :=
      ih fun k hk => h k (List.mem_cons_of_mem j hk)
    rw [reach,reach,avail,avail,ExaScreen.size,hj]
    rw [ExaScreen.size] at hrest
    rw [hrest]
    rfl

lemma reach_availHead (heq : l = σ.availHead l ++ rest) :
    σ.reach real size l = σ.reach real (size + σ.total (σ.availHead l)) rest := by
  cases l with
  | nil =>
    obtain rfl : rest = [] := by
      have := congrArg List.length heq
      simpa [availHead] using this.symm
    simp [availHead]
  | cons j l =>
    by_cases hj : σ.avail j
    · rw [availHead_avail hj] at heq ⊢
      obtain rfl := (List.cons.inj heq).2
      rw [reach,if_pos (by simp [hj]),total_cons,total_nil,add_zero]
    · rw [availHead_used (by simpa using hj)] at heq ⊢
      rw [total_nil,add_zero,← List.nil_append rest,← heq]

lemma reach_done (hhead : ∀ j ∈ l.head?, σ.avail j = false) (h : real ≤ size) : σ.reach real size l = size := by
  cases l with
  | nil => rfl
  | cons j l =>
    rw [reach,if_neg]
    simp [hhead j rfl,h]

lemma run_availHead {post' : List ℕ} (heq : run ++ rest = σ.availHead (run ++ rest) ++ post') (hrun : ∀ j ∈ run, σ.locked j = false)
    (hpos : ∀ j ∈ run ++ rest, 0 < σ.size j) :
    ∃ run' rest', post' = run' ++ rest' ∧ (∀ j ∈ run', σ.locked j = false) ∧
      σ.total run ≤ σ.total (σ.availHead (run ++ rest)) + σ.total run' := by
  cases run with
  | nil =>
    refine ⟨[],post',rfl,by simp,?_⟩
    cases rest with
    | nil => simp [availHead]
    | cons k rest =>
      by_cases hk : σ.avail k
      · have := hpos k (by simp)
        rw [List.nil_append,availHead_avail hk]
        simp
        omega
      · rw [List.nil_append,availHead_used (by simpa using hk)]
        simp
  | cons k run =>
    by_cases hk : σ.avail k
    · rw [List.cons_append,availHead_avail hk] at heq ⊢
      obtain rfl := (List.cons.inj heq).2
      exact ⟨run,rest,rfl,fun j hj => hrun j (List.mem_cons_of_mem k hj),by simp⟩
    · rw [List.cons_append,availHead_used (by simpa using hk)] at heq ⊢
      exact ⟨k::run,rest,heq.symm,hrun,by simp⟩

variable (real) in
lemma evict_ok (h : Shape info σ (pre ++ i::post)) (hapart : Apart σ.avail (pre ++ i::post)) (hi : σ.avail i)
    (hpost : post = run ++ rest) (hrun : ∀ j ∈ run, σ.locked j = false) (hroom : real ≤ σ.size i + σ.total run)
    (hn : post.length < n) :
    ∃ σ' gone post', evict info i real n σ = .ok σ' ∧ post = gone ++ post' ∧ (∀ j ∈ gone, σ.locked j = false) ∧
      Shape info σ' (pre ++ i::post') ∧ Apart σ'.avail (pre ++ i::post') ∧ σ'.avail i ∧
      σ'.size i = σ.reach real (σ.size i) post ∧ real ≤ σ'.size i ∧ σ'.baseOffset i = σ.baseOffset i ∧
      (∀ j ∈ pre ++ post', σ'.area j = σ.area j) ∧ σ'.fresh = σ.fresh ∧ σ'.offScreenCounter = σ.offScreenCounter := by
  induction n generalizing σ post run rest with
  | zero => exact absurd hn (Nat.not_lt_zero _)
  | succ n ih =>
    have hneighbours := hapart.neighbours hi
    rw [evict]
    by_cases hlt : σ.size i < real
    · rw [if_pos hlt]
      obtain ⟨j,run,rfl⟩ : ∃ j run', run = j::run' := by
        cases run with
        | nil => simp at hroom; omega
        | cons j run => exact ⟨j,run,rfl⟩
      subst hpost
      have hnext : σ.links.next i = some j := h.linked.next
      have hjused : σ.avail j = false := hneighbours.2 j rfl
      have hjremovable : (σ.area j).state = .removable := by
        have hjlocked := hrun j List.mem_cons_self
        simp only [avail,locked] at hjused hjlocked
        cases hstate : (σ.area j).state <;> simp_all
      rw [hnext]
      dsimp only
      rw [if_pos hjremovable]
      have h' : Shape info σ (pre ++ [i] ++ j::(run ++ rest)) := by simpa using h
      have hapart' : Apart σ.avail (pre ++ [i] ++ j::(run ++ rest)) := by simpa using hapart
      obtain ⟨pre',post',r,σ₁,hpre',hpost',hfree,hjoined⟩ := free_joined h' hapart' hjused
      rw [availLast_avail hi] at hpre' hjoined
      obtain rfl := List.append_cancel_right hpre'
      obtain rfl : i = r := by simpa using hjoined.first
      have hpos : ∀ k ∈ run ++ rest, 0 < σ.size k := fun k hk => (h.tiles.within (by
        simp only [List.mem_append,List.mem_cons] at hk ⊢; tauto)).2.1
      obtain ⟨run',rest',heq,hrun',hroom'⟩ := run_availHead hpost' (fun k hk => hrun k (List.mem_cons_of_mem j hk)) hpos
      have hothers : ∀ k ∈ post', σ₁.area k = σ.area k := fun k hk => hjoined.others k (List.mem_append_right _ hk)
      have hsize : σ₁.size i = σ.size i + σ.size j + σ.total (σ.availHead (run ++ rest)) := by simpa using hjoined.size
      have hrun₁ : ∀ k ∈ run', σ₁.locked k = false := fun k hk => by
        rw [locked,hothers k (by rw [heq]; exact List.mem_append_left _ hk)]
        exact hrun' k hk
      have htotal : σ₁.total run' = σ.total run' :=
        total_congr fun k hk => hothers k (by rw [heq]; exact List.mem_append_left _ hk)
      have hlength : post'.length < n := by
        have := congrArg List.length hpost'
        simp only [List.length_append,List.length_cons] at hn this
        omega
      obtain ⟨σ₂,gone,post'',hevict,rfl,hgone,hshape,hapart₂,havail,hreach,hreal,hbase,hothers₂,hfresh,hcounter⟩ :=
        ih hjoined.shape hjoined.apart hjoined.avail heq hrun₁
          (by rw [htotal,hsize]; simp only [total_cons] at hroom; omega) hlength
      refine ⟨σ₂,j::(σ.availHead (run ++ rest) ++ gone),post'',?_,?_,?_,hshape,hapart₂,havail,?_,hreal,?_,?_,
        hfresh.trans hjoined.fresh,hcounter.trans hjoined.counter⟩
      · rw [hfree]
        exact hevict
      · rw [List.cons_append,List.cons_append,List.append_assoc,← hpost']
      · refine List.forall_mem_cons.2 ⟨hrun j List.mem_cons_self,List.forall_mem_append.2 ⟨fun k hk => ?_,fun k hk => ?_⟩⟩
        · have hkavail := mem_availHead hk
          simp only [avail,decide_eq_true_eq] at hkavail
          simp [locked,hkavail]
        · have := hgone k hk
          rwa [locked,hothers k (List.mem_append_left _ hk)] at this
      · have hfirst : σ.reach real (σ.size i) (j::(run ++ rest)) = σ.reach real (σ.size i + σ.size j) (run ++ rest) := by
          rw [reach,if_pos (by simp [hlt])]
        rw [hreach,hsize,List.cons_append,hfirst,reach_availHead hpost']
        exact reach_congr hothers
      · rw [hbase,hjoined.base]
        obtain ⟨q,-,hi',-,hj',-⟩ := tiles_append.1 h.tiles
        simp only [total_cons,total_nil]
        omega
      · intro k hk
        rw [hothers₂ k hk]
        refine hjoined.others k ?_
        simp only [List.mem_append] at hk ⊢
        tauto
    · rw [if_neg hlt]
      exact ⟨σ,[],post,rfl,rfl,by simp,h,hapart,hi,(reach_done hneighbours.2 (not_lt.1 hlt)).symm,not_lt.1 hlt,rfl,
        fun _ _ => rfl,rfl,rfl⟩

end Xlibre.Exa.ExaScreen

/-! Allocation takes the end of an area, and leaves locked areas where they are. -/
namespace Xlibre.Exa.ExaScreen
open Xlibre.Lib Tiling Checked

variable {info : ExaDriver} {σ σ' : ExaScreen} {l pre post run rest : List ℕ} {i j n : ℕ} {size real align : ℤ}
  {isLocked save calloc : Bool}

lemma rounded {x : ℤ} (halign : 0 < align) (hx : 0 ≤ x) :
    x + align - 1 - (x + align - 1).tmod align = x + (-x) % align := by
  have hparts := Int.emod_add_mul_ediv (-x) align
  have hlow := Int.emod_nonneg (-x) (by omega : align ≠ 0)
  have hhigh := Int.emod_lt_of_pos (-x) halign
  rw [Int.tmod_eq_emod_of_nonneg (by omega)]
  have hsum : x + align - 1 = (align - 1 - (-x) % align) + (-((-x) / align)) * align := by
    rw [Int.neg_mul,Int.mul_comm ((-x) / align)]
    omega
  have hrest : (x + align - 1) % align = align - 1 - (-x) % align := by
    rw [hsum,Int.add_mul_emod_self_right,Int.emod_eq_of_lt (by omega) (by omega)]
  omega

/-- An available area is put to use. -/
structure Taken (σ σ' : ExaScreen) (i : ℕ) : Prop where
  base : σ'.baseOffset i = σ.baseOffset i
  size : σ'.size i = σ.size i
  used : σ'.avail i = false
  aligned : 0 < (σ'.area i).align
  offset : σ.baseOffset i ≤ (σ'.area i).offset ∧ (σ'.area i).offset < σ.baseOffset i + σ.size i
  others : ∀ j, j ≠ i → σ'.area j = σ.area j
  links : σ'.links = σ.links
  fresh : σ'.fresh = σ.fresh
  num : σ'.numOffscreenAvailable = σ.numOffscreenAvailable - 1

lemma Shape.take (h : Shape info σ (pre ++ i::post)) (hi : σ.avail i) (ht : Taken σ σ' i) :
    Shape info σ' (pre ++ i::post) := by
  have hnodup := h.linked.nodup
  simp only [List.nodup_append',List.nodup_cons,List.disjoint_cons_right] at hnodup
  obtain ⟨-,⟨hipost,-⟩,hipre,-⟩ := hnodup
  have havail (j : ℕ) (hj : j ≠ i) : σ'.avail j = σ.avail j := by rw [avail,avail,ht.others j hj]
  have hpre : pre.filter σ'.avail = pre.filter σ.avail := List.filter_congr fun j hj => havail j fun heq => hipre (heq ▸ hj)
  have hpost : post.filter σ'.avail = post.filter σ.avail :=
    List.filter_congr fun j hj => havail j fun heq => hipost (heq ▸ hj)
  have hbase : σ'.baseOffset = σ.baseOffset := by
    funext j
    by_cases heq : j = i
    · rw [heq,ht.base]
    · rw [baseOffset,baseOffset,ht.others j heq]
  have hsize : σ'.size = σ.size := by
    funext j
    by_cases heq : j = i
    · rw [heq,ht.size]
    · rw [ExaScreen.size,ExaScreen.size,ht.others j heq]
  refine ⟨ht.links ▸ h.linked,fun j hj => ht.fresh ▸ h.fresh j hj,?_,?_,fun j hj => ?_,fun j hj hused => ?_⟩
  · rw [hbase,hsize]
    exact h.tiles
  · have hcounted := h.counted
    rw [ht.num]
    simp only [List.filter_append,List.filter_cons,hi,ht.used,hpre,hpost,if_true,List.length_append,List.length_cons,
      Bool.false_eq_true,if_false] at hcounted ⊢
    omega
  · rw [hbase,hsize]
    by_cases heq : j = i
    · subst heq
      exact ht.offset
    · rw [ht.others j heq]
      exact h.offsets j hj
  · by_cases heq : j = i
    · subst heq
      exact ht.aligned
    · rw [ht.others j heq]
      exact h.aligned j hj (havail j heq ▸ hused)

/-- The start of an available area becomes an area of its own. -/
def split (σ : ExaScreen) (i : ℕ) (real : ℤ) : ExaScreen :=
  let area := σ.area i
  let base := area.baseOffset + (area.size - real)
  { (σ.set σ.fresh ⟨area.baseOffset,area.baseOffset,area.size - real,0,false,.avail,0,0⟩).set i
      { area with baseOffset := base, offset := base, size := real } with
    links := σ.links.insertBefore σ.fresh i
    fresh := σ.fresh + 1
    numOffscreenAvailable := σ.numOffscreenAvailable + 1 }

variable (σ i real) in
lemma split_area_self : (σ.split i real).area i = { σ.area i with
    baseOffset := σ.baseOffset i + (σ.size i - real), offset := σ.baseOffset i + (σ.size i - real), size := real } :=
  set_area_self

variable (real) in
lemma split_area_new (h : σ.fresh ≠ i) : (σ.split i real).area σ.fresh =
    ⟨σ.baseOffset i,σ.baseOffset i,σ.size i - real,0,false,.avail,0,0⟩ := (set_area_of_ne h).trans set_area_self

lemma split_area_of_ne (hi : j ≠ i) (hnew : j ≠ σ.fresh) : (σ.split i real).area j = σ.area j :=
  (set_area_of_ne hi).trans (set_area_of_ne hnew)

lemma Shape.split (h : Shape info σ (pre ++ i::post)) (hi : σ.avail i) (hreal : 0 < real) (hlt : real < σ.size i) :
    Shape info (σ.split i real) (pre ++ σ.fresh::i::post) := by
  have hnew : σ.fresh ∉ pre ++ i::post := fun hmem => absurd (h.fresh _ hmem) (lt_irrefl _)
  have hnodup := h.linked.nodup
  simp only [List.nodup_append',List.nodup_cons,List.disjoint_cons_right] at hnodup
  obtain ⟨-,⟨hipost,-⟩,hipre,-⟩ := hnodup
  have hne : i ≠ σ.fresh := fun heq => hnew (by simp [heq])
  have harea (j : ℕ) (hj : j ∈ pre ++ post) : (σ.split i real).area j = σ.area j := by
    have hji : j ≠ i := by
      rintro rfl
      exact (List.mem_append.1 hj).elim hipre hipost
    have hjnew : j ≠ σ.fresh := by
      rintro rfl
      exact hnew (by simp only [List.mem_append,List.mem_cons] at hj ⊢; tauto)
    exact split_area_of_ne hji hjnew
  have hareai := split_area_self σ i real
  have hareanew := split_area_new real (Ne.symm hne)
  have hpre (j : ℕ) (hj : j ∈ pre) : (σ.split i real).area j = σ.area j := harea j (List.mem_append_left _ hj)
  have hpost (j : ℕ) (hj : j ∈ post) : (σ.split i real).area j = σ.area j := harea j (List.mem_append_right _ hj)
  have hbasei : (σ.split i real).baseOffset i = σ.baseOffset i + (σ.size i - real) := by rw [baseOffset,hareai]
  have hsizei : (σ.split i real).size i = real := by rw [size,hareai]
  have hbasenew : (σ.split i real).baseOffset σ.fresh = σ.baseOffset i := by rw [baseOffset,hareanew]
  have hsizenew : (σ.split i real).size σ.fresh = σ.size i - real := by rw [size,hareanew]
  have havaili : (σ.split i real).avail i := by
    rw [avail,hareai]
    exact hi
  have havailnew : (σ.split i real).avail σ.fresh := by
    rw [avail,hareanew]
    rfl
  refine ⟨h.linked.insertBefore hnew,fun j hj => ?_,?_,?_,fun j hj => ?_,fun j hj hused => ?_⟩
  · simp only [List.mem_append,List.mem_cons] at hj
    have hfresh := h.fresh j
    simp only [List.mem_append,List.mem_cons] at hfresh
    change j < σ.fresh + 1
    obtain hj | rfl | rfl | hj := hj
    · exact Nat.lt_succ_of_lt (hfresh (.inl hj))
    · exact Nat.lt_succ_self _
    · exact Nat.lt_succ_of_lt (hfresh (.inr (.inl rfl)))
    · exact Nat.lt_succ_of_lt (hfresh (.inr (.inr hj)))
  · obtain ⟨p,hleft,hbase,hsize,htail⟩ := tiles_append.1 h.tiles
    refine tiles_append.2 ⟨p,hleft.congr fun j hj => ⟨by rw [baseOffset,hpre j hj]; rfl,by rw [size,hpre j hj]; rfl⟩,?_⟩
    rw [tiles_cons,tiles_cons,hbasenew,hsizenew,hbasei,hsizei]
    refine ⟨hbase,by omega,by omega,hreal,?_⟩
    have hend : p + (σ.size i - real) + real = p + σ.size i := by omega
    rw [hend]
    exact htail.congr fun j hj => ⟨by rw [baseOffset,hpost j hj]; rfl,by rw [size,hpost j hj]; rfl⟩
  · have hcounted := h.counted
    have hprefilter : pre.filter (σ.split i real).avail = pre.filter σ.avail :=
      List.filter_congr fun j hj => by rw [avail,avail,hpre j hj]
    have hpostfilter : post.filter (σ.split i real).avail = post.filter σ.avail :=
      List.filter_congr fun j hj => by rw [avail,avail,hpost j hj]
    change σ.numOffscreenAvailable + 1 = _
    simp only [List.filter_append,List.filter_cons,hi,havaili,havailnew,hprefilter,hpostfilter,if_true,List.length_append,
      List.length_cons] at hcounted ⊢
    omega
  · rw [baseOffset,size]
    by_cases hji : j = i
    · subst hji
      rw [hareai]
      dsimp only
      omega
    · by_cases hjnew : j = σ.fresh
      · subst hjnew
        rw [hareanew]
        dsimp only
        omega
      · have hj' : j ∈ pre ++ post := by
          simp only [List.mem_append,List.mem_cons] at hj ⊢
          tauto
        rw [harea j hj']
        exact h.offsets j (by simp only [List.mem_append,List.mem_cons] at hj' ⊢; tauto)
  · by_cases hji : j = i
    · subst hji
      rw [havaili] at hused
      cases hused
    · by_cases hjnew : j = σ.fresh
      · subst hjnew
        rw [havailnew] at hused
        cases hused
      · have hj' : j ∈ pre ++ post := by
          simp only [List.mem_append,List.mem_cons] at hj ⊢
          tauto
        rw [avail,harea j hj'] at hused
        rw [harea j hj']
        exact h.aligned j (by simp only [List.mem_append,List.mem_cons] at hj' ⊢; tauto) hused

/-- What is left of a list with a shape when a call is done: the areas that were not given up are as they were. -/
def Kept (info : ExaDriver) (σ : ExaScreen) (l : List ℕ) (σ' : ExaScreen) : Prop :=
  ∃ l', Shape info σ' l' ∧ Apart σ'.avail l' ∧ ∀ j ∈ l, j ∈ l' ∧ σ'.area j = σ.area j

lemma apart_taken (hapart : Apart σ.avail (pre ++ i::post)) (hi : σ.avail i) (hothers : ∀ j ∈ pre ++ post, σ'.area j = σ.area j)
    (hmid : Apart σ'.avail l) : Apart σ'.avail (pre ++ l ++ post) := by
  have havail (j : ℕ) (hj : j ∈ pre ++ post) : σ'.avail j = σ.avail j := by rw [avail,avail,hothers j hj]
  obtain ⟨hlast,hhead⟩ := hapart.neighbours hi
  refine (hapart.left.congr fun j hj => havail j (List.mem_append_left _ hj)).between hmid
    ((apart_cons.1 hapart.right).1.congr fun j hj => havail j (List.mem_append_right _ hj)) (fun j hj => ?_) fun j hj => ?_
  · rw [havail j (List.mem_append_left _ (List.mem_of_mem_getLast? hj))]
    exact hlast j hj
  · rw [havail j (List.mem_append_right _ (List.mem_of_mem_head? hj))]
    exact hhead j hj

lemma cut_of_lt (h : real < σ.size i) : σ.cut i real =
    { (σ.set σ.fresh ⟨σ.baseOffset i,σ.baseOffset i,σ.size i - real,0,false,.avail,0,0⟩).set i
        { σ.area i with baseOffset := σ.baseOffset i + (σ.size i - real), size := real } with
      links := σ.links.insertBefore σ.fresh i
      fresh := σ.fresh + 1 } := if_pos h

lemma cut_of_eq (h : real = σ.size i) : σ.cut i real = { σ with numOffscreenAvailable := σ.numOffscreenAvailable - 1 } :=
  if_neg (by rw [h]; exact lt_irrefl _)

lemma cut_baseOffset (h : real ≤ σ.size i) : (σ.cut i real).baseOffset i = σ.baseOffset i + (σ.size i - real) := by
  obtain h | h := lt_or_eq_of_le h
  · rw [cut_of_lt h,baseOffset]
    exact congrArg ExaOffscreenArea.baseOffset set_area_self
  · rw [cut_of_eq h,h]
    simp [baseOffset]

variable (isLocked save) in
lemma occupy_area (halign : 0 < align) (hbase : 0 ≤ σ.baseOffset i) : (σ.occupy i align isLocked save).area i =
    { σ.area i with
      state := if isLocked then .locked else .removable
      save
      lastUse := σ.offScreenCounter
      offset := σ.baseOffset i + (-σ.baseOffset i) % align
      align } := by
  rw [← rounded halign hbase]
  exact set_area_self

lemma Taken.kept {σ₁ σ₂ : ExaScreen} (ht : Taken σ₁ σ₂ i) (hshape : Shape info σ₁ (pre ++ l ++ i::post)) (hi₁ : σ₁.avail i)
    (hapart : Apart σ.avail (pre ++ i::post)) (hi : σ.avail i) (hothers : ∀ j ∈ pre ++ post, σ₂.area j = σ.area j)
    (hmid : Apart σ₂.avail (l ++ [i])) : σ₂.validate info = .ok () ∧ Kept info σ (pre ++ post) σ₂ := by
  have hshape₂ := hshape.take hi₁ ht
  have heq : pre ++ l ++ i::post = pre ++ (l ++ [i]) ++ post := by simp
  rw [heq] at hshape₂
  refine ⟨hshape₂.validate,_,hshape₂,apart_taken hapart hi hothers hmid,fun j hj => ⟨?_,hothers j hj⟩⟩
  simp only [List.mem_append] at hj ⊢
  tauto

variable (isLocked save calloc) in
lemma place_ok (hbase : 0 ≤ info.offScreenBase) (h : Shape info σ (pre ++ i::post)) (hapart : Apart σ.avail (pre ++ i::post))
    (hi : σ.avail i) (hreal : 0 < real) (hle : real ≤ σ.size i)
    (hfits : calloc = true ∨ real = σ.size i → 0 < align ∧ (real - (σ.baseOffset i + σ.size i)) % align < real ∧
      σ.baseOffset i + σ.size i - real + align < 2^31) :
    ∃ result, σ.place info i real align isLocked save calloc = .ok result ∧ Kept info σ (pre ++ post) result.2 := by
  have hnodup := h.linked.nodup
  simp only [List.nodup_append',List.nodup_cons,List.disjoint_cons_right] at hnodup
  obtain ⟨-,⟨hipost,-⟩,hipre,-⟩ := hnodup
  have hnotnew : σ.fresh ∉ pre ++ i::post := fun hmem => absurd (h.fresh _ hmem) (lt_irrefl _)
  have hwithin := h.tiles.within (a := i) (by simp)
  have hne (j : ℕ) (hj : j ∈ pre ++ post) : j ≠ i ∧ j ≠ σ.fresh := by
    constructor
    · rintro rfl
      exact (List.mem_append.1 hj).elim hipre hipost
    · rintro rfl
      exact hnotnew (by simp only [List.mem_append,List.mem_cons] at hj ⊢; tauto)
  have hmem (j : ℕ) (hj : j ∈ pre ++ post) (m : List ℕ) : j ∈ pre ++ m ++ post := by
    simp only [List.mem_append] at hj ⊢
    tauto
  unfold place
  dsimp only
  by_cases hnone : real < σ.size i ∧ calloc = false
  · refine ⟨(none,σ),if_pos (by simpa using hnone),pre ++ i::post,h,hapart,fun j hj => ⟨?_,rfl⟩⟩
    simpa using hmem j hj [i]
  · obtain ⟨halign,hround,hover⟩ := hfits (by
      by_cases hcalloc : calloc = true
      · exact .inl hcalloc
      · exact .inr (by simp only [hcalloc] at hnone; simp at hnone; omega))
    have hcutbase := cut_baseOffset hle
    have hneg : real - (σ.baseOffset i + σ.size i) = -(σ.cut i real).baseOffset i := by omega
    rw [hneg] at hround
    have hlow := Int.emod_nonneg (-(σ.cut i real).baseOffset i) (by omega : align ≠ 0)
    have harea := occupy_area isLocked save halign (show 0 ≤ (σ.cut i real).baseOffset i by omega)
    rw [if_neg (by simpa using hnone),if_neg (by omega)]
    -- what is left of the area becomes one of its own, or there is nothing left
    obtain hlt | heq := lt_or_eq_of_le hle
    · have hnew : σ.fresh ≠ i := fun hmem => hnotnew (by simp [hmem])
      have hsplitbase : (σ.split i real).baseOffset i = σ.baseOffset i + (σ.size i - real) := by
        rw [baseOffset,split_area_self]
      have hsplitsize : (σ.split i real).size i = real := by rw [size,split_area_self]
      have ht : Taken (σ.split i real) ((σ.cut i real).occupy i align isLocked save) i := by
        have hothers (j : ℕ) (hj : j ≠ i) :
            ((σ.cut i real).occupy i align isLocked save).area j = (σ.split i real).area j := by
          refine (set_area_of_ne hj).trans ?_
          rw [cut_of_lt hlt]
          exact (set_area_of_ne hj).trans (set_area_of_ne hj).symm
        refine ⟨?_,?_,?_,?_,?_,hothers,?_,?_,?_⟩
        · rw [baseOffset,harea,hsplitbase,← hcutbase]
          rfl
        · rw [size,harea,hsplitsize,cut_of_lt hlt]
          exact congrArg ExaOffscreenArea.size set_area_self
        · rw [avail,harea]
          cases isLocked <;> rfl
        · rw [harea]
          exact halign
        · rw [harea,hsplitbase,hsplitsize,← hcutbase]
          dsimp only
          omega
        · change (σ.cut i real).links = _
          rw [cut_of_lt hlt]
          rfl
        · change (σ.cut i real).fresh = _
          rw [cut_of_lt hlt]
          rfl
        · change (σ.cut i real).numOffscreenAvailable = σ.numOffscreenAvailable + 1 - 1
          rw [cut_of_lt hlt]
          exact (add_sub_cancel_right _ _).symm
      have hshape := h.split hi hreal hlt
      have hsplitavail : (σ.split i real).avail i := by
        rw [avail,split_area_self]
        exact hi
      obtain ⟨hvalidate,hkept⟩ := ht.kept (l := [σ.fresh]) (by simpa using hshape) hsplitavail hapart hi
        (fun j hj => (ht.others j (hne j hj).1).trans (split_area_of_ne (hne j hj).1 (hne j hj).2))
        (by simp [Apart,ht.used])
      exact ⟨_,by rw [hvalidate]; rfl,hkept⟩
    · have ht : Taken σ ((σ.cut i real).occupy i align isLocked save) i := by
        rw [cut_of_eq heq] at harea ⊢
        refine ⟨?_,?_,?_,?_,?_,fun j hj => set_area_of_ne hj,rfl,rfl,rfl⟩
        · rw [baseOffset,harea]
          rfl
        · rw [size,harea]
          rfl
        · rw [avail,harea]
          cases isLocked <;> rfl
        · rw [harea]
          exact halign
        · rw [cut_of_eq heq] at hround hlow hcutbase
          rw [harea]
          dsimp only
          have hsame : ({ σ with numOffscreenAvailable := σ.numOffscreenAvailable - 1 } : ExaScreen).baseOffset i =
            σ.baseOffset i := rfl
          omega
      obtain ⟨hvalidate,hkept⟩ := ht.kept (l := []) (by simpa using h) hi hapart hi
        (fun j hj => ht.others j (hne j hj).1) (by simp)
      exact ⟨_,by rw [hvalidate]; rfl,hkept⟩

lemma before_used (hi : σ.avail i = false) : σ.before i pre = σ.total (σ.availLast pre) := by
  rw [before,if_neg (by simp [hi]),availLast]
  cases pre.getLast?.filter σ.avail <;> simp

lemma before_avail (hi : σ.avail i) : σ.before i pre = 0 := if_pos hi

def KeptLocked (info : ExaDriver) (σ : ExaScreen) (l : List ℕ) (σ' : ExaScreen) : Prop :=
  ∃ l', Shape info σ' l' ∧ Apart σ'.avail l' ∧ ∀ j ∈ l, σ.locked j → j ∈ l' ∧ σ'.area j = σ.area j

lemma Kept.locked (h : Kept info σ l σ') {m : List ℕ} (hm : ∀ j ∈ m, σ.locked j → j ∈ l) : KeptLocked info σ m σ' := by
  obtain ⟨l',hshape,hapart,hkept⟩ := h
  exact ⟨l',hshape,hapart,fun j hj hlocked => hkept j (hm j hj hlocked)⟩

lemma locked_ne (hj : σ.locked j) (hi : σ.locked i = false) : j ≠ i := by
  rintro rfl
  rw [hi] at hj
  cases hj

variable (real) in
lemma makeRoom_ok (h : Shape info σ (pre ++ i::post)) (hapart : Apart σ.avail (pre ++ i::post))
    (hlocked : σ.locked i = false) (hpost : post = run ++ rest) (hrun : ∀ j ∈ run, σ.locked j = false)
    (hroom : real ≤ σ.size i + σ.total run) :
    ∃ r σ' pre' post', σ.makeRoom info i real = .ok (r,σ') ∧ Shape info σ' (pre' ++ r::post') ∧
      Apart σ'.avail (pre' ++ r::post') ∧ σ'.avail r ∧ real ≤ σ'.size r ∧
      σ'.size r = σ.reach real (σ.before i pre + σ.size i) post ∧ σ'.baseOffset r = σ.baseOffset i - σ.before i pre ∧
      ∀ j ∈ pre ++ i::post, σ.locked j → j ∈ pre' ++ post' ∧ σ'.area j = σ.area j := by
  have hfuel {σ' : ExaScreen} {pre' post' : List ℕ} {r : ℕ} (h' : Shape info σ' (pre' ++ r::post')) :
      post'.length < σ'.fresh + 1 := by
    have hsubset : pre' ++ r::post' ⊆ List.range σ'.fresh := fun j hj => List.mem_range.2 (h'.fresh j hj)
    have := (List.subperm_of_subset h'.linked.nodup hsubset).length_le
    simp only [List.length_append,List.length_cons,List.length_range] at this
    omega
  by_cases hi : σ.avail i
  · obtain ⟨σ',gone,post',hevict,rfl,hgone,hshape,hapart',havail,hreach,hreal,hbase,hothers,-,-⟩ :=
      evict_ok real h hapart hi hpost hrun hroom (hfuel h)
    refine ⟨i,σ',pre,post',?_,hshape,hapart',havail,hreal,?_,?_,fun j hj hjlocked => ?_⟩
    · rw [makeRoom,kickOut,if_pos hi]
      change (evict info i real (σ.fresh + 1) σ >>= _) = _
      rw [hevict]
      rfl
    · rw [hreach,before_avail hi,zero_add]
    · rw [hbase,before_avail hi,sub_zero]
    · have hmem : j ∈ pre ++ post' := by
        have hji := locked_ne hjlocked hlocked
        have hjgone : j ∉ gone := fun hmem => locked_ne hjlocked (hgone j hmem) rfl
        simp only [List.mem_append,List.mem_cons] at hj ⊢
        tauto
      exact ⟨hmem,hothers j hmem⟩
  · have hused : σ.avail i = false := by simpa using hi
    obtain ⟨pre',post',r,σ₁,hpre',hpost',hfree,hjoined⟩ := free_joined h hapart hused
    subst hpost
    have hpos : ∀ j ∈ run ++ rest, 0 < σ.size j := fun j hj => (h.tiles.within (by
      simp only [List.mem_append,List.mem_cons] at hj ⊢; tauto)).2.1
    obtain ⟨run',rest',rfl,hrun',hroom'⟩ := run_availHead hpost' hrun hpos
    have hothers : ∀ j ∈ run' ++ rest', σ₁.area j = σ.area j := fun j hj => hjoined.others j (List.mem_append_right _ hj)
    have hleft : 0 ≤ σ.total (σ.availLast pre) := total_nonneg fun j hj =>
      (h.tiles.within (List.mem_append_left _ (by rw [hpre']; exact List.mem_append_right _ hj))).2.1
    have htotal : σ₁.total run' = σ.total run' := total_congr fun j hj => hothers j (List.mem_append_left _ hj)
    obtain ⟨σ',gone,post',hevict,hgoneeq,hgone,hshape,hapart',havail,hreach,hreal,hbase,hothers',-,-⟩ :=
      evict_ok real hjoined.shape hjoined.apart hjoined.avail rfl
        (fun j hj => by rw [locked,hothers j (List.mem_append_left _ hj)]; exact hrun' j hj)
        (by rw [htotal,hjoined.size]; omega) (hfuel hjoined.shape)
    refine ⟨r,σ',pre',post',?_,hshape,hapart',havail,hreal,?_,?_,fun j hj hjlocked => ?_⟩
    · rw [makeRoom,kickOut,if_neg hi,hfree]
      change (evict info r real (σ₁.fresh + 1) σ₁ >>= _) = _
      rw [hevict]
      rfl
    · rw [hreach,before_used hused,reach_availHead hpost',hjoined.size]
      exact reach_congr hothers
    · rw [hbase,hjoined.base,before_used hused]
    · have hnotavail {k : ℕ} (hk : σ.avail k) : j ≠ k := by
        rintro rfl
        simp only [avail,locked,decide_eq_true_eq] at hk hjlocked
        rw [hk] at hjlocked
        cases hjlocked
      have hji := locked_ne hjlocked hlocked
      have hmem : j ∈ pre' ++ post' := by
        rw [hpre',hpost',hgoneeq] at hj
        have hnotlast : j ∉ σ.availLast pre := fun hmem => hnotavail (mem_availLast hmem) rfl
        have hnothead : j ∉ σ.availHead (run ++ rest) := fun hmem => hnotavail (mem_availHead hmem) rfl
        have hnotgone : j ∉ gone := by
          intro hmem
          have hunlocked := hgone j hmem
          rw [locked,hothers j (by rw [hgoneeq]; exact List.mem_append_left _ hmem)] at hunlocked
          exact locked_ne hjlocked hunlocked rfl
        simp only [List.mem_append,List.mem_cons] at hj ⊢
        tauto
      refine ⟨hmem,?_⟩
      rw [hothers' j hmem]
      refine hjoined.others j ?_
      rw [hgoneeq]
      simp only [List.mem_append] at hmem ⊢
      tauto

variable (isLocked save calloc) in
lemma cut_place (hbase : 0 ≤ info.offScreenBase) (h : Shape info σ l) (hapart : Apart σ.avail l) (hsize : 0 < size)
    (haged : σ.areas.find? (σ.fits size align) = none → Aged σ l)
    (hfits : ∀ real total last, σ.CutFrom size align real total last → (calloc ∨ real = total) →
      0 < align ∧ (real - last) % align < real ∧ last - real + align < 2^31) :
    ∃ result, σ.search info size align isLocked save calloc = .ok result ∧ KeptLocked info σ l result.2 := by
  have hareas := h.areas_eq
  have hpos (i : ℕ) (hi : i ∈ l) : 0 < σ.realSize size align i := by
    have := h.tiles.within hi
    exact realSize_pos hsize (by omega)
  unfold search
  cases hfind : σ.areas.find? (σ.fits size align) with
  | some i =>
    have hmem := List.mem_of_find?_eq_some hfind
    have hfit := List.find?_some hfind
    rw [hareas] at hmem
    rw [fits,Bool.and_eq_true,decide_eq_true_eq] at hfit
    obtain ⟨pre,post,rfl⟩ := List.append_of_mem hmem
    obtain ⟨result,hplace,hkept⟩ := place_ok isLocked save calloc hbase h hapart hfit.1
      (hpos i hmem) hfit.2 fun hcalloc => hfits _ _ _ (.free i hfind) hcalloc
    refine ⟨result,hplace,hkept.locked fun j hj hlocked => ?_⟩
    have hji : j ≠ i := by
      rintro rfl
      simp only [avail,locked,decide_eq_true_eq] at hlocked hfit
      rw [hlocked] at hfit
      cases hfit.1
    simp only [List.mem_append,List.mem_cons] at hj ⊢
    tauto
  | none =>
    obtain ⟨found,σ₁,hevict,hcosts,hfound⟩ := findAreaToEvict_ok align hbase h hsize (haged hfind)
    have h₁ := hcosts.shape h
    rw [hevict]
    cases found with
    | none =>
      refine ⟨(none,σ₁),?_,l,h₁,hcosts.avail_eq ▸ hapart,fun j hj hlocked => ⟨hj,hcosts.locked j hlocked⟩⟩
      change (σ₁.validate info >>= _) = _
      rw [h₁.validate]
      rfl
    | some i =>
      obtain ⟨pre,run,rest,rfl,hlocked,hrun,hroom⟩ := hfound i rfl
      have hmem : i ∈ pre ++ i::(run ++ rest) := by simp
      obtain ⟨r,σ',pre',post',hmake,hshape,hapart',havail,hreal,hreach,hbase',hkept⟩ :=
        makeRoom_ok (σ₁.realSize size align i) h₁ (hcosts.avail_eq ▸ hapart) (by rw [hcosts.locked_eq]; exact hlocked)
          rfl (fun j hj => by rw [hcosts.locked_eq]; exact hrun j hj)
          (by rw [hcosts.realSize_eq,hcosts.size_eq,hcosts.total_eq]; exact hroom)
      have hcut := CutFrom.evicted pre (run ++ rest) i _ hfind hevict hareas rfl
      rw [hcosts.realSize_eq] at hmake hreal hreach
      rw [hcosts.reach_eq,hcosts.before_eq,hcosts.size_eq] at hreach
      rw [hcosts.before_eq,hcosts.baseOffset_eq] at hbase'
      obtain ⟨result,hplace,l',hshape',hapart'',hkept'⟩ := place_ok isLocked save calloc
        hbase hshape hapart' havail (hpos i hmem) hreal fun hcalloc => by
          rw [hreach] at hcalloc
          rw [hbase',hreach]
          exact hfits _ _ _ hcut hcalloc
      refine ⟨result,?_,l',hshape',hapart'',fun j hj hjlocked => ?_⟩
      · change (σ₁.makeRoom info i (σ₁.realSize size align i) >>= _) = _
        rw [hcosts.realSize_eq,hmake]
        exact hplace
      · obtain ⟨hj',harea⟩ := hkept j hj (by rw [hcosts.locked_eq]; exact hjlocked)
        obtain ⟨hj'',harea'⟩ := hkept' j hj'
        exact ⟨hj'',by rw [harea',harea,hcosts.locked j hjlocked]⟩

lemma alloc_ok (hbase : 0 ≤ info.offScreenBase) (h : Shape info σ l) (hapart : Apart σ.avail l)
    (hfits : σ.Fits info (.alloc size align isLocked save calloc)) :
    ∃ result, σ.alloc info size align isLocked save calloc = .ok result ∧ KeptLocked info σ l result.2 := by
  unfold alloc
  rw [h.validate]
  by_cases hsize : size ≤ 0 ∨ info.memorySize - info.offScreenBase < size
  · exact ⟨(none,σ),if_pos (by simpa using hsize),l,h,hapart,fun j hj _ => ⟨hj,rfl⟩⟩
  · push Not at hsize
    obtain ⟨haged,hcut⟩ := hfits hsize.1 hsize.2
    obtain ⟨result,hsearch,hkept⟩ := cut_place isLocked save calloc hbase h hapart hsize.1
      (by rw [h.areas_eq] at haged ⊢; exact haged) hcut
    exact ⟨result,(if_neg (by simp [hsize])).trans hsearch,hkept⟩

end Xlibre.Exa.ExaScreen
