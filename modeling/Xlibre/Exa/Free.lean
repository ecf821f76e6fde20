import Xlibre.Exa.Shape

/-! Freeing an area joins it with its neighbours that are available. -/
namespace Xlibre.Exa.ExaScreen
open Xlibre.Lib Tiling Checked

variable {info : ExaDriver} {σ σ' : ExaScreen} {l pre post pre' post' left right : List ℕ} {a b i j n r : ℕ}

/-- The sizes of some areas. -/
def total (σ : ExaScreen) (l : List ℕ) : ℤ := (l.map σ.size).sum

@[simp] lemma total_nil : σ.total [] = 0 := rfl

@[simp] lemma total_cons : σ.total (i::l) = σ.size i + σ.total l := by simp [total]

lemma total_congr (h : ∀ i ∈ l, σ'.area i = σ.area i) : σ'.total l = σ.total l := by
  refine congrArg List.sum (List.map_congr_left fun i hi => ?_)
  rw [size,size,h i hi]

lemma total_nonneg (h : ∀ i ∈ l, 0 < σ.size i) : 0 ≤ σ.total l := by
  induction l with
  | nil => exact le_rfl
  | cons i l ih =>
    have := ih fun j hj => h j (List.mem_cons_of_mem i hj)
    have := h i List.mem_cons_self
    rw [total_cons]
    omega

def availLast (σ : ExaScreen) (l : List ℕ) : List ℕ := (l.getLast?.filter σ.avail).toList

def availHead (σ : ExaScreen) (l : List ℕ) : List ℕ := (l.head?.filter σ.avail).toList

lemma availLast_avail (h : σ.avail a) : σ.availLast (l ++ [a]) = [a] := by
  rw [availLast,List.getLast?_concat,Option.filter_some,if_pos h,Option.toList_some]

lemma availLast_used (h : σ.avail a = false) : σ.availLast (l ++ [a]) = [] := by
  rw [availLast,List.getLast?_concat,Option.filter_some,if_neg (by simp [h]),Option.toList_none]

lemma mem_availLast (h : a ∈ σ.availLast l) : σ.avail a := by
  rw [availLast,Option.mem_toList] at h
  exact (Option.filter_eq_some_iff.1 h).2

lemma mem_availHead (h : a ∈ σ.availHead l) : σ.avail a := by
  rw [availHead,Option.mem_toList] at h
  exact (Option.filter_eq_some_iff.1 h).2

lemma availHead_avail (h : σ.avail a) : σ.availHead (a::l) = [a] := by
  rw [availHead,List.head?_cons,Option.filter_some,if_pos h,Option.toList_some]

lemma availHead_used (h : σ.avail a = false) : σ.availHead (a::l) = [] := by
  rw [availHead,List.head?_cons,Option.filter_some,if_neg (by simp [h]),Option.toList_none]

/-- One area takes the place of a part of the list: itself and available ones around it. -/
structure Joined (info : ExaDriver) (σ σ' : ExaScreen) (pre' left : List ℕ) (i : ℕ) (right post' : List ℕ) (r : ℕ) : Prop where
  shape : Shape info σ' (pre' ++ r::post')
  apart : Apart σ'.avail (pre' ++ r::post')
  avail : σ'.avail r
  size : σ'.size r = σ.total left + σ.size i + σ.total right
  base : σ'.baseOffset r = σ.baseOffset i - σ.total left
  others : ∀ j ∈ pre' ++ post', σ'.area j = σ.area j
  fresh : σ'.fresh = σ.fresh
  counter : σ'.offScreenCounter = σ.offScreenCounter
  first : (left ++ [i]).head? = some r

lemma linkNext_joined (h : Shape info σ (pre ++ i::post)) (hi : σ.avail i) (hpost : Apart σ.avail post) :
    ∃ σ' post', σ.linkNext i = .ok σ' ∧ post = σ.availHead post ++ post' ∧ Shape info σ' (pre ++ i::post') ∧
      (∀ j ∈ post'.head?, σ.avail j = false) ∧ σ'.avail = σ.avail ∧ σ'.baseOffset = σ.baseOffset ∧
      σ'.size i = σ.size i + σ.total (σ.availHead post) ∧ (∀ j, j ≠ i → σ'.area j = σ.area j) ∧ σ'.fresh = σ.fresh ∧
      σ'.offScreenCounter = σ.offScreenCounter := by
  have hnext : σ.links.next i = post.head? := h.linked.next
  rw [linkNext,hnext]
  cases post with
  | nil => exact ⟨σ,[],rfl,rfl,h,by simp,rfl,rfl,by simp [availHead],fun j _ => rfl,rfl,rfl⟩
  | cons n post =>
    by_cases hn : σ.avail n
    · rw [availHead_avail hn]
      refine ⟨σ.mergeWith i n,post,?_,rfl,h.mergeWith hi hn,?_,mergeWith_avail,mergeWith_baseOffset,by simp,
        fun j hj => mergeWith_area_of_ne hj,rfl,rfl⟩
      · simp only [List.head?_cons,hn,if_true]
        exact merge_eq h
      · have hneighbours : Apart σ.avail ([] ++ n::post) := hpost
        exact (hneighbours.neighbours hn).2
    · rw [availHead_used (by simpa using hn)]
      refine ⟨σ,n::post,by simp [hn],rfl,h,by simpa using hn,rfl,rfl,by simp,fun j _ => rfl,rfl,rfl⟩

lemma link_joined (h : Shape info σ (pre ++ i::post)) (hi : σ.avail i) (hpre : Apart σ.avail pre) (hpost : Apart σ.avail post) :
    ∃ pre' post' r σ', pre = pre' ++ σ.availLast pre ∧ post = σ.availHead post ++ post' ∧ σ.link i = .ok (r,σ') ∧
      Joined info σ σ' pre' (σ.availLast pre) i (σ.availHead post) post' r := by
  obtain ⟨σ₁,post',hnext,heq,h₁,hhead,havail,hbase,hsize,hothers,hfresh,hcounter⟩ := linkNext_joined h hi hpost
  have hlink : σ.link i = σ₁.linkPrev i (if i = σ.links.head then none else some (σ.links.prev i)) := by
    rw [link,hnext]
    rfl
  have hpost' : Apart σ.avail post' := by
    rw [heq] at hpost
    exact hpost.right
  have hnodup := h.linked.nodup
  simp only [List.nodup_append',List.nodup_cons,List.disjoint_cons_right] at hnodup
  obtain ⟨-,⟨hipost,-⟩,hipre,-⟩ := hnodup
  have hipost' : i ∉ post' := by
    rw [heq] at hipost
    exact fun hmem => hipost (List.mem_append_right _ hmem)
  have hne : ∀ j ∈ pre ++ post', j ≠ i := by
    rintro j hj rfl
    exact (List.mem_append.1 hj).elim hipre hipost'
  rw [hlink,h.linked.head_eq]
  -- nothing before, an area in use, or an available one
  obtain rfl | ⟨pre,p,rfl⟩ := pre.eq_nil_or_concat
  · refine ⟨[],post',i,σ₁,rfl,heq,?_,⟨h₁,?_,by rw [havail]; exact hi,by simp [hsize,availLast],by simp [hbase,availLast],
      fun j hj => hothers j (hne j hj),hfresh,hcounter,rfl⟩⟩
    · simp [linkPrev]
    · rw [havail]
      exact apart_cons.2 ⟨hpost',fun b hb hboth => by simp [hhead b hb] at hboth⟩
  · rw [List.concat_eq_append] at *
    have hprev : σ.links.prev i = p := by
      rw [h.linked.prev,← List.append_assoc]
      simp
    have hhead' : (pre ++ [p]).head?.getD i ≠ i := by
      cases pre with
      | nil => exact hne p (by simp)
      | cons y pre => exact hne y (by simp)
    rw [if_neg (Ne.symm hhead'),hprev]
    by_cases hp : σ.avail p
    · rw [availLast_avail hp]
      have h₁' : Shape info σ₁ (pre ++ p::i::post') := by simpa using h₁
      have hpi : p ≠ i := hne p (by simp)
      have hp₁ : σ₁.avail p := by rw [havail]; exact hp
      have hnodup := h₁'.linked.nodup
      simp only [List.nodup_append',List.nodup_cons,List.mem_cons,not_or,List.disjoint_cons_right] at hnodup
      obtain ⟨-,⟨⟨-,hppost⟩,-⟩,hppre,-⟩ := hnodup
      have hbasep : σ.baseOffset p + σ.size p = σ.baseOffset i := by
        obtain ⟨q,hleft,hbasei,-⟩ := tiles_append.1 h.tiles
        rw [hleft.last (List.getLast?_concat ..)]
        exact hbasei.symm
      refine ⟨pre,post',p,σ₁.mergeWith p i,rfl,heq,?_,⟨h₁'.mergeWith hp₁ (by rw [havail]; exact hi),?_,by simpa using hp₁,?_,?_,
        fun j hj => ?_,hfresh,hcounter,rfl⟩⟩
      · rw [linkPrev,if_pos hp₁,merge_eq h₁']
        rfl
      · rw [mergeWith_avail,havail]
        have := hpre.left.between (apart_singleton (a := p)) hpost' (hpre.neighbours hp).1 hhead
        simpa using this
      · have hsizep : σ₁.size p = σ.size p := by rw [size,hothers p hpi,size]
        rw [mergeWith_size_self,hsizep,hsize]
        simp only [total_cons,total_nil]
        omega
      · rw [mergeWith_baseOffset,hbase]
        simp only [total_cons,total_nil]
        omega
      · have hjp : j ≠ p := by
          rintro rfl
          exact (List.mem_append.1 hj).elim hppre hppost
        rw [mergeWith_area_of_ne hjp]
        exact hothers j (hne j (by simp only [List.mem_append] at hj ⊢; tauto))
    · have hused : σ.avail p = false := by simpa using hp
      rw [availLast_used hused]
      refine ⟨pre ++ [p],post',i,σ₁,by simp,heq,?_,⟨h₁,?_,by rw [havail]; exact hi,by simp [hsize],by simp [hbase],
        fun j hj => hothers j (hne j hj),hfresh,hcounter,rfl⟩⟩
      · rw [linkPrev,havail,if_neg hp]
      · rw [havail]
        have := hpre.between (apart_singleton (a := i)) hpost' (by simpa using hused) hhead
        simpa using this

lemma release_area_of_ne (h : j ≠ i) : (σ.release i).area j = σ.area j := Function.update_of_ne h _ _

@[simp] lemma release_area_self : (σ.release i).area i =
    { σ.area i with state := .avail, save := false, lastUse := 0, evictionCost := 0 } := by
  simp [release,set]

lemma release_avail_self : (σ.release i).avail i := by simp [avail]

lemma release_avail_of_ne (h : j ≠ i) : (σ.release i).avail j = σ.avail j := by rw [avail,avail,release_area_of_ne h]

@[simp] lemma release_size : (σ.release i).size = σ.size := by
  funext j
  by_cases h : j = i
  · subst h
    simp [size]
  · rw [size,size,release_area_of_ne h]

@[simp] lemma release_baseOffset : (σ.release i).baseOffset = σ.baseOffset := by
  funext j
  by_cases h : j = i
  · subst h
    simp [baseOffset]
  · rw [baseOffset,baseOffset,release_area_of_ne h]

@[simp] lemma release_total : (σ.release i).total l = σ.total l := by rw [total,total,release_size]

lemma Shape.release (h : Shape info σ (pre ++ i::post)) (hi : σ.avail i = false) :
    Shape info (σ.release i) (pre ++ i::post) := by
  have hnodup := h.linked.nodup
  simp only [List.nodup_append',List.nodup_cons,List.disjoint_cons_right] at hnodup
  obtain ⟨-,⟨hipost,-⟩,hipre,-⟩ := hnodup
  have hpre : pre.filter (σ.release i).avail = pre.filter σ.avail :=
    List.filter_congr fun j hj => release_avail_of_ne fun heq => hipre (heq ▸ hj)
  have hpost : post.filter (σ.release i).avail = post.filter σ.avail :=
    List.filter_congr fun j hj => release_avail_of_ne fun heq => hipost (heq ▸ hj)
  refine ⟨h.linked,h.fresh,?_,?_,fun j hj => ?_,fun j hj hused => ?_⟩
  · rw [release_size,release_baseOffset]
    exact h.tiles
  · have hcounted := h.counted
    change σ.numOffscreenAvailable + 1 = _
    simp only [List.filter_append,List.filter_cons,hi,release_avail_self,hpre,hpost,if_true,List.length_append,
      List.length_cons,Bool.false_eq_true,if_false] at hcounted ⊢
    omega
  · rw [release_size,release_baseOffset]
    by_cases heq : j = i
    · subst heq
      rw [release_area_self]
      exact h.offsets j hj
    · rw [release_area_of_ne heq]
      exact h.offsets j hj
  · by_cases heq : j = i
    · subst heq
      rw [release_avail_self] at hused
      cases hused
    · rw [release_area_of_ne heq]
      rw [release_avail_of_ne heq] at hused
      exact h.aligned j hj hused

lemma availLast_congr (h : ∀ j ∈ l, σ'.avail j = σ.avail j) : σ'.availLast l = σ.availLast l := by
  unfold availLast
  cases hlast : l.getLast? with
  | none => rfl
  | some a => rw [Option.filter_some,Option.filter_some,h a (List.mem_of_mem_getLast? hlast)]

lemma availHead_congr (h : ∀ j ∈ l, σ'.avail j = σ.avail j) : σ'.availHead l = σ.availHead l := by
  unfold availHead
  cases l with
  | nil => rfl
  | cons a l => rw [List.head?_cons,Option.filter_some,Option.filter_some,h a List.mem_cons_self]

lemma free_joined (h : Shape info σ (pre ++ i::post)) (hapart : Apart σ.avail (pre ++ i::post)) (hi : σ.avail i = false) :
    ∃ pre' post' r σ', pre = pre' ++ σ.availLast pre ∧ post = σ.availHead post ++ post' ∧ σ.free info i = .ok (r,σ') ∧
      Joined info σ σ' pre' (σ.availLast pre) i (σ.availHead post) post' r := by
  have hnodup := h.linked.nodup
  simp only [List.nodup_append',List.nodup_cons,List.disjoint_cons_right] at hnodup
  obtain ⟨-,⟨hipost,-⟩,hipre,-⟩ := hnodup
  have hpre : ∀ j ∈ pre, (σ.release i).avail j = σ.avail j := fun j hj => release_avail_of_ne fun heq => hipre (heq ▸ hj)
  have hpost : ∀ j ∈ post, (σ.release i).avail j = σ.avail j := fun j hj => release_avail_of_ne fun heq => hipost (heq ▸ hj)
  obtain ⟨pre',post',r,σ',heqpre,heqpost,hlink,hjoined⟩ :=
    link_joined (h.release hi) release_avail_self (hapart.left.congr hpre) ((apart_cons.1 hapart.right).1.congr hpost)
  rw [availLast_congr hpre] at heqpre hjoined
  rw [availHead_congr hpost] at heqpost hjoined
  refine ⟨pre',post',r,σ',heqpre,heqpost,?_,hjoined.shape,hjoined.apart,hjoined.avail,by simpa using hjoined.size,
    by simpa using hjoined.base,fun j hj => ?_,hjoined.fresh,hjoined.counter,hjoined.first⟩
  · unfold free
    rw [h.validate]
    change ((σ.release i).link i >>= _) = _
    rw [hlink]
    change (σ'.validate info >>= _) = _
    rw [hjoined.shape.validate]
    rfl
  · rw [hjoined.others j hj,release_area_of_ne]
    rintro rfl
    obtain hj | hj := List.mem_append.1 hj
    · rw [heqpre] at hipre
      exact hipre (List.mem_append_left _ hj)
    · rw [heqpost] at hipost
      exact hipost (List.mem_append_right _ hj)

end Xlibre.Exa.ExaScreen
