import Xlibre.Exa.Alloc

/-! Defragmenting moves available areas before those in use and merges them. -/
namespace Xlibre.Exa.ExaScreen
open Xlibre.Lib Tiling Checked

variable {info : ExaDriver} {σ σ' : ExaScreen} {l pre post : List ℕ} {i j n p : ℕ} {offset last : ℤ}

lemma Shape.swap (h : Shape info σ (pre ++ p::i::post)) (hlow : σ.baseOffset p < offset)
    (hhigh : offset < σ.baseOffset i + σ.size i) (hlast : last = σ.baseOffset i + σ.size i) :
    Shape info (σ.swap i p offset last) (pre ++ i::p::post) ∧ (σ.swap i p offset last).avail = σ.avail := by
  have hnodup := h.linked.nodup
  simp only [List.nodup_append',List.nodup_cons,List.mem_cons,not_or,List.disjoint_cons_right] at hnodup
  obtain ⟨-,⟨⟨hpi,hppost⟩,hipost,-⟩,hppre,hipre,-⟩ := hnodup
  have hareap : (σ.swap i p offset last).area p =
    { σ.area p with baseOffset := offset, offset, size := last - offset } := set_area_self
  have hareai : (σ.swap i p offset last).area i =
      { σ.area i with baseOffset := σ.baseOffset p, offset := σ.baseOffset p, size := offset - σ.baseOffset p } :=
    (set_area_of_ne (Ne.symm hpi)).trans set_area_self
  have hothers (j : ℕ) (hji : j ≠ i) (hjp : j ≠ p) : (σ.swap i p offset last).area j = σ.area j :=
    (set_area_of_ne hjp).trans (set_area_of_ne hji)
  have havail : (σ.swap i p offset last).avail = σ.avail := by
    funext j
    by_cases hji : j = i
    · subst hji
      rw [avail,avail,hareai]
    · by_cases hjp : j = p
      · subst hjp
        rw [avail,avail,hareap]
      · rw [avail,avail,hothers j hji hjp]
  have hpre (j : ℕ) (hj : j ∈ pre) : (σ.swap i p offset last).area j = σ.area j :=
    hothers j (fun heq => hipre (heq ▸ hj)) fun heq => hppre (heq ▸ hj)
  have hpost (j : ℕ) (hj : j ∈ post) : (σ.swap i p offset last).area j = σ.area j :=
    hothers j (fun heq => hipost (heq ▸ hj)) fun heq => hppost (heq ▸ hj)
  have hperm (j : ℕ) : j ∈ pre ++ i::p::post ↔ j ∈ pre ++ p::i::post := by
    simp only [List.mem_append,List.mem_cons]
    tauto
  refine ⟨⟨h.linked.swapPrev,fun j hj => h.fresh j ((hperm j).1 hj),?_,?_,fun j hj => ?_,fun j hj hused => ?_⟩,havail⟩
  · obtain ⟨q,hleft,hbasep,-,hbasei,-,htail⟩ := tiles_append.1 h.tiles
    refine tiles_append.2 ⟨q,hleft.congr fun j hj => ⟨by rw [baseOffset,hpre j hj]; rfl,by rw [size,hpre j hj]; rfl⟩,?_⟩
    rw [tiles_cons,tiles_cons,baseOffset,baseOffset,size,size,hareai,hareap]
    dsimp only
    refine ⟨hbasep,by omega,by omega,by omega,?_⟩
    have hend : q + (offset - σ.baseOffset p) + (last - offset) = q + σ.size p + σ.size i := by omega
    rw [hend]
    exact htail.congr fun j hj => ⟨by rw [baseOffset,hpost j hj]; rfl,by rw [size,hpost j hj]; rfl⟩
  · rw [havail]
    have hcounted := h.counted
    change σ.numOffscreenAvailable = _
    rw [hcounted]
    simp only [List.filter_append,List.filter_cons]
    split_ifs <;> simp
  · rw [baseOffset,size]
    by_cases hji : j = i
    · subst hji
      rw [hareai]
      dsimp only
      omega
    · by_cases hjp : j = p
      · subst hjp
        rw [hareap]
        dsimp only
        omega
      · rw [hothers j hji hjp]
        exact h.offsets j ((hperm j).1 hj)
  · rw [havail] at hused
    have haligned := h.aligned j ((hperm j).1 hj) hused
    by_cases hji : j = i
    · subst hji
      rwa [hareai]
    · by_cases hjp : j = p
      · subst hjp
        rwa [hareap]
      · rwa [hothers j hji hjp]

lemma defragmentLoop_ok (prepareCopy : ℕ → Bool) (largest : Option ℕ) (largestSize : ℤ)
    (h : Shape info σ (pre ++ i::post)) (hpre : Apart σ.avail pre) (hpost : Apart σ.avail (i::post)) (hn : pre.length < n) :
    ∃ result, defragmentLoop info prepareCopy n i largest largestSize σ = .ok result ∧
      ∃ l', Shape info result.2 l' ∧ Apart result.2.avail l' := by
  induction n generalizing pre post i largest largestSize σ with
  | zero => exact absurd hn (Nat.not_lt_zero _)
  | succ n ih =>
    rw [defragmentLoop,h.linked.head_eq]
    obtain rfl | ⟨pre,p,rfl⟩ := pre.eq_nil_or_concat
    · exact ⟨_,if_pos rfl,_,h,hpost⟩
    · rw [List.concat_eq_append] at *
      have hp : p ∈ pre ++ [p] := by simp
      have hnodup := h.linked.nodup
      simp only [List.nodup_append',List.nodup_cons,List.disjoint_cons_right] at hnodup
      obtain ⟨-,-,hipre,-⟩ := hnodup
      have hhead : (pre ++ [p]).head?.getD i ≠ i := by
        cases pre with
        | nil => exact fun heq : p = i => hipre (heq ▸ hp)
        | cons y pre => exact fun heq : y = i => hipre (heq ▸ List.mem_cons_self)
      have hprev : σ.links.prev i = p := by
        rw [h.linked.prev,← List.append_assoc]
        simp
      have h' : Shape info σ (pre ++ p::i::post) := by simpa using h
      have hlength : pre.length < n := by simpa using hn
      rw [if_neg (Ne.symm hhead)]
      dsimp only
      rw [hprev]
      -- where nothing is moved the area before is looked at next
      have hmove (largest : Option ℕ) (largestSize : ℤ) (hnot : ¬(σ.avail p ∧ σ.avail i)) :=
        ih largest largestSize h' hpre.left (apart_cons.2 ⟨hpost,by simpa using hnot⟩) hlength
      by_cases hskip : (σ.area i).state ≠ .avail ∨ (σ.area p).state = .locked ∨
          (σ.area p).state = .removable ∧ (σ.area p).save = false
      · rw [if_pos (by simpa [or_assoc] using hskip)]
        refine hmove _ _ fun ⟨havailp,havaili⟩ => ?_
        simp only [avail,decide_eq_true_eq] at havailp havaili
        simp [havailp,havaili] at hskip
      · rw [if_neg (by simpa [or_assoc] using hskip)]
        push Not at hskip
        obtain ⟨havaili,hnotlocked,hsave⟩ := hskip
        have hi : σ.avail i := decide_eq_true havaili
        by_cases havailp : (σ.area p).state = .avail
        · -- two available areas are merged
          rw [if_pos havailp]
          have hp : σ.avail p := decide_eq_true havailp
          have hi' : Apart σ.avail ([] ++ i::post) := hpost
          rw [merge_eq h']
          refine ih _ _ (h'.mergeWith hp hi) (by rw [mergeWith_avail]; exact hpre.left) ?_ hlength
          rw [mergeWith_avail]
          exact apart_cons.2 ⟨(apart_cons.1 hpost).1,fun b hb hboth => by simp [(hi'.neighbours hi).2 b hb] at hboth⟩
        · rw [if_neg havailp]
          have hused : σ.avail p = false := decide_eq_false havailp
          have halign := h'.aligned p (by simp) hused
          rw [if_neg (by omega)]
          have hoffset := h'.offsets p (by simp)
          have hwithinp := h'.tiles.within (a := p) (by simp)
          have hwithini := h'.tiles.within (a := i) (by simp)
          generalize hdst : info.memoryBase + (σ.area i).baseOffset + (σ.area i).size - (σ.area p).size +
            (σ.area p).baseOffset - (σ.area p).offset = dst
          have hmod := Int.emod_nonneg dst (by omega : (σ.area p).align ≠ 0)
          have hnot : ¬(σ.avail p ∧ σ.avail i) := by simp [hused]
          generalize hrounded : dst - dst % (σ.area p).align = rounded
          split
          · exact hmove _ _ hnot
          · next hstay =>
            simp only [Bool.or_eq_true,decide_eq_true_eq,Bool.not_eq_true',not_or] at hstay
            obtain ⟨⟨hright,-⟩,-⟩ := hstay
            simp only [baseOffset,size] at hoffset hwithinp hwithini
            have hadd : (σ.area p).offset + (rounded - (info.memoryBase + (σ.area p).offset)) = rounded - info.memoryBase := by
              omega
            rw [hadd,if_neg (by simp; omega)]
            have hlast : σ.nextBase info i = σ.baseOffset i + σ.size i := by
              have hnext : σ.links.next i = post.head? := h.linked.next
              rw [nextBase,hnext]
              obtain ⟨q,-,htail⟩ := tiles_append.1 h.tiles
              obtain ⟨rfl,-,htail⟩ := htail
              cases post with
              | nil => exact (tiles_nil.1 htail).symm
              | cons next post => exact htail.1
            rw [hlast]
            obtain ⟨hswap,havail⟩ := h'.swap (show σ.baseOffset p < rounded - info.memoryBase by rw [baseOffset]; omega)
              (by simp only [baseOffset,size]; omega) rfl
            refine ih _ _ hswap (by rw [havail]; exact hpre.left) ?_ hlength
            rw [havail]
            exact apart_cons.2 ⟨apart_cons.2 ⟨(apart_cons.1 hpost).1,by simp [hused]⟩,by simp [hused]⟩

lemma defragment_ok (h : Shape info σ l) (hapart : Apart σ.avail l) (createPixmap : Bool)
    (prepareCopy : ℕ → Bool) :
    ∃ result, σ.defragment info createPixmap prepareCopy = .ok result ∧
      ∃ l', Shape info result.2 l' ∧ Apart result.2.avail l' := by
  cases createPixmap with
  | false => exact ⟨(none,σ),rfl,l,h,hapart⟩
  | true =>
    obtain ⟨pre,i,rfl⟩ : ∃ pre i, l = pre ++ [i] := by
      obtain rfl | ⟨pre,i,rfl⟩ := l.eq_nil_or_concat
      · cases h.linked.head
      · exact ⟨pre,i,List.concat_eq_append⟩
    have hlast : σ.links.prev σ.links.head = i := by
      rw [h.linked.head_eq]
      obtain _ | ⟨y,pre⟩ := pre
      · exact h.linked.prev
      · have hy : Shape info σ ([] ++ y::(pre ++ [i])) := h
        rw [List.head?_cons,Option.getD_some,hy.linked.prev,List.append_nil,Links.getLastD_append_cons]
        rfl
    have hlength : pre.length < σ.fresh + 1 := by
      have hsubset : pre ++ [i] ⊆ List.range σ.fresh := fun j hj => List.mem_range.2 (h.fresh j hj)
      have := (List.subperm_of_subset h.linked.nodup hsubset).length_le
      simp only [List.length_append,List.length_cons,List.length_range] at this
      omega
    rw [defragment,if_pos rfl,hlast]
    exact defragmentLoop_ok prepareCopy none 0 h hapart.left apart_singleton hlength

end Xlibre.Exa.ExaScreen

/-! The offscreen areas partition the memory in every run whose allocations stay in the areas they are cut from. -/
namespace Xlibre.Exa.ExaScreen
open Xlibre.Lib Tiling Checked

variable {info : ExaDriver} {σ σ' : ExaScreen} {l : List ℕ} {i : ℕ} {call : Call}

/-- The screen has a list of areas with its shape, of which no two available ones are neighbours. -/
def Valid (info : ExaDriver) (σ : ExaScreen) : Prop := ∃ l, Shape info σ l ∧ Apart σ.avail l

lemma Valid.partitioned (h : Valid info σ) : Partitioned info σ := by
  obtain ⟨l,hshape,hapart⟩ := h
  have hareas := hshape.areas_eq
  exact ⟨hareas ▸ hshape.linked,hareas ▸ hshape.tiles,hareas ▸ hapart,hareas ▸ hshape.counted⟩

lemma init_valid (hlt : info.offScreenBase < info.memorySize) (hint : info.memorySize < 2^31) :
    init info = .ok (whole info) ∧ Valid info (whole info) := by
  have hshape : Shape info (whole info) [0] := by
    refine ⟨⟨by simp,rfl,⟨rfl,trivial⟩,⟨rfl,trivial⟩⟩,by simp [whole],⟨rfl,?_,?_⟩,rfl,fun i _ => ?_,fun i _ hused => ?_⟩
    · simp only [size,whole]
      omega
    · rw [tiles_nil]
      simp only [size,whole]
      omega
    · simp only [size,baseOffset,whole]
      omega
    · cases hused
  refine ⟨?_,[0],hshape,apart_singleton⟩
  rw [init,if_pos hint,hshape.validate]
  rfl

lemma markUsed_valid (h : Valid info σ) : Valid info (σ.markUsed i) := by
  obtain ⟨l,hshape,hapart⟩ := h
  have hsame (j : ℕ) : Same ((σ.markUsed i).area j) (σ.area j) := by
    by_cases heq : j = i
    · subst heq
      have hself : (σ.markUsed j).area j = { σ.area j with lastUse := σ.offScreenCounter } := set_area_self
      rw [hself]
      exact ⟨rfl,rfl,rfl,rfl,rfl⟩
    · have hother : (σ.markUsed i).area j = σ.area j := set_area_of_ne heq
      rw [hother]
      exact ⟨rfl,rfl,rfl,rfl,rfl⟩
  refine ⟨l,hshape.congr (fun j _ => hsame j) rfl rfl rfl,hapart.congr fun j _ => ?_⟩
  rw [avail,avail,(hsame j).2.2.2.1]

lemma step_valid (hbase : 0 ≤ info.offScreenBase) (h : Valid info σ) (henabled : σ.Enabled call) (hfits : σ.Fits info call) :
    ∃ σ', σ.step info call = .ok σ' ∧ Valid info σ' ∧
      (∀ size align isLocked save calloc, call = .alloc size align isLocked save calloc → KeepsLocked σ σ') := by
  have hvalid := h
  obtain ⟨l,hshape,hapart⟩ := h
  have hareas := hshape.areas_eq
  cases call with
  | alloc size align isLocked save calloc =>
    obtain ⟨result,halloc,l',hshape',hapart',hkept⟩ := alloc_ok hbase hshape hapart hfits
    refine ⟨result.2,?_,⟨l',hshape',hapart'⟩,fun _ _ _ _ _ _ i hi hlocked => ?_⟩
    · change (σ.alloc info size align isLocked save calloc >>= _) = _
      rw [halloc]
      rfl
    · rw [hshape'.areas_eq]
      exact hkept i (hareas ▸ hi) hlocked
  | free i =>
    obtain ⟨hi,hused⟩ := henabled
    rw [hareas] at hi
    obtain ⟨pre,post,rfl⟩ := List.append_of_mem hi
    obtain ⟨pre',post',r,σ',-,-,hfree,hjoined⟩ := free_joined hshape hapart hused
    refine ⟨σ',?_,⟨_,hjoined.shape,hjoined.apart⟩,fun _ _ _ _ _ heq => nomatch heq⟩
    change (σ.free info i >>= _) = _
    rw [hfree]
    rfl
  | markUsed i => exact ⟨_,rfl,markUsed_valid hvalid,fun _ _ _ _ _ heq => nomatch heq⟩
  | defragment createPixmap prepareCopy =>
    obtain ⟨result,hdefragment,hresult⟩ := defragment_ok hshape hapart createPixmap prepareCopy
    refine ⟨result.2,?_,hresult,fun _ _ _ _ _ heq => nomatch heq⟩
    change (σ.defragment info createPixmap prepareCopy >>= _) = _
    rw [hdefragment]
    rfl

/-- In every run of calls that fit the areas partition the memory, no assertion fails, and an allocation leaves the locked
areas where they are. -/
theorem partitioned_when_fits (hbase : 0 ≤ info.offScreenBase) (hlt : info.offScreenBase < info.memorySize)
    (hint : info.memorySize < 2^31) :
    (∃ σ, init info = .ok σ) ∧ ∀ σ, Reaches info (Fits info) σ → Partitioned info σ ∧
      ∀ call, σ.Enabled call → σ.Fits info call → ∃ σ', σ.step info call = .ok σ' ∧
        ∀ size align isLocked save calloc, call = .alloc size align isLocked save calloc → KeepsLocked σ σ' := by
  obtain ⟨hinit,hwhole⟩ := init_valid hlt hint
  refine ⟨⟨_,hinit⟩,fun σ hr => ?_⟩
  have hvalid : Valid info σ := by
    induction hr with
    | init h =>
      rw [hinit] at h
      cases h
      exact hwhole
    | step call hr henabled hmeets hstep ih =>
      obtain ⟨σ',hstep',hvalid',-⟩ := step_valid hbase ih henabled hmeets
      rw [hstep] at hstep'
      cases hstep'
      exact hvalid'
  refine ⟨hvalid.partitioned,fun call henabled hfits => ?_⟩
  obtain ⟨σ',hstep,-,hkept⟩ := step_valid hbase hvalid henabled hfits
  exact ⟨σ',hstep,hkept⟩

theorem partitioned_when_fits_small :
    (∃ σ, init ⟨0,1000,1200,true⟩ = .ok σ) ∧ ∀ σ, Reaches ⟨0,1000,1200,true⟩ (Fits ⟨0,1000,1200,true⟩) σ →
      Partitioned ⟨0,1000,1200,true⟩ σ ∧ ∀ call, σ.Enabled call → σ.Fits ⟨0,1000,1200,true⟩ call →
        ∃ σ', σ.step ⟨0,1000,1200,true⟩ call = .ok σ' ∧
          ∀ size align isLocked save calloc, call = .alloc size align isLocked save calloc → KeepsLocked σ σ' :=
  partitioned_when_fits (by decide) (by decide) (by decide)

/-- The place of an allocation is rounded up beyond the end of memory. -/
theorem allocation_beyond_memory : ∃ σ, Reaches ⟨0,1000,1200,true⟩ (fun _ _ => True) σ ∧
    σ.step ⟨0,1000,1200,true⟩ (.alloc 10 64 false true true) = .error .assertion := by
  have hrun : (fun _ => ()) <$> (do
      let σ ← init ⟨0,1000,1200,true⟩
      σ.step ⟨0,1000,1200,true⟩ (.alloc 195 1 false true true)) = .ok () := by decide +kernel
  have hfault : (fun _ => ()) <$> (do
      let σ ← init ⟨0,1000,1200,true⟩
      let σ ← σ.step ⟨0,1000,1200,true⟩ (.alloc 195 1 false true true)
      σ.step ⟨0,1000,1200,true⟩ (.alloc 10 64 false true true)) = .error .assertion := by decide +kernel
  obtain ⟨σ,hσ,-⟩ := map_eq_ok.1 hrun
  obtain ⟨σ₀,hinit,hstep⟩ := bind_eq_ok.1 hσ
  refine ⟨σ,.step (.alloc 195 1 false true true) (.init hinit) trivial trivial hstep,?_⟩
  rw [hinit] at hfault
  change (fun _ => ()) <$> (σ₀.step _ _ >>= _) = _ at hfault
  rw [hstep] at hfault
  change (fun _ => ()) <$> (σ.step ⟨0,1000,1200,true⟩ (.alloc 10 64 false true true)) = _ at hfault
  cases hresult : σ.step ⟨0,1000,1200,true⟩ (.alloc 10 64 false true true) with
  | ok σ' =>
    rw [hresult] at hfault
    cases hfault
  | error e =>
    rw [hresult] at hfault
    cases hfault
    rfl

end Xlibre.Exa.ExaScreen
