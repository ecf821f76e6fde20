import Xlibre.Exa.Free

/-! The area that `exaFindAreaToEvict` returns has enough room in it and in the areas after it, none of which is locked. -/
namespace Xlibre.Exa.ExaScreen
open Xlibre.Lib Tiling Checked

variable {info : ExaDriver} {σ σ₀ σ' : ExaScreen} {l pre post ends begins window seen : List ℕ} {a b i j n r : ℕ}
  {size align real room : ℤ} {cost bestCost : BitVec 32} {best : Option ℕ}

structure Costs (σ σ' : ExaScreen) : Prop where
  links : σ'.links = σ.links
  fresh : σ'.fresh = σ.fresh
  counter : σ'.offScreenCounter = σ.offScreenCounter
  num : σ'.numOffscreenAvailable = σ.numOffscreenAvailable
  same : ∀ j, Same (σ'.area j) (σ.area j)
  locked : ∀ j, σ.locked j → σ'.area j = σ.area j

namespace Costs

lemma refl (σ : ExaScreen) : Costs σ σ := ⟨rfl,rfl,rfl,rfl,fun _ => ⟨rfl,rfl,rfl,rfl,rfl⟩,fun _ _ => rfl⟩

lemma locked_eq (h : Costs σ σ') : σ'.locked = σ.locked := by
  funext j
  rw [ExaScreen.locked,ExaScreen.locked,(h.same j).2.2.2.1]

lemma avail_eq (h : Costs σ σ') : σ'.avail = σ.avail := by
  funext j
  rw [avail,avail,(h.same j).2.2.2.1]

lemma size_eq (h : Costs σ σ') : σ'.size = σ.size := funext fun j => (h.same j).2.2.1

lemma baseOffset_eq (h : Costs σ σ') : σ'.baseOffset = σ.baseOffset := funext fun j => (h.same j).1

lemma total_eq (h : Costs σ σ') : σ'.total l = σ.total l := by rw [total,total,h.size_eq]

lemma realSize_eq (h : Costs σ σ') : σ'.realSize size align i = σ.realSize size align i := by
  rw [realSize,realSize,h.size_eq,h.baseOffset_eq]

lemma reach_eq (h : Costs σ σ') : σ'.reach real size l = σ.reach real size l := by
  induction l generalizing size with
  | nil => rfl
  | cons j l ih => rw [reach,reach,ih,h.avail_eq,h.size_eq]

lemma before_eq (h : Costs σ σ') : σ'.before i pre = σ.before i pre := by rw [before,before,h.avail_eq,h.size_eq]

lemma trans (h : Costs σ₀ σ) (h' : Costs σ σ') : Costs σ₀ σ' := by
  refine ⟨h'.links.trans h.links,h'.fresh.trans h.fresh,h'.counter.trans h.counter,h'.num.trans h.num,fun j => ?_,fun j hj => ?_⟩
  · obtain ⟨h₁,h₂,h₃,h₄,h₅⟩ := h.same j
    obtain ⟨h₁',h₂',h₃',h₄',h₅'⟩ := h'.same j
    exact ⟨h₁'.trans h₁,h₂'.trans h₂,h₃'.trans h₃,h₄'.trans h₄,h₅'.trans h₅⟩
  · rw [h'.locked j (h.locked_eq ▸ hj),h.locked j hj]

lemma shape (h : Costs σ σ') (hshape : Shape info σ l) : Shape info σ' l :=
  hshape.congr (fun j _ => h.same j) h.links h.fresh h.num

end Costs

/-- No area that could be evicted was used as many calls ago as the counter has values. -/
def Aged (σ : ExaScreen) (l : List ℕ) : Prop :=
  ∀ i ∈ l, (σ.area i).state = .removable → (σ.area i).lastUse ≠ σ.offScreenCounter

lemma updateEvictionCost_ok {area : ExaOffscreenArea} (counter : BitVec 32) (hlocked : area.state ≠ .locked)
    (haged : area.state = .removable → area.lastUse ≠ counter) :
    ∃ area', updateEvictionCost area counter = .ok area' ∧ Same area' area ∧
      (area'.state = .removable → area'.lastUse ≠ counter) := by
  unfold updateEvictionCost
  split_ifs with havail
  · exact ⟨area,rfl,⟨rfl,rfl,rfl,rfl,rfl⟩,haged⟩
  · have hremovable : area.state = .removable := by
      cases hstate : area.state <;> simp_all
    have hne := haged hremovable
    dsimp only
    by_cases hlong : counter - area.lastUse > 0x7fffffff#32
    · rw [if_pos hlong]
      refine ⟨_,if_neg (show ¬(0x7fffffff#32 = 0) by decide),⟨rfl,rfl,rfl,rfl,rfl⟩,fun _ heq => ?_⟩
      dsimp only at heq
      bv_omega
    · rw [if_neg hlong]
      refine ⟨_,if_neg ?_,⟨rfl,rfl,rfl,rfl,rfl⟩,haged⟩
      dsimp only
      bv_omega

lemma costs_set {area : ExaOffscreenArea} (hsame : Same area (σ.area i)) (hi : σ.locked i = false) : Costs σ (σ.set i area) := by
  refine ⟨rfl,rfl,rfl,rfl,fun j => ?_,fun j hj => ?_⟩
  · by_cases heq : j = i
    · subst heq
      simpa using hsame
    · rw [set_area_of_ne heq]
      exact ⟨rfl,rfl,rfl,rfl,rfl⟩
  · refine set_area_of_ne ?_
    rintro rfl
    rw [hi] at hj
    cases hj

lemma gather_ok (real room : ℤ) (cost : BitVec 32) (haged : Aged σ ends) : ∃ taken rest room' cost' restart σ',
    gather real ends room cost σ = .ok (rest,room',cost',restart,σ') ∧ ends = taken ++ rest ∧
      (∀ j ∈ taken, σ.locked j = false) ∧ room' = room + σ.total taken ∧
      (restart = true → ∃ j rest', rest = j::rest' ∧ σ.locked j) ∧ (restart = false → rest = [] ∨ real ≤ room') ∧
      Costs σ σ' ∧ (∀ l, Aged σ l → Aged σ' l) ∧
      (room < real → ∀ j ∈ ends.head?, σ.locked j = false → taken ≠ []) := by
  induction ends generalizing room cost σ with
  | nil =>
    exact ⟨[],[],room,cost,false,σ,rfl,rfl,by simp,by simp,by simp,by simp,.refl σ,fun _ h => h,by simp⟩
  | cons i rest ih =>
    rw [gather]
    by_cases hroom : room < real
    · rw [if_pos hroom]
      by_cases hlocked : σ.locked i
      · rw [if_pos hlocked]
        refine ⟨[],i::rest,room,cost,true,σ,rfl,rfl,by simp,by simp,fun _ => ⟨i,rest,rfl,hlocked⟩,by simp,.refl σ,
          fun _ h => h,fun _ j hj hnot => ?_⟩
        obtain rfl := Option.some.inj hj
        rw [hlocked] at hnot
        cases hnot
      · rw [if_neg hlocked]
        have hunlocked : σ.locked i = false := by simpa using hlocked
        obtain ⟨area,harea,hsame,hage⟩ := updateEvictionCost_ok σ.offScreenCounter
          (by simpa [locked] using hlocked) (haged i List.mem_cons_self)
        have hcosts := costs_set hsame hunlocked
        have hagedset (l : List ℕ) (h : Aged σ l) : Aged (σ.set i area) l := by
          intro j hj hstate
          by_cases heq : j = i
          · subst heq
            rw [set_area_self] at hstate ⊢
            exact hage hstate
          · rw [set_area_of_ne heq] at hstate ⊢
            exact h j hj hstate
        obtain ⟨taken,rest',room',cost',restart,σ',hgather,rfl,htaken,hroom',hrestart,hdone,hcosts',haged',-⟩ :=
          ih (room + σ.size i) (cost + area.evictionCost)
            (hagedset rest fun j hj => haged j (List.mem_cons_of_mem i hj))
        rw [harea]
        refine ⟨i::taken,rest',room',cost',restart,σ',hgather,rfl,?_,?_,?_,hdone,hcosts.trans hcosts',
          fun l h => haged' l (hagedset l h),by simp⟩
        · rw [hcosts.locked_eq] at htaken
          exact List.forall_mem_cons.2 ⟨hunlocked,htaken⟩
        · rw [hroom',hcosts.total_eq,total_cons]
          omega
        · rw [hcosts.locked_eq] at hrestart
          exact hrestart
    · rw [if_neg hroom]
      exact ⟨[],i::rest,room,cost,false,σ,rfl,rfl,by simp,by simp,by simp,fun _ => .inr (not_lt.1 hroom),.refl σ,
        fun _ h => h,fun h => absurd h hroom⟩

/-- There is enough room in an area and in those after it, and none of them is locked. -/
def Evictable (σ : ExaScreen) (size align : ℤ) (l : List ℕ) (b : ℕ) : Prop :=
  ∃ pre run post, l = pre ++ b::(run ++ post) ∧ σ.locked b = false ∧ (∀ j ∈ run, σ.locked j = false) ∧
    σ.realSize size align b ≤ σ.size b + σ.total run

lemma Costs.evictable (h : Costs σ σ') : Evictable σ' size align l = Evictable σ size align l := by
  funext b
  simp only [Evictable,h.locked_eq,h.realSize_eq,h.size_eq,h.total_eq]

lemma findLoop_ok (seen window ends : List ℕ) (room : ℤ) (cost : BitVec 32) (best : Option ℕ) (bestCost : BitVec 32)
    (hl : l = seen ++ (window ++ ends)) (hpos : ∀ i ∈ l, 0 < σ.realSize size align i)
    (hwindow : ∀ j ∈ window, σ.locked j = false) (hroom : room = σ.total window) (haged : Aged σ l)
    (hbest : ∀ b, best = some b → Evictable σ size align l b) (hn : (window ++ ends).length < n) :
    ∃ r σ', findLoop size align n (window ++ ends) ends room cost best bestCost σ = .ok (r,σ') ∧ Costs σ σ' ∧
      ∀ b, r = some b → Evictable σ size align l b := by
  induction n generalizing seen window ends room cost best bestCost σ with
  | zero => exact absurd hn (Nat.not_lt_zero _)
  | succ n ih =>
    cases ends with
    | nil =>
      refine ⟨best,σ,?_,.refl σ,hbest⟩
      cases window <;> rfl
    | cons e ends =>
      -- the first area that is looked at from here
      obtain ⟨b,begins,hbegins⟩ : ∃ b begins, window ++ e::ends = b::begins := by
        cases window <;> exact ⟨_,_,rfl⟩
      by_cases hlocked : σ.locked b
      · have hnil : window = [] := by
          cases window with
          | nil => rfl
          | cons w window =>
            obtain rfl := (List.cons.inj hbegins).1
            rw [hwindow w List.mem_cons_self] at hlocked
            cases hlocked
        subst hnil
        obtain ⟨rfl,rfl⟩ := List.cons.inj hbegins
        rw [List.nil_append,findLoop,if_pos hlocked]
        exact ih (seen ++ [e]) [] ends room cost best bestCost (by simpa using hl) hpos (by simp) (by simpa using hroom) haged hbest
          (by simpa using hn)
      · rw [hbegins,findLoop,if_neg hlocked]
        have hb : σ.locked b = false := by simpa using hlocked
        obtain ⟨taken,rest,room',cost',restart,σ',hgather,heq,htaken,hroom',hrestart,hdone,hcosts,haged',hfirst⟩ :=
          gather_ok (σ.realSize size align b) room cost
            (fun j hj => haged j (by rw [hl]; simp only [List.mem_append]; tauto) : Aged σ (e::ends))
        have hwindow' : ∃ window', window ++ taken = b::window' := by
          cases window with
          | nil =>
            obtain rfl := (List.cons.inj hbegins).1
            have htaken : taken ≠ [] := by
              refine hfirst ?_ e rfl hb
              rw [hroom]
              exact hpos e (by rw [hl]; simp)
            obtain ⟨t,ts,rfl⟩ := List.exists_cons_of_ne_nil htaken
            obtain rfl := (List.cons.inj heq).1
            exact ⟨ts,rfl⟩
          | cons w window =>
            obtain rfl := (List.cons.inj hbegins).1
            exact ⟨window ++ taken,rfl⟩
        obtain ⟨window',hwindow'⟩ := hwindow'
        have hbegins' : begins = window' ++ rest := by
          rw [heq,← List.append_assoc,hwindow',List.cons_append] at hbegins
          exact (List.cons.inj hbegins).2.symm
        have hunlocked : ∀ j ∈ b::window', σ.locked j = false := by
          rw [← hwindow']
          exact List.forall_mem_append.2 ⟨hwindow,htaken⟩
        have htotal : room' = σ.size b + σ.total window' := by
          rw [hroom',hroom,← total_cons,← hwindow']
          simp [total]
        have hl' : l = seen ++ (b::window' ++ rest) := by rw [hl,hbegins,hbegins',List.cons_append]
        have hpos' : ∀ i ∈ l, 0 < σ'.realSize size align i := fun i hi => by
          rw [hcosts.realSize_eq]
          exact hpos i hi
        have hlength : rest.length < n := by
          rw [hbegins,hbegins'] at hn
          simp only [List.length_cons,List.length_append] at hn
          omega
        change ∃ r σ'', (gather (σ.realSize size align b) (e::ends) room cost σ >>= _) = _ ∧ _
        rw [hgather]
        cases restart with
        | true =>
          obtain ⟨r,σ'',hloop,hcosts',hr⟩ := ih (seen ++ b::window') [] rest 0 0 best bestCost (by simpa using hl') hpos' (by simp) rfl (haged' l haged)
            (fun b hb => hcosts.evictable ▸ hbest b hb) hlength
          exact ⟨r,σ'',hloop,hcosts.trans hcosts',fun b hb => hcosts.evictable ▸ hr b hb⟩
        | false =>
          have hbest' : ∀ c, (if σ.realSize size align b ≤ room' && cost' < bestCost then some b else best) = some c →
              Evictable σ size align l c := by
            intro c hc
            split_ifs at hc with hbetter
            · obtain rfl := Option.some.inj hc
              rw [Bool.and_eq_true,decide_eq_true_eq] at hbetter
              exact ⟨seen,window',rest,by simpa using hl',hb,fun j hj => hunlocked j (List.mem_cons_of_mem b hj),
                htotal ▸ hbetter.1⟩
            · exact hbest c hc
          subst hbegins'
          obtain ⟨r,σ'',hloop,hcosts',hr⟩ := ih (seen ++ [b]) window' rest (room' - σ'.size b) _ _ _
            (by simpa using hl') hpos'
            (fun j hj => hcosts.locked_eq ▸ hunlocked j (List.mem_cons_of_mem b hj))
            (by rw [hcosts.size_eq,hcosts.total_eq,htotal]; omega) (haged' l haged)
            (fun c hc => hcosts.evictable ▸ hbest' c hc)
            (by rw [hbegins,List.length_cons] at hn; omega)
          exact ⟨r,σ'',hloop,hcosts.trans hcosts',fun b hb => hcosts.evictable ▸ hr b hb⟩

lemma realSize_pos (hsize : 0 < size) (hend : 0 < σ.baseOffset i + σ.size i) : 0 < σ.realSize size align i := by
  unfold realSize
  by_cases h : 0 ≤ σ.baseOffset i + σ.size i - size
  · have := Int.tmod_nonneg align h
    omega
  · -- the remainder of a negative number is not below it
    have hrest := Int.natAbs_tmod (σ.baseOffset i + σ.size i - size) align
    have hle := Nat.mod_le (σ.baseOffset i + σ.size i - size).natAbs align.natAbs
    omega

variable (align) in
lemma findAreaToEvict_ok (hbase : 0 ≤ info.offScreenBase) (h : Shape info σ l) (hsize : 0 < size) (haged : Aged σ l) :
    ∃ found σ', σ.findAreaToEvict size align = .ok (found,σ') ∧ Costs σ σ' ∧
      ∀ b, found = some b → Evictable σ size align l b := by
  have hpos : ∀ i ∈ l, 0 < σ.realSize size align i := by
    intro i hi
    have := h.tiles.within hi
    exact realSize_pos hsize (by omega)
  rw [findAreaToEvict,h.areas_eq]
  exact findLoop_ok [] [] l 0 0 none (BitVec.allOnes 32) rfl hpos (by simp) rfl haged (by simp) (Nat.lt_succ_self _)

end Xlibre.Exa.ExaScreen
