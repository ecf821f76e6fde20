import Xlibre.Mi.Poly.Active

/-! One scanline: every active edge is passed once, and left or run one line down. -/
namespace Xlibre.Mi.Poly

open Lib.Links

/-- The edges of a list that go on below scanline `y`. -/
def staying (h : Heap) (y : ℤ) (l : List Node) : List Node := l.filter fun n => decide (h.ymax n ≠ y)

@[simp] lemma staying_nil (h : Heap) (y : ℤ) : staying h y [] = [] := rfl

lemma staying_append (h : Heap) (y : ℤ) (l l' : List Node) : staying h y (l ++ l') = staying h y l ++ staying h y l' :=
  List.filter_append ..

lemma staying_single (h : Heap) (y : ℤ) (x : Node) : staying h y [x] = if h.ymax x = y then [] else [x] := by
  by_cases hx : h.ymax x = y <;> simp [staying,hx]

/-- Scanline `y` from heap `h₀`: the edges `done` have been passed, `rest` has not, and `p` is `pPrevAET`. -/
structure LineAt (h₀ : Heap) (y : ℤ) (done rest : List Node) (h : Heap) (p : Node) : Prop where
  active : Active h (staying h₀ y done ++ rest)
  last : (staying h₀ y done).getLastD .aet = p
  ymax : h.ymax = h₀.ymax
  clockWise : h.clockWise = h₀.clockWise
  wete : h.nextWETE = h₀.nextWETE
  bres : ∀ n, h.bres n = if n ∈ done ∧ h₀.ymax n ≠ y then bresIncrPgon (h₀.bres n) else h₀.bres n
  nodup : (Node.aet::(done ++ rest)).Nodup
  frame : ∀ n, n ∉ Node.aet::(done ++ rest) → h.next n = h₀.next n

variable {h₀ h : Heap} {y : ℤ} {done rest l : List Node} {p x : Node}

lemma LineAt.start (hA : Active h l) : LineAt h y [] l h .aet :=
  ⟨hA,rfl,rfl,rfl,rfl,fun n => by simp,hA.nodup,fun _ _ => rfl⟩

lemma LineAt.minor (hL : LineAt h₀ y done rest h p) (hx : x ∈ rest) : h.minor x = h₀.minor x := by
  have hnot : x ∉ done := fun hd => (List.nodup_append'.1 (List.nodup_cons.1 hL.nodup).2).2.2 hd hx
  simp only [Heap.minor,hL.bres,hnot,false_and,if_false]

lemma LineAt.evaluate (hL : LineAt h₀ y done (x::rest) h p) :
    LineAt h₀ y (done ++ [x]) rest (evaluateEdge h x p y).1 (evaluateEdge h x p y).2.2.1 ∧
    (evaluateEdge h x p y).2.1 = rest.head? ∧ (evaluateEdge h x p y).2.2.2 = decide (h₀.ymax x = y) := by
  have hnextx : h.next x = rest.head? := hL.active.next
  have hnodup : (Node.aet::(done ++ [x] ++ rest)).Nodup := by simpa using hL.nodup
  have hmem : ∀ n, n ∉ Node.aet::(done ++ [x] ++ rest) → n ∉ Node.aet::(done ++ x::rest) := fun n hn => by simpa using hn
  have hxdone : x ∉ done := fun hd =>
    (List.nodup_append'.1 (List.nodup_cons.1 hL.nodup).2).2.2 hd List.mem_cons_self
  by_cases hx : h₀.ymax x = y
  · have hunlink : evaluateEdge h x p y = (unlink h p rest.head?,rest.head?,p,true) := by
      unfold evaluateEdge unlink
      rw [hL.ymax,if_pos hx,hnextx]
      cases rest.head? <;> simp [Heap.setNext]
    have hstay : staying h₀ y (done ++ [x]) = staying h₀ y done := by
      rw [staying_append,staying_single,if_pos hx,List.append_nil]
    have hs := unlink_sameEdges h p rest.head?
    rw [hunlink]
    refine ⟨⟨?_,?_,hs.ymax.trans hL.ymax,hs.clockWise.trans hL.clockWise,
      (unlink_nextWETE h p rest.head?).trans hL.wete,?_,hnodup,?_⟩,rfl,by simp [hx]⟩
    · rw [hstay]
      exact hL.active.unlink hL.last
    · rw [hstay]
      exact hL.last
    · intro n
      rw [hs.bres,hL.bres]
      by_cases hn : n = x
      · subst hn
        simp [hx]
      · simp [hn]
    · intro n hn
      have hnp : n ≠ p := by
        rintro rfl
        apply hn
        have hmem := getLastD_mem (l := staying h₀ y done) (a := Node.aet)
        rw [hL.last] at hmem
        obtain heq | hmem := List.mem_cons.1 hmem
        · simp [heq]
        · simp [(List.mem_filter.1 hmem).1]
      rw [unlink_next,Function.update_of_ne hnp,hL.frame n (hmem n hn)]
  · have hrun : evaluateEdge h x p y = (h.setBres x (bresIncrPgon (h.bres x)),rest.head?,x,false) := by
      unfold evaluateEdge
      rw [hL.ymax,if_neg hx]
      simp [Heap.setBres,hnextx]
    have hstay : staying h₀ y (done ++ [x]) = staying h₀ y done ++ [x] := by
      rw [staying_append,staying_single,if_neg hx]
    rw [hrun]
    refine ⟨⟨?_,by simp [hstay],hL.ymax,hL.clockWise,hL.wete,?_,hnodup,fun n hn => hL.frame n (hmem n hn)⟩,rfl,
      by simp [hx]⟩
    · rw [hstay,List.append_assoc]
      exact hL.active.congr (fun _ _ => rfl) (fun _ _ => rfl)
    · intro n
      by_cases hn : n = x
      · subst hn
        have hold : h.bres n = h₀.bres n := by rw [hL.bres]; simp [hxdone]
        simp [Heap.setBres,hx,hold]
      · simp [Heap.setBres,hn,hL.bres]

def Out.all (out : Out) : List Span := out.sent ++ out.buffer

lemma Out.all_put (out : Out) (s : Span) : (out.put s).all = out.all ++ [s] := by
  unfold Out.put Out.all
  split_ifs <;> simp

lemma Out.put_fits {out : Out} (hout : out.buffer.length < numPtsToBuffer) (s : Span) :
    (out.put s).buffer.length < numPtsToBuffer := by
  unfold Out.put
  split_ifs with hfull
  · simp [numPtsToBuffer]
  · simp only [List.length_append,List.length_singleton]
    omega

def pairSpans (h : Heap) (y : ℤ) : List Node → List Span
  | a::b::l => ⟨h.minor a,y,h.minor b-h.minor a⟩ :: pairSpans h y l
  | _ => []

/-- The even-odd rule draws between edges taken in pairs. -/
theorem evenOddLine_pairs {n : ℕ} {o : Out} (hL : LineAt h₀ y done rest h p) (heven : Even rest.length)
    (hn : rest.length < n) (hout : o.buffer.length < numPtsToBuffer) :
    ∃ h' out' p', evenOddLine y n h o p rest.head? = some (h',out') ∧ LineAt h₀ y (done ++ rest) [] h' p' ∧
      out'.all = o.all ++ pairSpans h₀ y rest ∧ out'.buffer.length < numPtsToBuffer := by
  induction n generalizing h o p done rest with
  | zero => omega
  | succ n ih =>
    match rest with
    | [] =>
      refine ⟨h,o,p,rfl,?_,by simp [pairSpans],hout⟩
      rw [List.append_nil]
      exact hL
    | [a] => simp at heven
    | a::b::rest =>
      have hnexta : h.next a = some b := hL.active.next
      obtain ⟨hL₁,hhead₁,-⟩ := hL.evaluate
      obtain ⟨hL₂,hhead₂,-⟩ := hL₁.evaluate
      have heven' : Even rest.length := by
        simp only [List.length_cons] at heven
        exact (Nat.even_add (m := rest.length) (n := 2)).1 heven |>.2 even_two
      obtain ⟨h',out',p',hline,hL',hall,hout'⟩ := ih (o := o.put ⟨h.minor a,y,h.minor b-h.minor a⟩) hL₂ heven'
        (by simp at hn; omega) (Out.put_fits hout _)
      refine ⟨h',out',p',?_,by simpa using hL',?_,hout'⟩
      · simp only [List.head?_cons,evenOddLine,hnexta,hhead₁,hhead₂,Option.bind_eq_bind,Option.bind_some,hline]
      · rw [hall,Out.all_put,hL.minor (by simp),hL.minor (by simp)]
        simp [pairSpans]

/-- The change of the winding number at an edge. -/
def turn (h : Heap) (n : Node) : ℤ := if h.clockWise n then 1 else -1

/-- The edges at which the winding number becomes zero, or stops being zero. -/
def toggles (h : Heap) : Bool → ℤ → List Node → List Node
  | _, _, [] => []
  | inside, s, a::l =>
    if (!inside && s+turn h a == 0) || (inside && s+turn h a != 0) then a :: toggles h (!inside) (s+turn h a) l
    else toggles h inside (s+turn h a) l

lemma toggles_congr {h h' : Heap} (hc : h'.clockWise = h.clockWise) : toggles h' = toggles h := by
  have hturn : turn h' = turn h := by
    funext n
    simp only [turn,hc]
  funext inside s l
  induction l generalizing inside s with
  | nil => rfl
  | cons a l ih => simp only [toggles,hturn,ih]

lemma toggles_sublist (h : Heap) (inside : Bool) (s : ℤ) (l : List Node) : (toggles h inside s l).Sublist l := by
  induction l generalizing inside s with
  | nil => exact List.Sublist.refl _
  | cons a l ih =>
    rw [toggles]
    split_ifs
    · exact (ih _ _).cons_cons a
    · exact (ih _ _).cons a

lemma windingLoop_links {n : ℕ} {i : Bool} {s : ℤ} (hl : Nexts h.next l none) (hnodup : (p::l).Nodup)
    (hn : l.length < n) :
    ∃ f, windingLoop n h i s p l.head? = some { h with nextWETE := f } ∧
      Nexts f (p::toggles h i s l) none ∧ ∀ m, m ∉ p::l → f m = h.nextWETE m := by
  induction n generalizing h p l i s with
  | zero => omega
  | succ n ih =>
    cases l with
    | nil =>
      refine ⟨Function.update h.nextWETE p none,rfl,⟨by simp [toggles],trivial⟩,fun m hm => ?_⟩
      rw [List.mem_singleton] at hm
      exact Function.update_of_ne hm _ _
    | cons a l =>
      have hnext : h.next a = l.head? := by simpa using hl.1
      obtain ⟨hp,hal⟩ := List.nodup_cons.1 hnodup
      have hturn : (if h.clockWise a then s+1 else s-1) = s+turn h a := by
        unfold turn
        split_ifs <;> rfl
      by_cases htoggle : ((!i && s+turn h a == 0) || (i && s+turn h a != 0)) = true
      · obtain ⟨f,hloop,hf,hframe⟩ := ih (h := h.setWETE p (some a)) (p := a) (l := l) (i := !i)
          (s := s+turn h a) hl.2 hal (by simp at hn; omega)
        refine ⟨f,?_,?_,fun m hm => ?_⟩
        · simp only [List.head?_cons,windingLoop,hturn,htoggle,if_true,hnext]
          exact hloop
        · rw [toggles,if_pos htoggle]
          refine ⟨?_,toggles_congr (show (h.setWETE p (some a)).clockWise = h.clockWise from rfl) ▸ hf⟩
          rw [hframe p hp]
          simp [Heap.setWETE]
        · rw [List.mem_cons,not_or] at hm
          rw [hframe m hm.2]
          exact Function.update_of_ne hm.1 _ _
      · obtain ⟨f,hloop,hf,hframe⟩ := ih (h := h) (p := p) (l := l) (i := i) (s := s+turn h a) hl.2
          (List.nodup_cons.2 ⟨fun hm => hp (List.mem_cons_of_mem a hm),(List.nodup_cons.1 hal).2⟩) (by simp at hn; omega)
        refine ⟨f,?_,?_,fun m hm => hframe m fun hin => hm ?_⟩
        · simp only [List.head?_cons,windingLoop,hturn,hnext]
          rw [if_neg htoggle]
          exact hloop
        · rw [toggles,if_neg htoggle]
          exact hf
        · obtain rfl | hin := List.mem_cons.1 hin
          · simp
          · simp [hin]

/-- The winding links of the active edges. -/
def Wound (h : Heap) (l : List Node) : Prop := Nexts h.nextWETE (.aet::toggles h true 0 l) none

/-- `micomputeWAET` -/
theorem micomputeWAET_wound {fuel : ℕ} (hA : Active h l) (hfuel : l.length < fuel) :
    ∃ f, micomputeWAET fuel h = some { h with nextWETE := f } ∧ Wound { h with nextWETE := f } l := by
  have hl : Nexts h.next l none := hA.nexts.2
  obtain ⟨f,hloop,hf,-⟩ := windingLoop_links (h := h.setWETE .aet none) (p := .aet) (i := true) (s := 0) hl
    hA.nodup hfuel
  refine ⟨f,?_,?_⟩
  · rw [micomputeWAET,hA.head]
    exact hloop
  · have hbefore : toggles (h.setWETE .aet none) = toggles h := toggles_congr rfl
    have hafter : toggles { h with nextWETE := f } = toggles h := toggles_congr rfl
    rw [Wound,hafter,← hbefore]
    exact hf

/-- The sum of the turns. -/
def total (h : Heap) (l : List Node) : ℤ := (l.map (turn h)).sum

@[simp] lemma total_nil (h : Heap) : total h [] = 0 := rfl

@[simp] lemma total_cons (h : Heap) (a : Node) (l : List Node) : total h (a::l) = turn h a+total h l := by
  simp [total]

lemma toggles_leave {h : Heap} {s : ℤ} (hs : s ≠ 0) (htotal : s+total h l = 0) :
    ∃ mid b rest, l = mid ++ b::rest ∧ toggles h false s l = b::toggles h true 0 rest ∧ total h rest = 0 := by
  induction l generalizing s with
  | nil => exact absurd (by simpa using htotal) hs
  | cons a l ih =>
    rw [total_cons,← add_assoc] at htotal
    by_cases hzero : s+turn h a = 0
    · refine ⟨[],a,l,rfl,?_,by omega⟩
      rw [toggles,hzero]
      rfl
    · obtain ⟨mid,b,rest,rfl,htoggles,hrest⟩ := ih hzero htotal
      refine ⟨a::mid,b,rest,rfl,?_,hrest⟩
      rw [toggles,if_neg (by simp [hzero]),htoggles]

lemma toggles_enter (h : Heap) (a : Node) (l : List Node) :
    toggles h true 0 (a::l) = a::toggles h false (turn h a) l ∧ turn h a ≠ 0 := by
  have hturn : turn h a ≠ 0 := by
    unfold turn
    split_ifs <;> decide
  refine ⟨?_,hturn⟩
  rw [toggles,if_pos (by simp [hturn]),zero_add]
  rfl

/-- Whether one of the edges is left on the scanline. -/
def leaves (h : Heap) (y : ℤ) (l : List Node) : Bool := l.any fun n => decide (h.ymax n = y)

lemma skipTo_passes {n : ℕ} {f : Bool} {mid : List Node} {b : Node} (hL : LineAt h₀ y done (mid ++ b::rest) h p)
    (hn : mid.length < n) :
    ∃ a h' p', (mid ++ b::rest).head? = some a ∧ skipTo y b n h a p f = some (h',b,p',f || leaves h₀ y mid) ∧
      LineAt h₀ y (done ++ mid) (b::rest) h' p' := by
  induction n generalizing h p f done mid with
  | zero => omega
  | succ n ih =>
    cases mid with
    | nil =>
      refine ⟨b,h,p,rfl,by simp [skipTo,leaves],?_⟩
      rw [List.append_nil]
      exact hL
    | cons a mid =>
      have hab : b ≠ a := by
        rintro rfl
        have hnodup := (List.nodup_append'.1 (List.nodup_cons.1 hL.nodup).2).2.1
        simp at hnodup
      rw [List.cons_append] at hL
      obtain ⟨hL₁,hhead,hleft⟩ := hL.evaluate
      obtain ⟨a',h',p',ha',hskip,hL'⟩ := ih (f := f || decide (h₀.ymax a = y)) hL₁ (by simp at hn; omega)
      refine ⟨a,h',p',rfl,?_,by simpa using hL'⟩
      simp only [skipTo,hab,if_false,hhead,ha',hleft,Option.bind_eq_bind,Option.bind_some,hskip,leaves,
        List.any_cons,Bool.or_assoc]

/-- The winding rule draws between the edges of its links, taken in pairs. -/
theorem windingLine_pairs {n : ℕ} {o : Out} {f : Bool} (hL : LineAt h₀ y done rest h p)
    (hwound : Nexts h₀.nextWETE (toggles h₀ true 0 rest) none) (htotal : total h₀ rest = 0)
    (hn : rest.length < n) (hout : o.buffer.length < numPtsToBuffer) :
    ∃ h' out' p', windingLine y n h o p rest.head? (toggles h₀ true 0 rest).head? f =
        some (h',out',f || leaves h₀ y rest) ∧ LineAt h₀ y (done ++ rest) [] h' p' ∧
      out'.all = o.all ++ pairSpans h₀ y (toggles h₀ true 0 rest) ∧ out'.buffer.length < numPtsToBuffer := by
  induction n generalizing h o p done rest f with
  | zero => omega
  | succ n ih =>
    cases rest with
    | nil =>
      refine ⟨h,o,p,by simp [windingLine,leaves],?_,by simp [toggles,pairSpans],hout⟩
      rw [List.append_nil]
      exact hL
    | cons a rest =>
      obtain ⟨henter,hturn⟩ := toggles_enter h₀ a rest
      rw [total_cons] at htotal
      obtain ⟨mid,b,rest,rfl,hleave,htotal'⟩ := toggles_leave hturn htotal
      rw [henter,hleave] at hwound ⊢
      have hnexta : h.nextWETE a = some b := by
        rw [hL.wete]
        simpa using hwound.1
      have hnextb : h₀.nextWETE b = (toggles h₀ true 0 rest).head? := by simpa using hwound.2.1
      have hL₀ : LineAt h₀ y done ((a::mid) ++ b::rest) h p := hL
      obtain ⟨a',h₁,p₁,ha',hskip,hL₁⟩ := skipTo_passes (n := n) (f := f) hL₀ (by simp at hn ⊢; omega)
      obtain rfl : a = a' := Option.some.inj ha'
      obtain ⟨hL₂,hhead,hleft⟩ := hL₁.evaluate
      obtain ⟨h',out',p',hline,hL',hall,hout'⟩ := ih (f := f || leaves h₀ y (a::mid) || decide (h₀.ymax b = y))
        (o := o.put ⟨h.minor a,y,h.minor b-h.minor a⟩) hL₂ hwound.2.2 htotal' (by simp at hn; omega)
        (Out.put_fits hout _)
      have hleaves : (f || leaves h₀ y (a::(mid ++ b::rest))) =
          (f || leaves h₀ y (a::mid) || decide (h₀.ymax b = y) || leaves h₀ y rest) := by
        simp only [leaves,List.any_append,List.any_cons,Bool.or_assoc]
      refine ⟨h',out',p',?_,?_,?_,hout'⟩
      · rw [hleaves]
        simp only [List.head?_cons,windingLine,if_true,hnexta,Option.bind_eq_bind,Option.bind_some,hskip,
          hL₁.wete,hnextb,hhead,hleft,hline]
      · simpa using hL'
      · rw [hall,Out.all_put,hL.minor (by simp),hL.minor (by simp)]
        simp [pairSpans]

end Xlibre.Mi.Poly
