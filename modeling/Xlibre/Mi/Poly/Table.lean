import Xlibre.Mi.Poly.Active

/-! `miCreateETandAET`: the buckets of the edge table hold the sides of the polygon that are not horizontal. -/
namespace Xlibre.Mi.Poly

open Lib.Links

structure Side where
  prev : Point
  curr : Point
  deriving DecidableEq, Repr

namespace Side

def top (s : Side) : Point := if s.prev.y > s.curr.y then s.curr else s.prev

def bottom (s : Side) : Point := if s.prev.y > s.curr.y then s.prev else s.curr

def clockWise (s : Side) : Bool := !decide (s.prev.y > s.curr.y)

/-- The side crosses scanline `y`. -/
def Active (s : Side) (y : ℤ) : Prop := s.top.y ≤ y ∧ y < s.bottom.y

instance (s : Side) (y : ℤ) : Decidable (s.Active y) := by unfold Active; infer_instance

/-- The side's error terms at its top. -/
def start (s : Side) : BresInfo := bresInitPgon (s.bottom.y-s.top.y) s.top.x s.bottom.x

end Side

def sides : Point → List Point → List Side
  | _, [] => []
  | prev, curr::pts => ⟨prev,curr⟩ :: sides curr pts

def polygon (pts : List Point) : List Side :=
  match pts.getLast? with
  | some last => sides last pts
  | none => []

/-- Buckets: scanlines in order, each with its edges sorted by `minor`. -/
structure Buckets (h : Heap) (bs : List (ℤ × List Node)) : Prop where
  lists : ∀ b ∈ bs, Nexts h.next b.2 none ∧ Sorted h b.2
  order : bs.Pairwise fun b c => b.1 < c.1
  nodup : (bs.flatMap Prod.snd).Nodup

/-- The `ScanLineList`s of buckets. -/
def heads (bs : List (ℤ × List Node)) : List ScanLineList := bs.map fun b => ⟨b.1,b.2.head?⟩

/-- Edge `n` is in the bucket of scanline `t`. -/
def InBucket (bs : List (ℤ × List Node)) (t : ℤ) (n : Node) : Prop := ∃ b ∈ bs, b.1 = t ∧ n ∈ b.2

variable {h h' : Heap} {bs : List (ℤ × List Node)} {e : Node}

lemma inBucket_cons {b : ℤ × List Node} {t : ℤ} {n : Node} :
    InBucket (b::bs) t n ↔ b.1 = t ∧ n ∈ b.2 ∨ InBucket bs t n :=
  List.exists_mem_cons_iff ..

lemma mem_flatMap_iff {n : Node} : n ∈ bs.flatMap Prod.snd ↔ ∃ t, InBucket bs t n := by
  simp only [List.mem_flatMap,InBucket]
  constructor
  · rintro ⟨b,hb,hn⟩
    exact ⟨b.1,b,hb,rfl,hn⟩
  · rintro ⟨t,b,hb,-,hn⟩
    exact ⟨b,hb,hn⟩

lemma Buckets.congr (hB : Buckets h bs) (hnext : ∀ n ∈ bs.flatMap Prod.snd, h'.next n = h.next n)
    (hminor : ∀ n ∈ bs.flatMap Prod.snd, h'.minor n = h.minor n) : Buckets h' bs := by
  refine ⟨fun b hb => ⟨(hB.lists b hb).1.congr fun n hn => ?_,(hB.lists b hb).2.imp_of_mem fun ha hc hac => ?_⟩,
    hB.order,hB.nodup⟩
  · exact hnext n (List.mem_flatMap.2 ⟨b,hb,hn⟩)
  · rwa [hminor _ (List.mem_flatMap.2 ⟨b,hb,ha⟩),hminor _ (List.mem_flatMap.2 ⟨b,hb,hc⟩)]

lemma bucketPlace_split {l : List Node} {n : ℕ} {p : Option Node} (hl : Nexts h.next l none) (hs : Sorted h l)
    (hn : l.length < n) :
    ∃ p₁ p₂, l = p₁ ++ p₂ ∧ bucketPlace h e n p l.head? = some (p₁.getLast?.or p,p₂.head?) ∧
      (∀ m ∈ p₁, h.minor m < h.minor e) ∧ ∀ m ∈ p₂, h.minor e ≤ h.minor m := by
  induction n generalizing l p with
  | zero => omega
  | succ n ih =>
    cases l with
    | nil => exact ⟨[],[],rfl,rfl,by simp,by simp⟩
    | cons a l =>
      obtain ⟨ha,hs'⟩ := List.pairwise_cons.1 hs
      have hnext : h.next a = l.head? := by simpa using hl.1
      by_cases hlt : h.minor a < h.minor e
      · obtain ⟨p₁,p₂,rfl,hplace,h₁,h₂⟩ := ih (p := some a) hl.2 hs' (by simp at hn; omega)
        refine ⟨a::p₁,p₂,rfl,?_,?_,h₂⟩
        · simp only [List.head?_cons,bucketPlace,hlt,if_true,hnext,hplace]
          cases hp : p₁.getLast? with
          | none =>
            rw [List.getLast?_eq_none_iff] at hp
            subst hp
            rfl
          | some b => simp [List.getLast?_cons,hp]
        · intro m hm
          obtain rfl | hm := List.mem_cons.1 hm
          · exact hlt
          · exact h₁ m hm
      · refine ⟨[],a::l,rfl,by simp [bucketPlace,hlt],by simp,fun m hm => ?_⟩
        obtain rfl | hm := List.mem_cons.1 hm
        · exact not_lt.1 hlt
        · exact (not_lt.1 hlt).trans (ha m hm)

lemma insertInBucket_insert {l : List Node} {fuel : ℕ} (hl : Nexts h.next l none) (hs : Sorted h l) (hnodup : l.Nodup)
    (hnew : e ∉ l) (hfuel : l.length < fuel) :
    ∃ f l', insertInBucket fuel h l.head? e = some ({ h with next := f },l'.head?) ∧ Nexts f l' none ∧
      l'.Perm (e::l) ∧ Sorted h l' ∧ ∀ n, n ∉ e::l → f n = h.next n := by
  obtain ⟨p₁,p₂,rfl,hplace,h₁,h₂⟩ := bucketPlace_split (e := e) (p := none) hl hs hfuel
  have hsorted : Sorted h (p₁ ++ e::p₂) := by
    rw [Sorted,List.pairwise_append] at hs ⊢
    refine ⟨hs.1,List.pairwise_cons.2 ⟨h₂,hs.2.1⟩,fun a ha b hb => ?_⟩
    obtain rfl | hb := List.mem_cons.1 hb
    · exact (h₁ a ha).le
    · exact hs.2.2 a ha b hb
  rw [List.mem_append,not_or] at hnew
  obtain ⟨hn₁,hn₂,hdisjoint⟩ := List.nodup_append'.1 hnodup
  rw [nexts_append] at hl
  have htail : ∀ f : Node → Option Node, f e = p₂.head? → (∀ n ∈ p₂, f n = h.next n) → Nexts f (e::p₂) none := by
    intro f he hf
    exact ⟨by simpa using he,hl.2.congr hf⟩
  obtain rfl | ⟨p₁,a,rfl⟩ := p₁.eq_nil_or_concat
  · refine ⟨Function.update h.next e p₂.head?,e::p₂,?_,?_,List.Perm.refl _,hsorted,fun n hn => ?_⟩
    · simp only [insertInBucket,hplace]
      rfl
    · apply htail
      · simp
      · intro n hn
        exact Function.update_of_ne (ne_of_mem_of_not_mem hn hnew.2) _ _
    · simp only [List.nil_append,List.mem_cons,not_or] at hn
      exact Function.update_of_ne hn.1 _ _
  · rw [List.concat_eq_append] at *
    have hea : e ≠ a := by rintro rfl; simp at hnew
    have hap : a ∉ p₂ := fun hm => hdisjoint (by simp) hm
    refine ⟨Function.update (Function.update h.next e p₂.head?) a (some e),p₁ ++ [a] ++ e::p₂,?_,?_,
      List.perm_middle,hsorted,fun n hn => ?_⟩
    · simp only [insertInBucket,hplace,List.getLast?_append,List.getLast?_singleton,Option.or_none,Option.some_or,
        Option.bind_eq_bind,Option.bind_some,Heap.setNext]
      simp
    · rw [nexts_append]
      refine ⟨(hl.1.congr fun n hn => ?_).setLast ?_,?_⟩
      · exact Function.update_of_ne (ne_of_mem_of_not_mem hn hnew.1) _ _
      · rw [List.nodup_append'] at hn₁
        exact fun hm => hn₁.2.2 hm (List.mem_singleton_self a)
      · apply htail
        · rw [Function.update_of_ne hea,Function.update_self]
        · intro n hn
          rw [Function.update_of_ne (ne_of_mem_of_not_mem hn hap),Function.update_of_ne (ne_of_mem_of_not_mem hn hnew.2)]
    · simp only [List.mem_cons,List.mem_append,List.not_mem_nil,or_false,not_or] at hn
      rw [Function.update_of_ne hn.2.1.2,Function.update_of_ne hn.1]

lemma miInsertEdgeInET_insert {fuel : ℕ} {s : ℤ} (hB : Buckets h bs) (hnew : e ∉ bs.flatMap Prod.snd)
    (hfuel : (bs.flatMap Prod.snd).length < fuel) :
    ∃ f bs', miInsertEdgeInET fuel h e s (heads bs) = some ({ h with next := f },heads bs') ∧
      Buckets { h with next := f } bs' ∧ (∀ t n, InBucket bs' t n ↔ InBucket bs t n ∨ t = s ∧ n = e) ∧
      (∀ b ∈ bs', b.1 = s ∨ ∃ c ∈ bs, c.1 = b.1) ∧ (bs'.flatMap Prod.snd).Perm (e::bs.flatMap Prod.snd) ∧
      ∀ n, n ∉ e::bs.flatMap Prod.snd → f n = h.next n := by
  -- a bucket made for the edge alone
  have halone : ∀ rest : List (ℤ × List Node), (∀ b ∈ rest, s < b.1) → Buckets h rest → e ∉ rest.flatMap Prod.snd →
      ∃ f, insertInBucket fuel h none e = some ({ h with next := f },some e) ∧
        Buckets { h with next := f } ((s,[e])::rest) ∧
        ∀ n, n ∉ e::rest.flatMap Prod.snd → f n = h.next n := by
    intro rest hlt hrest hnot
    obtain ⟨f,l',hinsert,hnexts,hperm,hsorted,hframe⟩ := insertInBucket_insert (h := h) (e := e) (l := [])
      trivial List.Pairwise.nil List.nodup_nil (by simp)
      (show ([] : List Node).length < fuel by simp only [List.length_nil]; omega)
    obtain rfl := List.perm_singleton.1 hperm
    refine ⟨f,hinsert,⟨fun b hb => ?_,List.pairwise_cons.2 ⟨hlt,hrest.order⟩,?_⟩,fun n hn => hframe n ?_⟩
    · obtain rfl | hmem := List.mem_cons.1 hb
      · exact ⟨hnexts,hsorted⟩
      · have hne : ∀ n ∈ b.2, n ≠ e := fun n hn => ne_of_mem_of_not_mem (List.mem_flatMap.2 ⟨b,hmem,hn⟩) hnot
        refine ⟨(hrest.lists b hmem).1.congr fun n hn => hframe n ?_,(hrest.lists b hmem).2⟩
        simpa using hne n hn
    · rw [List.flatMap_cons]
      exact List.nodup_cons.2 ⟨hnot,hrest.nodup⟩
    · simp only [List.mem_cons,not_or] at hn
      simpa using hn.1
  have hcons : ∀ rest : List (ℤ × List Node), ∀ t n, InBucket ((s,[e])::rest) t n ↔ InBucket rest t n ∨ t = s ∧ n = e := by
    intro rest t n
    rw [inBucket_cons,List.mem_singleton,or_comm,eq_comm (a := s)]
  induction bs with
  | nil =>
    obtain ⟨f,hinsert,hB',hframe⟩ := halone [] (by simp) hB hnew
    refine ⟨f,[(s,[e])],?_,hB',hcons [],by simp,List.Perm.refl _,hframe⟩
    simp only [heads,List.map_nil,miInsertEdgeInET,hinsert]
    rfl
  | cons b bs ih =>
    obtain ⟨horder,horder'⟩ := List.pairwise_cons.1 hB.order
    have hnodup := hB.nodup
    rw [List.flatMap_cons,List.nodup_append'] at hnodup
    obtain ⟨hnb,hnbs,hdisjoint⟩ := hnodup
    rw [List.flatMap_cons,List.mem_append,not_or] at hnew
    rw [List.flatMap_cons,List.length_append] at hfuel
    have hBs : Buckets h bs := ⟨fun c hc => hB.lists c (List.mem_cons_of_mem b hc),horder',hnbs⟩
    obtain hlt | heq | hgt := lt_trichotomy b.1 s
    · obtain ⟨f,bs',hinsert,hB',hin,hkeys,hperm,hframe⟩ := ih hBs hnew.2 (by omega)
      have hb : Nexts f b.2 none := (hB.lists b (by simp)).1.congr fun n hn => hframe n fun hmem => by
        obtain rfl | hmem := List.mem_cons.1 hmem
        · exact hnew.1 hn
        · exact hdisjoint hn hmem
      refine ⟨f,b::bs',?_,⟨fun c hc => ?_,List.pairwise_cons.2 ⟨fun c hc => ?_,hB'.order⟩,?_⟩,?_,?_,?_,fun n hn => ?_⟩
      · simp only [heads,List.map_cons,miInsertEdgeInET,hlt,if_true,Option.bind_eq_bind] at hinsert ⊢
        rw [hinsert]
        rfl
      · obtain rfl | hc := List.mem_cons.1 hc
        · exact ⟨hb,(hB.lists c (by simp)).2⟩
        · exact hB'.lists c hc
      · obtain hc | ⟨d,hd,hdc⟩ := hkeys c hc
        · omega
        · exact hdc ▸ horder d hd
      · rw [List.flatMap_cons,List.nodup_append']
        refine ⟨hnb,hB'.nodup,fun n hn hn' => ?_⟩
        obtain rfl | hn' := List.mem_cons.1 (hperm.mem_iff.1 hn')
        · exact hnew.1 hn
        · exact hdisjoint hn hn'
      · intro t n
        rw [inBucket_cons,inBucket_cons,hin t n,or_assoc]
      · intro c hc
        obtain rfl | hc := List.mem_cons.1 hc
        · exact Or.inr ⟨c,by simp,rfl⟩
        · obtain hc | ⟨d,hd,hdc⟩ := hkeys c hc
          · exact Or.inl hc
          · exact Or.inr ⟨d,List.mem_cons_of_mem b hd,hdc⟩
      · rw [List.flatMap_cons,List.flatMap_cons]
        exact (hperm.append_left b.2).trans List.perm_middle
      · rw [List.flatMap_cons,List.mem_cons,List.mem_append,not_or,not_or] at hn
        exact hframe n (by simp only [List.mem_cons,not_or]; exact ⟨hn.1,hn.2.2⟩)
    · obtain ⟨f,l',hinsert,hnexts,hperm,hsorted,hframe⟩ := insertInBucket_insert (e := e) (hB.lists b (by simp)).1
        (hB.lists b (by simp)).2 hnb hnew.1 (show b.2.length < fuel by omega)
      have hother : ∀ c ∈ bs, ∀ n ∈ c.2, f n = h.next n := fun c hc n hn => hframe n fun hmem => by
        have hflat : n ∈ bs.flatMap Prod.snd := List.mem_flatMap.2 ⟨c,hc,hn⟩
        obtain rfl | hmem := List.mem_cons.1 hmem
        · exact hnew.2 hflat
        · exact hdisjoint hmem hflat
      refine ⟨f,(s,l')::bs,?_,⟨fun c hc => ?_,List.pairwise_cons.2 ⟨fun c hc => heq ▸ horder c hc,horder'⟩,?_⟩,
        ?_,?_,?_,fun n hn => ?_⟩
      · have h₁ : ¬b.1 < s := by omega
        have h₂ : ¬b.1 > s := by omega
        simp only [heads,List.map_cons,miInsertEdgeInET,h₁,h₂,if_false,hinsert,Option.bind_eq_bind,
          Option.bind_some]
      · obtain rfl | hc := List.mem_cons.1 hc
        · exact ⟨hnexts,hsorted⟩
        · exact ⟨(hBs.lists c hc).1.congr (hother c hc),(hBs.lists c hc).2⟩
      · rw [List.flatMap_cons,List.nodup_append']
        refine ⟨hperm.nodup_iff.2 (List.nodup_cons.2 ⟨hnew.1,hnb⟩),hnbs,fun n hn hn' => ?_⟩
        obtain rfl | hn := List.mem_cons.1 (hperm.mem_iff.1 hn)
        · exact hnew.2 hn'
        · exact hdisjoint hn hn'
      · intro t n
        rw [inBucket_cons,inBucket_cons,hperm.mem_iff,List.mem_cons,heq,eq_comm (a := s)]
        tauto
      · intro c hc
        obtain rfl | hc := List.mem_cons.1 hc
        · exact Or.inl rfl
        · exact Or.inr ⟨c,List.mem_cons_of_mem b hc,rfl⟩
      · rw [List.flatMap_cons,List.flatMap_cons]
        exact hperm.append_right _
      · rw [List.flatMap_cons,List.mem_cons,List.mem_append,not_or,not_or] at hn
        exact hframe n (by simp only [List.mem_cons,not_or]; exact ⟨hn.1,hn.2.1⟩)
    · have hlater : ∀ c ∈ b::bs, s < c.1 := by
        intro c hc
        obtain rfl | hc := List.mem_cons.1 hc
        · exact hgt
        · exact lt_trans hgt (horder c hc)
      obtain ⟨f,hinsert,hB',hframe⟩ := halone (b::bs) hlater hB (by
        rw [List.flatMap_cons,List.mem_append,not_or]
        exact hnew)
      refine ⟨f,(s,[e])::b::bs,?_,hB',hcons _,?_,List.Perm.refl _,hframe⟩
      · have h₁ : ¬b.1 < s := by omega
        simp only [heads,List.map_cons,miInsertEdgeInET,h₁,hgt,if_true,if_false,hinsert,
          Option.bind_eq_bind,Option.bind_some,List.head?_cons]
      · intro c hc
        obtain rfl | hc := List.mem_cons.1 hc
        · exact Or.inl rfl
        · exact Or.inr ⟨c,hc,rfl⟩

/-- The side is not horizontal. -/
def Side.slanted (s : Side) : Bool := decide (s.bottom.y ≠ s.top.y)

lemma Side.top_lt_bottom {s : Side} (hs : s.slanted = true) : s.top.y < s.bottom.y := by
  have hne := of_decide_eq_true hs
  unfold top bottom at hne ⊢
  split_ifs at hne ⊢ <;> omega

/-- The edge table and the buckets hold these sides. -/
structure Created (h : Heap) (ET : EdgeTable) (E : List (Node × Side)) (bs : List (ℤ × List Node)) : Prop where
  scanlines : ET.scanlines = heads bs
  buckets : Buckets h bs
  inBucket : ∀ t n, InBucket bs t n ↔ ∃ e ∈ E, e.1 = n ∧ e.2.top.y = t
  perm : (bs.flatMap Prod.snd).Perm (E.map Prod.fst)
  keys : ∀ b ∈ bs, ∃ e ∈ E, e.2.top.y = b.1
  nodes : ∀ e ∈ E, ∃ i < ET.nETEs, e.1 = .ete i
  entries : ∀ e ∈ E, h.ymax e.1 = e.2.bottom.y-1 ∧ h.clockWise e.1 = e.2.clockWise ∧ h.bres e.1 = e.2.start
  slanted : ∀ e ∈ E, e.2.slanted = true
  header : h.minor .aet = minInt ∧ h.next .aet = none ∧ h.nextWETE .aet = none
  bounds : ∀ e ∈ E, ET.ymin ≤ e.2.prev.y ∧ e.2.prev.y ≤ ET.ymax

variable {ET : EdgeTable} {E : List (Node × Side)}

lemma Created.fresh (hC : Created h ET E bs) : Node.ete ET.nETEs ∉ E.map Prod.fst := by
  intro hmem
  obtain ⟨e,he,heq⟩ := List.mem_map.1 hmem
  obtain ⟨i,hi,hnode⟩ := hC.nodes e he
  rw [hnode] at heq
  have := Node.ete.inj heq
  omega

lemma Created.setClockWise (hC : Created h ET E bs) (v : Bool) :
    Created { h with clockWise := Function.update h.clockWise (.ete ET.nETEs) v } ET E bs := by
  refine ⟨hC.scanlines,hC.buckets.congr (fun _ _ => rfl) (fun _ _ => rfl),hC.inBucket,hC.perm,hC.keys,hC.nodes,
    fun e he => ?_,
    hC.slanted,hC.header,hC.bounds⟩
  have hne : e.1 ≠ .ete ET.nETEs := ne_of_mem_of_not_mem (List.mem_map.2 ⟨e,he,rfl⟩) hC.fresh
  obtain ⟨hymax,hclock,hbres⟩ := hC.entries e he
  exact ⟨hymax,(Function.update_of_ne hne _ _).trans hclock,hbres⟩

lemma Created.add {fuel : ℕ} {s : Side} (hC : Created h ET E bs) (hs : s.slanted = true)
    (hclock : h.clockWise (.ete ET.nETEs) = s.clockWise) (hfuel : E.length < fuel) :
    let ete := Node.ete ET.nETEs
    let h₁ := ({ h with ymax := Function.update h.ymax ete (s.bottom.y-1) } : Heap).setBres ete s.start
    ∃ h' scanlines bs', miInsertEdgeInET fuel h₁ ete s.top.y ET.scanlines = some (h',scanlines) ∧
      Created h' ⟨max ET.ymax s.prev.y,min ET.ymin s.prev.y,scanlines,ET.nETEs+1⟩ (E ++ [(ete,s)]) bs' := by
  intro ete h₁
  have hold : ∀ n ∈ bs.flatMap Prod.snd, n ≠ ete := fun n hn =>
    ne_of_mem_of_not_mem (hC.perm.mem_iff.1 hn) hC.fresh
  have hminor : ∀ n, n ≠ ete → h₁.bres n = h.bres n := fun n hn => Function.update_of_ne hn _ _
  have hB : Buckets h₁ bs := hC.buckets.congr (fun _ _ => rfl) fun n hn => by
    simp only [Heap.minor,hminor n (hold n hn)]
  obtain ⟨f,bs',hinsert,hB',hin,hkeys,hperm,hframe⟩ := miInsertEdgeInET_insert (e := ete) (s := s.top.y) hB
    (fun hmem => hC.fresh (hC.perm.mem_iff.1 hmem)) 
    (show (bs.flatMap Prod.snd).length < fuel by rw [hC.perm.length_eq]; simpa using hfuel)
  have haet : Node.aet ∉ ete::bs.flatMap Prod.snd := by
    rw [List.mem_cons,not_or]
    refine ⟨by simp [ete],fun hmem => ?_⟩
    obtain ⟨e,he,heq⟩ := List.mem_map.1 (hC.perm.mem_iff.1 hmem)
    obtain ⟨i,-,hnode⟩ := hC.nodes e he
    rw [hnode] at heq
    cases heq
  refine ⟨{ h₁ with next := f },heads bs',bs',by rw [hC.scanlines]; exact hinsert,rfl,hB',?_,?_,?_,?_,?_,?_,?_,?_⟩
  · intro t n
    rw [hin,hC.inBucket]
    simp only [List.mem_append,List.mem_singleton]
    constructor
    · rintro (⟨e,he,hn,ht⟩ | ⟨rfl,rfl⟩)
      · exact ⟨e,Or.inl he,hn,ht⟩
      · exact ⟨(ete,s),Or.inr rfl,rfl,rfl⟩
    · rintro ⟨e,he | rfl,hn,ht⟩
      · exact Or.inl ⟨e,he,hn,ht⟩
      · exact Or.inr ⟨ht.symm,hn.symm⟩
  · rw [List.map_append]
    exact hperm.trans ((hC.perm.cons ete).trans ((show (ete::E.map Prod.fst).Perm (E.map Prod.fst ++ [ete]) from (List.perm_append_singleton ete _).symm)))
  · intro b hb
    obtain hkey | ⟨c,hc,hkey⟩ := hkeys b hb
    · exact ⟨(ete,s),by simp,hkey.symm⟩
    · obtain ⟨e,he,htop⟩ := hC.keys c hc
      exact ⟨e,List.mem_append_left _ he,htop.trans hkey⟩
  · intro e he
    obtain he | he := List.mem_append.1 he
    · obtain ⟨i,hi,hnode⟩ := hC.nodes e he
      exact ⟨i,Nat.lt_succ_of_lt hi,hnode⟩
    · rw [List.mem_singleton.1 he]
      exact ⟨_,Nat.lt_succ_self _,rfl⟩
  · intro e he
    obtain he | he := List.mem_append.1 he
    · have hne : e.1 ≠ ete := ne_of_mem_of_not_mem (List.mem_map.2 ⟨e,he,rfl⟩) hC.fresh
      obtain ⟨hymax,hclock,hbres⟩ := hC.entries e he
      exact ⟨(Function.update_of_ne hne _ _).trans hymax,hclock,(hminor _ hne).trans hbres⟩
    · rw [List.mem_singleton.1 he]
      exact ⟨Function.update_self _ _ _,hclock,Function.update_self _ _ _⟩
  · intro e he
    obtain he | he := List.mem_append.1 he
    · exact hC.slanted e he
    · rw [List.mem_singleton.1 he]
      exact hs
  · refine ⟨?_,(hframe _ haet).trans hC.header.2.1,hC.header.2.2⟩
    have hne : Node.aet ≠ ete := by simp [ete]
    have : h₁.minor .aet = h.minor .aet := by simp only [Heap.minor,hminor _ hne]
    exact this.trans hC.header.1
  · intro e he
    obtain he | he := List.mem_append.1 he
    · obtain ⟨hlo,hhi⟩ := hC.bounds e he
      exact ⟨(min_le_left _ _).trans hlo,hhi.trans (le_max_left _ _)⟩
    · rw [List.mem_singleton.1 he]
      exact ⟨min_le_right _ _,le_max_right _ _⟩

lemma addEdges_created {fuel : ℕ} {p : Point} {pts : List Point} (hC : Created h ET E bs)
    (hfuel : E.length+pts.length ≤ fuel) :
    ∃ h' ET' E' bs', addEdges fuel p pts h ET = some (h',ET') ∧ Created h' ET' E' bs' ∧
      E'.map Prod.snd = E.map Prod.snd ++ (sides p pts).filter Side.slanted := by
  induction pts generalizing p h ET E bs with
  | nil => exact ⟨h,ET,E,bs,rfl,hC,by simp [sides]⟩
  | cons curr pts ih =>
    have hC₁ := hC.setClockWise (⟨p,curr⟩ : Side).clockWise
    rw [List.length_cons] at hfuel
    by_cases hs : (⟨p,curr⟩ : Side).slanted = true
    · obtain ⟨h',scanlines,bs',hinsert,hC'⟩ := hC₁.add (s := ⟨p,curr⟩) hs (Function.update_self _ _ _)
        (show E.length < fuel by omega)
      obtain ⟨h'',ET',E',bs'',hadd,hC'',hE⟩ := ih (p := curr) hC' (by simp; omega)
      refine ⟨h'',ET',E',bs'',?_,hC'',?_⟩
      · have hne := of_decide_eq_true hs
        simp only [Side.top,Side.bottom,Side.clockWise,Side.start] at hinsert hne
        simp only [addEdges,if_pos hne,hinsert,Option.bind_eq_bind,Option.bind_some]
        exact hadd
      · rw [hE,sides,List.filter_cons_of_pos hs]
        simp
    · obtain ⟨h'',ET',E',bs'',hadd,hC'',hE⟩ := ih (p := curr) hC₁ (by omega)
      refine ⟨h'',ET',E',bs'',?_,hC'',?_⟩
      · have hne : ¬_ := of_decide_eq_false (eq_false_of_ne_true hs)
        simp only [Side.top,Side.bottom] at hne
        simp only [addEdges,if_neg hne]
        exact hadd
      · rw [hE,sides,List.filter_cons_of_neg hs]

/-- `miCreateETandAET` -/
theorem miCreateETandAET_created {fuel : ℕ} {pts : List Point} (hpts : pts ≠ []) (hfuel : pts.length ≤ fuel) :
    ∃ h ET E bs, miCreateETandAET fuel pts = some (h,ET) ∧ Created h ET E bs ∧
      E.map Prod.snd = (polygon pts).filter Side.slanted := by
  have hempty : Created initHeap ⟨minInt,maxInt,[],0⟩ [] [] := by
    refine ⟨rfl,⟨by simp,List.Pairwise.nil,List.nodup_nil⟩,by simp [InBucket],List.Perm.refl _,by simp,by simp,by simp,
      by simp,
      ⟨by simp [Heap.minor,initHeap],rfl,rfl⟩,by simp⟩
  obtain ⟨last,hlast⟩ : ∃ last, pts.getLast? = some last := ⟨_,List.getLast?_eq_getLast_of_ne_nil hpts⟩
  obtain ⟨h,ET,E,bs,hadd,hC,hE⟩ := addEdges_created (p := last) hempty (by simpa using hfuel)
  refine ⟨h,ET,E,bs,?_,hC,?_⟩
  · simp only [miCreateETandAET,hlast,Option.bind_eq_bind,Option.bind_some]
    exact hadd
  · simpa [polygon,hlast] using hE

end Xlibre.Mi.Poly
