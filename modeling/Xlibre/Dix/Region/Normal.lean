import Xlibre.Dix.Region.Append

/-! A banded list of boxes is given by the points it has and by its seams, the rows at which it starts a band although
nothing changes there. A list in normal form has none. -/
namespace Xlibre.Dix.Region
open Xlibre.Lib Xlibre.Lib.Bands

variable {l m : List Box} {a b c : Box} {y : ℤ}

def StartsAt (l : List Box) (y : ℤ) : Prop := ∃ b ∈ l, b.y1 = y

/-- A band of the list starts at the row, which has the points of the row above. -/
def SeamIn (l : List Box) (y : ℤ) : Prop := StartsAt l y ∧ ∀ x, InBoxes l x (y-1) ↔ InBoxes l x y

/-- What the boxes of a banded list with some points and some starts are: as wide as the row lets them, and as high as
the next start or the next empty row lets them. -/
structure Piece (U : ℤ → ℤ → Prop) (starts : ℤ → Prop) (b : Box) : Prop where
  ok : b.Ok
  start : starts b.y1
  inside : ∀ y, b.y1 < y → y < b.y2 → ¬ starts y ∧ ∃ x, U x y
  stop : starts b.y2 ∨ ∀ x, ¬ U x b.y2
  row : ∀ x, b.x1 ≤ x → x < b.x2 → U x b.y1
  left : ¬ U (b.x1-1) b.y1
  right : ¬ U b.x2 b.y1

lemma Piece.unique {U : ℤ → ℤ → Prop} {starts : ℤ → Prop} (hb : Piece U starts b) (hc : Piece U starts c)
    (hy : b.y1 = c.y1) (h₁ : c.x1 ≤ b.x1) (h₂ : b.x1 < c.x2) : b = c := by
  have hx1 : b.x1 = c.x1 := by
    by_contra hne
    exact hb.left (hy ▸ hc.row _ (by omega) (by omega))
  have hx2 : b.x2 = c.x2 := by
    have hbx := hb.ok.xs
    have hcx := hc.ok.xs
    obtain hlt | heq | hgt := lt_trichotomy b.x2 c.x2
    · exact absurd (hy ▸ hc.row _ (by omega) hlt) hb.right
    · exact heq
    · exact absurd (hy ▸ hb.row _ (by omega) hgt) hc.right
  have hstop : ∀ {b c : Box}, Piece U starts b → Piece U starts c → b.y1 = c.y1 → ¬ b.y2 < c.y2 := by
    intro b c hb hc hy hlt
    have hrows := hb.ok.ys
    obtain ⟨hno,x,hx⟩ := hc.inside b.y2 (by omega) hlt
    obtain h | h := hb.stop
    · exact hno h
    · exact h x hx
  have hy2 : b.y2 = c.y2 := by
    have := hstop hb hc hy
    have := hstop hc hb hy.symm
    omega
  cases b
  cases c
  simp_all

lemma before_asymm (ha : a.Ok) (hb : b.Ok) (h : Before a b) : ¬ Before b a := by
  have h₁ := ha.xs
  have h₂ := ha.ys
  have h₃ := hb.xs
  have h₄ := hb.ys
  unfold Before at *
  omega

lemma Before.trans (hb : b.Ok) (h : Before a b) (h' : Before b c) : Before a c := by
  have h₁ := hb.xs
  have h₂ := hb.ys
  unfold Before at *
  omega

section Banded
variable (hl : l.Pairwise Before) (hlok : ∀ b ∈ l, b.Ok)
include hl hlok

lemma eq_or_before (ha : a ∈ l) (hb : b ∈ l) : a = b ∨ Before a b ∨ Before b a := by
  obtain ⟨before,after,rfl⟩ := List.append_of_mem ha
  obtain ⟨_,hafter,hcross⟩ := List.pairwise_append.mp hl
  rw [List.mem_append,List.mem_cons] at hb
  obtain hb | rfl | hb := hb
  · exact .inr (.inr (hcross b hb a (by simp)))
  · exact .inl rfl
  · exact .inr (.inl ((List.pairwise_cons.mp hafter).1 b hb))

lemma same_band (ha : a ∈ l) (hb : b ∈ l) (ha₁ : a.y1 ≤ y) (ha₂ : y < a.y2) (hb₁ : b.y1 ≤ y) (hb₂ : y < b.y2) :
    a.y1 = b.y1 ∧ a.y2 = b.y2 := by
  obtain rfl | h | h := eq_or_before hl hlok ha hb
  · exact ⟨rfl,rfl⟩
  · unfold Before at h
    omega
  · unfold Before at h
    omega

lemma row_of_band (ha : a ∈ l) (ha₁ : a.y1 ≤ y) (ha₂ : y < a.y2) (x : ℤ) : InBoxes l x y ↔ InBoxes l x a.y1 := by
  have hrows := (hlok a ha).ys
  constructor
  · rintro ⟨b,hb,h₁,h₂,h₃,h₄⟩
    obtain ⟨htop,hbot⟩ := same_band hl hlok ha hb ha₁ ha₂ h₃ h₄
    exact ⟨b,hb,h₁,h₂,by omega,by omega⟩
  · rintro ⟨b,hb,h₁,h₂,h₃,h₄⟩
    obtain ⟨htop,hbot⟩ := same_band hl hlok ha hb le_rfl hrows h₃ h₄
    exact ⟨b,hb,h₁,h₂,by omega,by omega⟩

lemma piece_of_mem (hb : b ∈ l) : Piece (InBoxes l) (StartsAt l) b := by
  have hok := hlok b hb
  refine ⟨hok,⟨b,hb,rfl⟩,fun y h₁ h₂ => ⟨?_,b.x1,b,hb,le_rfl,hok.xs,h₁.le,h₂⟩,?_,?_,?_,?_⟩
  · rintro ⟨c,hc,rfl⟩
    have := same_band hl hlok hb hc h₁.le h₂ le_rfl (hlok c hc).ys
    omega
  · by_contra hnone
    push Not at hnone
    obtain ⟨hno,x,c,hc,_,_,h₁,h₂⟩ := hnone
    apply hno
    refine ⟨c,hc,?_⟩
    obtain rfl | h | h := eq_or_before hl hlok hb hc
    · omega
    · unfold Before at h
      omega
    · have := hok.ys
      unfold Before at h
      omega
  · exact fun x h₁ h₂ => ⟨b,hb,h₁,h₂,le_rfl,hok.ys⟩
  · rintro ⟨c,hc,h₁,h₂,h₃,h₄⟩
    have := hok.xs
    have := hok.ys
    obtain rfl | h | h := eq_or_before hl hlok hb hc <;> unfold Before at * <;> omega
  · rintro ⟨c,hc,h₁,h₂,h₃,h₄⟩
    have := hok.xs
    have := hok.ys
    have := (hlok c hc).xs
    obtain rfl | h | h := eq_or_before hl hlok hb hc <;> unfold Before at * <;> omega

lemma mem_iff_piece : b ∈ l ↔ Piece (InBoxes l) (StartsAt l) b := by
  refine ⟨piece_of_mem hl hlok,fun hb => ?_⟩
  obtain ⟨c,hc,h₁,h₂,h₃,h₄⟩ := hb.row b.x1 le_rfl hb.ok.xs
  obtain ⟨a,ha,hay⟩ := hb.start
  have hband := same_band hl hlok hc ha h₃ h₄ hay.le (by have := (hlok a ha).ys; omega)
  have hy : b.y1 = c.y1 := by omega
  rwa [hb.unique (piece_of_mem hl hlok hc) hy h₁ h₂]

lemma startsAt_iff : StartsAt l y ↔
    ((∃ x, InBoxes l x y) ∧ ¬ ∀ x, InBoxes l x (y-1) ↔ InBoxes l x y) ∨ SeamIn l y := by
  constructor
  · intro hstart
    by_cases hsame : ∀ x, InBoxes l x (y-1) ↔ InBoxes l x y
    · exact .inr ⟨hstart,hsame⟩
    · obtain ⟨b,hb,rfl⟩ := hstart
      exact .inl ⟨⟨b.x1,b,hb,le_rfl,(hlok b hb).xs,le_rfl,(hlok b hb).ys⟩,hsame⟩
  · rintro (⟨⟨x,b,hb,_,_,h₁,h₂⟩,hdiff⟩ | hseam)
    · by_contra hno
      have hne : b.y1 ≠ y := fun heq => hno ⟨b,hb,heq⟩
      exact hdiff fun x => by
        rw [row_of_band hl hlok hb h₁ h₂,row_of_band hl hlok hb (y := y-1) (by omega) (by omega)]
    · exact hseam.1

end Banded

/-- Banded lists with the same points and the same seams are equal. -/
theorem eq_of_seams (hl : l.Pairwise Before) (hlok : ∀ b ∈ l, b.Ok) (hm : m.Pairwise Before) (hmok : ∀ b ∈ m, b.Ok)
    (hcov : ∀ x y, InBoxes l x y ↔ InBoxes m x y) (hseams : ∀ y, SeamIn l y ↔ SeamIn m y) : l = m := by
  have hU : InBoxes l = InBoxes m := funext fun x => funext fun y => propext (hcov x y)
  have hstarts : StartsAt l = StartsAt m := by
    ext y
    rw [startsAt_iff hl hlok,startsAt_iff hm hmok,hseams,hU]
  refine Runs.ordered_unique hl hm (fun a ha b hb => before_asymm (hlok a ha) (hlok b hb)) fun b => ?_
  rw [mem_iff_piece hl hlok,mem_iff_piece hm hmok,hU,hstarts]

lemma not_seamIn {R : List Band} (hR : Banded R) : ¬ SeamIn (boxesOf R) y := by
  rintro ⟨⟨b,hb,rfl⟩,hsame⟩
  obtain ⟨band,hband,hb⟩ := List.mem_flatMap.mp hb
  obtain ⟨s,_,rfl⟩ := List.mem_map.mp hb
  refine hR.row_ne hband fun x => ?_
  rw [← inBoxes_boxesOf,← inBoxes_boxesOf]
  exact hsame x

end Xlibre.Dix.Region
