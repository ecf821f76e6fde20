import Mathlib.Data.List.ReduceOption
import Xlibre.Sync.Frame

/-! Trigger lists and triggers point at each other. -/
namespace Xlibre.Sync

section Lists

variable {α : Type} [DecidableEq α]

lemma reduceOption_erase (l : List (Option α)) (a : α) : (l.erase (some a)).reduceOption = l.reduceOption.erase a := by
  induction l with
  | nil => rfl
  | cons p l ih =>
    cases p with
    | none => rw [List.erase_cons_tail (by simp),List.reduceOption_cons_of_none,List.reduceOption_cons_of_none,ih]
    | some b =>
      by_cases hb : b = a
      · rw [hb,List.erase_cons_head,List.reduceOption_cons_of_some,List.erase_cons_head]
      · rw [List.erase_cons_tail (by simpa using hb),List.reduceOption_cons_of_some,List.reduceOption_cons_of_some,
          List.erase_cons_tail (by simpa using hb),ih]

lemma replace_cons_of_ne {β : Type} [BEq β] [LawfulBEq β] {a b : β} (c : β) (l : List β) (h : b ≠ a) :
    (b::l).replace a c = b::l.replace a c := by
  rw [List.replace_cons,beq_eq_false_iff_ne.2 h.symm]

lemma reduceOption_replace (l : List (Option α)) (a : α) :
    (l.replace (some a) none).reduceOption = l.reduceOption.erase a := by
  induction l with
  | nil => rfl
  | cons p l ih =>
    cases p with
    | none => rw [replace_cons_of_ne _ _ (by simp),List.reduceOption_cons_of_none,List.reduceOption_cons_of_none,ih]
    | some b =>
      by_cases hb : b = a
      · rw [hb,List.replace_cons_self,List.reduceOption_cons_of_some,List.erase_cons_head,List.reduceOption_cons_of_none]
      · rw [replace_cons_of_ne _ _ (by simpa using hb),List.reduceOption_cons_of_some,List.reduceOption_cons_of_some,
          List.erase_cons_tail (by simpa using hb),ih]

end Lists

def World.onList (w : World) (x : XID) : List TrigRef := (w.triglist x).reduceOption

/-- Exactly the triggers in use are on the list of the object they point to, each once. -/
structure Wired (live : TrigRef → Prop) (w : World) : Prop where
  nodup : ∀ x, (w.onList x).Nodup
  mem : ∀ x t, t ∈ w.onList x ↔ live t ∧ (w.trig t).pSync = some x

lemma mem_onList {w : World} {x : XID} {t : TrigRef} : t ∈ w.onList x ↔ some t ∈ w.triglist x := List.reduceOption_mem_iff

namespace Wired

variable {live live' : TrigRef → Prop} {w w' : World} {t : TrigRef}

lemma congr (h : Wired live w) (hl : ∀ x, w'.onList x = w.onList x)
    (ht : ∀ t x, (live' t ∧ (w'.trig t).pSync = some x) ↔ (live t ∧ (w.trig t).pSync = some x)) : Wired live' w' where
  nodup x := by
    rw [hl]
    exact h.nodup x
  mem x t := by rw [hl,h.mem,ht]

lemma change_live (h : Wired live w) (ht : (w.trig t).pSync = none) (hl : ∀ s, s ≠ t → (live' s ↔ live s)) :
    Wired live' w := by
  apply h.congr (fun _ => rfl)
  intro s x
  by_cases hs : s = t
  · subst hs
    simp only [ht,reduceCtorEq,and_false]
  · rw [hl s hs]

lemma exists_object (h : Wired live w) {x : XID} (ht : live t) (hx : (w.trig t).pSync = some x) : w.kind x ≠ none := by
  intro hk
  have hm := (h.mem x t).2 ⟨ht,hx⟩
  rw [mem_onList,triglist_of_kind_none w hk] at hm
  exact absurd hm List.not_mem_nil

lemma erase (h : Wired live w) (ht : w'.trig = w.trig)
    (hl : ∀ x, w'.onList x = if (w.trig t).pSync = some x then (w.onList x).erase t else w.onList x) :
    Wired (fun s => live s ∧ s ≠ t) w' where
  nodup x := by
    rw [hl]
    split_ifs
    · exact (h.nodup x).erase t
    · exact h.nodup x
  mem x s := by
    rw [hl,ht]
    split_ifs with hx
    · rw [(h.nodup x).mem_erase_iff,h.mem]
      tauto
    · rw [h.mem]
      by_cases hs : s = t
      · subst hs
        tauto
      · tauto

lemma delete (h : Wired live w) (t : TrigRef) :
    Wired (fun s => live s ∧ s ≠ t) (syncDeleteTriggerFromSyncObject w t) := by
  apply h.erase (OnlyObjs.delete w t).trig
  intro x
  rw [World.onList,triglist_delete]
  split_ifs
  · exact reduceOption_erase _ t
  · rfl

lemma add (h : Wired live w) (ht : ¬live t) (hk : ∀ x, (w.trig t).pSync = some x → w.kind x ≠ none) :
    Wired (fun s => live s ∨ s = t) (syncAddTriggerToSyncObject w t) := by
  have hn : ∀ x, some t ∉ w.triglist x := fun x hx => ht ((h.mem x t).1 (mem_onList.2 hx)).1
  have hl : ∀ x, (syncAddTriggerToSyncObject w t).onList x =
      if (w.trig t).pSync = some x then t::w.onList x else w.onList x := by
    intro x
    rw [World.onList,triglist_add w t x hk hn]
    split_ifs
    · exact List.reduceOption_cons_of_some t _
    · rfl
  constructor
  · intro x
    rw [hl]
    split_ifs
    · exact List.nodup_cons.2 ⟨fun hx => hn x (mem_onList.1 hx),h.nodup x⟩
    · exact h.nodup x
  · intro x s
    rw [hl,(OnlyObjs.add w t).trig]
    split_ifs with hx
    · rw [List.mem_cons,h.mem]
      constructor
      · intro hs
        obtain rfl | hs := hs
        · exact ⟨.inr rfl,hx⟩
        · exact ⟨.inl hs.1,hs.2⟩
      · tauto
    · rw [h.mem]
      constructor
      · tauto
      · intro hs
        obtain ⟨hs | rfl,hp⟩ := hs
        · exact ⟨hs,hp⟩
        · exact absurd hp hx

lemma setTrig (h : Wired live w) {tr : SyncTrigger} (ht : live t → tr.pSync = (w.trig t).pSync) :
    Wired live (w.setTrig t tr) := by
  refine h.congr (fun _ => rfl) ?_
  intro s x
  by_cases hs : s = t
  · subst hs
    rw [trig_setTrig_self]
    constructor
    · intro hl
      exact ⟨hl.1,by rw [← ht hl.1,hl.2]⟩
    · intro hl
      exact ⟨hl.1,by rw [ht hl.1,hl.2]⟩
  · rw [trig_setTrig_of_ne w tr hs]

lemma brackets (h : Wired live w) (x : XID) : Wired live (syncComputeBracketValues w x) := by
  apply h.congr
  · intro y
    rw [World.onList,triglist_brackets]
    rfl
  · intro t y
    rw [(OnlyObjs.brackets w x).trig]

lemma query (h : Wired live w) (pSync : Option XID) (now : Int64) : Wired live (queryValue w pSync now) := by
  apply h.congr
  · intro y
    rw [World.onList,triglist_query]
    rfl
  · intro t y
    rw [(OnlyObjs.query w pSync now).trig]

lemma register (h : Wired live w) (ht : live t) {pSync : Option XID} (hk : ∀ x, pSync = some x → w.kind x ≠ none)
    (changes : ℕ) : Wired live (registerTrigger w t pSync changes) := by
  unfold registerTrigger
  split_ifs with hc
  · have hd := h.delete t
    have hs : Wired (fun s => live s ∧ s ≠ t) ((syncDeleteTriggerFromSyncObject w t).setTrig t
        { (syncDeleteTriggerFromSyncObject w t).trig t with pSync := pSync }) := hd.setTrig fun hl => absurd rfl hl.2
    have ha := hs.add (t := t) (fun hl => hl.2 rfl) (by
      intro x hx
      rw [trig_setTrig_self] at hx
      rw [kind_setTrig,(OnlyObjs.delete w t).kind]
      exact hk x hx)
    apply ha.congr (fun _ => rfl)
    intro s x
    by_cases hst : s = t
    · subst hst
      simp only [ht,ne_eq,not_true_eq_false,and_false,or_true]
    · simp only [hst,ne_eq,not_false_eq_true,and_true,or_false]
  · split
    · exact h
    · exact h.brackets _

lemma init (h : Wired live w) (ht : live t) (syncObject : XID) (resType : ResType) (changes : ℕ) (now : Int64) :
    Wired live (syncInitTrigger w t syncObject resType changes now).2 := by
  obtain ⟨status,pSync,v,-,hr⟩ | ⟨pSync,v,c,hp,-,-,hr⟩ := syncInitTrigger_cases w t syncObject resType changes now
  · rw [hr]
    refine (h.query pSync now).setTrig fun _ => ?_
    rw [(OnlyObjs.query w pSync now).trig]
  · rw [hr]
    refine Wired.register ((h.query pSync now).setTrig fun _ => ?_) ht ?_ changes
    · rw [(OnlyObjs.query w pSync now).trig]
    · intro x hx
      rw [kind_setTrig,(OnlyObjs.query w pSync now).kind]
      cases hb : changes.testBit caCounter with
      | false => exact h.exists_object ht ((initTarget_same hp hb).symm.trans hx)
      | true =>
        obtain ⟨-,d,hd⟩ := initTarget_lookup hp hx hb
        rw [hd]
        exact Option.some_ne_none _

lemma drop (h : Wired live w) (t : TrigRef) : Wired (fun s => live s ∧ s ≠ t) (dropTrigger w t) := by
  rw [dropTrigger]
  split
  · rename_i hp
    exact h.change_live hp fun s hs => ⟨And.left,fun hl => ⟨hl,hs⟩⟩
  · rename_i x hp
    split
    · rename_i hx
      apply h.congr (fun _ => rfl)
      intro s y
      constructor
      · exact fun hl => ⟨hl.1.1,hl.2⟩
      · intro hl
        refine ⟨⟨hl.1,?_⟩,hl.2⟩
        intro hs
        subst hs
        rw [hp] at hl
        exact h.exists_object hl.1 hp (by rw [World.kind,hx]; rfl)
    · rename_i o ho
      split_ifs
      · exact h.delete t
      · have hk : w.kind x ≠ none := by
          rw [World.kind,ho]
          exact Option.some_ne_none _
        apply h.erase (OnlyObjs.setTriglist w _ _).trig
        intro y
        rw [World.onList,triglist_setTriglist w x y _ hk,hp]
        by_cases hy : y = x
        · subst hy
          rw [if_pos rfl,if_pos rfl,World.onList,World.triglist,ho]
          exact reduceOption_replace _ t
        · rw [if_neg hy,if_neg (fun hyx => hy (Option.some_inj.1 hyx).symm)]
          rfl

lemma dropAll (h : Wired live w) (a : ℕ) (l : List ℕ) :
    Wired (fun s => live s ∧ ∀ i ∈ l, s ≠ .await a i) (l.foldl (fun w i => dropTrigger w (.await a i)) w) := by
  induction l generalizing w live with
  | nil =>
    apply h.congr (fun _ => rfl)
    intro s x
    simp only [List.not_mem_nil,false_implies,implies_true,and_true]
  | cons i l ih =>
    apply (ih (h.drop (.await a i))).congr (fun _ => rfl)
    intro s x
    simp only [List.mem_cons,forall_eq_or_imp]
    tauto

end Wired

lemma OnlyObjs.dropAll (w : World) (a : ℕ) (l : List ℕ) :
    OnlyObjs w (l.foldl (fun w i => dropTrigger w (.await a i)) w) := by
  induction l generalizing w with
  | nil => exact OnlyObjs.refl w
  | cons i l ih => exact (OnlyObjs.drop w _).trans (ih _)

end Xlibre.Sync
