import Xlibre.Dix.Colormap.Moves

/-! Runs of requests on the colormaps of a server: the counts stay right, errors change nothing, and the
search for cells stays inside the tables. -/
namespace Xlibre.Dix.Colormap

open Xlibre.Lib.Submasks Xlibre.Lib.Tally

variable {n : ℕ} {t all : Bool}

/-- A server that has just created its maps, with `AllocAll` only if `all` allows it. -/
structure Fresh (all : Bool) (w : World n) : Prop where
  maps : ∀ pmap ∈ w.maps, ∃ v allocAll client, VisualOk v ∧ (allocAll = true → all = true) ∧
    pmap = dixCreateColormap v allocAll client
  heap : w.heap.recs = fun _ => none
  entries : w.cmapEntries = []

/-- What a request must meet; `t` says whether temporary cells are in use. -/
def ReqOk (t : Bool) (w : World n) : Req n → Prop
  | .allocColor m client al _ rgb _ => ∀ pmap, w.maps[m]? = some pmap → ColorOk pmap client al rgb
  | .allocColorCells m _ _ colors planes contig => ∀ pmap, w.maps[m]? = some pmap →
    NarrowOk pmap colors.toNat (fun _ => planes.toNat) ∧
      (t = true → TempOk pmap colors.toNat (fun _ => planes.toNat) contig)
  | .allocColorPlanes m _ _ colors r g b contig => ∀ pmap, w.maps[m]? = some pmap →
    NarrowOk pmap colors.toNat (planesOf r.toNat g.toNat b.toNat) ∧
      (t = true → TempOk pmap colors.toNat (planesOf r.toNat g.toNat b.toNat) contig)
  | .fakeAllocColor _ _ _ | .fakeFreeColor _ _ => t = true
  | .freeColors _ _ _ _ | .freeClientPixels _ | .copyColormapAndFree _ _ _ => True

/-- The states that runs reach from `init` by steps that meet `ok`. -/
inductive Reach (init : World n → Prop) (ok : World n → Req n → Prop) : World n → Prop
  | start {w : World n} : init w → Reach init ok w
  | step {w w' : World n} {req : Req n} {status : Status} : Reach init ok w → ok w req →
    Colormap.step w req = some (status,w') → Reach init ok w'

/-- All maps have their counts right, and resources belong to clients other than the owner of the map. -/
structure WorldInv (t all : Bool) (w : World n) : Prop where
  maps : ∀ pmap ∈ w.maps, MapInv t pmap ∧ (pmap.allAllocated = true → all = true ∧ Full pmap)
  entries : ∀ e ∈ w.cmapEntries, ∃ pmap, w.maps[e.1]? = some pmap ∧ pmap.owner ≠ e.2

lemma Fresh.inv {w : World n} (h : Fresh all w) : WorldInv t all w := by
  refine ⟨fun pmap hp => ?_,by simp [h.entries]⟩
  obtain ⟨v,allocAll,client,hv,hall',rfl⟩ := h.maps pmap hp
  refine ⟨mapInv_create hv allocAll client,fun hflag => ?_⟩
  have hall : allocAll = true := by
    cases allocAll with
    | true => rfl
    | false =>
      rw [dixCreateColormap] at hflag
      split_ifs at hflag <;> simp at hflag
  subst hall
  exact ⟨hall' rfl,full_create client⟩

section Put

variable {w : World n} {m : ℕ} {pmap pmap' : ColormapRec n}

lemma getElem?_put (w : World n) (m : ℕ) (heap : Heap) (hm : w.maps[m]? = some pmap) (i : ℕ) :
    (w.put m heap pmap').maps[i]? = if i = m then some pmap' else w.maps[i]? := by
  simp only [World.put]
  by_cases hi : i = m
  · subst hi
    rw [if_pos rfl,List.getElem?_set_self (List.getElem?_eq_some_iff.mp hm).1]
  · rw [if_neg hi,List.getElem?_set_ne (Ne.symm hi)]

lemma WorldInv.put (hw : WorldInv t all w) (hm : w.maps[m]? = some pmap) (heap : Heap) (hinv : MapInv t pmap')
    (howner : pmap'.owner = pmap.owner) (hfull : pmap'.allAllocated = true → all = true ∧ Full pmap') :
    WorldInv t all (w.put m heap pmap') := by
  refine ⟨fun p hp => ?_,fun e he => ?_⟩
  · rcases List.mem_or_eq_of_mem_set hp with hp | rfl
    · exact hw.maps p hp
    · exact ⟨hinv,hfull⟩
  · obtain ⟨q,hq,hne⟩ := hw.entries e he
    rw [getElem?_put w m heap hm]
    by_cases hi : e.1 = m
    · rw [if_pos hi]
      rw [hi,hm] at hq
      obtain rfl := Option.some.inj hq
      exact ⟨pmap',rfl,howner ▸ hne⟩
    · rw [if_neg hi]
      exact ⟨q,hq,hne⟩

lemma WorldInv.addEntry (hw : WorldInv t all w) (hm : w.maps[m]? = some pmap) {client : Fin n} {entry : Bool}
    (hne : entry = true → pmap.owner ≠ client) : WorldInv t all (w.addEntry m client entry) := by
  cases entry with
  | false => exact hw
  | true =>
    refine ⟨hw.maps,fun e he => ?_⟩
    rcases List.mem_append.mp he with he | he
    · exact hw.entries e he
    · rw [List.mem_singleton] at he
      subst he
      exact ⟨pmap,hm,hne rfl⟩

lemma forall₂_set {α : Type*} {R : α → α → Prop} (hrefl : ∀ a, R a a) {l : List α} {m : ℕ} {a b : α}
    (hm : l[m]? = some a) (hab : R a b) : List.Forall₂ R l (l.set m b) := by
  induction l generalizing m with
  | nil => simp at hm
  | cons x l ih =>
    cases m with
    | zero =>
      obtain rfl : x = a := by simpa using hm
      exact .cons hab (List.forall₂_same.mpr fun y _ => hrefl y)
    | succ m => exact .cons (hrefl x) (ih (by simpa using hm))

end Put

section Step

/-- What a failed request leaves of a table: everything, but for the order in the lists of a `DirectColor`
map after `AllocColor`. -/
def Restored (pmap : ColormapRec n) : Req n → SubMap n → SubMap n → Prop
  | .allocColor _ _ _ _ _ _,s,s' => if pmap.visual.cls.direct then SamePerm s s' else Same s s'
  | _,s,s' => Same s s'

lemma restored_of_same (pmap : ColormapRec n) (req : Req n) {s s' : SubMap n} (h : Same s s') : Restored pmap req s s' := by
  cases req <;> first | exact h | (simp only [Restored]; split_ifs; exacts [h.samePerm,h])

def Req.frees : Req n → Bool
  | .freeColors _ _ _ _ => true
  | _ => false

structure Stepped (t all : Bool) (w : World n) (req : Req n) (status : Status) (w' : World n) : Prop where
  inv : WorldInv t all w'
  error : t = false → status ≠ .success → req.frees = false →
    List.Forall₂ (fun pmap pmap' => MapRel (Restored pmap req) pmap pmap') w.maps w'.maps

variable {w : World n} {req : Req n} {status : Status} {m : ℕ} {pmap pmap' : ColormapRec n}

lemma Stepped.refl (hw : WorldInv t all w) (req : Req n) (status : Status) : Stepped t all w req status w :=
  ⟨hw,fun _ _ _ => List.forall₂_same.mpr fun pmap _ => (MapRel.refl pmap).imp fun _ _ => restored_of_same pmap req⟩

lemma Stepped.of_kept (hw : WorldInv t all w) (hm : w.maps[m]? = some pmap) (heap : Heap)
    (hk : Kept t (Restored pmap req) status pmap pmap') (hfull : pmap'.allAllocated = true → all = true ∧ Full pmap') (client : Fin n)
    {entry : Bool} (hne : entry = true → pmap'.owner ≠ client) :
    Stepped t all w req status ((w.put m heap pmap').addEntry m client entry) := by
  have hput := hw.put hm heap hk.inv hk.frame.owner hfull
  have hm' : (w.put m heap pmap').maps[m]? = some pmap' := by rw [getElem?_put w m heap hm,if_pos rfl]
  refine ⟨hput.addEntry hm' hne,fun ht hs _ => ?_⟩
  have hmaps : ((w.put m heap pmap').addEntry m client entry).maps = w.maps.set m pmap' := by
    cases entry <;> rfl
  rw [hmaps]
  exact forall₂_set (fun p => (MapRel.refl p).imp fun _ _ => restored_of_same p req) hm (hk.error ht hs)

lemma put_self (hm : w.maps[m]? = some pmap) (heap : Heap) : (w.put m heap pmap).maps = w.maps := by
  obtain ⟨hlt,rfl⟩ := List.getElem?_eq_some_iff.mp hm
  exact List.set_getElem_self hlt

lemma allocColor_owner (al : Allocs) (client : Fin n) (hh : Heap) (pmap : ColormapRec n) (root : Option (ColormapRec n))
    (rgb : Rgb) (pixel : ℕ) (h : (allocColor al client hh pmap root rgb pixel).entry = true) :
    (allocColor al client hh pmap root rgb pixel).pmap.owner ≠ client := by
  have hend : ∀ r : ColorReply n, r.entry = false → (addColorEntry al client r).entry = true →
      (addColorEntry al client r).pmap.owner ≠ client := by
    intro r hr
    rw [addColorEntry]
    split
    · rename_i hfirst
      split
      · exact fun hcon => by simp [hr] at hcon
      · split
        · exact fun hcon => by simp [hr] at hcon
        · exact fun _ => hfirst.2.1
    · exact fun hcon => by simp [hr] at hcon
  revert h
  simp only [allocColor,allocColorDirect,allocColorTrue,allocColorStatic]
  split_ifs <;> first | exact hend _ rfl | simp

lemma addCmapEntry_owner (al : Allocs) (client : Fin n) (r : CellsReply n) (hr : r.entry = false)
    (h : (addCmapEntry al client (firstPixels pmap client) r).entry = true) : pmap.owner ≠ client := by
  rw [addCmapEntry] at h
  split_ifs at h with hfirst
  · have := hfirst.2
    simp only [firstPixels,Bool.and_eq_true,decide_eq_true_eq] at this
    exact this.2
  · simp [hr] at h
  · simp [hr] at h

lemma allocColorCells_owner {al : Allocs} {client : Fin n} {hh : Heap} {c planes : ℕ} {contig : Bool} {rep : CellsReply n}
    (h : allocColorCells al client hh pmap c planes contig = some rep) (he : rep.entry = true) : pmap.owner ≠ client := by
  rw [allocColorCells] at h
  split_ifs at h
  · obtain rfl := Option.some.inj h
    simp at he
  · obtain rfl := Option.some.inj h
    simp at he
  · obtain ⟨d,_,hd⟩ := Option.bind_eq_some_iff.mp h
    obtain rfl := Option.some.inj hd
    exact addCmapEntry_owner al client _ rfl he
  · obtain ⟨d,_,hd⟩ := Option.bind_eq_some_iff.mp h
    obtain rfl := Option.some.inj hd
    exact addCmapEntry_owner al client _ rfl he

lemma allocColorPlanes_owner {al : Allocs} {client : Fin n} {hh : Heap} {c r g b : ℕ} {contig : Bool} {rep : CellsReply n}
    (h : allocColorPlanes al client hh pmap c r g b contig = some rep) (he : rep.entry = true) : pmap.owner ≠ client := by
  rw [allocColorPlanes] at h
  split_ifs at h
  · obtain rfl := Option.some.inj h
    simp at he
  · obtain rfl := Option.some.inj h
    simp at he
  · obtain ⟨d,_,hd⟩ := Option.bind_eq_some_iff.mp h
    obtain rfl := Option.some.inj hd
    exact addCmapEntry_owner al client _ rfl he
  · obtain ⟨d,_,hd⟩ := Option.bind_eq_some_iff.mp h
    split_ifs at hd
    · obtain rfl := Option.some.inj hd
      exact addCmapEntry_owner al client _ rfl he
    · obtain rfl := Option.some.inj hd
      simp at he
  · obtain ⟨d,_,hd⟩ := Option.bind_eq_some_iff.mp h
    split_ifs at hd
    · obtain rfl := Option.some.inj hd
      simp at he
    · obtain rfl := Option.some.inj hd
      simp at he

lemma WorldInv.at (hw : WorldInv t all w) (hm : w.maps[m]? = some pmap) :
    MapInv t pmap ∧ (pmap.allAllocated = true → all = true ∧ Full pmap) := hw.maps pmap (List.mem_of_getElem? hm)

lemma Stepped.of_full (hw : WorldInv t all w) (hm : w.maps[m]? = some pmap) (heap : Heap) (req : Req n) (status : Status)
    (client : Fin n) : Stepped t all w req status ((w.put m heap pmap).addEntry m client false) := by
  have hself := Stepped.refl hw req status
  have hmaps : ((w.put m heap pmap).addEntry m client false).maps = w.maps := put_self hm heap
  refine ⟨⟨?_,?_⟩,?_⟩
  · rw [hmaps]
    exact hself.inv.maps
  · rw [hmaps]
    exact hself.inv.entries
  · rw [hmaps]
    exact hself.error

lemma stepped_allocColor (hw : WorldInv t all w) (hm : w.maps[m]? = some pmap) (client : Fin n) (al : Allocs)
    (root : Option (ColormapRec n)) (rgb : Rgb) (pixel : ℕ) (hok : ColorOk pmap client al rgb) :
    let r := allocColor al client w.heap pmap root rgb pixel
    Stepped t all w (.allocColor m client al root rgb pixel) r.status ((w.put m r.heap r.pmap).addEntry m client r.entry) := by
  obtain ⟨hinv,hfull⟩ := hw.at hm
  dsimp only
  cases hflag : pmap.allAllocated with
  | true =>
    obtain ⟨_,h₂,h₃⟩ := allocColor_full hinv (hfull hflag).2 al client w.heap root rgb pixel
    rw [h₂,h₃]
    exact Stepped.of_full hw hm _ _ _ client
  | false =>
    have hk : Kept t (Restored pmap (.allocColor m client al root rgb pixel))
        (allocColor al client w.heap pmap root rgb pixel).status pmap
        (allocColor al client w.heap pmap root rgb pixel).pmap := by
      cases hd : pmap.visual.cls.direct with
      | false =>
        refine (allocColor_pseudo hinv hd hflag al client w.heap root rgb pixel hok).imp fun s s' h => ?_
        simpa [Restored,hd] using h
      | true =>
        refine (allocColor_direct hinv hd hflag al client w.heap root rgb pixel hok).imp fun s s' h => ?_
        simpa [Restored,hd] using h
    refine Stepped.of_kept hw hm _ hk (fun hf => ?_) client (allocColor_owner al client w.heap pmap root rgb pixel)
    rw [hk.frame.flag,hflag] at hf
    simp at hf

lemma stepped_cells (hw : WorldInv t all w) (hm : w.maps[m]? = some pmap) (client : Fin n) (req : Req n) {rep : CellsReply n}
    (hk : pmap.allAllocated = false → Kept t Same rep.status pmap rep.pmap)
    (hfull : pmap.allAllocated = true → rep.pmap = pmap ∧ rep.entry = false)
    (hne : rep.entry = true → pmap.owner ≠ client) :
    Stepped t all w req (putCells w m client rep).1 (putCells w m client rep).2 := by
  simp only [putCells]
  cases hflag : pmap.allAllocated with
  | true =>
    obtain ⟨h₁,h₂⟩ := hfull hflag
    rw [h₁,h₂]
    exact Stepped.of_full hw hm _ _ _ client
  | false =>
    have hkept := hk hflag
    refine Stepped.of_kept hw hm _ (hkept.imp fun s s' h => restored_of_same pmap req h) (fun hf => ?_) client ?_
    · rw [hkept.frame.flag,hflag] at hf
      simp at hf
    · rw [hkept.frame.owner]
      exact hne

/-- One step keeps all counts right; it never leaves a table. -/
theorem step_spec (hw : WorldInv t all w) (req : Req n) (hok : ReqOk t w req) :
    ∃ status w', step w req = some (status,w') ∧ Stepped t all w req status w' := by
  have hsmall : ∀ u : UInt16, u.toNat < 2^16 := fun u => u.toNat_lt
  have hpos : ∀ u : UInt16, ¬ u = 0 → 0 < u.toNat := by
    intro u hu
    rw [Nat.pos_iff_ne_zero]
    exact fun hz => hu (UInt16.toNat_inj.mp hz)
  cases req with
  | allocColor m client al root rgb pixel =>
    simp only [step]
    cases hm : w.maps[m]? with
    | none => exact ⟨_,_,rfl,Stepped.refl hw _ _⟩
    | some pmap => exact ⟨_,_,rfl,stepped_allocColor hw hm client al root rgb pixel (hok pmap hm)⟩
  | allocColorCells m client al colors planes contig =>
    simp only [step]
    cases hm : w.maps[m]? with
    | none => exact ⟨_,_,rfl,Stepped.refl hw _ _⟩
    | some pmap =>
      dsimp only
      split_ifs with hzero
      · exact ⟨_,_,rfl,Stepped.refl hw _ _⟩
      obtain ⟨hinv,hfull⟩ := hw.at hm
      obtain ⟨hn,ht⟩ := hok pmap hm
      have htemp : TempOk pmap colors.toNat (fun _ => planes.toNat) contig := by
        cases t with
        | true => exact ht rfl
        | false => exact tempOk_of_none hinv (hpos _ hzero) (hsmall _) _ _
      obtain ⟨rep,hrep,hk⟩ := allocColorCells_spec hinv (hpos _ hzero) (hsmall _) planes.toNat htemp hn al client w.heap
      rw [hrep]
      refine ⟨_,_,rfl,stepped_cells hw hm client _ (fun _ => hk) (fun hflag => ?_) (allocColorCells_owner hrep)⟩
      obtain ⟨rep',hrep',_,h₁,_,h₂⟩ := allocColorCells_full hinv (hfull hflag).2 (hpos _ hzero) al client w.heap planes.toNat
        contig
      rw [hrep] at hrep'
      obtain rfl := Option.some.inj hrep'
      exact ⟨h₁,h₂⟩
  | allocColorPlanes m client al colors r g b contig =>
    simp only [step]
    cases hm : w.maps[m]? with
    | none => exact ⟨_,_,rfl,Stepped.refl hw _ _⟩
    | some pmap =>
      dsimp only
      split_ifs with hzero
      · exact ⟨_,_,rfl,Stepped.refl hw _ _⟩
      obtain ⟨hinv,hfull⟩ := hw.at hm
      obtain ⟨hn,ht⟩ := hok pmap hm
      have htemp : TempOk pmap colors.toNat (planesOf r.toNat g.toNat b.toNat) contig := by
        cases t with
        | true => exact ht rfl
        | false => exact tempOk_of_none hinv (hpos _ hzero) (hsmall _) _ _
      cases hflag : pmap.allAllocated with
      | true =>
        obtain ⟨rep,hrep,_,h₁,_,h₂⟩ := allocColorPlanes_full hinv (hfull hflag).2 (hpos _ hzero) al client w.heap r.toNat
          g.toNat b.toNat contig
        rw [hrep]
        exact ⟨_,_,rfl,stepped_cells hw hm client _ (fun hf => by simp [hflag] at hf) (fun _ => ⟨h₁,h₂⟩)
          (allocColorPlanes_owner hrep)⟩
      | false =>
        obtain ⟨rep,hrep,hk⟩ := allocColorPlanes_spec hinv hflag (hpos _ hzero) (hsmall _) r.toNat g.toNat b.toNat htemp hn
          al client w.heap
        rw [hrep]
        exact ⟨_,_,rfl,stepped_cells hw hm client _ (fun _ => hk) (fun hf => by simp [hflag] at hf)
          (allocColorPlanes_owner hrep)⟩
  | freeColors m client pixels mask =>
    simp only [step]
    cases hm : w.maps[m]? with
    | none => exact ⟨_,_,rfl,Stepped.refl hw _ _⟩
    | some pmap =>
      refine ⟨_,_,rfl,?_,fun _ _ hf => by simp [Req.frees] at hf⟩
      obtain ⟨hinv,hfull⟩ := hw.at hm
      cases hflag : pmap.allAllocated with
      | true =>
        have hsame : (freeColors w.heap pmap client pixels mask).2 = (w.heap,pmap) := by simp [freeColors,hflag]
        rw [hsame]
        exact hw.put hm _ hinv rfl hfull
      | false =>
        obtain ⟨h₁,h₂,_⟩ := freeColors_spec hinv hflag w.heap client pixels mask
        refine hw.put hm _ h₁ h₂.owner fun hf => ?_
        rw [h₂.flag,hflag] at hf
        simp at hf
  | freeClientPixels k =>
    simp only [step]
    cases he : w.cmapEntries[k]? with
    | none => exact ⟨_,_,rfl,Stepped.refl hw _ _⟩
    | some e =>
      obtain ⟨m,client⟩ := e
      have hrest : WorldInv t all { w with cmapEntries := w.cmapEntries.eraseIdx k } :=
        ⟨hw.maps,fun e he' => hw.entries e (List.mem_of_mem_eraseIdx he')⟩
      obtain ⟨pmap,hm,hne⟩ := hw.entries (m,client) (List.mem_of_getElem? he)
      simp only [hm]
      refine ⟨_,_,rfl,?_,fun _ hs => absurd rfl hs⟩
      obtain ⟨hinv,hfull⟩ := hw.at hm
      cases hflag : pmap.allAllocated with
      | true =>
        rw [freePixels_full hinv (hfull hflag).2 hne]
        exact hrest.put hm _ hinv rfl hfull
      | false =>
        obtain ⟨h₁,h₂⟩ := freePixels_spec hinv w.heap client
        refine hrest.put hm _ h₁ h₂.owner fun hf => ?_
        rw [h₂.flag,hflag] at hf
        simp at hf
  | copyColormapAndFree m client create =>
    simp only [step]
    cases hm : w.maps[m]? with
    | none => exact ⟨_,_,rfl,Stepped.refl hw _ _⟩
    | some pmap =>
      dsimp only
      split_ifs with hcreate
      · exact ⟨_,_,rfl,Stepped.refl hw _ _⟩
      refine ⟨_,_,rfl,?_,fun _ hs => absurd rfl hs⟩
      obtain ⟨hinv,hfull⟩ := hw.at hm
      have hcopy := copyColormapAndFree_spec hinv (fun hf => (hfull hf).2) w.heap client
      have hput := hw.put hm (copyColormapAndFree w.heap pmap client).1 hcopy.srcInv hcopy.owner
        fun hf => ⟨(hfull (hcopy.srcFull hf).1).1,(hcopy.srcFull hf).2⟩
      refine ⟨fun p hp => ?_,fun e he => ?_⟩
      · rcases List.mem_append.mp hp with hp | hp
        · exact hput.maps p hp
        · rw [List.mem_singleton] at hp
          subst hp
          exact ⟨hcopy.dstInv,fun hf => ⟨(hfull (hcopy.dstFull hf).1).1,(hcopy.dstFull hf).2⟩⟩
      · obtain ⟨p,hp,hne⟩ := hput.entries e he
        refine ⟨p,?_,hne⟩
        exact (List.getElem?_append_left (List.getElem?_eq_some_iff.mp hp).1).trans hp
  | fakeAllocColor m rgb pixel =>
    have ht : t = true := hok
    subst ht
    simp only [step]
    cases hm : w.maps[m]? with
    | none => exact ⟨_,_,rfl,Stepped.refl hw _ _⟩
    | some pmap =>
      refine ⟨_,_,rfl,?_,fun hf => by simp at hf⟩
      obtain ⟨hinv,hfull⟩ := hw.at hm
      obtain ⟨h₁,h₂⟩ := fakeAllocColor_spec hinv rgb pixel
      refine hw.put hm _ h₁ h₂.owner fun hf => ?_
      rw [h₂.flag] at hf
      rw [fakeAllocColor_full hinv (hfull hf).2]
      exact hfull hf
  | fakeFreeColor m pixel =>
    have ht : t = true := hok
    subst ht
    simp only [step]
    cases hm : w.maps[m]? with
    | none => exact ⟨_,_,rfl,Stepped.refl hw _ _⟩
    | some pmap =>
      refine ⟨_,_,rfl,?_,fun hf => by simp at hf⟩
      obtain ⟨hinv,hfull⟩ := hw.at hm
      obtain ⟨h₁,h₂⟩ := fakeFreeColor_spec hinv pixel
      refine hw.put hm _ h₁ h₂.owner fun hf => ?_
      rw [h₂.flag] at hf
      exact ⟨(hfull hf).1,fakeFreeColor_full (hfull hf).2 pixel⟩

/-- The invariant holds in every state of a run. -/
theorem Reach.inv (h : Reach (Fresh all) (ReqOk t) w) : WorldInv t all w := by
  induction h with
  | start hf => exact hf.inv
  | step _ hok hstep ih =>
    obtain ⟨status',w'',hs,hst⟩ := step_spec ih _ hok
    rw [hs] at hstep
    obtain ⟨rfl,rfl⟩ := Prod.mk.inj (Option.some.inj hstep)
    exact hst.inv

end Step

section Counts

structure CountsRight (pmap : ColormapRec n) : Prop where
  shared : ∀ ch ∈ pmap.visual.channels, ∀ i < pmap.visual.numEntries ch,
    0 < ((pmap.sub ch).cells i).refcnt → ((pmap.sub ch).cells i).refcnt = occ (pmap.sub ch) i
  own : ∀ ch ∈ pmap.visual.channels, ∀ i < pmap.visual.numEntries ch,
    ((pmap.sub ch).cells i).refcnt = allocPrivate → occ (pmap.sub ch) i = 1
  empty : ∀ ch ∈ pmap.visual.channels, ∀ i < pmap.visual.numEntries ch,
    ((pmap.sub ch).cells i).refcnt = 0 ↔ occ (pmap.sub ch) i = 0
  free : ∀ ch ∈ pmap.visual.channels,
    (pmap.sub ch).free = tally (pmap.visual.numEntries ch) (pmap.sub ch).cells isFree

lemma MapInv.countsRight {pmap : ColormapRec n} (h : MapInv false pmap) : CountsRight pmap := by
  have hcell := fun ch hch i hi => (h.sub ch hch).counts.cell i hi
  simp only [CellOk,allocPrivate,allocTemporary,Bool.false_eq_true,false_and,or_false] at hcell
  refine ⟨fun ch hch i hi hr => ?_,fun ch hch i hi hr => ?_,fun ch hch i hi => ?_,fun ch hch => ?_⟩
  · have := hcell ch hch i hi
    omega
  · have := hcell ch hch i hi
    simp only [allocPrivate] at hr
    omega
  · have := hcell ch hch i hi
    omega
  · rw [(h.sub ch hch).counts.free]
    congr 1
    refine Finset.sum_congr rfl fun i hi => ?_
    have := hcell ch hch i (Finset.mem_range.mp hi)
    simp only [isSpare,isFree,allocTemporary]
    have hne : ((pmap.sub ch).cells i).refcnt ≠ -2 := by omega
    simp [hne]

/-- In every run without temporary cells whose requests meet their conditions, all counts of all maps are
right, no request leaves a table, a failed request changes nothing, and `FreeColors` frees exactly the
listed pixels that the client has. -/
theorem colormap_counts {w : World n} (hw : Reach (Fresh false) (ReqOk false) w) :
    (∀ pmap ∈ w.maps, CountsRight pmap) ∧
      ∀ req, ReqOk false w req → ∃ status w', step w req = some (status,w') ∧
        (status ≠ .success → req.frees = false →
          List.Forall₂ (fun pmap pmap' => MapRel (Restored pmap req) pmap pmap') w.maps w'.maps) ∧
        ∀ m client pixels mask pmap, req = .freeColors m client pixels mask → w.maps[m]? = some pmap →
          ∃ pmap', w'.maps = w.maps.set m pmap' ∧ ∀ ch ∈ pmap.visual.channels,
            Freed pmap.visual client pixels mask ch (pmap.sub ch) (pmap'.sub ch) := by
  have hinv := hw.inv
  refine ⟨fun pmap hp => (hinv.maps pmap hp).1.countsRight,fun req hok => ?_⟩
  obtain ⟨status,w',hstep,hst⟩ := step_spec hinv req hok
  refine ⟨status,w',hstep,hst.error rfl,?_⟩
  rintro m client pixels mask pmap rfl hm
  obtain ⟨hmap,hfull⟩ := hinv.at hm
  have hflag : pmap.allAllocated = false := by
    cases hf : pmap.allAllocated with
    | false => rfl
    | true => exact absurd (hfull hf).1 (by simp)
  simp only [step,hm,Option.some.injEq,Prod.mk.injEq] at hstep
  refine ⟨(freeColors w.heap pmap client pixels mask).2.2,by rw [← hstep.2]; rfl,?_⟩
  exact (freeColors_spec hmap hflag w.heap client pixels mask).2.2

def twoCells : World 1 :=
  ⟨[dixCreateColormap ⟨.pseudoColor,2,1,0,0,0,0,0,0⟩ false 0],⟨fun _ => none,0⟩,[]⟩

lemma fresh_twoCells (all : Bool) : Fresh all twoCells := by
  refine ⟨fun pmap hp => ?_,rfl,rfl⟩
  rw [twoCells,List.mem_singleton] at hp
  have hno : VisualClass.direct .pseudoColor ≠ true := by decide
  exact ⟨_,_,_,⟨rfl,by decide,fun _ => rfl,fun h => absurd h hno,fun h => absurd h hno,fun h => absurd h hno,
    fun h => absurd h hno,fun h => absurd h hno,fun h => absurd h hno⟩,by simp,hp⟩

/-- Asking for a colour where all allocations succeed but, if `list` is off, the one of the pixel list. -/
def askColor (list : Bool) : Req 1 := .allocColor 0 0 ⟨true,true,list,true,true,true,true⟩ none ⟨1,2,3⟩ 0

/-- One colour allocated in the map of two cells: the counts are right and the next request is answered. -/
theorem colormap_counts_twoCells :
    ∃ w : World 1, step twoCells (askColor true) = some (.success,w) ∧ (∀ pmap ∈ w.maps, CountsRight pmap) ∧
      ∃ status w', step w (.freeColors 0 0 [0] 0) = some (status,w') := by
  have hok : ReqOk false twoCells (askColor true) := by
    intro pmap hp
    obtain rfl : dixCreateColormap ⟨.pseudoColor,2,1,0,0,0,0,0,0⟩ false 0 = pmap := by simpa [twoCells] using hp
    exact ⟨fun ch hch i hi hr => absurd hr (by cases ch <;> simp [dixCreateColormap,VisualClass.direct,ColormapRec.sub,SubMap.create,emptyEntry]),fun hadd => by simp at hadd⟩
  have hreach := Reach.step (Reach.start (fresh_twoCells false)) hok (rfl : step twoCells (askColor true) = _)
  obtain ⟨h₁,h₂⟩ := colormap_counts hreach
  obtain ⟨status,w',h₃,_⟩ := h₂ (.freeColors 0 0 [0] 0) trivial
  exact ⟨_,rfl,h₁,status,w',h₃⟩

/-- The calls that take and give back temporary cells. -/
def Req.fake : Req n → Bool
  | .fakeAllocColor _ _ _ | .fakeFreeColor _ _ => true
  | _ => false

/-- The same colour again, for a list that cannot grow: the request fails, the cell is given back, and the
free counter counts a cell that is in use. -/
theorem colormap_counts_drift :
    ∃ w : World 1, Reach (Fresh false) (fun _ req => req.fake = false) w ∧ ∃ pmap ∈ w.maps, ¬ CountsRight pmap := by
  refine ⟨_,Reach.step (Reach.step (Reach.start (fresh_twoCells false)) (show (askColor true).fake = false from rfl) rfl)
    (show (askColor false).fake = false from rfl) rfl,_,List.mem_cons_self,fun h => ?_⟩
  have := h.free .pseudoMap (by decide)
  revert this
  decide

end Counts

section Inside

/-- In every run whose requests meet their conditions, a request that passes the checks and meets its own has
`AllocCP` look at cells of the channel only, and come to an end. -/
theorem allocCP_inside {w : World n} (hw : Reach (Fresh true) (ReqOk true) w) {pmap : ColormapRec n} (hm : pmap ∈ w.maps)
    {c : UInt16} (hc : c ≠ 0) (planes : Channel → ℕ) (contig : Bool) (hp : Passes pmap c.toNat planes)
    (ht : TempOk pmap c.toNat planes contig) (hn : NarrowOk pmap c.toNat planes) (ch : Channel)
    (hch : ch ∈ pmap.visual.channels) :
    ∃ o, allocCP (pmap.visual.numEntries ch) pmap.visual (pmap.sub ch).cells c.toNat (planes ch) contig = some o := by
  have hinv := (hw.inv.maps pmap hm).1
  have hpos : 0 < c.toNat := by
    rw [Nat.pos_iff_ne_zero]
    exact fun hz => hc (UInt16.toNat_inj.mp hz)
  obtain ⟨_,o,ho,_⟩ := hinv.pick hpos c.toNat_lt hp ht hn ch hch (le_refl _) (hinv.visual.numEntries_bounds hch).2
  exact ⟨o,ho⟩

/-- Both cells of the map of two cells. -/
theorem allocCP_inside_twoCells :
    ∃ o, allocCP 2 ⟨.pseudoColor,2,1,0,0,0,0,0,0⟩ (fun _ => emptyEntry) 2 0 false = some o := by
  have hreach : Reach (Fresh true) (ReqOk true) twoCells := .start (fresh_twoCells true)
  refine allocCP_inside hreach (c := 2) List.mem_cons_self (by decide) (fun _ => 0) false ?_ ?_ ?_ .pseudoMap (by decide)
  · intro ch hch
    obtain rfl : ch = .pseudoMap := by simpa [dixCreateColormap,VisualClass.direct,Visual.channels] using hch
    decide
  · intro _ ch hch _
    obtain rfl : ch = .pseudoMap := by simpa [dixCreateColormap,VisualClass.direct,Visual.channels] using hch
    decide
  · intro _ hd
    exact absurd hd (by decide)

/-- After `FakeAllocColor` took one of two cells, the counter still says two: a request for both passes the
checks, and the search runs out of the table. -/
theorem allocCP_leaves_table :
    ∃ w : World 1, Reach (Fresh true) (fun _ _ => True) w ∧ ∃ pmap ∈ w.maps, Passes pmap 2 (fun _ => 0) ∧
      allocCP (pmap.visual.numEntries .pseudoMap) pmap.visual (pmap.sub .pseudoMap).cells 2 0 false = none := by
  refine ⟨_,@Reach.step 1 _ _ _ _ (.fakeAllocColor 0 ⟨1,2,3⟩ 0) _ (Reach.start (fresh_twoCells true)) trivial rfl,_,
    List.mem_cons_self,fun ch hch => ?_,?_⟩
  · obtain rfl : ch = .pseudoMap := by
      revert hch
      cases ch <;> decide
    decide
  · decide

end Inside

end Xlibre.Dix.Colormap
