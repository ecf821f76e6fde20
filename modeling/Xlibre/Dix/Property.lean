import Mathlib.Algebra.Order.Ring.Abs
import Mathlib.Data.List.GetD
import Mathlib.Data.List.Nodup
import Mathlib.Tactic.Linarith
import Xlibre.Dix.Freeze.State

/-! The properties of a window: how their values are rotated, and what a part of one reads as. -/
namespace Xlibre.Dix.Property

inductive Status
  | success | badValue | badAtom | badMatch | badAccess | badAlloc
  deriving DecidableEq, Repr

structure PropertyRec where
  propertyName : ℕ
  type : ℕ
  format : ℕ
  size : ℕ
  data : List (BitVec 8)
  deriving DecidableEq, Repr

abbrev Mask := BitVec 32

def dixReadAccess : Mask := 1

def dixWriteAccess : Mask := 2

def dixDestroyAccess : Mask := 4

def named (props : List PropertyRec) (name : ℕ) : Option PropertyRec := props.find? (·.propertyName = name)

/-- `dixLookupProperty`, with the answers of `XaceHookPropertyAccess`. -/
def dixLookupProperty (allowed : Mask → PropertyRec → Bool) (props : List PropertyRec) (name : ℕ) (access : Mask) :
    Except Status PropertyRec :=
  match named props name with
  | none => .error .badMatch
  | some p => if allowed access p then .ok p else .error .badAccess

/-- What the requests cannot know: the atoms there are, the answers of the access hook, whether memory is left. -/
structure Env where
  validAtom : ℕ → Bool
  allowed : Mask → PropertyRec → Bool
  alloc : Bool

def saveAll (e : Env) (props : List PropertyRec) : List ℕ → Except Status (List PropertyRec)
  | [] => .ok []
  | a::as =>
    if !e.validAtom a then .error .badAtom
    else if a ∈ as then .error .badMatch
    else do
      let p ← dixLookupProperty e.allowed props a (dixReadAccess ||| dixWriteAccess)
      let ps ← saveAll e props as
      .ok (p::ps)

/-- `while (delta < 0) delta += nAtoms`, for at most so many rounds. -/
def raiseDelta (nAtoms : ℕ) : ℕ → ℤ → ℤ
  | 0, delta => delta
  | rounds+1, delta => if delta < 0 then raiseDelta nAtoms rounds (delta+nAtoms) else delta

def giveValue (props : List PropertyRec) (v : PropertyRec) (name : ℕ) : List PropertyRec :=
  props.map fun p => if p.propertyName = name then { v with propertyName := p.propertyName } else p

/-- `ProcRotateProperties`: the status, and the properties of the window. -/
def procRotateProperties (e : Env) (props : List PropertyRec) (atoms : List ℕ) (nPositions : ℤ) :
    Status × List PropertyRec :=
  if atoms.length = 0 then (.success,props)
  else if !e.alloc then (.badAlloc,props)
  else
    match saveAll e props atoms with
    | .error s => (s,props)
    | .ok saved =>
      if nPositions.natAbs%atoms.length = 0 then (.success,props)
      else
        let delta := raiseDelta atoms.length nPositions.natAbs nPositions
        (.success,saved.zipIdx.foldl (fun props (v,i) =>
          giveValue props v (atoms.getD ((i+delta)%atoms.length).toNat 0)) props)

section Rotate

variable {e e' : Env} {props props' saved : List PropertyRec} {atoms as : List ℕ}
  {a n : ℕ} {d : ℤ} {p v : PropertyRec}

lemma raiseDelta_spec (hn : 0 < n) (rounds : ℕ) (hrounds : -d ≤ rounds) :
    0 ≤ raiseDelta n rounds d ∧ raiseDelta n rounds d % n = d % n := by
  induction rounds generalizing d with
  | zero => exact ⟨by simp only [raiseDelta]; omega,rfl⟩
  | succ rounds ih =>
    unfold raiseDelta
    split_ifs with hneg
    · obtain ⟨hnonneg,hmod⟩ := ih (d := d+n) (by omega)
      exact ⟨hnonneg,by rw [hmod,Int.add_emod_right]⟩
    · exact ⟨by omega,rfl⟩

lemma saveAll_ok (h : saveAll e props as = .ok saved) : as.Nodup ∧ as.map (named props) = saved.map some := by
  induction as generalizing saved with
  | nil =>
    obtain rfl : [] = saved := by simpa [saveAll] using h
    exact ⟨List.nodup_nil,rfl⟩
  | cons a as ih =>
    unfold saveAll at h
    split_ifs at h with hvalid hmem
    cases hlookup : dixLookupProperty e.allowed props a (dixReadAccess ||| dixWriteAccess) with
    | error s =>
      rw [hlookup] at h
      exact absurd h (by simp [bind,Except.bind])
    | ok p =>
      rw [hlookup] at h
      cases hrest : saveAll e props as with
      | error s =>
        rw [hrest] at h
        exact absurd h (by simp [bind,Except.bind])
      | ok ps =>
        rw [hrest] at h
        obtain rfl : p::ps = saved := by simpa [bind,Except.bind] using h
        obtain ⟨hnodup,hnamed⟩ := ih hrest
        have hp : named props a = some p := by
          unfold dixLookupProperty at hlookup
          cases hfind : named props a with
          | none =>
            rw [hfind] at hlookup
            cases hlookup
          | some q =>
            rw [hfind] at hlookup
            dsimp only at hlookup
            split_ifs at hlookup
            cases hlookup
            rfl
        exact ⟨List.nodup_cons.2 ⟨hmem,hnodup⟩,by rw [List.map_cons,List.map_cons,hnamed,hp]⟩

lemma saveAll_error {s : Status} (h : saveAll e props as = .error s) : s ≠ .success := by
  induction as with
  | nil => cases h
  | cons a as ih =>
    unfold saveAll dixLookupProperty at h
    split_ifs at h
    · cases h
      decide
    · cases h
      decide
    · cases hfind : named props a with
      | none =>
        rw [hfind] at h
        cases h
        decide
      | some p =>
        rw [hfind] at h
        dsimp only at h
        split_ifs at h
        · cases hrest : saveAll e props as with
          | error s' =>
            rw [hrest] at h
            cases h
            exact ih hrest
          | ok ps =>
            rw [hrest] at h
            cases h
        · cases h
          decide

lemma named_name (h : named props a = some p) : p.propertyName = a := by simpa [named] using List.find?_some h

def given (l : List (PropertyRec × ℕ)) (p : PropertyRec) : PropertyRec :=
  l.foldl (fun p x => if p.propertyName = x.2 then { x.1 with propertyName := p.propertyName } else p) p

lemma foldl_giveValue (l : List (PropertyRec × ℕ)) :
    l.foldl (fun props x => giveValue props x.1 x.2) props = props.map (given l) := by
  induction l generalizing props with
  | nil => exact (List.map_id props).symm
  | cons x l ih =>
    rw [List.foldl_cons,ih,giveValue,List.map_map]
    rfl

@[simp] lemma given_name (l : List (PropertyRec × ℕ)) (p : PropertyRec) : (given l p).propertyName = p.propertyName := by
  induction l generalizing p with
  | nil => rfl
  | cons x l ih =>
    refine (ih _).trans ?_
    dsimp only
    split_ifs <;> rfl

lemma given_miss {l : List (PropertyRec × ℕ)} (h : p.propertyName ∉ l.map Prod.snd) : given l p = p := by
  induction l with
  | nil => rfl
  | cons x l ih =>
    obtain ⟨hne,hnot⟩ := not_or.1 (mt List.mem_cons.2 h)
    change given l (if p.propertyName = x.2 then _ else p) = p
    rw [if_neg hne]
    exact ih hnot

lemma given_hit {l : List (PropertyRec × ℕ)} (hnodup : (l.map Prod.snd).Nodup) (hmem : (v,p.propertyName) ∈ l) :
    given l p = { v with propertyName := p.propertyName } := by
  induction l with
  | nil => exact absurd hmem List.not_mem_nil
  | cons x l ih =>
    obtain ⟨hnot,hrest⟩ := List.nodup_cons.1 hnodup
    change given l (if p.propertyName = x.2 then _ else p) = _
    obtain rfl | hmem := List.mem_cons.1 hmem
    · rw [if_pos rfl]
      exact given_miss hnot
    · have hne : p.propertyName ≠ x.2 := fun heq => hnot (heq ▸ List.mem_map.2 ⟨_,hmem,rfl⟩)
      rw [if_neg hne]
      exact ih hrest hmem

lemma named_map (l : List (PropertyRec × ℕ)) (a : ℕ) : named (props.map (given l)) a = (named props a).map (given l) := by
  unfold named
  rw [List.find?_map]
  congr 2
  funext p
  simp

lemma ext_named (hnames : props.map (·.propertyName) = props'.map (·.propertyName))
    (hnodup : (props.map (·.propertyName)).Nodup) (h : ∀ a, named props a = named props' a) : props = props' := by
  have hself : ∀ l : List PropertyRec, (l.map (·.propertyName)).Nodup →
      l.map some = (l.map (·.propertyName)).map (named l) := by
    intro l hl
    rw [List.map_map]
    apply List.map_congr_left
    intro p hp
    induction l with
    | nil => exact absurd hp List.not_mem_nil
    | cons q l ih =>
      obtain ⟨hnot,hrest⟩ := List.nodup_cons.1 hl
      obtain rfl | hp := List.mem_cons.1 hp
      · simp [named]
      · have hne : q.propertyName ≠ p.propertyName := fun heq => hnot (List.mem_map.2 ⟨p,hp,heq.symm⟩)
        refine (ih hrest hp).trans ?_
        simp [named,hne]
  apply List.map_injective_iff.2 (Option.some_injective PropertyRec)
  rw [hself props hnodup,hself props' (hnames ▸ hnodup),hnames]
  apply List.map_congr_left
  intro a _
  exact h a

/-- Where a name's value goes. -/
def target (atoms : List ℕ) (d : ℤ) (i : ℕ) : ℕ := atoms.getD ((i+d)%atoms.length).toNat 0

lemma target_mem (hne : 0 < atoms.length) (i : ℕ) : target atoms d i ∈ atoms := by
  have hpos : (0 : ℤ) < atoms.length := by exact_mod_cast hne
  have hnonneg := Int.emod_nonneg (i+d) hpos.ne'
  have hlt := Int.emod_lt_of_pos (i+d) hpos
  unfold target
  rw [List.getD_eq_getElem _ _ (by omega)]
  exact List.getElem_mem _

lemma target_congr {d' : ℤ} (h : d % atoms.length = d' % atoms.length) (i : ℕ) :
    target atoms d i = target atoms d' i := by
  unfold target
  rw [Int.add_emod,h,← Int.add_emod]

lemma target_stay {i : ℕ} (hi : i < atoms.length) (hskip : d.natAbs%atoms.length = 0) :
    target atoms d i = atoms.getD i 0 := by
  have hdvd : (atoms.length : ℤ) ∣ d := Int.ofNat_dvd_left.2 (Nat.dvd_of_mod_eq_zero hskip)
  have hzero : d % atoms.length = 0 % atoms.length := by rw [Int.emod_eq_zero_of_dvd hdvd,Int.zero_emod]
  rw [target_congr hzero,target,Int.add_zero,Int.emod_eq_of_lt (by omega) (by omega),Int.toNat_natCast]

lemma target_inj (hnodup : atoms.Nodup) {i j : ℕ} (hi : i < atoms.length) (hj : j < atoms.length)
    (heq : target atoms d i = target atoms d j) : i = j := by
  have hpos : (0 : ℤ) < atoms.length := by omega
  have hi₀ := Int.emod_nonneg (i+d) hpos.ne'
  have hi₁ := Int.emod_lt_of_pos (i+d) hpos
  have hj₀ := Int.emod_nonneg (j+d) hpos.ne'
  have hj₁ := Int.emod_lt_of_pos (j+d) hpos
  unfold target at heq
  rw [List.getD_eq_getElem _ _ (by omega),List.getD_eq_getElem _ _ (by omega),hnodup.getElem_inj_iff] at heq
  have hmod : (i+d)%atoms.length = (j+d)%atoms.length := by omega
  have hsub : ((i : ℤ)-j)%atoms.length = 0 := by
    have hdiff := Int.emod_emod_of_dvd (i+d-(j+d)) (dvd_refl (atoms.length : ℤ))
    rw [show (i : ℤ)-j = i+d-(j+d) by omega,Int.sub_emod,hmod,sub_self,Int.zero_emod]
  obtain ⟨c,hc⟩ := Int.dvd_of_emod_eq_zero hsub
  obtain rfl | hc' : c = 0 ∨ c ≠ 0 := by omega
  · omega
  · have habs : (atoms.length : ℤ) ≤ |(i : ℤ)-j| := by
      rw [hc,abs_mul,abs_of_pos hpos]
      exact le_mul_of_one_le_right hpos.le (Int.one_le_abs hc')
    have hlt : |(i : ℤ)-j| < atoms.length := by rw [abs_lt]; constructor <;> omega
    omega

lemma rotate_named (hne : 0 < atoms.length) (h : procRotateProperties e props atoms d = (.success,props')) :
    atoms.Nodup ∧ props'.map (·.propertyName) = props.map (·.propertyName) ∧
    (∀ i < atoms.length, ∃ p, named props (atoms.getD i 0) = some p ∧
      named props' (target atoms d i) = some { p with propertyName := target atoms d i }) ∧
    ∀ a ∉ atoms, named props' a = named props a := by
  unfold procRotateProperties at h
  rw [if_neg hne.ne'] at h
  cases halloc : e.alloc with
  | false => simp [halloc] at h
  | true =>
    rw [halloc,if_neg (by decide)] at h
    cases hsave : saveAll e props atoms with
    | error s =>
      rw [hsave] at h
      exact absurd (congrArg Prod.fst h) (saveAll_error hsave)
    | ok saved =>
      rw [hsave] at h
      dsimp only at h
      obtain ⟨hnodup,hnamed⟩ := saveAll_ok hsave
      have hlen : atoms.length = saved.length := by simpa using congrArg List.length hnamed
      have hsaved : ∀ i (hi : i < atoms.length), named props (atoms.getD i 0) = some saved[i] := by
        intro i hi
        have hat := congrArg (·[i]?) hnamed
        simpa [hi,hlen ▸ hi] using hat
      split_ifs at h with hskip
      · obtain rfl : props = props' := congrArg Prod.snd h
        refine ⟨hnodup,rfl,fun i hi => ⟨_,hsaved i hi,?_⟩,fun _ _ => rfl⟩
        rw [target_stay hi hskip,hsaved i hi,← named_name (hsaved i hi)]
      · set l := saved.zipIdx.map fun x => (x.1,target atoms d x.2) with hl
        obtain rfl : props.map (given l) = props' := by
          refine Eq.trans ?_ (congrArg Prod.snd h)
          obtain ⟨-,hraise⟩ := raiseDelta_spec (d := d) hne d.natAbs (by omega)
          rw [← foldl_giveValue,hl,List.foldl_map]
          congr 1
          funext props x
          exact congrArg (giveValue props x.1) (target_congr hraise x.2).symm
        have hsnd : l.map Prod.snd = (List.range atoms.length).map (target atoms d) := by
          apply List.ext_getElem
          · simp [hl,hlen]
          · intro i _ _
            simp [hl]
        have hdistinct : (l.map Prod.snd).Nodup := by
          rw [hsnd]
          refine List.nodup_range.map_on fun i hi j hj heq => ?_
          exact target_inj hnodup (List.mem_range.1 hi) (List.mem_range.1 hj) heq
        refine ⟨hnodup,by simp [Function.comp_def],?_,?_⟩
        · intro i hi
          refine ⟨_,hsaved i hi,?_⟩
          obtain ⟨j,hj,hjt⟩ := List.getElem_of_mem (target_mem (d := d) hne i)
          have hq := hsaved j hj
          rw [List.getD_eq_getElem _ _ hj,hjt] at hq
          have hname := named_name hq
          rw [named_map,hq,Option.map_some,given_hit hdistinct (v := saved[i]),hname]
          rw [hname,hl,List.mem_map]
          exact ⟨(saved[i],i),List.mem_zipIdx_iff_getElem?.2 (by simp [hlen ▸ hi]),rfl⟩
        · intro a ha
          rw [named_map]
          cases hq : named props a with
          | none => rfl
          | some q =>
            refine congrArg some (given_miss ?_)
            rw [named_name hq,hsnd]
            rintro hmem
            obtain ⟨i,-,rfl⟩ := List.mem_map.1 hmem
            exact ha (target_mem hne i)

lemma rotate_fails (hfails : (procRotateProperties e props atoms d).1 ≠ .success) :
    (procRotateProperties e props atoms d).2 = props := by
  unfold procRotateProperties at hfails ⊢
  split_ifs at hfails ⊢ with hempty halloc hskip
  · rfl
  · rfl
  · cases saveAll e props atoms <;> rfl
  · cases hsave : saveAll e props atoms with
    | error s => rfl
    | ok saved =>
      rw [hsave] at hfails
      exact absurd rfl hfails

lemma target_target (hne : 0 < atoms.length) (hnodup : atoms.Nodup) {i j : ℕ} (hi : i < atoms.length)
    (hj : j < atoms.length) (heq : atoms.getD j 0 = target atoms d i) : target atoms (-d) j = atoms.getD i 0 := by
  have hpos : (0 : ℤ) < atoms.length := by exact_mod_cast hne
  have hnonneg := Int.emod_nonneg (i+d) hpos.ne'
  have hlt := Int.emod_lt_of_pos (i+d) hpos
  unfold target at heq
  rw [List.getD_eq_getElem _ _ hj,List.getD_eq_getElem _ _ (by omega),hnodup.getElem_inj_iff] at heq
  have hback : ((j : ℤ)+-d)%atoms.length = i := by
    rw [heq,Int.toNat_of_nonneg hnonneg,Int.emod_add_emod,Int.add_neg_cancel_right,Int.emod_eq_of_lt (by omega) (by omega)]
  rw [target,hback,Int.toNat_natCast]

/-- A successful request gives the value of each name to the name so many places on, whatever the sign and however far,
and to no other name; the same request backwards restores the window. A request that fails changes nothing. -/
theorem procRotateProperties_rotates (e : Env) (props : List PropertyRec) (atoms : List ℕ) (delta : ℤ)
    (hdistinct : (props.map (·.propertyName)).Nodup) (hne : 0 < atoms.length) :
    ((procRotateProperties e props atoms delta).1 ≠ .success → (procRotateProperties e props atoms delta).2 = props) ∧
    ∀ props', procRotateProperties e props atoms delta = (.success,props') →
      props'.map (·.propertyName) = props.map (·.propertyName) ∧
      (∀ i < atoms.length, ∃ p, named props (atoms.getD i 0) = some p ∧
        named props' (atoms.getD ((i+delta) % atoms.length).toNat 0) =
          some { p with propertyName := atoms.getD ((i+delta) % atoms.length).toNat 0 }) ∧
      (∀ a ∉ atoms, named props' a = named props a) ∧
      ∀ e' props'', procRotateProperties e' props' atoms (-delta) = (.success,props'') → props'' = props := by
  refine ⟨rotate_fails,fun props' h => ?_⟩
  obtain ⟨hnodup,hnames,hmoved,hothers⟩ := rotate_named hne h
  refine ⟨hnames,hmoved,hothers,fun e' props'' h' => ?_⟩
  obtain ⟨-,hnames',hmoved',hothers'⟩ := rotate_named hne h'
  have hall : props''.map (·.propertyName) = props.map (·.propertyName) := hnames'.trans hnames
  apply ext_named hall (hall ▸ hdistinct)
  intro a
  by_cases ha : a ∈ atoms
  · obtain ⟨i,hi,rfl⟩ := List.getElem_of_mem ha
    obtain ⟨p,hp,hat⟩ := hmoved i hi
    obtain ⟨j,hj,hjt⟩ := List.getElem_of_mem (target_mem (d := delta) hne i)
    obtain ⟨q,hq,hback⟩ := hmoved' j hj
    have hjt' : atoms.getD j 0 = target atoms delta i := by rw [List.getD_eq_getElem _ _ hj,hjt]
    rw [hjt',hat,Option.some_inj] at hq
    rw [target_target hne hnodup hi hj hjt',← hq] at hback
    rw [List.getD_eq_getElem _ _ hi] at hp hback
    rw [hback,hp,← named_name hp]
  · rw [hothers' a ha,hothers a ha]

/-- Three properties are rotated by five places back, which is one place on. -/
theorem procRotateProperties_rotates_fiveBack :
    let props : List PropertyRec := [⟨1,31,8,1,[10]⟩,⟨2,31,8,1,[20]⟩,⟨3,31,8,1,[30]⟩]
    procRotateProperties ⟨fun _ => true,fun _ _ => true,true⟩ props [1,2,3] (-5) =
      (.success,[⟨1,31,8,1,[30]⟩,⟨2,31,8,1,[10]⟩,⟨3,31,8,1,[20]⟩]) ∧
    ∀ e' props'', procRotateProperties e' [⟨1,31,8,1,[30]⟩,⟨2,31,8,1,[10]⟩,⟨3,31,8,1,[20]⟩] [1,2,3] 5 =
      (.success,props'') → props'' = props := by
  intro props
  have hrun : procRotateProperties ⟨fun _ => true,fun _ _ => true,true⟩ props [1,2,3] (-5) =
      (.success,[⟨1,31,8,1,[30]⟩,⟨2,31,8,1,[10]⟩,⟨3,31,8,1,[20]⟩]) := by decide
  exact ⟨hrun,((procRotateProperties_rotates _ props [1,2,3] (-5) (by decide) (by decide)).2 _ hrun).2.2.2⟩

end Rotate

/-- `xGetPropertyReq` -/
structure GetPropertyReq where
  property : ℕ
  type : ℕ
  delete : ℕ
  longOffset : BitVec 32
  longLength : BitVec 32

/-- `xGetPropertyReply`, with the value after it. -/
structure GetPropertyReply where
  propertyType : ℕ
  format : ℕ
  bytesAfter : ℕ
  nItems : ℕ
  value : List (BitVec 8)
  deriving DecidableEq, Repr

def anyPropertyType : ℕ := 0

/-- `ProcGetProperty`: the reply, and the properties of the window. The sizes are 32 bits wide. -/
def procGetProperty (e : Env) (props : List PropertyRec) (req : GetPropertyReq) :
    Except Status GetPropertyReply × List PropertyRec :=
  if !e.validAtom req.property then (.error .badAtom,props)
  else if req.delete ≠ 1 ∧ req.delete ≠ 0 then (.error .badValue,props)
  else if req.type ≠ anyPropertyType ∧ !e.validAtom req.type then (.error .badAtom,props)
  else
    let access := if req.delete = 1 then dixReadAccess ||| dixDestroyAccess else dixReadAccess
    match dixLookupProperty e.allowed props req.property access with
    | .error .badMatch => (.ok ⟨0,0,0,0,[]⟩,props)
    | .error s => (.error s,props)
    | .ok p =>
      if req.type ≠ p.type ∧ req.type ≠ anyPropertyType then (.ok ⟨p.type,p.format,p.size,0,[]⟩,props)
      else
        let n := p.format/8*p.size%2^32
        let ind := (req.longOffset <<< 2).toNat
        if n < ind then (.error .badValue,props)
        else
          let len := min (n-ind) (4*req.longLength).toNat
          let bytesAfter := n-(ind+len)
          (.ok ⟨p.type,p.format,bytesAfter,len/(p.format/8),(p.data.drop ind).take (len/(p.format/8)*(p.format/8))⟩,
            if req.delete = 1 ∧ bytesAfter = 0 then props.eraseP (·.propertyName = req.property) else props)

section Get

variable {e : Env} {props : List PropertyRec} {req : GetPropertyReq} {p : PropertyRec}

structure PropertyRec.Stored (p : PropertyRec) : Prop where
  format : p.format = 8 ∨ p.format = 16 ∨ p.format = 32
  length : p.data.length = p.format/8*p.size

/-- A request that is let through to the property of its name. -/
structure Reaches (e : Env) (props : List PropertyRec) (req : GetPropertyReq) (p : PropertyRec) : Prop where
  property : e.validAtom req.property
  delete : req.delete = 1 ∨ req.delete = 0
  type : req.type = anyPropertyType ∨ e.validAtom req.type
  named : named props req.property = some p
  allowed : e.allowed (if req.delete = 1 then dixReadAccess ||| dixDestroyAccess else dixReadAccess) p

def protocolReply (props : List PropertyRec) (req : GetPropertyReq) (p : PropertyRec) :
    Except Status GetPropertyReply × List PropertyRec :=
  let n := p.data.length
  let i := 4*req.longOffset.toNat
  let l := min (n-i) (4*req.longLength.toNat)
  if req.type ≠ p.type ∧ req.type ≠ anyPropertyType then (.ok ⟨p.type,p.format,n,0,[]⟩,props)
  else if n < i then (.error .badValue,props)
  else (.ok ⟨p.type,p.format,n-(i+l),l/(p.format/8),(p.data.drop i).take l⟩,
    if req.delete = 1 ∧ n-(i+l) = 0 then props.eraseP (·.propertyName = req.property) else props)

/-- When 32 bits and a size in items are enough: a value that is not asked for has one byte an item or none; otherwise
offset and end of the value are in the same 4 GiB, the length loses nothing it needs, and the bytes are those. -/
def SizesFit (req : GetPropertyReq) (p : PropertyRec) : Prop :=
  let n := p.data.length
  let i := 4*req.longOffset.toNat
  let l := 4*req.longLength.toNat
  if req.type ≠ p.type ∧ req.type ≠ anyPropertyType then p.format = 8 ∨ p.size = 0
  else if n < i then n%2^32 < i%2^32
  else n/2^32 = i/2^32 ∧ min (n-i) (l%2^32) = min (n-i) l ∧
    (p.data.drop (i%2^32)).take (min (n-i) l) = (p.data.drop i).take (min (n-i) l)

lemma get_of_reaches (h : Reaches e props req p) :
    procGetProperty e props req =
      if req.type ≠ p.type ∧ req.type ≠ anyPropertyType then (.ok ⟨p.type,p.format,p.size,0,[]⟩,props)
      else
        let n := p.format/8*p.size%2^32
        let ind := 4*req.longOffset.toNat%2^32
        if n < ind then (.error .badValue,props)
        else
          let len := min (n-ind) (4*req.longLength.toNat%2^32)
          (.ok ⟨p.type,p.format,n-(ind+len),len/(p.format/8),(p.data.drop ind).take (len/(p.format/8)*(p.format/8))⟩,
            if req.delete = 1 ∧ n-(ind+len) = 0 then props.eraseP (·.propertyName = req.property) else props) := by
  have hlookup : dixLookupProperty e.allowed props req.property
      (if req.delete = 1 then dixReadAccess ||| dixDestroyAccess else dixReadAccess) = .ok p := by
    unfold dixLookupProperty
    rw [h.named]
    exact if_pos h.allowed
  have hind : (req.longOffset <<< 2).toNat = 4*req.longOffset.toNat%2^32 := by
    rw [BitVec.toNat_shiftLeft,Nat.shiftLeft_eq,Nat.mul_comm]
  have hlen : (4*req.longLength).toNat = 4*req.longLength.toNat%2^32 := by rw [BitVec.toNat_mul]; rfl
  have hdelete : ¬(req.delete ≠ 1 ∧ req.delete ≠ 0) := fun hnot => h.delete.elim hnot.1 hnot.2
  have htype : ¬(req.type ≠ anyPropertyType ∧ !e.validAtom req.type) := by
    rintro ⟨hne,hinvalid⟩
    obtain hany | hvalid := h.type
    · exact hne hany
    · simp [hvalid] at hinvalid
  unfold procGetProperty
  rw [if_neg (by simp [h.property]),if_neg hdelete,if_neg htype]
  dsimp only
  rw [hlookup,hind,hlen]

lemma unit_inj {u a b : ℕ} (ha : u ∣ a) (hb : u ∣ b) (h : a/u = b/u) : a = b := by
  rw [← Nat.div_mul_cancel ha,h,Nat.div_mul_cancel hb]

lemma unit_dvd (hstored : p.Stored) (i l : ℕ) :
    p.format/8 ∣ min (p.data.length-4*i) (4*l) ∧
    p.format/8 ∣ min (p.data.length%2^32-4*i%2^32) (4*l%2^32) := by
  rw [hstored.length]
  have hlow : ∀ x, 4*x%2^32 = 4*(x%2^30) := fun x => Nat.mul_mod_mul_left 4 x (2^30)
  rw [hlow i,hlow l]
  obtain h | h | h := hstored.format <;> rw [h] <;> constructor <;> omega

/-- The reply is the protocol's exactly where the sizes fit. -/
theorem procGetProperty_protocol_iff (e : Env) (props : List PropertyRec) (req : GetPropertyReq) (p : PropertyRec)
    (hreach : Reaches e props req p) (hstored : p.Stored) :
    procGetProperty e props req = protocolReply props req p ↔ SizesFit req p := by
  rw [get_of_reaches hreach,← hstored.length]
  unfold protocolReply SizesFit
  dsimp only
  by_cases hmiss : req.type ≠ p.type ∧ req.type ≠ anyPropertyType
  · rw [if_pos hmiss,if_pos hmiss,if_pos hmiss,hstored.length]
    obtain h | h | h := hstored.format <;> simp [h] <;> omega
  · rw [if_neg hmiss,if_neg hmiss,if_neg hmiss]
    by_cases hcode : p.data.length%2^32 < 4*req.longOffset.toNat%2^32 <;>
      by_cases hprotocol : p.data.length < 4*req.longOffset.toNat
    · rw [if_pos hcode,if_pos hprotocol,if_pos hprotocol]
      exact iff_of_true rfl hcode
    · rw [if_pos hcode,if_neg hprotocol,if_neg hprotocol]
      exact iff_of_false (fun h => by cases congrArg Prod.fst h) fun h => by omega
    · rw [if_neg hcode,if_pos hprotocol,if_pos hprotocol]
      exact iff_of_false (fun h => by cases congrArg Prod.fst h) hcode
    · obtain ⟨hdvd,hdvd'⟩ := unit_dvd hstored req.longOffset.toNat req.longLength.toNat
      rw [if_neg hcode,if_neg hprotocol,if_neg hprotocol,Nat.div_mul_cancel hdvd']
      constructor
      · intro h
        obtain ⟨-,-,hafter,hitems,hvalue⟩ := GetPropertyReply.mk.inj (Except.ok.inj (congrArg Prod.fst h))
        have hlen := unit_inj hdvd' hdvd hitems
        rw [hlen] at hafter hvalue
        exact ⟨by omega,by omega,hvalue⟩
      · rintro ⟨hblock,hlen,hvalue⟩
        have hrest : p.data.length%2^32-4*req.longOffset.toNat%2^32 = p.data.length-4*req.longOffset.toNat := by omega
        have hafter : ∀ l, p.data.length%2^32-(4*req.longOffset.toNat%2^32+l) =
            p.data.length-(4*req.longOffset.toNat+l) := by omega
        rw [hrest,hlen,hafter,hvalue]

/-- A value of one item of four bytes, asked for with another type: the reply counts one byte after it, not four. -/
theorem procGetProperty_items : ¬∀ e props req p, Reaches e props req p → p.Stored →
    procGetProperty e props req = protocolReply props req p := by
  intro h
  have hreply := h ⟨fun _ => true,fun _ _ => true,true⟩ [⟨1,31,32,1,[1,2,3,4]⟩] ⟨1,6,0,0,1⟩ ⟨1,31,32,1,[1,2,3,4]⟩
    ⟨rfl,.inr rfl,.inr rfl,rfl,rfl⟩ ⟨.inr (.inr rfl),rfl⟩
  exact absurd hreply (by decide)

/-- The second half of a value of two items, which are then deleted. -/
theorem procGetProperty_protocol_iff_second :
    procGetProperty ⟨fun _ => true,fun _ _ => true,true⟩ [⟨1,31,32,2,[1,2,3,4,5,6,7,8]⟩] ⟨1,31,1,1,5⟩ =
      protocolReply [⟨1,31,32,2,[1,2,3,4,5,6,7,8]⟩] ⟨1,31,1,1,5⟩ ⟨1,31,32,2,[1,2,3,4,5,6,7,8]⟩ ∧
    protocolReply [⟨1,31,32,2,[1,2,3,4,5,6,7,8]⟩] ⟨1,31,1,1,5⟩ ⟨1,31,32,2,[1,2,3,4,5,6,7,8]⟩ =
      (.ok ⟨31,32,0,1,[5,6,7,8]⟩,[]) :=
  ⟨(procGetProperty_protocol_iff _ _ _ _ ⟨rfl,.inl rfl,.inr rfl,rfl,rfl⟩ ⟨.inr (.inr rfl),rfl⟩).2 (by
    unfold SizesFit
    decide),by decide⟩

end Get

end Xlibre.Dix.Property

/-! The owners of selections: `ProcSetSelectionOwner`, and what else takes a selection from its owner. -/
namespace Xlibre.Dix.Selections
open Freeze (TimeStamp compareTimeStamps)

structure Selection where
  selection : ℕ
  lastTimeChanged : TimeStamp
  window : ℕ
  pWin : Option ℕ
  client : Option ℕ

structure SelectionClear where
  client : ℕ
  time : ℕ
  window : ℕ
  atom : ℕ

/-- The list, and the events that owners have been sent. -/
structure Server where
  currentSelections : List Selection
  sent : List SelectionClear

def newSelection (name : ℕ) : Selection := ⟨name,⟨0,0⟩,0,none,none⟩

def dixLookupSelection (l : List Selection) (name : ℕ) : Selection × List Selection :=
  match l.find? (·.selection = name) with
  | some p => (p,l)
  | none => (newSelection name,newSelection name::l)

/-- The record that was looked up is written. -/
def storeSelection (p : Selection) : List Selection → List Selection
  | [] => []
  | q::l => if q.selection = p.selection then p::l else q::storeSelection p l

/-- `found` is the window that `dixLookupWindow` gives for `owner`. -/
structure SetOwner where
  client : ℕ
  owner : ℕ
  selection : ℕ
  time : TimeStamp
  currentTime : TimeStamp
  found : Option ℕ
  validAtom : Bool

def SetOwner.pWin (req : SetOwner) : Option ℕ := if req.owner = 0 then none else req.found

def SetOwner.made (req : SetOwner) : Selection :=
  ⟨req.selection,req.time,req.owner,req.pWin,req.pWin.map fun _ => req.client⟩

def SetOwner.clears (req : SetOwner) (p : Selection) : List SelectionClear :=
  (p.client.toList.filter fun old => req.pWin = none ∨ old ≠ req.client).map fun old =>
    ⟨old,req.time.milliseconds,p.window,req.selection⟩

def procSetSelectionOwner (s : Server) (req : SetOwner) : Server :=
  if compareTimeStamps req.time req.currentTime = .gt ∨ (req.owner ≠ 0 ∧ req.found = none) ∨ req.validAtom = false then s
  else
    let (p,l) := dixLookupSelection s.currentSelections req.selection
    if compareTimeStamps req.time p.lastTimeChanged = .lt then { s with currentSelections := l }
    else ⟨storeSelection req.made l,s.sent ++ req.clears p⟩

/-- `lookup` is what the requests for an owner and for a conversion do to the list. -/
inductive Event
  | setOwner (req : SetOwner)
  | lookup (selection : ℕ)
  | deleteWindow (pWin : ℕ)
  | deleteClient (client : ℕ)

def Server.free (s : Server) (gone : Selection → Bool) : Server :=
  { s with
    currentSelections := s.currentSelections.map fun p =>
      if gone p then { p with window := 0, pWin := none, client := none } else p }

def Server.handle (s : Server) : Event → Server
  | .setOwner req => procSetSelectionOwner s req
  | .lookup selection => { s with currentSelections := (dixLookupSelection s.currentSelections selection).2 }
  | .deleteWindow pWin => s.free (·.pWin = some pWin)
  | .deleteClient client => s.free (·.client = some client)

/-- What is known of a name: without a record, what a new one says. -/
def Server.known (s : Server) (name : ℕ) : Selection :=
  (s.currentSelections.find? (·.selection = name)).getD (newSelection name)

def told (client name : ℕ) (sent : List SelectionClear) : ℕ := sent.countP fun c => c.client = client ∧ c.atom = name

/-- A request takes the selection from the client. -/
def taken (client name : ℕ) (s : Server) : Event → Bool
  | .setOwner req =>
    (s.known name).client = some client && ((procSetSelectionOwner s req).known name).client ≠ some client
  | _ => false

def takings (client name : ℕ) : Server → List Event → ℕ
  | _, [] => 0
  | s, e::es => (taken client name s e).toNat + takings client name (s.handle e) es

lemma find_store {l : List Selection} {p : Selection} (h : ∃ q ∈ l, q.selection = p.selection) (name : ℕ) :
    (storeSelection p l).find? (·.selection = name) = if p.selection = name then some p else l.find? (·.selection = name) := by
  induction l with
  | nil => simp at h
  | cons q l ih =>
    rw [storeSelection]
    split_ifs <;> grind

variable (s : Server) (req : SetOwner) (client name : ℕ)

lemma lookup_spec :
    (dixLookupSelection s.currentSelections name).1 = s.known name ∧
    (∃ q ∈ (dixLookupSelection s.currentSelections name).2, q.selection = name) ∧
    ∀ sent n, Server.known ⟨(dixLookupSelection s.currentSelections name).2,sent⟩ n = s.known n := by
  unfold dixLookupSelection Server.known
  cases hfind : s.currentSelections.find? (·.selection = name) with
  | some p => exact ⟨rfl,⟨p,List.mem_of_find?_eq_some hfind,by simpa using List.find?_some hfind⟩,fun _ _ => rfl⟩
  | none =>
    refine ⟨rfl,⟨_,List.mem_cons_self,rfl⟩,fun _ n => ?_⟩
    obtain rfl | hn := eq_or_ne name n <;> simp [*,newSelection]

/-- A request changes nothing that is known, or it makes its selection anew. -/
lemma procSetSelectionOwner_cases :
    (procSetSelectionOwner s req).sent = s.sent ∧ (∀ n, (procSetSelectionOwner s req).known n = s.known n) ∨
    (procSetSelectionOwner s req).sent = s.sent ++ req.clears (s.known req.selection) ∧
      ∀ n, (procSetSelectionOwner s req).known n = if req.selection = n then req.made else s.known n := by
  obtain ⟨hfirst,hmem,hknown⟩ := lookup_spec s req.selection
  unfold procSetSelectionOwner
  dsimp only
  rw [hfirst]
  split_ifs
  · exact .inl ⟨rfl,fun _ => rfl⟩
  · exact .inl ⟨rfl,hknown s.sent⟩
  · refine .inr ⟨rfl,fun n => ?_⟩
    rw [← hknown s.sent n,Server.known,Server.known,find_store hmem,SetOwner.made]
    dsimp only
    split_ifs <;> rfl

lemma told_handle (e : Event) :
    told client name (s.handle e).sent = told client name s.sent + (taken client name s e).toNat := by
  cases e with
  | setOwner req =>
    simp only [Server.handle,taken]
    obtain ⟨hsent,hknown⟩ | ⟨hsent,hknown⟩ := procSetSelectionOwner_cases s req
    · simp [hsent,hknown]
    · rw [hsent,hknown,told,List.countP_append,told,Nat.add_left_cancel_iff]
      by_cases hname : req.selection = name
      · subst hname
        cases hclient : (s.known req.selection).client with
        | none => simp [SetOwner.clears,hclient]
        | some old =>
          by_cases hsame : old = req.client <;> cases hpWin : req.pWin <;>
            simp [SetOwner.clears,SetOwner.made,hclient,hpWin,hsame] <;> grind
      · simp [hname,SetOwner.clears,List.countP_eq_zero]
  | lookup | deleteWindow | deleteClient => rfl

/-- Whatever happens, a client is told once of each request that takes a selection from it, and of nothing else. -/
theorem told_takings (es : List Event) :
    told client name (es.foldl Server.handle s).sent = told client name s.sent + takings client name s es := by
  induction es generalizing s with
  | nil => rfl
  | cons e es ih => rw [List.foldl_cons,ih,told_handle,takings,Nat.add_assoc]

end Xlibre.Dix.Selections
