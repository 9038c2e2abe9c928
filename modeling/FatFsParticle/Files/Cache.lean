import FatFsParticle.Files.Rules

/-!
# The sector buffer

A file object is sound if its buffer, where it is clean, holds what its sector holds,
and if the sector that the file pointer is inside of is the buffered one. What a reader
then sees is the disk with a dirty buffer in the place of its sector. Loading and
writing back keep that sight, and reading returns a part of it.
-/

namespace FatFsParticle.Files
open Interact Program Cells

/-! ## Flags -/

theorem or_and_disjoint {x d b : BYTE} (h : b &&& d = 0) : (x ||| d) &&& b = x &&& b := by
  ext i hi
  have at_ := congrArg (fun y : BYTE => y.getLsbD i) h
  simp at at_ ⊢
  grind

theorem clear_and_disjoint {x d b : BYTE} (h : b &&& d = 0) : (x &&& ~~~d) &&& b = x &&& b := by
  ext i hi
  have at_ := congrArg (fun y : BYTE => y.getLsbD i) h
  simp at at_ ⊢
  grind

variable {Name : Type}

namespace FIL

variable {fp : FIL Name} {b d : BYTE}

theorem has_set_other (h : b &&& d = 0) : (fp.set d).has b = fp.has b := by
  unfold has set
  rw [or_and_disjoint h]

theorem has_clear_other (h : b &&& d = 0) : (fp.clear d).has b = fp.has b := by
  unfold has clear
  rw [clear_and_disjoint h]

@[simp] theorem has_set_dirty (fp : FIL Name) : (fp.set faDirty).has faDirty = true := by
  have same : (fp.flag ||| faDirty) &&& faDirty = faDirty := by
    rw [BitVec.and_comm]
    ext i hi
    simp
    grind
  unfold has set
  rw [same]
  rfl

@[simp] theorem has_clear_dirty (fp : FIL Name) : (fp.clear faDirty).has faDirty = false := by
  have none_ : fp.flag &&& ~~~faDirty &&& faDirty = 0 := by
    rw [BitVec.and_assoc]
    simp
  unfold has clear
  rw [none_]
  rfl

@[simp] theorem has_set_modified (fp : FIL Name) : (fp.set faModified).has faModified = true := by
  have same : (fp.flag ||| faModified) &&& faModified = faModified := by
    rw [BitVec.and_comm]
    ext i hi
    simp
    grind
  unfold has set
  rw [same]
  rfl

/-- The same open file; what may differ is its buffer, with its flag, and its chain. -/
structure Rebuffered (fp fp' : FIL Name) : Prop where
  name : fp'.name = fp.name
  attached : fp'.attached = fp.attached
  csize : fp'.csize = fp.csize
  err : fp'.err = fp.err
  fptr : fp'.fptr = fp.fptr
  objsize : fp'.objsize = fp.objsize
  modes : ∀ b : BYTE, b &&& faDirty = 0 → fp'.has b = fp.has b

namespace Rebuffered

variable {fp' fp'' : FIL Name}

theorem refl (fp : FIL Name) : Rebuffered fp fp := ⟨rfl, rfl, rfl, rfl, rfl, rfl, fun _ _ => rfl⟩

theorem trans (h : Rebuffered fp fp') (h' : Rebuffered fp' fp'') : Rebuffered fp fp'' where
  name := h'.name.trans h.name
  attached := h'.attached.trans h.attached
  csize := h'.csize.trans h.csize
  err := h'.err.trans h.err
  fptr := h'.fptr.trans h.fptr
  objsize := h'.objsize.trans h.objsize
  modes b d := (h'.modes b d).trans (h.modes b d)

theorem clear (fp : FIL Name) : Rebuffered fp (fp.clear faDirty) :=
  ⟨rfl, rfl, rfl, rfl, rfl, rfl, fun _ => has_clear_other⟩

theorem set (fp : FIL Name) : Rebuffered fp (fp.set faDirty) :=
  ⟨rfl, rfl, rfl, rfl, rfl, rfl, fun _ => has_set_other⟩

theorem buffer (h : Rebuffered fp fp') (buf : Nat → BYTE) (sect : Option Nat) :
    Rebuffered fp { fp' with buf := buf, sect := sect } :=
  ⟨h.name, h.attached, h.csize, h.err, h.fptr, h.objsize, h.modes⟩

theorem bcs (h : Rebuffered fp fp') : fp'.bcs = fp.bcs := congrArg (· * ss) h.csize

end Rebuffered

/-- The same open file with the same flags but those of `x`. -/
structure Like (x : BYTE) (fp fp' : FIL Name) : Prop where
  name : fp'.name = fp.name
  attached : fp'.attached = fp.attached
  csize : fp'.csize = fp.csize
  modes : ∀ b : BYTE, b &&& x = 0 → fp'.has b = fp.has b

namespace Like

variable {x : BYTE} {fp' fp'' : FIL Name}

theorem refl (x : BYTE) (fp : FIL Name) : Like x fp fp := ⟨rfl, rfl, rfl, fun _ _ => rfl⟩

theorem trans (h : Like x fp fp') (h' : Like x fp' fp'') : Like x fp fp'' where
  name := h'.name.trans h.name
  attached := h'.attached.trans h.attached
  csize := h'.csize.trans h.csize
  modes b d := (h'.modes b d).trans (h.modes b d)

theorem bcs (h : Like x fp fp') : fp'.bcs = fp.bcs := congrArg (· * ss) h.csize

end Like

theorem like_set (fp : FIL Name) (x : BYTE) : Like x fp (fp.set x) :=
  ⟨rfl, rfl, rfl, fun _ => has_set_other⟩

theorem Like.wider {x y : BYTE} {fp' : FIL Name} (h : Like x fp fp')
    (wider : ∀ b : BYTE, b &&& y = 0 → b &&& x = 0) : Like y fp fp' :=
  ⟨h.name, h.attached, h.csize, fun b d => h.modes b (wider b d)⟩

theorem Rebuffered.like {fp' : FIL Name} (h : Rebuffered fp fp') : Like faDirty fp fp' :=
  ⟨h.name, h.attached, h.csize, h.modes⟩

end FIL

/-! ## Volumes -/

namespace Volume

variable {v v' v'' : Volume Name} {n m : Name} {f : Node}

theorem data_some (h : v.node n = some f) : v.data n = f.data := by
  unfold data
  rw [h]
  rfl

theorem size_some (h : v.node n = some f) : v.size n = f.size.toNat := by
  unfold size
  rw [h]
  rfl

theorem size_none (h : v.node n = none) : v.size n = 0 := by
  unfold size
  rw [h]
  rfl

theorem covered_some (h : v.node n = some f) : v.covered n = f.covered := by
  unfold covered
  rw [h]
  rfl

theorem covered_none (h : v.node n = none) : v.covered n = none := by
  unfold covered
  rw [h]
  rfl

theorem covered_congr (same : v'.node n = v.node n) : v'.covered n = v.covered n := by
  unfold covered
  rw [same]

theorem ctr_some (h : v.node n = some f) : v.ctr n = f.ctr := by
  unfold ctr
  rw [h]
  rfl

/-- Only the chain of `n` may have changed, what is in it, and what the disk has of the entry. -/
structure Touches (n : Name) (v v' : Volume Name) : Prop where
  csize : v'.csize = v.csize
  others : ∀ m, m ≠ n → v'.node m = v.node m
  entry : ∀ f, v.node n = some f → ∃ f', v'.node n = some f' ∧ f'.size = f.size
  ctr : v'.ctr n = v.ctr n

theorem Touches.refl (n : Name) (v : Volume Name) : Touches n v v :=
  ⟨rfl, fun _ _ => rfl, fun f at_ => ⟨f, at_, rfl⟩, rfl⟩

theorem Touches.trans (h : Touches n v v') (h' : Touches n v' v'') : Touches n v v'' where
  csize := h'.csize.trans h.csize
  others m other := (h'.others m other).trans (h.others m other)
  entry f at_ := by
    obtain ⟨f', at', same⟩ := h.entry f at_
    obtain ⟨f'', at'', same'⟩ := h'.entry f' at'
    exact ⟨f'', at'', same'.trans same⟩
  ctr := h'.ctr.trans h.ctr

theorem Touches.same_size (h : Touches n v v') (there : (v.node n).isSome) : v'.size n = v.size n := by
  obtain ⟨f, at_⟩ := Option.isSome_iff_exists.1 there
  obtain ⟨f', at', size⟩ := h.entry f at_
  rw [size_some at_, size_some at', size]

theorem Touches.isSome (h : Touches n v v') (there : (v.node n).isSome) : (v'.node n).isSome := by
  obtain ⟨f, at_⟩ := Option.isSome_iff_exists.1 there
  obtain ⟨f', at', -⟩ := h.entry f at_
  rw [at']
  rfl

section
variable [DecidableEq Name]

@[simp] theorem node_setNode (v : Volume Name) (n : Name) (f : Node) :
    (v.setNode n f).node n = some f := Function.update_self ..

theorem node_setNode_ne (v : Volume Name) (f : Node) (h : m ≠ n) :
    (v.setNode n f).node m = v.node m := Function.update_of_ne h ..

theorem touches_setNode {f' : Node} (h : v.node n = some f) (same : f'.size = f.size)
    (ctr : f'.ctr = f.ctr) : Touches n v (v.setNode n f') where
  csize := rfl
  others m other := node_setNode_ne v f' other
  entry g at_ := by
    cases h.symm.trans at_
    exact ⟨f', node_setNode v n f', same⟩
  ctr := by rw [ctr_some h, ctr_some (node_setNode v n f'), ctr]

theorem touches_writeData (v : Volume Name) (n : Name) (off : Nat) (bytes : List BYTE) :
    Touches n v (v.writeData n off bytes) := by
  unfold writeData
  split
  · rename_i f at_
    exact touches_setNode at_ rfl rfl
  · exact .refl n v

theorem covered_writeData (v : Volume Name) (n : Name) (off : Nat) (bytes : List BYTE) :
    (v.writeData n off bytes).covered n = v.covered n := by
  unfold writeData
  split
  · rename_i f at_
    rw [covered_some (node_setNode v n _), covered_some at_]
    rfl
  · rfl

theorem data_writeData (h : (v.node n).isSome) (off : Nat) (bytes : List BYTE) :
    (v.writeData n off bytes).data n = put (v.data n) off bytes := by
  obtain ⟨f, at_⟩ := Option.isSome_iff_exists.1 h
  unfold writeData
  simp only [at_]
  rw [data_some (node_setNode v n _), data_some at_]

theorem touches_stretch (v : Volume Name) (n : Name) : Touches n v (v.stretch n) := by
  unfold stretch
  split
  · rename_i f at_
    exact touches_setNode at_ rfl rfl
  · exact .refl n v

theorem data_stretch (v : Volume Name) (n : Name) : (v.stretch n).data n = v.data n := by
  unfold stretch
  split
  · rename_i f at_
    rw [data_some (node_setNode v n _), data_some at_]
    rfl
  · rfl

theorem touches_enter (v : Volume Name) (n : Name) : Touches n v (v.enter n) := by
  unfold enter
  split
  · rename_i f at_
    exact touches_setNode at_ rfl rfl
  · exact .refl n v

theorem data_enter (v : Volume Name) (n : Name) : (v.enter n).data n = v.data n := by
  unfold enter
  split
  · rename_i f at_
    rw [data_some (node_setNode v n _), data_some at_]
    rfl
  · rfl

end

end Volume

open Volume

/-! ## Sound file objects -/

namespace FIL

variable {fp fp' : FIL Name} {v v' : Volume Name} {s i : Nat}

/-- The disk with a dirty buffer in the place of its sector. -/
def bytes (fp : FIL Name) (v : Volume Name) : Nat → BYTE := fp.view (v.data fp.name)

structure Sound (fp : FIL Name) (v : Volume Name) : Prop where
  entry : (v.node fp.name).isSome
  roomy : 0 < fp.csize
  clean : fp.has faDirty = false → ∀ s, fp.sect = some s →
    ∀ i < ss, fp.buf i = v.data fp.name (s * ss + i)
  dirty : fp.has faDirty = true → ∃ s, fp.sect = some s
  here : fp.fptr % ss ≠ 0 → fp.sect = some (fp.fptr / ss)

theorem view_clean (h : fp.has faDirty = false) (data : Nat → BYTE) : fp.view data = data := by
  funext i
  unfold view
  rw [h]
  exact if_neg (by simp)

theorem view_other {data : Nat → BYTE} (h : fp.sect ≠ some (i / ss)) : fp.view data i = data i := by
  unfold view
  rw [if_neg fun both => h both.2]

theorem view_dirty {data : Nat → BYTE} (h : fp.has faDirty = true) (at_ : fp.sect = some (i / ss)) :
    fp.view data i = fp.buf (i % ss) := by
  unfold view
  rw [if_pos ⟨h, at_⟩]

theorem bytes_clean (h : fp.has faDirty = false) (v : Volume Name) : fp.bytes v = v.data fp.name :=
  view_clean h _

/-- A clean buffer is not seen. -/
theorem bytes_buffer (h : fp.has faDirty = false) (v : Volume Name) (buf : Nat → BYTE)
    (sect : Option Nat) : ({ fp with buf := buf, sect := sect } : FIL Name).bytes v = fp.bytes v := by
  have clean : ({ fp with buf := buf, sect := sect } : FIL Name).has faDirty = false := h
  rw [bytes_clean clean, bytes_clean h]

theorem sector_add (s : Nat) (h : i < ss) : (s * ss + i) / ss = s ∧ (s * ss + i) % ss = i := by
  constructor
  · rw [Nat.mul_comm, Nat.mul_add_div (by decide), Nat.div_eq_of_lt h, Nat.add_zero]
  · rw [Nat.mul_comm, Nat.mul_add_mod, Nat.mod_eq_of_lt h]

/-- What is seen of the buffered sector is the buffer. -/
theorem Sound.buffered (h : fp.Sound v) (at_ : fp.sect = some s) (inside : i < ss) :
    fp.bytes v (s * ss + i) = fp.buf i := by
  obtain ⟨quot, rem⟩ := sector_add s inside
  unfold bytes
  cases dirty : fp.has faDirty with
  | true => rw [view_dirty dirty (by rw [at_, quot]), rem]
  | false => rw [view_clean dirty, h.clean dirty s at_ i inside]

/-- Bytes from the file pointer on, as far as they are in the buffered sector. -/
theorem Sound.slice_buf (h : fp.Sound v) (at_ : fp.sect = some (fp.fptr / ss)) {n : Nat}
    (inside : fp.fptr % ss + n ≤ ss) :
    slice fp.buf (fp.fptr % ss) n = slice (fp.bytes v) fp.fptr n := by
  apply slice_shift
  intro i lt
  rw [← h.buffered at_ (show fp.fptr % ss + i < ss by omega)]
  congr 1
  have := Nat.div_add_mod' fp.fptr ss
  omega

end FIL

/-- A file object stays sound while its file keeps its bytes. -/
theorem FIL.Sound.frame {fp : FIL Name} {v v' : Volume Name} (h : fp.Sound v)
    (entry : (v'.node fp.name).isSome) (data : v'.data fp.name = v.data fp.name) : fp.Sound v' :=
  ⟨entry, h.roomy, data ▸ h.clean, h.dirty, h.here⟩

theorem Volume.data_eq {v v' : Volume Name} {n : Name} (there : (v.node n).isSome)
    (same : v'.node n = v.node n) : v'.data n = v.data n := by
  obtain ⟨f, at_⟩ := Option.isSome_iff_exists.1 there
  rw [data_some at_, data_some (same.trans at_)]

/-- A clean object is sound with the buffer filled from a sector. -/
theorem FIL.Sound.filled {fp : FIL Name} {v : Volume Name} (h : fp.Sound v) {n : Nat}
    (here : fp.fptr % ss ≠ 0 → fp.fptr / ss = n) (clean : fp.has faDirty = false) :
    ({ fp with buf := fun i => v.data fp.name (n * ss + i), sect := some n } : FIL Name).Sound v where
  entry := h.entry
  roomy := h.roomy
  clean _ s at_ i _ := by
    cases at_
    rfl
  dirty := fun dirty => absurd dirty (by simpa [FIL.has] using clean)
  here off := congrArg some (here off).symm

/-! ## Writing the buffer back and filling it -/

section
variable {G : Answers Name} {fp : FIL Name} {s : Snap Name}

/-- No answer is an error. -/
def healthy : Answers Name
  | .findVolume _, r | .removeChain _, r | .validate _, r => r = .ok
  | .getFat _, a => a = none
  | .createChain _, a => ∀ f, a ≠ .fault f
  | .diskRead _, b | .moveWindow _, b => b = true
  | .diskWrite _ _, a => a = none
  | .syncFs _, a => a = none
  | _, _ => True

theorem sampleHost_healthy {σ : Type} (block : DRESULT × Option DWORD) (o : Outside Name) (e : σ) :
    healthy o (sampleHost block o e).1 := by
  cases o with
  | createChain => exact fun f no => nomatch no
  | followPath | dirRegister | window | diskIoctl | errorCallback => trivial
  | _ => rfl

def Answers.Healthy (G : Answers Name) : Prop := ∀ o a, G o a → healthy o a

/-- A dirty buffer written over its sector. -/
theorem view_put {i : Nat} (dirty : fp.has faDirty = true) {sct : Nat} (at_ : fp.sect = some sct)
    (data : Nat → BYTE) : put data (sct * ss) (slice fp.buf 0 ss) i = fp.view data i := by
  by_cases inside : i / ss = sct
  · have place := Nat.div_add_mod' i ss
    rw [inside] at place
    have lt : i % ss < ss := Nat.mod_lt _ (by decide)
    rw [FIL.view_dirty dirty (by rw [at_, inside]), put_at _ (by omega) (by simp; omega)]
    simp only [slice, List.getElem_map, List.getElem_range, Nat.zero_add]
    congr 1
    omega
  · rw [FIL.view_other (by rw [at_]; exact fun eq => inside (Option.some.inj eq).symm)]
    by_cases before : i < sct * ss
    · exact put_before _ _ before
    · refine put_after _ ?_
      have := Nat.div_add_mod' i ss
      have := Nat.mod_lt i (show 0 < ss by decide)
      simp only [length_slice]
      by_contra within
      exact inside (Nat.div_eq_of_lt_le (by omega) (by rw [Nat.add_mul]; omega))

/-- How a write-back ends: there was nothing to do, or it went by the answer of the disk. -/
inductive WroteBack (G : Answers Name) (fp : FIL Name) (s : Snap Name) :
    FRESULT × FIL Name → Snap Name → Prop
  | nothing (clean : fp.has faDirty = false) : WroteBack G fp s (.ok, fp) s
  | done {v : Volume Name} (answer : G (.diskWrite fp.name 1) none) (touches : Touches fp.name s.vol v)
      (data : v.data fp.name = fp.bytes s.vol) (disk : v.covered fp.name = s.vol.covered fp.name) :
      WroteBack G fp s (.ok, fp.clear faDirty)
        ((s.logged (.answered (.diskWrite fp.name 1) none)).withVol v)
  | failed {v : Volume Name} {k : Nat} (answer : G (.diskWrite fp.name 1) (some k))
      (touches : Touches fp.name s.vol v)
      (data : v.data fp.name = if k = 0 then s.vol.data fp.name else fp.bytes s.vol)
      (disk : v.covered fp.name = s.vol.covered fp.name) :
      WroteBack G fp s (.diskErr, fp)
        ((s.logged (.answered (.diskWrite fp.name 1) (some k))).withVol v)

namespace WroteBack

variable {r : FRESULT × FIL Name} {t : Snap Name}

theorem touches (h : WroteBack G fp s r t) : Touches fp.name s.vol t.vol := by
  cases h with
  | nothing => exact .refl _ _
  | done _ touches => exact touches
  | failed _ touches => exact touches

theorem disk (h : WroteBack G fp s r t) : t.vol.covered fp.name = s.vol.covered fp.name := by
  cases h with
  | nothing => rfl
  | done _ _ _ disk => exact disk
  | failed _ _ _ disk => exact disk

/-- Every byte on the disk is as before, or what was seen of it. -/
theorem framed (h : WroteBack G fp s r t) (i : Nat) :
    t.vol.data fp.name i = s.vol.data fp.name i ∨ t.vol.data fp.name i = fp.bytes s.vol i := by
  cases h with
  | nothing => exact .inl rfl
  | done _ _ data => exact .inr (congrFun data i)
  | failed _ _ data =>
    rw [Snap.withVol_vol, data]
    split
    · exact .inl rfl
    · exact .inr rfl

/-- After a success what was seen is on the disk. -/
theorem data (h : WroteBack G fp s r t) (ok : r.1 = .ok) :
    t.vol.data fp.name = fp.bytes s.vol ∧ r.2.has faDirty = false := by
  cases h with
  | nothing clean => exact ⟨(FIL.bytes_clean clean _).symm, clean⟩
  | done _ _ data => exact ⟨data, fp.has_clear_dirty⟩
  | failed => cases ok

theorem object (h : WroteBack G fp s r t) : r.2 = fp ∨ r.2 = fp.clear faDirty := by
  cases h with
  | nothing => exact .inl rfl
  | done => exact .inr rfl
  | failed => exact .inl rfl

theorem same (h : WroteBack G fp s r t) : fp.Rebuffered r.2 := by
  cases h with
  | nothing => exact .refl fp
  | done => exact .clear fp
  | failed => exact .refl fp

theorem clusters (h : WroteBack G fp s r t) : r.2.clusters = fp.clusters := by
  cases h with
  | nothing => rfl
  | done => rfl
  | failed => rfl

theorem healthy (h : WroteBack G fp s r t) (well : G.Healthy) : r.1 = .ok := by
  cases h with
  | nothing => rfl
  | done => rfl
  | failed answer => cases well _ _ answer

theorem bytes (h : WroteBack G fp s r t) (ok : r.1 = .ok) : r.2.bytes t.vol = fp.bytes s.vol := by
  obtain ⟨data, clean⟩ := h.data ok
  rw [FIL.bytes_clean clean, h.same.name, data]

theorem sound (h : WroteBack G fp s r t) (before : fp.Sound s.vol) (ok : r.1 = .ok) :
    r.2.Sound t.vol := by
  obtain ⟨data, clean⟩ := h.data ok
  have entry := h.touches.isSome before.entry
  have same : ∀ s', fp.sect = some s' → ∀ i < ss, fp.buf i = t.vol.data fp.name (s' * ss + i) := by
    intro s' at_ i lt
    rw [data]
    exact (before.buffered at_ lt).symm
  rcases h.object with obj | obj
  · rw [obj] at clean ⊢
    exact ⟨entry, before.roomy, fun _ => same, fun dirty => absurd dirty (by rw [clean]; decide),
      before.here⟩
  · rw [obj] at clean ⊢
    exact ⟨entry, before.roomy, fun _ => same, fun dirty => absurd dirty (by rw [clean]; decide),
      before.here⟩

end WroteBack

theorem wp_fill (n : Nat) {Q : FRESULT × FIL Name → Snap Name → Prop}
    (ok : G (.diskRead fp.name) true →
      Q (.ok, { fp with buf := fun i => s.vol.data fp.name (n * ss + i) })
        (s.logged (.answered (.diskRead fp.name) true)))
    (failed : G (.diskRead fp.name) false →
      Q (.diskErr, fp) (s.logged (.answered (.diskRead fp.name) false))) :
    (fill fp n).wp (rules G) Q s := by
  unfold fill
  rw [wp_bind]
  apply (wp_ask _ _ _ _).2
  intro a answer
  rw [wp_bind, wp_load]
  cases a with
  | true => exact ok answer
  | false => exact failed answer

variable [DecidableEq Name]

/-- What a move of the window leaves of a new entry of `n`. -/
inductive MovedOn (n : Name) (s : Snap Name) : Snap Name → Prop
  | idle (settled : s.vol.pending n = false) : MovedOn n s s
  | kept : MovedOn n s (s.logged (.answered (.window n) false))
  | written (pending : s.vol.pending n = true) :
    MovedOn n s ((s.logged (.answered (.window n) true)).withVol (s.vol.enter n))

theorem MovedOn.touches {n : Name} {t : Snap Name} (h : MovedOn n s t) :
    Touches n s.vol t.vol ∧ t.vol.data n = s.vol.data n := by
  cases h with
  | idle => exact ⟨.refl _ _, rfl⟩
  | kept => exact ⟨.refl _ _, rfl⟩
  | written => exact ⟨touches_enter _ _, data_enter _ _⟩

theorem wp_moveOn (n : Name) (s : Snap Name) :
    (moveOn n).wp (rules G) (fun _ t => MovedOn n s t) s := by
  unfold moveOn
  rw [wp_bind, wp_load]
  split
  · rename_i pending
    rw [wp_bind]
    apply (wp_ask _ _ _ _).2
    intro written _
    cases written with
    | true => exact (wp_store _ _ _ _).2 (.written pending)
    | false => exact .kept
  · rename_i settled
    exact .idle (by simpa using settled)

theorem wp_diskWrite (n : Name) (off : Nat) (bytes : List BYTE) (count : Nat)
    {Q : Bool → Snap Name → Prop} (s : Snap Name) :
    (diskWrite n off bytes count).wp (rules G) Q s ↔ ∀ a, G (.diskWrite n count) a →
      Q a.isNone ((s.logged (.answered (.diskWrite n count) a)).withVol
        (s.vol.writeData n off (a.elim bytes fun k => bytes.take (k * ss)))) := by
  unfold diskWrite
  rw [wp_bind]
  refine (wp_ask _ _ _ _).trans (forall_congr' fun a => imp_congr_right fun _ => ?_)
  cases a with
  | none =>
    rw [wp_bind, wp_store]
    rfl
  | some k =>
    rw [wp_bind, wp_store]
    rfl

theorem wp_writeBack (entry : (s.vol.node fp.name).isSome)
    (held : fp.has faDirty = true → ∃ s, fp.sect = some s) :
    (writeBack fp).wp (rules G) (WroteBack G fp s) s := by
  unfold writeBack
  cases dirty : fp.has faDirty with
  | false => exact .nothing dirty
  | true =>
    obtain ⟨sct, at_⟩ := held dirty
    simp only [at_]
    rw [wp_bind, wp_diskWrite]
    intro a answer
    have whole : put (s.vol.data fp.name) (sct * ss) (slice fp.buf 0 ss) = fp.bytes s.vol :=
      funext fun i => view_put dirty at_ _
    have touches := touches_writeData s.vol fp.name (sct * ss)
    have data := data_writeData entry (sct * ss)
    have disk := covered_writeData s.vol fp.name (sct * ss)
    cases a with
    | none =>
      rw [Option.elim_none]
      exact .done answer (touches _) ((data _).trans whole) (disk _)
    | some k =>
      rw [Option.elim_some]
      refine .failed answer (touches _) ((data _).trans ?_) (disk _)
      cases k with
      | zero => simp
      | succ k =>
        have all : ss ≤ (k + 1) * ss := Nat.le_mul_of_pos_left _ (Nat.succ_pos k)
        rw [List.take_of_length_le (by rwa [length_slice]), whole, if_neg (Nat.succ_ne_zero k)]

end

end FatFsParticle.Files
