import FatFsParticle.Drives.Effects

/-!
# Attaching and detaching

What a call of `attach`, `detach` or the destructor comes to, by the slot it meets and
the volume its path names. The path of `attach` names the volume of its number, or
volume 0 for the numbers where the digit wraps; the path of `detach` names volume 0 for
every number that is a control character.
-/

namespace FatFsParticle.Drives

/-- The drive is ready and has a volume. -/
def Answers.Good (a : Answers) : Prop := a.init &&& staNoinit = 0 ∧ ∃ t, a.scan = .found t

instance (a : Answers) : Decidable a.Good :=
  match scan : a.scan with
  | .found t => decidable_of_iff (a.init &&& staNoinit = 0) (by simp [Answers.Good, scan])
  | .diskErr => .isFalse (by simp [Answers.Good, scan])
  | .noFilesystem => .isFalse (by simp [Answers.Good, scan])

namespace Registry

variable {D : Type} {g : Config D} {s s' : Registry D}

theorem mountable_read {vol : Nat} {a : Answers} :
    Mountable s vol false a ↔ s.slot vol ≠ none ∧ a.Good := by
  simp [Mountable, Answers.Good]

theorem attachPath_named (g : Config D) (n : BYTE) :
    getLdnumber g.volumes (some (attachPath n)) = attachVolume g.volumes n.toNat :=
  getLdnumber_attachPath g.accepted.2 n

theorem detachPath_named (g : Config D) (n : BYTE) :
    getLdnumber g.volumes (some (detachPath n)) = detachVolume g.volumes n.toNat :=
  getLdnumber_detachPath g.accepted.2 n

/-- The slots when `attach` has taken one for `d`. -/
def placed (s : Registry D) (n : Nat) (d : D) : Registry D := (s.grow n).setSlot n (some d)

theorem slot_placed (n : Nat) (d : D) (i : Nat) :
    (s.placed n d).slot i = if i = n then some d else s.slot i := by
  unfold placed
  rw [slot_setSlot (lt_grow n), slot_grow]

@[simp] theorem length_placed (n : Nat) (d : D) :
    (s.placed n d).drivers.length = max s.drivers.length (n + 1) := by
  simp [placed]

theorem lt_placed (n : Nat) (d : D) : n < (s.placed n d).drivers.length := by
  rw [length_placed]
  omega

/-- A slot taken and given back. -/
theorem slot_placed_back {n : Nat} (d : D) (free : s.slot n = none) (i : Nat) :
    ((s.placed n d).setSlot n none).slot i = s.slot i := by
  rw [slot_setSlot (lt_placed n d), slot_placed]
  split
  case isTrue same => rw [same, free]
  case isFalse => rfl

/-- The driver in slot 0, when `attach` has taken its slot. -/
theorem placed_first {n : Nat} (d : D) :
    (s.placed n d).slot 0 ≠ none ↔ n = 0 ∨ s.slot 0 ≠ none := by
  rw [slot_placed]
  by_cases zero : 0 = n
  · simp [zero]
  · simp [zero, Ne.symm zero]

theorem mem_prepared {vol : Nat} {f : Fs D} {e : Event D} (h : e ∈ prepared g vol f s) :
    e = .fs f ∨ g.reentrant = true ∧
      (e = .mutex vol ∨ ∃ d' ∈ s.slot 0, e = .ioctl d' (BitVec.ofNat 8 vol)) := by
  unfold prepared at h
  cases hr : g.reentrant with
  | false => exact .inl (by simpa [hr] using h)
  | true =>
    cases slot : s.slot 0 with
    | none => exact .inl (by simpa [hr, slot] using h)
    | some d' =>
      simp only [hr, slot, if_pos, Option.elim, List.mem_append, List.mem_cons, List.not_mem_nil,
        or_false] at h
      rcases h with (rfl | made) | rfl
      · exact .inl rfl
      · rcases mem_created made with rfl | rfl
        · exact .inr ⟨rfl, .inl rfl⟩
        · exact .inr ⟨rfl, .inr ⟨d', rfl, rfl⟩⟩
      · exact .inl rfl

variable [DecidableEq D]

/-! ## `attach` -/

theorem attach_occupied (d : D) (a : Answers) {n : BYTE} (taken : s.slot n.toNat ≠ none) :
    attach g d n a s = .ok (.invalidDrive, s.grow n.toNat) := by
  have inside : n.toNat < (s.grow n.toNat).drivers.length := lt_grow n.toNat
  obtain ⟨d', here⟩ := Option.ne_none_iff_exists'.1 taken
  unfold attach
  dsimp only
  rw [index_of_lt inside, slot_grow, here, ok_bind]
  rfl

/-- Past the first test `attach` mounts. -/
theorem attach_free (d : D) (a : Answers) {n : BYTE} (free : s.slot n.toNat = none) :
    attach g d n a s =
      (fMount g (some (.own d)) (some (attachPath n)) 1 a (s.placed n.toNat d)).map fun out =>
        let s := out.2.setAttached d (out.1 == .ok)
        (out.1, if out.1 = .ok then s.setDriveNumber d n else s.setSlot n.toNat none) := by
  have inside : n.toNat < (s.grow n.toNat).drivers.length := lt_grow n.toNat
  unfold attach
  dsimp only
  rw [index_of_lt inside, slot_grow, free, ok_bind, if_neg (by simp)]
  have same : (s.grow n.toNat).setSlot n.toNat (some d) = s.placed n.toNat d := rfl
  rw [same]
  cases fMount g (some (.own d)) (some (attachPath n)) 1 a (s.placed n.toNat d) with
  | error e => rfl
  | ok out =>
    rw [ok_bind]
    by_cases mounted : out.1 = .ok
    · dsimp only [Except.map]
      rw [if_neg (not_not.2 mounted), if_pos mounted]
      rfl
    · dsimp only [Except.map]
      rw [if_pos mounted, if_neg mounted]
      rfl

/-- No volume of that name: the driver is not kept. -/
theorem attach_unnamed (d : D) (a : Answers) {n : BYTE} (free : s.slot n.toNat = none)
    (named : attachVolume g.volumes n.toNat = none) :
    attach g d n a s = .ok (.invalidDrive,
      ((s.placed n.toNat d).setAttached d false).setSlot n.toNat none) := by
  have invalid : fMount g (some (.own d)) (some (attachPath n)) 1 a (s.placed n.toNat d) =
      .ok (.invalidDrive, s.placed n.toNat d) := by
    unfold fMount
    rw [attachPath_named, named]
    rfl
  rw [attach_free d a free, invalid]
  rfl

/-- With sync objects the driver in slot 0 is called, and there must be one. -/
theorem attach_null (d : D) (a : Answers) {n : BYTE} {vol : Nat} (free : s.slot n.toNat = none)
    (named : attachVolume g.volumes n.toNat = some vol) (hr : g.reentrant = true)
    (other : n.toNat ≠ 0) (null : s.slot 0 = none) :
    ∃ e, attach g d n a s = .error e ∧ e ≠ .lock := by
  have still : (unregister g vol (s.placed n.toNat d)).slot 0 = none := by
    rw [(unregister_effect g vol _).same.slot, slot_placed, if_neg other.symm, null]
  obtain ⟨e, fault, slots⟩ := register_null g vol (.own d) hr still
  have mount : fMount g (some (.own d)) (some (attachPath n)) 1 a (s.placed n.toNat d) =
      .error e := by
    unfold fMount
    rw [attachPath_named, named]
    dsimp only
    rw [fault]
    rfl
  rw [attach_free d a free, mount]
  exact ⟨e, rfl, slots⟩

/-- There is a driver in slot 0, and it stores what is no mutex. -/
theorem attach_lock (d : D) (a : Answers) {n : BYTE} {vol : Nat} (free : s.slot n.toNat = none)
    (named : attachVolume g.volumes n.toNat = some vol)
    (first : g.reentrant = true → n.toNat = 0 ∨ s.slot 0 ≠ none)
    (unsync : ¬ Syncs g (s.placed n.toNat d) vol) : attach g d n a s = .error .lock := by
  have first' := fun hr => (placed_first (s := s) (n := n.toNat) d).2 (first hr)
  rw [attach_free d a free, fMount_lock _ a ((attachPath_named g n).trans named) first' unsync]
  rfl

theorem attach_unsynced (d : D) (a : Answers) {n : BYTE} {vol : Nat} (free : s.slot n.toNat = none)
    (named : attachVolume g.volumes n.toNat = some vol)
    (unsync : ¬ Syncs g (s.placed n.toNat d) vol) : ∃ e, attach g d n a s = .error e := by
  by_cases first : g.reentrant = true → n.toNat = 0 ∨ s.slot 0 ≠ none
  · exact ⟨_, attach_lock d a free named first unsync⟩
  · rw [Classical.not_imp, not_or, not_not] at first
    obtain ⟨hr, other, null⟩ := first
    obtain ⟨e, fault, -⟩ := attach_null d a free named hr other null
    exact ⟨e, fault⟩

/-- A mount out of `attach`: `res` is what it returns, `new` what it touches. -/
structure Mounting (g : Config D) (d : D) (n : BYTE) (vol : Nat) (a : Answers)
    (s s' : Registry D) (res : FRESULT) (new : List (Event D)) : Prop where
  length : s'.drivers.length = max s.drivers.length (n.toNat + 1)
  slot : ∀ i, s'.slot i = if i = n.toNat ∧ res = .ok then some d else s.slot i
  attached : s'.attached = Function.update s.attached d (res == .ok)
  driveNumber : s'.driveNumber =
    if res = .ok then Function.update s.driveNumber d n else s.driveNumber
  volumes : s'.volumes = Function.update s.volumes vol (some (.own d))
  alive : s'.alive = s.alive
  mounts : Mounts (s.placed n.toNat d) s'
  log : s'.log = new ++ s.log
  released : ∀ e ∈ released g vol s, e ∈ new
  own : .fs (.own d) ∈ new
  only : ∀ e ∈ new, e ∈ Registry.released g vol s ∨ e = .fs (.own d) ∨ e = .files (.own d) ∨
    g.reentrant = true ∧ (e = .mutex vol ∨
      ∃ d' ∈ (s.placed n.toNat d).slot 0, e = .ioctl d' (BitVec.ofNat 8 vol))
  asked : g.reentrant = true → ∀ d' ∈ (s.placed n.toNat d).slot 0, ∀ e ∈ created g vol d', e ∈ new
  sync : g.reentrant = true → Made g (s.placed n.toNat d) s' vol
  result : res = .ok ↔ (vol = n.toNat ∨ s.slot vol ≠ none) ∧ a.Good

theorem attach_mounts (d : D) (a : Answers) {n : BYTE} {vol : Nat} (free : s.slot n.toNat = none)
    (named : attachVolume g.volumes n.toNat = some vol)
    (sync : Syncs g (s.placed n.toNat d) vol) :
    ∃ res s' new, attach g d n a s = .ok (res, s') ∧ Mounting g d n vol a s s' res new := by
  have named' := (attachPath_named g n).trans named
  have below : vol ≤ n.toNat := attachVolume_le named
  have inside : vol < (s.placed n.toNat d).drivers.length := by
    rw [length_placed]
    omega
  obtain ⟨res, s₁, new, mount, effect, released, prepare, only, result, made⟩ :=
    fMount_ok (.own d) a named' inside sync
  have slots (i : Nat) : s₁.slot i = (s.placed n.toNat d).slot i := effect.same.slot i
  have size : s₁.drivers.length = max s.drivers.length (n.toNat + 1) := by
    rw [effect.same.drivers]
    exact length_placed n.toNat d
  refine ⟨res, _, new, by rw [attach_free d a free, mount]; rfl, ?_⟩
  have attached : s₁.attached = s.attached := effect.same.attached
  have driveNumber : s₁.driveNumber = s.driveNumber := effect.same.driveNumber
  have volumes : s₁.volumes = Function.update s.volumes vol (some (.own d)) := effect.same.volumes
  dsimp only
  constructor
  case length => split <;> simpa [setAttached, setDriveNumber, setSlot] using size
  case slot =>
    intro i
    split
    case isTrue mounted =>
      change s₁.slot i = _
      rw [slots, slot_placed]
      simp [mounted]
    case isFalse refused =>
      change (s₁.setSlot n.toNat none).slot i = _
      rw [slot_setSlot (by rw [size]; omega), slots, slot_placed]
      by_cases same : i = n.toNat
      · simp [same, refused, free]
      · simp [same]
  case attached => split <;> simp [setAttached, setDriveNumber, setSlot, attached]
  case driveNumber => split <;> simp [setAttached, setDriveNumber, setSlot, driveNumber]
  case volumes => split <;> exact volumes
  case alive => split <;> exact effect.same.alive
  case mounts => split <;> exact effect.mounts
  case log => split <;> exact effect.log
  case released => exact released
  case own => exact prepare _ (by simp [prepared])
  case only =>
    intro e he
    rcases only e he with h | h | h
    · exact .inl h
    · rcases mem_prepared h with h | h
      · exact .inr (.inl h)
      · exact .inr (.inr (.inr h))
    · exact .inr (.inr (.inl h))
  case asked =>
    intro hr d' here e he
    refine prepare e ?_
    simp [prepared, hr, Option.mem_def.1 here, he]
  case sync => split <;> exact made
  case result =>
    rw [result, mountable_read, slot_placed]
    by_cases same : vol = n.toNat <;> simp [same]

/-! ## `detach` -/

theorem detach_range {n : BYTE} (h : s.drivers.length ≤ n.toNat) :
    detach g n s = .error (.range n.toNat) := by
  unfold detach
  dsimp only
  rw [index_of_le h]
  rfl

theorem detach_idle {n : BYTE} (inside : n.toNat < s.drivers.length)
    (idle : ∀ d, s.slot n.toNat = some d → s.attached d = false) : detach g n s = .ok s := by
  unfold detach
  dsimp only
  rw [index_of_lt inside, ok_bind]
  cases slot : s.slot n.toNat with
  | none => rfl
  | some d =>
    dsimp only
    rw [idle d slot]
    rfl

/-- `f_mount(nullptr, path, 0)` of `detach`. -/
def unmounted (g : Config D) (n : BYTE) (s : Registry D) : Registry D :=
  match detachVolume g.volumes n.toNat with
  | none => s
  | some vol => (unregister g vol s).setVolume vol none

theorem fMount_none (a : Answers) (n : BYTE) :
    ∃ res, fMount g none (some (detachPath n)) 0 a s = .ok (res, unmounted g n s) := by
  unfold fMount unmounted
  rw [detachPath_named]
  cases detachVolume g.volumes n.toNat with
  | none => exact ⟨_, rfl⟩
  | some vol => exact ⟨_, rfl⟩

/-- What `detach` does to the driver `d` it finds. -/
structure Unmounting (g : Config D) (d : D) (n : BYTE) (s s' : Registry D) : Prop where
  length : s'.drivers.length = s.drivers.length
  slot : ∀ i, s'.slot i = if i = n.toNat then none else s.slot i
  attached : s'.attached = s.attached
  driveNumber : s'.driveNumber = Function.update s.driveNumber d 255
  volumes : s'.volumes = (detachVolume g.volumes n.toNat).elim s.volumes
    fun vol => Function.update s.volumes vol none
  alive : s'.alive = s.alive
  mounts : Mounts s s'
  log : s'.log = (detachVolume g.volumes n.toNat).elim [] (released g · s) ++ s.log

theorem detach_runs {n : BYTE} {d : D} (here : s.slot n.toNat = some d)
    (attached : s.attached d = true) : ∃ s', detach g n s = .ok s' ∧ Unmounting g d n s s' := by
  have inside := lt_of_slot here
  obtain ⟨res, ran⟩ := fMount_none (g := g) (s := s) {} n
  have left : detach g n s =
      .ok (((unmounted g n s).setSlot n.toNat none).setDriveNumber d 255) := by
    unfold detach
    dsimp only
    rw [index_of_lt inside, here, ok_bind]
    dsimp only
    rw [if_pos attached, ran]
    rfl
  refine ⟨_, left, ?_⟩
  unfold unmounted
  cases named : detachVolume g.volumes n.toNat with
  | none =>
    exact ⟨length_setSlot _ _, slot_setSlot inside none, rfl, rfl, by rw [named]; rfl, rfl,
      .refl s, by rw [named]; rfl⟩
  | some vol =>
    have effect := setVolume_effect (unregister_effect g vol s) vol none
    have inside' : n.toNat < ((unregister g vol s).setVolume vol none).drivers.length := by
      rwa [effect.same.drivers]
    constructor
    case length => exact (length_setSlot _ _).trans (congrArg _ effect.same.drivers)
    case slot =>
      intro i
      have cleared := slot_setSlot inside' none i
      rw [effect.same.slot] at cleared
      exact cleared
    case attached => exact effect.same.attached
    case driveNumber => exact congrArg (Function.update · d 255) effect.same.driveNumber
    case volumes =>
      rw [named]
      exact effect.same.volumes
    case alive => exact effect.same.alive
    case mounts => exact effect.mounts
    case log =>
      rw [named]
      exact effect.log

end Registry

/-! ## Operations -/

/-- What a program does with its drivers. -/
inductive Operation (D : Type) where
  | attach (d : D) (n : BYTE) (a : Answers)
  | detach (n : BYTE)
  | destroy (d : D)

open Registry in
def operate {D : Type} [DecidableEq D] (g : Config D) (s : Registry D) :
    Operation D → Except Fault (Registry D)
  | .attach d n a => (attach g d n a s).map Prod.snd
  | .detach n => detach g n s
  | .destroy d => destroy g d s

/-! ## Two configurations -/

/-- One volume, no sync objects. -/
def single (D : Type) : Config D where
  volumes := 1
  accepted := by decide
  reentrant := false
  ioctl _ _ := none
  isMutex _ := false

/-- A drive with a FAT volume. -/
def formatted : Answers where
  scan := .found .fat16

/-- Two volumes and sync objects; the drivers hand out no mutex. -/
def pair (D : Type) : Config D where
  volumes := 2
  accepted := by decide
  reentrant := true
  ioctl _ _ := none
  isMutex _ := false

end FatFsParticle.Drives
