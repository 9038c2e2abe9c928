import FatFsParticle.Drives.Steps

/-!
# An attach that fails

`attach` takes its slot back when the mount fails. What `f_mount` has done before it
looks at the drive stays: the object that was registered is let go of, the new one is in
the volume table, and `_attached` is cleared even where the driver is attached elsewhere.
-/

namespace FatFsParticle.Drives
namespace Registry

variable {D : Type} [DecidableEq D] {g : Config D} {s s' : Registry D}

/-! ## File system objects -/

theorem unregister_fs {vol : Nat} {f : Fs D} (other : s.volumes vol ≠ some f) :
    (unregister g vol s).fs f = s.fs f := by
  unfold unregister
  cases held : s.volumes vol with
  | none => rfl
  | some cfs =>
    have apart : f ≠ cfs := by
      rintro rfl
      exact other held
    have released : (if g.reentrant then (s.clearLock cfs).delSyncobj ((s.clearLock cfs).fs cfs).sobj
        else s.clearLock cfs).fs = s.fs := by
      cases g.reentrant with
      | false => rfl
      | true => cases h : ((s.clearLock cfs).fs cfs).sobj <;> simp [delSyncobj, setMutex, clearLock]
    simp only [setFs, Function.update_of_ne apart, released]

theorem register_fs {vol : Nat} {f f' : Fs D} (sync : g.reentrant = true → s.slot 0 ≠ none)
    (made : register g vol (some f) s = .ok s') (other : f' ≠ f) : s'.fs f' = s.fs f' := by
  unfold register at made
  dsimp only at made
  cases hr : g.reentrant with
  | false =>
    rw [hr] at made
    cases made
    simp [setVolume, setFs, other]
  | true =>
    obtain ⟨d, first⟩ := Option.ne_none_iff_exists'.1 (sync hr)
    have first' : (s.setFs f { s.fs f with fsType := none }).slot 0 = some d := first
    obtain ⟨s₁, created, -, -, fs⟩ := ffCreateMutex_ok g vol first'
    unfold creSyncobj at made
    rw [if_pos hr, created, ok_bind] at made
    cases made
    simp [setVolume, setFs, other, fs]

/-- `find_volume` writes to the one object, and leaves it not mounted if it fails. -/
theorem mountVolume_fs {vol : Nat} {f : Fs D} {write : Bool} {a : Answers} {res : FRESULT}
    (ran : mountVolume vol f write a s = .ok (res, s')) :
    (∀ f', f' ≠ f → s'.fs f' = s.fs f') ∧ (res ≠ .ok → (s'.fs f).fsType = none) := by
  by_cases inside : vol < s.drivers.length
  · let s₁ := s.setFs f { s.fs f with fsType := none, drv := BitVec.ofNat 8 vol }
    have early : (∀ f', f' ≠ f → s₁.fs f' = s.fs f') ∧ (res ≠ .ok → (s₁.fs f).fsType = none) := by
      constructor
      · intro f' other
        simp [s₁, setFs, other]
      · simp [s₁, setFs]
    have inside₁ : vol < s₁.drivers.length := inside
    unfold mountVolume at ran
    dsimp only at ran
    rw [diskStat_ok _ inside₁, diskIo_ok inside₁, ok_bind] at ran
    generalize (if (s₁.slot vol).isSome then a.init else staNoinit) = stat at ran
    by_cases ready : stat &&& staNoinit ≠ 0
    · rw [if_pos ready] at ran
      cases ran
      exact early
    · rw [if_neg ready] at ran
      by_cases locked : write = true ∧ stat &&& staProtect ≠ 0
      · rw [if_pos locked] at ran
        cases ran
        exact early
      · rw [if_neg locked, ok_bind] at ran
        cases scan : a.scan with
        | diskErr =>
          rw [scan] at ran
          cases ran
          exact early
        | noFilesystem =>
          rw [scan] at ran
          cases ran
          exact early
        | found t =>
          rw [scan] at ran
          cases ran
          constructor
          · intro f' other
            simp [clearLock, setFs, other]
          · intro refused
            contradiction
  · obtain ⟨e, fault, -⟩ := mountVolume_range (s := s) f write a (Nat.le_of_not_lt inside)
    rw [fault] at ran
    cases ran

/-- What a mount that fails leaves mounted. -/
theorem fMount_fs {path : Option (List TCHAR)} {vol : Nat} {f : Fs D} {a : Answers}
    {res : FRESULT} (named : getLdnumber g.volumes path = some vol)
    (sync : Syncs g s vol)
    (ran : fMount g (some f) path 1 a s = .ok (res, s')) (refused : res ≠ .ok) :
    (s'.fs f).fsType = none ∧
      ∀ f', f' ≠ f → s.volumes vol ≠ some f' → s'.fs f' = s.fs f' := by
  have sync' : Syncs g (unregister g vol s) vol := by
    rwa [Syncs, (unregister_effect g vol s).same.slot]
  obtain ⟨s₁, made, -, blank, mutex⟩ := register_ok g vol f sync'.slot
  have here : (s₁.setVolume vol (some f)).volumes vol = some f := by
    simp [setVolume]
  unfold fMount at ran
  rw [named] at ran
  dsimp only at ran
  rw [made, ok_bind, if_neg (by simp), findVolume_blank false a named here blank
    ((canLock_registered mutex).2 sync')] at ran
  cases mounted : mountVolume vol f false a (s₁.setVolume vol (some f)) with
  | error e =>
    rw [mounted] at ran
    cases ran
  | ok out =>
    rw [mounted] at ran
    cases ran
    obtain ⟨others, failed⟩ := mountVolume_fs mounted
    constructor
    · exact failed refused
    · intro f' other unheld
      rw [others f' other, register_fs sync'.slot made other, unregister_fs unheld]

end Registry

open Registry

variable {D : Type}

/-- The slots up to empty ones, the members of the drivers, the volume table and what is
mounted of it are as they were. -/
structure Unchanged (s s' : Registry D) : Prop where
  slot : ∀ i, s'.slot i = s.slot i
  length : s.drivers.length ≤ s'.drivers.length
  attached : s'.attached = s.attached
  driveNumber : s'.driveNumber = s.driveNumber
  volumes : s'.volumes = s.volumes
  mounted : ∀ v f, s.volumes v = some f → (s'.fs f).fsType = (s.fs f).fsType

/-- The slot is taken; or the number names no volume and the driver is not attached; or
the mount has a mutex to lock and succeeds, or has nothing to spoil: the driver is not attached, its object is
registered for the volume already, and it is not mounted. -/
def Harmless (g : Config D) (s : Registry D) (d : D) (n : BYTE) (a : Answers) : Prop :=
  s.slot n.toNat ≠ none ∨
    match attachVolume g.volumes n.toNat with
    | none => s.attached d = false
    | some vol => Syncs g (s.placed n.toNat d) vol ∧
        ((vol = n.toNat ∨ s.slot vol ≠ none) ∧ a.Good ∨
          s.attached d = false ∧ s.volumes vol = some (.own d) ∧ (s.fs (.own d)).fsType = none)

variable {g : Config D} {s s' : Registry D}

theorem harmless_unnamed {d : D} {n : BYTE} {a : Answers} (free : s.slot n.toNat = none)
    (named : attachVolume g.volumes n.toNat = none) : Harmless g s d n a ↔ s.attached d = false := by
  unfold Harmless
  rw [named]
  simp [free]

theorem harmless_named {d : D} {n : BYTE} {a : Answers} {vol : Nat} (free : s.slot n.toNat = none)
    (named : attachVolume g.volumes n.toNat = some vol) : Harmless g s d n a ↔
      Syncs g (s.placed n.toNat d) vol ∧
        ((vol = n.toNat ∨ s.slot vol ≠ none) ∧ a.Good ∨
          s.attached d = false ∧ s.volumes vol = some (.own d) ∧
            (s.fs (.own d)).fsType = none) := by
  unfold Harmless
  rw [named]
  simp [free]

variable [DecidableEq D]

/-- What a mount out of `attach` that fails leaves mounted. -/
theorem attach_fs {d : D} {n : BYTE} {a : Answers} {vol : Nat} {res : FRESULT}
    (free : s.slot n.toNat = none) (named : attachVolume g.volumes n.toNat = some vol)
    (sync : Syncs g (s.placed n.toNat d) vol)
    (ran : attach g d n a s = .ok (res, s')) (refused : res ≠ .ok) :
    (s'.fs (.own d)).fsType = none ∧
      ∀ f, f ≠ .own d → s.volumes vol ≠ some f → s'.fs f = s.fs f := by
  rw [attach_free d a free] at ran
  cases mount : fMount g (some (.own d)) (some (attachPath n)) 1 a (s.placed n.toNat d) with
  | error e =>
    rw [mount] at ran
    cases ran
  | ok out =>
    rw [mount] at ran
    have result : out.1 = res := congrArg Prod.fst (Except.ok.inj ran)
    have state := congrArg Prod.snd (Except.ok.inj ran)
    dsimp only at state
    rw [result, if_neg refused] at state
    have failed : out.1 ≠ .ok := by rwa [result]
    have left := fMount_fs ((attachPath_named g n).trans named) sync mount failed
    rw [← state]
    exact left

/-- A mount that fails changes nothing exactly when it had nothing to change. -/
theorem unchanged_mounting {d : D} {n : BYTE} {a : Answers} {vol : Nat} {res : FRESULT}
    {new : List (Event D)} (free : s.slot n.toNat = none)
    (named : attachVolume g.volumes n.toNat = some vol)
    (sync : Syncs g (s.placed n.toNat d) vol)
    (ran : attach g d n a s = .ok (res, s')) (m : Mounting g d n vol a s s' res new)
    (refused : res ≠ .ok) : Unchanged s s' ↔
      s.attached d = false ∧ s.volumes vol = some (.own d) ∧ (s.fs (.own d)).fsType = none := by
  obtain ⟨blank, others⟩ := attach_fs free named sync ran refused
  have attached := m.attached
  have volumes := m.volumes
  rw [show (res == .ok) = false by simpa using refused] at attached
  constructor
  · intro same
    have off : s.attached d = false := by
      rw [← same.attached, attached, Function.update_self]
    have held : s.volumes vol = some (.own d) := by
      rw [← same.volumes, volumes, Function.update_self]
    have unmounted : (s.fs (.own d)).fsType = none := by
      rw [← same.mounted vol _ held, blank]
    exact ⟨off, held, unmounted⟩
  · rintro ⟨off, held, unmounted⟩
    constructor
    case slot =>
      intro i
      rw [m.slot, if_neg (fun both => refused both.2)]
    case length =>
      rw [m.length]
      exact Nat.le_max_left _ _
    case attached => rw [attached, ← off, Function.update_eq_self]
    case driveNumber => rw [m.driveNumber, if_neg refused]
    case volumes => rw [volumes, ← held, Function.update_eq_self]
    case mounted =>
      intro v f _
      by_cases mine : f = .own d
      · rw [mine, blank, unmounted]
      · have unheld : s.volumes vol ≠ some f := by
          intro same
          rw [held] at same
          cases same
          exact mine rfl
        rw [others f mine unheld]

/-- An `attach` is defined and changes nothing unless it succeeds, exactly when it is
harmless. -/
theorem attach_unchanged_iff (g : Config D) (s : Registry D) (d : D) (n : BYTE) (a : Answers) :
    (∃ res s', attach g d n a s = .ok (res, s') ∧ (res ≠ .ok → Unchanged s s')) ↔
      Harmless g s d n a := by
  by_cases free : s.slot n.toNat = none
  · cases named : attachVolume g.volumes n.toNat with
    | none =>
      rw [harmless_unnamed free named, attach_unnamed d a free named]
      constructor
      · rintro ⟨res, s', ran, same⟩
        cases ran
        have attached := congrFun (same (by decide)).attached d
        rw [← attached]
        simp [setSlot, setAttached]
      · intro off
        refine ⟨_, _, rfl, fun _ => ?_⟩
        constructor
        case slot => exact slot_placed_back d free
        case length =>
          simp only [setSlot, setAttached, List.length_set, length_placed]
          exact Nat.le_max_left _ _
        case attached =>
          have same := Function.update_eq_self d s.attached
          rw [off] at same
          exact same
        case driveNumber => rfl
        case volumes => rfl
        case mounted => simp [setSlot, setAttached, placed, grow]
    | some vol =>
      rw [harmless_named free named]
      by_cases sync : Syncs g (s.placed n.toNat d) vol
      · obtain ⟨res, s', new, ran, m⟩ := attach_mounts d a free named sync
        have result := m.result
        constructor
        · rintro ⟨res', s'', ran', same⟩
          cases ran.symm.trans ran'
          apply And.intro sync
          by_cases mounted : res = .ok
          · exact .inl (result.1 mounted)
          · exact .inr ((unchanged_mounting free named sync ran m mounted).1 (same mounted))
        · rintro ⟨-, good | idle⟩
          · exact ⟨res, s', ran, fun refused => absurd (result.2 good) refused⟩
          · exact ⟨res, s', ran, fun refused =>
              (unchanged_mounting free named sync ran m refused).2 idle⟩
      · obtain ⟨e, fault⟩ := attach_unsynced d a free named sync
        rw [fault]
        constructor
        · rintro ⟨res, s', ran, -⟩
          cases ran
        · intro safe
          exact absurd safe.1 sync
  · rw [attach_occupied d a free]
    constructor
    · intro _
      exact .inl free
    · intro _
      refine ⟨_, _, rfl, fun _ => ?_⟩
      constructor
      case slot => exact slot_grow n.toNat
      case length =>
        rw [length_grow]
        exact Nat.le_max_left _ _
      case attached => rfl
      case driveNumber => rfl
      case volumes => rfl
      case mounted => simp [grow]

/-- A drive without a volume, attached as drive 0: it is not kept, and its object stays in
the volume table. -/
theorem attach_leaves_volume : ∃ s', attach (single Unit) () 0 {} {} = .ok (.diskErr, s') ∧
    s'.slot 0 = none ∧ s'.volumes 0 = some (.own ()) ∧ ¬ Unchanged {} s' := by
  refine ⟨_, rfl, rfl, rfl, ?_⟩
  intro same
  have volumes := congrFun same.volumes 0
  cases volumes

end FatFsParticle.Drives
