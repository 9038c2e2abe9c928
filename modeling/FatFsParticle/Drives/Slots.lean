import FatFsParticle.Drives.Steps
import FatFsParticle.Interact.Course

/-!
# Slots that are there

Whether a run uses a slot that is not there, or calls a driver through an empty one. A run
may also end at a lock of what is no mutex; what it would do after that is not asked.
The slots only grow, in `attach`; the indexes come from volume numbers, from numbers that
drivers keep and from the constant 0. `Safe` is what each call needs of the state it
finds, and the invariant behind it is that a mounted volume has a slot.
-/

namespace FatFsParticle.Drives

open Interact Registry

/-- The calls of a program. For `ff.c` they say what the drive answers and how many
sectors the function goes on to ask for. -/
inductive Call (D : Type) where
  | drive (o : Operation D)
  | mount (fs : Option (Fs D)) (path : Option (List TCHAR)) (opt : BYTE) (a : Answers)
  | mkfs (path : Option (List TCHAR)) (a : Answers) (k : Nat)
  | access (path : Option (List TCHAR)) (write : Bool) (a : Answers) (k : Nat)
  | object (obj : Option (Fs D × WORD)) (a : Answers) (k : Nat)

def perform {D : Type} [DecidableEq D] (g : Config D) (s : Registry D) :
    Call D → Except Fault (Registry D)
  | .drive o => operate g s o
  | .mount fs path opt a => (fMount g fs path opt a s).map Prod.snd
  | .mkfs path a k => fMkfs g path a k s
  | .access path write a k => Registry.access g path write a k s
  | .object obj a k => useObject g obj a k s

variable {D : Type}

/-- `find_volume` takes the object as it is. -/
def Ready (s : Registry D) (fs : Fs D) (a : Answers) : Prop :=
  (s.fs fs).fsType.isSome ∧ s.slot (s.fs fs).drv.toNat ≠ none ∧ a.status &&& staNoinit = 0

/-- With sync objects nothing is mounted before a driver is in slot 0, unless as drive 0;
`detach` gets a number that has a slot, and so does the destructor of an attached driver;
a volume is mounted at once, formatted or found only when it has a slot, unless what is
locked before that is no mutex. -/
def Safe (g : Config D) (s : Registry D) : Call D → Prop
  | .drive (.attach _ n _) => g.reentrant = true → s.slot n.toNat = none →
      attachVolume g.volumes n.toNat ≠ none → n.toNat = 0 ∨ s.slot 0 ≠ none
  | .drive (.detach n) => n.toNat < s.drivers.length
  | .drive (.destroy d) => s.attached d = true → (s.driveNumber d).toNat < s.drivers.length
  | .mount fs path opt _ => ∀ vol, getLdnumber g.volumes path = some vol → fs ≠ none →
      (g.reentrant = true → s.slot 0 ≠ none) ∧ (opt = 1 → Syncs g s vol → vol < s.drivers.length)
  | .mkfs path _ _ => ∀ vol, getLdnumber g.volumes path = some vol → vol < s.drivers.length
  | .access path _ a _ => ∀ vol fs, getLdnumber g.volumes path = some vol →
      s.volumes vol = some fs → CanLock g s fs → Ready s fs a ∨ vol < s.drivers.length
  | .object _ _ _ => True

variable {g : Config D} {s s' : Registry D}

theorem covered_empty : Covered ({} : Registry D) := by
  intro f mounted
  cases mounted

theorem transfer_ok {i : Nat} (inside : i < s.drivers.length) (k : Nat) :
    s.transfer i k = .ok () := by
  induction k with
  | zero => rfl
  | succ k ih =>
    unfold transfer
    rw [diskIo_ok inside, ok_bind, ih]

/-- A file that outlived its mount is not asked for; one of a mount is on a drive that has
a slot. -/
theorem object_sound (h : Covered s) (obj : Option (Fs D × WORD)) (a : Answers) (k : Nat) :
    useObject g obj a k s = .ok s ∨
      g.reentrant = true ∧ useObject g obj a k s = .error .lock := by
  unfold useObject validate
  rcases obj with - | ⟨f, id⟩
  · exact .inl rfl
  · dsimp only
    by_cases valid : (s.fs f).fsType.isSome ∧ (s.fs f).id = id
    · have inside := h f valid.1
      rw [if_pos valid, diskStat_ok _ inside, ok_bind]
      generalize (if (s.slot (s.fs f).drv.toNat).isSome then a.status else staNoinit) = stat
      by_cases off : stat &&& staNoinit ≠ 0
      · rw [if_pos off]
        exact .inl rfl
      · rw [if_neg off]
        by_cases lock : CanLock g s f
        · refine .inl ?_
          rw [lockFs_ok lock, ok_bind]
          change (s.transfer (s.fs f).drv.toNat k >>= _) = _
          rw [transfer_ok inside]
          rfl
        · rw [lockFs_lock lock]
          exact .inr ⟨(Classical.not_imp.1 lock).1, rfl⟩
    · rw [if_neg valid]
      exact .inl rfl

variable [DecidableEq D]

/-! ## `find_volume` -/

theorem findVolume_ready {path : Option (List TCHAR)} {vol : Nat} {f : Fs D} (write : Bool)
    {a : Answers} (named : getLdnumber g.volumes path = some vol) (here : s.volumes vol = some f)
    (ready : Ready s f a) (lock : CanLock g s f) (h : Covered s) :
    ∃ res, findVolume g path write a s = .ok (res, some f, s) := by
  obtain ⟨mounted, driver, init⟩ := ready
  have kept : (if (s.slot (s.fs f).drv.toNat).isSome then a.status else staNoinit) = a.status :=
    if_pos (Option.isSome_iff_ne_none.2 driver)
  unfold findVolume
  rw [named]
  dsimp only
  rw [here]
  dsimp only
  rw [lockFs_ok lock, ok_bind, if_pos mounted, diskStat_ok _ (h f mounted), kept, ok_bind,
    if_pos init]
  exact ⟨_, rfl⟩

/-- An object that is not ready is mounted anew. -/
theorem findVolume_again {path : Option (List TCHAR)} {vol : Nat} {f : Fs D} (write : Bool)
    {a : Answers} (named : getLdnumber g.volumes path = some vol) (here : s.volumes vol = some f)
    (unready : ¬ Ready s f a) (lock : CanLock g s f)
    (drive : (s.fs f).fsType.isSome → (s.fs f).drv.toNat < s.drivers.length) :
    findVolume g path write a s =
      (mountVolume vol f write a s).map fun out => (out.1, some f, out.2) := by
  by_cases mounted : (s.fs f).fsType.isSome
  · have off : (if (s.slot (s.fs f).drv.toNat).isSome then a.status else staNoinit) &&&
        staNoinit ≠ 0 := by
      split
      case isTrue driver =>
        intro init
        exact unready ⟨mounted, Option.isSome_iff_ne_none.1 driver, init⟩
      case isFalse => decide
    unfold findVolume
    rw [named]
    dsimp only
    rw [here]
    dsimp only
    rw [lockFs_ok lock, ok_bind, if_pos mounted, diskStat_ok _ (drive mounted), ok_bind, if_neg off]
    cases mountVolume vol f write a s with
    | ok out => rfl
    | error e => rfl
  · exact findVolume_blank write a named here (Option.not_isSome_iff_eq_none.1 mounted) lock

/-- A mounted object whose drive has no slot. -/
theorem findVolume_lost {path : Option (List TCHAR)} {vol : Nat} {f : Fs D} (write : Bool)
    (a : Answers) (named : getLdnumber g.volumes path = some vol) (here : s.volumes vol = some f)
    (lock : CanLock g s f) (mounted : (s.fs f).fsType.isSome)
    (lost : s.drivers.length ≤ (s.fs f).drv.toNat) :
    ∃ e, findVolume g path write a s = .error e ∧ e ≠ .lock := by
  unfold findVolume
  rw [named]
  dsimp only
  rw [here]
  dsimp only
  rw [lockFs_ok lock, ok_bind, if_pos mounted, diskStat_range _ lost]
  exact ⟨_, rfl, nofun⟩

/-- A function that takes a path is defined where `find_volume` is. -/
theorem access_ok {path : Option (List TCHAR)} {write : Bool} {a : Answers} (k : Nat)
    {res : FRESULT} {f : Option (Fs D)}
    (found : findVolume g path write a s = .ok (res, f, s'))
    (drive : res = .ok → ∀ fs, f = some fs → (s'.fs fs).drv.toNat < s'.drivers.length) :
    Registry.access g path write a k s = .ok s' := by
  unfold Registry.access
  rw [found, ok_bind]
  dsimp only
  split
  case h_1 => rw [transfer_ok (drive rfl _ rfl), ok_bind]; rfl
  case h_2 => rfl

theorem access_sound (h : Covered s) {path : Option (List TCHAR)} {write : Bool} {a : Answers}
    {k : Nat} (safe : Safe g s (.access path write a k)) :
    (∃ s', Registry.access g path write a k s = .ok s' ∧ Covered s') ∨
      g.reentrant = true ∧ Registry.access g path write a k s = .error .lock := by
  cases named : getLdnumber g.volumes path with
  | none =>
    have found : findVolume g path write a s = .ok (.invalidDrive, none, s) := by
      unfold findVolume
      rw [named]
      rfl
    exact .inl ⟨s, access_ok k found nofun, h⟩
  | some vol =>
    cases here : s.volumes vol with
    | none =>
      have found : findVolume g path write a s = .ok (.notEnabled, none, s) := by
        unfold findVolume
        rw [named]
        dsimp only
        rw [here]
        rfl
      exact .inl ⟨s, access_ok k found nofun, h⟩
    | some f =>
      by_cases lock : CanLock g s f
      case neg =>
        unfold Registry.access
        rw [findVolume_lock write a named here lock]
        exact .inr ⟨(Classical.not_imp.1 lock).1, rfl⟩
      by_cases ready : Ready s f a
      · obtain ⟨res, found⟩ := findVolume_ready write named here ready lock h
        refine .inl ⟨s, access_ok k found ?_, h⟩
        rintro - fs ⟨⟩
        exact h f ready.1
      · have inside : vol < s.drivers.length :=
          (safe vol f named here lock).resolve_left ready
        obtain ⟨res, s', new, mount, effect, -, -, -, mounted, -⟩ :=
          mountVolume_ok f write a inside
        have covered : Covered s' := h.effect effect
        have found : findVolume g path write a s = .ok (res, some f, s') := by
          rw [findVolume_again write named here ready lock (h f), mount]
          rfl
        refine .inl ⟨s', access_ok k found ?_, covered⟩
        rintro ok fs ⟨⟩
        exact covered f (mounted ok)

theorem access_faults {path : Option (List TCHAR)} {write : Bool} {a : Answers}
    {k : Nat} (unsafe_ : ¬ Safe g s (.access path write a k)) :
    ∃ e, Registry.access g path write a k s = .error e ∧ e ≠ .lock := by
  simp only [Safe, not_forall, not_or, Nat.not_lt] at unsafe_
  obtain ⟨vol, f, named, here, lock, unready, outside⟩ := unsafe_
  have fault : ∃ e, findVolume g path write a s = .error e ∧ e ≠ .lock := by
    by_cases lost : (s.fs f).fsType.isSome ∧ s.drivers.length ≤ (s.fs f).drv.toNat
    · exact findVolume_lost write a named here lock lost.1 lost.2
    · obtain ⟨e, range, slots⟩ := mountVolume_range f write a outside
      have drive (mounted : (s.fs f).fsType.isSome) : (s.fs f).drv.toNat < s.drivers.length :=
        Nat.lt_of_not_le fun far => lost ⟨mounted, far⟩
      rw [findVolume_again write named here unready lock drive, range]
      exact ⟨e, rfl, slots⟩
  obtain ⟨e, fault, slots⟩ := fault
  unfold Registry.access
  rw [fault]
  exact ⟨e, rfl, slots⟩

/-! ## `f_mount` -/

theorem fMount_unnamed {path : Option (List TCHAR)} (fs : Option (Fs D)) (opt : BYTE) (a : Answers)
    (unnamed : getLdnumber g.volumes path = none) :
    fMount g fs path opt a s = .ok (.invalidDrive, s) := by
  unfold fMount
  rw [unnamed]
  rfl

theorem mount_sound (h : Covered s) {fs : Option (Fs D)} {path : Option (List TCHAR)} {opt : BYTE}
    {a : Answers} (safe : Safe g s (.mount fs path opt a)) :
    (∃ out, fMount g fs path opt a s = .ok out ∧ Covered out.2) ∨
      g.reentrant = true ∧ fMount g fs path opt a s = .error .lock := by
  cases named : getLdnumber g.volumes path with
  | none => exact .inl ⟨_, fMount_unnamed fs opt a named, h⟩
  | some vol =>
    have let_go := unregister_effect g vol s
    have covered : Covered (unregister g vol s) := h.effect let_go
    cases fs with
    | none =>
      unfold fMount
      rw [named]
      exact .inl ⟨_, rfl, covered⟩
    | some f =>
      obtain ⟨first, inside⟩ := safe vol named nofun
      by_cases now : opt = 1
      · subst now
        by_cases sync : Syncs g s vol
        · obtain ⟨res, s', new, mount, effect, -⟩ := fMount_ok f a named (inside rfl sync) sync
          refine .inl ⟨_, mount, ?_⟩
          have registered : Covered (s.setVolume vol (some f)) := h
          exact registered.effect effect
        · exact .inr ⟨(Classical.not_imp.1 sync).1, fMount_lock f a named first sync⟩
      · obtain ⟨s', made, effect, -⟩ := register_ok g vol f (s := unregister g vol s)
          (by rwa [let_go.same.slot])
        unfold fMount
        rw [named]
        dsimp only
        rw [made, ok_bind, if_pos (.inr now)]
        refine .inl ⟨_, rfl, ?_⟩
        have kept : Covered s' := covered.effect effect
        exact kept

theorem mount_faults {fs : Option (Fs D)} {path : Option (List TCHAR)} {opt : BYTE} {a : Answers}
    (unsafe_ : ¬ Safe g s (.mount fs path opt a)) :
    ∃ e, fMount g fs path opt a s = .error e ∧ e ≠ .lock := by
  simp only [Safe, not_forall] at unsafe_
  obtain ⟨vol, named, some_, wrong⟩ := unsafe_
  obtain ⟨f, rfl⟩ := Option.ne_none_iff_exists'.1 some_
  have let_go := unregister_effect g vol s
  unfold fMount
  rw [named]
  dsimp only
  by_cases first : g.reentrant = true → s.slot 0 ≠ none
  · rw [and_iff_right first, Classical.not_imp, Classical.not_imp, Nat.not_lt] at wrong
    obtain ⟨rfl, sync, outside⟩ := wrong
    have sync' : Syncs g (unregister g vol s) vol := by
      rwa [Syncs, let_go.same.slot]
    obtain ⟨s', made, effect, blank, mutex⟩ := register_ok g vol f (s := unregister g vol s)
      (by rwa [let_go.same.slot])
    have placed := setVolume_effect (let_go.trans effect) vol (some f)
    have here : (s'.setVolume vol (some f)).volumes vol = some f := by simp [setVolume]
    have outside' : (s'.setVolume vol (some f)).drivers.length ≤ vol := by
      rwa [placed.same.drivers]
    obtain ⟨e, range, slots⟩ := mountVolume_range f false a outside'
    rw [made, ok_bind, if_neg (by simp),
      findVolume_blank false a named here blank ((canLock_registered mutex).2 sync'), range]
    exact ⟨e, rfl, slots⟩
  · rw [Classical.not_imp, not_not] at first
    obtain ⟨e, null, slots⟩ := register_null (s := unregister g vol s) g vol f first.1
      (by rw [let_go.same.slot, first.2])
    rw [null]
    exact ⟨e, rfl, slots⟩

/-! ## `f_mkfs` -/

theorem mkfs_sound (h : Covered s) {path : Option (List TCHAR)} {a : Answers} {k : Nat}
    (safe : Safe g s (.mkfs path a k)) : ∃ s', fMkfs g path a k s = .ok s' ∧ Covered s' := by
  unfold fMkfs
  cases named : getLdnumber g.volumes path with
  | none => exact ⟨s, rfl, h⟩
  | some vol =>
    obtain ⟨new, effect⟩ := clearMounted_effect vol s
    have inside : vol < (clearMounted vol s).drivers.length := by
      rw [effect.same.drivers]
      exact safe vol named
    dsimp only
    rw [diskStat_ok _ inside, ok_bind, transfer_ok inside]
    refine ⟨clearMounted vol s, ?_, h.effect effect⟩
    generalize (if ((clearMounted vol s).slot vol).isSome then a.init else staNoinit) = stat
    split <;> rfl

theorem mkfs_faults {path : Option (List TCHAR)} {a : Answers} {k : Nat}
    (unsafe_ : ¬ Safe g s (.mkfs path a k)) :
    ∃ e, fMkfs g path a k s = .error e ∧ e ≠ .lock := by
  simp only [Safe, not_forall, Nat.not_lt] at unsafe_
  obtain ⟨vol, named, outside⟩ := unsafe_
  obtain ⟨new, effect⟩ := clearMounted_effect vol s
  have outside' : (clearMounted vol s).drivers.length ≤ vol := by
    rwa [effect.same.drivers]
  unfold fMkfs
  rw [named]
  dsimp only
  rw [diskStat_range _ outside']
  exact ⟨_, rfl, nofun⟩

/-! ## `FatFs` and `FatFsDriver` -/

theorem attach_sound (h : Covered s) {d : D} {n : BYTE} {a : Answers}
    (safe : Safe g s (.drive (.attach d n a))) :
    (∃ out, attach g d n a s = .ok out ∧ Covered out.2) ∨
      g.reentrant = true ∧ attach g d n a s = .error .lock := by
  by_cases free : s.slot n.toNat = none
  · cases named : attachVolume g.volumes n.toNat with
    | none =>
      refine .inl ⟨_, attach_unnamed d a free named, h.longer rfl ?_⟩
      rw [length_setSlot]
      have longer : s.drivers.length ≤ (s.placed n.toNat d).drivers.length := by
        rw [length_placed]
        omega
      exact longer
    | some vol =>
      have first (hr : g.reentrant = true) := safe hr free (by simp [named])
      by_cases sync : Syncs g (s.placed n.toNat d) vol
      case neg =>
        exact .inr ⟨(Classical.not_imp.1 sync).1, attach_lock d a free named first sync⟩
      obtain ⟨res, s', new, ran, m⟩ := attach_mounts d a free named sync
      have placed : Covered (s.placed n.toNat d) := by
        refine h.longer rfl ?_
        rw [length_placed]
        omega
      exact .inl ⟨_, ran, placed.mounts m.mounts
        (Nat.le_of_eq ((length_placed n.toNat d).trans m.length.symm))⟩
  · refine .inl ⟨_, attach_occupied d a free, h.longer rfl ?_⟩
    rw [length_grow]
    omega

theorem attach_faults {d : D} {n : BYTE} {a : Answers}
    (unsafe_ : ¬ Safe g s (.drive (.attach d n a))) :
    ∃ e, attach g d n a s = .error e ∧ e ≠ .lock := by
  simp only [Safe, Classical.not_imp, not_or, not_not] at unsafe_
  obtain ⟨hr, free, volume, other, null⟩ := unsafe_
  obtain ⟨vol, named⟩ := Option.ne_none_iff_exists'.1 volume
  exact attach_null d a free named hr other null

theorem detach_sound (h : Covered s) {n : BYTE} (inside : n.toNat < s.drivers.length) :
    ∃ s', detach g n s = .ok s' ∧ Covered s' := by
  by_cases idle : ∀ d, s.slot n.toNat = some d → s.attached d = false
  · exact ⟨s, detach_idle inside idle, h⟩
  · simp only [not_forall, Bool.not_eq_false] at idle
    obtain ⟨d, here, on⟩ := idle
    obtain ⟨s', ran, m⟩ := detach_runs (g := g) here on
    exact ⟨s', ran, h.mounts m.mounts (Nat.le_of_eq m.length.symm)⟩

theorem destroy_sound (h : Covered s) {d : D} (safe : Safe g s (.drive (.destroy d))) :
    ∃ s', destroy g d s = .ok s' ∧ Covered s' := by
  unfold destroy
  cases on : s.attached d with
  | false => exact ⟨_, rfl, h⟩
  | true =>
    obtain ⟨s', ran, covered⟩ := detach_sound (g := g) h (safe on)
    rw [if_pos rfl, ran]
    exact ⟨_, rfl, covered⟩

theorem destroy_faults {d : D} (unsafe_ : ¬ Safe g s (.drive (.destroy d))) :
    ∃ e, destroy g d s = .error e ∧ e ≠ .lock := by
  simp only [Safe, Classical.not_imp, Nat.not_lt] at unsafe_
  obtain ⟨on, outside⟩ := unsafe_
  unfold destroy
  rw [if_pos on, detach_range outside]
  exact ⟨_, rfl, nofun⟩

/-! ## Runs -/

theorem perform_sound (h : Covered s) {c : Call D} (safe : Safe g s c) :
    (∃ s', perform g s c = .ok s' ∧ Covered s') ∨
      ∃ e, perform g s c = .error e ∧ e = .lock ∧ g.reentrant = true := by
  cases c with
  | drive o =>
    cases o with
    | attach d n a =>
      rcases attach_sound h safe with ⟨out, ran, covered⟩ | ⟨sync, lock⟩
      · exact .inl ⟨out.2, congrArg (Except.map Prod.snd) ran, covered⟩
      · exact .inr ⟨_, congrArg (Except.map Prod.snd) lock, rfl, sync⟩
    | detach n => exact .inl (detach_sound h safe)
    | destroy d => exact .inl (destroy_sound h safe)
  | mount fs path opt a =>
    rcases mount_sound h safe with ⟨out, ran, covered⟩ | ⟨sync, lock⟩
    · exact .inl ⟨out.2, congrArg (Except.map Prod.snd) ran, covered⟩
    · exact .inr ⟨_, congrArg (Except.map Prod.snd) lock, rfl, sync⟩
  | mkfs path a k => exact .inl (mkfs_sound h safe)
  | access path write a k =>
    rcases access_sound h safe with ran | ⟨sync, lock⟩
    · exact .inl ran
    · exact .inr ⟨_, lock, rfl, sync⟩
  | object obj a k =>
    rcases object_sound (g := g) h obj a k with ran | ⟨sync, lock⟩
    · exact .inl ⟨s, ran, h⟩
    · exact .inr ⟨_, lock, rfl, sync⟩

theorem perform_faults {c : Call D} (unsafe_ : ¬ Safe g s c) :
    ∃ e, perform g s c = .error e ∧ ¬ (e = .lock ∧ g.reentrant = true) := by
  suffices fault : ∃ e, perform g s c = .error e ∧ e ≠ .lock by
    obtain ⟨e, ran, slots⟩ := fault
    exact ⟨e, ran, fun lock => slots lock.1⟩
  cases c with
  | drive o =>
    cases o with
    | attach d n a =>
      obtain ⟨e, fault, slots⟩ := attach_faults unsafe_
      exact ⟨e, congrArg (Except.map Prod.snd) fault, slots⟩
    | detach n => exact ⟨_, detach_range (Nat.le_of_not_lt unsafe_), nofun⟩
    | destroy d => exact destroy_faults unsafe_
  | mount fs path opt a =>
    obtain ⟨e, fault, slots⟩ := mount_faults unsafe_
    exact ⟨e, congrArg (Except.map Prod.snd) fault, slots⟩
  | mkfs path a k => exact mkfs_faults unsafe_
  | access path write a k => exact access_faults unsafe_
  | object obj a k => exact absurd trivial unsafe_

/-- From no drivers, a run uses only slots that are there and calls only drivers that are
there exactly when every call is a safe one; what may be undefined then is a lock, with
sync objects. -/
theorem run_ok_iff_safe (g : Config D) (run : List (Call D)) :
    (∀ e, run.foldlM (perform g) {} = .error e → e = .lock ∧ g.reentrant = true) ↔
      Meets (perform g) (Safe g) run {} :=
  foldlM_mild_iff_meets (P := Covered) (fun _ _ h => perform_sound h) (fun _ _ => perform_faults)
    covered_empty

/-- A drive attached and detached: its destructor asks for slot 255. With sync objects, a
first drive other than 0: the driver in slot 0 is called, and there is none. -/
theorem run_faults :
    [.drive (.attach () 0 formatted), .drive (.detach 0), .drive (.destroy ())].foldlM
        (perform (single Unit)) {} = .error (.range 255) ∧
      [.drive (.attach () 1 formatted)].foldlM (perform (pair Unit)) {} = .error (.null 0) :=
  ⟨rfl, rfl⟩

end FatFsParticle.Drives
