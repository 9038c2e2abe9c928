import FatFsParticle.Drives.Table

/-!
# What the functions of the registry change

One lemma for each function: where it is undefined, and what a call that is defined
does to the slots, the volume table and the log. What a volume holds is left to the
answers of the drive.
-/

namespace FatFsParticle.Drives
namespace Registry

variable {D : Type} {g : Config D} {s s' s'' : Registry D}

/-! ## Slots -/

theorem index_of_lt {i : Nat} (h : i < s.drivers.length) : s.index i = .ok (s.slot i) := by
  simp [index, slot, List.getElem?_eq_getElem h]

theorem index_of_le {i : Nat} (h : s.drivers.length ≤ i) : s.index i = .error (.range i) := by
  simp [index, List.getElem?_eq_none h]

theorem slot_of_le {i : Nat} (h : s.drivers.length ≤ i) : s.slot i = none := by
  simp [slot, List.getElem?_eq_none h]

theorem lt_of_slot {i : Nat} {d : D} (h : s.slot i = some d) : i < s.drivers.length := by
  by_contra le
  rw [slot_of_le (by omega)] at h
  cases h

@[simp] theorem length_grow (n : Nat) :
    (s.grow n).drivers.length = max s.drivers.length (n + 1) := by
  simp [grow]
  omega

theorem lt_grow (n : Nat) : n < (s.grow n).drivers.length := by
  rw [length_grow]
  omega

@[simp] theorem slot_grow (n i : Nat) : (s.grow n).slot i = s.slot i := by
  by_cases old : i < s.drivers.length
  · simp [slot, grow, List.getElem?_append_left old]
  · have gone : s.slot i = none := slot_of_le (by omega)
    rw [gone]
    simp only [slot, grow, List.getElem?_append_right (Nat.le_of_not_lt old), List.getElem?_replicate]
    split <;> rfl

theorem slot_setSlot {i : Nat} (h : i < s.drivers.length) (d : Option D) (j : Nat) :
    (s.setSlot i d).slot j = if j = i then d else s.slot j := by
  by_cases same : j = i
  · subst same
    simp [slot, setSlot, h]
  · simp [slot, setSlot, Ne.symm same, same]

@[simp] theorem length_setSlot (i : Nat) (d : Option D) :
    (s.setSlot i d).drivers.length = s.drivers.length := by
  simp [setSlot]

/-! ## The disk layer -/

theorem diskStat_ok {i : Nat} (stat : DSTATUS) (h : i < s.drivers.length) :
    s.diskStat i stat = .ok (if (s.slot i).isSome then stat else staNoinit) := by
  unfold diskStat
  rw [index_of_lt h]
  rfl

theorem diskStat_range {i : Nat} (stat : DSTATUS) (h : s.drivers.length ≤ i) :
    s.diskStat i stat = .error (.range i) := by
  unfold diskStat
  rw [index_of_le h]
  rfl

theorem diskIo_ok {i : Nat} (h : i < s.drivers.length) :
    s.diskIo i = .ok (s.slot i).isSome := by
  unfold diskIo
  rw [index_of_lt h]
  rfl

/-! ## The rest of the state -/

/-- `s'` differs from `s` at most in file system objects, open files, sync objects and
the log. -/
structure Same (s s' : Registry D) : Prop where
  drivers : s'.drivers = s.drivers
  attached : s'.attached = s.attached
  driveNumber : s'.driveNumber = s.driveNumber
  volumes : s'.volumes = s.volumes
  alive : s'.alive = s.alive

theorem Same.refl (s : Registry D) : Same s s := ⟨rfl, rfl, rfl, rfl, rfl⟩

theorem Same.trans (h : Same s s') (h' : Same s' s'') : Same s s'' :=
  ⟨h'.drivers.trans h.drivers, h'.attached.trans h.attached, h'.driveNumber.trans h.driveNumber,
    h'.volumes.trans h.volumes, h'.alive.trans h.alive⟩

theorem Same.slot (h : Same s s') (i : Nat) : s'.slot i = s.slot i := by
  simp [Registry.slot, h.drivers]

/-- What is mounted is on a drive that has a slot. -/
def Covered (s : Registry D) : Prop :=
  ∀ f, (s.fs f).fsType.isSome → (s.fs f).drv.toNat < s.drivers.length

/-- What is mounted in `s'` was mounted so in `s`, or is on a drive that has a slot. -/
def Mounts (s s' : Registry D) : Prop :=
  ∀ f, (s'.fs f).fsType.isSome →
    ((s.fs f).fsType.isSome ∧ (s'.fs f).drv = (s.fs f).drv) ∨ (s'.fs f).drv.toNat < s.drivers.length

theorem Mounts.refl (s : Registry D) : Mounts s s := fun _ h => .inl ⟨h, rfl⟩

theorem Mounts.trans (h : Mounts s s') (h' : Mounts s' s'') (grows : s'.drivers = s.drivers) :
    Mounts s s'' := by
  intro f mounted
  rcases h' f mounted with ⟨before, drv⟩ | here
  · rcases h f before with ⟨earlier, drv'⟩ | here
    · exact .inl ⟨earlier, drv.trans drv'⟩
    · rw [← drv] at here
      exact .inr here
  · rw [grows] at here
    exact .inr here

theorem Covered.mounts (h : Covered s) (h' : Mounts s s')
    (grows : s.drivers.length ≤ s'.drivers.length) : Covered s' := by
  intro f mounted
  rcases h' f mounted with ⟨before, drv⟩ | here
  · rw [drv]
    exact Nat.lt_of_lt_of_le (h f before) grows
  · exact Nat.lt_of_lt_of_le here grows

theorem Covered.longer (h : Covered s) (fs : s'.fs = s.fs)
    (grows : s.drivers.length ≤ s'.drivers.length) : Covered s' := by
  intro f mounted
  rw [fs] at mounted ⊢
  exact Nat.lt_of_lt_of_le (h f mounted) grows

/-- `s'` comes of `s` by touching what `new` says. -/
structure Effect (s s' : Registry D) (new : List (Event D)) : Prop where
  same : Same s s'
  mounts : Mounts s s'
  log : s'.log = new ++ s.log

theorem Covered.effect {new : List (Event D)} (h : Covered s) (e : Effect s s' new) :
    Covered s' :=
  h.mounts e.mounts (Nat.le_of_eq (congrArg _ e.same.drivers.symm))

theorem Effect.refl (s : Registry D) : Effect s s [] := ⟨.refl s, .refl s, rfl⟩

theorem Effect.trans {new new' : List (Event D)} (h : Effect s s' new) (h' : Effect s' s'' new') :
    Effect s s'' (new' ++ new) :=
  ⟨h.same.trans h'.same, h.mounts.trans h'.mounts h.same.drivers, by rw [h'.log, h.log, List.append_assoc]⟩

theorem setMutex_effect (k : Nat) (p : Option DWORD) : Effect s (s.setMutex k p) [.mutex k] :=
  ⟨⟨rfl, rfl, rfl, rfl, rfl⟩, .refl s, rfl⟩

theorem delSyncobj_effect (k : Option Nat) : Effect s (s.delSyncobj k) (k.toList.map .mutex) := by
  cases k with
  | none => exact .refl s
  | some k => exact setMutex_effect k none

theorem setVolume_effect {new : List (Event D)} (h : Effect s s' new) (v : Nat)
    (f : Option (Fs D)) : Effect (s.setVolume v f) (s'.setVolume v f) new :=
  ⟨⟨h.same.drivers, h.same.attached, h.same.driveNumber, by simp [setVolume, h.same.volumes],
    h.same.alive⟩, h.mounts, h.log⟩

/-! ## Sync objects -/

theorem ok_bind {ε α β : Type} (a : α) (f : α → Except ε β) : (Except.ok a >>= f) = f a := rfl

/-- What `__ff_create_mutex` touches when the driver in slot 0 is `d`. -/
def created (g : Config D) (vol : Nat) (d : D) : List (Event D) :=
  (g.ioctl d (BitVec.ofNat 8 vol)).toList.map (fun _ => .mutex vol) ++
    [.ioctl d (BitVec.ofNat 8 vol), .mutex vol]

theorem mem_created {vol : Nat} {d : D} {e : Event D} (h : e ∈ created g vol d) :
    e = .mutex vol ∨ e = .ioctl d (BitVec.ofNat 8 vol) := by
  simp only [created, List.mem_append, List.mem_map, List.mem_cons, List.not_mem_nil,
    or_false] at h
  rcases h with ⟨-, -, rfl⟩ | rfl | rfl
  · exact .inl rfl
  · exact .inr rfl
  · exact .inl rfl

/-- The sync object of a volume needs a driver in slot 0, whatever the volume. -/
theorem ffCreateMutex_ok (g : Config D) (vol : Nat) {d : D} (h : s.slot 0 = some d) :
    ∃ s', ffCreateMutex g s vol = .ok s' ∧ Effect s s' (created g vol d) ∧
      s'.mutexes vol = g.ioctl d (BitVec.ofNat 8 vol) ∧ s'.fs = s.fs := by
  have found : (s.setMutex vol none).index 0 = .ok (some d) := by
    have same : (s.setMutex vol none).slot 0 = s.slot 0 := rfl
    rw [index_of_lt (lt_of_slot (same.trans h)), same, h]
  have cleared := setMutex_effect (s := s) vol none
  have consulted : Effect (s.setMutex vol none) { s.setMutex vol none with
      log := .ioctl d (BitVec.ofNat 8 vol) :: (s.setMutex vol none).log }
      [.ioctl d (BitVec.ofNat 8 vol)] := ⟨⟨rfl, rfl, rfl, rfl, rfl⟩, .refl _, rfl⟩
  unfold ffCreateMutex driverIoctl created
  rw [found, ok_bind]
  dsimp only
  cases g.ioctl d (BitVec.ofNat 8 vol) with
  | none => exact ⟨_, rfl, cleared.trans consulted, by simp [setMutex], rfl⟩
  | some p =>
    exact ⟨_, rfl, (cleared.trans consulted).trans (setMutex_effect vol (some p)),
      by simp [setMutex], rfl⟩

theorem ffCreateMutex_null (g : Config D) (vol : Nat) (h : s.slot 0 = none) :
    ∃ e, ffCreateMutex g s vol = .error e ∧ e ≠ .lock := by
  have same : (s.setMutex vol none).slot 0 = s.slot 0 := rfl
  unfold ffCreateMutex driverIoctl
  by_cases inside : 0 < (s.setMutex vol none).drivers.length
  · rw [index_of_lt inside, same, h, ok_bind]
    exact ⟨_, rfl, nofun⟩
  · rw [index_of_le (by omega)]
    exact ⟨_, rfl, nofun⟩

/-! ## Locks -/

/-- The volume of the object can be locked. -/
def CanLock (g : Config D) (s : Registry D) (f : Fs D) : Prop :=
  g.reentrant = true → ∃ k ∈ (s.fs f).sobj, g.Lockable (s.mutexes k)

/-- A driver is in slot 0, and what it stores for a volume can be locked. -/
def Syncs (g : Config D) (s : Registry D) (vol : Nat) : Prop :=
  g.reentrant = true → ∃ d ∈ s.slot 0, g.Lockable (g.ioctl d (BitVec.ofNat 8 vol))

instance (s : Registry D) (vol : Nat) : Decidable (Syncs g s vol) :=
  inferInstanceAs (Decidable (g.reentrant = true →
    ∃ d ∈ s.slot 0, g.Lockable (g.ioctl d (BitVec.ofNat 8 vol))))

/-- In `s'` the sync object of the volume is what the driver in slot 0 of `s` stores. -/
def Made (g : Config D) (s s' : Registry D) (vol : Nat) : Prop :=
  ∃ d ∈ s.slot 0, s'.mutexes vol = g.ioctl d (BitVec.ofNat 8 vol)

theorem lockFs_ok {f : Fs D} (h : CanLock g s f) : lockFs g s f = .ok () := by
  unfold lockFs
  split
  · rename_i sync
    obtain ⟨k, held, lockable⟩ := h sync
    rw [Option.mem_def.1 held]
    exact if_pos lockable
  · rfl

theorem lockFs_lock {f : Fs D} (h : ¬ CanLock g s f) : lockFs g s f = .error .lock := by
  rw [CanLock, Classical.not_imp] at h
  obtain ⟨sync, none_⟩ := h
  unfold lockFs
  rw [if_pos sync]
  cases held : (s.fs f).sobj with
  | none => rfl
  | some k => exact if_neg fun lockable => none_ ⟨k, held, lockable⟩

theorem Syncs.slot {vol : Nat} (h : Syncs g s vol) (hr : g.reentrant = true) : s.slot 0 ≠ none := by
  obtain ⟨d, here, -⟩ := h hr
  rw [Option.mem_def.1 here]
  exact Option.some_ne_none d

/-- What was registered can be locked if what the driver in slot 0 stored can. -/
theorem canLock_registered {vol : Nat} {f : Fs D} {s₁ : Registry D}
    (made : g.reentrant = true → (s₁.fs f).sobj = some vol ∧ Made g s s₁ vol) :
    CanLock g (s₁.setVolume vol (some f)) f ↔ Syncs g s vol := by
  constructor
  · intro lock hr
    obtain ⟨held, d, here, mutex⟩ := made hr
    obtain ⟨k, held', lockable⟩ := lock hr
    cases held.symm.trans (Option.mem_def.1 held')
    exact ⟨d, here, mutex ▸ lockable⟩
  · intro sync hr
    obtain ⟨d, here, lockable⟩ := sync hr
    obtain ⟨held, d', here', mutex⟩ := made hr
    rw [← Option.mem_unique here here'] at mutex
    exact ⟨vol, held, mutex.symm ▸ lockable⟩

/-! ## Objects -/

variable [DecidableEq D]

/-- An object rewritten, that stays mounted only where it was. -/
theorem setFs_effect {f : Fs D} {x : FATFS}
    (h : x.fsType.isSome → ((s.fs f).fsType.isSome ∧ x.drv = (s.fs f).drv) ∨
      x.drv.toNat < s.drivers.length) : Effect s (s.setFs f x) [.fs f] := by
  refine ⟨⟨rfl, rfl, rfl, rfl, rfl⟩, ?_, rfl⟩
  intro f' mounted
  by_cases same : f' = f
  · subst same
    simpa [setFs] using h (by simpa [setFs] using mounted)
  · simp only [setFs, Function.update_of_ne same] at mounted ⊢
    exact .inl ⟨mounted, trivial⟩

theorem clearLock_effect (f : Fs D) : Effect s (s.clearLock f) [.files f] :=
  ⟨⟨rfl, rfl, rfl, rfl, rfl⟩, .refl s, rfl⟩

/-! ## `f_mount` -/

/-- What `unregister` touches. -/
def released (g : Config D) (vol : Nat) (s : Registry D) : List (Event D) :=
  match s.volumes vol with
  | none => []
  | some cfs =>
    .fs cfs :: ((if g.reentrant then (s.fs cfs).sobj.toList.map .mutex else []) ++ [.files cfs])

theorem unregister_effect (g : Config D) (vol : Nat) (s : Registry D) :
    Effect s (unregister g vol s) (released g vol s) := by
  unfold unregister released
  cases s.volumes vol with
  | none => exact .refl s
  | some cfs =>
    have cleared := clearLock_effect (s := s) cfs
    cases g.reentrant with
    | false => exact cleared.trans (setFs_effect (by simp))
    | true => exact (cleared.trans (delSyncobj_effect _)).trans (setFs_effect (by simp))

/-- What is touched to register `f` for a volume. -/
def prepared (g : Config D) (vol : Nat) (f : Fs D) (s : Registry D) : List (Event D) :=
  (if g.reentrant then .fs f :: (s.slot 0).elim [] (created g vol) else []) ++ [.fs f]

theorem register_ok (g : Config D) (vol : Nat) (f : Fs D)
    (h : g.reentrant = true → s.slot 0 ≠ none) :
    ∃ s', register g vol (some f) s = .ok (s'.setVolume vol (some f)) ∧
      Effect s s' (prepared g vol f s) ∧ (s'.fs f).fsType = none ∧
      (g.reentrant = true → (s'.fs f).sobj = some vol ∧ Made g s s' vol) := by
  have cleared : Effect s (s.setFs f { s.fs f with fsType := none }) [.fs f] :=
    setFs_effect (by simp)
  unfold register prepared
  dsimp only
  cases hr : g.reentrant with
  | false => exact ⟨_, rfl, cleared, by simp [setFs], nofun⟩
  | true =>
    obtain ⟨d, hd⟩ := Option.ne_none_iff_exists'.1 (h hr)
    have hd' : (s.setFs f { s.fs f with fsType := none }).slot 0 = some d := hd
    obtain ⟨s₁, made, effect, stored_, fs⟩ := ffCreateMutex_ok g vol hd'
    have blank : (s₁.fs f).fsType = none := by simp [fs, setFs]
    have stored : Effect s₁ (s₁.setFs f { s₁.fs f with sobj := some vol }) [.fs f] :=
      setFs_effect (by simp [blank])
    unfold creSyncobj
    rw [if_pos rfl, made, ok_bind]
    exact ⟨_, rfl, by simpa [hd] using (cleared.trans effect).trans stored, by simp [setFs, blank],
      fun _ => ⟨by simp [setFs], d, hd, stored_⟩⟩

theorem register_null (g : Config D) (vol : Nat) (f : Fs D) (hr : g.reentrant = true)
    (h : s.slot 0 = none) : ∃ e, register g vol (some f) s = .error e ∧ e ≠ .lock := by
  have h' : (s.setFs f { s.fs f with fsType := none }).slot 0 = none := h
  obtain ⟨e, null, slots⟩ := ffCreateMutex_null g vol h'
  unfold register creSyncobj
  dsimp only
  rw [if_pos hr, null]
  exact ⟨e, rfl, slots⟩

theorem clearMounted_effect (vol : Nat) (s : Registry D) :
    ∃ new, Effect s (clearMounted vol s) new := by
  unfold clearMounted
  cases s.volumes vol with
  | none => exact ⟨_, .refl s⟩
  | some f => exact ⟨_, setFs_effect (by simp)⟩

/-! ## `find_volume` -/

/-- The drive is there, ready and has a volume. -/
def Mountable (s : Registry D) (vol : Nat) (write : Bool) (a : Answers) : Prop :=
  s.slot vol ≠ none ∧ a.init &&& staNoinit = 0 ∧ (write = true → a.init &&& staProtect = 0) ∧
    ∃ t, a.scan = .found t

theorem mountVolume_ok (fs : Fs D) (write : Bool) (a : Answers) {vol : Nat}
    (h : vol < s.drivers.length) :
    ∃ res s' new, mountVolume vol fs write a s = .ok (res, s') ∧ Effect s s' new ∧
      .fs fs ∈ new ∧ (∀ e ∈ new, e = .fs fs ∨ e = .files fs) ∧
      (res = .ok ↔ Mountable s vol write a) ∧ (res = .ok → (s'.fs fs).fsType.isSome) ∧
      s'.mutexes = s.mutexes := by
  let s₁ := s.setFs fs { s.fs fs with fsType := none, drv := BitVec.ofNat 8 vol }
  have cleared : Effect s s₁ [.fs fs] := setFs_effect (by simp)
  have inside : vol < s₁.drivers.length := h
  have same : s₁.slot vol = s.slot vol := rfl
  -- The ways out that leave the object not mounted.
  have early : ∀ res, res ≠ FRESULT.ok → ¬ Mountable s vol write a → ∃ res' s' new,
      (.ok (res, s₁) : Except Fault (FRESULT × Registry D)) = .ok (res', s') ∧ Effect s s' new ∧
        .fs fs ∈ new ∧ (∀ e ∈ new, e = .fs fs ∨ e = .files fs) ∧
        (res' = .ok ↔ Mountable s vol write a) ∧ (res' = .ok → (s'.fs fs).fsType.isSome) ∧
        s'.mutexes = s.mutexes := by
    intro res refused not_
    exact ⟨res, s₁, [.fs fs], rfl, cleared, by simp, by simp,
      iff_of_false refused not_, fun ok => absurd ok refused, rfl⟩
  unfold mountVolume
  dsimp only
  rw [diskStat_ok _ inside, diskIo_ok inside, ok_bind, same]
  cases slot : s.slot vol with
  | none =>
    rw [if_pos (by simp)]
    exact early _ nofun (by simp [Mountable, slot])
  | some d =>
    rw [Option.isSome_some, if_pos rfl]
    by_cases ready : a.init &&& staNoinit = 0
    · rw [if_neg (not_not.2 ready)]
      by_cases locked : write = true ∧ a.init &&& staProtect ≠ 0
      · rw [if_pos locked]
        refine early _ nofun ?_
        intro mountable
        exact absurd (mountable.2.2.1 locked.1) locked.2
      · rw [if_neg locked, ok_bind]
        have open_ : write = true → a.init &&& staProtect = 0 := by
          intro w
          by_contra protect
          exact locked ⟨w, protect⟩
        cases scan : a.scan with
        | diskErr => exact early _ nofun (by simp [Mountable, scan])
        | noFilesystem => exact early _ nofun (by simp [Mountable, scan])
        | found t =>
          have number : vol % 256 < s.drivers.length := Nat.lt_of_le_of_lt (Nat.mod_le _ _) h
          have mounted : Effect s₁ (s₁.setFs fs { s₁.fs fs with fsType := some t, id := s₁.fsid + 1 })
              [.fs fs] := setFs_effect (by simpa [s₁, setFs] using number)
          have counted (s : Registry D) (n : WORD) : Effect s { s with fsid := n } [] :=
            ⟨⟨rfl, rfl, rfl, rfl, rfl⟩, .refl s, rfl⟩
          exact ⟨_, _, _, rfl,
            ((cleared.trans mounted).trans (counted _ _)).trans (clearLock_effect fs), by simp,
            by simp, ⟨fun _ => ⟨by simp [slot], ready, open_, t, scan⟩, fun _ => rfl⟩,
            fun _ => by simp [clearLock, setFs], rfl⟩
    · rw [if_pos ready]
      exact early _ nofun fun mountable => ready mountable.2.1

theorem mountVolume_range (fs : Fs D) (write : Bool) (a : Answers) {vol : Nat}
    (h : s.drivers.length ≤ vol) :
    ∃ e, mountVolume vol fs write a s = .error e ∧ e ≠ .lock := by
  have h' : (s.setFs fs { s.fs fs with fsType := none, drv := BitVec.ofNat 8 vol }).drivers.length ≤
      vol := h
  unfold mountVolume
  dsimp only
  rw [diskStat_range _ h']
  exact ⟨_, rfl, nofun⟩

/-- A registered object that cannot be locked. -/
theorem findVolume_lock {path : Option (List TCHAR)} {vol : Nat} {f : Fs D} (write : Bool)
    (a : Answers) (named : getLdnumber g.volumes path = some vol) (here : s.volumes vol = some f)
    (lock : ¬ CanLock g s f) : findVolume g path write a s = .error .lock := by
  unfold findVolume
  rw [named]
  dsimp only
  rw [here]
  dsimp only
  rw [lockFs_lock lock]
  rfl

/-- An object that is not mounted is looked for on the drive. -/
theorem findVolume_blank {path : Option (List TCHAR)} {vol : Nat} {f : Fs D} (write : Bool)
    (a : Answers) (named : getLdnumber g.volumes path = some vol) (here : s.volumes vol = some f)
    (blank : (s.fs f).fsType = none) (lock : CanLock g s f) :
    findVolume g path write a s =
      (mountVolume vol f write a s).map fun out => (out.1, some f, out.2) := by
  unfold findVolume
  rw [named]
  dsimp only
  rw [here]
  dsimp only
  rw [lockFs_ok lock, ok_bind, blank, if_neg (by simp)]
  change (Except.ok staNoinit >>= _) = _
  rw [ok_bind, if_neg (by decide)]
  cases mountVolume vol f write a s with
  | ok out => rfl
  | error e => rfl

/-- The whole of `f_mount` with an object to mount at once. -/
theorem fMount_ok {path : Option (List TCHAR)} {vol : Nat} (f : Fs D) (a : Answers)
    (named : getLdnumber g.volumes path = some vol) (inside : vol < s.drivers.length)
    (sync : Syncs g s vol) :
    ∃ res s' new, fMount g (some f) path 1 a s = .ok (res, s') ∧
      Effect (s.setVolume vol (some f)) s' new ∧
      (∀ e ∈ released g vol s, e ∈ new) ∧ (∀ e ∈ prepared g vol f s, e ∈ new) ∧
      (∀ e ∈ new, e ∈ released g vol s ∨ e ∈ prepared g vol f s ∨ e = .files f) ∧
      (res = .ok ↔ Mountable s vol false a) ∧ (g.reentrant = true → Made g s s' vol) := by
  have let_go := unregister_effect g vol s
  have sync' : Syncs g (unregister g vol s) vol := by
    rwa [Syncs, let_go.same.slot]
  obtain ⟨s₁, made, prepare, blank, mutex⟩ := register_ok g vol f sync'.slot
  have both := let_go.trans prepare
  have placed := setVolume_effect both vol (some f)
  have inside₁ : vol < (s₁.setVolume vol (some f)).drivers.length := by
    rwa [placed.same.drivers]
  obtain ⟨res, s₂, new, mounted, effect, own, only, result, -, mutexes⟩ :=
    mountVolume_ok f false a inside₁
  have same : prepared g vol f (unregister g vol s) = prepared g vol f s := by
    simp [prepared, let_go.same.slot]
  have mine : .fs f ∈ prepared g vol f s := by simp [prepared]
  have slots : s₁.slot vol = s.slot vol := both.same.slot vol
  rw [same] at placed
  refine ⟨res, s₂, _, ?_, placed.trans effect, ?_, ?_, ?_, ?_, ?_⟩
  · have here : (s₁.setVolume vol (some f)).volumes vol = some f := by simp [setVolume]
    unfold fMount
    rw [named]
    dsimp only
    rw [made, ok_bind, if_neg (by simp),
      findVolume_blank false a named here blank ((canLock_registered mutex).2 sync'), mounted]
    rfl
  · simp +contextual
  · simp +contextual
  · intro e he
    simp only [List.mem_append] at he
    rcases he with he | he | he
    · rcases only e he with rfl | rfl
      · exact .inr (.inl mine)
      · exact .inr (.inr rfl)
    · exact .inr (.inl he)
    · exact .inl he
  · rw [result]
    change s₁.slot vol ≠ none ∧ _ ↔ s.slot vol ≠ none ∧ _
    rw [slots]
  · intro hr
    obtain ⟨-, d, here, stored⟩ := mutex hr
    rw [let_go.same.slot] at here
    exact ⟨d, here, (congrFun mutexes vol).trans stored⟩

/-- A driver in slot 0 that stores what is no mutex. -/
theorem fMount_lock {path : Option (List TCHAR)} {vol : Nat} (f : Fs D) (a : Answers)
    (named : getLdnumber g.volumes path = some vol) (first : g.reentrant = true → s.slot 0 ≠ none)
    (unsync : ¬ Syncs g s vol) : fMount g (some f) path 1 a s = .error .lock := by
  have let_go := unregister_effect g vol s
  have first' : g.reentrant = true → (unregister g vol s).slot 0 ≠ none := by
    rwa [let_go.same.slot]
  have unsync' : ¬ Syncs g (unregister g vol s) vol := by
    rwa [Syncs, let_go.same.slot]
  obtain ⟨s₁, made, -, -, mutex⟩ := register_ok g vol f first'
  have here : (s₁.setVolume vol (some f)).volumes vol = some f := by simp [setVolume]
  unfold fMount
  rw [named]
  dsimp only
  rw [made, ok_bind, if_neg (by simp),
    findVolume_lock false a named here (unsync' ∘ (canLock_registered mutex).1)]
  rfl

end Registry
end FatFsParticle.Drives
