import FatFsParticle.Drives.Steps

/-!
# One drive and the others

What a call about drive `n` leaves alone: the other slots, the other volumes, and the
objects, open files and sync objects behind them. `Apart` says when it does. It fails
where the path of `detach` names another volume, where the digit of `attach` wraps to
volume 0, and where a sync object is asked of the driver in slot 0.
-/

namespace FatFsParticle.Drives

open Registry

/-- A call about one drive; `createMutex` is `__ff_create_mutex`, which `f_mount` calls for
a volume. -/
inductive Request (D : Type) where
  | attach (d : D) (n : BYTE) (a : Answers)
  | detach (n : BYTE)
  | createMutex (n : BYTE)

variable {D : Type}

/-- The event is on nothing of a drive other than `n`. -/
def Spared (n : Nat) (s : Registry D) (e : Event D) : Prop :=
  ∀ m, m ≠ n → e ≠ .mutex m ∧ ∀ f, s.volumes m = some f → e ≠ .fs f ∧ e ≠ .files f

structure Framed (n : Nat) (s s' : Registry D) (new : List (Event D)) : Prop where
  slot : ∀ i, i ≠ n → s'.slot i = s.slot i
  volumes : ∀ v, v ≠ n → s'.volumes v = s.volumes v
  log : s'.log = new ++ s.log
  spared : ∀ e ∈ new, Spared n s e

/-- What volume `n` holds belongs to no other volume, nor does its sync object. -/
def Alone (g : Config D) (n : Nat) (s : Registry D) : Prop :=
  ∀ cfs, s.volumes n = some cfs → (∀ m, m ≠ n → s.volumes m ≠ some cfs) ∧
    (g.reentrant = true → ∀ k, (s.fs cfs).sobj = some k → k = n)

/-- What `d` hands out, or what leaves the private mutex in use. -/
abbrev Handed (g : Config D) (d : D) (mp : Option DWORD) : Prop := Private mp ∨ mp = g.ioctl d 254

/-- A sync object for volume `n` is asked of `d`, which answers the number of the volume as
it answers `IOCTL_GET_MUTEX`, or with null. -/
def Asks (g : Config D) (s : Registry D) (n : BYTE) (d : D) : Prop :=
  s.slot 0 = some d ∧ Handed g d (g.ioctl d n)

/-- The call meets a slot that is taken, or names no volume; or the volume is its own, a
sync object is asked of the driver itself and is a mutex, and neither the object it mounts
nor the one it replaces is registered elsewhere. A `detach` finds nothing to do, or is of
drive 0, or finds nothing registered. A sync object is asked of the driver of its own
drive. -/
def Apart (g : Config D) (s : Registry D) : Request D → Prop
  | .attach d n _ => s.slot n.toNat ≠ none ∨ attachVolume g.volumes n.toNat = none ∨
      n.toNat < g.volumes ∧ Syncs g (s.placed n.toNat d) n.toNat ∧
        (g.reentrant = true → Asks g (s.placed n.toNat d) n d) ∧
        (∀ m, m ≠ n.toNat → s.volumes m ≠ some (.own d)) ∧ Alone g n.toNat s
  | .detach n => n.toNat < s.drivers.length ∧
      ((∀ d, s.slot n.toNat = some d → s.attached d = false) ∨ n.toNat = 0 ∧ Alone g 0 s ∨
        n.toNat ≠ 0 ∧ (∀ v, detachVolume g.volumes n.toNat = some v → s.volumes v = none) ∧
          (n.toNat < g.volumes → s.volumes n.toNat = none))
  | .createMutex n => ∃ d, s.slot n.toNat = some d ∧ Asks g s n d

variable {g : Config D} {s s' : Registry D}

@[simp] theorem spared_fs {n : Nat} {f : Fs D} :
    Spared n s (.fs f) ↔ ∀ m, m ≠ n → s.volumes m ≠ some f := by
  constructor
  · intro h m other here
    exact ((h m other).2 f here).1 rfl
  · intro h m other
    refine ⟨nofun, ?_⟩
    intro f' here
    refine ⟨?_, nofun⟩
    rintro ⟨⟩
    exact h m other here

@[simp] theorem spared_files {n : Nat} {f : Fs D} :
    Spared n s (.files f) ↔ ∀ m, m ≠ n → s.volumes m ≠ some f := by
  constructor
  · intro h m other here
    exact ((h m other).2 f here).2 rfl
  · intro h m other
    refine ⟨nofun, ?_⟩
    intro f' here
    refine ⟨nofun, ?_⟩
    rintro ⟨⟩
    exact h m other here

@[simp] theorem spared_mutex {n k : Nat} : Spared n s (.mutex k) ↔ k = n := by
  constructor
  · intro h
    by_contra other
    exact (h k other).1 rfl
  · rintro rfl m other
    refine ⟨?_, fun _ _ => ⟨nofun, nofun⟩⟩
    rintro ⟨⟩
    exact other rfl

@[simp] theorem spared_ioctl {n : Nat} {d : D} {cmd : BYTE} : Spared n s (.ioctl d cmd) :=
  fun _ _ => ⟨nofun, fun _ _ => ⟨nofun, nofun⟩⟩

theorem mem_released {n : Nat} {e : Event D} :
    e ∈ released g n s ↔ ∃ cfs, s.volumes n = some cfs ∧ (e = .fs cfs ∨ e = .files cfs ∨
      g.reentrant = true ∧ ∃ k, (s.fs cfs).sobj = some k ∧ e = .mutex k) := by
  unfold released
  cases s.volumes n with
  | none => simp
  | some cfs => cases g.reentrant <;> cases sync : (s.fs cfs).sobj <;> simp [sync, or_comm]

/-- Letting go of volume `n` touches nothing of another drive when volume `n` is alone. -/
theorem alone_iff {n : Nat} : Alone g n s ↔ ∀ e ∈ released g n s, Spared n s e := by
  constructor
  · intro alone e he
    obtain ⟨cfs, here, what⟩ := mem_released.1 he
    obtain ⟨shared, sync⟩ := alone cfs here
    rcases what with rfl | rfl | ⟨hr, k, held, rfl⟩
    · exact spared_fs.2 shared
    · exact spared_files.2 shared
    · exact spared_mutex.2 (sync hr k held)
  · intro spared cfs here
    constructor
    · exact spared_fs.1 (spared _ (mem_released.2 ⟨cfs, here, .inl rfl⟩))
    · intro hr k held
      exact spared_mutex.1 (spared _ (mem_released.2 ⟨cfs, here, .inr (.inr ⟨hr, k, held, rfl⟩)⟩))

theorem framed_idle (n : Nat) (slots : ∀ i, s'.slot i = s.slot i)
    (volumes : s'.volumes = s.volumes) (log : s'.log = s.log) : Framed n s s' [] :=
  ⟨fun i _ => slots i, fun v _ => congrFun volumes v, log, by simp⟩

theorem Framed.log_unique {n : Nat} {new new' : List (Event D)} (h : Framed n s s' new)
    (log : s'.log = new' ++ s.log) : new = new' :=
  List.append_cancel_right (h.log.symm.trans log)

/-- Only `d` was asked for a sync object of volume `n`, and what was made is `d`'s. -/
structure Synced (g : Config D) (d : D) (n : Nat) (s' : Registry D) (new : List (Event D)) :
    Prop where
  asked : ∀ d' cmd, .ioctl d' cmd ∈ new → d' = d
  handed : .mutex n ∈ new → Handed g d (s'.mutexes n)

theorem Synced.nil (g : Config D) (d : D) (n : Nat) (s' : Registry D) : Synced g d n s' [] :=
  ⟨by simp, by simp⟩

variable [DecidableEq D]

/-- What the call may do, and what it must. -/
def Isolated (g : Config D) (s : Registry D) : Request D → Prop
  | .attach d n a => ∃ res s' new, attach g d n a s = .ok (res, s') ∧
      Framed n.toNat s s' new ∧ Synced g d n.toNat s' new ∧
      (g.volumes ≤ n.toNat → s'.volumes = s.volumes ∧ res ≠ .ok)
  | .detach n => ∃ s' new, detach g n s = .ok s' ∧ Framed n.toNat s s' new ∧
      (g.volumes ≤ n.toNat → s'.volumes = s.volumes) ∧
      ((∃ d, s.slot n.toNat = some d ∧ s.attached d = true) → n.toNat < g.volumes →
        s'.volumes n.toNat = none)
  | .createMutex n => ∃ s' new, ffCreateMutex g s n.toNat = .ok s' ∧
      Framed n.toNat s s' new ∧ s'.volumes = s.volumes ∧
      ∃ d, s.slot n.toNat = some d ∧ Synced g d n.toNat s' new

/-- A mount out of `attach` stays on its drive when its volume is its own and nothing of it
is registered elsewhere. -/
theorem mounting_framed {d : D} {n : BYTE} {vol : Nat} {a : Answers} {res : FRESULT}
    {new : List (Event D)} (m : Mounting g d n vol a s s' res new) :
    Framed n.toNat s s' new ↔ vol = n.toNat ∧ (∀ m, m ≠ n.toNat → s.volumes m ≠ some (.own d)) ∧
      Alone g n.toNat s := by
  constructor
  · intro framed
    have private_ := spared_fs.1 (framed.spared _ m.own)
    have own : vol = n.toNat := by
      by_contra other
      have kept := framed.volumes vol other
      rw [m.volumes, Function.update_self] at kept
      exact private_ vol other kept.symm
    subst own
    exact ⟨rfl, private_, alone_iff.2 fun e he => framed.spared e (m.released e he)⟩
  · rintro ⟨rfl, private_, alone⟩
    constructor
    case slot =>
      intro i other
      rw [m.slot, if_neg (fun both => other both.1)]
    case volumes =>
      intro v other
      rw [m.volumes, Function.update_of_ne other]
    case log => exact m.log
    case spared =>
      intro e he
      rcases m.only e he with old | rfl | rfl | ⟨-, rfl | ⟨d', -, rfl⟩⟩
      · exact alone_iff.1 alone e old
      · exact spared_fs.2 private_
      · exact spared_files.2 private_
      · exact spared_mutex.2 rfl
      · exact spared_ioctl

/-- The sync object of a mount out of `attach` is the driver's own when it is asked of the
driver itself. -/
theorem mounting_synced {d : D} {n : BYTE} {a : Answers} {res : FRESULT} {new : List (Event D)}
    (m : Mounting g d n n.toNat a s s' res new) (sync : Syncs g (s.placed n.toNat d) n.toNat) :
    Synced g d n.toNat s' new ↔ (g.reentrant = true → Asks g (s.placed n.toNat d) n d) := by
  have code : BitVec.ofNat 8 n.toNat = n := by simp
  have made := m.sync
  have only := m.only
  have asked := m.asked
  simp only [Made, code] at made only asked
  constructor
  · rintro synced hr
    obtain ⟨d', here, mutex⟩ := made hr
    have mine : d' = d := synced.asked d' n (asked hr d' here _ (by simp [created]))
    subst mine
    refine ⟨here, ?_⟩
    rw [← mutex]
    exact synced.handed (asked hr d' here _ (by simp [created]))
  · intro asks
    constructor
    · intro d' cmd he
      rcases only _ he with old | fs | files | ⟨hr, mutex | ⟨d'', here, same⟩⟩
      · obtain ⟨cfs, -, fs | files | ⟨-, k, -, mutex⟩⟩ := mem_released.1 old
        · cases fs
        · cases files
        · cases mutex
      · cases fs
      · cases files
      · cases mutex
      · cases same
        exact Option.some.inj (here.symm.trans (asks hr).1)
    · intro he
      have hr : g.reentrant = true := by
        rcases only _ he with old | fs | files | ⟨hr, -⟩
        · obtain ⟨cfs, -, fs | files | ⟨hr, -⟩⟩ := mem_released.1 old
          · cases fs
          · cases files
          · exact hr
        · cases fs
        · cases files
        · exact hr
      obtain ⟨d', here, mutex⟩ := made hr
      obtain ⟨first, handed⟩ := asks hr
      cases here.symm.trans first
      rw [mutex]
      exact handed

theorem isolated_attach (d : D) (n : BYTE) (a : Answers) :
    Isolated g s (.attach d n a) ↔ Apart g s (.attach d n a) := by
  unfold Isolated Apart
  dsimp only
  by_cases free : s.slot n.toNat = none
  · cases named : attachVolume g.volumes n.toNat with
    | none =>
      rw [attach_unnamed d a free named]
      refine ⟨fun _ => .inr (.inl rfl), fun _ => ⟨_, _, [], rfl, ?_, .nil _ _ _ _, fun _ => ⟨rfl, nofun⟩⟩⟩
      exact framed_idle n.toNat (slot_placed_back d free) rfl rfl
    | some vol =>
      by_cases sync : Syncs g (s.placed n.toNat d) vol
      · obtain ⟨res, s', new, ran, m⟩ := attach_mounts d a free named sync
        constructor
        · rintro ⟨res', s'', new', ran', framed, synced, -⟩
          cases ran.symm.trans ran'
          have same := framed.log_unique m.log
          subst same
          obtain ⟨rfl, private_, alone⟩ := (mounting_framed m).1 framed
          have asks := (mounting_synced m sync).1 synced
          exact .inr (.inr ⟨lt_of_attachVolume named, sync, asks, private_, alone⟩)
        · rintro (taken | unnamed | ⟨small, -, asks, private_, alone⟩)
          · exact absurd free taken
          · cases unnamed
          · have own : vol = n.toNat :=
              Option.some.inj (named.symm.trans (attachVolume_of_lt small))
            have framed := (mounting_framed m).2 ⟨own, private_, alone⟩
            subst own
            refine ⟨res, s', new, ran, framed, (mounting_synced m sync).2 asks, ?_⟩
            intro large
            omega
      · obtain ⟨e, fault⟩ := attach_unsynced d a free named sync
        rw [fault]
        constructor
        · rintro ⟨res, s', new, ran, -⟩
          cases ran
        · rintro (taken | unnamed | ⟨small, sync', -⟩)
          · exact absurd free taken
          · cases unnamed
          · have own : vol = n.toNat :=
              Option.some.inj (named.symm.trans (attachVolume_of_lt small))
            exact absurd (own ▸ sync') sync
  · rw [attach_occupied d a free]
    have framed := framed_idle n.toNat (slot_grow n.toNat) (rfl : _ = s.volumes) rfl
    exact ⟨fun _ => .inl free, fun _ => ⟨_, _, [], rfl, framed, .nil _ _ _ _, fun _ => ⟨rfl, nofun⟩⟩⟩

theorem detachVolume_zero (volumes : Nat) : detachVolume volumes 0 = some 0 := rfl

/-- `detach` of drive 0 stays on its drive when its volume is its own. -/
theorem unmounting_framed_zero {d : D} {n : BYTE} (m : Unmounting g d n s s')
    (zero : n.toNat = 0) :
    s'.volumes = Function.update s.volumes 0 none ∧ s'.log = released g 0 s ++ s.log ∧
      (Framed n.toNat s s' (released g 0 s) ↔ Alone g 0 s) := by
  have volumes := m.volumes
  have log := m.log
  rw [zero, detachVolume_zero] at volumes log
  refine ⟨volumes, log, ?_⟩
  rw [zero, alone_iff]
  refine ⟨Framed.spared, ?_⟩
  intro spared
  constructor
  case slot =>
    intro i other
    rw [m.slot, zero, if_neg other]
  case volumes =>
    intro v other
    rw [volumes]
    exact Function.update_of_ne other none s.volumes
  case log => exact log
  case spared => exact spared

/-- `detach` of another drive unmounts some other volume, or none. -/
theorem unmounting_framed {d : D} {n : BYTE} (m : Unmounting g d n s s') (other : n.toNat ≠ 0) :
    s'.volumes n.toNat = s.volumes n.toNat ∧
      (∀ v, detachVolume g.volumes n.toNat = some v → s'.volumes v = none) ∧
      ((∀ v, detachVolume g.volumes n.toNat = some v → s.volumes v = none) →
        s'.volumes = s.volumes ∧ Framed n.toNat s s' []) := by
  have slots : ∀ i, i ≠ n.toNat → s'.slot i = s.slot i := by
    intro i away
    rw [m.slot, if_neg away]
  cases named : detachVolume g.volumes n.toNat with
  | none =>
    have volumes : s'.volumes = s.volumes := by
      rw [m.volumes, named]
      rfl
    have log : s'.log = [] ++ s.log := by
      rw [m.log, named]
      rfl
    refine ⟨by rw [volumes], nofun, ?_⟩
    exact fun _ => ⟨volumes, slots, fun v _ => by rw [volumes], log, by simp⟩
  | some v =>
    have volumes : s'.volumes = Function.update s.volumes v none := by
      rw [m.volumes, named]
      rfl
    have away := (detachVolume_ne named other).symm
    refine ⟨by rw [volumes, Function.update_of_ne away], ?_, ?_⟩
    · rintro v ⟨⟩
      rw [volumes, Function.update_self]
    intro empty
    have nothing : s.volumes v = none := empty v rfl
    have same : s'.volumes = s.volumes := by
      rw [volumes, ← nothing, Function.update_eq_self]
    have log : s'.log = [] ++ s.log := by
      rw [m.log, named]
      simp [released, nothing]
    exact ⟨same, slots, fun v _ => by rw [same], log, by simp⟩

theorem isolated_detach (n : BYTE) : Isolated g s (.detach n) ↔ Apart g s (.detach n) := by
  unfold Isolated Apart
  dsimp only
  by_cases inside : n.toNat < s.drivers.length
  · by_cases idle : ∀ d, s.slot n.toNat = some d → s.attached d = false
    · refine ⟨fun _ => ⟨inside, .inl idle⟩, fun _ => ?_⟩
      refine ⟨s, [], detach_idle inside idle, framed_idle _ (fun _ => rfl) rfl rfl, fun _ => rfl, ?_⟩
      rintro ⟨d, here, on⟩
      rw [idle d here] at on
      cases on
    · have busy := idle
      simp only [not_forall, Bool.not_eq_false] at busy
      obtain ⟨d, here, on⟩ := busy
      obtain ⟨s₁, ran, m⟩ := detach_runs (g := g) here on
      constructor
      · rintro ⟨s', new, ran', framed, -, clears⟩
        cases ran.symm.trans ran'
        refine ⟨inside, .inr ?_⟩
        by_cases zero : n.toNat = 0
        · obtain ⟨-, log, alone⟩ := unmounting_framed_zero m zero
          have same := framed.log_unique log
          subst same
          exact .inl ⟨zero, alone.1 framed⟩
        · obtain ⟨kept, cleared, -⟩ := unmounting_framed m zero
          refine .inr ⟨zero, ?_, ?_⟩
          · intro v named
            rw [← framed.volumes v (detachVolume_ne named zero), cleared v named]
          · intro small
            rw [← kept, clears ⟨d, here, on⟩ small]
      · rintro ⟨-, idle' | ⟨zero, alone⟩ | ⟨other, empty, clear⟩⟩
        · exact absurd idle' idle
        · obtain ⟨volumes, -, framed⟩ := unmounting_framed_zero m zero
          refine ⟨s₁, _, ran, framed.2 alone, ?_, ?_⟩
          · have accepted := g.accepted
            intro large
            omega
          · intro _ _
            rw [volumes, zero, Function.update_self]
        · obtain ⟨kept, -, framed⟩ := unmounting_framed m other
          obtain ⟨volumes, framed⟩ := framed empty
          refine ⟨s₁, [], ran, framed, fun _ => volumes, ?_⟩
          intro _ small
          rw [kept, clear small]
  · rw [detach_range (by omega)]
    constructor
    · rintro ⟨s', new, ran, -⟩
      cases ran
    · rintro ⟨inside', -⟩
      exact absurd inside' inside

theorem isolated_createMutex (n : BYTE) :
    Isolated g s (.createMutex n) ↔ Apart g s (.createMutex n) := by
  unfold Isolated Apart
  dsimp only
  cases first : s.slot 0 with
  | none =>
    obtain ⟨e, fault, -⟩ := ffCreateMutex_null g n.toNat first
    rw [fault]
    constructor
    · rintro ⟨s', new, ran, -⟩
      cases ran
    · rintro ⟨d, -, null, -⟩
      cases first.symm.trans null
  | some d =>
    obtain ⟨s₁, ran, effect, made, -⟩ := ffCreateMutex_ok g n.toNat first
    have code : BitVec.ofNat 8 n.toNat = n := by simp
    rw [code] at made
    constructor
    · rintro ⟨s', new, ran', framed, -, d', here, synced⟩
      cases ran.symm.trans ran'
      have same := framed.log_unique effect.log
      subst same
      have mine : d = d' := synced.asked d n (by simp [created])
      subst mine
      have handed := synced.handed (by simp [created])
      rw [made] at handed
      exact ⟨d, here, first, handed⟩
    · rintro ⟨d', here, first', handed⟩
      cases first.symm.trans first'
      refine ⟨s₁, _, ran, ⟨fun i _ => effect.same.slot i, fun v _ => by rw [effect.same.volumes],
        effect.log, ?_⟩, effect.same.volumes, d, here, ?_, ?_⟩
      · intro e he
        rcases mem_created he with rfl | rfl
        · exact spared_mutex.2 rfl
        · exact spared_ioctl
      · intro d' cmd he
        rcases mem_created he with other | asked
        · cases other
        · cases asked
          rfl
      · intro _
        rw [made]
        exact handed

/-- A call leaves the other drives alone exactly when it is apart from them. -/
theorem isolated_iff_apart (g : Config D) (s : Registry D) (r : Request D) :
    Isolated g s r ↔ Apart g s r := by
  cases r with
  | attach d n a => exact isolated_attach d n a
  | detach n => exact isolated_detach n
  | createMutex n => exact isolated_createMutex n

/-- Drivers `false` and `true` attached as drives 0 and 1. -/
def full : Registry Bool where
  drivers := [some false, some true]
  attached _ := true
  driveNumber d := if d then 1 else 0
  volumes v := if v = 0 then some (.own false) else if v = 1 then some (.own true) else none

/-- Drive 1 detached: volume 0 is unmounted, and volume 1 stays. -/
theorem detach_unmounts_first : ¬ Isolated (pair Bool) full (.detach 1) := by
  rintro ⟨s', new, ran, framed, -⟩
  cases ran
  have kept := framed.volumes 0 (by decide)
  cases kept

end FatFsParticle.Drives
