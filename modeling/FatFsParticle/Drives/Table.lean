import FatFsParticle.Drives.Path
import Mathlib.Logic.Function.Basic
import Mathlib.Data.Option.Basic

/-!
# The drive registries

The three places that say which driver is which drive: the slots of
`FatFs::_drivers`, the members `_attached` and `_driveNumber` of the drivers, and the
volume table `FatFs[]` of `ff.c` with the file system objects, open-file table and sync
objects behind it. A step that C++ leaves undefined, an index past the end of the slots,
a virtual call on a null pointer or a lock of what is no mutex, is a `Fault`. There is one
thread, so a mutex is always granted, and what is locked is unlocked through the same
pointer.
-/

namespace FatFsParticle.Drives

inductive FRESULT where
  | ok | diskErr | notReady | invalidDrive | notEnabled | writeProtected | noFilesystem
  deriving DecidableEq, Repr

/-- What is undefined: an index of `_drivers` that is not below its size, a virtual call
on a null entry, a lock through a pointer that leads to no mutex. -/
inductive Fault where
  | range (i : Nat)
  | null (i : Nat)
  | lock
  deriving DecidableEq, Repr

inductive FatType where
  | fat12 | fat16 | fat32
  deriving DecidableEq, Repr

/-- A file system object: the `fs` inside a driver, or one of somebody else. -/
inductive Fs (D : Type) where
  | own (d : D)
  | other (k : Nat)
  deriving DecidableEq

/-- `fsType` is `none` for 0. `sobj` is the index in `_mutexes`, `none` for null. -/
structure FATFS where
  fsType : Option FatType := none
  drv : BYTE := 0
  id : WORD := 0
  sobj : Option Nat := none

/-- What is touched apart from the slots and the volume table: a file system object, the
entries of an object in the open-file table, a pointer in `_mutexes`, a driver by the
`ioctl` of `__ff_create_mutex`. -/
inductive Event (D : Type) where
  | fs (f : Fs D)
  | files (f : Fs D)
  | mutex (k : Nat)
  | ioctl (d : D) (cmd : BYTE)
  deriving DecidableEq

/-- The configuration, what the `ioctl` of a driver stores through its buffer, and the
addresses of mutexes. -/
structure Config (D : Type) where
  volumes : Nat
  accepted : 1 ≤ volumes ∧ volumes ≤ 9
  reentrant : Bool
  ioctl : D → BYTE → Option DWORD
  isMutex : DWORD → Bool

/-- `mp`, as it was stored, is null, and the private mutex is used. -/
abbrev Private (mp : Option DWORD) : Prop := mp = none ∨ mp = some 0

/-- What `__ff_lock` locks is a mutex. -/
abbrev Config.Lockable {D : Type} (g : Config D) (mp : Option DWORD) : Prop :=
  Private mp ∨ ∃ x ∈ mp, g.isMutex x = true

structure Registry (D : Type) where
  /-- `FatFs::_drivers`. -/
  drivers : List (Option D) := []
  attached : D → Bool := fun _ => false
  driveNumber : D → BYTE := fun _ => 255
  /-- `FatFs[]`, with nothing from `_VOLUMES` on. -/
  volumes : Nat → Option (Fs D) := fun _ => none
  fs : Fs D → FATFS := fun _ => {}
  /-- `Files[i].fs`. -/
  files : Nat → Option (Fs D) := fun _ => none
  /-- `_mutexes[i].mp`; with `none` the private mutex is used. -/
  mutexes : Nat → Option DWORD := fun _ => none
  fsid : WORD := 0
  /-- The drivers whose destructor has not run. -/
  alive : D → Bool := fun _ => true
  log : List (Event D) := []

/-- What `find_volume` makes of the sectors it reads. -/
inductive Scan where
  | found (t : FatType)
  | diskErr
  | noFilesystem

/-- What a drive answers while a volume is looked for: `disk_status`,
`disk_initialize`, and the sectors read. -/
structure Answers where
  status : DSTATUS := 0
  init : DSTATUS := 0
  scan : Scan := .diskErr

namespace Registry

variable {D : Type} [DecidableEq D]

/-- The entry of a slot, null where there is no slot yet. -/
def slot (s : Registry D) (i : Nat) : Option D := (s.drivers[i]?).join

/-- `_drivers[i]`. -/
def index (s : Registry D) (i : Nat) : Except Fault (Option D) :=
  match s.drivers[i]? with
  | some d => .ok d
  | none => .error (.range i)

/-- The `while` of `attach`. -/
def grow (s : Registry D) (n : Nat) : Registry D :=
  { s with drivers := s.drivers ++ List.replicate (n + 1 - s.drivers.length) none }

/-- `_drivers[i] = d`, at a slot that is there. -/
def setSlot (s : Registry D) (i : Nat) (d : Option D) : Registry D :=
  { s with drivers := s.drivers.set i d }

def setAttached (s : Registry D) (d : D) (yes : Bool) : Registry D :=
  { s with attached := Function.update s.attached d yes }

def setDriveNumber (s : Registry D) (d : D) (n : BYTE) : Registry D :=
  { s with driveNumber := Function.update s.driveNumber d n }

def setVolume (s : Registry D) (v : Nat) (f : Option (Fs D)) : Registry D :=
  { s with volumes := Function.update s.volumes v f }

def setFs (s : Registry D) (f : Fs D) (x : FATFS) : Registry D :=
  { s with fs := Function.update s.fs f x, log := .fs f :: s.log }

/-- A store to `_mutexes[k].mp`. -/
def setMutex (s : Registry D) (k : Nat) (p : Option DWORD) : Registry D :=
  { s with mutexes := Function.update s.mutexes k p, log := .mutex k :: s.log }

/-- `clear_lock`. -/
def clearLock (s : Registry D) (f : Fs D) : Registry D :=
  { s with
    files := fun i => if s.files i = some f then none else s.files i
    log := .files f :: s.log }

/-- `ff_del_syncobj`, with `__ff_destroy`. -/
def delSyncobj (s : Registry D) (sobj : Option Nat) : Registry D :=
  match sobj with
  | some k => s.setMutex k none
  | none => s

/-- `FatFs::driver(0)->ioctl(drv, &m->mp)`. -/
def driverIoctl (g : Config D) (s : Registry D) (drv : Nat) : Except Fault (Registry D) := do
  let d ← s.index 0
  match d with
  | none => .error (.null 0)
  | some d =>
    let s := { s with log := .ioctl d (BitVec.ofNat 8 drv) :: s.log }
    match g.ioctl d (BitVec.ofNat 8 drv) with
    | some p => pure (s.setMutex drv (some p))
    | none => pure s

/-- `__ff_create_mutex`; it returns `&_mutexes[drv]`. -/
def ffCreateMutex (g : Config D) (s : Registry D) (drv : Nat) : Except Fault (Registry D) :=
  driverIoctl g (s.setMutex drv none) drv

/-- `ff_cre_syncobj`, which cannot fail. -/
def creSyncobj (g : Config D) (s : Registry D) (vol : Nat) (f : Fs D) :
    Except Fault (Registry D) := do
  let s ← ffCreateMutex g s vol
  pure (s.setFs f { s.fs f with sobj := some vol })

/-- `lock_fs`, with `__ff_lock`: `sobj` is looked through, and there must be a mutex. -/
def lockFs (g : Config D) (s : Registry D) (f : Fs D) : Except Fault Unit :=
  if g.reentrant then
    match (s.fs f).sobj with
    | none => .error .lock
    | some k => if g.Lockable (s.mutexes k) then pure () else .error .lock
  else pure ()

/-! ## The disk layer -/

/-- `disk_status` and `disk_initialize` of a drive that answers `stat`. -/
def diskStat (s : Registry D) (pdrv : Nat) (stat : DSTATUS) : Except Fault DSTATUS := do
  let d ← s.index pdrv
  pure (if d.isSome then stat else staNoinit)

/-- `disk_read`, `disk_write` and `disk_ioctl`: whether there is a driver to call. -/
def diskIo (s : Registry D) (pdrv : Nat) : Except Fault Bool := do
  let d ← s.index pdrv
  pure d.isSome

/-! ## `ff.c` -/

/-- `find_volume` from where the file system object is found not valid. -/
def mountVolume (vol : Nat) (fs : Fs D) (write : Bool) (a : Answers) (s : Registry D) :
    Except Fault (FRESULT × Registry D) := do
  let s := s.setFs fs { s.fs fs with fsType := none, drv := BitVec.ofNat 8 vol }
  let stat ← s.diskStat vol a.init
  if stat &&& staNoinit ≠ 0 then pure (.notReady, s)
  else if write ∧ stat &&& staProtect ≠ 0 then pure (.writeProtected, s)
  else do
    let _ ← s.diskIo vol
    match a.scan with
    | .diskErr => pure (.diskErr, s)
    | .noFilesystem => pure (.noFilesystem, s)
    | .found t =>
      let s := s.setFs fs { s.fs fs with fsType := some t, id := s.fsid + 1 }
      pure (.ok, { s with fsid := s.fsid + 1 }.clearLock fs)

/-- `find_volume`, with the object it finds; `write` for a `mode` other than `FA_READ`. -/
def findVolume (g : Config D) (path : Option (List TCHAR)) (write : Bool) (a : Answers)
    (s : Registry D) : Except Fault (FRESULT × Option (Fs D) × Registry D) :=
  match getLdnumber g.volumes path with
  | none => pure (.invalidDrive, none, s)
  | some vol =>
    match s.volumes vol with
    | none => pure (.notEnabled, none, s)
    | some fs => do
      lockFs g s fs
      let stat ← (if (s.fs fs).fsType.isSome then s.diskStat (s.fs fs).drv.toNat a.status
        else pure staNoinit)
      if stat &&& staNoinit = 0 then
        pure (if write ∧ stat &&& staProtect ≠ 0 then .writeProtected else .ok, some fs, s)
      else do
        let (res, s) ← mountVolume vol fs write a s
        pure (res, some fs, s)

/-- The part of `f_mount` that lets go of the object registered for a volume. -/
def unregister (g : Config D) (vol : Nat) (s : Registry D) : Registry D :=
  match s.volumes vol with
  | none => s
  | some cfs =>
    let s := s.clearLock cfs
    let s := if g.reentrant then s.delSyncobj (s.fs cfs).sobj else s
    s.setFs cfs { s.fs cfs with fsType := none }

/-- The part of `f_mount` that prepares and registers the new object. -/
def register (g : Config D) (vol : Nat) (fs : Option (Fs D)) (s : Registry D) :
    Except Fault (Registry D) :=
  match fs with
  | none => pure (s.setVolume vol none)
  | some f => do
    let s := s.setFs f { s.fs f with fsType := none }
    let s ← (if g.reentrant then creSyncobj g s vol f else pure s)
    pure (s.setVolume vol (some f))

def fMount (g : Config D) (fs : Option (Fs D)) (path : Option (List TCHAR)) (opt : BYTE)
    (a : Answers) (s : Registry D) : Except Fault (FRESULT × Registry D) :=
  match getLdnumber g.volumes path with
  | none => pure (.invalidDrive, s)
  | some vol => do
    let s ← register g vol fs (unregister g vol s)
    if fs.isNone ∨ opt ≠ 1 then pure (.ok, s)
    else do
      let (res, _, s) ← findVolume g path false a s
      pure (res, s)

/-- `k` calls of `disk_read`, `disk_write` or `disk_ioctl`. -/
def transfer (s : Registry D) (pdrv : Nat) : Nat → Except Fault Unit
  | 0 => pure ()
  | k + 1 => do
    let _ ← s.diskIo pdrv
    s.transfer pdrv k

/-- A function of `ff.c` that takes a path: `find_volume`, and if it succeeds `k` calls
for sectors. -/
def access (g : Config D) (path : Option (List TCHAR)) (write : Bool) (a : Answers) (k : Nat)
    (s : Registry D) : Except Fault (Registry D) := do
  let (res, fs, s) ← findVolume g path write a s
  match res, fs with
  | .ok, some fs => s.transfer (s.fs fs).drv.toNat k
  | _, _ => pure ()
  pure s

/-- `validate`: an object is valid when it is of the mount that its file system is in. -/
def validate (g : Config D) (obj : Option (Fs D × WORD)) (a : Answers) (s : Registry D) :
    Except Fault (Option (Fs D)) :=
  match obj with
  | none => pure none
  | some (fs, id) =>
    if (s.fs fs).fsType.isSome ∧ (s.fs fs).id = id then do
      let stat ← s.diskStat (s.fs fs).drv.toNat a.status
      if stat &&& staNoinit ≠ 0 then pure none
      else do
        lockFs g s fs
        pure (some fs)
    else pure none

/-- A function of `ff.c` that takes a file or a directory. -/
def useObject (g : Config D) (obj : Option (Fs D × WORD)) (a : Answers) (k : Nat) (s : Registry D) :
    Except Fault (Registry D) := do
  let fs ← validate g obj a s
  match fs with
  | some fs => s.transfer (s.fs fs).drv.toNat k
  | none => pure ()
  pure s

/-- The part of `f_mkfs` that clears the mounted volume. -/
def clearMounted (vol : Nat) (s : Registry D) : Registry D :=
  match s.volumes vol with
  | some fs => s.setFs fs { s.fs fs with fsType := none }
  | none => s

/-- `f_mkfs` up to its calls for sectors, the first of them `GET_BLOCK_SIZE`. -/
def fMkfs (g : Config D) (path : Option (List TCHAR)) (a : Answers) (k : Nat) (s : Registry D) :
    Except Fault (Registry D) :=
  match getLdnumber g.volumes path with
  | none => pure s
  | some vol => do
    let s := clearMounted vol s
    let stat ← s.diskStat vol a.init
    if stat &&& staNoinit ≠ 0 ∨ stat &&& staProtect ≠ 0 then pure s
    else do
      s.transfer vol (k + 1)
      pure s

/-! ## `FatFs` and `FatFsDriver` -/

def attach (g : Config D) (d : D) (driveNumber : BYTE) (a : Answers) (s : Registry D) :
    Except Fault (FRESULT × Registry D) := do
  let n := driveNumber.toNat
  let s := s.grow n
  let occupied ← s.index n
  if occupied.isSome then pure (.invalidDrive, s)
  else do
    let s := s.setSlot n (some d)
    let (result, s) ← fMount g (some (.own d)) (some (attachPath driveNumber)) 1 a s
    let s := s.setAttached d (result == .ok)
    if result ≠ .ok then pure (result, s.setSlot n none)
    else pure (result, s.setDriveNumber d driveNumber)

def detach (g : Config D) (driveNumber : BYTE) (s : Registry D) : Except Fault (Registry D) := do
  let n := driveNumber.toNat
  let driver ← s.index n
  match driver with
  | none => pure s
  | some d =>
    if s.attached d then do
      let (_, s) ← fMount g none (some (detachPath driveNumber)) 0 {} s
      pure ((s.setSlot n none).setDriveNumber d 255)
    else pure s

/-- `~FatFsDriver`. -/
def destroy (g : Config D) (d : D) (s : Registry D) : Except Fault (Registry D) := do
  let s ← (if s.attached d then detach g (s.driveNumber d) s else pure s)
  pure { s with alive := Function.update s.alive d false }

end Registry

end FatFsParticle.Drives
