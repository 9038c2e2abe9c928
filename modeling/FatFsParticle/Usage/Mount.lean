import FatFsParticle.Files.Volume
import FatFsParticle.Drives.Table

/-!
# The volume behind a boot sector

`find_volume` of `ff.c` with the numbers it takes out of a boot sector, in the widths of
the source: `DWORD` sums and products wrap, and the checks are made on what is left.
`Sized` is what an accepted boot sector promises about its clusters all the same.
-/

namespace FatFsParticle.Usage
open Files (FRESULT faRead)
open Drives (FatType TCHAR getLdnumber)

abbrev QWORD := BitVec 64

abbrev Sector := Nat → BYTE

/-- What the window holds after `move_window` to a sector, `none` when that fails. A call
reads a sector of the disk once, so this is all it meets. -/
abbrev View := DWORD → Option Sector

/-- `ld_word`. -/
def ldWord (win : Sector) (p : Nat) : WORD :=
  (win (p + 1)).setWidth 16 <<< 8 ||| (win p).setWidth 16

/-- `ld_dword`. -/
def ldDword (win : Sector) (p : Nat) : DWORD :=
  (ldWord win (p + 2)).setWidth 32 <<< 16 ||| (ldWord win p).setWidth 32

/-- The members of a file system object that a boot sector decides, and what is known of
free clusters. -/
structure FATFS where
  fsType : Option FatType := none
  nFats : BYTE := 0
  fsiFlag : BYTE := 0
  nRootdir : WORD := 0
  csize : WORD := 0
  lastClst : DWORD := 0
  freeClst : DWORD := 0
  nFatent : DWORD := 0
  fsize : DWORD := 0
  volbase : DWORD := 0
  fatbase : DWORD := 0
  dirbase : DWORD := 0
  database : DWORD := 0

/-- `FatFs[]`. -/
abbrev Volumes := Nat → Option FATFS

/-! ## Boot sectors -/

/-- What `check_fs` returns: 0, 2, 3, 4. -/
inductive Check where
  | fat (win : Sector)
  | notFat (win : Sector)
  | notBs
  | diskErr

def checkFs (view : View) (sect : DWORD) : Check :=
  match view sect with
  | none => .diskErr
  | some win =>
    if ldWord win 510 ≠ 0xAA55 then .notBs
    else if (win 0 = 0xE9 ∨ win 0 = 0xEB ∧ win 2 = 0x90) ∧
        (ldDword win 54 &&& 0xFFFFFF = 0x544146 ∨ ldDword win 82 = 0x33544146) then .fat win
    else .notFat win

/-- `br`, from the partition table. -/
def partitions (win : Sector) : List DWORD :=
  (List.range 4).map fun i =>
    if win (446 + i * 16 + 4) ≠ 0 then ldDword win (446 + i * 16 + 8) else 0

/-- The `do` over the partitions: the last check made, and of which sector. -/
def findPartition (view : View) : List DWORD → Check × DWORD
  | [] => (.notBs, 0)
  | bsect :: rest =>
    match if bsect = 0 then .notBs else checkFs view bsect with
    | .fat win => (.fat win, bsect)
    | fmt => if rest = [] then (fmt, bsect) else findPartition view rest

/-- The first FAT volume of a drive. -/
def findFat (view : View) : Check × DWORD :=
  match checkFs view 0 with
  | .notFat win => findPartition view (partitions win)
  | fmt => (fmt, 0)

namespace Boot
variable (win : Sector)

/-- `fs->fsize`. -/
def fsize : DWORD :=
  if ldWord win 22 = 0 then ldDword win 36 else (ldWord win 22).setWidth 32

def nFats : BYTE := win 16

/-- Sectors of the FAT area. -/
def fasize : DWORD := fsize win * (nFats win).setWidth 32

def csize : WORD := (win 13).setWidth 16

def nRootdir : WORD := ldWord win 17

def tsect : DWORD := if ldWord win 19 = 0 then ldDword win 32 else (ldWord win 19).setWidth 32

def nrsv : WORD := ldWord win 14

/-- Reserved sectors, FAT area and root directory. -/
def sysect : DWORD := (nrsv win).setWidth 32 + fasize win + (nRootdir win / 16).setWidth 32

def nclst : DWORD := (tsect win - sysect win) / (csize win).setWidth 32

def fmt : FatType :=
  if nclst win ≤ 0xFF5 then .fat12 else if nclst win ≤ 0xFFF5 then .fat16 else .fat32

def nFatent : DWORD := nclst win + 2

/-- Bytes that the FAT needs. -/
def szbfat : DWORD :=
  match fmt win with
  | .fat32 => nFatent win * 4
  | .fat16 => nFatent win * 2
  | .fat12 => nFatent win * 3 / 2 + (nFatent win &&& 1)

/-- No check of `find_volume` answers `FR_NO_FILESYSTEM`. -/
def Accepted : Prop :=
  ldWord win 11 = 512 ∧ (nFats win = 1 ∨ nFats win = 2) ∧
    ¬ (csize win = 0 ∨ csize win &&& (csize win - 1) ≠ 0) ∧ nRootdir win % 16 = 0 ∧
    nrsv win ≠ 0 ∧ ¬ tsect win < sysect win ∧ nclst win ≠ 0 ∧
    (fmt win = .fat32 → ldWord win 42 = 0 ∧ nRootdir win = 0) ∧
    (fmt win ≠ .fat32 → nRootdir win ≠ 0) ∧ ¬ fsize win < (szbfat win + 511) / 512

instance : Decidable (Accepted win) := by
  unfold Accepted
  infer_instance

end Boot

/-- `FSINFO`, if there is one: the flags, the last and the free clusters. -/
def readFsinfo (view : View) (bsect : DWORD) (win : Sector) : BYTE × DWORD × DWORD :=
  let unknown : DWORD := 0xFFFFFFFF
  if Boot.fmt win = .fat32 ∧ ldWord win 48 = 1 then
    match view (bsect + 1) with
    | none => (0x80, unknown, unknown)
    | some info =>
      if ldWord info 510 = 0xAA55 ∧ ldDword info 0 = 0x41615252 ∧ ldDword info 484 = 0x61417272 then
        (0, ldDword info 492, ldDword info 488)
      else (0, unknown, unknown)
  else (0x80, unknown, unknown)

/-- The object of an accepted boot sector at `bsect`. -/
def mounted (view : View) (bsect : DWORD) (win : Sector) : FATFS :=
  let (fsiFlag, lastClst, freeClst) := readFsinfo view bsect win
  let fatbase := bsect + (Boot.nrsv win).setWidth 32
  { fsType := some (Boot.fmt win), nFats := Boot.nFats win, fsiFlag, nRootdir := Boot.nRootdir win,
    csize := Boot.csize win, lastClst, freeClst, nFatent := Boot.nFatent win,
    fsize := Boot.fsize win, volbase := bsect, fatbase,
    dirbase := if Boot.fmt win = .fat32 then ldDword win 44 else fatbase + Boot.fasize win,
    database := bsect + Boot.sysect win }

/-- What a call meets: whether the volume can be locked, the drive, and its sectors. -/
structure Answers where
  granted : Bool := true
  status : DSTATUS := 0
  init : DSTATUS := 0
  view : View := fun _ => none

/-- `find_volume`; the object it finds comes with the number of its volume. An object
that is not mounted keeps members of before, which nothing reads. -/
def findVolume (volumes : Nat) (path : Option (List TCHAR)) (mode : BYTE) (a : Answers)
    (s : Volumes) : FRESULT × Option (Nat × FATFS) × Volumes :=
  match getLdnumber volumes path with
  | none => (.invalidDrive, none, s)
  | some vol =>
    match s vol with
    | none => (.notEnabled, none, s)
    | some fs =>
      let write := mode &&& ~~~ faRead ≠ 0
      if ¬ a.granted then (.timeout, none, s)
      else if fs.fsType.isSome ∧ a.status &&& staNoinit = 0 then
        (if write ∧ a.status &&& staProtect ≠ 0 then .writeProtected else .ok, some (vol, fs), s)
      else
        let fs := { fs with fsType := none }
        let s := Function.update s vol (some fs)
        if a.init &&& staNoinit ≠ 0 then (.notReady, some (vol, fs), s)
        else if write ∧ a.init &&& staProtect ≠ 0 then (.writeProtected, some (vol, fs), s)
        else
          match findFat a.view with
          | (.diskErr, _) => (.diskErr, some (vol, fs), s)
          | (.fat win, bsect) =>
            if Boot.Accepted win then
              let fs := mounted a.view bsect win
              (.ok, some (vol, fs), Function.update s vol (some fs))
            else (.noFilesystem, some (vol, fs), s)
          | _ => (.noFilesystem, some (vol, fs), s)

/-! ## Sizes -/

/-- Clusters of a volume, `n_fatent - 2` as the source has it. -/
def FATFS.clusters (fs : FATFS) : Nat := (fs.nFatent - 2).toNat

/-- The clusters of a mounted volume are not empty, their sectors are counted by a
`DWORD`, and a volume of the 12-bit kind has one. -/
def FATFS.Sized (fs : FATFS) : Prop :=
  fs.fsType.isSome → 0 < fs.csize.toNat ∧ fs.clusters * fs.csize.toNat < 2 ^ 32 ∧
    (fs.fsType = some .fat12 → 2 < fs.nFatent.toNat)

theorem clusters_mounted (view : View) (bsect : DWORD) (win : Sector) :
    (mounted view bsect win).clusters = (Boot.nclst win).toNat := by
  change (Boot.nclst win + 2 - 2).toNat = _
  rw [BitVec.add_sub_cancel]

theorem sized_mounted (view : View) (bsect : DWORD) {win : Sector} (accepted : Boot.Accepted win) :
    (mounted view bsect win).Sized := by
  intro _
  obtain ⟨-, -, unit, -, -, -, cluster, -⟩ := accepted
  have positive : (Boot.nclst win).toNat ≠ 0 := by
    intro zero
    exact cluster (BitVec.eq_of_toNat_eq zero)
  rw [clusters_mounted]
  refine ⟨?_, ?_, ?_⟩
  · change 0 < (Boot.csize win).toNat
    by_contra zero
    exact unit (.inl (BitVec.eq_of_toNat_eq (by simpa using zero)))
  · change _ * (Boot.csize win).toNat < _
    have quotient : (Boot.nclst win).toNat =
        (Boot.tsect win - Boot.sysect win).toNat / (Boot.csize win).toNat := by
      rw [Boot.nclst, BitVec.toNat_udiv, BitVec.toNat_setWidth_of_le (by decide)]
    have below := Nat.div_mul_le_self (Boot.tsect win - Boot.sysect win).toNat
      (Boot.csize win).toNat
    rw [quotient]
    exact Nat.lt_of_le_of_lt below (BitVec.isLt _)
  · intro small
    have kind : Boot.fmt win = .fat12 := Option.some.inj small
    have few : Boot.nclst win ≤ 0xFF5 := by
      by_contra many
      simp only [Boot.fmt, many, if_false] at kind
      split at kind <;> cases kind
    change 2 < (Boot.nclst win + 2).toNat
    rw [BitVec.le_def] at few
    rw [BitVec.toNat_add]
    simp at few ⊢
    omega

/-- Volumes as calls leave them: registered, mounted, or with other counts of clusters. -/
inductive Reachable (volumes : Nat) : Volumes → Prop where
  | start : Reachable volumes fun _ => none
  | register {s : Volumes} (vol : Nat) (fs : Option FATFS) (reach : Reachable volumes s)
      (blank : ∀ x, fs = some x → x.fsType = none) :
      Reachable volumes (Function.update s vol fs)
  | find {s : Volumes} (path : Option (List TCHAR)) (mode : BYTE) (a : Answers)
      (reach : Reachable volumes s) : Reachable volumes (findVolume volumes path mode a s).2.2
  | count {s : Volumes} {vol : Nat} {fs : FATFS} (lastClst freeClst : DWORD) (fsiFlag : BYTE)
      (reach : Reachable volumes s) (here : s vol = some fs) :
      Reachable volumes (Function.update s vol (some { fs with lastClst, freeClst, fsiFlag }))

variable {volumes : Nat} {s : Volumes}

/-- The ways out of `find_volume`: nothing found, an object mounted before, one that is
not mounted, one mounted now. -/
inductive Finding (a : Answers) (s : Volumes) : FRESULT × Option (Nat × FATFS) × Volumes → Prop where
  | refused {res : FRESULT} (failed : res ≠ .ok) : Finding a s (res, none, s)
  | kept {res : FRESULT} {vol : Nat} {fs : FATFS} (here : s vol = some fs)
      (valid : fs.fsType.isSome) : Finding a s (res, some (vol, fs), s)
  | blank {res : FRESULT} {vol : Nat} {fs : FATFS} (failed : res ≠ .ok) (none_ : fs.fsType = none) :
      Finding a s (res, some (vol, fs), Function.update s vol (some fs))
  | made {vol : Nat} {bsect : DWORD} {win : Sector} (accepted : Boot.Accepted win) :
      Finding a s (.ok, some (vol, mounted a.view bsect win),
        Function.update s vol (some (mounted a.view bsect win)))

theorem findVolume_finding (volumes : Nat) (path : Option (List TCHAR)) (mode : BYTE) (a : Answers)
    (s : Volumes) : Finding a s (findVolume volumes path mode a s) := by
  unfold findVolume
  cases getLdnumber volumes path with
  | none => exact .refused (by decide)
  | some vol =>
    dsimp only
    cases here : s vol with
    | none => exact .refused (by decide)
    | some fs =>
      dsimp only
      split
      · exact .refused (by decide)
      · split
        case isTrue valid => exact .kept here valid.1
        case isFalse =>
          split
          · exact .blank (by decide) rfl
          · split
            · exact .blank (by decide) rfl
            · split
              · exact .blank (by decide) rfl
              · split
                case isTrue accepted =>
                  rw [Function.update_idem]
                  exact .made accepted
                case isFalse => exact .blank (by decide) rfl
              · exact .blank (by decide) rfl

/-- The object that `find_volume` finds is the one of the table, and mounted if that is
what it says. -/
theorem findVolume_entry {path : Option (List TCHAR)} {mode : BYTE} {a : Answers} {vol : Nat}
    {fs : FATFS} {s' : Volumes}
    (ran : findVolume volumes path mode a s = (.ok, some (vol, fs), s')) :
    s' vol = some fs ∧ fs.fsType.isSome := by
  have finding := findVolume_finding volumes path mode a s
  rw [ran] at finding
  cases finding with
  | kept here valid => exact ⟨here, valid⟩
  | blank failed => contradiction
  | made accepted => exact ⟨Function.update_self .., rfl⟩

theorem FATFS.Sized.blank {fs : FATFS} (none_ : fs.fsType = none) : fs.Sized := by
  intro valid
  rw [none_] at valid
  cases valid

theorem sized_update {v vol : Nat} {x fs : FATFS} (old : ∀ {v fs}, s v = some fs → fs.Sized)
    (new : x.Sized) (here : Function.update s v (some x) vol = some fs) : fs.Sized := by
  by_cases same : vol = v
  · rw [same, Function.update_self] at here
    cases here
    exact new
  · rw [Function.update_of_ne same] at here
    exact old here

/-- Every mounted volume that calls can come to is sized. -/
theorem Reachable.sized (reach : Reachable volumes s) {vol : Nat} {fs : FATFS}
    (here : s vol = some fs) : fs.Sized := by
  induction reach generalizing vol fs with
  | start => cases here
  | register v x reach blank ih =>
    by_cases same : vol = v
    · rw [same, Function.update_self] at here
      exact .blank (blank fs here)
    · rw [Function.update_of_ne same] at here
      exact ih here
  | @find s path mode a reach ih =>
    have finding := findVolume_finding volumes path mode a s
    generalize findVolume volumes path mode a s = out at finding here
    cases finding with
    | refused => exact ih here
    | kept => exact ih here
    | blank failed none_ => exact sized_update ih (.blank none_) here
    | made accepted => exact sized_update ih (sized_mounted a.view _ accepted) here
  | @count s v x lastClst freeClst fsiFlag reach there ih =>
    have before : x.Sized := ih there
    have same : FATFS.Sized { x with lastClst, freeClst, fsiFlag } := before
    exact sized_update ih same here

end FatFsParticle.Usage
