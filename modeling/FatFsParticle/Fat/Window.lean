import FatFsParticle.Interact.Ends
import FatFsParticle.Usage.Figures
import FatFsParticle.Times.Entry

/-!
# The window of a mounted volume

A file system object keeps one sector of its volume in `win[]`. `sync_window` writes it
back, and to the other copy of the FAT too, `move_window` makes another sector appear.
The drive stores what it is told to store, but any access may fail, and a write that
fails leaves anything in its sector. What the disk and the window together hold is the
`sight` of the volume: moving the window leaves it alone, whatever fails.
-/

namespace FatFsParticle.Fat
open Interact Program
open Files (FRESULT)
open Drives (FatType)
open Usage (Sector)

/-! ## The drive -/

/-- Accesses to the drive; `sync` is `CTRL_SYNC`. -/
inductive Request where
  | read (sect : DWORD)
  | write (sect : DWORD) (data : Sector)
  | sync

abbrev Request.Ans : Request → Type
  | read _ => Option Sector
  | write _ _ | sync => Bool

abbrev Prog := Program Request.Ans

def diskRead (sect : DWORD) : Prog (Option Sector) := Program.request (Request.read sect)
def diskWrite (sect : DWORD) (data : Sector) : Prog Bool := Program.request (Request.write sect data)
def diskSync : Prog Bool := Program.request Request.sync

abbrev Disk := DWORD → Sector

/-- A drive that may fail only if it is `faulty`. -/
def rules (faulty : Prop) : Rules Request.Ans Disk where
  allowed _ _ := True
  step
    | D, .read s, w, D' => D' = D ∧ (w = some (D s) ∨ w = none ∧ faulty)
    | D, .write s d, ok, D' => ok = true ∧ D' = Function.update D s d ∨
        ok = false ∧ faulty ∧ ∃ x, D' = Function.update D s x
    | D, .sync, ok, D' => D' = D ∧ (ok = true ∨ faulty)

section
variable {faulty : Prop} {D : Disk}

theorem twp_diskRead {s : DWORD} {Q : Option Sector → Disk → Prop} (done : Q (some (D s)) D)
    (fails : faulty → Q none D) : (diskRead s).twp (rules faulty) Q D := by
  refine ⟨trivial, ?_⟩
  rintro x t ⟨rfl, rfl | ⟨rfl, bad⟩⟩
  · exact done
  · exact fails bad

theorem twp_diskWrite {s : DWORD} {d : Sector} {Q : Bool → Disk → Prop}
    (done : Q true (Function.update D s d))
    (fails : faulty → ∀ x, Q false (Function.update D s x)) :
    (diskWrite s d).twp (rules faulty) Q D := by
  refine ⟨trivial, ?_⟩
  rintro x t (⟨rfl, rfl⟩ | ⟨rfl, bad, y, rfl⟩)
  · exact done
  · exact fails bad y

theorem twp_diskSync {Q : Bool → Disk → Prop} (done : Q true D) (fails : faulty → Q false D) :
    diskSync.twp (rules faulty) Q D := by
  refine ⟨trivial, ?_⟩
  rintro x t ⟨rfl, ok⟩
  cases x with
  | true => exact done
  | false => exact fails (ok.resolve_left (by decide))

end

/-- A drive that does not fail. -/
def drive : (r : Request) → Disk → r.Ans × Disk
  | .read s, D => (some (D s), D)
  | .write s d, D => (true, Function.update D s d)
  | .sync, D => (true, D)

theorem drive_simulates (faulty : Prop) : Simulates drive (rules faulty) Eq := by
  rintro D _ rfl r -
  cases r with
  | read s => exact ⟨D, ⟨rfl, .inl rfl⟩, rfl⟩
  | write s d => exact ⟨_, .inl ⟨rfl, rfl⟩, rfl⟩
  | sync => exact ⟨D, ⟨rfl, .inl rfl⟩, rfl⟩

/-- A program that comes to its end has one. -/
theorem exists_ends (faulty : Prop) {α : Type} {p : Prog α} {Q : α → Disk → Prop} {D : Disk}
    (h : p.twp (rules faulty) Q D) : ∃ a D', Ends (rules faulty) p D a D' := by
  obtain ⟨a, D', -, ran, -, -⟩ := run_total (drive_simulates faulty) rfl h
  obtain ⟨D'', ends, -⟩ := ends_of_run (drive_simulates faulty) (fun _ _ => trivial) rfl ran
  exact ⟨a, D'', ends⟩

/-! ## The file system object -/

/-- Clusters and reserved entries that a FAT can have. -/
def limit : FatType → Nat
  | .fat12 => 0xFF7
  | .fat16 => 0xFFF7
  | .fat32 => 0x0FFFFFF7

/-- Bytes of a FAT of `n` entries. -/
def szbfat : FatType → Nat → Nat
  | .fat12, n => n * 3 / 2 + n % 2
  | .fat16, n => n * 2
  | .fat32, n => n * 4

/-- The members of a mounted object that stay as they are, of a volume laid out well: the FAT
area holds the entries and lies between the reserved sectors and the data area, and the
numbers of the clusters and of all sectors fit. `find_volume` checks the size of the FAT and
the size of a cluster. That the numbers fit it does not, and for FAT32 neither that the
clusters are not too many nor that the reserved sectors have room for FSINFO. -/
structure Layout where
  fsType : FatType
  nFats : BYTE
  nRootdir : WORD
  csize : WORD
  nFatent : DWORD
  fsize : DWORD
  volbase : DWORD
  fatbase : DWORD
  dirbase : DWORD
  database : DWORD
  copies : nFats = 1 ∨ nFats = 2
  some_ : 2 < nFatent.toNat
  few : nFatent.toNat ≤ limit fsType
  room : szbfat fsType nFatent.toNat ≤ fsize.toNat * 512
  info : fsType = .fat32 → volbase.toNat + 1 < fatbase.toNat
  after : fatbase.toNat + fsize.toNat * nFats.toNat ≤ database.toNat
  power : ∃ k ≤ 7, csize.toNat = 2 ^ k
  fits : database.toNat + (nFatent.toNat - 2) * csize.toNat < 2 ^ 32

theorem Layout.unit (l : Layout) : 0 < l.csize.toNat := by
  obtain ⟨k, -, power⟩ := l.power
  rw [power]
  exact Nat.two_pow_pos k

/-- `wflag` is bit 0 of the source's. -/
structure FATFS extends Layout where
  fsiFlag : BYTE
  lastClst : DWORD
  freeClst : DWORD
  wflag : Bool
  winsect : DWORD
  win : Sector

/-- What `f_getfree` reads of the object. -/
def FATFS.flat (fs : FATFS) : Usage.FATFS where
  fsType := some fs.fsType
  nFats := fs.nFats
  fsiFlag := fs.fsiFlag
  nRootdir := fs.nRootdir
  csize := fs.csize
  lastClst := fs.lastClst
  freeClst := fs.freeClst
  nFatent := fs.nFatent
  fsize := fs.fsize
  volbase := fs.volbase
  fatbase := fs.fatbase
  dirbase := fs.dirbase
  database := fs.database

/-! ## sync_window and move_window -/

/-- The loop of `sync_window` over the other copies of the FAT. Nobody looks whether they
were written. -/
def reflect (fs : FATFS) : Nat → DWORD → Prog Unit
  | 0, _ => pure ()
  | nf + 1, wsect => do
    let wsect := wsect + fs.fsize
    let _ ← diskWrite wsect fs.win
    reflect fs nf wsect

def syncWindow (fs : FATFS) : Prog (FRESULT × FATFS) :=
  if fs.wflag then do
    let wsect := fs.winsect
    let ok ← diskWrite wsect fs.win
    if !ok then pure (.diskErr, fs)
    else do
      let fs := { fs with wflag := false }
      if wsect - fs.fatbase < fs.fsize then
        reflect fs (fs.nFats.toNat - 1) wsect
      pure (.ok, fs)
  else pure (.ok, fs)

/-- The number of a window that holds no sector. -/
abbrev nowhere : DWORD := 0xFFFFFFFF

def moveWindow (fs : FATFS) (sector : DWORD) : Prog (FRESULT × FATFS) :=
  if sector ≠ fs.winsect then do
    let (res, fs) ← syncWindow fs
    if res ≠ .ok then pure (res, fs)
    else do
      let data ← diskRead sector
      match data with
      | none => pure (.diskErr, { fs with winsect := nowhere })
      | some win => pure (.ok, { fs with win, winsect := sector })
  else pure (.ok, fs)

/-- `sync_fs`. -/
def syncFs (fs : FATFS) : Prog (FRESULT × FATFS) := do
  let (res, fs) ← syncWindow fs
  if res ≠ .ok then pure (res, fs)
  else do
    let fs ← (if fs.fsType = .fat32 ∧ fs.fsiFlag = 1 then do
        let win : Sector := fun _ => 0
        let win := Times.stWord win 510 0xAA55
        let win := Times.stDword win 0 0x41615252
        let win := Times.stDword win 484 0x61417272
        let win := Times.stDword win 488 fs.freeClst
        let win := Times.stDword win 492 fs.lastClst
        let fs := { fs with win, winsect := fs.volbase + 1 }
        let _ ← diskWrite fs.winsect fs.win
        pure { fs with fsiFlag := 0 }
      else pure fs)
    let ok ← diskSync
    pure (if ok then .ok else .diskErr, fs)

/-- `clust2sect`. -/
def clust2sect (fs : Layout) (clst : DWORD) : DWORD :=
  let clst := clst - 2
  if fs.nFatent - 2 ≤ clst then 0 else clst * fs.csize.setWidth 32 + fs.database

/-! ## What the volume holds -/

/-- The sectors of the first FAT. -/
def Layout.InFat (l : Layout) (s : DWORD) : Prop :=
  l.fatbase.toNat ≤ s.toNat ∧ s.toNat < l.fatbase.toNat + l.fsize.toNat

/-- The sectors that hold something: those of the first FAT, and those behind the FATs. -/
def Layout.Own (fs : Layout) (s : DWORD) : Prop :=
  fs.InFat s ∨ (fs.fatbase.toNat + fs.fsize.toNat * fs.nFats.toNat ≤ s.toNat ∧ s ≠ nowhere)

/-- The disk and the window together hold `L` in the sectors `P`, the FAT among them. -/
structure Holds (P : DWORD → Prop) (fs : FATFS) (D L : Disk) : Prop where
  own : ∀ s, P s → fs.Own s
  fat : ∀ s, fs.InFat s → P s
  disk : ∀ s, P s → ¬(fs.wflag = true ∧ s = fs.winsect) → D s = L s
  window : P fs.winsect → fs.win = L fs.winsect

/-- The same object; what may differ is its window. -/
structure Moved (fs fs' : FATFS) : Prop where
  layout : fs'.toLayout = fs.toLayout
  fsiFlag : fs'.fsiFlag = fs.fsiFlag
  lastClst : fs'.lastClst = fs.lastClst
  freeClst : fs'.freeClst = fs.freeClst

theorem Moved.refl (fs : FATFS) : Moved fs fs := ⟨rfl, rfl, rfl, rfl⟩

theorem Moved.trans {fs fs' fs'' : FATFS} (h : Moved fs fs') (h' : Moved fs' fs'') :
    Moved fs fs'' :=
  ⟨h'.layout.trans h.layout, h'.fsiFlag.trans h.fsiFlag, h'.lastClst.trans h.lastClst,
    h'.freeClst.trans h.freeClst⟩

/-- The window shows a sector of the FAT, or none. -/
def FATFS.AtFat (fs : FATFS) : Prop := fs.InFat fs.winsect ∨ fs.winsect = nowhere

/-- If the window was moved, then to the FAT. -/
structure Fetched (fs fs' : FATFS) : Prop extends Moved fs fs' where
  window : fs'.AtFat ∨ fs'.winsect = fs.winsect

theorem Fetched.refl (fs : FATFS) : Fetched fs fs := ⟨.refl fs, .inr rfl⟩

theorem FATFS.AtFat.congr {fs fs' : FATFS} (at_ : fs.AtFat) (layout : fs'.toLayout = fs.toLayout)
    (same : fs'.winsect = fs.winsect) : fs'.AtFat := by
  unfold FATFS.AtFat at *
  rwa [layout, same]

theorem Fetched.trans {fs fs' fs'' : FATFS} (h : Fetched fs fs') (h' : Fetched fs' fs'') :
    Fetched fs fs'' := by
  refine ⟨h.toMoved.trans h'.toMoved, ?_⟩
  rcases h'.window with at_ | same
  · exact .inl at_
  · exact h.window.imp (fun at_ => at_.congr h'.layout same) same.trans

theorem Fetched.atFat {fs fs' : FATFS} (h : Fetched fs fs') (at_ : fs.AtFat) : fs'.AtFat :=
  h.window.elim id (at_.congr h.layout)

section
variable {faulty : Prop} {P : DWORD → Prop} {fs : FATFS} {D L : Disk}

theorem Layout.fat_below (l : Layout) : l.fatbase.toNat + l.fsize.toNat < 2 ^ 32 := by
  have after := l.after
  have fits := l.fits
  rcases l.copies with one | two
  · rw [one] at after
    simp at after
    omega
  · rw [two] at after
    simp at after
    omega

theorem Layout.not_own_copy (l : Layout) {s : DWORD} (low : l.fatbase.toNat ≤ s.toNat)
    (high : s.toNat < l.fatbase.toNat + l.fsize.toNat) (two : l.nFats = 2) :
    ¬l.Own (s + l.fsize) := by
  have after := l.after
  have fits := l.fits
  have there : (s + l.fsize).toNat = s.toNat + l.fsize.toNat := by
    rw [BitVec.toNat_add]
    rw [two] at after
    simp at after
    omega
  rw [two] at after
  simp at after
  unfold Own InFat
  rw [there, two]
  rintro (first | ⟨behind, -⟩)
  · omega
  · simp at behind
    omega

theorem Layout.not_own_nowhere (l : Layout) : ¬l.Own nowhere := by
  have after := l.after
  have fits := l.fits
  have positive := l.some_
  have unit := l.unit
  rintro (⟨-, fat⟩ | ⟨-, other⟩)
  · have data : 0 < (l.nFatent.toNat - 2) * l.csize.toNat := Nat.mul_pos (by omega) unit
    have high : nowhere.toNat = 2 ^ 32 - 1 := by decide
    rcases l.copies with one | two
    · rw [one] at after
      simp at after
      omega
    · rw [two] at after
      simp at after
      omega
  · exact other rfl

/-- The test of `sync_window`: the sector is one of the first FAT. -/
theorem Layout.in_fat (l : Layout) {s : DWORD} :
    s - l.fatbase < l.fsize ↔
      l.fatbase.toNat ≤ s.toNat ∧ s.toNat < l.fatbase.toNat + l.fsize.toNat := by
  have below := l.fat_below
  have bound := s.isLt
  rw [BitVec.lt_def, BitVec.toNat_sub]
  omega

theorem twp_reflect {n : Nat} {s : DWORD} (other : n = 0 ∨ n = 1 ∧ ¬fs.Own (s + fs.fsize))
    (D : Disk) :
    (reflect fs n s).twp (rules faulty) (fun _ D' => ∀ t, fs.Own t → D' t = D t) D := by
  rcases other with rfl | ⟨rfl, copy⟩
  · intro t own
    rfl
  · unfold reflect
    have kept (x : Sector) : ∀ t, fs.Own t → Function.update D (s + fs.fsize) x t = D t := by
      intro t own
      apply Function.update_of_ne
      rintro rfl
      exact copy own
    rw [twp_bind]
    apply twp_diskWrite
    · exact kept _
    · intro bad x
      exact kept x

theorem twp_syncWindow (holds : Holds P fs D L) :
    (syncWindow fs).twp (rules faulty) (fun r D' => Moved fs r.2 ∧ Holds P r.2 D' L ∧
      r.2.winsect = fs.winsect ∧ r.2.win = fs.win ∧
      (r.1 = .ok ∧ r.2.wflag = false ∨ r.1 = .diskErr ∧ faulty)) D := by
  unfold syncWindow
  split
  case isFalse clean => exact ⟨.refl fs, holds, rfl, rfl, .inl ⟨rfl, by simpa using clean⟩⟩
  case isTrue dirty =>
    dsimp only
    rw [twp_bind]
    apply twp_diskWrite
    · have written : ∀ t, P t → Function.update D fs.winsect fs.win t = L t := by
        intro t own
        by_cases here : t = fs.winsect
        · subst here
          rw [Function.update_self]
          exact holds.window own
        · rw [Function.update_of_ne here]
          exact holds.disk t own fun at_ => here at_.2
      have clean {D' : Disk} (same : ∀ t, fs.Own t → D' t = Function.update D fs.winsect fs.win t) :
          Holds P { fs with wflag := false } D' L :=
        ⟨holds.own, holds.fat, fun t own _ => (same t (holds.own t own)).trans (written t own),
            holds.window⟩
      simp only [Bool.not_true, Bool.false_eq_true, if_false]
      split
      case isFalse => exact ⟨⟨rfl, rfl, rfl, rfl⟩, clean fun _ _ => rfl, rfl, rfl, .inl ⟨rfl, rfl⟩⟩
      case isTrue fat =>
        have other : fs.nFats.toNat - 1 = 0 ∨
            fs.nFats.toNat - 1 = 1 ∧ ¬fs.Own (fs.winsect + fs.fsize) := by
          obtain ⟨low, high⟩ := fs.in_fat.1 fat
          rcases fs.copies with one | two
          · left
            rw [one]
            rfl
          · right
            exact ⟨by rw [two]; rfl, fs.not_own_copy low high two⟩
        rw [twp_bind]
        apply twp_mono (@twp_reflect faulty { fs with wflag := false } _ _ other _)
        intro _ D' same
        exact ⟨⟨rfl, rfl, rfl, rfl⟩, clean same, rfl, rfl, .inl ⟨rfl, rfl⟩⟩
    · intro bad x
      have kept : Holds P fs (Function.update D fs.winsect x) L := by
        refine ⟨holds.own, holds.fat, ?_, holds.window⟩
        intro t own away
        rw [Function.update_of_ne fun here => away ⟨dirty, here⟩]
        exact holds.disk t own away
      exact ⟨.refl fs, kept, rfl, rfl, .inr ⟨rfl, bad⟩⟩

/-- The window moves, and what the volume holds stays. -/
theorem twp_moveWindow (holds : Holds P fs D L) (s : DWORD) :
    (moveWindow fs s).twp (rules faulty) (fun r D' => Moved fs r.2 ∧ Holds P r.2 D' L ∧
      (r.1 = .ok ∧ r.2.winsect = s ∧ (P s → r.2.win = L s) ∨
        r.1 = .diskErr ∧ faulty ∧ (r.2.winsect = fs.winsect ∨ r.2.winsect = nowhere))) D := by
  unfold moveWindow
  split
  case isFalse here =>
    have here : s = fs.winsect := not_not.1 here
    subst here
    exact ⟨.refl fs, holds, .inl ⟨rfl, rfl, holds.window⟩⟩
  case isTrue away =>
    apply twp_seq (twp_syncWindow holds)
    rintro ⟨res, fs'⟩ D' ⟨moved, holds', same, -, ⟨ok, clean⟩ | ⟨failed, bad⟩⟩
    · dsimp only at moved holds' ok clean ⊢
      have stored (own : P s) : D' s = L s := by
        apply holds'.disk s own
        rw [clean]
        exact fun at_ => Bool.false_ne_true at_.1
      have disk (t : DWORD) (win : Sector) (at_ : P t → win = L t) :
          Holds P { fs' with win, winsect := t } D' L := by
        refine ⟨holds'.own, holds'.fat, ?_, at_⟩
        intro t own _
        apply holds'.disk t own
        rw [clean]
        exact fun at_ => Bool.false_ne_true at_.1
      rw [if_neg (not_not.2 ok), twp_bind]
      apply twp_diskRead
      · refine ⟨moved.trans ⟨rfl, rfl, rfl, rfl⟩, disk s _ stored, .inl ⟨rfl, rfl, stored⟩⟩
      · intro bad
        refine ⟨moved.trans ⟨rfl, rfl, rfl, rfl⟩, disk nowhere _ fun none_ => ?_,
          .inr ⟨rfl, bad, .inr rfl⟩⟩
        exact absurd (holds'.own _ none_) fs'.not_own_nowhere
    · dsimp only at failed ⊢
      rw [failed, if_pos (by decide)]
      exact ⟨moved, holds', .inr ⟨rfl, bad, .inl same⟩⟩

/-- Bytes changed in the window are changed on the volume. -/
theorem Holds.write (holds : Holds P fs D L) (win : Sector) :
    Holds P { fs with win, wflag := true } D (Function.update L fs.winsect win) := by
  refine ⟨holds.own, holds.fat, ?_, ?_⟩
  · intro t own away
    have elsewhere : t ≠ fs.winsect := fun here => away ⟨rfl, here⟩
    rw [Function.update_of_ne elsewhere]
    exact holds.disk t own fun at_ => elsewhere at_.2
  · intro _
    exact (Function.update_self fs.winsect win L).symm

/-- The sector of the file system information holds nothing else. -/
theorem Layout.not_own_info (l : Layout) (large : l.fsType = .fat32) : ¬l.Own (l.volbase + 1) := by
  have info := l.info large
  have next : (l.volbase + 1).toNat = l.volbase.toNat + 1 := by
    have bound := l.fatbase.isLt
    rw [BitVec.toNat_add]
    simp
    omega
  have behind : l.fatbase.toNat ≤ l.fatbase.toNat + l.fsize.toNat * l.nFats.toNat := Nat.le_add_right ..
  unfold Own InFat
  rw [next]
  omega

/-- A sector of no interest written directly. -/
theorem twp_direct (holds : Holds P fs D L) {s : DWORD} (out : ¬P s) (data : Sector) :
    (diskWrite s data).twp (rules faulty) (fun _ D' => Holds P fs D' L) D := by
  have kept (x : Sector) : Holds P fs (Function.update D s x) L := by
    refine ⟨holds.own, holds.fat, ?_, holds.window⟩
    intro t own away
    have other : t ≠ s := by
      rintro rfl
      exact out own
    rw [Function.update_of_ne other]
    exact holds.disk t own away
  exact twp_diskWrite (kept _) fun _ => kept

/-- What `sync_fs` may change besides the window. -/
structure Synced (fs fs' : FATFS) : Prop where
  layout : fs'.toLayout = fs.toLayout
  lastClst : fs'.lastClst = fs.lastClst
  freeClst : fs'.freeClst = fs.freeClst

theorem Moved.synced {fs fs' : FATFS} (moved : Moved fs fs') : Synced fs fs' :=
  ⟨moved.layout, moved.lastClst, moved.freeClst⟩

theorem twp_syncFs (holds : Holds P fs D L) :
    (syncFs fs).twp (rules faulty) (fun r D' => Synced fs r.2 ∧ Holds P r.2 D' L ∧
      (r.1 = .ok ∨ r.1 = .diskErr ∧ faulty)) D := by
  unfold syncFs
  apply twp_seq (twp_syncWindow holds)
  rintro ⟨res, fs'⟩ D' ⟨moved, holds', -, -, ⟨rfl, clean⟩ | ⟨rfl, bad⟩⟩
  · dsimp only at moved holds' clean ⊢
    have last {fs'' : FATFS} {D'' : Disk} (synced : Synced fs fs'') (holds'' : Holds P fs'' D'' L) :
        (do let ok ← diskSync; pure (if ok then FRESULT.ok else .diskErr, fs'') :
          Prog (FRESULT × FATFS)).twp (rules faulty) (fun r D' => Synced fs r.2 ∧ Holds P r.2 D' L ∧
            (r.1 = .ok ∨ r.1 = .diskErr ∧ faulty)) D'' := by
      rw [twp_bind]
      exact twp_diskSync ⟨synced, holds'', .inl rfl⟩ fun bad => ⟨synced, holds'', .inr ⟨rfl, bad⟩⟩
    rw [if_neg (by decide), twp_bind]
    split
    case isTrue large =>
      have out : ¬P (fs'.volbase + 1) := fun own => fs'.not_own_info large.1 (holds'.own _ own)
      have shown (win : Sector) : Holds P { fs' with win, winsect := fs'.volbase + 1 } D' L := by
        refine ⟨holds'.own, holds'.fat, ?_, fun own => absurd own out⟩
        intro t own _
        apply holds'.disk t own
        rw [clean]
        exact fun at_ => Bool.false_ne_true at_.1
      rw [twp_bind]
      apply twp_mono (twp_direct (shown _) out _)
      intro _ D'' holds''
      exact last ⟨moved.layout, moved.lastClst, moved.freeClst⟩
        ⟨holds''.own, holds''.fat, holds''.disk, holds''.window⟩
    case isFalse => exact last moved.synced holds'
  · dsimp only at moved holds' ⊢
    rw [if_pos (by decide)]
    exact ⟨moved.synced, holds', .inr ⟨rfl, bad⟩⟩

end

end FatFsParticle.Fat
