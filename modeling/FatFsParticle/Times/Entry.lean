import FatFsParticle.Times.Stamp
import FatFsParticle.Usage.Mount
import Mathlib.Logic.Function.Basic

/-!
# The timestamp of a directory entry

`f_sync` stores what `get_fattime` packed, `get_fileinfo` loads it as two words, and
`print_file_info` takes these apart.
-/

namespace FatFsParticle.Times
open Drives (FatType)
open Usage (Sector ldWord ldDword)

/-! Where the members of a directory entry begin. -/

abbrev dirAttr : Nat := 11
abbrev dirLstAccDate : Nat := 18
abbrev dirFstClusHI : Nat := 20
abbrev dirModTime : Nat := 22
abbrev dirFstClusLO : Nat := 26
abbrev dirFileSize : Nat := 28

/-! Attributes of a file. -/

abbrev amRdo : BYTE := 0x01
abbrev amHid : BYTE := 0x02
abbrev amSys : BYTE := 0x04
abbrev amDir : BYTE := 0x10
abbrev amArc : BYTE := 0x20

/-! ## Storing -/

def stWord (win : Sector) (p : Nat) (val : WORD) : Sector :=
  let win := Function.update win p (val.setWidth 8)
  Function.update win (p + 1) ((val >>> 8).setWidth 8)

def stDword (win : Sector) (p : Nat) (val : DWORD) : Sector :=
  let win := Function.update win p (val.setWidth 8)
  let val := val >>> 8
  let win := Function.update win (p + 1) (val.setWidth 8)
  let val := val >>> 8
  let win := Function.update win (p + 2) (val.setWidth 8)
  let val := val >>> 8
  Function.update win (p + 3) (val.setWidth 8)

/-- `st_clust`, for the entry at `dir` of the window. -/
def stClust (fsType : FatType) (win : Sector) (dir : Nat) (cl : DWORD) : Sector :=
  let win := stWord win (dir + dirFstClusLO) (cl.setWidth 16)
  if fsType = .fat32 then stWord win (dir + dirFstClusHI) ((cl >>> 16).setWidth 16) else win

/-- What `f_sync` makes of the entry of a modified file. -/
def syncedEntry (fsType : FatType) (sclust objsize tm : DWORD) (win : Sector) (dir : Nat) :
    Sector :=
  let win := Function.update win (dir + dirAttr) (win (dir + dirAttr) ||| amArc)
  let win := stClust fsType win dir sclust
  let win := stDword win (dir + dirFileSize) objsize
  let win := stDword win (dir + dirModTime) tm
  stWord win (dir + dirLstAccDate) 0

/-! ## Loading and printing -/

structure FILINFO where
  fsize : DWORD
  fdate : WORD
  ftime : WORD
  fattrib : BYTE
  fname : List BYTE

/-- The name in an entry: body and extension without their padding. -/
def entryName (win : Sector) (dir : Nat) : List BYTE :=
  (List.range 11).flatMap fun i =>
    let c := win (dir + i)
    if c = 0x20 then []
    else
      let c := if c = 0x05 then 0xE5 else c
      if i = 8 then [0x2E, c] else [c]

/-- `get_fileinfo`, where the read pointer of the directory is in sector `sect`. -/
def getFileinfo (sect : DWORD) (win : Sector) (dir : Nat) (fno : FILINFO) : FILINFO :=
  if sect = 0 then { fno with fname := [] }
  else
    let tm := ldDword win (dir + dirModTime)
    { fname := entryName win dir
      fattrib := win (dir + dirAttr)
      fsize := ldDword win (dir + dirFileSize)
      ftime := tm.setWidth 16
      fdate := (tm >>> 16).setWidth 16 }

/-- What `print_file_info` prints of the attributes and the time. -/
structure Printed where
  attributes : List Char
  year : Nat
  month : Nat
  day : Nat
  hour : Nat
  minute : Nat
  deriving DecidableEq

def printFileInfo (fileInfo : FILINFO) : Printed where
  attributes := [(amDir, 'D'), (amRdo, 'R'), (amHid, 'H'), (amSys, 'S'), (amArc, 'A')].map
    fun (flag, letter) => if fileInfo.fattrib &&& flag ≠ 0 then letter else '-'
  year := (fileInfo.fdate >>> 9).toNat + 1980
  month := (fileInfo.fdate >>> 5 &&& 15).toNat
  day := (fileInfo.fdate &&& 31).toNat
  hour := (fileInfo.ftime >>> 11).toNat
  minute := (fileInfo.ftime >>> 5 &&& 63).toNat

/-! ## Bytes -/

section Bytes
variable (win : Sector) (p : Nat)

theorem stWord_ne (v : WORD) {q : Nat} (apart : q < p ∨ p + 2 ≤ q) :
    stWord win p v q = win q := by
  unfold stWord
  rw [Function.update_of_ne (by omega), Function.update_of_ne (by omega)]

theorem stDword_ne (v : DWORD) {q : Nat} (apart : q < p ∨ p + 4 ≤ q) :
    stDword win p v q = win q := by
  unfold stDword
  rw [Function.update_of_ne (by omega), Function.update_of_ne (by omega),
    Function.update_of_ne (by omega), Function.update_of_ne (by omega)]

/-- The least significant byte comes first. -/
theorem stDword_byte (v : DWORD) {i : Nat} (inside : i < 4) :
    stDword win p v (p + i) = (v >>> (8 * i)).setWidth 8 := by
  unfold stDword
  match i with
  | 0 => simp
  | 1 => simp
  | 2 => simp [← BitVec.shiftRight_add]
  | 3 => simp [← BitVec.shiftRight_add]

theorem ldDword_stDword (v : DWORD) : ldDword (stDword win p v) p = v := by
  simp only [ldDword, ldWord, stDword]
  simp
  ext i inside
  simp [Nat.sub_sub]
  grind

variable {win p}

theorem ldDword_congr {other : Sector} (same : ∀ i < 4, win (p + i) = other (p + i)) :
    ldDword win p = ldDword other p := by
  have first : win p = other p := same 0 (by decide)
  unfold ldDword ldWord
  rw [first, same 1 (by decide), same 2 (by decide), same 3 (by decide)]

end Bytes

section Entry
variable (fsType : FatType) (sclust objsize tm : DWORD) (win : Sector) (dir : Nat)

theorem stClust_ne (cl : DWORD) {i : Nat} (apart : i < 20 ∨ 22 ≤ i ∧ i < 26 ∨ 28 ≤ i) :
    stClust fsType win dir cl (dir + i) = win (dir + i) := by
  unfold stClust dirFstClusLO dirFstClusHI
  split
  · rw [stWord_ne _ _ _ (by omega), stWord_ne _ _ _ (by omega)]
  · rw [stWord_ne _ _ _ (by omega)]

theorem syncedEntry_modTime {i : Nat} (inside : i < 4) :
    syncedEntry fsType sclust objsize tm win dir (dir + dirModTime + i) =
      (tm >>> (8 * i)).setWidth 8 := by
  unfold syncedEntry dirAttr dirLstAccDate dirModTime dirFileSize
  rw [stWord_ne _ _ _ (by omega), stDword_byte _ _ _ inside]

theorem ldDword_modTime :
    ldDword (syncedEntry fsType sclust objsize tm win dir) (dir + dirModTime) = tm := by
  rw [← ldDword_stDword win (dir + dirModTime) tm]
  apply ldDword_congr
  intro i inside
  rw [syncedEntry_modTime _ _ _ _ _ _ inside, stDword_byte _ _ _ inside]
  rw [ldDword_stDword]

theorem ldDword_fileSize :
    ldDword (syncedEntry fsType sclust objsize tm win dir) (dir + dirFileSize) = objsize := by
  rw [← ldDword_stDword win (dir + dirFileSize) objsize]
  apply ldDword_congr
  intro i inside
  unfold syncedEntry dirAttr dirLstAccDate dirModTime dirFileSize
  rw [stWord_ne _ _ _ (by omega), stDword_ne _ _ _ (by omega), stDword_byte _ _ _ inside,
    stDword_byte _ _ _ inside, ldDword_stDword]

/-- What is stored by none of the stores. -/
theorem syncedEntry_name {i : Nat} (name : i < 11) :
    syncedEntry fsType sclust objsize tm win dir (dir + i) = win (dir + i) := by
  unfold syncedEntry dirAttr dirLstAccDate dirModTime dirFileSize
  rw [stWord_ne _ _ _ (by omega), stDword_ne _ _ _ (by omega), stDword_ne _ _ _ (by omega),
    stClust_ne _ _ _ _ (by omega), Function.update_of_ne (by omega)]

theorem syncedEntry_attr : syncedEntry fsType sclust objsize tm win dir (dir + dirAttr) =
    win (dir + dirAttr) ||| amArc := by
  unfold syncedEntry dirAttr dirLstAccDate dirModTime dirFileSize
  rw [stWord_ne _ _ _ (by omega), stDword_ne _ _ _ (by omega), stDword_ne _ _ _ (by omega),
    stClust_ne _ _ _ _ (by omega), Function.update_self]

/-- What is loaded from an entry that `f_sync` has brought up to date. -/
theorem getFileinfo_synced {sect : DWORD} (entry : sect ≠ 0) (fno : FILINFO) :
    getFileinfo sect (syncedEntry fsType sclust objsize tm win dir) dir fno =
      { fname := entryName win dir
        fattrib := win (dir + dirAttr) ||| amArc
        fsize := objsize
        ftime := tm.setWidth 16
        fdate := (tm >>> 16).setWidth 16 } := by
  have name : entryName (syncedEntry fsType sclust objsize tm win dir) dir = entryName win dir := by
    unfold entryName
    apply List.flatMap_congr
    intro i inside
    rw [syncedEntry_name _ _ _ _ _ _ (List.mem_range.mp inside)]
  unfold getFileinfo
  rw [if_neg entry, name, syncedEntry_attr, ldDword_fileSize, ldDword_modTime]

end Entry

/-- The halves of a timestamp are taken apart as the whole is. -/
theorem printed_time (tm fsize : DWORD) (fattrib : BYTE) (fname : List BYTE) :
    let printed := printFileInfo
      ⟨fsize, (tm >>> 16).setWidth 16, tm.setWidth 16, fattrib, fname⟩
    let whole := unpack tm
    printed.year = whole.year ∧ printed.month = whole.month ∧ printed.day = whole.day ∧
      printed.hour = whole.hour ∧ printed.minute = whole.minute := by
  have low (v : WORD) (mask : WORD) (k : Nat) (ones : mask.toNat = 2 ^ k - 1) :
      (v &&& mask).toNat = v.toNat % 2 ^ k := by
    rw [BitVec.toNat_and, ones, Nat.and_two_pow_sub_one_eq_mod]
  have high (v : WORD) (i : Nat) : (v >>> i).toNat = v.toNat / 2 ^ i := by
    rw [BitVec.toNat_ushiftRight, Nat.shiftRight_eq_div_pow]
  have date : ((tm >>> 16).setWidth 16 : WORD).toNat = tm.toNat / 2 ^ 16 % 2 ^ 16 := by
    rw [BitVec.toNat_setWidth, BitVec.toNat_ushiftRight, Nat.shiftRight_eq_div_pow]
  have time : (tm.setWidth 16 : WORD).toNat = tm.toNat % 2 ^ 16 := BitVec.toNat_setWidth ..
  have bound := tm.isLt
  simp only [printFileInfo, unpack_eq, low _ 15 4 rfl, low _ 31 5 rfl, low _ 63 6 rfl, high, date,
    time]
  omega

/-- `get_fattime` while the clock stands still. -/
def DateTime.stamp (c : DateTime) : DWORD := getFattime fun _ => c

theorem DateTime.Valid.toNat_stamp {c : DateTime} (valid : c.Valid) :
    c.stamp.toNat = number c.halved := by
  have fits := valid.fits
  have second := valid.second
  exact toNat_pack fits.year fits.month fits.day fits.hour fits.minute
    (Nat.lt_of_le_of_lt second (by decide))

/-- A file's time comes back as it was when the file was synced, through the bytes of its
entry, and timestamps are in the order of what they stand for, equal only within two
seconds. -/
theorem file_time_kept :
    (∀ c : DateTime, c.Valid → ∀ (fsType : FatType) (sclust objsize : DWORD) (win : Sector)
      (dir : Nat) (sect : DWORD) (fno : FILINFO), sect ≠ 0 →
      let synced := syncedEntry fsType sclust objsize c.stamp win dir
      let printed := printFileInfo (getFileinfo sect synced dir fno)
      (∀ i < 4, synced (dir + dirModTime + i) = (c.stamp >>> (8 * i)).setWidth 8) ∧
      printed.year = c.year ∧ printed.month = c.month ∧ printed.day = c.day ∧
      printed.hour = c.hour ∧ printed.minute = c.minute) ∧
    (∀ c d : DateTime, c.Valid → d.Valid → c.NotAfter d →
      c.stamp ≤ d.stamp ∧ (c.stamp = d.stamp ↔ c.halved = d.halved)) := by
  constructor
  · intro c valid fsType sclust objsize win dir sect fno entry
    have fits := valid.fits
    have whole : unpack c.stamp = _ := unpack_pack fits.year fits.month fits.day fits.hour
      fits.minute (Nat.lt_of_le_of_lt valid.second (by decide))
    have parts := printed_time c.stamp objsize (win (dir + dirAttr) ||| amArc) (entryName win dir)
    rw [whole] at parts
    constructor
    · intro i inside
      exact syncedEntry_modTime _ _ _ _ _ _ inside
    · rw [getFileinfo_synced _ _ _ _ _ _ entry]
      exact parts
  · intro c d validc validd order
    have ordered := (number_le_iff validc.fits validd.fits).mpr order.halved
    constructor
    · rw [BitVec.le_def, validc.toNat_stamp, validd.toNat_stamp]
      exact ordered
    · constructor
      · intro same
        have value : number c.halved = number d.halved := by
          rw [← validc.toNat_stamp, ← validd.toNat_stamp, same]
        have back := (number_le_iff validd.fits validc.fits).mp (Nat.le_of_eq value.symm)
        exact toLex_inj.mp (le_antisymm order.halved back)
      · intro same
        apply BitVec.eq_of_toNat_eq
        rw [validc.toNat_stamp, validd.toNat_stamp, same]

/-- Two files synced on a leap day, seconds apart. -/
theorem file_time_kept_leap_day :
    let c : DateTime := ⟨2016, 2, 29, 12, 30, 59⟩
    let d : DateTime := ⟨2016, 2, 29, 12, 31, 0⟩
    let synced := syncedEntry .fat32 5 1000 c.stamp (fun _ => 0x41) 64
    let printed := printFileInfo (getFileinfo 9 synced 64 ⟨0, 0, 0, 0, []⟩)
    (printed.year = 2016 ∧ printed.month = 2 ∧ printed.day = 29 ∧ printed.hour = 12 ∧
      printed.minute = 30) ∧ c.stamp ≤ d.stamp ∧ (c.stamp = d.stamp ↔ c.halved = d.halved) := by
  intro c d synced printed
  have validc : c.Valid := by constructor <;> decide
  have validd : d.Valid := by constructor <;> decide
  have order : c.NotAfter d := le_of_lt (lt_at 4 (by decide) (by decide))
  constructor
  · exact (file_time_kept.1 c validc .fat32 5 1000 (fun _ => 0x41) 64 9 ⟨0, 0, 0, 0, []⟩
      (by decide)).2
  · exact file_time_kept.2 c d validc validd order

end FatFsParticle.Times
