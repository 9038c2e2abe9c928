import FatFsParticle.Format.Plan
import FatFsParticle.Drives.Path

/-!
# f_mkfs

The boot sector, the information sector, the FAT, the root directory and the partition
table of a new volume, and the order they are written in. Whether a copy of the boot sector
or the information sector was written is not looked at; everything else is. `Made` is what
the drive holds when `f_mkfs` has answered `FR_OK`.
-/

namespace FatFsParticle.Format
open Interact Program
open Files (FRESULT)
open Drives (FatType TCHAR getLdnumber)
open Usage (Sector Volumes)
open Times (stWord stDword)
open Fat (Disk)

/-! ## The drive -/

/-- The working buffer, by its sectors. -/
abbrev Buffer := Nat → Sector

/-- What is asked of the drive: `disk_initialize`, `GET_BLOCK_SIZE`, `GET_SECTOR_COUNT`,
`disk_write` of `ns` sectors and `CTRL_SYNC`. -/
inductive Request where
  | init
  | blockSize
  | sectorCount
  | write (sect ns : DWORD) (buf : Buffer)
  | sync

abbrev Request.Ans : Request → Type
  | init => DSTATUS
  | blockSize | sectorCount => Option DWORD
  | write .. | sync => Bool

abbrev Prog := Program Request.Ans

def diskInitialize : Prog DSTATUS := Program.request Request.init
def getBlockSize : Prog (Option DWORD) := Program.request Request.blockSize
def getSectorCount : Prog (Option DWORD) := Program.request Request.sectorCount
def diskWrite (sect ns : DWORD) (buf : Buffer) : Prog Bool := Program.request (Request.write sect ns buf)
def diskSync : Prog Bool := Program.request Request.sync

/-- What a drive tells of itself: its status, its sectors, and the size of a block that is
erased. -/
structure Medium where
  stat : DSTATUS
  size : DWORD
  block : Option DWORD

/-- Only a `faulty` drive fails to tell its size or to write, and where it fails to write its
sectors may hold anything. -/
def rules (faulty : Prop) (m : Medium) : Rules Request.Ans Disk where
  allowed _ _ := True
  step
    | D, .init, stat, D' => D' = D ∧ stat = m.stat
    | D, .blockSize, b, D' => D' = D ∧ b = m.block
    | D, .sectorCount, n, D' => D' = D ∧ (n = some m.size ∨ n = none ∧ faulty)
    | D, .write sect ns buf, ok, D' => (ok = true ∨ faulty) ∧ (∀ s, ¬s - sect < ns → D' s = D s) ∧
        (ok = true → ∀ s, s - sect < ns → D' s = buf (s - sect).toNat)
    | D, .sync, ok, D' => D' = D ∧ (ok = true ∨ faulty)

/-- A drive that does not fail. -/
def drive (m : Medium) : (r : Request) → Disk → r.Ans × Disk
  | .init, D => (m.stat, D)
  | .blockSize, D => (m.block, D)
  | .sectorCount, D => (some m.size, D)
  | .write sect ns buf, D => (true, fun s => if s - sect < ns then buf (s - sect).toNat else D s)
  | .sync, D => (true, D)

theorem drive_simulates (faulty : Prop) (m : Medium) : Simulates (drive m) (rules faulty m) Eq := by
  rintro D _ rfl r -
  cases r with
  | init => exact ⟨D, ⟨rfl, rfl⟩, rfl⟩
  | blockSize => exact ⟨D, ⟨rfl, rfl⟩, rfl⟩
  | sectorCount => exact ⟨D, ⟨rfl, .inl rfl⟩, rfl⟩
  | write sect ns buf => exact ⟨_, ⟨.inl rfl, fun s away => if_neg away, fun _ s inside => if_pos inside⟩, rfl⟩
  | sync => exact ⟨D, ⟨rfl, .inl rfl⟩, rfl⟩

/-- A call that comes to its end has one. -/
theorem exists_ends (faulty : Prop) (m : Medium) {α : Type} {p : Prog α} {Q : α → Disk → Prop} {D : Disk}
    (h : p.twp (rules faulty m) Q D) : ∃ a D', Ends (rules faulty m) p D a D' := by
  obtain ⟨a, D', -, ran, -, -⟩ := run_total (drive_simulates faulty m) rfl h
  obtain ⟨D'', ends, -⟩ := ends_of_run (drive_simulates faulty m) (fun _ _ => trivial) rfl ran
  exact ⟨a, D'', ends⟩

/-! ## Sectors -/

/-- `mem_cpy`. -/
def memCpy (buf : Sector) (p : Nat) (bytes : List BYTE) : Sector :=
  fun i => if p ≤ i ∧ i < p + bytes.length then bytes.getD (i - p) 0 else buf i

def ascii (text : List Char) : List BYTE := text.map fun c => BitVec.ofNat 8 c.toNat

/-- An empty sector. -/
abbrev zeros : Sector := fun _ => 0

/-- The boot sector, with `time` as the serial number. -/
def vbr (p : Plan) (bVol szVol time : DWORD) : Sector :=
  let buf := memCpy zeros 0 ([0xEB, 0xFE, 0x90] ++ ascii ['M', 'S', 'D', 'O', 'S', '5', '.', '0'])
  let buf := stWord buf 11 512
  let buf := Function.update buf 13 (p.pau.setWidth 8)
  let buf := stWord buf 14 (p.szRsv.setWidth 16)
  let buf := Function.update buf 16 1
  let buf := stWord buf 17 (if p.fmt = .fat32 then 0 else 512)
  let buf := if szVol < 0x10000 then stWord buf 19 (szVol.setWidth 16) else stDword buf 32 szVol
  let buf := Function.update buf 21 0xF8
  let buf := stWord buf 24 63
  let buf := stWord buf 26 255
  let buf := stDword buf 28 bVol
  let label := ['N', 'O', ' ', 'N', 'A', 'M', 'E', ' ', ' ', ' ', ' ']
  let buf :=
    if p.fmt = .fat32 then
      let buf := stDword buf 67 time
      let buf := stDword buf 36 p.szFat
      let buf := stDword buf 44 2
      let buf := stWord buf 48 1
      let buf := stWord buf 50 6
      let buf := Function.update buf 64 0x80
      let buf := Function.update buf 66 0x29
      memCpy buf 71 (ascii (label ++ ['F', 'A', 'T', '3', '2', ' ', ' ', ' ']))
    else
      let buf := stDword buf 39 time
      let buf := stWord buf 22 (p.szFat.setWidth 16)
      let buf := Function.update buf 36 0x80
      let buf := Function.update buf 38 0x29
      memCpy buf 43 (ascii (label ++ ['F', 'A', 'T', ' ', ' ', ' ', ' ', ' ']))
  stWord buf 510 0xAA55

/-- `FSINFO`. -/
def fsinfo (nClst : DWORD) : Sector :=
  let buf := stDword zeros 0 0x41615252
  let buf := stDword buf 484 0x61417272
  let buf := stDword buf 488 (nClst - 1)
  let buf := stDword buf 492 2
  stWord buf 510 0xAA55

/-- The first sector of the FAT. -/
def fatHead (fmt : FatType) : Sector :=
  if fmt = .fat32 then
    let buf := stDword zeros 0 0xFFFFFFF8
    let buf := stDword buf 4 0xFFFFFFFF
    stDword buf 8 0x0FFFFFFF
  else stDword zeros 0 (if fmt = .fat12 then 0xFFFFF8 else 0xFFFFFFF8)

/-- The partition table of a drive with one partition. -/
def mbr (fmt : FatType) (bVol szVol : DWORD) : Sector :=
  let sys : BYTE :=
    if fmt = .fat32 then 0x0C
    else if 0x10000 ≤ szVol then 0x06
    else if fmt = .fat16 then 0x04 else 0x01
  let n := (bVol + szVol) / (63 * 255)
  let buf := stWord zeros 510 0xAA55
  let buf := Function.update buf 446 0
  let buf := Function.update buf 447 1
  let buf := Function.update buf 448 1
  let buf := Function.update buf 449 0
  let buf := Function.update buf 450 sys
  let buf := Function.update buf 451 254
  let buf := Function.update buf 452 ((n >>> 2 ||| 63).setWidth 8)
  let buf := Function.update buf 453 (n.setWidth 8)
  let buf := stDword buf 454 bVol
  stDword buf 458 szVol

/-! ## Writing -/

/-- The loops that fill the FAT and the root directory, cut off after some turns. The one
over the FAT clears the first sector of the buffer. -/
def fill (szBuf : DWORD) (clear : Bool) : Nat → DWORD → DWORD → Buffer → Prog (Bool × DWORD × Buffer)
  | 0, _, _, _ => .stuck
  | turns + 1, sect, n, buf => do
    let ns := if szBuf < n then szBuf else n
    let ok ← diskWrite sect ns buf
    if !ok then pure (false, sect, buf)
    else
      let buf := if clear then Function.update buf 0 zeros else buf
      let n := n - ns
      if n = 0 then pure (true, sect + ns, buf) else fill szBuf clear turns (sect + ns) n buf

/-- The boot sector, and what else a FAT32 volume has in front of the FAT. -/
def writeBoot (p : Plan) (bVol szVol time : DWORD) : Prog Bool := do
  let buf : Buffer := fun _ => vbr p bVol szVol time
  let ok ← diskWrite bVol 1 buf
  if !ok then pure false
  else if p.fmt = .fat32 then do
    let _ ← diskWrite (bVol + 6) 1 buf
    let buf : Buffer := fun _ => fsinfo p.nClst
    let _ ← diskWrite (bVol + 7) 1 buf
    let _ ← diskWrite (bVol + 1) 1 buf
    pure true
  else pure true

/-- The FAT and the root directory behind it. -/
def writeAreas (p : Plan) (szBuf : DWORD) : Prog Bool := do
  let buf : Buffer := Function.update (fun _ => zeros) 0 (fatHead p.fmt)
  let (ok, sect, buf) ← fill szBuf true p.szFat.toNat p.bFat p.szFat buf
  if !ok then pure false
  else do
    let n := if p.fmt = .fat32 then p.pau else p.szDir
    let (ok, _, _) ← fill szBuf false n.toNat sect n buf
    pure ok

/-- All that is written for a plan. -/
def writeVolume (opt : BYTE) (p : Plan) (bVol szVol szBuf time : DWORD) : Prog FRESULT := do
  let ok ← writeBoot p bVol szVol time
  if !ok then pure .diskErr
  else do
    let ok ← writeAreas p szBuf
    if !ok then pure .diskErr
    else do
      let ok ← (if opt &&& fmSfd = 0 then diskWrite 0 1 fun _ => mbr p.fmt bVol szVol else pure true)
      if !ok then pure .diskErr
      else do
        let ok ← diskSync
        pure (if ok then .ok else .diskErr)

/-- `sz_blk`, from the answer to `GET_BLOCK_SIZE`. -/
def eraseBlock : Option DWORD → DWORD
  | none => 1
  | some szBlk => if szBlk = 0 ∨ 32768 < szBlk ∨ szBlk &&& (szBlk - 1) ≠ 0 then 1 else szBlk

/-- `b_vol`. -/
def volumeStart (opt : BYTE) : DWORD := if opt &&& fmSfd ≠ 0 then 0 else 63

/-- What the arguments and the size of the drive decide, `au` in sectors. No loop takes
more than three turns (`planLoop_ends`). -/
def makePlan (opt : BYTE) (szDrv szBlk au : DWORD) : Except FRESULT Plan :=
  let bVol := volumeStart opt
  if szDrv < bVol then .error .mkfsAborted
  else
    let szVol := szDrv - bVol
    if szVol < 128 then .error .mkfsAborted
    else
      match firstType opt au with
      | .error res => .error res
      | .ok fmt => (planLoop opt bVol szVol szBlk 3 fmt au).getD (.error .intErr)

/-- `f_mkfs` behind the check of the drive number. -/
def make (opt : BYTE) (au : DWORD) (len : UINT) (time : DWORD) : Prog FRESULT := do
  let stat ← diskInitialize
  if stat &&& staNoinit ≠ 0 then pure .notReady
  else if stat &&& staProtect ≠ 0 then pure .writeProtected
  else do
    let szBlk ← getBlockSize
    if au ≠ 0 ∧ au < 512 ∨ au &&& (au - 1) ≠ 0 then pure .invalidParameter
    else if 32768 < au / 512 then pure .invalidParameter
    else if len < 512 then pure .mkfsAborted
    else do
      let szBuf := (len &&& ~~~511) / 512
      let szDrv ← getSectorCount
      match szDrv with
      | none => pure .diskErr
      | some szDrv =>
        match makePlan opt szDrv (eraseBlock szBlk) (au / 512) with
        | .error res => pure res
        | .ok p => writeVolume opt p (volumeStart opt) (szDrv - volumeStart opt) szBuf time

/-- The object of a volume, if there is one, is no longer mounted. -/
def unmounted (s : Volumes) (vol : Nat) : Volumes :=
  Function.update s vol ((s vol).map fun fs => { fs with fsType := none })

/-- `f_mkfs`; `time` is what `get_fattime` answers. -/
def fMkfs (volumes : Nat) (path : Option (List TCHAR)) (opt : BYTE) (au : DWORD) (len : UINT) (time : DWORD)
    (s : Volumes) : Prog (FRESULT × Volumes) :=
  match getLdnumber volumes path with
  | none => pure (.invalidDrive, s)
  | some vol => do
    let res ← make opt au len time
    pure (res, unmounted s vol)

/-! ## Plans -/

variable {opt : BYTE} {szDrv szBlk au : DWORD} {p : Plan}

theorem power_eraseBlock (szBlk : Option DWORD) : ∃ k ≤ 15, (eraseBlock szBlk).toNat = 2 ^ k := by
  unfold eraseBlock
  split
  · exact ⟨0, by decide, rfl⟩
  · rename_i b
    split_ifs with bad
    · exact ⟨0, by decide, rfl⟩
    · simp only [not_or, not_not] at bad
      obtain ⟨some_, few, power⟩ := bad
      obtain ⟨k, is⟩ := (Words.power_iff some_).1 power
      have le : 2 ^ k ≤ 2 ^ 15 := by
        rw [← is]
        exact BitVec.not_lt.1 few
      exact ⟨k, (Nat.pow_le_pow_iff_right (by decide)).1 le, is⟩

theorem given_start (opt : BYTE) {szDrv : DWORD} (szBlk : Option DWORD) (large : volumeStart opt ≤ szDrv) :
    Given (volumeStart opt) (szDrv - volumeStart opt) (eraseBlock szBlk) := by
  have bound := szDrv.isLt
  refine ⟨?_, ?_, power_eraseBlock szBlk⟩
  · unfold volumeStart
    split_ifs <;> decide
  · rw [BitVec.toNat_sub_of_le large]
    rw [BitVec.le_def] at large
    omega

theorem firstType_ok {fmt : FatType} (ok : firstType opt au = .ok fmt) : au < 256 ∧ fmt ≠ .fat12 := by
  unfold firstType at ok
  split_ifs at ok with large <;> cases ok
  · exact ⟨BitVec.not_le.1 large, by decide⟩
  · exact ⟨BitVec.not_le.1 large, by decide⟩

theorem firstType_error {res : FRESULT} (error : firstType opt au = .error res) :
    res = .invalidParameter := by
  unfold firstType at error
  split_ifs at error <;> cases error <;> rfl

/-- A size in bytes that was checked, in sectors. -/
theorem unit_sectors {au : DWORD} (checked : ¬(au ≠ 0 ∧ au < 512 ∨ au &&& (au - 1) ≠ 0)) (small : au / 512 < 256) :
    au / 512 = 0 ∨ Unit (au / 512) := by
  simp only [not_or, not_and, not_not] at checked
  obtain ⟨least, power⟩ := checked
  by_cases zero : au = 0
  · subst zero
    exact .inl rfl
  · right
    obtain ⟨k, is⟩ := (Words.power_iff zero).1 power
    have low : 2 ^ 9 ≤ 2 ^ k := is ▸ BitVec.not_lt.1 (least zero)
    have nine := (Nat.pow_le_pow_iff_right (by decide)).1 low
    have value : (au / 512).toNat = 2 ^ (k - 9) := by
      rw [BitVec.toNat_udiv, is]
      exact Nat.pow_div nine (by decide)
    have high : 2 ^ (k - 9) < 2 ^ 8 := value ▸ BitVec.lt_def.1 small
    exact ⟨k - 9, Nat.le_of_lt_succ ((Nat.pow_lt_pow_iff_right (by decide)).1 high), value⟩

/-- The plans that are made. -/
theorem makePlan_ok {au : DWORD} {szBlk : Option DWORD} (checked : ¬(au ≠ 0 ∧ au < 512 ∨ au &&& (au - 1) ≠ 0))
    (ok : makePlan opt szDrv (eraseBlock szBlk) (au / 512) = .ok p) :
    Planned (volumeStart opt) (szDrv - volumeStart opt) (eraseBlock szBlk) p ∧ volumeStart opt ≤ szDrv ∧
      128 ≤ szDrv - volumeStart opt := by
  unfold makePlan at ok
  dsimp only at ok
  split_ifs at ok with small few
  rw [BitVec.not_lt] at small few
  split at ok
  · cases ok
  rename_i fmt first
  obtain ⟨less, known⟩ := firstType_ok first
  have unit := unit_sectors checked less
  obtain ⟨r, ends⟩ : ∃ r, planLoop opt (volumeStart opt) (szDrv - volumeStart opt) (eraseBlock szBlk) 3 fmt (au / 512) =
    some r := planLoop_ends known unit (left_lt fmt (au / 512))
  rw [ends] at ok
  dsimp only [Option.getD] at ok
  subst ok
  exact ⟨planLoop_ok (given_start opt szBlk small) known unit ends, small, few⟩

/-! ## Runs -/

section
variable {faulty : Prop} {m : Medium} {D : Disk} {sect n szBuf : DWORD} {buf : Buffer}

/-- `s` is one of the `n` sectors from `sect` on. -/
def Among (sect n s : DWORD) : Prop := sect.toNat ≤ s.toNat ∧ s.toNat < sect.toNat + n.toNat

theorem sub_lt_iff (fits : sect.toNat + n.toNat ≤ 2 ^ 32) (s : DWORD) : s - sect < n ↔ Among sect n s := by
  have bound := s.isLt
  unfold Among
  rw [BitVec.lt_def, BitVec.toNat_sub]
  omega

theorem toNat_sub_of_among {s : DWORD} (inside : Among sect n s) : (s - sect).toNat = s.toNat - sect.toNat :=
  BitVec.toNat_sub_of_le (BitVec.le_def.2 inside.1)

theorem twp_write (fits : sect.toNat + n.toNat ≤ 2 ^ 32) {Q : Bool → Disk → Prop}
    (done : ∀ D', (∀ s, ¬Among sect n s → D' s = D s) →
      (∀ s, Among sect n s → D' s = buf (s.toNat - sect.toNat)) → Q true D')
    (fails : faulty → ∀ D', (∀ s, ¬Among sect n s → D' s = D s) → Q false D') :
    (diskWrite sect n buf).twp (rules faulty m) Q D := by
  refine ⟨trivial, ?_⟩
  rintro ok D' ⟨why, rest, written⟩
  simp only [sub_lt_iff fits] at rest written
  cases ok with
  | true =>
    refine done D' rest fun s inside => ?_
    rw [written rfl s inside, toNat_sub_of_among inside]
  | false => exact fails (why.resolve_left Bool.false_ne_true) D' rest

theorem twp_diskInitialize {Q : DSTATUS → Disk → Prop} (next : Q m.stat D) :
    diskInitialize.twp (rules faulty m) Q D := by
  refine ⟨trivial, ?_⟩
  rintro stat _ ⟨rfl, rfl⟩
  exact next

theorem twp_getBlockSize {Q : Option DWORD → Disk → Prop} (next : Q m.block D) :
    getBlockSize.twp (rules faulty m) Q D := by
  refine ⟨trivial, ?_⟩
  rintro b _ ⟨rfl, rfl⟩
  exact next

theorem twp_getSectorCount {Q : Option DWORD → Disk → Prop} (done : Q (some m.size) D) (fails : faulty → Q none D) :
    getSectorCount.twp (rules faulty m) Q D := by
  refine ⟨trivial, ?_⟩
  rintro n _ ⟨rfl, rfl | ⟨rfl, bad⟩⟩
  · exact done
  · exact fails bad

/-- A single sector. -/
theorem among_one (sect s : DWORD) : Among sect 1 s ↔ s = sect := by
  have one : (1 : DWORD).toNat = 1 := rfl
  unfold Among
  rw [one, ← BitVec.toNat_inj]
  omega

theorem twp_write_one {Q : Bool → Disk → Prop} (done : Q true (Function.update D sect (buf 0)))
    (fails : faulty → ∀ x, Q false (Function.update D sect x)) :
    (diskWrite sect 1 buf).twp (rules faulty m) Q D := by
  have one : (1 : DWORD).toNat = 1 := rfl
  have bound := sect.isLt
  have is {D' : Disk} (rest : ∀ s, ¬Among sect 1 s → D' s = D s) : D' = Function.update D sect (D' sect) := by
    funext s
    by_cases here : s = sect
    · subst here
      rw [Function.update_self]
    · rw [Function.update_of_ne here, rest s fun among => here ((among_one _ _).1 among)]
  apply twp_write (by omega)
  · intro D' rest written
    rw [is rest, written sect ((among_one _ _).2 rfl), Nat.sub_self]
    exact done
  · intro bad D' rest
    rw [is rest]
    exact fails bad _

/-- A sector that is written without a look at the answer. -/
theorem twp_write_unseen {α : Type} {next : Prog α} {Q : α → Disk → Prop}
    (rest : ∀ x, (¬faulty → x = buf 0) → next.twp (rules faulty m) Q (Function.update D sect x)) :
    (diskWrite sect 1 buf >>= fun _ => next).twp (rules faulty m) Q D := by
  rw [twp_bind]
  apply twp_write_one
  · exact rest _ fun _ => rfl
  · exact fun bad x => rest x fun sound => absurd bad sound

/-- All of the sectors are written: the buffer's first one and empty ones. -/
theorem twp_fill (size : szBuf ≠ 0) (some_ : n ≠ 0) (fits : sect.toNat + n.toNat < 2 ^ 32) {turns : Nat}
    (more : n.toNat ≤ turns) {clear : Bool} (empty : ∀ k ≠ 0, buf k = zeros) (cleared : clear = true ∨ buf 0 = zeros) :
    (fill szBuf clear turns sect n buf).twp (rules faulty m) (fun r D' => (∀ s, ¬Among sect n s → D' s = D s) ∧
      (r.1 = true ∧ r.2.1 = sect + n ∧ (∀ k, r.2.2 k = zeros) ∧
          (∀ s, Among sect n s → D' s = if s = sect then buf 0 else zeros) ∨ r.1 = false ∧ faulty)) D := by
  have pos : n.toNat ≠ 0 := fun zero => some_ (BitVec.eq_of_toNat_eq zero)
  have wide : szBuf.toNat ≠ 0 := fun zero => size (BitVec.eq_of_toNat_eq zero)
  induction turns generalizing sect n buf D with
  | zero => omega
  | succ turns ih =>
    unfold fill
    dsimp only
    obtain ⟨ns, is⟩ : ∃ ns, ns = if szBuf < n then szBuf else n := ⟨_, rfl⟩
    rw [← is]
    have less : 0 < ns.toNat ∧ ns.toNat ≤ n.toNat := by
      rw [is]
      split_ifs with small
      · rw [BitVec.lt_def] at small
        omega
      · omega
    have next : (sect + ns).toNat = sect.toNat + ns.toNat := by
      rw [BitVec.toNat_add]
      omega
    have rest : (n - ns).toNat = n.toNat - ns.toNat := BitVec.toNat_sub_of_le (BitVec.le_def.2 less.2)
    rw [twp_bind]
    apply twp_write (by omega)
    · intro D' out written
      have clean : ∀ k, (if clear then Function.update buf 0 zeros else buf) k = zeros := by
        intro k
        by_cases first : k = 0
        · subst first
          rcases cleared with rfl | zero
          · simp
          · split_ifs <;> simp [zero]
        · split_ifs
          · rw [Function.update_of_ne first, empty k first]
          · exact empty k first
      have front : ∀ s, Among sect ns s → D' s = if s = sect then buf 0 else zeros := by
        intro s inside
        rw [written s inside]
        split_ifs with here
        · subst here
          rw [Nat.sub_self]
        · apply empty
          have other : s.toNat ≠ sect.toNat := fun same => here (BitVec.eq_of_toNat_eq same)
          have low := inside.1
          omega
      simp only [Bool.not_true, Bool.false_eq_true, if_false]
      split
      case isTrue last =>
        have same : ns = n := by
          apply BitVec.eq_of_toNat_eq
          rw [last] at rest
          have zero : (0 : DWORD).toNat = 0 := rfl
          omega
        subst same
        exact ⟨out, .inl ⟨rfl, rfl, clean, front⟩⟩
      case isFalse left =>
        have left' : (n - ns).toNat ≠ 0 := fun zero => left (BitVec.eq_of_toNat_eq zero)
        refine twp_mono (ih left (by omega) (by omega) (fun k _ => clean k) (.inr (clean 0)) left') ?_
        rintro ⟨ok, sect', buf'⟩ D'' ⟨out', why⟩
        dsimp only at why ⊢
        have split_ (s : DWORD) : Among sect n s ↔ Among sect ns s ∨ Among (sect + ns) (n - ns) s := by
          unfold Among
          omega
        refine ⟨fun s away => ?_, why.imp_left ?_⟩
        · rw [split_, not_or] at away
          rw [out' s away.2, out s away.1]
        · rintro ⟨rfl, at_, empty', filled⟩
          refine ⟨rfl, ?_, empty', fun s inside => ?_⟩
          · rw [at_, BitVec.add_assoc, BitVec.add_comm ns, BitVec.sub_add_cancel]
          · by_cases behind : Among (sect + ns) (n - ns) s
            · have other : s ≠ sect := by
                rintro rfl
                unfold Among at behind
                omega
              rw [filled s behind, if_neg other, clean 0, ite_self]
            · rw [out' s behind, front s ((split_ s).1 inside |>.resolve_right behind)]
    · intro bad D' out
      refine ⟨fun s away => out s fun among => away ?_, .inr ⟨rfl, bad⟩⟩
      unfold Among at *
      omega

/-! ### What is written -/

/-- Sectors of the root directory. -/
def Plan.szRoot (p : Plan) : DWORD := if p.fmt = .fat32 then p.pau else p.szDir

variable {bVol szVol szBlk time : DWORD}

theorem Planned.szFat_ne (planned : Planned bVol szVol szBlk p) : p.szFat ≠ 0 := by
  intro zero
  have room := planned.room
  have none_ : p.szFat.toNat = 0 := by rw [zero]; rfl
  cases kind : p.fmt <;> simp only [kind, Fat.szbfat] at room <;> omega

theorem Planned.szRoot_ne (planned : Planned bVol szVol szBlk p) : p.szRoot ≠ 0 := by
  unfold Plan.szRoot
  rcases planned.areas with ⟨large, -⟩ | ⟨small, -, dir⟩
  · rw [if_pos large]
    exact planned.unit.ne_zero
  · rw [if_neg small, dir]
    decide

theorem Planned.reserve (planned : Planned bVol szVol szBlk p) :
    1 ≤ p.szRsv.toNat ∧ (p.fmt = .fat32 → 32 ≤ p.szRsv.toNat) := by
  rcases planned.areas with ⟨-, more, -⟩ | ⟨small, one, -⟩
  · exact ⟨by omega, fun _ => more⟩
  · exact ⟨by rw [one]; decide, fun large => absurd large small⟩

/-- Where the areas are: all of them are sectors of the volume, the FAT behind what is reserved. -/
theorem Planned.places (planned : Planned bVol szVol szBlk p) (given : Given bVol szVol szBlk) :
    p.bFat.toNat = bVol.toNat + p.szRsv.toNat ∧
      p.bFat.toNat + p.szFat.toNat + p.szRoot.toNat ≤ bVol.toNat + szVol.toNat := by
  have fits := planned.fits
  have range := given.fits
  unfold Plan.system at fits
  have fat : p.bFat.toNat = bVol.toNat + p.szRsv.toNat := by
    rw [planned.fat, BitVec.toNat_add]
    omega
  refine ⟨fat, ?_⟩
  unfold Plan.szRoot
  rcases planned.areas with ⟨large, -, dir⟩ | ⟨small, -⟩
  · rw [if_pos large]
    have kind := planned.kind
    have clusters := planned.nClst
    rw [large] at kind
    have many : 1 ≤ p.nClst.toNat := Nat.le_trans (by decide) (Nat.le_of_lt kind)
    have one := Nat.mul_le_mul_right p.pau.toNat many
    have below := Nat.div_mul_le_self (szVol.toNat - p.system) p.pau.toNat
    rw [← clusters] at below
    unfold Plan.system at below
    omega
  · rw [if_neg small]
    omega

theorem twp_writeBoot (planned : Planned bVol szVol szBlk p) (given : Given bVol szVol szBlk) :
    (writeBoot p bVol szVol time).twp (rules faulty m) (fun ok D' =>
      (∀ s, ¬(bVol.toNat ≤ s.toNat ∧ s.toNat < p.bFat.toNat) → D' s = D s) ∧
        (ok = true ∧ D' bVol = vbr p bVol szVol time ∧
            (p.fmt = .fat32 → ¬faulty → D' (bVol + 1) = fsinfo p.nClst) ∨ ok = false ∧ faulty)) D := by
  obtain ⟨fat, inside⟩ := planned.places given
  have range := given.fits
  obtain ⟨some_, room⟩ := planned.reserve
  have away {s : DWORD} (out : ¬(bVol.toNat ≤ s.toNat ∧ s.toNat < p.bFat.toNat)) {k : DWORD}
      (low : k.toNat < p.szRsv.toNat) : s ≠ bVol + k := by
    rintro rfl
    rw [BitVec.toNat_add] at out
    omega
  have first {s : DWORD} (out : ¬(bVol.toNat ≤ s.toNat ∧ s.toNat < p.bFat.toNat)) : s ≠ bVol := by
    rintro rfl
    omega
  unfold writeBoot
  dsimp only
  rw [twp_bind]
  apply twp_write_one
  · simp only [Bool.not_true, Bool.false_eq_true, if_false]
    split
    case isFalse small =>
      refine ⟨fun s out => Function.update_of_ne (first out) .., .inl ⟨rfl, Function.update_self .., ?_⟩⟩
      exact fun large => absurd large small
    case isTrue large =>
      replace room := room large
      have apart {k : DWORD} (pos : 0 < k.toNat) (low : k.toNat < 32) : bVol ≠ bVol + k := by
        intro same
        have value := congrArg BitVec.toNat same
        rw [BitVec.toNat_add] at value
        omega
      refine twp_write_unseen fun x _ => twp_write_unseen fun y _ => twp_write_unseen fun z is => ?_
      refine ⟨fun s out => ?_, .inl ⟨rfl, ?_, fun _ sound => ?_⟩⟩
      · rw [Function.update_of_ne (away out (Nat.lt_of_lt_of_le (by decide) room)),
          Function.update_of_ne (away out (Nat.lt_of_lt_of_le (by decide) room)),
          Function.update_of_ne (away out (Nat.lt_of_lt_of_le (by decide) room)), Function.update_of_ne (first out)]
      · rw [Function.update_of_ne (apart (by decide) (by decide)), Function.update_of_ne (apart (by decide) (by decide)),
          Function.update_of_ne (apart (by decide) (by decide)), Function.update_self]
      · rw [Function.update_self, is sound]
  · intro bad x
    exact ⟨fun s out => Function.update_of_ne (first out) .., .inr ⟨rfl, bad⟩⟩

/-- A result where a `faulty` drive is the only excuse. -/
theorem twp_writeAreas (planned : Planned bVol szVol szBlk p) (given : Given bVol szVol szBlk) (size : szBuf ≠ 0) :
    (writeAreas p szBuf).twp (rules faulty m) (fun ok D' =>
      (∀ s, ¬(p.bFat.toNat ≤ s.toNat ∧ s.toNat < p.bFat.toNat + p.szFat.toNat + p.szRoot.toNat) → D' s = D s) ∧
        (ok = true ∧ D' p.bFat = fatHead p.fmt ∧
            (∀ s, p.bFat.toNat < s.toNat → s.toNat < p.bFat.toNat + p.szFat.toNat + p.szRoot.toNat → D' s = zeros) ∨
          ok = false ∧ faulty)) D := by
  obtain ⟨-, inside⟩ := planned.places given
  have range := given.fits
  have some_ : p.szFat.toNat ≠ 0 := fun zero => planned.szFat_ne (BitVec.eq_of_toNat_eq zero)
  have root : (p.bFat + p.szFat).toNat = p.bFat.toNat + p.szFat.toNat := by
    rw [BitVec.toNat_add]
    omega
  unfold writeAreas
  dsimp only
  apply twp_seq (twp_fill size planned.szFat_ne (by omega) (Nat.le_refl _)
    (fun k other => Function.update_of_ne other ..) (.inl rfl))
  rintro ⟨ok, sect, buf⟩ D₁ ⟨out, ⟨rfl, rfl, empty, filled⟩ | ⟨rfl, bad⟩⟩
  · dsimp only at empty filled ⊢
    simp only [Bool.not_true, Bool.false_eq_true, if_false]
    rw [Function.update_self] at filled
    change ((fill szBuf false p.szRoot.toNat (p.bFat + p.szFat) p.szRoot buf).bind _).twp _ _ _
    apply twp_seq (twp_fill size planned.szRoot_ne (by omega) (Nat.le_refl _) (fun k _ => empty k) (.inr (empty 0)))
    rintro ⟨ok, sect, buf'⟩ D₂ ⟨out', why⟩
    dsimp only at why ⊢
    unfold Among at out out' filled
    rw [root] at out'
    refine ⟨fun s away => ?_, why.imp_left ?_⟩
    · rw [out' s (by omega), out s (by omega)]
    · rintro ⟨rfl, -, -, filled'⟩
      unfold Among at filled'
      rw [root] at filled'
      refine ⟨rfl, ?_, fun s low high => ?_⟩
      · rw [out' p.bFat (by omega), filled p.bFat (by omega), if_pos rfl]
      · by_cases behind : p.bFat.toNat + p.szFat.toNat ≤ s.toNat
        · rw [filled' s (by omega), empty 0, ite_self]
        · have other : s ≠ p.bFat := by
            rintro rfl
            omega
          rw [out' s (by omega), filled s (by omega), if_neg other]
  · dsimp only
    simp only [Bool.not_false, if_true]
    refine ⟨fun s away => out s fun among => away ?_, .inr ⟨rfl, bad⟩⟩
    unfold Among at among
    omega

/-- What the drive holds when a plan was carried out. -/
structure Made (faulty : Prop) (opt : BYTE) (p : Plan) (bVol szVol time : DWORD) (D : Disk) : Prop where
  boot : D bVol = vbr p bVol szVol time
  info : p.fmt = .fat32 → ¬faulty → D (bVol + 1) = fsinfo p.nClst
  head : D p.bFat = fatHead p.fmt
  empty : ∀ s, p.bFat.toNat < s.toNat → s.toNat < p.bFat.toNat + p.szFat.toNat + p.szRoot.toNat → D s = zeros
  table : opt &&& fmSfd = 0 → D 0 = mbr p.fmt bVol szVol

/-- Sectors that are none of the volume's, nor the one of the partition table. -/
def Outside (bVol szVol s : DWORD) : Prop := s ≠ 0 ∧ (s < bVol ∨ bVol.toNat + szVol.toNat ≤ s.toNat)

theorem twp_sync {D' : Disk} (rest : ∀ s, Outside bVol szVol s → D' s = D s)
    (made : Made faulty opt p bVol szVol time D') :
    (diskSync >>= fun ok => pure (if ok then FRESULT.ok else FRESULT.diskErr)).twp (rules faulty m) (fun res D' =>
      (∀ s, Outside bVol szVol s → D' s = D s) ∧
        (res = .ok ∧ Made faulty opt p bVol szVol time D' ∨ res = .diskErr ∧ faulty)) D' := by
  rw [twp_bind]
  refine ⟨trivial, ?_⟩
  rintro ok t ⟨rfl, fine⟩
  cases ok with
  | true => exact ⟨rest, .inl ⟨rfl, made⟩⟩
  | false => exact ⟨rest, .inr ⟨rfl, fine.resolve_left Bool.false_ne_true⟩⟩

theorem twp_writeVolume (planned : Planned bVol szVol szBlk p) (given : Given bVol szVol szBlk) (size : szBuf ≠ 0)
    (start : bVol = volumeStart opt) :
    (writeVolume opt p bVol szVol szBuf time).twp (rules faulty m) (fun res D' =>
      (∀ s, Outside bVol szVol s → D' s = D s) ∧
        (res = .ok ∧ Made faulty opt p bVol szVol time D' ∨ res = .diskErr ∧ faulty)) D := by
  obtain ⟨fat, inside⟩ := planned.places given
  obtain ⟨some_, room⟩ := planned.reserve
  have range := given.fits
  have base := given.base
  unfold writeVolume
  apply twp_seq (twp_writeBoot planned given)
  rintro ok D₁ ⟨out, ⟨rfl, boot, info⟩ | ⟨rfl, bad⟩⟩
  · simp only [Bool.not_true, Bool.false_eq_true, if_false]
    apply twp_seq (twp_writeAreas planned given size)
    rintro ok D₂ ⟨out', ⟨rfl, head, empty⟩ | ⟨rfl, bad⟩⟩
    · have low : D₂ bVol = vbr p bVol szVol time := by
        rw [out' bVol (by omega), boot]
      have info' : p.fmt = .fat32 → ¬faulty → D₂ (bVol + 1) = fsinfo p.nClst := by
        intro large sound
        have reserved := room large
        have next : (bVol + 1).toNat = bVol.toNat + 1 := by bv_omega
        rw [out' (bVol + 1) (by omega), info large sound]
      have same : ∀ s, Outside bVol szVol s → D₂ s = D s := by
        intro s outside
        have away := outside.2
        rw [BitVec.lt_def] at away
        rw [out' s (by omega), out s (by omega)]
      simp only [Bool.not_true, Bool.false_eq_true, if_false]
      by_cases table : opt &&& fmSfd = 0
      · have far : bVol.toNat = 63 := by
          rw [start, volumeStart, if_neg (not_not.2 table)]
          rfl
        have first {s : DWORD} (behind : bVol.toNat ≤ s.toNat) : s ≠ 0 := by
          rintro rfl
          have zero : (0 : DWORD).toNat = 0 := rfl
          omega
        simp only [table, if_true]
        rw [twp_bind]
        apply twp_write_one
        · simp only [Bool.not_true, Bool.false_eq_true, if_false]
          apply twp_sync
          · intro s outside
            rw [Function.update_of_ne outside.1, same s outside]
          · constructor
            · rw [Function.update_of_ne (first (Nat.le_refl _)), low]
            · intro large sound
              rw [Function.update_of_ne ?_, info' large sound]
              apply first
              bv_omega
            · rw [Function.update_of_ne (first (by omega)), head]
            · intro s above below
              rw [Function.update_of_ne (first (by omega)), empty s above below]
            · exact fun _ => Function.update_self ..
        · intro bad x
          refine ⟨fun s outside => ?_, .inr ⟨rfl, bad⟩⟩
          rw [Function.update_of_ne outside.1, same s outside]
      · simp only [table, if_false]
        change ((pure true : Prog Bool) >>= _).twp _ _ _
        simp only [Program.pure_bind, Bool.not_true, Bool.false_eq_true, if_false]
        exact twp_sync same ⟨low, info', head, empty, fun none_ => absurd none_ table⟩
    · refine ⟨fun s outside => ?_, .inr ⟨rfl, bad⟩⟩
      have away := outside.2
      rw [BitVec.lt_def] at away
      rw [out' s (by omega), out s (by omega)]
  · refine ⟨fun s outside => out s ?_, .inr ⟨rfl, bad⟩⟩
    have away := outside.2
    rw [BitVec.lt_def] at away
    omega

/-- The sectors that a drive has for the volume. -/
def Medium.room (m : Medium) (opt : BYTE) : DWORD := m.size - volumeStart opt

/-- What is decided before anything is written, `au` and `len` in bytes. -/
def Medium.verdict (m : Medium) (opt : BYTE) (au : DWORD) (len : UINT) : Except FRESULT Plan :=
  if m.stat &&& staNoinit ≠ 0 then .error .notReady
  else if m.stat &&& staProtect ≠ 0 then .error .writeProtected
  else if au ≠ 0 ∧ au < 512 ∨ au &&& (au - 1) ≠ 0 then .error .invalidParameter
  else if 32768 < au / 512 then .error .invalidParameter
  else if len < 512 then .error .mkfsAborted
  else makePlan opt m.size (eraseBlock m.block) (au / 512)

/-- What is planned for a drive. -/
structure Medium.Plans (m : Medium) (opt : BYTE) (p : Plan) : Prop where
  planned : Planned (volumeStart opt) (m.room opt) (eraseBlock m.block) p
  start : volumeStart opt ≤ m.size
  large : 128 ≤ m.room opt

theorem Medium.Plans.given {m : Medium} (plans : m.Plans opt p) :
    Given (volumeStart opt) (m.room opt) (eraseBlock m.block) :=
  given_start opt m.block plans.start

/-- How `f_mkfs` ends: it refuses and writes nothing, the drive fails, or a plan was
carried out. -/
inductive Outcome (faulty : Prop) (m : Medium) (opt : BYTE) (au : DWORD) (len : UINT) (time : DWORD) (D : Disk) :
    FRESULT → Disk → Prop
  | refused {res : FRESULT} (told : m.verdict opt au len = .error res) : Outcome faulty m opt au len time D res D
  | failed {D' : Disk} (bad : faulty) (rest : ∀ s, Outside (volumeStart opt) (m.room opt) s → D' s = D s) :
      Outcome faulty m opt au len time D .diskErr D'
  | made {D' : Disk} {p : Plan} (told : m.verdict opt au len = .ok p) (plans : m.Plans opt p)
      (rest : ∀ s, Outside (volumeStart opt) (m.room opt) s → D' s = D s)
      (made : Made faulty opt p (volumeStart opt) (m.room opt) time D') : Outcome faulty m opt au len time D .ok D'

theorem buffer_ne {len : UINT} (large : ¬len < 512) : (len &&& ~~~511) / 512 ≠ 0 := by
  intro zero
  have value := congrArg BitVec.toNat zero
  have down := Words.toNat_and_not (x := len) (b := 512) (k := 9) rfl
  have mask : (~~~511 : UINT) = ~~~(512 - 1) := by decide
  rw [BitVec.toNat_udiv, mask, down] at value
  have least : 512 ≤ len.toNat := BitVec.not_lt.1 large
  have small : (len.toNat - len.toNat % 2 ^ 9) / 512 = 0 := value
  omega

theorem makePlan_error {res : FRESULT} {au : DWORD} (error : makePlan opt szDrv szBlk au = .error res) :
    res = .mkfsAborted ∨ res = .invalidParameter ∨ res = .intErr := by
  unfold makePlan at error
  dsimp only at error
  split_ifs at error
  · cases error
    exact .inl rfl
  · cases error
    exact .inl rfl
  cases first : firstType opt au with
  | error res' =>
    rw [first] at error
    cases error
    exact .inr (.inl (firstType_error first))
  | ok fmt =>
    rw [first] at error
    dsimp only at error
    cases ends : planLoop opt (volumeStart opt) (szDrv - volumeStart opt) szBlk 3 fmt au with
    | none =>
      rw [ends] at error
      cases error
      exact .inr (.inr rfl)
    | some r =>
      rw [ends] at error
      dsimp only [Option.getD] at error
      subst error
      exact .inl (planLoop_error ends)

theorem Medium.verdict_error {m : Medium} {res : FRESULT} {au : DWORD} {len : UINT}
    (told : m.verdict opt au len = .error res) :
    res ≠ .ok ∧ (m.stat &&& staProtect = 0 → res ≠ .writeProtected) := by
  unfold verdict at told
  split_ifs at told with out locked
  · cases told
    exact ⟨by decide, fun _ => by decide⟩
  · cases told
    exact ⟨by decide, fun free => absurd free locked⟩
  · cases told
    exact ⟨by decide, fun _ => by decide⟩
  · cases told
    exact ⟨by decide, fun _ => by decide⟩
  · cases told
    exact ⟨by decide, fun _ => by decide⟩
  · rcases makePlan_error told with rfl | rfl | rfl <;> exact ⟨by decide, fun _ => by decide⟩

/-- A drive that says it is write protected is not formatted. -/
theorem twp_make_locked (au : DWORD) (len : UINT) (there : m.stat &&& staNoinit = 0)
    (locked : m.stat &&& staProtect ≠ 0) :
    (make opt au len time).twp (rules faulty m) (fun res D' => res = .writeProtected ∧ D' = D) D := by
  unfold make
  rw [twp_bind]
  apply twp_diskInitialize
  rw [if_neg (not_not.2 there), if_pos locked]
  exact ⟨rfl, rfl⟩

theorem twp_make (au : DWORD) (len : UINT) :
    (make opt au len time).twp (rules faulty m) (Outcome faulty m opt au len time D) D := by
  unfold make
  rw [twp_bind]
  apply twp_diskInitialize
  split
  · rename_i out
    exact .refused (if_pos out)
  rename_i there
  split
  · rename_i locked
    exact .refused ((if_neg there).trans (if_pos locked))
  rename_i free
  rw [twp_bind]
  apply twp_getBlockSize
  have told : m.verdict opt au len = _ := (if_neg there).trans (if_neg free)
  split
  · rename_i bad
    exact .refused (told.trans (if_pos bad))
  rename_i checked
  replace told := told.trans (if_neg checked)
  split
  · rename_i large
    exact .refused (told.trans (if_pos large))
  rename_i small
  replace told := told.trans (if_neg small)
  split
  · rename_i short
    exact .refused (told.trans (if_pos short))
  rename_i enough
  replace told := told.trans (if_neg enough)
  dsimp only
  rw [twp_bind]
  apply twp_getSectorCount
  · dsimp only
    cases plan : makePlan opt m.size (eraseBlock m.block) (au / 512) with
    | error res => exact .refused (told.trans plan)
    | ok p =>
      obtain ⟨planned, start, few⟩ := makePlan_ok checked plan
      have plans : m.Plans opt p := ⟨planned, start, few⟩
      apply twp_mono (twp_writeVolume planned plans.given (buffer_ne enough) rfl)
      rintro res D' ⟨rest, ⟨rfl, made⟩ | ⟨rfl, bad⟩⟩
      · exact .made (told.trans plan) plans rest made
      · exact .failed bad rest
  · exact fun bad => .failed bad fun _ _ => rfl

theorem twp_fMkfs {volumes : Nat} {path : Option (List TCHAR)} {vol : Nat} (named : getLdnumber volumes path = some vol)
    (au : DWORD) (len : UINT) (s : Volumes) :
    (fMkfs volumes path opt au len time s).twp (rules faulty m)
      (fun r D' => r.2 = unmounted s vol ∧ Outcome faulty m opt au len time D r.1 D') D := by
  unfold fMkfs
  rw [named]
  apply twp_seq (twp_make au len)
  exact fun res D' ends => ⟨rfl, ends⟩

end

end FatFsParticle.Format
