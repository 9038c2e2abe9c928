import FatFsParticle.Fat.Window

/-!
# The file allocation table

`get_fat` and `put_fat` reach an entry through the window, one sector at a time. The
sectors of the first FAT are one row of bytes, and the entries packed into it a table of
clusters: what is put into the table is what is got from it, and no other entry changes.
A 12-bit entry may lie across two sectors, and an access that fails between them leaves
half of a new value behind.
-/

namespace FatFsParticle.Fat
open Interact Program
open Files (FRESULT)
open Drives (FatType)
open Usage (Sector ldWord ldDword)
open Times (stWord stDword stWord_ne stDword_ne ldDword_stDword)

/-! ## get_fat and put_fat -/

def getFat (fs : FATFS) (clst : DWORD) : Prog (DWORD × FATFS) :=
  if clst < 2 ∨ fs.nFatent ≤ clst then pure (1, fs)
  else
    match fs.fsType with
    | .fat12 => do
      let bc : UINT := clst + clst / 2
      let (res, fs) ← moveWindow fs (fs.fatbase + bc / 512)
      if res ≠ .ok then pure (0xFFFFFFFF, fs)
      else do
        let wc : UINT := (fs.win (bc % 512).toNat).setWidth 32
        let bc := bc + 1
        let (res, fs) ← moveWindow fs (fs.fatbase + bc / 512)
        if res ≠ .ok then pure (0xFFFFFFFF, fs)
        else
          let wc := wc ||| (fs.win (bc % 512).toNat).setWidth 32 <<< 8
          pure (if clst &&& 1 ≠ 0 then wc >>> 4 else wc &&& 0xFFF, fs)
    | .fat16 => do
      let (res, fs) ← moveWindow fs (fs.fatbase + clst / 256)
      if res ≠ .ok then pure (0xFFFFFFFF, fs)
      else pure ((ldWord fs.win (clst * 2 % 512).toNat).setWidth 32, fs)
    | .fat32 => do
      let (res, fs) ← moveWindow fs (fs.fatbase + clst / 128)
      if res ≠ .ok then pure (0xFFFFFFFF, fs)
      else pure (ldDword fs.win (clst * 4 % 512).toNat &&& 0x0FFFFFFF, fs)

/-- The first byte of a 12-bit entry, where `p` was. -/
def firstByte (clst val : DWORD) (p : BYTE) : BYTE :=
  let v : BYTE := val.setWidth 8
  let high : BYTE := v <<< 4
  if clst &&& 1 ≠ 0 then p &&& 0x0F ||| high else v

/-- The second byte. -/
def secondByte (clst val : DWORD) (p : BYTE) : BYTE :=
  let v : BYTE := (val >>> 8).setWidth 8
  if clst &&& 1 ≠ 0 then (val >>> 4).setWidth 8 else p &&& 0xF0 ||| v &&& 0x0F

/-- A changed window. -/
def FATFS.modify (fs : FATFS) (win : Sector) : FATFS := { fs with win, wflag := true }

def putFat (fs : FATFS) (clst val : DWORD) : Prog (FRESULT × FATFS) :=
  if 2 ≤ clst ∧ clst < fs.nFatent then
    match fs.fsType with
    | .fat12 => do
      let bc : UINT := clst + clst / 2
      let (res, fs) ← moveWindow fs (fs.fatbase + bc / 512)
      if res ≠ .ok then pure (res, fs)
      else do
        let p := (bc % 512).toNat
        let fs := fs.modify (Function.update fs.win p (firstByte clst val (fs.win p)))
        let bc := bc + 1
        let (res, fs) ← moveWindow fs (fs.fatbase + bc / 512)
        if res ≠ .ok then pure (res, fs)
        else
          let p := (bc % 512).toNat
          pure (.ok, fs.modify (Function.update fs.win p (secondByte clst val (fs.win p))))
    | .fat16 => do
      let (res, fs) ← moveWindow fs (fs.fatbase + clst / 256)
      if res ≠ .ok then pure (res, fs)
      else pure (.ok, fs.modify (stWord fs.win (clst * 2 % 512).toNat (val.setWidth 16)))
    | .fat32 => do
      let (res, fs) ← moveWindow fs (fs.fatbase + clst / 128)
      if res ≠ .ok then pure (res, fs)
      else
        let p := (clst * 4 % 512).toNat
        let val := val &&& 0x0FFFFFFF ||| ldDword fs.win p &&& 0xF0000000
        pure (.ok, fs.modify (stDword fs.win p val))
  else pure (.intErr, fs)

/-! ## Entries in a row of bytes -/

/-- The entry of cluster `c` in the row `f`. -/
def entry (f : Nat → BYTE) : FatType → DWORD → DWORD
  | .fat12, c =>
    let bc := c.toNat + c.toNat / 2
    let wc : DWORD := (f bc).setWidth 32 ||| (f (bc + 1)).setWidth 32 <<< 8
    if c &&& 1 ≠ 0 then wc >>> 4 else wc &&& 0xFFF
  | .fat16, c => (ldWord f (c.toNat * 2)).setWidth 32
  | .fat32, c => ldDword f (c.toNat * 4) &&& 0x0FFFFFFF

/-- The row with `val` in the entry of `c`. -/
def setEntry (f : Nat → BYTE) : FatType → DWORD → DWORD → Nat → BYTE
  | .fat12, c, val =>
    let bc := c.toNat + c.toNat / 2
    let f := Function.update f bc (firstByte c val (f bc))
    Function.update f (bc + 1) (secondByte c val (f (bc + 1)))
  | .fat16, c, val => stWord f (c.toNat * 2) (val.setWidth 16)
  | .fat32, c, val =>
    stDword f (c.toNat * 4) (val &&& 0x0FFFFFFF ||| ldDword f (c.toNat * 4) &&& 0xF0000000)

/-- What an entry keeps of a value. -/
def mask : FatType → DWORD
  | .fat12 => 0xFFF
  | .fat16 => 0xFFFF
  | .fat32 => 0x0FFFFFFF

theorem ldWord_stWord (f : Sector) (p : Nat) (v : WORD) : ldWord (stWord f p v) p = v := by
  simp only [ldWord, stWord]
  simp
  ext i inside
  simp
  grind

theorem odd_iff (c : DWORD) : c &&& 1 ≠ 0 ↔ c.toNat % 2 = 1 := by
  have low : (c &&& 1).toNat = c.toNat % 2 := by
    rw [BitVec.toNat_and]
    exact Nat.and_one_is_mod c.toNat
  rw [ne_eq, ← BitVec.toNat_inj, low]
  simp

/-! ### 12 bits -/

section Packed
variable (lo hi p : BYTE) (c val : DWORD)

theorem toNat_pair :
    (lo.setWidth 32 ||| hi.setWidth 32 <<< 8 : DWORD).toNat = lo.toNat + 256 * hi.toNat := by
  have low := lo.isLt
  have high := hi.isLt
  rw [BitVec.toNat_or, BitVec.toNat_shiftLeft, BitVec.toNat_setWidth_of_le (by decide),
    BitVec.toNat_setWidth_of_le (by decide), Nat.shiftLeft_eq, Nat.mod_eq_of_lt (by omega),
    Nat.or_comm, Nat.mul_comm, ← Nat.two_pow_add_eq_or_of_lt low]
  omega

theorem toNat_nibbles {x y : BYTE} (low : x.toNat < 16) (high : y.toNat % 16 = 0) :
    (x ||| y).toNat = x.toNat + y.toNat := by
  obtain ⟨k, multiple⟩ : ∃ k, y.toNat = 16 * k := ⟨y.toNat / 16, by omega⟩
  rw [BitVec.toNat_or, multiple, Nat.or_comm, ← Nat.two_pow_add_eq_or_of_lt (i := 4) low,
    Nat.add_comm]

theorem toNat_low : (p &&& 0x0F).toNat = p.toNat % 16 := by
  rw [BitVec.toNat_and]
  exact Nat.and_two_pow_sub_one_eq_mod p.toNat 4

theorem toNat_high : (p &&& 0xF0).toNat = p.toNat / 16 * 16 := by
  revert p
  decide

theorem toNat_firstByte : (firstByte c val p).toNat =
    if c.toNat % 2 = 1 then p.toNat % 16 + 16 * (val.toNat % 16) else val.toNat % 256 := by
  unfold firstByte
  simp only [odd_iff]
  split
  · have shifted : (val.setWidth 8 <<< 4 : BYTE).toNat = 16 * (val.toNat % 16) := by
      rw [BitVec.toNat_shiftLeft, BitVec.toNat_setWidth, Nat.shiftLeft_eq]
      omega
    rw [toNat_nibbles (by rw [toNat_low]; omega) (by rw [shifted]; omega), toNat_low, shifted]
  · exact BitVec.toNat_setWidth ..

theorem toNat_secondByte : (secondByte c val p).toNat =
    if c.toNat % 2 = 1 then val.toNat / 16 % 256 else p.toNat / 16 * 16 + val.toNat / 256 % 16 := by
  unfold secondByte
  simp only [odd_iff]
  split
  · rw [BitVec.toNat_setWidth, BitVec.toNat_ushiftRight, Nat.shiftRight_eq_div_pow]
  · have shifted : ((val >>> 8).setWidth 8 &&& 0x0F : BYTE).toNat = val.toNat / 256 % 16 := by
      rw [toNat_low, BitVec.toNat_setWidth, BitVec.toNat_ushiftRight, Nat.shiftRight_eq_div_pow]
      omega
    rw [BitVec.or_comm, toNat_nibbles (by rw [shifted]; omega) (by rw [toNat_high]; omega),
      toNat_high, shifted, Nat.add_comm]

variable (f : Nat → BYTE)

theorem toNat_entry : (entry f .fat12 c).toNat =
    let bytes := (f (c.toNat + c.toNat / 2)).toNat + 256 * (f (c.toNat + c.toNat / 2 + 1)).toNat
    if c.toNat % 2 = 1 then bytes / 16 else bytes % 4096 := by
  unfold entry
  simp only [odd_iff]
  split
  · rw [BitVec.toNat_ushiftRight, toNat_pair, Nat.shiftRight_eq_div_pow]
  · rw [BitVec.toNat_and, toNat_pair]
    exact Nat.and_two_pow_sub_one_eq_mod _ 12

end Packed

theorem bits_FFFF : ∀ i < 32, (0xFFFF : DWORD).getLsbD i = decide (i < 16) := by decide

theorem bits_0FFFFFFF : ∀ i < 32, (0x0FFFFFFF : DWORD).getLsbD i = decide (i < 28) := by decide

theorem bits_F0000000 : ∀ i < 32, (0xF0000000 : DWORD).getLsbD i = decide (28 ≤ i) := by decide

/-- What is put into an entry is got from it, as far as there is room for it. -/
theorem entry_setEntry (f : Nat → BYTE) (t : FatType) (c val : DWORD) :
    entry (setEntry f t c val) t c = val &&& mask t := by
  cases t with
  | fat12 =>
    have kept : (val &&& 0xFFF).toNat = val.toNat % 4096 := by
      rw [BitVec.toNat_and]
      exact Nat.and_two_pow_sub_one_eq_mod val.toNat 12
    apply BitVec.eq_of_toNat_eq
    rw [toNat_entry, mask, kept]
    unfold setEntry
    dsimp only
    rw [Function.update_of_ne (by omega), Function.update_self, Function.update_self,
      toNat_firstByte, toNat_secondByte]
    split <;> omega
  | fat16 =>
    simp only [entry, setEntry, mask]
    rw [ldWord_stWord]
    apply BitVec.eq_of_getLsbD_eq
    intro i inside
    have outer := bits_FFFF i inside
    simp
    grind
  | fat32 =>
    simp only [entry, setEntry, mask]
    rw [ldDword_stDword]
    apply BitVec.eq_of_getLsbD_eq
    intro i inside
    have outer := bits_0FFFFFFF i inside
    have outer' := bits_F0000000 i inside
    simp
    grind

theorem ldWord_congr {f g : Sector} {p : Nat} (first : f p = g p) (second : f (p + 1) = g (p + 1)) :
    ldWord f p = ldWord g p := by
  unfold ldWord
  rw [first, second]

/-- The other entries stay as they are. -/
theorem entry_setEntry_ne (f : Nat → BYTE) (t : FatType) {c c' : DWORD} (val : DWORD)
    (other : c' ≠ c) : entry (setEntry f t c val) t c' = entry f t c' := by
  have other : c'.toNat ≠ c.toNat := fun same => other (BitVec.eq_of_toNat_eq same)
  cases t with
  | fat12 =>
    apply BitVec.eq_of_toNat_eq
    rw [toNat_entry, toNat_entry]
    unfold setEntry
    dsimp only
    have byte (k : Nat) : (Function.update (Function.update f (c.toNat + c.toNat / 2)
        (firstByte c val (f (c.toNat + c.toNat / 2)))) (c.toNat + c.toNat / 2 + 1)
        (secondByte c val (Function.update f (c.toNat + c.toNat / 2)
          (firstByte c val (f (c.toNat + c.toNat / 2))) (c.toNat + c.toNat / 2 + 1))) k).toNat =
        if k = c.toNat + c.toNat / 2 + 1 then
          (if c.toNat % 2 = 1 then val.toNat / 16 % 256 else (f k).toNat / 16 * 16 + val.toNat / 256 % 16)
        else if k = c.toNat + c.toNat / 2 then
          (if c.toNat % 2 = 1 then (f k).toNat % 16 + 16 * (val.toNat % 16) else val.toNat % 256)
        else (f k).toNat := by
      split
      case isTrue here =>
        rw [here, Function.update_self, toNat_secondByte, Function.update_of_ne (by omega)]
      case isFalse away =>
        rw [Function.update_of_ne away]
        split
        case isTrue here => rw [here, Function.update_self, toNat_firstByte]
        case isFalse away => rw [Function.update_of_ne away]
    simp only [byte]
    have small := (f (c'.toNat + c'.toNat / 2)).isLt
    have small' := (f (c'.toNat + c'.toNat / 2 + 1)).isLt
    split <;> split_ifs <;> omega
  | fat16 =>
    simp only [entry, setEntry]
    rw [ldWord_congr (stWord_ne _ _ _ (by omega)) (stWord_ne _ _ _ (by omega))]
  | fat32 =>
    simp only [entry, setEntry]
    rw [Times.ldDword_congr fun i inside => stDword_ne _ _ _ (by omega)]

/-- What the entry of `c` is when only its first byte has been written. -/
def torn (c val : DWORD) (second : BYTE) : DWORD :=
  BitVec.ofNat 32 (if c.toNat % 2 = 1 then val.toNat % 16 + 16 * second.toNat
    else val.toNat % 256 + 256 * (second.toNat % 16))

/-- Half a value is a value, too. -/
theorem setEntry_torn (f : Nat → BYTE) (c val : DWORD) :
    Function.update f (c.toNat + c.toNat / 2) (firstByte c val (f (c.toNat + c.toNat / 2))) =
      setEntry f .fat12 c (torn c val (f (c.toNat + c.toNat / 2 + 1))) := by
  have second := (f (c.toNat + c.toNat / 2 + 1)).isLt
  have value : (torn c val (f (c.toNat + c.toNat / 2 + 1))).toNat =
      if c.toNat % 2 = 1 then val.toNat % 16 + 16 * (f (c.toNat + c.toNat / 2 + 1)).toNat
      else val.toNat % 256 + 256 * ((f (c.toNat + c.toNat / 2 + 1)).toNat % 16) := by
    unfold torn
    rw [BitVec.toNat_ofNat]
    apply Nat.mod_eq_of_lt
    split <;> omega
  simp only [setEntry]
  have first : firstByte c (torn c val (f (c.toNat + c.toNat / 2 + 1))) (f (c.toNat + c.toNat / 2)) =
      firstByte c val (f (c.toNat + c.toNat / 2)) := by
    apply BitVec.eq_of_toNat_eq
    rw [toNat_firstByte, toNat_firstByte, value]
    split <;> omega
  have kept : secondByte c (torn c val (f (c.toNat + c.toNat / 2 + 1))) (f (c.toNat + c.toNat / 2 + 1)) =
      f (c.toNat + c.toNat / 2 + 1) := by
    apply BitVec.eq_of_toNat_eq
    rw [toNat_secondByte, value]
    split <;> omega
  rw [first, Function.update_of_ne (by omega), kept]
  ext k
  by_cases here : k = c.toNat + c.toNat / 2 + 1
  · rw [here, Function.update_self, Function.update_of_ne (by omega)]
  · rw [Function.update_of_ne here]

/-- Entries are made of the bytes that the FAT has for them. -/
theorem entry_congr {f g : Nat → BYTE} {t : FatType} {c : DWORD} {n : Nat} (inside : c.toNat < n)
    (same : ∀ k < szbfat t n, f k = g k) : entry f t c = entry g t c := by
  cases t with
  | fat12 =>
    simp only [szbfat] at same
    apply BitVec.eq_of_toNat_eq
    rw [toNat_entry, toNat_entry, same _ (by omega), same _ (by omega)]
  | fat16 =>
    simp only [szbfat] at same
    simp only [entry]
    rw [ldWord_congr (same _ (by omega)) (same _ (by omega))]
  | fat32 =>
    simp only [szbfat] at same
    simp only [entry]
    rw [Times.ldDword_congr fun i inside => same _ (by omega)]

/-! ## The table of a volume -/

/-- The sectors of the first FAT as one row. -/
def Layout.fatBytes (l : Layout) (L : Disk) (k : Nat) : BYTE :=
  L (l.fatbase + BitVec.ofNat 32 (k / 512)) (k % 512)

/-- What `get_fat` makes of what the volume holds. -/
def Layout.table (l : Layout) (L : Disk) (c : DWORD) : DWORD :=
  if c < 2 ∨ l.nFatent ≤ c then 1 else entry (l.fatBytes L) l.fsType c

/-- `L'` differs from `L` in the entry of `c`, which is `v`. -/
structure Layout.Put (l : Layout) (L L' : Disk) (c v : DWORD) : Prop where
  table : l.table L' = Function.update (l.table L) c (v &&& mask l.fsType)
  rest : ∀ s : DWORD, s.toNat < l.fatbase.toNat ∨ l.fatbase.toNat + l.fsize.toNat ≤ s.toNat →
    L' s = L s

section
variable {l : Layout} {L : Disk}

theorem Layout.toNat_fatSector (l : Layout) {k : Nat} (inside : k < l.fsize.toNat * 512) :
    (l.fatbase + BitVec.ofNat 32 (k / 512)).toNat = l.fatbase.toNat + k / 512 := by
  have below := l.fat_below
  rw [BitVec.toNat_add, BitVec.toNat_ofNat]
  omega

theorem Layout.inFat_fatSector (l : Layout) {k : Nat} (inside : k < l.fsize.toNat * 512) :
    l.InFat (l.fatbase + BitVec.ofNat 32 (k / 512)) := by
  unfold InFat
  rw [l.toNat_fatSector inside]
  omega

/-- One sector of the row replaced. -/
theorem Layout.fatBytes_update (l : Layout) (L : Disk) (win : Sector) {k k' : Nat}
    (inside : k < l.fsize.toNat * 512) (inside' : k' < l.fsize.toNat * 512) :
    l.fatBytes (Function.update L (l.fatbase + BitVec.ofNat 32 (k / 512)) win) k' =
      if k' / 512 = k / 512 then win (k' % 512) else l.fatBytes L k' := by
  unfold fatBytes
  split
  case isTrue here => rw [here, Function.update_self]
  case isFalse away =>
    rw [Function.update_of_ne]
    intro same
    have numbers := congrArg BitVec.toNat same
    rw [l.toNat_fatSector inside, l.toNat_fatSector inside'] at numbers
    omega

/-- A window of the FAT that has been written as `setEntry` writes the row. -/
theorem Layout.put_of_row (l : Layout) {L L' : Disk} {c v : DWORD} (low : ¬c < 2)
    (high : ¬l.nFatent ≤ c)
    (row : ∀ k < l.fsize.toNat * 512, l.fatBytes L' k = setEntry (l.fatBytes L) l.fsType c v k)
    (rest : ∀ s : DWORD, s.toNat < l.fatbase.toNat ∨ l.fatbase.toNat + l.fsize.toNat ≤ s.toNat →
      L' s = L s) : l.Put L L' c v := by
  refine ⟨?_, rest⟩
  ext1 c'
  have made {c' : DWORD} (high : ¬l.nFatent ≤ c') :
      entry (l.fatBytes L') l.fsType c' = entry (setEntry (l.fatBytes L) l.fsType c v) l.fsType c' := by
    have inside : c'.toNat < l.nFatent.toNat := by
      rw [BitVec.le_def] at high
      omega
    exact entry_congr inside fun k lt => row k (Nat.lt_of_lt_of_le lt l.room)
  by_cases here : c' = c
  · subst here
    rw [Function.update_self, table, if_neg (not_or.2 ⟨low, high⟩), made high, entry_setEntry]
  · rw [Function.update_of_ne here]
    unfold table
    split
    case isTrue => rfl
    case isFalse range => rw [made fun out => range (.inr out), entry_setEntry_ne _ _ _ here]

/-! ## What get_fat returns -/

variable {faulty : Prop} {P : DWORD → Prop} {fs : FATFS} {D : Disk} {c val : DWORD}

theorem sector_of_byte (bc : DWORD) : bc / 512 = BitVec.ofNat 32 (bc.toNat / 512) := by
  have bound := bc.isLt
  apply BitVec.eq_of_toNat_eq
  rw [BitVec.toNat_udiv, BitVec.toNat_ofNat, Nat.mod_eq_of_lt]
  · rfl
  · omega

/-- Where the byte at `bc` of the FAT is in the window. -/
theorem Layout.fatBytes_win (l : Layout) (L : Disk) (bc : DWORD) :
    L (l.fatbase + bc / 512) (bc % 512).toNat = l.fatBytes L bc.toNat := by
  have offset : (bc % 512).toNat = bc.toNat % 512 := BitVec.toNat_umod ..
  unfold fatBytes
  rw [sector_of_byte, offset]

/-- The bytes that follow in the same sector. -/
theorem Layout.fatBytes_add (l : Layout) (L : Disk) {k i : Nat} (inside : k % 512 + i < 512) :
    L (l.fatbase + BitVec.ofNat 32 (k / 512)) (k % 512 + i) = l.fatBytes L (k + i) := by
  have sector : (k + i) / 512 = k / 512 := by omega
  have offset : (k + i) % 512 = k % 512 + i := by omega
  unfold fatBytes
  rw [sector, offset]

theorem Layout.ldWord_win (l : Layout) (L : Disk) {k : Nat} (inside : k % 512 + 1 < 512) :
    ldWord (L (l.fatbase + BitVec.ofNat 32 (k / 512))) (k % 512) = ldWord (l.fatBytes L) k := by
  unfold ldWord
  rw [l.fatBytes_add L inside]
  rfl

theorem Layout.ldDword_win (l : Layout) (L : Disk) {k : Nat} (inside : k % 512 + 3 < 512) :
    ldDword (L (l.fatbase + BitVec.ofNat 32 (k / 512))) (k % 512) = ldDword (l.fatBytes L) k := by
  have first : L (l.fatbase + BitVec.ofNat 32 (k / 512)) (k % 512) = l.fatBytes L k := rfl
  unfold ldDword ldWord
  rw [Nat.add_assoc, Nat.add_assoc, l.fatBytes_add L (i := 1) (by omega),
    l.fatBytes_add L (i := 2) (by omega), l.fatBytes_add L (i := 3) inside, first]

theorem Layout.toNat_bc (l : Layout) (packed : l.fsType = .fat12) (inside : ¬l.nFatent ≤ c) :
    (c + c / 2).toNat = c.toNat + c.toNat / 2 ∧ (c + c / 2 + 1).toNat = c.toNat + c.toNat / 2 + 1 ∧
      c.toNat + c.toNat / 2 + 1 < l.fsize.toNat * 512 := by
  have few := l.few
  have room := l.room
  rw [packed] at few room
  simp only [limit, szbfat] at few room
  rw [BitVec.le_def] at inside
  have half : (c / 2).toNat = c.toNat / 2 := BitVec.toNat_udiv ..
  have sum : (c + c / 2).toNat = c.toNat + c.toNat / 2 := by
    rw [BitVec.toNat_add, half]
    omega
  refine ⟨sum, ?_, by omega⟩
  rw [BitVec.toNat_add, sum]
  simp
  omega

/-- Where an entry of 16 bits is. -/
theorem Layout.word_place (l : Layout) (words : l.fsType = .fat16) (inside : ¬l.nFatent ≤ c) :
    c / 256 = BitVec.ofNat 32 (c.toNat * 2 / 512) ∧ (c * 2 % 512).toNat = c.toNat * 2 % 512 ∧
      c.toNat * 2 + 1 < l.fsize.toNat * 512 := by
  have few := l.few
  have room := l.room
  rw [words] at few room
  simp only [limit, szbfat] at few room
  rw [BitVec.le_def] at inside
  refine ⟨?_, ?_, by omega⟩
  · apply BitVec.eq_of_toNat_eq
    rw [BitVec.toNat_udiv, BitVec.toNat_ofNat]
    simp
    omega
  · rw [BitVec.toNat_umod, BitVec.toNat_mul]
    simp

/-- Where an entry of 32 bits is. -/
theorem Layout.dword_place (l : Layout) (dwords : l.fsType = .fat32) (inside : ¬l.nFatent ≤ c) :
    c / 128 = BitVec.ofNat 32 (c.toNat * 4 / 512) ∧ (c * 4 % 512).toNat = c.toNat * 4 % 512 ∧
      c.toNat * 4 + 3 < l.fsize.toNat * 512 := by
  have few := l.few
  have room := l.room
  rw [dwords] at few room
  simp only [limit, szbfat] at few room
  rw [BitVec.le_def] at inside
  refine ⟨?_, ?_, by omega⟩
  · apply BitVec.eq_of_toNat_eq
    rw [BitVec.toNat_udiv, BitVec.toNat_ofNat]
    simp
    omega
  · rw [BitVec.toNat_umod, BitVec.toNat_mul]
    simp

/-- A window of the FAT that has been loaded, or not. -/
theorem twp_fatWindow (holds : Holds P fs D L) {k : Nat} (inside : k < fs.fsize.toNat * 512) {α : Type}
    {f : FRESULT × FATFS → Prog α} {Q : α → Disk → Prop}
    (done : ∀ fs' D', Fetched fs fs' → fs'.AtFat → Holds P fs' D' L →
      fs'.winsect = fs.fatbase + BitVec.ofNat 32 (k / 512) →
      fs'.win = L (fs.fatbase + BitVec.ofNat 32 (k / 512)) → (f (.ok, fs')).twp (rules faulty) Q D')
    (fails : ∀ fs' D', faulty → Fetched fs fs' → Holds P fs' D' L →
      (f (.diskErr, fs')).twp (rules faulty) Q D') :
    (moveWindow fs (fs.fatbase + BitVec.ofNat 32 (k / 512)) >>= f).twp (rules faulty) Q D := by
  apply twp_seq (twp_moveWindow holds _)
  rintro ⟨res, fs'⟩ D' ⟨moved, holds', ⟨rfl, at_, win⟩ | ⟨rfl, bad, window⟩⟩
  · have fat : fs'.AtFat := by
      left
      rw [at_, moved.layout]
      exact fs.inFat_fatSector inside
    exact done fs' D' ⟨moved, .inl fat⟩ fat holds' at_ (win (holds.fat _ (fs.inFat_fatSector inside)))
  · exact fails fs' D' bad ⟨moved, window.symm.imp .inr id⟩ holds'

theorem twp_getFat (holds : Holds P fs D L) (c : DWORD) :
    (getFat fs c).twp (rules faulty) (fun r D' => Fetched fs r.2 ∧ Holds P r.2 D' L ∧
      (r.1 = fs.table L c ∧ (c < 2 ∨ fs.nFatent ≤ c ∨ r.2.AtFat) ∨
        r.1 = 0xFFFFFFFF ∧ faulty)) D := by
  unfold getFat Layout.table
  split
  case isTrue out =>
    exact ⟨.refl fs, holds, .inl ⟨rfl, out.imp id .inl⟩⟩
  case isFalse range =>
    have inside : ¬fs.nFatent ≤ c := fun out => range (.inr out)
    split
    case h_1 packed =>
      obtain ⟨sum, next, fits⟩ := fs.toNat_bc packed inside
      dsimp only
      rw [sector_of_byte]
      apply twp_fatWindow holds (by omega)
      · intro fs' D' moved fat holds' _ win
        have same := moved.layout
        dsimp only
        rw [if_neg (by decide), sector_of_byte]
        apply twp_fatWindow holds' (by rw [same]; omega)
        · intro fs'' D'' moved' fat holds'' _ win'
          dsimp only
          rw [if_neg (by decide)]
          refine ⟨moved.trans moved', holds'', .inl ⟨?_, .inr (.inr fat)⟩⟩
          have first := fs.fatBytes_win L (c + c / 2)
          have second := fs.fatBytes_win L (c + c / 2 + 1)
          rw [sector_of_byte, sum] at first
          rw [sector_of_byte, next] at second
          rw [win, win', same, sum, next, first, second, packed]
          rfl
        · intro fs'' D'' bad moved' holds''
          dsimp only
          rw [if_pos (by decide)]
          exact ⟨moved.trans moved', holds'', .inr ⟨rfl, bad⟩⟩
      · intro fs' D' bad moved holds'
        dsimp only
        rw [if_pos (by decide)]
        exact ⟨moved, holds', .inr ⟨rfl, bad⟩⟩
    case h_2 words =>
      obtain ⟨sector, offset, fits⟩ := fs.word_place words inside
      rw [sector]
      apply twp_fatWindow holds (by omega)
      · intro fs' D' moved fat holds' _ win
        dsimp only
        rw [if_neg (by decide)]
        refine ⟨moved, holds', .inl ⟨?_, .inr (.inr fat)⟩⟩
        rw [win, offset, fs.ldWord_win L (by omega), words]
        rfl
      · intro fs' D' bad moved holds'
        dsimp only
        rw [if_pos (by decide)]
        exact ⟨moved, holds', .inr ⟨rfl, bad⟩⟩
    case h_3 dwords =>
      obtain ⟨sector, offset, fits⟩ := fs.dword_place dwords inside
      rw [sector]
      apply twp_fatWindow holds (by omega)
      · intro fs' D' moved fat holds' _ win
        dsimp only
        rw [if_neg (by decide)]
        refine ⟨moved, holds', .inl ⟨?_, .inr (.inr fat)⟩⟩
        rw [win, offset, fs.ldDword_win L (by omega), dwords]
        rfl
      · intro fs' D' bad moved holds'
        dsimp only
        rw [if_pos (by decide)]
        exact ⟨moved, holds', .inr ⟨rfl, bad⟩⟩

/-- The scan of `f_getfree` reads the same entries, straight from what the volume holds. -/
theorem getFat_flat (fs : FATFS) (L : Disk) (c : DWORD) :
    Usage.getFat (fun s => some (L s)) fs.flat c = fs.table L c := by
  have base : fs.flat.fatbase = fs.fatbase := rfl
  unfold Usage.getFat Layout.table
  by_cases range : c < 2 ∨ fs.nFatent ≤ c
  · rw [if_pos range, if_pos (show c < 2 ∨ fs.flat.nFatent ≤ c from range)]
  · have inside : ¬fs.nFatent ≤ c := fun out => range (.inr out)
    rw [if_neg range, if_neg (show ¬(c < 2 ∨ fs.flat.nFatent ≤ c) from range)]
    cases kind : fs.fsType with
    | fat12 =>
      obtain ⟨sum, next, -⟩ := fs.toNat_bc kind inside
      have first := fs.fatBytes_win L (c + c / 2)
      have second := fs.fatBytes_win L (c + c / 2 + 1)
      rw [sum] at first
      rw [next] at second
      rw [show fs.flat.fsType = some .fat12 from congrArg some kind]
      dsimp only
      rw [base, first, second]
      rfl
    | fat16 =>
      obtain ⟨sector, offset, -⟩ := fs.word_place kind inside
      rw [show fs.flat.fsType = some .fat16 from congrArg some kind]
      dsimp only
      rw [base, sector, offset, fs.ldWord_win L (by omega)]
      rfl
    | fat32 =>
      obtain ⟨sector, offset, -⟩ := fs.dword_place kind inside
      rw [show fs.flat.fsType = some .fat32 from congrArg some kind]
      dsimp only
      rw [base, sector, offset, fs.ldDword_win L (by omega)]
      rfl

/-! ## What put_fat does -/

/-- A byte of a window of the FAT is a byte of the row. -/
theorem Layout.fatBytes_byte (l : Layout) (L : Disk) (win : Sector) (x : BYTE) {k i k' : Nat}
    (inside : k < l.fsize.toNat * 512) (inside' : k' < l.fsize.toNat * 512)
    (within : k % 512 + i < 512) :
    l.fatBytes (Function.update L (l.fatbase + BitVec.ofNat 32 (k / 512))
        (Function.update win (k % 512 + i) x)) k' =
      if k' = k + i then x
      else l.fatBytes (Function.update L (l.fatbase + BitVec.ofNat 32 (k / 512)) win) k' := by
  rw [l.fatBytes_update L _ inside inside', Function.update_apply, l.fatBytes_update L _ inside inside']
  split_ifs
  all_goals first | rfl | omega

theorem Layout.fatBytes_same (l : Layout) (L : Disk) (s : DWORD) :
    l.fatBytes (Function.update L s (L s)) = l.fatBytes L := by
  rw [Function.update_eq_self]

theorem Layout.fatBytes_stWord (l : Layout) (L : Disk) (v : WORD) {k k' : Nat}
    (inside : k + 1 < l.fsize.toNat * 512) (inside' : k' < l.fsize.toNat * 512)
    (within : k % 512 + 1 < 512) :
    l.fatBytes (Function.update L (l.fatbase + BitVec.ofNat 32 (k / 512))
        (stWord (L (l.fatbase + BitVec.ofNat 32 (k / 512))) (k % 512) v)) k' =
      stWord (l.fatBytes L) k v k' := by
  have byte (win : Sector) (x : BYTE) {i : Nat} (within : k % 512 + i < 512) :=
    l.fatBytes_byte L win x (by omega) inside' within
  have first (win : Sector) (x : BYTE) := byte win x (i := 0) (by omega)
  simp only [Nat.add_zero] at first
  simp only [stWord, Function.update_apply]
  rw [byte _ _ within, first, l.fatBytes_same]

theorem Layout.fatBytes_stDword (l : Layout) (L : Disk) (v : DWORD) {k k' : Nat}
    (inside : k + 3 < l.fsize.toNat * 512) (inside' : k' < l.fsize.toNat * 512)
    (within : k % 512 + 3 < 512) :
    l.fatBytes (Function.update L (l.fatbase + BitVec.ofNat 32 (k / 512))
        (stDword (L (l.fatbase + BitVec.ofNat 32 (k / 512))) (k % 512) v)) k' =
      stDword (l.fatBytes L) k v k' := by
  have byte (win : Sector) (x : BYTE) {i : Nat} (within : k % 512 + i < 512) :=
    l.fatBytes_byte L win x (by omega) inside' within
  have first (win : Sector) (x : BYTE) := byte win x (i := 0) (by omega)
  simp only [Nat.add_zero] at first
  simp only [stDword, Function.update_apply]
  rw [byte _ _ within, byte _ _ (by omega), byte _ _ (by omega), first, l.fatBytes_same]

/-- One byte of the row written. -/
theorem Layout.fatBytes_set (l : Layout) (L : Disk) (x : BYTE) {k k' : Nat}
    (inside : k < l.fsize.toNat * 512) (inside' : k' < l.fsize.toNat * 512) :
    l.fatBytes (Function.update L (l.fatbase + BitVec.ofNat 32 (k / 512))
        (Function.update (L (l.fatbase + BitVec.ofNat 32 (k / 512))) (k % 512) x)) k' =
      Function.update (l.fatBytes L) k x k' := by
  have byte := l.fatBytes_byte L (L (l.fatbase + BitVec.ofNat 32 (k / 512))) x (i := 0) inside inside'
    (by omega)
  simp only [Nat.add_zero] at byte
  rw [byte, Function.update_apply, l.fatBytes_same]

/-- Sectors that are none of the FAT. -/
theorem Layout.update_rest (l : Layout) (L : Disk) (win : Sector) {k : Nat}
    (inside : k < l.fsize.toNat * 512) {s : DWORD}
    (out : s.toNat < l.fatbase.toNat ∨ l.fatbase.toNat + l.fsize.toNat ≤ s.toNat) :
    Function.update L (l.fatbase + BitVec.ofNat 32 (k / 512)) win s = L s := by
  apply Function.update_of_ne
  intro same
  have numbers := congrArg BitVec.toNat same
  rw [l.toNat_fatSector inside] at numbers
  omega

/-- The window changed where it shows a sector of the FAT. -/
theorem Holds.modify (holds : Holds P fs D L) (win : Sector) :
    Holds P (fs.modify win) D (Function.update L fs.winsect win) := holds.write win

theorem Fetched.modify {fs' : FATFS} (moved : Fetched fs fs') (win : Sector) :
    Fetched fs (fs'.modify win) :=
  moved.trans ⟨⟨rfl, rfl, rfl, rfl⟩, .inr rfl⟩

theorem twp_putFat (holds : Holds P fs D L) (c val : DWORD) :
    (putFat fs c val).twp (rules faulty) (fun r D' => Fetched fs r.2 ∧ ∃ L', Holds P r.2 D' L' ∧
      (r.1 = .ok ∧ r.2.AtFat ∧ fs.Put L L' c val ∨
        r.1 = .intErr ∧ (c < 2 ∨ fs.nFatent ≤ c) ∧ L' = L ∨
        r.1 = .diskErr ∧ faulty ∧ (L' = L ∨ fs.fsType = .fat12 ∧ r.2.AtFat ∧ ∃ v, fs.Put L L' c v))) D := by
  unfold putFat
  split
  case isFalse out =>
    refine ⟨.refl fs, L, holds, .inr (.inl ⟨rfl, ?_, rfl⟩)⟩
    rw [not_and_or, BitVec.not_le, BitVec.not_lt] at out
    exact out
  case isTrue range =>
    have low : ¬c < 2 := BitVec.not_lt.2 range.1
    have inside : ¬fs.nFatent ≤ c := BitVec.not_le.2 range.2
    split
    case h_1 packed =>
      obtain ⟨sum, next, fits⟩ := fs.toNat_bc packed inside
      have offset : ((c + c / 2) % 512).toNat = (c.toNat + c.toNat / 2) % 512 := by
        rw [BitVec.toNat_umod, sum]
        rfl
      have offset' : ((c + c / 2 + 1) % 512).toNat = (c.toNat + c.toNat / 2 + 1) % 512 := by
        rw [BitVec.toNat_umod, next]
        rfl
      dsimp only
      rw [sector_of_byte, sum]
      apply twp_fatWindow holds (by omega)
      · intro fs' D' moved fat holds' at_ win
        have same := moved.layout
        have place : fs'.win ((c + c / 2) % 512).toNat = fs.fatBytes L (c.toNat + c.toNat / 2) := by
          rw [win, offset]
          rfl
        dsimp only
        rw [if_neg (by decide), place, offset, sector_of_byte, next]
        have holds₁ := holds'.modify (Function.update fs'.win ((c.toNat + c.toNat / 2) % 512)
          (firstByte c val (fs.fatBytes L (c.toNat + c.toNat / 2))))
        have fat₁ : (fs'.modify (Function.update fs'.win ((c.toNat + c.toNat / 2) % 512)
          (firstByte c val (fs.fatBytes L (c.toNat + c.toNat / 2))))).AtFat := fat
        have moved₁ := moved.modify (Function.update fs'.win ((c.toNat + c.toNat / 2) % 512)
          (firstByte c val (fs.fatBytes L (c.toNat + c.toNat / 2))))
        rw [at_, win] at holds₁
        rw [win] at moved₁ fat₁ ⊢
        generalize hL : Function.update L _ _ = L₁ at holds₁
        generalize fs'.modify _ = fs₁ at holds₁ moved₁ fat₁ ⊢
        have row₁ {k : Nat} (lt : k < fs.fsize.toNat * 512) : fs.fatBytes L₁ k =
            Function.update (fs.fatBytes L) (c.toNat + c.toNat / 2)
              (firstByte c val (fs.fatBytes L (c.toNat + c.toNat / 2))) k := by
          rw [← hL]
          exact fs.fatBytes_set L _ (by omega) lt
        have rest₁ {s : DWORD} (out : s.toNat < fs.fatbase.toNat ∨
            fs.fatbase.toNat + fs.fsize.toNat ≤ s.toNat) : L₁ s = L s := by
          rw [← hL]
          exact fs.update_rest L _ (by omega) out
        have same₁ := moved₁.layout
        apply twp_fatWindow holds₁ (by rw [same₁]; omega)
        · intro fs'' D'' moved' fat' holds'' at_' win'
          rw [same₁] at at_' win'
          have place' : fs''.win ((c + c / 2 + 1) % 512).toNat =
              fs.fatBytes L (c.toNat + c.toNat / 2 + 1) := by
            rw [win', offset']
            exact (row₁ fits).trans (Function.update_of_ne (by omega) _ _)
          dsimp only
          rw [if_neg (by decide), place', offset']
          refine ⟨(moved₁.trans moved').modify _, _, holds''.modify _, .inl ⟨rfl, fat', ?_⟩⟩
          apply fs.put_of_row low inside
          · intro k lt
            rw [at_', win', fs.fatBytes_set L₁ _ fits lt, packed]
            have unchanged : Function.update (fs.fatBytes L) (c.toNat + c.toNat / 2)
                (firstByte c val (fs.fatBytes L (c.toNat + c.toNat / 2)))
                (c.toNat + c.toNat / 2 + 1) = fs.fatBytes L (c.toNat + c.toNat / 2 + 1) :=
              Function.update_of_ne (by omega) _ _
            simp only [setEntry]
            rw [unchanged, Function.update_apply, row₁ lt]
            exact (Function.update_apply ..).symm
          · intro s out
            rw [at_', fs.update_rest L₁ _ fits out, rest₁ out]
        · intro fs'' D'' bad moved' holds''
          dsimp only
          rw [if_pos (by decide)]
          have half : fs.Put L L₁ c (torn c val (fs.fatBytes L (c.toNat + c.toNat / 2 + 1))) := by
            apply fs.put_of_row low inside
            · intro k lt
              rw [row₁ lt, setEntry_torn, packed]
            · intro s out
              exact rest₁ out
          exact ⟨moved₁.trans moved', L₁, holds'', .inr (.inr ⟨rfl, bad,
            .inr ⟨packed, moved'.atFat fat₁, _, half⟩⟩)⟩
      · intro fs' D' bad moved holds'
        dsimp only
        rw [if_pos (by decide)]
        exact ⟨moved, L, holds', .inr (.inr ⟨rfl, bad, .inl rfl⟩)⟩
    case h_2 words =>
      obtain ⟨sector, offset, fits⟩ := fs.word_place words inside
      rw [sector]
      apply twp_fatWindow holds (by omega)
      · intro fs' D' moved fat holds' at_ win
        dsimp only
        rw [if_neg (by decide)]
        refine ⟨moved.modify _, _, holds'.modify _, .inl ⟨rfl, fat, fs.put_of_row low inside ?_ ?_⟩⟩
        · intro k lt
          rw [at_, win, offset, fs.fatBytes_stWord L _ fits lt (by omega), words]
          rfl
        · intro s out
          rw [at_]
          exact fs.update_rest L _ (by omega) out
      · intro fs' D' bad moved holds'
        dsimp only
        rw [if_pos (by decide)]
        exact ⟨moved, L, holds', .inr (.inr ⟨rfl, bad, .inl rfl⟩)⟩
    case h_3 dwords =>
      obtain ⟨sector, offset, fits⟩ := fs.dword_place dwords inside
      rw [sector]
      apply twp_fatWindow holds (by omega)
      · intro fs' D' moved fat holds' at_ win
        dsimp only
        rw [if_neg (by decide)]
        refine ⟨moved.modify _, _, holds'.modify _, .inl ⟨rfl, fat, fs.put_of_row low inside ?_ ?_⟩⟩
        · intro k lt
          rw [at_, win, offset, fs.fatBytes_stDword L _ fits lt (by omega),
            fs.ldDword_win L (by omega), dwords]
          rfl
        · intro s out
          rw [at_]
          exact fs.update_rest L _ (by omega) out
      · intro fs' D' bad moved holds'
        dsimp only
        rw [if_pos (by decide)]
        exact ⟨moved, L, holds', .inr (.inr ⟨rfl, bad, .inl rfl⟩)⟩

end

end FatFsParticle.Fat
