import FatFsParticle.Usage.Mount

/-!
# What a volume has left

`f_getfree` counts the clusters of a volume that are free and `f_getfree_out` turns the
count into bytes. A count that is stored is taken only if it is one of clusters; so is
one of 12-bit entries. The scan of 16- and 32-bit entries goes over the two reserved ones
too, and what it counts may be more than the clusters. An error of `f_getfree` is looked
at when everything has been computed and stored.
-/

namespace FatFsParticle.Usage
open Files (FRESULT)
open Drives (FatType TCHAR attachPath getLdnumber)

/-! ## `f_getfree` -/

def getFat (view : View) (fs : FATFS) (clst : DWORD) : DWORD :=
  if clst < 2 ∨ fs.nFatent ≤ clst then 1
  else
    match fs.fsType with
    | some .fat12 =>
      let bc := clst + clst / 2
      match view (fs.fatbase + bc / 512), view (fs.fatbase + (bc + 1) / 512) with
      | some win, some win' =>
        let wc : UINT := (win (bc % 512).toNat).setWidth 32 |||
          (win' ((bc + 1) % 512).toNat).setWidth 32 <<< 8
        if clst &&& 1 ≠ 0 then wc >>> 4 else wc &&& 0xFFF
      | _, _ => 0xFFFFFFFF
    | some .fat16 =>
      match view (fs.fatbase + clst / 256) with
      | some win => (ldWord win (clst * 2 % 512).toNat).setWidth 32
      | none => 0xFFFFFFFF
    | some .fat32 =>
      match view (fs.fatbase + clst / 128) with
      | some win => ldDword win (clst * 4 % 512).toNat &&& 0x0FFFFFFF
      | none => 0xFFFFFFFF
    | none => 1

/-- The `do` over the clusters of a 12-bit volume. -/
def countPacked (view : View) (fs : FATFS) : Nat → DWORD → DWORD → FRESULT × DWORD
  | 0, _, nfree => (.ok, nfree)
  | n + 1, clst, nfree =>
    let stat := getFat view fs clst
    if stat = 0xFFFFFFFF then (.diskErr, nfree)
    else if stat = 1 then (.intErr, nfree)
    else countPacked view fs n (clst + 1) (if stat = 0 then nfree + 1 else nfree)

/-- Bytes of an entry. -/
def width (t : Option FatType) : Nat := if t = some .fat16 then 2 else 4

/-- The entry at `p` is free. -/
def isFree (t : Option FatType) (win : Sector) (p : Nat) : Bool :=
  if t = some .fat16 then ldWord win p = 0 else ldDword win p &&& 0x0FFFFFFF = 0

/-- The `do` over the entries of a 16- or 32-bit volume: `i` bytes are left at `p`. -/
def countAligned (view : View) (t : Option FatType) :
    Nat → DWORD → Sector → Nat → Nat → DWORD → FRESULT × DWORD
  | 0, _, _, _, _, nfree => (.ok, nfree)
  | clst + 1, sect, win, p, i, nfree =>
    match if i = 0 then (view sect).map (·, sect + 1, 0, 512) else some (win, sect, p, i) with
    | none => (.diskErr, nfree)
    | some (win, sect, p, i) =>
      countAligned view t clst sect win (p + width t) (i - width t)
        (if isFree t win p then nfree + 1 else nfree)

/-- How often the second `do` runs: `--clst` comes to 0 from `n_fatent`. -/
def FATFS.scanned (fs : FATFS) : Nat := (fs.nFatent - 1).toNat + 1

/-- The scan of the FAT. -/
def countFree (view : View) (fs : FATFS) : FRESULT × DWORD :=
  if fs.fsType = some .fat12 then countPacked view fs (fs.nFatent.toNat - 3 + 1) 2 0
  else countAligned view fs.fsType fs.scanned fs.fatbase (fun _ => 0) 0 0 0

/-- `f_getfree`: its result, and `*nclst` and `*fatfs` when they are set. -/
def fGetfree (volumes : Nat) (path : Option (List TCHAR)) (a : Answers) (s : Volumes) :
    FRESULT × Option (DWORD × FATFS) × Volumes :=
  match findVolume volumes path 0 a s with
  | (.ok, some (vol, fs), s) =>
    if fs.freeClst ≤ fs.nFatent - 2 then (.ok, some (fs.freeClst, fs), s)
    else
      let (res, nfree) := countFree a.view fs
      let fs := { fs with freeClst := nfree, fsiFlag := fs.fsiFlag ||| 1 }
      (res, some (nfree, fs), Function.update s vol (some fs))
  | (res, _, s) => (res, none, s)

/-! ## `f_getfree_out` -/

/-- The pointers that are not null. -/
structure Wanted where
  free : Bool
  used : Bool
  total : Bool

/-- What the pointers get. -/
structure Outputs where
  bytesFreeOut : Option QWORD := none
  bytesUsedOut : Option QWORD := none
  bytesTotalOut : Option QWORD := none

structure Figures where
  freeBytes : QWORD
  usedBytes : QWORD
  totalBytes : QWORD

def figures (fs : FATFS) (freClust : DWORD) : Figures :=
  let totSect : DWORD := (fs.nFatent - 2) * fs.csize.setWidth 32
  let freSect : DWORD := freClust * fs.csize.setWidth 32
  let totalBytes : QWORD := totSect.setWidth 64 * 512
  let freeBytes : QWORD := freSect.setWidth 64 * 512
  { freeBytes, usedBytes := totalBytes - freeBytes, totalBytes }

def Figures.outputs (f : Figures) (w : Wanted) : Outputs where
  bytesFreeOut := if w.free then some f.freeBytes else none
  bytesUsedOut := if w.used then some f.usedBytes else none
  bytesTotalOut := if w.total then some f.totalBytes else none

/-- `f_getfree_out`, `none` when `fs` is read and not set. -/
def fGetfreeOut (volumes : Nat) (driveNumber : BYTE) (w : Wanted) (a : Answers) (s : Volumes) :
    Option (FRESULT × Outputs × Volumes) :=
  match fGetfree volumes (some (attachPath driveNumber)) a s with
  | (res, some (freClust, fs), s) => some (res, (figures fs freClust).outputs w, s)
  | (_, none, _) => none

/-! ## What the scan counts -/

/-- The entry tells whether its cluster is free. -/
def Tells (view : View) (fs : FATFS) (clst : DWORD) : Prop :=
  getFat view fs clst ≠ 0xFFFFFFFF ∧ getFat view fs clst ≠ 1

theorem countPacked_ok {view : View} {fs : FATFS} (n : Nat) (clst nfree : DWORD) :
    (countPacked view fs n clst nfree).1 = .ok ↔
      ∀ j < n, Tells view fs (clst + BitVec.ofNat 32 j) := by
  induction n generalizing clst nfree with
  | zero => simp [countPacked]
  | succ n ih =>
    have shift (j : Nat) : clst + BitVec.ofNat 32 (j + 1) = clst + 1 + BitVec.ofNat 32 j := by
      rw [Nat.add_comm, BitVec.ofNat_add, BitVec.add_assoc]
      rfl
    have split : (∀ j < n + 1, Tells view fs (clst + BitVec.ofNat 32 j)) ↔
        Tells view fs clst ∧ ∀ j < n, Tells view fs (clst + 1 + BitVec.ofNat 32 j) := by
      constructor
      · intro all
        constructor
        · simpa using all 0 (by omega)
        · intro j inside
          rw [← shift]
          exact all (j + 1) (by omega)
      · rintro ⟨first, rest⟩ j inside
        cases j with
        | zero => simpa using first
        | succ j =>
          rw [shift]
          exact rest j (by omega)
    rw [split]
    unfold countPacked
    dsimp only
    by_cases bad : getFat view fs clst = 0xFFFFFFFF
    · simp [bad, Tells]
    · by_cases broken : getFat view fs clst = 1
      · simp [broken, Tells]
      · rw [if_neg bad, if_neg broken, ih]
        exact (and_iff_right ⟨bad, broken⟩).symm

/-- A scan counts at most the entries it looks at. -/
theorem countPacked_le {view : View} {fs : FATFS} (n : Nat) (clst nfree : DWORD)
    (room : nfree.toNat + n < 2 ^ 32) :
    (countPacked view fs n clst nfree).2.toNat ≤ nfree.toNat + n := by
  induction n generalizing clst nfree with
  | zero => simp [countPacked]
  | succ n ih =>
    unfold countPacked
    dsimp only
    split
    · exact Nat.le_add_right _ _
    · split
      · exact Nat.le_add_right _ _
      · have next : (nfree + 1).toNat = nfree.toNat + 1 := by
          rw [BitVec.toNat_add]
          simp
          omega
        split
        · have rest := ih (clst + 1) (nfree + 1) (by omega)
          omega
        · have rest := ih (clst + 1) nfree (by omega)
          omega

/-- Entries of a sector. -/
def perSector (t : Option FatType) : Nat := if t = some .fat16 then 256 else 128

/-- The sector that entry `k` is in. -/
def entrySector (fs : FATFS) (k : Nat) : DWORD :=
  fs.fatbase + BitVec.ofNat 32 (k / perSector fs.fsType)

/-- The entry can be read, and tells that its cluster is free. -/
def freeEntry (view : View) (fs : FATFS) (k : Nat) : Bool :=
  match view (entrySector fs k) with
  | some win => isFree fs.fsType win (k % perSector fs.fsType * width fs.fsType)
  | none => false

/-- Zero entries among the `n` from `k` on. -/
def zeros (view : View) (fs : FATFS) (k n : Nat) : Nat :=
  (List.range' k n).countP (freeEntry view fs)

/-- Where the scan is before entry `k`. -/
structure Scanning (view : View) (fs : FATFS) (k : Nat) (sect : DWORD) (win : Sector) (p i : Nat) :
    Prop where
  fresh : k % perSector fs.fsType = 0 → i = 0 ∧ sect = entrySector fs k
  within : k % perSector fs.fsType ≠ 0 → view (entrySector fs k) = some win ∧
    p = k % perSector fs.fsType * width fs.fsType ∧ i = 512 - p ∧ sect = entrySector fs k + 1

theorem perSector_width (t : Option FatType) : perSector t * width t = 512 := by
  unfold perSector width
  split <;> rfl

theorem perSector_pos (t : Option FatType) : 0 < perSector t := by
  unfold perSector
  split <;> decide

theorem width_pos (t : Option FatType) : 0 < width t := by
  unfold width
  split <;> decide

/-- From one entry to the next: at the start of the next sector, or in the same one. -/
theorem entry_succ (fs : FATFS) (k : Nat) :
    (k % perSector fs.fsType + 1 = perSector fs.fsType ∧ (k + 1) % perSector fs.fsType = 0 ∧
      entrySector fs (k + 1) = entrySector fs k + 1) ∨
    (k % perSector fs.fsType + 1 < perSector fs.fsType ∧
      (k + 1) % perSector fs.fsType = k % perSector fs.fsType + 1 ∧
      entrySector fs (k + 1) = entrySector fs k) := by
  have step : (k % perSector fs.fsType + 1 = perSector fs.fsType ∧
      (k + 1) % perSector fs.fsType = 0 ∧
      (k + 1) / perSector fs.fsType = k / perSector fs.fsType + 1) ∨
    (k % perSector fs.fsType + 1 < perSector fs.fsType ∧
      (k + 1) % perSector fs.fsType = k % perSector fs.fsType + 1 ∧
      (k + 1) / perSector fs.fsType = k / perSector fs.fsType) := by
    unfold perSector
    split <;> omega
  unfold entrySector
  rcases step with ⟨last, start, quotient⟩ | ⟨more, next, quotient⟩
  · left
    rw [quotient, BitVec.ofNat_add, ← BitVec.add_assoc]
    exact ⟨last, start, rfl⟩
  · right
    rw [quotient]
    exact ⟨more, next, rfl⟩

/-- The scan goes through the entries in order and stops at a sector it cannot read. -/
theorem countAligned_spec {view : View} {fs : FATFS} (n k : Nat) {sect : DWORD} {win : Sector}
    {p i : Nat} (nfree : DWORD) (at_ : Scanning view fs k sect win p i) :
    if ∀ j < n, (view (entrySector fs (k + j))).isSome then
      countAligned view fs.fsType n sect win p i nfree =
        (.ok, nfree + BitVec.ofNat 32 (zeros view fs k n))
    else (countAligned view fs.fsType n sect win p i nfree).1 = .diskErr := by
  induction n generalizing k sect win p i nfree with
  | zero => simp [countAligned, zeros]
  | succ n ih =>
    have split : (∀ j < n + 1, (view (entrySector fs (k + j))).isSome) ↔
        (view (entrySector fs k)).isSome ∧
          ∀ j < n, (view (entrySector fs (k + 1 + j))).isSome := by
      constructor
      · intro all
        constructor
        · exact all 0 (by omega)
        · intro j inside
          have next := all (j + 1) (by omega)
          rwa [← Nat.add_assoc, Nat.add_right_comm] at next
      · rintro ⟨first, rest⟩ j inside
        cases j with
        | zero => exact first
        | succ j =>
          rw [← Nat.add_assoc, Nat.add_right_comm]
          exact rest j (by omega)
    simp only [split]
    have loaded : (if i = 0 then (view sect).map (·, sect + 1, 0, 512) else some (win, sect, p, i)) =
        (view (entrySector fs k)).map fun win => (win, entrySector fs k + 1,
          k % perSector fs.fsType * width fs.fsType,
          512 - k % perSector fs.fsType * width fs.fsType) := by
      by_cases start : k % perSector fs.fsType = 0
      · obtain ⟨empty, here⟩ := at_.fresh start
        rw [if_pos empty, here, start]
        simp
      · obtain ⟨there, offset, left, next⟩ := at_.within start
        have full : i ≠ 0 := by
          have below := Nat.mod_lt k (perSector_pos fs.fsType)
          have bytes := Nat.mul_lt_mul_of_pos_right below (width_pos fs.fsType)
          rw [perSector_width] at bytes
          omega
        rw [if_neg full, there, next, left, offset]
        rfl
    unfold countAligned
    rw [loaded]
    cases here : view (entrySector fs k) with
    | none => simp
    | some win' =>
      have one : BitVec.ofNat 32 (zeros view fs k (n + 1)) =
          (if isFree fs.fsType win' (k % perSector fs.fsType * width fs.fsType) then 1 else 0) +
            BitVec.ofNat 32 (zeros view fs (k + 1) n) := by
        have entry : freeEntry view fs k =
            isFree fs.fsType win' (k % perSector fs.fsType * width fs.fsType) := by
          simp [freeEntry, here]
        unfold zeros
        rw [List.range'_succ, List.countP_cons, BitVec.ofNat_add, BitVec.add_comm, entry]
        split <;> rfl
      have moved : Scanning view fs (k + 1) (entrySector fs k + 1) win'
          (k % perSector fs.fsType * width fs.fsType + width fs.fsType)
          (512 - k % perSector fs.fsType * width fs.fsType - width fs.fsType) := by
        have bytes := perSector_width fs.fsType
        rcases entry_succ fs k with ⟨last, start, sector⟩ | ⟨more, next, sector⟩
        · rw [← last, Nat.add_mul, Nat.one_mul] at bytes
          constructor
          · intro _
            exact ⟨by omega, sector.symm⟩
          · intro inside
            exact absurd start inside
        · constructor
          · intro start
            omega
          · intro _
            rw [sector, next, Nat.add_mul, Nat.one_mul]
            exact ⟨here, rfl, by omega, rfl⟩
      have rest := ih (k + 1)
        (if isFree fs.fsType win' (k % perSector fs.fsType * width fs.fsType) then nfree + 1 else nfree)
        moved
      have sum : (if isFree fs.fsType win' (k % perSector fs.fsType * width fs.fsType) then nfree + 1
          else nfree) + BitVec.ofNat 32 (zeros view fs (k + 1) n) =
            nfree + BitVec.ofNat 32 (zeros view fs k (n + 1)) := by
        rw [one]
        split
        · rw [BitVec.add_assoc]
        · simp
      rw [sum] at rest
      simpa using rest

/-! ## The count -/

/-- The scan reads what it looks at, and 12-bit entries are none that it rejects. -/
def Scannable (view : View) (fs : FATFS) : Prop :=
  if fs.fsType = some .fat12 then
    ∀ j < fs.nFatent.toNat - 3 + 1, Tells view fs (2 + BitVec.ofNat 32 j)
  else ∀ j < fs.scanned, (view (entrySector fs j)).isSome

/-- The zero entries, reserved ones among them, make no more than the clusters. A `DWORD`
counts them. -/
def Bounded (view : View) (fs : FATFS) : Prop :=
  fs.fsType = some .fat12 ∨ zeros view fs 0 fs.scanned % 2 ^ 32 ≤ fs.clusters

instance (view : View) (fs : FATFS) : Decidable (Scannable view fs) := by
  unfold Scannable Tells
  infer_instance

/-- The whole scan of a volume that is not of the 12-bit kind. -/
theorem countFree_aligned {view : View} {fs : FATFS} (aligned : fs.fsType ≠ some .fat12) :
    if Scannable view fs then
      countFree view fs = (.ok, BitVec.ofNat 32 (zeros view fs 0 fs.scanned))
    else (countFree view fs).1 = .diskErr := by
  have start : Scanning view fs 0 fs.fatbase (fun _ => 0) 0 0 := by
    constructor
    · intro _
      simp [entrySector]
    · intro more
      exact absurd (Nat.zero_mod _) more
  have spec := countAligned_spec fs.scanned 0 0 start
  have zero (x : DWORD) : (0 : DWORD) + x = x := by simp
  simp only [Nat.zero_add, zero] at spec
  unfold countFree
  simp only [Scannable, if_neg aligned]
  exact spec

theorem countFree_ok {view : View} {fs : FATFS} :
    (countFree view fs).1 = .ok ↔ Scannable view fs := by
  by_cases packed : fs.fsType = some .fat12
  · unfold countFree Scannable
    rw [if_pos packed, if_pos packed]
    exact countPacked_ok _ 2 0
  · have spec : if Scannable view fs then _ else _ := countFree_aligned packed
    by_cases scannable : Scannable view fs
    · rw [if_pos scannable] at spec
      rw [spec]
      exact iff_of_true rfl scannable
    · rw [if_neg scannable] at spec
      rw [spec]
      exact iff_of_false nofun scannable

/-- A scan that comes to its end counts no more than the clusters exactly when the zero
entries do. -/
theorem countFree_le {view : View} {fs : FATFS} (sized : fs.Sized) (valid : fs.fsType.isSome)
    (scannable : Scannable view fs) :
    (countFree view fs).2.toNat ≤ fs.clusters ↔ Bounded view fs := by
  unfold Bounded
  have small := fs.nFatent.isLt
  by_cases packed : fs.fsType = some .fat12
  · have few := (sized valid).2.2 packed
    have clusters : fs.clusters = fs.nFatent.toNat - 3 + 1 := by
      unfold FATFS.clusters
      rw [BitVec.toNat_sub]
      simp
      omega
    have zero : (0 : DWORD).toNat = 0 := rfl
    have count : (countPacked view fs (fs.nFatent.toNat - 3 + 1) 2 0).2.toNat ≤ _ :=
      countPacked_le _ 2 0 (by omega)
    rw [zero, Nat.zero_add] at count
    unfold countFree
    rw [if_pos packed, clusters]
    exact iff_of_true count (.inl packed)
  · have spec : if Scannable view fs then _ else _ := countFree_aligned packed
    rw [if_pos scannable] at spec
    rw [spec, BitVec.toNat_ofNat]
    exact (or_iff_right packed).symm

/-! ## The figures -/

/-- The figures are those of `nclst` free clusters, and nothing has wrapped. -/
structure Right (fs : FATFS) (nclst : DWORD) (f : Figures) : Prop where
  totSect : fs.clusters * fs.csize.toNat < 2 ^ 32
  freSect : nclst.toNat * fs.csize.toNat < 2 ^ 32
  total : f.totalBytes.toNat = fs.clusters * fs.csize.toNat * 512
  free : f.freeBytes.toNat = nclst.toNat * fs.csize.toNat * 512
  within : f.freeBytes.toNat ≤ f.totalBytes.toNat
  used : f.usedBytes.toNat + f.freeBytes.toNat = f.totalBytes.toNat

/-- Bytes of `n` clusters, computed in 32 bits and then in 64. -/
theorem toNat_bytes {n : DWORD} {csize : WORD} (h : n.toNat * csize.toNat < 2 ^ 32) :
    ((n * csize.setWidth 32).setWidth 64 * 512 : QWORD).toNat = n.toNat * csize.toNat * 512 := by
  have sectors : (n * csize.setWidth 32).toNat = n.toNat * csize.toNat := by
    rw [BitVec.toNat_mul, BitVec.toNat_setWidth_of_le (by decide), Nat.mod_eq_of_lt h]
  rw [BitVec.toNat_mul, BitVec.toNat_setWidth_of_le (by decide), sectors]
  exact Nat.mod_eq_of_lt (by simp; omega)

theorem right_iff {fs : FATFS} (sized : fs.Sized) (valid : fs.fsType.isSome) (nclst : DWORD) :
    Right fs nclst (figures fs nclst) ↔ nclst.toNat ≤ fs.clusters := by
  obtain ⟨unit, sectors, -⟩ := sized valid
  have total : (figures fs nclst).totalBytes.toNat = fs.clusters * fs.csize.toNat * 512 :=
    toNat_bytes sectors
  constructor
  · intro right
    have within := right.within
    rw [right.free, right.total] at within
    have products := Nat.le_of_mul_le_mul_right within (by decide)
    exact Nat.le_of_mul_le_mul_right products unit
  · intro few
    have products := Nat.mul_le_mul_right fs.csize.toNat few
    have freSect : nclst.toNat * fs.csize.toNat < 2 ^ 32 := by omega
    have free : (figures fs nclst).freeBytes.toNat = nclst.toNat * fs.csize.toNat * 512 :=
      toNat_bytes freSect
    have within : (figures fs nclst).freeBytes.toNat ≤ (figures fs nclst).totalBytes.toNat := by
      omega
    have used : (figures fs nclst).usedBytes.toNat + (figures fs nclst).freeBytes.toNat =
        (figures fs nclst).totalBytes.toNat := by
      have exact_ : (figures fs nclst).usedBytes.toNat = (figures fs nclst).totalBytes.toNat -
          (figures fs nclst).freeBytes.toNat := BitVec.toNat_sub_of_le within
      omega
    exact ⟨sectors, freSect, total, free, within, used⟩

/-- No pointer to store to. -/
def Wanted.Nothing (w : Wanted) : Prop := w.free = false ∧ w.used = false ∧ w.total = false

instance (w : Wanted) : Decidable w.Nothing := by
  unfold Wanted.Nothing
  infer_instance

theorem outputs_empty (f : Figures) (w : Wanted) : f.outputs w = {} ↔ w.Nothing := by
  cases w with
  | mk free used total =>
    cases free <;> cases used <;> cases total <;> simp [Figures.outputs, Wanted.Nothing]

/-- `f_getfree_out` reads nothing that is not set; on an error it stores nothing; else the
figures are right for the count that `f_getfree` gives, and those wanted are stored. -/
def Exact (volumes : Nat) (n : BYTE) (w : Wanted) (a : Answers) (s : Volumes) : Prop :=
  ∃ res out s', fGetfreeOut volumes n w a s = some (res, out, s') ∧
    (res ≠ .ok → out = {}) ∧
    (res = .ok → ∃ nclst fs, fGetfree volumes (some (attachPath n)) a s = (.ok, some (nclst, fs), s') ∧
      Right fs nclst (figures fs nclst) ∧ out = (figures fs nclst).outputs w)

/-- The volume is found; and a count of its clusters is stored, or the scan comes to its
end and what it counts is bounded, or it fails and nothing is wanted. -/
def Countable (volumes : Nat) (n : BYTE) (w : Wanted) (a : Answers) (s : Volumes) : Prop :=
  match findVolume volumes (some (attachPath n)) 0 a s with
  | (.ok, some (_, fs), _) => fs.freeClst ≤ fs.nFatent - 2 ∨
      if Scannable a.view fs then Bounded a.view fs else w.Nothing
  | _ => False

/-! ## What `f_getfree` gives -/

variable {volumes : Nat} {s s' : Volumes}

theorem fGetfree_lost {path : Option (List TCHAR)} {a : Answers} {res : FRESULT}
    {found : Option (Nat × FATFS)} (ran : findVolume volumes path 0 a s = (res, found, s'))
    (lost : found = none ∨ res ≠ .ok) : fGetfree volumes path a s = (res, none, s') := by
  unfold fGetfree
  rw [ran]
  rcases lost with rfl | failed
  · cases res <;> rfl
  · cases res <;> first | rfl | exact absurd rfl failed

theorem fGetfree_stored {path : Option (List TCHAR)} {a : Answers} {vol : Nat} {fs : FATFS}
    (ran : findVolume volumes path 0 a s = (.ok, some (vol, fs), s'))
    (stored : fs.freeClst ≤ fs.nFatent - 2) :
    fGetfree volumes path a s = (.ok, some (fs.freeClst, fs), s') := by
  unfold fGetfree
  rw [ran]
  exact if_pos stored

/-- The object of a volume that has been scanned. -/
def FATFS.recount (fs : FATFS) (nfree : DWORD) : FATFS :=
  { fs with freeClst := nfree, fsiFlag := fs.fsiFlag ||| 1 }

theorem fGetfree_scanned {path : Option (List TCHAR)} {a : Answers} {vol : Nat} {fs : FATFS}
    (ran : findVolume volumes path 0 a s = (.ok, some (vol, fs), s'))
    (unstored : ¬ fs.freeClst ≤ fs.nFatent - 2) :
    fGetfree volumes path a s = ((countFree a.view fs).1,
      some ((countFree a.view fs).2, fs.recount (countFree a.view fs).2),
      Function.update s' vol (some (fs.recount (countFree a.view fs).2))) := by
  unfold fGetfree
  rw [ran]
  exact if_neg unstored

/-- What `f_getfree_out` makes of a count. -/
theorem exact_counted {n : BYTE} {w : Wanted} {a : Answers} {res : FRESULT} {nclst : DWORD}
    {fs : FATFS} (sized : fs.Sized) (valid : fs.fsType.isSome)
    (ran : fGetfree volumes (some (attachPath n)) a s = (res, some (nclst, fs), s')) :
    Exact volumes n w a s ↔ if res = .ok then nclst.toNat ≤ fs.clusters else w.Nothing := by
  have out : fGetfreeOut volumes n w a s = some (res, (figures fs nclst).outputs w, s') := by
    unfold fGetfreeOut
    rw [ran]
  unfold Exact
  rw [out, ran]
  by_cases counted : res = .ok
  · rw [if_pos counted, ← right_iff sized valid]
    constructor
    · rintro ⟨res', out', s'', same, -, figs⟩
      cases same
      obtain ⟨nclst', fs', got, right, -⟩ := figs counted
      cases got
      exact right
    · intro right
      refine ⟨res, _, s', rfl, fun failed => absurd counted failed, fun _ => ?_⟩
      rw [counted]
      exact ⟨nclst, fs, rfl, right, rfl⟩
  · rw [if_neg counted, ← outputs_empty (figures fs nclst)]
    constructor
    · rintro ⟨res', out', s'', same, empty, -⟩
      cases same
      exact empty counted
    · intro empty
      exact ⟨res, _, s', rfl, fun _ => empty, fun ok => absurd ok counted⟩

theorem not_exact {n : BYTE} {w : Wanted} {a : Answers} {res : FRESULT}
    (ran : fGetfree volumes (some (attachPath n)) a s = (res, none, s')) :
    ¬ Exact volumes n w a s := by
  rintro ⟨res', out, s'', got, -⟩
  unfold fGetfreeOut at got
  rw [ran] at got
  cases got

/-- On volumes that calls can come to, the figures of `f_getfree_out` are exact, or it
stores nothing, exactly when the volume is countable. -/
theorem exact_iff_countable (reach : Reachable volumes s) (n : BYTE) (w : Wanted) (a : Answers) :
    Exact volumes n w a s ↔ Countable volumes n w a s := by
  have reached : Reachable volumes (findVolume volumes (some (attachPath n)) 0 a s).2.2 :=
    .find _ _ a reach
  unfold Countable
  cases called : findVolume volumes (some (attachPath n)) 0 a s with
  | mk res rest =>
    obtain ⟨found, s'⟩ := rest
    rw [called] at reached
    cases found with
    | none =>
      cases res <;> exact iff_of_false (not_exact (fGetfree_lost called (.inl rfl))) not_false
    | some entry =>
      obtain ⟨vol, fs⟩ := entry
      by_cases mounted : res = .ok
      · subst mounted
        obtain ⟨here, valid⟩ := findVolume_entry called
        have sized : fs.Sized := reached.sized here
        by_cases stored : fs.freeClst ≤ fs.nFatent - 2
        · rw [exact_counted sized valid (fGetfree_stored called stored), if_pos rfl]
          exact iff_of_true stored (.inl stored)
        · have again : (fs.recount (countFree a.view fs).2).Sized := sized
          rw [exact_counted again valid (fGetfree_scanned called stored)]
          dsimp only
          rw [or_iff_right stored]
          by_cases scannable : Scannable a.view fs
          · rw [if_pos (countFree_ok.2 scannable), if_pos scannable]
            exact countFree_le sized valid scannable
          · rw [if_neg (fun ok => scannable (countFree_ok.1 ok)), if_neg scannable]
      · have failed : ¬ Exact volumes n w a s := not_exact (fGetfree_lost called (.inr mounted))
        cases res <;> first | exact iff_of_false failed not_false | exact absurd rfl mounted

instance (view : View) (fs : FATFS) : Decidable (Bounded view fs) :=
  inferInstanceAs (Decidable (_ ∨ _))

instance (n : BYTE) (w : Wanted) (a : Answers) : Decidable (Countable volumes n w a s) := by
  delta Countable
  split <;> infer_instance

/-- A boot sector with one sector to a cluster and one FAT. -/
def bootSector (fatSectors sectors : WORD) : Sector
  | 0 => 0xEB
  | 2 => 0x90
  | 12 => 0x02
  | 13 => 0x01
  | 14 => 0x01
  | 16 => 0x01
  | 17 => 0x10
  | 19 => sectors.setWidth 8
  | 20 => (sectors >>> 8).setWidth 8
  | 22 => fatSectors.setWidth 8
  | 54 => 0x46
  | 55 => 0x41
  | 56 => 0x54
  | 510 => 0x55
  | 511 => 0xAA
  | _ => 0

/-- A drive with such a boot sector and zeros behind it. -/
def zeroed (fatSectors sectors : WORD) : Answers where
  view sect := some (if sect = 0 then bootSector fatSectors sectors else fun _ => 0)

/-- Volume 0 registered, and not mounted. -/
def registered : Volumes := Function.update (fun _ => none) 0 (some {})

theorem exact_iff_countable_packed : Exact 1 0 ⟨true, true, true⟩ (zeroed 1 7) registered := by
  have reach : Reachable 1 registered := by
    apply Reachable.register 0 (some {}) .start
    rintro x ⟨⟩
    rfl
  exact (exact_iff_countable reach 0 _ _).2 (by decide +kernel)

theorem zeros_of_free {view : View} {fs : FATFS} {n : Nat}
    (all : ∀ k < n, freeEntry view fs k = true) : zeros view fs 0 n = n := by
  unfold zeros
  rw [List.countP_eq_length.2, List.length_range']
  intro k inside
  rw [List.mem_range'_1] at inside
  exact all k (by omega)

/-- A FAT of zeros for 4086 clusters, the reserved entries among them: 4088 clusters are
free. -/
theorem more_free_than_total :
    Reachable 1 registered ∧ ¬ Exact 1 0 ⟨true, true, true⟩ (zeroed 16 4104) registered := by
  constructor
  · apply Reachable.register 0 (some {}) .start
    rintro x ⟨⟩
    rfl
  · let fs := mounted (zeroed 16 4104).view 0 (bootSector 16 4104)
    have found : findVolume 1 (some (attachPath 0)) 0 (zeroed 16 4104) registered =
        (.ok, some (0, fs), Function.update (Function.update registered 0 (some {})) 0 (some fs)) := by
      rfl
    have accepted : Boot.Accepted (bootSector 16 4104) := by decide +kernel
    have sized : fs.Sized := sized_mounted _ 0 accepted
    have unstored : ¬ fs.freeClst ≤ fs.nFatent - 2 := by decide +kernel
    have aligned : fs.fsType = some .fat16 := by decide +kernel
    have entries : fs.scanned = 4088 := by decide +kernel
    have sectors : ∀ j : Fin 16, (zeroed 16 4104).view (fs.fatbase + BitVec.ofNat 32 j) =
        some fun _ => 0 := by
      intro j
      have beyond : fs.fatbase + BitVec.ofNat 32 j ≠ 0 := by
        revert j
        decide +kernel
      exact congrArg some (if_neg beyond)
    have entry (k : Nat) (inside : k < 4088) :
        (zeroed 16 4104).view (entrySector fs k) = some fun _ => 0 := by
      unfold entrySector perSector
      rw [aligned]
      exact sectors ⟨k / 256, by omega⟩
    have count : countFree (zeroed 16 4104).view fs = (.ok, 4088) := by
      have spec : if Scannable (zeroed 16 4104).view fs then _ else _ :=
        countFree_aligned (by rw [aligned]; decide)
      have scannable : Scannable (zeroed 16 4104).view fs := by
        unfold Scannable
        rw [aligned, if_neg (by decide), entries]
        intro j inside
        rw [entry j inside]
        rfl
      rw [if_pos scannable, entries, zeros_of_free] at spec
      · exact spec
      · intro k inside
        unfold freeEntry isFree
        rw [entry k inside, aligned]
        simp [ldWord]
    have again : (fs.recount (countFree (zeroed 16 4104).view fs).2).Sized := sized
    rw [exact_counted again rfl (fGetfree_scanned found unstored), count]
    decide +kernel

end FatFsParticle.Usage
