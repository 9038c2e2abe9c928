import FatFsParticle.Fat.Chains

/-!
# Directory tables

A directory is a table of entries of 32 bytes: the static root of a FAT12 or FAT16 volume,
or the clusters of a chain. A directory object walks along it, from entry to entry with
`dir_next`, which puts a cluster to the end of the chain and fills it with zeros if it is
told to stretch the table. Entries are looked for, registered and removed in the window.
-/

namespace FatFsParticle.Dirs
open Interact Program Fat
open Files (FRESULT)
open Drives (FatType)
open Usage (Sector)
open Times (dirAttr)

/-- The first eleven bytes of an entry: body and extension. -/
abbrev Name := Fin 11 → BYTE

/-- Bytes of a table at most. -/
abbrev maxDir : DWORD := 0x200000

/-- The first byte of an entry that has been removed. -/
abbrev ddem : BYTE := 0xE5

abbrev amVol : BYTE := 0x08
abbrev amLfn : BYTE := 0x0F
abbrev amMask : BYTE := 0x3F

/-- A directory object. `sclust` and `attr` are members of `obj`, and `fn` is the name that
is looked for. -/
structure DIR where
  sclust : DWORD
  attr : BYTE
  fn : Name
  dptr : DWORD
  clust : DWORD
  sect : DWORD

/-- `dp->dir`, as an offset into the window. -/
def DIR.dir (dp : DIR) : Nat := (dp.dptr % 512).toNat

/-! ## dir_sdi -/

/-- The loop along the chain, cut off after some turns: the cluster, and the offset in it. -/
def sdiLoop (csz : DWORD) : Nat → FATFS → DWORD → DWORD → Prog (Except FRESULT (DWORD × DWORD) × FATFS)
  | 0, _, _, _ => .stuck
  | turns + 1, fs, clst, ofs =>
    if csz ≤ ofs then do
      let (clst, fs) ← getFat fs clst
      if clst = 0xFFFFFFFF then pure (.error .diskErr, fs)
      else if clst < 2 ∨ fs.nFatent ≤ clst then pure (.error .intErr, fs)
      else sdiLoop csz turns fs clst (ofs - csz)
    else pure (.ok (clst, ofs), fs)

/-- The end of `dir_sdi`. -/
def DIR.set (dp : DIR) (clst sect ofs : DWORD) : FRESULT × DIR :=
  let dp := { dp with clust := clst, sect := sect }
  if sect = 0 then (.intErr, dp) else (.ok, { dp with sect := sect + ofs / 512 })

/-- No cluster has less than 512 bytes, which bounds the turns. -/
def dirSdi (fs : FATFS) (dp : DIR) (ofs : DWORD) : Prog (FRESULT × FATFS × DIR) :=
  if maxDir ≤ ofs ∨ ofs % 32 ≠ 0 then pure (.intErr, fs, dp)
  else
    let dp := { dp with dptr := ofs }
    let clst := if dp.sclust = 0 ∧ fs.fsType = .fat32 then fs.dirbase else dp.sclust
    if clst = 0 then
      if fs.nRootdir.setWidth 32 ≤ ofs / 32 then pure (.intErr, fs, dp)
      else
        let (res, dp) := dp.set clst fs.dirbase ofs
        pure (res, fs, dp)
    else do
      let csz : DWORD := fs.csize.setWidth 32 * 512
      let (at_, fs) ← sdiLoop csz (ofs.toNat / 512 + 1) fs clst ofs
      match at_ with
      | .error res => pure (res, fs, dp)
      | .ok (clst, ofs) =>
        let (res, dp) := dp.set clst (clust2sect fs.toLayout clst) ofs
        pure (res, fs, dp)

/-! ## dir_next -/

/-- The loop that fills a cluster with the zeros in the window. -/
def zeroLoop : Nat → FATFS → Prog (Bool × FATFS)
  | 0, fs => pure (true, fs)
  | n + 1, fs => do
    let (res, fs) ← syncWindow { fs with wflag := true }
    if res ≠ .ok then pure (false, fs)
    else zeroLoop n { fs with winsect := fs.winsect + 1 }

/-- A new cluster filled with zeros. -/
def cleanCluster (fs : FATFS) (clst : DWORD) : Prog (Bool × FATFS) := do
  let (res, fs) ← syncWindow fs
  if res ≠ .ok then pure (false, fs)
  else do
    let n := fs.csize.toNat
    let (ok, fs) ← zeroLoop n { fs with win := fun _ => 0, winsect := clust2sect fs.toLayout clst }
    if !ok then pure (false, fs)
    else pure (true, { fs with winsect := fs.winsect - BitVec.ofNat 32 n })

/-- The cluster behind that of `dp`, where a new one may be put to the end if `stretch`
is set. -/
def nextCluster (fs : FATFS) (dp : DIR) (stretch : Bool) :
    Prog (Except (FRESULT × DIR) DWORD × FATFS) := do
  let (clst, fs) ← getFat fs dp.clust
  if clst ≤ 1 then pure (.error (.intErr, dp), fs)
  else if clst = 0xFFFFFFFF then pure (.error (.diskErr, dp), fs)
  else if fs.nFatent ≤ clst then
    if !stretch then pure (.error (.noFile, { dp with sect := 0 }), fs)
    else do
      let (clst, fs) ← createChain fs dp.clust
      if clst = 0 then pure (.error (.denied, dp), fs)
      else if clst = 1 then pure (.error (.intErr, dp), fs)
      else if clst = 0xFFFFFFFF then pure (.error (.diskErr, dp), fs)
      else do
        let (ok, fs) ← cleanCluster fs clst
        pure (if ok then .ok clst else .error (.diskErr, dp), fs)
  else pure (.ok clst, fs)

def dirNext (fs : FATFS) (dp : DIR) (stretch : Bool) : Prog (FRESULT × FATFS × DIR) :=
  let ofs := dp.dptr + 32
  if dp.sect = 0 ∨ maxDir ≤ ofs then pure (.noFile, fs, dp)
  else if ofs % 512 = 0 then
    let dp := { dp with sect := dp.sect + 1 }
    if dp.clust = 0 then
      if fs.nRootdir.setWidth 32 ≤ ofs / 32 then pure (.noFile, fs, { dp with sect := 0 })
      else pure (.ok, fs, { dp with dptr := ofs })
    else if ofs / 512 &&& (fs.csize.setWidth 32 - 1) = 0 then do
      let (next, fs) ← nextCluster fs dp stretch
      match next with
      | .error (res, dp) => pure (res, fs, dp)
      | .ok clst =>
        pure (.ok, fs, { dp with clust := clst, sect := clust2sect fs.toLayout clst, dptr := ofs })
    else pure (.ok, fs, { dp with dptr := ofs })
  else pure (.ok, fs, { dp with dptr := ofs })

/-! ## Entries -/

/-- The entry at `p` of a sector. -/
def cell (win : Sector) (p : Nat) : Fin 32 → BYTE := fun j => win (p + j)

/-- The first byte of an entry. -/
abbrev mark (e : Fin 32 → BYTE) : BYTE := e 0

abbrev attrib (e : Fin 32 → BYTE) : BYTE := e 11

/-- `mem_cmp` of the name. -/
def named (name : Name) (e : Fin 32 → BYTE) : Bool := decide (∀ j : Fin 11, e (j.castLE (by decide)) = name j)

/-- More turns than a table has entries. -/
abbrev entries : Nat := maxDir.toNat / 32

/-- The loop of `dir_alloc`, where `n` free entries have been seen in a row. -/
def allocLoop (nent : Nat) : Nat → FATFS → DIR → Nat → Prog (FRESULT × FATFS × DIR)
  | 0, _, _, _ => .stuck
  | turns + 1, fs, dp, n => do
    let (res, fs) ← moveWindow fs dp.sect
    if res ≠ .ok then pure (res, fs, dp)
    else
      let c := fs.win dp.dir
      let free : Bool := c = ddem ∨ c = 0
      let n := if free then n + 1 else 0
      if free ∧ n = nent then pure (.ok, fs, dp)
      else do
        let (res, fs, dp) ← dirNext fs dp true
        if res ≠ .ok then pure (res, fs, dp) else allocLoop nent turns fs dp n

def dirAlloc (fs : FATFS) (dp : DIR) (nent : Nat) : Prog (FRESULT × FATFS × DIR) := do
  let (res, fs, dp) ← dirSdi fs dp 0
  let (res, fs, dp) ← (if res = .ok then allocLoop nent entries fs dp 0 else pure (res, fs, dp))
  pure (if res = .noFile then .denied else res, fs, dp)

/-- The loop of `dir_find`. -/
def findLoop : Nat → FATFS → DIR → Prog (FRESULT × FATFS × DIR)
  | 0, _, _ => .stuck
  | turns + 1, fs, dp => do
    let (res, fs) ← moveWindow fs dp.sect
    if res ≠ .ok then pure (res, fs, dp)
    else
      let e := cell fs.win dp.dir
      if e 0 = 0 then pure (.noFile, fs, dp)
      else
        let dp := { dp with attr := e 11 &&& amMask }
        if e 11 &&& amVol = 0 ∧ named dp.fn e then pure (.ok, fs, dp)
        else do
          let (res, fs, dp) ← dirNext fs dp false
          if res ≠ .ok then pure (res, fs, dp) else findLoop turns fs dp

def dirFind (fs : FATFS) (dp : DIR) : Prog (FRESULT × FATFS × DIR) := do
  let (res, fs, dp) ← dirSdi fs dp 0
  if res ≠ .ok then pure (res, fs, dp) else findLoop entries fs dp

/-- An entry that `dir_read` stops at. -/
def valid (vol : Bool) (e : Fin 32 → BYTE) : Bool :=
  let a := e 11 &&& amMask
  e 0 ≠ ddem ∧ e 0 ≠ 0x2E ∧ a ≠ amLfn ∧ decide (a &&& ~~~Times.amArc = amVol) = vol

/-- The loop of `dir_read`, which returns `res` where it does not turn any more. -/
def readLoop (vol : Bool) : Nat → FATFS → DIR → FRESULT → Prog (FRESULT × FATFS × DIR)
  | 0, _, _, _ => .stuck
  | turns + 1, fs, dp, res =>
    if dp.sect = 0 then pure (res, fs, dp)
    else do
      let (res, fs) ← moveWindow fs dp.sect
      if res ≠ .ok then pure (res, fs, dp)
      else
        let e := cell fs.win dp.dir
        if e 0 = 0 then pure (.noFile, fs, dp)
        else
          let dp := { dp with attr := e 11 &&& amMask }
          if valid vol e then pure (.ok, fs, dp)
          else do
            let (res, fs, dp) ← dirNext fs dp false
            if res ≠ .ok then pure (res, fs, dp) else readLoop vol turns fs dp res

def dirRead (fs : FATFS) (dp : DIR) (vol : Bool) : Prog (FRESULT × FATFS × DIR) := do
  let (res, fs, dp) ← readLoop vol entries fs dp .noFile
  pure (res, fs, if res ≠ .ok then { dp with sect := 0 } else dp)

/-- The entry at `p` replaced. -/
def putCell (win : Sector) (p : Nat) (e : Fin 32 → BYTE) : Sector :=
  fun q => if h : p ≤ q ∧ q - p < 32 then e ⟨q - p, h.2⟩ else win q

/-- A new entry with nothing but its name. -/
def newEntry (name : Name) : Fin 32 → BYTE := fun j => if h : j.val < 11 then name ⟨j, h⟩ else 0

/-- The second half of `dir_register`. -/
def putEntry (fs : FATFS) (dp : DIR) : Prog (FRESULT × FATFS × DIR) := do
  let (res, fs) ← moveWindow fs dp.sect
  if res ≠ .ok then pure (res, fs, dp)
  else pure (.ok, fs.modify (putCell fs.win dp.dir (newEntry dp.fn)), dp)

def dirRegister (fs : FATFS) (dp : DIR) : Prog (FRESULT × FATFS × DIR) := do
  let (res, fs, dp) ← dirAlloc fs dp 1
  if res ≠ .ok then pure (res, fs, dp) else putEntry fs dp

def dirRemove (fs : FATFS) (dp : DIR) : Prog (FRESULT × FATFS) := do
  let (res, fs) ← moveWindow fs dp.sect
  if res ≠ .ok then pure (res, fs)
  else pure (.ok, fs.modify (Function.update fs.win dp.dir ddem))

end FatFsParticle.Dirs
