import FatFsParticle.Files.Volume

/-!
# Scanning directories

`scan_files` walks a directory with `f_opendir`, `f_readdir` and `f_closedir`, and enters
those the callback wants it to. All its calls share one static `FILINFO`. The volume, the
table of open objects and the callback are outside and may answer anything.
-/

namespace FatFsParticle.Scan
open Interact
open Files (FRESULT amDir)

/-- A path, or the name of a file, without its terminating zero. -/
abbrev Path := List BYTE

abbrev slash : BYTE := 0x2F

structure FILINFO where
  fsize : DWORD
  fdate : BitVec 16
  ftime : BitVec 16
  fattrib : BYTE
  fname : List BYTE
  deriving DecidableEq, Repr

/-- A directory entry on the disk. -/
structure Entry where
  /-- `DIR_Name`: eight bytes of the body and three of the extension. -/
  name : List BYTE
  attr : BYTE
  size : DWORD
  modTime : DWORD
  deriving DecidableEq, Repr

/-- `RDDEM`, which stands for `DDEM` on the disk. -/
abbrev rddem : BYTE := 0x05
abbrev ddem : BYTE := 0xE5

/-- The loop of `get_fileinfo` over the name, from its `i`-th byte on. -/
def copyName : Nat → List BYTE → List BYTE
  | _, [] => []
  | i, c :: name =>
    if c = 0x20 then copyName (i + 1) name
    else
      let c := if c = rddem then ddem else c
      if i = 8 then 0x2E :: c :: copyName (i + 1) name else c :: copyName (i + 1) name

/-- The name as a string, up to a zero in it. -/
def Entry.fname (e : Entry) : List BYTE := (copyName 0 e.name).takeWhile (· ≠ 0)

/-- What `get_fileinfo` fills in. -/
def Entry.info (e : Entry) : FILINFO where
  fsize := e.size
  fdate := e.modTime.extractLsb' 16 16
  ftime := e.modTime.setWidth 16
  fattrib := e.attr
  fname := e.fname

/-- `get_fileinfo`; there is no entry at the end of a directory. -/
def getFileinfo (entry : Option Entry) (fno : FILINFO) : FILINFO :=
  match entry with
  | none => { fno with fname := [] }
  | some e => e.info

/-- What `follow_path` comes to: the origin directory itself, or an entry. -/
structure Found where
  noname : Bool
  attr : BYTE
  sclust : DWORD
  deriving DecidableEq, Repr

/-- A directory object; `index` counts the entries read. -/
structure DIR where
  path : Path
  /-- `obj.fs` is not null. -/
  attached : Bool
  lockid : Nat
  index : Nat
  deriving DecidableEq, Repr

/-! ## The outside -/

/-- What the functions ask of the layers below them, and of the callback. `incLock`
answers 0 where the table of open objects is full. `dirRead` of the `index`-th entry
answers an entry or how it failed, `FR_NO_FILE` at the end. A callback answers with its
result and with what it leaves of its arguments. -/
inductive Outside where
  | findVolume (path : Path)
  | followPath (path : Path)
  | dirSdi (path : Path)
  | incLock (path : Path)
  | decLock (lockid : Nat)
  | validate (path : Path)
  | dirRead (path : Path) (index : Nat)
  | dirNext (path : Path) (index : Nat)
  | callback (path : Path) (fno : FILINFO)

abbrev Outside.Ans : Outside → Type
  | findVolume _ | dirSdi _ | decLock _ | validate _ | dirNext _ _ => FRESULT
  | followPath _ => FRESULT × Found
  | incLock _ => Nat
  | dirRead _ _ => Except FRESULT Entry
  | callback _ _ => Bool × Path × FILINFO

inductive Call where
  | opendir | readdir
  deriving DecidableEq, Repr

/-- Where an entry is: its index in its directory, and then the indices of the entries that
led there, the last one first. A directory is where its entry is, the one that a scan
begins with at `[]`. -/
abbrev Place := List Nat

/-- A call of the callback: where the entry is, what was handed over, the answer, and the
attributes that are left in the record. -/
structure Visit where
  place : Place
  path : Path
  entry : FILINFO
  answer : Bool
  left : BYTE
  deriving DecidableEq, Repr

/-- What a program asks for. `returned` and `visited` are no code: they note in the log how
a call ended that `scan_files` made, with the place of the directory or of the entry and
the path of the directory, and what the callback did. -/
inductive Request where
  | outside (o : Outside)
  | returned (c : Call) (place : Place) (path : Path) (res : FRESULT)
  | visited (v : Visit)

abbrev Request.Ans : Request → Type
  | outside o => o.Ans
  | returned _ _ _ _ | visited _ => Unit

abbrev Prog := Program Request.Ans

def ask (o : Outside) : Prog o.Ans := Program.request (Request.outside o)

def returned (c : Call) (place : Place) (path : Path) (res : FRESULT) : Prog Unit :=
  Program.request (Request.returned c place path res)

def visited (v : Visit) : Prog Unit := Program.request (Request.visited v)

/-! ## Directories -/

def fOpendir (path : Path) : Prog (FRESULT × DIR) := do
  let closed : DIR := { path := path, attached := false, lockid := 0, index := 0 }
  let res ← ask (.findVolume path)
  if res ≠ .ok then pure (res, closed)
  else do
    let (res, obj) ← ask (.followPath path)
    if res ≠ .ok then pure (if res = .noFile then .noPath else res, closed)
    else if !obj.noname ∧ obj.attr &&& amDir = 0 then pure (.noPath, closed)
    else do
      let res ← ask (.dirSdi path)
      if res ≠ .ok then pure (if res = .noFile then .noPath else res, closed)
      else if obj.sclust ≠ 0 then do
        let lockid ← ask (.incLock path)
        if lockid = 0 then pure (.tooManyOpenFiles, closed)
        else pure (.ok, { closed with attached := true, lockid := lockid })
      else pure (.ok, { closed with attached := true })

/-- `validate`. -/
def validate (dp : DIR) : Prog FRESULT :=
  if dp.attached then ask (.validate dp.path) else pure .invalidObject

/-- The end of a directory is no error. -/
def ignoreEnd (res : FRESULT) : FRESULT := if res = .noFile then .ok else res

/-- `f_readdir` with a record to fill in. -/
def fReaddir (dp : DIR) (fno : FILINFO) : Prog (FRESULT × DIR × FILINFO) := do
  let res ← validate dp
  if res ≠ .ok then pure (res, dp, fno)
  else do
    let item ← ask (.dirRead dp.path dp.index)
    match item with
    | .ok entry => do
      let fno := getFileinfo (some entry) fno
      let res ← ask (.dirNext dp.path dp.index)
      pure (ignoreEnd res, { dp with index := dp.index + 1 }, fno)
    | .error res =>
      -- `dir_next` finds no sector and reports the end, which is ignored again
      if ignoreEnd res ≠ .ok then pure (ignoreEnd res, dp, fno)
      else pure (.ok, dp, getFileinfo none fno)

def fClosedir (dp : DIR) : Prog FRESULT := do
  let res ← validate dp
  if res ≠ .ok then pure res
  else if dp.lockid ≠ 0 then ask (.decLock dp.lockid) else pure .ok

/-! ## scan_files -/

/-- The loop of `scan_files`, cut off after some turns; `enter` is the call that it makes
for a directory. -/
def scanLoop (enter : Place → Path → FILINFO → Prog (FRESULT × FILINFO)) (place : Place) (path : Path) :
    Nat → DIR → FILINFO → Prog (FRESULT × DIR × FILINFO)
  | 0, _, _ => .stuck
  | turns + 1, dir, fno => do
    let here := dir.index :: place
    let (res, dir, fno) ← fReaddir dir fno
    returned .readdir here path res
    if res ≠ .ok ∨ fno.fname = [] then pure (res, dir, fno)
    else do
      let nextPath := path ++ slash :: fno.fname
      let entry := fno
      let (result, nextPath, fno) ← ask (.callback nextPath fno)
      visited
        { place := here
          path := path ++ slash :: entry.fname
          entry := entry
          answer := result
          left := fno.fattrib }
      if fno.fattrib &&& amDir ≠ 0 then
        if result then do
          let (res, fno) ← enter here nextPath fno
          -- `FR_INVALID_NAME` stands alone in the condition, and is not 0
          if !(res = .ok ∨ FRESULT.invalidName ≠ .ok) then pure (res, dir, fno)
          else scanLoop enter place path turns dir fno
        else scanLoop enter place path turns dir fno
      else if !result then pure (res, dir, fno)
      else scanLoop enter place path turns dir fno

/-- `scan_files` on the static record `fno`: the result and what is left in the record. -/
def scanFiles : Nat → Place → Path → FILINFO → Prog (FRESULT × FILINFO)
  | 0, _, _, _ => .stuck
  | turns + 1, place, path, fno => do
    let (res, dir) ← fOpendir path
    returned .opendir place path res
    if res = .ok then do
      let (res, dir, fno) ← scanLoop (scanFiles turns) place path turns dir fno
      let _ ← fClosedir dir
      pure (res, fno)
    else pure (res, fno)

/-! ## Runs -/

/-- An answer from outside, or a note. -/
inductive Event where
  | answered (o : Outside) (a : o.Ans)
  | returned (c : Call) (place : Place) (path : Path) (res : FRESULT)
  | visited (v : Visit)

variable {σ : Type}

/-- The outside and a log of what happened, newest first. -/
structure World (σ : Type) where
  log : List Event
  env : σ

/-- How the outside answers. -/
abbrev Host (σ : Type) := (o : Outside) → σ → o.Ans × σ

def World.handle (host : Host σ) : (r : Request) → World σ → r.Ans × World σ
  | .outside o, w =>
    ((host o w.env).1, { log := .answered o (host o w.env).1 :: w.log, env := (host o w.env).2 })
  | .returned c place path res, w => ((), { w with log := .returned c place path res :: w.log })
  | .visited v, w => ((), { w with log := .visited v :: w.log })

/-- `p` from the world `w`; `none` when a loop uses up its bound. -/
def exec {α : Type} (host : Host σ) (p : Prog α) (w : World σ) : Option (α × World σ) :=
  p.run (World.handle host) w

end FatFsParticle.Scan
