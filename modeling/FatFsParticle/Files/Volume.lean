import FatFsParticle.Diskio
import FatFsParticle.Interact.Logic
import FatFsParticle.Cells.Slice

/-!
# Files and file objects

What `ff.c` keeps of files: the directory entry and the cluster chain of a file, the
file objects with their sector buffers, the table of open objects. The disk, the FAT
and the directories are outside and may answer anything; a file that is named `n` is
the directory entry that a path leads to, or would get.
-/

namespace FatFsParticle.Files
open Interact Cells

inductive FRESULT where
  | ok | diskErr | intErr | notReady | noFile | noPath | invalidName | denied | exist
  | invalidObject | writeProtected | invalidDrive | notEnabled | noFilesystem | mkfsAborted
  | timeout | locked | notEnoughCore | tooManyOpenFiles | invalidParameter
  deriving DecidableEq, Repr

/-! Access modes and flags of a file object, attributes of a directory entry. -/

abbrev faRead : BYTE := 0x01
abbrev faWrite : BYTE := 0x02
abbrev faCreateNew : BYTE := 0x04
abbrev faCreateAlways : BYTE := 0x08
abbrev faOpenAlways : BYTE := 0x10
abbrev faSeekend : BYTE := 0x20
abbrev faOpenAppend : BYTE := 0x30
abbrev faModified : BYTE := 0x40
abbrev faDirty : BYTE := 0x80

abbrev amRdo : BYTE := 0x01
abbrev amDir : BYTE := 0x10
abbrev amArc : BYTE := 0x20

/-- `_FS_LOCK`: how many objects can be open at a time. -/
abbrev fsLock : Nat := 10

/-- Bytes of a sector, `SS(fs)`. -/
abbrev ss : Nat := 512

/-- A file on its volume: attributes and size of its directory entry, the length of the
chain the entry points to, what the clusters of the chain hold, and the counter of the
objects that have it open, 0x100 for a writer. An entry that is new or was changed is in
the window of the volume until the window is written; `disk` is the size that the entry
has on the disk, none where the disk has no entry. -/
structure Node where
  attr : BYTE
  size : DWORD
  clusters : Nat
  data : Nat → BYTE
  ctr : Nat
  disk : Option Nat

namespace Node

/-- What somebody who opens the file finds in it. -/
def contents (n : Node) : List BYTE := slice n.data 0 n.size.toNat

/-- How many bytes of it the entry on the disk has. -/
def covered (n : Node) : Option Nat := n.disk.map (min n.size.toNat)

/-- Whether these are all: whether the entry on the disk is that in the window. -/
def entered (n : Node) : Bool := n.covered == some n.size.toNat

/-- The file with its entry written to the disk. -/
def enter (n : Node) : Node := { n with disk := some n.size.toNat }

@[simp] theorem enter_covered (n : Node) : n.enter.covered = some n.size.toNat :=
  congrArg some (Nat.min_self _)

theorem covered_le {n : Node} {k : Nat} (h : n.covered = some k) : k ≤ n.size.toNat := by
  obtain ⟨size, -, rfl⟩ := Option.map_eq_some_iff.1 h
  exact Nat.min_le_left _ _

theorem entered_iff {n : Node} : n.entered = true ↔ n.covered = some n.size.toNat := beq_iff_eq

end Node

variable {Name : Type}

/-- The files, sectors per cluster of the volume each one is on, what unused clusters
hold, and how many entries of the table of open objects are in use. -/
structure Volume (Name : Type) where
  csize : Name → Nat
  csize_pos : ∀ n, 0 < csize n
  node : Name → Option Node
  scrap : Nat → BYTE
  entries : Nat

namespace Volume

variable [DecidableEq Name] (v : Volume Name) (n : Name)

def setNode (f : Node) : Volume Name := { v with node := Function.update v.node n (some f) }

/-- What somebody who opens `n` finds in it, if there is such a file. -/
def contents : Option (List BYTE) := (v.node n).map Node.contents

/-- How many bytes of `n` its entry on the disk has, if it is there. -/
def covered : Option Nat := (v.node n).bind Node.covered

/-- Whether `n` is there, and its entry is on the disk as it is in the window. -/
def entered : Bool := (v.node n).elim false Node.entered

/-- Whether the window has an entry of `n` that the disk has not. -/
def pending : Bool := (v.node n).elim false fun f => !f.entered

/-- Bytes of the file, none for a missing one. -/
def size : Nat := (v.node n).elim 0 fun f => f.size.toNat

/-- How often `n` is open. -/
def ctr : Nat := (v.node n).elim 0 Node.ctr

/-- The sectors of the chain that the file object of `n` follows. -/
def data : Nat → BYTE := (v.node n).elim v.scrap Node.data

/-- The content of `n` on the disk, if its entry is there. -/
def stored : Option (List BYTE) := (v.covered n).map (slice (v.data n) 0)

/-- Bytes written into the chain. -/
def writeData (off : Nat) (bytes : List BYTE) : Volume Name :=
  match v.node n with
  | some f => v.setNode n { f with data := put f.data off bytes }
  | none => v

/-- The window with the entry of `n` written. -/
def enter : Volume Name :=
  match v.node n with
  | some f => v.setNode n f.enter
  | none => v

/-- A cluster put to the end of the chain; an entry without a chain does not see it. The
window went to the FAT for it. -/
def stretch : Volume Name :=
  match v.node n with
  | some f =>
    v.setNode n (Node.enter { f with clusters := if f.clusters = 0 then 0 else f.clusters + 1 })
  | none => v

/-- What `f_sync` puts into the directory entry, in the window. -/
def record (size clusters : Nat) : Volume Name :=
  match v.node n with
  | some f =>
    v.setNode n { f with
      attr := f.attr ||| amArc
      size := BitVec.ofNat 32 size
      clusters := clusters
      disk := f.covered }
  | none => v

end Volume

/-- A file object. `fp->clust` is the cluster that `fptr` is in, or has just left, and
`sect` the number of the buffered sector within the file. -/
structure FIL (Name : Type) where
  name : Name
  /-- `obj.fs` is not null. -/
  attached : Bool
  csize : Nat
  flag : BYTE
  err : FRESULT
  fptr : Nat
  objsize : Nat
  /-- Clusters of the chain from `obj.sclust` on; 0 for no chain. -/
  clusters : Nat
  sect : Option Nat
  buf : Nat → BYTE

namespace FIL

/-- Bytes of a cluster. -/
def bcs (fp : FIL Name) : Nat := fp.csize * ss

def has (fp : FIL Name) (bit : BYTE) : Bool := fp.flag &&& bit != 0
def set (fp : FIL Name) (bit : BYTE) : FIL Name := { fp with flag := fp.flag ||| bit }
def clear (fp : FIL Name) (bit : BYTE) : FIL Name := { fp with flag := fp.flag &&& ~~~bit }

end FIL

/-! ## The outside -/

/-- An assertion of the FAT code that failed, or an access to the disk. -/
inductive Fault where
  | int | disk
  deriving DecidableEq, Repr

def Fault.result : Fault → FRESULT
  | int => .intErr
  | disk => .diskErr

/-- How `create_chain` ends where the chain ends: one cluster longer, the disk full, or
with a fault. -/
inductive Chain where
  | done
  | full
  | fault (f : Fault)
  deriving DecidableEq, Repr

/-- What the file functions ask of the layers below them. `followPath` leads to a
directory entry or to a place for one. `diskWrite` of `count` sectors answers how many
were written before it failed, if it did; `syncFs`, whether the entry was; `window`,
whether an entry was when other sectors took its place in the window. The callback of a
log handler is outside, too. -/
inductive Outside (Name : Type) where
  | findVolume (n : Name)
  | followPath (n : Name)
  | dirRegister (n : Name)
  | removeChain (n : Name)
  | validate (n : Name)
  | getFat (n : Name)
  | createChain (n : Name)
  | diskRead (n : Name)
  | diskWrite (n : Name) (count : Nat)
  | window (n : Name)
  | moveWindow (n : Name)
  | syncFs (n : Name)
  | diskIoctl (n : Name) (cmd : BYTE)
  | errorCallback (res : FRESULT)

abbrev Outside.Ans : Outside Name → Type
  | findVolume _ | dirRegister _ | removeChain _ | validate _ => FRESULT
  | followPath _ => { r : FRESULT // r ≠ .noFile }
  | getFat _ => Option Fault
  | createChain _ => Chain
  | diskRead _ | window _ | moveWindow _ | errorCallback _ => Bool
  | diskWrite _ _ => Option Nat
  | syncFs _ => Option Bool
  | diskIoctl _ _ => DRESULT × Option DWORD

/-- The file functions. -/
inductive Call where
  | open_ | read | write | sync | close | lseek
  deriving DecidableEq, Repr

/-- What a program asks for. `load` and `store` are accesses to what `ff.c` keeps of
files; `returned` is no code: it notes in the log how a call of a file function ended,
with the value of `*br` or `*bw`. -/
inductive Request (Name : Type) where
  | load
  | store (f : Volume Name → Volume Name)
  | outside (o : Outside Name)
  | returned (c : Call) (n : Name) (res : FRESULT) (count : Nat)

abbrev Request.Ans : Request Name → Type
  | load => Volume Name
  | store _ => Unit
  | outside o => o.Ans
  | returned _ _ _ _ => Unit

abbrev Prog (Name : Type) := Program (@Request.Ans Name)

def load : Prog Name (Volume Name) := Program.request Request.load
def store (f : Volume Name → Volume Name) : Prog Name Unit := Program.request (Request.store f)
def ask (o : Outside Name) : Prog Name o.Ans := Program.request (Request.outside o)
def returned (c : Call) (n : Name) (res : FRESULT) (count : Nat) : Prog Name Unit :=
  Program.request (Request.returned c n res count)

/-- `p`, and a note of how it ended. -/
def noted {α : Type} (c : Call) (n : Name) (out : α → FRESULT × Nat) (p : Prog Name α) :
    Prog Name α := do
  let a ← p
  returned c n (out a).1 (out a).2
  pure a

/-- An answer from outside, or the end of a file function. -/
inductive Event (Name : Type) where
  | answered (o : Outside Name) (a : o.Ans)
  | returned (c : Call) (n : Name) (res : FRESULT) (count : Nat)

/-- Files with the outside, and a log of what happened, newest first. -/
structure World (Name σ : Type) where
  vol : Volume Name
  log : List (Event Name)
  env : σ

/-- How the outside answers. -/
abbrev Host (Name σ : Type) := (o : Outside Name) → σ → o.Ans × σ

variable {σ : Type}

def World.handle (host : Host Name σ) : (r : Request Name) → World Name σ → r.Ans × World Name σ
  | .load, w => (w.vol, w)
  | .store f, w => ((), { w with vol := f w.vol })
  | .outside o, w =>
    ((host o w.env).1, { w with log := .answered o (host o w.env).1 :: w.log, env := (host o w.env).2 })
  | .returned c n res count, w => ((), { w with log := .returned c n res count :: w.log })

/-- `p` from the world `w`; `none` when a loop uses up its bound. -/
def exec {α : Type} (host : Host Name σ) (p : Prog Name α) (w : World Name σ) :
    Option (α × World Name σ) :=
  p.run (World.handle host) w

end FatFsParticle.Files
