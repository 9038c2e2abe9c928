import FatFsParticle.Locks.Semaphores
import FatFsParticle.Cells.Census
import FatFsParticle.Interact.Trace

/-!
# Objects opened and closed

Objects remember the mount that they were opened in and the entry they are counted in.
As long as less than 256 readers have an object open, and no object has been kept open
over 65536 mounts, the table tells the truth about the objects that are valid: no file is
open for writing while somebody else has it open, and one that `chk_lock` lets be removed
is not open at all. An open that fails after its entry was counted is counted for good.
-/

namespace FatFsParticle.Locks
open Files (FRESULT fsLock)
open Cells Interact

variable {V H : Type}

/-- What an open file or directory object remembers. Its `fs`, `id` and `lockid` are the
members of `obj`; `lockid` is 0 for the root directory. -/
structure Handle (V : Type) where
  key : Key V
  write : Bool
  id : WORD
  lockid : Nat

/-- The table, the last mount ID, the IDs of the volumes that are mounted, and the objects. -/
structure Session (V H : Type) where
  files : Table V
  fsid : WORD
  vol : V → Option WORD
  handle : H → Option (Handle V)

/-- Calls of the file functions; `late` is how `f_open` fails behind `inc_lock`, in the seek
to the end of a file that was there, if it does. `drop` is what a failed mount and `f_mkfs`
do, `fs_type` set to 0. -/
inductive Call (V H : Type) where
  | openFile (h : H) (k : Key V) (write : Bool) (late : Option FRESULT)
  | createFile (h : H) (k : Key V)
  | openDir (h : H) (k : Key V)
  | openRoot (h : H) (fs : V)
  | close (h : H)
  | remove (k : Key V)
  | mount (fs : V)
  | unmount (fs : V)
  | drop (fs : V)

/-- `validate`. -/
def Session.Valid (s : Session V H) (a : Handle V) : Bool := s.vol a.key.fs = some a.id

section
variable [DecidableEq V] [DecidableEq H]

/-- From `inc_lock` on, with what is returned where it fails. -/
def Session.keep (s : Session V H) (h : H) (k : Key V) (write : Bool) (refused : FRESULT)
    (late : Option FRESULT) : FRESULT × Session V H :=
  let (lockid, files) := incLock s.files k (if write then 1 else 0)
  if lockid = 0 then (refused, { s with files })
  else match late with
    | some res => (res, { s with files })
    | none => (.ok, { s with
        files
        handle := Function.update s.handle h (some { key := k, write, id := (s.vol k.fs).getD 0, lockid }) })

def Session.perform (s : Session V H) : Call V H → FRESULT × Session V H
  | .openFile h k write late =>
    let res := chkLock s.files k (if write then 1 else 0)
    if res ≠ .ok then (res, s) else s.keep h k write .intErr late
  | .createFile h k =>
    if !enqLock s.files then (.tooManyOpenFiles, s) else s.keep h k true .intErr none
  | .openDir h k => s.keep h k false .tooManyOpenFiles none
  | .openRoot h fs =>
    (.ok, { s with
      handle := Function.update s.handle h
        (some { key := ⟨fs, 0, 0⟩, write := false, id := (s.vol fs).getD 0, lockid := 0 }) })
  | .close h =>
    match s.handle h with
    | none => (.invalidObject, s)
    | some a =>
      if !s.Valid a then (.invalidObject, s)
      else if a.lockid = 0 then (.ok, { s with handle := Function.update s.handle h none })
      else
        let (res, files) := decLock s.files a.lockid
        (res, { s with
          files, handle := if res = .ok then Function.update s.handle h none else s.handle })
  | .remove k => (chkLock s.files k 2, s)
  | .mount fs =>
    (.ok, { s with
      files := clearLock s.files fs, fsid := s.fsid + 1
      vol := Function.update s.vol fs (some (s.fsid + 1)) })
  | .unmount fs =>
    (.ok, { s with files := clearLock s.files fs, vol := Function.update s.vol fs none })
  | .drop fs => (.ok, { s with vol := Function.update s.vol fs none })

end

/-- The key of an open sub-directory. The entry at the top of a sub-directory is that of
the directory itself, so no file has such a key. -/
def Key.IsDir (k : Key V) : Prop := k.ofs = 0 ∧ k.clu ≠ 0

/-- Less than 255 readers are counted. -/
def Session.Room (s : Session V H) (k : Key V) : Prop := ∀ i, (s.files i).Is k → (s.files i).ctr ≠ 0xFF

/-- Calls that may be made: objects are opened blank and on mounted volumes, and mount IDs
do not come again while objects with them are around. -/
def Session.Legal (s : Session V H) : Call V H → Prop
  | .openFile h k write _ =>
    s.handle h = none ∧ (s.vol k.fs).isSome ∧ ¬k.IsDir ∧ (write = false → s.Room k)
  | .createFile h k => s.handle h = none ∧ (s.vol k.fs).isSome ∧ ¬k.IsDir
  | .openDir h k => s.handle h = none ∧ (s.vol k.fs).isSome ∧ k.IsDir ∧ s.Room k
  | .openRoot h fs => s.handle h = none ∧ (s.vol fs).isSome
  | .mount fs => ∀ h a, s.handle h = some a → a.key.fs = fs → a.id ≠ s.fsid + 1
  | .close _ | .remove _ | .unmount _ | .drop _ => True

/-! ## What the table tells -/

/-- The counter of an entry is right, where `lost` opens have been counted and failed. -/
def Fits (ctr : WORD) (readers writers lost : Nat) : Prop :=
  (ctr = writer ∧ readers = 0 ∧ writers + lost = 1) ∨
    (0 < ctr.toNat ∧ ctr.toNat < 0x100 ∧ writers = 0 ∧ readers + lost = ctr.toNat)

section
variable {s : Session V H} {i j : Fin fsLock} {k : Key V} {a b : Handle V} {h : H}
  {e : FILESEM V} {lost : Fin fsLock → Nat} {n : Nat}

/-- Valid objects counted in the entry `i`. -/
def Session.counted (s : Session V H) (i : Fin fsLock) (write : Bool) (a : Handle V) : Bool :=
  s.Valid a && a.lockid = i + 1 && a.write = write

structure Right [Fintype H] (s : Session V H) (lost : Fin fsLock → Nat) : Prop where
  distinct : Distinct s.files
  fits : ∀ i fs, (s.files i).fs = some fs → (s.vol fs).isSome →
    Fits (s.files i).ctr (census (s.counted i false) s.handle) (census (s.counted i true) s.handle) (lost i)
  told : ∀ h a, s.handle h = some a → s.Valid a → a.lockid ≠ 0 →
    ∃ i : Fin fsLock, a.lockid = i + 1 ∧ (s.files i).Is a.key
  dirs : ∀ i k, (s.files i).Is k → k.IsDir → (s.files i).ctr ≠ writer

theorem Session.mounted (valid : s.Valid a) : (s.vol a.key.fs).isSome := by
  have id : s.vol a.key.fs = some a.id := by simpa [Session.Valid] using valid
  simp [id]

theorem Session.counted_ne (s : Session V H) (other : j ≠ i) (write : Bool) (lockid : a.lockid = i + 1) :
    s.counted j write a = false := by
  have differ : (i : Nat) ≠ j := fun same => other (Fin.ext same.symm)
  simp [counted, lockid, differ]

theorem Session.counted_self (valid : s.Valid a) (lockid : a.lockid = i + 1) (write : Bool) :
    s.counted i write a = decide (a.write = write) := by
  simp [counted, valid, lockid]

variable [Fintype H]

theorem Session.census_pos (has : s.handle h = some a) (valid : s.Valid a) (lockid : a.lockid = i + 1)
    {write : Bool} (kind : a.write = write) : 0 < census (s.counted i write) s.handle :=
  Cells.census_pos has (by simp [counted_self valid lockid, kind])

theorem Right.lockid (right : Right s lost) (has : s.handle h = some a) (valid : s.Valid a)
    (locked : a.lockid ≠ 0) (is : (s.files i).Is a.key) : a.lockid = i + 1 := by
  obtain ⟨j, lockid, there⟩ := right.told h a has valid locked
  rw [lockid, right.distinct i j a.key is there]

theorem Right.is (right : Right s lost) (has : s.handle h = some a) (valid : s.Valid a)
    (lockid : a.lockid = i + 1) : (s.files i).Is a.key := by
  obtain ⟨j, lockid', there⟩ := right.told h a has valid (by omega)
  obtain rfl : i = j := Fin.ext (by omega)
  exact there

theorem Right.fits_of (right : Right s lost) (has : s.handle h = some a) (valid : s.Valid a)
    (lockid : a.lockid = i + 1) :
    Fits (s.files i).ctr (census (s.counted i false) s.handle) (census (s.counted i true) s.handle) (lost i) :=
  right.fits i a.key.fs (right.is has valid lockid).1 (Session.mounted valid)

/-- No object is counted in an entry that is not used. -/
theorem Right.blank (right : Right s lost) (blank : (s.files i).fs = none) (write : Bool) :
    census (s.counted i write) s.handle = 0 := by
  refine census_eq_zero.2 fun h a has => ?_
  by_cases valid : s.Valid a
  · by_cases lockid : a.lockid = i + 1
    · exact absurd blank (right.is has valid lockid).fs_ne
    · simp [Session.counted, lockid]
  · simp [Session.counted, valid]

theorem Fits.writers_le {ctr : WORD} {readers writers lost : Nat} (fits : Fits ctr readers writers lost) :
    writers ≤ 1 ∧ (0 < readers → writers = 0) := by
  rcases fits with ⟨-, none_, one⟩ | ⟨-, -, none_, -⟩
  · exact ⟨by omega, fun some_ => absurd none_ (Nat.ne_of_gt some_)⟩
  · exact ⟨by omega, fun _ => none_⟩

/-- Two valid objects of one file are readers. -/
theorem Right.exclusive (right : Right s lost) {h' : H} (other : h ≠ h') (has : s.handle h = some a)
    (has' : s.handle h' = some b) (valid : s.Valid a) (valid' : s.Valid b) (locked : a.lockid ≠ 0)
    (locked' : b.lockid ≠ 0) (same : a.key = b.key) : a.write = false ∧ b.write = false := by
  obtain ⟨i, lockid, is⟩ := right.told h a has valid locked
  have lockid' : b.lockid = i + 1 := right.lockid has' valid' locked' (same ▸ is)
  obtain ⟨one, alone⟩ := (right.fits_of has valid lockid).writers_le
  cases first : a.write <;> cases second : b.write
  · exact ⟨rfl, rfl⟩
  · have reader := s.census_pos has valid lockid first
    have writer := s.census_pos has' valid' lockid' second
    exact absurd (alone reader) (Nat.ne_of_gt writer)
  · have writer := s.census_pos has valid lockid first
    have reader := s.census_pos has' valid' lockid' second
    exact absurd (alone reader) (Nat.ne_of_gt writer)
  · refine absurd (census_unique one has ?_ has' ?_) other
    · simp [s.counted_self valid lockid, first]
    · simp [s.counted_self valid' lockid', second]

end

/-! ## One entry changed -/

section
variable {s : Session V H} {i : Fin fsLock} {k : Key V} {a b : Handle V} {h : H}
  {e : FILESEM V} {lost : Fin fsLock → Nat} {n : Nat}

theorem Distinct.update {files : Table V} (distinct : Distinct files) {e : FILESEM V} (is : e.Is k)
    (alone : ∀ j, j ≠ i → ¬(files j).Is k) : Distinct (Function.update files i e) := by
  intro x y k' at_ at'
  rw [Function.update_apply] at at_ at'
  split at at_ <;> split at at'
  case isTrue.isTrue here there => rw [here, there]
  case isTrue.isFalse here there => exact absurd (is.key at_ ▸ at') (alone y there)
  case isFalse.isTrue here there => exact absurd (is.key at' ▸ at_) (alone x here)
  case isFalse.isFalse => exact distinct x y k' at_ at'

/-- What does not change while the entry `i` becomes `e`, the entry of `k`. -/
structure Entering (s : Session V H) (i : Fin fsLock) (e : FILESEM V) (k : Key V) : Prop where
  is : e.Is k
  old : ∀ k', (s.files i).Is k' → e.Is k'
  alone : ∀ j, j ≠ i → ¬(s.files j).Is k
  dirs : k.IsDir → e.ctr ≠ writer

theorem Entering.told_kept (enter : Entering s i e k) {x : Fin fsLock}
    (is : (s.files x).Is b.key) : (Function.update s.files i e x).Is b.key := by
  rw [Function.update_apply]
  split
  case isTrue here => exact enter.old b.key (here ▸ is)
  case isFalse => exact is

variable [Fintype H]

theorem Entering.dirs_kept (enter : Entering s i e k) (right : Right s lost) (x : Fin fsLock)
    (k' : Key V) (is : (Function.update s.files i e x).Is k') (dir : k'.IsDir) :
    (Function.update s.files i e x).ctr ≠ writer := by
  rw [Function.update_apply] at is ⊢
  split at is
  case isTrue =>
    rw [if_pos ‹_›]
    exact enter.dirs (enter.is.key is ▸ dir)
  case isFalse =>
    rw [if_neg ‹_›]
    exact right.dirs x k' is dir

/-- An open that was counted, and failed. -/
theorem Right.lose (right : Right s lost) (enter : Entering s i e k)
    (fits : Fits e.ctr (census (s.counted i false) s.handle) (census (s.counted i true) s.handle) n) :
    Right { s with files := Function.update s.files i e } (Function.update lost i n) where
  distinct := right.distinct.update enter.is enter.alone
  fits x fs used mounted := by
    change Fits _ (census (s.counted x false) s.handle) (census (s.counted x true) s.handle) _
    dsimp only at used ⊢
    rw [Function.update_apply] at used
    rw [Function.update_apply, Function.update_apply]
    split
    case isTrue here =>
      subst here
      exact fits
    case isFalse away =>
      rw [if_neg away] at used
      exact right.fits x fs used mounted
  told h a has valid locked := by
    obtain ⟨x, lockid, is⟩ := right.told h a has valid locked
    exact ⟨x, lockid, enter.told_kept is⟩
  dirs := enter.dirs_kept right

variable [DecidableEq H]

/-- An object opened. -/
theorem Right.take (right : Right s lost) (enter : Entering s i e a.key)
    (empty : s.handle h = none) (valid : s.Valid a) (lockid : a.lockid = i + 1)
    (fits : Fits e.ctr (census (s.counted i false) s.handle + if a.write then 0 else 1)
      (census (s.counted i true) s.handle + if a.write then 1 else 0) n) :
    Right { s with
      files := Function.update s.files i e
      handle := Function.update s.handle h (some a) } (Function.update lost i n) where
  distinct := right.distinct.update enter.is enter.alone
  fits x fs used mounted := by
    change Fits _ (census (s.counted x false) (Function.update s.handle h (some a)))
      (census (s.counted x true) (Function.update s.handle h (some a))) _
    dsimp only at used ⊢
    rw [Function.update_apply] at used
    rw [Function.update_apply, Function.update_apply, census_fill empty, census_fill empty]
    split
    case isTrue here =>
      subst here
      rw [s.counted_self valid lockid, s.counted_self valid lockid]
      cases write : a.write <;> simpa [write] using fits
    case isFalse away =>
      rw [if_neg away] at used
      simpa [s.counted_ne away _ lockid] using right.fits x fs used mounted
  told h' b has valid' locked := by
    dsimp only at has
    rw [Function.update_apply] at has
    split at has
    case isTrue =>
      obtain rfl : a = b := Option.some.inj has
      refine ⟨i, lockid, ?_⟩
      dsimp only
      rw [Function.update_self]
      exact enter.is
    case isFalse =>
      obtain ⟨x, lockid', is⟩ := right.told h' b has valid' locked
      exact ⟨x, lockid', enter.told_kept is⟩
  dirs := enter.dirs_kept right

end

end FatFsParticle.Locks
