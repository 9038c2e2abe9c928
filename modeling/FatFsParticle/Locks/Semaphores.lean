import FatFsParticle.Files.Volume
import Mathlib.Data.List.FinRange

/-!
# The semaphores of open objects

`Files[]` has an entry for each open object: the volume it is on, the first cluster of its
directory, the offset of its directory entry, and a counter, of readers or 0x100 for a
writer. Sub-directories that are open have entries, too, with a cluster of their own.
-/

namespace FatFsParticle.Locks
open Files (FRESULT fsLock)

variable {V : Type}

/-- What an object is known by: `dp->obj.fs`, `dp->obj.sclust` and `dp->dptr`. -/
structure Key (V : Type) where
  fs : V
  clu : DWORD
  ofs : DWORD
  deriving DecidableEq

/-- An entry of the table; `fs` is null in a blank one. -/
structure FILESEM (V : Type) where
  fs : Option V
  clu : DWORD
  ofs : DWORD
  ctr : WORD

/-- `Files`. -/
abbrev Table (V : Type) := Fin fsLock → FILESEM V

/-- The entry is that of `k`. -/
def FILESEM.Is (e : FILESEM V) (k : Key V) : Prop := e.fs = some k.fs ∧ e.clu = k.clu ∧ e.ofs = k.ofs

instance [DecidableEq V] (e : FILESEM V) (k : Key V) : Decidable (e.Is k) :=
  inferInstanceAs (Decidable (_ ∧ _ ∧ _))

/-- The first entry of a kind. -/
def first (p : Fin fsLock → Bool) : Option (Fin fsLock) := (List.finRange fsLock).find? p

/-- A writer. -/
abbrev writer : WORD := 0x100

section
variable [DecidableEq V] (files : Table V) (k : Key V)

def chkLock (acc : Nat) : FRESULT :=
  match first fun i => (files i).Is k with
  | none => if (first fun i => (files i).fs.isNone).isSome ∨ acc = 2 then .ok else .tooManyOpenFiles
  | some i => if acc ≠ 0 ∨ (files i).ctr = writer then .locked else .ok

omit [DecidableEq V] in
def enqLock : Bool := (first fun i => (files i).fs.isNone).isSome

/-- The end of `inc_lock`, for the entry `i`. -/
def count (i : Fin fsLock) (acc : Nat) : Nat × Table V :=
  if acc ≠ 0 ∧ (files i).ctr ≠ 0 then (0, files)
  else (i + 1, Function.update files i
    { files i with ctr := if acc ≠ 0 then writer else (files i).ctr + 1 })

/-- `inc_lock` returns the index of the entry, from 1 on. -/
def incLock (acc : Nat) : Nat × Table V :=
  match first fun i => (files i).Is k with
  | some i => count files i acc
  | none =>
    match first fun i => (files i).fs.isNone with
    | none => (0, files)
    | some i =>
      count (Function.update files i { fs := some k.fs, clu := k.clu, ofs := k.ofs, ctr := 0 }) i acc

omit [DecidableEq V] in
/-- The entry `i` one less. -/
def release (i : Fin fsLock) : Table V :=
  let n := (files i).ctr
  let n := if n = writer then 0 else n
  let n := if 0 < n then n - 1 else n
  Function.update files i { files i with ctr := n, fs := if n = 0 then none else (files i).fs }

omit [DecidableEq V] in
def decLock (i : Nat) : FRESULT × Table V :=
  if h : 0 < i ∧ i - 1 < fsLock then (.ok, release files ⟨i - 1, h.2⟩) else (.intErr, files)

/-- `clear_lock`. -/
def clearLock (fs : V) : Table V :=
  fun i => if (files i).fs = some fs then { files i with fs := none } else files i

end

/-! ## Entries found -/

theorem first_none {p : Fin fsLock → Bool} : first p = none ↔ ∀ i, p i = false := by
  simp [first, List.find?_eq_none]

theorem first_some {p : Fin fsLock → Bool} {i : Fin fsLock} (h : first p = some i) : p i = true :=
  List.find?_some h

theorem first_isSome {p : Fin fsLock → Bool} : (first p).isSome ↔ ∃ i, p i = true := by
  simp [first, List.find?_isSome]

/-- No two entries are those of one object. -/
def Distinct (files : Table V) : Prop := ∀ i j k, (files i).Is k → (files j).Is k → i = j

section
variable {files : Table V} {k k' : Key V} {i j : Fin fsLock} {acc : Nat}

theorem FILESEM.Is.key {e : FILESEM V} (h : e.Is k) (h' : e.Is k') : k = k' := by
  obtain ⟨fs, clu, ofs⟩ := k
  obtain ⟨fs', clu', ofs'⟩ := k'
  obtain ⟨a, b, c⟩ := h
  obtain ⟨a', b', c'⟩ := h'
  simp_all

theorem FILESEM.Is.fs_ne {e : FILESEM V} (h : e.Is k) : e.fs ≠ none := by
  rw [h.1]
  exact Option.some_ne_none _

variable [DecidableEq V]

theorem not_is_of_first (found : first (fun i => (files i).Is k) = none) (i : Fin fsLock) :
    ¬(files i).Is k := by
  simpa using first_none.1 found i

/-- The entry that is found is the one. -/
theorem first_is (distinct : Distinct files) (is : (files i).Is k) :
    first (fun i => (files i).Is k) = some i := by
  cases found : first fun i => (files i).Is k with
  | none => exact absurd is (not_is_of_first found i)
  | some j => rw [distinct j i k (by simpa using first_some found) is]

/-- The entry of a new object. -/
def Key.entry (k : Key V) (acc : Nat) : FILESEM V where
  fs := some k.fs
  clu := k.clu
  ofs := k.ofs
  ctr := if acc ≠ 0 then writer else 1

/-- What `inc_lock` comes to. -/
inductive Counting (files : Table V) (k : Key V) (acc : Nat) : Nat × Table V → Prop
  | refused {i : Fin fsLock} (is : (files i).Is k) (busy : acc ≠ 0 ∧ (files i).ctr ≠ 0) :
      Counting files k acc (0, files)
  | again {i : Fin fsLock} (is : (files i).Is k) (free : ¬(acc ≠ 0 ∧ (files i).ctr ≠ 0)) :
      Counting files k acc (i + 1, Function.update files i
        { files i with ctr := if acc ≠ 0 then writer else (files i).ctr + 1 })
  | new {i : Fin fsLock} (none_ : ∀ j, ¬(files j).Is k) (blank : (files i).fs = none) :
      Counting files k acc (i + 1, Function.update files i (k.entry acc))
  | full (none_ : ∀ j, ¬(files j).Is k) (used : ∀ j, (files j).fs ≠ none) :
      Counting files k acc (0, files)

theorem incLock_counting (files : Table V) (k : Key V) (acc : Nat) :
    Counting files k acc (incLock files k acc) := by
  unfold incLock
  cases found : first fun i => (files i).Is k with
  | some i =>
    have is : (files i).Is k := by simpa using first_some found
    dsimp only
    unfold count
    split
    case isTrue busy => exact .refused is busy
    case isFalse free => exact .again is free
  | none =>
    have none_ := not_is_of_first found
    cases blank : first fun i => (files i).fs.isNone with
    | none =>
      refine .full none_ fun i => ?_
      simpa [Option.isNone_eq_false_iff, Option.isSome_iff_ne_none] using first_none.1 blank i
    | some i =>
      have new : Counting files k acc (i + 1, Function.update files i (k.entry acc)) :=
        .new none_ (by simpa using first_some blank)
      simpa [count, Key.entry] using new

/-- An object that `chk_lock` has let through, `inc_lock` takes. -/
theorem incLock_of_chkLock (distinct : Distinct files) (open_ : acc ≠ 2)
    (ok : chkLock files k acc = .ok) : (incLock files k acc).1 ≠ 0 := by
  unfold chkLock at ok
  generalize taken : incLock files k acc = r
  cases taken ▸ incLock_counting files k acc with
  | refused is busy => simp [first_is distinct is, busy.1] at ok
  | again is free => exact Nat.succ_ne_zero _
  | new none_ blank => exact Nat.succ_ne_zero _
  | full none_ used =>
    have none_ : first (fun i => (files i).Is k) = none := first_none.2 fun i => by simp [none_ i]
    have none' : first (fun i => (files i).fs.isNone) = none :=
      first_none.2 fun i => by simp [Option.isNone_eq_false_iff, Option.isSome_iff_ne_none, used i]
    simp [none_, none', open_] at ok

end

end FatFsParticle.Locks
