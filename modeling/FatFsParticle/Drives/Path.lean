import FatFsParticle.Diskio

/-!
# Drive numbers in paths

`attach` and `detach` build a path out of a drive number, and `get_ldnumber` of `ff.c`
takes a volume number out of a path. The configuration of the repository: no string
volume ids, no relative paths, no long names.
-/

namespace FatFsParticle.Drives

abbrev TCHAR := BYTE

/-- `get_ldnumber`: `none` for -1. A path is given without its terminating zero. -/
def getLdnumber (volumes : Nat) : Option (List TCHAR) → Option Nat
  | none => none
  | some path =>
    let skipped := path.takeWhile fun c => decide (0x21 ≤ c) && c != 0x3A
    if path[skipped.length]? = some 0x3A then
      let i : UINT := (path.headD 0).setWidth 32 - 0x30
      if i < 10 ∧ skipped.length = 1 then
        if i.toNat < volumes then some i.toNat else none
      else none
    else some 0

/-- `path` of `attach`: `'0' + driveNumber`, then a colon. -/
def attachPath (driveNumber : BYTE) : List TCHAR := [0x30 + driveNumber, 0x3A]

/-- `path` of `detach`: the number as it is, then a colon. -/
def detachPath (driveNumber : BYTE) : List TCHAR := [driveNumber, 0x3A]

/-- Numbers below `_VOLUMES` name their volume. Those where `'0' + n` wraps to the
terminating zero or to a control character name volume 0. -/
def attachVolume (volumes n : Nat) : Option Nat :=
  if n < volumes then some n else if 208 ≤ n ∧ n ≤ 240 then some 0 else none

/-- Control characters name volume 0, digits the volume of their digit. -/
def detachVolume (volumes n : Nat) : Option Nat :=
  if n ≤ 32 then some 0 else if 48 ≤ n ∧ n < 48 + volumes then some (n - 48) else none

theorem attachVolume_le {volumes n vol : Nat} (h : attachVolume volumes n = some vol) : vol ≤ n := by
  unfold attachVolume at h
  split at h
  · cases h
    exact Nat.le_refl n
  · split at h
    · cases h
      omega
    · cases h

theorem attachVolume_of_lt {volumes n : Nat} (h : n < volumes) : attachVolume volumes n = some n := by
  unfold attachVolume
  rw [if_pos h]

/-- A number that names its own volume is below `_VOLUMES`. -/
theorem lt_of_attachVolume {volumes n : Nat} (h : attachVolume volumes n = some n) : n < volumes := by
  unfold attachVolume at h
  split at h
  · assumption
  · split at h
    · cases h
      omega
    · cases h

/-- No number names its own volume in the path of `detach`, apart from 0. -/
theorem detachVolume_ne {volumes n vol : Nat} (h : detachVolume volumes n = some vol)
    (other : n ≠ 0) : vol ≠ n := by
  unfold detachVolume at h
  split at h
  · cases h
    exact other.symm
  · split at h
    · cases h
      omega
    · cases h

theorem getLdnumber_attachPath {volumes : Nat} (h : volumes ≤ 9) (n : BYTE) :
    getLdnumber volumes (some (attachPath n)) = attachVolume volumes n.toNat := by
  have all : ∀ v : Fin 10, ∀ n : BYTE,
      getLdnumber v (some (attachPath n)) = attachVolume v n.toNat := by decide +kernel
  exact all ⟨volumes, by omega⟩ n

theorem getLdnumber_detachPath {volumes : Nat} (h : volumes ≤ 9) (n : BYTE) :
    getLdnumber volumes (some (detachPath n)) = detachVolume volumes n.toNat := by
  have all : ∀ v : Fin 10, ∀ n : BYTE,
      getLdnumber v (some (detachPath n)) = detachVolume v n.toNat := by decide +kernel
  exact all ⟨volumes, by omega⟩ n

end FatFsParticle.Drives
