import Mathlib.Data.List.Basic
import Mathlib.Algebra.Group.Nat.Defs

/-! The types and constants of `integer.h` and `diskio.h`. -/

namespace FatFsParticle

abbrev BYTE := BitVec 8
abbrev WORD := BitVec 16
abbrev UINT := BitVec 32
abbrev DWORD := BitVec 32

/-- Status of a drive: the bits `staNoinit`, `staNodisk`, `staProtect`. -/
abbrev DSTATUS := BYTE

abbrev staNoinit : DSTATUS := 0x01
abbrev staNodisk : DSTATUS := 0x02
abbrev staProtect : DSTATUS := 0x04

/-- Results of disk functions (`RES_OK` to `RES_PARERR`). -/
inductive DRESULT where
  | ok | error | wrprt | notrdy | parerr
  deriving DecidableEq, Repr

/-! Command codes of `disk_ioctl`. -/

abbrev ctrlSync : BYTE := 0
abbrev getSectorCount : BYTE := 1
abbrev getBlockSize : BYTE := 3
abbrev ctrlEraseSector : BYTE := 4
abbrev mmcGetCsd : BYTE := 11

/-! Card type flags. -/

abbrev ctMmc : BYTE := 0x01
abbrev ctSd1 : BYTE := 0x02
abbrev ctSd2 : BYTE := 0x04
abbrev ctSdc : BYTE := ctSd1 ||| ctSd2
abbrev ctBlock : BYTE := 0x08

/-- A count that is not 0 counts down. -/
theorem toNat_pred {count : UINT} (h : count ≠ 0) : (count - 1).toNat = count.toNat - 1 := by
  have positive : count.toNat ≠ 0 := fun zero => h (BitVec.eq_of_toNat_eq zero)
  rw [BitVec.toNat_sub]
  simp
  omega

end FatFsParticle
