import FatFsParticle.Diskio
import Mathlib.Order.PiLex
import Mathlib.Data.Fin.VecNotation
import Mathlib.Logic.Equiv.Defs

/-!
# Timestamps

`get_fattime` packs six fields of the clock into a `DWORD`, the coarsest highest. Dates
and times are compared as their fields are read, from the year on.
-/

namespace FatFsParticle.Times

/-- What the accessors of `Time` return. -/
structure DateTime where
  year : Nat
  month : Nat
  day : Nat
  hour : Nat
  minute : Nat
  second : Nat
  deriving DecidableEq

structure DateTime.Valid (c : DateTime) : Prop where
  year : 1980 ≤ c.year ∧ c.year ≤ 2107
  month : 1 ≤ c.month ∧ c.month ≤ 12
  day : 1 ≤ c.day ∧ c.day ≤ 31
  hour : c.hour ≤ 23
  minute : c.minute ≤ 59
  second : c.second ≤ 59

/-- The fields, coarsest first. -/
def DateTime.fields (c : DateTime) : Fin 6 → Nat :=
  ![c.year, c.month, c.day, c.hour, c.minute, c.second]

/-- The fields to the resolution of the format, which is two seconds. -/
def DateTime.halved (c : DateTime) : Fin 6 → Nat :=
  ![c.year, c.month, c.day, c.hour, c.minute, c.second / 2]

/-- `c` is not after `d`. -/
def DateTime.NotAfter (c d : DateTime) : Prop := toLex c.fields ≤ toLex d.fields

/-- `c` is not after `d` to the resolution of the format. -/
def DateTime.NotAfter₂ (c d : DateTime) : Prop := toLex c.halved ≤ toLex d.halved

/-- What the expression of `get_fattime` makes of the six values. -/
def pack (year month day hour minute second : Nat) : DWORD :=
  (BitVec.ofNat 32 year - 1980) <<< 25 ||| BitVec.ofNat 32 month <<< 21 |||
    BitVec.ofNat 32 day <<< 16 ||| BitVec.ofNat 32 hour <<< 11 ||| BitVec.ofNat 32 minute <<< 5 |||
    BitVec.ofNat 32 second >>> 1

/-- `get_fattime`, where the clock is `c k` when the accessor of field `k` is called. -/
def getFattime (c : Fin 6 → DateTime) : DWORD :=
  pack (c 0).year (c 1).month (c 2).day (c 3).hour (c 4).minute (c 5).second

/-- The date and time of a packed value. -/
def unpack (v : DWORD) : DateTime where
  year := (v >>> 25).toNat + 1980
  month := (v >>> 21 &&& 15).toNat
  day := (v >>> 16 &&& 31).toNat
  hour := (v >>> 11 &&& 31).toNat
  minute := (v >>> 5 &&& 63).toNat
  second := 2 * (v &&& 31).toNat

/-! ## Calls -/

/-- A call of `get_fattime`: the six readings of the clock as they follow each other, and
which of them each field comes from. -/
structure Call where
  clock : Fin 6 → DateTime
  order : Equiv.Perm (Fin 6)

namespace Call

def stamp (c : Call) : DWORD := getFattime fun k => c.clock (c.order k)

/-- What the clock showed when field `k` was read. -/
def reading (c : Call) (k : Fin 6) : Fin 6 → Nat := (c.clock (c.order k)).halved

/-- The packed value decodes to a time from the first reading to the last. -/
def Within (c : Call) : Prop :=
  (c.clock 0).NotAfter₂ (unpack c.stamp) ∧ (unpack c.stamp).NotAfter₂ (c.clock 5)

/-- The fields above some field were read before they changed, and that field after it,
when it had fallen below where it stood at first. -/
def ReadAfterCarry (c : Call) : Prop :=
  ∃ k, (∀ j < k, c.reading j j = (c.clock 0).halved j) ∧
    (∃ j < k, c.reading k j ≠ (c.clock 0).halved j) ∧ c.reading k k < (c.clock 0).halved k

/-- The fields above some field were read after they had changed, and that field before
it, when it stood above where it came to stand. -/
def ReadBeforeCarry (c : Call) : Prop :=
  ∃ k, (∀ j < k, c.reading j j = (c.clock 5).halved j) ∧
    (∃ j < k, c.reading k j ≠ (c.clock 5).halved j) ∧ (c.clock 5).halved k < c.reading k k

def Torn (c : Call) : Prop := c.ReadAfterCarry ∨ c.ReadBeforeCarry

end Call

/-! ## Packing -/

/-- Bits put below those that are there. -/
theorem toNat_or_below {x y : DWORD} (i : Nat) (above : 2 ^ i ∣ x.toNat) (below : y.toNat < 2 ^ i) :
    (x ||| y).toNat = x.toNat + y.toNat := by
  obtain ⟨a, ha⟩ := above
  rw [BitVec.toNat_or, ha, Nat.two_pow_add_eq_or_of_lt below]

theorem toNat_field {n i : Nat} (room : n * 2 ^ i < 2 ^ 32) :
    (BitVec.ofNat 32 n <<< i).toNat = n * 2 ^ i := by
  have small : n < 2 ^ 32 := Nat.lt_of_le_of_lt (Nat.le_mul_of_pos_right n (Nat.two_pow_pos i)) room
  rw [BitVec.toNat_shiftLeft, BitVec.toNat_ofNat, Nat.mod_eq_of_lt small, Nat.shiftLeft_eq,
    Nat.mod_eq_of_lt room]

theorem toNat_pack {year month day hour minute second : Nat} (hy : 1980 ≤ year ∧ year ≤ 2107)
    (hmo : month < 16) (hd : day < 32) (hh : hour < 32) (hmi : minute < 64) (hs : second < 64) :
    (pack year month day hour minute second).toNat = (year - 1980) * 2 ^ 25 + month * 2 ^ 21 +
      day * 2 ^ 16 + hour * 2 ^ 11 + minute * 2 ^ 5 + second / 2 := by
  have since : BitVec.ofNat 32 year - 1980 = BitVec.ofNat 32 (year - 1980) := by
    apply BitVec.eq_of_toNat_eq
    rw [BitVec.toNat_sub, BitVec.toNat_ofNat, BitVec.toNat_ofNat]
    simp
    omega
  have y : (BitVec.ofNat 32 (year - 1980) <<< 25).toNat = (year - 1980) * 2 ^ 25 :=
    toNat_field (by omega)
  have mo : (BitVec.ofNat 32 month <<< 21).toNat = month * 2 ^ 21 := toNat_field (by omega)
  have d : (BitVec.ofNat 32 day <<< 16).toNat = day * 2 ^ 16 := toNat_field (by omega)
  have h : (BitVec.ofNat 32 hour <<< 11).toNat = hour * 2 ^ 11 := toNat_field (by omega)
  have mi : (BitVec.ofNat 32 minute <<< 5).toNat = minute * 2 ^ 5 := toNat_field (by omega)
  have s : (BitVec.ofNat 32 second >>> 1).toNat = second / 2 := by
    rw [BitVec.toNat_ushiftRight, BitVec.toNat_ofNat, Nat.shiftRight_eq_div_pow]
    omega
  unfold pack
  rw [since]
  have ymo := toNat_or_below 25 (by rw [y]; omega) (by rw [mo]; omega)
  rw [y, mo] at ymo
  have ymod := toNat_or_below 21 (by rw [ymo]; omega) (by rw [d]; omega)
  rw [ymo, d] at ymod
  have ymodh := toNat_or_below 16 (by rw [ymod]; omega) (by rw [h]; omega)
  rw [ymod, h] at ymodh
  have ymodhmi := toNat_or_below 11 (by rw [ymodh]; omega) (by rw [mi]; omega)
  rw [ymodh, mi] at ymodhmi
  rw [toNat_or_below 5 (by rw [ymodhmi]; omega) (by rw [s]; omega), ymodhmi, s]

/-- The bits of a value from `i` on, `k` of them. -/
theorem toNat_bits (v mask : DWORD) (i k : Nat) (ones : mask.toNat = 2 ^ k - 1) :
    (v >>> i &&& mask).toNat = v.toNat / 2 ^ i % 2 ^ k := by
  rw [BitVec.toNat_and, BitVec.toNat_ushiftRight, ones, Nat.and_two_pow_sub_one_eq_mod,
    Nat.shiftRight_eq_div_pow]

theorem unpack_eq (v : DWORD) :
    unpack v = ⟨v.toNat / 2 ^ 25 + 1980, v.toNat / 2 ^ 21 % 2 ^ 4, v.toNat / 2 ^ 16 % 2 ^ 5,
      v.toNat / 2 ^ 11 % 2 ^ 5, v.toNat / 2 ^ 5 % 2 ^ 6, 2 * (v.toNat % 2 ^ 5)⟩ := by
  have year : (v >>> 25).toNat = v.toNat / 2 ^ 25 := by
    rw [BitVec.toNat_ushiftRight, Nat.shiftRight_eq_div_pow]
  have second := toNat_bits v 31 0 5 rfl
  simp only [BitVec.ushiftRight_zero, Nat.pow_zero, Nat.div_one] at second
  simp only [unpack, year, second, toNat_bits v 15 21 4 rfl, toNat_bits v 31 16 5 rfl,
    toNat_bits v 31 11 5 rfl, toNat_bits v 63 5 6 rfl]

/-- What unpacking gives back: every field, the seconds rounded down to even ones. -/
theorem unpack_pack {year month day hour minute second : Nat} (hy : 1980 ≤ year ∧ year ≤ 2107)
    (hmo : month < 16) (hd : day < 32) (hh : hour < 32) (hmi : minute < 64) (hs : second < 64) :
    unpack (pack year month day hour minute second) =
      ⟨year, month, day, hour, minute, 2 * (second / 2)⟩ := by
  rw [unpack_eq, toNat_pack hy hmo hd hh hmi hs, DateTime.mk.injEq]
  omega

/-! ## The order of what is packed -/

/-- The number that six fields make, the year from 1980 on. -/
def number (f : Fin 6 → Nat) : Nat :=
  (f 0 - 1980) * 2 ^ 25 + f 1 * 2 ^ 21 + f 2 * 2 ^ 16 + f 3 * 2 ^ 11 + f 4 * 2 ^ 5 + f 5

/-- Fields that fit the bits they are packed into. -/
structure Fits (f : Fin 6 → Nat) : Prop where
  year : 1980 ≤ f 0 ∧ f 0 ≤ 2107
  month : f 1 < 16
  day : f 2 < 32
  hour : f 3 < 32
  minute : f 4 < 64
  second : f 5 < 32

theorem lt_at {f g : Fin 6 → Nat} (k : Fin 6) (same : ∀ j < k, f j = g j) (less : f k < g k) :
    toLex f < toLex g := ⟨k, same, less⟩

theorem number_lt {f g : Fin 6 → Nat} (hf : Fits f) (hg : Fits g) (less : toLex f < toLex g) :
    number f < number g := by
  obtain ⟨fy, fmo, fd, fh, fmi, fs⟩ := hf
  obtain ⟨gy, gmo, gd, gh, gmi, gs⟩ := hg
  obtain ⟨i, same, less⟩ := less
  unfold number
  match i with
  | 0 =>
    have less : f 0 < g 0 := less
    omega
  | 1 =>
    have year : f 0 = g 0 := same 0 (by decide)
    have less : f 1 < g 1 := less
    omega
  | 2 =>
    have year : f 0 = g 0 := same 0 (by decide)
    have month : f 1 = g 1 := same 1 (by decide)
    have less : f 2 < g 2 := less
    omega
  | 3 =>
    have year : f 0 = g 0 := same 0 (by decide)
    have month : f 1 = g 1 := same 1 (by decide)
    have day : f 2 = g 2 := same 2 (by decide)
    have less : f 3 < g 3 := less
    omega
  | 4 =>
    have year : f 0 = g 0 := same 0 (by decide)
    have month : f 1 = g 1 := same 1 (by decide)
    have day : f 2 = g 2 := same 2 (by decide)
    have hour : f 3 = g 3 := same 3 (by decide)
    have less : f 4 < g 4 := less
    omega
  | 5 =>
    have year : f 0 = g 0 := same 0 (by decide)
    have month : f 1 = g 1 := same 1 (by decide)
    have day : f 2 = g 2 := same 2 (by decide)
    have hour : f 3 = g 3 := same 3 (by decide)
    have minute : f 4 = g 4 := same 4 (by decide)
    have less : f 5 < g 5 := less
    omega

theorem number_le_iff {f g : Fin 6 → Nat} (hf : Fits f) (hg : Fits g) :
    number f ≤ number g ↔ toLex f ≤ toLex g := by
  constructor
  · intro small
    by_contra large
    have less := number_lt hg hf (not_le.mp large)
    omega
  · intro small
    rcases small.lt_or_eq with less | same
    · exact Nat.le_of_lt (number_lt hf hg less)
    · rw [toLex_inj.mp same]

theorem DateTime.Valid.fits {c : DateTime} (valid : c.Valid) : Fits c.halved := by
  obtain ⟨year, month, day, hour, minute, second⟩ := valid
  constructor <;> simp [DateTime.halved] <;> omega

theorem DateTime.halved_eq (c : DateTime) {j : Fin 6} (coarse : j < 5) :
    c.halved j = c.fields j := by
  match j with
  | 0 | 1 | 2 | 3 | 4 => simp [halved, fields]
  | 5 => cases lt_irrefl _ coarse

theorem DateTime.halved_second (c : DateTime) : c.halved 5 = c.fields 5 / 2 := rfl

/-- Rounding the seconds keeps the order. -/
theorem DateTime.NotAfter.halved {c d : DateTime} (order : c.NotAfter d) : c.NotAfter₂ d := by
  by_contra after
  obtain ⟨i, same, less⟩ : toLex d.halved < toLex c.halved := not_le.mp after
  have less : d.halved i < c.halved i := less
  have above : ∀ j < i, j < 5 → d.fields j = c.fields j := by
    intro j early coarse
    have equal : d.halved j = c.halved j := same j early
    rwa [d.halved_eq coarse, c.halved_eq coarse] at equal
  apply not_lt.mpr order
  by_cases coarse : i < 5
  · rw [d.halved_eq coarse, c.halved_eq coarse] at less
    exact ⟨i, fun j early => above j early (lt_trans early coarse), less⟩
  · have last : i = 5 := le_antisymm (Fin.le_last i) (not_lt.mp coarse)
    subst last
    rw [d.halved_second, c.halved_second] at less
    have finer : d.fields 5 < c.fields 5 := by omega
    exact ⟨5, fun j early => above j early early, finer⟩

end FatFsParticle.Times
