import FatFsParticle.Sdspi.Control

/-!
# The capacity of a card

The CSD is a number of 128 bits with fields at fixed places, and the type of the card says
how its capacity is to be read off. `ioctl(GET_SECTOR_COUNT)` puts the fields together out
of bytes, and goes by the structure code alone.
-/

namespace FatFsParticle.Sdspi
open Interact Program

/-! ## The register -/

/-- The 128 bits of a CSD; its first byte is the most significant. -/
def csdRegister (csd : List BYTE) : Nat := csd.foldl (fun n x => n * 256 + x.toNat) 0

/-- The bits `hi` to `lo` of the register. -/
def csdBits (csd : List BYTE) (hi lo : Nat) : Nat := csdRegister csd / 2 ^ lo % 2 ^ (hi - lo + 1)

namespace Csd
variable (csd : List BYTE)

def structure_ : Nat := csdBits csd 127 126
def readBlLen : Nat := csdBits csd 83 80
/-- `C_SIZE` of SDv1 and MMC. -/
def cSize : Nat := csdBits csd 73 62
def cSizeMult : Nat := csdBits csd 49 47
/-- `C_SIZE` of SDv2. -/
def cSizeV2 : Nat := csdBits csd 69 48

/-- Sectors by the layout of SDv2. -/
def sectorsV2 : Nat := (cSizeV2 csd + 1) * 1024

/-- Sectors by the layout of SDv1 and MMC. -/
def sectorsV1 : Nat := (cSize csd + 1) * 2 ^ (cSizeMult csd + 2 + readBlLen csd - 9)

end Csd

/-- The sectors of a card of the type `ty`. -/
def capacity (ty : BYTE) (csd : List BYTE) : Nat :=
  if ty &&& ctSd2 ≠ 0 then Csd.sectorsV2 csd else Csd.sectorsV1 csd

/-- A register that a card of the type `ty` may have. -/
inductive CsdOf : BYTE → List BYTE → Prop
  | sd2 {csd : List BYTE} (v2 : Csd.structure_ csd = 1) : CsdOf ctSd2 csd
  | sd2Block {csd : List BYTE} (v2 : Csd.structure_ csd = 1) : CsdOf (ctSd2 ||| ctBlock) csd
  | sd1 {csd : List BYTE} (v1 : Csd.structure_ csd = 0)
      (len : 9 ≤ Csd.readBlLen csd ∧ Csd.readBlLen csd ≤ 11) : CsdOf ctSd1 csd
  | mmc {csd : List BYTE} (len : 9 ≤ Csd.readBlLen csd ∧ Csd.readBlLen csd ≤ 11) : CsdOf ctMmc csd

/-- What the shift of `ioctl` is made by. -/
def shiftCount (csd : List BYTE) : Int :=
  if regByte csd 0 >>> 6 = 1 then 10
  else ((regByte csd 5 &&& 15) + ((regByte csd 10 &&& 128) >>> 7) + ((regByte csd 9 &&& 3) <<< 1) + 2 :
    Nat) - 9

/-- The word stored is the capacity, come by without a shift that C leaves undefined, and
no sector below it has an address that wraps. -/
structure Exact (ty : BYTE) (csd : List BYTE) (stored : Option DWORD) : Prop where
  capacity : ∃ n, stored = some n ∧ n.toNat = capacity ty csd
  shift : 0 ≤ shiftCount csd ∧ shiftCount csd ≤ 31
  addresses : ty &&& ctBlock = 0 → ∀ n, stored = some n → ∀ s < n, 512 * s.toNat < 2 ^ 32

/-- The registers that `ioctl` decodes right: for SDv2, `C_SIZE` below its greatest value, and
below 2^13 for a card that counts bytes; for MMC with the structure code 1, a register that
tells the same in both layouts. -/
def Decodable (ty : BYTE) (csd : List BYTE) : Prop :=
  if ty &&& ctSd2 ≠ 0 then
    if ty &&& ctBlock ≠ 0 then Csd.cSizeV2 csd < 2 ^ 22 - 1 else Csd.cSizeV2 csd < 2 ^ 13
  else Csd.structure_ csd = 1 → Csd.sectorsV2 csd = Csd.sectorsV1 csd

/-! ## Fields out of bytes -/

theorem regByte_lt (csd : List BYTE) (i : Nat) : regByte csd i < 256 := BitVec.isLt _

/-- Where the fields are in the bytes. -/
theorem csd_fields {csd : List BYTE} (len : csd.length = 16) :
    Csd.structure_ csd = regByte csd 0 / 64 ∧ Csd.readBlLen csd = regByte csd 5 % 16 ∧
    Csd.cSize csd = regByte csd 6 % 4 * 1024 + regByte csd 7 * 4 + regByte csd 8 / 64 ∧
    Csd.cSizeMult csd = regByte csd 9 % 4 * 2 + regByte csd 10 / 128 ∧
    Csd.cSizeV2 csd = regByte csd 7 % 64 * 65536 + regByte csd 8 * 256 + regByte csd 9 := by
  match csd, len with
  | [b0, b1, b2, b3, b4, b5, b6, b7, b8, b9, b10, b11, b12, b13, b14, b15], _ =>
    have h0 := b0.isLt
    have h1 := b1.isLt
    have h2 := b2.isLt
    have h3 := b3.isLt
    have h4 := b4.isLt
    have h5 := b5.isLt
    have h6 := b6.isLt
    have h7 := b7.isLt
    have h8 := b8.isLt
    have h9 := b9.isLt
    have h10 := b10.isLt
    have h11 := b11.isLt
    have h12 := b12.isLt
    have h13 := b13.isLt
    have h14 := b14.isLt
    have h15 := b15.isLt
    simp only [Csd.structure_, Csd.readBlLen, Csd.cSize, Csd.cSizeMult, Csd.cSizeV2, csdBits,
      csdRegister, regByte, List.foldl_cons, List.foldl_nil, List.getD_cons_zero, List.getD_cons_succ]
    omega

theorem top_bit : ∀ x < 256, (x &&& 128) >>> 7 = x / 128 := by decide +kernel

/-- The sums of `ioctl` are those fields. -/
theorem code_fields {csd : List BYTE} (len : csd.length = 16) :
    regByte csd 0 >>> 6 = Csd.structure_ csd ∧
    regByte csd 9 + (regByte csd 8 <<< 8) + ((regByte csd 7 &&& 63) <<< 16) + 1 =
      Csd.cSizeV2 csd + 1 ∧
    (regByte csd 5 &&& 15) + ((regByte csd 10 &&& 128) >>> 7) + ((regByte csd 9 &&& 3) <<< 1) + 2 =
      Csd.readBlLen csd + Csd.cSizeMult csd + 2 ∧
    (regByte csd 8 >>> 6) + (regByte csd 7 <<< 2) + ((regByte csd 6 &&& 3) <<< 10) + 1 =
      Csd.cSize csd + 1 := by
  obtain ⟨code, readLen, size, mult, size2⟩ := csd_fields len
  have low (x k : Nat) : x &&& (2 ^ k - 1) = x % 2 ^ k := Nat.and_two_pow_sub_one_eq_mod x k
  have low4 (x : Nat) : x &&& 15 = x % 16 := low x 4
  have low6 (x : Nat) : x &&& 63 = x % 64 := low x 6
  have low2 (x : Nat) : x &&& 3 = x % 4 := low x 2
  rw [code, readLen, size, mult, size2, top_bit _ (regByte_lt csd 10)]
  simp only [low4, low6, low2, Nat.shiftRight_eq_div_pow, Nat.shiftLeft_eq, true_and]
  omega

theorem sectorCount_eq {csd : List BYTE} (len : csd.length = 16) :
    sectorCount csd =
      if Csd.structure_ csd = 1 then BitVec.ofNat 32 (Csd.cSizeV2 csd + 1) <<< 10
      else BitVec.ofNat 32 (Csd.cSize csd + 1) <<< (Csd.readBlLen csd + Csd.cSizeMult csd + 2 - 9) := by
  obtain ⟨code, size2, shift, size⟩ := code_fields len
  unfold sectorCount
  rw [code, size2]
  simp only [shift, size]

/-- The greatest values of the fields. -/
theorem csd_bounds (csd : List BYTE) : Csd.cSize csd < 2 ^ 12 ∧ Csd.cSizeMult csd < 2 ^ 3 ∧
    Csd.cSizeV2 csd < 2 ^ 22 :=
  ⟨Nat.mod_lt _ (by decide), Nat.mod_lt _ (by decide), Nat.mod_lt _ (by decide)⟩

theorem toNat_shifted {n i : Nat} : (BitVec.ofNat 32 n <<< i).toNat = n * 2 ^ i % 2 ^ 32 := by
  rw [BitVec.toNat_shiftLeft, BitVec.toNat_ofNat, Nat.shiftLeft_eq, Nat.mod_mul_mod]

/-! ## Exactness -/

/-- With block lengths up to 2048, no SDv1 or MMC layout tells more than 2^23 sectors. -/
theorem sectorsV1_le {csd : List BYTE} (len : 9 ≤ Csd.readBlLen csd ∧ Csd.readBlLen csd ≤ 11) :
    Csd.sectorsV1 csd ≤ 2 ^ 23 := by
  obtain ⟨size, mult, -⟩ := csd_bounds csd
  calc Csd.sectorsV1 csd
    _ ≤ 2 ^ 12 * 2 ^ 11 := by
      apply Nat.mul_le_mul
      · omega
      · exact Nat.pow_le_pow_right (by decide) (by omega)
    _ = 2 ^ 23 := by decide

/-- Addresses of sectors below `n` do not wrap exactly if there are 2^23 of them at most. -/
theorem addresses_fit_iff (n : DWORD) :
    (∀ s < n, 512 * s.toNat < 2 ^ 32) ↔ n.toNat ≤ 2 ^ 23 := by
  constructor
  · intro fit
    by_contra more
    have small : (8388608 : DWORD).toNat = 8388608 := rfl
    have below : (8388608 : DWORD) < n := by
      rw [BitVec.lt_def, small]
      omega
    have wraps := fit 8388608 below
    omega
  · intro few s below
    rw [BitVec.lt_def] at below
    omega

theorem shiftCount_eq {csd : List BYTE} (len : csd.length = 16) : shiftCount csd =
    if Csd.structure_ csd = 1 then 10 else ((Csd.readBlLen csd + Csd.cSizeMult csd + 2 : Nat) : Int) - 9 := by
  obtain ⟨code, -, shift, -⟩ := code_fields len
  unfold shiftCount
  rw [code, shift]

/-- What is stored by the layout of SDv2 is right where the product does not wrap. -/
theorem toNat_v2 (csd : List BYTE) :
    (BitVec.ofNat 32 (Csd.cSizeV2 csd + 1) <<< 10).toNat = Csd.sectorsV2 csd % 2 ^ 32 := toNat_shifted

theorem toNat_v1 {csd : List BYTE} (len : csd.length = 16) (other : Csd.structure_ csd ≠ 1)
    (block : 9 ≤ Csd.readBlLen csd ∧ Csd.readBlLen csd ≤ 11) :
    (sectorCount csd).toNat = Csd.sectorsV1 csd := by
  obtain ⟨size, mult, -⟩ := csd_bounds csd
  have small := sectorsV1_le block
  rw [sectorCount_eq len, if_neg other, toNat_shifted]
  unfold Csd.sectorsV1 at *
  rw [Nat.add_comm (Csd.readBlLen csd), Nat.add_right_comm]
  exact Nat.mod_eq_of_lt (by omega)

/-- The count, the shift and the addresses of its sectors, as numbers. -/
theorem exact_some {ty : BYTE} {csd : List BYTE} {n : DWORD} : Exact ty csd (some n) ↔
    n.toNat = capacity ty csd ∧ (0 ≤ shiftCount csd ∧ shiftCount csd ≤ 31) ∧
      (ty &&& ctBlock = 0 → n.toNat ≤ 2 ^ 23) := by
  constructor
  · rintro ⟨⟨n, stored, right⟩, shift, addresses⟩
    cases stored
    refine ⟨right, shift, ?_⟩
    intro bytes
    exact (addresses_fit_iff _).mp (addresses bytes _ rfl)
  · rintro ⟨right, shift, fit⟩
    refine ⟨⟨_, rfl, right⟩, shift, ?_⟩
    rintro bytes n stored
    cases stored
    exact (addresses_fit_iff _).mpr (fit bytes)

theorem exact_iff {ty : BYTE} {csd : List BYTE} (len : csd.length = 16) (register : CsdOf ty csd) :
    Exact ty csd (some (sectorCount csd)) ↔ Decodable ty csd := by
  obtain ⟨size, mult, size2⟩ := csd_bounds csd
  rw [exact_some, shiftCount_eq len]
  cases register with
  | sd2 v2 =>
    rw [sectorCount_eq len, if_pos v2, if_pos v2, toNat_v2]
    have cap : capacity ctSd2 csd = Csd.sectorsV2 csd := rfl
    have dec : Decodable ctSd2 csd ↔ Csd.cSizeV2 csd < 2 ^ 13 := Iff.rfl
    rw [cap, dec]
    unfold Csd.sectorsV2
    constructor
    · rintro ⟨right, -, fit⟩
      have few := fit (by decide)
      omega
    · intro small
      refine ⟨by omega, by decide, fun _ => by omega⟩
  | sd2Block v2 =>
    rw [sectorCount_eq len, if_pos v2, if_pos v2, toNat_v2]
    have cap : capacity (ctSd2 ||| ctBlock) csd = Csd.sectorsV2 csd := rfl
    have dec : Decodable (ctSd2 ||| ctBlock) csd ↔ Csd.cSizeV2 csd < 2 ^ 22 - 1 := Iff.rfl
    rw [cap, dec]
    unfold Csd.sectorsV2
    constructor
    · rintro ⟨right, -, -⟩
      omega
    · intro small
      refine ⟨by omega, by decide, fun bytes => absurd bytes (by decide)⟩
  | sd1 v1code block =>
    have other : Csd.structure_ csd ≠ 1 := by omega
    have small := sectorsV1_le block
    have cap : capacity ctSd1 csd = Csd.sectorsV1 csd := rfl
    have dec : Decodable ctSd1 csd :=
      fun code => absurd code other
    rw [cap, toNat_v1 len other block, if_neg other]
    exact iff_of_true ⟨rfl, by omega, fun _ => small⟩ dec
  | mmc block =>
    have small := sectorsV1_le block
    have cap : capacity ctMmc csd = Csd.sectorsV1 csd := rfl
    have dec : Decodable ctMmc csd ↔
      (Csd.structure_ csd = 1 → Csd.sectorsV2 csd = Csd.sectorsV1 csd) := Iff.rfl
    rw [cap, dec]
    by_cases code : Csd.structure_ csd = 1
    · rw [sectorCount_eq len, if_pos code, if_pos code, toNat_v2]
      have positive : 0 < Csd.sectorsV1 csd := Nat.mul_pos (by omega) (Nat.two_pow_pos _)
      have bound : Csd.sectorsV2 csd ≤ 2 ^ 32 := by
        unfold Csd.sectorsV2
        omega
      constructor
      · rintro ⟨right, -, -⟩ -
        omega
      · intro same
        have same := same code
        exact ⟨by omega, by decide, fun _ => by omega⟩
    · rw [toNat_v1 len code block, if_neg code]
      exact iff_of_true ⟨rfl, by omega, fun _ => small⟩ fun yes => absurd yes code

/-! ## GET_SECTOR_COUNT -/

section
variable {σ : Type} {b : Board σ} {m m' : Machine σ}

/-- The last data block of the bytes received since `m` is `csd`: behind it came its CRC and
the byte of `deselect`. -/
def Received (m m' : Machine σ) (csd : List BYTE) : Prop :=
  csd.length = 16 ∧ ∃ before crc last,
    (tapeSince m m').map Exchange.got = before ++ 0xFE :: (csd ++ [crc, last])

theorem sectorCount_received {fuel : Nat} {dp : DWORD × DWORD} {stored : Option DWORD}
    (run : exec b (ioctl fuel getSectorCount dp) m = some ((.ok, stored), m')) :
    ∃ csd, Received m m' csd ∧ stored = some (sectorCount csd) := by
  cases fuel with
  | zero => cases run
  | succ fuel =>
    rw [exec_ioctl] at run
    split at run
    · cases run
    split at run
    · cases run
    obtain ⟨⟨x, t⟩, arm, ended⟩ := Option.map_eq_some_iff.mp run
    have count : ioctlArm fuel getSectorCount dp = ioctlSectorCount fuel := rfl
    rw [count] at arm
    obtain ⟨csd, u, got, arm⟩ := exec_bind_some.1 arm
    cases csd with
    | none =>
      cases arm
      cases ended
    | some csd =>
      cases arm
      cases ended
      refine ⟨csd, ?_, rfl⟩
      obtain ⟨res, v, sent, got⟩ := exec_bind_some.1 got
      by_cases zero : res = 0
      · rw [if_pos zero] at got
        obtain ⟨new, log, -, block⟩ := puts_rcvrDatablock (l := v.csLevel) fuel 16 σ b v t (some csd) rfl got
        obtain ⟨len, ys, crc, taped⟩ := block csd rfl
        obtain ⟨start, entered, none_⟩ := ioctlEntered_log (b := b) (m := m)
        obtain ⟨command, sentLog⟩ := exec_log sent
        obtain ⟨end_, last, left, taped'⟩ := deselected_log (b := b) (m := t)
        refine ⟨len, (tape command).map Exchange.got ++ ys, crc, last, ?_⟩
        have whole : (t.deselected b).ioctlLeft.log = (end_ ++ (new ++ (command ++ start))) ++ m.log := by
          rw [left, log, ← sentLog, entered]
          simp only [List.append_assoc]
        rw [tapeSince_eq whole]
        simp only [tape_append, taped, taped', none_, List.map_append, fillers, List.map_map,
          List.map_cons, List.map_nil, List.nil_append, List.append_assoc, List.cons_append]
        have same (zs : List BYTE) :
            zs.map (Exchange.got ∘ fun y => ⟨v.csLevel, 0xFF, y⟩) = zs := List.map_id zs
        rw [same, same]
      · rw [if_neg zero] at got
        cases got

/-- Whatever card answers: `ioctl(GET_SECTOR_COUNT)` returns `RES_OK` with a CSD received, and
what it stores is exact just for the registers that it decodes right. -/
theorem sectorCount_exact_iff {fuel : Nat} {dp : DWORD × DWORD} {stored : Option DWORD}
    (run : exec b (ioctl fuel getSectorCount dp) m = some ((.ok, stored), m')) :
    ∃ csd, Received m m' csd ∧ (CsdOf m.drv.cardType csd →
      (Exact m.drv.cardType csd stored ↔ Decodable m.drv.cardType csd)) := by
  obtain ⟨csd, received, rfl⟩ := sectorCount_received run
  exact ⟨csd, received, exact_iff received.1⟩

end

/-- A driver initialised for a card of the type `ty`. -/
def fitted (ty : BYTE) : Machine Scripted where
  drv := { cs := 10, status := 0, cardType := ty }
  out _ := .high
  hz := 15000000
  log := []
  env := { pins := fun _ => .high }

theorem sectorCount_exact_iff_sdhc :
    ∃ stored m', exec (scripted sdhcAnswer) (ioctl 2 getSectorCount (0, 0)) (fitted (ctSd2 ||| ctBlock)) =
        some ((.ok, stored), m') ∧
      ∃ csd, Received (fitted (ctSd2 ||| ctBlock)) m' csd ∧ (CsdOf (ctSd2 ||| ctBlock) csd →
        (Exact (ctSd2 ||| ctBlock) csd stored ↔ Decodable (ctSd2 ||| ctBlock) csd)) := by
  have result : (exec (scripted sdhcAnswer) (ioctl 2 getSectorCount (0, 0))
      (fitted (ctSd2 ||| ctBlock))).map (·.1.1) = some .ok := by
    decide +kernel
  obtain ⟨⟨⟨_, stored⟩, m'⟩, run, rfl⟩ := Option.map_eq_some_iff.mp result
  exact ⟨stored, m', run, sectorCount_exact_iff run⟩

/-- A CSD of MMC with the structure code 1: 64 sectors of 512 bytes. -/
def oldMmcCsd : List BYTE :=
  [0x44, 0x26, 0x00, 0x2A, 0x1F, 0xF9, 0x80, 0x03, 0xC0, 0x00, 0x00, 0x04, 0x40, 0x40, 0x00, 0x01]

/-- An MMC card with that register. -/
def oldMmcAnswer (cmd : BYTE) (_ : DWORD) : List BYTE :=
  if cmd = cmd9 then 0x00 :: 0xFE :: oldMmcCsd ++ [0x00, 0x00] else [0x00]

/-- Its structure code is taken for that of an SDv2 card. -/
theorem old_mmc_taken_for_sdv2 : ∃ stored m',
    exec (scripted oldMmcAnswer) (ioctl 2 getSectorCount (0, 0)) (fitted ctMmc) =
      some ((.ok, stored), m') ∧
    Received (fitted ctMmc) m' oldMmcCsd ∧ CsdOf ctMmc oldMmcCsd ∧ capacity ctMmc oldMmcCsd = 64 ∧
    stored = some 0x0F000400 ∧ ¬ Exact ctMmc oldMmcCsd stored := by
  have result : ((exec (scripted oldMmcAnswer) (ioctl 2 getSectorCount (0, 0)) (fitted ctMmc)).any
      fun x => x.1 == (.ok, some 0x0F000400) &&
        let got := (tapeSince (fitted ctMmc) x.2).map Exchange.got
        got == got.take (got.length - 19) ++ 0xFE :: (oldMmcCsd ++ [0x00, 0xFF])) = true := by
    decide +kernel
  obtain ⟨⟨x, m'⟩, run, rest⟩ := (Option.any_eq_true _ _).mp result
  simp only [Bool.and_eq_true, beq_iff_eq] at rest
  obtain ⟨rfl, received⟩ := rest
  refine ⟨_, m', run, ⟨rfl, _, _, _, received⟩, .mmc (by decide +kernel), by decide +kernel, rfl, ?_⟩
  rintro ⟨⟨n, stored, right⟩, -, -⟩
  cases stored
  revert right
  decide +kernel

end FatFsParticle.Sdspi
