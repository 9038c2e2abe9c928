import FatFsParticle.Format.Making
import FatFsParticle.Dirs.Maps

/-!
# A new volume is found

What `find_volume` takes out of the boot sector that `f_mkfs` wrote is what was planned,
and the volume is empty: every cluster free but that of the root directory of a FAT32
volume, no name in the root, and the number of free clusters of `FSINFO` is right. A plan
without clusters is carried out, too, and then no file system is found.
-/

namespace FatFsParticle.Format
open Interact Program
open Files (FRESULT faRead)
open Drives (FatType TCHAR getLdnumber)
open Usage (Sector Volumes ldWord ldDword checkFs findFat findPartition partitions mounted findVolume)
open Times (stWord stDword stWord_ne stDword_ne ldDword_stDword ldDword_congr)
open Fat (Disk ldWord_stWord ldWord_congr Layout)

/-! ## Stored and loaded -/

section
variable {buf : Sector} {p q : Nat} {bytes : List BYTE}

theorem memCpy_ne (apart : q < p ∨ p + bytes.length ≤ q) : memCpy buf p bytes q = buf q := if_neg (by omega)

theorem ldWord_stWord_ne (v : WORD) (apart : q + 2 ≤ p ∨ p + 2 ≤ q) : ldWord (stWord buf p v) q = ldWord buf q :=
  ldWord_congr (stWord_ne _ _ _ (by omega)) (stWord_ne _ _ _ (by omega))

theorem ldWord_stDword_ne (v : DWORD) (apart : q + 2 ≤ p ∨ p + 4 ≤ q) : ldWord (stDword buf p v) q = ldWord buf q :=
  ldWord_congr (stDword_ne _ _ _ (by omega)) (stDword_ne _ _ _ (by omega))

theorem ldWord_update_ne (b : BYTE) (apart : q + 2 ≤ p ∨ p + 1 ≤ q) :
    ldWord (Function.update buf p b) q = ldWord buf q :=
  ldWord_congr (Function.update_of_ne (by omega) ..) (Function.update_of_ne (by omega) ..)

theorem ldWord_memCpy_ne (apart : q + 2 ≤ p ∨ p + bytes.length ≤ q) : ldWord (memCpy buf p bytes) q = ldWord buf q :=
  ldWord_congr (memCpy_ne (by omega)) (memCpy_ne (by omega))

theorem ldDword_stWord_ne (v : WORD) (apart : q + 4 ≤ p ∨ p + 2 ≤ q) : ldDword (stWord buf p v) q = ldDword buf q :=
  ldDword_congr fun _ _ => stWord_ne _ _ _ (by omega)

theorem ldDword_stDword_ne (v : DWORD) (apart : q + 4 ≤ p ∨ p + 4 ≤ q) :
    ldDword (stDword buf p v) q = ldDword buf q :=
  ldDword_congr fun _ _ => stDword_ne _ _ _ (by omega)

theorem ldDword_update_ne (b : BYTE) (apart : q + 4 ≤ p ∨ p + 1 ≤ q) :
    ldDword (Function.update buf p b) q = ldDword buf q :=
  ldDword_congr fun _ _ => Function.update_of_ne (by omega) ..

theorem ldDword_memCpy_ne (apart : q + 4 ≤ p ∨ p + bytes.length ≤ q) :
    ldDword (memCpy buf p bytes) q = ldDword buf q :=
  ldDword_congr fun _ _ => memCpy_ne (by omega)

/-- A text that is loaded hides what was there. -/
theorem ldDword_memCpy (inside : p ≤ q ∧ q + 4 ≤ p + bytes.length) :
    ldDword (memCpy buf p bytes) q = ldDword (memCpy zeros p bytes) q := by
  apply ldDword_congr
  intro i small
  have here : p ≤ q + i ∧ q + i < p + bytes.length := by omega
  unfold memCpy
  rw [if_pos here, if_pos here]

end

/-! ## The boot sector -/

section
variable {p : Plan} {bVol szVol time : DWORD}

theorem vbr_signature : ldWord (vbr p bVol szVol time) 510 = 0xAA55 := ldWord_stWord ..

theorem vbr_jump : vbr p bVol szVol time 0 = 0xEB ∧ vbr p bVol szVol time 2 = 0x90 := by
  unfold vbr
  constructor <;> dsimp only <;> split_ifs <;>
    simp (disch := decide) only [stWord_ne, stDword_ne, Function.update_of_ne, memCpy_ne] <;> rfl

theorem vbr_bytes : vbr p bVol szVol time 13 = p.pau.setWidth 8 ∧ vbr p bVol szVol time 16 = 1 := by
  unfold vbr
  constructor <;> dsimp only <;> split_ifs <;>
    simp (disch := decide) only [stWord_ne, stDword_ne, Function.update_of_ne, Function.update_self, memCpy_ne]

theorem ldWord_zeros (q : Nat) : ldWord zeros q = 0 := by simp [ldWord]

theorem vbr_words (p : Plan) (bVol szVol time : DWORD) :
    ldWord (vbr p bVol szVol time) 11 = 512 ∧ ldWord (vbr p bVol szVol time) 14 = p.szRsv.setWidth 16 ∧
    ldWord (vbr p bVol szVol time) 17 = if p.fmt = .fat32 then 0 else 512 := by
  unfold vbr
  refine ⟨?_, ?_, ?_⟩ <;> dsimp only <;> split_ifs <;>
    simp (disch := decide) only [ldWord_stWord_ne, ldWord_stDword_ne, ldWord_update_ne, ldWord_memCpy_ne,
      ldWord_stWord]

theorem vbr_total (p : Plan) (bVol szVol time : DWORD) :
    ldWord (vbr p bVol szVol time) 19 = (if szVol < 0x10000 then szVol.setWidth 16 else 0) ∧
    (¬szVol < 0x10000 → ldDword (vbr p bVol szVol time) 32 = szVol) := by
  unfold vbr
  constructor
  · dsimp only
    split_ifs <;>
      simp (disch := decide) only [ldWord_stWord_ne, ldWord_stDword_ne, ldWord_update_ne, ldWord_memCpy_ne,
        ldWord_stWord, ldWord_zeros]
  · intro many
    dsimp only
    rw [if_neg many]
    split_ifs <;>
      simp (disch := decide) only [ldDword_stWord_ne, ldDword_stDword_ne, ldDword_update_ne, ldDword_memCpy_ne,
        ldDword_stDword]

/-- What is particular to a FAT32 volume. -/
theorem vbr_large (bVol szVol time : DWORD) (large : p.fmt = .fat32) :
    ldWord (vbr p bVol szVol time) 22 = 0 ∧ ldDword (vbr p bVol szVol time) 36 = p.szFat ∧
      ldDword (vbr p bVol szVol time) 44 = 2 ∧ ldWord (vbr p bVol szVol time) 48 = 1 ∧
      ldWord (vbr p bVol szVol time) 42 = 0 ∧ ldDword (vbr p bVol szVol time) 82 = 0x33544146 := by
  unfold vbr
  dsimp only
  rw [if_pos large]
  refine ⟨?_, ?_, ?_, ?_, ?_, ?_⟩
  · split_ifs <;>
      simp (disch := decide) only [ldWord_stWord_ne, ldWord_stDword_ne, ldWord_update_ne, ldWord_memCpy_ne, ldWord_zeros]
  · simp (disch := decide) only [ldDword_stWord_ne, ldDword_stDword_ne, ldDword_update_ne, ldDword_memCpy_ne,
      ldDword_stDword]
  · simp (disch := decide) only [ldDword_stWord_ne, ldDword_update_ne, ldDword_memCpy_ne, ldDword_stDword]
  · simp (disch := decide) only [ldWord_stWord_ne, ldWord_update_ne, ldWord_memCpy_ne, ldWord_stWord]
  · split_ifs <;>
      simp (disch := decide) only [ldWord_stWord_ne, ldWord_stDword_ne, ldWord_update_ne, ldWord_memCpy_ne, ldWord_zeros]
  · rw [ldDword_stWord_ne _ (by decide), ldDword_memCpy (by decide)]
    decide

/-- What is particular to the small kinds. -/
theorem vbr_small (bVol szVol time : DWORD) (small : p.fmt ≠ .fat32) :
    ldWord (vbr p bVol szVol time) 22 = p.szFat.setWidth 16 ∧
      ldDword (vbr p bVol szVol time) 54 &&& 0xFFFFFF = 0x544146 := by
  unfold vbr
  dsimp only
  rw [if_neg small]
  constructor
  · simp (disch := decide) only [ldWord_stWord_ne, ldWord_update_ne, ldWord_memCpy_ne, ldWord_stWord]
  · rw [ldDword_stWord_ne _ (by decide), ldDword_memCpy (by decide)]
    decide

theorem checkFs_vbr {view : Usage.View} {s : DWORD} (there : view s = some (vbr p bVol szVol time)) :
    checkFs view s = .fat (vbr p bVol szVol time) := by
  unfold checkFs
  rw [there]
  dsimp only
  rw [if_neg (not_not.2 vbr_signature), if_pos]
  refine ⟨.inr vbr_jump, ?_⟩
  by_cases large : p.fmt = .fat32
  · exact .inr (vbr_large _ _ _ large).2.2.2.2.2
  · exact .inl (vbr_small _ _ _ large).2

/-! ## The partition table -/

theorem mbr_words (fmt : FatType) (bVol szVol : DWORD) :
    ldWord (mbr fmt bVol szVol) 510 = 0xAA55 ∧ mbr fmt bVol szVol 0 = 0 ∧ ldDword (mbr fmt bVol szVol) 454 = bVol := by
  unfold mbr
  dsimp only
  refine ⟨?_, ?_, ?_⟩
  · simp (disch := decide) only [ldWord_stDword_ne, ldWord_update_ne, ldWord_stWord]
  · simp (disch := decide) only [stDword_ne, stWord_ne, Function.update_of_ne]
  · simp (disch := decide) only [ldDword_stDword_ne, ldDword_stDword]

theorem mbr_systems (fmt : FatType) (bVol szVol : DWORD) :
    mbr fmt bVol szVol 450 ≠ 0 ∧ mbr fmt bVol szVol 466 = 0 ∧ mbr fmt bVol szVol 482 = 0 ∧ mbr fmt bVol szVol 498 = 0 := by
  unfold mbr
  refine ⟨?_, ?_, ?_, ?_⟩
  · simp (disch := decide) only [stDword_ne, Function.update_of_ne, Function.update_self]
    split_ifs <;> decide
  · simp (disch := decide) only [stDword_ne, stWord_ne, Function.update_of_ne]
  · simp (disch := decide) only [stDword_ne, stWord_ne, Function.update_of_ne]
  · simp (disch := decide) only [stDword_ne, stWord_ne, Function.update_of_ne]

theorem partitions_mbr {fmt : FatType} : partitions (mbr fmt bVol szVol) = [bVol, 0, 0, 0] := by
  obtain ⟨first, second, third, fourth⟩ := mbr_systems fmt bVol szVol
  have start := (mbr_words fmt bVol szVol).2.2
  change [if mbr fmt bVol szVol 450 ≠ 0 then ldDword (mbr fmt bVol szVol) 454 else 0,
    if mbr fmt bVol szVol 466 ≠ 0 then _ else 0, if mbr fmt bVol szVol 482 ≠ 0 then _ else 0,
    if mbr fmt bVol szVol 498 ≠ 0 then _ else 0] = _
  rw [if_pos first, if_neg (not_not.2 second), if_neg (not_not.2 third), if_neg (not_not.2 fourth), start]

/-- The volume is found where it was made. -/
theorem findFat_made {faulty : Prop} {opt : BYTE} {D : Disk} (made : Made faulty opt p (volumeStart opt) szVol time D) :
    findFat (fun s => some (D s)) = (.fat (vbr p (volumeStart opt) szVol time), volumeStart opt) := by
  have boot : checkFs (fun s => some (D s)) (volumeStart opt) = .fat (vbr p (volumeStart opt) szVol time) :=
    checkFs_vbr (congrArg some made.boot)
  unfold findFat
  by_cases table : opt &&& fmSfd = 0
  · have start : volumeStart opt = 63 := if_neg (not_not.2 table)
    obtain ⟨signature, jump, -⟩ := mbr_words p.fmt (volumeStart opt) szVol
    have first : checkFs (fun s => some (D s)) 0 = .notFat (mbr p.fmt (volumeStart opt) szVol) := by
      unfold checkFs
      dsimp only
      rw [made.table table, if_neg (not_not.2 signature), if_neg]
      rintro ⟨none_ | ⟨none_, -⟩, -⟩
      · exact absurd (jump.symm.trans none_) (by decide)
      · exact absurd (jump.symm.trans none_) (by decide)
    rw [first]
    dsimp only
    have other : volumeStart opt ≠ 0 := by
      rw [start]
      decide
    rw [partitions_mbr, findPartition, if_neg other, boot]
  · have start : volumeStart opt = 0 := if_pos table
    rw [start] at boot ⊢
    rw [boot]

/-! ## What find_volume takes from it -/

variable {szBlk : DWORD}

theorem widen_word {x : DWORD} (small : x.toNat < 2 ^ 16) : (x.setWidth 16).setWidth 32 = x := by
  apply BitVec.eq_of_toNat_eq
  rw [BitVec.toNat_setWidth, BitVec.toNat_setWidth, Nat.mod_eq_of_lt small]
  exact Nat.mod_eq_of_lt x.isLt

theorem fsize_vbr (planned : Planned bVol szVol szBlk p) : Usage.Boot.fsize (vbr p bVol szVol time) = p.szFat := by
  unfold Usage.Boot.fsize
  by_cases large : p.fmt = .fat32
  · obtain ⟨none_, value, -⟩ := vbr_large bVol szVol time large
    rw [if_pos none_, value]
  · obtain ⟨value, -⟩ := vbr_small bVol szVol time large
    have wide := widen_word (planned.short large)
    rw [value, wide, if_neg]
    intro zero
    rw [zero] at wide
    exact planned.szFat_ne wide.symm

theorem fasize_vbr (planned : Planned bVol szVol szBlk p) : Usage.Boot.fasize (vbr p bVol szVol time) = p.szFat := by
  unfold Usage.Boot.fasize Usage.Boot.nFats
  rw [fsize_vbr planned, vbr_bytes.2]
  exact BitVec.mul_one _

theorem csize_vbr (planned : Planned bVol szVol szBlk p) :
    (Usage.Boot.csize (vbr p bVol szVol time)).setWidth 32 = p.pau := by
  have few := planned.unit.le
  unfold Usage.Boot.csize
  rw [vbr_bytes.1]
  apply BitVec.eq_of_toNat_eq
  simp only [BitVec.toNat_setWidth]
  omega

theorem nrsv_vbr (planned : Planned bVol szVol szBlk p) :
    (Usage.Boot.nrsv (vbr p bVol szVol time)).setWidth 32 = p.szRsv := by
  unfold Usage.Boot.nrsv
  rw [(vbr_words p bVol szVol time).2.1, widen_word planned.reserved]

theorem nRootdir_vbr (planned : Planned bVol szVol szBlk p) :
    (Usage.Boot.nRootdir (vbr p bVol szVol time) / 16).setWidth 32 = p.szDir := by
  unfold Usage.Boot.nRootdir
  rw [(vbr_words p bVol szVol time).2.2]
  rcases planned.areas with ⟨large, -, dir⟩ | ⟨small, -, dir⟩
  · rw [if_pos large, dir]
    decide
  · rw [if_neg small, dir]
    decide

theorem tsect_vbr (some_ : szVol ≠ 0) : Usage.Boot.tsect (vbr p bVol szVol time) = szVol := by
  obtain ⟨short, long⟩ := vbr_total p bVol szVol time
  unfold Usage.Boot.tsect
  rw [short]
  by_cases few : szVol < 0x10000
  · have wide := widen_word (x := szVol) (BitVec.lt_def.1 few)
    rw [if_pos few, wide, if_neg]
    intro zero
    rw [zero] at wide
    exact some_ wide.symm
  · rw [if_neg few, if_pos rfl, long few]

theorem toNat_sysect (planned : Planned bVol szVol szBlk p) :
    (Usage.Boot.sysect (vbr p bVol szVol time)).toNat = p.system := by
  have fits := planned.fits
  have bound := szVol.isLt
  unfold Usage.Boot.sysect
  rw [nrsv_vbr planned, fasize_vbr planned, nRootdir_vbr planned]
  unfold Plan.system at fits ⊢
  rw [BitVec.toNat_add, BitVec.toNat_add]
  omega

theorem nclst_vbr (planned : Planned bVol szVol szBlk p) (some_ : szVol ≠ 0) :
    Usage.Boot.nclst (vbr p bVol szVol time) = p.nClst := by
  have sys : (Usage.Boot.sysect (vbr p bVol szVol time)).toNat = p.system := toNat_sysect planned
  have fits := planned.fits
  apply BitVec.eq_of_toNat_eq
  unfold Usage.Boot.nclst
  rw [tsect_vbr some_, csize_vbr planned, BitVec.toNat_udiv, planned.nClst,
    BitVec.toNat_sub_of_le (BitVec.le_def.2 (sys ▸ fits)), sys]

theorem fmt_vbr (planned : Planned bVol szVol szBlk p) (some_ : szVol ≠ 0) :
    Usage.Boot.fmt (vbr p bVol szVol time) = p.fmt := by
  have kind := planned.kind
  unfold Usage.Boot.fmt
  rw [nclst_vbr planned some_]
  simp only [BitVec.le_def]
  have twelve : (0xFF5 : DWORD).toNat = 0xFF5 := rfl
  have sixteen : (0xFFF5 : DWORD).toNat = 0xFFF5 := rfl
  rw [twelve, sixteen]
  cases is : p.fmt <;> rw [is] at kind <;> unfold Kinded at kind
  · rw [if_pos kind]
  · rw [if_neg (by omega), if_pos kind.2]
  · rw [if_neg (by omega), if_neg (by omega)]

/-- The FAT has room for what `find_volume` counts. -/
theorem szbfat_vbr (planned : Planned bVol szVol szBlk p) (some_ : szVol ≠ 0) :
    ¬Usage.Boot.fsize (vbr p bVol szVol time) < (Usage.Boot.szbfat (vbr p bVol szVol time) + 511) / 512 := by
  have room := planned.room
  have few := planned.few
  have entries : (Usage.Boot.nFatent (vbr p bVol szVol time)).toNat = p.nClst.toNat + 2 := by
    unfold Usage.Boot.nFatent
    rw [nclst_vbr planned some_]
    bv_omega
  have bytes : (Usage.Boot.szbfat (vbr p bVol szVol time)).toNat = Fat.szbfat p.fmt (p.nClst.toNat + 2) := by
    unfold Usage.Boot.szbfat
    rw [fmt_vbr planned some_]
    generalize Usage.Boot.nFatent (vbr p bVol szVol time) = n at *
    have kind := planned.kind
    cases is : p.fmt <;> rw [is] at kind <;> unfold Kinded at kind <;> simp only [Fat.szbfat]
    · have low : (n &&& 1).toNat = n.toNat % 2 := by
        rw [BitVec.toNat_and]
        exact Nat.and_one_is_mod n.toNat
      have half : (n * 3 / 2).toNat = n.toNat * 3 / 2 := by
        have triple : (n * 3).toNat = n.toNat * 3 := by bv_omega
        rw [BitVec.toNat_udiv, triple]
        rfl
      rw [BitVec.toNat_add, low, half, entries]
      omega
    · have twice : (n * 2).toNat = n.toNat * 2 := by bv_omega
      rw [twice, entries]
    · have four : (n * 4).toNat = n.toNat * 4 := by bv_omega
      rw [four, entries]
  have least : Fat.szbfat p.fmt (p.nClst.toNat + 2) ≤ 2 ^ 31 := by
    cases p.fmt <;> simp only [Fat.szbfat] <;> omega
  rw [fsize_vbr planned, BitVec.lt_def, BitVec.toNat_udiv, BitVec.toNat_add, bytes]
  have sector : (512 : DWORD).toNat = 512 := rfl
  have more : (511 : DWORD).toNat = 511 := rfl
  rw [sector, more]
  omega

/-- No check fails, but the one that there is a cluster. -/
theorem accepted_vbr (planned : Planned bVol szVol szBlk p) (some_ : szVol ≠ 0) :
    Usage.Boot.Accepted (vbr p bVol szVol time) ↔ p.nClst ≠ 0 := by
  have clusters : Usage.Boot.nclst (vbr p bVol szVol time) = p.nClst := nclst_vbr planned some_
  have kind : Usage.Boot.fmt (vbr p bVol szVol time) = p.fmt := fmt_vbr planned some_
  have unit : (Usage.Boot.csize (vbr p bVol szVol time)).setWidth 32 = p.pau := csize_vbr planned
  have sys : (Usage.Boot.sysect (vbr p bVol szVol time)).toNat = p.system := toNat_sysect planned
  obtain ⟨bytes, -, rootdir⟩ := vbr_words p bVol szVol time
  unfold Usage.Boot.Accepted
  rw [clusters, kind, tsect_vbr some_]
  constructor
  · exact fun ok => ok.2.2.2.2.2.2.1
  · intro cluster
    refine ⟨bytes, .inl vbr_bytes.2, ?_, ?_, ?_, ?_, cluster, ?_, ?_, szbfat_vbr planned some_⟩
    · have other : Usage.Boot.csize (vbr p bVol szVol time) ≠ 0 := by
        intro zero
        rw [zero] at unit
        exact planned.unit.ne_zero unit.symm
      rintro (zero | rest)
      · exact other zero
      · apply rest
        rw [Words.power_iff other]
        obtain ⟨k, -, power⟩ := planned.unit
        refine ⟨k, ?_⟩
        rw [← power, ← unit, BitVec.toNat_setWidth_of_le (by decide)]
    · unfold Usage.Boot.nRootdir
      rw [rootdir]
      split_ifs <;> decide
    · intro zero
      have reserved : (Usage.Boot.nrsv (vbr p bVol szVol time)).setWidth 32 = p.szRsv := nrsv_vbr planned
      rw [zero] at reserved
      have least := planned.reserve.1
      rw [← reserved] at least
      exact absurd least (by decide)
    · rw [BitVec.lt_def, sys]
      exact Nat.not_lt.2 planned.fits
    · intro large
      unfold Usage.Boot.nRootdir
      rw [rootdir, if_pos large]
      exact ⟨(vbr_large _ _ _ large).2.2.2.2.1, rfl⟩
    · intro small
      unfold Usage.Boot.nRootdir
      rw [rootdir, if_neg small]
      decide

/-! ## The object -/

theorem Planned.toNat_database (planned : Planned bVol szVol szBlk p) (given : Given bVol szVol szBlk) :
    (p.bFat + p.szFat + p.szDir).toNat = bVol.toNat + p.system := by
  obtain ⟨fat, -⟩ := planned.places given
  have fits := planned.fits
  have range := given.fits
  unfold Plan.system at fits ⊢
  rw [BitVec.toNat_add, BitVec.toNat_add, fat]
  omega

theorem Planned.toNat_nFatent (planned : Planned bVol szVol szBlk p) : (p.nClst + 2).toNat = p.nClst.toNat + 2 := by
  have few := planned.few
  bv_omega

theorem Planned.toNat_csize (planned : Planned bVol szVol szBlk p) :
    ((p.pau.setWidth 8).setWidth 16).toNat = p.pau.toNat := by
  have few := planned.unit.le
  simp only [BitVec.toNat_setWidth]
  omega

theorem one_copy : (1 : BYTE) = 1 ∨ (1 : BYTE) = 2 := .inl rfl

theorem Planned.entries_some (planned : Planned bVol szVol szBlk p) (some_ : p.nClst ≠ 0) :
    2 < (p.nClst + 2).toNat := by
  have pos : p.nClst.toNat ≠ 0 := fun zero => some_ (BitVec.eq_of_toNat_eq zero)
  rw [planned.toNat_nFatent]
  omega

theorem Planned.entries_few (planned : Planned bVol szVol szBlk p) : (p.nClst + 2).toNat ≤ Fat.limit p.fmt := by
  have kind := planned.kind
  have few := planned.few
  rw [planned.toNat_nFatent]
  cases is : p.fmt <;> rw [is] at kind <;> unfold Kinded at kind <;> simp only [Fat.limit] <;> omega

theorem Planned.entries_room (planned : Planned bVol szVol szBlk p) :
    Fat.szbfat p.fmt (p.nClst + 2).toNat ≤ p.szFat.toNat * 512 := by
  rw [planned.toNat_nFatent]
  exact planned.room

theorem Planned.info_behind (planned : Planned bVol szVol szBlk p) (given : Given bVol szVol szBlk)
    (large : p.fmt = .fat32) : bVol.toNat + 1 < p.bFat.toNat := by
  have reserved := planned.reserve.2 large
  rw [(planned.places given).1]
  omega

theorem Planned.data_behind (planned : Planned bVol szVol szBlk p) (given : Given bVol szVol szBlk) :
    p.bFat.toNat + p.szFat.toNat * (1 : BYTE).toNat ≤ (p.bFat + p.szFat + p.szDir).toNat := by
  have one : (1 : BYTE).toNat = 1 := rfl
  rw [planned.toNat_database given, (planned.places given).1, one]
  unfold Plan.system
  omega

theorem Planned.power (planned : Planned bVol szVol szBlk p) :
    ∃ k ≤ 7, ((p.pau.setWidth 8).setWidth 16).toNat = 2 ^ k := by
  obtain ⟨k, le, is⟩ := planned.unit
  exact ⟨k, le, planned.toNat_csize.trans is⟩

theorem Planned.data_fits (planned : Planned bVol szVol szBlk p) (given : Given bVol szVol szBlk) :
    (p.bFat + p.szFat + p.szDir).toNat + ((p.nClst + 2).toNat - 2) * ((p.pau.setWidth 8).setWidth 16).toNat < 2 ^ 32 := by
  have below := Nat.div_mul_le_self (szVol.toNat - p.system) p.pau.toNat
  have fits := planned.fits
  have range := given.fits
  rw [planned.toNat_database given, planned.toNat_nFatent, planned.toNat_csize, Nat.add_sub_cancel, planned.nClst]
  omega

/-- What stays of the object of a volume with clusters. -/
def Planned.layout (planned : Planned bVol szVol szBlk p) (given : Given bVol szVol szBlk) (some_ : p.nClst ≠ 0) :
    Layout where
  fsType := p.fmt
  nFats := 1
  nRootdir := if p.fmt = .fat32 then 0 else 512
  csize := (p.pau.setWidth 8).setWidth 16
  nFatent := p.nClst + 2
  fsize := p.szFat
  volbase := bVol
  fatbase := p.bFat
  dirbase := if p.fmt = .fat32 then 2 else p.bFat + p.szFat
  database := p.bFat + p.szFat + p.szDir
  copies := one_copy
  some_ := planned.entries_some some_
  few := planned.entries_few
  room := planned.entries_room
  info := planned.info_behind given
  after := planned.data_behind given
  power := planned.power
  fits := planned.data_fits given

/-- The object as `find_volume` leaves it: its window shows some sector. -/
def Planned.object (planned : Planned bVol szVol szBlk p) (given : Given bVol szVol szBlk) (some_ : p.nClst ≠ 0)
    (info : BYTE × DWORD × DWORD) (D : Disk) (winsect : DWORD) : Fat.FATFS where
  toLayout := planned.layout given some_
  fsiFlag := info.1
  lastClst := info.2.1
  freeClst := info.2.2
  wflag := false
  winsect := winsect
  win := D winsect

theorem flat_object (planned : Planned bVol szVol szBlk p) (given : Given bVol szVol szBlk) (some_ : p.nClst ≠ 0)
    (large : szVol ≠ 0) (view : Usage.View) (D : Disk) (winsect : DWORD) :
    (planned.object given some_ (Usage.readFsinfo view bVol (vbr p bVol szVol time)) D winsect).flat =
      mounted view bVol (vbr p bVol szVol time) := by
  have sys : Usage.Boot.sysect (vbr p bVol szVol time) = p.szRsv + p.szFat + p.szDir := by
    unfold Usage.Boot.sysect
    rw [nrsv_vbr planned, fasize_vbr planned, nRootdir_vbr planned]
  have base : p.bFat + p.szFat + p.szDir = bVol + (p.szRsv + p.szFat + p.szDir) := by
    rw [planned.fat, BitVec.add_assoc, BitVec.add_assoc, BitVec.add_assoc]
  have dir : (if p.fmt = .fat32 then ldDword (vbr p bVol szVol time) 44 else p.bFat + p.szFat) =
      if p.fmt = .fat32 then 2 else p.bFat + p.szFat := by
    split_ifs with kind
    · exact (vbr_large _ _ _ kind).2.2.1
    · rfl
  have unit : Usage.Boot.csize (vbr p bVol szVol time) = (p.pau.setWidth 8).setWidth 16 := by
    unfold Usage.Boot.csize
    rw [vbr_bytes.1]
  have entries : Usage.Boot.nFatent (vbr p bVol szVol time) = p.nClst + 2 := by
    unfold Usage.Boot.nFatent
    rw [nclst_vbr planned large]
  have rootdir : Usage.Boot.nRootdir (vbr p bVol szVol time) = if p.fmt = .fat32 then 0 else 512 :=
    (vbr_words p bVol szVol time).2.2
  have fats : Usage.Boot.nFats (vbr p bVol szVol time) = 1 := vbr_bytes.2
  unfold mounted
  simp only [fmt_vbr planned large, fsize_vbr planned, fasize_vbr planned, nrsv_vbr planned, ← planned.fat, sys, ← base,
    dir, unit, entries, rootdir, fats]
  rfl

end

/-! ## Nothing in it -/

theorem fatHead_behind {fmt : FatType} {k : Nat} (behind : (if fmt = .fat32 then 12 else 4) ≤ k) : fatHead fmt k = 0 := by
  unfold fatHead
  split_ifs at behind ⊢ <;> simp (disch := omega) only [stDword_ne]

/-- The first sector of the FAT, as a row of entries. -/
theorem entry_fatHead (fmt : FatType) {c : DWORD} (two : 2 ≤ c.toNat) :
    Fat.entry (fatHead fmt) fmt c = if fmt = .fat32 ∧ c = 2 then 0x0FFFFFFF else 0 := by
  cases fmt with
  | fat12 =>
    have low {k : Nat} (three : 3 ≤ k) : fatHead .fat12 k = 0 := by
      by_cases here : k = 3
      · subst here
        rfl
      · exact fatHead_behind (show 4 ≤ k by omega)
    have other : ¬(FatType.fat12 = FatType.fat32 ∧ c = 2) := by simp
    simp only [Fat.entry]
    rw [low (by omega), low (by omega), if_neg other]
    split_ifs <;> rfl
  | fat16 =>
    have first : fatHead .fat16 (c.toNat * 2) = 0 := fatHead_behind (show 4 ≤ c.toNat * 2 by omega)
    have second : fatHead .fat16 (c.toNat * 2 + 1) = 0 := fatHead_behind (show 4 ≤ c.toNat * 2 + 1 by omega)
    have other : ¬(FatType.fat16 = FatType.fat32 ∧ c = 2) := by simp
    simp only [Fat.entry, ldWord]
    rw [first, second, if_neg other]
    rfl
  | fat32 =>
    simp only [Fat.entry, true_and]
    by_cases here : c = 2
    · subst here
      rw [if_pos rfl]
      decide
    · have other : c.toNat ≠ 2 := fun same => here (BitVec.eq_of_toNat_eq same)
      have none_ : ldDword (fatHead .fat32) (c.toNat * 4) = ldDword zeros (c.toNat * 4) :=
        ldDword_congr fun i _ => fatHead_behind (show 12 ≤ c.toNat * 4 + i by omega)
      rw [none_, if_neg here]
      simp [ldDword, ldWord]

section
variable {faulty : Prop} {opt : BYTE} {p : Plan} {bVol szVol szBlk time : DWORD} {D : Disk}
  {planned : Planned bVol szVol szBlk p} {given : Given bVol szVol szBlk} {some_ : p.nClst ≠ 0}

theorem fatBytes_made (made : Made faulty opt p bVol szVol time D) {k : Nat} (inside : k < p.szFat.toNat * 512) :
    (planned.layout given some_).fatBytes D k = fatHead p.fmt k := by
  have place := (planned.layout given some_).toNat_fatSector inside
  unfold Layout.fatBytes
  by_cases first : k < 512
  · have zero : k / 512 = 0 := Nat.div_eq_of_lt first
    have here : (planned.layout given some_).fatbase + BitVec.ofNat 32 (k / 512) = p.bFat := by
      rw [zero]
      exact BitVec.add_zero _
    rw [here, made.head, Nat.mod_eq_of_lt first]
  · have behind : fatHead p.fmt k = 0 := by
      apply fatHead_behind
      split_ifs <;> omega
    have fat : (planned.layout given some_).fatbase = p.bFat := rfl
    rw [behind, made.empty _ (by rw [place, fat]; omega) (by rw [place, fat]; omega)]

/-- Every cluster is free but that of the root of a FAT32 volume, which ends there. -/
theorem table_made (made : Made faulty opt p bVol szVol time D) {c : DWORD}
    (cluster : (planned.layout given some_).Cluster c) :
    (planned.layout given some_).table D c = if p.fmt = .fat32 ∧ c = 2 then 0x0FFFFFFF else 0 := by
  have two : 2 ≤ c.toNat := BitVec.le_def.1 cluster.1
  have inside : c.toNat < (planned.layout given some_).nFatent.toNat := BitVec.lt_def.1 cluster.2
  have room := (planned.layout given some_).room
  unfold Layout.table
  rw [if_neg (not_or.2 ⟨BitVec.not_lt.2 cluster.1, BitVec.not_le.2 cluster.2⟩), ← entry_fatHead p.fmt two]
  exact Fat.entry_congr inside fun k less => fatBytes_made made (Nat.lt_of_lt_of_le less room)

/-- The chain of the root directory. -/
def Plan.rootChain (p : Plan) : List DWORD := if p.fmt = .fat32 then [2] else []

theorem cluster_root (planned : Planned bVol szVol szBlk p) (given : Given bVol szVol szBlk) (some_ : p.nClst ≠ 0) :
    (planned.layout given some_).Cluster 2 := by
  refine ⟨BitVec.le_refl _, BitVec.lt_def.2 ?_⟩
  exact (planned.layout given some_).some_

theorem laid_made (made : Made faulty opt p bVol szVol time D) :
    Dirs.Laid (planned.layout given some_) D 0 p.rootChain where
  root := by
    obtain ⟨fat, inside⟩ := planned.places given
    have range := given.fits
    have base : (p.bFat + p.szFat).toNat = p.bFat.toNat + p.szFat.toNat := by
      rw [BitVec.toNat_add]
      omega
    have one : (1 : BYTE).toNat = 1 := rfl
    constructor
    · change (if p.fmt = .fat32 then (0 : WORD) else 512).toNat % 16 = 0
      split_ifs <;> rfl
    · intro small
      replace small : p.fmt ≠ .fat32 := small
      change p.bFat.toNat + p.szFat.toNat * (1 : BYTE).toNat ≤ (if p.fmt = .fat32 then 2 else p.bFat + p.szFat).toNat
      rw [if_neg small, base, one, Nat.mul_one]
    · intro small
      replace small : p.fmt ≠ .fat32 := small
      have dir : p.szDir.toNat = 32 := by
        rcases planned.areas with ⟨large, -⟩ | ⟨-, -, dir⟩
        · exact absurd large small
        · rw [dir]
          rfl
      have database := planned.toNat_database given
      change (if p.fmt = .fat32 then 2 else p.bFat + p.szFat).toNat +
        (if p.fmt = .fat32 then (0 : WORD) else 512).toNat / 16 ≤ (p.bFat + p.szFat + p.szDir).toNat
      rw [if_neg small, if_neg small, base, database, fat]
      unfold Plan.system
      have entries : (512 : WORD).toNat / 16 = 32 := rfl
      omega
  start := by
    change (if 0 = 0 ∧ p.fmt = .fat32 then (if p.fmt = .fat32 then (2 : DWORD) else p.bFat + p.szFat) else 0) = _
    unfold Plan.rootChain
    split_ifs <;> simp_all
  static := by
    unfold Plan.rootChain
    intro none_ large
    replace large : p.fmt = .fat32 := large
    rw [if_pos large] at none_
    cases none_
  linked := by
    unfold Plan.rootChain
    split_ifs with large
    · change Layout.Last _ (Layout.table _ D 2)
      have few := (planned.layout given some_).few
      rw [table_made made (cluster_root planned given some_), if_pos ⟨large, rfl⟩]
      refine BitVec.le_def.2 (Nat.le_trans few ?_)
      change Fat.limit p.fmt ≤ _
      rw [large]
      decide
    · trivial
  inside := by
    unfold Plan.rootChain
    intro c mem
    split_ifs at mem
    · rw [List.mem_singleton.1 mem]
      exact cluster_root planned given some_
    · cases mem

/-- The sectors of the root directory are those behind the FAT. -/
theorem root_place (made : Made faulty opt p bVol szVol time D) {q : Nat}
    (inside : q < Dirs.width (planned.layout given some_) p.rootChain) :
    p.bFat.toNat + p.szFat.toNat ≤ (Dirs.sectorAt (planned.layout given some_) p.rootChain q).toNat ∧
      (Dirs.sectorAt (planned.layout given some_) p.rootChain q).toNat <
        p.bFat.toNat + p.szFat.toNat + p.szRoot.toNat := by
  have laid : Dirs.Laid (planned.layout given some_) D 0 p.rootChain := laid_made made
  have place := (Dirs.toNat_sectorAt laid.root laid.static laid.inside inside).1
  obtain ⟨fat, fits⟩ := planned.places given
  have range := given.fits
  rw [place]
  unfold Dirs.width at inside
  by_cases large : p.fmt = .fat32
  · have chain : p.rootChain = [2] := if_pos large
    have unit : (planned.layout given some_).csize.toNat = p.pau.toNat := planned.toNat_csize
    have database : (planned.layout given some_).database.toNat = p.bFat.toNat + p.szFat.toNat := by
      have dir : p.szDir.toNat = 0 := by
        rcases planned.areas with ⟨-, -, dir⟩ | ⟨small, -⟩
        · rw [dir]
          rfl
        · exact absurd large small
      refine (planned.toNat_database given).trans ?_
      unfold Plan.system
      omega
    have root : p.szRoot = p.pau := if_pos large
    rw [chain, if_neg (by simp), unit, List.length_singleton, Nat.one_mul] at inside
    rw [chain, if_neg (by simp), unit, database, Nat.div_eq_of_lt inside, Nat.mod_eq_of_lt inside, root]
    have two : (List.getD [(2 : DWORD)] 0 0).toNat = 2 := rfl
    rw [two]
    omega
  · have chain : p.rootChain = [] := if_neg large
    have dirbase : (planned.layout given some_).dirbase.toNat = p.bFat.toNat + p.szFat.toNat := by
      change (if p.fmt = .fat32 then 2 else p.bFat + p.szFat).toNat = _
      rw [if_neg large, BitVec.toNat_add]
      omega
    have root : p.szRoot.toNat = 32 := by
      unfold Plan.szRoot
      rw [if_neg large]
      rcases planned.areas with ⟨other, -⟩ | ⟨-, -, dir⟩
      · exact absurd other large
      · rw [dir]
        rfl
    have entries : (planned.layout given some_).nRootdir.toNat / 16 = 32 := by
      change (if p.fmt = .fat32 then (0 : WORD) else 512).toNat / 16 = 32
      rw [if_neg large]
      rfl
    rw [chain, if_pos rfl, entries] at inside
    rw [chain, if_pos rfl, dirbase]
    omega

/-- All entries of the root directory are the end mark. -/
theorem stops_made (made : Made faulty opt p bVol szVol time D) :
    ∀ e ∈ Dirs.slots (planned.layout given some_) D p.rootChain, Dirs.kinds.stop e := by
  have pos : p.szFat.toNat ≠ 0 := fun zero => planned.szFat_ne (BitVec.eq_of_toNat_eq zero)
  intro e mem
  obtain ⟨n, less, rfl⟩ := List.mem_map.1 mem
  obtain ⟨low, high⟩ := root_place made (Dirs.width_of_size (List.mem_range.1 less))
  rw [made.empty _ (by omega) high]
  rfl

variable (planned given some_) in
/-- The root directory is the empty map. -/
theorem has_made (made : Made faulty opt p bVol szVol time D) (info : BYTE × DWORD × DWORD) (winsect : DWORD) :
    Dirs.Home.Has ⟨planned.object given some_ info D winsect, D, 0⟩ fun _ => none := by
  have shown : Dirs.Shown (planned.layout given some_) (planned.object given some_ info D winsect) D D :=
    ⟨rfl, fun _ => id, fun _ => .inl, fun _ _ _ => rfl, fun _ => rfl⟩
  have laid : Dirs.Laid (planned.layout given some_) D 0 p.rootChain := laid_made made
  have stops : ∀ e ∈ Dirs.slots (planned.layout given some_) D p.rootChain, Dirs.kinds.stop e := stops_made made
  exact ⟨D, p.rootChain, shown, laid, Slots.Kinds.Tidy.nil.append stops,
    (funext (Slots.Kinds.get_stops stops)).symm⟩

theorem frees_made (made : Made faulty opt p bVol szVol time D) :
    ((planned.layout given some_).frees D).card = if p.fmt = .fat32 then p.nClst.toNat - 1 else p.nClst.toNat := by
  have all : (planned.layout given some_).clusters.card = p.nClst.toNat := by
    rw [Layout.card_clusters]
    change (p.nClst + 2).toNat - 2 = _
    rw [planned.toNat_nFatent, Nat.add_sub_cancel]
  split_ifs with large
  · have others : (planned.layout given some_).frees D = (planned.layout given some_).clusters.erase 2 := by
      ext c
      rw [Layout.mem_frees, Finset.mem_erase, Layout.mem_clusters]
      constructor
      · rintro ⟨cluster, free⟩
        refine ⟨?_, cluster⟩
        rintro rfl
        rw [table_made made cluster, if_pos ⟨large, rfl⟩] at free
        exact absurd free (by decide)
      · rintro ⟨other, cluster⟩
        exact ⟨cluster, (table_made made cluster).trans (if_neg fun both => other both.2)⟩
    rw [others, Finset.card_erase_of_mem ((Layout.mem_clusters _ 2).2 (cluster_root planned given some_)), all]
  · have others : (planned.layout given some_).frees D = (planned.layout given some_).clusters := by
      ext c
      rw [Layout.mem_frees, Layout.mem_clusters]
      exact ⟨fun both => both.1, fun cluster => ⟨cluster, (table_made made cluster).trans (if_neg fun both => large both.1)⟩⟩
    rw [others, all]

/-- `FSINFO` as it is read. -/
theorem readFsinfo_made (made : Made faulty opt p bVol szVol time D) (planned : Planned bVol szVol szBlk p)
    (large : p.fmt = .fat32) (some_ : szVol ≠ 0) (sound : ¬faulty) :
    Usage.readFsinfo (fun s => some (D s)) bVol (vbr p bVol szVol time) = (0, 2, p.nClst - 1) := by
  have signature : ldWord (fsinfo p.nClst) 510 = 0xAA55 := ldWord_stWord ..
  have lead : ldDword (fsinfo p.nClst) 0 = 0x41615252 := by
    unfold fsinfo
    simp (disch := decide) only [ldDword_stWord_ne, ldDword_stDword_ne, ldDword_stDword]
  have struc : ldDword (fsinfo p.nClst) 484 = 0x61417272 := by
    unfold fsinfo
    simp (disch := decide) only [ldDword_stWord_ne, ldDword_stDword_ne, ldDword_stDword]
  have count : ldDword (fsinfo p.nClst) 488 = p.nClst - 1 := by
    unfold fsinfo
    simp (disch := decide) only [ldDword_stWord_ne, ldDword_stDword_ne, ldDword_stDword]
  have next : ldDword (fsinfo p.nClst) 492 = 2 := by
    unfold fsinfo
    simp (disch := decide) only [ldDword_stWord_ne, ldDword_stDword]
  unfold Usage.readFsinfo
  dsimp only
  rw [if_pos ⟨(fmt_vbr planned some_).trans large, (vbr_large _ _ _ large).2.2.2.1⟩, made.info large sound,
    if_pos ⟨signature, lead, struc⟩, count, next]

end

/-! ## f_mkfs and what follows -/

section
variable {faulty : Prop} {m : Medium} {volumes vol : Nat} {path : Option (List TCHAR)} {opt : BYTE} {au : DWORD}
  {len : UINT} {time : DWORD} {s s' : Volumes} {D D' : Disk} {res : FRESULT}

/-- `FR_OK` says that a plan was carried out. -/
theorem fMkfs_ok (named : getLdnumber volumes path = some vol)
    (run : Ends (rules faulty m) (fMkfs volumes path opt au len time s) D (.ok, s') D') :
    s' = unmounted s vol ∧ (∀ t, Outside (volumeStart opt) (m.room opt) t → D' t = D t) ∧
      ∃ p, m.verdict opt au len = .ok p ∧ m.Plans opt p ∧
        Made faulty opt p (volumeStart opt) (m.room opt) time D' := by
  obtain ⟨volumes', outcome⟩ := run.of_twp (twp_fMkfs named au len s)
  refine ⟨volumes', ?_⟩
  generalize is : FRESULT.ok = res at outcome
  cases outcome with
  | refused told => exact absurd is.symm (Medium.verdict_error told).1
  | failed => cases is
  | made told plans rest made => exact ⟨rest, _, told, plans, made⟩

/-- What was decided before anything is written is what a drive that does not fail
answers, and nothing but the volume and the partition table is written. -/
theorem format_decided (named : getLdnumber volumes path = some vol)
    (run : Ends (rules faulty m) (fMkfs volumes path opt au len time s) D (res, s') D') :
    s' = unmounted s vol ∧ (∀ t, Outside (volumeStart opt) (m.room opt) t → D' t = D t) ∧
      match m.verdict opt au len with
      | .error told => res = told ∧ D' = D ∨ res = .diskErr ∧ faulty
      | .ok p => res = .ok ∧ Made faulty opt p (volumeStart opt) (m.room opt) time D' ∨ res = .diskErr ∧ faulty := by
  obtain ⟨volumes', outcome⟩ := run.of_twp (twp_fMkfs named au len s)
  refine ⟨volumes', ?_⟩
  change Outcome faulty m opt au len time D res D' at outcome
  cases outcome with
  | refused told =>
    refine ⟨fun _ _ => rfl, ?_⟩
    rw [told]
    exact .inl ⟨rfl, rfl⟩
  | failed bad rest =>
    refine ⟨rest, ?_⟩
    cases m.verdict opt au len with
    | error told => exact .inr ⟨rfl, bad⟩
    | ok p => exact .inr ⟨rfl, bad⟩
  | made told plans rest made =>
    refine ⟨rest, ?_⟩
    rw [told]
    exact .inl ⟨rfl, made⟩

/-- The sectors of a volume are some. -/
theorem Medium.Plans.room_ne {p : Plan} (plans : m.Plans opt p) : m.room opt ≠ 0 := by
  intro none_
  have large := plans.large
  rw [none_] at large
  exact absurd large (by decide)

/-- `find_volume` on an object that is not mounted. -/
theorem findVolume_made {fs : Usage.FATFS} {p : Plan} (named : getLdnumber volumes path = some vol)
    (registered : s vol = some fs) (plans : m.Plans opt p)
    (made : Made faulty opt p (volumeStart opt) (m.room opt) time D) {mode : BYTE} {a : Usage.Answers}
    (granted : a.granted) (ready : a.init &&& staNoinit = 0)
    (writable : mode &&& ~~~faRead ≠ 0 → a.init &&& staProtect = 0) (view : a.view = fun t => some (D t)) :
    findVolume volumes path mode a (unmounted s vol) =
      if p.nClst = 0 then (.noFilesystem, some (vol, { fs with fsType := none }), unmounted s vol)
      else
        let fs := mounted a.view (volumeStart opt) (vbr p (volumeStart opt) (m.room opt) time)
        (.ok, some (vol, fs), Function.update s vol (some fs)) := by
  have here : unmounted s vol = Function.update s vol (some { fs with fsType := none }) := by
    unfold unmounted
    rw [registered]
    rfl
  have blank : (unmounted s vol) vol = some { fs with fsType := none } := by
    rw [here, Function.update_self]
  have boot : findFat a.view = _ := view ▸ findFat_made made
  have accepted : Usage.Boot.Accepted (vbr p (volumeStart opt) (m.room opt) time) ↔ p.nClst ≠ 0 :=
    accepted_vbr plans.planned plans.room_ne
  have unlocked : ¬(mode &&& ~~~faRead ≠ 0 ∧ a.init &&& staProtect ≠ 0) := fun both => both.2 (writable both.1)
  unfold findVolume
  rw [named]
  dsimp only
  rw [blank]
  dsimp only
  rw [if_neg (not_not.2 granted), if_neg (fun valid => absurd valid.1 (by decide)), if_neg (not_not.2 ready),
    if_neg unlocked, boot]
  dsimp only
  by_cases none_ : p.nClst = 0
  · rw [if_neg (fun ok => accepted.1 ok none_), if_pos none_, here, Function.update_idem]
  · rw [if_pos (accepted.2 none_), if_neg none_, here, Function.update_idem, Function.update_idem]

/-- The object of a volume where nothing is: no name in the root directory, no cluster in
use but its, and the free clusters counted right if the volume has `FSINFO`. -/
structure Fresh (faulty : Prop) (p : Plan) (D : Disk) (fs : Fat.FATFS) : Prop where
  kind : fs.fsType = p.fmt
  clusters : fs.nFatent = p.nClst + 2
  root : Dirs.Home.Has ⟨fs, D, 0⟩ fun _ => none
  free : ∀ c, fs.Cluster c → (fs.table D c = 0 ↔ ¬(p.fmt = .fat32 ∧ c = 2))
  counted : p.fmt = .fat32 → ¬faulty → fs.freeClst.toNat = (fs.frees D).card
  unknown : p.fmt ≠ .fat32 → fs.freeClst = 0xFFFFFFFF

theorem fresh_made {p : Plan} (plans : m.Plans opt p) (some_ : p.nClst ≠ 0)
    (made : Made faulty opt p (volumeStart opt) (m.room opt) time D) :
    ∃ fs : Fat.FATFS, Fresh faulty p D fs ∧
      fs.flat = mounted (fun t => some (D t)) (volumeStart opt) (vbr p (volumeStart opt) (m.room opt) time) := by
  let info := Usage.readFsinfo (fun t => some (D t)) (volumeStart opt) (vbr p (volumeStart opt) (m.room opt) time)
  refine ⟨plans.planned.object plans.given some_ info D 0, ?_, flat_object plans.planned plans.given some_ plans.room_ne ..⟩
  constructor
  case kind => rfl
  case clusters => rfl
  case root => exact has_made plans.planned plans.given some_ made info 0
  case free =>
    intro c cluster
    change (plans.planned.layout plans.given some_).table D c = 0 ↔ _
    rw [table_made made cluster]
    split_ifs with root
    · exact iff_of_false (by decide) (not_not.2 root)
    · exact iff_of_true rfl root
  case counted =>
    intro large sound
    have told : info = _ := readFsinfo_made made plans.planned large plans.room_ne sound
    have pos : p.nClst.toNat ≠ 0 := fun zero => some_ (BitVec.eq_of_toNat_eq zero)
    have one : (1 : DWORD).toNat = 1 := rfl
    change info.2.2.toNat = ((plans.planned.layout plans.given some_).frees D).card
    rw [told, frees_made made, if_pos large, BitVec.toNat_sub_of_le (BitVec.le_def.2 (by omega)), one]
  case unknown =>
    intro small
    have kind : Usage.Boot.fmt (vbr p (volumeStart opt) (m.room opt) time) = p.fmt := fmt_vbr plans.planned plans.room_ne
    change (Usage.readFsinfo ..).2.2 = _
    unfold Usage.readFsinfo
    dsimp only
    rw [if_neg fun both => small (kind ▸ both.1)]

/-- After an `FR_OK` the volume is mounted, and empty, if the plan has a cluster. If it has
none there is no file system for `find_volume`; a small volume can come to that on a drive
of large blocks, where the FAT is stretched to the next block and nothing is left behind
it. -/
theorem formatted_mounts {fs : Usage.FATFS} (named : getLdnumber volumes path = some vol) (registered : s vol = some fs)
    (run : Ends (rules faulty m) (fMkfs volumes path opt au len time s) D (.ok, s') D') {mode : BYTE} {a : Usage.Answers}
    (granted : a.granted) (ready : a.init &&& staNoinit = 0) (writable : mode &&& ~~~faRead ≠ 0 → a.init &&& staProtect = 0)
    (view : a.view = fun t => some (D' t)) :
    ∃ p, m.verdict opt au len = .ok p ∧
      ((eraseBlock m.block).toNat ≤ 16 ∨ 65696 ≤ (m.room opt).toNat → p.nClst ≠ 0) ∧
      if p.nClst = 0 then (findVolume volumes path mode a s').1 = .noFilesystem
      else ∃ fs', Fresh faulty p D' fs' ∧
        findVolume volumes path mode a s' = (.ok, some (vol, fs'.flat), Function.update s vol (some fs'.flat)) := by
  obtain ⟨rfl, -, p, told, plans, made⟩ := fMkfs_ok named run
  have found := findVolume_made named registered plans made granted ready writable view
  refine ⟨p, told, plans.planned.nClst_ne, ?_⟩
  split_ifs with none_
  · rw [found, if_pos none_]
  · obtain ⟨fs', fresh, flat⟩ := fresh_made plans none_ made
    refine ⟨fs', fresh, ?_⟩
    rw [found, if_neg none_, flat, view]

end

/-! ## Two small drives -/

/-- A drive of few sectors. -/
def sampleMedium (size : DWORD) (block : Option DWORD) : Medium := ⟨0, size, block⟩

def sampleVolumes : Volumes := fun _ => some (mounted (fun _ => none) 0 zeros)

theorem ends_sample (size : DWORD) (block : Option DWORD) {p : Plan}
    (told : (sampleMedium size block).verdict 9 0 512 = .ok p) :
    ∃ s' D', Ends (rules False (sampleMedium size block)) (fMkfs 1 (some []) 9 0 512 0 sampleVolumes)
      (fun _ => zeros) (.ok, s') D' := by
  have named : getLdnumber 1 (some []) = some 0 := by decide
  have ends : ∃ r D', Ends (rules False (sampleMedium size block)) (fMkfs 1 (some []) 9 0 512 0 sampleVolumes)
      (fun _ => zeros) r D' := exists_ends _ _ (twp_fMkfs named 0 512 sampleVolumes)
  obtain ⟨⟨res, s'⟩, D', run⟩ := ends
  obtain ⟨-, outcome⟩ := run.of_twp (twp_fMkfs named 0 512 sampleVolumes)
  change Outcome False _ 9 0 512 0 _ res D' at outcome
  refine ⟨s', D', ?_⟩
  cases outcome with
  | refused error => cases told.symm.trans error
  | failed bad => exact bad.elim
  | made => exact run

theorem formatted_mounts_sample :
    (∃ s' D', Ends (rules False (sampleMedium 256 none)) (fMkfs 1 (some []) 9 0 512 0 sampleVolumes)
        (fun _ => zeros) (.ok, s') D' ∧
      (findVolume 1 (some []) faRead { view := fun t => some (D' t) } s').1 = .ok) ∧
    ∃ s' D', Ends (rules False (sampleMedium 128 (some 128))) (fMkfs 1 (some []) 9 0 512 0 sampleVolumes)
        (fun _ => zeros) (.ok, s') D' ∧
      (findVolume 1 (some []) faRead { view := fun t => some (D' t) } s').1 = .noFilesystem := by
  have named : getLdnumber 1 (some []) = some 0 := by decide
  have ready : (0 : DSTATUS) &&& staNoinit = 0 := by decide
  have reads : faRead &&& ~~~faRead = 0 := by decide
  have large : (sampleMedium 256 none).verdict 9 0 512 = .ok ⟨.fat12, 1, 222, 1, 1, 32, 1⟩ := by decide
  have small : (sampleMedium 128 (some 128)).verdict 9 0 512 = .ok ⟨.fat12, 1, 0, 1, 95, 32, 1⟩ := by decide
  constructor
  · obtain ⟨s', D', run⟩ := ends_sample 256 none large
    obtain ⟨p, told, -, found⟩ := formatted_mounts named rfl run
      (a := { view := fun t => some (D' t) }) rfl ready (fun writes => absurd reads writes) rfl
    cases large.symm.trans told
    obtain ⟨fs', -, found⟩ := found
    exact ⟨s', D', run, congrArg Prod.fst found⟩
  · obtain ⟨s', D', run⟩ := ends_sample 128 (some 128) small
    obtain ⟨p, told, -, found⟩ := formatted_mounts named rfl run
      (a := { view := fun t => some (D' t) }) rfl ready (fun writes => absurd reads writes) rfl
    cases small.symm.trans told
    exact ⟨s', D', run, found⟩

theorem format_decided_sample :
    ∃ s' D', Ends (rules False (sampleMedium 256 none)) (fMkfs 1 (some []) 9 0 512 0 sampleVolumes)
        (fun _ => zeros) (.ok, s') D' ∧
      (∀ t, Outside 0 256 t → D' t = zeros) ∧ D' 0 = vbr ⟨.fat12, 1, 222, 1, 1, 32, 1⟩ 0 256 0 := by
  have named : getLdnumber 1 (some []) = some 0 := by decide
  have large : (sampleMedium 256 none).verdict 9 0 512 = .ok ⟨.fat12, 1, 222, 1, 1, 32, 1⟩ := by decide
  have start : volumeStart 9 = 0 := by decide
  have room : (sampleMedium 256 none).room 9 = 256 := by decide
  obtain ⟨s', D', run⟩ := ends_sample 256 none large
  obtain ⟨-, rest, decided⟩ := format_decided named run
  rw [start, room] at rest
  rw [large] at decided
  obtain ⟨-, made⟩ | ⟨-, bad⟩ := decided
  · rw [start, room] at made
    exact ⟨s', D', run, rest, made.boot⟩
  · exact bad.elim

end FatFsParticle.Format
