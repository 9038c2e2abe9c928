import FatFsParticle.Fat.Window
import FatFsParticle.Words.Masks

/-!
# Where a new volume puts what

`f_mkfs` tries cluster sizes until the number of clusters fits the kind of the volume. All
of it is done in the widths of the source; `Planned` says in numbers what a volume has that
is not given up. The configuration of the repository: sectors of 512 bytes, one FAT, no
partitions to choose from, no exFAT.
-/

namespace FatFsParticle.Format
open Files (FRESULT)
open Drives (FatType)
open Fat (szbfat)

abbrev fmFat : BYTE := 0x01
abbrev fmFat32 : BYTE := 0x02
abbrev fmAny : BYTE := 0x07
abbrev fmSfd : BYTE := 0x08

abbrev maxFat12 : DWORD := 0xFF5
abbrev maxFat16 : DWORD := 0xFFF5
abbrev maxFat32 : DWORD := 0x0FFFFFF5

/-- Boundaries of the cluster sizes of a FAT12 or FAT16 volume. -/
abbrev cst : List DWORD := [1, 4, 16, 64, 256, 512]

abbrev cst32 : List DWORD := [1, 2, 4, 8, 16, 32]

/-- The loop over a table of boundaries. -/
def tableLoop (n pau : DWORD) : List DWORD → DWORD
  | [] => pau
  | c :: t => if c ≤ n then tableLoop n (pau <<< 1) t else pau

/-- `pau` of a turn, which is chosen if `au` is 0. -/
def clusterSize (szVol : DWORD) (fmt : FatType) (au : DWORD) : DWORD :=
  if au = 0 then
    if fmt = .fat32 then tableLoop (szVol / 0x20000) 1 cst32 else tableLoop (szVol / 0x1000) 1 cst
  else au

/-- What a volume is made with. -/
structure Plan where
  fmt : FatType
  pau : DWORD
  nClst : DWORD
  szRsv : DWORD
  szFat : DWORD
  szDir : DWORD
  bFat : DWORD
  deriving DecidableEq

/-- How one turn of the loop ends. -/
inductive Attempt where
  | retry (fmt : FatType) (au : DWORD)
  | aborted
  | done (plan : Plan)
  deriving DecidableEq

/-- The sizes before the alignment, with `pau` sectors a cluster: the kind of the volume,
and the FAT, the reserved and the directory sectors. -/
def sizes (fmt : FatType) (szVol pau : DWORD) : Option (FatType × DWORD × DWORD × DWORD) :=
  let nClst := szVol / pau
  if fmt = .fat32 then
    if nClst ≤ maxFat16 ∨ maxFat32 < nClst then none
    else some (.fat32, (nClst * 4 + 8 + 512 - 1) / 512, 32, 0)
  else
    let (fmt, n) := if maxFat12 < nClst then (fmt, nClst * 2 + 4) else (.fat12, (nClst * 3 + 1) / 2 + 3)
    some (fmt, (n + 512 - 1) / 512, 1, 512 * 32 / 512)

/-- The final check of the sub-type, where `au` is 0 if the cluster size is to be chosen. -/
def check (opt : BYTE) (au : DWORD) (plan : Plan) : Attempt :=
  let pau := plan.pau
  match plan.fmt with
  | .fat32 =>
    if plan.nClst ≤ maxFat16 then
      if au = 0 ∧ pau / 2 ≠ 0 then .retry .fat32 (pau / 2) else .aborted
    else .done plan
  | .fat16 =>
    if maxFat16 < plan.nClst then
      if au = 0 ∧ pau * 2 ≤ 64 then .retry .fat16 (pau * 2)
      else if opt &&& fmFat32 ≠ 0 then .retry .fat32 au
      else if au = 0 ∧ pau * 2 ≤ 128 then .retry .fat16 (pau * 2)
      else .aborted
    else if plan.nClst ≤ maxFat12 then
      if au = 0 ∧ pau * 2 ≤ 128 then .retry .fat16 (pau * 2) else .aborted
    else .done plan
  | .fat12 => if maxFat12 < plan.nClst then .aborted else .done plan

/-- One turn of the loop. -/
def attempt (opt : BYTE) (bVol szVol szBlk : DWORD) (fmt : FatType) (au : DWORD) : Attempt :=
  let pau := clusterSize szVol fmt au
  match sizes fmt szVol pau with
  | none => .aborted
  | some (fmt, szFat, szRsv, szDir) =>
    let bFat := bVol + szRsv
    let bData := bFat + szFat * 1 + szDir
    let n := ((bData + szBlk - 1) &&& ~~~(szBlk - 1)) - bData
    let (szRsv, bFat, szFat) := if fmt = .fat32 then (szRsv + n, bFat + n, szFat) else (szRsv, bFat, szFat + n / 1)
    if szVol < bData + pau * 16 - bVol then .aborted
    else
      let nClst := (szVol - szRsv - szFat * 1 - szDir) / pau
      check opt au { fmt, pau, nClst, szRsv, szFat, szDir, bFat }

/-- The loop, cut off after some turns. -/
def planLoop (opt : BYTE) (bVol szVol szBlk : DWORD) : Nat → FatType → DWORD → Option (Except FRESULT Plan)
  | 0, _, _ => none
  | turns + 1, fmt, au =>
    match attempt opt bVol szVol szBlk fmt au with
    | .retry fmt au => planLoop opt bVol szVol szBlk turns fmt au
    | .aborted => some (.error .mkfsAborted)
    | .done plan => some (.ok plan)

/-- The kind that the arguments ask for first. -/
def firstType (opt : BYTE) (au : DWORD) : Except FRESULT FatType :=
  if 256 ≤ au then .error .invalidParameter
  else if opt &&& fmFat32 ≠ 0 ∧ (opt &&& fmAny = fmFat32 ∨ opt &&& fmFat = 0) then .ok .fat32
  else if opt &&& fmFat = 0 then .error .invalidParameter
  else .ok .fat16

/-! ## Cluster sizes -/

/-- One of 1, 2, 4, ..., 128. -/
def Unit (x : DWORD) : Prop := ∃ k ≤ 7, x.toNat = 2 ^ k

theorem Unit.pos {x : DWORD} (unit : Unit x) : 0 < x.toNat := by
  obtain ⟨k, -, is⟩ := unit
  rw [is]
  exact Nat.two_pow_pos k

theorem Unit.le {x : DWORD} (unit : Unit x) : x.toNat ≤ 128 := by
  obtain ⟨k, small, is⟩ := unit
  rw [is]
  exact Nat.pow_le_pow_right (by decide) small

theorem Unit.double {x : DWORD} (unit : Unit x) (small : x * 2 ≤ 128) : Unit (x * 2) := by
  obtain ⟨k, le, is⟩ := unit
  have top := Nat.pow_le_pow_right (show 0 < 2 by decide) le
  have twice : (x * 2).toNat = 2 ^ (k + 1) := by
    rw [BitVec.toNat_mul, is, pow_succ]
    show 2 ^ k * 2 % 2 ^ 32 = _
    omega
  refine ⟨k + 1, ?_, twice⟩
  rw [BitVec.le_def, twice] at small
  have bound : 2 ^ (k + 1) ≤ 2 ^ 7 := small
  exact (Nat.pow_le_pow_iff_right (by decide)).1 bound

theorem Unit.half {x : DWORD} (unit : Unit x) (some_ : x / 2 ≠ 0) : Unit (x / 2) := by
  obtain ⟨k, le, is⟩ := unit
  cases k with
  | zero =>
    refine absurd (BitVec.eq_of_toNat_eq ?_) some_
    rw [BitVec.toNat_udiv, is]
    rfl
  | succ k =>
    refine ⟨k, by omega, ?_⟩
    rw [BitVec.toNat_udiv, is, pow_succ]
    exact Nat.mul_div_cancel _ (by decide)

theorem tableLoop_unit {n pau : DWORD} {t : List DWORD} {k : Nat} (is : pau.toNat = 2 ^ k)
    (short : k + t.length ≤ 7) : Unit (tableLoop n pau t) := by
  induction t generalizing pau k with
  | nil => exact ⟨k, short, is⟩
  | cons c t ih =>
    rw [List.length_cons] at short
    unfold tableLoop
    split
    · refine ih (k := k + 1) ?_ (by omega)
      have top := Nat.pow_le_pow_right (show 0 < 2 by decide) (show k ≤ 7 by omega)
      rw [BitVec.toNat_shiftLeft, is, Nat.shiftLeft_eq, pow_succ]
      show 2 ^ k * 2 ^ 1 % 2 ^ 32 = _
      omega
    · exact ⟨k, by omega, is⟩

theorem clusterSize_unit {szVol au : DWORD} {fmt : FatType} (given : au = 0 ∨ Unit au) :
    Unit (clusterSize szVol fmt au) := by
  unfold clusterSize
  split_ifs with auto
  · exact tableLoop_unit (k := 0) rfl (by decide)
  · exact tableLoop_unit (k := 0) rfl (by decide)
  · exact given.resolve_left auto

/-! ## What a plan has -/

variable {opt : BYTE} {bVol szVol szBlk au : DWORD} {fmt : FatType} {plan : Plan}

/-- The kind of a volume has the clusters for it. -/
def Kinded : FatType → Nat → Prop
  | .fat12, n => n ≤ 0xFF5
  | .fat16, n => 0xFF5 < n ∧ n ≤ 0xFFF5
  | .fat32, n => 0xFFF5 < n

theorem check_done {made : Plan} (done : check opt au plan = .done made) :
    made = plan ∧ Kinded plan.fmt plan.nClst.toNat := by
  unfold check at done
  unfold Kinded
  cases kind : plan.fmt with
  | fat12 =>
    simp only [kind] at done
    split_ifs at done with many
    cases done
    exact ⟨rfl, BitVec.not_lt.1 many⟩
  | fat16 =>
    simp only [kind] at done
    split_ifs at done with many _ _ _ few
    cases done
    exact ⟨rfl, BitVec.lt_def.1 (BitVec.not_le.1 few), BitVec.not_lt.1 many⟩
  | fat32 =>
    simp only [kind] at done
    split_ifs at done with few
    cases done
    exact ⟨rfl, BitVec.lt_def.1 (BitVec.not_le.1 few)⟩

theorem check_retry {fmt' : FatType} {au' : DWORD} (unit : Unit plan.pau) (given : au = 0 ∨ Unit au)
    (retry : check opt au plan = .retry fmt' au') : au' = 0 ∨ Unit au' := by
  unfold check at retry
  cases kind : plan.fmt with
  | fat12 =>
    simp only [kind] at retry
    split_ifs at retry
  | fat16 =>
    simp only [kind] at retry
    split_ifs at retry with _ more _ more _ more <;> cases retry
    · exact .inr (unit.double (BitVec.le_trans more.2 (by decide)))
    · exact given
    · exact .inr (unit.double more.2)
    · exact .inr (unit.double more.2)
  | fat32 =>
    simp only [kind] at retry
    split_ifs at retry with _ less
    cases retry
    exact .inr (unit.half less.2)

/-- A bound on the turns that are left. -/
def left (fmt : FatType) (au : DWORD) : Nat := (if fmt = .fat32 then 0 else 1) + (if au = 0 then 1 else 0)

theorem Unit.ne_zero {x : DWORD} (unit : Unit x) : x ≠ 0 := by
  rintro rfl
  exact absurd unit.pos (by decide)

theorem left_chosen {x : DWORD} (chosen : x ≠ 0) : left fmt x < left fmt 0 := by
  unfold left
  rw [if_neg chosen, if_pos rfl]
  omega

/-- A retry has less to choose: the cluster size is chosen, or the volume is one of FAT32. -/
theorem check_retry_less {fmt' : FatType} {au' : DWORD} (unit : Unit plan.pau)
    (retry : check opt au plan = .retry fmt' au') :
    fmt' ≠ .fat12 ∧ left fmt' au' < left plan.fmt au ∧ plan.fmt ≠ .fat12 := by
  have twice (small : plan.pau * 2 ≤ 128) : left .fat16 (plan.pau * 2) < left .fat16 0 :=
    left_chosen (unit.double small).ne_zero
  unfold check at retry
  cases kind : plan.fmt with
  | fat12 =>
    simp only [kind] at retry
    split_ifs at retry
  | fat16 =>
    simp only [kind] at retry
    split_ifs at retry with _ more _ more _ more <;> cases retry
    · exact ⟨by decide, more.1 ▸ twice (BitVec.le_trans more.2 (by decide)), by decide⟩
    · exact ⟨by decide, by simp [left], by decide⟩
    · exact ⟨by decide, more.1 ▸ twice more.2, by decide⟩
    · exact ⟨by decide, more.1 ▸ twice more.2, by decide⟩
  | fat32 =>
    simp only [kind] at retry
    split_ifs at retry with _ less
    cases retry
    exact ⟨by decide, less.1 ▸ left_chosen less.2, by decide⟩

theorem szbfat_mono (fmt : FatType) {n n' : Nat} (le : n ≤ n') : szbfat fmt n ≤ szbfat fmt n' := by
  cases fmt <;> simp only [szbfat] <;> omega

/-- What the sizes of a turn are, where the volume has `q` clusters at most. -/
structure Sizes (fmt fmt' : FatType) (q f rsv dir : Nat) : Prop where
  few : f * 512 ≤ 4 * q + 1100
  room : q < 2 ^ 30 → szbfat fmt' (q + 2) ≤ f * 512
  kind : fmt' = .fat32 ∧ rsv = 32 ∧ dir = 0 ∧ 0xFFF5 < q ∧ q ≤ 0x0FFFFFF5 ∨ fmt' ≠ .fat32 ∧ rsv = 1 ∧ dir = 32

theorem sizes_some {fmt' : FatType} {pau f rsv dir : DWORD} (is : sizes fmt szVol pau = some (fmt', f, rsv, dir))
    (known : fmt ≠ .fat12) : Sizes fmt fmt' (szVol.toNat / pau.toNat) f.toNat rsv.toNat dir.toNat := by
  have quotient : (szVol / pau).toNat = szVol.toNat / pau.toNat := BitVec.toNat_udiv
  have big := (szVol / pau).isLt
  have sector : (512 : DWORD).toNat = 512 := rfl
  rw [← quotient]
  unfold sizes at is
  dsimp only at is
  generalize szVol / pau = q at *
  split_ifs at is with large out many
  · simp only [Option.some.injEq, Prod.mk.injEq] at is
    obtain ⟨rfl, rfl, rfl, rfl⟩ := is
    rw [not_or, BitVec.not_le, BitVec.not_lt, BitVec.lt_def, BitVec.le_def] at out
    obtain ⟨low, high⟩ := out
    have top : maxFat32.toNat = 0x0FFFFFF5 := rfl
    have value : ((q * 4 + 8 + 512 - 1) / 512).toNat = (q.toNat * 4 + 519) / 512 := by
      have sum : (q * 4 + 8 + 512 - 1).toNat = q.toNat * 4 + 519 := by bv_omega
      rw [BitVec.toNat_udiv, sector, sum]
    rw [value]
    refine ⟨by omega, fun _ => ?_, .inl ⟨rfl, rfl, rfl, low, high⟩⟩
    simp only [szbfat]
    omega
  · simp only [Option.some.injEq, Prod.mk.injEq] at is
    obtain ⟨rfl, rfl, rfl, rfl⟩ := is
    have less : ((q * 2 + 4 + 512 - 1) / 512).toNat * 512 ≤ q.toNat * 2 + 515 := by
      rw [BitVec.toNat_udiv]
      have below : (q * 2 + 4 + 512 - 1).toNat ≤ q.toNat * 2 + 515 := by bv_omega
      show (q * 2 + 4 + 512 - 1).toNat / 512 * 512 ≤ _
      omega
    refine ⟨by omega, fun small => ?_, .inr ⟨large, rfl, rfl⟩⟩
    have value : ((q * 2 + 4 + 512 - 1) / 512).toNat = (q.toNat * 2 + 515) / 512 := by
      have sum : (q * 2 + 4 + 512 - 1).toNat = q.toNat * 2 + 515 := by bv_omega
      rw [BitVec.toNat_udiv, sector, sum]
    rw [value]
    cases fmt with
    | fat12 => exact absurd rfl known
    | fat16 =>
      simp only [szbfat]
      omega
    | fat32 => exact absurd rfl large
  · simp only [Option.some.injEq, Prod.mk.injEq] at is
    obtain ⟨rfl, rfl, rfl, rfl⟩ := is
    have top : maxFat12.toNat = 0xFF5 := rfl
    rw [BitVec.not_lt, BitVec.le_def, top] at many
    have value : (((q * 3 + 1) / 2 + 3 + 512 - 1) / 512).toNat = ((q.toNat * 3 + 1) / 2 + 514) / 512 := by
      have two : (2 : DWORD).toNat = 2 := rfl
      have triple : (q * 3 + 1).toNat = q.toNat * 3 + 1 := by bv_omega
      have half : ((q * 3 + 1) / 2).toNat = (q.toNat * 3 + 1) / 2 := by rw [BitVec.toNat_udiv, two, triple]
      have sum : ((q * 3 + 1) / 2 + 3 + 512 - 1).toNat = (q.toNat * 3 + 1) / 2 + 514 := by bv_omega
      rw [BitVec.toNat_udiv, sector, sum]
    rw [value]
    refine ⟨by omega, fun _ => ?_, .inr ⟨by decide, rfl, rfl⟩⟩
    simp only [szbfat]
    obtain ⟨t, even | odd⟩ := Nat.even_or_odd' q.toNat
    · omega
    · omega

/-- What the arguments are when the loop begins. -/
structure Given (bVol szVol szBlk : DWORD) : Prop where
  base : bVol.toNat ≤ 63
  fits : bVol.toNat + szVol.toNat < 2 ^ 32
  block : ∃ k ≤ 15, szBlk.toNat = 2 ^ k

/-- What is before the data area. -/
def Plan.system (p : Plan) : Nat := p.szRsv.toNat + p.szFat.toNat + p.szDir.toNat

/-- A plan in numbers: its areas are in the volume, the FAT has room for the clusters, of
which there are as many as its kind has, and the data area begins a block of the drive. -/
structure Planned (bVol szVol szBlk : DWORD) (p : Plan) : Prop where
  unit : Unit p.pau
  fits : p.system ≤ szVol.toNat
  nClst : p.nClst.toNat = (szVol.toNat - p.system) / p.pau.toNat
  kind : Kinded p.fmt p.nClst.toNat
  few : p.nClst.toNat ≤ 0x0FFFFFF5
  room : szbfat p.fmt (p.nClst.toNat + 2) ≤ p.szFat.toNat * 512
  reserved : p.szRsv.toNat < 2 ^ 16
  short : p.fmt ≠ .fat32 → p.szFat.toNat < 2 ^ 16
  areas : p.fmt = .fat32 ∧ 32 ≤ p.szRsv.toNat ∧ p.szDir = 0 ∨ p.fmt ≠ .fat32 ∧ p.szRsv = 1 ∧ p.szDir = 32
  fat : p.bFat = bVol + p.szRsv
  aligned : (bVol.toNat + p.system) % szBlk.toNat = 0
  spare : p.system + p.pau.toNat * 16 < szVol.toNat + szBlk.toNat

/-- A difference that wraps leaves too many clusters for a volume of the small kinds. -/
theorem clusters_fit {r f d pau : DWORD} (unit : Unit pau) (small : r.toNat + f.toNat + d.toNat < 2 ^ 26)
    (few : ((szVol - r - f - d) / pau).toNat ≤ 0xFFF5) : r.toNat + f.toNat + d.toNat ≤ szVol.toNat := by
  by_contra beyond
  have pos := unit.pos
  have le := unit.le
  have wrapped : 2 ^ 32 - 2 ^ 26 < (szVol - r - f - d).toNat := by bv_omega
  rw [BitVec.toNat_udiv] at few
  have least : 2 ^ 32 - 2 ^ 26 < (szVol - r - f - d).toNat / pau.toNat * pau.toNat + pau.toNat := by
    have rest := Nat.div_add_mod (szVol - r - f - d).toNat pau.toNat
    have less := Nat.mod_lt (szVol - r - f - d).toNat pos
    rw [Nat.mul_comm] at rest
    omega
  have most := Nat.mul_le_mul few le
  omega

theorem toNat_clusters (pau : DWORD) {r f d : DWORD} (fits : r.toNat + f.toNat + d.toNat ≤ szVol.toNat) :
    ((szVol - r - f - d) / pau).toNat = (szVol.toNat - (r.toNat + f.toNat + d.toNat)) / pau.toNat := by
  have sub : (szVol - r - f - d).toNat = szVol.toNat - (r.toNat + f.toNat + d.toNat) := by bv_omega
  rw [BitVec.toNat_udiv, sub]

/-- The sizes of a turn with `n` sectors more, in a volume of `v` sectors. -/
theorem Sizes.fits {fmt' : FatType} {v u f rsv dir n : Nat} (sizes : Sizes fmt fmt' (v / u) f rsv dir)
    (large : fmt' = .fat32) (small : n < 2 ^ 15) : rsv + f + dir + n ≤ v := by
  have le := Nat.div_le_self v u
  have few := sizes.few
  rcases sizes.kind with ⟨-, rfl, rfl, low, -⟩ | ⟨other, -⟩
  · generalize v / u = q at *
    omega
  · exact absurd large other

theorem Sizes.few_clusters {fmt' : FatType} {v u f rsv dir n : Nat} (sizes : Sizes fmt fmt' (v / u) f rsv dir)
    (pos : 0 < u) (small : n < 2 ^ 15) (kind : Kinded fmt' ((v - (rsv + f + dir + n)) / u)) :
    v / u < 2 ^ 30 ∧ (fmt' ≠ .fat32 → f + n < 2 ^ 16) := by
  have few := sizes.few
  have near := Words.div_le_sub_div_add pos v (rsv + f + dir + n)
  rcases sizes.kind with ⟨large, rfl, rfl, -, high⟩ | ⟨other, rfl, rfl⟩
  · exact ⟨by omega, fun other => absurd large other⟩
  · have most : (v - (1 + f + 32 + n)) / u ≤ 0xFFF5 := by
      cases fmt' with
      | fat12 => exact Nat.le_trans kind (by decide)
      | fat16 => exact kind.2
      | fat32 => exact absurd rfl other
    generalize v / u = q at *
    exact ⟨by omega, fun _ => by omega⟩

theorem attempt_done {p : Plan} (given : Given bVol szVol szBlk) (known : fmt ≠ .fat12) (unit : au = 0 ∨ Unit au)
    (done : attempt opt bVol szVol szBlk fmt au = .done p) : Planned bVol szVol szBlk p := by
  unfold attempt at done
  have unit : Unit (clusterSize szVol fmt au) := clusterSize_unit unit
  dsimp only at done
  generalize clusterSize szVol fmt au = pau at *
  split at done
  · cases done
  rename_i fmt' f rsv dir is
  have sizes := sizes_some is known
  have low : f.toNat < 2 ^ 25 + 10 := by
    have few := sizes.few
    have le := Nat.div_le_self szVol.toNat pau.toNat
    have big := szVol.isLt
    omega
  have fixed : rsv.toNat ≤ 32 ∧ dir.toNat ≤ 32 := by
    rcases sizes.kind with ⟨-, r, d, -⟩ | ⟨-, r, d⟩ <;> omega
  obtain ⟨k, small, block⟩ := given.block
  have top := Nat.pow_le_pow_right (show 0 < 2 by decide) small
  have base := given.base
  have whole (x : DWORD) : x * 1 = x := BitVec.mul_one x
  have each (x : DWORD) : x / 1 = x := BitVec.udiv_one
  simp only [whole, each] at done
  have bData : (bVol + rsv + f + dir).toNat = bVol.toNat + rsv.toNat + f.toNat + dir.toNat := by bv_omega
  have ⟨less, aligned⟩ := Words.padding (x := bVol + rsv + f + dir) block (by omega)
  generalize ((bVol + rsv + f + dir + szBlk - 1) &&& ~~~(szBlk - 1)) - (bVol + rsv + f + dir) = n at *
  rw [bData] at aligned
  split at done
  · cases done
  rename_i enough
  have spare : rsv.toNat + f.toNat + dir.toNat + pau.toNat * 16 ≤ szVol.toNat := by
    have most := unit.le
    bv_omega
  have pos := unit.pos
  have fewer (S : Nat) : (szVol.toNat - S) / pau.toNat + 2 ≤ szVol.toNat / pau.toNat + 2 :=
    Nat.add_le_add_right (Nat.div_le_div_right (Nat.sub_le _ _)) 2
  by_cases large : fmt' = .fat32
  · simp only [large, if_true] at done
    obtain ⟨rfl, kind⟩ := check_done done
    have more : (rsv + n).toNat = rsv.toNat + n.toNat := by bv_omega
    have fits := sizes.fits large (n := n.toNat) (by omega)
    have sum : (rsv + n).toNat + f.toNat + dir.toNat = rsv.toNat + f.toNat + dir.toNat + n.toNat := by omega
    rw [← sum] at fits
    have value := toNat_clusters pau fits
    have kind' := kind
    dsimp only at kind'
    rw [value, sum, ← large] at kind'
    obtain ⟨few, -⟩ := sizes.few_clusters pos (show n.toNat < 2 ^ 15 by omega) kind'
    obtain ⟨-, r, d, -, high⟩ := sizes.kind.resolve_right fun other => other.1 large
    have less : (szVol.toNat - ((rsv + n).toNat + f.toNat + dir.toNat)) / pau.toNat ≤ szVol.toNat / pau.toNat :=
      Nat.div_le_div_right (Nat.sub_le _ _)
    refine ⟨unit, fits, value, kind, value ▸ Nat.le_trans less high, ?_, by dsimp only; omega,
      fun other => absurd rfl other, .inl ⟨rfl, by dsimp only; omega, BitVec.eq_of_toNat_eq d⟩,
      BitVec.add_assoc .., ?_, ?_⟩
    · dsimp only
      rw [value, ← large]
      exact Nat.le_trans (szbfat_mono fmt' (fewer _)) (sizes.room few)
    · rw [block]
      unfold Plan.system
      dsimp only
      rw [sum, ← aligned]
      congr 1
      omega
    · rw [block]
      unfold Plan.system
      dsimp only
      omega
  · simp only [large, if_false] at done
    obtain ⟨rfl, kind⟩ := check_done done
    have more : (f + n).toNat = f.toNat + n.toNat := by bv_omega
    have sum : rsv.toNat + (f + n).toNat + dir.toNat = rsv.toNat + f.toNat + dir.toNat + n.toNat := by omega
    have few : ((szVol - rsv - (f + n) - dir) / pau).toNat ≤ 0xFFF5 := by
      cases fmt' with
      | fat12 => exact Nat.le_trans kind (by decide)
      | fat16 => exact kind.2
      | fat32 => exact absurd rfl large
    have fits := clusters_fit unit (by omega) few
    have value := toNat_clusters pau fits
    have kind' := kind
    dsimp only at kind'
    rw [value, sum] at kind'
    have ⟨few', short⟩ := sizes.few_clusters pos (show n.toNat < 2 ^ 15 by omega) kind'
    obtain ⟨-, r, d⟩ := sizes.kind.resolve_left fun other => large other.1
    refine ⟨unit, fits, value, kind, Nat.le_trans few (by decide), ?_, by dsimp only; omega,
      fun _ => by dsimp only; rw [more]; exact short large,
      .inr ⟨large, BitVec.eq_of_toNat_eq r, BitVec.eq_of_toNat_eq d⟩, rfl, ?_, ?_⟩
    · dsimp only
      rw [value]
      have room := sizes.room few'
      have mono := szbfat_mono fmt' (fewer (rsv.toNat + (f + n).toNat + dir.toNat))
      omega
    · rw [block]
      unfold Plan.system
      dsimp only
      rw [sum, ← aligned]
      congr 1
      omega
    · rw [block]
      unfold Plan.system
      dsimp only
      omega

/-- A plan has clusters where the blocks of the drive are small or the volume is large. -/
theorem Planned.nClst_ne {p : Plan} (planned : Planned bVol szVol szBlk p)
    (large : szBlk.toNat ≤ 16 ∨ 65696 ≤ szVol.toNat) : p.nClst ≠ 0 := by
  intro none_
  have clusters := planned.nClst
  have kind := planned.kind
  have few := planned.unit.le
  have pos := planned.unit.pos
  have spare := planned.spare
  have zero : (0 : DWORD).toNat = 0 := rfl
  rw [none_, zero] at clusters kind
  have short : szVol.toNat - p.system < p.pau.toNat :=
    (Nat.div_eq_zero_iff_lt pos).1 clusters.symm
  unfold Plan.system at short spare
  rcases planned.areas with ⟨fat32, -⟩ | ⟨small, rsv, dir⟩
  · rw [fat32] at kind
    unfold Kinded at kind
    omega
  · have fat := planned.short small
    have one : p.szRsv.toNat = 1 := congrArg BitVec.toNat rsv
    have root : p.szDir.toNat = 32 := congrArg BitVec.toNat dir
    omega

/-- The sizes are those of the kind asked for, or of its smaller sibling. -/
theorem sizes_kind {fmt' : FatType} {pau f rsv dir : DWORD} (is : sizes fmt szVol pau = some (fmt', f, rsv, dir)) :
    fmt' = fmt ∨ fmt' = .fat12 := by
  unfold sizes at is
  dsimp only at is
  split_ifs at is with large
  · simp only [Option.some.injEq, Prod.mk.injEq] at is
    exact .inl (is.1.symm.trans large.symm)
  · simp only [Option.some.injEq, Prod.mk.injEq] at is
    exact .inl is.1.symm
  · simp only [Option.some.injEq, Prod.mk.injEq] at is
    exact .inr is.1.symm

theorem attempt_retry {fmt' : FatType} {au' : DWORD} (known : fmt ≠ .fat12) (unit : au = 0 ∨ Unit au)
    (retry : attempt opt bVol szVol szBlk fmt au = .retry fmt' au') :
    fmt' ≠ .fat12 ∧ (au' = 0 ∨ Unit au') ∧ left fmt' au' < left fmt au := by
  unfold attempt at retry
  dsimp only at retry
  split at retry
  · cases retry
  rename_i kind f rsv dir is
  split at retry
  · cases retry
  have size : Unit (clusterSize szVol fmt au) := clusterSize_unit unit
  obtain ⟨known', less, same⟩ := check_retry_less size retry
  dsimp only at less same
  rcases sizes_kind is with rfl | small
  · exact ⟨known', check_retry size unit retry, less⟩
  · exact absurd small same

/-- The loop comes to an end. -/
theorem planLoop_ends (known : fmt ≠ .fat12) (unit : au = 0 ∨ Unit au) {turns : Nat} (more : left fmt au < turns) :
    ∃ r, planLoop opt bVol szVol szBlk turns fmt au = some r := by
  induction turns generalizing fmt au with
  | zero => omega
  | succ turns ih =>
    unfold planLoop
    cases turn : attempt opt bVol szVol szBlk fmt au with
    | retry fmt' au' =>
      obtain ⟨known', unit', less⟩ := attempt_retry known unit turn
      exact ih known' unit' (by omega)
    | aborted => exact ⟨_, rfl⟩
    | done plan => exact ⟨_, rfl⟩

theorem planLoop_error {res : FRESULT} {turns : Nat}
    (error : planLoop opt bVol szVol szBlk turns fmt au = some (.error res)) : res = .mkfsAborted := by
  induction turns generalizing fmt au with
  | zero => cases error
  | succ turns ih =>
    unfold planLoop at error
    split at error
    case h_1 => exact ih error
    case h_2 =>
      cases error
      rfl
    case h_3 => cases error

theorem left_lt (fmt : FatType) (au : DWORD) : left fmt au < 3 := by
  unfold left
  split_ifs <;> decide

/-- Every plan that the loop comes to. -/
theorem planLoop_ok {p : Plan} (given : Given bVol szVol szBlk) (known : fmt ≠ .fat12) (unit : au = 0 ∨ Unit au)
    {turns : Nat} (made : planLoop opt bVol szVol szBlk turns fmt au = some (.ok p)) :
    Planned bVol szVol szBlk p := by
  induction turns generalizing fmt au with
  | zero => cases made
  | succ turns ih =>
    unfold planLoop at made
    split at made
    case h_1 fmt' au' retry =>
      obtain ⟨known', unit', -⟩ := attempt_retry known unit retry
      exact ih known' unit' made
    case h_2 => cases made
    case h_3 plan done =>
      cases made
      exact attempt_done given known unit done

end FatFsParticle.Format
