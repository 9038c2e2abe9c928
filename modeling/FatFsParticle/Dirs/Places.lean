import FatFsParticle.Dirs.Table
import FatFsParticle.Fat.Ownership

/-!
# Places of a table

A table is a row of sectors of sixteen entries each: those of the static root, or those of
the clusters of a chain in its order. Each entry has one place in it, and an entry that is
written is the only one that changes.
-/

namespace FatFsParticle.Dirs
open Interact Program Fat Links
open Files (FRESULT)
open Drives (FatType)
open Usage (Sector)

/-- Where the static root is. -/
structure Rooted (l : Layout) : Prop where
  align : l.nRootdir.toNat % 16 = 0
  behind : l.fsType ≠ .fat32 → l.fatbase.toNat + l.fsize.toNat * l.nFats.toNat ≤ l.dirbase.toNat
  before : l.fsType ≠ .fat32 → l.dirbase.toNat + l.nRootdir.toNat / 16 ≤ l.database.toNat

/-- Sectors of the table on the chain `m`, which is empty for the static root. -/
def width (l : Layout) (m : List DWORD) : Nat :=
  if m = [] then l.nRootdir.toNat / 16 else m.length * l.csize.toNat

/-- The sector `q` of the table. -/
def sectorAt (l : Layout) (m : List DWORD) (q : Nat) : DWORD :=
  if m = [] then l.dirbase + BitVec.ofNat 32 q
  else clust2sect l (m.getD (q / l.csize.toNat) 0) + BitVec.ofNat 32 (q % l.csize.toNat)

/-- Entries of the table. -/
def size (l : Layout) (m : List DWORD) : Nat := min (width l m * 16) entries

/-- The entries of the table. -/
def slots (l : Layout) (L : Disk) (m : List DWORD) : List (Fin 32 → BYTE) :=
  (List.range (size l m)).map fun n => cell (L (sectorAt l m (n / 16))) (n % 16 * 32)

/-- `m` is the chain of the directory that begins at `sclust`. -/
structure Laid (l : Layout) (L : Disk) (sclust : DWORD) (m : List DWORD) : Prop where
  root : Rooted l
  start : (if sclust = 0 ∧ l.fsType = .fat32 then l.dirbase else sclust) = m.headD 0
  static : m = [] → l.fsType ≠ .fat32
  linked : Linked (l.table L) l.Last m
  inside : ∀ c ∈ m, l.Cluster c

/-- `dp` is at the entry `n`. -/
structure At (l : Layout) (m : List DWORD) (dp : DIR) (n : Nat) : Prop where
  dptr : dp.dptr.toNat = 32 * n
  inside : n < size l m
  sect : dp.sect = sectorAt l m (n / 16)
  clust : dp.clust = m.getD (n / 16 / l.csize.toNat) 0

section
variable {l : Layout} {L : Disk} {m : List DWORD} {dp : DIR} {n n' q q' : Nat} {c sclust : DWORD}

@[simp] theorem length_slots : (slots l L m).length = size l m := by simp [slots]

theorem getElem?_slots (inside : n < size l m) :
    (slots l L m)[n]? = some (cell (L (sectorAt l m (n / 16))) (n % 16 * 32)) := by
  simp [slots, inside]

theorem size_le (l : Layout) (m : List DWORD) : size l m ≤ entries := Nat.min_le_right ..

theorem width_of_size (inside : n < size l m) : n / 16 < width l m := by
  have less : n < width l m * 16 := Nat.lt_of_lt_of_le inside (Nat.min_le_left ..)
  omega

/-! ## Sectors -/

theorem toNat_clust2sect (cluster : l.Cluster c) :
    (clust2sect l c).toNat = l.database.toNat + (c.toNat - 2) * l.csize.toNat ∧
      l.database.toNat + (c.toNat - 2) * l.csize.toNat + l.csize.toNat < 2 ^ 32 := by
  obtain ⟨low, high⟩ := cluster
  have fits := l.fits
  rw [BitVec.le_def] at low
  rw [BitVec.lt_def] at high
  have two : (2 : DWORD).toNat = 2 := rfl
  rw [two] at low
  have less : (c.toNat - 2) + 1 ≤ l.nFatent.toNat - 2 := by omega
  have room := Nat.mul_le_mul_right l.csize.toNat less
  rw [Nat.add_mul] at room
  have bound := l.csize.isLt
  unfold clust2sect
  have sub : (c - 2).toNat = c.toNat - 2 := BitVec.toNat_sub_of_le (BitVec.le_def.2 (by rw [two]; omega))
  have sub' : (l.nFatent - 2).toNat = l.nFatent.toNat - 2 :=
    BitVec.toNat_sub_of_le (BitVec.le_def.2 (by rw [two]; omega))
  have inside : ¬l.nFatent - 2 ≤ c - 2 := by
    rw [BitVec.le_def, sub, sub']
    omega
  dsimp only
  rw [if_neg inside, BitVec.toNat_add, BitVec.toNat_mul, sub,
    BitVec.toNat_setWidth_of_le (by decide), Nat.mod_eq_of_lt (a := (c.toNat - 2) * l.csize.toNat) (by omega),
    Nat.mod_eq_of_lt (by omega)]
  omega

theorem fat_behind (l : Layout) : l.fatbase.toNat + l.fsize.toNat ≤
    l.fatbase.toNat + l.fsize.toNat * l.nFats.toNat := by
  rcases l.copies with one | two
  · rw [one]
    simp
  · rw [two]
    simp
    omega

/-- The sectors of a table are not those of the FAT. -/
theorem toNat_sectorAt (root : Rooted l) (static : m = [] → l.fsType ≠ .fat32)
    (inside : ∀ c ∈ m, l.Cluster c) (less : q < width l m) :
    (sectorAt l m q).toNat = (if m = [] then l.dirbase.toNat + q else
        l.database.toNat + ((m.getD (q / l.csize.toNat) 0).toNat - 2) * l.csize.toNat + q % l.csize.toNat) ∧
      l.fatbase.toNat + l.fsize.toNat * l.nFats.toNat ≤ (sectorAt l m q).toNat ∧
      (sectorAt l m q).toNat + 1 < 2 ^ 32 := by
  have fits := l.fits
  have unit := l.unit
  have after := l.after
  have some_ := l.some_
  unfold width at less
  unfold sectorAt
  split
  case isTrue none_ =>
    rw [if_pos none_] at less
    have behind := root.behind (static none_)
    have before := root.before (static none_)
    have data : 0 < (l.nFatent.toNat - 2) * l.csize.toNat := Nat.mul_pos (by omega) unit
    have value : (l.dirbase + BitVec.ofNat 32 q).toNat = l.dirbase.toNat + q := by
      rw [BitVec.toNat_add, BitVec.toNat_ofNat]
      omega
    rw [value]
    omega
  case isFalse some_ =>
    rw [if_neg some_] at less
    have there : q / l.csize.toNat < m.length := Nat.div_lt_of_lt_mul (by rwa [Nat.mul_comm])
    have mem : m.getD (q / l.csize.toNat) 0 ∈ m := by
      rw [List.getD_eq_getElem _ _ there]
      exact List.getElem_mem there
    obtain ⟨value, room⟩ := toNat_clust2sect (inside _ mem)
    have rest := Nat.mod_lt q unit
    have sum : (clust2sect l (m.getD (q / l.csize.toNat) 0) + BitVec.ofNat 32 (q % l.csize.toNat)).toNat =
        l.database.toNat + ((m.getD (q / l.csize.toNat) 0).toNat - 2) * l.csize.toNat + q % l.csize.toNat := by
      rw [BitVec.toNat_add, BitVec.toNat_ofNat, value]
      omega
    rw [sum]
    omega

theorem Laid.own (laid : Laid l L sclust m) (less : q < width l m) : l.Own (sectorAt l m q) := by
  obtain ⟨-, behind, below⟩ := toNat_sectorAt laid.root laid.static laid.inside less
  refine .inr ⟨behind, fun none_ => ?_⟩
  rw [none_] at below
  exact absurd below (by decide)

theorem Laid.out (laid : Laid l L sclust m) (less : q < width l m) : ¬l.InFat (sectorAt l m q) := by
  obtain ⟨-, behind, -⟩ := toNat_sectorAt laid.root laid.static laid.inside less
  have fat := fat_behind l
  unfold Layout.InFat
  omega

theorem Laid.nodup (laid : Laid l L sclust m) : m.Nodup :=
  laid.linked.nodup fun _ mem => (laid.inside _ mem).not_last

theorem getD_mem (some_ : m ≠ []) (less : q < width l m) :
    ∃ there : q / l.csize.toNat < m.length, m.getD (q / l.csize.toNat) 0 = m[q / l.csize.toNat] := by
  unfold width at less
  rw [if_neg some_] at less
  have there : q / l.csize.toNat < m.length := Nat.div_lt_of_lt_mul (by rwa [Nat.mul_comm])
  exact ⟨there, List.getD_eq_getElem _ _ there⟩

/-- No sector is twice in a table. -/
theorem Laid.sectorAt_inj (laid : Laid l L sclust m) (less : q < width l m) (less' : q' < width l m)
    (same : sectorAt l m q = sectorAt l m q') : q = q' := by
  obtain ⟨value, -⟩ := toNat_sectorAt laid.root laid.static laid.inside less
  obtain ⟨value', -⟩ := toNat_sectorAt laid.root laid.static laid.inside less'
  have unit := l.unit
  rw [same, value'] at value
  by_cases none_ : m = []
  · rw [if_pos none_, if_pos none_] at value
    omega
  · rw [if_neg none_, if_neg none_] at value
    obtain ⟨there, is⟩ := getD_mem none_ less
    obtain ⟨there', is'⟩ := getD_mem none_ less'
    rw [is, is'] at value
    have low := (laid.inside _ (List.getElem_mem there)).1
    have low' := (laid.inside _ (List.getElem_mem there')).1
    rw [BitVec.le_def] at low low'
    have two : (2 : DWORD).toNat = 2 := rfl
    have rest := Nat.mod_lt q unit
    have rest' := Nat.mod_lt q' unit
    have cluster : m[q / l.csize.toNat].toNat - 2 = m[q' / l.csize.toNat].toNat - 2 := by
      have whole (x : DWORD) (r : Nat) (small : r < l.csize.toNat) :
          ((x.toNat - 2) * l.csize.toNat + r) / l.csize.toNat = x.toNat - 2 := by
        rw [Nat.add_comm, Nat.add_mul_div_right _ _ unit, Nat.div_eq_of_lt small, Nat.zero_add]
      rw [Nat.add_assoc, Nat.add_assoc] at value
      have quotient := congrArg (· / l.csize.toNat) (Nat.add_left_cancel value)
      rw [whole _ _ rest, whole _ _ rest'] at quotient
      exact quotient.symm
    have offset : q % l.csize.toNat = q' % l.csize.toNat := by
      rw [cluster] at value
      omega
    have index : q / l.csize.toNat = q' / l.csize.toNat := by
      apply (laid.nodup.getElem_inj_iff).1
      apply BitVec.eq_of_toNat_eq
      omega
    rw [← Nat.div_add_mod q l.csize.toNat, ← Nat.div_add_mod q' l.csize.toNat, index, offset]

theorem size_aligned (l : Layout) (m : List DWORD) : size l m % 16 = 0 := by
  have whole : entries % 16 = 0 := by decide
  unfold size
  omega

/-- The entries behind `n` that are in the same sector. -/
theorem inside_succ (inside : n < size l m) (same : (n + 1) % 16 ≠ 0) : n + 1 < size l m := by
  have aligned := size_aligned l m
  omega

/-- The next sector of a cluster, or of the static root. -/
theorem sectorAt_succ (same : m = [] ∨ (q + 1) % l.csize.toNat ≠ 0) :
    sectorAt l m (q + 1) = sectorAt l m q + 1 ∧
      (m ≠ [] → (q + 1) / l.csize.toNat = q / l.csize.toNat) := by
  have unit := l.unit
  have one (k : Nat) : (BitVec.ofNat 32 (k + 1) : DWORD) = BitVec.ofNat 32 k + 1 := by
    apply BitVec.eq_of_toNat_eq
    simp
  unfold sectorAt
  by_cases none_ : m = []
  · rw [if_pos none_, if_pos none_, one, BitVec.add_assoc]
    exact ⟨rfl, fun some_ => absurd none_ some_⟩
  · have inner := same.resolve_left none_
    have step : (q + 1) / l.csize.toNat = q / l.csize.toNat := by
      rw [Nat.succ_div, if_neg fun divides => inner (Nat.mod_eq_zero_of_dvd divides), Nat.add_zero]
    have offset : (q + 1) % l.csize.toNat = q % l.csize.toNat + 1 := by
      have whole := Nat.div_add_mod q l.csize.toNat
      have whole' := Nat.div_add_mod (q + 1) l.csize.toNat
      rw [step] at whole'
      omega
    rw [if_neg none_, if_neg none_, step, offset, one, BitVec.add_assoc]
    exact ⟨rfl, fun _ => rfl⟩

/-- The first sector of a cluster. -/
theorem sectorAt_first (some_ : m ≠ []) (first : q % l.csize.toNat = 0) :
    sectorAt l m q = clust2sect l (m.getD (q / l.csize.toNat) 0) := by
  unfold sectorAt
  rw [if_neg some_, first]
  simp

/-- Part of a table stays in its place when the chain grows. -/
theorem sectorAt_append (some_ : m ≠ []) (less : q < width l m) :
    sectorAt l (m ++ [c]) q = sectorAt l m q := by
  obtain ⟨there, is⟩ := getD_mem some_ less
  unfold sectorAt
  rw [if_neg some_, if_neg (by simp), is, List.getD_eq_getElem _ _ (by simp; omega),
    List.getElem_append_left there]

theorem fsize_pos (l : Layout) : 0 < l.fsize.toNat := by
  have room := l.room
  have some_ := l.some_
  have area : 0 < szbfat l.fsType l.nFatent.toNat := by
    cases l.fsType <;> simp only [szbfat] <;> omega
  omega

theorem Laid.sect_ne (laid : Laid l L sclust m) (less : q < width l m) : sectorAt l m q ≠ 0 := by
  obtain ⟨-, behind, -⟩ := toNat_sectorAt laid.root laid.static laid.inside less
  have area := fsize_pos l
  have fat := fat_behind l
  intro zero
  have value := congrArg BitVec.toNat zero
  have none_ : (0 : DWORD).toNat = 0 := rfl
  omega

/-- The test of `dir_next` for the end of a cluster. -/
theorem and_csize (l : Layout) (x : DWORD) :
    x &&& (l.csize.setWidth 32 - 1) = 0 ↔ x.toNat % l.csize.toNat = 0 := by
  obtain ⟨k, small, power⟩ := l.power
  have wide : (l.csize.setWidth 32 : DWORD).toNat = 2 ^ k := by
    rw [BitVec.toNat_setWidth_of_le (by decide), power]
  have pos := Nat.two_pow_pos k
  have less : (l.csize.setWidth 32 - 1 : DWORD).toNat = 2 ^ k - 1 := by
    rw [BitVec.toNat_sub_of_le, wide]
    · rfl
    · rw [BitVec.le_def, wide]
      exact pos
  rw [← BitVec.toNat_inj, BitVec.toNat_and, less, Nat.and_two_pow_sub_one_eq_mod, power]
  rfl

/-! ## Entries written -/

theorem cell_putCell (win : Sector) (e : Fin 32 → BYTE) {k k' : Nat} :
    cell (putCell win (k * 32) e) (k' * 32) = if k' = k then e else cell win (k' * 32) := by
  funext j
  have small := j.isLt
  by_cases here : k' = k
  · subst here
    unfold cell putCell
    rw [if_pos rfl, dif_pos ⟨by omega, by omega⟩]
    congr 1
    ext
    dsimp only
    omega
  · rw [if_neg here]
    exact dif_neg (by omega)

theorem cell_update (win : Sector) (x : BYTE) {k k' : Nat} :
    cell (Function.update win (k * 32) x) (k' * 32) =
      if k' = k then Function.update (cell win (k * 32)) 0 x else cell win (k' * 32) := by
  funext j
  have small := j.isLt
  unfold cell
  rw [Function.update_apply]
  split
  case isTrue at_ =>
    have same : k' = k := by omega
    have first : j = 0 := by
      ext
      show j.val = 0
      omega
    subst same first
    rw [if_pos rfl, Function.update_self]
  case isFalse away =>
    split
    case isTrue same =>
      subst same
      rw [Function.update_of_ne]
      rintro rfl
      exact away (by simp)
    case isFalse => rfl

/-- A sector written with one entry changed. -/
theorem Laid.slots_write (laid : Laid l L sclust m) (inside : n < size l m) {win : Sector}
    {e : Fin 32 → BYTE} (written : ∀ k, cell win (k * 32) =
      if k = n % 16 then e else cell (L (sectorAt l m (n / 16))) (k * 32)) :
    slots l (Function.update L (sectorAt l m (n / 16)) win) m = (slots l L m).set n e := by
  apply List.ext_getElem
  · simp
  intro n' less less'
  rw [length_slots] at less
  rw [List.getElem_set]
  simp only [slots, List.getElem_map, List.getElem_range]
  by_cases sector : n' / 16 = n / 16
  · rw [sector, Function.update_self, written]
    by_cases here : n = n'
    · rw [if_pos here, if_pos (by rw [here])]
    · rw [if_neg here, if_neg (by omega)]
  · rw [if_neg (by rintro rfl; exact sector rfl), Function.update_of_ne]
    exact fun same => sector (laid.sectorAt_inj (width_of_size less) (width_of_size inside) same)

/-- A sector outside the FAT is no matter of chains. -/
theorem Laid.aside {t : DWORD} (laid : Laid l L sclust m) (out : ¬l.InFat t) (win : Sector) :
    Laid l (Function.update L t win) sclust m := by
  have same : l.table (Function.update L t win) = l.table L := by
    apply l.table_congr
    intro s fat
    apply Function.update_of_ne
    rintro rfl
    exact out fat
  exact ⟨laid.root, laid.start, laid.static, same ▸ laid.linked, laid.inside⟩

/-- The table is where it was when nothing but its sectors is written. -/
theorem Laid.write (laid : Laid l L sclust m) (less : q < width l m) (win : Sector) :
    Laid l (Function.update L (sectorAt l m q) win) sclust m := laid.aside (laid.out less) win

theorem slots_aside {t : DWORD} (other : ∀ q < width l m, sectorAt l m q ≠ t) (win : Sector) :
    slots l (Function.update L t win) m = slots l L m := by
  unfold slots
  apply List.map_congr_left
  intro n mem
  rw [Function.update_of_ne (other _ (width_of_size (List.mem_range.1 mem)))]

end

end FatFsParticle.Dirs
