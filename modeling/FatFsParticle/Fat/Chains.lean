import FatFsParticle.Fat.Table
import FatFsParticle.Links.Chain
import Mathlib.Data.Finset.Card
import Mathlib.Data.Finset.Range

/-!
# Cluster chains

`remove_chain` frees a chain cluster by cluster, `create_chain` looks for a free cluster
from the one after a suggestion on, around the table, and puts it to the end of a chain
or makes it a new one. What each of them does to the table is said for any access that
may fail, and for whatever the window held.
-/

namespace FatFsParticle.Fat
open Interact Program Links
open Files (FRESULT)
open Drives (FatType)

/-! ## remove_chain -/

/-- The `do` of `remove_chain`, cut off after some turns. -/
def removeLoop : Nat → FATFS → DWORD → Prog (FRESULT × FATFS)
  | 0, _, _ => .stuck
  | turns + 1, fs, clst => do
    let (nxt, fs) ← getFat fs clst
    if nxt = 0 then pure (.ok, fs)
    else if nxt = 1 then pure (.intErr, fs)
    else if nxt = 0xFFFFFFFF then pure (.diskErr, fs)
    else do
      let (res, fs) ← putFat fs clst 0
      if res ≠ .ok then pure (res, fs)
      else do
        let fs := if fs.freeClst ≠ 0xFFFFFFFF then
            { fs with freeClst := fs.freeClst + 1, fsiFlag := fs.fsiFlag ||| 1 }
          else fs
        let clst := nxt
        if clst < fs.nFatent then removeLoop turns fs clst else pure (.ok, fs)

/-- Every turn frees a cluster that was not free, so there are no more turns than entries. -/
def removeChain (fs : FATFS) (clst pclst : DWORD) : Prog (FRESULT × FATFS) :=
  if clst < 2 ∨ fs.nFatent ≤ clst then pure (.intErr, fs)
  else do
    let (res, fs) ← (if pclst ≠ 0 then putFat fs pclst 0xFFFFFFFF else pure (.ok, fs))
    if res ≠ .ok then pure (res, fs)
    else removeLoop fs.nFatent.toNat fs clst

/-! ## create_chain -/

/-- The loop of `create_chain` from cluster `ncl` on: a free cluster, or what is returned
when there is none. -/
def findFree (scl : DWORD) : Nat → FATFS → DWORD → Prog (Except DWORD DWORD × FATFS)
  | 0, _, _ => .stuck
  | turns + 1, fs, ncl => do
    let ncl := ncl + 1
    let around : Bool := fs.nFatent ≤ ncl
    let ncl := if around then 2 else ncl
    if around ∧ scl < ncl then pure (.error 0, fs)
    else do
      let (cs, fs) ← getFat fs ncl
      if cs = 0 then pure (.ok ncl, fs)
      else if cs = 1 ∨ cs = 0xFFFFFFFF then pure (.error cs, fs)
      else if ncl = scl then pure (.error 0, fs)
      else findFree scl turns fs ncl

/-- Where `create_chain` begins to look, or what it returns at once. -/
def suggested (fs : FATFS) (clst : DWORD) : Prog (Except DWORD DWORD × FATFS) :=
  if clst = 0 then
    let scl := fs.lastClst
    pure (.ok (if scl = 0 ∨ fs.nFatent ≤ scl then 1 else scl), fs)
  else do
    let (cs, fs) ← getFat fs clst
    if cs < 2 then pure (.error 1, fs)
    else if cs = 0xFFFFFFFF then pure (.error cs, fs)
    else if cs < fs.nFatent then pure (.error cs, fs)
    else pure (.ok clst, fs)

/-- The end of `create_chain`: the free cluster `ncl` made the end of a chain. -/
def linkCluster (fs : FATFS) (clst ncl : DWORD) : Prog (DWORD × FATFS) := do
  let (res, fs) ← putFat fs ncl 0xFFFFFFFF
  let (res, fs) ← (if res = .ok ∧ clst ≠ 0 then putFat fs clst ncl else pure (res, fs))
  if res = .ok then
    let freeClst := if fs.freeClst < fs.nFatent - 2 then fs.freeClst - 1 else fs.freeClst
    pure (ncl, { fs with lastClst := ncl, freeClst, fsiFlag := fs.fsiFlag ||| 1 })
  else pure (if res = .diskErr then 0xFFFFFFFF else 1, fs)

/-- No cluster is looked at twice, so there are no more turns than entries. -/
def createChain (fs : FATFS) (clst : DWORD) : Prog (DWORD × FATFS) := do
  let (start, fs) ← suggested fs clst
  match start with
  | .error cs => pure (cs, fs)
  | .ok scl => do
    let (found, fs) ← findFree scl fs.nFatent.toNat fs scl
    match found with
    | .error cs => pure (cs, fs)
    | .ok ncl => linkCluster fs clst ncl

/-! ## Clusters and ends -/

/-- The entries of clusters. -/
def Layout.Cluster (l : Layout) (c : DWORD) : Prop := 2 ≤ c ∧ c < l.nFatent

/-- What ends a chain. -/
def Layout.Last (l : Layout) (v : DWORD) : Prop := l.nFatent ≤ v

section
variable {faulty : Prop} {P : DWORD → Prop} {fs : FATFS} {l : Layout} {D L L' : Disk} {c v : DWORD}

theorem Layout.Cluster.not_last (h : l.Cluster c) : ¬l.Last c := BitVec.not_le.2 h.2

theorem Layout.Cluster.ne_zero (h : l.Cluster c) : c ≠ 0 := by
  rintro rfl
  exact absurd h.1 (by decide)

theorem Layout.Cluster.ne_one (h : l.Cluster c) : c ≠ 1 := by
  rintro rfl
  exact absurd h.1 (by decide)

/-- Bits of an entry. -/
def bits : FatType → Nat
  | .fat12 => 12
  | .fat16 => 16
  | .fat32 => 28

theorem toNat_mask (t : FatType) : (mask t).toNat = 2 ^ bits t - 1 := by
  cases t <;> decide

theorem toNat_and_mask (v : DWORD) (t : FatType) : (v &&& mask t).toNat = v.toNat % 2 ^ bits t := by
  rw [BitVec.toNat_and, toNat_mask, Nat.and_two_pow_sub_one_eq_mod]

theorem limit_lt (t : FatType) : limit t + 2 < 2 ^ bits t := by
  cases t <;> decide

/-- The end that is put into an entry. -/
theorem Layout.last_mask (l : Layout) : l.Last (0xFFFFFFFF &&& mask l.fsType) := by
  have few := l.few
  have room := limit_lt l.fsType
  have ones : (0xFFFFFFFF : DWORD) &&& mask l.fsType = mask l.fsType := by
    cases l.fsType <;> decide
  unfold Last
  rw [ones, BitVec.le_def, toNat_mask]
  omega

/-- The number of a cluster fits into an entry. -/
theorem Layout.Cluster.and_mask (h : l.Cluster c) : c &&& mask l.fsType = c := by
  have few := l.few
  have room := limit_lt l.fsType
  have below := h.2
  rw [BitVec.lt_def] at below
  apply BitVec.eq_of_toNat_eq
  rw [toNat_and_mask, Nat.mod_eq_of_lt (by omega)]

/-- No entry looks like an error of the disk. -/
theorem Layout.table_ne (l : Layout) (L : Disk) (c : DWORD) : l.table L c ≠ 0xFFFFFFFF := by
  unfold table
  split
  · decide
  · have small : (entry (l.fatBytes L) l.fsType c).toNat < 2 ^ 28 := by
      cases l.fsType with
      | fat12 =>
        have first := (l.fatBytes L (c.toNat + c.toNat / 2)).isLt
        have second := (l.fatBytes L (c.toNat + c.toNat / 2 + 1)).isLt
        rw [toNat_entry]
        dsimp only
        split <;> omega
      | fat16 =>
        have word := (Usage.ldWord (l.fatBytes L) (c.toNat * 2)).isLt
        simp only [entry]
        rw [BitVec.toNat_setWidth_of_le (by decide)]
        omega
      | fat32 =>
        simp only [entry]
        rw [show (0x0FFFFFFF : DWORD) = mask .fat32 from rfl, toNat_and_mask]
        exact Nat.mod_lt _ (by decide)
    intro same
    rw [same] at small
    exact absurd small (by decide)

/-- The sectors of the volume outside of the FAT. -/
def Layout.SameRest (l : Layout) (L L' : Disk) : Prop :=
  ∀ s : DWORD, s.toNat < l.fatbase.toNat ∨ l.fatbase.toNat + l.fsize.toNat ≤ s.toNat → L' s = L s

/-! ## What remove_chain does -/

/-- How `remove_chain` counts a cluster that has become free. -/
def bump (freeClst : DWORD) : DWORD :=
  if freeClst ≠ 0xFFFFFFFF then freeClst + 1 else freeClst

/-- Nothing of `chain` but its entries has changed, and without a fault they are all free. -/
structure Removed (faulty : Prop) (chain : List DWORD) (fs fs' : FATFS) (L L' : Disk)
    (res : FRESULT) : Prop where
  layout : fs'.toLayout = fs.toLayout
  lastClst : fs'.lastClst = fs.lastClst
  out : ∀ c, c ∉ chain → fs.table L' c = fs.table L c
  rest : fs.SameRest L L'
  window : fs'.AtFat ∨ fs'.winsect = fs.winsect ∧ L' = L
  result : (res = .ok ∧ (∀ c ∈ chain, fs.table L' c = 0) ∧
    fs'.freeClst = bump^[chain.length] fs.freeClst) ∨ (res = .diskErr ∧ faulty)

/-- A turn on a cluster that is in use. -/
theorem twp_removeTurn (holds : Holds P fs D L) (cluster : fs.Cluster c) (used : fs.table L c ≠ 0)
    (known : fs.table L c ≠ 1) {turns : Nat} {Q : FRESULT × FATFS → Disk → Prop}
    (done : ∀ fs' D' L', fs'.toLayout = fs.toLayout → fs'.lastClst = fs.lastClst →
      fs'.freeClst = bump fs.freeClst → fs'.AtFat → Holds P fs' D' L' → fs.Put L L' c 0 →
      (if fs.table L c < fs.nFatent then removeLoop turns fs' (fs.table L c)
        else pure (.ok, fs')).twp (rules faulty) Q D')
    (fails : ∀ fs' D' L', faulty → Fetched fs fs' → (fs'.AtFat ∨ fs'.winsect = fs.winsect ∧ L' = L) →
      Holds P fs' D' L' → (∀ x, x ≠ c → fs.table L' x = fs.table L x) → fs.SameRest L L' →
      Q (.diskErr, fs') D') :
    (removeLoop (turns + 1) fs c).twp (rules faulty) Q D := by
  unfold removeLoop
  apply twp_seq (twp_getFat holds c)
  rintro ⟨nxt, fs₁⟩ D₁ ⟨moved₁, holds₁, ⟨rfl, at_⟩ | ⟨rfl, bad⟩⟩
  · dsimp only
    rw [if_neg used, if_neg known, if_neg (fs.table_ne L c)]
    apply twp_seq (twp_putFat holds₁ c 0)
    rintro ⟨res, fs₂⟩ D₂ ⟨moved₂, L₂, holds₂, ⟨rfl, fat, put⟩ | ⟨-, out, -⟩ | ⟨rfl, bad, half⟩⟩
    · have moved : Fetched fs fs₂ := moved₁.trans moved₂
      dsimp only at holds₂ ⊢
      rw [moved₁.layout] at put
      rw [if_neg (by decide)]
      have counted := moved.freeClst
      have entries : fs₂.nFatent = fs.nFatent := congrArg Layout.nFatent moved.layout
      split
      case isTrue known =>
        dsimp only
        rw [entries]
        refine done _ D₂ L₂ moved.layout moved.lastClst ?_ fat ⟨holds₂.own, holds₂.fat, holds₂.disk, holds₂.window⟩ put
        unfold bump
        rw [← counted, if_pos known]
      case isFalse unknown =>
        rw [entries]
        refine done fs₂ D₂ L₂ moved.layout moved.lastClst ?_ fat holds₂ put
        unfold bump
        rw [← counted, if_neg unknown]
    · rw [moved₁.layout] at out
      exact absurd cluster (fun inside => out.elim (BitVec.not_lt.2 inside.1) (BitVec.not_le.2 inside.2))
    · dsimp only at holds₂ ⊢
      rw [if_pos (by decide)]
      have fat : fs₁.AtFat :=
        at_.elim (fun low => absurd low (BitVec.not_lt.2 cluster.1))
          fun at_ => at_.resolve_left (BitVec.not_le.2 cluster.2)
      apply fails _ _ L₂ bad (moved₁.trans moved₂) (.inl (moved₂.atFat fat)) holds₂
      · rw [moved₁.layout] at half
        intro x other
        rcases half with rfl | ⟨-, -, v, put⟩
        · rfl
        · rw [put.table, Function.update_of_ne other]
      · rw [moved₁.layout] at half
        rcases half with rfl | ⟨-, -, v, put⟩
        · exact fun s _ => rfl
        · exact put.rest
  · dsimp only
    rw [if_neg (by decide), if_neg (by decide), if_pos rfl]
    exact fails _ _ L bad moved₁ (moved₁.window.imp id fun same => ⟨same, rfl⟩) holds₁ (fun x _ => rfl)
      fun s _ => rfl

theorem Layout.Cluster.link (h : l.Cluster c) {T : DWORD → DWORD} {a : DWORD} (next : T a = c) :
    T a ≠ 0 ∧ T a ≠ 1 ∧ T a < l.nFatent := by
  rw [next]
  exact ⟨h.ne_zero, h.ne_one, h.2⟩

theorem Layout.Last.link (h : l.Last v) : v ≠ 0 ∧ v ≠ 1 ∧ ¬v < l.nFatent := by
  have some_ := l.some_
  have high : l.nFatent.toNat ≤ v.toNat := BitVec.le_def.1 h
  refine ⟨?_, ?_, BitVec.not_lt.2 h⟩
  · rintro rfl
    simp at high
    omega
  · rintro rfl
    simp at high
    omega

/-- Induction along the chain: a turn frees its first cluster. -/
theorem twp_removeLoop (holds : Holds P fs D L) {m : List DWORD}
    (linked : Linked (fs.table L) fs.Last (c :: m)) (once : (c :: m).Nodup)
    (clusters : ∀ x ∈ c :: m, fs.Cluster x) {turns : Nat} (enough : m.length < turns) :
    (removeLoop turns fs c).twp (rules faulty) (fun r D' =>
      ∃ L', Holds P r.2 D' L' ∧ Removed faulty (c :: m) fs r.2 L L' r.1) D := by
  induction m generalizing fs D L c turns with
  | nil =>
    obtain ⟨turns, rfl⟩ : ∃ n, turns = n + 1 := ⟨turns - 1, by simp at enough; omega⟩
    obtain ⟨used, known, ends⟩ := Layout.Last.link linked
    apply twp_removeTurn holds (clusters c List.mem_cons_self) used known
    · intro fs' D' L' layout lastClst freeClst fat holds' put
      rw [if_neg ends]
      refine ⟨L', holds', layout, lastClst, ?_, put.rest, .inl fat, .inl ⟨rfl, ?_, freeClst⟩⟩
      · intro x out
        rw [put.table, Function.update_of_ne (fun same => out (by simp [same]))]
      · intro x mem
        rw [List.mem_singleton.1 mem, put.table, Function.update_self]
        simp
    · intro fs' D' L' bad moved window holds' others rest
      refine ⟨L', holds', moved.layout, moved.lastClst, ?_, rest, window, .inr ⟨rfl, bad⟩⟩
      intro x out
      exact others x fun same => out (by simp [same])
  | cons b m ih =>
    obtain ⟨turns, rfl⟩ : ∃ n, turns = n + 1 := ⟨turns - 1, by simp at enough; omega⟩
    obtain ⟨used, known, goes⟩ := (clusters b (by simp)).link linked.1
    obtain ⟨fresh, once'⟩ := List.nodup_cons.1 once
    apply twp_removeTurn holds (clusters c List.mem_cons_self) used known
    · intro fs' D' L' layout lastClst freeClst fat holds' put
      rw [if_pos goes, linked.1]
      have linked' : Linked (fs'.table L') fs'.Last (b :: m) := by
        rw [layout, put.table]
        exact linked.2.update fresh
      have clusters' : ∀ x ∈ b :: m, fs'.Cluster x := by
        rw [layout]
        exact fun x mem => clusters x (List.mem_cons_of_mem c mem)
      apply twp_mono (ih holds' linked' once' clusters' (by simp at enough; omega))
      rintro ⟨res, fs''⟩ D'' ⟨L'', holds'', removed⟩
      have out' := removed.out
      have rest' := removed.rest
      have result := removed.result
      rw [layout] at out' rest' result
      refine ⟨L'', holds'', removed.layout.trans layout, removed.lastClst.trans lastClst, ?_, ?_, ?_,
        ?_⟩
      · intro x out
        rw [out' x fun mem => out (List.mem_cons_of_mem c mem), put.table,
          Function.update_of_ne fun same => out (by simp [same])]
      · exact fun s away => (rest' s away).trans (put.rest s away)
      · exact .inl (removed.window.elim id fun same => fat.congr removed.layout same.1)
      · rcases result with ⟨ok, free, count⟩ | failed
        · refine .inl ⟨ok, ?_, ?_⟩
          · intro x mem
            rcases List.mem_cons.1 mem with rfl | mem
            · rw [out' x fresh, put.table, Function.update_self]
              simp
            · exact free x mem
          · rw [count, freeClst]
            rfl
        · exact .inr failed
    · intro fs' D' L' bad moved window holds' others rest
      refine ⟨L', holds', moved.layout, moved.lastClst, ?_, rest, window, .inr ⟨rfl, bad⟩⟩
      intro x out
      exact others x fun same => out (by simp [same])

/-- There are not more clusters than entries. -/
theorem Layout.length_le (l : Layout) {m : List DWORD} (once : m.Nodup)
    (clusters : ∀ x ∈ m, l.Cluster x) : m.length ≤ l.nFatent.toNat := by
  have numbers : (m.map BitVec.toNat).Nodup := once.map fun _ _ => BitVec.eq_of_toNat_eq
  have inside : (m.map BitVec.toNat).toFinset ⊆ Finset.range l.nFatent.toNat := by
    intro k mem
    obtain ⟨x, there, rfl⟩ := List.mem_map.1 (List.mem_toFinset.1 mem)
    exact Finset.mem_range.2 (BitVec.lt_def.1 (clusters x there).2)
  have count := Finset.card_le_card inside
  rwa [List.toFinset_card_of_nodup numbers, List.length_map, Finset.card_range] at count

/-- The chain cut off behind `p`, if there is such a cluster. -/
def Layout.Ended (l : Layout) (p : DWORD) (L L' : Disk) : Prop :=
  if p = 0 then L' = L else l.Put L L' p 0xFFFFFFFF

/-- Nothing was cut off. A 12-bit entry may hold half of the end. -/
def Layout.Uncut (l : Layout) (p : DWORD) (L L' : Disk) : Prop :=
  L' = L ∨ l.fsType = .fat12 ∧ ∃ v, l.Put L L' p v

theorem twp_removeChain (holds : Holds P fs D L) {p : DWORD} {m : List DWORD}
    (linked : Linked (fs.table L) fs.Last (c :: m)) (once : (c :: m).Nodup)
    (clusters : ∀ x ∈ c :: m, fs.Cluster x) (before : p ≠ 0 → fs.Cluster p ∧ p ∉ c :: m) :
    (removeChain fs c p).twp (rules faulty) (fun r D' => ∃ L', Holds P r.2 D' L' ∧
      ((∃ L₁, fs.Ended p L L₁ ∧ (p ≠ 0 → r.2.AtFat) ∧ Removed faulty (c :: m) fs r.2 L₁ L' r.1) ∨
        p ≠ 0 ∧ Fetched fs r.2 ∧ r.1 = .diskErr ∧ faulty ∧ fs.Uncut p L L')) D := by
  have first := clusters c List.mem_cons_self
  have enough : m.length < fs.nFatent.toNat := fs.length_le once clusters
  unfold removeChain
  rw [if_neg (not_or.2 ⟨BitVec.not_lt.2 first.1, BitVec.not_le.2 first.2⟩)]
  by_cases whole : p = 0
  · rw [if_neg (not_not.2 whole)]
    change ((if FRESULT.ok ≠ .ok then pure (FRESULT.ok, fs)
      else removeLoop fs.nFatent.toNat fs c : Prog (FRESULT × FATFS))).twp _ _ _
    rw [if_neg (by decide)]
    apply twp_mono (twp_removeLoop holds linked once clusters enough)
    rintro r D' ⟨L', holds', removed⟩
    have ended : fs.Ended p L L := by
      unfold Layout.Ended
      rw [if_pos whole]
    exact ⟨L', holds', .inl ⟨L, ended, fun cut => absurd whole cut, removed⟩⟩
  · obtain ⟨cluster, out⟩ := before whole
    rw [if_pos whole]
    apply twp_seq (twp_putFat holds p 0xFFFFFFFF)
    rintro ⟨res, fs₁⟩ D₁ ⟨moved, L₁, holds₁, ⟨rfl, fat, put⟩ | ⟨-, range, -⟩ | ⟨rfl, bad, half⟩⟩
    · dsimp only at moved holds₁ ⊢
      have layout := moved.layout
      rw [if_neg (by decide)]
      have linked₁ : Linked (fs₁.table L₁) fs₁.Last (c :: m) := by
        rw [layout, put.table]
        exact linked.update out
      apply twp_mono (twp_removeLoop holds₁ linked₁ once (layout ▸ clusters) (layout ▸ enough))
      rintro r D' ⟨L', holds', removed⟩
      have out' := removed.out
      have rest' := removed.rest
      have result := removed.result
      rw [layout] at out' rest' result
      rw [moved.freeClst] at result
      have ended : fs.Ended p L L₁ := by
        unfold Layout.Ended
        rw [if_neg whole]
        exact put
      have fat' := removed.window.elim id fun same => fat.congr removed.layout same.1
      exact ⟨L', holds', .inl ⟨L₁, ended, fun _ => fat', removed.layout.trans layout,
        removed.lastClst.trans moved.lastClst, out', rest', .inl fat', result⟩⟩
    · exact absurd cluster fun inside =>
        range.elim (BitVec.not_lt.2 inside.1) (BitVec.not_le.2 inside.2)
    · dsimp only at holds₁ moved ⊢
      rw [if_pos (by decide)]
      exact ⟨L₁, holds₁, .inr ⟨whole, moved, rfl, bad, half.imp id fun torn => ⟨torn.1, torn.2.2⟩⟩⟩

end

end FatFsParticle.Fat
