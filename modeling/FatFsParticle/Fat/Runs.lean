import FatFsParticle.Fat.Ownership

/-!
# Runs of a volume

What every run keeps of the chains, when clusters get lost, and when the number of free
clusters that the volume keeps is the right one: `create_chain` does not count the first
cluster of an empty volume, and `f_expand` counts none at all.
-/

namespace FatFsParticle.Fat
open Interact Program Links
open Files (FRESULT)
open Drives (FatType)
open Usage (Sector)

section
variable {ι : Type} {faulty lossy : Prop} {v v' : Volume ι} {L : Disk} {chain : ι → List DWORD}
  {l : List (Act ι × Volume ι)}

/-! ## Beside the FAT -/

theorem Holds.aside {fs : FATFS} {D' : Disk} (layout : fs.toLayout = v.fs.toLayout)
    (freeClst : fs.freeClst = v.fs.freeClst)
    (holds : ∀ L, Holds v.fs.InFat v.fs v.disk L → Holds v.fs.InFat fs D' L) :
    Aside v ⟨fs, D', v.sclust⟩ :=
  ⟨holds, layout, freeClst, rfl⟩

/-- The window moved, for whatever is to be read. -/
theorem aside_moveWindow {s : DWORD} {res : FRESULT} {fs' : FATFS} {D' : Disk}
    (ends : Ends (rules faulty) (moveWindow v.fs s) v.disk (res, fs') D') (start : Chained v L chain) :
    Aside v ⟨fs', D', v.sclust⟩ := by
  have moved := (ends.of_twp (twp_moveWindow start.holds s)).1
  apply Holds.aside moved.layout moved.freeClst
  intro L holds
  exact (ends.of_twp (twp_moveWindow holds s)).2.1

/-- Something changed in a window that does not show the FAT. -/
theorem aside_modify (out : ¬v.fs.InFat v.fs.winsect) (win : Sector) :
    Aside v ⟨v.fs.modify win, v.disk, v.sclust⟩ := by
  refine Holds.aside rfl rfl fun L holds => ⟨holds.own, holds.fat, fun s fat away => ?_, ?_⟩
  · apply holds.disk s fat
    rintro ⟨-, rfl⟩
    exact out fat
  · exact fun fat => absurd fat out

theorem aside_syncFs {res : FRESULT} {fs' : FATFS} {D' : Disk}
    (ends : Ends (rules faulty) (syncFs v.fs) v.disk (res, fs') D') (start : Chained v L chain) :
    Aside v ⟨fs', D', v.sclust⟩ := by
  have synced := (ends.of_twp (twp_syncFs start.holds)).1
  apply Holds.aside synced.layout synced.freeClst
  intro L holds
  exact (ends.of_twp (twp_syncFs holds)).2.1

/-- A sector of a file written. -/
theorem aside_diskWrite {s : DWORD} {data : Sector} {ok : Bool} {D' : Disk}
    (ends : Ends (rules faulty) (diskWrite s data) v.disk ok D') (out : ¬v.fs.InFat s) :
    Aside v ⟨v.fs, D', v.sclust⟩ :=
  Holds.aside rfl rfl fun _ holds => ends.of_twp (twp_direct holds out data)

/-! ## Chains -/

/-- Induction over the run: every step leaves the chains of the others alone. -/
theorem chains_kept [DecidableEq ι] (whole : v.fs.fsType = .fat12 → ¬faulty) (h : Chained v L chain)
    (run : Every (Step faulty lossy) v l) :
    ∃ L' chain', Chained (final v l) L' chain' ∧
      ∀ i, (∀ x ∈ l, x.1.Spares i) → chain' i = chain i := by
  induction l generalizing v L chain with
  | nil => exact ⟨L, chain, h, fun _ _ => rfl⟩
  | cons x l ih =>
    obtain ⟨act, t⟩ := x
    obtain ⟨L₁, chain₁, stepped⟩ := h.step whole run.1
    have whole₁ : t.fs.fsType = .fat12 → ¬faulty := by
      rw [stepped.layout]
      exact whole
    obtain ⟨L', chain', chained, spared⟩ := ih whole₁ stepped.chained run.2
    refine ⟨L', chain', chained, fun i spares => ?_⟩
    rw [spared i fun x mem => spares x (List.mem_cons_of_mem _ mem),
      stepped.spared i (spares (act, t) List.mem_cons_self)]

/-- Without faults only `f_expand` loses clusters. -/
theorem nothing_lost [DecidableEq ι] (h : Chained v L chain) (run : Every (Step False False) v l) :
    ∃ L' chain', Chained (final v l) L' chain' ∧
      ∀ c, (final v l).fs.Lost L' chain' c ↔ v.fs.Lost L chain c := by
  induction l generalizing v L chain with
  | nil => exact ⟨L, chain, h, fun _ => Iff.rfl⟩
  | cons x l ih =>
    obtain ⟨act, t⟩ := x
    obtain ⟨L₁, chain₁, stepped⟩ := h.step (fun _ => not_false) run.1
    obtain ⟨L', chain', chained, lost⟩ := ih stepped.chained run.2
    refine ⟨L', chain', chained, fun c => ?_⟩
    rw [final_cons, lost, stepped.layout, stepped.lost not_false not_false]

/-! ## The number of free clusters -/

/-- Free clusters of the volume. -/
def Volume.free (v : Volume ι) : Nat := (v.fs.frees (v.fs.sight v.disk)).card

/-- `free_clst` is right. -/
def Volume.Exact (v : Volume ι) : Prop := v.fs.freeClst.toNat = v.free

/-- A step that changes the number of free clusters without counting: an allocation where
all of them are free, or any one by `f_expand`. -/
def Act.Miscounts : Act ι → Volume ι → Volume ι → Prop
  | create _, v, v' | stretch _, v, v' => v.free = v.fs.nFatent.toNat - 2 ∧ v'.free ≠ v.free
  | expand _, v, v' => v'.free ≠ v.free
  | remove _, _, _ | truncate _, _, _ | aside, _, _ => False

theorem Chained.free (h : Chained v L chain) : v.free = (v.fs.frees L).card := by
  have same : v.fs.table (v.fs.sight v.disk) = v.fs.table L := h.table
  unfold Volume.free Layout.frees
  rw [same]

theorem toNat_bump (n : DWORD) {k m : Nat} (value : n.toNat = m) (less : m + k < 2 ^ 32 - 1) :
    (bump^[k] n).toNat = m + k := by
  induction k generalizing n m with
  | zero => exact value
  | succ k ih =>
    rw [Function.iterate_succ_apply]
    have known : n ≠ 0xFFFFFFFF := by
      rintro rfl
      simp at value
      omega
    have next : (bump n).toNat = m + 1 := by
      rw [bump, if_pos known, BitVec.toNat_add, value]
      simp
      omega
    rw [ih (bump n) next (by omega)]
    omega

theorem Layout.toNat_drop (l : Layout) {n : DWORD} {m : Nat} (value : n.toNat = m) (some_ : 0 < m) :
    (l.drop n).toNat = if m < l.nFatent.toNat - 2 then m - 1 else m := by
  have two := l.some_
  have all : (l.nFatent - 2).toNat = l.nFatent.toNat - 2 :=
    BitVec.toNat_sub_of_le (by rw [BitVec.le_def]; simp; omega)
  have less : n < l.nFatent - 2 ↔ m < l.nFatent.toNat - 2 := by rw [BitVec.lt_def, all, value]
  have prev : (n - 1).toNat = m - 1 := by
    rw [BitVec.toNat_sub_of_le (by rw [BitVec.le_def, value]; simp; omega), value]
    rfl
  unfold drop
  simp only [less]
  split
  · exact prev
  · exact value

/-- A right number stays right unless the step does not count. -/
theorem exact_step [DecidableEq ι] {act : Act ι} (start : ∃ L chain, Chained v L chain)
    (good : v.Exact) (step : Step False lossy act v v') : v'.Exact ↔ ¬act.Miscounts v v' := by
  obtain ⟨L, chain, h⟩ := start
  obtain ⟨L', chain', stepped⟩ := h.step (fun _ => not_false) step
  have counts := stepped.counts not_false
  have free := h.free
  have free' := stepped.chained.free
  have bound := v.fs.nFatent.isLt
  have most := v.fs.frees_le L
  have most' := v.fs.frees_le L'
  have few := v.fs.few
  have room := limit_lt v.fs.fsType
  have narrow : 2 ^ bits v.fs.fsType ≤ 2 ^ 28 := by cases v.fs.fsType <;> decide
  unfold Volume.Exact at good ⊢
  rw [stepped.layout] at free'
  rw [← free, ← free'] at counts
  rw [← free] at most
  rw [← free'] at most'
  have allocation (taken : (v'.fs.freeClst = v.fs.freeClst ∧ v'.free = v.free) ∨
      (v'.fs.freeClst = v.fs.drop v.fs.freeClst ∧ v'.free + 1 = v.free)) :
      v'.fs.freeClst.toNat = v'.free ↔ ¬(v.free = v.fs.nFatent.toNat - 2 ∧ v'.free ≠ v.free) := by
    rcases taken with ⟨known, same⟩ | ⟨known, less⟩
    · rw [known, good, same]
      simp
    · rw [known, v.fs.toNat_drop good (by omega)]
      split <;> omega
  have released (freed : ∃ k, v'.fs.freeClst = bump^[k] v.fs.freeClst ∧ v'.free = v.free + k) :
      v'.fs.freeClst.toNat = v'.free := by
    obtain ⟨k, known, more⟩ := freed
    rw [known, toNat_bump _ good (by omega), more]
  cases act with
  | create i => exact allocation counts
  | stretch i => exact allocation counts
  | remove i => exact iff_of_true (released counts) not_false
  | truncate i => exact iff_of_true (released counts) not_false
  | expand i =>
    obtain ⟨known, -⟩ := counts
    rw [known, good]
    exact ⟨fun same other => other same.symm, fun right => (not_not.1 right).symm⟩
  | aside =>
    obtain ⟨known, same⟩ := counts
    rw [known, good, same]
    exact iff_of_true rfl not_false

/-- Over every run without faults from a right number, it is right all the time exactly
when no step changes it uncounted. -/
theorem free_clst_exact_iff [DecidableEq ι] (h : Chained v L chain) (good : v.Exact)
    (run : Every (Step False lossy) v l) :
    (∀ x ∈ l, x.2.Exact) ↔ Every (fun act s t => ¬Act.Miscounts act s t) v l := by
  apply Every.always_iff (I := fun s => ∃ L chain, Chained s L chain) _ _ run ⟨L, chain, h⟩ good
  · rintro act s t ⟨L, chain, h⟩ step
    obtain ⟨L', chain', stepped⟩ := h.step (fun _ => not_false) step
    exact ⟨L', chain', stepped.chained⟩
  · intro act s t start good step
    exact exact_step start good step

/-! ## Clusters found -/

theorem Layout.FirstBlock.unique {l : Layout} {T : DWORD → DWORD} {stcl : DWORD} {t k k' : Nat}
    (h : l.FirstBlock T stcl t k) (h' : l.FirstBlock T stcl t k') : k = k' := by
  rcases Nat.lt_trichotomy k k' with before | same | behind
  · obtain ⟨i, less, used⟩ := h'.first k before
    exact absurd (h.free i less) used
  · exact same
  · obtain ⟨i, less, used⟩ := h.first k' behind
    exact absurd (h'.free i less) used

/-- Where `f_expand` has come to a block: it is linked and the chain of the file where it
lies in front of the end of the table, and lost where it lies around it. -/
theorem expand_iff [DecidableEq ι] {i : ι} (h : Chained v L chain)
    (sane : ∀ c, v.fs.Cluster c → v.table c ≠ 1) {fp fp' : FIL} {fsz : DWORD} {res : FRESULT}
    {fs' : FATFS} {D' : Disk} (ready : fp.Expandable .ok fsz) (own : fp.sclust = v.sclust i)
    (ends : Ends (rules False) (fExpand .ok v.fs fp fsz true) v.disk (res, fp', fs') D') :
    let t := (clustersOf v.fs.toLayout fsz).toNat
    let First := v.fs.FirstBlock v.table v.fs.blockOrigin t
    let after : Volume ι := ⟨fs', D', Function.update v.sclust i fp'.sclust⟩
    (res = .ok ↔ ∃ k, First k ∧ (v.fs.look v.fs.blockOrigin k).toNat + t ≤ v.fs.nFatent.toNat) ∧
      (res = .intErr ↔ ∃ k, First k ∧ v.fs.nFatent.toNat < (v.fs.look v.fs.blockOrigin k).toNat + t) ∧
      ∀ k, First k → ∃ L', if (v.fs.look v.fs.blockOrigin k).toNat + t ≤ v.fs.nFatent.toNat then
          Chained after L' (Function.update chain i (block (v.fs.look v.fs.blockOrigin k) t))
        else Chained after L' chain ∧
          ∀ c, v.fs.Cluster c → v.fs.look v.fs.blockOrigin k ≤ c → v.fs.Lost L' chain c := by
  have same := h.table
  rw [same] at sane ⊢
  dsimp only
  obtain ⟨L', holds, expanded⟩ := ends.of_twp (twp_fExpand h.holds .ok fp fsz true)
  dsimp only at holds expanded
  have start := own.trans (h.start i)
  cases expanded with
  | refused moved failed reason =>
    rcases reason with early | ⟨rfl, none_⟩ | ⟨c, cluster, one⟩ | bad
    · exact absurd ready early
    · have no {p : Nat → Prop} : ¬∃ k, v.fs.FirstBlock (v.fs.table L) v.fs.blockOrigin
          (clustersOf v.fs.toLayout fsz).toNat k ∧ p k := fun ⟨k, first, _⟩ => none_ k first
      exact ⟨iff_of_false (by decide) no, iff_of_false (by decide) no,
        fun k first => absurd first (none_ k)⟩
    · exact absurd one (sane c cluster)
    · exact bad.elim
  | found moved only => cases only
  | @made k fs' L' wanted ready first fits change lossless freeClst =>
    refine ⟨iff_of_true rfl ⟨k, first, fits⟩, iff_of_false (by decide) ?_, fun k' first' => ?_⟩
    · rintro ⟨k', first', wide⟩
      rw [← first.unique first'] at wide
      omega
    · rw [← first.unique first']
      refine ⟨L', ?_⟩
      rw [if_pos fits]
      exact h.replace holds change.forget (block_headD (clustersOf_ne ready.some_))
  | @torn k fs' L' wanted moved first wide out lost rest =>
    have kept (c : DWORD) (used : v.fs.table L c ≠ 0) : v.fs.table L' c = v.fs.table L c :=
      out c fun both => used (lost c both.1 both.2).1
    refine ⟨iff_of_false (by decide) ?_, iff_of_true rfl ⟨k, first, wide⟩, fun k' first' => ?_⟩
    · rintro ⟨k', first', fits⟩
      rw [← first.unique first'] at fits
      omega
    · rw [← first.unique first']
      have change := moved.kept (h.owned.linked i) (h.inside i) kept rest
      have chained := h.replace holds change start
      rw [Function.update_eq_self] at chained
      refine ⟨L', ?_⟩
      rw [if_neg (by omega)]
      refine ⟨chained, fun c cluster behind => ⟨cluster, (lost c cluster behind).2, fun j mem => ?_⟩⟩
      exact Layout.used (h.owned.linked j) (h.inside j) c mem (lost c cluster behind).1
  | broken bad => exact bad.elim

end

/-! ## A small volume -/

/-- Four clusters of one sector, all free. -/
def sample : Volume (Fin 2) where
  fs :=
    { fsType := .fat16, nFats := 1, nRootdir := 16, csize := 1, nFatent := 6, fsize := 1, volbase := 0,
      fatbase := 1, dirbase := 2, database := 3, copies := .inl rfl, some_ := by decide,
      few := by decide, room := by decide, info := fun large => (by cases large), after := by decide,
      power := ⟨0, by decide, rfl⟩, fits := by decide, fsiFlag := 0x80, lastClst := 0, freeClst := 4,
      wflag := false, winsect := nowhere, win := fun _ => 0 }
  disk _ _ := 0
  sclust _ := 0

theorem chained_sample : Chained sample (fun _ _ => 0) (fun _ => []) where
  holds :=
    { own := fun _ => .inl
      fat := fun _ => id
      disk := fun _ _ _ => rfl
      window := fun _ => rfl }
  owned := ⟨fun _ => trivial, by simp, by simp⟩
  start _ := rfl

theorem free_sample : sample.free = 4 := by decide

theorem Chained.creates {ι : Type} [DecidableEq ι] {v : Volume ι} {L : Disk} {chain : ι → List DWORD} {i : ι}
    (faulty lossy : Prop) (h : Chained v L chain) (empty : v.sclust i = 0) :
    ∃ v', Step faulty lossy (.create i) v v' ∧ ∀ j, j ≠ i → v'.sclust j = v.sclust j := by
  obtain ⟨⟨r, fs'⟩, D', ends⟩ := exists_ends faulty (twp_createChain h.holds 0)
  exact ⟨_, .create empty ends, fun j other => Function.update_of_ne other _ _⟩

theorem Chained.removes {ι : Type} [DecidableEq ι] {v : Volume ι} {L : Disk} {chain : ι → List DWORD}
    (faulty lossy : Prop) (h : Chained v L chain) (i : ι) : ∃ v', Step faulty lossy (.remove i) v v' := by
  have inside := h.inside i
  have linked := h.owned.linked i
  have start := h.start i
  cases kind : chain i with
  | nil =>
    have nothing : v.sclust i < 2 ∨ v.fs.nFatent ≤ v.sclust i := by
      rw [start, kind]
      exact .inl (by decide)
    have refused : (removeChain v.fs (v.sclust i) 0).twp (rules faulty) (fun _ _ => True) v.disk := by
      rw [removeChain, if_pos nothing]
      trivial
    obtain ⟨⟨res, fs'⟩, D', ends⟩ := exists_ends faulty refused
    exact ⟨_, .remove ends⟩
  | cons c m =>
    rw [kind] at inside linked start
    have once := linked.nodup fun c mem => (inside c mem).not_last
    obtain ⟨⟨res, fs'⟩, D', ends⟩ := exists_ends faulty
      (twp_removeChain h.holds linked once inside fun other => absurd rfl other)
    rw [show c = v.sclust i from start.symm] at ends
    exact ⟨_, .remove ends⟩

/-- Two files get a cluster, and the first one is removed. -/
theorem worked_sample (faulty lossy : Prop) : ∃ l : List (Act (Fin 2) × Volume (Fin 2)),
    l.map Prod.fst = [.create 0, .create 1, .remove 0] ∧ Every (Step faulty lossy) sample l := by
  obtain ⟨v₁, first, rest⟩ := chained_sample.creates faulty lossy (i := 0) rfl
  obtain ⟨L₁, chain₁, stepped₁⟩ := chained_sample.step (fun packed => by cases packed) first
  obtain ⟨v₂, second, -⟩ := stepped₁.chained.creates faulty lossy (i := 1) (rest 1 (by decide))
  have whole₁ : v₁.fs.fsType = .fat12 → ¬faulty := by
    rw [stepped₁.layout]
    exact fun packed => by cases packed
  obtain ⟨L₂, chain₂, stepped₂⟩ := stepped₁.chained.step whole₁ second
  obtain ⟨v₃, third⟩ := stepped₂.chained.removes faulty lossy 0
  exact ⟨[(.create 0, v₁), (.create 1, v₂), (.remove 0, v₃)], rfl, first, second, third, trivial⟩

theorem chains_kept_sample : ∃ l, l.map Prod.fst = [.create 0, .create 1, .remove 0] ∧
    Every (Step True True) sample l ∧ ∃ L' chain', Chained (final sample l) L' chain' ∧
      ∀ i, (∀ x ∈ l, x.1.Spares i) → chain' i = [] := by
  obtain ⟨l, acts, run⟩ := worked_sample True True
  exact ⟨l, acts, run, chains_kept (fun packed => by cases packed) chained_sample run⟩

theorem nothing_lost_sample : ∃ l, l.map Prod.fst = [.create 0, .create 1, .remove 0] ∧
    Every (Step False False) sample l ∧ ∃ L' chain', Chained (final sample l) L' chain' ∧
      ∀ c, (final sample l).fs.Lost L' chain' c ↔
        sample.fs.Lost (fun _ _ => 0) (fun _ : Fin 2 => []) c := by
  obtain ⟨l, acts, run⟩ := worked_sample False False
  exact ⟨l, acts, run, nothing_lost chained_sample run⟩

theorem free_clst_exact_iff_sample : ∃ l, l.map Prod.fst = [.create 0, .create 1, .remove 0] ∧
    Every (Step False False) sample l ∧
    ((∀ x ∈ l, x.2.Exact) ↔ Every (fun act s t => ¬Act.Miscounts act s t) sample l) := by
  obtain ⟨l, acts, run⟩ := worked_sample False False
  exact ⟨l, acts, run, free_clst_exact_iff chained_sample free_sample.symm run⟩

theorem table_sample : ∀ c, sample.fs.Cluster c → sample.table c = 0 := by
  intro c cluster
  rw [chained_sample.table, Layout.table, if_neg]
  · simp [entry, sample, Usage.ldWord, Layout.fatBytes]
  · rw [not_or, BitVec.not_lt, BitVec.not_le]
    exact cluster

theorem sane_sample : ∀ c, sample.fs.Cluster c → sample.table c ≠ 1 := by
  intro c cluster
  rw [table_sample c cluster]
  decide

/-- An open file without a chain. -/
def sampleFile : FIL where
  err := .ok
  flag := Files.faWrite
  sclust := 0
  objsize := 0
  fptr := 0
  clust := 0
  sect := 0
  buf _ := 0

/-- The first two clusters. -/
theorem first_sample : sample.fs.FirstBlock sample.table sample.fs.blockOrigin
    (clustersOf sample.fs.toLayout 1024).toNat 0 where
  few := by decide
  free i less := by
    apply table_sample
    have two : (clustersOf sample.fs.toLayout 1024).toNat = 2 := by decide
    rw [two] at less
    obtain rfl | rfl : i = 0 ∨ i = 1 := by omega
    · exact ⟨by decide, by decide⟩
    · exact ⟨by decide, by decide⟩
  first k less := absurd less (Nat.not_lt_zero k)

/-- The file gets them. -/
theorem expand_iff_sample : ∃ fp' fs' D', Ends (rules False) (fExpand .ok sample.fs sampleFile 1024 true) sample.disk
      (.ok, fp', fs') D' ∧
    ∃ L', Chained ⟨fs', D', Function.update sample.sclust 0 fp'.sclust⟩ L'
      (Function.update (fun _ : Fin 2 => []) 0 (block 2 2)) := by
  obtain ⟨⟨res, fp', fs'⟩, D', ends⟩ :=
    exists_ends False (twp_fExpand chained_sample.holds .ok sampleFile 1024 true)
  have ready : sampleFile.Expandable .ok 1024 := ⟨rfl, rfl, by decide, rfl, by decide⟩
  obtain ⟨ok, -, made⟩ := expand_iff (i := 0) chained_sample sane_sample ready rfl ends
  have inside : (sample.fs.look sample.fs.blockOrigin 0).toNat + (clustersOf sample.fs.toLayout 1024).toNat ≤
      sample.fs.nFatent.toNat := by decide
  obtain rfl := ok.2 ⟨0, first_sample, inside⟩
  obtain ⟨L', chained⟩ := made 0 first_sample
  rw [if_pos inside] at chained
  exact ⟨fp', fs', D', ends, L', chained⟩

end FatFsParticle.Fat
