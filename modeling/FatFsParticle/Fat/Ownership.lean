import FatFsParticle.Fat.Objects
import FatFsParticle.Interact.Trace

/-!
# The chains of all objects

Files and directories know the first clusters of their chains, the rest is in the FAT. In
any run of a volume, in any order and whatever accesses fail, the chains stay chains and
have no cluster in common, and the chain of an object that nothing is done to stays the
same. Volumes with 12-bit entries are safe where no access fails: half an entry leads
anywhere.
-/

namespace FatFsParticle.Fat
open Interact Program Links
open Files (FRESULT)
open Drives (FatType)
open Usage (Sector)

variable {ι : Type}

/-- A mounted volume and the first clusters of its objects, 0 for no chain. -/
structure Volume (ι : Type) where
  fs : FATFS
  disk : Disk
  sclust : ι → DWORD

/-- What the window and the disk together show. -/
def FATFS.sight (fs : FATFS) (D : Disk) : Disk :=
  fun s => if fs.wflag ∧ s = fs.winsect then fs.win else D s

def Volume.table (v : Volume ι) : DWORD → DWORD := v.fs.table (v.fs.sight v.disk)

/-- `a` is a cluster that the links of the FAT lead to from the first one of `i`. -/
def Volume.Reaches (v : Volume ι) (i : ι) (a : DWORD) : Prop :=
  v.fs.Cluster a ∧ ∃ k, v.table^[k] (v.sclust i) = a

/-- Something that neither touches the FAT nor what is known of it. -/
structure Aside (v v' : Volume ι) : Prop where
  holds : ∀ L, Holds v.fs.InFat v.fs v.disk L → Holds v.fs.InFat v'.fs v'.disk L
  layout : v'.fs.toLayout = v.fs.toLayout
  freeClst : v'.fs.freeClst = v.fs.freeClst
  sclust : v'.sclust = v.sclust

/-- What may be done to the chain of an object. -/
inductive Act (ι : Type) where
  | create (i : ι)
  | stretch (i : ι)
  | remove (i : ι)
  | truncate (i : ι)
  | expand (i : ι)
  | aside

/-- The chain of `i` is another matter. -/
def Act.Spares (i : ι) : Act ι → Prop
  | create j | stretch j | remove j | truncate j | expand j => j ≠ i
  | aside => True

/-- A step of the volume. Where it is not `lossy`, `f_expand` is given objects without a
chain, and finds no block around the end of the table. -/
inductive Step [DecidableEq ι] (faulty lossy : Prop) : Act ι → Volume ι → Volume ι → Prop
  | create {v : Volume ι} {i : ι} {r : DWORD} {fs' : FATFS} {D' : Disk} (empty : v.sclust i = 0)
      (ends : Ends (rules faulty) (createChain v.fs 0) v.disk (r, fs') D') :
      Step faulty lossy (.create i) v
        ⟨fs', D', Function.update v.sclust i (if Usable r then r else 0)⟩
  | stretch {v : Volume ι} {i : ι} {a r : DWORD} {fs' : FATFS} {D' : Disk} (on : v.Reaches i a)
      (ends : Ends (rules faulty) (createChain v.fs a) v.disk (r, fs') D') :
      Step faulty lossy (.stretch i) v ⟨fs', D', v.sclust⟩
  | remove {v : Volume ι} {i : ι} {res : FRESULT} {fs' : FATFS} {D' : Disk}
      (ends : Ends (rules faulty) (removeChain v.fs (v.sclust i) 0) v.disk (res, fs') D') :
      Step faulty lossy (.remove i) v ⟨fs', D', Function.update v.sclust i 0⟩
  | truncate {v : Volume ι} {i : ι} {valid res : FRESULT} {fp fp' : FIL} {fs' : FATFS} {D' : Disk}
      (own : fp.sclust = v.sclust i) (on : fp.fptr ≠ 0 → v.Reaches i fp.clust)
      (data : ¬v.fs.InFat fp.sect)
      (ends : Ends (rules faulty) (fTruncate valid v.fs fp) v.disk (res, fp', fs') D') :
      Step faulty lossy (.truncate i) v ⟨fs', D', Function.update v.sclust i fp'.sclust⟩
  | expand {v : Volume ι} {i : ι} {valid res : FRESULT} {fp fp' : FIL} {fsz : DWORD} {opt : Bool}
      {fs' : FATFS} {D' : Disk} (own : fp.sclust = v.sclust i)
      (ends : Ends (rules faulty) (fExpand valid v.fs fp fsz opt) v.disk (res, fp', fs') D')
      (tidy : lossy ∨ v.sclust i = 0 ∧ res ≠ .intErr) :
      Step faulty lossy (.expand i) v ⟨fs', D', Function.update v.sclust i fp'.sclust⟩
  | aside {v v' : Volume ι} (aside : Aside v v') : Step faulty lossy .aside v v'

/-- The volume holds `L`, and the objects have the chains `chain` in it. -/
structure Chained (v : Volume ι) (L : Disk) (chain : ι → List DWORD) : Prop where
  holds : Holds v.fs.InFat v.fs v.disk L
  owned : Owned (v.fs.table L) v.fs.Last v.fs.Cluster chain
  start : ∀ i, v.sclust i = (chain i).headD 0

section
variable {faulty lossy : Prop} {v v' : Volume ι} {L : Disk} {chain : ι → List DWORD} {i : ι} {a : DWORD}

/-! ## What an object reaches -/

theorem Layout.table_stays (l : Layout) (L : Disk) {x : DWORD} (out : ¬l.Cluster x) (k : Nat) :
    ¬l.Cluster ((l.table L)^[k] x) := by
  induction k generalizing x with
  | zero => exact out
  | succ k ih =>
    apply ih
    rw [l.table_out L out]
    exact fun one => one.ne_one rfl

/-- The links of a chain lead to its clusters only. -/
theorem Layout.mem_of_iterate {l : Layout} {m : List DWORD} {c : DWORD}
    (linked : Linked (l.table L) l.Last (c :: m)) (k : Nat)
    (cluster : l.Cluster ((l.table L)^[k] c)) : (l.table L)^[k] c ∈ c :: m := by
  induction k generalizing c m with
  | zero => simp
  | succ k ih =>
    rw [Function.iterate_succ_apply] at cluster ⊢
    cases m with
    | nil =>
      have ends : l.Last (l.table L c) := linked
      exact absurd cluster (l.table_stays L (fun inside => inside.not_last ends) k)
    | cons b m =>
      rw [linked.1] at cluster ⊢
      exact List.mem_cons_of_mem c (ih linked.2 cluster)

theorem Holds.sight {fs : FATFS} {D : Disk} (holds : Holds fs.InFat fs D L) {s : DWORD}
    (fat : fs.InFat s) : fs.sight D s = L s := by
  unfold FATFS.sight
  split
  case isTrue here =>
    obtain ⟨-, rfl⟩ := here
    exact holds.window fat
  case isFalse away => exact holds.disk s fat away

theorem Layout.table_congr (l : Layout) {L L' : Disk} (same : ∀ s, l.InFat s → L' s = L s) :
    l.table L' = l.table L := by
  ext1 c
  unfold table
  split
  case isTrue => rfl
  case isFalse range =>
    have inside : c.toNat < l.nFatent.toNat := by
      rw [not_or, BitVec.not_le, BitVec.lt_def] at range
      exact range.2
    apply entry_congr inside
    intro k less
    exact congrFun (same _ (l.inFat_fatSector (Nat.lt_of_lt_of_le less l.room))) _

theorem Chained.table (h : Chained v L chain) : v.table = v.fs.table L :=
  v.fs.table_congr fun _ => h.holds.sight

theorem Chained.mem (h : Chained v L chain) (on : v.Reaches i a) : a ∈ chain i := by
  obtain ⟨cluster, k, rfl⟩ := on
  rw [h.table, h.start] at cluster ⊢
  have linked := h.owned.linked i
  cases kind : chain i with
  | nil =>
    rw [kind] at cluster
    exact absurd cluster (v.fs.table_stays L (fun zero => zero.ne_zero rfl) k)
  | cons c m =>
    rw [kind] at cluster linked
    exact Layout.mem_of_iterate linked k cluster

/-! ## One step -/

theorem Rechained.forget {fs fs' : FATFS} {L L' : Disk} {old new : List DWORD}
    (change : Rechained fs fs' L L' [] new) : Rechained fs fs' L L' old new :=
  ⟨change.layout, change.linked, change.inside,
    fun c mem => (change.taken c mem).imp (fun none_ => absurd none_ (by simp)) id,
    fun c _ => change.others c (by simp), change.rest, change.window⟩

/-- A chain replaced, and the object told. -/
theorem Chained.replace [DecidableEq ι] (h : Chained v L chain) {fs' : FATFS} {D' L' : Disk}
    {new : List DWORD} (holds : Holds v.fs.InFat fs' D' L')
    (change : Rechained v.fs fs' L L' (chain i) new) {first : DWORD} (start : first = new.headD 0) :
    Chained ⟨fs', D', Function.update v.sclust i first⟩ L' (Function.update chain i new) where
  holds := by
    dsimp only
    rw [change.layout]
    exact holds
  owned := by
    dsimp only
    rw [change.layout]
    exact change.owned h.owned
  start j := by
    dsimp only
    rw [Function.update_apply, Function.update_apply]
    split
    · exact start
    · exact h.start j

theorem Chained.headD_stretch (h : Chained v L chain) {m m' tail : List DWORD}
    (is : chain i = m ++ a :: m') : v.sclust i = (m ++ a :: tail).headD 0 := by
  rw [h.start, is]
  cases m <;> rfl

/-! ## What a step does -/

/-- In use, and in no chain. -/
def Layout.Lost (l : Layout) (L : Disk) (chain : ι → List DWORD) (c : DWORD) : Prop :=
  l.Cluster c ∧ l.table L c ≠ 0 ∧ ∀ i, c ∉ chain i

/-- The number of free clusters and what is known of it, before and after. -/
def Act.Counts (l : Layout) : Act ι → Nat → Nat → DWORD → DWORD → Prop
  | create _, m, m', n, n' | stretch _, m, m', n, n' =>
    (n' = n ∧ m' = m) ∨ (n' = l.drop n ∧ m' + 1 = m)
  | remove _, m, m', n, n' | truncate _, m, m', n, n' => ∃ k, n' = bump^[k] n ∧ m' = m + k
  | expand _, m, m', n, n' => n' = n ∧ m' ≤ m
  | aside, m, m', n, n' => n' = n ∧ m' = m

/-- All that a step does to chains and free clusters. -/
structure Stepped (faulty lossy : Prop) (act : Act ι) (v v' : Volume ι) (L L' : Disk)
    (chain chain' : ι → List DWORD) : Prop where
  chained : Chained v' L' chain'
  layout : v'.fs.toLayout = v.fs.toLayout
  spared : ∀ j, act.Spares j → chain' j = chain j
  lost : ¬faulty → ¬lossy → ∀ c, v.fs.Lost L' chain' c ↔ v.fs.Lost L chain c
  counts : ¬faulty →
    act.Counts v.fs.toLayout (v.fs.frees L).card (v.fs.frees L').card v.fs.freeClst v'.fs.freeClst

variable {L' : Disk}

/-- Where a chain is replaced and nothing is lost, the same clusters are lost as before. -/
theorem Layout.Lossless.lost_iff [DecidableEq ι] {l : Layout} {new : List DWORD}
    (lossless : l.Lossless L L' (chain i) new)
    (taken : ∀ c ∈ new, c ∈ chain i ∨ l.table L c = 0) (c : DWORD) :
    l.Lost L' (Function.update chain i new) c ↔ l.Lost L chain c := by
  have others : (∀ j, c ∉ Function.update chain i new j) ↔ c ∉ new ∧ ∀ j, j ≠ i → c ∉ chain j := by
    constructor
    · intro all
      refine ⟨by simpa using all i, fun j other => ?_⟩
      simpa [Function.update_of_ne other] using all j
    · rintro ⟨out, rest⟩ j
      rw [Function.update_apply]
      split
      · exact out
      · exact rest j ‹_›
  have split_ : (∀ j, c ∉ chain j) ↔ c ∉ chain i ∧ ∀ j, j ≠ i → c ∉ chain j := by
    constructor
    · exact fun all => ⟨all i, fun j _ => all j⟩
    · rintro ⟨out, rest⟩ j
      by_cases here : j = i
      · rw [here]
        exact out
      · exact rest j here
  have zero := lossless c
  have old := taken c
  unfold Lost
  rw [others, split_]
  tauto

theorem Chained.inside (h : Chained v L chain) (i : ι) : ∀ c ∈ chain i, v.fs.Cluster c :=
  h.owned.inside i

theorem Chained.nil_of_zero (h : Chained v L chain) (zero : v.sclust i = 0) : chain i = [] := by
  have first := h.start i
  rw [zero] at first
  cases kind : chain i with
  | nil => rfl
  | cons c m =>
    rw [kind] at first
    exact absurd first.symm (h.inside i c (by simp [kind])).ne_zero

theorem block_headD {c : DWORD} {t : Nat} (some_ : t ≠ 0) : c = (block c t).headD 0 := by
  cases t with
  | zero => exact absurd rfl some_
  | succ t => rfl

section
variable [DecidableEq ι] {fs' : FATFS} {D' : Disk}

/-- A step that replaces the chain of `i`. -/
theorem Chained.stepped (h : Chained v L chain) {act : Act ι} {new : List DWORD} {first : DWORD}
    (holds : Holds v.fs.InFat fs' D' L') (change : Rechained v.fs fs' L L' (chain i) new)
    (start : first = new.headD 0) (spares : ∀ j, act.Spares j → j ≠ i)
    (lossless : ¬faulty → ¬lossy → v.fs.Lossless L L' (chain i) new)
    (counts : ¬faulty →
      act.Counts v.fs.toLayout (v.fs.frees L).card (v.fs.frees L').card v.fs.freeClst fs'.freeClst) :
    Stepped faulty lossy act v ⟨fs', D', Function.update v.sclust i first⟩ L L' chain
      (Function.update chain i new) where
  chained := h.replace holds change start
  layout := change.layout
  spared j other := Function.update_of_ne (spares j other) _ _
  lost sound tidy := (lossless sound tidy).lost_iff change.taken
  counts := counts

theorem Chained.step_create (h : Chained v L chain) {r : DWORD} (empty : v.sclust i = 0)
    (ends : Ends (rules faulty) (createChain v.fs 0) v.disk (r, fs') D') :
    ∃ L' chain', Stepped faulty lossy (.create i) v
      ⟨fs', D', Function.update v.sclust i (if Usable r then r else 0)⟩ L L' chain chain' := by
  obtain ⟨L', holds, created⟩ := ends.of_twp (twp_createChain h.holds 0)
  have nil := h.nil_of_zero empty
  have change : Rechained v.fs fs' L L' (chain i) (if Usable r then [r] else []) := by
    rw [nil]
    exact created.rechained_new
  refine ⟨L', _, h.stepped holds change ?_ (fun _ other => Ne.symm other) (fun sound _ => ?_)
    fun sound => created.counted sound⟩
  · split <;> rfl
  · rw [nil]
    exact created.lossless_new sound

theorem Chained.step_stretch (h : Chained v L chain) (whole : v.fs.fsType = .fat12 → ¬faulty)
    {r : DWORD} (on : v.Reaches i a) (ends : Ends (rules faulty) (createChain v.fs a) v.disk (r, fs') D') :
    ∃ L' chain', Stepped faulty lossy (.stretch i) v ⟨fs', D', v.sclust⟩ L L' chain chain' := by
  obtain ⟨L', holds, created⟩ := ends.of_twp (twp_createChain h.holds a)
  obtain ⟨m, m', is⟩ := List.append_of_mem (h.mem on)
  have linked := h.owned.linked i
  have inside := h.inside i
  rw [is] at linked inside
  obtain ⟨tail, change, lossless⟩ := created.rechained whole linked inside
  rw [← is] at change lossless
  have stepped : Stepped faulty lossy (.stretch i) v
      ⟨fs', D', Function.update v.sclust i (v.sclust i)⟩ L L' chain
      (Function.update chain i (m ++ a :: tail)) :=
    h.stepped holds change (h.headD_stretch is) (fun _ other => Ne.symm other)
      (fun sound _ => lossless sound) fun sound => created.counted sound
  rw [Function.update_eq_self] at stepped
  exact ⟨L', _, stepped⟩

theorem Chained.step_remove (h : Chained v L chain) {res : FRESULT}
    (ends : Ends (rules faulty) (removeChain v.fs (v.sclust i) 0) v.disk (res, fs') D') :
    ∃ L' chain', Stepped faulty lossy (.remove i) v ⟨fs', D', Function.update v.sclust i 0⟩ L L' chain
      chain' := by
  have inside := h.inside i
  have linked := h.owned.linked i
  cases kind : chain i with
  | nil =>
    have zero : v.sclust i = 0 := by rw [h.start, kind]; rfl
    rw [zero, removeChain, if_pos (.inl (by decide))] at ends
    obtain ⟨same, rfl⟩ := ends.of_twp (Q := fun r D' => r = (FRESULT.intErr, v.fs) ∧ D' = v.disk)
      (L := rules faulty) ⟨rfl, rfl⟩
    obtain ⟨-, rfl⟩ := Prod.mk.inj same
    have change := (Fetched.refl v.fs).rechained linked inside
    refine ⟨L, _, h.stepped h.holds change (by rw [kind]; rfl) (fun _ other => Ne.symm other)
      (fun _ _ => Layout.lossless_same linked inside) fun _ => ⟨0, rfl, rfl⟩⟩
  | cons c m =>
    have first : v.sclust i = c := by rw [h.start, kind]; rfl
    rw [first] at ends
    rw [kind] at linked inside
    have once := linked.nodup fun c mem => (inside c mem).not_last
    obtain ⟨L', holds, ⟨L₁, ended, -, removed⟩ | ⟨other, -⟩⟩ :=
      ends.of_twp (twp_removeChain h.holds linked once inside fun other => absurd rfl other)
    · obtain rfl : L₁ = L := ended
      have change := removed.rechained
      rw [← kind] at change
      refine ⟨L', _, h.stepped holds change rfl (fun _ other => Ne.symm other) (fun sound _ => ?_)
        fun sound => ?_⟩
      · rw [kind]
        exact removed.lossless (removed.ok sound).1
      · have freed := removed.lossless (removed.ok sound).1
        have count := freed.card (Layout.used linked inside) (by simp) inside (by simp) once
          List.nodup_nil
        exact ⟨(c :: m).length, (removed.ok sound).2, by simpa using count⟩
    · exact absurd rfl other

theorem Chained.step_truncate (h : Chained v L chain) (whole : v.fs.fsType = .fat12 → ¬faulty)
    {valid res : FRESULT} {fp fp' : FIL} (own : fp.sclust = v.sclust i)
    (on : fp.fptr ≠ 0 → v.Reaches i fp.clust) (data : ¬v.fs.InFat fp.sect)
    (ends : Ends (rules faulty) (fTruncate valid v.fs fp) v.disk (res, fp', fs') D') :
    ∃ L' chain', Stepped faulty lossy (.truncate i) v
      ⟨fs', D', Function.update v.sclust i fp'.sclust⟩ L L' chain chain' := by
  have linked := h.owned.linked i
  have inside := h.inside i
  have on' : fp.On (chain i) := ⟨own.trans (h.start i), fun later => h.mem (on later)⟩
  obtain ⟨L', new, holds, shorter, start⟩ :=
    ends.of_twp (twp_fTruncate h.holds whole valid data on' linked inside)
  have change := shorter.change
  refine ⟨L', _, h.stepped holds change start (fun _ other => Ne.symm other)
    (fun sound _ => shorter.lossless sound) fun sound => ⟨_, shorter.freeClst sound, ?_⟩⟩
  have once := linked.nodup fun c mem => (inside c mem).not_last
  have count := (shorter.lossless sound).card (Layout.used linked inside) change.taken inside
    change.inside once (once.sublist shorter.front.sublist)
  have less := shorter.front.length_le
  omega

theorem Chained.step_expand (h : Chained v L chain) {valid res : FRESULT} {fp fp' : FIL} {fsz : DWORD}
    {opt : Bool} (own : fp.sclust = v.sclust i)
    (ends : Ends (rules faulty) (fExpand valid v.fs fp fsz opt) v.disk (res, fp', fs') D')
    (tidy : lossy ∨ v.sclust i = 0 ∧ res ≠ .intErr) :
    ∃ L' chain', Stepped faulty lossy (.expand i) v
      ⟨fs', D', Function.update v.sclust i fp'.sclust⟩ L L' chain chain' := by
  have linked := h.owned.linked i
  have inside := h.inside i
  have start := own.trans (h.start i)
  have same (moved : Fetched v.fs fs') (holds : Holds v.fs.InFat fs' D' L) :
      ∃ L' chain', Stepped faulty lossy (.expand i) v
        ⟨fs', D', Function.update v.sclust i fp.sclust⟩ L L' chain chain' :=
    ⟨L, _, h.stepped holds (moved.rechained linked inside) start (fun _ other => Ne.symm other)
      (fun _ _ => Layout.lossless_same linked inside) fun _ => ⟨moved.freeClst, Nat.le_refl _⟩⟩
  obtain ⟨L', holds, expanded⟩ := ends.of_twp (twp_fExpand h.holds valid fp fsz opt)
  dsimp only at holds expanded
  cases expanded with
  | refused moved => exact same moved holds
  | found moved => exact same moved holds
  | made wanted ready first fits change lossless freeClst =>
    have some_ := clustersOf_ne (l := v.fs.toLayout) ready.some_
    refine ⟨L', _, h.stepped holds change.forget (block_headD some_) (fun _ other => Ne.symm other)
      (fun sound tidy' => ?_) fun sound => ⟨freeClst, ?_⟩⟩
    · rw [h.nil_of_zero (tidy.resolve_left tidy').1]
      exact lossless
    · have once := change.linked.nodup fun c mem => (change.inside c mem).not_last
      have count := lossless.card (by simp) change.taken (by simp) change.inside List.nodup_nil once
      simp only [List.length_nil] at count
      omega
  | torn wanted moved first wide out lost rest =>
    have kept (c : DWORD) (used : v.fs.table L c ≠ 0) : v.fs.table L' c = v.fs.table L c :=
      out c fun both => used (lost c both.1 both.2).1
    refine ⟨L', _, h.stepped holds (moved.kept linked inside kept rest) start
      (fun _ other => Ne.symm other) (fun _ tidy' => ?_) fun sound => ⟨moved.freeClst, ?_⟩⟩
    · exact absurd rfl (tidy.resolve_left tidy').2
    · apply Finset.card_le_card
      intro c free
      rw [Layout.mem_frees] at free ⊢
      refine ⟨free.1, ?_⟩
      by_contra used
      exact used (kept c used ▸ free.2)
  | broken bad moved out rest =>
    exact ⟨L', _, h.stepped holds (moved.kept linked inside out rest) start
      (fun _ other => Ne.symm other) (fun sound => absurd bad sound) fun sound => absurd bad sound⟩

/-- One lemma for every step. -/
theorem Chained.step (h : Chained v L chain) (whole : v.fs.fsType = .fat12 → ¬faulty) {act : Act ι}
    (step : Step faulty lossy act v v') :
    ∃ L' chain', Stepped faulty lossy act v v' L L' chain chain' := by
  cases step with
  | create empty ends => exact h.step_create empty ends
  | stretch on ends => exact h.step_stretch whole on ends
  | remove ends => exact h.step_remove ends
  | truncate own on data ends => exact h.step_truncate whole own on data ends
  | expand own ends tidy => exact h.step_expand own ends tidy
  | aside aside_ =>
    refine ⟨L, chain, ⟨?_, ?_, ?_⟩, aside_.layout, fun _ _ => rfl, fun _ _ _ => Iff.rfl,
      fun _ => ⟨aside_.freeClst, rfl⟩⟩
    · rw [aside_.layout]
      exact aside_.holds L h.holds
    · rw [aside_.layout]
      exact h.owned
    · rw [aside_.sclust]
      exact h.start

end

end

end FatFsParticle.Fat
