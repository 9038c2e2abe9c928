import FatFsParticle.Locks.Entries
import FatFsParticle.Files.Cache
import FatFsParticle.Interact.Trace

/-!
# Counters of files

The file functions are modelled with a counter for each file, and the number of entries
that are used. The table has just that much to say: `chk_lock` and `enq_lock` answer alike,
and `inc_lock` and `dec_lock` change the counter of one file in the same way.
-/

namespace FatFsParticle.Locks
open Files (FRESULT fsLock Node Volume)
open Cells Interact

variable {V Name : Type} {files : Table V} {k k' : Key V} {i j : Fin fsLock} {e : FILESEM V}

/-- Entries that are used. -/
def used (files : Table V) : Nat := census (fun _ => true) fun i => (files i).fs

theorem used_le (files : Table V) : used files ≤ fsLock := by
  have most := census_le (H := Fin fsLock) (p := fun _ => true) (f := fun i => (files i).fs)
  rwa [Fintype.card_fin] at most

theorem used_lt : used files < fsLock ↔ ∃ i, (files i).fs = none := by
  have some_ := census_lt (H := Fin fsLock) (p := fun _ => true) (f := fun i => (files i).fs)
  rw [Fintype.card_fin] at some_
  simpa [used] using some_

theorem fs_update (files : Table V) (i : Fin fsLock) (e : FILESEM V) :
    (fun j => (Function.update files i e j).fs) = Function.update (fun j => (files j).fs) i e.fs := by
  funext j
  by_cases here : j = i <;> simp [here]

theorem used_new (blank : (files i).fs = none) {fs : V} (is : e.fs = some fs) :
    used (Function.update files i e) = used files + 1 := by
  rw [used, fs_update, is]
  exact census_fill (f := fun j => (files j).fs) blank

theorem used_gone {fs : V} (full : (files i).fs = some fs) (blank : e.fs = none) :
    used (Function.update files i e) + 1 = used files := by
  rw [used, fs_update, blank]
  exact census_clear (f := fun j => (files j).fs) full

theorem used_same (same : e.fs = (files i).fs) : used (Function.update files i e) = used files := by
  rw [used, fs_update, same, Function.update_eq_self]
  rfl

section
variable [DecidableEq V]

/-- How often `k` is counted. -/
def counter (files : Table V) (k : Key V) : Nat :=
  match first fun i => (files i).Is k with
  | none => 0
  | some i => (files i).ctr.toNat

theorem counter_is (distinct : Distinct files) (is : (files i).Is k) :
    counter files k = (files i).ctr.toNat := by
  rw [counter, first_is distinct is]

theorem counter_none (none_ : ∀ j, ¬(files j).Is k) : counter files k = 0 := by
  rw [counter, first_none.2 fun i => by simp [none_ i]]

/-- Other objects are counted as before. -/
theorem counter_update (distinct : Distinct files) (distinct' : Distinct (Function.update files i e))
    (before : ¬(files i).Is k) (after : ¬e.Is k) :
    counter (Function.update files i e) k = counter files k := by
  by_cases there : ∃ j, (files j).Is k
  · obtain ⟨j, is⟩ := there
    have other : j ≠ i := by
      rintro rfl
      exact before is
    have same : Function.update files i e j = files j := Function.update_of_ne other _ _
    rw [counter_is distinct is, counter_is distinct' (same ▸ is), same]
  · rw [not_exists] at there
    rw [counter_none there, counter_none]
    intro j is
    rw [Function.update_apply] at is
    split at is
    case isTrue => exact after is
    case isFalse => exact there j is

end

/-- The table shows the counters of the files. -/
structure Shows [DecidableEq V] [DecidableEq Name] (files : Table V) (key : Name → Key V)
    (v : Volume Name) : Prop where
  distinct : Distinct files
  ctr : ∀ n, v.ctr n = counter files (key n)
  used_ : ∀ i, (files i).fs ≠ none → (files i).ctr ≠ 0
  entries : v.entries = used files

section
variable [DecidableEq V] [DecidableEq Name] {key : Name → Key V} {v v' : Volume Name} {n m : Name}
  {f : Node}

theorem ctr_setNode (v : Volume Name) (n : Name) (f : Node) (m : Name) :
    (v.setNode n f).ctr m = if m = n then f.ctr else v.ctr m := by
  unfold Volume.ctr
  split
  case isTrue here => rw [here, Volume.node_setNode, Option.elim]
  case isFalse other => rw [Volume.node_setNode_ne v f other]

theorem Shows.ctr_zero (shows_ : Shows files key v) : v.ctr n = 0 ↔ ∀ i, ¬(files i).Is (key n) := by
  rw [shows_.ctr]
  constructor
  · intro zero i is
    rw [counter_is shows_.distinct is] at zero
    exact shows_.used_ i is.fs_ne (BitVec.eq_of_toNat_eq zero)
  · exact counter_none

/-- `chk_lock` and `enq_lock` answer alike. -/
theorem chkLock_shown (shows_ : Shows files key v) (n : Name) (write : Bool) :
    Files.chkLock v n write = chkLock files (key n) (access write) ∧
      Files.enqLock v = enqLock files := by
  have room : v.entries < fsLock ↔ (first fun i => (files i).fs.isNone).isSome := by
    rw [shows_.entries, used_lt, first_isSome]
    simp
  constructor
  · unfold Files.chkLock Locks.chkLock
    cases found : first fun i => (files i).Is (key n) with
    | none =>
      have zero : v.ctr n = 0 := shows_.ctr_zero.2 (not_is_of_first found)
      have looks : access write ≠ 2 := by cases write <;> decide
      simp [zero, room, looks]
    | some i =>
      have is : (files i).Is (key n) := by simpa using first_some found
      have counted : v.ctr n = (files i).ctr.toNat :=
        (shows_.ctr n).trans (counter_is shows_.distinct is)
      have busy : v.ctr n ≠ 0 := fun zero => shows_.ctr_zero.1 zero i is
      have full : v.ctr n = 0x100 ↔ (files i).ctr = writer := by
        rw [counted]
        exact ⟨fun same => BitVec.eq_of_toNat_eq same, fun same => congrArg BitVec.toNat same⟩
      rw [if_neg busy]
      cases write <;> simp [full]
  · rw [Files.enqLock, enqLock, Bool.eq_iff_iff]
    simpa using room

theorem Shows.update (shows_ : Shows files key v) (injective : Function.Injective key)
    (distinct : Distinct (Function.update files i e)) (before : ∀ k, (files i).Is k → k = key n)
    (after : ∀ k, e.Is k → k = key n) {f' : Node} {entries : Nat}
    (ctr : counter (Function.update files i e) (key n) = f'.ctr) (used_ : e.fs ≠ none → e.ctr ≠ 0)
    (count : entries = used (Function.update files i e)) :
    Shows (Function.update files i e) key { v.setNode n f' with entries := entries } where
  distinct := distinct
  ctr m := by
    show (v.setNode n f').ctr m = _
    rw [ctr_setNode]
    split
    case isTrue here => rw [here, ctr]
    case isFalse other =>
      rw [shows_.ctr, counter_update shows_.distinct distinct]
      · exact fun is => other (injective (before _ is))
      · exact fun is => other (injective (after _ is))
  used_ j fs := by
    rw [Function.update_apply] at fs ⊢
    split
    case isTrue here =>
      rw [if_pos here] at fs
      exact used_ fs
    case isFalse away =>
      rw [if_neg away] at fs
      exact shows_.used_ j fs
  entries := count

/-- `inc_lock`. -/
theorem incLock_shown (shows_ : Shows files key v) (injective : Function.Injective key)
    (there : v.node n = some f) (write : Bool) (room : f.ctr < 0xFFFF) :
    match Files.incLock v n f write with
    | none => incLock files (key n) (access write) = (0, files)
    | some v' => (incLock files (key n) (access write)).1 ≠ 0 ∧
        Shows (incLock files (key n) (access write)).2 key v' := by
  have ctr : v.ctr n = f.ctr := by
    rw [Volume.ctr, there, Option.elim]
  have zero := shows_.ctr_zero (n := n)
  rw [ctr] at zero
  generalize taken : incLock files (key n) (access write) = r
  cases taken ▸ incLock_counting files (key n) (access write) with
  | refused is busy =>
    have counted : f.ctr ≠ 0 := fun none_ => zero.1 none_ _ is
    have writes : write = true := by cases write <;> simp_all
    simp [Files.incLock, counted, writes]
  | full none_ all =>
    have none_left : v.entries = fsLock := by
      have some_ : used files < fsLock ↔ ∃ i, (files i).fs = none := used_lt
      have most : used files ≤ fsLock := used_le files
      rw [shows_.entries]
      by_contra fewer
      obtain ⟨i, blank⟩ := some_.1 (by omega)
      exact all i blank
    simp [Files.incLock, zero.2 none_, none_left]
  | @again i is free =>
    have counted : f.ctr ≠ 0 := fun none_ => zero.1 none_ _ is
    have same : f.ctr = (files i).ctr.toNat :=
      ctr.symm.trans ((shows_.ctr n).trans (counter_is shows_.distinct is))
    have reads : write = false := by
      cases write
      · rfl
      · exact absurd ⟨by decide, shows_.used_ i is.fs_ne⟩ free
    have next : ((files i).ctr + 1).toNat = f.ctr + 1 := by
      rw [BitVec.toNat_add, same, Nat.mod_eq_of_lt]
      · rfl
      · show (files i).ctr.toNat + 1 < _
        omega
    have distinct : Distinct (Function.update files i { files i with ctr := (files i).ctr + 1 }) :=
      shows_.distinct.narrow fun _ is => is
    subst reads
    simp only [Files.incLock, counted, false_and, if_false, Bool.false_eq_true]
    refine ⟨Nat.succ_ne_zero _, shows_.update injective distinct (fun _ is' => is'.key is)
      (fun _ is' => FILESEM.Is.key is' (e := files i) is) ?_ (fun _ => ?_) ?_⟩
    · rw [counter_is (i := i) distinct]
      · rw [Function.update_self]
        exact next
      · rw [Function.update_self]
        exact is
    · intro none_
      have none_ : (files i).ctr + 1 = 0 := none_
      rw [none_] at next
      cases next
    · rw [used_same (by rfl)]
      exact shows_.entries
  | @new i none_ blank =>
    have distinct : Distinct (Function.update files i ((key n).entry (access write))) :=
      shows_.distinct.update ⟨rfl, rfl, rfl⟩ fun j _ => none_ j
    have left : v.entries < fsLock := by
      rw [shows_.entries, used_lt]
      exact ⟨i, blank⟩
    simp only [Files.incLock, zero.2 none_, left.ne, and_false, if_false, ne_eq, not_true_eq_false, if_true]
    refine ⟨Nat.succ_ne_zero _, shows_.update injective distinct (fun _ is' => absurd blank is'.fs_ne)
      (fun _ is' => is'.key ⟨rfl, rfl, rfl⟩) ?_ (fun _ => ?_) ?_⟩
    · rw [counter_is (i := i) distinct]
      · rw [Function.update_self]
        cases write <;> rfl
      · rw [Function.update_self]
        exact ⟨rfl, rfl, rfl⟩
    · show (if access write ≠ 0 then writer else 1) ≠ 0
      split <;> decide
    · rw [used_new blank (by rfl), shows_.entries]

/-- `dec_lock`. -/
theorem decLock_shown (shows_ : Shows files key v) (injective : Function.Injective key)
    (there : v.node n = some f) (is : (files i).Is (key n)) :
    Shows (release files i) key (Files.decLock v n) := by
  have same : f.ctr = (files i).ctr.toNat := by
    rw [← counter_is shows_.distinct is, ← shows_.ctr, Volume.ctr, there, Option.elim]
  have counted := shows_.used_ i is.fs_ne
  have released : Files.decLock v n =
      { v.setNode n { f with ctr := if f.ctr = 0x100 then 0 else f.ctr - 1 } with
        entries := if (if f.ctr = 0x100 then 0 else f.ctr - 1) = 0 then v.entries - 1 else v.entries } := by
    rw [Files.decLock, there]
  rw [released]
  have only (k : Key V) (is' : (files i).Is k) : k = key n := is'.key is
  by_cases last : (files i).ctr = writer ∨ (files i).ctr = 1
  · have gone : (if f.ctr = 0x100 then 0 else f.ctr - 1) = 0 := by
      rw [same]
      rcases last with last | last <;> rw [last] <;> rfl
    rw [release_last last, gone]
    have distinct := shows_.distinct.narrow (i := i)
      (e := { files i with ctr := 0, fs := none }) fun k is' => absurd rfl is'.fs_ne
    refine shows_.update injective distinct only (fun k is' => absurd rfl is'.fs_ne) ?_
      (fun used => absurd rfl used) ?_
    · refine counter_none fun j is' => ?_
      rw [Function.update_apply] at is'
      split at is'
      case isTrue => exact absurd rfl is'.fs_ne
      case isFalse away => exact away (shows_.distinct j i _ is' is)
    · have less := used_gone (e := { files i with ctr := 0, fs := none }) is.1 rfl
      rw [if_pos rfl, shows_.entries]
      omega
  · rw [not_or] at last
    obtain ⟨reader, more⟩ := last
    have more : 1 < (files i).ctr.toNat := by
      have pos : (files i).ctr.toNat ≠ 0 := fun zero => counted (BitVec.eq_of_toNat_eq zero)
      have other : (files i).ctr.toNat ≠ 1 := fun one => more (BitVec.eq_of_toNat_eq one)
      omega
    have reads : f.ctr ≠ 0x100 := by
      rw [same]
      exact fun full => reader (BitVec.eq_of_toNat_eq full)
    have left : ((files i).ctr - 1).toNat = f.ctr - 1 := by
      rw [same]
      bv_omega
    rw [release_more more reader, if_neg reads, if_neg (by omega)]
    have distinct := shows_.distinct.narrow (i := i)
      (e := { files i with ctr := (files i).ctr - 1 }) fun _ is => is
    refine shows_.update injective distinct only (fun k is' => FILESEM.Is.key is' (e := files i) is) ?_
      (fun _ => ?_) ?_
    · rw [counter_is (i := i) distinct]
      · rw [Function.update_self]
        exact left
      · rw [Function.update_self]
        exact is
    · intro none_
      have none_ : (files i).ctr - 1 = 0 := none_
      rw [none_] at left
      simp at left
      omega
    · rw [used_same (by rfl)]
      exact shows_.entries

/-! ## Runs -/

/-- A file taken or given back. -/
inductive Hold (Name : Type) where
  | take (n : Name) (write : Bool)
  | give (n : Name)

/-- On the counters, where less than 65535 objects have a file open and what is given back
has been taken. -/
inductive Counted : Hold Name → Volume Name → Volume Name → Prop
  | taken {v v' : Volume Name} {n : Name} {f : Node} {write : Bool} (there : v.node n = some f)
      (room : f.ctr < 0xFFFF) (had : Files.incLock v n f write = some v') : Counted (.take n write) v v'
  | refused {v : Volume Name} {n : Name} {f : Node} {write : Bool} (there : v.node n = some f)
      (room : f.ctr < 0xFFFF) (had : Files.incLock v n f write = none) : Counted (.take n write) v v
  | given {v : Volume Name} {n : Name} {f : Node} (there : v.node n = some f) (counted : f.ctr ≠ 0) :
      Counted (.give n) v (Files.decLock v n)

/-- In the table. -/
def hold (key : Name → Key V) (files : Table V) : Hold Name → Table V
  | .take n write => (incLock files (key n) (access write)).2
  | .give n =>
    match first fun i => (files i).Is (key n) with
    | none => files
    | some i => (decLock files (i + 1)).2

omit [DecidableEq V] in
theorem decLock_index (files : Table V) (i : Fin fsLock) : decLock files (i + 1) = (.ok, release files i) :=
  dif_pos ⟨Nat.succ_pos _, i.2⟩

theorem Shows.step (shows_ : Shows files key v) (injective : Function.Injective key) {x : Hold Name}
    (step : Counted x v v') : Shows (hold key files x) key v' := by
  cases step with
  | @taken _ _ n f write there room had =>
    have simulated := incLock_shown shows_ injective there write room
    rw [had] at simulated
    exact simulated.2
  | @refused _ n f write there room had =>
    have simulated := incLock_shown shows_ injective there write room
    rw [had] at simulated
    rw [hold, simulated]
    exact shows_
  | @given _ n f there counted =>
    have ctr : v.ctr n = f.ctr := by
      rw [Volume.ctr, there, Option.elim]
    unfold hold
    dsimp only
    split
    case h_1 found => exact absurd (ctr ▸ shows_.ctr_zero.2 (not_is_of_first found)) counted
    case h_2 i found =>
      rw [decLock_index]
      exact decLock_shown shows_ injective there (by simpa using first_some found)

/-- Over every run the table shows the counters, and answers as they do. -/
theorem counters_shown {l : List (Hold Name × Volume Name)} (shows_ : Shows files key v)
    (injective : Function.Injective key) (run : Every Counted v l) :
    Shows (l.foldl (fun files x => hold key files x.1) files) key (final v l) ∧
      ∀ n write, Files.chkLock (final v l) n write =
        chkLock (l.foldl (fun files x => hold key files x.1) files) (key n) (access write) := by
  have shown : Shows (l.foldl (fun files x => hold key files x.1) files) key (final v l) := by
    induction l generalizing files v with
    | nil => exact shows_
    | cons x l ih => exact ih (shows_.step injective run.1) run.2
  exact ⟨shown, fun n write => (chkLock_shown shown n write).1⟩

/-- One file, not open. -/
def sampleVolume : Volume Unit where
  csize _ := 1
  csize_pos _ := Nat.one_pos
  node _ := some
    { attr := 0x20
      size := 0
      clusters := 0
      data := fun _ => 0
      ctr := 0
      disk := some 0 }
  scrap _ := 0
  entries := 0

theorem shows_sample : Shows (fun _ => { fs := none, clu := 0, ofs := 0, ctr := 0 } : Table Unit)
    (fun _ : Unit => ⟨(), 0, 0x40⟩) sampleVolume where
  distinct i j k is := absurd rfl is.fs_ne
  ctr n := by rfl
  used_ i fs := absurd rfl fs
  entries := by rfl

theorem counters_shown_sample : chkLock (hold (fun _ : Unit => ⟨(), 0, 0x40⟩)
    (fun _ => { fs := none, clu := 0, ofs := 0, ctr := 0 } : Table Unit) (.take () true)) ⟨(), 0, 0x40⟩ 1 =
      .locked := by
  have run : Every Counted sampleVolume [(.take () true, _)] :=
    ⟨.taken rfl (by decide) rfl, trivial⟩
  have answer := (counters_shown shows_sample (fun _ _ _ => rfl) run).2 () true
  exact answer.symm.trans (by decide)

end

end FatFsParticle.Locks
