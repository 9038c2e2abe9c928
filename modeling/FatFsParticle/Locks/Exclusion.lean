import FatFsParticle.Locks.Entries

/-!
# Readers, writers, and what is lost

Every call keeps the table right. So whoever has a file open for writing has it alone, an
object that may be removed is not open, and without failures `chk_lock` refuses exactly
what is in the way of an open object. Where `f_open` fails behind `inc_lock`, the file stays
locked until its volume is mounted again, whatever is closed.
-/

namespace FatFsParticle.Locks
open Files (FRESULT fsLock)
open Cells Interact

variable {V H : Type} {s t : Session V H} {i : Fin fsLock} {k : Key V} {a b : Handle V} {h : H}
  {lost lost' : Fin fsLock → Nat} {c : Call V H}

/-! ## One call -/

/-- An open that fails behind `inc_lock`. -/
def Call.Late : Call V H → Bool
  | .openFile _ _ _ late => late.isSome
  | _ => false

/-- The volume is mounted anew, or not any more. -/
def Call.Clears (c : Call V H) (fs : V) : Prop :=
  match c with
  | .mount v | .unmount v => v = fs
  | _ => False

theorem Turned.carried {fs : V} (turn : Turned s t fs) (late : Bool) {clears : V → Prop}
    (cleared : ∀ i, t.files i = s.files i ∨ clears fs) : Carried s t lost lost late clears where
  none_new _ _ := le_rfl
  stay x k is some_ kept := by
    obtain same | ⟨gone, -⟩ := turn.files x
    · exact ⟨same ▸ is, some_⟩
    · obtain same | cleared := cleared x
      · exact ⟨same ▸ is, some_⟩
      · have here : k.fs = fs := Option.some.inj (is.1.symm.trans gone)
        exact absurd (here ▸ cleared) kept

theorem Session.counted_root (s : Session V H) (i : Fin fsLock) (write : Bool) (root : a.lockid = 0) :
    s.counted i write a = false := by
  simp [counted, root]

variable [Fintype H] in
/-- Objects that are not counted come and go. -/
theorem Right.uncounted (right : Right s lost) {handle : H → Option (Handle V)}
    (counts : ∀ i write, census (s.counted i write) handle = census (s.counted i write) s.handle)
    (old : ∀ h a, handle h = some a → a.lockid ≠ 0 → s.handle h = some a) :
    Right { s with handle } lost where
  distinct := right.distinct
  fits i fs used mounted := by
    change Fits _ (census (s.counted i false) handle) (census (s.counted i true) handle) _
    rw [counts, counts]
    exact right.fits i fs used mounted
  told h a has valid locked := right.told h a (old h a has locked) valid locked
  dirs := right.dirs

section
variable [DecidableEq V]

theorem Session.shares_of_chkLock (distinct : Distinct s.files)
    (ok : chkLock s.files k 0 = .ok) (room : s.Room k) : s.Shares k := by
  intro i is
  refine ⟨fun full => ?_, room i is⟩
  unfold chkLock at ok
  rw [first_is distinct is] at ok
  simp [full] at ok

variable [Fintype H] [DecidableEq H]

theorem Right.step_open (right : Right s lost) {write : Bool} {late : Option FRESULT}
    (legal : s.Legal (.openFile h k write late)) :
    ∃ lost', Right (s.perform (.openFile h k write late)).2 lost' ∧
      Carried s (s.perform (.openFile h k write late)).2 lost lost' late.isSome
        (Call.openFile h k write late).Clears := by
  obtain ⟨empty, mounted, file, room⟩ := legal
  by_cases ok : chkLock s.files k (access write) = .ok
  · have opened : s.perform (.openFile h k write late) = s.keep h k write .intErr late :=
      if_neg (not_not.2 ok)
    rw [opened]
    refine right.keep empty mounted (fun _ => file) (fun reads => ?_) _ _ _
    rw [reads] at ok
    exact Session.shares_of_chkLock right.distinct ok (room reads)
  · have refused : s.perform (.openFile h k write late) = (chkLock s.files k (access write), s) := if_pos ok
    rw [refused]
    exact ⟨lost, right, .of_files (by rfl) _ _⟩

theorem Right.step_create (right : Right s lost) (legal : s.Legal (.createFile h k)) :
    ∃ lost', Right (s.perform (.createFile h k)).2 lost' ∧
      Carried s (s.perform (.createFile h k)).2 lost lost' false (Call.createFile h k).Clears := by
  obtain ⟨empty, mounted, file⟩ := legal
  simp only [Session.perform]
  split
  case isTrue => exact ⟨lost, right, .of_files (by rfl) _ _⟩
  case isFalse => exact right.keep empty mounted (fun _ => file) (fun reads => by cases reads) _ none _

theorem Right.step_root (right : Right s lost) {fs : V} (legal : s.Legal (.openRoot h fs)) :
    Right (s.perform (.openRoot h fs)).2 lost := by
  refine right.uncounted (fun i write => ?_) fun h' a has locked => ?_
  · rw [census_fill legal.1, s.counted_root i write rfl]
    rfl
  · rw [Function.update_apply] at has
    split at has
    case isTrue =>
      cases has
      exact absurd rfl locked
    case isFalse => exact has

theorem Right.step_close (right : Right s lost) (h : H) :
    Right (s.perform (.close h)).2 lost ∧
      Carried s (s.perform (.close h)).2 lost lost false (Call.close (V := V) h).Clears := by
  simp only [Session.perform]
  cases has : s.handle h with
  | none => exact ⟨right, .of_files (by rfl) _ _⟩
  | some a =>
    dsimp only
    split
    case isTrue => exact ⟨right, .of_files (by rfl) _ _⟩
    case isFalse valid =>
      rw [Bool.not_eq_true, Bool.not_eq_false'] at valid
      split
      case isTrue root =>
        refine ⟨right.uncounted (fun i write => ?_) fun h' b has' _ => ?_, .of_files (by rfl) _ _⟩
        · rw [← census_clear has, s.counted_root i write root]
          rfl
        · rw [Function.update_apply] at has'
          split at has'
          case isTrue => cases has'
          case isFalse => exact has'
      case isFalse locked =>
        obtain ⟨i, lockid, -⟩ := right.told h a has valid locked
        obtain ⟨e, released, leave⟩ := right.leaving has valid lockid
        have dec : decLock s.files a.lockid = (.ok, Function.update s.files i e) := by
          have small : a.lockid - 1 < fsLock := by
            rw [lockid]
            exact i.2
          have at_ : (⟨a.lockid - 1, small⟩ : Fin fsLock) = i := by
            apply Fin.ext
            simp [lockid]
          rw [decLock, dif_pos ⟨Nat.pos_of_ne_zero locked, small⟩, at_, released]
        rw [dec]
        exact ⟨right.leave has lockid leave, leave.carried _ _ rfl⟩

/-- Every call keeps the table right. -/
theorem Right.step (right : Right s lost) (legal : s.Legal c) :
    ∃ lost', Right (s.perform c).2 lost' ∧ Carried s (s.perform c).2 lost lost' c.Late c.Clears := by
  cases c with
  | openFile h k write late => exact right.step_open legal
  | createFile h k => exact right.step_create legal
  | openDir h k =>
    obtain ⟨empty, mounted, dir, room⟩ := legal
    exact right.keep empty mounted (fun write => by cases write)
      (fun _ i is => ⟨right.dirs i k is dir, room i is⟩) _ _ _
  | openRoot h fs => exact ⟨lost, right.step_root legal, .of_files (by rfl) _ _⟩
  | close h => exact ⟨lost, right.step_close h⟩
  | remove k => exact ⟨lost, right, .of_files (by rfl) _ _⟩
  | mount fs =>
    have turn := turned_mount legal
    exact ⟨lost, right.turn turn, turn.carried _ fun _ => .inr rfl⟩
  | unmount fs =>
    have turn := turned_unmount (s := s) fs
    exact ⟨lost, right.turn turn, turn.carried _ fun _ => .inr rfl⟩
  | drop fs =>
    have turn := turned_drop (s := s) fs
    exact ⟨lost, right.turn turn, turn.carried _ fun _ => .inl rfl⟩

/-! ## Runs -/

/-- A call that may be made, and the session after it. -/
def Session.Step (c : Call V H) (s t : Session V H) : Prop := s.Legal c ∧ t = (s.perform c).2

omit [DecidableEq V] [Fintype H] [DecidableEq H] in
/-- Nothing is mounted, and no object open. -/
def Session.blank : Session V H where
  files _ := { fs := none, clu := 0, ofs := 0, ctr := 0 }
  fsid := 0
  vol _ := none
  handle _ := none

/-- A valid object that is counted. -/
def Session.Open (s : Session V H) (h : H) (a : Handle V) : Prop :=
  s.handle h = some a ∧ s.Valid a ∧ a.lockid ≠ 0

omit [DecidableEq V] [DecidableEq H] in
theorem right_blank : Right (Session.blank : Session V H) fun _ => 0 where
  distinct i j k is := absurd rfl is.fs_ne
  fits i fs used := by cases used
  told h a has := by cases has
  dirs i k is := absurd rfl is.fs_ne

variable {l l' : List (Call V H × Session V H)}

theorem Right.run (right : Right s lost) (run : Every Session.Step s l) :
    ∃ lost', Right (final s l) lost' := by
  refine (Every.across (I := fun t => ∃ lost', Right t lost') (R := fun _ _ => True)
    (fun _ => trivial) (fun _ _ _ _ _ => trivial) ?_ run ⟨lost, right⟩).1
  rintro c s t ⟨lost, right⟩ ⟨legal, rfl⟩
  obtain ⟨lost', right', -⟩ := right.step legal
  exact ⟨⟨lost', right'⟩, trivial⟩

/-- A file in a sub-directory. -/
def sampleKey : Key Unit where
  fs := ()
  clu := 2
  ofs := 0x40

/-- The volume is mounted, and nothing is open. -/
def sample : Session Unit Bool := (Session.blank.perform (.mount ())).2

theorem mount_sample : Session.Step (.mount ()) (Session.blank : Session Unit Bool) sample :=
  ⟨fun _ _ has => (by cases has), rfl⟩

theorem legal_sample (late : Option FRESULT) : sample.Legal (.openFile true sampleKey false late) :=
  ⟨rfl, rfl, fun dir => absurd dir.1 (by decide), fun _ _ is => absurd rfl is.fs_ne⟩

/-- The file is opened to be read. -/
def opened : Session Unit Bool := (sample.perform (.openFile true sampleKey false none)).2

/-- In every run, two objects of one file that are open are readers, and a file that
`f_unlink` or `f_rename` may take is not open. -/
theorem sharing (run : Every Session.Step (.blank : Session V H) l) :
    (∀ h h' a b, h ≠ h' → (final .blank l).Open h a → (final .blank l).Open h' b → a.key = b.key →
        a.write = false ∧ b.write = false) ∧
      ∀ k, ((final .blank l).perform (.remove k)).1 = .ok → ∀ h a, (final .blank l).Open h a → a.key ≠ k := by
  obtain ⟨lost, right⟩ := right_blank.run run
  constructor
  · intro h h' a b other ⟨has, valid, locked⟩ ⟨has', valid', locked'⟩ same
    exact right.exclusive other has has' valid valid' locked locked' same
  · rintro _ ok h a ⟨has, valid, locked⟩ rfl
    obtain ⟨i, lockid, is⟩ := right.told h a has valid locked
    simp [Session.perform, chkLock, first_is right.distinct is] at ok

/-- The file is opened a second time. -/
def shared : Session Unit Bool := (opened.perform (.openFile false sampleKey false none)).2

theorem run_shared : Every Session.Step Session.blank
    [(.mount (), sample), (.openFile true sampleKey false none, opened),
      (.openFile false sampleKey false none, shared)] := by
  have room : opened.Room sampleKey := by
    unfold Session.Room
    decide
  exact ⟨mount_sample, ⟨legal_sample none, rfl⟩,
    ⟨⟨rfl, rfl, fun dir => absurd dir.1 (by decide), fun _ => room⟩, rfl⟩, trivial⟩

theorem sharing_sample :
    (∃ a b, shared.Open true a ∧ shared.Open false b ∧ a.key = sampleKey ∧ b.key = sampleKey ∧
        a.write = false ∧ b.write = false) ∧
      (shared.perform (.remove sampleKey)).1 ≠ .ok := by
  let a : Handle Unit := ⟨sampleKey, false, 1, 1⟩
  have first : shared.Open true a := ⟨rfl, rfl, by decide⟩
  have second : shared.Open false a := ⟨rfl, rfl, by decide⟩
  obtain ⟨readers, removed⟩ := sharing run_shared
  obtain ⟨read, read'⟩ := readers true false a a (by decide) first second rfl
  exact ⟨⟨a, a, first, second, rfl, rfl, read, read'⟩, fun ok => removed sampleKey ok true a first rfl⟩

/-- A call without a failure behind `inc_lock`. -/
def Session.Clean (c : Call V H) (s t : Session V H) : Prop := s.Step c t ∧ c.Late = false

theorem Right.run_clean (right : Right s fun _ => 0) (run : Every Session.Clean s l) :
    Right (final s l) fun _ => 0 := by
  refine (Every.across (I := fun t => Right t fun _ => 0) (R := fun _ _ => True)
    (fun _ => trivial) (fun _ _ _ _ _ => trivial) ?_ run right).1
  rintro c s t right ⟨⟨legal, rfl⟩, clean⟩
  obtain ⟨lost', right', carried⟩ := right.step legal
  have zero : lost' = fun _ => 0 := funext fun i => Nat.le_zero.1 (carried.none_new clean i)
  exact ⟨zero ▸ right', trivial⟩

omit [DecidableEq V] [DecidableEq H] in
/-- Without failures, an entry that is used is that of an open object. -/
theorem Right.occupied (right : Right s fun _ => 0) (is : (s.files i).Is k) (mounted : (s.vol k.fs).isSome) :
    ∃ h a, s.Open h a ∧ a.lockid = i + 1 ∧ a.key = k ∧ (a.write ↔ (s.files i).ctr = writer) := by
  have found (write : Bool) (some_ : 0 < census (s.counted i write) s.handle) :
      ∃ h a, s.Open h a ∧ a.lockid = i + 1 ∧ a.key = k ∧ a.write = write := by
    obtain ⟨h, a, has, counted⟩ := census_exists some_
    simp only [Session.counted, Bool.and_eq_true, decide_eq_true_eq] at counted
    obtain ⟨⟨valid, lockid⟩, kind⟩ := counted
    exact ⟨h, a, ⟨has, valid, by omega⟩, lockid, (right.is has valid lockid).key is, kind⟩
  obtain ⟨full, -, one⟩ | ⟨pos, small, -, sum⟩ := right.fits i k.fs is.1 mounted
  · obtain ⟨h, a, open_, lockid, key, write⟩ := found true (by omega)
    exact ⟨h, a, open_, lockid, key, by simp [write, full]⟩
  · obtain ⟨h, a, open_, lockid, key, write⟩ := found false (by omega)
    refine ⟨h, a, open_, lockid, key, ?_⟩
    rw [write]
    constructor
    · intro other
      cases other
    · intro full
      rw [full] at small
      exact absurd small (by decide)

omit [DecidableEq V] [DecidableEq H] in
theorem Right.same_access (right : Right s lost) {h' : H} (open_ : s.Open h a) (open' : s.Open h' b)
    (key : a.key = b.key) : a.write = b.write := by
  by_cases other : h = h'
  · subst other
    rw [Option.some.inj (open_.1.symm.trans open'.1)]
  · obtain ⟨reads, reads'⟩ := right.exclusive other open_.1 open'.1 open_.2.1 open'.2.1 open_.2.2
      open'.2.2 key
    rw [reads, reads']

omit [DecidableEq V] [DecidableEq H] in
theorem Right.open_used (right : Right s lost) (open_ : s.Open h a) (lockid : a.lockid = i + 1) :
    (s.files i).fs ≠ none :=
  (right.is open_.1 open_.2.1 lockid).fs_ne

omit [DecidableEq H] in
/-- Where the entry of `k` is found, it is that of an open object. -/
theorem Right.chkLock_found (right : Right s fun _ => 0) (is : (s.files i).Is k)
    (mounted : (s.vol k.fs).isSome) (acc : Nat) :
    (chkLock s.files k acc = .locked ↔ ∃ h a, s.Open h a ∧ a.key = k ∧ (acc ≠ 0 ∨ a.write)) ∧
      chkLock s.files k acc ≠ .tooManyOpenFiles := by
  obtain ⟨h, a, open_, lockid, key, write⟩ := right.occupied is mounted
  unfold chkLock
  rw [first_is right.distinct is]
  dsimp only
  constructor
  · constructor
    · intro refused
      split at refused
      case isTrue stands => exact ⟨h, a, open_, key, stands.imp_right write.2⟩
      case isFalse => cases refused
    · rintro ⟨h', b, open', key', stands⟩
      rw [right.same_access open' open_ (key'.trans key.symm), write] at stands
      exact if_pos stands
  · split <;> exact FRESULT.noConfusion

omit [DecidableEq H] in
theorem Right.chkLock_none (right : Right s fun _ => 0)
    (found : first (fun i => (s.files i).Is k) = none) (acc : Nat) :
    (∀ h a, s.Open h a → a.key ≠ k) ∧ chkLock s.files k acc ≠ .locked ∧
      (chkLock s.files k acc = .tooManyOpenFiles ↔ acc ≠ 2 ∧
        ∀ i : Fin fsLock, (∃ h a, s.Open h a ∧ a.lockid = i + 1) ∨
          ∃ fs, (s.files i).fs = some fs ∧ s.vol fs = none) := by
  have used_iff (i : Fin fsLock) : (s.files i).fs ≠ none ↔ (∃ h a, s.Open h a ∧ a.lockid = i + 1) ∨
      ∃ fs, (s.files i).fs = some fs ∧ s.vol fs = none := by
    constructor
    · intro used
      obtain ⟨fs, is⟩ := Option.ne_none_iff_exists'.1 used
      cases gone : s.vol fs with
      | none => exact .inr ⟨fs, is, gone⟩
      | some id =>
        obtain ⟨h, a, open_, lockid, -⟩ :=
          right.occupied (k := ⟨fs, (s.files i).clu, (s.files i).ofs⟩) ⟨is, rfl, rfl⟩ (by simp [gone])
        exact .inl ⟨h, a, open_, lockid⟩
    · rintro (⟨h, a, open_, lockid⟩ | ⟨fs, is, -⟩)
      · exact right.open_used open_ lockid
      · simp [is]
  refine ⟨?_, ?_, ?_⟩
  · rintro h a ⟨has, valid, locked⟩ rfl
    obtain ⟨i, -, is⟩ := right.told h a has valid locked
    exact not_is_of_first found i is
  · unfold chkLock
    rw [found]
    dsimp only
    split <;> exact FRESULT.noConfusion
  · unfold chkLock
    rw [found]
    simp only [← used_iff]
    cases blank : first fun i => (s.files i).fs.isNone with
    | none =>
      have used (i : Fin fsLock) : (s.files i).fs ≠ none := by
        simpa [Option.isNone_eq_false_iff, Option.isSome_iff_ne_none] using first_none.1 blank i
      simp [used]
    | some i =>
      have here : (s.files i).fs = none := by simpa using first_some blank
      simp only [Option.isSome_some, true_or, if_true]
      constructor
      · intro other
        cases other
      · rintro ⟨-, used⟩
        exact absurd here (used i)

omit [Fintype H] in
/-- What `chk_lock` lets through is opened. -/
theorem Session.open_chkLock (s : Session V H) (distinct : Distinct s.files) (h : H) (k : Key V)
    (write : Bool) :
    (s.perform (.openFile h k write none)).1 = chkLock s.files k (access write) := by
  by_cases ok : chkLock s.files k (access write) = .ok
  · have taken : (incLock s.files k (access write)).1 ≠ 0 :=
      incLock_of_chkLock distinct (by cases write <;> decide) ok
    have opened : s.perform (.openFile h k write none) = s.keep h k write .intErr none :=
      if_neg (not_not.2 ok)
    rw [opened, ok, keep]
    generalize incLock s.files k _ = r at taken ⊢
    exact congrArg Prod.fst (if_neg taken)
  · exact congrArg Prod.fst (if_pos ok)

omit [Fintype H] [DecidableEq H] in
/-- An entry that is there refuses writers and `f_unlink`. -/
theorem Session.locked_of_is (distinct : Distinct s.files) (is : (s.files i).Is k) {acc : Nat}
    (changes : acc ≠ 0) : chkLock s.files k acc = .locked := by
  rw [chkLock, first_is distinct is]
  exact if_pos (.inl changes)

theorem Right.open_late (right : Right s lost) {write : Bool} {res : FRESULT}
    (legal : s.Legal (.openFile h k write (some res))) (ok : chkLock s.files k (access write) = .ok) :
    (s.perform (.openFile h k write (some res))).1 = res ∧
      ∃ lost', Right (s.perform (.openFile h k write (some res))).2 lost' ∧
        ∃ i, ((s.perform (.openFile h k write (some res))).2.files i).Is k ∧ 0 < lost' i := by
  obtain ⟨-, mounted, file, room⟩ := legal
  have opened : s.perform (.openFile h k write (some res)) = s.keep h k write .intErr (some res) :=
    if_neg (not_not.2 ok)
  have shares (reads : write = false) : s.Shares k := by
    rw [reads] at ok
    exact Session.shares_of_chkLock right.distinct ok (room reads)
  have taken : (incLock s.files k (access write)).1 ≠ 0 :=
    incLock_of_chkLock right.distinct (by cases write <;> decide) ok
  rw [opened, Session.keep]
  obtain none_ | ⟨i, e, n, placed, counted⟩ := right.placed mounted (fun _ => file) shares
  · rw [none_] at taken
    exact absurd rfl taken
  · rw [counted]
    dsimp only
    rw [if_neg (Nat.succ_ne_zero _)]
    refine ⟨rfl, _, right.lose placed.toEntering placed.fits.lose, i, ?_, ?_⟩
    · simpa using placed.is
    · simp

theorem Right.run_lost (right : Right s lost) (is : (s.files i).Is k) (some_ : 0 < lost i)
    (run : Every (fun c s t => Session.Step c s t ∧ ¬c.Clears k.fs) s l) :
    ∃ lost', Right (final s l) lost' ∧ ((final s l).files i).Is k ∧ 0 < lost' i := by
  refine (Every.across (I := fun t => ∃ lost', Right t lost' ∧ (t.files i).Is k ∧ 0 < lost' i)
    (R := fun _ _ => True) (fun _ => trivial) (fun _ _ _ _ _ => trivial) ?_ run
    ⟨lost, right, is, some_⟩).1
  rintro c s t ⟨lost, right, is, some_⟩ ⟨⟨legal, rfl⟩, stays⟩
  obtain ⟨lost', right', carried⟩ := right.step legal
  exact ⟨⟨lost', right', carried.stay i k is some_ stays⟩, trivial⟩

/-- A file that `f_open` failed to open behind `inc_lock` can not be written or removed any
more, whatever is called, until its volume is mounted again. -/
theorem stays_locked (run : Every Session.Step (.blank : Session V H) l) {write : Bool} {res : FRESULT}
    (legal : (final .blank l).Legal (.openFile h k write (some res)))
    (ok : chkLock (final .blank l).files k (access write) = .ok)
    (later : Every (fun c s t => Session.Step c s t ∧ ¬c.Clears k.fs)
      ((final .blank l).perform (.openFile h k write (some res))).2 l') :
    ((final .blank l).perform (.openFile h k write (some res))).1 = res ∧
      ∀ acc, acc ≠ 0 →
        chkLock (final ((final .blank l).perform (.openFile h k write (some res))).2 l').files k acc =
          .locked := by
  obtain ⟨lost, right⟩ := right_blank.run run
  obtain ⟨failed, lost', right', i, is, some_⟩ := right.open_late legal ok
  obtain ⟨lost'', right'', is', -⟩ := right'.run_lost is some_ later
  exact ⟨failed, fun acc changes => Session.locked_of_is right''.distinct is' changes⟩

/-- Nothing is open, and the file can not be written. -/
theorem stays_locked_sample :
    chkLock (sample.perform (.openFile true sampleKey false (some .intErr))).2.files sampleKey 1 =
      .locked := by
  have run : Every Session.Step (Session.blank : Session Unit Bool) [(.mount (), sample)] :=
    ⟨mount_sample, trivial⟩
  have none_ : Every (fun c s t => Session.Step c s t ∧ ¬c.Clears sampleKey.fs)
      (sample.perform (.openFile true sampleKey false (some .intErr))).2 [] := trivial
  exact (stays_locked run (legal_sample (some .intErr)) (by decide) none_).2 1 (by decide)

end

end FatFsParticle.Locks
