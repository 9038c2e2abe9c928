import FatFsParticle.Scan.Directory
import FatFsParticle.Interact.Total

/-!
# Errors of a scan

The loop of `scan_files` is meant to stop after an error from below, but the condition for
that is never met: `FR_INVALID_NAME` stands alone in it. The result is then that of the
next `f_readdir`, so no error from below the first directory ever comes out. And the loop
takes an entry with an empty name for the end of its directory, and a directory for a
plain file where the callback left another entry in the record.
-/

namespace FatFsParticle.Scan
open Interact Program
open Files (FRESULT amDir)

variable {α β σ : Type}

/-! ## Rules -/

/-- What may be answered from outside. -/
abbrev Answers := (o : Outside) → o.Ans → Prop

/-- The log is all that a program sees of the machine. -/
def rules (G : Answers) : Rules Request.Ans (List Event) where
  allowed _ _ := True
  step
    | log, .outside o, a, log' => G o a ∧ log' = .answered o a :: log
    | log, .returned c place path res, _, log' => log' = .returned c place path res :: log
    | log, .visited v, _, log' => log' = .visited v :: log

section
variable {G : Answers} {log : List Event}

theorem twp_ask {o : Outside} {Q : o.Ans → List Event → Prop}
    (h : ∀ a, G o a → Q a (.answered o a :: log)) : (ask o).twp (rules G) Q log := by
  refine ⟨trivial, ?_⟩
  rintro a _ ⟨good, rfl⟩
  exact h a good

theorem twp_returned {c : Call} {place : Place} {path : Path} {res : FRESULT}
    {Q : Unit → List Event → Prop} (h : Q () (.returned c place path res :: log)) :
    (returned c place path res).twp (rules G) Q log := by
  refine ⟨trivial, ?_⟩
  rintro ⟨⟩ _ rfl
  exact h

theorem twp_visited {v : Visit} {Q : Unit → List Event → Prop} (h : Q () (.visited v :: log)) :
    (visited v).twp (rules G) Q log := by
  refine ⟨trivial, ?_⟩
  rintro ⟨⟩ _ rfl
  exact h

theorem wp_ask {o : Outside} {Q : o.Ans → List Event → Prop}
    (h : ∀ a, G o a → Q a (.answered o a :: log)) : (ask o).wp (rules G) Q log :=
  twp_wp (twp_ask h)

theorem wp_returned {c : Call} {place : Place} {path : Path} {res : FRESULT}
    {Q : Unit → List Event → Prop} (h : Q () (.returned c place path res :: log)) :
    (returned c place path res).wp (rules G) Q log :=
  twp_wp (twp_returned h)

theorem wp_visited {v : Visit} {Q : Unit → List Event → Prop} (h : Q () (.visited v :: log)) :
    (visited v).wp (rules G) Q log :=
  twp_wp (twp_visited h)

end

variable {G : Answers} {host : Host σ}

theorem host_simulates (within : ∀ o e, G o (host o e).1) :
    Simulates (World.handle host) (rules G) (fun w log => w.log = log) := by
  rintro w _ rfl r -
  cases r with
  | outside o => exact ⟨_, ⟨within o _, rfl⟩, rfl⟩
  | returned c place path res => exact ⟨_, rfl, rfl⟩
  | visited v => exact ⟨_, rfl, rfl⟩

/-- The outside reads the entries that the directories hold, each in its place and no end
before the last of them, or fails. -/
structure Answers.Holds (G : Answers) (fs : Path → List Entry) : Prop where
  read : ∀ path i e, G (.dirRead path i) (.ok e) → (fs path)[i]? = some e
  end_ : ∀ path i res, G (.dirRead path i) (.error res) → ignoreEnd res = .ok → (fs path).length ≤ i

/-! ## Logs -/

/-- The events of `new` that are not in `old` are of `E`. -/
def Adds (E : Event → Prop) (old new : List Event) : Prop := ∃ es, new = es ++ old ∧ ∀ e ∈ es, E e

variable {E : Event → Prop}

theorem Adds.refl (log : List Event) : Adds E log log := ⟨[], rfl, fun _ no => nomatch no⟩

theorem Adds.trans {a b c : List Event} (h : Adds E a b) (h' : Adds E b c) : Adds E a c := by
  obtain ⟨es, rfl, only⟩ := h
  obtain ⟨es', rfl, only'⟩ := h'
  refine ⟨es' ++ es, (List.append_assoc _ _ _).symm, ?_⟩
  intro e mem
  rcases List.mem_append.1 mem with mem | mem
  · exact only' e mem
  · exact only e mem

theorem adds_cons {e : Event} (h : E e) (log : List Event) : Adds E log (e :: log) :=
  ⟨[e], rfl, fun _ mem => List.mem_singleton.1 mem ▸ h⟩

theorem Adds.mono {E' : Event → Prop} {old new : List Event} (h : Adds E old new)
    (wider : ∀ e, E e → E' e) : Adds E' old new := by
  obtain ⟨es, same, only⟩ := h
  exact ⟨es, same, fun e mem => wider e (only e mem)⟩

/-- An answer, but none of the callback. -/
def Event.Quiet : Event → Prop
  | .answered (.callback _ _) _ | .returned _ _ _ _ | .visited _ => False
  | .answered _ _ => True

/-! ## The calls of a scan -/

theorem fOpendir_opened (path : Path) (log : List Event) : (fOpendir path).twp (rules G) (fun r t =>
    Adds Event.Quiet log t ∧ (r.1 = .ok → r.2.path = path ∧ r.2.index = 0)) log := by
  have more {o : Outside} {log' : List Event} {a : o.Ans} (h : Adds Event.Quiet log log')
      (quiet : (Event.answered o a).Quiet) : Adds Event.Quiet log (.answered o a :: log') :=
    h.trans (adds_cons quiet log')
  unfold fOpendir
  rw [twp_bind]
  apply twp_ask
  intro res _
  have first := more (o := .findVolume path) (a := res) (.refl log) trivial
  split
  · exact ⟨first, fun _ => ⟨rfl, rfl⟩⟩
  rw [twp_bind]
  apply twp_ask
  rintro ⟨res, obj⟩ _
  have second := more (o := .followPath path) (a := (res, obj)) first trivial
  dsimp only
  split
  · exact ⟨second, fun _ => ⟨rfl, rfl⟩⟩
  split
  · exact ⟨second, fun _ => ⟨rfl, rfl⟩⟩
  rw [twp_bind]
  apply twp_ask
  intro res _
  have third := more (o := .dirSdi path) (a := res) second trivial
  split
  · exact ⟨third, fun _ => ⟨rfl, rfl⟩⟩
  split
  · rw [twp_bind]
    apply twp_ask
    intro lockid _
    have fourth := more (o := .incLock path) (a := lockid) third trivial
    split
    · exact ⟨fourth, fun _ => ⟨rfl, rfl⟩⟩
    · exact ⟨fourth, fun _ => ⟨rfl, rfl⟩⟩
  · exact ⟨third, fun _ => ⟨rfl, rfl⟩⟩

theorem validate_adds (dp : DIR) (log : List Event) :
    (validate dp).twp (rules G) (fun _ t => Adds Event.Quiet log t) log := by
  unfold validate
  split
  · apply twp_ask
    intro res _
    exact adds_cons trivial log
  · exact .refl log

theorem fClosedir_adds (dp : DIR) (log : List Event) :
    (fClosedir dp).twp (rules G) (fun _ t => Adds Event.Quiet log t) log := by
  unfold fClosedir
  rw [twp_bind]
  apply twp_mono (validate_adds dp log)
  intro res t first
  split
  · exact first
  split
  · apply twp_ask
    intro res _
    exact first.trans (adds_cons trivial t)
  · exact first

/-! ## What is claimed -/

/-- A directory could not be opened, or not fully read. -/
def Event.Fails : Event → Prop
  | .returned _ _ _ res => res ≠ .ok ∧ res ≠ .invalidName
  | _ => False

/-- Something went wrong with the directory at `place` itself. -/
def Event.Ails (place : Place) : Event → Prop
  | .returned .opendir p _ res => p = place ∧ res ≠ .ok
  | .returned .readdir p _ res => (∃ i, p = i :: place) ∧ res ≠ .ok
  | _ => False

section
variable (fs : Path → List Entry) (log : List Event) (place : Place) (path : Path)

/-- The `j`-th entry, `e`, of the directory `path` at `place` was handed to the callback. -/
def Handed (j : Nat) (e : Entry) : Prop :=
  ∃ v, .visited v ∈ log ∧ v.place = j :: place ∧ v.path = path ++ slash :: e.fname ∧ v.entry = e.info

/-- The callback answered false for a plain file that comes before the `j`-th entry. -/
def Excused (j : Nat) : Prop :=
  ∃ i < j, ∃ e, (fs path)[i]? = some e ∧ e.attr &&& amDir = 0 ∧
    ∃ v, .visited v ∈ log ∧ v.place = i :: place ∧ v.answer = false

/-- Every entry of every directory that was entered was handed to the callback, but for those
after a plain file that it answered false for. -/
def Complete : Prop :=
  ∀ place path, .returned .opendir place path .ok ∈ log → ∀ j e, (fs path)[j]? = some e →
    Handed log place path j e ∨ Excused fs log place path j

/-- No failure, and no entry of the directory `path` or below, is hidden behind `FR_OK`. -/
structure Shown (res : FRESULT) : Prop where
  failures : (∃ e ∈ log, e.Fails) → res ≠ .ok
  entries : res = .ok → .returned .opendir [] path .ok ∈ log ∧ Complete fs log

/-- The directory is left before its `j`-th entry: this one cannot be read, or has an empty
name; or the callback answered false for the one before, and took it for a plain file. -/
inductive Left : Nat → Prop
  | unread {j : Nat} {res : FRESULT} (read : .returned .readdir (j :: place) path res ∈ log)
      (bad : res ≠ .ok) : Left j
  | nameless {j : Nat} {e : Entry} (read : .returned .readdir (j :: place) path .ok ∈ log)
      (at_ : (fs path)[j]? = some e) (blank : e.fname = []) : Left j
  | refused {j : Nat} {v : Visit} (shown : .visited v ∈ log) (at_ : v.place = j :: place)
      (plain : v.left &&& amDir = 0) (no : v.answer = false) : Left (j + 1)

/-- No directory is left before its end but after a plain file that the callback answered
false for. -/
def Unbroken : Prop :=
  ∀ place path, .returned .opendir place path .ok ∈ log → ∀ j < (fs path).length,
    Left fs log place path j → Excused fs log place path j

/-! ## The course of a loop -/

/-- The loop over a directory, from the `i`-th entry to where it is left, before the `m`-th. -/
structure Course (i m : Nat) : Prop where
  le : i ≤ m
  handed : ∀ j, i ≤ j → j < m → ∃ e, (fs path)[j]? = some e ∧ Handed log place path j e
  only : ∀ j v, .visited v ∈ log → v.place = j :: place → j < m
  stays : ∀ j, Left fs log place path j → m ≤ j
  left : (fs path).length ≤ m ∨ Left fs log place path m

/-- Every directory that was opened has its course. -/
def Courses : Prop :=
  ∀ place path, .returned .opendir place path .ok ∈ log → ∃ m, Course fs log place path 0 m

end

/-- The event is about an entry of the directory at `place`. -/
def Event.Of (place : Place) : Event → Prop
  | .returned .readdir p _ _ => ∃ j, p = j :: place
  | .visited v => ∃ j, v.place = j :: place
  | _ => False

/-- The event is about the directory at `place`, or what is in it. -/
def Event.Under (place : Place) : Event → Prop
  | .answered _ _ => True
  | .returned .opendir p _ _ => place <:+ p
  | .returned .readdir p _ _ => ∃ j, j :: place <:+ p
  | .visited v => ∃ j, j :: place <:+ v.place

/-- The event is about the `i`-th entry of the directory at `place` or one after it, or what
is below these. -/
def Event.From (place : Place) (i : Nat) : Event → Prop
  | .answered _ _ => True
  | .returned _ p _ _ => ∃ j ≥ i, j :: place <:+ p
  | .visited v => ∃ j ≥ i, j :: place <:+ v.place

variable {fs : Path → List Entry} {place : Place} {path : Path} {i j k m : Nat} {es es' : List Event}
  {e : Event}

theorem not_inside {place : Place} : ¬i :: place <:+ place :=
  fun inside => Nat.not_succ_le_self _ inside.length_le

theorem not_deeper {place : Place} : ¬k :: i :: place <:+ j :: place :=
  fun inside => Nat.not_succ_le_self _ (Nat.le_of_succ_le_succ inside.length_le)

/-- An entry is in one place of its directory. -/
theorem same_index {p : Place} (h : i :: place <:+ p) (h' : j :: place <:+ p) : i = j := by
  have same : i :: place = j :: place :=
    (List.suffix_of_suffix_length_le h h' (Nat.le_of_eq rfl)).eq_of_length rfl
  exact (List.cons.inj same).1

theorem Event.Under.from_ (h : e.Under (i :: place)) : e.From place i := by
  cases e with
  | answered => trivial
  | visited v =>
    obtain ⟨j, inside⟩ := h
    exact ⟨i, Nat.le_refl i, (List.suffix_cons j _).trans inside⟩
  | returned c p path res =>
    cases c with
    | opendir => exact ⟨i, Nat.le_refl i, h⟩
    | readdir =>
      obtain ⟨j, inside⟩ := h
      exact ⟨i, Nat.le_refl i, (List.suffix_cons j _).trans inside⟩

theorem Event.From.mono (h : e.From place j) (le : i ≤ j) : e.From place i := by
  cases e with
  | answered => trivial
  | visited v | returned c p path res =>
    obtain ⟨k, above, inside⟩ := h
    exact ⟨k, Nat.le_trans le above, inside⟩

theorem Event.From.under (h : e.From place i) : e.Under place := by
  cases e with
  | answered => trivial
  | visited v =>
    obtain ⟨j, -, inside⟩ := h
    exact ⟨j, inside⟩
  | returned c p path res =>
    obtain ⟨j, -, inside⟩ := h
    cases c with
    | opendir => exact (List.suffix_cons j place).trans inside
    | readdir => exact ⟨j, inside⟩

theorem Event.Quiet.under (h : e.Quiet) (place : Place) : e.Under place := by
  cases e with
  | answered => trivial
  | returned | visited => exact h.elim

theorem Event.Quiet.from_ (h : e.Quiet) (place : Place) (i : Nat) : e.From place i := by
  cases e with
  | answered => trivial
  | returned | visited => exact h.elim

theorem Event.Quiet.not_of (h : e.Quiet) (place : Place) : ¬e.Of place := by
  cases e with
  | answered => exact id
  | returned | visited => exact h.elim

/-- An entry is not in what is below itself. -/
theorem Event.Under.not_of (h : e.Under (i :: place)) : ¬e.Of place := by
  have short {p : Place} {k j : Nat} (inside : k :: i :: place <:+ p) : p ≠ j :: place := by
    rintro rfl
    exact not_deeper inside
  cases e with
  | answered => exact id
  | visited v =>
    rintro ⟨j, same⟩
    obtain ⟨k, inside⟩ := h
    exact short inside same
  | returned c p path res =>
    cases c with
    | opendir => exact id
    | readdir =>
      rintro ⟨j, same⟩
      obtain ⟨k, inside⟩ := h
      exact short inside same

/-- What is in another place of the directory is not in a directory below this one. -/
theorem Event.From.not_of {p : Place} (h : e.From place i) (below : k :: place <:+ p)
    (other : k < i) : ¬e.Of p := by
  have apart {q : Place} {l j : Nat} (above : i ≤ l) (inside : l :: place <:+ q) : q ≠ j :: p := by
    rintro rfl
    have same := same_index (below.trans (List.suffix_cons j p)) inside
    omega
  cases e with
  | answered => exact id
  | visited v =>
    rintro ⟨j, same⟩
    obtain ⟨l, above, inside⟩ := h
    exact apart above inside same
  | returned c q path res =>
    cases c with
    | opendir => exact id
    | readdir =>
      rintro ⟨j, same⟩
      obtain ⟨l, above, inside⟩ := h
      exact apart above inside same

theorem Event.Under.not_of_other {p : Place} (h : e.Under (i :: place)) (below : k :: place <:+ p)
    (other : i < k) : ¬e.Of p := by
  have apart {q : Place} {l j : Nat} (inside : l :: i :: place <:+ q) : q ≠ j :: p := by
    rintro rfl
    have same := same_index (below.trans (List.suffix_cons j p)) ((List.suffix_cons l _).trans inside)
    omega
  cases e with
  | answered => exact id
  | visited v =>
    rintro ⟨j, same⟩
    obtain ⟨l, inside⟩ := h
    exact apart inside same
  | returned c q path res =>
    cases c with
    | opendir => exact id
    | readdir =>
      rintro ⟨j, same⟩
      obtain ⟨l, inside⟩ := h
      exact apart inside same

/-- Only events of its entries matter for the course of a directory. -/
theorem Course.frame (h : Course fs es place path i m) (more : ∀ e ∈ es, e ∈ es')
    (others : ∀ e ∈ es', e ∈ es ∨ ¬e.Of place) : Course fs es' place path i m := by
  have back {e : Event} (mem : e ∈ es') (mine : e.Of place) : e ∈ es :=
    (others e mem).resolve_right (not_not_intro mine)
  have grows {j : Nat} (left : Left fs es place path j) : Left fs es' place path j := by
    cases left with
    | unread read bad => exact .unread (more _ read) bad
    | nameless read at_ blank => exact .nameless (more _ read) at_ blank
    | refused shown at_ plain no => exact .refused (more _ shown) at_ plain no
  refine ⟨h.le, fun j above below => ?_, fun j v mem at_ => ?_, fun j left => ?_, h.left.imp_right grows⟩
  · obtain ⟨e, at_, v, mem, shown⟩ := h.handed j above below
    exact ⟨e, at_, v, more _ mem, shown⟩
  · exact h.only j v (back mem ⟨j, at_⟩) at_
  · apply h.stays j
    cases left with
    | unread read bad => exact .unread (back read ⟨j, rfl⟩) bad
    | nameless read at_ blank => exact .nameless (back read ⟨j, rfl⟩) at_ blank
    | refused shown at_ plain no => exact .refused (back shown ⟨_, at_⟩) at_ plain no

/-! ## A scan -/

/-- What the loop over the directory `path` at `place` adds to the log, from its `i`-th
entry on. -/
structure Looped (fs : Path → List Entry) (place : Place) (path : Path) (i : Nat) (res : FRESULT)
    (es : List Event) : Prop where
  from_ : ∀ e ∈ es, e.From place i
  ails : res ≠ .ok ↔ ∃ e ∈ es, e.Ails place
  course : ∃ m, Course fs es place path i m
  courses : Courses fs es

/-- What a scan of the directory `path` at `place` adds to the log. -/
structure Scanned (fs : Path → List Entry) (place : Place) (path : Path) (res : FRESULT)
    (es : List Event) : Prop where
  under : ∀ e ∈ es, e.Under place
  ails : res ≠ .ok ↔ ∃ e ∈ es, e.Ails place
  opened : res = .ok → .returned .opendir place path .ok ∈ es
  courses : Courses fs es

variable {res : FRESULT}

theorem Event.Quiet.sound (h : e.Quiet) (place : Place) : ¬e.Ails place := by
  cases e with
  | answered => exact id
  | returned | visited => exact h.elim

theorem Event.Under.sound (h : e.Under (i :: place)) : ¬e.Ails place := by
  cases e with
  | answered | visited => exact id
  | returned c p path res =>
    cases c with
    | opendir =>
      rintro ⟨rfl, -⟩
      exact not_inside h
    | readdir =>
      rintro ⟨⟨j, rfl⟩, -⟩
      obtain ⟨k, inside⟩ := h
      exact not_deeper inside

/-- The loop left the directory without a call of the callback. -/
theorem looped_left {qs : List Event} (quiet : ∀ e ∈ qs, e.Quiet)
    (end_ : res ≠ .ok ∨ (fs path).length ≤ i ∨ res = .ok ∧ ∃ e, (fs path)[i]? = some e ∧ e.fname = []) :
    Looped fs place path i res (.returned .readdir (i :: place) path res :: qs) where
  from_ e mem := by
    rcases List.mem_cons.1 mem with rfl | mem
    · exact ⟨i, Nat.le_refl i, List.suffix_refl _⟩
    · exact (quiet e mem).from_ place i
  ails := by
    constructor
    · intro bad
      exact ⟨_, List.mem_cons_self, ⟨i, rfl⟩, bad⟩
    · rintro ⟨e, mem, ail⟩
      rcases List.mem_cons.1 mem with rfl | mem
      · exact ail.2
      · exact absurd ail ((quiet e mem).sound place)
  course := by
    have read {p : Place} {q : Path} {r : FRESULT}
        (mem : .returned .readdir p q r ∈ Event.returned .readdir (i :: place) path res :: qs) :
        p = i :: place := by
      rcases List.mem_cons.1 mem with same | mem
      · cases same
        rfl
      · exact (quiet _ mem).elim
    have unshown {v : Visit} (mem : .visited v ∈ Event.returned .readdir (i :: place) path res :: qs) : False := by
      rcases List.mem_cons.1 mem with same | mem
      · cases same
      · exact quiet _ mem
    refine ⟨i, Nat.le_refl i, fun j above below => absurd above (Nat.not_le.2 below),
      fun j v mem => (unshown mem).elim, fun j left => ?_, ?_⟩
    · cases left with
      | unread mem | nameless mem => exact Nat.le_of_eq (List.cons.inj (read mem)).1.symm
      | refused mem => exact (unshown mem).elim
    · rcases end_ with bad | past | ⟨rfl, e, at_, blank⟩
      · exact .inr (.unread List.mem_cons_self bad)
      · exact .inl past
      · exact .inr (.nameless List.mem_cons_self at_ blank)
  courses p q mem := by
    rcases List.mem_cons.1 mem with same | mem
    · cases same
    · exact (quiet _ mem).elim

/-- What a turn of the loop adds to the log, in which the callback is handed the `i`-th entry. -/
structure Turn (fs : Path → List Entry) (place : Place) (path : Path) (i : Nat) (v : Visit)
    (es : List Event) : Prop where
  entry : ∃ e, (fs path)[i]? = some e ∧ e.fname ≠ [] ∧ v.path = path ++ slash :: e.fname ∧ v.entry = e.info
  here : v.place = i :: place
  mem : .visited v ∈ es
  only : ∀ e ∈ es, e.Quiet ∨ (∃ p f a, e = .answered (.callback p f) a) ∨
    e = .returned .readdir (i :: place) path .ok ∨ e = .visited v

namespace Turn

variable {v : Visit} (h : Turn fs place path i v es)
include h

theorem from_ : ∀ e ∈ es, e.From place i := by
  intro e mem
  rcases h.only e mem with quiet | ⟨p, f, a, rfl⟩ | rfl | rfl
  · exact quiet.from_ place i
  · trivial
  · exact ⟨i, Nat.le_refl i, List.suffix_refl _⟩
  · exact ⟨i, Nat.le_refl i, h.here ▸ List.suffix_refl _⟩

theorem sound : ∀ e ∈ es, ¬e.Ails place := by
  intro e mem
  rcases h.only e mem with quiet | ⟨p, f, a, rfl⟩ | rfl | rfl
  · exact quiet.sound place
  · exact id
  · exact fun ail => ail.2 rfl
  · exact id

theorem visit {u : Visit} (mem : .visited u ∈ es) : u = v := by
  rcases h.only _ mem with quiet | ⟨p, f, a, same⟩ | same | same
  · exact quiet.elim
  · cases same
  · cases same
  · cases same
    rfl

theorem read {p : Place} {q : Path} (mem : .returned .readdir p q res ∈ es) : p = i :: place ∧ res = .ok := by
  rcases h.only _ mem with quiet | ⟨p, f, a, same⟩ | same | same
  · exact quiet.elim
  · cases same
  · cases same
    exact ⟨rfl, rfl⟩
  · cases same

theorem unopened {p : Place} {q : Path} : .returned .opendir p q res ∉ es := by
  intro mem
  rcases h.only _ mem with quiet | ⟨p, f, a, same⟩ | same | same
  · exact quiet
  · cases same
  · cases same
  · cases same

/-- The entry is not in a directory that is in its own. -/
theorem not_of {p : Place} (inside : k :: place <:+ p) : ∀ e ∈ es, ¬e.Of p := by
  have apart (j : Nat) : i :: place ≠ j :: p := by
    intro same
    cases same
    exact not_inside inside
  intro e mem
  rcases h.only e mem with quiet | ⟨p, f, a, rfl⟩ | rfl | rfl
  · exact quiet.not_of p
  · exact id
  · exact fun ⟨j, same⟩ => apart j same
  · exact fun ⟨j, same⟩ => apart j (h.here.symm.trans same)

theorem handed (mem : ∀ e ∈ es, e ∈ es') : ∃ e, (fs path)[i]? = some e ∧ Handed es' place path i e := by
  obtain ⟨e, at_, -, path_, entry_⟩ := h.entry
  exact ⟨e, at_, v, mem _ h.mem, h.here, path_, entry_⟩

/-- The entry has a name, so the loop goes on unless the callback stops it. -/
theorem left {j : Nat} (left : Left fs es place path j) :
    j = i + 1 ∧ v.left &&& amDir = 0 ∧ v.answer = false := by
  cases left with
  | unread mem bad => exact absurd (h.read mem).2 bad
  | nameless mem at_ blank =>
    obtain ⟨e, at_', named, -⟩ := h.entry
    cases (h.read mem).1
    rw [at_'] at at_
    cases at_
    exact absurd blank named
  | refused mem at_ plain no =>
    cases h.visit mem
    rw [h.here] at at_
    cases at_
    exact ⟨rfl, plain, no⟩

/-- The callback stops the loop. -/
theorem stop (plain : v.left &&& amDir = 0) (no : v.answer = false) : Looped fs place path i .ok es where
  from_ := h.from_
  ails := iff_of_false (fun bad => bad rfl) fun ⟨e, mem, ail⟩ => h.sound e mem ail
  course := by
    refine ⟨i + 1, Nat.le_succ i, fun j above below => ?_, fun j u mem at_ => ?_, fun j left => ?_, ?_⟩
    · cases (by omega : j = i)
      exact h.handed fun _ => id
    · cases h.visit mem
      rw [h.here] at at_
      cases at_
      exact Nat.lt_succ_self i
    · exact Nat.le_of_eq (h.left left).1.symm
    · exact .inr (.refused h.mem h.here plain no)
  courses p q mem := absurd mem h.unopened

/-- The loop goes on, after what was added below the entry. -/
theorem next {below rest : List Event} (goes : ¬(v.left &&& amDir = 0 ∧ v.answer = false))
    (under : ∀ e ∈ below, e.Under (i :: place)) (courses : Courses fs below)
    (after : Looped fs place path (i + 1) res rest) : Looped fs place path i res (rest ++ (below ++ es)) where
  from_ e mem := by
    rcases List.mem_append.1 mem with mem | mem
    · exact (after.from_ e mem).mono (Nat.le_succ i)
    rcases List.mem_append.1 mem with mem | mem
    · exact (under e mem).from_
    · exact h.from_ e mem
  ails := by
    rw [after.ails]
    constructor
    · rintro ⟨e, mem, ail⟩
      exact ⟨e, List.mem_append_left _ mem, ail⟩
    · rintro ⟨e, mem, ail⟩
      rcases List.mem_append.1 mem with mem | mem
      · exact ⟨e, mem, ail⟩
      rcases List.mem_append.1 mem with mem | mem
      · exact absurd ail (under e mem).sound
      · exact absurd ail (h.sound e mem)
  course := by
    obtain ⟨m, course⟩ := after.course
    have late (e : Event) (mem : e ∈ rest ++ (below ++ es)) : e ∈ rest ∨ e ∈ es ∨ ¬e.Of place := by
      rcases List.mem_append.1 mem with mem | mem
      · exact .inl mem
      rcases List.mem_append.1 mem with mem | mem
      · exact .inr (.inr (under e mem).not_of)
      · exact .inr (.inl mem)
    have mine {e : Event} (mem : e ∈ rest ++ (below ++ es)) (of : e.Of place) : e ∈ rest ∨ e ∈ es := by
      rcases late e mem with mem | mem | other
      · exact .inl mem
      · exact .inr mem
      · exact absurd of other
    refine ⟨m, Nat.le_of_succ_le course.le, fun j above below_ => ?_, fun j u mem at_ => ?_, fun j left => ?_, ?_⟩
    · rcases Nat.eq_or_lt_of_le above with rfl | above
      · exact h.handed fun e mem => List.mem_append_right _ (List.mem_append_right _ mem)
      · obtain ⟨e, at_, u, mem, shown⟩ := course.handed j above below_
        exact ⟨e, at_, u, List.mem_append_left _ mem, shown⟩
    · rcases mine mem ⟨j, at_⟩ with mem | mem
      · exact course.only j u mem at_
      · cases h.visit mem
        rw [h.here] at at_
        cases at_
        exact course.le
    · have apart : Left fs rest place path j ∨ Left fs es place path j := by
        cases left with
        | unread mem bad => exact (mine mem ⟨_, rfl⟩).imp (.unread · bad) (.unread · bad)
        | nameless mem at_ blank =>
          exact (mine mem ⟨_, rfl⟩).imp (.nameless · at_ blank) (.nameless · at_ blank)
        | refused mem at_ plain no =>
          exact (mine mem ⟨_, at_⟩).imp (.refused · at_ plain no) (.refused · at_ plain no)
      rcases apart with left | left
      · exact course.stays j left
      · exact absurd (h.left left).2 goes
    · refine course.left.imp_right fun left => ?_
      cases left with
      | unread mem bad => exact .unread (List.mem_append_left _ mem) bad
      | nameless mem at_ blank => exact .nameless (List.mem_append_left _ mem) at_ blank
      | refused mem at_ plain no => exact .refused (List.mem_append_left _ mem) at_ plain no
  courses p q mem := by
    rcases List.mem_append.1 mem with mem | mem
    · obtain ⟨k, above, inside⟩ := after.from_ _ mem
      obtain ⟨m, course⟩ := after.courses p q mem
      refine ⟨m, course.frame (fun e mem => List.mem_append_left _ mem) fun e mem => ?_⟩
      rcases List.mem_append.1 mem with mem | mem
      · exact .inl mem
      rcases List.mem_append.1 mem with mem | mem
      · exact .inr ((under e mem).not_of_other inside above)
      · exact .inr (h.not_of inside e mem)
    rcases List.mem_append.1 mem with mem | mem
    · have inside : i :: place <:+ p := under _ mem
      obtain ⟨m, course⟩ := courses p q mem
      refine ⟨m, course.frame (fun e mem => List.mem_append_right _ (List.mem_append_left _ mem)) fun e mem => ?_⟩
      rcases List.mem_append.1 mem with mem | mem
      · exact .inr ((after.from_ e mem).not_of inside (Nat.lt_succ_self i))
      rcases List.mem_append.1 mem with mem | mem
      · exact .inl mem
      · exact .inr (h.not_of inside e mem)
    · exact absurd mem h.unopened

end Turn

/-- A scan of a directory that could not be opened. -/
theorem scanned_unopened {qs : List Event} (quiet : ∀ e ∈ qs, e.Quiet) (bad : res ≠ .ok) :
    Scanned fs place path res (.returned .opendir place path res :: qs) where
  under e mem := by
    rcases List.mem_cons.1 mem with rfl | mem
    · exact List.suffix_refl _
    · exact (quiet e mem).under place
  ails := iff_of_true bad ⟨_, List.mem_cons_self, rfl, bad⟩
  opened ok := absurd ok bad
  courses p q mem := by
    rcases List.mem_cons.1 mem with same | mem
    · cases same
      exact absurd rfl bad
    · exact (quiet _ mem).elim

/-- The loop of a scan, between opening and closing its directory. -/
theorem Looped.scanned {qs qs' : List Event} (h : Looped fs place path 0 res es)
    (quiet : ∀ e ∈ qs, e.Quiet) (quiet' : ∀ e ∈ qs', e.Quiet) :
    Scanned fs place path res (qs' ++ (es ++ .returned .opendir place path .ok :: qs)) := by
  have cases_ {e : Event} (mem : e ∈ qs' ++ (es ++ .returned .opendir place path .ok :: qs)) :
      e ∈ es ∨ e.Quiet ∨ e = .returned .opendir place path .ok := by
    rcases List.mem_append.1 mem with mem | mem
    · exact .inr (.inl (quiet' e mem))
    rcases List.mem_append.1 mem with mem | mem
    · exact .inl mem
    rcases List.mem_cons.1 mem with rfl | mem
    · exact .inr (.inr rfl)
    · exact .inr (.inl (quiet e mem))
  have inside {e : Event} (mem : e ∈ es) : e ∈ qs' ++ (es ++ .returned .opendir place path .ok :: qs) :=
    List.mem_append_right _ (List.mem_append_left _ mem)
  have framed {p : Place} {q : Path} {m : Nat} (course : Course fs es p q 0 m) :
      Course fs (qs' ++ (es ++ .returned .opendir place path .ok :: qs)) p q 0 m := by
    apply course.frame fun e mem => inside mem
    intro e mem
    rcases cases_ mem with mem | quiet | rfl
    · exact .inl mem
    · exact .inr (quiet.not_of p)
    · exact .inr id
  constructor
  · intro e mem
    rcases cases_ mem with mem | quiet | rfl
    · exact (h.from_ e mem).under
    · exact quiet.under place
    · exact List.suffix_refl _
  · rw [h.ails]
    constructor
    · rintro ⟨e, mem, ail⟩
      exact ⟨e, inside mem, ail⟩
    · rintro ⟨e, mem, ail⟩
      rcases cases_ mem with mem | quiet | rfl
      · exact ⟨e, mem, ail⟩
      · exact absurd ail (quiet.sound place)
      · exact absurd rfl ail.2
  · intro _
    exact List.mem_append_right _ (List.mem_append_right _ List.mem_cons_self)
  · intro p q mem
    rcases cases_ mem with mem | quiet | same
    · obtain ⟨m, course⟩ := h.courses p q mem
      exact ⟨m, framed course⟩
    · exact quiet.elim
    · cases same
      obtain ⟨m, course⟩ := h.course
      exact ⟨m, framed course⟩

/-- What `f_readdir` reads of a directory that is held. -/
theorem fReaddir_holds (holds : G.Holds fs) {dir : DIR} (here : dir.path = path) (index : dir.index = i)
    (fno : FILINFO) (log : List Event) : (fReaddir dir fno).twp (rules G) (fun r t =>
      Adds Event.Quiet log t ∧ (r.1 = .ok → (fs path).length ≤ i ∧ r.2.2.fname = [] ∨
        ∃ e, (fs path)[i]? = some e ∧ r.2.2 = e.info ∧ r.2.1 = { dir with index := i + 1 })) log := by
  subst here index
  unfold fReaddir
  rw [twp_bind]
  apply twp_mono (validate_adds dir log)
  intro res t first
  split
  · rename_i bad
    exact ⟨first, fun ok => absurd ok bad⟩
  rw [twp_bind]
  apply twp_ask
  intro item good
  have second : Adds Event.Quiet log (.answered (.dirRead dir.path dir.index) item :: t) :=
    first.trans (adds_cons trivial t)
  cases item with
  | ok entry =>
    dsimp only
    rw [twp_bind]
    apply twp_ask
    intro res _
    exact ⟨second.trans (adds_cons trivial _), fun _ => .inr ⟨entry, holds.read _ _ _ good, rfl, rfl⟩⟩
  | error res =>
    dsimp only
    split
    · rename_i bad
      exact ⟨second, fun ok => absurd ok bad⟩
    · rename_i fine
      exact ⟨second, fun _ => .inl ⟨holds.end_ _ _ _ good (by simpa using fine), rfl⟩⟩

theorem scanLoop_looped (holds : G.Holds fs) {enter : Place → Path → FILINFO → Prog (FRESULT × FILINFO)}
    (deeper : ∀ i p f log, (enter (i :: place) p f).wp (rules G)
      (fun r t => ∃ es, t = es ++ log ∧ Scanned fs (i :: place) p r.1 es) log)
    (turns : Nat) {dir : DIR} (here : dir.path = path) (index : dir.index = i) (fno : FILINFO)
    (log : List Event) : (scanLoop enter place path turns dir fno).wp (rules G)
      (fun r t => ∃ es, t = es ++ log ∧ Looped fs place path i r.1 es) log := by
  induction turns generalizing dir i fno log with
  | zero => trivial
  | succ turns ih =>
    unfold scanLoop
    rw [wp_bind]
    apply wp_mono (twp_wp (fReaddir_holds holds here index fno log))
    rintro ⟨res, next, fno⟩ _ ⟨⟨qs, rfl, quiet⟩, read⟩
    dsimp only at read ⊢
    rw [index, wp_bind]
    apply wp_returned
    split
    · rename_i end_
      refine ⟨.returned .readdir (i :: place) path res :: qs, rfl, looped_left quiet ?_⟩
      by_cases ok : res = .ok
      · rcases read ok with ⟨past, -⟩ | ⟨e, at_, rfl, -⟩
        · exact .inr (.inl past)
        · exact .inr (.inr ⟨ok, e, at_, end_.resolve_left (not_not_intro ok)⟩)
      · exact .inl ok
    rename_i goes
    obtain ⟨ok, named⟩ : res = .ok ∧ fno.fname ≠ [] := by simpa [not_or] using goes
    subst ok
    obtain ⟨-, none_⟩ | ⟨e, at_, rfl, rfl⟩ := read rfl
    · exact absurd none_ named
    rw [wp_bind]
    apply wp_ask
    rintro ⟨result, nextPath, fno'⟩ _
    dsimp only
    rw [wp_bind]
    apply wp_visited
    generalize shown : (⟨i :: place, path ++ slash :: e.info.fname, e.info, result, fno'.fattrib⟩ : Visit) = v
    have turn : Turn fs place path i v (.visited v ::
        .answered (.callback (path ++ slash :: e.info.fname) e.info) (result, nextPath, fno') ::
          .returned .readdir (i :: place) path .ok :: qs) := by
      subst shown
      refine ⟨⟨e, at_, named, rfl, rfl⟩, rfl, List.mem_cons_self, fun e' mem => ?_⟩
      rcases List.mem_cons.1 mem with same | mem
      · exact .inr (.inr (.inr same))
      rcases List.mem_cons.1 mem with same | mem
      · exact .inr (.inl ⟨_, _, _, same⟩)
      rcases List.mem_cons.1 mem with same | mem
      · exact .inr (.inr (.inl same))
      · exact .inl (quiet e' mem)
    have left : v.left = fno'.fattrib := by rw [← shown]
    have answer : v.answer = result := by rw [← shown]
    have goes_on {below log' : List Event} {fno : FILINFO} (log_ : log' = below ++ (.visited v ::
        .answered (.callback (path ++ slash :: e.info.fname) e.info) (result, nextPath, fno') ::
          .returned .readdir (i :: place) path .ok :: (qs ++ log)))
        (goes : ¬(v.left &&& amDir = 0 ∧ v.answer = false))
        (under : ∀ e ∈ below, e.Under (i :: place)) (courses : Courses fs below) :
        (scanLoop enter place path turns { dir with index := i + 1 } fno).wp (rules G)
          (fun r t => ∃ es, t = es ++ log ∧ Looped fs place path i r.1 es) log' := by
      apply wp_mono (@ih (i + 1) { dir with index := i + 1 } here rfl fno log')
      rintro r _ ⟨rest, rfl, after⟩
      refine ⟨_, ?_, turn.next goes under courses after⟩
      rw [log_]
      simp
    have none_ : ∀ e ∈ ([] : List Event), e.Under (i :: place) := fun _ no => nomatch no
    have uncourse : Courses fs [] := fun _ _ no => nomatch no
    split
    · rename_i dir_
      have goes : ¬(v.left &&& amDir = 0 ∧ v.answer = false) := fun both => dir_ (left ▸ both.1)
      split
      · rw [wp_bind]
        apply wp_mono (deeper i nextPath fno' _)
        rintro ⟨res, fno''⟩ _ ⟨below, rfl, scanned⟩
        dsimp only
        rw [if_neg (by simp)]
        exact goes_on rfl goes scanned.under scanned.courses
      · exact goes_on (List.nil_append _).symm goes none_ uncourse
    · rename_i plain
      have plain : v.left &&& amDir = 0 := by simpa [left] using plain
      split
      · rename_i no
        exact ⟨_, rfl, turn.stop plain (answer.trans (by simpa using no))⟩
      · rename_i yes
        refine goes_on (List.nil_append _).symm (fun both => yes ?_) none_ uncourse
        rw [← answer, both.2]
        rfl

/-- What a scan adds to the log. -/
theorem scanFiles_scanned (holds : G.Holds fs) (turns : Nat) (place : Place) (path : Path) (fno : FILINFO)
    (log : List Event) : (scanFiles turns place path fno).wp (rules G)
      (fun r t => ∃ es, t = es ++ log ∧ Scanned fs place path r.1 es) log := by
  induction turns generalizing place path fno log with
  | zero => trivial
  | succ turns ih =>
    unfold scanFiles
    rw [wp_bind]
    apply wp_mono (twp_wp (fOpendir_opened path log))
    rintro ⟨res, dir⟩ _ ⟨⟨qs, rfl, quiet⟩, opened⟩
    rw [wp_bind]
    apply wp_returned
    split
    · rename_i ok
      dsimp only at ok opened ⊢
      subst ok
      obtain ⟨here, index⟩ := opened rfl
      rw [wp_bind]
      apply wp_mono (scanLoop_looped holds (fun i p f log => ih (i :: place) p f log) turns here index fno _)
      rintro ⟨res, dir', fno'⟩ _ ⟨es, rfl, looped⟩
      rw [wp_bind]
      apply wp_mono (twp_wp (fClosedir_adds dir' _))
      rintro _ _ ⟨qs', rfl, quiet'⟩
      exact ⟨qs' ++ (es ++ .returned .opendir place path .ok :: qs), by simp, looped.scanned quiet quiet'⟩
    · rename_i bad
      exact ⟨_, rfl, scanned_unopened quiet bad⟩

/-- The world with nothing noted yet. -/
def World.fresh (w : World σ) : World σ := { w with log := [] }

/-- In a course, every entry is handed over or excused if and only if the directory is left
at its end, or excused. -/
theorem Course.complete_iff {log : List Event} (h : Course fs log place path 0 m) :
    (∀ j e, (fs path)[j]? = some e → Handed log place path j e ∨ Excused fs log place path j) ↔
      ∀ j < (fs path).length, Left fs log place path j → Excused fs log place path j := by
  constructor
  · intro complete j lt left
    refine (complete j _ (List.getElem?_eq_getElem lt)).resolve_left ?_
    rintro ⟨v, mem, at_, -⟩
    exact absurd (h.only j v mem at_) (Nat.not_lt.2 (h.stays j left))
  · intro excused j e at_
    by_cases before : j < m
    · obtain ⟨e', at_', handed⟩ := h.handed j (Nat.zero_le j) before
      rw [at_] at at_'
      cases at_'
      exact .inl handed
    · obtain ⟨lt, -⟩ := List.getElem?_eq_some_iff.1 at_
      obtain past | left := h.left
      · omega
      · obtain ⟨k, below, rest⟩ := excused m (by omega) left
        exact .inr ⟨k, by omega, rest⟩

/-- A scan hides nothing just then when there was an error with the directory that it began
with, or nothing failed below it and no directory was left before its end. -/
theorem scanFiles_shown_iff {host : Host σ} (within : ∀ o e, G o (host o e).1) (holds : G.Holds fs)
    {turns : Nat} {fno fno' : FILINFO} {w w' : World σ}
    (run : exec host (scanFiles turns [] path fno) w.fresh = some ((res, fno'), w')) :
    Shown fs w'.log path res ↔
      (∃ e ∈ w'.log, e.Ails []) ∨ (∀ e ∈ w'.log, ¬e.Fails) ∧ Unbroken fs w'.log := by
  obtain ⟨log, ⟨es, same, scanned⟩, eq⟩ := run_sound (host_simulates within) (rfl : w.fresh.log = [])
    (scanFiles_scanned holds turns [] path fno []) run
  rw [List.append_nil] at same
  have logged : es = w'.log := same.symm.trans eq.symm
  subst logged
  have complete_iff : Complete fs w'.log ↔ Unbroken fs w'.log := by
    refine forall_congr' fun place => forall_congr' fun path => forall_congr' fun mem => ?_
    obtain ⟨m, course⟩ := scanned.courses place path mem
    exact course.complete_iff
  rw [← scanned.ails, ← complete_iff]
  constructor
  · intro shown
    by_cases ok : res = .ok
    · refine .inr ⟨fun e mem fails => ?_, (shown.entries ok).2⟩
      exact shown.failures ⟨e, mem, fails⟩ ok
    · exact .inl ok
  · rintro (bad | ⟨sound, complete⟩)
    · exact ⟨fun _ => bad, fun ok => absurd ok bad⟩
    · exact ⟨fun ⟨e, mem, fails⟩ => absurd fails (sound e mem), fun ok => ⟨scanned.opened ok, complete⟩⟩

/-! ## A directory that cannot be opened -/

/-- An outside that shows the directories `dirs`, the first one the root; `cb` is the
callback, and `full` says where the table of open objects has no room. -/
def shelf (root : Path) (dirs : Path → Option (List Entry)) (full : Path → Bool)
    (cb : Path → FILINFO → Bool × Path × FILINFO) : Host Unit
  | .findVolume _, e | .dirSdi _, e | .decLock _, e | .validate _, e | .dirNext _ _, e => (.ok, e)
  | .followPath p, e =>
    (match dirs p with
      | some _ => (.ok, { noname := p = root, attr := amDir, sclust := if p = root then 0 else 2 })
      | none => (.ok, { noname := false, attr := Files.amArc, sclust := 0 }), e)
  | .incLock p, e => (if full p then 0 else 1, e)
  | .dirRead p i, e => (((dirs p).getD [])[i]?.elim (.error .noFile) .ok, e)
  | .callback p fno, e => (cb p fno, e)

/-- `"0:"`, then `"0:/A"` and so on. -/
abbrev root : Path := [0x30, 0x3A]
abbrev below (letter : BYTE) : Path := root ++ [slash, letter]

/-- An entry with a name of one letter. -/
def entry (letter attr : BYTE) : Entry where
  name := letter :: List.replicate 10 0x20
  attr := attr
  size := 0
  modTime := 0

/-- A record with nothing in it. -/
def FILINFO.blank : FILINFO := ⟨0, 0, 0, 0, []⟩

/-- The answers that the outside gives. -/
def answersOf (host : Host Unit) : Answers := fun o a => a = (host o ()).1

theorem shelf_holds (root : Path) (dirs : Path → Option (List Entry)) (full : Path → Bool)
    (cb : Path → FILINFO → Bool × Path × FILINFO) :
    (answersOf (shelf root dirs full cb)).Holds fun path => (dirs path).getD [] where
  read path i e answer := by
    have found : ((dirs path).getD [])[i]?.elim (.error FRESULT.noFile) .ok = Except.ok e := answer.symm
    cases at_ : ((dirs path).getD [])[i]? with
    | none =>
      rw [at_] at found
      cases found
    | some e' =>
      rw [at_] at found
      cases found
      rfl
  end_ path i res answer _ := by
    have found : ((dirs path).getD [])[i]?.elim (.error FRESULT.noFile) .ok = Except.error res := answer.symm
    cases at_ : ((dirs path).getD [])[i]? with
    | none => exact List.getElem?_eq_none_iff.1 at_
    | some e' =>
      rw [at_] at found
      cases found

/-- A root with a directory A in it. -/
def lone (path : Path) : Option (List Entry) :=
  if path = root then some [entry 0x41 amDir] else if path = below 0x41 then some [] else none

/-- All of it can be read. -/
def ajar : Host Unit := shelf root lone (fun _ => false) fun p fno => (true, p, fno)

/-- The directory A cannot be opened. -/
def shut : Host Unit := shelf root lone (· = below 0x41) fun p fno => (true, p, fno)

def idle : World Unit := ⟨[], ()⟩

/-- A run by what is computed of its end. -/
theorem exec_seen (host : Host σ) (p : Prog α) (w : World σ) (g : α × World σ → β) (b : β)
    (h : (exec host p w).map g = some b) : ∃ a w', exec host p w = some (a, w') ∧ g (a, w') = b := by
  obtain ⟨⟨a, w'⟩, run, same⟩ := Option.map_eq_some_iff.1 h
  exact ⟨a, w', run, same⟩

/-- How the calls of `f_opendir` ended, newest first. -/
def opendirs (log : List Event) : List (Place × Path × FRESULT) :=
  log.filterMap fun
    | .returned .opendir place path res => some (place, path, res)
    | _ => none

theorem mem_opendirs {log : List Event} (mem : (place, path, res) ∈ opendirs log) :
    .returned .opendir place path res ∈ log := by
  obtain ⟨e, there, same⟩ := List.mem_filterMap.1 mem
  cases e with
  | answered | visited => cases same
  | returned c =>
    cases c with
    | readdir => cases same
    | opendir =>
      cases same
      exact there

theorem scanFiles_shut : ∃ fno' w', exec shut (scanFiles 4 [] root .blank) idle.fresh = some ((.ok, fno'), w') ∧
    .returned .opendir [0] (below 0x41) .tooManyOpenFiles ∈ w'.log := by
  obtain ⟨⟨res, fno'⟩, w', run, seen⟩ := exec_seen shut (scanFiles 4 [] root .blank) idle.fresh
    (fun r => (r.1.1, opendirs r.2.log))
    (.ok, [([0], below 0x41, .tooManyOpenFiles), ([], root, .ok)]) (by decide +kernel)
  obtain ⟨ok, log⟩ := Prod.mk.inj seen
  cases ok
  refine ⟨fno', w', run, mem_opendirs ?_⟩
  rw [log]
  simp

/-- An error of a directory below is forgotten. -/
theorem scanFiles_hides : ∃ res fno' w',
    exec shut (scanFiles 4 [] root .blank) idle.fresh = some ((res, fno'), w') ∧
      ¬Shown (fun path => (lone path).getD []) w'.log root res := by
  obtain ⟨fno', w', run, failed⟩ := scanFiles_shut
  refine ⟨_, fno', w', run, fun shown => ?_⟩
  exact shown.failures ⟨_, failed, by simp [Event.Fails]⟩ rfl

theorem scanFiles_shown_iff_shut : (∃ res fno' w',
    exec shut (scanFiles 4 [] root .blank) idle.fresh = some ((res, fno'), w') ∧
      (Shown (fun path => (lone path).getD []) w'.log root res ↔ (∃ e ∈ w'.log, e.Ails []) ∨
        (∀ e ∈ w'.log, ¬e.Fails) ∧ Unbroken (fun path => (lone path).getD []) w'.log)) ∧
    ∃ fno' w', exec ajar (scanFiles 4 [] root .blank) idle.fresh = some ((.ok, fno'), w') ∧
      (Shown (fun path => (lone path).getD []) w'.log root .ok ↔ (∃ e ∈ w'.log, e.Ails []) ∨
        (∀ e ∈ w'.log, ¬e.Fails) ∧ Unbroken (fun path => (lone path).getD []) w'.log) := by
  constructor
  · obtain ⟨fno', w', run, -⟩ := scanFiles_shut
    exact ⟨_, fno', w', run, scanFiles_shown_iff (fun _ _ => rfl) (shelf_holds _ _ _ _) run⟩
  · obtain ⟨⟨res, fno'⟩, w', run, ok⟩ := exec_seen ajar (scanFiles 4 [] root .blank) idle.fresh
      (fun r => r.1.1) .ok (by decide +kernel)
    cases ok
    exact ⟨fno', w', run, scanFiles_shown_iff (fun _ _ => rfl) (shelf_holds _ _ _ _) run⟩

end FatFsParticle.Scan
