import FatFsParticle.Scan.Errors

/-!
# The order of a scan

The reference for `scan_files`: a directory is a list of entries, each with what is below
it, and the callback sees them in preorder. `scan_files` decides from the static record
after the callback has run, and a callback that scans leaves another entry in it; and it
takes an entry without a name for the end of the directory.
-/

namespace FatFsParticle.Scan
open Interact Program
open Files (FRESULT amDir)

/-! ## The reference -/

def Entry.isDir (e : Entry) : Bool := e.attr &&& amDir != 0

/-- The path of the entry in the directory `parent`. -/
def Entry.path (e : Entry) (parent : Path) : Path := parent ++ slash :: e.fname

/-- A directory: nothing more, or an entry, what is below it, and the entries after it. -/
inductive Dir where
  | done
  | item (e : Entry) (below rest : Dir)

namespace Dir

/-- The directory from its `i`-th entry on. -/
def drop : Nat → Dir → Dir
  | 0, d => d
  | _ + 1, .done => .done
  | i + 1, .item _ _ rest => rest.drop i

/-- What is below an entry that a directory begins with. -/
def inside : Dir → Dir
  | .done => .done
  | .item _ below _ => below

/-- The directory at a place of the tree. -/
def find (d : Dir) : Place → Dir
  | [] => d
  | i :: place => (drop i (d.find place)).inside

end Dir

/-- The record says that the entry is a directory. -/
def Visit.isDir (v : Visit) : Bool := v.left &&& amDir != 0

/-- The visit is to the `i`-th entry, `e`, of the directory `path` at `place`. -/
structure Visit.To (v : Visit) (place : Place) (path : Path) (i : Nat) (e : Entry) : Prop where
  place : v.place = i :: place
  path : v.path = e.path path
  entry : v.entry = e.info

/-- How a scan goes on: `dir v e b`, after the visit `v` the entry `e` is taken for a directory
just if `b`; `ends e`, a directory is left at the entry `e`. -/
structure Rule where
  dir : Visit → Entry → Bool → Prop
  ends : Entry → Prop

/-- The visits to a directory in preorder, from its `i`-th entry on. What is taken for a
directory is entered when the callback answered true; a false answer for a plain file ends
the directory. -/
inductive Listing (rule : Rule) : Place → Path → Nat → Dir → List Visit → Prop
  | done {place : Place} {path : Path} {i : Nat} : Listing rule place path i .done []
  | left {place : Place} {path : Path} {i : Nat} {e : Entry} {below rest : Dir} (ends : rule.ends e) :
      Listing rule place path i (.item e below rest) []
  | enter {place : Place} {path : Path} {i : Nat} {e : Entry} {below rest : Dir} {v : Visit}
      {vs ws : List Visit} (on : ¬rule.ends e) (at_ : v.To place path i e) (dir : rule.dir v e true)
      (yes : v.answer = true) (inside : Listing rule (i :: place) (e.path path) 0 below vs)
      (after : Listing rule place path (i + 1) rest ws) :
      Listing rule place path i (.item e below rest) (v :: (vs ++ ws))
  | skip {place : Place} {path : Path} {i : Nat} {e : Entry} {below rest : Dir} {v : Visit}
      {ws : List Visit} (on : ¬rule.ends e) (at_ : v.To place path i e) (dir : rule.dir v e true)
      (no : v.answer = false) (after : Listing rule place path (i + 1) rest ws) :
      Listing rule place path i (.item e below rest) (v :: ws)
  | next {place : Place} {path : Path} {i : Nat} {e : Entry} {below rest : Dir} {v : Visit}
      {ws : List Visit} (on : ¬rule.ends e) (at_ : v.To place path i e) (file : rule.dir v e false)
      (yes : v.answer = true) (after : Listing rule place path (i + 1) rest ws) :
      Listing rule place path i (.item e below rest) (v :: ws)
  | stop {place : Place} {path : Path} {i : Nat} {e : Entry} {below rest : Dir} {v : Visit}
      (on : ¬rule.ends e) (at_ : v.To place path i e) (file : rule.dir v e false)
      (no : v.answer = false) : Listing rule place path i (.item e below rest) [v]

/-- What is a directory is taken for one, and every entry is visited. -/
def byEntry : Rule where
  dir _ e b := b = e.isDir
  ends _ := False

/-- The record decides, as the callback left it; a directory is left at an entry without a
name. -/
def byRecord : Rule where
  dir v _ b := b = v.isDir
  ends e := e.fname = []

/-- A scan in preorder. -/
abbrev Preorder (path : Path) (d : Dir) : List Visit → Prop := Listing byEntry [] path 0 d

/-- The directory begins with an entry without a name. -/
def Dir.Nameless : Dir → Prop
  | .done => False
  | .item e _ _ => e.fname = []

/-- The scan goes on from the visit `v` of the entry `e`, with `below` below it and `rest`
after it, as it should. The callback left `AM_DIR` as it was, or nothing depends on it:
nothing is below what it answered true for, or nothing is visited after what it answered
false for. And where the scan has to go on it finds no entry without a name. -/
structure Visit.FairFor (v : Visit) (e : Entry) (below rest : Dir) : Prop where
  record : v.isDir = e.isDir ∨ v.answer = true ∧ below = .done ∨
    v.answer = false ∧ (rest = .done ∨ e.isDir = false ∧ rest.Nameless)
  below : v.answer = true → ¬below.Nameless
  rest : v.answer = true ∨ e.isDir = true → ¬rest.Nameless

/-- So it does in the tree `d`. -/
def Visit.Fair (v : Visit) (d : Dir) : Prop :=
  match v.place with
  | [] => False
  | i :: place =>
    match (d.find place).drop i with
    | .done => False
    | .item e below rest => v.FairFor e below rest

/-- Nothing is below a plain file that has a name. -/
def Dir.Closed : Dir → Prop
  | .done => True
  | .item e below rest =>
    (e.fname ≠ [] → (e.isDir = false → below = .done) ∧ below.Closed) ∧ rest.Closed

section
variable {rule rule' : Rule} {place : Place} {path : Path} {i : Nat} {d : Dir} {vs ws : List Visit}

theorem Listing.empty (h : Listing byEntry place path i d []) : d = .done := by
  cases h with
  | done => rfl
  | left ends => exact ends.elim

theorem Listing.nil (h : Listing rule place path i .done vs) : vs = [] := by
  cases h with
  | done => rfl

theorem Listing.nameless (h : Listing byRecord place path i d vs) (first : d.Nameless) : vs = [] := by
  cases h with
  | done | left => rfl
  | enter on | skip on | next on | stop on => exact absurd first on

/-- A scan that goes by the record visits nothing just where there is nothing, or no name. -/
theorem Listing.of_nil (h : Listing byRecord place path i d []) : d = .done ∨ d.Nameless := by
  cases h with
  | done => exact .inl rfl
  | left ends => exact .inr ends

/-- All that is visited in a directory is deeper than the directory. -/
theorem Listing.deep (h : Listing rule place path i d vs) : ∀ v ∈ vs, place.length < v.place.length := by
  have here {place : Place} {path : Path} {i : Nat} {e : Entry} {v : Visit} (at_ : v.To place path i e) :
      place.length < v.place.length := by
    rw [at_.place]
    exact Nat.lt_succ_self _
  induction h with
  | done | left => simp
  | enter _ at_ _ _ _ _ inside after =>
    intro v mem
    rcases List.mem_cons.1 mem with rfl | mem
    · exact here at_
    rcases List.mem_append.1 mem with mem | mem
    · exact Nat.lt_of_succ_lt (inside v mem)
    · exact after v mem
  | skip _ at_ _ _ _ after | next _ at_ _ _ _ after =>
    intro v mem
    rcases List.mem_cons.1 mem with rfl | mem
    · exact here at_
    · exact after v mem
  | stop _ at_ =>
    intro v mem
    cases List.mem_singleton.1 mem
    exact here at_

/-- The first visit is to an entry of the directory itself. -/
theorem Listing.head {v : Visit} (h : Listing rule place path i d (v :: vs)) :
    v.place.length = place.length + 1 := by
  cases h with
  | enter _ at_ | skip _ at_ | next _ at_ | stop _ at_ =>
    rw [at_.place]
    rfl

/-- Where the visits to a directory end is seen from their places. -/
theorem Listing.split {path' : Path} {j k : Nat} {below below' rest rest' : Dir} {vs ws vs' ws' : List Visit}
    (inside : Listing rule (i :: place) path' 0 below vs) (after : Listing rule place path j rest ws)
    (inside' : Listing rule' (i :: place) path' 0 below' vs') (after' : Listing rule' place path k rest' ws')
    (same : vs ++ ws = vs' ++ ws') : vs = vs' ∧ ws = ws' := by
  have first {rule : Rule} {j : Nat} {below rest : Dir} {vs ws : List Visit}
      (inside : Listing rule (i :: place) path' 0 below vs) (after : Listing rule place path j rest ws) :
      (vs ++ ws).takeWhile (fun v => (i :: place).length < v.place.length) = vs := by
    rw [List.takeWhile_append_of_pos fun v mem => by simpa using inside.deep v mem]
    cases ws with
    | nil => simp
    | cons v ws => simp [after.head]
  have start := first inside after
  rw [same, first inside' after'] at start
  subst start
  exact ⟨rfl, List.append_cancel_left same⟩

theorem Visit.FairFor.empty {v : Visit} {e : Entry} {below rest : Dir} (h : v.FairFor e below rest)
    (other : v.isDir ≠ e.isDir) (yes : v.answer = true) : below = .done := by
  simpa [other, yes] using h.record

theorem Visit.FairFor.last {v : Visit} {e : Entry} {below rest : Dir} (h : v.FairFor e below rest)
    (other : v.isDir ≠ e.isDir) (no : v.answer = false) :
    rest = .done ∨ e.isDir = false ∧ rest.Nameless := by
  simpa [other, no] using h.record

/-- What follows a visit that was answered true. -/
theorem Listing.of_yes {e : Entry} {below rest : Dir} {v : Visit} {us : List Visit}
    (h : Listing rule place path i (.item e below rest) (v :: us)) (yes : v.answer = true) :
    (∃ vs ws, us = vs ++ ws ∧ rule.dir v e true ∧
      Listing rule (i :: place) (e.path path) 0 below vs ∧ Listing rule place path (i + 1) rest ws) ∨
    rule.dir v e false ∧ Listing rule place path (i + 1) rest us := by
  cases h with
  | enter _ _ dir _ inside after => exact .inl ⟨_, _, rfl, dir, inside, after⟩
  | next _ _ file _ after => exact .inr ⟨file, after⟩
  | skip _ _ _ no | stop _ _ _ no =>
    rw [yes] at no
    cases no

/-- What follows a visit that was answered false. -/
theorem Listing.of_no {e : Entry} {below rest : Dir} {v : Visit} {us : List Visit}
    (h : Listing rule place path i (.item e below rest) (v :: us)) (no : v.answer = false) :
    rule.dir v e true ∧ Listing rule place path (i + 1) rest us ∨ rule.dir v e false ∧ us = [] := by
  cases h with
  | skip _ _ dir _ after => exact .inl ⟨dir, after⟩
  | stop _ _ file => exact .inr ⟨file, rfl⟩
  | enter _ _ _ yes | next _ _ _ yes =>
    rw [no] at yes
    cases yes

/-! ## When a scan is in preorder -/

variable {tree : Dir} {e : Entry} {below rest : Dir} {v : Visit}

theorem drop_item (h : (tree.find place).drop i = .item e below rest) :
    tree.find (i :: place) = below ∧ (tree.find place).drop (i + 1) = rest := by
  constructor
  · show Dir.inside ((tree.find place).drop i) = below
    rw [h]
    rfl
  · generalize tree.find place = d at h
    induction i generalizing d with
    | zero =>
      cases h
      rfl
    | succ i ih =>
      cases d with
      | done => cases h
      | item e' below' rest' => exact ih rest' h

theorem fair_iff (at_ : v.To place path i e) (pos : (tree.find place).drop i = .item e below rest) :
    v.Fair tree ↔ v.FairFor e below rest := by
  unfold Visit.Fair
  rw [at_.place]
  dsimp only
  rw [pos]

/-- In a scan that goes by the record and is in preorder, every visit is fair. -/
theorem Listing.fair (h : Listing byRecord place path i d vs) (closed : d.Closed)
    (pos : (tree.find place).drop i = d) (order : Listing byEntry place path i d vs) :
    ¬d.Nameless ∧ ∀ v ∈ vs, v.Fair tree := by
  induction h with
  | done => exact ⟨id, fun _ no => nomatch no⟩
  | left => exact nomatch order.empty
  | @enter place path i e below rest v vs ws on at_ dir yes inside after inside_ih after_ih =>
    obtain ⟨named, rest_closed⟩ := closed
    obtain ⟨plain, below_closed⟩ := named on
    obtain ⟨pos_below, pos_rest⟩ := drop_item pos
    rw [List.forall_mem_cons, fair_iff at_ pos]
    refine ⟨on, ?_⟩
    rcases order.of_yes yes with ⟨vs', ws', parts, kind, inside', after'⟩ | ⟨kind, after'⟩
    · obtain ⟨rfl, rfl⟩ := inside.split after inside' after' parts
      obtain ⟨first, fair⟩ := inside_ih below_closed pos_below inside'
      obtain ⟨second, fair'⟩ := after_ih rest_closed pos_rest after'
      exact ⟨⟨.inl (dir.symm.trans kind), fun _ => first, fun _ => second⟩,
        List.forall_mem_append.2 ⟨fair, fair'⟩⟩
    · have none_ := plain kind.symm
      subst none_
      cases inside.nil
      obtain ⟨second, fair'⟩ := after_ih rest_closed pos_rest after'
      exact ⟨⟨.inr (.inl ⟨yes, rfl⟩), fun _ => id, fun _ => second⟩, fair'⟩
  | @skip place path i e below rest v ws on at_ dir no after after_ih =>
    obtain ⟨-, rest_closed⟩ := closed
    obtain ⟨-, pos_rest⟩ := drop_item pos
    rw [List.forall_mem_cons, fair_iff at_ pos]
    refine ⟨on, ?_⟩
    have unasked {p : Prop} : v.answer = true → p := fun yes => absurd (no.symm.trans yes) nofun
    rcases order.of_no no with ⟨kind, after'⟩ | ⟨kind, rfl⟩
    · obtain ⟨second, fair'⟩ := after_ih rest_closed pos_rest after'
      exact ⟨⟨.inl (dir.symm.trans kind), unasked, fun _ => second⟩, fair'⟩
    · refine ⟨⟨.inr (.inr ⟨no, after.of_nil.imp_right fun first => ⟨kind.symm, first⟩⟩), unasked, ?_⟩,
        fun _ no => nomatch no⟩
      rintro (yes | isDir)
      · exact unasked yes
      · rw [← kind] at isDir
        cases isDir
  | @next place path i e below rest v ws on at_ file yes after after_ih =>
    obtain ⟨named, rest_closed⟩ := closed
    obtain ⟨plain, -⟩ := named on
    obtain ⟨-, pos_rest⟩ := drop_item pos
    rw [List.forall_mem_cons, fair_iff at_ pos]
    refine ⟨on, ?_⟩
    rcases order.of_yes yes with ⟨vs', ws', parts, kind, inside', after'⟩ | ⟨kind, after'⟩
    · have first : vs' = [] := by
        have both := Listing.split (.done : Listing byRecord (i :: place) (e.path path) 0 .done []) after
          inside' after' parts
        exact both.1.symm
      subst first
      have none_ := inside'.empty
      subst none_
      rw [List.nil_append] at parts
      subst parts
      obtain ⟨second, fair'⟩ := after_ih rest_closed pos_rest after'
      exact ⟨⟨.inr (.inl ⟨yes, rfl⟩), fun _ => id, fun _ => second⟩, fair'⟩
    · have none_ := plain kind.symm
      subst none_
      obtain ⟨second, fair'⟩ := after_ih rest_closed pos_rest after'
      exact ⟨⟨.inl (file.symm.trans kind), fun _ => id, fun _ => second⟩, fair'⟩
  | @stop place path i e below rest v on at_ file no =>
    rw [List.forall_mem_cons, fair_iff at_ pos]
    have unasked {p : Prop} : v.answer = true → p := fun yes => absurd (no.symm.trans yes) nofun
    refine ⟨on, ?_, fun _ no => nomatch no⟩
    rcases order.of_no no with ⟨kind, after'⟩ | ⟨kind, -⟩
    · have last := after'.empty
      subst last
      exact ⟨.inr (.inr ⟨no, .inl rfl⟩), unasked, fun _ => id⟩
    · refine ⟨.inl (file.symm.trans kind), unasked, ?_⟩
      rintro (yes | isDir)
      · exact unasked yes
      · rw [← kind] at isDir
        cases isDir

/-- A scan that goes by the record is in preorder if every visit is fair. -/
theorem Listing.preorder (h : Listing byRecord place path i d vs) (closed : d.Closed)
    (pos : (tree.find place).drop i = d) (first : ¬d.Nameless) (fair : ∀ v ∈ vs, v.Fair tree) :
    Listing byEntry place path i d vs := by
  induction h with
  | done => exact .done
  | left ends => exact absurd ends first
  | @enter place path i e below rest v vs ws on at_ dir yes inside after inside_ih after_ih =>
    obtain ⟨named, rest_closed⟩ := closed
    obtain ⟨plain, below_closed⟩ := named on
    obtain ⟨pos_below, pos_rest⟩ := drop_item pos
    rw [List.forall_mem_cons, fair_iff at_ pos, List.forall_mem_append] at fair
    obtain ⟨here, fair_below, fair_rest⟩ := fair
    have after := after_ih rest_closed pos_rest (here.rest (.inl yes)) fair_rest
    cases kind : e.isDir with
    | true => exact .enter id at_ kind.symm yes (inside_ih below_closed pos_below (here.below yes) fair_below) after
    | false =>
      have none_ := plain kind
      subst none_
      rw [inside.nil]
      exact .next id at_ kind.symm yes after
  | @skip place path i e below rest v ws on at_ dir no after after_ih =>
    obtain ⟨-, rest_closed⟩ := closed
    obtain ⟨-, pos_rest⟩ := drop_item pos
    rw [List.forall_mem_cons, fair_iff at_ pos] at fair
    obtain ⟨here, fair_rest⟩ := fair
    cases kind : e.isDir with
    | true => exact .skip id at_ kind.symm no (after_ih rest_closed pos_rest (here.rest (.inr kind)) fair_rest)
    | false =>
      have took : v.isDir = true := Eq.symm dir
      have none_ : ws = [] := by
        rcases here.last (by simp [took, kind]) no with rfl | ⟨-, first⟩
        · exact after.nil
        · exact after.nameless first
      subst none_
      exact .stop id at_ kind.symm no
  | @next place path i e below rest v ws on at_ file yes after after_ih =>
    obtain ⟨-, rest_closed⟩ := closed
    obtain ⟨-, pos_rest⟩ := drop_item pos
    rw [List.forall_mem_cons, fair_iff at_ pos] at fair
    obtain ⟨here, fair_rest⟩ := fair
    have after := after_ih rest_closed pos_rest (here.rest (.inl yes)) fair_rest
    cases kind : e.isDir with
    | true =>
      have took : v.isDir = false := Eq.symm file
      have none_ : below = .done := here.empty (by simp [took, kind]) yes
      subst none_
      exact .enter id at_ kind.symm yes .done after
    | false => exact .next id at_ kind.symm yes after
  | @stop place path i e below rest v on at_ file no =>
    rw [List.forall_mem_cons, fair_iff at_ pos] at fair
    cases kind : e.isDir with
    | true =>
      have took : v.isDir = false := Eq.symm file
      have last : rest = .done := by
        rcases fair.1.last (by simp [took, kind]) no with last | ⟨plain, -⟩
        · exact last
        · rw [kind] at plain
          cases plain
      subst last
      exact .skip id at_ kind.symm no .done
    | false => exact .stop id at_ kind.symm no

end

/-! ## The disk -/

namespace Answers

variable (G : Answers)

/-- A directory can be opened. -/
structure Opens (path : Path) : Prop where
  volume : ∀ a, G (.findVolume path) a → a = .ok
  found : ∀ a, G (.followPath path) a → a.1 = .ok ∧ (a.2.noname = true ∨ a.2.attr &&& amDir ≠ 0)
  rewind : ∀ a, G (.dirSdi path) a → a = .ok
  lock : ∀ a, G (.incLock path) a → a ≠ 0

/-- The path leads to no directory. -/
def Refuses (path : Path) : Prop :=
  ∀ a, G (.followPath path) a → a.1 ≠ .ok ∨ a.2.noname = false ∧ a.2.attr &&& amDir = 0

/-- The directory can be read: from the `i`-th entry on it is `d`, and what is below can be
opened and read. No path leads to an entry without a name. -/
def Shows (path : Path) : Nat → Dir → Prop
  | i, .done => ∀ a, G (.dirRead path i) a → a = .error .noFile
  | i, .item e below rest => (∀ a, G (.dirRead path i) a → a = .ok e) ∧
    (if e.isDir then e.fname ≠ [] → G.Opens (e.path path) ∧ Shows (e.path path) 0 below
      else below = .done ∧ (e.fname ≠ [] → G.Refuses (e.path path))) ∧
    Shows path (i + 1) rest

/-- Calls on what is open succeed, and the callback leaves the path alone. -/
structure Steady : Prop where
  valid : ∀ path a, G (.validate path) a → a = .ok
  next : ∀ path i a, G (.dirNext path i) a → a = .ok ∨ a = .noFile
  callback : ∀ path fno a, G (.callback path fno) a → a.2.1 = path

end Answers

variable {G : Answers} {path : Path} {d : Dir}

theorem Answers.Shows.closed {i : Nat} (h : G.Shows path i d) : d.Closed := by
  induction d generalizing path i with
  | done => trivial
  | item e below rest below_ih rest_ih =>
    obtain ⟨-, inside, after⟩ := h
    refine ⟨fun named => ?_, rest_ih after⟩
    cases kind : e.isDir with
    | true =>
      rw [if_pos kind] at inside
      exact ⟨fun no => (nomatch no), below_ih (inside named).2⟩
    | false =>
      rw [if_neg (by simp [kind])] at inside
      rw [inside.1]
      exact ⟨fun _ => rfl, trivial⟩

/-! ## The scan -/

/-- The calls of the callback, in order. -/
def visits (log : List Event) : List Visit :=
  (log.filterMap fun
    | .visited v => some v
    | _ => none).reverse

theorem visits_append (es log : List Event) : visits (es ++ log) = visits log ++ visits es := by
  simp [visits]

theorem visits_quiet {es : List Event} (quiet : ∀ e ∈ es, e.Quiet) : visits es = [] := by
  unfold visits
  rw [List.reverse_eq_nil_iff, List.filterMap_eq_nil_iff]
  intro e mem
  have still := quiet e mem
  cases e with
  | answered | returned => rfl
  | visited => exact still.elim

/-- What a scan adds to the log: the visits `vs`. -/
def Visited (vs : List Visit) (old new : List Event) : Prop := ∃ es, new = es ++ old ∧ visits es = vs

variable {vs ws : List Visit} {old mid new : List Event}

theorem Visited.trans (h : Visited vs old mid) (h' : Visited ws mid new) : Visited (vs ++ ws) old new := by
  obtain ⟨es, rfl, rfl⟩ := h
  obtain ⟨es', rfl, rfl⟩ := h'
  exact ⟨es' ++ es, (List.append_assoc _ _ _).symm, visits_append _ _⟩

theorem Adds.visited (h : Adds Event.Quiet old new) : Visited [] old new := by
  obtain ⟨es, rfl, quiet⟩ := h
  exact ⟨es, rfl, visits_quiet quiet⟩

theorem visited_returned (c : Call) (place : Place) (path : Path) (res : FRESULT) (log : List Event) :
    Visited [] log (.returned c place path res :: log) := ⟨[_], rfl, rfl⟩

theorem visited_called {o : Outside} (a : o.Ans) (v : Visit) (log : List Event) :
    Visited [v] log (.visited v :: .answered o a :: log) := ⟨[_, _], rfl, rfl⟩

theorem Visited.refl (log : List Event) : Visited [] log log := ⟨[], rfl, rfl⟩

theorem Visited.silent (h : Visited vs old mid) (h' : Visited [] mid new) : Visited vs old new := by
  simpa using h.trans h'

theorem Visited.answered {o : Outside} {a : o.Ans} (h : Visited [] old new)
    (still : (Event.answered o a).Quiet) : Visited [] old (.answered o a :: new) :=
  h.silent (adds_cons still new).visited

theorem fOpendir_opens (h : G.Opens path) (log : List Event) : (fOpendir path).twp (rules G) (fun r t =>
    r.1 = .ok ∧ r.2.path = path ∧ r.2.attached = true ∧ r.2.index = 0 ∧ Visited [] log t) log := by
  unfold fOpendir
  rw [twp_bind]
  apply twp_ask
  intro res good
  cases h.volume res good
  have first := (Visited.refl log).answered (o := .findVolume path) (a := .ok) trivial
  rw [if_neg (by simp), twp_bind]
  apply twp_ask
  rintro ⟨res, obj⟩ good
  obtain ⟨ok, dir⟩ := h.found _ good
  dsimp only at ok dir
  subst ok
  have second := first.answered (o := .followPath path) (a := (.ok, obj)) trivial
  have dir' : ¬((!obj.noname) = true ∧ obj.attr &&& amDir = 0) := by
    rintro ⟨named, plain⟩
    rcases dir with origin | dir
    · simp [origin] at named
    · exact dir plain
  dsimp only
  rw [if_neg (by simp), if_neg dir', twp_bind]
  apply twp_ask
  intro res good
  cases h.rewind res good
  have third := second.answered (o := .dirSdi path) (a := .ok) trivial
  rw [if_neg (by simp)]
  split
  · rw [twp_bind]
    apply twp_ask
    intro lockid good
    rw [if_neg (h.lock lockid good)]
    exact ⟨rfl, rfl, rfl, rfl, third.answered (o := .incLock path) (a := lockid) trivial⟩
  · exact ⟨rfl, rfl, rfl, rfl, third⟩

theorem fOpendir_refused (h : G.Refuses path) (log : List Event) :
    (fOpendir path).twp (rules G) (fun r t => r.1 ≠ .ok ∧ Visited [] log t) log := by
  unfold fOpendir
  rw [twp_bind]
  apply twp_ask
  intro res _
  have first := (Visited.refl log).answered (o := .findVolume path) (a := res) trivial
  split
  · rename_i bad
    exact ⟨bad, first⟩
  rw [twp_bind]
  apply twp_ask
  rintro ⟨res, obj⟩ good
  have second := first.answered (o := .followPath path) (a := (res, obj)) trivial
  dsimp only
  split
  · rename_i bad
    refine ⟨?_, second⟩
    dsimp only
    split
    · simp
    · exact bad
  · rename_i fine
    have ok : res = .ok := by simpa using fine
    obtain bad | ⟨named, plain⟩ := h _ good
    · exact absurd ok bad
    · dsimp only at named plain
      rw [if_pos ⟨by simp [named], plain⟩]
      exact ⟨by simp, second⟩

/-- `f_readdir` of a directory that is shown. -/
theorem fReaddir_shows {i : Nat} {dir : DIR} (steady : G.Steady) (here : dir.path = path)
    (open_ : dir.attached = true) (index : dir.index = i) (h : G.Shows path i d) (fno : FILINFO)
    (log : List Event) : (fReaddir dir fno).twp (rules G) (fun r t => r.1 = .ok ∧ Visited [] log t ∧
      match d with
      | .done => r.2.2.fname = []
      | .item e _ _ => r.2.2 = e.info ∧ r.2.1 = { dir with index := i + 1 }) log := by
  subst here index
  unfold fReaddir validate
  rw [twp_bind, if_pos open_]
  apply twp_ask
  intro res good
  cases steady.valid _ res good
  have first := (Visited.refl log).answered (o := .validate dir.path) (a := .ok) trivial
  rw [if_neg (by simp), twp_bind]
  apply twp_ask
  intro item good
  cases d with
  | done =>
    cases h item good
    exact ⟨rfl, first.answered (o := .dirRead dir.path dir.index) (a := .error .noFile) trivial, rfl⟩
  | item e below rest =>
    cases h.1 item good
    have second := first.answered (o := .dirRead dir.path dir.index) (a := .ok e) trivial
    dsimp only
    rw [twp_bind]
    apply twp_ask
    intro res good
    have third := second.answered (o := .dirNext dir.path dir.index) (a := res) trivial
    have fine : ignoreEnd res = .ok := by
      rcases steady.next _ _ res good with rfl | rfl
      · rfl
      · rfl
    exact ⟨fine, third, rfl, rfl⟩

theorem fClosedir_visited (dir : DIR) (log : List Event) :
    (fClosedir dir).twp (rules G) (fun _ t => Visited [] log t) log :=
  twp_mono (fClosedir_adds dir log) fun _ _ quiet => quiet.visited

/-- Turns that are enough for a directory. -/
def Dir.turns : Dir → Nat
  | .done => 1
  | .item _ below rest => below.turns + rest.turns + 1

/-- A scan of what cannot be opened visits nothing. -/
theorem scanFiles_refused (h : G.Refuses path) {turns : Nat} (some_ : 0 < turns) (place : Place)
    (fno : FILINFO) (log : List Event) :
    (scanFiles turns place path fno).twp (rules G) (fun _ t => Visited [] log t) log := by
  obtain ⟨turns, rfl⟩ := Nat.exists_eq_succ_of_ne_zero (Nat.ne_of_gt some_)
  unfold scanFiles
  rw [twp_bind]
  apply twp_mono (fOpendir_refused h log)
  rintro ⟨res, dir⟩ t ⟨bad, quiet⟩
  rw [twp_bind]
  apply twp_returned
  dsimp only at bad ⊢
  rw [if_neg bad]
  exact quiet.silent (visited_returned _ _ _ _ _)

/-- A scan from its loop. -/
theorem scanFiles_opens (opens : G.Opens path) {turns : Nat} {place : Place} {fno : FILINFO}
    {log : List Event} (loop : ∀ dir t, dir.path = path → dir.attached = true → dir.index = 0 →
      (scanLoop (scanFiles turns) place path turns dir fno).twp (rules G)
        (fun _ u => ∃ vs, Visited vs t u ∧ Listing byRecord place path 0 d vs) t) :
    (scanFiles (turns + 1) place path fno).twp (rules G)
      (fun _ u => ∃ vs, Visited vs log u ∧ Listing byRecord place path 0 d vs) log := by
  unfold scanFiles
  rw [twp_bind]
  apply twp_mono (fOpendir_opens opens log)
  rintro ⟨res, dir⟩ t ⟨ok, here, open_, start, quiet⟩
  dsimp only at ok here open_ start
  have opened := quiet.silent (visited_returned .opendir place path res t)
  rw [twp_bind]
  apply twp_returned
  dsimp only
  rw [if_pos ok, twp_bind]
  apply twp_mono (loop dir _ here open_ start)
  rintro ⟨res, dir', fno'⟩ u ⟨vs, visited, listing⟩
  rw [twp_bind]
  apply twp_mono (fClosedir_visited dir' u)
  intro _ u' closed
  exact ⟨vs, by simpa using (opened.trans visited).silent closed, listing⟩

theorem scanLoop_listing (steady : G.Steady) {i bound turns : Nat} {place : Place} {dir : DIR}
    {fno : FILINFO} {log : List Event} (shows_ : G.Shows path i d) (here : dir.path = path)
    (open_ : dir.attached = true) (index : dir.index = i) (enough : d.turns ≤ turns)
    (deep : d.turns ≤ bound) :
    (scanLoop (scanFiles bound) place path turns dir fno).twp (rules G)
      (fun _ u => ∃ vs, Visited vs log u ∧ Listing byRecord place path i d vs) log := by
  induction d generalizing place path i bound turns dir fno log with
  | done =>
    obtain ⟨turns, rfl⟩ := Nat.exists_eq_succ_of_ne_zero (Nat.ne_of_gt (Nat.lt_of_lt_of_le Nat.one_pos enough))
    unfold scanLoop
    rw [twp_bind]
    apply twp_mono (fReaddir_shows steady here open_ index shows_ fno log)
    rintro ⟨res, dir', fno'⟩ t ⟨ok, quiet, end_⟩
    dsimp only at ok end_ ⊢
    rw [twp_bind]
    apply twp_returned
    rw [if_pos (.inr end_)]
    exact ⟨[], quiet.silent (visited_returned _ _ _ _ _), .done⟩
  | item e below rest below_ih rest_ih =>
    have size : (Dir.item e below rest).turns = below.turns + rest.turns + 1 := rfl
    obtain ⟨turns, rfl⟩ := Nat.exists_eq_succ_of_ne_zero (by omega : turns ≠ 0)
    obtain ⟨bound, rfl⟩ := Nat.exists_eq_succ_of_ne_zero (by omega : bound ≠ 0)
    obtain ⟨-, inside, after⟩ := id shows_
    unfold scanLoop
    rw [twp_bind]
    apply twp_mono (fReaddir_shows steady here open_ index shows_ fno log)
    rintro ⟨res, dir', fno'⟩ t ⟨ok, quiet, info, next⟩
    dsimp only at ok info next
    subst ok info next
    rw [index, twp_bind]
    apply twp_returned
    split
    · rename_i end_
      have nameless : e.fname = [] := end_.resolve_left (not_not_intro rfl)
      exact ⟨[], quiet.silent (visited_returned _ _ _ _ _), .left nameless⟩
    rename_i goes
    have named : e.fname ≠ [] := fun none_ => goes (.inr none_)
    -- what a call for the entry visits, be it a directory or not
    have entered (fno : FILINFO) (log : List Event) :
        (scanFiles (bound + 1) (i :: place) (e.path path) fno).twp (rules G)
          (fun _ u => ∃ vs, Visited vs log u ∧ Listing byRecord (i :: place) (e.path path) 0 below vs) log := by
      split at inside
      · obtain ⟨opens, shows_⟩ := inside named
        apply scanFiles_opens opens
        intro dir t here open_ index
        exact below_ih shows_ here open_ index (by omega) (by omega)
      · obtain ⟨rfl, refused⟩ := inside
        apply twp_mono (scanFiles_refused (refused named) (Nat.succ_pos _) _ _ _)
        intro _ u quiet
        exact ⟨[], quiet, .done⟩
    rw [twp_bind]
    apply twp_ask
    rintro ⟨answer, nextPath, fno'⟩ good
    have same : nextPath = e.path path := steady.callback _ _ _ good
    subst same
    dsimp only
    rw [twp_bind]
    apply twp_visited
    generalize shown : (⟨i :: place, path ++ slash :: e.info.fname, e.info, answer, fno'.fattrib⟩ : Visit) = v
    have called := (quiet.silent (visited_returned .readdir (i :: place) path .ok t)).trans
      (visited_called (o := .callback (path ++ slash :: e.info.fname) e.info) (answer, e.path path, fno') v _)
    have at_ : v.To place path i e := by
      rw [← shown]
      exact ⟨rfl, rfl, rfl⟩
    have answered : v.answer = answer := by rw [← shown]
    have left : v.left = fno'.fattrib := by rw [← shown]
    have rest_listing (fno : FILINFO) (log : List Event) :
        (scanLoop (scanFiles (bound + 1)) place path turns { dir with index := i + 1 } fno).twp (rules G)
          (fun _ u => ∃ vs, Visited vs log u ∧ Listing byRecord place path (i + 1) rest vs) log :=
      rest_ih after here open_ rfl (by omega) (by omega)
    by_cases dir_ : fno'.fattrib &&& amDir ≠ 0
    · have kind : byRecord.dir v e true := by simpa [byRecord, Visit.isDir, left] using dir_
      rw [if_pos dir_]
      cases answer with
      | true =>
        rw [if_pos rfl, twp_bind]
        apply twp_mono (entered fno' _)
        rintro ⟨res, fno''⟩ u ⟨vs, visited, listing⟩
        dsimp only
        rw [if_neg (by simp)]
        apply twp_mono (rest_listing fno'' u)
        rintro _ u' ⟨ws, visited', listing'⟩
        exact ⟨_, by simpa using (called.trans visited).trans visited',
          .enter named at_ kind answered listing listing'⟩
      | false =>
        rw [if_neg (by simp)]
        apply twp_mono (rest_listing fno' _)
        rintro _ u' ⟨ws, visited', listing'⟩
        exact ⟨_, by simpa using called.trans visited', .skip named at_ kind answered listing'⟩
    · have kind : byRecord.dir v e false := by simpa [byRecord, Visit.isDir, left] using dir_
      rw [if_neg dir_]
      cases answer with
      | true =>
        rw [if_neg (by simp)]
        apply twp_mono (rest_listing fno' _)
        rintro _ u' ⟨ws, visited', listing'⟩
        exact ⟨_, by simpa using called.trans visited', .next named at_ kind answered listing'⟩
      | false =>
        rw [if_pos (by simp)]
        exact ⟨_, called, .stop named at_ kind answered⟩

/-- With turns enough, a scan of a directory that can be opened and read comes to its end. It
visits what the records say, and is in preorder if and only if there is a name to begin with
and every visit is fair. -/
theorem scanFiles_preorder_iff {σ : Type} {host : Host σ} {turns : Nat} (within : ∀ o e, G o (host o e).1)
    (steady : G.Steady) (opens : G.Opens path) (shows_ : G.Shows path 0 d) (enough : d.turns < turns)
    (fno : FILINFO) (w : World σ) : ∃ r w', exec host (scanFiles turns [] path fno) w.fresh = some (r, w') ∧
      Listing byRecord [] path 0 d (visits w'.log) ∧
      (Preorder path d (visits w'.log) ↔ ¬d.Nameless ∧ ∀ v ∈ visits w'.log, v.Fair d) := by
  obtain ⟨turns, rfl⟩ := Nat.exists_eq_succ_of_ne_zero (Nat.ne_of_gt (Nat.zero_lt_of_lt enough))
  have scan : (scanFiles (turns + 1) [] path fno).twp (rules G)
      (fun _ u => ∃ vs, Visited vs [] u ∧ Listing byRecord [] path 0 d vs) [] := by
    apply scanFiles_opens opens
    intro dir t here open_ index
    exact scanLoop_listing steady shows_ here open_ index (by omega) (by omega)
  obtain ⟨r, w', log, run, ⟨vs, ⟨es, same, visited⟩, listing⟩, eq⟩ :=
    run_total (host_simulates within) (rfl : w.fresh.log = []) scan
  have seen : visits w'.log = vs := by
    rw [eq, same, List.append_nil, visited]
  refine ⟨r, w', run, ?_⟩
  rw [seen]
  refine ⟨listing, ?_, ?_⟩
  · exact listing.fair shows_.closed rfl
  · rintro ⟨first, fair⟩
    exact listing.preorder shows_.closed rfl first fair

/-! ## A callback that scans -/

/-- Two directories A and B, with a file X in the one and a file Y in the other. -/
def nested (path : Path) : Option (List Entry) :=
  if path = root then some [entry 0x41 amDir, entry 0x42 amDir]
  else if path = below 0x41 then some [entry 0x58 Files.amArc]
  else if path = below 0x42 then some [entry 0x59 Files.amArc]
  else none

/-- A callback that scans B when it is shown A, and always answers true. -/
def rescans (path : Path) (fno : FILINFO) : Bool × Path × FILINFO :=
  if path = below 0x41 then
    match exec (shelf root nested (fun _ => false) fun p fno => (true, p, fno))
        (scanFiles 4 [] (below 0x42) fno) idle with
    | some ((_, fno), _) => (true, path, fno)
    | none => (true, path, fno)
  else (true, path, fno)

abbrev rescanning : Host Unit := shelf root nested (fun _ => false) rescans

/-- The tree that is scanned. -/
def nestedDir : Dir :=
  .item (entry 0x41 amDir) (.item (entry 0x58 Files.amArc) .done .done)
    (.item (entry 0x42 amDir) (.item (entry 0x59 Files.amArc) .done .done) .done)

theorem rescanning_steady : (answersOf rescanning).Steady := by
  refine ⟨?_, ?_, ?_⟩
  · rintro path _ rfl
    rfl
  · rintro path i _ rfl
    exact .inl rfl
  · rintro path fno _ rfl
    show (rescans path fno).2.1 = path
    unfold rescans
    split
    · split <;> rfl
    · rfl

theorem rescanning_opens {path : Path} (there : (nested path).isSome) :
    (answersOf rescanning).Opens path := by
  obtain ⟨entries, found⟩ := Option.isSome_iff_exists.1 there
  refine ⟨?_, ?_, ?_, ?_⟩
  · rintro _ rfl
    rfl
  · rintro _ rfl
    simp [rescanning, shelf, found]
  · rintro _ rfl
    rfl
  · rintro _ rfl
    simp [rescanning, shelf]

theorem rescanning_refuses {path : Path} (file : nested path = none) : (answersOf rescanning).Refuses path := by
  rintro _ rfl
  simp [rescanning, shelf, file]

theorem rescanning_shows : (answersOf rescanning).Shows root 0 nestedDir := by
  have read {path : Path} {i : Nat} {a : Except FRESULT Entry}
      (h : (rescanning (.dirRead path i) ()).1 = a) :
      ∀ b, answersOf rescanning (.dirRead path i) b → b = a := by
    rintro _ rfl
    exact h
  refine ⟨read rfl, fun _ => ?_, read rfl, fun _ => ?_, read rfl⟩
  · exact ⟨rescanning_opens rfl, read rfl, ⟨rfl, fun _ => rescanning_refuses rfl⟩, read rfl⟩
  · exact ⟨rescanning_opens rfl, read rfl, ⟨rfl, fun _ => rescanning_refuses rfl⟩, read rfl⟩

theorem rescanning_run : ∃ r w', exec rescanning (scanFiles 10 [] root .blank) idle.fresh = some (r, w') ∧
    (visits w'.log).map (fun v => (v.place, v.answer)) = [([0], true), ([1], true), ([0, 1], true)] := by
  obtain ⟨r, w', run, seen⟩ := exec_seen rescanning (scanFiles 10 [] root .blank) idle.fresh
    (fun r => (visits r.2.log).map fun v => (v.place, v.answer))
    [([0], true), ([1], true), ([0, 1], true)] (by decide +kernel)
  exact ⟨r, w', run, seen⟩

/-- The directory that the callback was shown is not entered, as the record now speaks of
a file. -/
theorem scanFiles_skips : (answersOf rescanning).Steady ∧ (answersOf rescanning).Opens root ∧
    (answersOf rescanning).Shows root 0 nestedDir ∧
    ∃ r w', exec rescanning (scanFiles 10 [] root .blank) idle.fresh = some (r, w') ∧
      ¬Preorder root nestedDir (visits w'.log) := by
  obtain ⟨r, w', run, seen⟩ := rescanning_run
  refine ⟨rescanning_steady, rescanning_opens rfl, rescanning_shows, r, w', run, ?_⟩
  generalize visits w'.log = vs at seen
  intro order
  cases order with
  | left ends => exact ends
  | @enter _ _ _ _ _ _ v vs ws _ _ _ _ inside =>
    cases vs with
    | nil => exact absurd inside.empty nofun
    | cons u vs =>
      have deep := inside.head
      have second : u.place = [1] := by
        simp at seen
        exact seen.2.1.1
      rw [second] at deep
      cases deep
  | skip _ _ _ no => simp [no] at seen
  | next _ _ file => cases file
  | stop _ _ file => cases file

theorem scanFiles_preorder_iff_rescanning : ∃ r w',
    exec rescanning (scanFiles 10 [] root .blank) idle.fresh = some (r, w') ∧
      Listing byRecord [] root 0 nestedDir (visits w'.log) ∧
      (Preorder root nestedDir (visits w'.log) ↔
        ¬nestedDir.Nameless ∧ ∀ v ∈ visits w'.log, v.Fair nestedDir) :=
  scanFiles_preorder_iff (fun _ _ => rfl) rescanning_steady (rescanning_opens rfl)
    rescanning_shows (by decide) .blank idle

end FatFsParticle.Scan
