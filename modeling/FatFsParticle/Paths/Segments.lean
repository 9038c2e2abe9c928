import FatFsParticle.Dirs.Listing
import FatFsParticle.Scan.Directory
import FatFsParticle.Drives.Path

/-!
# Segments of a path

`create_name` takes the top segment of a path and puts it into the form that a directory
entry has, and `get_fileinfo` makes a string of that. The ASCII configuration: no long
names, no relative paths, no extended characters.
-/

namespace FatFsParticle.Paths
open Dirs (Name Entry ddem named)
open Drives (TCHAR)

/-- `RDDEM`, which stands for `DDEM` in an entry. -/
abbrev rddem : BYTE := 0x05

/-- What `chk_chr` refuses in a name. -/
abbrev illegal : List BYTE :=
  [0x22, 0x2A, 0x2B, 0x2C, 0x3A, 0x3B, 0x3C, 0x3D, 0x3E, 0x3F, 0x5B, 0x5D, 0x7C, 0x7F]

def isSep (c : BYTE) : Bool := c = 0x2F ∨ c = 0x5C

/-- To upper case. -/
def upper (c : BYTE) : BYTE := if 0x61 ≤ c ∧ c ≤ 0x7A then c - 0x20 else c

/-- The loop of `create_name`, which writes at `i` of the name and not at `ni`: the name,
where it has come to, the last character and the path behind it. -/
def nameLoop (sfn : Nat → BYTE) (i ni : Nat) : List TCHAR → Option ((Nat → BYTE) × Nat × BYTE × List TCHAR)
  | [] => some (sfn, i, 0, [])
  | c :: p =>
    if c ≤ 0x20 then some (sfn, i, c, p)
    else if isSep c then some (sfn, i, c, p.dropWhile isSep)
    else if c = 0x2E ∨ ni ≤ i then
      if ni = 11 ∨ c ≠ 0x2E then none else nameLoop sfn 8 11 p
    else if 0x80 ≤ c then none
    else if c ∈ illegal then none
    else nameLoop (Function.update sfn i (upper c)) (i + 1) ni p

/-- `create_name`: the name, whether it is the last one, and the path behind it. -/
def createName (path : List TCHAR) : Option (Name × Bool × List TCHAR) :=
  match nameLoop (fun _ => 0x20) 0 8 path with
  | none => none
  | some (sfn, i, c, path) =>
    if i = 0 then none
    else
      let sfn := if sfn 0 = ddem then Function.update sfn 0 rddem else sfn
      some (fun j => sfn j, decide (c ≤ 0x20), path)

/-! ## Segments -/

/-- A character that a name may have. -/
def Legal (c : BYTE) : Prop := 0x20 < c ∧ c < 0x80 ∧ c ∉ illegal ∧ c ≠ 0x2E ∧ isSep c = false

instance (c : BYTE) : Decidable (Legal c) := inferInstanceAs (Decidable (_ ∧ _))

/-- A body of at most eight characters and, behind a dot, an extension of at most three. -/
structure Segment where
  body : List BYTE
  ext : Option (List BYTE)
  body_legal : ∀ c ∈ body, Legal c
  ext_legal : ∀ c ∈ ext.getD [], Legal c
  body_short : body.length ≤ 8
  ext_short : (ext.getD []).length ≤ 3
  some_ : body ≠ [] ∨ ext ≠ none

/-- How the segment is written. -/
def Segment.text (s : Segment) : List TCHAR :=
  s.body ++ match s.ext with
    | none => []
    | some ext => 0x2E :: ext

/-- Filled up with spaces. -/
def padded (n : Nat) (l : List BYTE) : List BYTE := l ++ List.replicate (n - l.length) 0x20

def Segment.bytes (s : Segment) : List BYTE :=
  padded 8 (s.body.map upper) ++ padded 3 ((s.ext.getD []).map upper)

/-- What an entry has. -/
def Segment.name (s : Segment) : Name := fun j => s.bytes.getD j 0

/-- What ends a segment: the character, and the path behind it. -/
inductive Closes : List TCHAR → BYTE → List TCHAR → Prop
  | nil : Closes [] 0 []
  | last {c : BYTE} {p : List TCHAR} (low : c ≤ 0x20) : Closes (c :: p) c p
  | sep {c : BYTE} {p : List TCHAR} (is : isSep c) : Closes (c :: p) c (p.dropWhile isSep)

/-- `l` written at `i`. -/
def write (sfn : Nat → BYTE) (i : Nat) (l : List BYTE) : Nat → BYTE :=
  fun j => if i ≤ j ∧ j < i + l.length then l.getD (j - i) 0 else sfn j

section
variable {sfn : Nat → BYTE} {i ni : Nat} {path tail rest l : List TCHAR} {c : BYTE}

@[simp] theorem write_nil : write sfn i [] = sfn := by
  funext j
  exact if_neg (by simp)

theorem write_cons (c : BYTE) (l : List BYTE) :
    write sfn i (c :: l) = write (Function.update sfn i c) (i + 1) l := by
  funext j
  unfold write
  rcases Nat.lt_trichotomy j i with less | rfl | more
  · rw [if_neg (by omega), if_neg (by omega), Function.update_of_ne (by omega)]
  · rw [if_pos (by simp), if_neg (by omega), Nat.sub_self, Function.update_self]
    rfl
  · by_cases inside : j < i + (c :: l).length
    · rw [if_pos ⟨by omega, inside⟩, if_pos (by simp at inside; omega)]
      obtain ⟨k, rfl⟩ : ∃ k, j = i + 1 + k := ⟨j - (i + 1), by omega⟩
      rw [show i + 1 + k - i = k + 1 by omega, Nat.add_sub_cancel_left]
      rfl
    · rw [if_neg (by omega), if_neg (by simp at inside ⊢; omega), Function.update_of_ne (by omega)]

/-- From `i` on, some legal characters are written, and then the segment ends, or the
extension begins. -/
def Parses (sfn : Nat → BYTE) (i ni : Nat) (path : List TCHAR) (r : (Nat → BYTE) × Nat × BYTE × List TCHAR) : Prop :=
  ∃ b tail, path = b ++ tail ∧ (∀ c ∈ b, Legal c) ∧ i + b.length ≤ ni ∧
    ((∃ c rest, Closes tail c rest ∧ r = (write sfn i (b.map upper), i + b.length, c, rest)) ∨
      (ni ≠ 11 ∧ ∃ p, tail = 0x2E :: p ∧ nameLoop (write sfn i (b.map upper)) 8 11 p = some r))

theorem parses_nil {r : (Nat → BYTE) × Nat × BYTE × List TCHAR} (inside : i ≤ ni) :
    Parses sfn i ni [] r ↔ r = (sfn, i, 0, []) := by
  constructor
  · rintro ⟨b, tail, is, -, -, closed⟩
    obtain ⟨rfl, rfl⟩ := List.append_eq_nil_iff.1 is.symm
    rcases closed with ⟨c, rest, closes, rfl⟩ | ⟨-, p, is, -⟩
    · cases closes
      simp
    · cases is
  · rintro rfl
    exact ⟨[], [], rfl, by simp, inside, .inl ⟨0, [], .nil, by simp⟩⟩

theorem closes_cons {p : List TCHAR} {r : (Nat → BYTE) × Nat × BYTE × List TCHAR} :
    (∃ c' rest, Closes (c :: p) c' rest ∧ r = (sfn, i, c', rest)) ↔
      (c ≤ 0x20 ∧ r = (sfn, i, c, p)) ∨ (isSep c ∧ r = (sfn, i, c, p.dropWhile isSep)) := by
  constructor
  · rintro ⟨c', rest, _ | low | is, rfl⟩
    · exact .inl ⟨low, rfl⟩
    · exact .inr ⟨is, rfl⟩
  · rintro (⟨low, rfl⟩ | ⟨is, rfl⟩)
    · exact ⟨c, p, .last low, rfl⟩
    · exact ⟨c, p.dropWhile isSep, .sep is, rfl⟩

theorem parses_cons {p : List TCHAR} {r : (Nat → BYTE) × Nat × BYTE × List TCHAR} (inside : i ≤ ni) :
    Parses sfn i ni (c :: p) r ↔ ((c ≤ 0x20 ∧ r = (sfn, i, c, p)) ∨ (isSep c ∧ r = (sfn, i, c, p.dropWhile isSep))) ∨
      (ni ≠ 11 ∧ c = 0x2E ∧ nameLoop sfn 8 11 p = some r) ∨
      (Legal c ∧ i < ni ∧ Parses (Function.update sfn i (upper c)) (i + 1) ni p r) := by
  rw [← closes_cons]
  constructor
  · rintro ⟨b, tail, is, legal, short, closed⟩
    cases b with
    | nil =>
      rw [List.nil_append] at is
      subst is
      rcases closed with ⟨c', rest, closes, rfl⟩ | ⟨other, p', is, found⟩
      · exact .inl ⟨c', rest, closes, by simp⟩
      · cases is
        exact .inr (.inl ⟨other, rfl, by simpa using found⟩)
    | cons x b =>
      obtain ⟨rfl, rfl⟩ := List.cons.inj is
      rw [List.length_cons] at short
      refine .inr (.inr ⟨legal _ List.mem_cons_self, by omega, b, tail, rfl,
        fun y mem => legal y (List.mem_cons_of_mem _ mem), by omega, ?_⟩)
      rw [List.map_cons, write_cons, List.length_cons, ← Nat.add_assoc, Nat.add_right_comm] at closed
      exact closed
  · rintro (⟨c', rest, closes, rfl⟩ | ⟨other, rfl, found⟩ | ⟨legal, less, b, tail, rfl, legal', short, closed⟩)
    · exact ⟨[], c :: p, rfl, by simp, inside, .inl ⟨c', rest, closes, by simp⟩⟩
    · exact ⟨[], 0x2E :: p, rfl, by simp, inside, .inr ⟨other, p, rfl, by simpa using found⟩⟩
    · refine ⟨c :: b, tail, rfl, ?_, by rw [List.length_cons]; omega, ?_⟩
      · intro y mem
        rcases List.mem_cons.1 mem with rfl | mem
        · exact legal
        · exact legal' y mem
      · rw [List.map_cons, write_cons, List.length_cons, ← Nat.add_assoc, Nat.add_right_comm]
        exact closed

theorem isSep_low (is : isSep c) : ¬c ≤ 0x20 := by
  simp only [isSep, Bool.decide_or, Bool.or_eq_true, decide_eq_true_eq] at is
  rcases is with rfl | rfl <;> decide

theorem nameLoop_iff (inside : i ≤ ni) {r : (Nat → BYTE) × Nat × BYTE × List TCHAR} :
    nameLoop sfn i ni path = some r ↔ Parses sfn i ni path r := by
  induction path generalizing sfn i with
  | nil =>
    rw [parses_nil inside, nameLoop, Option.some.injEq, eq_comm]
  | cons c p ih =>
    rw [parses_cons inside, nameLoop]
    by_cases low : c ≤ 0x20
    · have dot : c ≠ 0x2E := by rintro rfl; exact absurd low (by decide)
      have sep : ¬isSep c := fun is => isSep_low is low
      have out : ¬Legal c := fun legal => BitVec.not_lt.2 low legal.1
      rw [if_pos low]
      grind
    rw [if_neg low]
    by_cases sep : isSep c
    · have dot : c ≠ 0x2E := by rintro rfl; exact absurd sep (by decide)
      have out : ¬Legal c := fun legal => by rw [legal.2.2.2.2] at sep; cases sep
      rw [if_pos sep]
      grind
    rw [if_neg sep]
    by_cases dot : c = 0x2E
    · have out : ¬Legal c := fun legal => legal.2.2.2.1 dot
      rw [if_pos (.inl dot)]
      by_cases last : ni = 11
      · rw [if_pos (.inl last)]
        grind
      · rw [if_neg (by simp [last, dot])]
        grind
    by_cases full : ni ≤ i
    · rw [if_pos (.inr full), if_pos (.inr dot)]
      grind
    rw [if_neg (not_or.2 ⟨dot, full⟩), ← ih (Nat.not_le.1 full)]
    by_cases high : 0x80 ≤ c
    · have out : ¬Legal c := fun legal => BitVec.not_lt.2 high legal.2.1
      rw [if_pos high]
      grind
    rw [if_neg high]
    by_cases bad : c ∈ illegal
    · have out : ¬Legal c := fun legal => legal.2.2.1 bad
      rw [if_pos bad]
      grind
    have good : Legal c :=
      ⟨BitVec.not_le.1 low, BitVec.not_le.1 high, bad, dot, Bool.eq_false_iff.2 sep⟩
    rw [if_neg bad]
    grind

/-! ## create_name -/

theorem getD_padded {n j : Nat} (l : List BYTE) (inside : j < n) : (padded n l).getD j 0 = l.getD j 0x20 := by
  unfold padded
  by_cases there : j < l.length
  · rw [List.getD_eq_getElem _ _ (by simp; omega), List.getElem_append_left there, List.getD_eq_getElem _ _ there]
  · rw [List.getD_eq_getElem _ _ (by simp; omega), List.getElem_append_right (by omega), List.getElem_replicate,
      List.getD_eq_default _ _ (by omega)]

theorem length_padded {n : Nat} {l : List BYTE} (short : l.length ≤ n) : (padded n l).length = n := by
  simp [padded]
  omega

/-- What the loop has written. -/
theorem write_eq_padded {b e : List BYTE} (body : b.length ≤ 8) {j : Nat} (inside : j < 11) :
    write (write (fun _ => 0x20) 0 b) 8 e j = (padded 8 b ++ padded 3 e).getD j 0 := by
  have count := length_padded body
  unfold write
  by_cases first : j < 8
  · rw [if_neg (by omega), List.getD_append _ _ _ _ (by omega), getD_padded b first]
    by_cases there : j < b.length
    · rw [if_pos (by omega), Nat.sub_zero, List.getD_eq_getElem _ _ there, List.getD_eq_getElem _ _ there]
    · rw [if_neg (by omega), List.getD_eq_default _ _ (by omega)]
  · rw [List.getD_append_right _ _ _ _ (by omega), count, getD_padded e (by omega)]
    by_cases there : j - 8 < e.length
    · rw [if_pos (by omega), List.getD_eq_getElem _ _ there, List.getD_eq_getElem _ _ there]
    · rw [if_neg (by omega), if_neg (by omega), List.getD_eq_default _ _ (by omega)]

theorem Legal.upper_lt (legal : Legal c) : upper c < 0x80 := by
  revert c
  decide +kernel

theorem Segment.body_upper (s : Segment) : (s.body.map upper).length ≤ 8 := by
  rw [List.length_map]
  exact s.body_short

theorem Segment.ext_upper (s : Segment) : ((s.ext.getD []).map upper).length ≤ 3 := by
  rw [List.length_map]
  exact s.ext_short

theorem Segment.length_bytes (s : Segment) : s.bytes.length = 11 := by
  rw [Segment.bytes, List.length_append, length_padded s.body_upper, length_padded s.ext_upper]

theorem Segment.bytes_lt (s : Segment) : ∀ c ∈ s.bytes, c < 0x80 := by
  intro c mem
  simp only [Segment.bytes, padded, List.mem_append, List.mem_map, List.mem_replicate] at mem
  rcases mem with (⟨x, there, rfl⟩ | ⟨-, rfl⟩) | (⟨x, there, rfl⟩ | ⟨-, rfl⟩)
  · exact (s.body_legal x there).upper_lt
  · decide
  · exact (s.ext_legal x there).upper_lt
  · decide

theorem Segment.name_lt (s : Segment) (j : Fin 11) : s.name j < 0x80 := by
  have less : j.val < s.bytes.length := by
    rw [s.length_bytes]
    exact j.2
  unfold Segment.name
  rw [List.getD_eq_getElem _ _ less]
  exact s.bytes_lt _ (List.getElem_mem less)

/-- What the loop leaves of a segment. -/
def Segment.written (s : Segment) : Nat → BYTE :=
  write (write (fun _ => 0x20) 0 (s.body.map upper)) 8 ((s.ext.getD []).map upper)

def Segment.stop (s : Segment) : Nat :=
  match s.ext with
  | none => s.body.length
  | some ext => 8 + ext.length

theorem Segment.stop_ne (s : Segment) : s.stop ≠ 0 := by
  have some_ := s.some_
  unfold Segment.stop
  cases is : s.ext with
  | none => simpa [is] using some_
  | some ext => simp

theorem nameLoop_segment {r : (Nat → BYTE) × Nat × BYTE × List TCHAR} :
    (nameLoop (fun _ => 0x20) 0 8 path = some r ∧ r.2.1 ≠ 0) ↔ ∃ (s : Segment) (tail rest : List TCHAR) (c : BYTE),
      path = s.text ++ tail ∧ Closes tail c rest ∧ r = (s.written, s.stop, c, rest) := by
  rw [nameLoop_iff (Nat.zero_le 8)]
  constructor
  · rintro ⟨⟨b, tail, rfl, legal, short, ⟨c, rest, closes, rfl⟩ | ⟨-, p, rfl, found⟩⟩, some_⟩
    · rw [Nat.zero_add] at short
      have some' : b ≠ [] := by
        rintro rfl
        exact some_ rfl
      refine ⟨⟨b, none, legal, by simp, short, by simp, .inl some'⟩, tail, rest, c, ?_, closes, ?_⟩
      · simp [Segment.text]
      · simp [Segment.written, Segment.stop]
    · rw [Nat.zero_add] at short
      obtain ⟨e, tail, rfl, legal', short', ⟨c, rest, closes, rfl⟩ | ⟨last, -⟩⟩ := (nameLoop_iff (by omega)).1 found
      · exact ⟨⟨b, some e, legal, legal', short, by simpa using by omega, .inr (by simp)⟩, tail, rest, c,
          by simp [Segment.text], closes, rfl⟩
      · exact absurd rfl last
  · rintro ⟨s, tail, rest, c, rfl, closes, rfl⟩
    refine ⟨?_, s.stop_ne⟩
    have short := s.body_short
    cases is : s.ext with
    | none =>
      refine ⟨s.body, tail, ?_, s.body_legal, by omega, .inl ⟨c, rest, closes, ?_⟩⟩
      · simp [Segment.text, is]
      · simp [Segment.written, Segment.stop, is]
    | some ext =>
      have legal := s.ext_legal
      have short' := s.ext_short
      rw [is, Option.getD_some] at legal short'
      refine ⟨s.body, 0x2E :: (ext ++ tail), ?_, s.body_legal, by omega, .inr ⟨by decide, ext ++ tail, rfl, ?_⟩⟩
      · simp [Segment.text, is]
      rw [nameLoop_iff (by decide)]
      refine ⟨ext, tail, rfl, legal, by simpa using by omega, .inl ⟨c, rest, closes, ?_⟩⟩
      simp [Segment.written, Segment.stop, is]

theorem Segment.written_name (s : Segment) : (fun j : Fin 11 => s.written j) = s.name := by
  funext j
  exact write_eq_padded s.body_upper j.2

/-- No segment begins with the mark of a removed entry, which `create_name` would replace. -/
theorem Segment.written_live (s : Segment) : s.written 0 ≠ ddem := by
  have first : s.written 0 = s.name 0 := congrFun s.written_name 0
  have small := s.name_lt 0
  rw [← first] at small
  intro is
  rw [is] at small
  exact absurd small (by decide)

theorem segment_of_createName {fn : Name} {last : Bool} (made : createName path = some (fn, last, rest)) :
    ∃ (s : Segment) (tail : List TCHAR) (c : BYTE),
      path = s.text ++ tail ∧ Closes tail c rest ∧ last = decide (c ≤ 0x20) ∧ fn = s.name := by
  unfold createName at made
  split at made
  case h_1 => cases made
  case h_2 sfn i c rest' found =>
    split at made
    case isTrue => cases made
    case isFalse some_ =>
      obtain ⟨s, tail, rest'', c', text, closes, is⟩ := nameLoop_segment.1 ⟨found, some_⟩
      cases is
      cases made
      exact ⟨s, tail, c, text, closes, rfl, by rw [if_neg s.written_live, s.written_name]⟩

theorem createName_segment (s : Segment) {tail : List TCHAR} {c : BYTE} (closes : Closes tail c rest) :
    createName (s.text ++ tail) = some (s.name, decide (c ≤ 0x20), rest) := by
  obtain ⟨found, some_⟩ := nameLoop_segment.2 ⟨s, tail, rest, c, rfl, closes, rfl⟩
  unfold createName
  rw [found]
  dsimp only
  rw [if_neg some_, if_neg s.written_live, s.written_name]

/-- The names that `create_name` makes, and of which paths. -/
theorem create_name_iff {fn : Name} {last : Bool} :
    createName path = some (fn, last, rest) ↔
      ∃ (s : Segment) (tail : List TCHAR) (c : BYTE),
        path = s.text ++ tail ∧ Closes tail c rest ∧ last = decide (c ≤ 0x20) ∧ fn = s.name := by
  constructor
  · exact segment_of_createName
  · rintro ⟨s, tail, c, rfl, closes, rfl, rfl⟩
    exact createName_segment s closes

/-! ## get_fileinfo -/

theorem copyName_append (i : Nat) (l m : List BYTE) :
    Scan.copyName i (l ++ m) = Scan.copyName i l ++ Scan.copyName (i + l.length) m := by
  induction l generalizing i with
  | nil => rfl
  | cons c l ih =>
    rw [List.cons_append, Scan.copyName, Scan.copyName, ih, List.length_cons, Nat.add_right_comm, ← Nat.add_assoc]
    split_ifs <;> rfl

theorem copyName_spaces (i n : Nat) : Scan.copyName i (List.replicate n 0x20) = [] := by
  induction n generalizing i with
  | zero => rfl
  | succ n ih => exact (if_pos rfl).trans (ih (i + 1))

theorem copyName_plain {i : Nat} {l : List BYTE} (plain : ∀ c ∈ l, c ≠ 0x20 ∧ c ≠ Scan.rddem)
    (apart : i + l.length ≤ 8 ∨ 8 < i) : Scan.copyName i l = l := by
  induction l generalizing i with
  | nil => rfl
  | cons c l ih =>
    obtain ⟨space, mark⟩ := plain c List.mem_cons_self
    rw [List.length_cons] at apart
    rw [Scan.copyName, if_neg space]
    dsimp only
    rw [if_neg mark, if_neg (by omega), ih (fun x mem => plain x (List.mem_cons_of_mem c mem)) (by omega)]

/-- `get_fileinfo` of the bytes of a sector. -/
theorem entryName_eq (win : Usage.Sector) (dir : Nat) :
    Times.entryName win dir = Scan.copyName 0 ((List.range 11).map fun i => win (dir + i)) := by
  have from_ (k n : Nat) : ((List.range' k n).flatMap fun i =>
      let c := win (dir + i)
      if c = 0x20 then []
      else
        let c := if c = 0x05 then 0xE5 else c
        if i = 8 then [0x2E, c] else [c]) = Scan.copyName k ((List.range' k n).map fun i => win (dir + i)) := by
    induction n generalizing k with
    | zero => rfl
    | succ n ih =>
      rw [List.range'_succ, List.flatMap_cons, ih, List.map_cons, Scan.copyName]
      dsimp only
      split_ifs <;> rfl
  unfold Times.entryName
  rw [List.range_eq_range']
  exact from_ 0 11

/-- How a listing shows the segment. -/
def Segment.shown (s : Segment) : List TCHAR :=
  s.body.map upper ++ match (s.ext.getD []).map upper with
    | [] => []
    | c :: ext => 0x2E :: c :: ext

theorem Legal.upper_plain (legal : Legal c) : upper c ≠ 0x20 ∧ upper c ≠ Scan.rddem := by
  revert c
  decide +kernel

theorem copyName_segment (s : Segment) : Scan.copyName 0 s.bytes = s.shown := by
  have plain {l : List BYTE} (legal : ∀ c ∈ l, Legal c) : ∀ c ∈ l.map upper, c ≠ 0x20 ∧ c ≠ Scan.rddem := by
    intro c mem
    obtain ⟨x, there, rfl⟩ := List.mem_map.1 mem
    exact (legal x there).upper_plain
  have body := plain s.body_legal
  have ext := plain s.ext_legal
  unfold Segment.bytes Segment.shown
  rw [copyName_append, length_padded s.body_upper]
  unfold padded
  rw [copyName_append, copyName_append, copyName_spaces, copyName_spaces, List.append_nil, List.append_nil,
    copyName_plain body (.inl (by rw [Nat.zero_add]; exact s.body_upper))]
  congr 1
  cases is : (s.ext.getD []).map upper with
  | nil => rfl
  | cons c l =>
    rw [is] at ext
    obtain ⟨space, mark⟩ := ext c List.mem_cons_self
    rw [Nat.zero_add, Scan.copyName, if_neg space]
    dsimp only
    rw [if_neg mark, if_pos rfl, copyName_plain (fun x mem => ext x (List.mem_cons_of_mem c mem)) (.inr (by decide))]

theorem fname_segment {s : Segment} {e : Entry} (is : named s.name e) : e.fileinfo.fname = s.shown := by
  have name : e.fileinfo.fname = Times.entryName e.sector 0 := rfl
  rw [name, entryName_eq, ← copyName_segment]
  congr 1
  apply List.ext_getElem
  · rw [s.length_bytes, List.length_map, List.length_range]
  intro j less less'
  rw [List.length_map, List.length_range] at less
  have byte := Dirs.named_iff.1 is ⟨j, less⟩
  rw [List.getElem_map, List.getElem_range, Nat.zero_add]
  unfold Entry.sector
  rw [dif_pos (by omega)]
  exact byte.trans (List.getD_eq_getElem _ _ less')

/-! ## There and back -/

theorem Legal.upper (legal : Legal c) : Legal (upper c) := by
  revert c
  decide +kernel

theorem upper_upper : upper ∘ upper = upper := by
  have all : ∀ c, upper (upper c) = upper c := by decide +kernel
  exact funext all

/-- The segment that a listing shows. -/
def Segment.again (s : Segment) (some_ : s.shown ≠ []) : Segment where
  body := s.body.map Paths.upper
  ext := if s.ext.getD [] = [] then none else some ((s.ext.getD []).map Paths.upper)
  body_legal := by
    intro c mem
    obtain ⟨x, there, rfl⟩ := List.mem_map.1 mem
    exact (s.body_legal x there).upper
  ext_legal := by
    intro c mem
    split at mem
    case isTrue => simp at mem
    case isFalse =>
      obtain ⟨x, there, rfl⟩ := List.mem_map.1 mem
      exact (s.ext_legal x there).upper
  body_short := s.body_upper
  ext_short := by
    split
    case isTrue => simp
    case isFalse => exact s.ext_upper
  some_ := by
    by_cases none_ : s.ext.getD [] = []
    · left
      simpa [Segment.shown, none_] using some_
    · right
      simp [none_]

theorem Segment.again_text (s : Segment) (some_ : s.shown ≠ []) : (s.again some_).text = s.shown := by
  have ext : (s.again some_).ext =
      if s.ext.getD [] = [] then none else some ((s.ext.getD []).map Paths.upper) := rfl
  have body : (s.again some_).body = s.body.map Paths.upper := rfl
  unfold Segment.text Segment.shown
  rw [ext, body]
  cases s.ext.getD [] <;> rfl

theorem Segment.again_name (s : Segment) (some_ : s.shown ≠ []) : (s.again some_).name = s.name := by
  have ext : (s.again some_).ext =
      if s.ext.getD [] = [] then none else some ((s.ext.getD []).map Paths.upper) := rfl
  have body : (s.again some_).body = s.body.map Paths.upper := rfl
  have idem (l : List BYTE) : (l.map Paths.upper).map Paths.upper = l.map Paths.upper := by
    rw [List.map_map, upper_upper]
  have same : (s.again some_).bytes = s.bytes := by
    unfold Segment.bytes
    rw [ext, body, idem]
    by_cases none_ : s.ext.getD [] = []
    · rw [if_pos none_, none_]
      rfl
    · rw [if_neg none_, Option.getD_some, idem]
  funext j
  rw [Segment.name, same]
  rfl

theorem Segment.shown_nil (s : Segment) : s.shown = [] ↔ s.text = [0x2E] := by
  have some_ := s.some_
  unfold Segment.shown Segment.text
  cases is : s.ext with
  | none =>
    have dot : s.body ≠ [0x2E] := by
      intro is'
      have legal := s.body_legal 0x2E (by simp [is'])
      exact legal.2.2.2.1 rfl
    simp only [is, ne_eq, not_true_eq_false, or_false] at some_
    rw [Option.getD_none, List.map_nil, List.append_nil, List.append_nil, List.map_eq_nil_iff]
    exact iff_of_false some_ dot
  | some ext => cases ext <;> simp [List.append_eq_singleton_iff]

/-- The name of an entry, as a listing shows it, leads back to the entry. Only `.` makes
an entry without a name, which a listing takes for the end of the directory. -/
theorem shown_name_leads_back {fn : Name} {last : Bool} {e : Entry} (made : createName path = some (fn, last, rest))
    (is : named fn e) :
    (e.fileinfo.fname = [] ∧ ∃ tail c, path = 0x2E :: tail ∧ Closes tail c rest) ∨
      (e.fileinfo.fname ≠ [] ∧ createName e.fileinfo.fname = some (fn, true, [])) := by
  obtain ⟨s, tail, c, rfl, closes, -, rfl⟩ := segment_of_createName made
  rw [fname_segment is]
  by_cases none_ : s.shown = []
  · refine .inl ⟨none_, tail, c, ?_, closes⟩
    rw [s.shown_nil.1 none_]
    rfl
  · have back := createName_segment (s.again none_) Closes.nil
    rw [s.again_text none_, List.append_nil, s.again_name none_] at back
    exact .inr ⟨none_, back⟩

end

/-- `a.txt/x` -/
theorem shown_name_leads_back_sample : ∃ (fn : Name) (e : Entry), named fn e ∧
    createName [0x61, 0x2E, 0x74, 0x78, 0x74, 0x2F, 0x78] = some (fn, false, [0x78]) ∧
    createName e.fileinfo.fname = some (fn, true, []) := by
  let path : List TCHAR := [0x61, 0x2E, 0x74, 0x78, 0x74, 0x2F, 0x78]
  let e : Entry := fun j => [0x41, 0x20, 0x20, 0x20, 0x20, 0x20, 0x20, 0x20, 0x54, 0x58, 0x54].getD j 0
  have made : createName path = some (fun j => e (j.castLE (by decide)), false, [0x78]) := by decide
  have is : named (fun j => e (j.castLE (by decide))) e := by decide
  obtain ⟨-, tail, c, dot, -⟩ | ⟨-, back⟩ := shown_name_leads_back made is
  · exact absurd (List.cons.inj dot).1 (by decide)
  · exact ⟨_, e, is, made, back⟩

end FatFsParticle.Paths
