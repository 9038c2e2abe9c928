import FatFsParticle.Files.Seeking
import FatFsParticle.Files.Footprint

/-!
# f_getline

`f_getline` looks for the end of the line in the whole buffer. `f_read` fills as much of it as
the file has bytes left, so in a file without a last newline the end that it finds may be one
that was in the buffer before.
-/

namespace FatFsParticle.Files
open Interact Program Cells Volume

variable {Name : Type}

abbrev newline : BYTE := 0x0A
abbrev carriageReturn : BYTE := 0x0D

/-! ## The function -/

/-- The buffer with the bytes `got` read into it. -/
def fillLine (buf got : List BYTE) : List BYTE :=
  (got ++ (buf.set 0 0).drop got.length).set (buf.length - 1) 0

/-- The string ended before the newline at `i`, and before a carriage return. -/
def endLine (buf : List BYTE) (i : Nat) : List BYTE :=
  if 0 < i ∧ buf[i - 1]? = some carriageReturn then buf.set (i - 1) 0 else buf.set i 0

/-- `f_getline` returns its result, the file object and the buffer of `len` bytes. -/
def fGetline [DecidableEq Name] (fp : FIL Name) (buf : List BYTE) :
    Prog Name (FRESULT × FIL Name × List BYTE) := do
  let len := buf.length
  let startPos := fp.fptr
  let (result, fp, got) ← fRead fp len
  let buf := fillLine buf got
  if result ≠ .ok then pure (result, fp, buf)
  else if got = [] then pure (.invalidObject, fp, buf)
  else
    let i := buf.idxOf newline
    if len ≤ i then pure (.invalidParameter, fp, buf)
    else do
      let buf := endLine buf i
      let (result, fp) ← fLseek fp ((startPos + i + 1) % 2 ^ 32)
      pure (result, fp, buf)

/-! ## What it should return -/

/-- Where the line ends that `rest` begins with, if there is room for it in `len` bytes. -/
def lineEnd (rest : List BYTE) (len : Nat) : Option Nat :=
  if newline ∈ rest ∧ rest.idxOf newline ≤ len - 2 then some (rest.idxOf newline) else none

/-- The line without a carriage return at its end. -/
def chomp (line : List BYTE) : List BYTE :=
  if line.getLast? = some carriageReturn then line.dropLast else line

/-- The string in a buffer. -/
def cString (buf : List BYTE) : List BYTE := buf.takeWhile fun b => b ≠ 0

/-! ## The buffer -/

variable {buf rest line : List BYTE} {k m : Nat}

@[simp] theorem length_fillLine (buf : List BYTE) {got : List BYTE} (le : got.length ≤ buf.length) :
    (fillLine buf got).length = buf.length := by
  unfold fillLine
  rw [List.length_set, List.length_append, List.length_drop, List.length_set]
  omega

/-- The buffer begins with what was read. -/
theorem take_fillLine (buf rest : List BYTE) (read : m ≤ rest.length) (room : m ≤ buf.length - 1) :
    (fillLine buf (rest.take buf.length)).take m = rest.take m := by
  unfold fillLine
  rw [List.take_set_of_le room, List.take_append_of_le_length, List.take_take, Nat.min_eq_left]
  · omega
  · rw [List.length_take]
    omega

theorem idxOf_take {l : List BYTE} {a : BYTE} (mem : a ∈ l.take m) : (l.take m).idxOf a = l.idxOf a := by
  have whole : (l.take m ++ l.drop m).idxOf a = (l.take m).idxOf a := List.idxOf_append_of_mem mem
  rw [List.take_append_drop] at whole
  exact whole.symm

theorem mem_take_idxOf {l : List BYTE} {a : BYTE} (mem : a ∈ l) : a ∈ l.take (l.idxOf a + 1) := by
  have lt := List.idxOf_lt_length_iff.2 mem
  rw [List.mem_take_iff_getElem]
  exact ⟨l.idxOf a, by omega, List.getElem_idxOf lt⟩

theorem lineEnd_some (found : lineEnd rest m = some k) :
    newline ∈ rest ∧ rest.idxOf newline = k ∧ k ≤ m - 2 := by
  unfold lineEnd at found
  split at found
  · rename_i both
    cases found
    exact ⟨both.1, rfl, both.2⟩
  · cases found

/-- The newline of a line that fits is the one found. -/
theorem idxOf_fillLine (long : 2 ≤ buf.length) (found : lineEnd rest buf.length = some k) :
    (fillLine buf (rest.take buf.length)).idxOf newline = k ∧ k + 1 ≤ rest.length ∧
      k + 1 ≤ buf.length - 1 := by
  obtain ⟨mem, here, fits⟩ := lineEnd_some found
  have read := List.idxOf_lt_length_iff.2 mem
  have same := take_fillLine buf rest (m := k + 1) (by omega) (by omega)
  have mem' : newline ∈ rest.take (k + 1) := here ▸ mem_take_idxOf mem
  have first := idxOf_take mem'
  rw [← same] at mem' first
  rw [← idxOf_take mem', first]
  exact ⟨here, by omega, by omega⟩

theorem take_set_here {l : List BYTE} (lt : m < l.length) (b : BYTE) :
    (l.set m b).take (m + 1) = l.take m ++ [b] := by
  rw [List.take_add_one, List.take_set_of_le (Nat.le_refl m), List.getElem?_set_self lt]
  rfl

/-- After the end of the line is put there, the buffer holds the line as a string. -/
theorem endLine_fillLine (long : 2 ≤ buf.length) (found : lineEnd rest buf.length = some k) :
    chomp (rest.take k) ++ [0] <+: endLine (fillLine buf (rest.take buf.length)) k := by
  obtain ⟨-, read, room⟩ := idxOf_fillLine long found
  have length : (fillLine buf (rest.take buf.length)).length = buf.length :=
    length_fillLine buf (by rw [List.length_take]; omega)
  have same := take_fillLine buf rest (m := k) (by omega) (by omega)
  generalize fillLine buf (rest.take buf.length) = filled at length same ⊢
  have last (positive : 0 < k) : (rest.take k).getLast? = filled[k - 1]? := by
    rw [← same, List.getLast?_take, if_neg (by omega), List.getElem?_eq_getElem (by omega)]
    rfl
  unfold endLine
  split
  · rename_i cr
    have line : chomp (rest.take k) = filled.take (k - 1) := by
      unfold chomp
      rw [last cr.1, if_pos cr.2, ← same, List.dropLast_take (by omega)]
    rw [line, ← take_set_here (by omega)]
    exact List.take_prefix _ _
  · rename_i plain
    have line : chomp (rest.take k) = filled.take k := by
      unfold chomp
      rw [if_neg, same]
      intro cr
      rcases Nat.eq_zero_or_pos k with zero | positive
      · rw [zero] at cr
        cases cr
      · rw [last positive] at cr
        exact plain ⟨positive, cr⟩
    rw [line, ← take_set_here (by omega)]
    exact List.take_prefix _ _

theorem cString_prefix (h : line ++ [0] <+: buf) : cString buf = cString line := by
  obtain ⟨rest, rfl⟩ := h
  unfold cString
  rw [List.append_assoc]
  induction line with
  | nil => rfl
  | cons b line ih =>
    rw [List.cons_append, List.takeWhile_cons, List.takeWhile_cons, ih]

/-- A buffer filled up to its last byte holds nothing but what was read. -/
theorem fillLine_full (full : buf.length - 1 ≤ rest.length) (some_ : 0 < buf.length) :
    fillLine buf (rest.take buf.length) = rest.take (buf.length - 1) ++ [0] := by
  have length : (fillLine buf (rest.take buf.length)).length = buf.length :=
    length_fillLine buf (by rw [List.length_take]; omega)
  have same := take_fillLine buf rest full (Nat.le_refl _)
  rw [← same]
  unfold fillLine at length ⊢
  generalize rest.take buf.length ++ (buf.set 0 0).drop (rest.take buf.length).length = l at length ⊢
  rw [List.length_set] at length
  rw [List.take_set_of_le (Nat.le_refl _), ← take_set_here (by omega), List.take_of_length_le]
  rw [List.length_set]
  omega

/-- Where no line ends, and the file did not end before the buffer, none is found. -/
theorem no_newline (long : 2 ≤ buf.length) (none_ : lineEnd rest buf.length = none)
    (full : newline ∉ rest → buf.length - 1 ≤ rest.length) :
    buf.length - 1 ≤ rest.length ∧ newline ∉ fillLine buf (rest.take buf.length) := by
  have away : newline ∉ rest.take (buf.length - 1) := by
    intro mem
    have first := idxOf_take mem
    have lt := List.idxOf_lt_length_iff.2 mem
    rw [List.length_take] at lt
    have found : lineEnd rest buf.length = some (rest.idxOf newline) :=
      if_pos ⟨List.mem_of_mem_take mem, by omega⟩
    rw [found] at none_
    cases none_
  have covers : buf.length - 1 ≤ rest.length := by
    by_cases mem : newline ∈ rest
    · by_contra short
      rw [List.take_of_length_le (by omega)] at away
      exact away mem
    · exact full mem
  refine ⟨covers, ?_⟩
  rw [fillLine_full covers (by omega), List.mem_append]
  rintro (mem | mem)
  · exact away mem
  · cases List.mem_singleton.1 mem

/-- Newlines left in the buffer are found where the file ends before it. -/
theorem stale_newline {len : Nat} (some_ : 0 < rest.length) (short : rest.length ≤ len - 2) :
    newline ∈ fillLine (List.replicate len newline) (rest.take len) := by
  unfold fillLine
  rw [List.take_of_length_le (by omega), List.length_replicate]
  apply List.mem_of_getElem? (i := rest.length)
  rw [List.getElem?_set_ne (by omega), List.getElem?_append_right (Nat.le_refl _), Nat.sub_self,
    List.getElem?_drop, Nat.add_zero, List.getElem?_set_ne (by omega), List.getElem?_replicate,
    if_pos (by omega)]

/-! ## A call -/

/-- An open file that can be read on: its chain covers it, and no call with it failed. -/
structure FIL.Readable (fp : FIL Name) (v : Volume Name) : Prop where
  sound : fp.Sound v
  attached : fp.attached = true
  err : fp.err = .ok
  mode : fp.has faRead = true
  within : fp.fptr ≤ fp.objsize
  covered : fp.objsize ≤ fp.clusters * fp.bcs
  short : fp.objsize < 2 ^ 32

/-- The bytes from the read position on. -/
def FIL.ahead (fp : FIL Name) (v : Volume Name) : List BYTE :=
  slice (fp.bytes v) fp.fptr (fp.objsize - fp.fptr)

/-- How a call ends. -/
structure GetlineEnd (fp : FIL Name) (buf : List BYTE) (v : Volume Name)
    (r : FRESULT × FIL Name × List BYTE) (v' : Volume Name) : Prop where
  touches : Touches fp.name v v'
  empty : fp.ahead v = [] → r.1 = .invalidObject ∧ r.2.2 = fillLine buf [] ∧ r.2.1.fptr = fp.fptr ∧
    r.2.1.objsize = fp.objsize
  missing : fp.ahead v ≠ [] → newline ∉ fillLine buf ((fp.ahead v).take buf.length) →
    r.1 = .invalidParameter ∧ r.2.2 = fillLine buf ((fp.ahead v).take buf.length) ∧
      r.2.1.fptr = fp.fptr + min buf.length (fp.ahead v).length ∧ r.2.1.objsize = fp.objsize
  found : ∀ i, fp.ahead v ≠ [] → newline ∈ fillLine buf ((fp.ahead v).take buf.length) →
    (fillLine buf ((fp.ahead v).take buf.length)).idxOf newline = i → r.1 = .ok ∧
      r.2.2 = endLine (fillLine buf ((fp.ahead v).take buf.length)) i ∧
      (fp.fptr + i + 1 ≤ fp.objsize → r.2.1.fptr = fp.fptr + i + 1 ∧ r.2.1.objsize = fp.objsize)

variable [DecidableEq Name] {G : Answers Name} {fp : FIL Name} {s : Snap Name}

theorem wp_fGetline (well : G.Healthy) (h : fp.Readable s.vol) (some_ : 0 < buf.length) :
    (fGetline fp buf).wp (rules G) (fun r t => GetlineEnd fp buf s.vol r t.vol) s := by
  unfold fGetline
  rw [wp_bind]
  apply wp_mono (wp_fRead h.sound)
  rintro ⟨res, fp₁, got⟩ t end_
  dsimp only at end_ ⊢
  cases end_ with
  | refused _ _ refused => exact (refused well h.attached h.err h.mode).elim
  | @looped _ _ t u vol attached err loop =>
  have within := h.within
  have ok : res = .ok := loop.healthy well (by have := h.covered; omega)
  subst ok
  have name := loop.like.name
  have read : got = (fp.ahead s.vol).take buf.length := by
    rw [loop.got rfl, vol]
    unfold FIL.ahead
    rcases Nat.le_total buf.length (fp.objsize - fp.fptr) with le | le
    · rw [take_slice _ _ le, Nat.min_eq_left le]
    · rw [Nat.min_eq_right le, List.take_of_length_le (by rwa [length_slice])]
  have touches : Touches fp.name s.vol u.vol := vol ▸ loop.touches
  have length : (fp.ahead s.vol).length = fp.objsize - fp.fptr := length_slice _ _ _
  have fptr : fp₁.fptr = fp.fptr + min buf.length (fp.ahead s.vol).length := by
    rw [loop.fptr rfl, length]
  have none_ : got = [] ↔ fp.ahead s.vol = [] := by
    rw [read, List.take_eq_nil_iff]
    exact or_iff_right (by omega)
  have filled : (fillLine buf got).length = buf.length := by
    rw [length_fillLine]
    rw [read, List.length_take]
    omega
  rw [if_neg (by simp)]
  split
  · rename_i empty
    have nothing := none_.1 empty
    refine ⟨touches, fun _ => ⟨rfl, by rw [empty], ?_, loop.objsize⟩, fun some_ => absurd nothing some_,
      fun _ some_ => absurd nothing some_⟩
    rw [fptr, nothing, List.length_nil, Nat.min_zero, Nat.add_zero]
  rename_i more
  rw [none_] at more
  subst read
  have bound := List.idxOf_lt_length_iff (l := fillLine buf ((fp.ahead s.vol).take buf.length))
    (a := newline)
  rw [filled] at bound
  split
  · rename_i beyond
    have missing := mt bound.2 (Nat.not_lt.2 beyond)
    exact ⟨touches, fun no => absurd no more, fun _ _ => ⟨rfl, rfl, fptr, loop.objsize⟩,
      fun _ _ mem => absurd mem missing⟩
  · rename_i inside
    have mem := bound.1 (Nat.lt_of_not_le inside)
    have below : fp₁.SoundBelow u.vol := (loop.sound rfl).below
    have covered : fp₁.objsize ≤ fp₁.clusters * fp₁.bcs := by
      rw [loop.objsize, loop.clusters, loop.like.bcs]
      exact h.covered
    rw [wp_bind]
    apply wp_mono (wp_fLseek (s := u.logged _) well (loop.like.attached.trans attached)
      ((loop.err rfl).trans err) below covered _)
    rintro ⟨res, fp'⟩ u' ⟨ok, touches', sought⟩
    dsimp only at ok sought ⊢
    refine ⟨touches.trans (name ▸ touches'), fun no => absurd no more, fun _ no => absurd mem no, ?_⟩
    intro i _ _ here
    rw [here] at sought ⊢
    refine ⟨ok, rfl, fun room => ?_⟩
    have short := h.short
    rw [Nat.mod_eq_of_lt (by omega)] at sought
    have done := sought (by rw [loop.objsize]; exact room)
    exact ⟨done.fptr, done.objsize.trans loop.objsize⟩

theorem fGetline_halts (fp : FIL Name) (buf : List BYTE) : (fGetline fp buf).Halts := by
  have reads : (fRead fp buf.length).Halts :=
    (fRead_emits (E := fun _ => True) (n := fp.name) (fun _ _ _ => trivial) (fun _ _ => trivial) rfl _).halts
  have seeks (fp : FIL Name) (ofs : Nat) : (fLseek fp ofs).Halts :=
    (fLseek_emits (E := fun _ => True) (n := fp.name) (fun _ _ _ => trivial) (fun _ _ => trivial) rfl _).halts
  apply halts_bind reads
  rintro ⟨res, fp₁, got⟩
  dsimp only
  apply halts_ite (halts_pure _)
  apply halts_ite (halts_pure _)
  apply halts_ite (halts_pure _)
  exact halts_bind (seeks _ _) fun _ => halts_pure _

/-! ## Lines -/

variable {v v' : Volume Name} {r : FRESULT × FIL Name × List BYTE}

/-- The result, the string and the file pointer, as they should be. -/
def lineResult (fp : FIL Name) (v : Volume Name) (len : Nat) : FRESULT × List BYTE × Nat :=
  match lineEnd (fp.ahead v) len with
  | some k => (.ok, cString (chomp ((fp.ahead v).take k)), fp.fptr + k + 1)
  | none =>
    if fp.ahead v = [] then (.invalidObject, [], fp.fptr)
    else (.invalidParameter, cString ((fp.ahead v).take (len - 1)), fp.fptr + min len (fp.ahead v).length)

/-- The next line in the buffer and the file pointer after it, or an error. -/
def NextLine (fp : FIL Name) (v : Volume Name) (len : Nat) (r : FRESULT × FIL Name × List BYTE) : Prop :=
  match lineEnd (fp.ahead v) len with
  | some k => r.1 = .ok ∧ chomp ((fp.ahead v).take k) ++ [0] <+: r.2.2 ∧ r.2.1.fptr = fp.fptr + k + 1
  | none => r.1 ≠ .ok

/-- The file ends without a newline, before the buffer does. -/
def Unended (rest : List BYTE) (len : Nat) : Prop :=
  0 < rest.length ∧ rest.length ≤ len - 2 ∧ newline ∉ rest

theorem cString_empty (long : 2 ≤ buf.length) : cString (fillLine buf []) = [] := by
  match buf, long with
  | _ :: _ :: _, _ => rfl

omit [DecidableEq Name] in
theorem GetlineEnd.right (h : GetlineEnd fp buf v r v') (long : 2 ≤ buf.length)
    (ended : ¬Unended (fp.ahead v) buf.length) : NextLine fp v buf.length r ∧
      (r.1, cString r.2.2, r.2.1.fptr) = lineResult fp v buf.length ∧ r.2.1.objsize = fp.objsize := by
  unfold NextLine lineResult
  by_cases empty : fp.ahead v = []
  · obtain ⟨res, buf', fptr, objsize⟩ := h.empty empty
    have none_ : lineEnd (fp.ahead v) buf.length = none := by
      rw [empty]
      rfl
    rw [none_, res, buf', fptr, cString_empty long]
    exact ⟨by simp, by rw [if_pos empty], objsize⟩
  have some_ := List.length_pos_iff.2 empty
  cases found : lineEnd (fp.ahead v) buf.length with
  | some k =>
    obtain ⟨here, read, room⟩ := idxOf_fillLine long found
    have filled : (fillLine buf ((fp.ahead v).take buf.length)).length = buf.length :=
      length_fillLine buf (by rw [List.length_take]; omega)
    have mem : newline ∈ fillLine buf ((fp.ahead v).take buf.length) :=
      List.idxOf_lt_length_iff.1 (by rw [here, filled]; omega)
    have string := endLine_fillLine long found
    obtain ⟨res, buf', place⟩ := h.found k empty mem here
    have length : (fp.ahead v).length = fp.objsize - fp.fptr := length_slice _ _ _
    obtain ⟨fptr, objsize⟩ := place (by omega)
    rw [res, buf', fptr, cString_prefix string]
    exact ⟨⟨rfl, string, rfl⟩, rfl, objsize⟩
  | none =>
    have full (none_ : newline ∉ fp.ahead v) : buf.length - 1 ≤ (fp.ahead v).length := by
      by_contra short
      exact ended ⟨some_, by omega, none_⟩
    obtain ⟨covers, missing⟩ := no_newline long found full
    obtain ⟨res, buf', fptr, objsize⟩ := h.missing empty missing
    rw [res, buf', fptr, fillLine_full covers (by omega), cString_prefix (List.prefix_refl _)]
    exact ⟨by simp, by rw [if_neg empty], objsize⟩

/-- `f_getline` returns the next line of the file, and nothing that was in the buffer. -/
def GetlineRight {σ : Type} (host : Host Name σ) (fp : FIL Name) (len : Nat) (w : World Name σ) : Prop :=
  (∀ buf : List BYTE, buf.length = len → ∃ r w', exec host (fGetline fp buf) w = some (r, w') ∧
    NextLine fp w.vol len r ∧ r.2.1.objsize = fp.objsize ∧ w'.vol.size fp.name = w.vol.size fp.name) ∧
  ∀ (buf buf' : List BYTE) r r' w' w'', buf.length = len → buf'.length = len →
    exec host (fGetline fp buf) w = some (r, w') → exec host (fGetline fp buf') w = some (r', w'') →
    r.1 = r'.1 ∧ cString r.2.2 = cString r'.2.2 ∧ r.2.1.fptr = r'.2.1.fptr

/-- It does so if and only if the file does not end in the middle of a line that would fit. -/
theorem fGetline_right_iff {σ : Type} {host : Host Name σ} {w : World Name σ} {len : Nat}
    (well : ∀ o e, healthy o (host o e).1) (open_ : fp.Readable w.vol) (long : 2 ≤ len) :
    GetlineRight host fp len w ↔ ¬Unended (fp.ahead w.vol) len := by
  have ends (buf : List BYTE) (length : buf.length = len) : ∃ r w',
      exec host (fGetline fp buf) w = some (r, w') ∧ GetlineEnd fp buf w.vol r w'.vol :=
    exec_total (fGetline_halts fp buf) well
      (wp_fGetline (s := w.snap) (fun _ _ => id) open_ (by omega))
  constructor
  · rintro ⟨lines, -⟩ ⟨some_, short, missing⟩
    have length := List.length_replicate (n := len) (a := newline)
    obtain ⟨r, w', run, next, -⟩ := lines _ length
    obtain ⟨r', w'', run', end_⟩ := ends _ length
    cases run.symm.trans run'
    have found := end_.found _ (List.length_pos_iff.1 some_) (by rw [length]; exact stale_newline some_ short) rfl
    have none_ : lineEnd (fp.ahead w.vol) len = none := if_neg fun both => missing both.1
    unfold NextLine at next
    rw [none_] at next
    exact next found.1
  · intro ended
    constructor
    · rintro buf rfl
      obtain ⟨r, w', run, end_⟩ := ends buf rfl
      obtain ⟨next, -, objsize⟩ := end_.right long ended
      exact ⟨r, w', run, next, objsize, end_.touches.same_size open_.sound.entry⟩
    · rintro buf buf' r r' w' w'' rfl length run run'
      obtain ⟨_, _, run₁, end₁⟩ := ends buf rfl
      obtain ⟨_, _, run₂, end₂⟩ := ends buf' length
      cases run.symm.trans run₁
      cases run'.symm.trans run₂
      obtain ⟨-, same, -⟩ := end₁.right long ended
      obtain ⟨-, same', -⟩ := end₂.right (by omega) (by rwa [length])
      rw [length, ← same] at same'
      obtain ⟨result, string, fptr⟩ : _ ∧ _ ∧ _ := by simpa only [Prod.mk.injEq] using same'
      exact ⟨result.symm, string.symm, fptr.symm⟩

/-- A file of two bytes and no newline, open for reading and writing. -/
def note : FIL Unit := .opened () 1 (.sample [0x61, 0x62]) (faRead ||| faWrite)

abbrev notes : World Unit Unit := sampleWorld fun _ => some [0x61, 0x62]

/-- A newline that was in the buffer before makes a line of the end of the file, and the file
one byte longer. -/
theorem fGetline_stale : ¬GetlineRight (sampleHost (.error, none)) note 5 notes := by
  rintro ⟨lines, -⟩
  obtain ⟨r, w', run, -, objsize, -⟩ := lines [0x0A, 0x0A, 0x0A, 0x0A, 0x0A] rfl
  obtain ⟨r', w'', run', seen⟩ := exec_seen (sampleHost (.error, none)) (fGetline note [0x0A, 0x0A, 0x0A, 0x0A, 0x0A])
    notes (fun r => r.1.2.1.objsize) 3 (by decide +kernel)
  cases run.symm.trans run'
  rw [show r.2.1.objsize = 3 from seen] at objsize
  cases objsize

theorem note_readable : note.Readable notes.vol where
  sound := ⟨rfl, Nat.one_pos, fun _ _ no => (nomatch no), fun no => (nomatch no), fun off => absurd rfl off⟩
  attached := rfl
  err := rfl
  mode := rfl
  within := Nat.zero_le _
  covered := by decide
  short := by decide

theorem fGetline_right_iff_note : GetlineRight (sampleHost (.error, none)) note 5 notes ↔
    ¬Unended (note.ahead notes.vol) 5 :=
  fGetline_right_iff (sampleHost_healthy _) note_readable (by decide)

end FatFsParticle.Files
