import FatFsParticle.Dirs.Maps
import FatFsParticle.Times.Entry

/-!
# Listings

`f_readdir` called again and again returns the entries that there are for it, each once and
in their order, and then the end. Only where the last one of the most entries that a table
can have is there does the object stay at it, as `dir_next` leaves it there: that one is
returned for ever.
-/

namespace FatFsParticle.Dirs
open Interact Program Fat Links Slots
open Files (FRESULT)
open Usage (Sector)
open Times (FILINFO)

/-- `f_readdir` of a valid object. -/
def fReaddir (fs : FATFS) (dp : DIR) (fno : FILINFO) : Prog (FRESULT × FATFS × DIR × FILINFO) := do
  let (res, fs, dp) ← dirRead fs dp false
  let res := if res = .noFile then .ok else res
  if res ≠ .ok then pure (res, fs, dp, fno)
  else do
    let fno := Times.getFileinfo dp.sect fs.win dp.dir fno
    let (res, fs, dp) ← dirNext fs dp false
    pure (if res = .noFile then .ok else res, fs, dp, fno)

/-- An entry and nothing else. -/
def Entry.sector (e : Entry) : Sector := fun q => if h : q < 32 then e ⟨q, h⟩ else 0

/-- What `get_fileinfo` makes of an entry. -/
def Entry.fileinfo (e : Entry) : FILINFO := Times.getFileinfo 1 e.sector 0 ⟨0, 0, 0, 0, []⟩

/-- The entries that `dir_read` stops at. -/
def listed (row : List Entry) : List Entry := (row.takeWhile fun e => !kinds.stop e).filter (valid false)

/-- The last entry that a table can have is there. -/
def again (row : List Entry) : Bool :=
  row.length = entries ∧ row.all (fun e => !kinds.stop e) ∧ row.getLast?.any (valid false)

/-- A program between two readings of a directory. -/
structure Reader where
  fs : FATFS
  disk : Disk
  dp : DIR

inductive Reading where
  | read (given : FILINFO) (res : FRESULT) (got : FILINFO)
  | look (sect : DWORD)

inductive ReadStep (faulty : Prop) : Reading → Reader → Reader → Prop
  | read {r : Reader} {given got : FILINFO} {res : FRESULT} {fs' : FATFS} {dp' : DIR} {D' : Disk}
      (ends : Ends (rules faulty) (fReaddir r.fs r.dp given) r.disk (res, fs', dp', got) D') :
      ReadStep faulty (.read given res got) r ⟨fs', D', dp'⟩
  | look {r : Reader} {sect : DWORD} {res : FRESULT} {fs' : FATFS} {D' : Disk} (own : r.fs.toLayout.Own sect)
      (ends : Ends (rules faulty) (moveWindow r.fs sect) r.disk (res, fs') D') :
      ReadStep faulty (.look sect) r ⟨fs', D', r.dp⟩

/-- What a reading returns. -/
def handed (given : FILINFO) : List Entry → FILINFO
  | [] => { given with fname := [] }
  | e :: _ => e.fileinfo

/-- What is left to be read behind it. -/
def behind (stay : Bool) (rest : List Entry) : List Entry :=
  match rest with
  | [] => []
  | [e] => if stay then [e] else []
  | _ :: rest => rest

/-- The readings return `rest` in its order, then the end, until one fails on the disk;
where the object stays at the last entry, that one for ever. -/
def Lists (faulty : Prop) (stay : Bool) : List Entry → List (Reading × Reader) → Prop
  | _, [] => True
  | rest, (.look _, _) :: l => Lists faulty stay rest l
  | rest, (.read given res got, _) :: l =>
    (res = .ok ∧ got = handed given rest ∧ Lists faulty stay (behind stay rest) l) ∨ (res = .diskErr ∧ faulty)

section
variable {faulty : Prop} {l : Layout} {fs : FATFS} {D L : Disk} {m : List DWORD} {dp : DIR} {n : Nat}
  {sclust : DWORD} {rest : List Entry}

theorem getFileinfo_cell {sect : DWORD} (some_ : sect ≠ 0) (win : Sector) (dir : Nat) (fno : FILINFO) :
    Times.getFileinfo sect win dir fno = Entry.fileinfo (cell win dir) := by
  have byte {i : Nat} (inside : i < 32) : win (dir + i) = (Entry.sector (cell win dir)) (0 + i) := by
    unfold Entry.sector
    rw [Nat.zero_add, dif_pos inside]
    rfl
  have name : Times.entryName win dir = Times.entryName (Entry.sector (cell win dir)) 0 := by
    unfold Times.entryName
    apply List.flatMap_congr
    intro i mem
    rw [byte (by have less := List.mem_range.1 mem; omega)]
  have word {p : Nat} (inside : p + 2 ≤ 32) :
      Usage.ldWord win (dir + p) = Usage.ldWord (Entry.sector (cell win dir)) (0 + p) := by
    unfold Usage.ldWord
    rw [Nat.add_assoc, Nat.add_assoc, byte (by omega), byte (by omega)]
  have dword {p : Nat} (inside : p + 4 ≤ 32) :
      Usage.ldDword win (dir + p) = Usage.ldDword (Entry.sector (cell win dir)) (0 + p) := by
    unfold Usage.ldDword
    rw [Nat.add_assoc, Nat.add_assoc, word (by omega), word (by omega)]
  unfold Entry.fileinfo Times.getFileinfo
  rw [if_neg some_, if_neg (by decide), name, dword (by decide), dword (by decide), byte (by decide)]

/-! ## dir_read -/

theorem listed_cons {e : Entry} (go : kinds.stop e = false) (row : List Entry) :
    listed (e :: row) = if valid false e then e :: listed row else listed row := by
  unfold listed
  rw [List.takeWhile_cons, go, Bool.not_false, if_pos rfl, List.filter_cons]

theorem listed_stop {e : Entry} (stop : kinds.stop e) (row : List Entry) : listed (e :: row) = [] := by
  simp [listed, stop]

/-- Nothing before the entry `n` ends the table. -/
def Open (row : List Entry) (n : Nat) : Prop := ∀ e ∈ row.take n, kinds.stop e = false

theorem Open.succ {row : List Entry} {e : Entry} (before : Open row n) (at_ : row[n]? = some e)
    (go : kinds.stop e = false) : Open row (n + 1) := by
  intro x mem
  rw [List.take_add_one, at_, List.mem_append] at mem
  rcases mem with mem | mem
  · exact before x mem
  · obtain rfl : x = e := by simpa using mem
    exact go

/-- Where `dir_read` has come to an entry. -/
structure Stopped (l : Layout) (L : Disk) (m : List DWORD) (fs : FATFS) (dp : DIR) (rest : List Entry) (i : Nat) :
    Prop where
  at_ : At l m dp i
  looked : Looked l L m fs i
  before : Open (slots l L m) (i + 1)
  valid : valid false (cell fs.win dp.dir)
  rest : rest = cell fs.win dp.dir :: listed ((slots l L m).drop (i + 1))

/-- Induction on the turns: the entries from `n` on are left. -/
theorem twp_readLoop (shown : Shown l fs D L) (laid : Laid l L sclust m) (at_ : At l m dp n)
    (before : Open (slots l L m) n) {turns : Nat} (enough : entries ≤ turns + n) (res : FRESULT) :
    (readLoop false turns fs dp res).twp (rules faulty) (fun r D' => Shown l r.2.1 D' L ∧ r.2.2.sclust = dp.sclust ∧
      ((r.1 = .ok ∧ ∃ i, Stopped l L m r.2.1 r.2.2 (listed ((slots l L m).drop n)) i) ∨
        (r.1 = .noFile ∧ listed ((slots l L m).drop n) = []) ∨ (r.1 = .diskErr ∧ faulty))) D := by
  have few := size_le l m
  induction turns generalizing fs D dp n res with
  | zero =>
    have inside := at_.inside
    omega
  | succ turns ih =>
    unfold readLoop
    rw [if_neg (at_.sect ▸ laid.sect_ne (width_of_size at_.inside))]
    apply twp_seq (twp_look shown laid at_)
    rintro ⟨res₁, fs₁⟩ D₁ ⟨shown₁, ⟨rfl, looked⟩ | ⟨rfl, bad⟩⟩
    · dsimp only at shown₁ looked ⊢
      rw [if_neg (by decide), at_.drop looked]
      by_cases stop : cell fs₁.win dp.dir 0 = 0
      · rw [if_pos stop, listed_stop (by simpa [kinds] using stop)]
        exact ⟨shown₁, rfl, .inr (.inl ⟨rfl, rfl⟩)⟩
      · have go : kinds.stop (cell fs₁.win dp.dir) = false := by simpa [kinds] using stop
        have before₁ := before.succ (at_.slot looked) go
        have at₁ : At l m { dp with attr := cell fs₁.win dp.dir 11 &&& amMask } n :=
          ⟨at_.dptr, at_.inside, at_.sect, at_.clust⟩
        rw [if_neg stop, listed_cons go]
        by_cases here : valid false (cell fs₁.win dp.dir)
        · rw [if_pos here, if_pos here]
          exact ⟨shown₁, rfl, .inl ⟨rfl, n, at₁, looked, before₁, here, rfl⟩⟩
        · rw [if_neg here, if_neg here]
          apply twp_seq (twp_dirNext shown₁ laid at₁ false)
          rintro ⟨res₂, fs₂, dp₂⟩ D₂ ⟨L₂, shown₂, kept, walked⟩
          dsimp only at shown₂ kept walked ⊢
          cases walked with
          | next at₂ =>
            rw [if_neg (by decide)]
            apply twp_mono (ih shown₂ at₂ before₁ (by omega) .ok)
            rintro ⟨res₃, fs₃, dp₃⟩ D₃ ⟨shown₃, same, result⟩
            exact ⟨shown₃, same.trans kept.sclust, result⟩
          | last ends why left =>
            rw [if_pos (by decide), List.drop_eq_nil_of_le (by rw [length_slots, ends])]
            exact ⟨shown₂, kept.sclust, .inr (.inl ⟨rfl, rfl⟩)⟩
          | grown told => cases told
          | denied told => cases told
          | odd told => cases told
          | failed bad same =>
            rw [if_pos (by decide)]
            obtain rfl := same.resolve_left (by decide)
            exact ⟨shown₂, kept.sclust, .inr (.inr ⟨rfl, bad⟩)⟩
    · exact ⟨shown₁, rfl, .inr (.inr ⟨rfl, bad⟩)⟩

/-! ## f_readdir -/

/-- `rest` is left to be read. -/
inductive Left (l : Layout) (L : Disk) (m : List DWORD) (dp : DIR) : List Entry → Prop
  | ended (none_ : dp.sect = 0) : Left l L m dp []
  | at_ {n : Nat} (at_ : At l m dp n) (before : Open (slots l L m) n) :
      Left l L m dp (listed ((slots l L m).drop n))

theorem twp_dirRead (shown : Shown l fs D L) (laid : Laid l L sclust m) (left : Left l L m dp rest) :
    (dirRead fs dp false).twp (rules faulty) (fun r D' => Shown l r.2.1 D' L ∧ r.2.2.sclust = dp.sclust ∧
      ((r.1 = .ok ∧ ∃ i, Stopped l L m r.2.1 r.2.2 rest i) ∨ (r.1 = .noFile ∧ rest = [] ∧ r.2.2.sect = 0) ∨
        (r.1 = .diskErr ∧ faulty))) D := by
  unfold dirRead
  cases left with
  | ended none_ =>
    have none' : readLoop false entries fs dp .noFile = pure (.noFile, fs, dp) := if_pos none_
    rw [none']
    exact ⟨shown, rfl, .inr (.inl ⟨rfl, rfl, rfl⟩)⟩
  | at_ at_ before =>
    apply twp_seq (twp_readLoop shown laid at_ before (Nat.le_add_right _ _) .noFile)
    rintro ⟨res, fs₁, dp₁⟩ D₁ ⟨shown₁, same, ⟨rfl, i, stopped⟩ | ⟨rfl, none_⟩ | ⟨rfl, bad⟩⟩
    · exact ⟨shown₁, same, .inl ⟨rfl, i, stopped⟩⟩
    · exact ⟨shown₁, same, .inr (.inl ⟨rfl, none_, rfl⟩)⟩
    · exact ⟨shown₁, same, .inr (.inr ⟨rfl, bad⟩)⟩

theorem behind_cons (stay : Bool) (e : Entry) (rest : List Entry) :
    behind stay (e :: rest) = if rest = [] ∧ stay then [e] else rest := by
  cases rest with
  | nil => cases stay <;> rfl
  | cons e' rest => simp [behind]

theorem listed_nil {row : List Entry} (none_ : listed row = []) (go : ∀ e ∈ row, kinds.stop e = false) :
    ∀ e ∈ row, valid false e = false := by
  induction row with
  | nil => simp
  | cons e row ih =>
    rw [listed_cons (go e List.mem_cons_self)] at none_
    split at none_
    case isTrue => cases none_
    case isFalse bad =>
      intro x mem
      rcases List.mem_cons.1 mem with rfl | mem
      · exact Bool.eq_false_iff.2 bad
      · exact ih none_ (fun y there => go y (List.mem_cons_of_mem e there)) x mem

/-- The object stays where it is exactly at the last entry that a table can have. -/
theorem again_iff {i : Nat} {e : Entry} (inside : i < size l m) (at_ : (slots l L m)[i]? = some e)
    (before : Open (slots l L m) (i + 1)) (good : valid false e) :
    listed ((slots l L m).drop (i + 1)) = [] ∧ again (slots l L m) ↔ i + 1 = size l m ∧ size l m = entries := by
  have count : (slots l L m).length = size l m := length_slots
  unfold again
  generalize slots l L m = row at *
  simp only [Bool.decide_and, Bool.and_eq_true, decide_eq_true_eq, Option.any_eq_true]
  constructor
  · rintro ⟨none_, full, open_, last, is, good'⟩
    refine ⟨?_, count ▸ full⟩
    by_contra more
    have go (x : Entry) (mem : x ∈ row) : kinds.stop x = false := by
      simpa using List.all_eq_true.1 open_ x mem
    have there : last ∈ row.drop (i + 1) := by
      rw [List.getLast?_eq_getElem?] at is
      apply List.mem_of_getElem? (i := row.length - 1 - (i + 1))
      rw [List.getElem?_drop, ← is]
      congr 1
      omega
    rw [listed_nil none_ (fun x mem => go x (List.mem_of_mem_drop mem)) last there] at good'
    cases good'
  · rintro ⟨ends, full⟩
    rw [ends, ← count] at before
    refine ⟨?_, count.trans full, ?_, e, ?_, good⟩
    · rw [List.drop_eq_nil_of_le (by omega)]
      rfl
    · exact List.all_eq_true.2 fun x mem => by simpa using before x (by rwa [List.take_length])
    · rw [List.getLast?_eq_getElem?, ← at_]
      congr 1
      omega

theorem twp_fReaddir (shown : Shown l fs D L) (laid : Laid l L sclust m) (left : Left l L m dp rest) (given : FILINFO) :
    (fReaddir fs dp given).twp (rules faulty) (fun r D' => Shown l r.2.1 D' L ∧ r.2.2.1.sclust = dp.sclust ∧
      ((r.1 = .ok ∧ r.2.2.2 = handed given rest ∧ Left l L m r.2.2.1 (behind (again (slots l L m)) rest)) ∨
        (r.1 = .diskErr ∧ faulty))) D := by
  unfold fReaddir
  apply twp_seq (twp_dirRead shown laid left)
  rintro ⟨res, fs₁, dp₁⟩ D₁ ⟨shown₁, same, ⟨rfl, i, stopped⟩ | ⟨rfl, rfl, none_⟩ | ⟨rfl, bad⟩⟩
  · dsimp only at shown₁ same stopped ⊢
    obtain ⟨at_, looked, before, good, rfl⟩ := stopped
    have some_ := at_.sect ▸ laid.sect_ne (width_of_size at_.inside)
    apply twp_seq (twp_dirNext shown₁ laid at_ false)
    rintro ⟨res, fs₂, dp₂⟩ D₂ ⟨L₂, shown₂, kept, walked⟩
    dsimp only at shown₂ kept walked ⊢
    have info := getFileinfo_cell some_ fs₁.win dp₁.dir given
    have stays := again_iff at_.inside (at_.slot looked) before good
    cases walked with
    | next at₂ =>
      have less := at₂.inside
      refine ⟨shown₂, kept.sclust.trans same, .inl ⟨rfl, info, ?_⟩⟩
      dsimp only
      rw [behind_cons, if_neg (fun both => by have ends := (stays.1 both).1; omega)]
      exact .at_ at₂ before
    | last ends why left' =>
      refine ⟨shown₂, kept.sclust.trans same, .inl ⟨rfl, info, ?_⟩⟩
      have none_ : listed ((slots l L m).drop (i + 1)) = [] := by
        rw [List.drop_eq_nil_of_le (by rw [length_slots, ends])]
        rfl
      dsimp only
      rw [behind_cons]
      by_cases full : size l m = entries
      · have go : kinds.stop (cell fs₁.win dp₁.dir) = false :=
          before _ (List.mem_of_getElem? (by rw [List.getElem?_take_of_lt (Nat.lt_succ_self i)]; exact at_.slot looked))
        have here : listed ((slots l L m).drop i) = [cell fs₁.win dp₁.dir] := by
          rw [at_.drop looked, listed_cons go, if_pos good, none_]
        rw [if_pos full] at left'
        rw [if_pos (stays.2 ⟨ends, full⟩), ← here]
        exact .at_ left' fun e mem => before e ((List.take_subset_take_left _ (Nat.le_succ i)) mem)
      · rw [if_neg full] at left'
        rw [if_neg (fun both => full (stays.1 both).2), none_]
        exact .ended left'
    | grown told => cases told
    | denied told => cases told
    | odd told => cases told
    | failed bad same' =>
      obtain rfl := same'.resolve_left (by decide)
      exact ⟨shown₂, kept.sclust.trans same, .inr ⟨rfl, bad⟩⟩
  · have ended : dirNext fs₁ dp₁ false = pure (.noFile, fs₁, dp₁) := if_pos (.inl none_)
    have info : Times.getFileinfo dp₁.sect fs₁.win dp₁.dir given = handed given [] := if_pos none_
    dsimp only at shown₁ same ⊢
    rw [if_neg (by decide), ended, info]
    exact ⟨shown₁, same, .inl ⟨rfl, rfl, .ended none_⟩⟩
  · exact ⟨shown₁, same, .inr ⟨rfl, bad⟩⟩

/-- A step keeps what is there and what is left. -/
structure Reader.Ready (l : Layout) (L : Disk) (m : List DWORD) (r : Reader) (rest : List Entry) : Prop where
  shown : Shown l r.fs r.disk L
  left : Left l L m r.dp rest

theorem Reader.Ready.lists {r : Reader} {steps : List (Reading × Reader)} (ready : r.Ready l L m rest)
    (laid : Laid l L sclust m) (run : Every (ReadStep faulty) r steps) : Lists faulty (again (slots l L m)) rest steps := by
  induction steps generalizing r rest with
  | nil => trivial
  | cons p steps ih =>
    obtain ⟨reading, r'⟩ := p
    obtain ⟨step, run⟩ := run
    obtain ⟨shown, left⟩ := ready
    cases step with
    | read ends =>
      obtain ⟨shown', -, result⟩ := ends.of_twp (twp_fReaddir shown laid left _)
      exact result.imp_left fun ⟨ok, got, left'⟩ => ⟨ok, got, ih ⟨shown', left'⟩ run⟩
    | look own ends =>
      rw [shown.layout] at own
      obtain ⟨shown', -⟩ := ends.of_twp (twp_window shown own)
      exact ih (r := ⟨_, _, r.dp⟩) ⟨shown', left⟩ run

theorem ready_of_rewound {r : Reader} {fs' : FATFS} {dp' : DIR} {D' : Disk} (shown : Shown l r.fs r.disk L)
    (laid : Laid l L r.dp.sclust m) (rewound : Ends (rules faulty) (dirSdi r.fs r.dp 0) r.disk (.ok, fs', dp') D') :
    Reader.Ready l L m ⟨fs', D', dp'⟩ (listed (slots l L m)) := by
  obtain ⟨shown', -, result⟩ := rewound.of_twp (twp_rewind shown laid)
  have at_ : At l m dp' 0 := by simpa using result
  exact ⟨shown', .at_ at_ (by simp [Open])⟩

/-- A directory that is rewound and read again and again, whatever else is looked at in
between. -/
theorem listing {r : Reader} {fs' : FATFS} {dp' : DIR} {D' : Disk} {steps : List (Reading × Reader)}
    (shown : Shown l r.fs r.disk L) (laid : Laid l L r.dp.sclust m)
    (rewound : Ends (rules faulty) (dirSdi r.fs r.dp 0) r.disk (.ok, fs', dp') D')
    (run : Every (ReadStep faulty) ⟨fs', D', dp'⟩ steps) :
    Lists faulty (again (slots l L m)) (listed (slots l L m)) steps :=
  (ready_of_rewound shown laid rewound).lists laid run

end

/-! ## A root with one entry -/

def sampleRoot : Disk := fun s q => if s = 2 ∧ q < 11 then 0x41 else 0

theorem shown_sampleRoot : Shown sample.fs.toLayout sample.fs sampleRoot sampleRoot := by
  have away : ¬sample.fs.toLayout.Own nowhere := by
    rintro (fat | ⟨-, here⟩)
    · exact absurd fat.2 (by decide)
    · exact here rfl
  exact ⟨rfl, fun _ => id, fun _ => .inl, fun _ _ _ => rfl, fun here => absurd here away⟩

theorem laid_sampleRoot : Laid sample.fs.toLayout sampleRoot 0 [] :=
  ⟨laid_sample.root, rfl, laid_sample.static, trivial, by simp⟩

theorem listed_sampleRoot : listed (slots sample.fs.toLayout sampleRoot []) = [cell (sampleRoot 2) 0] := by decide

theorem again_sampleRoot : again (slots sample.fs.toLayout sampleRoot []) = false := by decide

def sampleReader : Reader := ⟨sample.fs, sampleRoot, ⟨0, 0, fun _ => 0x41, 0, 0, 0⟩⟩

theorem rewound_sampleRoot : ∃ fs' dp' D', Ends (rules False) (dirSdi sampleReader.fs sampleReader.dp 0)
    sampleReader.disk (.ok, fs', dp') D' := by
  obtain ⟨⟨res, fs', dp'⟩, D', rewound⟩ := exists_ends False (p := dirSdi sampleReader.fs sampleReader.dp 0)
    (twp_rewind shown_sampleRoot laid_sampleRoot)
  have some_ : size sample.fs.toLayout [] ≠ 0 := by decide
  obtain ⟨-, -, result⟩ := rewound.of_twp (twp_rewind shown_sampleRoot laid_sampleRoot)
  obtain ⟨rfl, -⟩ : res = .ok ∧ _ := by simpa [some_] using result
  exact ⟨fs', dp', D', rewound⟩

theorem listing_sample : ∃ steps, steps.length = 2 ∧ Lists False false [cell (sampleRoot 2) 0] steps := by
  obtain ⟨fs₁, dp₁, D₁, rewound⟩ := rewound_sampleRoot
  obtain ⟨shown₁, left⟩ := ready_of_rewound (r := sampleReader) shown_sampleRoot laid_sampleRoot rewound
  let fno : FILINFO := ⟨0, 0, 0, 0, []⟩
  obtain ⟨⟨res₂, fs₂, dp₂, fno₂⟩, D₂, read₂⟩ :=
    exists_ends False (twp_fReaddir shown₁ laid_sampleRoot left fno)
  obtain ⟨shown₂, -, result₂⟩ := read₂.of_twp (twp_fReaddir shown₁ laid_sampleRoot left fno)
  obtain ⟨-, -, left₂⟩ : res₂ = .ok ∧ _ := by simpa using result₂
  obtain ⟨⟨res₃, fs₃, dp₃, fno₃⟩, D₃, read₃⟩ :=
    exists_ends False (twp_fReaddir shown₂ laid_sampleRoot left₂ fno₂)
  have run : Every (ReadStep False) ⟨fs₁, D₁, dp₁⟩ [(.read _ res₂ fno₂, _), (.read _ res₃ fno₃, _)] :=
    ⟨.read read₂, .read read₃, trivial⟩
  have lists := listing (r := sampleReader) shown_sampleRoot laid_sampleRoot rewound run
  rw [listed_sampleRoot, again_sampleRoot] at lists
  exact ⟨_, rfl, lists⟩

end FatFsParticle.Dirs
