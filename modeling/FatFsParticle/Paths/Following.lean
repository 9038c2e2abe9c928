import FatFsParticle.Paths.Segments

/-!
# Following a path

`follow_path` looks up one segment after the other, each in the directory that the one
before it leads to. The volume is a tree of directories, each of which is a map from names
to entries, and what the code comes to is what the path leads to in the tree.
-/

namespace FatFsParticle.Paths
open Interact Program Fat Links Slots Dirs
open Files (FRESULT)
open Drives (TCHAR FatType)
open Usage (Sector ldWord)
open Times (FILINFO amDir)

/-- `ld_clust` -/
def ldClust (fsType : FatType) (win : Sector) (dir : Nat) : DWORD :=
  let cl : DWORD := (ldWord win (dir + Times.dirFstClusLO)).setWidth 32
  if fsType = .fat32 then cl ||| (ldWord win (dir + Times.dirFstClusHI)).setWidth 32 <<< 16 else cl

/-- The loop of `follow_path`. Each turn but the last takes something off the path, which
bounds the turns. -/
def followLoop : Nat → FATFS → DIR → List TCHAR → Prog (FRESULT × FATFS × DIR)
  | 0, _, _, _ => .stuck
  | turns + 1, fs, dp, path =>
    match createName path with
    | none => pure (.invalidName, fs, dp)
    | some (fn, last, path) => do
      let (res, fs, dp) ← dirFind fs { dp with fn := fn }
      if res ≠ .ok then pure (if res = .noFile ∧ !last then .noPath else res, fs, dp)
      else if last then pure (.ok, fs, dp)
      else if dp.attr &&& amDir = 0 then pure (.noPath, fs, dp)
      else followLoop turns fs { dp with sclust := ldClust fs.fsType fs.win dp.dir } path

/-- `follow_path`, and whether it is left with `NS_NONAME`: the path names the directory it
begins with. -/
def followPath (fs : FATFS) (dp : DIR) (path : List TCHAR) : Prog (FRESULT × FATFS × DIR × Bool) := do
  let path := path.dropWhile isSep
  let dp := { dp with sclust := 0 }
  if path.headD 0 < 0x20 then do
    let (res, fs, dp) ← dirSdi fs dp 0
    pure (res, fs, dp, true)
  else do
    let (res, fs, dp) ← followLoop (path.length + 1) fs dp path
    pure (res, fs, dp, false)

/-- `f_stat` on a mounted volume. -/
def fStat (fs : FATFS) (dj : DIR) (path : List TCHAR) (fno : FILINFO) : Prog (FRESULT × FATFS × FILINFO) := do
  let (res, fs, dj, noname) ← followPath fs dj path
  if res ≠ .ok then pure (res, fs, fno)
  else if noname then pure (.invalidName, fs, fno)
  else pure (.ok, fs, Times.getFileinfo dj.sect fs.win dj.dir fno)

/-! ## The tree -/

/-- Where the object of an entry begins. -/
def firstCluster (l : Layout) (e : Entry) : DWORD := ldClust l.fsType e.sector 0

def isDir (e : Entry) : Prop := attrib e &&& amMask &&& amDir ≠ 0

instance (e : Entry) : Decidable (isDir e) := inferInstanceAs (Decidable (_ ≠ _))

/-- The directories of a volume, by the clusters they begin at, and their chains. -/
structure Tree (l : Layout) (L : Disk) where
  dirs : DWORD → Prop
  chain : DWORD → List DWORD
  root : dirs 0
  laid : ∀ d, dirs d → Laid l L d (chain d)
  room : l.fsType ≠ .fat32 → 16 ≤ l.nRootdir.toNat
  closed : ∀ d k e, dirs d → kinds.get (slots l L (chain d)) k = some e → isDir e → dirs (firstCluster l e)

variable {faulty : Prop} {l : Layout} {L D : Disk} {fs : FATFS} {dp : DIR}

/-- What the directory at `d` has. -/
def Tree.names (T : Tree l L) (d : DWORD) : Names := kinds.get (slots l L (T.chain d))

/-- What a path leads to: the entry of a name in a directory, or an error. -/
inductive Outcome where
  | found (d : DWORD) (k : Proper) (e : Entry)
  | failed (res : FRESULT)

/-- What a path leads to from the directory `d`. -/
inductive Leads (T : Tree l L) : DWORD → List TCHAR → Outcome → Prop
  | invalid {d : DWORD} {path : List TCHAR} (bad : createName path = none) :
      Leads T d path (.failed .invalidName)
  | missing {d : DWORD} {path rest : List TCHAR} {k : Proper} {last : Bool}
      (top : createName path = some (k.name, last, rest)) (none_ : T.names d k = none) :
      Leads T d path (.failed (if last then .noFile else .noPath))
  | found {d : DWORD} {path rest : List TCHAR} {k : Proper} {e : Entry}
      (top : createName path = some (k.name, true, rest)) (is : T.names d k = some e) : Leads T d path (.found d k e)
  | file {d : DWORD} {path rest : List TCHAR} {k : Proper} {e : Entry}
      (top : createName path = some (k.name, false, rest)) (is : T.names d k = some e) (plain : ¬isDir e) :
      Leads T d path (.failed .noPath)
  | enter {d : DWORD} {path rest : List TCHAR} {k : Proper} {e : Entry} {o : Outcome}
      (top : createName path = some (k.name, false, rest)) (is : T.names d k = some e) (dir : isDir e)
      (leads : Leads T (firstCluster l e) rest o) : Leads T d path o

theorem top_unique {path rest rest' : List TCHAR} {k k' : Proper} {last last' : Bool}
    (top : createName path = some (k.name, last, rest)) (top' : createName path = some (k'.name, last', rest')) :
    k = k' ∧ last = last' ∧ rest = rest' := by
  rw [top, Option.some.injEq, Prod.mk.injEq, Prod.mk.injEq] at top'
  exact ⟨Proper.ext top'.1, top'.2⟩

/-- A path leads to one outcome. -/
theorem Leads.unique {T : Tree l L} {d : DWORD} {path : List TCHAR} {o o' : Outcome} (leads : Leads T d path o)
    (leads' : Leads T d path o') : o = o' := by
  induction leads with
  | invalid bad => cases leads' <;> simp_all
  | missing top none_ =>
    cases leads' with
    | invalid bad => simp_all
    | missing top' => rw [(top_unique top top').2.1]
    | found top' is => obtain ⟨rfl, -⟩ := top_unique top top'; simp_all
    | file top' is => obtain ⟨rfl, -⟩ := top_unique top top'; simp_all
    | enter top' is => obtain ⟨rfl, -⟩ := top_unique top top'; simp_all
  | found top is =>
    cases leads' with
    | invalid bad => simp_all
    | missing top' => obtain ⟨rfl, -⟩ := top_unique top top'; simp_all
    | found top' is' => obtain ⟨rfl, -⟩ := top_unique top top'; simp_all
    | file top' => cases (top_unique top top').2.1
    | enter top' => cases (top_unique top top').2.1
  | file top is plain =>
    cases leads' with
    | invalid bad => simp_all
    | missing top' => obtain ⟨rfl, -⟩ := top_unique top top'; simp_all
    | found top' => cases (top_unique top top').2.1
    | file => rfl
    | enter top' is' dir => obtain ⟨rfl, -⟩ := top_unique top top'; simp_all
  | enter top is dir leads ih =>
    cases leads' with
    | invalid bad => simp_all
    | missing top' => obtain ⟨rfl, -⟩ := top_unique top top'; simp_all
    | found top' => cases (top_unique top top').2.1
    | file top' is' plain => obtain ⟨rfl, -⟩ := top_unique top top'; simp_all
    | enter top' is' dir' leads' =>
      obtain ⟨rfl, -, rfl⟩ := top_unique top top'
      rw [is, Option.some.injEq] at is'
      subst is'
      exact ih leads'

/-! ## What create_name leaves -/

theorem Segment.name_pos (s : Segment) (j : Fin 11) : s.name j ≠ 0 := by
  have space {c : BYTE} (legal : Legal c) : upper c ≠ 0 := by
    revert c
    decide +kernel
  have all : ∀ c ∈ s.bytes, c ≠ 0 := by
    intro c mem
    simp only [Segment.bytes, padded, List.mem_append, List.mem_map, List.mem_replicate] at mem
    rcases mem with (⟨x, there, rfl⟩ | ⟨-, rfl⟩) | (⟨x, there, rfl⟩ | ⟨-, rfl⟩)
    · exact space (s.body_legal x there)
    · decide
    · exact space (s.ext_legal x there)
    · decide
  have less : j.val < s.bytes.length := by
    rw [s.length_bytes]
    exact j.2
  unfold Segment.name
  rw [List.getD_eq_getElem _ _ less]
  exact all _ (List.getElem_mem less)

theorem createName_proper {path rest : List TCHAR} {fn : Name} {last : Bool}
    (top : createName path = some (fn, last, rest)) : ∃ k : Proper, k.name = fn := by
  obtain ⟨s, tail, c, -, -, -, rfl⟩ := segment_of_createName top
  have small := s.name_lt 0
  refine ⟨⟨s.name, s.name_pos 0, ?_⟩, rfl⟩
  intro is
  rw [is] at small
  exact absurd small (by decide)

theorem createName_shorter {path rest : List TCHAR} {fn : Name} (top : createName path = some (fn, false, rest)) :
    rest.length < path.length := by
  obtain ⟨s, tail, c, rfl, closes, more, -⟩ := segment_of_createName top
  have high : ¬c ≤ 0x20 := of_decide_eq_false more.symm
  rw [List.length_append]
  cases closes with
  | nil => exact absurd (by decide) high
  | last low => exact absurd low high
  | @sep _ p =>
    have short : (p.dropWhile isSep).length ≤ p.length := (List.dropWhile_suffix isSep).length_le
    rw [List.length_cons]
    omega

/-! ## Segments of a path -/

def Segment.proper (s : Segment) : Proper where
  name := s.name
  some_ := s.name_pos 0
  live is := by
    have small := s.name_lt 0
    rw [is] at small
    exact absurd small (by decide)

/-- The path spells the segments. -/
inductive Spells : List Segment → List TCHAR → Prop
  | last {s : Segment} {tail rest : List TCHAR} {c : BYTE} (closes : Closes tail c rest) (low : c ≤ 0x20) :
      Spells [s] (s.text ++ tail)
  | more {s : Segment} {segments : List Segment} {p : List TCHAR} {c : BYTE} (sep : isSep c)
      (spells : Spells segments (p.dropWhile isSep)) : Spells (s :: segments) (s.text ++ c :: p)

/-- What is found along some segments. -/
def Tree.walk (T : Tree l L) (d : DWORD) : List Segment → Outcome
  | [] => .failed .invalidName
  | s :: segments =>
    match T.names d s.proper with
    | none => .failed (if segments = [] then .noFile else .noPath)
    | some e =>
      if segments = [] then .found d s.proper e
      else if isDir e then T.walk (firstCluster l e) segments else .failed .noPath

/-- A path leads where its segments do. -/
theorem walk_leads (T : Tree l L) {segments : List Segment} {path : List TCHAR} (spells : Spells segments path)
    (d : DWORD) : Leads T d path (T.walk d segments) := by
  induction spells generalizing d with
  | @last s tail rest c closes low =>
    have top : createName (s.text ++ tail) = some (s.proper.name, true, rest) :=
      decide_eq_true low ▸ createName_segment s closes
    unfold Tree.walk
    cases is : T.names d s.proper with
    | none => exact .missing top is
    | some e => exact .found top is
  | @more s segments p c sep spells ih =>
    have top : createName (s.text ++ c :: p) = some (s.proper.name, false, p.dropWhile isSep) :=
      decide_eq_false (isSep_low sep) ▸ createName_segment s (.sep sep)
    have some_ : segments ≠ [] := by
      rintro rfl
      cases spells
    unfold Tree.walk
    cases is : T.names d s.proper with
    | none =>
      dsimp only
      rw [if_neg some_]
      exact .missing top is
    | some e =>
      dsimp only
      rw [if_neg some_]
      split
      case isTrue dir => exact .enter top is dir (ih _)
      case isFalse plain => exact .file top is plain

/-! ## The code in the tree -/

theorem Tree.some_ (T : Tree l L) {d : DWORD} (dir : T.dirs d) : size l (T.chain d) ≠ 0 := by
  have unit := l.unit
  have static := (T.laid d dir).static
  unfold size width
  split
  case isTrue none_ =>
    have root := T.room (static none_)
    have whole : entries = 65536 := by decide
    omega
  case isFalse more =>
    have pos := Nat.mul_pos (List.length_pos_iff.2 more) unit
    have whole : entries = 65536 := by decide
    omega

/-- The object stands at the entry of `k`, and the window shows it. -/
structure Reached (T : Tree l L) (d : DWORD) (k : Proper) (e : Entry) (fs : FATFS) (dp : DIR) : Prop where
  dir : T.dirs d
  sclust : dp.sclust = d
  at_ : ∃ i, kinds.find k (slots l L (T.chain d)) = some i ∧ At l (T.chain d) dp i ∧ Looked l L (T.chain d) fs i
  shows : cell fs.win dp.dir = e
  is : T.names d k = some e

/-- What the code comes to, as an outcome. -/
inductive Comes (T : Tree l L) (fs : FATFS) (dp : DIR) : Outcome → FRESULT → Prop
  | found {d : DWORD} {k : Proper} {e : Entry} (reached : Reached T d k e fs dp) : Comes T fs dp (.found d k e) .ok
  | failed {res : FRESULT} (bad : res ≠ .ok) : Comes T fs dp (.failed res) res

theorem twp_lookup (T : Tree l L) (shown : Shown l fs D L) (dir : T.dirs dp.sclust) {k : Proper} (name : dp.fn = k.name) :
    (dirFind fs dp).twp (rules faulty) (fun r D' => Shown l r.2.1 D' L ∧
      ((∃ e, r.1 = .ok ∧ Reached T dp.sclust k e r.2.1 r.2.2 ∧ r.2.2.attr = e 11 &&& amMask) ∨
        (r.1 = .noFile ∧ T.names dp.sclust k = none) ∨ (r.1 = .diskErr ∧ faulty))) D := by
  apply twp_mono (twp_dirFind shown (T.laid _ dir) name)
  rintro ⟨res, fs', dp'⟩ D' ⟨shown', ⟨ok, i, found, there⟩ | ⟨missed, none_⟩ | ⟨-, none_⟩ | failed⟩
  · obtain ⟨e, slot, -, is⟩ := Kinds.get_of_find found
    obtain rfl : e = cell fs'.win dp'.dir := Option.some.inj (slot.symm.trans (there.at_.slot there.looked))
    exact ⟨shown', .inl ⟨_, ok, ⟨dir, there.sclust, ⟨i, found, there.at_, there.looked⟩, rfl, is⟩, there.attr⟩⟩
  · exact ⟨shown', .inr (.inl ⟨missed, Kinds.find_none.1 none_⟩)⟩
  · exact absurd none_ (T.some_ dir)
  · exact ⟨shown', .inr (.inr failed)⟩

theorem ldClust_cell (fsType : FatType) (win : Sector) (p : Nat) :
    ldClust fsType win p = ldClust fsType (Entry.sector (cell win p)) 0 := by
  have byte {i : Nat} (inside : i < 32) : win (p + i) = (Entry.sector (cell win p)) (0 + i) := by
    unfold Entry.sector
    rw [Nat.zero_add, dif_pos inside]
    rfl
  unfold ldClust ldWord
  simp only [Nat.add_assoc]
  rw [byte (by decide), byte (by decide), byte (by decide), byte (by decide)]

theorem twp_followLoop (T : Tree l L) (shown : Shown l fs D L) (dir : T.dirs dp.sclust) {path : List TCHAR}
    {turns : Nat} (enough : path.length < turns) :
    (followLoop turns fs dp path).twp (rules faulty) (fun r D' => Shown l r.2.1 D' L ∧
      ((∃ o, Leads T dp.sclust path o ∧ Comes T r.2.1 r.2.2 o r.1) ∨ (r.1 = .diskErr ∧ faulty))) D := by
  induction turns generalizing fs D dp path with
  | zero => omega
  | succ turns ih =>
    unfold followLoop
    cases top : createName path with
    | none => exact ⟨shown, .inl ⟨_, .invalid top, .failed (by decide)⟩⟩
    | some p =>
      obtain ⟨fn, last, rest⟩ := p
      obtain ⟨k, rfl⟩ := createName_proper top
      have dir' : T.dirs (DIR.sclust { dp with fn := k.name }) := dir
      apply twp_seq (twp_lookup T shown dir' rfl)
      rintro ⟨res, fs₁, dp₁⟩ D₁ ⟨shown₁, ⟨e, rfl, reached, attr⟩ | ⟨rfl, none_⟩ | ⟨rfl, bad⟩⟩
      · dsimp only at shown₁ reached attr ⊢
        rw [if_neg (by decide)]
        cases last with
        | true => exact ⟨shown₁, .inl ⟨_, .found top reached.is, .found reached⟩⟩
        | false =>
          have plain_iff : dp₁.attr &&& amDir = 0 ↔ ¬isDir e := by
            rw [attr]
            exact not_not.symm
          rw [if_neg (by decide)]
          by_cases dir' : isDir e
          · rw [if_neg (fun plain => plain_iff.1 plain dir')]
            have next : ldClust fs₁.fsType fs₁.win dp₁.dir = firstCluster l e := by
              rw [ldClust_cell, reached.shows, shown₁.layout]
              rfl
            rw [next]
            have inner := T.closed _ k e dir reached.is dir'
            have short : rest.length < turns := by
              have less := createName_shorter top
              omega
            apply twp_mono (ih shown₁ inner short)
            rintro r D' ⟨shown', result⟩
            exact ⟨shown', result.imp_left fun ⟨o, leads, comes⟩ => ⟨o, .enter top reached.is dir' leads, comes⟩⟩
          · rw [if_pos (plain_iff.2 dir')]
            exact ⟨shown₁, .inl ⟨_, .file top reached.is dir', .failed (by decide)⟩⟩
      · exact ⟨shown₁, .inl ⟨_, .missing top none_, by cases last <;> exact .failed (by decide)⟩⟩
      · exact ⟨shown₁, .inr ⟨rfl, bad⟩⟩

/-- The path names the directory that it begins with. -/
def origin (path : List TCHAR) : Prop := (path.dropWhile isSep).headD 0 < 0x20

theorem twp_followPath (T : Tree l L) (shown : Shown l fs D L) (path : List TCHAR) :
    (followPath fs dp path).twp (rules faulty) (fun r D' => Shown l r.2.1 D' L ∧
      ((origin path ∧ r.1 = .ok ∧ r.2.2.2 = true) ∨
        (¬origin path ∧ r.2.2.2 = false ∧
          ∃ o, Leads T 0 (path.dropWhile isSep) o ∧ Comes T r.2.1 r.2.2.1 o r.1) ∨
        (r.1 = .diskErr ∧ faulty))) D := by
  have root := T.root
  unfold followPath
  by_cases none_ : (path.dropWhile isSep).headD 0 < 0x20
  · rw [if_pos none_]
    apply twp_seq (twp_rewind shown (T.laid 0 root))
    rintro ⟨res, fs', dp'⟩ D' ⟨shown', -, ⟨rfl, -⟩ | ⟨-, small⟩ | ⟨rfl, bad⟩⟩
    · exact ⟨shown', .inl ⟨none_, rfl, rfl⟩⟩
    · exact absurd small (T.some_ root)
    · exact ⟨shown', .inr (.inr ⟨rfl, bad⟩)⟩
  · rw [if_neg none_]
    apply twp_seq (twp_followLoop T shown root (Nat.lt_succ_self _))
    rintro ⟨res, fs', dp'⟩ D' ⟨shown', result | failed⟩
    · exact ⟨shown', .inr (.inl ⟨none_, rfl, result⟩)⟩
    · exact ⟨shown', .inr (.inr failed)⟩

theorem twp_fStat (T : Tree l L) (shown : Shown l fs D L) (path : List TCHAR) (fno : FILINFO) :
    (fStat fs dp path fno).twp (rules faulty) (fun r D' => Shown l r.2.1 D' L ∧
      ((origin path ∧ r.1 = .invalidName) ∨
        (¬origin path ∧ ∃ o, Leads T 0 (path.dropWhile isSep) o ∧ match o with
          | .found _ _ e => r.1 = .ok ∧ r.2.2 = e.fileinfo
          | .failed res' => r.1 = res') ∨
        (r.1 = .diskErr ∧ faulty))) D := by
  unfold fStat
  apply twp_seq (twp_followPath T shown path)
  rintro ⟨res₁, fs₁, dp₁, noname⟩ D₁ ⟨shown₁, ⟨here, rfl, rfl⟩ | ⟨some_, rfl, o, leads, comes⟩ | ⟨rfl, bad⟩⟩
  · exact ⟨shown₁, .inl ⟨here, rfl⟩⟩
  · dsimp only at comes ⊢
    cases comes with
    | found reached =>
      obtain ⟨i, -, at_, -⟩ := reached.at_
      have sect : dp₁.sect ≠ 0 := at_.sect ▸ (T.laid _ reached.dir).sect_ne (width_of_size at_.inside)
      rw [if_neg (by decide), if_neg (by decide)]
      refine ⟨shown₁, .inr (.inl ⟨some_, _, leads, rfl, ?_⟩)⟩
      rw [← reached.shows]
      exact getFileinfo_cell sect _ _ _
    | failed bad =>
      rw [if_pos bad]
      exact ⟨shown₁, .inr (.inl ⟨some_, _, leads, rfl⟩)⟩
  · exact ⟨shown₁, .inr (.inr ⟨rfl, bad⟩)⟩

/-- A root with one file. -/
def sampleTree : Tree sample.fs.toLayout sampleRoot where
  dirs d := d = 0
  chain _ := []
  root := rfl
  laid _ root := root ▸ laid_sampleRoot
  room _ := by decide
  closed := by
    have row : slots sample.fs.toLayout sampleRoot [] = cell (sampleRoot 2) 0 :: List.replicate 15 blank := by decide
    intro d k e _ is dir
    rw [row, Kinds.get] at is
    split at is
    case isTrue => cases is
    case isFalse =>
      split at is
      case isTrue =>
        cases is
        exact absurd dir (by decide)
      case isFalse =>
        have none_ := Kinds.get_stops (K := kinds) (l := List.replicate 15 blank)
          (fun b mem => by rw [List.eq_of_mem_replicate mem]; rfl) k
        rw [none_] at is
        cases is

end FatFsParticle.Paths
