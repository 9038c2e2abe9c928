import FatFsParticle.Paths.Following
import FatFsParticle.Words.Masks

/-!
# Attributes and time stamps

`f_chmod` and `f_utime` change the entry that a path leads to, and neither its name nor
what it leads to. The tree stays as it was but for that entry, so a run of them and of
`f_stat` is one of the maps.
-/

namespace FatFsParticle.Paths
open Interact Program Fat Links Slots Dirs
open Files (FRESULT)
open Drives (TCHAR FatType)
open Usage (Sector ldWord ldDword)
open Times (FILINFO amRdo amHid amSys amDir amArc dirAttr dirModTime stDword stDword_ne stDword_byte ldDword_stDword)

/-! ## The code -/

/-- What the two functions have in common: the change of the entry at an offset of the
window. -/
def fChange (change : Sector → Nat → Sector) (fs : FATFS) (dj : DIR) (path : List TCHAR) : Prog (FRESULT × FATFS) := do
  let (res, fs, dj, noname) ← followPath fs dj path
  if res ≠ .ok then pure (res, fs)
  else if noname then pure (.invalidName, fs)
  else syncFs (fs.modify (change fs.win dj.dir))

/-- The change that `f_chmod` makes. -/
def putAttr (attr mask : BYTE) (win : Sector) (dir : Nat) : Sector :=
  let mask := mask &&& (amRdo ||| amHid ||| amSys ||| amArc)
  Function.update win (dir + dirAttr) ((attr &&& mask) ||| (win (dir + dirAttr) &&& ~~~mask))

/-- `f_chmod` on a mounted volume. -/
def fChmod (fs : FATFS) (dj : DIR) (path : List TCHAR) (attr mask : BYTE) : Prog (FRESULT × FATFS) :=
  fChange (putAttr attr mask) fs dj path

/-- The change that `f_utime` makes. -/
def putTime (fdate ftime : WORD) (win : Sector) (dir : Nat) : Sector :=
  stDword win (dir + dirModTime) (fdate.setWidth 32 <<< 16 ||| ftime.setWidth 32)

/-- `f_utime` on a mounted volume. -/
def fUtime (fs : FATFS) (dj : DIR) (path : List TCHAR) (fdate ftime : WORD) : Prog (FRESULT × FATFS) :=
  fChange (putTime fdate ftime) fs dj path

/-! ## Entries -/

/-- A change of one entry that leaves alone its name, whether it is a directory, and where
it leads. -/
structure Alters (change : Sector → Nat → Sector) (f : Entry → Entry) : Prop where
  cells : ∀ win i j, cell (change win (i * 32)) (j * 32) = if j = i then f (cell win (i * 32)) else cell win (j * 32)
  is : ∀ k e, kinds.is k (f e) = kinds.is k e
  dir : ∀ e, isDir (f e) ↔ isDir e
  first : ∀ l e, firstCluster l (f e) = firstCluster l e

theorem firstCluster_congr {e e' : Entry} (l : Layout) (same : ∀ j : Fin 32, 20 ≤ j.val → j.val < 28 → ¬(22 ≤ j.val ∧ j.val < 26) → e j = e' j) :
    firstCluster l e = firstCluster l e' := by
  have byte {q : Nat} (low : 20 ≤ q) (high : q < 28) (out : ¬(22 ≤ q ∧ q < 26)) : e.sector (0 + q) = e'.sector (0 + q) := by
    unfold Entry.sector
    rw [Nat.zero_add, dif_pos (by omega), dif_pos (by omega)]
    exact same _ low high out
  unfold firstCluster ldClust ldWord
  simp only [Nat.add_assoc]
  rw [byte (by decide) (by decide) (by decide), byte (by decide) (by decide) (by decide),
    byte (by decide) (by decide) (by decide), byte (by decide) (by decide) (by decide)]

theorem is_congr {e e' : Entry} (k : Proper) (name : ∀ j : Fin 11, e (j.castLE (by decide)) = e' (j.castLE (by decide)))
    (vol : attrib e &&& amVol = attrib e' &&& amVol) : kinds.is k e = kinds.is k e' := by
  have same : named k.name e = named k.name e' := by
    unfold named
    simp only [name]
  simp only [kinds, vol, same]

/-- An entry with other attributes. -/
def chmodEntry (attr mask : BYTE) (e : Entry) : Entry :=
  let mask := mask &&& (amRdo ||| amHid ||| amSys ||| amArc)
  fun j => if j.val = dirAttr then (attr &&& mask) ||| (attrib e &&& ~~~mask) else e j

theorem chmodEntry_ne (attr mask : BYTE) (e : Entry) {j : Fin 32} (other : j.val ≠ 11) : chmodEntry attr mask e j = e j :=
  if_neg other

theorem alters_putAttr (attr mask : BYTE) : Alters (putAttr attr mask) (chmodEntry attr mask) := by
  have kept (b : BYTE) (out : (amRdo ||| amHid ||| amSys ||| amArc) &&& b = 0) (e : Entry) :
      attrib (chmodEntry attr mask e) &&& b = attrib e &&& b := by
    unfold attrib chmodEntry
    rw [if_pos (show (11 : Fin 32).val = dirAttr from rfl)]
    apply Words.and_masked
    rw [BitVec.and_assoc, out]
    exact BitVec.and_zero
  constructor
  case cells =>
    intro win i j
    funext k
    have small := k.isLt
    have eleven : dirAttr = 11 := rfl
    unfold cell putAttr
    rw [Function.update_apply]
    split_ifs with at_ here here
    · exact (if_pos (show k.val = dirAttr by omega)).symm
    · omega
    · subst here
      have other : k.val ≠ 11 := fun is => at_ (by rw [is])
      exact (chmodEntry_ne attr mask (cell win (j * 32)) other).symm
    · rfl
  case is =>
    intro k e
    apply is_congr
    · intro j
      apply chmodEntry_ne
      have small := j.isLt
      simp only [Fin.val_castLE]
      omega
    · exact kept amVol (by decide) e
  case dir =>
    intro e
    unfold isDir
    rw [BitVec.and_assoc, kept (amMask &&& amDir) (by decide) e, ← BitVec.and_assoc]
  case first =>
    intro l e
    apply firstCluster_congr
    intro j low high _
    exact chmodEntry_ne _ _ _ (by omega)

/-- An entry with another time stamp. -/
def utimeEntry (fdate ftime : WORD) (e : Entry) : Entry :=
  fun j => stDword e.sector dirModTime (fdate.setWidth 32 <<< 16 ||| ftime.setWidth 32) j

theorem utimeEntry_ne (fdate ftime : WORD) (e : Entry) {j : Fin 32} (apart : j.val < 22 ∨ 26 ≤ j.val) :
    utimeEntry fdate ftime e j = e j := by
  unfold utimeEntry
  rw [stDword_ne _ _ _ (by omega)]
  exact dif_pos j.isLt

theorem alters_putTime (fdate ftime : WORD) : Alters (putTime fdate ftime) (utimeEntry fdate ftime) := by
  constructor
  case cells =>
    intro win i j
    funext k
    have small := k.isLt
    have start : dirModTime = 22 := rfl
    by_cases here : j = i ∧ 22 ≤ k.val ∧ k.val < 26
    · obtain ⟨rfl, low, high⟩ := here
      obtain ⟨q, is⟩ : ∃ q, k.val = 22 + q := ⟨k.val - 22, by omega⟩
      rw [if_pos rfl]
      unfold cell putTime utimeEntry
      have there : j * 32 + k.val = j * 32 + dirModTime + q := by rw [is, Nat.add_assoc]
      rw [there, is, stDword_byte _ _ _ (by omega), stDword_byte _ _ _ (by omega)]
    · have other : cell (putTime fdate ftime win (i * 32)) (j * 32) k = cell win (j * 32) k := by
        unfold cell putTime
        exact stDword_ne _ _ _ (by omega)
      rw [other]
      split_ifs with same
      · subst same
        exact (utimeEntry_ne _ _ _ (by omega)).symm
      · rfl
  case is =>
    intro k e
    apply is_congr
    · intro j
      apply utimeEntry_ne
      have small := j.isLt
      simp only [Fin.val_castLE]
      omega
    · unfold attrib
      rw [utimeEntry_ne _ _ _ (.inl (by decide))]
  case dir =>
    intro e
    unfold isDir attrib
    rw [utimeEntry_ne _ _ _ (.inl (by decide))]
  case first =>
    intro l e
    apply firstCluster_congr
    intro j low high out
    exact utimeEntry_ne _ _ _ (by omega)

/-! ## Trees -/

/-- No name is twice in a directory, and no two directories share a sector. -/
structure Tree.Sound {l : Layout} {L : Disk} (T : Tree l L) : Prop where
  tidy : ∀ d, T.dirs d → kinds.Tidy (slots l L (T.chain d))
  apart : ∀ d d', T.dirs d → T.dirs d' → d ≠ d' → ∀ q < width l (T.chain d), ∀ q' < width l (T.chain d'),
    sectorAt l (T.chain d) q ≠ sectorAt l (T.chain d') q'

/-- The same directories, and names in them. -/
structure Tree.Same {l : Layout} {L L' : Disk} (T : Tree l L) (T' : Tree l L') : Prop where
  dirs : T'.dirs = T.dirs
  names : ∀ d, T.dirs d → T'.names d = T.names d

/-- The same directories, but for the entry of `k` in the one at `d`. -/
structure Tree.Changed {l : Layout} {L L' : Disk} (T : Tree l L) (d : DWORD) (k : Proper) (e : Entry) (T' : Tree l L') :
    Prop where
  dirs : T'.dirs = T.dirs
  here : T'.names d = Function.update (T.names d) k (some e)
  there : ∀ d', T.dirs d' → d' ≠ d → T'.names d' = T.names d'

section
variable {l : Layout} {L L' D : Disk} {T : Tree l L} {T' : Tree l L'} {fs : FATFS} {d : DWORD} {k : Proper} {e e' : Entry}
  {i : Nat}

/-- An entry of a directory is changed in its sector. -/
theorem Tree.write (T : Tree l L) (sound : T.Sound) (dir : T.dirs d)
    (found : kinds.find k (slots l L (T.chain d)) = some i) (inside : i < size l (T.chain d)) (is : T.names d k = some e)
    {win : Sector} (written : ∀ j, cell win (j * 32) =
      if j = i % 16 then e' else cell (L (sectorAt l (T.chain d) (i / 16))) (j * 32))
    (named : ∀ k', kinds.is k' e' = kinds.is k' e) (same : isDir e' ↔ isDir e)
    (first : firstCluster l e' = firstCluster l e) :
    ∃ T' : Tree l (Function.update L (sectorAt l (T.chain d) (i / 16)) win), T'.Sound ∧ T.Changed d k e' T' := by
  have less := width_of_size inside
  obtain ⟨a, -, of, is'⟩ := Kinds.get_of_find found
  obtain rfl : a = e := Option.some.inj (is'.symm.trans is)
  have live : kinds.is k e' := (named k).trans of
  have only : ∀ k', kinds.is k' e' → k' = k := fun k' is => kinds.unique is live
  have row := (T.laid d dir).slots_write inside written
  have rest {d' : DWORD} (dir' : T.dirs d') (other : d' ≠ d) :
      slots l (Function.update L (sectorAt l (T.chain d) (i / 16)) win) (T.chain d') = slots l L (T.chain d') :=
    slots_aside (fun q inside' => (sound.apart d d' dir dir' (Ne.symm other) _ less q inside').symm) win
  have here : kinds.get (slots l (Function.update L (sectorAt l (T.chain d) (i / 16)) win) (T.chain d)) =
      Function.update (T.names d) k (some e') := by
    rw [row, Kinds.get_replace found (kinds.live live).1 only (sound.tidy d dir), if_pos live]
    rfl
  refine ⟨{ T with laid := ?_, closed := ?_ }, ⟨?_, sound.apart⟩, ⟨rfl, here, ?_⟩⟩
  · exact fun d' dir' => (T.laid d' dir').aside ((T.laid d dir).out less) win
  · intro d' k' e₁ dir' is₁ sub
    by_cases at_ : d' = d
    · subst at_
      rw [here, Function.update_apply] at is₁
      split_ifs at is₁ with key
      · cases is₁
        exact first ▸ T.closed _ k _ dir' is (same.1 sub)
      · exact T.closed _ k' _ dir' is₁ sub
    · rw [rest dir' at_] at is₁
      exact T.closed _ k' _ dir' is₁ sub
  · intro d' dir'
    by_cases at_ : d' = d
    · subst at_
      dsimp only
      rw [row]
      exact (sound.tidy _ dir).replace found (kinds.live live).1 only
    · dsimp only
      rw [rest dir' at_]
      exact sound.tidy d' dir'
  · intro d' dir' other
    unfold Tree.names
    dsimp only
    rw [rest dir' other]

/-- What is left of an outcome when the entry of `k` in the directory at `d` is another. -/
def Outcome.after (d : DWORD) (k : Proper) (e : Entry) : Outcome → Outcome
  | .found d' k' e' => .found d' k' (if d' = d ∧ k' = k then e else e')
  | .failed res => .failed res

/-- A path leads where it led. -/
theorem Leads.changed {d₀ : DWORD} {path : List TCHAR} {o : Outcome} (leads : Leads T d₀ path o) (dir : T.dirs d₀)
    (changed : T.Changed d k e' T') (was : T.names d k = some e) (same : isDir e' ↔ isDir e)
    (first : firstCluster l e' = firstCluster l e) : Leads T' d₀ path (o.after d k e') := by
  have names {d₁ : DWORD} {k₁ : Proper} (dir₁ : T.dirs d₁) :
      T'.names d₁ k₁ = if d₁ = d ∧ k₁ = k then some e' else T.names d₁ k₁ := by
    by_cases at_ : d₁ = d
    · subst at_
      rw [changed.here, Function.update_apply]
      simp only [true_and]
    · rw [changed.there d₁ dir₁ at_, if_neg fun both => at_ both.1]
  induction leads with
  | invalid bad => exact .invalid bad
  | @missing d₁ _ _ k₁ last top none_ =>
    refine .missing top ((names dir).trans ?_)
    rw [if_neg, none_]
    rintro ⟨rfl, rfl⟩
    exact absurd (was.symm.trans none_) (by simp)
  | @found d₁ _ _ k₁ e₁ top is =>
    refine .found top ((names dir).trans ?_)
    rw [is]
    split_ifs <;> rfl
  | @file d₁ _ _ k₁ e₁ top is plain =>
    by_cases here : d₁ = d ∧ k₁ = k
    · obtain ⟨rfl, rfl⟩ := here
      obtain rfl : e₁ = e := Option.some.inj (is.symm.trans was)
      exact .file top ((names dir).trans (if_pos ⟨rfl, rfl⟩)) fun sub => plain (same.1 sub)
    · exact .file top ((names dir).trans ((if_neg here).trans is)) plain
  | @enter d₁ _ _ k₁ e₁ o top is sub _ ih =>
    have inner := ih (T.closed _ _ _ dir is sub)
    by_cases here : d₁ = d ∧ k₁ = k
    · obtain ⟨rfl, rfl⟩ := here
      obtain rfl : e₁ = e := Option.some.inj (is.symm.trans was)
      exact .enter top ((names dir).trans (if_pos ⟨rfl, rfl⟩)) (same.2 sub) (first ▸ inner)
    · exact .enter top ((names dir).trans ((if_neg here).trans is)) sub inner

/-! ## The code on the tree -/

/-- What `f_chmod` or `f_utime` made of the tree, and what every path leads to then. -/
inductive Altered (faulty : Prop) (f : Entry → Entry) (T : Tree l L) (T' : Tree l L') (path : List TCHAR) : FRESULT → Prop
  | origin (here : origin path) (same : T.Same T') : Altered faulty f T T' path .invalidName
  | missed {res : FRESULT} (some_ : ¬origin path) (leads : Leads T 0 (path.dropWhile isSep) (.failed res))
      (bad : res ≠ .ok) (same : T.Same T') : Altered faulty f T T' path res
  | changed {res : FRESULT} {d : DWORD} {k : Proper} {e : Entry} (some_ : ¬origin path)
      (leads : Leads T 0 (path.dropWhile isSep) (.found d k e)) (changed : T.Changed d k (f e) T')
      (others : ∀ path' o, Leads T 0 path' o → Leads T' 0 path' (o.after d k (f e)))
      (result : res = .ok ∨ res = .diskErr ∧ faulty) : Altered faulty f T T' path res
  | failed (bad : faulty) (same : T.Same T') : Altered faulty f T T' path .diskErr

theorem Tree.Same.refl (T : Tree l L) : T.Same T := ⟨rfl, fun _ _ => rfl⟩

theorem twp_fChange {faulty : Prop} {change : Sector → Nat → Sector} {f : Entry → Entry} (alters : Alters change f)
    (T : Tree l L) (sound : T.Sound) (shown : Shown l fs D L) (dj : DIR) (path : List TCHAR) :
    (fChange change fs dj path).twp (rules faulty) (fun r D' => ∃ L', ∃ T' : Tree l L', T'.Sound ∧ Shown l r.2 D' L' ∧
      Altered faulty f T T' path r.1) D := by
  unfold fChange
  apply twp_seq (twp_followPath T shown path)
  rintro ⟨res₁, fs₁, dp₁, noname⟩ D₁ ⟨shown₁, ⟨here, rfl, rfl⟩ | ⟨some_, rfl, o, leads, comes⟩ | ⟨rfl, bad⟩⟩
  · exact ⟨L, T, sound, shown₁, .origin here (.refl T)⟩
  · dsimp only at shown₁ comes ⊢
    cases comes with
    | @found d k e reached =>
      obtain ⟨i, found, at_, looked⟩ := reached.at_
      rw [if_neg (by decide), if_neg (by decide)]
      have written (j : Nat) : cell (change fs₁.win dp₁.dir) (j * 32) =
          if j = i % 16 then f e else cell (L (sectorAt l (T.chain d) (i / 16))) (j * 32) := by
        rw [at_.dir, alters.cells, ← at_.dir, reached.shows, looked.win]
      obtain ⟨T', sound', changed⟩ := T.write sound reached.dir found at_.inside reached.is written
        (fun k' => alters.is k' e) (alters.dir e) (alters.first l e)
      have holds := shown₁.holds.modify (change fs₁.win dp₁.dir)
      rw [looked.winsect] at holds
      apply twp_mono (twp_syncFs holds)
      rintro ⟨res, fs'⟩ D' ⟨synced, holds', result⟩
      refine ⟨_, T', sound', ⟨synced.layout.trans shown₁.layout, holds'⟩, .changed some_ leads changed ?_ result⟩
      exact fun path' o leads' => leads'.changed T.root changed reached.is (alters.dir e) (alters.first l e)
    | failed bad =>
      rw [if_pos bad]
      exact ⟨L, T, sound, shown₁, .missed some_ leads bad (.refl T)⟩
  · exact ⟨L, T, sound, shown₁, .failed bad (.refl T)⟩

/-! ## Runs -/

/-- A call, and what it returned. -/
inductive Call where
  | stat (path : List TCHAR) (res : FRESULT) (fno : FILINFO)
  | chmod (path : List TCHAR) (attr mask : BYTE) (res : FRESULT)
  | utime (path : List TCHAR) (fdate ftime : WORD) (res : FRESULT)

inductive Called (faulty : Prop) : Call → FATFS × Disk → FATFS × Disk → Prop
  | stat {fs fs' : FATFS} {D D' : Disk} {dj : DIR} {path : List TCHAR} {fno fno' : FILINFO} {res : FRESULT}
      (ends : Ends (rules faulty) (fStat fs dj path fno) D (res, fs', fno') D') :
      Called faulty (.stat path res fno') (fs, D) (fs', D')
  | chmod {fs fs' : FATFS} {D D' : Disk} {dj : DIR} {path : List TCHAR} {attr mask : BYTE} {res : FRESULT}
      (ends : Ends (rules faulty) (fChmod fs dj path attr mask) D (res, fs') D') :
      Called faulty (.chmod path attr mask res) (fs, D) (fs', D')
  | utime {fs fs' : FATFS} {D D' : Disk} {dj : DIR} {path : List TCHAR} {fdate ftime : WORD} {res : FRESULT}
      (ends : Ends (rules faulty) (fUtime fs dj path fdate ftime) D (res, fs') D') :
      Called faulty (.utime path fdate ftime res) (fs, D) (fs', D')

/-- What a call says of the tree, and what it makes of it. -/
def Call.Answers (faulty : Prop) (T : Tree l L) (T' : Tree l L') : Call → Prop
  | .stat path res fno => T.Same T' ∧
      ((origin path ∧ res = .invalidName) ∨
        (¬origin path ∧ ∃ o, Leads T 0 (path.dropWhile isSep) o ∧ match o with
          | .found _ _ e => res = .ok ∧ fno = e.fileinfo
          | .failed res' => res = res') ∨
        (res = .diskErr ∧ faulty))
  | .chmod path attr mask res => Altered faulty (chmodEntry attr mask) T T' path res
  | .utime path fdate ftime res => Altered faulty (utimeEntry fdate ftime) T T' path res

/-- Along a run, every call answers from the tree that those before it have made. -/
def Told (faulty : Prop) (l : Layout) : {L : Disk} → Tree l L → List (Call × FATFS × Disk) → Prop
  | _, _, [] => True
  | _, T, (c, _, _) :: rest => ∃ L', ∃ T' : Tree l L', c.Answers faulty T T' ∧ Told faulty l T' rest

theorem Called.answers {faulty : Prop} {call : Call} {v v' : FATFS × Disk} (called : Called faulty call v v')
    (T : Tree l L) (sound : T.Sound) (shown : Shown l v.1 v.2 L) :
    ∃ L', ∃ T' : Tree l L', T'.Sound ∧ Shown l v'.1 v'.2 L' ∧ call.Answers faulty T T' := by
  cases called with
  | stat ends =>
    obtain ⟨shown', told⟩ := ends.of_twp (twp_fStat T shown _ _)
    exact ⟨L, T, sound, shown', .refl T, told⟩
  | chmod ends => exact ends.of_twp (twp_fChange (alters_putAttr _ _) T sound shown _ _)
  | utime ends => exact ends.of_twp (twp_fChange (alters_putTime _ _) T sound shown _ _)

theorem fileinfo_chmod (attr mask : BYTE) (e : Entry) :
    (chmodEntry attr mask e).fileinfo = { e.fileinfo with fattrib := attrib (chmodEntry attr mask e) } := by
  have same {q : Nat} (other : q ≠ 11) : (chmodEntry attr mask e).sector q = e.sector q := by
    unfold Entry.sector
    split_ifs with small
    · exact chmodEntry_ne _ _ _ other
    · rfl
  have name : Times.entryName (chmodEntry attr mask e).sector 0 = Times.entryName e.sector 0 := by
    unfold Times.entryName
    apply List.flatMap_congr
    intro i mem
    rw [same (by have less := List.mem_range.1 mem; omega)]
  have long {p : Nat} (behind : 12 ≤ p) : ldDword (chmodEntry attr mask e).sector (0 + p) = ldDword e.sector (0 + p) := by
    unfold ldDword ldWord
    simp only [Nat.add_assoc]
    rw [same (by omega), same (by omega), same (by omega), same (by omega)]
  unfold Entry.fileinfo Times.getFileinfo
  simp only [name, long (p := dirModTime) (by decide), long (p := Times.dirFileSize) (by decide)]
  rfl

theorem fileinfo_utime (fdate ftime : WORD) (e : Entry) :
    (utimeEntry fdate ftime e).fileinfo = { e.fileinfo with fdate, ftime } := by
  have sector : (utimeEntry fdate ftime e).sector =
      stDword e.sector dirModTime (fdate.setWidth 32 <<< 16 ||| ftime.setWidth 32) := by
    funext q
    have start : dirModTime = 22 := rfl
    by_cases small : q < 32
    · exact dif_pos small
    · rw [stDword_ne _ _ _ (by omega)]
      unfold Entry.sector
      rw [dif_neg small, dif_neg small]
  have name : Times.entryName (utimeEntry fdate ftime e).sector 0 = Times.entryName e.sector 0 := by
    unfold Times.entryName
    apply List.flatMap_congr
    intro i mem
    have less := List.mem_range.1 mem
    have start : dirModTime = 22 := rfl
    rw [sector, stDword_ne _ _ _ (by omega)]
  have attr : (utimeEntry fdate ftime e).sector 11 = e.sector 11 := by
    rw [sector]
    exact stDword_ne _ _ _ (by decide)
  have size : ldDword (utimeEntry fdate ftime e).sector 28 = ldDword e.sector 28 := by
    rw [sector]
    exact Times.ldDword_congr fun _ _ => stDword_ne _ _ _ (.inr (Nat.le_add_right_of_le (by decide)))
  have time : ldDword (utimeEntry fdate ftime e).sector 22 = fdate.setWidth 32 <<< 16 ||| ftime.setWidth 32 := by
    rw [sector]
    exact ldDword_stDword ..
  have low : ((fdate.setWidth 32 <<< 16 ||| ftime.setWidth 32 : DWORD)).setWidth 16 = ftime := by
    apply BitVec.eq_of_getLsbD_eq
    intro i small
    simp only [BitVec.getLsbD_setWidth, BitVec.getLsbD_or, BitVec.getLsbD_shiftLeft]
    simp [small, show i < 32 by omega]
  have high : ((fdate.setWidth 32 <<< 16 ||| ftime.setWidth 32 : DWORD) >>> 16).setWidth 16 = fdate := by
    apply BitVec.eq_of_getLsbD_eq
    intro i small
    simp only [BitVec.getLsbD_setWidth, BitVec.getLsbD_ushiftRight, BitVec.getLsbD_or, BitVec.getLsbD_shiftLeft]
    simp [small, show i < 32 by omega, show 16 + i < 32 by omega, show ¬16 + i < 16 by omega]
  unfold Entry.fileinfo Times.getFileinfo
  simp only [Nat.zero_add, name, attr, size, time, low, high]
  rfl

/-- `f_stat` on the path of the change sees the entry changed. -/
theorem fStat_after {faulty : Prop} {change : Sector → Nat → Sector} {f : Entry → Entry} (alters : Alters change f)
    (T : Tree l L) (sound : T.Sound) (shown : Shown l fs D L) {dj dj' : DIR} {path : List TCHAR} {fs₁ fs₂ : FATFS}
    {D₁ D₂ : Disk} {res : FRESULT} {fno fno' : FILINFO}
    (changing : Ends (rules faulty) (fChange change fs dj path) D (.ok, fs₁) D₁)
    (stat : Ends (rules faulty) (fStat fs₁ dj' path fno) D₁ (res, fs₂, fno') D₂) :
    (res = .diskErr ∧ faulty) ∨
      res = .ok ∧ ∃ d k e, Leads T 0 (path.dropWhile isSep) (.found d k e) ∧ fno' = (f e).fileinfo := by
  obtain ⟨L', T', sound', shown', altered⟩ := changing.of_twp (twp_fChange alters T sound shown dj path)
  obtain ⟨-, told⟩ := stat.of_twp (twp_fStat T' shown' path fno)
  dsimp only at altered
  cases altered with
  | missed _ _ bad => exact absurd rfl bad
  | @changed _ d k e some_ leads changed others =>
    obtain ⟨here, -⟩ | ⟨-, o, leads', answers⟩ | failed := told
    · exact absurd here some_
    · have after := others _ _ leads
      rw [Outcome.after, if_pos ⟨rfl, rfl⟩] at after
      obtain rfl := leads'.unique after
      exact .inr ⟨answers.1, d, k, e, leads, answers.2⟩
    · exact .inl failed

/-- The attributes that `f_chmod` is given are those of `f_stat`, where the mask has them. -/
theorem chmod_seen {faulty : Prop} (T : Tree l L) (sound : T.Sound) (shown : Shown l fs D L) {dj dj' : DIR}
    {path : List TCHAR} {attr mask : BYTE} {fs₁ fs₂ : FATFS} {D₁ D₂ : Disk} {res : FRESULT} {fno fno' : FILINFO}
    (chmod : Ends (rules faulty) (fChmod fs dj path attr mask) D (.ok, fs₁) D₁)
    (stat : Ends (rules faulty) (fStat fs₁ dj' path fno) D₁ (res, fs₂, fno') D₂) :
    (res = .diskErr ∧ faulty) ∨
      res = .ok ∧ ∃ d k e, Leads T 0 (path.dropWhile isSep) (.found d k e) ∧
        fno' = { e.fileinfo with fattrib := attrib (chmodEntry attr mask e) } := by
  refine (fStat_after (alters_putAttr attr mask) T sound shown chmod stat).imp_right ?_
  rintro ⟨ok, d, k, e, leads, is⟩
  exact ⟨ok, d, k, e, leads, is.trans (fileinfo_chmod attr mask e)⟩

/-- The time that `f_utime` is given is that of `f_stat`. -/
theorem utime_seen {faulty : Prop} (T : Tree l L) (sound : T.Sound) (shown : Shown l fs D L) {dj dj' : DIR}
    {path : List TCHAR} {fdate ftime : WORD} {fs₁ fs₂ : FATFS} {D₁ D₂ : Disk} {res : FRESULT} {fno fno' : FILINFO}
    (utime : Ends (rules faulty) (fUtime fs dj path fdate ftime) D (.ok, fs₁) D₁)
    (stat : Ends (rules faulty) (fStat fs₁ dj' path fno) D₁ (res, fs₂, fno') D₂) :
    (res = .diskErr ∧ faulty) ∨
      res = .ok ∧ ∃ d k e, Leads T 0 (path.dropWhile isSep) (.found d k e) ∧ fno' = { e.fileinfo with fdate, ftime } := by
  refine (fStat_after (alters_putTime fdate ftime) T sound shown utime stat).imp_right ?_
  rintro ⟨ok, d, k, e, leads, is⟩
  exact ⟨ok, d, k, e, leads, is.trans (fileinfo_utime fdate ftime e)⟩

end

/-! ## A root with one file -/

theorem sound_sampleTree : sampleTree.Sound where
  tidy d root := by
    obtain rfl : d = 0 := root
    have row : slots sample.fs.toLayout sampleRoot [] = [cell (sampleRoot 2) 0] ++ List.replicate 15 blank := by decide
    have one : kinds.Tidy [cell (sampleRoot 2) 0] := ⟨List.pairwise_singleton .., List.pairwise_singleton ..⟩
    change kinds.Tidy (slots sample.fs.toLayout sampleRoot [])
    rw [row]
    refine one.append fun e mem => ?_
    rw [List.eq_of_mem_replicate mem]
    rfl
  apart d d' root root' other := absurd (Eq.trans root (Eq.symm root')) other

/-- The path `AAAAAAAA.AAA`. -/
def samplePath : List TCHAR := [0x41, 0x41, 0x41, 0x41, 0x41, 0x41, 0x41, 0x41, 0x2E, 0x41, 0x41, 0x41]

theorem leads_samplePath : ¬origin samplePath ∧
    ∃ k, Leads sampleTree 0 (samplePath.dropWhile isSep) (.found 0 k (cell (sampleRoot 2) 0)) := by
  have top : createName samplePath = some ((⟨fun _ => 0x41, by decide, by decide⟩ : Proper).name, true, []) := by decide
  have is : sampleTree.names 0 ⟨fun _ => 0x41, by decide, by decide⟩ = some (cell (sampleRoot 2) 0) := by decide
  refine ⟨by unfold origin; decide, _, .found top is⟩

def sampleObject : DIR := ⟨0, 0, fun _ => 0, 0, 0, 0⟩

/-- A change of the file, and what is seen of it. -/
theorem seen_sample {change : Sector → Nat → Sector} {f : Entry → Entry} (alters : Alters change f) :
    ∃ fs₁ D₁ res fs₂ fno D₂,
      Ends (rules False) (fChange change sample.fs sampleObject samplePath) sampleRoot (.ok, fs₁) D₁ ∧
      Ends (rules False) (fStat fs₁ sampleObject samplePath ⟨0, 0, 0, 0, []⟩) D₁ (res, fs₂, fno) D₂ := by
  have ends₁ : ∃ r D₁, Ends (rules False) (fChange change sample.fs sampleObject samplePath) sampleRoot r D₁ :=
    exists_ends False (twp_fChange alters sampleTree sound_sampleTree shown_sampleRoot _ _)
  obtain ⟨⟨res₁, fs₁⟩, D₁, ends₁⟩ := ends₁
  obtain ⟨L₁, T₁, -, shown₁, altered⟩ :=
    ends₁.of_twp (twp_fChange alters sampleTree sound_sampleTree shown_sampleRoot _ _)
  have ends₂ : ∃ r D₂, Ends (rules False) (fStat fs₁ sampleObject samplePath ⟨0, 0, 0, 0, []⟩) D₁ r D₂ :=
    exists_ends False (twp_fStat T₁ shown₁ _ _)
  obtain ⟨⟨res, fs₂, fno⟩, D₂, ends₂⟩ := ends₂
  obtain ⟨some_, k, leads⟩ := leads_samplePath
  dsimp only at altered
  cases altered with
  | origin here => exact absurd here some_
  | missed _ leads' => cases leads.unique leads'
  | changed _ _ _ _ result =>
    obtain rfl : res₁ = .ok := result.resolve_right fun bad => bad.2
    exact ⟨fs₁, D₁, res, fs₂, fno, D₂, ends₁, ends₂⟩
  | failed bad => exact bad.elim

theorem utime_seen_sample : ∃ fs₁ D₁ fs₂ fno D₂,
    Ends (rules False) (fUtime sample.fs sampleObject samplePath 1 2) sampleRoot (.ok, fs₁) D₁ ∧
    Ends (rules False) (fStat fs₁ sampleObject samplePath ⟨0, 0, 0, 0, []⟩) D₁ (.ok, fs₂, fno) D₂ ∧
    fno.fdate = 1 ∧ fno.ftime = 2 := by
  obtain ⟨fs₁, D₁, res, fs₂, fno, D₂, utime, stat⟩ := seen_sample (alters_putTime 1 2)
  obtain bad | ⟨rfl, d, k, e, -, rfl⟩ := utime_seen sampleTree sound_sampleTree shown_sampleRoot utime stat
  · exact bad.2.elim
  · exact ⟨fs₁, D₁, fs₂, _, D₂, utime, stat, rfl, rfl⟩

/-- The file is made read-only. -/
theorem chmod_seen_sample : ∃ fs₁ D₁ fs₂ fno D₂,
    Ends (rules False) (fChmod sample.fs sampleObject samplePath amRdo amRdo) sampleRoot (.ok, fs₁) D₁ ∧
    Ends (rules False) (fStat fs₁ sampleObject samplePath ⟨0, 0, 0, 0, []⟩) D₁ (.ok, fs₂, fno) D₂ ∧
    fno.fattrib = amRdo := by
  obtain ⟨fs₁, D₁, res, fs₂, fno, D₂, chmod, stat⟩ := seen_sample (alters_putAttr amRdo amRdo)
  obtain bad | ⟨rfl, d, k, e, leads, rfl⟩ := chmod_seen sampleTree sound_sampleTree shown_sampleRoot chmod stat
  · exact bad.2.elim
  · obtain ⟨-, k', leads'⟩ := leads_samplePath
    cases leads.unique leads'
    exact ⟨fs₁, D₁, fs₂, _, D₂, chmod, stat, by decide⟩

end FatFsParticle.Paths
