import FatFsParticle.Paths.Patterns
import Mathlib.Data.List.TakeWhile

/-!
# Finding names

`f_findnext` reads on until a name matches the pattern, and returns the entries whose names
do, each once and in their order. An entry that shows no name is taken for the end of the
directory. Where the object stays at the last entry and nothing that is left matches,
`f_findnext` does not come back.
-/

namespace FatFsParticle.Paths
open Interact Program Fat Links Slots Dirs Globs
open Files (FRESULT)
open Drives (TCHAR)
open Times (FILINFO)

/-- `fname` as a string. -/
def fnameString (fno : FILINFO) : List TCHAR := fno.fname.takeWhile (· ≠ 0)

/-- `f_findnext`, cut off after some turns. No pattern has more blocks of wildcards than
characters. -/
def fFindnext : Nat → FATFS → DIR → FILINFO → List TCHAR → Prog (FRESULT × FATFS × DIR × FILINFO)
  | 0, _, _, _, _ => .stuck
  | turns + 1, fs, dp, fno, pat => do
    let (res, fs, dp, fno) ← fReaddir fs dp fno
    if res ≠ .ok ∨ fnameString fno = [] then pure (res, fs, dp, fno)
    else (patternMatching (pat.length + 1) pat (fnameString fno) 0 false).elim .stuck fun told =>
      if told then pure (res, fs, dp, fno) else fFindnext turns fs dp fno pat

/-- What `f_findnext` comes back with. -/
def Wanted (pat : List TCHAR) (e : Entry) : Prop :=
  fnameString e.fileinfo = [] ∨ Matches Alike (tokens pat) (fnameString e.fileinfo)

/-- `rest` without what is not wanted at its beginning. -/
def Skips (pat : List TCHAR) (rest rest' : List Entry) : Prop :=
  ∃ skipped, rest = skipped ++ rest' ∧ ∀ e ∈ skipped, ¬Wanted pat e

/-- What was read: the next entry that is wanted, or nothing. -/
def Hit (pat : List TCHAR) (rest : List Entry) (got : FILINFO) : Prop :=
  match rest with
  | [] => got.fname = []
  | e :: _ => Wanted pat e ∧ got = e.fileinfo

section
variable {faulty : Prop} {l : Layout} {fs : FATFS} {D L : Disk} {m : List DWORD} {dp : DIR}
  {sclust : DWORD} {rest : List Entry} {pat : List TCHAR} {given : FILINFO}

theorem whole_fnameString (fno : FILINFO) : Whole (fnameString fno) := by
  intro c mem
  simpa using List.mem_takeWhile_imp mem

/-- The object stays at the last entry, and nothing that is left is wanted. -/
def Hangs (stay : Bool) (pat : List TCHAR) (rest : List Entry) : Prop :=
  stay ∧ rest ≠ [] ∧ ∀ e ∈ rest, ¬Wanted pat e

theorem matching_iff (whole : Whole pat) (fno : FILINFO) :
    ∃ told, patternMatching (pat.length + 1) pat (fnameString fno) 0 false = some told ∧
      (told ↔ Matches Alike (tokens pat) (fnameString fno)) := by
  have few : blocks false pat < pat.length + 1 := Nat.lt_succ_of_le (blocks_le false)
  rw [← after_zero]
  exact patternMatching_tells _ pat _ 0 false few whole (whole_fnameString fno)

/-- Induction on the turns. -/
theorem twp_fFindnext (shown : Shown l fs D L) (laid : Laid l L sclust m) (left : Left l L m dp rest)
    (whole : Whole pat) (good : ¬Hangs (again (slots l L m)) pat rest) {turns : Nat} (enough : rest.length < turns) :
    (fFindnext turns fs dp given pat).twp (rules faulty) (fun r D' => Shown l r.2.1 D' L ∧
      ((r.1 = .ok ∧ ∃ rest', Skips pat rest rest' ∧ Hit pat rest' r.2.2.2 ∧
          Left l L m r.2.2.1 (behind (again (slots l L m)) rest')) ∨
        (r.1 = .diskErr ∧ faulty))) D := by
  induction turns generalizing fs D dp rest given with
  | zero => omega
  | succ turns ih =>
    unfold fFindnext
    apply twp_seq (twp_fReaddir shown laid left given)
    rintro ⟨res, fs₁, dp₁, fno⟩ D₁ ⟨shown₁, -, ⟨rfl, got, left₁⟩ | ⟨rfl, bad⟩⟩
    · dsimp only at shown₁ got left₁ ⊢
      subst got
      cases rest with
      | nil =>
        have none_ : fnameString (handed given []) = [] := rfl
        rw [if_pos (.inr none_)]
        exact ⟨shown₁, .inl ⟨rfl, [], ⟨[], rfl, by simp⟩, rfl, left₁⟩⟩
      | cons e rest =>
        have fno : handed given (e :: rest) = e.fileinfo := rfl
        obtain ⟨told, is, matched⟩ := matching_iff whole e.fileinfo
        rw [fno, is, Option.elim_some]
        by_cases wanted : Wanted pat e
        · have back : Skips pat (e :: rest) (e :: rest) := ⟨[], rfl, by simp⟩
          split_ifs with none_ yes
          · exact ⟨shown₁, .inl ⟨rfl, _, back, ⟨wanted, rfl⟩, left₁⟩⟩
          · exact ⟨shown₁, .inl ⟨rfl, _, back, ⟨wanted, rfl⟩, left₁⟩⟩
          · rw [not_or] at none_
            exact absurd wanted (not_or.2 ⟨none_.2, fun matches_ => yes (matched.2 matches_)⟩)
        · have ⟨some_, other⟩ := not_or.1 wanted
          rw [if_neg (by simp [some_]), if_neg fun yes => other (matched.1 yes)]
          have on : behind (again (slots l L m)) (e :: rest) = rest := by
            rw [behind_cons]
            split
            case isTrue both =>
              refine absurd ⟨both.2, by simp, ?_⟩ good
              intro x mem
              rw [both.1, List.mem_singleton] at mem
              exact mem ▸ wanted
            case isFalse => rfl
          rw [on] at left₁
          have good' : ¬Hangs (again (slots l L m)) pat rest := by
            rintro ⟨stay, -, none_⟩
            refine good ⟨stay, by simp, fun x mem => ?_⟩
            rcases List.mem_cons.1 mem with rfl | mem
            · exact wanted
            · exact none_ x mem
          apply twp_mono (ih shown₁ left₁ good' (by simpa using enough))
          rintro r D' ⟨shown', ⟨ok, rest', ⟨skipped, is, none_⟩, hit, left'⟩ | failed⟩
          · refine ⟨shown', .inl ⟨ok, rest', ⟨e :: skipped, by rw [is]; rfl, fun x mem => ?_⟩, hit, left'⟩⟩
            rcases List.mem_cons.1 mem with rfl | mem
            · exact wanted
            · exact none_ x mem
          · exact ⟨shown', .inr failed⟩
    · exact ⟨shown₁, .inr ⟨rfl, bad⟩⟩

/-- It does not come back, but for a failure of the disk. -/
theorem wp_fFindnext_hangs (shown : Shown l fs D L) (laid : Laid l L sclust m) (left : Left l L m dp rest)
    (whole : Whole pat) (hangs : Hangs (again (slots l L m)) pat rest) (turns : Nat) :
    (fFindnext turns fs dp given pat).wp (rules faulty) (fun r _ => r.1 = .diskErr ∧ faulty) D := by
  induction turns generalizing fs D dp rest given with
  | zero => trivial
  | succ turns ih =>
    obtain ⟨stay, some_, none_⟩ := hangs
    unfold fFindnext
    apply wp_seq (twp_wp (twp_fReaddir shown laid left given))
    rintro ⟨res, fs₁, dp₁, fno⟩ D₁ ⟨shown₁, -, ⟨rfl, got, left₁⟩ | ⟨rfl, bad⟩⟩
    · dsimp only at shown₁ got left₁ ⊢
      subst got
      cases rest with
      | nil => exact absurd rfl some_
      | cons e rest =>
        have fno : handed given (e :: rest) = e.fileinfo := rfl
        have ⟨shows, other⟩ := not_or.1 (none_ e List.mem_cons_self)
        obtain ⟨told, is, matched⟩ := matching_iff whole e.fileinfo
        rw [fno, if_neg (by simp [shows]), is, Option.elim_some, if_neg fun yes => other (matched.1 yes)]
        refine ih shown₁ left₁ ?_
        rw [behind_cons]
        split
        case isTrue both => exact ⟨stay, by simp, fun x mem => none_ x (by rw [both.1]; exact mem)⟩
        case isFalse more =>
          exact ⟨stay, fun empty => more ⟨empty, stay⟩, fun x mem => none_ x (List.mem_cons_of_mem e mem)⟩
    · exact ⟨rfl, bad⟩

/-! ## Runs -/

/-- A call of `f_findnext`, or of something else that moves the window. -/
inductive FindStep (faulty : Prop) (pat : List TCHAR) : Reading → Reader → Reader → Prop
  | read {r : Reader} {given got : FILINFO} {res : FRESULT} {fs' : FATFS} {dp' : DIR} {D' : Disk} {turns : Nat}
      (ends : Ends (rules faulty) (fFindnext turns r.fs r.dp given pat) r.disk (res, fs', dp', got) D') :
      FindStep faulty pat (.read given res got) r ⟨fs', D', dp'⟩
  | look {r : Reader} {sect : DWORD} {res : FRESULT} {fs' : FATFS} {D' : Disk} (own : r.fs.toLayout.Own sect)
      (ends : Ends (rules faulty) (moveWindow r.fs sect) r.disk (res, fs') D') :
      FindStep faulty pat (.look sect) r ⟨fs', D', r.dp⟩

/-- The calls return what is wanted of `rest`, in its order, and then the end, until one
fails on the disk. -/
def Finds (faulty : Prop) (stay : Bool) (pat : List TCHAR) : List Entry → List (Reading × Reader) → Prop
  | _, [] => True
  | rest, (.look _, _) :: l => Finds faulty stay pat rest l
  | rest, (.read _ res got, _) :: l =>
    (res = .ok ∧ ∃ rest', Skips pat rest rest' ∧ Hit pat rest' got ∧ Finds faulty stay pat (behind stay rest') l) ∨
      (res = .diskErr ∧ faulty)

theorem fFindnext_below {turns turns' : Nat} (more : turns ≤ turns') :
    (fFindnext turns fs dp given pat).Below (fFindnext turns' fs dp given pat) := by
  induction turns generalizing turns' fs dp given with
  | zero => trivial
  | succ turns ih =>
    obtain ⟨more', rfl⟩ : ∃ n, turns' = n + 1 := ⟨turns' - 1, by omega⟩
    unfold fFindnext
    refine below_bind (below_refl _) fun ⟨res, fs', dp', fno⟩ => ?_
    refine below_ite (below_refl _) ?_
    cases patternMatching (pat.length + 1) pat (fnameString fno) 0 false with
    | none => trivial
    | some told => exact below_ite (below_refl _) (ih (Nat.le_of_succ_le_succ more))

/-- How a call ends, however many turns it takes. -/
theorem fFindnext_ends (shown : Shown l fs D L) (laid : Laid l L sclust m) (left : Left l L m dp rest)
    (whole : Whole pat) {turns : Nat} {res : FRESULT} {fs' : FATFS} {dp' : DIR} {got : FILINFO} {D' : Disk}
    (ends : Ends (rules faulty) (fFindnext turns fs dp given pat) D (res, fs', dp', got) D') :
    (res = .ok ∧ Shown l fs' D' L ∧ ∃ rest', Skips pat rest rest' ∧ Hit pat rest' got ∧
        Left l L m dp' (behind (again (slots l L m)) rest')) ∨
      (res = .diskErr ∧ faulty) := by
  by_cases hangs : Hangs (again (slots l L m)) pat rest
  · exact .inr (ends.of_wp (wp_fFindnext_hangs shown laid left whole hangs turns))
  · have more := ends.continued (fFindnext_below (Nat.le_add_right turns (rest.length + 1)))
    obtain ⟨shown', result⟩ := more.of_twp (twp_fFindnext shown laid left whole hangs (by omega))
    exact result.imp_left fun ⟨ok, found⟩ => ⟨ok, shown', found⟩

theorem ready_finds {r : Reader} {steps : List (Reading × Reader)} (ready : r.Ready l L m rest)
    (laid : Laid l L sclust m) (whole : Whole pat) (run : Every (FindStep faulty pat) r steps) :
    Finds faulty (again (slots l L m)) pat rest steps := by
  induction steps generalizing r rest with
  | nil => trivial
  | cons p steps ih =>
    obtain ⟨reading, r'⟩ := p
    obtain ⟨step, run⟩ := run
    obtain ⟨shown, left⟩ := ready
    cases step with
    | read ends =>
      rcases fFindnext_ends shown laid left whole ends with ⟨ok, shown', rest', skips, hit, left'⟩ | failed
      · exact .inl ⟨ok, rest', skips, hit, ih ⟨shown', left'⟩ run⟩
      · exact .inr failed
    | look own ends =>
      rw [shown.layout] at own
      obtain ⟨shown', -⟩ := ends.of_twp (twp_window shown own)
      exact ih (r := ⟨_, _, r.dp⟩) ⟨shown', left⟩ run

/-- A directory that is rewound and searched with `f_findnext` again and again, whatever else
is looked at in between. -/
theorem finding {r : Reader} {fs' : FATFS} {dp' : DIR} {D' : Disk} {steps : List (Reading × Reader)}
    (shown : Shown l r.fs r.disk L) (laid : Laid l L r.dp.sclust m) (whole : Whole pat)
    (rewound : Ends (rules faulty) (dirSdi r.fs r.dp 0) r.disk (.ok, fs', dp') D')
    (run : Every (FindStep faulty pat) ⟨fs', D', dp'⟩ steps) :
    Finds faulty (again (slots l L m)) pat (listed (slots l L m)) steps :=
  ready_finds (ready_of_rewound shown laid rewound) laid whole run

/-- On a drive that does not fail, a call comes back unless it hangs. -/
theorem findnext_comes_back_iff (shown : Shown l fs D L) (laid : Laid l L sclust m) (left : Left l L m dp rest)
    (whole : Whole pat) :
    (∃ turns a D', Ends (rules False) (fFindnext turns fs dp given pat) D a D') ↔
      ¬Hangs (again (slots l L m)) pat rest := by
  constructor
  · rintro ⟨turns, a, D', ends⟩ hangs
    exact (ends.of_wp (wp_fFindnext_hangs shown laid left whole hangs turns)).2
  · intro good
    exact ⟨rest.length + 1, exists_ends False (twp_fFindnext shown laid left whole good (Nat.lt_succ_self _))⟩

end

/-! ## A search in a root with one entry -/

/-- `*.a?a` -/
def samplePattern : List TCHAR := [0x2A, 0x2E, 0x61, 0x3F, 0x61]

theorem whole_samplePattern : Whole samplePattern := by
  unfold Whole
  decide

theorem good_sampleRoot {rest : List Entry} :
    ¬Hangs (again (slots sample.fs.toLayout sampleRoot [])) samplePattern rest := by
  rw [again_sampleRoot]
  exact fun hangs => Bool.false_ne_true hangs.1

theorem finding_sample : ∃ steps, steps.length = 1 ∧
    Finds False false samplePattern [cell (sampleRoot 2) 0] steps := by
  obtain ⟨fs₁, dp₁, D₁, rewound⟩ := rewound_sampleRoot
  obtain ⟨shown₁, left⟩ := ready_of_rewound (r := sampleReader) shown_sampleRoot laid_sampleRoot rewound
  obtain ⟨⟨res, fs₂, dp₂, got⟩, D₂, ends⟩ := exists_ends False
    (p := fFindnext _ fs₁ dp₁ ⟨0, 0, 0, 0, []⟩ samplePattern) (twp_fFindnext shown₁ laid_sampleRoot left whole_samplePattern good_sampleRoot
      (Nat.lt_succ_self _))
  have run : Every (FindStep False samplePattern) ⟨fs₁, D₁, dp₁⟩ [(.read _ res got, ⟨fs₂, D₂, dp₂⟩)] :=
    ⟨.read ends, trivial⟩
  have finds := finding (r := sampleReader) shown_sampleRoot laid_sampleRoot whole_samplePattern rewound run
  rw [listed_sampleRoot, again_sampleRoot] at finds
  exact ⟨_, rfl, finds⟩

theorem findnext_comes_back_iff_sample : ∃ fs dp D, ∃ turns a D', Ends (rules False)
    (fFindnext turns fs dp ⟨0, 0, 0, 0, []⟩ samplePattern) D a D' := by
  obtain ⟨fs₁, dp₁, D₁, rewound⟩ := rewound_sampleRoot
  obtain ⟨shown₁, left⟩ := ready_of_rewound (r := sampleReader) shown_sampleRoot laid_sampleRoot rewound
  exact ⟨fs₁, dp₁, D₁, (findnext_comes_back_iff shown₁ laid_sampleRoot left whole_samplePattern).2 good_sampleRoot⟩

end FatFsParticle.Paths
