import FatFsParticle.Locks.Sessions

/-!
# Entries of the table

`inc_lock` counts one object more in the entry of its key, and `dec_lock` one less in the
entry that the object remembers. A mount blanks all entries of the volume, when its objects
are not valid any more.
-/

namespace FatFsParticle.Locks
open Files (FRESULT fsLock)
open Cells Interact

variable {V H : Type} {s t : Session V H} {i j : Fin fsLock} {k : Key V} {a b : Handle V} {h : H}
  {lost lost' : Fin fsLock → Nat} {n : Nat}

/-- How `inc_lock` is told about the access. -/
abbrev access (write : Bool) : Nat := if write then 1 else 0

theorem Fits.lose {ctr : WORD} {readers writers : Nat} {write : Bool}
    (fits : Fits ctr (readers + if write then 0 else 1) (writers + if write then 1 else 0) n) :
    Fits ctr readers writers (n + 1) := by
  cases write
  · rcases fits with ⟨-, none_, -⟩ | ⟨pos, small, alone, sum⟩
    · simp at none_
    · exact .inr ⟨pos, small, by simpa using alone, by simp at sum; omega⟩
  · rcases fits with ⟨full, none_, one⟩ | ⟨-, -, alone, -⟩
    · exact .inl ⟨full, by simpa using none_, by simp at one; omega⟩
    · simp at alone

/-! ## Opening -/

section
variable [Fintype H] [DecidableEq V]

/-- Where an open is counted. -/
structure Placed (s : Session V H) (lost : Fin fsLock → Nat) (k : Key V) (write : Bool)
    (i : Fin fsLock) (e : FILESEM V) (n : Nat) : Prop extends Entering s i e k where
  fits : Fits e.ctr (census (s.counted i false) s.handle + if write then 0 else 1)
    (census (s.counted i true) s.handle + if write then 1 else 0) n
  few : n ≤ lost i
  all : ∀ k', (s.files i).Is k' → lost i ≤ n

/-- The entry of `k`, if there is one, takes another reader. -/
def Session.Shares (s : Session V H) (k : Key V) : Prop :=
  ∀ i, (s.files i).Is k → (s.files i).ctr ≠ writer ∧ (s.files i).ctr ≠ 0xFF

theorem Fits.ctr_ne_zero {ctr : WORD} {readers writers lost : Nat} (fits : Fits ctr readers writers lost) :
    ctr ≠ 0 := by
  rintro rfl
  rcases fits with ⟨other, -⟩ | ⟨pos, -⟩
  · exact absurd other (by decide)
  · exact absurd pos (by decide)

theorem Fits.reader {ctr : WORD} {readers writers lost : Nat} (fits : Fits ctr readers writers lost)
    (shared : ctr ≠ writer) (room : ctr ≠ 0xFF) : Fits (ctr + 1) (readers + 1) writers lost := by
  obtain ⟨other, -⟩ | ⟨pos, small, alone, sum⟩ := fits
  · exact absurd other shared
  · have less : ctr.toNat ≠ 0xFF := fun same => room (BitVec.eq_of_toNat_eq same)
    have next : (ctr + 1).toNat = ctr.toNat + 1 := by
      rw [BitVec.toNat_add, Nat.mod_eq_of_lt]
      · rfl
      · show ctr.toNat + 1 < _
        omega
    exact .inr ⟨by omega, by omega, alone, by omega⟩

theorem Right.placed (right : Right s lost) (mounted : (s.vol k.fs).isSome) {write : Bool}
    (file : write = true → ¬k.IsDir) (shares : write = false → s.Shares k) :
    incLock s.files k (access write) = (0, s.files) ∨ ∃ i e n, Placed s lost k write i e n ∧
      incLock s.files k (access write) = ((i : Nat) + 1, Function.update s.files i e) := by
  generalize taken : incLock s.files k (access write) = r
  cases taken ▸ incLock_counting s.files k (access write) with
  | refused => exact .inl rfl
  | full => exact .inl rfl
  | @again i is free =>
    have fits := right.fits i k.fs is.1 mounted
    cases write with
    | true => exact absurd ⟨by decide, fits.ctr_ne_zero⟩ free
    | false =>
      obtain ⟨shared, room⟩ := shares rfl i is
      refine .inr ⟨i, _, lost i, ?_, rfl⟩
      exact
        { is := is
          old := fun _ => id
          alone := fun j other is' => other (right.distinct j i k is' is)
          dirs := fun _ full => by
            have sum : (s.files i).ctr + 1 = writer := full
            exact room (by bv_omega)
          fits := fits.reader shared room
          few := le_rfl
          all := fun _ _ => le_rfl }
  | @new i none_ blank =>
    refine .inr ⟨i, _, 0, ?_, rfl⟩
    exact
      { is := ⟨rfl, rfl, rfl⟩
        old := fun k' is => absurd blank is.fs_ne
        alone := fun j _ => none_ j
        dirs := fun dir => by
          cases write with
          | true => exact absurd dir (file rfl)
          | false => show (1 : WORD) ≠ writer; decide
        fits := by
          rw [right.blank blank, right.blank blank]
          cases write with
          | true => exact .inl ⟨rfl, rfl, rfl⟩
          | false =>
            show Fits (1 : WORD) _ _ _
            exact .inr ⟨by decide, by decide, rfl, rfl⟩
        few := Nat.zero_le _
        all := fun k' is => absurd blank is.fs_ne }

/-- What becomes of opens that were counted and failed: without a new one they are no
more, and they stay where `clears` does not hold of the volume. -/
structure Carried (s t : Session V H) (lost lost' : Fin fsLock → Nat) (late : Bool)
    (clears : V → Prop) : Prop where
  none_new : late = false → ∀ i, lost' i ≤ lost i
  stay : ∀ i k, (s.files i).Is k → 0 < lost i → ¬clears k.fs → (t.files i).Is k ∧ 0 < lost' i

omit [Fintype H] [DecidableEq V] in
theorem Carried.of_files (same : t.files = s.files) (late : Bool) (clears : V → Prop) :
    Carried s t lost lost late clears where
  none_new _ _ := le_rfl
  stay _ _ is some_ _ := ⟨same ▸ is, some_⟩

omit [DecidableEq V] in
theorem Placed.carried {e : FILESEM V} {write late : Bool} {m : Nat} (placed : Placed s lost k write i e n)
    (files : t.files = Function.update s.files i e) (least : n ≤ m) (tidy : late = false → m = n)
    {clears : V → Prop} : Carried s t lost (Function.update lost i m) late clears where
  none_new none_ x := by
    rw [Function.update_apply]
    split
    case isTrue here => exact tidy none_ ▸ here ▸ placed.few
    case isFalse => exact le_rfl
  stay x k' is some_ _ := by
    rw [files, Function.update_apply, Function.update_apply]
    split
    case isTrue here =>
      subst here
      exact ⟨placed.old k' is, lt_of_lt_of_le some_ (le_trans (placed.all k' is) least)⟩
    case isFalse => exact ⟨is, some_⟩

variable [DecidableEq H]

theorem Right.keep (right : Right s lost) (empty : s.handle h = none) (mounted : (s.vol k.fs).isSome)
    {write : Bool} (file : write = true → ¬k.IsDir) (shares : write = false → s.Shares k)
    (refused : FRESULT) (late : Option FRESULT) (clears : V → Prop) :
    ∃ lost', Right (s.keep h k write refused late).2 lost' ∧
      Carried s (s.keep h k write refused late).2 lost lost' late.isSome clears := by
  unfold Session.keep
  obtain none_ | ⟨i, e, n, placed, counted⟩ := right.placed mounted file shares
  · rw [none_]
    exact ⟨lost, right, .of_files (by rfl) _ _⟩
  · rw [counted]
    dsimp only
    rw [if_neg (Nat.succ_ne_zero _)]
    cases late with
    | some res =>
      exact ⟨_, right.lose placed.toEntering placed.fits.lose,
        placed.carried rfl (Nat.le_succ n) (by simp)⟩
    | none =>
      have valid : s.Valid { key := k, write, id := (s.vol k.fs).getD 0, lockid := i + 1 } := by
        obtain ⟨id, is⟩ := Option.isSome_iff_exists.1 mounted
        simp [Session.Valid, is]
      exact ⟨_, right.take placed.toEntering empty valid rfl placed.fits,
        placed.carried rfl le_rfl fun _ => rfl⟩

end

/-! ## Closing -/

section

theorem release_last {files : Table V} (last : (files i).ctr = writer ∨ (files i).ctr = 1) :
    release files i = Function.update files i { files i with ctr := 0, fs := none } := by
  unfold release
  rcases last with last | last <;> simp [last]

theorem release_more {files : Table V} (more : 1 < (files i).ctr.toNat) (reader : (files i).ctr ≠ writer) :
    release files i = Function.update files i { files i with ctr := (files i).ctr - 1 } := by
  have pos : 0 < (files i).ctr := by bv_omega
  have left : (files i).ctr - 1 ≠ 0 := by bv_omega
  simp only [release, if_neg reader, if_pos pos, if_neg left]

theorem Distinct.narrow {files : Table V} (distinct : Distinct files) {e : FILESEM V}
    (old : ∀ k, e.Is k → (files i).Is k) : Distinct (Function.update files i e) := by
  have back (x : Fin fsLock) (k' : Key V) (is : (Function.update files i e x).Is k') : (files x).Is k' := by
    rw [Function.update_apply] at is
    split at is
    case isTrue here => exact here ▸ old k' is
    case isFalse => exact is
  exact fun x y k' at_ at' => distinct x y k' (back x k' at_) (back y k' at')

/-- One object less: the last one leaves the entry blank. -/
theorem Fits.release {ctr : WORD} {readers writers lost : Nat} {write : Bool}
    (fits : Fits ctr (readers + if write then 0 else 1) (writers + if write then 1 else 0) lost) :
    ((ctr = writer ∨ ctr = 1) ∧ readers = 0 ∧ writers = 0 ∧ lost = 0) ∨
      (1 < ctr.toNat ∧ ctr ≠ writer ∧ ctr - 1 ≠ writer ∧ Fits (ctr - 1) readers writers lost) := by
  rcases fits with ⟨full, none_, one⟩ | ⟨pos, small, alone, sum⟩
  · cases write
    · simp at none_
    · simp at none_ one
      exact .inl ⟨.inl full, by omega, by omega, by omega⟩
  · cases write
    · simp at alone sum
      by_cases last : ctr.toNat = 1
      · exact .inl ⟨.inr (BitVec.eq_of_toNat_eq last), by omega, alone, by omega⟩
      · have less : (ctr - 1).toNat = ctr.toNat - 1 := by bv_omega
        have reader {n : WORD} (below : n.toNat < 0x100) : n ≠ writer := by
          rintro rfl
          exact absurd below (by decide)
        exact .inr ⟨by omega, reader small, reader (by omega), .inr ⟨by omega, by omega, alone, by omega⟩⟩
    · simp at alone

variable [Fintype H] [DecidableEq H]

theorem Session.counted_others (has : s.handle h = some a) (valid : s.Valid a) (lockid : a.lockid = i + 1) :
    (census (s.counted i false) (Function.update s.handle h none) + if a.write then 0 else 1) =
        census (s.counted i false) s.handle ∧
      (census (s.counted i true) (Function.update s.handle h none) + if a.write then 1 else 0) =
        census (s.counted i true) s.handle := by
  rw [← census_clear has, ← census_clear (p := s.counted i true) has, counted_self valid lockid,
    counted_self valid lockid]
  cases a.write <;> exact ⟨rfl, rfl⟩

/-- The entry `i` of an object closed, which becomes `e`. -/
structure Leaving (s : Session V H) (lost : Fin fsLock → Nat) (h : H) (i : Fin fsLock) (e : FILESEM V) :
    Prop where
  old : ∀ k, e.Is k → (s.files i).Is k
  rest : e.fs = none ∧ lost i = 0 ∧ (∀ write, census (s.counted i write) (Function.update s.handle h none) = 0) ∨
    (∀ k, (s.files i).Is k → e.Is k) ∧ e.ctr ≠ writer ∧
      Fits e.ctr (census (s.counted i false) (Function.update s.handle h none))
        (census (s.counted i true) (Function.update s.handle h none)) (lost i)

theorem Right.leaving (right : Right s lost) (has : s.handle h = some a) (valid : s.Valid a)
    (lockid : a.lockid = i + 1) :
    ∃ e, release s.files i = Function.update s.files i e ∧ Leaving s lost h i e := by
  have fits := right.fits_of has valid lockid
  obtain ⟨readers, writers⟩ := Session.counted_others has valid lockid
  rw [← readers, ← writers] at fits
  obtain ⟨last, none_, none', lost_⟩ | ⟨more, reader, reader', fits'⟩ := fits.release
  · refine ⟨_, release_last last, fun k is => absurd rfl is.fs_ne, .inl ⟨rfl, lost_, ?_⟩⟩
    intro write
    cases write
    · exact none_
    · exact none'
  · exact ⟨_, release_more more reader, fun _ => id, .inr ⟨fun _ => id, reader', fits'⟩⟩

/-- An object closed that was counted in the entry `i`. -/
theorem Right.leave (right : Right s lost) (has : s.handle h = some a) (lockid : a.lockid = i + 1)
    {e : FILESEM V} (leave : Leaving s lost h i e) :
    Right { s with
      files := Function.update s.files i e, handle := Function.update s.handle h none } lost where
  distinct := right.distinct.narrow leave.old
  fits x fs used mounted := by
    change Fits _ (census (s.counted x false) (Function.update s.handle h none))
      (census (s.counted x true) (Function.update s.handle h none)) _
    dsimp only at used ⊢
    rw [Function.update_apply] at used ⊢
    split
    case isTrue here =>
      subst here
      rw [if_pos rfl] at used
      obtain ⟨blank, -⟩ | ⟨-, -, fits⟩ := leave.rest
      · exact absurd (used.symm.trans blank) (Option.some_ne_none _)
      · exact fits
    case isFalse away =>
      rw [if_neg away] at used
      have same (write : Bool) : census (s.counted x write) (Function.update s.handle h none) =
          census (s.counted x write) s.handle := by
        simpa [s.counted_ne away write lockid] using census_clear (p := s.counted x write) has
      rw [same, same]
      exact right.fits x fs used mounted
  told h' b has' valid' locked := by
    dsimp only at has' ⊢
    rw [Function.update_apply] at has'
    split at has'
    case isTrue => cases has'
    case isFalse other =>
      obtain ⟨x, lockid', is⟩ := right.told h' b has' valid' locked
      refine ⟨x, lockid', ?_⟩
      rw [Function.update_apply]
      split
      case isTrue here =>
        subst here
        obtain ⟨-, -, none_⟩ | ⟨stays, -⟩ := leave.rest
        · have still : Function.update s.handle h none h' = some b := by
            rw [Function.update_of_ne other, has']
          have zero := census_eq_zero.1 (none_ b.write) h' b still
          rw [s.counted_self valid' lockid'] at zero
          simp at zero
        · exact stays _ is
      case isFalse => exact is
  dirs x k' is dir := by
    dsimp only at is ⊢
    rw [Function.update_apply] at is ⊢
    split
    case isTrue here =>
      rw [if_pos here] at is
      obtain ⟨blank, -⟩ | ⟨-, reader, -⟩ := leave.rest
      · exact absurd blank is.fs_ne
      · exact reader
    case isFalse away =>
      rw [if_neg away] at is
      exact right.dirs x k' is dir

theorem Leaving.carried {e : FILESEM V} (leave : Leaving s lost h i e) (late : Bool)
    (clears : V → Prop) (files : t.files = Function.update s.files i e) :
    Carried s t lost lost late clears where
  none_new _ _ := le_rfl
  stay x k' is some_ _ := by
    rw [files, Function.update_apply]
    split
    case isTrue here =>
      subst here
      obtain ⟨-, zero, -⟩ | ⟨stays, -⟩ := leave.rest
      · exact absurd zero (Nat.ne_of_gt some_)
      · exact ⟨stays k' is, some_⟩
    case isFalse => exact ⟨is, some_⟩

end

/-! ## Mounting -/

/-- A volume mounted or not mounted any more: its objects are not valid, and if it is
mounted, it has no entries. -/
structure Turned (s t : Session V H) (fs : V) : Prop where
  handle : t.handle = s.handle
  files : ∀ i, t.files i = s.files i ∨ (s.files i).fs = some fs ∧ (t.files i).fs = none
  vol : ∀ v, v ≠ fs → t.vol v = s.vol v
  stale : ∀ h a, s.handle h = some a → a.key.fs = fs → t.Valid a = false
  clear : (t.vol fs).isSome → ∀ i, (t.files i).fs ≠ some fs

theorem Turned.of_used {fs : V} (turn : Turned s t fs) {v : V} (used : (t.files i).fs = some v) :
    t.files i = s.files i := by
  obtain same | ⟨-, blank⟩ := turn.files i
  · exact same
  · exact absurd (used.symm.trans blank) (Option.some_ne_none _)

theorem Turned.valid {fs : V} (turn : Turned s t fs) (has : s.handle h = some a) (valid : t.Valid a) :
    a.key.fs ≠ fs ∧ s.Valid a := by
  have other : a.key.fs ≠ fs := by
    intro same
    rw [turn.stale h a has same] at valid
    cases valid
  refine ⟨other, ?_⟩
  rw [Session.Valid, ← turn.vol _ other]
  exact valid

section
variable [Fintype H]

theorem Turned.counted {fs v : V} (turn : Turned s t fs) (right : Right s lost) (has : s.handle h = some a)
    (used : (s.files i).fs = some v) (other : v ≠ fs) (write : Bool) :
    t.counted i write a = s.counted i write a := by
  by_cases here : a.key.fs = fs
  · rw [Session.counted, turn.stale h a has here, Bool.false_and, Bool.false_and, Session.counted]
    by_cases valid : s.Valid a
    · by_cases lockid : a.lockid = i + 1
      · have on := (right.is has valid lockid).1
        exact absurd (Option.some.inj (used.symm.trans on) |>.trans here) other
      · simp [lockid]
    · simp [valid]
  · have same : t.Valid a = s.Valid a := by
      rw [Session.Valid, Session.Valid, turn.vol _ here]
    rw [Session.counted, Session.counted, same]

theorem Right.turn (right : Right s lost) {fs : V} (turn : Turned s t fs) : Right t lost where
  distinct x y k' at_ at' := by
    rw [turn.of_used at_.1] at at_
    rw [turn.of_used at'.1] at at'
    exact right.distinct x y k' at_ at'
  fits x v used mounted := by
    have same := turn.of_used used
    have other : v ≠ fs := by
      rintro rfl
      exact turn.clear mounted x used
    rw [same] at used
    have counts (write : Bool) :
        census (t.counted x write) t.handle = census (s.counted x write) s.handle := by
      rw [turn.handle]
      refine census_congr fun h => ?_
      cases has : s.handle h with
      | none => rfl
      | some a => exact turn.counted right has used other write
    rw [same, counts, counts]
    exact right.fits x v used (turn.vol v other ▸ mounted)
  told h a has valid locked := by
    rw [turn.handle] at has
    obtain ⟨other, valid'⟩ := turn.valid has valid
    obtain ⟨x, lockid, is⟩ := right.told h a has valid' locked
    refine ⟨x, lockid, ?_⟩
    obtain same | ⟨gone, -⟩ := turn.files x
    · exact same ▸ is
    · exact absurd (Option.some.inj (is.1.symm.trans gone)) other
  dirs x k' is dir := by
    have same := turn.of_used is.1
    rw [same] at is ⊢
    exact right.dirs x k' is dir

end

section
variable [DecidableEq V]

theorem clearLock_cases (files : Table V) (fs : V) (i : Fin fsLock) :
    clearLock files fs i = files i ∨ (files i).fs = some fs ∧ (clearLock files fs i).fs = none := by
  unfold clearLock
  split
  case isTrue here => exact .inr ⟨here, rfl⟩
  case isFalse => exact .inl rfl

theorem clearLock_ne (files : Table V) (fs : V) (i : Fin fsLock) : (clearLock files fs i).fs ≠ some fs := by
  obtain same | ⟨-, none_⟩ := clearLock_cases files fs i
  · intro here
    rw [same] at here
    unfold clearLock at same
    rw [if_pos here] at same
    exact absurd (same ▸ here) (by simp)
  · simp [none_]

variable [DecidableEq H]

theorem turned_mount {fs : V} (legal : s.Legal (.mount fs)) : Turned s (s.perform (.mount fs)).2 fs where
  handle := rfl
  files := clearLock_cases s.files fs
  vol v other := Function.update_of_ne other _ _
  stale h a has here := by
    have fresh := legal h a has here
    simpa [Session.Valid, Session.perform, here] using fresh.symm
  clear _ := clearLock_ne s.files fs

theorem turned_unmount (fs : V) : Turned s (s.perform (.unmount fs)).2 fs where
  handle := rfl
  files := clearLock_cases s.files fs
  vol v other := Function.update_of_ne other _ _
  stale h a has here := by simp [Session.Valid, Session.perform, here]
  clear _ := clearLock_ne s.files fs

theorem turned_drop (fs : V) : Turned s (s.perform (.drop fs)).2 fs where
  handle := rfl
  files _ := .inl rfl
  vol v other := Function.update_of_ne other _ _
  stale h a has here := by simp [Session.Valid, Session.perform, here]
  clear mounted := by simp [Session.perform] at mounted

end

end FatFsParticle.Locks
