import FatFsParticle.Dirs.Walking
import FatFsParticle.Slots.Rows

/-!
# Entries of a directory

The entries of a table are a row of slots, whose keys are the names. `dir_find` looks for
the slot of a name, `dir_alloc` for one that is free, `dir_register` puts a new entry into
it, and `dir_remove` takes one out. `dir_read` comes to the next entry there is.
-/

namespace FatFsParticle.Dirs
open Interact Program Fat Links Slots
open Files (FRESULT)
open Drives (FatType)
open Usage (Sector)

/-- A name that an entry can have. `create_name` makes no others. -/
structure Proper where
  name : Name
  some_ : name 0 ≠ 0
  live : name 0 ≠ ddem

theorem Proper.ext {k k' : Proper} (same : k.name = k'.name) : k = k' := by
  cases k
  cases k'
  cases same
  rfl

theorem named_iff {name : Name} {e : Fin 32 → BYTE} :
    named name e ↔ ∀ j : Fin 11, e (j.castLE (by decide)) = name j := by
  simp [named]

/-- Entries as slots. -/
def kinds : Kinds (Fin 32 → BYTE) Proper where
  stop e := mark e = 0
  gone e := mark e = ddem
  is k e := attrib e &&& amVol = 0 ∧ named k.name e
  live := by
    intro k e is
    simp only [decide_eq_true_eq] at is
    have first : mark e = k.name 0 := named_iff.1 is.2 0
    rw [first]
    exact ⟨decide_eq_false k.some_, decide_eq_false k.live⟩
  unique := by
    intro k k' e is is'
    simp only [decide_eq_true_eq] at is is'
    apply Proper.ext
    funext j
    rw [← named_iff.1 is.2 j, ← named_iff.1 is'.2 j]

section
variable {faulty : Prop} {l : Layout} {fs : FATFS} {D L : Disk} {m : List DWORD} {dp : DIR} {n : Nat}
  {sclust : DWORD} {k : Proper}

/-- The window shows the entry `n`. -/
structure Looked (l : Layout) (L : Disk) (m : List DWORD) (fs : FATFS) (n : Nat) : Prop where
  winsect : fs.winsect = sectorAt l m (n / 16)
  win : fs.win = L (sectorAt l m (n / 16))

theorem At.dir (at_ : At l m dp n) : dp.dir = n % 16 * 32 := by
  unfold DIR.dir
  rw [BitVec.toNat_umod, at_.dptr]
  show 32 * n % 512 = _
  omega

theorem At.slot (at_ : At l m dp n) (looked : Looked l L m fs n) :
    (slots l L m)[n]? = some (cell fs.win dp.dir) := by
  rw [getElem?_slots at_.inside, looked.win, at_.dir]

theorem At.drop (at_ : At l m dp n) (looked : Looked l L m fs n) :
    (slots l L m).drop n = cell fs.win dp.dir :: (slots l L m).drop (n + 1) := by
  obtain ⟨less, is⟩ := List.getElem?_eq_some_iff.1 (at_.slot looked)
  rw [List.drop_eq_getElem_cons less, is]

theorem twp_look (shown : Shown l fs D L) (laid : Laid l L sclust m) (at_ : At l m dp n) :
    (moveWindow fs dp.sect).twp (rules faulty) (fun r D' => Shown l r.2 D' L ∧
      (r.1 = .ok ∧ Looked l L m r.2 n ∨ r.1 = .diskErr ∧ faulty)) D := by
  rw [at_.sect]
  apply twp_mono (twp_window shown (laid.own (width_of_size at_.inside)))
  rintro r D' ⟨shown', result⟩
  exact ⟨shown', result.imp_left fun ⟨ok, winsect, win⟩ => ⟨ok, winsect, win⟩⟩

/-! ## dir_find -/

/-- Where `dir_find` has come to. -/
structure Found (l : Layout) (L : Disk) (m : List DWORD) (fs : FATFS) (dp dp' : DIR) (n : Nat) : Prop where
  at_ : At l m dp' n
  looked : Looked l L m fs n
  sclust : dp'.sclust = dp.sclust
  fn : dp'.fn = dp.fn
  attr : dp'.attr = cell fs.win dp'.dir 11 &&& amMask

/-- Induction on the turns: what is behind the entry `n` is looked at. -/
theorem twp_findLoop (shown : Shown l fs D L) (laid : Laid l L sclust m) (at_ : At l m dp n)
    (name : dp.fn = k.name) {turns : Nat} (enough : entries ≤ turns + n) :
    (findLoop turns fs dp).twp (rules faulty) (fun r D' => Shown l r.2.1 D' L ∧
      ((r.1 = .ok ∧ ∃ i, kinds.find k ((slots l L m).drop n) = some i ∧ Found l L m r.2.1 dp r.2.2 (n + i)) ∨
        (r.1 = .noFile ∧ kinds.find k ((slots l L m).drop n) = none) ∨
        (r.1 = .diskErr ∧ faulty))) D := by
  have few := size_le l m
  induction turns generalizing fs D dp n with
  | zero =>
    have inside := at_.inside
    omega
  | succ turns ih =>
    unfold findLoop
    apply twp_seq (twp_look shown laid at_)
    rintro ⟨res, fs₁⟩ D₁ ⟨shown₁, ⟨rfl, looked⟩ | ⟨rfl, bad⟩⟩
    · dsimp only at shown₁ looked ⊢
      rw [if_neg (by decide), at_.drop looked]
      unfold Kinds.find seek
      by_cases stop : cell fs₁.win dp.dir 0 = 0
      · rw [if_pos stop, if_pos (by simpa [kinds] using stop)]
        exact ⟨shown₁, .inr (.inl ⟨rfl, rfl⟩)⟩
      · rw [if_neg stop, if_neg (by simpa [kinds] using stop)]
        by_cases here : cell fs₁.win dp.dir 11 &&& amVol = 0 ∧ named dp.fn (cell fs₁.win dp.dir)
        · have is : kinds.is k (cell fs₁.win dp.dir) := by
            rw [name] at here
            exact decide_eq_true here
          rw [if_pos here, if_pos is]
          exact ⟨shown₁, .inl ⟨rfl, 0, rfl, ⟨at_.dptr, at_.inside, at_.sect, at_.clust⟩, looked, rfl, rfl, rfl⟩⟩
        · have is : ¬kinds.is k (cell fs₁.win dp.dir) := by
            rw [name] at here
            exact fun is => here (of_decide_eq_true is)
          rw [if_neg here, if_neg is]
          have at₁ : At l m { dp with attr := cell fs₁.win dp.dir 11 &&& amMask } n :=
            ⟨at_.dptr, at_.inside, at_.sect, at_.clust⟩
          apply twp_seq (twp_dirNext shown₁ laid at₁ false)
          rintro ⟨res, fs₂, dp₂⟩ D₂ ⟨L₂, shown₂, kept, walked⟩
          dsimp only at shown₂ kept walked ⊢
          cases walked with
          | next at₂ =>
            rw [if_neg (by decide)]
            apply twp_mono (ih shown₂ at₂ (kept.fn.trans name) (by omega))
            rintro ⟨res, fs₃, dp₃⟩ D₃ ⟨shown₃, result⟩
            refine ⟨shown₃, ?_⟩
            rcases result with ⟨ok, i, found, there⟩ | ⟨none_, missed⟩ | failed
            · refine .inl ⟨ok, i + 1, ?_, ?_⟩
              · unfold Kinds.find at found
                rw [found]
                rfl
              · rw [Nat.add_assoc, Nat.add_comm 1 i] at there
                exact ⟨there.at_, there.looked, there.sclust.trans kept.sclust, there.fn.trans kept.fn,
                  there.attr⟩
            · unfold Kinds.find at missed
              exact .inr (.inl ⟨none_, by rw [missed]; rfl⟩)
            · exact .inr (.inr failed)
          | last ends why left =>
            rw [if_pos (by decide)]
            refine ⟨shown₂, .inr (.inl ⟨rfl, ?_⟩)⟩
            rw [List.drop_eq_nil_of_le (by rw [length_slots, ends])]
            rfl
          | grown told => cases told
          | denied told => cases told
          | odd told => cases told
          | failed bad same =>
            rw [if_pos (by decide)]
            obtain rfl := same.resolve_left (by decide)
            exact ⟨shown₂, .inr (.inr ⟨rfl, bad⟩)⟩
    · dsimp only at shown₁ ⊢
      rw [if_pos (by decide)]
      exact ⟨shown₁, .inr (.inr ⟨rfl, bad⟩)⟩

theorem twp_rewind (shown : Shown l fs D L) (laid : Laid l L dp.sclust m) :
    (dirSdi fs dp 0).twp (rules faulty) (fun r D' => Shown l r.2.1 D' L ∧ Kept dp r.2.2 ∧
      (r.1 = .ok ∧ At l m r.2.2 0 ∨ r.1 = .intErr ∧ size l m = 0 ∨ r.1 = .diskErr ∧ faulty)) D := by
  apply twp_mono (twp_dirSdi (n := 0) shown laid (by rfl) (by decide))
  rintro r D' ⟨shown', kept, result⟩
  exact ⟨shown', kept, result.imp_right (.imp_left fun ⟨failed, none_⟩ => ⟨failed, by omega⟩)⟩

theorem twp_dirFind (shown : Shown l fs D L) (laid : Laid l L dp.sclust m) (name : dp.fn = k.name) :
    (dirFind fs dp).twp (rules faulty) (fun r D' => Shown l r.2.1 D' L ∧
      ((r.1 = .ok ∧ ∃ i, kinds.find k (slots l L m) = some i ∧ Found l L m r.2.1 dp r.2.2 i) ∨
        (r.1 = .noFile ∧ kinds.find k (slots l L m) = none) ∨
        (r.1 = .intErr ∧ size l m = 0) ∨ (r.1 = .diskErr ∧ faulty))) D := by
  unfold dirFind
  apply twp_seq (twp_rewind shown laid)
  rintro ⟨res, fs₁, dp₁⟩ D₁ ⟨shown₁, kept, ⟨rfl, at_⟩ | ⟨rfl, none_⟩ | ⟨rfl, bad⟩⟩
  · dsimp only at shown₁ kept at_ ⊢
    rw [if_neg (by decide)]
    apply twp_mono (twp_findLoop shown₁ laid at_ (kept.fn.trans name) (Nat.le_refl _))
    rintro ⟨res, fs₂, dp₂⟩ D₂ ⟨shown₂, ⟨ok, i, found, there⟩ | missed | failed⟩
    · rw [Nat.zero_add] at there
      exact ⟨shown₂, .inl ⟨ok, i, found, there.at_, there.looked, there.sclust.trans kept.sclust,
        there.fn.trans kept.fn, there.attr⟩⟩
    · exact ⟨shown₂, .inr (.inl missed)⟩
    · exact ⟨shown₂, .inr (.inr (.inr failed))⟩
  · exact ⟨shown₁, .inr (.inr (.inl ⟨rfl, none_⟩))⟩
  · exact ⟨shown₁, .inr (.inr (.inr ⟨rfl, bad⟩))⟩

/-! ## dir_alloc -/

/-- What `dir_alloc` comes to for one entry, from the entry `n` on: a free entry, perhaps the
first one of a new cluster. -/
inductive Allocated (faulty : Prop) (l : Layout) (L : Disk) (sclust : DWORD) (m : List DWORD) (n : Nat) :
    FRESULT → FATFS → DIR → Disk → Prop
  | room {fs : FATFS} {dp : DIR} {i : Nat} (free : kinds.room ((slots l L m).drop n) = some i)
      (at_ : At l m dp (n + i)) (looked : Looked l L m fs (n + i)) :
      Allocated faulty l L sclust m n .ok fs dp L
  | grown {fs : FATFS} {dp : DIR} {L' : Disk} {c : DWORD}
      (full : kinds.room ((slots l L m).drop n) = none) (grown : Grown l L L' sclust m c)
      (at_ : At l (m ++ [c]) dp (size l m)) (looked : Looked l L' (m ++ [c]) fs (size l m)) :
      Allocated faulty l L sclust m n .ok fs dp L'
  | full {fs : FATFS} {dp : DIR} {res : FRESULT} (full : kinds.room ((slots l L m).drop n) = none)
      (why : (∀ c, l.Cluster c → l.table L c ≠ 0) ∨ m = [] ∨ size l m = entries)
      (is : res = .noFile ∨ res = .denied) : Allocated faulty l L sclust m n res fs dp L
  | odd {fs : FATFS} {dp : DIR} {c : DWORD} (cluster : l.Cluster c) (one : l.table L c = 1) :
      Allocated faulty l L sclust m n .intErr fs dp L
  | failed {fs : FATFS} {dp : DIR} {L' : Disk} (bad : faulty) : Allocated faulty l L sclust m n .diskErr fs dp L'

theorem twp_allocLoop (shown : Shown l fs D L) (laid : Laid l L sclust m) (at_ : At l m dp n)
    {turns : Nat} (enough : entries ≤ turns + n) :
    (allocLoop 1 turns fs dp 0).twp (rules faulty) (fun r D' => ∃ L', Shown l r.2.1 D' L' ∧ Kept dp r.2.2 ∧
      Allocated faulty l L sclust m n r.1 r.2.1 r.2.2 L') D := by
  have few := size_le l m
  induction turns generalizing fs D dp n with
  | zero =>
    have inside := at_.inside
    omega
  | succ turns ih =>
    unfold allocLoop
    apply twp_seq (twp_look shown laid at_)
    rintro ⟨res, fs₁⟩ D₁ ⟨shown₁, ⟨rfl, looked⟩ | ⟨rfl, bad⟩⟩
    · dsimp only at shown₁ looked ⊢
      rw [if_neg (by decide)]
      have first : fs₁.win dp.dir = cell fs₁.win dp.dir 0 := rfl
      have drop := at_.drop looked
      rw [first]
      by_cases free : cell fs₁.win dp.dir 0 = ddem ∨ cell fs₁.win dp.dir 0 = 0
      · have is : (kinds.stop (cell fs₁.win dp.dir) || kinds.gone (cell fs₁.win dp.dir)) = true := by
          simpa [kinds, or_comm] using free
        rw [decide_eq_true free, if_pos ⟨rfl, rfl⟩]
        refine ⟨L, shown₁, .refl dp, .room (i := 0) ?_ at_ looked⟩
        rw [drop]
        exact if_pos is
      · have is : ¬(kinds.stop (cell fs₁.win dp.dir) || kinds.gone (cell fs₁.win dp.dir)) = true := by
          simpa [kinds, or_comm] using free
        rw [decide_eq_false free, if_neg fun both => Bool.false_ne_true both.1, if_neg Bool.false_ne_true]
        have skip : kinds.room ((slots l L m).drop n) =
            (kinds.room ((slots l L m).drop (n + 1))).map (· + 1) := by
          rw [drop]
          exact if_neg is
        apply twp_seq (twp_dirNext shown₁ laid at_ true)
        rintro ⟨res, fs₂, dp₂⟩ D₂ ⟨L₂, shown₂, kept, walked⟩
        dsimp only at shown₂ kept walked ⊢
        have all (ends : n + 1 = size l m) : kinds.room ((slots l L m).drop n) = none := by
          rw [skip, List.drop_eq_nil_of_le (by rw [length_slots, ends])]
          rfl
        cases walked with
        | next at₂ =>
          rw [if_neg (by decide)]
          apply twp_mono (ih shown₂ at₂ (by omega))
          rintro ⟨res, fs₃, dp₃⟩ D₃ ⟨L₃, shown₃, kept₃, allocated⟩
          refine ⟨L₃, shown₃, ⟨kept₃.sclust.trans kept.sclust, kept₃.attr.trans kept.attr,
            kept₃.fn.trans kept.fn⟩, ?_⟩
          dsimp only at allocated ⊢
          cases allocated with
          | @room _ _ i free at₃ looked₃ =>
            rw [Nat.add_assoc, Nat.add_comm 1 i] at at₃ looked₃
            exact .room (by rw [skip, free]; rfl) at₃ looked₃
          | grown full grown at₃ looked₃ => exact .grown (by rw [skip, full]; rfl) grown at₃ looked₃
          | full full why is => exact .full (by rw [skip, full]; rfl) why is
          | odd cluster one => exact .odd cluster one
          | failed bad => exact .failed bad
        | last ends why left =>
          rw [if_pos (by decide)]
          exact ⟨L, shown₂, kept, .full (all ends) (.inr (why.resolve_left (by decide))) (.inl rfl)⟩
        | @grown _ _ c told ends grown at₂ =>
          rw [if_neg (by decide)]
          obtain ⟨turns, rfl⟩ : ∃ t, turns = t + 1 := by
            have inside := at₂.inside
            have few' := size_le l (m ++ [c])
            exact ⟨turns - 1, by omega⟩
          unfold allocLoop
          apply twp_seq (twp_look shown₂ grown.laid at₂)
          rintro ⟨res, fs₃⟩ D₃ ⟨shown₃, ⟨rfl, looked₃⟩ | ⟨rfl, bad⟩⟩
          · dsimp only at shown₃ looked₃ ⊢
            have slot := at₂.slot looked₃
            rw [grown.slots, ends, List.getElem?_append_right (by simp), length_slots, Nat.sub_self,
              List.getElem?_replicate_of_lt (by have more := grown.more; omega)] at slot
            have zero : fs₃.win dp₂.dir = 0 := (congrFun (Option.some.inj slot) 0).symm
            rw [if_neg (by decide), zero]
            rw [ends] at at₂ looked₃
            exact ⟨L₂, shown₃, kept, .grown (all ends) grown at₂ looked₃⟩
          · dsimp only at shown₃ ⊢
            rw [if_pos (by decide)]
            exact ⟨L₂, shown₃, kept, .failed bad⟩
        | denied told ends none_ =>
          rw [if_pos (by decide)]
          exact ⟨L, shown₂, kept, .full (all ends) (.inl none_) (.inr rfl)⟩
        | odd told ends cluster one =>
          rw [if_pos (by decide)]
          exact ⟨L, shown₂, kept, .odd cluster one⟩
        | failed bad =>
          rw [if_pos (by decide)]
          exact ⟨L₂, shown₂, kept, .failed bad⟩
    · dsimp only at shown₁ ⊢
      rw [if_pos (by decide)]
      exact ⟨L, shown₁, .refl dp, .failed bad⟩

theorem twp_dirAlloc (shown : Shown l fs D L) (laid : Laid l L dp.sclust m) :
    (dirAlloc fs dp 1).twp (rules faulty) (fun r D' => ∃ L', Shown l r.2.1 D' L' ∧ Kept dp r.2.2 ∧
      ((Allocated faulty l L dp.sclust m 0 r.1 r.2.1 r.2.2 L' ∧ r.1 ≠ .noFile) ∨
        (r.1 = .intErr ∧ size l m = 0 ∧ L' = L))) D := by
  unfold dirAlloc
  apply twp_seq (twp_rewind shown laid)
  rintro ⟨res, fs₁, dp₁⟩ D₁ ⟨shown₁, kept, ⟨rfl, at_⟩ | ⟨rfl, none_⟩ | ⟨rfl, bad⟩⟩
  · dsimp only at shown₁ kept at_ ⊢
    rw [if_pos rfl]
    have laid₁ : Laid l L dp.sclust m := laid
    apply twp_seq (twp_allocLoop shown₁ laid₁ at_ (Nat.le_refl _))
    rintro ⟨res, fs₂, dp₂⟩ D₂ ⟨L₂, shown₂, kept₂, allocated⟩
    refine ⟨L₂, shown₂, ⟨kept₂.sclust.trans kept.sclust, kept₂.attr.trans kept.attr,
      kept₂.fn.trans kept.fn⟩, .inl ?_⟩
    dsimp only at allocated ⊢
    cases allocated with
    | room free at_ looked => exact ⟨.room free at_ looked, by simp⟩
    | grown full grown at_ looked => exact ⟨.grown full grown at_ looked, by simp⟩
    | full full why is =>
      have denied : (if res = .noFile then FRESULT.denied else res) = .denied := by
        rcases is with rfl | rfl <;> rfl
      rw [denied]
      exact ⟨.full full why (.inr rfl), by decide⟩
    | odd cluster one => exact ⟨.odd cluster one, by simp⟩
    | failed bad => exact ⟨.failed bad, by simp⟩
  · exact ⟨L, shown₁, kept, .inr ⟨rfl, none_, rfl⟩⟩
  · exact ⟨L, shown₁, kept, .inl ⟨.failed bad, by simp⟩⟩

/-! ## Writing -/

/-- An entry of the window written. -/
theorem Shown.write (shown : Shown l fs D L) (laid : Laid l L sclust m) (looked : Looked l L m fs n)
    (inside : n < size l m) {win : Sector} {e : Fin 32 → BYTE}
    (written : ∀ i, cell win (i * 32) = if i = n % 16 then e else cell fs.win (i * 32)) :
    ∃ L', Shown l (fs.modify win) D L' ∧ Laid l L' sclust m ∧
      slots l L' m = (slots l L m).set n e ∧ Looked l L' m (fs.modify win) n := by
  have holds := shown.holds.modify win
  rw [looked.winsect] at holds
  rw [looked.win] at written
  exact ⟨_, ⟨shown.layout, holds⟩, laid.write (width_of_size inside) win,
    laid.slots_write inside written, looked.winsect, (Function.update_self (sectorAt l m (n / 16)) win L).symm⟩

/-- `dir_register` has put a new entry into the first slot that is free, where the ends `z`
may have been put to the table. -/
structure Registered (l : Layout) (L L' : Disk) (sclust : DWORD) (m m' : List DWORD) (fs : FATFS) (dp dp' : DIR)
    (i : Nat) (z : List (Fin 32 → BYTE)) : Prop where
  laid : Laid l L' sclust m'
  stops : ∀ e ∈ z, kinds.stop e
  room : kinds.room (slots l L m ++ z) = some i
  slots : slots l L' m' = (slots l L m ++ z).set i (newEntry dp.fn)
  at_ : At l m' dp' i
  looked : Looked l L' m' fs i

/-- What `dir_register` comes to. -/
inductive Registering (faulty : Prop) (l : Layout) (L : Disk) (m : List DWORD) (dp : DIR) :
    FRESULT → FATFS → DIR → Disk → Prop
  | put {fs : FATFS} {dp' : DIR} {L' : Disk} {m' : List DWORD} {i : Nat} {z : List (Fin 32 → BYTE)}
      (registered : Registered l L L' dp.sclust m m' fs dp dp' i z) :
      Registering faulty l L m dp .ok fs dp' L'
  | denied {fs : FATFS} {dp' : DIR} (full : kinds.room (slots l L m) = none)
      (why : (∀ c, l.Cluster c → l.table L c ≠ 0) ∨ m = [] ∨ size l m = entries) :
      Registering faulty l L m dp .denied fs dp' L
  | odd {fs : FATFS} {dp' : DIR} (why : size l m = 0 ∨ ∃ c, l.Cluster c ∧ l.table L c = 1) :
      Registering faulty l L m dp .intErr fs dp' L
  | failed {fs : FATFS} {dp' : DIR} {L' : Disk} (bad : faulty) :
      Registering faulty l L m dp .diskErr fs dp' L'

theorem twp_dirRegister (shown : Shown l fs D L) (laid : Laid l L dp.sclust m) :
    (dirRegister fs dp).twp (rules faulty) (fun r D' => ∃ L', Shown l r.2.1 D' L' ∧ Kept dp r.2.2 ∧
      Registering faulty l L m dp r.1 r.2.1 r.2.2 L') D := by
  unfold dirRegister
  apply twp_seq (twp_dirAlloc shown laid)
  rintro ⟨res, fs₁, dp₁⟩ D₁ ⟨L₁, shown₁, kept, ⟨allocated, some_⟩ | ⟨rfl, none_, rfl⟩⟩
  · dsimp only at shown₁ kept allocated some_ ⊢
    have put {m₁ : List DWORD} {i : Nat} {z : List (Fin 32 → BYTE)} (laid₁ : Laid l L₁ dp.sclust m₁)
        (at_ : At l m₁ dp₁ i) (stops : ∀ e ∈ z, kinds.stop e) (row : Dirs.slots l L₁ m₁ = Dirs.slots l L m ++ z)
        (room : kinds.room (Dirs.slots l L m ++ z) = some i) :
        (putEntry fs₁ dp₁).twp (rules faulty) (fun r D' => ∃ L', Shown l r.2.1 D' L' ∧
          Kept dp r.2.2 ∧ Registering faulty l L m dp r.1 r.2.1 r.2.2 L') D₁ := by
      unfold putEntry
      apply twp_seq (twp_look shown₁ laid₁ at_)
      rintro ⟨res, fs₂⟩ D₂ ⟨shown₂, ⟨rfl, looked⟩ | ⟨rfl, bad⟩⟩
      · dsimp only at shown₂ looked ⊢
        rw [if_neg (by decide)]
        have written (j : Nat) : cell (putCell fs₂.win dp₁.dir (newEntry dp₁.fn)) (j * 32) =
            if j = i % 16 then newEntry dp.fn else cell fs₂.win (j * 32) := by
          rw [at_.dir, cell_putCell, kept.fn]
        obtain ⟨L₃, shown₃, laid₃, slots₃, looked₃⟩ := shown₂.write laid₁ looked at_.inside written
        rw [row] at slots₃
        exact ⟨L₃, shown₃, kept, .put ⟨laid₃, stops, room, slots₃, at_, looked₃⟩⟩
      · dsimp only at shown₂ ⊢
        rw [if_pos (by decide)]
        exact ⟨L₁, shown₂, kept, .failed bad⟩
    cases allocated with
    | room free at_ looked =>
      rw [if_neg (by decide)]
      rw [Nat.zero_add] at at_
      exact put (z := []) laid at_ (by simp) (List.append_nil _).symm ((List.append_nil _).symm ▸ free)
    | @grown _ _ _ c full grown at_ looked =>
      rw [if_neg (by decide)]
      have more := grown.more
      obtain ⟨t, count⟩ : ∃ t, size l (m ++ [c]) - size l m = t + 1 :=
        ⟨size l (m ++ [c]) - size l m - 1, by omega⟩
      refine put grown.laid at_ (fun e mem => ?_) grown.slots ?_
      · rw [List.eq_of_mem_replicate mem]
        rfl
      · have first : kinds.room (Dirs.slots l L m ++ blank :: List.replicate t blank) = some _ :=
          Kinds.room_append full rfl
        rw [count, List.replicate_succ, first, length_slots]
    | full full why is =>
      obtain rfl : res = .denied := is.resolve_left some_
      rw [if_pos (by decide)]
      exact ⟨_, shown₁, kept, .denied full why⟩
    | odd cluster one =>
      rw [if_pos (by decide)]
      exact ⟨_, shown₁, kept, .odd (.inr ⟨_, cluster, one⟩)⟩
    | failed bad =>
      rw [if_pos (by decide)]
      exact ⟨L₁, shown₁, kept, .failed bad⟩
  · dsimp only at shown₁ ⊢
    rw [if_pos (by decide)]
    exact ⟨_, shown₁, kept, .odd (.inl none_)⟩

theorem twp_dirRemove (shown : Shown l fs D L) (laid : Laid l L sclust m) (at_ : At l m dp n) :
    (dirRemove fs dp).twp (rules faulty) (fun r D' => ∃ L', Shown l r.2 D' L' ∧ Laid l L' sclust m ∧
      ((r.1 = .ok ∧ ∃ e, (slots l L m)[n]? = some e ∧
          slots l L' m = (slots l L m).set n (Function.update e 0 ddem)) ∨
        (r.1 = .diskErr ∧ faulty ∧ L' = L))) D := by
  unfold dirRemove
  apply twp_seq (twp_look shown laid at_)
  rintro ⟨res, fs₁⟩ D₁ ⟨shown₁, ⟨rfl, looked⟩ | ⟨rfl, bad⟩⟩
  · dsimp only at shown₁ looked ⊢
    rw [if_neg (by decide)]
    have written (j : Nat) : cell (Function.update fs₁.win dp.dir ddem) (j * 32) =
        if j = n % 16 then Function.update (cell fs₁.win dp.dir) 0 ddem else cell fs₁.win (j * 32) := by
      rw [at_.dir, cell_update]
    obtain ⟨L₂, shown₂, laid₂, slots₂, -⟩ := shown₁.write laid looked at_.inside written
    exact ⟨L₂, shown₂, laid₂, .inl ⟨rfl, _, at_.slot looked, slots₂⟩⟩
  · dsimp only at shown₁ ⊢
    rw [if_pos (by decide)]
    exact ⟨L, shown₁, laid, .inr ⟨rfl, bad, rfl⟩⟩

end

end FatFsParticle.Dirs
