import FatFsParticle.Sdspi.Keep

/-!
# STA_NOINIT guards the card

From the log alone, `needsInit` tells whether the driver must take the card for
uninitialised: no `initialize()` has succeeded since the start, or since the
slot was last seen empty. `Guarded` says the status byte knows, and that it knew
all along: `Minded` is about every byte and every mark on the log. It does in every
run in which no `status()` meets an empty slot, and no `initialize()` meets one
while STA_NOINIT is clear or inside `read`, whose loop goes on after its recovery.
-/

namespace FatFsParticle.Sdspi
open Interact Program

variable {σ α : Type} {b : Board σ} {m m' : Machine σ}

def needsInit : List Event → Bool
  | [] => true
  | e :: older =>
    if foundEmpty (e :: older) then true
    else if initialized (e :: older) then false
    else needsInit older

/-- The newest event is the start of an `initialize()` with STA_NOINIT set, and not the
recovery of a `read`. -/
def startsUninitialised : List Event → Bool
  | .mark (.enter .initializeCard) d :: before =>
    d.status &&& staNoinit != 0 && !inside .read before
  | _ => false

/-- What the code gets wrong does not happen: an empty slot is only ever met by
`initialize()`, with STA_NOINIT set and outside `read`. -/
def Calm : List Event → Prop
  | [] => True
  | e :: older => Calm older ∧ (foundEmpty (e :: older) = true → startsUninitialised older = true)

instance decidableCalm : (log : List Event) → Decidable (Calm log)
  | [] => .isTrue trivial
  | e :: older =>
    have := decidableCalm older
    inferInstanceAs (Decidable (Calm older ∧
      (foundEmpty (e :: older) = true → startsUninitialised older = true)))

/-- While the card counts as uninitialised, bytes are exchanged inside `initialize()`
only, and STA_NOINIT is set whenever a call begins or ends. -/
def Minded : List Event → Prop
  | [] => True
  | .byte _ _ _ _ :: older =>
    Minded older ∧ (needsInit older = true → inside .initializeCard older = true)
  | .mark k d :: older =>
    Minded older ∧ (needsInit (.mark k d :: older) = true → d.status &&& staNoinit ≠ 0)
  | .tick _ :: older | .pin _ _ :: older => Minded older

structure Guarded (m : Machine σ) : Prop where
  noinit : needsInit m.log = true → m.drv.status &&& staNoinit ≠ 0
  typed : m.drv.status &&& staNoinit = 0 → m.drv.cardType ≠ 0
  minded : Minded m.log

/-- No byte was exchanged between `m` and `m'`. -/
def Silent (m m' : Machine σ) : Prop :=
  ∃ new, m'.log = new ++ m.log ∧ ∀ e ∈ new, ∀ cs hz x y, e ≠ Event.byte cs hz x y

/-! ## Bits -/

theorem protect_noinit (wp : Bool) (s : DSTATUS) :
    (if wp then s ||| staProtect else s &&& ~~~staProtect) &&& staNoinit = s &&& staNoinit := by
  revert s
  cases wp <;> decide

/-! ## Logs -/

theorem calm_suffix {l log : List Event} (h : Calm (l ++ log)) : Calm log := by
  induction l with
  | nil => exact h
  | cons e l ih => exact ih h.1

theorem minded_inner {hz : DWORD} {l log : List Event} (h : ∀ e ∈ l, e.IsInner hz)
    (during : inside .initializeCard log = true) (old : Minded log) : Minded (l ++ log) := by
  induction l with
  | nil => exact old
  | cons e l ih =>
    have inner : ∀ e ∈ l, e.IsInner hz := fun e he => h e (List.mem_cons_of_mem _ he)
    cases e with
    | byte => exact ⟨ih inner, fun _ => (inside_inner inner _ _).trans during⟩
    | tick | pin => exact ih inner
    | mark k d => exact (h _ List.mem_cons_self).elim

theorem needsInit_traffic {hz : DWORD} {l : List Event} (h : ∀ e ∈ l, e.IsTraffic hz)
    (log : List Event) : needsInit (l ++ log) = needsInit log := by
  induction l with
  | nil => rfl
  | cons e l ih =>
    have rest := ih fun e he => h e (List.mem_cons_of_mem _ he)
    have he := h e List.mem_cons_self
    cases e with
    | byte | tick => simpa [needsInit, foundEmpty, initialized] using rest
    | pin | mark => exact he.elim

/-- Pins read after a byte tell nothing of the slot. -/
theorem needsInit_inner {hz : DWORD} {l : List Event} (h : ∀ e ∈ l, e.IsInner hz) {x : Event}
    (hx : x.IsTraffic hz) (log : List Event) : needsInit (l ++ x :: log) = needsInit log := by
  induction l with
  | nil => exact needsInit_traffic (l := [x]) (by simpa using hx) log
  | cons e l ih =>
    have notEmpty := foundEmpty_inner h hx log
    have rest := ih fun e he => h e (List.mem_cons_of_mem _ he)
    have notDone : initialized (e :: l ++ x :: log) = false := by
      cases e with
      | byte | tick | pin => rfl
      | mark k d => exact (h _ List.mem_cons_self).elim
    rw [List.cons_append] at notEmpty notDone ⊢
    rw [needsInit, notEmpty, notDone]
    exact rest

theorem minded_traffic {hz : DWORD} {l log : List Event} (h : ∀ e ∈ l, e.IsTraffic hz)
    (ready : needsInit log = false) (old : Minded log) : Minded (l ++ log) := by
  induction l with
  | nil => exact old
  | cons e l ih =>
    have traffic : ∀ e ∈ l, e.IsTraffic hz := fun e he => h e (List.mem_cons_of_mem _ he)
    have he := h e List.mem_cons_self
    cases e with
    | byte =>
      have still := (needsInit_traffic traffic log).trans ready
      exact ⟨ih traffic, fun hn => absurd (hn.symm.trans still) (by simp)⟩
    | tick => exact ih traffic
    | pin | mark => exact he.elim

/-! ## `initialize()`, `status()` and `read` -/

theorem passed_guarded (h : Passed m m') (ready : needsInit m.log = false) (hm : Guarded m) :
    Guarded m' := by
  obtain ⟨new, hlog, traffic⟩ := h.log
  have same : needsInit m'.log = needsInit m.log := by
    rw [hlog, needsInit_traffic traffic]
  refine ⟨?_, ?_, ?_⟩
  · rw [same, h.drv]
    exact hm.noinit
  · rw [h.drv]
    exact hm.typed
  · rw [hlog]
    exact minded_traffic traffic ready hm.minded

theorem initializeCard_guarded {fuel : Nat} {st : DSTATUS}
    (h : exec b (initializeCard fuel) m = some (st, m')) (calm : Calm m'.log) (hm : Guarded m) :
    Guarded m' := by
  have entered : Minded (.mark (.enter .initializeCard) m.drv :: m.log) := ⟨hm.minded, hm.noinit⟩
  cases initializeCard_outcome h with
  | empty level absent status enabled read drv log =>
    rw [log] at calm
    have found : foundEmpty (.pin m.drv.cd level :: .mark (.enter .initializeCard) m.drv :: m.log) =
        true := by simp [foundEmpty, enabled, read]
    have noinit : m'.drv.status &&& staNoinit ≠ 0 := by
      have starts := calm.1.2 found
      rw [startsUninitialised, Bool.and_eq_true, bne_iff_ne] at starts
      rw [drv]
      exact starts.1
    exact ⟨fun _ => noinit, fun clear => absurd clear noinit, log ▸ ⟨entered, fun _ => noinit⟩⟩
  | concluded ty w pins traffic cd y present status drv wpEnabled wp wpActiveState log inner
      is_traffic detect =>
    have notEmpty := foundEmpty_inner inner (x := .byte .high m.drv.activeClock 0xFF y) rfl
      (traffic ++ (cd ++ .mark (.enter .initializeCard) m.drv :: m.log))
    have noinit : needsInit m'.log = true → m'.drv.status &&& staNoinit ≠ 0 := by
      intro hn clear
      have done : initialized m'.log = true := by
        rw [log]
        simpa [initialized] using And.intro clear notEmpty
      rw [log] at hn done
      rw [needsInit, if_neg (by simp [foundEmpty]), if_pos done] at hn
      cases hn
    refine ⟨noinit, ?_, ?_⟩
    · intro clear
      rw [drv] at clear ⊢
      exact (concludedStatus_noinit _ _ _).1 clear
    · have cd_inner : ∀ e ∈ cd, e.IsInner m.drv.activeClock := by
        rcases detect with ⟨-, rfl⟩ | ⟨-, rfl⟩ <;> simp [Event.IsInner]
      have during : ∀ e ∈ pins ++ .byte .high m.drv.activeClock 0xFF y :: (traffic ++ cd),
          e.IsInner m.drv.activeClock := by
        intro e he
        simp only [List.mem_append, List.mem_cons] at he
        rcases he with he | rfl | he | he
        · exact inner e he
        · rfl
        · exact (is_traffic e he).inner
        · exact cd_inner e he
      rw [log] at noinit ⊢
      refine ⟨?_, noinit⟩
      simpa using minded_inner during rfl entered

theorem status_guarded {st : DSTATUS} (h : exec b status m = some (st, m')) (calm : Calm m'.log)
    (hm : Guarded m) : Guarded m' ∧ st &&& staNoinit = m.drv.status &&& staNoinit := by
  cases status_outcome h with
  | empty level absent status enabled read drv log =>
    rw [log] at calm
    have found : foundEmpty (.pin m.drv.cd level :: .mark (.enter .status) m.drv :: m.log) =
        true := by simp [foundEmpty, enabled, read]
    exact absurd (calm.1.2 found) (by simp [startsUninitialised])
  | present w pins cd present status drv same log shape detect =>
    have kept : m'.drv.status &&& staNoinit = m.drv.status &&& staNoinit := by
      rw [drv]
      exact protect_noinit _ _
    have old : needsInit m'.log = needsInit m.log := by
      rw [log]
      rcases shape with ⟨-, rfl⟩ | ⟨-, level, rfl⟩ <;>
        rcases detect with ⟨disabled, rfl⟩ | ⟨-, rfl⟩ <;>
        simp [needsInit, foundEmpty, initialized, *]
    have noinit : needsInit m'.log = true → m'.drv.status &&& staNoinit ≠ 0 := by
      rw [old, kept]
      exact hm.noinit
    refine ⟨⟨noinit, ?_, ?_⟩, status ▸ kept⟩
    · rw [kept, drv]
      exact hm.typed
    · have entered : Minded (.mark (.enter .status) m.drv :: m.log) := ⟨hm.minded, hm.noinit⟩
      rw [log] at noinit ⊢
      refine ⟨?_, noinit⟩
      rcases shape with ⟨-, rfl⟩ | ⟨-, level, rfl⟩ <;>
        rcases detect with ⟨-, rfl⟩ | ⟨-, rfl⟩ <;>
        exact entered

/-- The recovery of a `read` that meets a card leaves it initialised or tries again later. -/
theorem recovery_ready {fuel : Nat} {st : DSTATUS}
    (h : exec b (initializeCard fuel) m = some (st, m')) (within : inside .read m.log = true)
    (ready : needsInit m.log = false) (calm : Calm m'.log) : needsInit m'.log = false := by
  cases initializeCard_outcome h with
  | empty level absent status enabled read drv log =>
    rw [log] at calm
    have found : foundEmpty (.pin m.drv.cd level :: .mark (.enter .initializeCard) m.drv :: m.log) =
        true := by simp [foundEmpty, enabled, read]
    have starts := calm.1.2 found
    simp [startsUninitialised, within] at starts
  | concluded ty w pins traffic cd y present status drv wpEnabled wp wpActiveState log inner
      is_traffic detect =>
    have byte : (Event.byte .high m.drv.activeClock 0xFF y).IsTraffic m.drv.activeClock := rfl
    have begun : needsInit (cd ++ .mark (.enter .initializeCard) m.drv :: m.log) = false := by
      rcases detect with ⟨-, rfl⟩ | ⟨-, rfl⟩ <;>
        simpa [needsInit, foundEmpty, initialized] using ready
    rw [log, needsInit, if_neg (by simp [foundEmpty])]
    split
    · rfl
    · rw [needsInit_inner inner byte, needsInit_traffic is_traffic, begun]

/-! ## The invariant -/

/-- A pin read now is no presence check of `initialize()` or `status()`. -/
def Settled (log : List Event) : Prop := ∀ p l, foundEmpty (.pin p l :: log) = false

/-- `Guarded`, as long as the run is calm. -/
structure Watched (m : Machine σ) : Prop where
  settled : Settled m.log
  guarded : Calm m.log → Guarded m

/-- Past the readiness check of a call. -/
structure Admitted (m : Machine σ) : Prop extends Watched m where
  ready : Calm m.log → needsInit m.log = false

/-- Changes of members that `Guarded` does not read. -/
theorem Watched.of_same (h : Watched m) (log : m'.log = m.log)
    (status : m'.drv.status = m.drv.status) (cardType : m'.drv.cardType = m.drv.cardType) :
    Watched m' := by
  refine ⟨log ▸ h.settled, fun calm => ?_⟩
  have old := h.guarded (log ▸ calm)
  exact ⟨by rw [log, status]; exact old.noinit, by rw [status, cardType]; exact old.typed,
    log ▸ old.minded⟩

theorem needsInit_mark {k : Mark} (hk : k.IsTransfer) (d : SdspiDriver) (log : List Event) :
    needsInit (.mark k d :: log) = needsInit log := by
  cases k with
  | enter f => rfl
  | leave f => cases f <;> simp_all [needsInit, foundEmpty, initialized, Mark.IsTransfer]

theorem needsInit_pin (h : Settled m.log) (p : Pin) (l : Level) :
    needsInit (.pin p l :: m.log) = needsInit m.log := by
  simp [needsInit, h p l, initialized]

theorem watched_mark {k : Mark} (hk : k.IsTransfer) (h : Watched m) : Watched (m.marked k) := by
  constructor
  · intro p l
    cases k with
    | leave f => rfl
    | enter f => cases f <;> simp_all [foundEmpty, Mark.IsTransfer]
  · intro calm
    have old := h.guarded calm.1
    have noinit : needsInit (.mark k m.drv :: m.log) = true → m.drv.status &&& staNoinit ≠ 0 := by
      rw [needsInit_mark hk]
      exact old.noinit
    exact ⟨noinit, old.typed, old.minded, noinit⟩

theorem watched_pin {s : σ} (h : Watched m) (p : Pin) (l : Level) :
    Watched { m with log := .pin p l :: m.log, env := s } := by
  refine ⟨fun _ _ => rfl, fun calm => ?_⟩
  have old := h.guarded calm.1
  refine ⟨?_, old.typed, old.minded⟩
  rw [needsInit_pin h.settled]
  exact old.noinit

theorem watched_stays : Stays (Watched (σ := σ)) where
  lock _ h := h.of_same rfl rfl rfl
  unlock _ h := h.of_same rfl rfl rfl
  mark _ _ := watched_mark
  pin _ p l _ h := watched_pin h p l

theorem admitted_stays : Stays (Admitted (σ := σ)) where
  lock _ h := ⟨h.toWatched.of_same rfl rfl rfl, h.ready⟩
  unlock _ h := ⟨h.toWatched.of_same rfl rfl rfl, h.ready⟩
  mark _ _ hk h := ⟨watched_mark hk h.toWatched,
    fun calm => (needsInit_mark hk _ _).trans (h.ready calm.1)⟩
  pin _ p l _ h := ⟨watched_pin h.toWatched p l,
    fun calm => (needsInit_pin h.settled p l).trans (h.ready calm.1)⟩

theorem initializeCard_watched {fuel : Nat} {st : DSTATUS}
    (run : exec b (initializeCard fuel) m = some (st, m')) (h : Watched m) : Watched m' := by
  constructor
  · intro p l
    cases initializeCard_outcome run with
    | empty level absent status enabled read drv log =>
      rw [log]
      rfl
    | concluded ty w pins traffic cd y present status drv wpEnabled wp wpActiveState log =>
      rw [log]
      rfl
  · intro calm
    obtain ⟨new, hlog⟩ := exec_log run
    exact initializeCard_guarded run calm (h.guarded (calm_suffix (hlog ▸ calm)))

theorem watched_keeps (b : Board σ) : Keeps b Watched Watched Admitted where
  inner _ h := h
  lock _ h := h.of_same rfl rfl rfl
  mark _ _ := watched_mark
  stays := watched_stays
  opened m h clear := by
    refine ⟨h, fun calm => ?_⟩
    cases hn : needsInit m.log with
    | false => rfl
    | true => exact absurd clear ((h.guarded calm).noinit hn)
  closed _ h := h.toWatched
  remains := admitted_stays
  passed m t h passed := by
    obtain ⟨new, hlog, traffic⟩ := passed.log
    refine ⟨⟨?_, ?_⟩, ?_⟩
    · intro p l
      rw [hlog]
      cases new with
      | nil => exact h.settled p l
      | cons e new =>
        have he := traffic e List.mem_cons_self
        cases e with
        | byte | tick => rfl
        | pin | mark => exact he.elim
    · intro calm
      have before := calm_suffix (hlog ▸ calm)
      exact passed_guarded passed (h.ready before) (h.guarded before)
    · intro calm
      rw [hlog, needsInit_traffic traffic]
      exact h.ready (calm_suffix (hlog ▸ calm))
  recover fuel m st t h within run := by
    have watched := initializeCard_watched run (h.toWatched.of_same rfl rfl rfl)
    refine ⟨watched.of_same rfl rfl rfl, fun calm => ?_⟩
    change needsInit t.log = false
    obtain ⟨new, hlog⟩ := exec_log run
    exact recovery_ready run within (h.ready (calm_suffix (hlog ▸ calm))) calm
  initializeCard _ _ _ _ h run := initializeCard_watched run h
  status m st t h run := by
    constructor
    · intro p l
      cases status_outcome run with
      | empty level absent status enabled read drv log =>
        rw [log]
        rfl
      | present w pins cd present status drv same log =>
        rw [log]
        rfl
    · intro calm
      obtain ⟨new, hlog⟩ := exec_log run
      exact (status_guarded run calm (h.guarded (calm_suffix (hlog ▸ calm)))).1
  highSpeedClock _ _ h := h.of_same rfl rfl rfl
  lowSpeedClock _ _ h := h.of_same rfl rfl rfl
  world _ _ h := h.of_same rfl rfl rfl

/-! ## Refusals -/

theorem silent_of_log {l : List Event} (h : m'.log = l ++ m.log)
    (pins : ∀ e ∈ l, (∃ k d, e = .mark k d) ∨ ∃ p lv, e = .pin p lv) : Silent m m' := by
  refine ⟨l, h, ?_⟩
  rintro e he cs hz x y rfl
  rcases pins _ he with ⟨k, d, h⟩ | ⟨p, l, h⟩
  · cases h
  · cases h

theorem slot_pins (b : Board σ) (m : Machine σ) : ∃ new, (m.slot b).2.log = new ++ m.log ∧
    ∀ e ∈ new, ∃ p l, e = .pin p l := by
  rcases m.slot_log b with ⟨-, hs⟩ | ⟨-, level, -, hlog⟩
  · exact ⟨[], by rw [hs]; rfl, by simp⟩
  · exact ⟨[_], hlog, by simp⟩

theorem wpSwitch_pins (b : Board σ) (m : Machine σ) : ∃ new,
    (m.wpSwitch b).2.log = new ++ m.log ∧ ∀ e ∈ new, ∃ p l, e = .pin p l := by
  unfold Machine.wpSwitch
  cases m.drv.wpEnabled with
  | false => exact ⟨[], rfl, by simp⟩
  | true => exact ⟨[_], rfl, by simp⟩

/-- The machine at the readiness check of `read`, with what `cardPresent()` said. -/
def Machine.readEntered (b : Board σ) (m : Machine σ) : Bool × Machine σ :=
  (m.marked (.enter .read)).locked.slot b

@[simp] theorem readEntered_drv : (m.readEntered b).2.drv =
    { m.drv with busy := true, busyCheck := true } := by
  simp [Machine.readEntered]

theorem exec_read_refused (fuel : Nat) (buff : List BYTE) (sector : DWORD) (count : UINT)
    (h : (m.readEntered b).1 = false ∨ m.drv.status &&& staNoinit ≠ 0) :
    exec b (read fuel buff sector count) m =
      some ((.notrdy, buff), (m.readEntered b).2.unlocked.marked (.leave .read)) := by
  refine exec_member.2 ⟨_, exec_lockGuard.2 ⟨_, ?_, rfl⟩, rfl⟩
  simp only [exec_bind, exec_cardPresent, Option.bind_some, exec_load]
  change exec b (if (!(m.readEntered b).1 || (m.readEntered b).2.drv.status &&& staNoinit != 0) = true
    then _ else _) (m.readEntered b).2 = _
  rw [if_pos]
  · rfl
  · rw [readEntered_drv]
    simpa using h

theorem read_refused (b : Board σ) (hm : m.drv.status &&& staNoinit ≠ 0) (fuel : Nat)
    (buff : List BYTE) (sector : DWORD) (count : UINT) :
    ∃ m', exec b (read fuel buff sector count) m = some ((.notrdy, buff), m') ∧ Silent m m' := by
  refine ⟨_, exec_read_refused fuel buff sector count (.inr hm), ?_⟩
  obtain ⟨new, hlog, pins⟩ := slot_pins b (m.marked (.enter .read)).locked
  apply silent_of_log (l := .mark (.leave .read) (m.readEntered b).2.unlocked.drv ::
    new ++ [.mark (.enter .read) m.drv])
  · simp [Machine.readEntered, hlog]
  · intro e he
    simp only [List.cons_append, List.mem_cons, List.mem_append, List.not_mem_nil, or_false] at he
    rcases he with rfl | he | rfl
    · exact .inl ⟨_, _, rfl⟩
    · exact .inr (pins e he)
    · exact .inl ⟨_, _, rfl⟩

theorem write_refused (b : Board σ) (hm : m.drv.status &&& staNoinit ≠ 0) (fuel : Nat)
    (buff : List BYTE) (sector : DWORD) (count : UINT) :
    ∃ res m', exec b (write fuel buff sector count) m = some (res, m') ∧ res ≠ .ok ∧
      Silent m m' := by
  let e := (m.marked (.enter .write)).locked
  obtain ⟨cd, hcd, cdPins⟩ := slot_pins b e
  obtain ⟨wp, hwp, wpPins⟩ := wpSwitch_pins b (e.slot b).2
  have quiet {new : List Event} {t : Machine σ} (ht : t.log = new ++ e.log)
      (pins : ∀ ev ∈ new, ∃ p l, ev = .pin p l) : Silent m (t.unlocked.marked (.leave .write)) := by
    apply silent_of_log (l := .mark (.leave .write) t.unlocked.drv ::
      new ++ [.mark (.enter .write) m.drv])
    · simp [ht, e]
    · intro ev hev
      simp only [List.cons_append, List.mem_cons, List.mem_append, List.not_mem_nil, or_false] at hev
      rcases hev with rfl | hev | rfl
      · exact .inl ⟨_, _, rfl⟩
      · exact .inr (pins ev hev)
      · exact .inl ⟨_, _, rfl⟩
  cases hs : (e.slot b).1 with
  | false =>
    refine ⟨.error, _, exec_member.2 ⟨_, exec_lockGuard.2 ⟨(e.slot b).2, ?_, rfl⟩, rfl⟩, by simp,
      quiet hcd cdPins⟩
    simp only [exec_bind, exec_cardPresent, Option.bind_some]
    change exec b (if (!(e.slot b).1) = true then _ else _) (e.slot b).2 = _
    rw [hs]
    rfl
  | true =>
    have both : ∀ ev ∈ wp ++ cd, ∃ p l, ev = .pin p l := by
      intro ev hev
      rcases List.mem_append.1 hev with hev | hev
      · exact wpPins ev hev
      · exact cdPins ev hev
    have noinit : ((e.slot b).2.wpSwitch b).2.drv.status &&& staNoinit ≠ 0 := by simpa [e] using hm
    refine ⟨if ((e.slot b).2.wpSwitch b).1 then .wrprt else .notrdy, _, exec_member.2 ⟨_,
      exec_lockGuard.2 ⟨((e.slot b).2.wpSwitch b).2, ?_, rfl⟩, rfl⟩, by split <;> simp,
      quiet (by rw [hwp, hcd, List.append_assoc]) both⟩
    simp only [exec_bind, exec_cardPresent, Option.bind_some]
    change exec b (if (!(e.slot b).1) = true then _ else _) (e.slot b).2 = _
    simp only [hs, Bool.not_true, Bool.false_eq_true, ↓reduceIte, exec_bind, exec_writeProtected,
      Option.bind_some]
    cases hw : ((e.slot b).2.wpSwitch b).1 with
    | true => rfl
    | false =>
      simp only [Bool.false_eq_true, ↓reduceIte, exec_bind, exec_load, Option.bind_some]
      rw [if_pos noinit]
      rfl

theorem ioctl_refused (b : Board σ) (hm : m.drv.status &&& staNoinit ≠ 0) (fuel : Nat)
    (cmd : BYTE) (dp : DWORD × DWORD) :
    ∃ m', exec b (ioctl (fuel + 1) cmd dp) m = some ((.notrdy, none), m') ∧ Silent m m' := by
  let e := (m.marked (.enter .ioctl)).locked
  have noinit : e.drv.status &&& staNoinit ≠ 0 := hm
  refine ⟨e.unlocked.marked (.leave .ioctl), ?_, ?_⟩
  · refine exec_member.2 ⟨_, exec_lockGuard.2 ⟨e, ?_, rfl⟩, rfl⟩
    simp only [exec_bind, exec_load, Option.bind_some]
    change exec b (if e.drv.status &&& staNoinit ≠ 0 then _ else _) e = _
    rw [if_pos noinit]
    rfl
  · apply silent_of_log (l := [.mark (.leave .ioctl) e.unlocked.drv, .mark (.enter .ioctl) m.drv])
    · rfl
    · simp

/-! ## Runs -/

theorem start_watched {d : SdspiDriver} (h : SetUp d) (out : Pin → Level) (hz : DWORD) (s : σ) :
    Watched (Machine.start d out hz s) := by
  refine ⟨fun _ _ => rfl, fun _ => ?_⟩
  have noinit : d.status &&& staNoinit ≠ 0 := by
    rw [h.status]
    decide
  exact ⟨fun _ => noinit, fun clear => absurd clear noinit, trivial⟩

/-- When `needsInit` is false, an `initialize()` succeeded and the slot was not seen
empty after it. -/
theorem needsInit_eq_false {log : List Event} (h : needsInit log = false) :
    ∃ t, t <:+ log ∧ initialized t = true ∧
      ∀ u, u <:+ log → t <:+ u → foundEmpty u = false := by
  induction log with
  | nil => cases h
  | cons e older ih =>
    rw [needsInit] at h
    split at h
    · cases h
    · rename_i notEmpty
      split at h
      · rename_i done
        refine ⟨e :: older, List.suffix_rfl, done, ?_⟩
        intro u hu hu'
        rw [hu.eq_of_length_le hu'.length_le]
        simpa using notEmpty
      · obtain ⟨t, ht, done, later⟩ := ih h
        refine ⟨t, ht.trans (List.suffix_cons e older), done, ?_⟩
        intro u hu hu'
        rcases List.suffix_cons_iff.1 hu with rfl | hu
        · simpa using notEmpty
        · exact later u hu hu'

/-- Before the first success of `initialize()` and after every empty slot seen, until
the next success, STA_NOINIT is set and reported, and no transfer reaches a card: the
calls are refused, and no byte on the log was exchanged outside `initialize()`. -/
theorem noinit_guards_card {d : SdspiDriver} (hd : SetUp d) {out : Pin → Level} {hz : DWORD}
    {s : σ} (run : Run (Machine.start d out hz s) m) (calm : Calm m.log) :
    (needsInit m.log = true →
      m.drv.status &&& staNoinit ≠ 0 ∧
      (∀ (b : Board σ) st m', exec b status m = some (st, m') → Calm m'.log →
        st &&& staNoinit ≠ 0) ∧
      (∀ (b : Board σ) fuel buff sector count, ∃ m',
        exec b (read fuel buff sector count) m = some ((.notrdy, buff), m') ∧ Silent m m') ∧
      (∀ (b : Board σ) fuel buff sector count, ∃ res m',
        exec b (write fuel buff sector count) m = some (res, m') ∧ res ≠ .ok ∧ Silent m m') ∧
      (∀ (b : Board σ) fuel cmd dp, ∃ m',
        exec b (ioctl (fuel + 1) cmd dp) m = some ((.notrdy, none), m') ∧ Silent m m')) ∧
    (m.drv.status &&& staNoinit = 0 → m.drv.cardType ≠ 0 ∧
      ∃ t, t <:+ m.log ∧ initialized t = true ∧
        ∀ u, u <:+ m.log → t <:+ u → foundEmpty u = false) ∧
    Minded m.log := by
  have guarded := (keeps_run watched_keeps run (start_watched hd out hz s)).guarded calm
  refine ⟨?_, ?_, guarded.minded⟩
  · intro hn
    have noinit := guarded.noinit hn
    refine ⟨noinit, ?_, ?_, ?_, ?_⟩
    · intro b st m' h calm'
      rw [(status_guarded h calm' guarded).2]
      exact noinit
    · intro b fuel buff sector count
      exact read_refused b noinit fuel buff sector count
    · intro b fuel buff sector count
      exact write_refused b noinit fuel buff sector count
    · intro b fuel cmd dp
      exact ioctl_refused b noinit fuel cmd dp
  · intro clear
    refine ⟨guarded.typed clear, needsInit_eq_false ?_⟩
    cases hn : needsInit m.log with
    | false => rfl
    | true => exact absurd clear (guarded.noinit hn)

set_option maxRecDepth 10000 in
/-- An empty slot, then a card that is read too early, and at last initialised. -/
theorem noinit_guards_card_sdhc : ∃ m m' : Machine Scripted,
    Run (detecting fun _ => .low) m ∧ needsInit m.log = true ∧ Minded m.log ∧
      (∀ fuel buff sector count, ∃ m'', exec (scripted sdhcAnswer) (read fuel buff sector count) m =
        some ((.notrdy, buff), m'') ∧ Silent m m'') ∧
      Run m m' ∧ m'.drv.status &&& staNoinit = 0 ∧ Minded m'.log := by
  let card := scripted sdhcAnswer
  obtain ⟨m, run, hm⟩ := replay_any
    [.call card 1 .initializeCard, .world fun c => { c with pins := fun _ => .high },
      .call card 5 .status, .call card 5 (.read [] 0 1)]
    (detecting fun _ => .low)
    (fun m => decide (Calm m.log) && needsInit m.log &&
      (replay [.call card 5 .initializeCard, .call card 5 (.ioctl getSectorCount (0, 0))] m).any
        fun m' => decide (Calm m'.log) && m'.drv.status &&& staNoinit == 0) (by decide +kernel)
  simp only [Bool.and_eq_true, decide_eq_true_eq] at hm
  obtain ⟨⟨calm, hn⟩, hm'⟩ := hm
  obtain ⟨m', run', hm'⟩ := replay_any _ m _ hm'
  simp only [Bool.and_eq_true, decide_eq_true_eq, beq_iff_eq] at hm'
  have guards := noinit_guards_card detecting_setUp run calm
  have guards' := noinit_guards_card detecting_setUp (run.trans run') hm'.1
  exact ⟨m, m', run, hn, guards.2.2, (guards.1 hn).2.2.1 _, run', hm'.2, guards'.2.2⟩

set_option maxRecDepth 10000 in
/-- `status()` sees the empty slot and a card is put in: STA_NOINIT is clear and `ioctl`
gets an answer to CMD9 from a card that was never initialised. -/
theorem status_drops_noinit : ∃ m : Machine Scripted, Run (detecting fun _ => .low) m ∧
    needsInit m.log = true ∧ m.drv.status &&& staNoinit = 0 ∧ m.drv.cardType = 0 ∧
    ∃ x m', exec (scripted sdhcAnswer) (ioctl 5 getSectorCount (0, 0)) m = some (x, m') ∧
      x.1 = .ok := by
  let card := scripted sdhcAnswer
  obtain ⟨m, run, hm⟩ := replay_any
    [.call card 5 .status, .world fun c => { c with pins := fun _ => .high }]
    (detecting fun _ => .low)
    (fun m => needsInit m.log && m.drv.status &&& staNoinit == 0 && m.drv.cardType == 0 &&
      (exec card (ioctl 5 getSectorCount (0, 0)) m).any fun x => x.1.1 == .ok) (by decide +kernel)
  simp only [Bool.and_eq_true, beq_iff_eq, Option.any_eq_true] at hm
  obtain ⟨⟨⟨hn, clear⟩, hty⟩, ⟨x, t⟩, hx, ok⟩ := hm
  exact ⟨m, run, hn, clear, hty, x, t, hx, ok⟩

end FatFsParticle.Sdspi
