import FatFsParticle.Sdspi.Guard
import FatFsParticle.Sdspi.Report
import FatFsParticle.Usage.Mount
import FatFsParticle.Format.Making
import Mathlib.Data.List.Infix

/-!
# What is refused as write protected

The status bytes that `initialize()` and `status()` returned in a run, also the
`initialize()` inside `read`, are read off the log. `f_mkfs` and the first `f_open` for
writing go by the byte of `initialize()`, which has STA_PROTECT the wrong way round;
`write` looks at the switch as well, so after a re-initialisation inside `read` it
refuses either way.
-/

namespace FatFsParticle.Sdspi
open Interact Program
open Files (faRead)
open Drives (TCHAR getLdnumber)

variable {σ : Type} {b : Board σ} {m m' : Machine σ} {pins : Pin → Level} {n : Nat}

/-! ## Reports -/

/-- A call that returned a status byte, with the members and the pins it found. -/
structure Report where
  call : Member
  drv : SdspiDriver
  pins : Pin → Level
  st : DSTATUS

namespace Report

def Agrees (r : Report) : Prop := Sdspi.Agrees r.drv r.pins r.st

def Present (r : Report) : Prop := r.drv.cardPresentAt r.pins = true

def Protected (r : Report) : Prop := r.drv.writeProtectedAt r.pins = true

/-- The slot is empty, or this is `status()` and STA_NODISK was clear before it. -/
def Fair (r : Report) : Prop :=
  r.drv.cardPresentAt r.pins = false ∨ r.call = .status ∧ r.drv.status &&& staNodisk = 0

/-- `initialize()` reported a card in the slot as initialised. -/
def Ready (r : Report) : Prop := r.call = .initializeCard ∧ r.Present ∧ r.st &&& staNoinit = 0

/-- What a report of the driver comes to: `status()` has STA_PROTECT right, `initialize()`
has it wrong. -/
structure Sound (r : Report) : Prop where
  call : r.call = .initializeCard ∨ r.call = .status
  agrees : r.Agrees ↔ r.Fair
  protect : r.Present → (r.st &&& staProtect ≠ 0 ↔ (r.Protected ↔ r.call = .status))

end Report

/-- The newest event is the end of `initialize()` or `status()`: the call, the members it
began with, and the status byte it returned. -/
def reported (pins : Pin → Level) : List Event → Option Report
  | .mark (.leave f) d :: older =>
    if f = .initializeCard ∨ f = .status then
      (openCalls older).head?.map fun c =>
        ⟨f, c.2, pins, if foundEmpty older then staNodisk else d.status⟩
    else none
  | _ => none

/-- A report made in a run from `m` to `m'`, by a call that was itself made there or by one
that such a call made. -/
def Made (pins : Pin → Level) (m m' : Machine σ) (r : Report) : Prop :=
  ∃ u, u <:+ m'.log ∧ m.log.length < u.length ∧ reported pins u = some r

theorem reported_pins {u : List Event} {r : Report} (h : reported pins u = some r) : r.pins = pins := by
  unfold reported at h
  split at h
  · split at h
    · obtain ⟨c, -, rfl⟩ := Option.map_eq_some_iff.1 h
      rfl
    · cases h
  · cases h

theorem initializeCard_reported {fuel : Nat} {st : DSTATUS}
    (h : exec b (initializeCard fuel) m = some (st, m')) (pins : Pin → Level) :
    reported pins m'.log = some ⟨.initializeCard, m.drv, pins, st⟩ := by
  cases initializeCard_outcome h with
  | empty level absent status enabled read drv log =>
    rw [log]
    simp [reported, openCalls, foundEmpty, enabled, read, status]
  | concluded ty w switch traffic cd y present status drv wpEnabled wp wpActiveState log
      switch_inner is_traffic detect =>
    have cd_inner : ∀ e ∈ cd, e.IsInner m.drv.activeClock := by
      rcases detect with ⟨-, rfl⟩ | ⟨-, rfl⟩ <;> simp [Event.IsInner]
    have byte : Event.IsTraffic m.drv.activeClock (.byte .high m.drv.activeClock 0xFF y) := rfl
    have calls : openCalls (switch ++ .byte .high m.drv.activeClock 0xFF y :: (traffic ++
        (cd ++ .mark (.enter .initializeCard) m.drv :: m.log))) =
        (.initializeCard, m.drv) :: openCalls m.log := by
      rw [openCalls_inner switch_inner]
      change openCalls (traffic ++ _) = _
      rw [openCalls_inner fun e he => (is_traffic e he).inner, openCalls_inner cd_inner]
      rfl
    rw [log, reported, if_pos (.inl rfl), foundEmpty_inner switch_inner byte, calls]
    simp [status]

theorem status_reported {st : DSTATUS} (h : exec b status m = some (st, m')) (pins : Pin → Level) :
    reported pins m'.log = some ⟨.status, m.drv, pins, st⟩ := by
  cases status_outcome h with
  | empty level absent status enabled read drv log =>
    rw [log]
    simp [reported, openCalls, foundEmpty, enabled, read, status]
  | present w switch cd present status drv same log shape detect =>
    rw [log, status]
    rcases shape with ⟨-, rfl⟩ | ⟨-, level, rfl⟩ <;>
      rcases detect with ⟨disabled, rfl⟩ | ⟨enabled, rfl⟩ <;>
      simp_all [reported, openCalls, foundEmpty]

/-! ## What is told in a run -/

theorem sound_initializeCard {fuel : Nat} {st : DSTATUS} (stable : Stable b pins)
    (h : exec b (initializeCard fuel) m = some (st, m')) :
    Report.Sound ⟨.initializeCard, m.drv, pins, st⟩ := by
  refine ⟨.inl rfl, ?_, ?_⟩
  · simpa [Report.Agrees, Report.Fair] using initializeCard_agrees stable h
  · intro present
    simpa [Report.Protected] using initializeCard_protect stable h present

theorem sound_status {st : DSTATUS} (stable : Stable b pins)
    (h : exec b status m = some (st, m')) : Report.Sound ⟨.status, m.drv, pins, st⟩ := by
  refine ⟨.inr rfl, ?_, ?_⟩
  · simpa [Report.Agrees, Report.Fair] using status_agrees stable h
  · intro present
    simpa [Report.Protected] using (status_bits stable h present).1

/-- The reports since the first `n` events are sound. -/
def Credible (pins : Pin → Level) (n : Nat) (m : Machine σ) : Prop :=
  ∀ u, u <:+ m.log → n < u.length → ∀ r, reported pins u = some r → r.Sound

theorem reported_quiet {e : Event} (h : ∀ f d, e ≠ .mark (.leave f) d) (older : List Event) :
    reported pins (e :: older) = none := by
  unfold reported
  split
  · rename_i f d _ same
    exact absurd (List.cons.inj same).1 (h f d)
  · rfl

theorem reported_transfer {k : Mark} (hk : k.IsTransfer) (d : SdspiDriver) (older : List Event) :
    reported pins (.mark k d :: older) = none := by
  cases k with
  | enter f => rfl
  | leave f => exact if_neg (not_or.2 hk)

theorem reported_append {new old u : List Event}
    (quiet : ∀ e ∈ new, ∀ older, reported pins (e :: older) = none) (within : u <:+ new ++ old) :
    u <:+ old ∨ reported pins u = none := by
  by_cases before : u.length ≤ old.length
  · exact .inl (List.suffix_of_suffix_length_le within (List.suffix_append _ _) before)
  · obtain ⟨later, e, rest, rfl, rfl⟩ := suffix_newer within (Nat.not_le.1 before)
    exact .inr (quiet e (by simp) _)

theorem credible_append {new : List Event} (h : Credible pins n m) (log : m'.log = new ++ m.log)
    (quiet : ∀ e ∈ new, ∀ older, reported pins (e :: older) = none) : Credible pins n m' := by
  intro u within longer r told
  rcases reported_append quiet (log ▸ within) with before | none_
  · exact h u before longer r told
  · rw [none_] at told
    cases told

theorem credible_cons {e : Event} (h : Credible pins n m) (log : m'.log = e :: m.log)
    (quiet : ∀ older, reported pins (e :: older) = none) : Credible pins n m' := by
  refine credible_append h (log.trans (List.singleton_append).symm) fun x hx => ?_
  rw [List.mem_singleton.1 hx]
  exact quiet

/-- A call that ends with a sound report, and made none before. -/
theorem credible_ended {e : Event} {mid : List Event} {r : Report} (h : Credible pins n m)
    (log : m'.log = e :: (mid ++ m.log)) (quiet : ∀ x ∈ mid, ∀ f d, x ≠ .mark (.leave f) d)
    (report : reported pins m'.log = some r) (sound : r.Sound) : Credible pins n m' := by
  intro u within longer r' told
  rw [log] at within
  rcases List.suffix_cons_iff.1 within with rfl | within
  · rw [← log, report] at told
    cases told
    exact sound
  · have earlier : Credible pins n { m with log := mid ++ m.log } :=
      credible_append h rfl fun x hx => reported_quiet (quiet x hx)
    exact earlier u within longer r' told

theorem credible_stays : Stays (Credible (σ := σ) pins n) where
  lock _ h := h
  unlock _ h := h
  mark _ _ hk h := credible_cons h rfl (reported_transfer hk _)
  pin _ _ _ _ h := credible_cons h rfl fun _ => rfl

theorem credible_initializeCard {fuel : Nat} {st : DSTATUS} (stable : Stable b pins)
    (h : Credible pins n m) (run : exec b (initializeCard fuel) m = some (st, m')) : Credible pins n m' := by
  obtain ⟨mid, log, quiet⟩ := initializeCard_ends run
  exact credible_ended h log quiet (initializeCard_reported run pins) (sound_initializeCard stable run)

theorem credible_keeps (stable : Stable b pins) (n : Nat) :
    Keeps b (Credible pins n) (Credible pins n) (Credible pins n) where
  inner _ h := h
  lock _ h := h
  mark := credible_stays.mark
  stays := credible_stays
  opened _ h _ := h
  closed _ h := h
  remains := credible_stays
  passed m t h passed := by
    obtain ⟨new, log, traffic⟩ := passed.log
    refine credible_append h log fun e he older => ?_
    cases e with
    | byte | tick => rfl
    | pin | mark => exact (traffic _ he).elim
  recover _ m _ t h _ run := by
    have after : Credible pins n t := credible_initializeCard stable (m := m.unlocked) h run
    exact after
  initializeCard _ _ _ _ h run := credible_initializeCard stable h run
  status m st t h run := by
    obtain ⟨mid, log, quiet⟩ := status_ends run
    exact credible_ended h log quiet (status_reported run pins) (sound_status stable run)
  highSpeedClock _ _ h := h
  lowSpeedClock _ _ h := h
  world _ _ h := h

/-- A run with reports made in it. During the calls that made these the pins hold still;
between calls and during all others they may change. -/
inductive Observed : List Report → Machine σ → Machine σ → Prop
  | refl (m : Machine σ) : Observed [] m m
  | step {rs : List Report} {m t u : Machine σ} (before : Observed rs m t) (h : Step t u) :
      Observed rs m u
  | call {rs made : List Report} {m t u : Machine σ} {b : Board σ} {pins : Pin → Level}
      {fuel : Nat} {c : Call} (before : Observed rs m t) (stable : Stable b pins)
      (h : exec b (c.prog fuel) t = some ((), u)) (all : ∀ r ∈ made, Made pins t u r) :
      Observed (made ++ rs) m u

theorem Observed.report {rs : List Report} {r : Report} {m t u : Machine σ} (fuel : Nat) {c : Call}
    (before : Observed rs m t) (stable : Stable b pins)
    (h : exec b (c.prog fuel) t = some ((), u)) (made : Made pins t u r) :
    Observed (r :: rs) m u := by
  have observed : Observed ([r] ++ rs) m u := .call before stable h (by simpa using made)
  exact observed

theorem Observed.sound {rs : List Report} (h : Observed rs m m') : ∀ r ∈ rs, r.Sound := by
  induction h with
  | refl => simp
  | step _ _ ih => exact ih
  | @call rs made m t u b pins fuel c _ stable h all ih =>
    intro r hr
    rcases List.mem_append.1 hr with hr | hr
    · obtain ⟨v, within, longer, told⟩ := all r hr
      have none_ : Credible pins t.log.length t := by
        intro v within longer
        have short := within.length_le
        omega
      exact (credible_keeps stable _).call h none_ v within longer r told
    · exact ih r hr

/-! ## A re-initialisation inside `read` -/

/-- A card is in the slot, and once something was reported since the first `n` events,
STA_PROTECT is the wrong way round. -/
structure Turned (pins : Pin → Level) (n : Nat) (m : Machine σ) : Prop where
  present : m.drv.cardPresentAt pins = true
  wrong : (∃ u r, u <:+ m.log ∧ n < u.length ∧ reported pins u = some r) →
    (m.drv.status &&& staProtect ≠ 0 ↔ m.drv.writeProtectedAt pins = false)

theorem turned_append {new : List Event} (h : Turned pins n m) (log : m'.log = new ++ m.log)
    (quiet : ∀ e ∈ new, ∀ older, reported pins (e :: older) = none)
    (slot : m'.drv.cardPresentAt pins = m.drv.cardPresentAt pins)
    (switch : m'.drv.writeProtectedAt pins = m.drv.writeProtectedAt pins)
    (status : m'.drv.status = m.drv.status) : Turned pins n m' := by
  refine ⟨slot.trans h.present, ?_⟩
  rintro ⟨u, r, within, longer, told⟩
  rw [status, switch]
  rcases reported_append quiet (log ▸ within) with before | none_
  · exact h.wrong ⟨u, r, before, longer, told⟩
  · rw [none_] at told
    cases told

theorem turned_cons {e : Event} (h : Turned pins n m) (log : m'.log = e :: m.log)
    (quiet : ∀ older, reported pins (e :: older) = none) (drv : m'.drv = m.drv) :
    Turned pins n m' := by
  refine turned_append h (log.trans (List.singleton_append).symm) (fun x hx => ?_)
    (congrArg (·.cardPresentAt pins) drv) (congrArg (·.writeProtectedAt pins) drv)
    (congrArg (·.status) drv)
  rw [List.mem_singleton.1 hx]
  exact quiet

theorem turned_stays : Stays (Turned (σ := σ) pins n) where
  lock _ h := ⟨h.present, h.wrong⟩
  unlock _ h := ⟨h.present, h.wrong⟩
  mark _ _ hk h := turned_cons h rfl (reported_transfer hk _) rfl
  pin _ _ _ _ h := turned_cons h rfl (fun _ => rfl) rfl

theorem turned_loops (stable : Stable b pins) (n : Nat) : Loops b (Turned pins n) where
  passed m t h passed := by
    obtain ⟨new, log, traffic⟩ := passed.log
    refine turned_append h log (fun e he older => ?_) ?_ ?_ ?_
    · cases e with
      | byte | tick => rfl
      | pin | mark => exact (traffic _ he).elim
    · rw [passed.drv]
    · rw [passed.drv]
    · rw [passed.drv]
  recover fuel m st t h _ run := by
    have here : m.unlocked.drv.cardPresentAt pins = true := h.present
    have wrong := initializeCard_protect stable run here
    have slot := slot_stable stable m.unlocked.entered
    cases initializeCard_outcome run with
    | empty level absent =>
      rw [absent] at slot
      exact absurd (slot.trans here) Bool.false_ne_true
    | concluded ty w new traffic cd y present status drv =>
      rw [status] at wrong
      refine ⟨?_, fun _ => ?_⟩
      · rw [Machine.locked_drv, drv]
        exact h.present
      · refine wrong.trans ?_
        rw [Machine.locked_drv, drv]
        rfl

/-- After a `read` that initialised the card again, STA_PROTECT is the wrong way round. -/
theorem read_turns {fuel : Nat} {buff : List BYTE} {sector : DWORD} {count : UINT}
    {x : DRESULT × List BYTE} {r : Report} (stable : Stable b pins)
    (h : exec b (read fuel buff sector count) m = some (x, m')) (made : Made pins m m' r)
    (here : m.drv.cardPresentAt pins = true) :
    m'.drv.cardPresentAt pins = true ∧
    (m'.drv.status &&& staProtect ≠ 0 ↔ m'.drv.writeProtectedAt pins = false) := by
  have start : Turned pins m.log.length (m.marked (.enter .read)).locked := by
    refine ⟨here, ?_⟩
    rintro ⟨u, r, within, longer, told⟩
    have within : u <:+ [.mark (.enter .read) m.drv] ++ m.log := within
    obtain ⟨later, e, rest, new, rfl⟩ := suffix_newer within longer
    have last : e = .mark (.enter .read) m.drv :=
      List.mem_singleton.1 (new ▸ List.mem_append_right later List.mem_cons_self)
    rw [last] at told
    cases told
  have turned := (turned_loops stable m.log.length).read turned_stays (fun _ h _ => h)
    (fun _ h => h) h start
  obtain ⟨u, within, longer, told⟩ := made
  exact ⟨turned.present, turned.wrong ⟨u, r, within, longer, told⟩⟩

/-- With STA_PROTECT the wrong way round `write` refuses whatever the switch says. -/
theorem write_refuses {fuel : Nat} {buff : List BYTE} {sector : DWORD} {count : UINT}
    {res : DRESULT} (stable : Stable b pins) (here : m.drv.cardPresentAt pins = true)
    (wrong : m.drv.status &&& staProtect ≠ 0 ↔ m.drv.writeProtectedAt pins = false)
    (ready : m.drv.status &&& staNoinit = 0)
    (h : exec b (write fuel buff sector count) m = some (res, m')) : res = .wrprt := by
  obtain ⟨t, ht, rfl⟩ := exec_member.1 h
  obtain ⟨u, hu, rfl⟩ := exec_lockGuard.1 ht
  let e := (m.marked (.enter .write)).locked
  have found : (e.slot b).1 = true := (slot_stable stable e).trans here
  have switch : ((e.slot b).2.wpSwitch b).1 = m.drv.writeProtectedAt pins := by
    rw [wpSwitch_stable stable, Machine.slot_drv]
    rfl
  have status : ((e.slot b).2.wpSwitch b).2.drv.status = m.drv.status := by
    rw [Machine.wpSwitch_drv, Machine.slot_drv]
    rfl
  rw [exec_bind, exec_cardPresent, Option.bind_some] at hu
  change exec b (if (!(e.slot b).1) = true then _ else _) (e.slot b).2 = _ at hu
  rw [found, if_neg (by decide), exec_bind, exec_writeProtected, Option.bind_some, switch] at hu
  split at hu
  · cases hu
    rfl
  · rename_i free
    rw [exec_bind, exec_load, Option.bind_some, status, if_neg (by simpa using ready),
      if_pos (wrong.2 (by simpa using free))] at hu
    cases hu
    rfl

/-- A `read` that found no card initialised nothing. -/
theorem read_made {fuel : Nat} {buff : List BYTE} {sector : DWORD} {count : UINT}
    {x : DRESULT × List BYTE} {r : Report} (stable : Stable b pins)
    (h : exec b (read fuel buff sector count) m = some (x, m')) (made : Made pins m m' r) :
    m.drv.cardPresentAt pins = true := by
  by_contra away
  have refused : (m.readEntered b).1 = false :=
    (slot_stable stable _).trans (Bool.eq_false_iff.2 away)
  rw [exec_read_refused fuel buff sector count (.inl refused)] at h
  cases h
  obtain ⟨u, within, longer, told⟩ := made
  obtain ⟨new, log, readings⟩ := slot_pins b (m.marked (.enter .read)).locked
  have whole : (m.readEntered b).2.unlocked.log = new ++ [.mark (.enter .read) m.drv] ++ m.log := by
    rw [List.append_assoc]
    exact log
  have quiet : ∀ e ∈ .mark (.leave .read) (m.readEntered b).2.unlocked.drv ::
      (new ++ [.mark (.enter .read) m.drv]), ∀ older, reported pins (e :: older) = none := by
    intro e he older
    rcases List.mem_cons.1 he with rfl | he
    · exact reported_transfer (by simp [Mark.IsTransfer]) _ older
    rcases List.mem_append.1 he with he | he
    · obtain ⟨p, l, rfl⟩ := readings e he
      rfl
    · rw [List.mem_singleton.1 he]
      rfl
  rw [Machine.marked_log, whole] at within
  rcases reported_append quiet within with before | none_
  · exact absurd before.length_le (Nat.not_le.2 longer)
  · rw [none_] at told
    cases told

/-! ## Refusals -/

/-- `find_volume` on a volume that is not mounted yet goes by what `initialize()` said. -/
theorem findVolume_protect {volumes vol : Nat} {path : Option (List TCHAR)} {mode : BYTE}
    {a : Usage.Answers} {s : Usage.Volumes} {fs : Usage.FATFS}
    (named : getLdnumber volumes path = some vol) (here : s vol = some fs)
    (first : fs.fsType = none) (granted : a.granted = true)
    (writing : mode &&& ~~~faRead ≠ 0) (ready : a.init &&& staNoinit = 0) :
    (Usage.findVolume volumes path mode a s).1 = .writeProtected ↔ a.init &&& staProtect ≠ 0 := by
  have unmounted : ¬ (fs.fsType.isSome ∧ a.status &&& staNoinit = 0) := by simp [first]
  have there : ¬ a.init &&& staNoinit ≠ 0 := not_not.2 ready
  unfold Usage.findVolume
  rw [named]
  dsimp only
  rw [here]
  dsimp only
  rw [if_neg (not_not.2 granted), if_neg unmounted, if_neg there]
  by_cases locked : a.init &&& staProtect ≠ 0
  · rw [if_pos ⟨writing, locked⟩]
    exact iff_of_true rfl locked
  · rw [if_neg fun both => locked both.2]
    refine iff_of_false ?_ locked
    split
    · simp
    · split <;> simp
    · simp

/-- `f_mkfs` goes by what `initialize()` said. -/
theorem fMkfs_protect {faulty : Prop} {d : Format.Medium} {volumes vol : Nat}
    {path : Option (List TCHAR)} {opt : BYTE} {au : DWORD} {len : UINT} {time : DWORD}
    {s s' : Usage.Volumes} {D D' : Fat.Disk} {res : Files.FRESULT}
    (named : getLdnumber volumes path = some vol) (ready : d.stat &&& staNoinit = 0)
    (run : Interact.Program.Ends (Format.rules faulty d) (Format.fMkfs volumes path opt au len time s) D (res, s') D') :
    res = .writeProtected ↔ d.stat &&& staProtect ≠ 0 := by
  by_cases locked : d.stat &&& staProtect ≠ 0
  · refine iff_of_true ?_ locked
    refine run.of_twp (Q := fun x _ => x.1 = .writeProtected) ?_
    unfold Format.fMkfs
    rw [named]
    apply twp_seq (Format.twp_make_locked au len ready locked)
    exact fun _ _ refused => refused.1
  · refine iff_of_false ?_ locked
    have outcome := (run.of_twp (Format.twp_fMkfs named au len s)).2
    cases outcome with
    | refused told => exact (Format.Medium.verdict_error told).2 (not_not.1 locked)
    | failed => decide
    | made => decide

/-- What the byte of `initialize()` decides: `f_mkfs`, the first `f_open` for writing, and a
`write` after a `read` that initialised the card again. -/
inductive Use where
  | fMkfs | fOpen | write
  deriving DecidableEq

/-- The use `k` of a card was made after the report `r`, and `refused` says whether it was
refused as write protected. -/
inductive Used (r : Report) : Use → Prop → Prop
  | fMkfs {faulty : Prop} {d : Format.Medium} {volumes : Nat} {path : Option (List TCHAR)}
      {opt : BYTE} {au : DWORD} {len : UINT} {time : DWORD} {s s' : Usage.Volumes}
      {D D' : Fat.Disk} {res : Files.FRESULT} (told : d.stat = r.st)
      (named : (getLdnumber volumes path).isSome)
      (run : Interact.Program.Ends (Format.rules faulty d) (Format.fMkfs volumes path opt au len time s) D (res, s') D') :
      Used r .fMkfs (res = .writeProtected)
  | fOpen {volumes vol : Nat} {path : Option (List TCHAR)} {mode : BYTE} {a : Usage.Answers}
      {s : Usage.Volumes} {fs : Usage.FATFS} (told : a.init = r.st)
      (named : getLdnumber volumes path = some vol) (here : s vol = some fs)
      (first : fs.fsType = none) (granted : a.granted = true)
      (writing : mode &&& ~~~faRead ≠ 0) :
      Used r .fOpen ((Usage.findVolume volumes path mode a s).1 = .writeProtected)
  | write {σ : Type} {b b' : Board σ} {m t u : Machine σ} {s : σ} {fuel fuel' : Nat}
      {buff buff' : List BYTE} {sector sector' : DWORD} {count count' : UINT}
      {x : DRESULT × List BYTE} {res : DRESULT} (stable : Stable b r.pins)
      (stable' : Stable b' r.pins) (read : exec b (read fuel buff sector count) m = some (x, t))
      (made : Made r.pins m t r) (ready : t.drv.status &&& staNoinit = 0)
      (run : exec b' (write fuel' buff' sector' count') { t with env := s } = some (res, u)) :
      Used r .write (res = .wrprt)

/-- Whatever calls came before, a report agrees with the pins exactly when it is fair;
`initialize()` and `status()` never agree on the write protection of an initialised card;
and only a `write` after a re-initialisation is refused exactly if the card is protected,
and only where it is. -/
theorem protection_right_iff {rs : List Report} (h : Observed rs m m') :
    (∀ r ∈ rs, (r.Agrees ↔ r.Fair)) ∧
    (∀ r ∈ rs, ∀ r' ∈ rs, r.Ready → r'.call = .status → r'.Present →
      (r'.Protected ↔ r.Protected) → ¬ (r.st &&& staProtect ≠ 0 ↔ r'.st &&& staProtect ≠ 0)) ∧
    (∀ r ∈ rs, r.Ready → ∀ k refused, Used r k refused →
      ((refused ↔ r.Protected) ↔ k = .write ∧ r.Protected)) := by
  have sound := h.sound
  refine ⟨fun r hr => (sound r hr).agrees, ?_, ?_⟩
  · rintro r hr r' hr' ⟨call, present, -⟩ call' present' switch
    have protect := (sound r hr).protect present
    have protect' := (sound r' hr').protect present'
    rw [call] at protect
    rw [call', switch] at protect'
    simp only [reduceCtorEq, iff_false, iff_true] at protect protect'
    rw [protect, protect']
    tauto
  · rintro r hr ⟨call, present, ready⟩ k refused used
    have protect := (sound r hr).protect present
    rw [call] at protect
    simp only [reduceCtorEq, iff_false] at protect
    cases used with
    | @fMkfs faulty d volumes path opt au len time s s' D D' res told named run =>
      obtain ⟨vol, named⟩ := Option.isSome_iff_exists.1 named
      have refused := fMkfs_protect named (told ▸ ready) run
      rw [refused, told, protect]
      simp only [reduceCtorEq, false_and, iff_false]
      tauto
    | fOpen told named here first granted writing =>
      rw [findVolume_protect named here first granted writing (told ▸ ready), told, protect]
      simp only [reduceCtorEq, false_and, iff_false]
      tauto
    | write stable stable' read made clear run =>
      have here := read_made stable read made
      obtain ⟨present', wrong⟩ := read_turns stable read made here
      obtain rfl : _ = DRESULT.wrprt := by
        refine write_refuses stable' ?_ ?_ ?_ run
        exacts [present', wrong, clear]
      simp

/-! ## A card that was asleep -/

/-- An SDHC card that rejects CMD17 until it is initialised again; its blocks are zeros. -/
def sleepyAnswer (awake : Bool) (cmd : BYTE) (arg : DWORD) : List BYTE :=
  if cmd = cmd17 then
    if awake then 0x00 :: 0xFE :: List.replicate 514 0x00 else [0x05]
  else sdhcAnswer cmd arg

/-- The card wakes up with the first byte of CMD0. -/
def sleepy : Board (Bool × Scripted) where
  transfer level x c :=
    let awake := c.1 || x == 0x40
    let (y, card) := (scripted (sleepyAnswer awake)).transfer level x c.2
    (y, awake, card)
  millis c := (0, c)
  delay _ c := c
  digitalRead _ c := (.high, c)

theorem sleepy_stable : Stable sleepy fun _ => .high := fun _ _ => rfl

/-- With a card in the slot, before the first call. -/
def sleeping : Machine (Bool × Scripted) :=
  .start ((SdspiDriver.begin 0 none).enableCardDetect 1 .high) (fun _ => .high) 0
    (true, { pins := fun _ => .high })

theorem made_initializeCard {fuel : Nat} {st : DSTATUS}
    (run : exec b (initializeCard fuel) m = some (st, m')) (pins : Pin → Level) :
    Made pins m m' ⟨.initializeCard, m.drv, pins, st⟩ := by
  obtain ⟨mid, log, -⟩ := initializeCard_ends run
  exact ⟨m'.log, List.suffix_rfl, by simp only [log, List.length_cons, List.length_append]; omega,
    initializeCard_reported run pins⟩

theorem made_status {st : DSTATUS} (run : exec b status m = some (st, m')) (pins : Pin → Level) :
    Made pins m m' ⟨.status, m.drv, pins, st⟩ := by
  obtain ⟨mid, log, -⟩ := status_ends run
  exact ⟨m'.log, List.suffix_rfl, by simp only [log, List.length_cons, List.length_append]; omega,
    status_reported run pins⟩

set_option maxRecDepth 100000 in
/-- A card is initialised and asked for its status, then it falls asleep, is initialised
again by `read`, and `write` refuses it. -/
theorem protection_right_iff_sleepy : ∃ (m : Machine (Bool × Scripted)) (r r' r'' : Report),
    Observed [r'', r', r] sleeping m ∧ r.Ready ∧ ¬ r.Agrees ∧ r'.Fair ∧ r'.Agrees ∧
    ¬ (r.st &&& staProtect ≠ 0 ↔ r'.st &&& staProtect ≠ 0) ∧
    r''.Ready ∧ ∃ refused, Used r'' .write refused ∧ refused ∧ ¬ (refused ↔ r''.Protected) := by
  let high : Pin → Level := fun _ => .high
  have run : ((exec sleepy (initializeCard 5) sleeping).any fun x =>
      x.1 &&& staNoinit == 0 && (exec sleepy status x.2).any fun y =>
        x.2.drv.status &&& staNodisk == 0 && x.2.drv.cardPresentAt high &&
        !x.2.drv.writeProtectedAt high &&
        (exec sleepy (read 5 [] 0 1) { y.2 with env := (false, y.2.env.2) }).any fun z =>
          z.2.drv.status &&& staNoinit == 0 &&
          (exec sleepy (write 5 [] 0 1) { z.2 with env := z.2.env }).any (fun w => w.1 == .wrprt) &&
          z.2.log.tails.any fun u => decide (y.2.log.length < u.length) &&
            (reported high u).any fun r => r.call == .initializeCard &&
              r.drv.cardPresentAt high && !r.drv.writeProtectedAt high &&
              r.st &&& staNoinit == 0) = true := by
    decide +kernel
  simp only [Option.any_eq_true, List.any_eq_true, Bool.and_eq_true, beq_iff_eq,
    Bool.not_eq_true', decide_eq_true_eq, List.mem_tails] at run
  obtain ⟨⟨st, m₁⟩, init, ready, ⟨st', m₂⟩, asked, ⟨⟨nodisk, here⟩, free⟩, ⟨x, m₃⟩, rd,
    ⟨clear, ⟨res, m₄⟩, wr, rfl⟩, u, within, longer, r, told, ⟨⟨call, present⟩, switch⟩, again⟩ := run
  have stable : Stable sleepy high := sleepy_stable
  have asleep : Observed [⟨.status, m₁.drv, high, st'⟩, ⟨.initializeCard, sleeping.drv, high, st⟩]
      sleeping { m₂ with env := (false, m₂.env.2) } := by
    refine .step (t := m₂) ?_ (.world _ m₂)
    refine .report 5 (c := .status) ?_ stable (exec_discard.2 ⟨st', asked⟩) (made_status asked high)
    exact .report 5 (c := .initializeCard) (.refl _) stable (exec_discard.2 ⟨st, init⟩)
      (made_initializeCard init high)
  have made : Made high { m₂ with env := (false, m₂.env.2) } m₃ r := ⟨u, within, longer, told⟩
  have observed : Observed [r, _, _] sleeping m₃ :=
    .report 5 (c := .read [] 0 1) asleep stable (exec_discard.2 ⟨x, rd⟩) made
  obtain ⟨agree, apart, right⟩ := protection_right_iff observed
  have same : r.pins = high := reported_pins told
  have used : Used r .write (DRESULT.wrprt = .wrprt) :=
    .write (same ▸ stable) (same ▸ stable) rd (same ▸ made) clear wr
  have again' : r.Ready := ⟨call, by simpa only [Report.Present, same] using present, again⟩
  have started : Report.Ready ⟨.initializeCard, sleeping.drv, high, st⟩ := ⟨rfl, rfl, ready⟩
  have unprotected : ¬ r.Protected := by simp [Report.Protected, same, switch]
  refine ⟨m₃, _, _, r, observed, started, ?_, .inr ⟨rfl, nodisk⟩, ?_, ?_, again', _, used, rfl, ?_⟩
  · rw [agree _ (by simp)]
    rintro (away | ⟨no, -⟩)
    · cases away
    · cases no
  · exact (agree _ (by simp)).2 (.inr ⟨rfl, nodisk⟩)
  · refine apart _ (by simp) ⟨.status, m₁.drv, high, st'⟩ (by simp) started rfl here ?_
    exact iff_of_false (fun switch => Bool.false_ne_true (free.symm.trans switch))
      Bool.false_ne_true
  · intro both
    exact unprotected ((right r (by simp) again' .write _ used).1 both).2

set_option maxRecDepth 100000 in
/-- A card is initialised in a slot without a write-protect switch: `initialize()` reports
STA_PROTECT, and `write` refuses. -/
theorem initializeCard_reports_protect : ∃ (r : Report) (m m' : Machine Scripted),
    Observed [r] (detecting fun _ => .high) m ∧ r.st &&& staNoinit = 0 ∧ ¬ r.Agrees ∧
    exec (scripted sdhcAnswer) (write 5 [] 0 1) m = some (.wrprt, m') := by
  have run : ((exec ((scripted sdhcAnswer).tied fun _ => .high) (initializeCard 5)
      (detecting fun _ => .high)).any fun x =>
      x.1 &&& staNoinit == 0 && x.1 &&& staProtect != 0 &&
      (exec (scripted sdhcAnswer) (write 5 [] 0 1) x.2).any fun y => y.1 == .wrprt) = true := by
    decide +kernel
  simp only [Option.any_eq_true, Bool.and_eq_true, beq_iff_eq, bne_iff_ne] at run
  obtain ⟨⟨st, m⟩, init, ⟨ready, protect⟩, ⟨res, m'⟩, refused, rfl⟩ := run
  have observed : Observed [_] (detecting fun _ => .high) m :=
    .report 5 (c := .initializeCard) (.refl _) (tied_stable _ _) (exec_discard.2 ⟨st, init⟩)
      (made_initializeCard init fun _ => .high)
  refine ⟨_, m, m', observed, ready, ?_, refused⟩
  intro agrees
  have switch : (detecting fun _ => .high).drv.writeProtectedAt (fun _ => .high) = true :=
    (agrees.2 rfl).1 protect
  cases switch

end FatFsParticle.Sdspi
