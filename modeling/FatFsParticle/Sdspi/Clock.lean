import FatFsParticle.Sdspi.Keep

/-!
# The rate of the bus

`initialize()` takes the bus before it selects the low-speed clock, so a byte is
clocked at what the `initialize()` before it left active: `activeRate`. From that
follows exactly which runs keep every byte within the limit of its phase.
-/

namespace FatFsParticle.Sdspi
open Interact Program

variable {σ : Type} {b : Board σ} {m m' : Machine σ} {rate : DWORD}

/-- The rate the last completed `initialize()` left active: the low-speed limit if it
found the slot empty, else the high-speed limit; 400 kHz before the first. -/
def activeRate : List Event → DWORD
  | [] => 400000
  | .mark (.leave .initializeCard) d :: older =>
    if foundEmpty older then d.lowSpeedClock else d.highSpeedClock
  | _ :: older => activeRate older

/-- Some `initialize()` has succeeded. -/
def everInitialized : List Event → Bool
  | [] => false
  | e :: older => initialized (e :: older) || everInitialized older

/-- A byte after `older` may be clocked at `rate`. -/
def Within (rate : DWORD) (older : List Event) : Prop :=
  match openCalls older with
  | (.initializeCard, d) :: _ => rate ≤ d.lowSpeedClock
  | (.read, d) :: _ | (.write, d) :: _ | (.ioctl, d) :: _ =>
    rate ≤ d.highSpeedClock ∧ (everInitialized older = true → rate = d.highSpeedClock)
  | (.status, _) :: _ | [] => True

/-- Every byte was clocked within the limit of its phase. -/
def SpeedOk : List Event → Prop
  | [] => True
  | .byte _ hz _ _ :: older => Within hz older ∧ SpeedOk older
  | _ :: older => SpeedOk older

/-- Whenever a call exchanged a byte, what the last completed `initialize()` left
active was within the limit of that call. -/
def Clocked : List Event → Prop
  | [] => True
  | .byte _ _ _ _ :: older => Within (activeRate older) older ∧ Clocked older
  | _ :: older => Clocked older

/-- Every byte was clocked at the active rate. -/
def Paced : List Event → Prop
  | [] => True
  | .byte _ hz _ _ :: older => hz = activeRate older ∧ Paced older
  | _ :: older => Paced older

/-- Anything but the end of an `initialize()`, a byte only at `rate`. -/
def Event.IsSteady (rate : DWORD) : Event → Prop
  | .byte _ hz _ _ => hz = rate
  | .mark k _ => k ≠ .leave .initializeCard
  | _ => True

theorem paced_append {l log : List Event} (h : ∀ e ∈ l, e.IsSteady (activeRate log))
    (paced : Paced log) : Paced (l ++ log) ∧ activeRate (l ++ log) = activeRate log := by
  induction l with
  | nil => exact ⟨paced, rfl⟩
  | cons e l ih =>
    obtain ⟨rest, same⟩ := ih fun e he => h e (List.mem_cons_of_mem _ he)
    have he := h e List.mem_cons_self
    cases e with
    | byte cs hz x y => exact ⟨⟨he.trans same.symm, rest⟩, same⟩
    | tick | pin => exact ⟨rest, same⟩
    | mark k d =>
      cases k with
      | enter f => exact ⟨rest, same⟩
      | leave f =>
        cases f with
        | initializeCard => exact absurd rfl he
        | status | read | write | ioctl => exact ⟨rest, same⟩

theorem Event.IsInner.steady {e : Event} (h : e.IsInner rate) : e.IsSteady rate := by
  cases e with
  | byte => exact h
  | tick | pin => trivial
  | mark => exact h.elim

/-- Between calls. -/
@[mk_iff OnPace_iff]
structure OnPace (m : Machine σ) : Prop where
  paced : Paced m.log
  active : m.drv.activeClock = activeRate m.log

/-- While the bus is taken. -/
structure InPace (m : Machine σ) : Prop extends OnPace m where
  hz : m.hz = m.drv.activeClock

theorem onPace_mark {k : Mark} (hk : k.IsTransfer) (h : OnPace m) : OnPace (m.marked k) := by
  have steady : ∀ e ∈ [Event.mark k m.drv], e.IsSteady (activeRate m.log) := by
    intro e he
    rw [List.mem_singleton] at he
    subst he
    rintro rfl
    exact hk.1 rfl
  obtain ⟨paced, same⟩ := paced_append steady h.paced
  exact ⟨paced, h.active.trans same.symm⟩

theorem initializeCard_onPace {fuel : Nat} {st : DSTATUS}
    (run : exec b (initializeCard fuel) m = some (st, m')) (h : OnPace m) : OnPace m' := by
  cases initializeCard_outcome run with
  | empty level absent status enabled read drv log =>
    have steady : ∀ e ∈ [Event.pin m.drv.cd level, .mark (.enter .initializeCard) m.drv],
        e.IsSteady (activeRate m.log) := by
      simp [Event.IsSteady]
    have found : foundEmpty (.pin m.drv.cd level :: .mark (.enter .initializeCard) m.drv :: m.log) =
        true := by simp [foundEmpty, enabled, read]
    rw [OnPace_iff, log]
    refine ⟨(paced_append steady h.paced).1, ?_⟩
    rw [activeRate, if_pos found, drv]
  | concluded ty w pins traffic cd y present status drv wpEnabled wp wpActiveState log inner
      is_traffic detect =>
    have steady : ∀ e ∈ pins ++ .byte .high m.drv.activeClock 0xFF y :: (traffic ++
        (cd ++ [.mark (.enter .initializeCard) m.drv])), e.IsSteady (activeRate m.log) := by
      intro e he
      rw [← h.active]
      simp only [List.mem_append, List.mem_cons, List.not_mem_nil, or_false] at he
      rcases he with he | rfl | he | he | rfl
      · exact (inner e he).steady
      · rfl
      · exact (is_traffic e he).inner.steady
      · rcases detect with ⟨-, rfl⟩ | ⟨-, rfl⟩
        · cases he
        · rw [List.mem_singleton.1 he]
          trivial
      · simp [Event.IsSteady]
    have notEmpty := foundEmpty_inner inner (x := .byte .high m.drv.activeClock 0xFF y) rfl
      (traffic ++ (cd ++ .mark (.enter .initializeCard) m.drv :: m.log))
    have paced := (paced_append steady h.paced).1
    simp only [List.append_assoc, List.cons_append, List.nil_append] at paced
    rw [OnPace_iff, log]
    refine ⟨paced, ?_⟩
    rw [activeRate, notEmpty, drv]
    rfl

theorem status_onPace {st : DSTATUS} (run : exec b status m = some (st, m')) (h : OnPace m) :
    OnPace m' := by
  obtain ⟨new, hlog, steady, active⟩ : ∃ new, m'.log = new ++ m.log ∧
      (∀ e ∈ new, e.IsSteady (activeRate m.log)) ∧ m'.drv.activeClock = m.drv.activeClock := by
    cases status_outcome run with
    | empty level absent status enabled read drv log =>
      refine ⟨[.mark (.leave .status) m'.drv, .pin m.drv.cd level, .mark (.enter .status) m.drv],
        log, by simp [Event.IsSteady], by rw [drv]⟩
    | present w pins cd present status drv same log shape detect =>
      refine ⟨.mark (.leave .status) m'.drv :: (pins ++ (cd ++ [.mark (.enter .status) m.drv])),
        by simp [log], ?_, by rw [drv]⟩
      rcases shape with ⟨-, rfl⟩ | ⟨-, level, rfl⟩ <;> rcases detect with ⟨-, rfl⟩ | ⟨-, rfl⟩ <;>
        simp [Event.IsSteady]
  obtain ⟨paced, same⟩ := paced_append steady h.paced
  rw [OnPace_iff, hlog]
  exact ⟨paced, by rw [active, same, h.active]⟩

theorem inPace_stays : Stays (InPace (σ := σ)) where
  lock _ h := ⟨⟨h.paced, h.active⟩, rfl⟩
  unlock _ h := ⟨⟨h.paced, h.active⟩, h.hz⟩
  mark _ _ hk h := ⟨onPace_mark hk h.toOnPace, h.hz⟩
  pin _ _ _ _ h := ⟨⟨h.paced, h.active⟩, h.hz⟩

theorem pace_keeps (b : Board σ) : Keeps b OnPace InPace InPace where
  inner _ h := h.toOnPace
  lock _ h := ⟨⟨h.paced, h.active⟩, rfl⟩
  mark _ _ := onPace_mark
  stays := inPace_stays
  opened _ h _ := h
  closed _ h := h
  remains := inPace_stays
  passed m t h passed := by
    obtain ⟨new, hlog, traffic⟩ := passed.log
    have steady : ∀ e ∈ new, e.IsSteady (activeRate m.log) := by
      intro e he
      rw [← h.active, ← h.hz]
      exact (traffic e he).inner.steady
    obtain ⟨paced, same⟩ := paced_append steady h.paced
    refine ⟨⟨hlog ▸ paced, ?_⟩, ?_⟩
    · rw [hlog, passed.drv, same, h.active]
    · rw [passed.drv, passed.hz, h.hz]
  recover _ m st t h _ run := by
    have again : OnPace t := initializeCard_onPace run ⟨h.paced, h.active⟩
    exact ⟨⟨again.paced, again.active⟩, rfl⟩
  initializeCard _ _ _ _ h run := initializeCard_onPace run h
  status _ _ _ h run := status_onPace run h
  highSpeedClock _ _ h := ⟨h.paced, h.active⟩
  lowSpeedClock _ _ h := ⟨h.paced, h.active⟩
  world _ _ h := ⟨h.paced, h.active⟩

/-! ## Limits -/

theorem SetUp.activeClock {d : SdspiDriver} (h : SetUp d) : d.activeClock = 400000 := by
  induction h with
  | begin => rfl
  | cardDetect _ _ _ ih | writeProtect _ _ _ ih => exact ih

theorem speedOk_iff_clocked_of_paced {log : List Event} (h : Paced log) :
    SpeedOk log ↔ Clocked log := by
  induction log with
  | nil => exact Iff.rfl
  | cons e older ih =>
    cases e with
    | byte cs hz x y =>
      obtain ⟨rfl, rest⟩ := h
      exact and_congr_right fun _ => ih rest
    | tick | pin | mark => exact ih h

/-- In every run the limits are kept exactly when the rate left active by the last
`initialize()` is within the limit of each call that exchanges bytes. -/
theorem speedOk_iff_clocked {d : SdspiDriver} (hd : SetUp d) {out : Pin → Level} {hz : DWORD}
    {s : σ} (run : Run (Machine.start d out hz s) m) : SpeedOk m.log ↔ Clocked m.log := by
  have start : OnPace (Machine.start d out hz s) := ⟨trivial, hd.activeClock⟩
  exact speedOk_iff_clocked_of_paced (keeps_run pace_keeps run start).paced

/-! ## Initialising once -/

theorem activeRate_inner {hz : DWORD} {l : List Event} (h : ∀ e ∈ l, e.IsInner hz) (log : List Event) :
    activeRate (l ++ log) = activeRate log := by
  induction l with
  | nil => rfl
  | cons e l ih =>
    have rest := ih fun e he => h e (List.mem_cons_of_mem _ he)
    cases e with
    | byte | tick | pin => exact rest
    | mark => exact (h _ List.mem_cons_self).elim

theorem clocked_inner {hz : DWORD} {l log : List Event} {d : SdspiDriver} {calls : List (Member × SdspiDriver)}
    (h : ∀ e ∈ l, e.IsInner hz) (open_ : openCalls log = (.initializeCard, d) :: calls)
    (low : activeRate log ≤ d.lowSpeedClock) (clocked : Clocked log) : Clocked (l ++ log) := by
  induction l with
  | nil => exact clocked
  | cons e l ih =>
    have inner : ∀ e ∈ l, e.IsInner hz := fun e he => h e (List.mem_cons_of_mem _ he)
    cases e with
    | byte cs hz' x y =>
      have within : Within (activeRate (l ++ log)) (l ++ log) := by
        rw [Within, openCalls_inner inner, open_, activeRate_inner inner]
        exact low
      exact ⟨within, ih inner⟩
    | tick | pin => exact ih inner
    | mark => exact (h _ List.mem_cons_self).elim

/-- An `initialize()` whose rate is low enough when it begins. -/
theorem clocked_initializeCard {fuel : Nat} {st : DSTATUS} (run : exec b (initializeCard fuel) m = some (st, m'))
    (low : activeRate m.log ≤ m.drv.lowSpeedClock) (clocked : Clocked m.log) : Clocked m'.log := by
  cases initializeCard_outcome run with
  | empty level absent status enabled read drv log =>
    rw [log]
    exact clocked
  | concluded ty w pins traffic cd y present status drv wpEnabled wp wpActiveState log inner is_traffic detect =>
    have all : ∀ e ∈ pins ++ .byte .high m.drv.activeClock 0xFF y :: (traffic ++ cd),
        e.IsInner m.drv.activeClock := by
      intro e he
      simp only [List.mem_append, List.mem_cons] at he
      rcases he with he | rfl | he | he
      · exact inner e he
      · rfl
      · exact (is_traffic e he).inner
      · rcases detect with ⟨-, rfl⟩ | ⟨-, rfl⟩
        · cases he
        · rw [List.mem_singleton.1 he]
          trivial
    have open_ : openCalls (.mark (.enter .initializeCard) m.drv :: m.log) =
        (.initializeCard, m.drv) :: openCalls m.log := rfl
    have kept := clocked_inner all open_ low clocked
    simp only [List.append_assoc, List.cons_append] at kept
    rw [log]
    exact kept

set_option maxRecDepth 100000 in
/-- A card is initialised for the first time. -/
theorem speedOk_iff_clocked_sdhc : ∃ st m', exec (scripted sdhcAnswer) (initializeCard 5) (detecting fun _ => .high) =
    some (st, m') ∧ st &&& staNoinit = 0 ∧ SpeedOk m'.log := by
  have accepted : ((exec (scripted sdhcAnswer) (initializeCard 5) (detecting fun _ => .high)).any
      fun x => x.1 &&& staNoinit == 0) = true := by decide +kernel
  simp only [Option.any_eq_true, beq_iff_eq] at accepted
  obtain ⟨⟨st, m'⟩, run, clear⟩ := accepted
  have clocked : Clocked m'.log := clocked_initializeCard run (BitVec.le_refl _) trivial
  have step : Run (detecting fun _ => .high) m' :=
    .tail .refl (.call (scripted sdhcAnswer) 5 .initializeCard (exec_discard.2 ⟨st, run⟩))
  exact ⟨st, m', run, clear, (speedOk_iff_clocked detecting_setUp step).2 clocked⟩

/-! ## Initialising twice -/

theorem speedOk_append {l log : List Event} (h : SpeedOk (l ++ log)) : SpeedOk log := by
  induction l with
  | nil => exact h
  | cons e l ih =>
    cases e with
    | byte => exact ih h.2
    | tick | pin | mark => exact ih h

/-- An `initialize()` that meets a card keeps to the rate left active before it only if
that is within the low-speed limit. -/
theorem speedOk_initializeCard {fuel : Nat} {st : DSTATUS}
    (run : exec b (initializeCard fuel) m = some (st, m')) (present : (m.entered.slot b).1 = true)
    (h : SpeedOk m'.log) : m.drv.activeClock ≤ m.drv.lowSpeedClock := by
  cases initializeCard_outcome run with
  | empty level absent =>
    rw [present] at absent
    cases absent
  | concluded ty w pins traffic cd y present status drv wpEnabled wp wpActiveState log inner
      is_traffic detect =>
    rw [log] at h
    have within := (speedOk_append (l := .mark (.leave .initializeCard) m'.drv :: pins) h).1
    have calls : openCalls (traffic ++ (cd ++ .mark (.enter .initializeCard) m.drv :: m.log)) =
        (.initializeCard, m.drv) :: openCalls m.log := by
      rw [openCalls_inner fun e he => (is_traffic e he).inner]
      rcases detect with ⟨-, rfl⟩ | ⟨-, rfl⟩ <;> rfl
    rw [Within, calls] at within
    exact within

/-- With the limits as constructed, the second `initialize()` of a card sends its
commands at 15 MHz. -/
theorem second_initializeCard_too_fast : ∃ m : Machine Scripted,
    Run (detecting fun _ => .high) m ∧ m.drv.lowSpeedClock = 400000 ∧ ¬ SpeedOk m.log := by
  obtain ⟨st, m₁, h₁⟩ := mute_initializeCard (detecting fun _ => .high)
  obtain ⟨st', m₂, h₂⟩ := mute_initializeCard m₁
  have drv : m₁.drv.activeClock = 15000000 ∧ m₁.drv.lowSpeedClock = 400000 ∧
      m₁.drv.cdActiveState = .high := by
    cases initializeCard_outcome h₁ with
    | empty level absent => cases absent
    | concluded ty w pins traffic cd y present status drv =>
      rw [drv]
      exact ⟨rfl, rfl, rfl⟩
  have present : (m₁.entered.slot mute).1 = true := by
    have stable : Stable (mute (σ := Scripted)) fun _ => .high := fun _ _ => rfl
    rw [slot_stable stable]
    simp [SdspiDriver.cardPresentAt, drv.2.2]
  have low : m₂.drv.lowSpeedClock = 400000 := by
    cases initializeCard_outcome h₂ with
    | empty _ _ _ _ _ drv' => rw [drv']; exact drv.2.1
    | concluded _ _ _ _ _ _ _ _ drv' => rw [drv']; exact drv.2.1
  have run : Run (detecting fun _ => .high) m₂ :=
    .tail (.tail .refl (.call mute 1 .initializeCard (exec_discard.2 ⟨st, h₁⟩)))
      (.call mute 1 .initializeCard (exec_discard.2 ⟨st', h₂⟩))
  refine ⟨m₂, run, low, ?_⟩
  intro ok
  have within := speedOk_initializeCard h₂ present ok
  rw [drv.1, drv.2.1] at within
  exact absurd within (by decide)

end FatFsParticle.Sdspi
