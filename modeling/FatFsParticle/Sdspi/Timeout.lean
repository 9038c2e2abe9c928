import FatFsParticle.Sdspi.Machine

/-!
# Time across the wrap of the counter

`millis()` counts 32 bits of milliseconds. A `TimeoutChecker` compares ticks as numbers,
and is right as long as the end of the wait has wrapped or the counter has not; `InTime`
says so. The polling loops are right as far as the ticks they read are timely.
-/

namespace FatFsParticle.Sdspi
open Interact Program

/-- `timeBetween` of `FatFs.cpp`, which `__ff_lock` waits by. -/
def timeBetween (past future : DWORD) : DWORD :=
  if past ≤ future then future - past else 0xFFFFFFFF - past + future

/-- A checker of duration `d` begun at the tick `s`. -/
def TimeoutChecker.begun (s d : DWORD) : TimeoutChecker := ⟨s, d, s + d⟩

/-- The checker's test at `t` is whether more than `d` has passed. -/
def Tells (s d t : DWORD) : Prop := (TimeoutChecker.begun s d).expiredAt t = true ↔ d < t - s

/-- The end of the wait wraps; or the counter has not, and the wait is not empty, unless
no time has passed. -/
def InTime (s d t : DWORD) : Prop :=
  2 ^ 32 ≤ s.toNat + d.toNat ∨ s ≤ t ∧ (d ≠ 0 ∨ t = s)

instance (s d t : DWORD) : Decidable (InTime s d t) :=
  inferInstanceAs (Decidable (_ ∨ _))

/-! ## One test -/

theorem toNat_elapsed (s t : DWORD) : (t - s).toNat =
    if s.toNat ≤ t.toNat then t.toNat - s.toNat else 2 ^ 32 + t.toNat - s.toNat := by
  have hs := s.isLt
  have ht := t.isLt
  rw [BitVec.toNat_sub]
  split <;> omega

theorem eq_zero_iff (d : DWORD) : d = 0 ↔ d.toNat = 0 := BitVec.toNat_inj.symm

theorem expiredAt_begun (s d t : DWORD) : (TimeoutChecker.begun s d).expiredAt t = true ↔
    if 2 ^ 32 ≤ s.toNat + d.toNat then
      s.toNat + d.toNat < 2 ^ 32 + t.toNat ∧ t.toNat < s.toNat
    else d.toNat ≠ 0 ∧ s.toNat + d.toNat < t.toNat := by
  have hs := s.isLt
  have hd := d.isLt
  have sum : (s + d).toNat = (s.toNat + d.toNat) % 2 ^ 32 := BitVec.toNat_add s d
  unfold TimeoutChecker.expiredAt TimeoutChecker.begun
  by_cases wraps : 2 ^ 32 ≤ s.toNat + d.toNat
  · have back : ¬ s < s + d := by
      rw [BitVec.lt_def, sum]
      omega
    rw [if_pos wraps, if_neg back]
    simp only [Bool.and_eq_true, decide_eq_true_eq, BitVec.lt_def, sum]
    omega
  · rw [if_neg wraps]
    by_cases empty : d.toNat = 0
    · have back : ¬ s < s + d := by
        rw [BitVec.lt_def, sum]
        omega
      rw [if_neg back]
      simp only [Bool.and_eq_true, decide_eq_true_eq, BitVec.lt_def, sum]
      omega
    · have ahead : s < s + d := by
        rw [BitVec.lt_def, sum]
        omega
      rw [if_pos ahead]
      simp only [decide_eq_true_eq, BitVec.lt_def, sum]
      omega

theorem tells_iff (s d t : DWORD) : Tells s d t ↔ InTime s d t := by
  have hs := s.isLt
  have hd := d.isLt
  have ht := t.isLt
  have same : t = s ↔ t.toNat = s.toNat := BitVec.toNat_inj.symm
  unfold Tells InTime
  rw [expiredAt_begun, BitVec.lt_def, toNat_elapsed, same, ne_eq d, eq_zero_iff, BitVec.le_def]
  split <;> split <;> omega

theorem timeBetween_iff (s t : DWORD) : timeBetween s t = t - s ↔ s ≤ t := by
  have hs := s.isLt
  have ht := t.isLt
  unfold timeBetween
  by_cases forward : s ≤ t
  · rw [if_pos forward]
    exact iff_of_true rfl forward
  · rw [if_neg forward]
    refine iff_of_false ?_ forward
    intro same
    have values := congrArg BitVec.toNat same
    rw [BitVec.le_def] at forward
    rw [toNat_elapsed, if_neg forward, BitVec.toNat_add, BitVec.toNat_sub] at values
    simp at values
    omega

/-! ## Polls -/

variable {σ : Type} {b : Board σ} {m m' : Machine σ}

/-- A byte is exchanged and the clock is read. -/
def polled (b : Board σ) (m : Machine σ) : (BYTE × DWORD) × Machine σ :=
  let (d, m₁) := Machine.handle b (.transfer 0xFF) m
  let (t, m₂) := Machine.handle b .millis m₁
  ((d, t), m₂)

/-- The byte and the tick of poll `i`. -/
def poll (b : Board σ) (m : Machine σ) : Nat → BYTE × DWORD
  | 0 => (polled b m).1
  | i + 1 => poll b (polled b m).2 i

theorem forall_lt_succ {n : Nat} {P : Nat → Prop} :
    (∀ i < n + 1, P i) ↔ P 0 ∧ ∀ i < n, P (i + 1) := by
  constructor
  · intro all
    exact ⟨all 0 (by omega), fun i inside => all (i + 1) (by omega)⟩
  · rintro ⟨first, rest⟩ i inside
    cases i with
    | zero => exact first
    | succ i => exact rest i (by omega)

/-- The loops of `wait_ready` and `rcvr_datablock`: polls until a byte is `done`, or it is
late. -/
def pollUntil (done : BYTE → Bool) (timeout : TimeoutChecker) : Nat → Prog BYTE
  | 0 => .stuck
  | fuel + 1 => do
    let d ← xmitSpi 0xFF
    if done d then pure d
    else do
      let late ← timeout.expired
      if late then pure d else pollUntil done timeout fuel

theorem waitReadyLoop_eq (t : TimeoutChecker) (k : Nat) :
    waitReadyLoop t k = pollUntil (· == 0xFF) t k := by
  induction k with
  | zero => rfl
  | succ k ih => simp only [waitReadyLoop, pollUntil, ih, beq_iff_eq]

theorem waitToken_eq (t : TimeoutChecker) (k : Nat) :
    waitToken t k = pollUntil (· != 0xFF) t k := by
  induction k with
  | zero => rfl
  | succ k ih => simp only [waitToken, pollUntil, ih, bne_iff_ne, ne_eq, ite_not]

/-- The loop has not ended in `k` polls. -/
theorem pollUntil_none {done : BYTE → Bool} (t : TimeoutChecker) (k : Nat) (m : Machine σ) :
    exec b (pollUntil done t k) m = none ↔
      ∀ i < k, done (poll b m i).1 = false ∧ t.expiredAt (poll b m i).2 = false := by
  induction k generalizing m with
  | zero => simp [pollUntil, exec, run]
  | succ k ih =>
    rw [forall_lt_succ]
    unfold pollUntil
    rw [exec_bind, exec_xmitSpi, Option.bind_some]
    have byte : (Machine.handle b (.transfer 0xFF) m).1 = (poll b m 0).1 := rfl
    rw [byte]
    cases ready : done (poll b m 0).1 with
    | true => simp
    | false =>
      have test : exec b t.expired (Machine.handle b (.transfer 0xFF) m).2 =
          some (t.expiredAt (poll b m 0).2, (polled b m).2) := rfl
      rw [if_neg (by simp), exec_bind, test, Option.bind_some]
      cases late : t.expiredAt (poll b m 0).2 with
      | true => simp
      | false =>
        rw [if_neg (by simp), ih]
        simp only [poll, true_and]

/-- Two tests that agree from poll to poll, and tests that have gone on for as long. -/
theorem forall_prefix_iff {P Q : Nat → Prop} :
    (∀ k, (∀ i < k, P i) ↔ ∀ i < k, Q i) ↔ ∀ i, (∀ j < i, Q j) → (P i ↔ Q i) := by
  constructor
  · intro same i before
    have now := same (i + 1)
    have here := (same i).2 before
    constructor
    · intro p
      refine now.1 ?_ i (by omega)
      intro j inside
      by_cases last : j = i
      · exact last ▸ p
      · exact here j (by omega)
    · intro q
      refine now.2 ?_ i (by omega)
      intro j inside
      by_cases last : j = i
      · exact last ▸ q
      · exact before j (by omega)
  · intro agree k
    induction k with
    | zero => simp
    | succ k ih =>
      constructor
      · intro all
        have before := ih.1 fun i inside => all i (by omega)
        intro i inside
        by_cases last : i = k
        · subst last
          exact (agree i before).1 (all i inside)
        · exact before i (by omega)
      · intro all
        have before : ∀ i < k, Q i := fun i inside => all i (by omega)
        intro i inside
        by_cases last : i = k
        · subst last
          exact (agree i before).2 (all i inside)
        · exact ih.2 before i (by omega)

/-! ## Loops -/

/-- After `k` polls, begun at the tick `s`, the loop has to go on: no byte was done, and
no poll was made more than `wt` ms after. -/
def GoesOn (done : BYTE → Bool) (s wt : DWORD) (polls : Nat → BYTE × DWORD) (k : Nat) : Prop :=
  ∀ i < k, done (polls i).1 = false ∧ ¬ wt < (polls i).2 - s

/-- Every poll up to the one where the loop has to end is timely. -/
def PollsInTime (done : BYTE → Bool) (s wt : DWORD) (polls : Nat → BYTE × DWORD) : Prop :=
  ∀ i, GoesOn done s wt polls i → done (polls i).1 = false → InTime s wt (polls i).2

theorem pollUntil_right_iff {done : BYTE → Bool} (s wt : DWORD) (m : Machine σ) :
    (∀ k, exec b (pollUntil done (.begun s wt) k) m = none ↔ GoesOn done s wt (poll b m) k) ↔
      PollsInTime done s wt (poll b m) := by
  unfold GoesOn PollsInTime
  simp only [pollUntil_none]
  rw [forall_prefix_iff]
  apply forall_congr'
  intro i
  apply imp_congr_right
  intro _
  rw [← tells_iff, Tells]
  cases done (poll b m i).1 with
  | true => simp
  | false =>
    simp only [true_and, forall_true_left]
    cases (TimeoutChecker.begun s wt).expiredAt (poll b m i).2 <;> simp

/-- The tick at which a wait begins, and the machine then. -/
def begins (b : Board σ) (m : Machine σ) : DWORD × Machine σ := Machine.handle b .millis m

theorem exec_begin (wt : DWORD) : exec b (TimeoutChecker.begin wt) m =
    some (.begun (begins b m).1 wt, (begins b m).2) := rfl

theorem waitReady_none (wt : UINT) (k : Nat) : exec b (waitReady k wt) m = none ↔
    exec b (pollUntil (· == 0xFF) (.begun (begins b m).1 wt) k) (begins b m).2 = none := by
  unfold waitReady
  rw [exec_bind, exec_begin, Option.bind_some, exec_bind, waitReadyLoop_eq]
  cases exec b (pollUntil (· == 0xFF) (.begun (begins b m).1 wt) k) (begins b m).2 <;> simp

theorem exec_rcvrSpiMulti (n : Nat) (m : Machine σ) :
    ∃ x, exec b (rcvrSpiMulti n) m = some x := by
  have halts : (rcvrSpiMulti n).Halts := by
    induction n with
    | zero => exact halts_pure _
    | succ n ih =>
      apply halts_bind (halts_request _)
      intro x
      exact halts_bind ih fun _ => halts_pure _
  exact halts_run (Machine.handle b) halts m

theorem rcvrDatablock_none (btr k : Nat) : exec b (rcvrDatablock k btr) m = none ↔
    exec b (pollUntil (· != 0xFF) (.begun (begins b m).1 200) k) (begins b m).2 = none := by
  unfold rcvrDatablock
  rw [exec_bind, exec_begin, Option.bind_some, exec_bind, waitToken_eq]
  cases exec b (pollUntil (· != 0xFF) (.begun (begins b m).1 200) k) (begins b m).2 with
  | none => simp
  | some x =>
    obtain ⟨token, t⟩ := x
    by_cases start : token = 0xFE
    · obtain ⟨⟨bytes, u⟩, got⟩ := exec_rcvrSpiMulti (b := b) btr t
      simp [start, exec_bind, got]
    · rw [Option.bind_some, if_neg start]
      simp

/-- Tests are right exactly at timely ticks, `timeBetween` when the counter has not
wrapped, and a loop ends at the first poll made more than its timeout after it began
exactly when its polls are timely. -/
theorem elapsed_right_iff (s d t : DWORD) (b : Board σ) (m : Machine σ) (wt : UINT) (btr : Nat) :
    (Tells s d t ↔ InTime s d t) ∧
    (timeBetween s t = t - s ↔ s ≤ t) ∧
    ((∀ k, exec b (waitReady k wt) m = none ↔
        GoesOn (· == 0xFF) (begins b m).1 wt (poll b (begins b m).2) k) ↔
      PollsInTime (· == 0xFF) (begins b m).1 wt (poll b (begins b m).2)) ∧
    ((∀ k, exec b (rcvrDatablock k btr) m = none ↔
        GoesOn (· != 0xFF) (begins b m).1 200 (poll b (begins b m).2) k) ↔
      PollsInTime (· != 0xFF) (begins b m).1 200 (poll b (begins b m).2)) := by
  refine ⟨tells_iff s d t, timeBetween_iff s t, ?_, ?_⟩
  · simp only [waitReady_none]
    exact pollUntil_right_iff _ wt _
  · simp only [rcvrDatablock_none]
    exact pollUntil_right_iff _ 200 _

/-- A wait of 10 ms begun 256 ms before the counter wraps is not over 5 ms after that, and
one millisecond across the wrap is none. -/
theorem wrap_is_lost : ¬ Tells 0xFFFFFF00 10 5 ∧ timeBetween 0xFFFFFFFF 0 ≠ 0 - 0xFFFFFFFF := by
  constructor
  · unfold Tells
    decide
  · decide

end FatFsParticle.Sdspi
