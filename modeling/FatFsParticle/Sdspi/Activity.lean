import FatFsParticle.Sdspi.Bus

/-!
# The activity flags

`lock()` sets `_busy` and `_busy_check`, `unlock()` clears `_busy`, and
`wasBusySinceLastCheck()` returns `_busy_check` and makes it what `_busy` is, each in one
step. Over a sequence of such steps by any threads, newest first, the flags tell what they
should as long as no thread unlocks a lock inside another one of its own.
-/

namespace FatFsParticle.Sdspi

/-- What it returns, and the members after it. -/
def wasBusySinceLastCheck (d : SdspiDriver) : Bool × SdspiDriver :=
  (d.busyCheck, { d with busyCheck := d.busy })

/-- The flag-setting step of `lock()`, the flag-clearing step of `unlock()`, and a check. -/
inductive Act (T : Type) where
  | set (t : T)
  | clear (t : T)
  | check (answer : Bool)
  deriving DecidableEq, Repr

variable {T : Type} [DecidableEq T]

/-- How many locks of the thread `t` are not unlocked yet. -/
def nest (t : T) : List (Act T) → Nat
  | [] => 0
  | .set u :: older => if u = t then nest t older + 1 else nest t older
  | .clear u :: older => if u = t then nest t older - 1 else nest t older
  | .check _ :: older => nest t older

/-- An outermost `lock()` of some thread has set the flags, and the matching `unlock()` has
not cleared `_busy`. -/
def InProgress (acts : List (Act T)) : Prop := ∃ t, 0 < nest t acts

/-- An operation was in progress at some moment since the last check, or since the
construction. -/
def ActiveSince : List (Act T) → Prop
  | [] => False
  | .check _ :: older => InProgress older
  | act :: older => InProgress (act :: older) ∨ ActiveSince older

/-- Every check told whether an operation had been in progress since the one before. -/
def ChecksRight : List (Act T) → Prop
  | [] => True
  | .check answer :: older => (answer = true ↔ ActiveSince older) ∧ ChecksRight older
  | _ :: older => ChecksRight older

/-- No `unlock()` was of a lock inside another one of the same thread. -/
def Flat : List (Act T) → Prop
  | [] => True
  | .clear t :: older => nest t older ≤ 1 ∧ Flat older
  | _ :: older => Flat older

/-! ## The flags after a sequence -/

omit [DecidableEq T] in
/-- `_busy`. -/
def busyAfter : List (Act T) → Bool
  | [] => false
  | .set _ :: _ => true
  | .clear _ :: _ => false
  | .check _ :: older => busyAfter older

/-- `_busy_check`. -/
def busyCheckAfter : List (Act T) → Bool
  | [] => false
  | .set _ :: _ => true
  | .clear _ :: older => busyCheckAfter older
  | .check _ :: older => busyAfter older

/-- Every check returned `_busy_check`. -/
def Answered : List (Act T) → Prop
  | [] => True
  | .check answer :: older => answer = busyCheckAfter older ∧ Answered older
  | _ :: older => Answered older

/-- Where a thread unlocks, no other one holds a lock. -/
def Serial : List (Act T) → Prop
  | [] => True
  | .clear t :: older => (∀ u, u ≠ t → nest u older = 0) ∧ Serial older
  | _ :: older => Serial older

@[simp] theorem nest_set_self (t : T) (acts : List (Act T)) :
    nest t (.set t :: acts) = nest t acts + 1 := by simp [nest]

@[simp] theorem nest_clear_self (t : T) (acts : List (Act T)) :
    nest t (.clear t :: acts) = nest t acts - 1 := by simp [nest]

@[simp] theorem nest_check (t : T) (answer : Bool) (acts : List (Act T)) :
    nest t (.check answer :: acts) = nest t acts := rfl

theorem nest_set_ne {t u : T} (other : u ≠ t) (acts : List (Act T)) :
    nest u (.set t :: acts) = nest u acts := if_neg other.symm

theorem nest_clear_ne {t u : T} (other : u ≠ t) (acts : List (Act T)) :
    nest u (.clear t :: acts) = nest u acts := if_neg other.symm

theorem Flat.older {newer older : List (Act T)} (flat : Flat (newer ++ older)) : Flat older := by
  induction newer with
  | nil => exact flat
  | cons act newer ih =>
    cases act with
    | clear t => exact ih flat.2
    | set t => exact ih flat
    | check answer => exact ih flat

/-! ## What the flags tell -/

theorem busy_iff {acts : List (Act T)} (serial : Serial acts) (flat : Flat acts) :
    busyAfter acts = true ↔ InProgress acts := by
  induction acts with
  | nil =>
    constructor
    · intro busy
      cases busy
    · rintro ⟨t, more⟩
      exact absurd more (Nat.lt_irrefl 0)
  | cons act older ih =>
    cases act with
    | set t =>
      constructor
      · intro _
        exact ⟨t, by simp⟩
      · intro _
        rfl
    | clear t =>
      constructor
      · intro busy
        cases busy
      · rintro ⟨u, more⟩
        by_cases own : u = t
        · subst own
          have one := flat.1
          rw [nest_clear_self] at more
          omega
        · rw [nest_clear_ne own, serial.1 u own] at more
          exact absurd more (Nat.lt_irrefl 0)
    | check answer => exact ih serial flat

theorem busyCheck_iff {acts : List (Act T)} (serial : Serial acts) (flat : Flat acts) :
    busyCheckAfter acts = true ↔ ActiveSince acts := by
  induction acts with
  | nil => exact ⟨nofun, False.elim⟩
  | cons act older ih =>
    cases act with
    | set t =>
      constructor
      · intro _
        exact .inl ⟨t, by simp⟩
      · intro _
        rfl
    | clear t =>
      have idle : ¬ InProgress (.clear t :: older) := by
        intro busy
        have set := (busy_iff serial flat).mpr busy
        cases set
      constructor
      · intro checked
        exact .inr ((ih serial.2 flat.2).mp checked)
      · rintro (busy | active)
        · exact absurd busy idle
        · exact (ih serial.2 flat.2).mpr active
    | check answer => exact busy_iff (T := T) serial flat

theorem checksRight {acts : List (Act T)} (serial : Serial acts) (answered : Answered acts)
    (flat : Flat acts) : ChecksRight acts := by
  induction acts with
  | nil => trivial
  | cons act older ih =>
    cases act with
    | set t => exact ih serial answered flat
    | clear t => exact ih serial.2 answered flat.2
    | check answer =>
      obtain ⟨same, answered⟩ := answered
      constructor
      · rw [same]
        exact busyCheck_iff serial flat
      · exact ih serial answered flat

end FatFsParticle.Sdspi
