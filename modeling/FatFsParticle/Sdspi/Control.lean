import FatFsParticle.Sdspi.Guard
import FatFsParticle.Sdspi.Tape

/-!
# Runs of `ioctl()`

Every run of `ioctl()` is two checks, the arm of the command, and `deselect`. A data
block that it takes in stands on the tape behind its token.
-/

namespace FatFsParticle.Sdspi
open Interact Program

variable {σ : Type} {b : Board σ} {m m' : Machine σ}

/-- The `switch` of `ioctl`. -/
def ioctlArm (fuel : Nat) (cmd : BYTE) (dp : DWORD × DWORD) : Prog (DRESULT × Option DWORD) :=
  if cmd = ctrlSync then do
    let ready ← select fuel
    pure (if ready then .ok else .error, none)
  else if cmd = getSectorCount then ioctlSectorCount fuel
  else if cmd = getBlockSize then ioctlBlockSize fuel
  else if cmd = ctrlEraseSector then ioctlErase fuel (ioctl fuel mmcGetCsd dp) dp
  else pure (.parerr, none)

namespace Machine

/-- The machine at the presence check of `ioctl`, with what `cardPresent()` said. -/
def ioctlEntered (b : Board σ) (m : Machine σ) : Bool × Machine σ :=
  (m.marked (.enter .ioctl)).locked.slot b

/-- After `deselect`. -/
def deselected (b : Board σ) (m : Machine σ) : Machine σ :=
  (handle b (.transfer 0xFF) { m with out := Function.update m.out m.drv.cs .high }).2

/-- Behind the end of `ioctl`. -/
def ioctlLeft (m : Machine σ) : Machine σ := m.unlocked.marked (.leave .ioctl)

end Machine

@[simp] theorem ioctlEntered_drv : (m.ioctlEntered b).2.drv =
    { m.drv with busy := true, busyCheck := true } := by
  simp [Machine.ioctlEntered]

/-- A run of `ioctl` is refused, or it is a run of its arm. -/
theorem exec_ioctl (fuel : Nat) (cmd : BYTE) (dp : DWORD × DWORD) :
    exec b (ioctl (fuel + 1) cmd dp) m =
      if m.drv.status &&& staNoinit ≠ 0 then
        some ((.notrdy, none), ((m.marked (.enter .ioctl)).locked).ioctlLeft)
      else if (m.ioctlEntered b).1 = false then
        some ((.notrdy, none), (m.ioctlEntered b).2.ioctlLeft)
      else (exec b (ioctlArm fuel cmd dp) (m.ioctlEntered b).2).map fun x =>
        (x.1, (x.2.deselected b).ioctlLeft) := by
  let body : Prog (DRESULT × Option DWORD) := do
    let d ← load
    if d.status &&& staNoinit ≠ 0 then pure (.notrdy, none)
    else do
      let present ← cardPresent
      if !present then pure (.notrdy, none)
      else do
        let res ← ioctlArm fuel cmd dp
        deselect
        pure res
  have whole : exec b (ioctl (fuel + 1) cmd dp) m =
      (exec b body (m.marked (.enter .ioctl)).locked).map fun x => (x.1, x.2.ioctlLeft) := by
    change exec b (member .ioctl (lockGuard body)) m = _
    unfold member lockGuard
    simp only [exec_bind, exec_mark, Option.bind_some, exec_lock, exec_unlock, exec_pure]
    cases exec b body (m.marked (.enter .ioctl)).locked <;> rfl
  rw [whole]
  simp only [body, exec_bind, exec_load, Option.bind_some]
  change (exec b (if m.drv.status &&& staNoinit ≠ 0 then _ else _) _).map _ = _
  split
  · rfl
  · rw [exec_bind, exec_cardPresent, Option.bind_some]
    change (exec b (if (!(m.ioctlEntered b).1) = true then _ else _) (m.ioctlEntered b).2).map _ = _
    cases (m.ioctlEntered b).1 with
    | false => rfl
    | true =>
      rw [if_neg (by decide), if_neg (by decide), exec_bind]
      cases exec b (ioctlArm fuel cmd dp) (m.ioctlEntered b).2 with
      | none => rfl
      | some x => rfl

/-! ## Logs of these machines -/

/-- Events that are no bytes leave the tape as it is. -/
theorem tape_silent {new : List Event} (silent : ∀ e ∈ new, e.exchange = none) : tape new = [] := by
  unfold tape
  apply List.filterMap_eq_nil_iff.mpr
  intro e mem
  exact silent e (List.mem_reverse.mp mem)

theorem ioctlEntered_log : ∃ new, (m.ioctlEntered b).2.log = new ++ m.log ∧ tape new = [] := by
  obtain ⟨new, log, pins⟩ := slot_pins b (m.marked (.enter .ioctl)).locked
  refine ⟨new ++ [.mark (.enter .ioctl) m.drv], ?_, ?_⟩
  · rw [Machine.ioctlEntered, log]
    simp
  · apply tape_silent
    intro e mem
    rcases List.mem_append.mp mem with mem | mem
    · obtain ⟨p, l, rfl⟩ := pins e mem
      rfl
    · rw [List.mem_singleton.mp mem]
      rfl

theorem deselected_log : ∃ new y, (m.deselected b).ioctlLeft.log = new ++ m.log ∧
    tape new = fillers .high [y] := by
  have level : (Machine.csLevel { m with out := Function.update m.out m.drv.cs .high }) = .high := by
    simp [Machine.csLevel]
  refine ⟨[.mark (.leave .ioctl) { m.drv with busy := false },
    .byte .high m.hz 0xFF (b.transfer .high 0xFF m.env).1], (b.transfer .high 0xFF m.env).1, ?_, rfl⟩
  simp [Machine.ioctlLeft, Machine.deselected, Machine.handle, level]

/-! ## Data blocks on the tape -/

variable {l : Level}

theorem puts_rcvrSpiMulti (n : Nat) : Puts (rcvrSpiMulti n) l fun bytes xs l' =>
    xs = fillers l bytes ∧ bytes.length = n ∧ l' = l := by
  induction n with
  | zero => exact puts_pure ⟨rfl, rfl, rfl⟩
  | succ n ih =>
    unfold rcvrSpiMulti
    apply puts_bind (puts_filler (Q := fun y xs l' => xs = fillers l [y] ∧ l' = l)
      fun y => ⟨rfl, rfl⟩)
    rintro y _ _ ⟨rfl, rfl⟩
    apply puts_bind ih
    rintro bytes _ _ ⟨rfl, rfl, rfl⟩
    apply puts_pure
    rw [List.append_nil]
    exact ⟨rfl, rfl, rfl⟩

theorem puts_waitToken (timeout : TimeoutChecker) (fuel : Nat) :
    Puts (waitToken timeout fuel) l fun token xs l' =>
      (∃ ys, xs = fillers l (ys ++ [token])) ∧ l' = l := by
  induction fuel with
  | zero => exact puts_stuck
  | succ fuel ih =>
    unfold waitToken
    apply puts_bind (puts_filler (Q := fun y xs l' => xs = fillers l [y] ∧ l' = l)
      fun y => ⟨rfl, rfl⟩)
    rintro token _ _ ⟨rfl, rfl⟩
    apply puts_ite
    · intro full
      apply puts_bind (puts_expired timeout)
      rintro late _ _ ⟨rfl, rfl⟩
      apply puts_ite
      · intro late
        exact puts_pure ⟨⟨[], rfl⟩, rfl⟩
      · intro early
        apply puts_mono ih
        rintro again _ _ ⟨⟨ys, rfl⟩, rfl⟩
        exact ⟨⟨token :: ys, rfl⟩, rfl⟩
    · intro other
      exact puts_pure ⟨⟨[], rfl⟩, rfl⟩

/-- A block that was taken in ends the tape: its token, its bytes and one byte of CRC. -/
theorem puts_rcvrDatablock (fuel btr : Nat) :
    Puts (rcvrDatablock fuel btr) l fun block xs l' => l' = l ∧ ∀ bytes, block = some bytes →
      bytes.length = btr ∧ ∃ ys crc, xs = fillers l (ys ++ 0xFE :: (bytes ++ [crc])) := by
  unfold rcvrDatablock
  apply puts_bind (puts_begin 200)
  rintro timeout _ _ ⟨rfl, rfl⟩
  apply puts_bind (puts_waitToken timeout fuel)
  rintro token _ _ ⟨⟨ys, rfl⟩, rfl⟩
  apply puts_ite
  · rintro rfl
    apply puts_bind (puts_rcvrSpiMulti btr)
    rintro bytes _ _ ⟨rfl, len, rfl⟩
    apply puts_bind (puts_filler (Q := fun y xs l' => xs = fillers _ [y] ∧ l' = _)
      fun y => ⟨rfl, rfl⟩)
    rintro crc _ _ ⟨rfl, rfl⟩
    apply puts_pure
    refine ⟨rfl, ?_⟩
    intro stored same
    cases same
    refine ⟨len, ys, crc, ?_⟩
    simp [fillers]
  · intro other
    exact puts_pure ⟨rfl, nofun⟩

end FatFsParticle.Sdspi
