import FatFsParticle.Sdspi.Machine

/-!
# What the bus functions leave alone

Every function below `initialize`, `read`, `write` and `ioctl` only exchanges
bytes, moves its CS pin, reads the clock and waits: `Traffic`. The driver's
members and the rate of the peripheral are then the same after it, and all it
adds to the log are bytes at that rate and clock readings.
-/

namespace FatFsParticle.Sdspi
open Interact Program

variable {σ α : Type} {b : Board σ} {m m' : Machine σ}

/-! ## Footprints -/

/-- Programs built from byte transfers, moves of the CS pin, clock readings and waits. -/
inductive Traffic : {α : Type} → Prog α → Prop
  | pure {α : Type} (a : α) : Traffic (pure a)
  | stuck {α : Type} : Traffic (.stuck : Prog α)
  | bind {α β : Type} {p : Prog α} {f : α → Prog β} (hp : Traffic p) (hf : ∀ a, Traffic (f a)) :
      Traffic (p >>= f)
  | load : Traffic load
  | xmitSpi (x : BYTE) : Traffic (xmitSpi x)
  | assertCS : Traffic assertCS
  | deassertCS : Traffic deassertCS
  | millis : Traffic millis
  | delay (ms : DWORD) : Traffic (delay ms)

attribute [simp] Traffic.pure Traffic.stuck Traffic.load Traffic.xmitSpi Traffic.assertCS
  Traffic.deassertCS Traffic.millis Traffic.delay

theorem Traffic.ite {c : Prop} [Decidable c] {p q : Prog α} (hp : Traffic p) (hq : Traffic q) :
    Traffic (if c then p else q) := by
  split
  · exact hp
  · exact hq

theorem deselect_traffic : Traffic deselect :=
  .bind (by simp) fun _ => .bind (by simp) fun _ => by simp

theorem expired_traffic (t : TimeoutChecker) : Traffic t.expired :=
  .bind (by simp) fun _ => by simp

theorem begin_traffic (d : DWORD) : Traffic (TimeoutChecker.begin d) :=
  .bind (by simp) fun _ => by simp

theorem waitReadyLoop_traffic (t : TimeoutChecker) (fuel : Nat) :
    Traffic (waitReadyLoop t fuel) := by
  induction fuel with
  | zero => exact .stuck
  | succ fuel ih =>
    apply Traffic.bind (.xmitSpi _)
    intro d
    apply Traffic.ite (.pure _)
    exact .bind (expired_traffic t) fun late => .ite (.pure _) ih

theorem waitReady_traffic (fuel : Nat) (wt : UINT) : Traffic (waitReady fuel wt) :=
  .bind (begin_traffic wt) fun t => .bind (waitReadyLoop_traffic t fuel) fun _ => by simp

theorem select_traffic (fuel : Nat) : Traffic (select fuel) := by
  apply Traffic.bind .assertCS
  intro _
  apply Traffic.bind (.xmitSpi _)
  intro _
  apply Traffic.bind (waitReady_traffic fuel 100)
  intro ready
  apply Traffic.ite (.pure _)
  exact .bind deselect_traffic fun _ => by simp

theorem receiveResponse_traffic (n : Nat) : Traffic (receiveResponse n) := by
  induction n with
  | zero => simp [receiveResponse]
  | succ n ih => exact .bind (by simp) fun res => .ite ih (by simp)

theorem xmitSpiMulti_traffic (bs : List BYTE) : Traffic (xmitSpiMulti bs) := by
  induction bs with
  | nil => exact .pure _
  | cons x bs ih => exact .bind (by simp) fun _ => ih

theorem rcvrSpiMulti_traffic (n : Nat) : Traffic (rcvrSpiMulti n) := by
  induction n with
  | zero => exact .pure _
  | succ n ih => exact .bind (by simp) fun _ => .bind ih fun _ => by simp

theorem sendPacket_traffic (fuel : Nat) (cmd : BYTE) (arg : DWORD) :
    Traffic (sendPacket fuel cmd arg) := by
  apply Traffic.bind (.ite (.bind deselect_traffic fun _ => select_traffic fuel) (.pure _))
  intro selected
  apply Traffic.ite
  · iterate 6
      apply Traffic.bind (.xmitSpi _)
      intro _
    exact .ite (.bind (by simp) fun _ => receiveResponse_traffic 9) (receiveResponse_traffic 9)
  · simp

theorem sendCmd_traffic (fuel : Nat) (cmd : BYTE) (arg : DWORD) :
    Traffic (sendCmd fuel cmd arg) := by
  apply Traffic.bind (waitReady_traffic fuel 10)
  intro _
  apply Traffic.ite
  · apply Traffic.bind (waitReady_traffic fuel 10)
    intro _
    apply Traffic.bind (sendPacket_traffic fuel _ _)
    intro res
    exact .ite (by simp) (sendPacket_traffic fuel _ arg)
  · exact sendPacket_traffic fuel cmd arg

theorem xmitDatablock_traffic (fuel : Nat) (buff : List BYTE) (token : BYTE) :
    Traffic (xmitDatablock fuel buff token) := by
  apply Traffic.bind (waitReady_traffic fuel 100)
  intro ready
  apply Traffic.ite
  · apply Traffic.bind (.xmitSpi _)
    intro _
    apply Traffic.ite
    · apply Traffic.bind (xmitSpiMulti_traffic _)
      intro _
      iterate 3
        apply Traffic.bind (.xmitSpi _)
        intro _
      simp
    · simp
  · simp

theorem waitToken_traffic (t : TimeoutChecker) (fuel : Nat) : Traffic (waitToken t fuel) := by
  induction fuel with
  | zero => exact .stuck
  | succ fuel ih =>
    apply Traffic.bind (.xmitSpi _)
    intro token
    apply Traffic.ite
    · exact .bind (expired_traffic t) fun late => .ite (by simp) ih
    · simp

theorem rcvrDatablock_traffic (fuel btr : Nat) : Traffic (rcvrDatablock fuel btr) := by
  apply Traffic.bind (begin_traffic 200)
  intro t
  apply Traffic.bind (waitToken_traffic t fuel)
  intro token
  apply Traffic.ite
  · exact .bind (rcvrSpiMulti_traffic btr) fun _ => .bind (by simp) fun _ => by simp
  · simp

theorem goIdle_traffic (fuel n : Nat) : Traffic (goIdle fuel n) := by
  induction n with
  | zero => exact .pure _
  | succ n ih => exact .bind (by simp) fun _ => .bind (sendCmd_traffic fuel _ _) fun _ => ih

theorem pollUntilZero_traffic (fuel : Nat) (t : TimeoutChecker) (cmd : BYTE) (arg : DWORD)
    (turns : Nat) : Traffic (pollUntilZero fuel t cmd arg turns) := by
  induction turns with
  | zero => exact .stuck
  | succ turns ih =>
    apply Traffic.bind (expired_traffic t)
    intro late
    apply Traffic.ite (.pure _)
    exact .bind (sendCmd_traffic fuel cmd arg) fun res => .ite (by simp) ih

theorem identifySdv2_traffic (fuel : Nat) (t : TimeoutChecker) :
    Traffic (identifySdv2 fuel t) := by
  iterate 4
    apply Traffic.bind (.xmitSpi _)
    intro _
  apply Traffic.ite
  · apply Traffic.bind (pollUntilZero_traffic fuel t _ _ fuel)
    intro _
    apply Traffic.bind (expired_traffic t)
    intro late
    apply Traffic.bind
    · apply Traffic.ite (.pure _)
      exact .bind (sendCmd_traffic fuel _ _) fun _ => by simp
    intro ready
    apply Traffic.ite
    · iterate 4
        apply Traffic.bind (.xmitSpi _)
        intro _
      simp
    · exact .bind (expired_traffic t) fun _ => by simp
  · simp

theorem identifySdv1_traffic (fuel : Nat) (t : TimeoutChecker) :
    Traffic (identifySdv1 fuel t) := by
  apply Traffic.bind (sendCmd_traffic fuel _ _)
  intro res
  apply Traffic.bind (pollUntilZero_traffic fuel t _ _ fuel)
  intro _
  apply Traffic.bind (expired_traffic t)
  intro late
  apply Traffic.bind
  · apply Traffic.ite (.pure _)
    exact .bind (sendCmd_traffic fuel _ _) fun _ => by simp
  · simp

theorem identify_traffic (fuel : Nat) (t : TimeoutChecker) : Traffic (identify fuel t) := by
  apply Traffic.bind (sendCmd_traffic fuel _ _)
  intro res
  apply Traffic.ite
  · apply Traffic.bind (begin_traffic _)
    intro t'
    apply Traffic.bind (sendCmd_traffic fuel _ _)
    intro res
    apply Traffic.bind (.ite (identifySdv2_traffic fuel t') (identifySdv1_traffic fuel t'))
    intro ty
    exact .bind (expired_traffic t') fun _ => by simp
  · exact .bind (expired_traffic t) fun _ => by simp

theorem handshake_traffic (fuel : Nat) : Traffic (handshake fuel) :=
  .bind (rcvrSpiMulti_traffic 10) fun _ => .bind (begin_traffic 1000) fun t =>
    .bind (goIdle_traffic fuel 200) fun _ => identify_traffic fuel t

theorem writeBlocks_traffic (fuel turns : Nat) (count : UINT) (buff : List BYTE) :
    Traffic (writeBlocks fuel turns count buff) := by
  induction turns generalizing count buff with
  | zero => exact .stuck
  | succ turns ih =>
    apply Traffic.bind (xmitDatablock_traffic fuel buff _)
    intro ok
    apply Traffic.ite (.pure _)
    exact .ite (by simp) (ih _ _)

theorem writeSingle_traffic (fuel : Nat) (buff : List BYTE) (addr : DWORD) (count : UINT) :
    Traffic (writeSingle fuel buff addr count) := by
  apply Traffic.bind (sendCmd_traffic fuel _ _)
  intro res
  apply Traffic.ite
  · exact .bind (xmitDatablock_traffic fuel buff _) fun _ => by simp
  · simp

theorem writeMultiple_traffic (fuel : Nat) (buff : List BYTE) (addr : DWORD) (count : UINT) :
    Traffic (writeMultiple fuel buff addr count) := by
  apply Traffic.bind .load
  intro d
  apply Traffic.bind
  · apply Traffic.ite
    · exact .bind (sendCmd_traffic fuel _ _) fun _ => by simp
    · simp
  intro _
  apply Traffic.bind (sendCmd_traffic fuel _ _)
  intro res
  apply Traffic.ite
  · apply Traffic.bind (writeBlocks_traffic fuel fuel count buff)
    intro left
    exact .bind (xmitDatablock_traffic fuel _ _) fun _ => by simp
  · simp

theorem readCsd_traffic (fuel : Nat) : Traffic (readCsd fuel) :=
  .bind (sendCmd_traffic fuel _ _) fun _ => .ite (rcvrDatablock_traffic fuel 16) (by simp)

theorem readSdStatus_traffic (fuel : Nat) : Traffic (readSdStatus fuel) := by
  apply Traffic.bind (sendCmd_traffic fuel _ _)
  intro res
  apply Traffic.ite
  · apply Traffic.bind (.xmitSpi _)
    intro _
    apply Traffic.bind (rcvrDatablock_traffic fuel 16)
    intro block
    cases block with
    | some csd => exact .bind (rcvrSpiMulti_traffic _) fun _ => by simp
    | none => simp
  · simp

theorem sendCmds_traffic (fuel : Nat) (cs : List (BYTE × DWORD)) : Traffic (sendCmds fuel cs) := by
  induction cs with
  | nil => exact .pure _
  | cons c cs ih => exact .bind (sendCmd_traffic fuel _ _) fun _ => .ite ih (by simp)

theorem ioctlSectorCount_traffic (fuel : Nat) : Traffic (ioctlSectorCount fuel) := by
  apply Traffic.bind (readCsd_traffic fuel)
  intro csd
  cases csd <;> simp

theorem ioctlBlockSize_traffic (fuel : Nat) : Traffic (ioctlBlockSize fuel) := by
  apply Traffic.bind .load
  intro d
  apply Traffic.ite
  · exact .bind (readSdStatus_traffic fuel) fun _ => by simp
  · apply Traffic.bind (readCsd_traffic fuel)
    intro csd
    apply Traffic.bind .load
    intro d
    cases csd <;> simp

theorem eraseSectors_traffic (fuel : Nat) (csd : List BYTE) (st ed : DWORD) :
    Traffic (eraseSectors fuel csd st ed) := by
  apply Traffic.ite (.pure _)
  apply Traffic.bind .load
  intro d
  apply Traffic.bind (sendCmds_traffic fuel _)
  intro ok
  exact .ite (.bind (waitReady_traffic fuel _) fun _ => by simp) (by simp)

/-! ## Runs of bus functions -/

/-- An event of bus traffic at the rate `hz`. -/
def Event.IsTraffic (hz : DWORD) : Event → Prop
  | .byte _ r _ _ => r = hz
  | .tick _ => True
  | _ => False

/-- `m'` is `m` after bus traffic alone. -/
structure Passed (m m' : Machine σ) : Prop where
  drv : m'.drv = m.drv
  hz : m'.hz = m.hz
  log : ∃ new, m'.log = new ++ m.log ∧ ∀ e ∈ new, e.IsTraffic m.hz

theorem Passed.refl (m : Machine σ) : Passed m m := ⟨rfl, rfl, [], rfl, by simp⟩

theorem Passed.trans {m₁ m₂ m₃ : Machine σ} (h : Passed m₁ m₂) (h' : Passed m₂ m₃) :
    Passed m₁ m₃ := by
  obtain ⟨drv, hz, new, hlog, hnew⟩ := h
  obtain ⟨drv', hz', new', hlog', hnew'⟩ := h'
  refine ⟨drv'.trans drv, hz'.trans hz, new' ++ new, by simp [hlog', hlog], ?_⟩
  intro e he
  rcases List.mem_append.mp he with he | he
  · exact hz ▸ hnew' e he
  · exact hnew e he

theorem exec_passed {p : Prog α} (hp : Traffic p) {a : α} (h : exec b p m = some (a, m')) :
    Passed m m' := by
  induction hp generalizing m m' with
  | pure a =>
    cases h
    exact .refl m
  | stuck => cases h
  | bind _ _ ihp ihf =>
    obtain ⟨x, t, ht, h⟩ := exec_bind_some.1 h
    exact (ihp ht).trans (ihf x h)
  | load =>
    cases h
    exact .refl m
  | xmitSpi | millis =>
    cases h
    exact ⟨rfl, rfl, [_], rfl, by simp [Event.IsTraffic]⟩
  | assertCS | deassertCS | delay =>
    cases h
    exact ⟨rfl, rfl, [], rfl, by simp⟩

/-- The log only ever grows. -/
theorem exec_log {p : Prog α} {a : α} (h : exec b p m = some (a, m')) : m.log <:+ m'.log := by
  apply run_steps (T := fun m m' : Machine σ => m.log <:+ m'.log) _ _ _ h
  · exact fun m => List.suffix_rfl
  · exact fun _ _ _ => List.IsSuffix.trans
  · intro r m
    cases r with
    | spi c => cases c <;> exact List.suffix_rfl
    | transfer | millis | digitalRead | mark => exact List.suffix_cons _ _
    | digitalWrite | delay | load | store | mutexLock | mutexUnlock => exact List.suffix_rfl

/-! ## The ends of the public functions -/

namespace Machine

/-- After `lock()`. -/
def locked (m : Machine σ) : Machine σ :=
  { m with drv := { m.drv with busy := true, busyCheck := true }, hz := m.drv.activeClock }

/-- After `unlock()`. -/
def unlocked (m : Machine σ) : Machine σ := { m with drv := { m.drv with busy := false } }

def marked (k : Mark) (m : Machine σ) : Machine σ := { m with log := .mark k m.drv :: m.log }

/-- The driver's members replaced. -/
def set (f : SdspiDriver → SdspiDriver) (m : Machine σ) : Machine σ := { m with drv := f m.drv }

/-- What `cardPresent()` returns and leaves. -/
def slot (b : Board σ) (m : Machine σ) : Bool × Machine σ :=
  if m.drv.cdEnabled then
    let (level, s) := b.digitalRead m.drv.cd m.env
    (level == m.drv.cdActiveState, { m with log := .pin m.drv.cd level :: m.log, env := s })
  else (true, m)

/-- What `writeProtected()` returns and leaves. -/
def wpSwitch (b : Board σ) (m : Machine σ) : Bool × Machine σ :=
  if m.drv.wpEnabled then
    let (level, s) := b.digitalRead m.drv.wp m.env
    (level == m.drv.wpActiveState, { m with log := .pin m.drv.wp level :: m.log, env := s })
  else (false, m)

end Machine

@[simp] theorem exec_store (f : SdspiDriver → SdspiDriver) :
    exec b (store f) m = some ((), m.set f) := rfl

@[simp] theorem exec_mark (k : Mark) : exec b (mark k) m = some ((), m.marked k) := rfl

theorem exec_acquire : exec b acquire m = some ((), m) := by
  unfold acquire
  rw [exec_bind, exec_load]
  cases hm : m.drv.mutex <;> simp [hm]

theorem exec_release : exec b release m = some ((), m) := by
  unfold release
  rw [exec_bind, exec_load]
  cases hm : m.drv.mutex <;> simp [hm]

@[simp] theorem exec_lock : exec b lock m = some ((), m.locked) := by
  unfold lock
  rw [exec_bind, exec_acquire]
  rfl

@[simp] theorem exec_unlock : exec b unlock m = some ((), m.unlocked) := by
  unfold unlock
  rw [exec_bind, exec_store]
  exact exec_release

theorem exec_lockGuard {p : Prog α} {a : α} :
    exec b (lockGuard p) m = some (a, m') ↔
      ∃ t, exec b p m.locked = some (a, t) ∧ m' = t.unlocked := by
  unfold lockGuard
  simp only [exec_bind, exec_lock, Option.bind_some, exec_unlock, exec_pure]
  cases exec b p m.locked with
  | none => simp
  | some x =>
    obtain ⟨y, t⟩ := x
    simp [eq_comm]

theorem exec_member {f : Member} {p : Prog α} {a : α} :
    exec b (member f p) m = some (a, m') ↔
      ∃ t, exec b p (m.marked (.enter f)) = some (a, t) ∧ m' = t.marked (.leave f) := by
  unfold member
  simp only [exec_bind, exec_mark, Option.bind_some, exec_pure]
  cases exec b p (m.marked (.enter f)) with
  | none => simp
  | some x =>
    obtain ⟨y, t⟩ := x
    simp [eq_comm]

@[simp] theorem exec_cardPresent : exec b cardPresent m = some (m.slot b) := by
  unfold cardPresent Machine.slot
  rw [exec_bind, exec_load]
  cases hd : m.drv.cdEnabled <;> simp [hd, exec_bind, Machine.handle]

@[simp] theorem exec_writeProtected : exec b writeProtected m = some (m.wpSwitch b) := by
  unfold writeProtected Machine.wpSwitch
  rw [exec_bind, exec_load]
  cases hd : m.drv.wpEnabled <;> simp [hd, exec_bind, Machine.handle]

end FatFsParticle.Sdspi
