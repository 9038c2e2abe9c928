import FatFsParticle.Sdspi.Frame

/-!
# What `initialize()` and `status()` do to the driver

`initialize()` either finds the slot empty and returns at once, or hands the
card type of the handshake to `conclude`. `initializeCard_cases` splits a run
that way; the lemmas after it say what each part leaves in the members and in
the log.
-/

namespace FatFsParticle.Sdspi
open Interact Program

variable {σ α : Type} {b : Board σ} {m m' : Machine σ}

/-- Clock readings, pin readings and bytes at the rate `hz`: all but marks. -/
def Event.IsInner (hz : DWORD) : Event → Prop
  | .byte _ r _ _ => r = hz
  | .mark _ _ => False
  | _ => True

theorem Event.IsTraffic.inner {hz : DWORD} {e : Event} (h : e.IsTraffic hz) : e.IsInner hz := by
  cases e <;> simp_all [IsTraffic, IsInner]

/-- The status byte `conclude` leaves, for a card type and a write-protect reading. -/
def concludedStatus (ty : BYTE) (wp : Bool) (s : DSTATUS) : DSTATUS :=
  let s := if ty ≠ 0 then s &&& ~~~staNoinit else staNoinit
  if !wp then s ||| staProtect else s &&& ~~~staProtect

theorem concludedStatus_noinit (ty : BYTE) (wp : Bool) (s : DSTATUS) :
    concludedStatus ty wp s &&& staNoinit = 0 ↔ ty ≠ 0 := by
  unfold concludedStatus
  by_cases hty : ty = 0
  · subst hty
    simp only [ne_eq, not_true_eq_false, ↓reduceIte, iff_false]
    cases wp <;> decide
  · simp only [ne_eq, hty, not_false_eq_true, ↓reduceIte, iff_true]
    revert s
    cases wp <;> decide

namespace Machine

@[simp] theorem marked_drv (k : Mark) (m : Machine σ) : (m.marked k).drv = m.drv := rfl
@[simp] theorem marked_log (k : Mark) (m : Machine σ) :
    (m.marked k).log = .mark k m.drv :: m.log := rfl
@[simp] theorem unlocked_log (m : Machine σ) : m.unlocked.log = m.log := rfl
@[simp] theorem locked_log (m : Machine σ) : m.locked.log = m.log := rfl
@[simp] theorem set_log (f : SdspiDriver → SdspiDriver) (m : Machine σ) : (m.set f).log = m.log := rfl
@[simp] theorem set_drv (f : SdspiDriver → SdspiDriver) (m : Machine σ) :
    (m.set f).drv = f m.drv := rfl
@[simp] theorem set_hz (f : SdspiDriver → SdspiDriver) (m : Machine σ) : (m.set f).hz = m.hz := rfl

@[simp] theorem locked_drv (m : Machine σ) :
    m.locked.drv = { m.drv with busy := true, busyCheck := true } := rfl

@[simp] theorem unlocked_drv (m : Machine σ) : m.unlocked.drv = { m.drv with busy := false } := rfl

@[simp] theorem slot_drv (b : Board σ) (m : Machine σ) : (m.slot b).2.drv = m.drv := by
  unfold slot; split <;> rfl

@[simp] theorem slot_hz (b : Board σ) (m : Machine σ) : (m.slot b).2.hz = m.hz := by
  unfold slot; split <;> rfl

@[simp] theorem wpSwitch_drv (b : Board σ) (m : Machine σ) : (m.wpSwitch b).2.drv = m.drv := by
  unfold wpSwitch; split <;> rfl

/-- A card-detect pin is read exactly when card detect is enabled. -/
theorem slot_log (b : Board σ) (m : Machine σ) :
    (m.drv.cdEnabled = false ∧ m.slot b = (true, m)) ∨
    (m.drv.cdEnabled = true ∧ ∃ level, (m.slot b).1 = (level == m.drv.cdActiveState) ∧
      (m.slot b).2.log = .pin m.drv.cd level :: m.log) := by
  unfold slot
  cases hd : m.drv.cdEnabled with
  | false => exact .inl ⟨rfl, rfl⟩
  | true => exact .inr ⟨rfl, _, rfl, rfl⟩

theorem wpSwitch_log (b : Board σ) (m : Machine σ) :
    ∃ new, (m.wpSwitch b).2.log = new ++ m.log ∧ ∀ e ∈ new, e.IsInner m.hz := by
  unfold wpSwitch
  cases m.drv.wpEnabled with
  | false => exact ⟨[], rfl, by simp⟩
  | true => exact ⟨[_], rfl, by simp [Event.IsInner]⟩

end Machine

/-- The machine at the presence check of `initialize()`. -/
def Machine.entered (m : Machine σ) : Machine σ :=
  (m.marked (.enter .initializeCard)).locked.set fun d => { d with activeClock := d.lowSpeedClock }

@[simp] theorem entered_drv (m : Machine σ) : m.entered.drv =
    { m.drv with busy := true, busyCheck := true, activeClock := m.drv.lowSpeedClock } := rfl

@[simp] theorem entered_hz (m : Machine σ) : m.entered.hz = m.drv.activeClock := rfl

@[simp] theorem entered_log (m : Machine σ) :
    m.entered.log = .mark (.enter .initializeCard) m.drv :: m.log := rfl

/-- A run of `initialize()` found the slot empty, or it did the handshake and
concluded with the card type that gave. -/
theorem initializeCard_cases {fuel : Nat} {st : DSTATUS}
    (h : exec b (initializeCard fuel) m = some (st, m')) :
    ((m.entered.slot b).1 = false ∧ st = staNodisk ∧
      m' = (m.entered.slot b).2.unlocked.marked (.leave .initializeCard)) ∨
    ((m.entered.slot b).1 = true ∧ ∃ ty m₁ m₂,
      exec b (handshake fuel) (m.entered.slot b).2 = some (ty, m₁) ∧
      exec b (conclude ty) m₁ = some (st, m₂) ∧
      m' = m₂.unlocked.marked (.leave .initializeCard)) := by
  obtain ⟨t, ht, rfl⟩ := exec_member.1 h
  obtain ⟨u, hu, rfl⟩ := exec_lockGuard.1 ht
  simp only [activateLowSpeed, exec_bind, exec_store, exec_cardPresent, Option.bind_some] at hu
  change exec b (if (!(m.entered.slot b).1) = true then _ else _) (m.entered.slot b).2 = _ at hu
  cases hs : (m.entered.slot b).1 with
  | false =>
    simp only [hs, Bool.not_false, ↓reduceIte, exec_pure, Option.some.injEq, Prod.mk.injEq] at hu
    obtain ⟨rfl, rfl⟩ := hu
    exact .inl ⟨rfl, rfl, rfl⟩
  | true =>
    simp only [hs, Bool.not_true, Bool.false_eq_true, ↓reduceIte] at hu
    obtain ⟨ty, m₁, hh, hc⟩ := exec_bind_some.1 hu
    exact .inr ⟨rfl, ty, m₁, u, hh, hc, rfl⟩

theorem exec_deselect : ∃ t y, exec b deselect m = some ((), t) ∧ t.drv = m.drv ∧ t.hz = m.hz ∧
    t.log = .byte .high m.hz 0xFF y :: m.log := by
  refine ⟨_, (b.transfer .high 0xFF m.env).1, rfl, rfl, rfl, ?_⟩
  simp [Machine.handle, Machine.csLevel, Function.update_self]

/-- `conclude` always ends. Where it reads the write-protect pin the machine is `w`. -/
theorem exec_conclude (ty : BYTE) : ∃ w t : Machine σ,
    exec b (conclude ty) m = some (t.drv.status, t) ∧
    w.drv.wpEnabled = m.drv.wpEnabled ∧ w.drv.wp = m.drv.wp ∧
    w.drv.wpActiveState = m.drv.wpActiveState ∧
    t.drv = { m.drv with
      cardType := ty
      status := concludedStatus ty (w.wpSwitch b).1 m.drv.status
      activeClock := m.drv.highSpeedClock } ∧
    ∃ pins y, t.log = pins ++ .byte .high m.hz 0xFF y :: m.log ∧ ∀ e ∈ pins, e.IsInner m.hz := by
  obtain ⟨d, y, hd, hdrv, hhz, hlog⟩ :=
    exec_deselect (b := b) (m := m.set fun d => { d with cardType := ty })
  let w := d.set fun d =>
    { d with status := if ty ≠ 0 then d.status &&& ~~~staNoinit else staNoinit }
  let v := (w.wpSwitch b).2.set fun d =>
    { d with status := if !(w.wpSwitch b).1 then d.status ||| staProtect
        else d.status &&& ~~~staProtect }
  have initBit : exec b (if ty ≠ 0 then store fun d => { d with status := d.status &&& ~~~staNoinit }
      else store fun d => { d with status := staNoinit }) d = some ((), w) := by
    by_cases hty : ty ≠ 0
    · simp only [w, if_pos hty, exec_store]
    · simp only [w, if_neg hty, exec_store]
  have protectBit : exec b (if !(w.wpSwitch b).1 then
      store fun d => { d with status := d.status ||| staProtect }
      else store fun d => { d with status := d.status &&& ~~~staProtect }) (w.wpSwitch b).2 =
      some ((), v) := by
    by_cases hwp : (!(w.wpSwitch b).1) = true
    · simp only [v, if_pos hwp, exec_store]
    · simp only [v, if_neg hwp, exec_store]
  obtain ⟨pins, hpins, inner⟩ := w.wpSwitch_log b
  refine ⟨w, v.set fun d => { d with activeClock := d.highSpeedClock }, ?_, ?_, ?_, ?_, ?_, ?_⟩
  · simp only [conclude, exec_bind, exec_store, hd, Option.bind_some, initBit,
      exec_writeProtected, protectBit, activateHighSpeed, exec_load, exec_pure]
  · simp [w, hdrv]
  · simp [w, hdrv]
  · simp [w, hdrv]
  · simp [v, w, hdrv, concludedStatus]
  · refine ⟨pins, y, hpins.trans (congrArg _ hlog), fun e he => ?_⟩
    simpa [w, hhz] using inner e he

/-- What a run of `initialize()` from `m` with result `st` leaves. -/
inductive InitOutcome (b : Board σ) (m : Machine σ) (st : DSTATUS) (m' : Machine σ) : Prop
  | empty (level : Level) (absent : (m.entered.slot b).1 = false) (status : st = staNodisk)
      (enabled : m.drv.cdEnabled = true) (read : level ≠ m.drv.cdActiveState)
      (drv : m'.drv = { m.drv with
        busy := false, busyCheck := true, activeClock := m.drv.lowSpeedClock })
      (log : m'.log = .mark (.leave .initializeCard) m'.drv ::
        .pin m.drv.cd level :: .mark (.enter .initializeCard) m.drv :: m.log)
  | concluded (ty : BYTE) (w : Machine σ) (pins traffic cd : List Event) (y : BYTE)
      (present : (m.entered.slot b).1 = true) (status : st = m'.drv.status)
      (drv : m'.drv = { m.drv with
        busy := false, busyCheck := true, cardType := ty
        status := concludedStatus ty (w.wpSwitch b).1 m.drv.status
        activeClock := m.drv.highSpeedClock })
      (wpEnabled : w.drv.wpEnabled = m.drv.wpEnabled) (wp : w.drv.wp = m.drv.wp)
      (wpActiveState : w.drv.wpActiveState = m.drv.wpActiveState)
      (log : m'.log = .mark (.leave .initializeCard) m'.drv ::
        (pins ++ .byte .high m.drv.activeClock 0xFF y :: (traffic ++
          (cd ++ .mark (.enter .initializeCard) m.drv :: m.log))))
      (pins_inner : ∀ e ∈ pins, e.IsInner m.drv.activeClock)
      (is_traffic : ∀ e ∈ traffic, e.IsTraffic m.drv.activeClock)
      (detect : m.drv.cdEnabled = false ∧ cd = [] ∨
        m.drv.cdEnabled = true ∧ cd = [.pin m.drv.cd m.drv.cdActiveState])

theorem initializeCard_outcome {fuel : Nat} {st : DSTATUS}
    (h : exec b (initializeCard fuel) m = some (st, m')) : InitOutcome b m st m' := by
  have detect := m.entered.slot_log b
  rcases initializeCard_cases h with ⟨absent, rfl, rfl⟩ | ⟨present, ty, m₁, m₂, hh, hc, rfl⟩
  · rcases detect with ⟨-, hs⟩ | ⟨enabled, level, hl, hlog⟩
    · rw [hs] at absent
      cases absent
    · refine .empty level absent rfl enabled ?_ ?_ ?_
      · rw [absent] at hl
        simpa using hl.symm
      · simp
      · simp [hlog]
  · obtain ⟨w, t, run, e, p, a, drv, pins, y, hlog, inner⟩ := exec_conclude (b := b) (m := m₁) ty
    rw [run] at hc
    obtain ⟨rfl, rfl⟩ := by simpa using hc
    obtain ⟨hdrv, hhz, traffic, htraffic, is_traffic⟩ := exec_passed (handshake_traffic fuel) hh
    have hz : m₁.hz = m.drv.activeClock := by simp [hhz]
    have hin : ((m.entered.slot b).2.hz) = m.drv.activeClock := by simp
    have hdrv' : m₁.drv = m.entered.drv := by simp [hdrv]
    obtain ⟨cd, hcd, shape⟩ : ∃ cd, (m.entered.slot b).2.log =
        cd ++ .mark (.enter .initializeCard) m.drv :: m.log ∧
        (m.drv.cdEnabled = false ∧ cd = [] ∨
          m.drv.cdEnabled = true ∧ cd = [.pin m.drv.cd m.drv.cdActiveState]) := by
      rcases detect with ⟨disabled, hs⟩ | ⟨enabled, level, hl, hlog⟩
      · exact ⟨[], by rw [hs]; rfl, .inl ⟨disabled, rfl⟩⟩
      · rw [present] at hl
        have hlevel : level = m.drv.cdActiveState := by simpa using hl.symm
        exact ⟨[_], hlog, .inr ⟨enabled, by rw [hlevel]; rfl⟩⟩
    refine .concluded ty w pins traffic cd y present rfl ?_ ?_ ?_ ?_ ?_ ?_ ?_ shape
    · simp [drv, hdrv']
    · simp [e, hdrv']
    · simp [p, hdrv']
    · simp [a, hdrv']
    · simp [hlog, htraffic, hcd, hz]
    · simpa [hz] using inner
    · simpa [hin] using is_traffic

/-- What a run of `status()` from `m` with result `st` leaves. -/
inductive StatusOutcome (b : Board σ) (m : Machine σ) (st : DSTATUS) (m' : Machine σ) : Prop
  | empty (level : Level) (absent : ((m.marked (.enter .status)).slot b).1 = false)
      (status : st = staNodisk) (enabled : m.drv.cdEnabled = true)
      (read : level ≠ m.drv.cdActiveState)
      (drv : m'.drv = { m.drv with status := staNodisk })
      (log : m'.log = .mark (.leave .status) m'.drv ::
        .pin m.drv.cd level :: .mark (.enter .status) m.drv :: m.log)
  | present (w : Machine σ) (pins cd : List Event)
      (present : ((m.marked (.enter .status)).slot b).1 = true) (status : st = m'.drv.status)
      (drv : m'.drv = { m.drv with
        status := if (w.wpSwitch b).1 then m.drv.status ||| staProtect
          else m.drv.status &&& ~~~staProtect })
      (same : w.drv = m.drv)
      (log : m'.log = .mark (.leave .status) m'.drv ::
        (pins ++ (cd ++ .mark (.enter .status) m.drv :: m.log)))
      (shape : m.drv.wpEnabled = false ∧ pins = [] ∨
        m.drv.wpEnabled = true ∧ ∃ level, pins = [.pin m.drv.wp level])
      (detect : m.drv.cdEnabled = false ∧ cd = [] ∨
        m.drv.cdEnabled = true ∧ cd = [.pin m.drv.cd m.drv.cdActiveState])

theorem status_outcome {st : DSTATUS} (h : exec b status m = some (st, m')) :
    StatusOutcome b m st m' := by
  obtain ⟨t, ht, rfl⟩ := exec_member.1 h
  let e := m.marked (.enter .status)
  have detect := e.slot_log b
  simp only [exec_bind, exec_cardPresent, Option.bind_some] at ht
  change (exec b (if (!(e.slot b).1) = true then _ else _) (e.slot b).2).bind _ = _ at ht
  cases hs : (e.slot b).1 with
  | false =>
    simp only [hs, Bool.not_false, ↓reduceIte, exec_store, Option.bind_some, exec_load, exec_pure,
      Option.some.injEq, Prod.mk.injEq] at ht
    obtain ⟨rfl, rfl⟩ := ht
    rcases detect with ⟨-, hd⟩ | ⟨enabled, level, hl, hlog⟩
    · rw [hd] at hs
      cases hs
    · rw [hs] at hl
      refine .empty level hs rfl enabled (by simpa [e] using hl.symm) ?_ ?_
      · simp [e]
      · simp [hlog, e]
  | true =>
    obtain ⟨w, hsw⟩ : ∃ w, (e.slot b).2 = w := ⟨_, rfl⟩
    have bits : exec b (if (w.wpSwitch b).1 = true then
        store fun d => { d with status := d.status ||| staProtect }
        else store fun d => { d with status := d.status &&& ~~~staProtect }) (w.wpSwitch b).2 =
        some ((), (w.wpSwitch b).2.set fun d => { d with
          status := if (w.wpSwitch b).1 then d.status ||| staProtect
            else d.status &&& ~~~staProtect }) := by
      by_cases hwp : (w.wpSwitch b).1 = true
      · simp only [if_pos hwp, exec_store]
      · simp only [if_neg hwp, exec_store]
    simp only [hs, hsw, Bool.not_true, Bool.false_eq_true, ↓reduceIte, exec_bind,
      exec_writeProtected, Option.bind_some, bits, exec_load, exec_pure, Option.some.injEq, Prod.mk.injEq] at ht
    obtain ⟨rfl, rfl⟩ := ht
    obtain ⟨cd, hcd, shape⟩ : ∃ cd, w.log = cd ++ .mark (.enter .status) m.drv :: m.log ∧
        (m.drv.cdEnabled = false ∧ cd = [] ∨
          m.drv.cdEnabled = true ∧ cd = [.pin m.drv.cd m.drv.cdActiveState]) := by
      rcases detect with ⟨disabled, hd⟩ | ⟨enabled, level, hl, hlog⟩
      · exact ⟨[], by simp [← hsw, hd, e], .inl ⟨disabled, rfl⟩⟩
      · rw [hs] at hl
        have hlevel : level = m.drv.cdActiveState := by simpa [e] using hl.symm
        exact ⟨[_], hsw ▸ hlog, .inr ⟨enabled, by rw [hlevel]; rfl⟩⟩
    have hw : w.drv = m.drv := by simp [← hsw, e]
    obtain ⟨pins, hpins, wpShape⟩ : ∃ pins, (w.wpSwitch b).2.log = pins ++ w.log ∧
        (m.drv.wpEnabled = false ∧ pins = [] ∨
          m.drv.wpEnabled = true ∧ ∃ level, pins = [.pin m.drv.wp level]) := by
      unfold Machine.wpSwitch
      rw [hw]
      cases m.drv.wpEnabled with
      | false => exact ⟨[], rfl, .inl ⟨rfl, rfl⟩⟩
      | true => exact ⟨[_], rfl, .inr ⟨rfl, _, rfl⟩⟩
    refine .present w pins cd hs rfl ?_ hw ?_ wpShape shape
    · simp [hw]
    · simp [hpins, hcd]

/-! ## Levels that hold still -/

/-- The input pins do not change: what `digitalRead` answers is `pins`. -/
def Stable (b : Board σ) (pins : Pin → Level) : Prop := ∀ p s, (b.digitalRead p s).1 = pins p

/-- The board `b` with its input pins tied to `pins`. -/
def Board.tied (b : Board σ) (pins : Pin → Level) : Board σ :=
  { b with digitalRead := fun p s => (pins p, s) }

theorem tied_stable (b : Board σ) (pins : Pin → Level) : Stable (b.tied pins) pins :=
  fun _ _ => rfl

/-- `cardPresent()` with the input pins at `pins`. -/
def SdspiDriver.cardPresentAt (d : SdspiDriver) (pins : Pin → Level) : Bool :=
  !d.cdEnabled || pins d.cd == d.cdActiveState

/-- `writeProtected()` with the input pins at `pins`. -/
def SdspiDriver.writeProtectedAt (d : SdspiDriver) (pins : Pin → Level) : Bool :=
  d.wpEnabled && pins d.wp == d.wpActiveState

theorem slot_stable {pins : Pin → Level} (h : Stable b pins) (m : Machine σ) :
    (m.slot b).1 = m.drv.cardPresentAt pins := by
  unfold Machine.slot SdspiDriver.cardPresentAt
  cases hd : m.drv.cdEnabled <;> simp [h m.drv.cd m.env]

theorem wpSwitch_stable {pins : Pin → Level} (h : Stable b pins) (m : Machine σ) :
    (m.wpSwitch b).1 = m.drv.writeProtectedAt pins := by
  unfold Machine.wpSwitch SdspiDriver.writeProtectedAt
  cases hd : m.drv.wpEnabled <;> simp [h m.drv.wp m.env]

/-! ## A card that never answers -/

/-- A card in the slot that never pulls the line low, and no time passing. -/
def mute : Board σ where
  transfer _ _ s := (0xFF, s)
  millis s := (0, s)
  delay _ s := s
  digitalRead _ s := (.high, s)

theorem mute_receiveResponse (n : Nat) (m : Machine σ) :
    ∃ t, exec mute (receiveResponse n) m = some (0xFF, t) := by
  induction n generalizing m with
  | zero => exact ⟨_, rfl⟩
  | succ n ih =>
    obtain ⟨t, ht⟩ := ih (Machine.handle mute (.transfer 0xFF) m).2
    refine ⟨t, ?_⟩
    rw [receiveResponse, exec_bind, exec_xmitSpi, Option.bind_some]
    change exec mute (if (0xFF : BYTE) &&& 0x80 ≠ 0 then _ else _) _ = _
    rw [if_pos (by decide), ht]

theorem mute_sendCmd0 (m : Machine σ) : ∃ t, exec mute (sendCmd 1 cmd0 0) m = some (0xFF, t) := by
  obtain ⟨u, hu⟩ : ∃ u, exec mute (waitReady 1 10) m = some (true, u) := ⟨_, rfl⟩
  obtain ⟨v, y, hv, -⟩ := exec_deselect (b := mute) (m := u)
  obtain ⟨w, hw⟩ : ∃ w, exec mute (select 1) v = some (true, w) := ⟨_, rfl⟩
  obtain ⟨t, ht⟩ : ∃ t, exec mute (do
      let _ ← xmitSpi (0x40 ||| cmd0)
      let _ ← xmitSpi (((0 : DWORD) >>> 24).setWidth 8)
      let _ ← xmitSpi (((0 : DWORD) >>> 16).setWidth 8)
      let _ ← xmitSpi (((0 : DWORD) >>> 8).setWidth 8)
      let _ ← xmitSpi ((0 : DWORD).setWidth 8)
      let _ ← xmitSpi (crcByte cmd0)
      receiveResponse 9) w = some (0xFF, t) := by
    simp only [exec_bind, exec_xmitSpi, Option.bind_some]
    exact mute_receiveResponse 9 _
  refine ⟨t, ?_⟩
  rw [sendCmd, exec_bind, hu, Option.bind_some, if_neg (by decide), sendPacket, exec_bind,
    if_pos (by decide), exec_bind, hv, Option.bind_some, hw, Option.bind_some, if_pos rfl]
  exact ht

theorem mute_goIdle (n : Nat) (m : Machine σ) : ∃ t, exec mute (goIdle 1 n) m = some ((), t) := by
  induction n generalizing m with
  | zero => exact ⟨m, rfl⟩
  | succ n ih =>
    obtain ⟨t, ht⟩ := mute_sendCmd0 (Machine.handle mute (.delay 1) m).2
    obtain ⟨u, hu⟩ := ih t
    refine ⟨u, ?_⟩
    rw [goIdle, exec_bind]
    change (exec mute _ (Machine.handle mute (.delay 1) m).2) = _
    rw [exec_bind, ht]
    exact hu

theorem mute_handshake (m : Machine σ) : ∃ t, exec mute (handshake 1) m = some (0, t) := by
  obtain ⟨t, ht⟩ : ∃ t, exec mute (rcvrSpiMulti 10) m = some (List.replicate 10 0xFF, t) := ⟨_, rfl⟩
  obtain ⟨u, hu⟩ : ∃ u, exec mute (TimeoutChecker.begin 1000) t = some (⟨0, 1000, 1000⟩, u) :=
    ⟨_, rfl⟩
  obtain ⟨v, hv⟩ := mute_goIdle 200 u
  obtain ⟨w, hw⟩ := mute_sendCmd0 v
  refine ⟨(Machine.handle mute .millis w).2, ?_⟩
  simp only [handshake, identify, exec_bind, ht, hu, hv, hw, Option.bind_some]
  rfl

theorem mute_initializeCard (m : Machine σ) : ∃ st t,
    exec mute (initializeCard 1) m = some (st, t) := by
  obtain ⟨st, u, hu⟩ : ∃ st u, exec mute (if (!(m.entered.slot mute).1) = true then pure staNodisk
      else handshake 1 >>= conclude) (m.entered.slot mute).2 = some (st, u) := by
    split
    · exact ⟨_, _, rfl⟩
    · obtain ⟨t, ht⟩ := mute_handshake (m.entered.slot mute).2
      obtain ⟨w, u, hu, -⟩ := exec_conclude (b := mute) (m := t) 0
      exact ⟨_, u, by rw [exec_bind, ht, Option.bind_some, hu]⟩
  refine ⟨st, _, exec_member.2 ⟨_, exec_lockGuard.2 ⟨u, ?_, rfl⟩, rfl⟩⟩
  simp only [activateLowSpeed, exec_bind, exec_store, exec_cardPresent, Option.bind_some]
  exact hu

end FatFsParticle.Sdspi
