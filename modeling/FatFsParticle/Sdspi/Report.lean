import FatFsParticle.Sdspi.History

/-!
# The bits STA_NODISK and STA_PROTECT

`initialize()` and `status()` return a status byte; `Agrees` compares it with the
levels the input pins hold. `status()` agrees unless the bit STA_NODISK was already
set and a card is back; `initialize()` agrees only on an empty slot, because it sets
STA_PROTECT where `status()` clears it.
-/

namespace FatFsParticle.Sdspi
open Interact Program

variable {σ : Type} {b : Board σ} {m m' : Machine σ}

/-- The status byte says of the slot and of the write-protect switch what the pins say. -/
def Agrees (d : SdspiDriver) (pins : Pin → Level) (st : DSTATUS) : Prop :=
  (st &&& staNodisk ≠ 0 ↔ d.cardPresentAt pins = false) ∧
  (d.cardPresentAt pins = true → (st &&& staProtect ≠ 0 ↔ d.writeProtectedAt pins = true))

theorem agrees_absent {d : SdspiDriver} {pins : Pin → Level} (h : d.cardPresentAt pins = false) :
    Agrees d pins staNodisk := by
  constructor
  · simp [h]
  · intro present
    rw [h] at present
    cases present

theorem concludedStatus_protect (ty : BYTE) (wp : Bool) (s : DSTATUS) :
    concludedStatus ty wp s &&& staProtect ≠ 0 ↔ wp = false := by
  unfold concludedStatus
  generalize (if ty ≠ 0 then s &&& ~~~staNoinit else staNoinit) = t
  revert t
  cases wp <;> decide

theorem protect_set (wp : Bool) (s : DSTATUS) :
    (if wp then s ||| staProtect else s &&& ~~~staProtect) &&& staProtect ≠ 0 ↔ wp = true := by
  revert s
  cases wp <;> decide

theorem protect_nodisk (wp : Bool) (s : DSTATUS) :
    (if wp then s ||| staProtect else s &&& ~~~staProtect) &&& staNodisk = s &&& staNodisk := by
  revert s
  cases wp <;> decide

/-- With a card in the slot STA_PROTECT comes out of `initialize()` the wrong way round. -/
theorem initializeCard_protect {pins : Pin → Level} (stable : Stable b pins) {fuel : Nat}
    {st : DSTATUS} (h : exec b (initializeCard fuel) m = some (st, m'))
    (here : m.drv.cardPresentAt pins = true) :
    st &&& staProtect ≠ 0 ↔ m.drv.writeProtectedAt pins = false := by
  have slot := slot_stable stable m.entered
  cases initializeCard_outcome h with
  | empty level absent status enabled read drv log =>
    rw [absent] at slot
    exact absurd (slot.trans here) Bool.false_ne_true
  | concluded ty w new traffic cd y present status drv wpEnabled wp wpActiveState =>
    have switch : (w.wpSwitch b).1 = m.drv.writeProtectedAt pins := by
      rw [wpSwitch_stable stable]
      simp [SdspiDriver.writeProtectedAt, wpEnabled, wp, wpActiveState]
    rw [status, drv, concludedStatus_protect, switch]

theorem initializeCard_agrees {pins : Pin → Level} (stable : Stable b pins) {fuel : Nat}
    {st : DSTATUS} (h : exec b (initializeCard fuel) m = some (st, m')) :
    Agrees m.drv pins st ↔ m.drv.cardPresentAt pins = false := by
  cases here : m.drv.cardPresentAt pins with
  | false =>
    have slot := slot_stable stable m.entered
    cases initializeCard_outcome h with
    | empty level absent status enabled read drv log =>
      rw [status]
      exact ⟨fun _ => rfl, fun _ => agrees_absent here⟩
    | concluded ty w new traffic cd y present =>
      rw [present] at slot
      exact absurd (slot.trans here).symm Bool.false_ne_true
  | true =>
    have wrong := initializeCard_protect stable h here
    constructor
    · intro agrees
      have bit := (agrees.2 here).symm.trans wrong
      cases switch : m.drv.writeProtectedAt pins <;> simp [switch] at bit
    · nofun

/-- With a card in the slot `status()` has STA_PROTECT right, and leaves STA_NODISK. -/
theorem status_bits {pins : Pin → Level} (stable : Stable b pins) {st : DSTATUS}
    (h : exec b status m = some (st, m')) (here : m.drv.cardPresentAt pins = true) :
    (st &&& staProtect ≠ 0 ↔ m.drv.writeProtectedAt pins = true) ∧
    st &&& staNodisk = m.drv.status &&& staNodisk := by
  have slot := slot_stable stable (m.marked (.enter .status))
  cases status_outcome h with
  | empty level absent status enabled read drv log =>
    rw [absent] at slot
    exact absurd (slot.trans here) Bool.false_ne_true
  | present w new cd present status drv same log =>
    have switch : (w.wpSwitch b).1 = m.drv.writeProtectedAt pins := by
      rw [wpSwitch_stable stable, same]
    rw [status, drv, ← switch]
    exact ⟨protect_set _ _, protect_nodisk _ _⟩

theorem status_agrees {pins : Pin → Level} (stable : Stable b pins) {st : DSTATUS}
    (h : exec b status m = some (st, m')) :
    Agrees m.drv pins st ↔ m.drv.cardPresentAt pins = false ∨ m.drv.status &&& staNodisk = 0 := by
  cases here : m.drv.cardPresentAt pins with
  | false =>
    have slot := slot_stable stable (m.marked (.enter .status))
    cases status_outcome h with
    | empty level absent status enabled read drv log =>
      rw [status]
      exact ⟨fun _ => .inl rfl, fun _ => agrees_absent here⟩
    | present w new cd present =>
      rw [present] at slot
      exact absurd (slot.trans here).symm Bool.false_ne_true
  | true =>
    obtain ⟨protect, nodisk⟩ := status_bits stable h here
    unfold Agrees
    rw [nodisk, here]
    simp only [protect, implies_true, and_true, Bool.true_eq_false, iff_false, not_not, false_or]

end FatFsParticle.Sdspi
