import FatFsParticle.Sdspi.Driver

/-!
# Programs that send nothing but filler and commands

All of the driver but its two write paths is built from bytes 0xFF, commands that ask
for no data from the host, and requests that exchange no byte.
-/

namespace FatFsParticle.Sdspi
open Interact

variable {α β : Type}

/-- The first byte of a frame. -/
theorem start_byte {cmd : BYTE} (h : cmd &&& 0xC0 = 0) :
    (0x40 ||| cmd) &&& 0xC0 = 0x40 ∧ (0x40 ||| cmd) &&& 0x3F = cmd := by
  revert cmd
  decide

/-- Requests that exchange no byte. -/
def Request.Silent : Request → Prop
  | transfer _ => False
  | _ => True

inductive Polite : {α : Type} → Prog α → Prop
  | pure {α : Type} (a : α) : Polite (pure a)
  | stuck {α : Type} : Polite (.stuck : Prog α)
  | bind {α β : Type} {p : Prog α} {f : α → Prog β} (hp : Polite p) (hf : ∀ a, Polite (f a)) :
      Polite (p >>= f)
  | filler : Polite (xmitSpi 0xFF)
  | silent {r : Request} (h : r.Silent) : Polite (ask r)
  | command (fuel : Nat) {cmd : BYTE} (arg : DWORD) (valid : cmd &&& 0x40 = 0)
      (plain : cmd &&& 0x7F ≠ cmd12 ∧ cmd &&& 0x7F ≠ cmd24 ∧ cmd &&& 0x7F ≠ cmd25) :
      Polite (sendCmd fuel cmd arg)

theorem Polite.ite {c : Prop} [Decidable c] {p q : Prog α} (hp : Polite p) (hq : Polite q) :
    Polite (if c then p else q) := by
  split
  · exact hp
  · exact hq

theorem load_polite : Polite load := .silent trivial

theorem store_polite (f : SdspiDriver → SdspiDriver) : Polite (store f) := .silent trivial

theorem spi_polite (c : SpiCall) : Polite (spi c) := .silent trivial

theorem assertCS_polite : Polite assertCS := .bind load_polite fun _ => .silent trivial

theorem deselect_polite : Polite deselect :=
  .bind (.bind load_polite fun _ => .silent trivial) fun _ => .bind .filler fun _ => .pure _

theorem expired_polite (t : TimeoutChecker) : Polite t.expired :=
  .bind (.silent trivial) fun _ => .pure _

theorem begin_polite (d : DWORD) : Polite (TimeoutChecker.begin d) :=
  .bind (.silent trivial) fun _ => .pure _

theorem waitReady_polite (fuel : Nat) (wt : UINT) : Polite (waitReady fuel wt) := by
  have loop (t : TimeoutChecker) (fuel : Nat) : Polite (waitReadyLoop t fuel) := by
    induction fuel with
    | zero => exact .stuck
    | succ fuel ih =>
      apply Polite.bind .filler
      intro d
      apply Polite.ite (.pure _)
      apply Polite.bind (expired_polite t)
      intro late
      exact .ite (.pure _) ih
  exact .bind (begin_polite wt) fun t => .bind (loop t fuel) fun _ => .pure _

theorem select_polite (fuel : Nat) : Polite (select fuel) := by
  apply Polite.bind assertCS_polite
  intro _
  apply Polite.bind .filler
  intro _
  apply Polite.bind (waitReady_polite fuel 100)
  intro ready
  apply Polite.ite (.pure _)
  exact .bind deselect_polite fun _ => .pure _

theorem rcvrSpiMulti_polite (n : Nat) : Polite (rcvrSpiMulti n) := by
  induction n with
  | zero => exact .pure _
  | succ n ih => exact .bind .filler fun _ => .bind ih fun _ => .pure _

theorem rcvrDatablock_polite (fuel btr : Nat) : Polite (rcvrDatablock fuel btr) := by
  have token (t : TimeoutChecker) (fuel : Nat) : Polite (waitToken t fuel) := by
    induction fuel with
    | zero => exact .stuck
    | succ fuel ih =>
      apply Polite.bind .filler
      intro token
      apply Polite.ite
      · exact .bind (expired_polite t) fun late => .ite (.pure _) ih
      · exact .pure _
  apply Polite.bind (begin_polite 200)
  intro t
  apply Polite.bind (token t fuel)
  intro token
  apply Polite.ite
  · exact .bind (rcvrSpiMulti_polite btr) fun _ => .bind .filler fun _ => .pure _
  · exact .pure _

/-! ## The handshake -/

theorem goIdle_polite (fuel n : Nat) : Polite (goIdle fuel n) := by
  induction n with
  | zero => exact .pure _
  | succ n ih =>
    exact .bind (.silent trivial) fun _ =>
      .bind (.command fuel _ (by decide) (by decide)) fun _ => ih

theorem pollUntilZero_polite (fuel : Nat) (t : TimeoutChecker) {cmd : BYTE} (arg : DWORD)
    (valid : cmd &&& 0x40 = 0)
    (plain : cmd &&& 0x7F ≠ cmd12 ∧ cmd &&& 0x7F ≠ cmd24 ∧ cmd &&& 0x7F ≠ cmd25) (turns : Nat) :
    Polite (pollUntilZero fuel t cmd arg turns) := by
  induction turns with
  | zero => exact .stuck
  | succ turns ih =>
    apply Polite.bind (expired_polite t)
    intro late
    apply Polite.ite (.pure _)
    exact .bind (.command fuel arg valid plain) fun res => .ite (.pure _) ih

theorem identifySdv2_polite (fuel : Nat) (t : TimeoutChecker) : Polite (identifySdv2 fuel t) := by
  iterate 4
    apply Polite.bind .filler
    intro _
  apply Polite.ite
  · apply Polite.bind (pollUntilZero_polite fuel t _ (by decide) (by decide) fuel)
    intro _
    apply Polite.bind (expired_polite t)
    intro late
    apply Polite.bind
    · apply Polite.ite (.pure _)
      exact .bind (.command fuel _ (by decide) (by decide)) fun _ => .pure _
    intro ready
    apply Polite.ite
    · iterate 4
        apply Polite.bind .filler
        intro _
      exact .pure _
    · exact .bind (expired_polite t) fun _ => .pure _
  · exact .pure _

theorem identifySdv1_polite (fuel : Nat) (t : TimeoutChecker) : Polite (identifySdv1 fuel t) := by
  apply Polite.bind (.command fuel _ (by decide) (by decide))
  intro res
  apply Polite.bind
  · apply pollUntilZero_polite
    · split <;> decide
    · split <;> decide
  intro _
  apply Polite.bind (expired_polite t)
  intro late
  apply Polite.bind
  · apply Polite.ite (.pure _)
    exact .bind (.command fuel _ (by decide) (by decide)) fun _ => .pure _
  · exact fun _ => .pure _

theorem identify_polite (fuel : Nat) (t : TimeoutChecker) : Polite (identify fuel t) := by
  apply Polite.bind (.command fuel _ (by decide) (by decide))
  intro res
  apply Polite.ite
  · apply Polite.bind (begin_polite _)
    intro t'
    apply Polite.bind (.command fuel _ (by decide) (by decide))
    intro res
    apply Polite.bind (.ite (identifySdv2_polite fuel t') (identifySdv1_polite fuel t'))
    intro ty
    exact .bind (expired_polite t') fun _ => .pure _
  · exact .bind (expired_polite t) fun _ => .pure _

theorem handshake_polite (fuel : Nat) : Polite (handshake fuel) :=
  .bind (rcvrSpiMulti_polite 10) fun _ => .bind (begin_polite 1000) fun t =>
    .bind (goIdle_polite fuel 200) fun _ => identify_polite fuel t

/-! ## The public functions -/

theorem cardPresent_polite : Polite cardPresent :=
  .bind load_polite fun _ => .ite (.bind (.silent trivial) fun _ => .pure _) (.pure _)

theorem writeProtected_polite : Polite writeProtected :=
  .bind load_polite fun _ => .ite (.bind (.silent trivial) fun _ => .pure _) (.pure _)

theorem conclude_polite (ty : BYTE) : Polite (conclude ty) := by
  apply Polite.bind (store_polite _)
  intro _
  apply Polite.bind deselect_polite
  intro _
  apply Polite.bind (.ite (store_polite _) (store_polite _))
  intro _
  apply Polite.bind writeProtected_polite
  intro wp
  apply Polite.bind (.ite (store_polite _) (store_polite _))
  intro _
  exact .bind (store_polite _) fun _ => .bind load_polite fun _ => .pure _

theorem lock_polite : Polite lock := by
  apply Polite.bind
  · apply Polite.bind load_polite
    intro d
    cases d.mutex with
    | some k => exact .silent trivial
    | none => exact .pure _
  intro _
  apply Polite.bind (store_polite _)
  intro _
  apply Polite.bind load_polite
  intro d
  iterate 3
    apply Polite.bind (spi_polite _)
    intro _
  exact spi_polite _

theorem unlock_polite : Polite unlock := by
  apply Polite.bind (store_polite _)
  intro _
  apply Polite.bind load_polite
  intro d
  cases d.mutex with
  | some k => exact .silent trivial
  | none => exact .pure _

theorem lockGuard_polite {p : Prog α} (hp : Polite p) : Polite (lockGuard p) :=
  .bind lock_polite fun _ => .bind hp fun _ => .bind unlock_polite fun _ => .pure _

theorem member_polite (f : Member) {p : Prog α} (hp : Polite p) : Polite (member f p) :=
  .bind (.silent trivial) fun _ => .bind hp fun _ => .bind (.silent trivial) fun _ => .pure _

theorem initializeCard_polite (fuel : Nat) : Polite (initializeCard fuel) := by
  apply member_polite
  apply lockGuard_polite
  apply Polite.bind (store_polite _)
  intro _
  apply Polite.bind cardPresent_polite
  intro present
  apply Polite.ite (.pure _)
  exact .bind (handshake_polite fuel) fun ty => conclude_polite ty

theorem status_polite : Polite status := by
  apply member_polite
  apply Polite.bind cardPresent_polite
  intro present
  apply Polite.bind
  · apply Polite.ite (store_polite _)
    exact .bind writeProtected_polite fun wp => .ite (store_polite _) (store_polite _)
  intro _
  exact .bind load_polite fun _ => .pure _

theorem readLoop_polite (fuel : Nat) (sector : DWORD) (turns : Nat) (rd count : UINT)
    (buff : List BYTE) : Polite (readLoop fuel sector turns rd count buff) := by
  induction turns generalizing rd count buff with
  | zero => exact .stuck
  | succ turns ih =>
    apply Polite.ite (.pure _)
    apply Polite.bind (.command fuel _ (by decide) (by decide))
    intro res
    apply Polite.ite
    · apply Polite.bind (rcvrDatablock_polite fuel 512)
      intro block
      cases block with
      | some bytes => exact ih _ _ _
      | none => exact ih _ _ _
    · apply Polite.bind deselect_polite
      intro _
      apply Polite.bind unlock_polite
      intro _
      apply Polite.bind (initializeCard_polite fuel)
      intro st
      exact .bind lock_polite fun _ => ih _ _ _

theorem read_polite (fuel : Nat) (buff : List BYTE) (sector : DWORD) (count : UINT) :
    Polite (read fuel buff sector count) := by
  apply member_polite
  apply lockGuard_polite
  apply Polite.bind cardPresent_polite
  intro present
  apply Polite.bind load_polite
  intro d
  apply Polite.ite (.pure _)
  apply Polite.bind load_polite
  intro d
  apply Polite.bind (readLoop_polite _ _ _ _ _ _)
  intro left
  exact .bind deselect_polite fun _ => .pure _

theorem readCsd_polite (fuel : Nat) : Polite (readCsd fuel) :=
  .bind (.command fuel _ (by decide) (by decide)) fun res =>
    .ite (rcvrDatablock_polite fuel 16) (.pure _)

theorem readSdStatus_polite (fuel : Nat) : Polite (readSdStatus fuel) := by
  apply Polite.bind (.command fuel _ (by decide) (by decide))
  intro res
  apply Polite.ite
  · apply Polite.bind .filler
    intro _
    apply Polite.bind (rcvrDatablock_polite fuel 16)
    intro block
    cases block with
    | some csd => exact .bind (rcvrSpiMulti_polite _) fun _ => .pure _
    | none => exact .pure _
  · exact .pure _

theorem ioctlBlockSize_polite (fuel : Nat) : Polite (ioctlBlockSize fuel) := by
  apply Polite.bind load_polite
  intro d
  apply Polite.ite
  · exact .bind (readSdStatus_polite fuel) fun _ => .pure _
  · apply Polite.bind (readCsd_polite fuel)
    intro csd
    apply Polite.bind load_polite
    intro d
    cases csd with
    | some csd => exact .pure _
    | none => exact .pure _

theorem ioctlSectorCount_polite (fuel : Nat) : Polite (ioctlSectorCount fuel) := by
  apply Polite.bind (readCsd_polite fuel)
  intro csd
  cases csd with
  | some csd => exact .pure _
  | none => exact .pure _

theorem eraseSectors_polite (fuel : Nat) (csd : List BYTE) (st ed : DWORD) :
    Polite (eraseSectors fuel csd st ed) := by
  apply Polite.ite (.pure _)
  apply Polite.bind load_polite
  intro d
  apply Polite.bind
  · iterate 2
      apply Polite.bind (.command fuel _ (by decide) (by decide))
      intro res
      apply Polite.ite _ (.pure _)
    apply Polite.bind (.command fuel _ (by decide) (by decide))
    intro res
    exact .ite (.pure _) (.pure _)
  · intro accepted
    exact .ite (.bind (waitReady_polite fuel _) fun _ => .pure _) (.pure _)

theorem ioctl_polite (fuel : Nat) (cmd : BYTE) (dp : DWORD × DWORD) :
    Polite (ioctl fuel cmd dp) := by
  induction fuel generalizing cmd with
  | zero => exact .stuck
  | succ fuel ih =>
    apply member_polite
    apply lockGuard_polite
    apply Polite.bind load_polite
    intro d
    apply Polite.ite (.pure _)
    apply Polite.bind cardPresent_polite
    intro present
    apply Polite.ite (.pure _)
    apply Polite.bind
    · apply Polite.ite (.bind (select_polite fuel) fun _ => .pure _)
      apply Polite.ite (ioctlSectorCount_polite fuel)
      apply Polite.ite (ioctlBlockSize_polite fuel)
      apply Polite.ite
      · apply Polite.bind load_polite
        intro d
        apply Polite.ite (.pure _)
        apply Polite.bind (ih _)
        intro got
        apply Polite.ite (.pure _)
        exact .bind (eraseSectors_polite fuel _ _ _) fun _ => .pure _
      · exact .pure _
    intro res
    exact .bind deselect_polite fun _ => .pure _

end FatFsParticle.Sdspi
