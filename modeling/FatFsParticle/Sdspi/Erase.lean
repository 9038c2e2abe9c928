import FatFsParticle.Sdspi.Capacity
import FatFsParticle.Sdspi.Frames

/-!
# Sector erase

`ioctl(CTRL_ERASE_SECTOR)` asks `ioctl(MMC_GET_CSD)` whether the card permits it, a command
code that `ioctl` has no arm for. So it sends nothing but filler and never returns `RES_OK`,
which is right for the cards that cannot be erased.
-/

namespace FatFsParticle.Sdspi
open Interact Program

variable {σ : Type} {b : Board σ} {m m' : Machine σ}

/-- The CSD of an SD card that permits to erase sectors: that of SDv2, or `ERASE_BLK_EN`. -/
def PermitsErase (csd : List BYTE) : Prop := csdBits csd 127 126 ≠ 0 ∨ csdBits csd 46 46 = 1

/-- The commands that erase `dp.1` to `dp.2`. -/
def eraseChain (cardType : BYTE) (dp : DWORD × DWORD) : List (BYTE × DWORD) :=
  [(cmd32, cardAddress cardType dp.1), (cmd33, cardAddress cardType dp.2), (cmd38, 0)]

/-- The card can be erased: it is an SD card, its CSD is obtained and permits that, it accepts
the commands, and gets ready in time. -/
structure CanErase (b : Board σ) (m : Machine σ) (dp : DWORD × DWORD) : Prop where
  initialised : m.drv.status &&& staNoinit = 0
  present : (m.ioctlEntered b).1 = true
  sdc : m.drv.cardType &&& ctSdc ≠ 0
  served : ∃ fuel csd t u v, exec b (readCsd fuel) (m.ioctlEntered b).2 = some (some csd, t) ∧
    PermitsErase csd ∧
    exec b (sendCmds fuel (eraseChain m.drv.cardType dp)) (t.deselected b) = some (true, u) ∧
    exec b (waitReady fuel 30000) u = some (true, v)

/-- The commands of the erase sequence on a tape. -/
def eraseCommands (xs : List Exchange) : List (BYTE × DWORD) :=
  ((frames none xs).filterMap fun f => decodeFrame f.sent).filter fun c =>
    c.1 == cmd32 || c.1 == cmd33 || c.1 == cmd38

/-- `ioctl(CTRL_ERASE_SECTOR)` comes back, with `RES_OK` and the three commands sent if the
card can be erased, and else with an error and none of them. -/
def ErasesRight (b : Board σ) (m : Machine σ) (dp : DWORD × DWORD) : Prop :=
  ∃ fuel x m', exec b (ioctl fuel ctrlEraseSector dp) m = some (x, m') ∧
    (CanErase b m dp → x.1 = .ok ∧
      eraseCommands (tapeSince m m') = eraseChain m.drv.cardType dp) ∧
    (¬ CanErase b m dp → x.1 ≠ .ok ∧ eraseCommands (tapeSince m m') = [])

/-! ## What the code does -/

/-- Only filler was sent since `m`. -/
def OnlyFiller (m m' : Machine σ) : Prop := ∃ new, m'.log = new ++ m.log ∧ Idle (tape new)

theorem OnlyFiller.trans {m₁ m₂ m₃ : Machine σ} (h : OnlyFiller m₁ m₂) (h' : OnlyFiller m₂ m₃) :
    OnlyFiller m₁ m₃ := by
  obtain ⟨new, log, idle⟩ := h
  obtain ⟨new', log', idle'⟩ := h'
  refine ⟨new' ++ new, by rw [log', log, List.append_assoc], ?_⟩
  rw [tape_append]
  exact idle_append idle idle'

theorem ioctlEntered_filler : OnlyFiller m (m.ioctlEntered b).2 := by
  obtain ⟨new, log, none⟩ := ioctlEntered_log (b := b) (m := m)
  refine ⟨new, log, ?_⟩
  rw [none]
  exact nofun

theorem deselected_filler : OnlyFiller m (m.deselected b).ioctlLeft := by
  obtain ⟨new, y, log, taped⟩ := deselected_log (b := b) (m := m)
  refine ⟨new, log, ?_⟩
  rw [taped]
  exact idle_fillers _ _

theorem ioctlLeft_filler : OnlyFiller m m.ioctlLeft := ⟨[_], rfl, nofun⟩

theorem locked_filler : OnlyFiller m (m.marked (.enter .ioctl)).locked := ⟨[_], rfl, nofun⟩

theorem OnlyFiller.no_command (h : OnlyFiller m m') : eraseCommands (tapeSince m m') = [] := by
  obtain ⟨new, log, idle⟩ := h
  have none_ := frames_idle idle none []
  rw [List.append_nil, frames] at none_
  rw [tapeSince_eq log, eraseCommands, none_]
  rfl

/-- A call of `ioctl` that comes to nothing. -/
def ComesToNothing (m : Machine σ) (x : DRESULT × Option DWORD) (m' : Machine σ) : Prop :=
  x.1 ≠ .ok ∧ OnlyFiller m m'

/-- If the arm comes to nothing, so does `ioctl`. -/
theorem exec_ioctl_nothing {fuel : Nat} {cmd : BYTE} {dp : DWORD × DWORD}
    (arm : ∀ t : Machine σ, ∃ x u, exec b (ioctlArm fuel cmd dp) t = some (x, u) ∧
      ComesToNothing t x u) (m : Machine σ) :
    ∃ x m', exec b (ioctl (fuel + 1) cmd dp) m = some (x, m') ∧ ComesToNothing m x m' := by
  rw [exec_ioctl]
  split
  · exact ⟨_, _, rfl, nofun, locked_filler.trans ioctlLeft_filler⟩
  · split
    · exact ⟨_, _, rfl, nofun, ioctlEntered_filler.trans ioctlLeft_filler⟩
    · obtain ⟨x, u, run, bad, filler⟩ := arm (m.ioctlEntered b).2
      rw [run]
      exact ⟨x, _, rfl, bad, (ioctlEntered_filler.trans filler).trans deselected_filler⟩

/-- There is no arm for `MMC_GET_CSD`. -/
theorem exec_ioctl_csd (fuel : Nat) (dp : DWORD × DWORD) (m : Machine σ) :
    ∃ x m', exec b (ioctl (fuel + 1) mmcGetCsd dp) m = some (x, m') ∧ ComesToNothing m x m' := by
  apply exec_ioctl_nothing
  intro t
  exact ⟨(.parerr, none), t, rfl, nofun, [], rfl, nofun⟩

theorem exec_ioctl_erase (fuel : Nat) (dp : DWORD × DWORD) (m : Machine σ) :
    ∃ x m', exec b (ioctl (fuel + 2) ctrlEraseSector dp) m = some (x, m') ∧
      ComesToNothing m x m' := by
  apply exec_ioctl_nothing
  intro t
  change ∃ x u, exec b (ioctlErase (fuel + 1) (ioctl (fuel + 1) mmcGetCsd dp) dp) t = some (x, u) ∧ _
  unfold ioctlErase
  rw [exec_bind, exec_load, Option.bind_some]
  split
  · exact ⟨_, t, rfl, nofun, [], rfl, nofun⟩
  · obtain ⟨x, u, run, bad, filler⟩ := exec_ioctl_csd (b := b) fuel dp t
    rw [exec_bind, run, Option.bind_some, if_pos bad]
    exact ⟨_, u, rfl, nofun, filler⟩

/-- Whatever the fuel, a run comes to nothing. -/
theorem erase_nothing {fuel : Nat} {dp : DWORD × DWORD} {x : DRESULT × Option DWORD}
    (run : exec b (ioctl fuel ctrlEraseSector dp) m = some (x, m')) : ComesToNothing m x m' := by
  match fuel with
  | 0 => cases run
  | 1 =>
    rw [exec_ioctl] at run
    split at run
    · cases run
      exact ⟨nofun, locked_filler.trans ioctlLeft_filler⟩
    · split at run
      · cases run
        exact ⟨nofun, ioctlEntered_filler.trans ioctlLeft_filler⟩
      · obtain ⟨⟨y, t⟩, arm, ended⟩ := Option.map_eq_some_iff.mp run
        change exec b (ioctlErase 0 .stuck dp) _ = _ at arm
        unfold ioctlErase at arm
        rw [exec_bind, exec_load, Option.bind_some] at arm
        split at arm
        · cases arm
          cases ended
          exact ⟨nofun, ioctlEntered_filler.trans deselected_filler⟩
        · cases arm
  | fuel + 2 =>
    obtain ⟨y, t, run', nothing⟩ := exec_ioctl_erase (b := b) fuel dp m
    rw [run'] at run
    cases run
    exact nothing

/-- Sector erase does what it is asked, or nothing, exactly on the cards that cannot be
erased. -/
theorem erases_right_iff (b : Board σ) (m : Machine σ) (dp : DWORD × DWORD) :
    ErasesRight b m dp ↔ ¬ CanErase b m dp := by
  constructor
  · rintro ⟨fuel, x, m', run, does, -⟩ can
    exact (erase_nothing run).1 (does can).1
  · intro cannot
    obtain ⟨x, m', run, bad, filler⟩ := exec_ioctl_erase (b := b) 0 dp m
    exact ⟨2, x, m', run, fun can => absurd can cannot, fun _ => ⟨bad, filler.no_command⟩⟩

/-- Sectors 0 to 7 of an SDHC card that would accept the commands at once. -/
theorem sdhc_not_erased : CanErase (scripted sdhcAnswer) (fitted (ctSd2 ||| ctBlock)) (0, 7) ∧
    ¬ ErasesRight (scripted sdhcAnswer) (fitted (ctSd2 ||| ctBlock)) (0, 7) := by
  let board := scripted sdhcAnswer
  let card := fitted (ctSd2 ||| ctBlock)
  have served : ((exec board (readCsd 2) (card.ioctlEntered board).2).any fun x =>
      (x.1.any fun csd => csdBits csd 127 126 == 1) &&
      (exec board (sendCmds 2 (eraseChain card.drv.cardType (0, 7))) (x.2.deselected board)).any fun y =>
        y.1 && (exec board (waitReady 2 30000) y.2).any fun z => z.1) = true := by
    decide +kernel
  obtain ⟨⟨csd, t⟩, read, rest⟩ := (Option.any_eq_true _ _).mp served
  obtain ⟨permits, rest⟩ := Bool.and_eq_true_iff.mp rest
  obtain ⟨csd, rfl, v2⟩ := (Option.any_eq_true _ _).mp permits
  obtain ⟨⟨accepted, u⟩, sent, rest⟩ := (Option.any_eq_true _ _).mp rest
  obtain ⟨rfl, rest⟩ := Bool.and_eq_true_iff.mp rest
  obtain ⟨⟨ready, v⟩, waited, rfl⟩ := (Option.any_eq_true _ _).mp rest
  have v2 : csdBits csd 127 126 = 1 := by simpa using v2
  have can : CanErase board card (0, 7) := by
    constructor
    · decide
    · decide +kernel
    · decide
    · refine ⟨2, csd, t, u, v, read, .inl ?_, sent, waited⟩
      rw [v2]
      decide
  constructor
  · exact can
  · rintro ⟨fuel, x, m', run, does, -⟩
    exact (erase_nothing run).1 (does can).1

end FatFsParticle.Sdspi
