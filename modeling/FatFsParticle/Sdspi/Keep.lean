import FatFsParticle.Sdspi.History

/-!
# What every call keeps

To show that a property `J` of the machine holds after every run it is enough to
look at what the calls are made of: bus traffic, pin readings, taking and giving
back the bus, marks, and whole runs of `initialize()` and `status()`. `Keeps` lists
these. `I` is what holds in addition while the bus is taken, and `O` once the
readiness check has been passed: traffic comes only after it. `keeps_run` carries
`J` through runs.
-/

namespace FatFsParticle.Sdspi
open Interact Program

variable {σ α β : Type} {b : Board σ} {m m' : Machine σ} {I J O X : Machine σ → Prop}

/-- `p` on the board `b` ends in `I` when it starts in `I`. -/
abbrev Keeping (b : Board σ) (I : Machine σ → Prop) (p : Prog α) : Prop :=
  Maintains (Machine.handle b) I p

/-- Marks of `read`, `write` and `ioctl`. -/
def Mark.IsTransfer : Mark → Prop
  | .enter f | .leave f => f ≠ .initializeCard ∧ f ≠ .status

/-- Kept by what goes on inside a call besides traffic. -/
structure Stays (X : Machine σ → Prop) : Prop where
  lock : ∀ m, X m → X m.locked
  unlock : ∀ m, X m → X m.unlocked
  mark : ∀ m k, k.IsTransfer → X m → X (m.marked k)
  pin : ∀ m p l s, X m → X { m with log := .pin p l :: m.log, env := s }

/-- Kept by the loop of `read`: by traffic, and by the recovery after a rejected CMD17. -/
structure Loops (b : Board σ) (O : Machine σ → Prop) : Prop where
  passed : ∀ m t, O m → Passed m t → O t
  recover : ∀ fuel m st t, O m → inside .read m.log = true →
    exec b (initializeCard fuel) m.unlocked = some (st, t) → O t.locked

structure Keeps (b : Board σ) (J I O : Machine σ → Prop) : Prop extends Loops b O where
  inner : ∀ m, I m → J m
  lock : ∀ m, J m → I m.locked
  mark : ∀ m k, k.IsTransfer → J m → J (m.marked k)
  stays : Stays I
  opened : ∀ m, I m → m.drv.status &&& staNoinit = 0 → O m
  closed : ∀ m, O m → I m
  remains : Stays O
  initializeCard : ∀ fuel m st t, J m → exec b (initializeCard fuel) m = some (st, t) → J t
  status : ∀ m st t, J m → exec b status m = some (st, t) → J t
  highSpeedClock : ∀ m clock, J m → J (m.set fun d => { d with highSpeedClock := clock })
  lowSpeedClock : ∀ m clock, J m → J (m.set fun d => { d with lowSpeedClock := clock })
  world : ∀ m s, J m → J { m with env := s }

namespace Stays

variable (S : Stays X)
include S

theorem slot (b : Board σ) (hm : X m) : X (m.slot b).2 := by
  unfold Machine.slot
  split
  · exact S.pin m _ _ _ hm
  · exact hm

theorem wpSwitch (b : Board σ) (hm : X m) : X (m.wpSwitch b).2 := by
  unfold Machine.wpSwitch
  split
  · exact S.pin m _ _ _ hm
  · exact hm

theorem cardPresent : Keeping b X cardPresent := by
  intro m a t hm h
  have ht : t = (m.slot b).2 :=
    congrArg Prod.snd (Option.some.inj (h.symm.trans exec_cardPresent))
  exact ht ▸ S.slot b hm

/-- A member function that takes the bus for its body. -/
theorem memberGuard {f : Member} (hf : f ≠ .initializeCard ∧ f ≠ .status) {p : Prog α}
    (hp : Keeping b X p) {a : α} (h : exec b (member f (lockGuard p)) m = some (a, m'))
    (hm : X (m.marked (.enter f)).locked) : X m' := by
  obtain ⟨t, ht, rfl⟩ := exec_member.1 h
  obtain ⟨u, hu, rfl⟩ := exec_lockGuard.1 ht
  exact S.mark _ _ hf (S.unlock _ (hp _ _ _ hm hu))

end Stays

namespace Loops

variable (K : Loops b O)
include K

theorem traffic {p : Prog α} (hp : Traffic p) : Keeping b O p := by
  intro m a t hm h
  exact K.passed m t hm (exec_passed hp h)

/-- The loop of `read`, the recovery included. -/
theorem readLoop {fuel : Nat} {sector : DWORD} (turns : Nat) (rd count : UINT) (buff : List BYTE) :
    Keeping b (fun m => O m ∧ inside .read m.log = true)
      (readLoop fuel sector turns rd count buff) := by
  have traffic {α : Type} {p : Prog α} (hp : Traffic p) :
      Keeping b (fun m => O m ∧ inside .read m.log = true) p := by
    intro m a t hm h
    refine ⟨K.traffic hp m a t hm.1 h, ?_⟩
    obtain ⟨new, hlog, is_traffic⟩ := (exec_passed hp h).log
    rw [hlog, inside_inner fun e he => (is_traffic e he).inner]
    exact hm.2
  induction turns generalizing rd count buff with
  | zero => exact maintains_stuck
  | succ turns ih =>
    unfold Sdspi.readLoop
    refine maintains_ite (maintains_pure _) ?_
    apply maintains_bind (traffic (sendCmd_traffic fuel _ _))
    intro res
    apply maintains_ite
    · apply maintains_bind (traffic (rcvrDatablock_traffic fuel 512))
      intro block
      cases block with
      | some bytes => exact ih _ _ _
      | none => exact ih _ _ _
    · apply maintains_bind (traffic deselect_traffic)
      intro _ m x t hm h
      have h : exec b _ m = _ := h
      simp only [exec_bind, exec_unlock, Option.bind_some] at h
      cases hi : exec b (Sdspi.initializeCard fuel) m.unlocked with
      | none => simp [hi] at h
      | some y =>
        obtain ⟨st, v⟩ := y
        simp only [hi, exec_lock, Option.bind_some] at h
        refine ih _ _ _ _ _ _ ⟨K.recover fuel m st v hm.1 hm.2 hi, ?_⟩ h
        exact (initializeCard_inside (by simp) hi).trans hm.2

/-- `read()`, where `X` holds besides `O` outside its loop. -/
theorem read (S : Stays X) (opened : ∀ m, X m → m.drv.status &&& staNoinit = 0 → O m)
    (closed : ∀ m, O m → X m) {fuel : Nat} {buff : List BYTE} {sector : DWORD} {count : UINT}
    {x : DRESULT × List BYTE} (h : exec b (read fuel buff sector count) m = some (x, m'))
    (hm : X (m.marked (.enter .read)).locked) : X m' := by
  obtain ⟨t, ht, rfl⟩ := exec_member.1 h
  obtain ⟨u, hu, rfl⟩ := exec_lockGuard.1 ht
  refine S.mark _ (.leave .read) (by simp [Mark.IsTransfer]) (S.unlock _ ?_)
  let e := (m.marked (.enter .read)).locked
  have entered : X (e.slot b).2 := S.slot b hm
  have within : inside .read (e.slot b).2.log = true := by
    obtain ⟨new, hlog, inner⟩ := slot_inner b e
    rw [hlog, inside_inner inner]
    rfl
  rw [exec_bind, exec_cardPresent, Option.bind_some, exec_bind, exec_load, Option.bind_some] at hu
  change exec b (if (!(e.slot b).1 || (e.slot b).2.drv.status &&& staNoinit != 0) = true
    then _ else _) (e.slot b).2 = _ at hu
  split at hu
  · cases hu
    exact entered
  · rename_i ready
    have ready : (e.slot b).2.drv.status &&& staNoinit = 0 := by
      simp only [Bool.or_eq_true, Bool.not_eq_true', bne_iff_ne, ne_eq, not_or, Decidable.not_not]
        at ready
      exact ready.2
    rw [exec_bind, exec_load, Option.bind_some] at hu
    obtain ⟨y, v, hv, hu⟩ := exec_bind_some.1 hu
    have looped := K.readLoop _ _ _ _ _ _ _ ⟨opened _ entered ready, within⟩ hv
    obtain ⟨⟨⟩, w, hw, hu⟩ := exec_bind_some.1 hu
    cases hu
    exact closed _ (K.traffic deselect_traffic _ _ _ looped.1 hw)

end Loops

namespace Keeps

variable (K : Keeps b J I O)
include K

theorem enter (f : Member) (hf : f ≠ .initializeCard ∧ f ≠ .status) (hm : J m) :
    I (m.marked (.enter f)).locked :=
  K.lock _ (K.mark m (.enter f) hf hm)

theorem read {fuel : Nat} {buff : List BYTE} {sector : DWORD} {count : UINT}
    {x : DRESULT × List BYTE} (h : exec b (read fuel buff sector count) m = some (x, m'))
    (hm : J m) : I m' :=
  K.toLoops.read K.stays K.opened K.closed h (K.enter .read (by simp) hm)

theorem write {fuel : Nat} {buff : List BYTE} {sector : DWORD} {count : UINT} {x : DRESULT}
    (h : exec b (write fuel buff sector count) m = some (x, m')) (hm : J m) : I m' := by
  obtain ⟨t, ht, rfl⟩ := exec_member.1 h
  obtain ⟨u, hu, rfl⟩ := exec_lockGuard.1 ht
  refine K.stays.mark _ (.leave .write) (by simp [Mark.IsTransfer]) (K.stays.unlock _ ?_)
  let e := (m.marked (.enter .write)).locked
  have present : I (e.slot b).2 := K.stays.slot b (K.enter .write (by simp) hm)
  rw [exec_bind, exec_cardPresent, Option.bind_some] at hu
  change exec b (if (!(e.slot b).1) = true then _ else _) (e.slot b).2 = _ at hu
  split at hu
  · cases hu
    exact present
  have entered := K.stays.wpSwitch b present
  rw [exec_bind, exec_writeProtected, Option.bind_some] at hu
  split at hu
  · cases hu
    exact entered
  rw [exec_bind, exec_load, Option.bind_some] at hu
  split at hu
  · cases hu
    exact entered
  rename_i ready
  split at hu
  · cases hu
    exact entered
  obtain ⟨left, v, hv, hu⟩ := exec_bind_some.1 hu
  obtain ⟨⟨⟩, w, hw, hu⟩ := exec_bind_some.1 hu
  cases hu
  have transferred : O v := by
    refine maintains_ite ?_ ?_ _ _ _ (K.opened _ entered (by simpa using ready)) hv
    · exact K.traffic (writeSingle_traffic fuel buff _ count)
    · exact K.traffic (writeMultiple_traffic fuel buff _ count)
  exact K.closed _ (K.traffic deselect_traffic _ _ _ transferred hw)

/-- `ioctl` keeps both `I` and `O`; `X` stands for either. -/
theorem ioctl_of (S : Stays X) (opened : ∀ m, X m → m.drv.status &&& staNoinit = 0 → O m)
    (closed : ∀ m, O m → X m) {fuel : Nat}
    (nested : ∀ cmd dp, Keeping b O (Sdspi.ioctl fuel cmd dp)) {cmd : BYTE} {dp : DWORD × DWORD}
    {x : DRESULT × Option DWORD} (h : exec b (Sdspi.ioctl (fuel + 1) cmd dp) m = some (x, m'))
    (hm : X (m.marked (.enter .ioctl)).locked) : X m' := by
  refine S.memberGuard (by simp) ?_ h hm
  intro m x t hm h
  have h : exec b _ m = _ := h
  rw [exec_bind, exec_load, Option.bind_some] at h
  split at h
  · cases h
    exact hm
  rename_i ready
  refine closed t ((?_ : Keeping b O _) m x t (opened m hm (by simpa using ready)) h)
  apply maintains_bind K.remains.cardPresent
  intro present
  refine maintains_ite (maintains_pure _) ?_
  apply maintains_bind
  · apply maintains_ite
    · exact maintains_bind (K.traffic (select_traffic fuel)) fun _ => maintains_pure _
    refine maintains_ite (K.traffic (ioctlSectorCount_traffic fuel)) ?_
    refine maintains_ite (K.traffic (ioctlBlockSize_traffic fuel)) ?_
    refine maintains_ite ?_ (maintains_pure _)
    apply maintains_bind (K.traffic .load)
    intro d
    refine maintains_ite (maintains_pure _) ?_
    apply maintains_bind (nested _ _)
    intro got
    refine maintains_ite (maintains_pure _) ?_
    exact maintains_bind (K.traffic (eraseSectors_traffic fuel _ _ _)) fun _ => maintains_pure _
  · intro res
    apply maintains_bind (K.traffic deselect_traffic)
    intro _
    exact maintains_pure _

/-- The call of `ioctl` inside `ioctl`. -/
theorem ioctl_nested (fuel : Nat) (cmd : BYTE) (dp : DWORD × DWORD) :
    Keeping b O (Sdspi.ioctl fuel cmd dp) := by
  induction fuel generalizing cmd dp with
  | zero => exact maintains_stuck
  | succ fuel ih =>
    intro m x t hm h
    have entered := K.remains.lock _ (K.remains.mark m (.enter .ioctl) (by simp [Mark.IsTransfer]) hm)
    exact K.ioctl_of K.remains (fun _ h _ => h) (fun _ h => h) ih h entered

theorem ioctl {fuel : Nat} {cmd : BYTE} {dp : DWORD × DWORD} {x : DRESULT × Option DWORD}
    (h : exec b (ioctl fuel cmd dp) m = some (x, m')) (hm : J m) : I m' := by
  cases fuel with
  | zero => cases h
  | succ fuel =>
    exact K.ioctl_of K.stays K.opened K.closed (K.ioctl_nested fuel) h
      (K.enter .ioctl (by simp) hm)

theorem call {fuel : Nat} {c : Call} (h : exec b (c.prog fuel) m = some ((), m')) (hm : J m) :
    J m' := by
  cases c with
  | initializeCard =>
    obtain ⟨st, h⟩ := exec_discard.1 h
    exact K.initializeCard fuel m st m' hm h
  | status =>
    obtain ⟨st, h⟩ := exec_discard.1 h
    exact K.status m st m' hm h
  | read buff sector count =>
    obtain ⟨x, h⟩ := exec_discard.1 h
    exact K.inner _ (K.read h hm)
  | write buff sector count =>
    obtain ⟨x, h⟩ := exec_discard.1 h
    exact K.inner _ (K.write h hm)
  | ioctl cmd dp =>
    obtain ⟨x, h⟩ := exec_discard.1 h
    exact K.inner _ (K.ioctl h hm)
  | highSpeedClock clock =>
    cases h
    exact K.highSpeedClock m clock hm
  | lowSpeedClock clock =>
    cases h
    exact K.lowSpeedClock m clock hm

end Keeps

theorem keeps_run (K : ∀ b : Board σ, Keeps b J I O) (h : Run m m') (hm : J m) : J m' := by
  induction h with
  | refl => exact hm
  | tail _ step ih =>
    cases step with
    | call b fuel c h => exact (K b).call h ih
    | world s => exact (K mute).world _ s ih

end FatFsParticle.Sdspi
