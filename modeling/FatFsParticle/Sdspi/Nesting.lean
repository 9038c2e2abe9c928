import FatFsParticle.Sdspi.History
import FatFsParticle.Interact.Logic

/-!
# How deep a call locks

Every call gives back the locks it takes, and clears `_busy` under the mutex each time. Only
`CTRL_ERASE_SECTOR` locks inside a lock of its own, where it calls `ioctl` for the CSD.
-/

namespace FatFsParticle.Sdspi
open Interact Program

variable {α β : Type}

/-- What a store does to the flags: `some true` sets them, `some false` clears `_busy`. -/
def flagStep (f : SdspiDriver → SdspiDriver) : Option Bool :=
  if (f { cs := 0 }).busy then some true
  else if (f { cs := 0, busy := true }).busy then none
  else some false

/-! ## The rules of one call -/

/-- How often a thread holds the mutex, and how many of its locks set the flags. -/
structure Nesting where
  held : Nat
  nest : Nat

/-- A store that does to the flags what `flagStep` says, and leaves the mutex. -/
def Honest (f : SdspiDriver → SdspiDriver) : Prop :=
  ∀ d, (f d).mutex = d.mutex ∧
    match flagStep f with
    | some true => (f d).busy = true ∧ (f d).busyCheck = true
    | some false => (f d).busy = false ∧ (f d).busyCheck = d.busyCheck
    | none => (f d).busy = d.busy ∧ (f d).busyCheck = d.busyCheck

/-- Flags are set and cleared under the mutex, by a call begun at depth `depth`, and cleared
inside `top` locks at most. -/
def flagRules (top depth : Nat) : Rules Request.Ans Nesting where
  allowed g
    | .mutexUnlock _ => depth + g.nest < g.held
    | .store f => Honest f ∧
      match flagStep f with
      | some true => depth + g.nest < g.held
      | some false => 0 < g.nest ∧ g.nest ≤ top
      | none => True
    | _ => True
  step g
    | .mutexLock _, _, g' => g' = { g with held := g.held + 1 }
    | .mutexUnlock _, _, g' => g' = { g with held := g.held - 1 }
    | .store f, _, g' =>
      g' = match flagStep f with
        | some true => { g with nest := g.nest + 1 }
        | some false => { g with nest := g.nest - 1 }
        | none => g
    | .load, d, g' => d.mutex.isSome = true ∧ g' = g
    | _, _, g' => g' = g

/-- Requests of neither the mutex nor the members. -/
def Request.Quiet : Request → Prop
  | .load | .store _ | .mutexLock _ | .mutexUnlock _ => False
  | _ => True

/-- Inside `inside` locks at least, `p` locks `levels` deep at most, and ends as deep as it
began. -/
def Balanced (levels inside : Nat) (p : Prog α) : Prop :=
  ∀ top depth k n, inside ≤ n → n + levels ≤ top → depth + n ≤ k →
    p.wp (flagRules top depth) (fun _ g => g = ⟨k, n⟩) ⟨k, n⟩

section
variable {levels inside : Nat}

theorem balanced_pure (a : α) : Balanced levels inside (pure a : Prog α) := fun _ _ _ _ _ _ _ => rfl

theorem balanced_stuck : Balanced levels inside (.stuck : Prog α) := fun _ _ _ _ _ _ _ => trivial

theorem balanced_bind {p : Prog α} {f : α → Prog β} (hp : Balanced levels inside p)
    (hf : ∀ a, Balanced levels inside (f a)) : Balanced levels inside (p >>= f) := by
  intro top depth k n deep room le
  apply wp_seq (hp top depth k n deep room le)
  rintro a g rfl
  exact hf a top depth k n deep room le

theorem balanced_ite {c : Prop} [Decidable c] {p q : Prog α} (hp : Balanced levels inside p)
    (hq : Balanced levels inside q) : Balanced levels inside (if c then p else q) := by
  split
  · exact hp
  · exact hq

theorem Balanced.inner {p : Prog α} (hp : Balanced levels inside p) :
    Balanced levels (inside + 1) p := by
  intro top depth k n deep room le
  exact hp top depth k n (by omega) room le

theorem balanced_load : Balanced levels inside load := by
  intro top depth k n deep room le
  refine ⟨trivial, ?_⟩
  rintro d g ⟨-, rfl⟩
  rfl

theorem balanced_ask {r : Request} (quiet : r.Quiet) : Balanced levels inside (ask r) := by
  intro top depth k n deep room le
  cases r with
  | load | store | mutexLock | mutexUnlock => exact quiet.elim
  | transfer | digitalWrite | digitalRead | millis | delay | spi | mark =>
    refine ⟨trivial, ?_⟩
    rintro _ g rfl
    rfl

/-- Other stores leave the flags and the mutex alone. -/
theorem balanced_store {f : SdspiDriver → SdspiDriver}
    (same : ∀ d, (f d).mutex = d.mutex ∧ (f d).busy = d.busy ∧ (f d).busyCheck = d.busyCheck) :
    Balanced levels inside (store f) := by
  have flags : flagStep f = none := by
    unfold flagStep
    rw [(same _).2.1, (same _).2.1]
    rfl
  intro top depth k n deep room le
  refine ⟨⟨?_, ?_⟩, ?_⟩
  · intro d
    rw [flags]
    exact same d
  · rw [flags]
    trivial
  · intro _ g step
    have step : g = match flagStep f with
      | some true => ⟨k, n + 1⟩
      | some false => ⟨k, n - 1⟩
      | none => ⟨k, n⟩ := step
    rw [flags] at step
    exact step

theorem balanced_traffic {p : Prog α} (hp : Traffic p) : Balanced levels inside p := by
  induction hp with
  | pure a => exact balanced_pure a
  | stuck => exact balanced_stuck
  | bind _ _ ihp ihf => exact balanced_bind ihp ihf
  | load => exact balanced_load
  | xmitSpi | millis | delay => exact balanced_ask trivial
  | assertCS | deassertCS => exact balanced_bind balanced_load fun d => balanced_ask trivial

theorem balanced_cardPresent : Balanced levels inside cardPresent := by
  apply balanced_bind balanced_load
  intro d
  apply balanced_ite
  · exact balanced_bind (balanced_ask trivial) fun _ => balanced_pure _
  · exact balanced_pure _

theorem balanced_writeProtected : Balanced levels inside writeProtected := by
  apply balanced_bind balanced_load
  intro d
  apply balanced_ite
  · exact balanced_bind (balanced_ask trivial) fun _ => balanced_pure _
  · exact balanced_pure _

theorem balanced_member {f : Member} {p : Prog α} (hp : Balanced levels inside p) :
    Balanced levels inside (member f p) := by
  have noted (k : Mark) : Balanced levels inside (mark k) := balanced_ask trivial
  apply balanced_bind (noted _)
  intro _
  apply balanced_bind hp
  intro a
  exact balanced_bind (noted _) fun _ => balanced_pure a

end

/-! ## Locks -/

theorem wp_lock_flags {top depth k n : Nat} (le : depth + n ≤ k) :
    lock.wp (flagRules top depth) (fun _ g => g = ⟨k + 1, n + 1⟩) ⟨k, n⟩ := by
  have taken : acquire.wp (flagRules top depth) (fun _ g => g = ⟨k + 1, n⟩) ⟨k, n⟩ := by
    refine ⟨trivial, ?_⟩
    rintro d g ⟨some_, rfl⟩
    obtain ⟨m, owned⟩ := Option.isSome_iff_exists.mp some_
    simp only [Program.bind, owned]
    refine ⟨trivial, ?_⟩
    rintro _ g rfl
    rfl
  apply wp_seq taken
  rintro _ g rfl
  have sets : (store fun d => { d with busy := true, busyCheck := true }).wp (flagRules top depth)
      (fun _ g => g = ⟨k + 1, n + 1⟩) ⟨k + 1, n⟩ := by
    have above : depth + n < k + 1 := by omega
    refine ⟨⟨fun d => ⟨rfl, rfl, rfl⟩, above⟩, ?_⟩
    rintro _ g rfl
    rfl
  apply wp_seq sets
  rintro _ g rfl
  refine ⟨trivial, ?_⟩
  rintro d g ⟨-, rfl⟩
  iterate 4
    refine ⟨trivial, ?_⟩
    rintro _ g rfl
  rfl

theorem wp_unlock_flags {top depth k n : Nat} (room : n + 1 ≤ top) (le : depth + n ≤ k) :
    unlock.wp (flagRules top depth) (fun _ g => g = ⟨k, n⟩) ⟨k + 1, n + 1⟩ := by
  have clears : (store fun d => { d with busy := false }).wp (flagRules top depth)
      (fun _ g => g = ⟨k + 1, n⟩) ⟨k + 1, n + 1⟩ := by
    refine ⟨⟨fun d => ⟨rfl, rfl, rfl⟩, Nat.succ_pos n, room⟩, ?_⟩
    rintro _ g rfl
    rfl
  apply wp_seq clears
  rintro _ g rfl
  refine ⟨trivial, ?_⟩
  rintro d g ⟨some_, rfl⟩
  obtain ⟨m, owned⟩ := Option.isSome_iff_exists.mp some_
  simp only [Program.bind, owned]
  have above : depth + n < k + 1 := by omega
  refine ⟨above, ?_⟩
  rintro _ g rfl
  rfl

theorem balanced_lockGuard {levels : Nat} {p : Prog α} (hp : Balanced levels 1 p) :
    Balanced (levels + 1) 0 (lockGuard p) := by
  intro top depth k n _ room le
  apply wp_seq (wp_lock_flags le)
  rintro _ g rfl
  apply wp_seq (hp top depth (k + 1) (n + 1) (by omega) (by omega) (by omega))
  rintro a g rfl
  apply wp_seq (wp_unlock_flags (by omega) le)
  rintro _ g rfl
  rfl

/-! ## The calls -/

section
variable {levels : Nat}

theorem balanced_conclude (ty : BYTE) : Balanced levels 1 (conclude ty) := by
  apply balanced_bind (balanced_store fun _ => ⟨rfl, rfl, rfl⟩)
  intro _
  apply balanced_bind (balanced_traffic deselect_traffic)
  intro _
  apply balanced_bind
  · apply balanced_ite
    · exact balanced_store fun _ => ⟨rfl, rfl, rfl⟩
    · exact balanced_store fun _ => ⟨rfl, rfl, rfl⟩
  intro _
  apply balanced_bind balanced_writeProtected
  intro wp
  apply balanced_bind
  · apply balanced_ite
    · exact balanced_store fun _ => ⟨rfl, rfl, rfl⟩
    · exact balanced_store fun _ => ⟨rfl, rfl, rfl⟩
  intro _
  apply balanced_bind (balanced_store fun _ => ⟨rfl, rfl, rfl⟩)
  intro _
  exact balanced_bind balanced_load fun _ => balanced_pure _

theorem balanced_initializeCard (fuel : Nat) : Balanced (levels + 1) 0 (initializeCard fuel) := by
  apply balanced_member
  apply balanced_lockGuard
  apply balanced_bind (balanced_store fun _ => ⟨rfl, rfl, rfl⟩)
  intro _
  apply balanced_bind balanced_cardPresent
  intro present
  apply balanced_ite (balanced_pure _)
  exact balanced_bind (balanced_traffic (handshake_traffic fuel)) balanced_conclude

theorem balanced_status : Balanced levels 0 status := by
  apply balanced_member
  apply balanced_bind balanced_cardPresent
  intro present
  apply balanced_bind
  · apply balanced_ite
    · exact balanced_store fun _ => ⟨rfl, rfl, rfl⟩
    · apply balanced_bind balanced_writeProtected
      intro wp
      apply balanced_ite
      · exact balanced_store fun _ => ⟨rfl, rfl, rfl⟩
      · exact balanced_store fun _ => ⟨rfl, rfl, rfl⟩
  intro _
  exact balanced_bind balanced_load fun _ => balanced_pure _

theorem balanced_readLoop (fuel : Nat) (sector : DWORD) (turns : Nat) (rd count : UINT)
    (buff : List BYTE) : Balanced levels 1 (readLoop fuel sector turns rd count buff) := by
  induction turns generalizing rd count buff with
  | zero => exact balanced_stuck
  | succ turns ih =>
    unfold readLoop
    apply balanced_ite (balanced_pure _)
    apply balanced_bind (balanced_traffic (sendCmd_traffic fuel _ _))
    intro res
    apply balanced_ite
    · apply balanced_bind (balanced_traffic (rcvrDatablock_traffic fuel 512))
      intro block
      cases block with
      | some bytes => exact ih _ _ _
      | none => exact ih _ _ _
    · apply balanced_bind (balanced_traffic deselect_traffic)
      intro _ top depth k n deep room le
      -- the lock of `read` is given up and taken again around `initialize`
      obtain ⟨n, rfl⟩ := Nat.exists_eq_add_of_le' deep
      obtain ⟨k, rfl⟩ := Nat.exists_eq_add_of_le' (show 1 ≤ k by omega)
      have inner : depth + n ≤ k := by omega
      apply wp_seq (wp_unlock_flags (by omega) inner)
      rintro _ g rfl
      have again : Balanced (levels + 1) 0 (initializeCard fuel) := balanced_initializeCard fuel
      apply wp_seq (again top depth k n (Nat.zero_le n) (by omega) inner)
      rintro st g rfl
      apply wp_seq (wp_lock_flags inner)
      rintro _ g rfl
      exact ih rd count buff top depth (k + 1) (n + 1) deep room le

theorem balanced_read (fuel : Nat) (buff : List BYTE) (sector : DWORD) (count : UINT) :
    Balanced (levels + 1) 0 (read fuel buff sector count) := by
  apply balanced_member
  apply balanced_lockGuard
  apply balanced_bind balanced_cardPresent
  intro present
  apply balanced_bind balanced_load
  intro d
  apply balanced_ite (balanced_pure _)
  apply balanced_bind balanced_load
  intro d
  apply balanced_bind (balanced_readLoop _ _ _ _ _ _)
  intro x
  exact balanced_bind (balanced_traffic deselect_traffic) fun _ => balanced_pure _

theorem balanced_write (fuel : Nat) (buff : List BYTE) (sector : DWORD) (count : UINT) :
    Balanced (levels + 1) 0 (write fuel buff sector count) := by
  apply balanced_member
  apply balanced_lockGuard
  apply balanced_bind balanced_cardPresent
  intro present
  apply balanced_ite (balanced_pure _)
  apply balanced_bind balanced_writeProtected
  intro wp
  apply balanced_ite (balanced_pure _)
  apply balanced_bind balanced_load
  intro d
  apply balanced_ite (balanced_pure _)
  apply balanced_ite (balanced_pure _)
  apply balanced_bind
  · apply balanced_ite
    · exact balanced_traffic (writeSingle_traffic fuel buff _ count)
    · exact balanced_traffic (writeMultiple_traffic fuel buff _ count)
  intro left
  exact balanced_bind (balanced_traffic deselect_traffic) fun _ => balanced_pure _

/-- Everything in `ioctl` but the erase stays in its one lock. -/
theorem balanced_ioctl_arms (fuel : Nat) (cmd : BYTE) (dp : DWORD × DWORD)
    (erase : cmd = ctrlEraseSector → Balanced levels 1 (ioctlErase fuel (ioctl fuel mmcGetCsd dp) dp)) :
    Balanced (levels + 1) 0 (ioctl (fuel + 1) cmd dp) := by
  apply balanced_member
  apply balanced_lockGuard
  apply balanced_bind balanced_load
  intro d
  apply balanced_ite (balanced_pure _)
  apply balanced_bind balanced_cardPresent
  intro present
  apply balanced_ite (balanced_pure _)
  apply balanced_bind
  · apply balanced_ite
    · exact balanced_traffic (.bind (select_traffic fuel) fun _ => .pure _)
    apply balanced_ite (balanced_traffic (ioctlSectorCount_traffic fuel))
    apply balanced_ite (balanced_traffic (ioctlBlockSize_traffic fuel))
    split
    · rename_i erases
      exact erase erases
    · exact balanced_pure _
  intro res
  exact balanced_bind (balanced_traffic deselect_traffic) fun _ => balanced_pure _

theorem balanced_ioctl (fuel : Nat) {cmd : BYTE} (plain : cmd ≠ ctrlEraseSector) (dp : DWORD × DWORD) :
    Balanced (levels + 1) 0 (ioctl fuel cmd dp) := by
  cases fuel with
  | zero => exact balanced_stuck
  | succ fuel => exact balanced_ioctl_arms fuel cmd dp fun erases => absurd erases plain

/-- The nested `ioctl` locks inside the lock of this one. -/
theorem balanced_ioctl_nested (fuel : Nat) (cmd : BYTE) (dp : DWORD × DWORD) :
    Balanced (levels + 2) 0 (ioctl fuel cmd dp) := by
  cases fuel with
  | zero => exact balanced_stuck
  | succ fuel =>
    apply balanced_ioctl_arms
    intro _
    apply balanced_bind balanced_load
    intro d
    apply balanced_ite (balanced_pure _)
    apply balanced_bind (balanced_ioctl fuel (by decide) dp).inner
    intro got
    apply balanced_ite (balanced_pure _)
    exact balanced_bind (balanced_traffic (eraseSectors_traffic fuel _ _ _)) fun _ => balanced_pure _

/-- Every call but `ioctl(CTRL_ERASE_SECTOR)`. -/
def Call.Plain : Call → Prop
  | .ioctl cmd _ => cmd ≠ ctrlEraseSector
  | _ => True

theorem balanced_plain (fuel : Nat) {c : Call} (plain : c.Plain) :
    Balanced (levels + 1) 0 (c.prog fuel) := by
  cases c with
  | initializeCard => exact balanced_bind (balanced_initializeCard fuel) fun _ => balanced_pure _
  | status => exact balanced_bind balanced_status fun _ => balanced_pure _
  | read buff sector count => exact balanced_bind (balanced_read fuel _ _ _) fun _ => balanced_pure _
  | write buff sector count => exact balanced_bind (balanced_write fuel _ _ _) fun _ => balanced_pure _
  | ioctl cmd dp => exact balanced_bind (balanced_ioctl fuel plain dp) fun _ => balanced_pure _
  | highSpeedClock clock => exact balanced_store fun _ => ⟨rfl, rfl, rfl⟩
  | lowSpeedClock clock => exact balanced_store fun _ => ⟨rfl, rfl, rfl⟩

theorem balanced_call (fuel : Nat) (c : Call) : Balanced (levels + 2) 0 (c.prog fuel) := by
  cases c with
  | ioctl cmd dp => exact balanced_bind (balanced_ioctl_nested fuel cmd dp) fun _ => balanced_pure _
  | initializeCard | status | read | write | highSpeedClock | lowSpeedClock =>
    exact balanced_plain fuel trivial

end

end FatFsParticle.Sdspi
