import FatFsParticle.Sdspi.History
import FatFsParticle.Interact.Pool

/-!
# Drivers that share a bus

Any number of drivers with their CS pins, one SPI peripheral, and recursive mutexes;
any number of threads, each running one call after the other on any of the drivers,
with requests interleaved in any order and answered by anything. The ghost value of a
thread is how deep it holds the bus mutex, the level of its driver's CS pin, and a
flag `conf`: while it holds the mutex, that its driver has configured the peripheral
since; when it does not, that its last request gave the mutex back.
-/

namespace FatFsParticle.Sdspi
open Interact Program

variable {D T α β : Type} [DecidableEq D] [DecidableEq T]

/-- The requests of a program without the marks, which are no code. -/
def unmarked : Prog α → Prog α
  | .ret a => .ret a
  | .call (.mark _) k => unmarked (k ())
  | .call r k => .call r fun x => unmarked (k x)
  | .stuck => .stuck

/-- The state the threads share. A mutex has its owner and the number of its locks
after the first; `configured` is the driver that set up the peripheral last. -/
structure SharedBus (D T : Type) where
  drv : D → SdspiDriver
  out : Pin → Level
  mutex : MutexId → Option (T × Nat)
  configured : Option D

/-- `lock()` of a recursive mutex by `t`. -/
def Acquire (t : T) (o o' : Option (T × Nat)) : Prop :=
  o = none ∧ o' = some (t, 0) ∨ ∃ n, o = some (t, n) ∧ o' = some (t, n + 1)

/-- `unlock()` of a recursive mutex by its owner `t`. -/
def Release (t : T) (o o' : Option (T × Nat)) : Prop :=
  o = some (t, 0) ∧ o' = none ∨ ∃ n, o = some (t, n + 1) ∧ o' = some (t, n)

/-- How often `t` holds a mutex. -/
def depthOf (o : Option (T × Nat)) (t : T) : Nat :=
  match o with
  | some (u, n) => if u = t then n + 1 else 0
  | none => 0

/-- A call on a driver, begun by a thread that held the bus mutex `depth` times. -/
structure Job (D : Type) where
  drv : D
  depth : Nat

/-- The calls that take the bus. -/
def Call.TakesBus : Call → Prop
  | .initializeCard | .read .. | .write .. | .ioctl .. => True
  | _ => False

/-- A request of thread `t` running a call on its driver. Bytes, levels and ticks come
out as they may; an `unlock()` of a mutex the thread does not hold does anything. -/
def act (t : T) (j : Job D) : (r : Request) → r.Ans → SharedBus D T → SharedBus D T → Prop
  | .digitalWrite p l, _, s, s' => s' = { s with out := Function.update s.out p l }
  | .mutexLock m, _, s, s' =>
    ∃ o, Acquire t (s.mutex m) o ∧ s' = { s with mutex := Function.update s.mutex m o }
  | .mutexUnlock m, _, s, s' => depthOf (s.mutex m) t = 0 ∨
    ∃ o, Release t (s.mutex m) o ∧ s' = { s with mutex := Function.update s.mutex m o }
  | .spi _, _, s, s' => s' = { s with configured := some j.drv }
  | .load, x, s, s' => x = s.drv j.drv ∧ s' = s
  | .store f, _, s, s' => s' = { s with drv := Function.update s.drv j.drv (f (s.drv j.drv)) }
  | _, _, s, s' => s' = s

/-- The threads: between calls they may lock and unlock mutexes themselves. -/
def threadsOf (mu : MutexId) : Sharing Request.Ans T (Job D) (SharedBus D T) where
  act := act
  idle t s s' := ∃ m o, (Acquire t (s.mutex m) o ∨ Release t (s.mutex m) o) ∧
    s' = { s with mutex := Function.update s.mutex m o }
  code t j s p := ∃ (c : Call) (fuel : Nat), c.TakesBus ∧ p = unmarked (c.prog fuel) ∧
    j.depth = depthOf (s.mutex mu) t

/-! ## The rules of one call -/

structure Ghost where
  held : Nat
  cs : Level
  conf : Bool

/-- After a request that is neither of the mutex nor of the pins. -/
def Ghost.after (g : Ghost) : Ghost := { g with conf := g.conf && g.held != 0 }

theorem Ghost.after_held {g : Ghost} (h : 0 < g.held) : g.after = g := by
  obtain ⟨held, cs, conf⟩ := g
  have ne : held ≠ 0 := Nat.pos_iff_ne_zero.1 h
  simp [after, ne]

/-- The rules for a driver with CS pin `pin`, in a call begun at depth `depth`. -/
def busRules (mu : MutexId) (pin : Pin) (depth : Nat) : Rules Request.Ans Ghost where
  allowed g
    | .digitalWrite p _ => p = pin ∧ depth < g.held ∧ g.conf = true
    | .mutexLock m => m = mu
    | .mutexUnlock m => m = mu ∧ depth < g.held ∧ g.cs = .high ∧ g.conf = true
    | .spi _ => depth < g.held
    | .store f => ∀ d, (f d).cs = d.cs ∧ (f d).mutex = d.mutex
    | _ => True
  step g
    | .digitalWrite _ l, _, g' => g' = { g with cs := l }
    | .mutexLock _, _, g' => g' = { g with held := g.held + 1, conf := g.conf && g.held != 0 }
    | .mutexUnlock _, _, g' => g' = ⟨g.held - 1, .high, true⟩
    | .spi _, _, g' => g' = { g with conf := true }
    | .load, x, g' => x.cs = pin ∧ x.mutex = some mu ∧ g' = g.after
    | .mark _, _, g' => g' = g
    | _, _, g' => g' = g.after

def Request.IsCode : Request → Prop
  | .mark _ => False
  | _ => True

/-- The same rules for programs without marks. -/
def codeRules (mu : MutexId) (pin : Pin) (depth : Nat) : Rules Request.Ans Ghost where
  allowed g r := r.IsCode ∧ (busRules mu pin depth).allowed g r
  step := (busRules mu pin depth).step

section
variable {mu : MutexId} {pin : Pin} {depth : Nat} {g : Ghost}

theorem wp_unmarked {p : Prog α} {Q : α → Ghost → Prop} (h : p.wp (busRules mu pin depth) Q g) :
    (unmarked p).wp (codeRules mu pin depth) Q g := by
  induction p generalizing g with
  | ret a => exact h
  | call r k ih =>
    cases r with
    | mark m => exact ih () (h.2 () g rfl)
    | transfer | digitalWrite | digitalRead | millis | delay | mutexLock | mutexUnlock | spi |
        load | store =>
      exact ⟨⟨trivial, h.1⟩, fun x g' hg' => ih x (h.2 x g' hg')⟩
  | stuck => trivial

/-- Bus traffic moves the CS pin and nothing else. -/
theorem wp_traffic {p : Prog α} (hp : Traffic p) (held : depth < g.held) (conf : g.conf = true) :
    p.wp (busRules mu pin depth) (fun _ g' => ∃ l, g' = { g with cs := l }) g := by
  have pos : 0 < g.held := by omega
  induction hp generalizing g with
  | pure a => exact ⟨g.cs, rfl⟩
  | stuck => trivial
  | bind _ _ ihp ihf =>
    apply wp_seq (ihp held conf pos)
    rintro a g' ⟨l, rfl⟩
    apply wp_mono (ihf a (g := { g with cs := l }) held conf pos)
    rintro b g' ⟨l', rfl⟩
    exact ⟨l', rfl⟩
  | load =>
    refine ⟨trivial, ?_⟩
    rintro d g' ⟨-, -, rfl⟩
    exact ⟨g.cs, g.after_held pos⟩
  | xmitSpi | millis | delay =>
    refine ⟨trivial, ?_⟩
    rintro x g' rfl
    exact ⟨g.cs, g.after_held pos⟩
  | assertCS | deassertCS =>
    refine ⟨trivial, ?_⟩
    rintro d g' ⟨hd, -, rfl⟩
    rw [g.after_held pos]
    refine ⟨⟨hd, held, conf⟩, ?_⟩
    rintro x g'' rfl
    exact ⟨_, rfl⟩

theorem wp_deselect (held : depth < g.held) (conf : g.conf = true) :
    deselect.wp (busRules mu pin depth) (fun _ g' => g' = { g with cs := .high }) g := by
  have pos : 0 < g.held := by omega
  refine ⟨trivial, ?_⟩
  rintro d g' ⟨hd, -, rfl⟩
  rw [g.after_held pos]
  refine ⟨⟨hd, held, conf⟩, ?_⟩
  rintro x g'' rfl
  refine ⟨trivial, ?_⟩
  rintro y g''' rfl
  exact Ghost.after_held pos

theorem wp_store {f : SdspiDriver → SdspiDriver} (pos : 0 < g.held)
    (hf : ∀ d, (f d).cs = d.cs ∧ (f d).mutex = d.mutex) :
    (store f).wp (busRules mu pin depth) (fun _ g' => g' = g) g := by
  refine ⟨hf, ?_⟩
  rintro x g' rfl
  exact g.after_held pos

theorem wp_load (pos : 0 < g.held) : load.wp (busRules mu pin depth)
    (fun d g' => d.mutex = some mu ∧ g' = g) g := by
  refine ⟨trivial, ?_⟩
  rintro d g' ⟨-, hm, rfl⟩
  exact ⟨hm, g.after_held pos⟩

theorem wp_mark (k : Mark) : (mark k).wp (busRules mu pin depth) (fun _ g' => g' = g) g := by
  refine ⟨trivial, ?_⟩
  rintro x g' rfl
  rfl

theorem wp_cardPresent (pos : 0 < g.held) :
    cardPresent.wp (busRules mu pin depth) (fun _ g' => g' = g) g := by
  apply wp_seq (wp_load pos)
  rintro d g' ⟨-, rfl⟩
  split
  · refine ⟨trivial, ?_⟩
    rintro x g'' rfl
    exact Ghost.after_held pos
  · rfl

theorem wp_writeProtected (pos : 0 < g.held) :
    writeProtected.wp (busRules mu pin depth) (fun _ g' => g' = g) g := by
  apply wp_seq (wp_load pos)
  rintro d g' ⟨-, rfl⟩
  split
  · refine ⟨trivial, ?_⟩
    rintro x g'' rfl
    exact Ghost.after_held pos
  · rfl

theorem wp_lock (le : depth ≤ g.held) : lock.wp (busRules mu pin depth)
    (fun _ g' => g' = ⟨g.held + 1, g.cs, true⟩) g := by
  have taken : acquire.wp (busRules mu pin depth)
      (fun _ g' => ∃ c, g' = ⟨g.held + 1, g.cs, c⟩) g := by
    refine ⟨trivial, ?_⟩
    rintro d g' ⟨-, hm, rfl⟩
    simp only [Program.bind, hm]
    refine ⟨rfl, ?_⟩
    rintro x g'' rfl
    exact ⟨_, rfl⟩
  apply wp_seq taken
  rintro _ g' ⟨c, rfl⟩
  apply wp_seq (wp_store (Nat.succ_pos _) fun _ => ⟨rfl, rfl⟩)
  rintro _ g' rfl
  apply wp_seq (wp_load (Nat.succ_pos _))
  rintro d g' ⟨-, rfl⟩
  have above : depth < g.held + 1 := by omega
  refine ⟨above, ?_⟩
  rintro x g' rfl
  refine ⟨above, ?_⟩
  rintro x g' rfl
  refine ⟨above, ?_⟩
  rintro x g' rfl
  refine ⟨above, ?_⟩
  rintro x g' rfl
  rfl

theorem wp_unlock (held : depth < g.held) (cs : g.cs = .high) (conf : g.conf = true) :
    unlock.wp (busRules mu pin depth) (fun _ g' => g' = ⟨g.held - 1, .high, true⟩) g := by
  have pos : 0 < g.held := by omega
  apply wp_seq (wp_store pos fun _ => ⟨rfl, rfl⟩)
  rintro _ g' rfl
  apply wp_seq (wp_load pos)
  rintro d g' ⟨hm, rfl⟩
  simp only [hm]
  refine ⟨⟨rfl, held, cs, conf⟩, ?_⟩
  rintro x g'' rfl
  rfl

/-! ## The calls obey the rules -/

theorem wp_member {f : Member} {p : Prog α} {Q : Ghost → Prop}
    (hp : p.wp (busRules mu pin depth) (fun _ => Q) g) :
    (member f p).wp (busRules mu pin depth) (fun _ => Q) g := by
  apply wp_seq (wp_mark _)
  rintro _ g' rfl
  apply wp_seq hp
  intro a g'' hg''
  apply wp_seq (wp_mark _)
  rintro _ g' rfl
  exact hg''

/-- A body under `lock_guard` that leaves the card deselected gives the mutex back as
deep as it was. -/
theorem wp_lockGuard {p : Prog α} {k : Nat} (le : depth ≤ k)
    (hp : p.wp (busRules mu pin depth) (fun _ g => g = ⟨k + 1, .high, true⟩) ⟨k + 1, .high, true⟩)
    {c : Bool} : (lockGuard p).wp (busRules mu pin depth) (fun _ g => g = ⟨k, .high, true⟩)
      ⟨k, .high, c⟩ := by
  apply wp_seq (wp_lock le)
  rintro _ g rfl
  apply wp_seq hp
  rintro a g rfl
  have above : depth < k + 1 := by omega
  apply wp_seq (wp_unlock above rfl rfl)
  rintro _ g rfl
  rfl

theorem wp_conclude (ty : BYTE) {k : Nat} (lt : depth < k) {l : Level} :
    (conclude ty).wp (busRules mu pin depth) (fun _ g => g = ⟨k, .high, true⟩) ⟨k, l, true⟩ := by
  have pos : 0 < k := by omega
  apply wp_seq (wp_store pos fun _ => ⟨rfl, rfl⟩)
  rintro _ g rfl
  apply wp_seq (wp_deselect lt rfl)
  rintro _ g rfl
  apply wp_seq (P := fun _ g => g = ⟨k, .high, true⟩)
  · split <;> exact wp_store pos fun _ => ⟨rfl, rfl⟩
  rintro _ g rfl
  apply wp_seq (wp_writeProtected pos)
  rintro wp g rfl
  apply wp_seq (P := fun _ g => g = ⟨k, .high, true⟩)
  · split <;> exact wp_store pos fun _ => ⟨rfl, rfl⟩
  rintro _ g rfl
  apply wp_seq (wp_store pos fun _ => ⟨rfl, rfl⟩)
  rintro _ g rfl
  apply wp_seq (wp_load pos)
  rintro d g ⟨-, rfl⟩
  rfl

theorem wp_initializeCard (fuel : Nat) {k : Nat} (le : depth ≤ k) {c : Bool} :
    (initializeCard fuel).wp (busRules mu pin depth) (fun _ g => g = ⟨k, .high, true⟩)
      ⟨k, .high, c⟩ := by
  apply wp_member
  apply wp_lockGuard le
  apply wp_seq (wp_store (Nat.succ_pos _) fun _ => ⟨rfl, rfl⟩)
  rintro _ g rfl
  apply wp_seq (wp_cardPresent (Nat.succ_pos _))
  rintro present g rfl
  have above : depth < k + 1 := by omega
  split
  · rfl
  · apply wp_seq (wp_traffic (handshake_traffic fuel) above rfl)
    rintro ty g ⟨l, rfl⟩
    exact wp_conclude ty above

theorem wp_readLoop {fuel : Nat} {sector : DWORD} (turns : Nat) (rd count : UINT)
    (buff : List BYTE) {k : Nat} (le : depth ≤ k) {l : Level} :
    (readLoop fuel sector turns rd count buff).wp (busRules mu pin depth)
      (fun _ g => ∃ l, g = ⟨k + 1, l, true⟩) ⟨k + 1, l, true⟩ := by
  have above : depth < k + 1 := by omega
  induction turns generalizing rd count buff l with
  | zero => trivial
  | succ turns ih =>
    unfold readLoop
    split
    · exact ⟨l, rfl⟩
    · apply wp_seq (wp_traffic (sendCmd_traffic fuel _ _) above rfl)
      rintro res g ⟨l₁, rfl⟩
      split
      · apply wp_seq (wp_traffic (rcvrDatablock_traffic fuel 512) above rfl)
        rintro block g ⟨l₂, rfl⟩
        cases block with
        | some bytes => exact ih _ _ _
        | none => exact ih _ _ _
      · -- the window: the bus is given back for the recovery, with the card deselected
        apply wp_seq (wp_deselect above rfl)
        rintro _ g rfl
        apply wp_seq (wp_unlock above rfl rfl)
        rintro _ g rfl
        apply wp_seq (wp_initializeCard fuel le)
        rintro st g rfl
        apply wp_seq (wp_lock le)
        rintro _ g rfl
        exact ih _ _ _

theorem wp_read (fuel : Nat) (buff : List BYTE) (sector : DWORD) (count : UINT) {k : Nat}
    (le : depth ≤ k) {c : Bool} : (read fuel buff sector count).wp (busRules mu pin depth)
      (fun _ g => g = ⟨k, .high, true⟩) ⟨k, .high, c⟩ := by
  apply wp_member
  apply wp_lockGuard le
  apply wp_seq (wp_cardPresent (Nat.succ_pos _))
  rintro present g rfl
  apply wp_seq (wp_load (Nat.succ_pos _))
  rintro d g ⟨-, rfl⟩
  split
  · rfl
  · apply wp_seq (wp_load (Nat.succ_pos _))
    rintro d g ⟨-, rfl⟩
    apply wp_seq (wp_readLoop _ _ _ _ le)
    rintro y g ⟨l, rfl⟩
    have above : depth < k + 1 := by omega
    apply wp_seq (wp_deselect above rfl)
    rintro _ g rfl
    rfl

/-- A body that ends by bus traffic, `deselect` and its result. -/
theorem wp_transfer {p : Prog β} (hp : Traffic p) (f : β → α) {k : Nat} (lt : depth < k)
    {l : Level} : (do let x ← p; deselect; pure (f x) : Prog α).wp (busRules mu pin depth)
      (fun _ g => g = ⟨k, .high, true⟩) ⟨k, l, true⟩ := by
  apply wp_seq (wp_traffic hp lt rfl)
  rintro x g ⟨l', rfl⟩
  apply wp_seq (wp_deselect lt rfl)
  rintro _ g rfl
  rfl

theorem wp_write (fuel : Nat) (buff : List BYTE) (sector : DWORD) (count : UINT) {k : Nat}
    (le : depth ≤ k) {c : Bool} : (write fuel buff sector count).wp (busRules mu pin depth)
      (fun _ g => g = ⟨k, .high, true⟩) ⟨k, .high, c⟩ := by
  apply wp_member
  apply wp_lockGuard le
  apply wp_seq (wp_cardPresent (Nat.succ_pos _))
  rintro present g rfl
  split
  · rfl
  apply wp_seq (wp_writeProtected (Nat.succ_pos _))
  rintro wp g rfl
  split
  · rfl
  apply wp_seq (wp_load (Nat.succ_pos _))
  rintro d g ⟨-, rfl⟩
  split
  · rfl
  split
  · rfl
  apply wp_transfer _ _ (by omega)
  split
  · exact writeSingle_traffic fuel buff _ count
  · exact writeMultiple_traffic fuel buff _ count

theorem wp_ioctl (fuel : Nat) (cmd : BYTE) (dp : DWORD × DWORD) {k : Nat} (le : depth ≤ k)
    {c : Bool} : (ioctl fuel cmd dp).wp (busRules mu pin depth)
      (fun _ g => g = ⟨k, .high, true⟩) ⟨k, .high, c⟩ := by
  induction fuel generalizing cmd dp k c with
  | zero => trivial
  | succ fuel ih =>
    have above : depth < k + 1 := by omega
    apply wp_member
    apply wp_lockGuard le
    apply wp_seq (wp_load (Nat.succ_pos _))
    rintro d g ⟨-, rfl⟩
    split
    · rfl
    apply wp_seq (wp_cardPresent (Nat.succ_pos _))
    rintro present g rfl
    split
    · rfl
    have arm : (if cmd = ctrlSync then do
          let ready ← select fuel
          pure ((if ready then .ok else .error, none) : DRESULT × Option DWORD)
        else if cmd = getSectorCount then ioctlSectorCount fuel
        else if cmd = getBlockSize then ioctlBlockSize fuel
        else if cmd = ctrlEraseSector then ioctlErase fuel (ioctl fuel mmcGetCsd dp) dp
        else pure (.parerr, none)).wp (busRules mu pin depth)
        (fun _ g => ∃ l, g = ⟨k + 1, l, true⟩) ⟨k + 1, .high, true⟩ := by
      split
      · exact wp_traffic (.bind (select_traffic fuel) fun _ => .pure _) above rfl
      split
      · exact wp_traffic (ioctlSectorCount_traffic fuel) above rfl
      split
      · exact wp_traffic (ioctlBlockSize_traffic fuel) above rfl
      split
      · apply wp_seq (wp_load (Nat.succ_pos _))
        rintro d g ⟨-, rfl⟩
        split
        · exact ⟨_, rfl⟩
        -- the nested `ioctl` holds the bus once more and comes back with the card deselected
        apply wp_seq (ih _ _ (Nat.le_succ_of_le le))
        rintro got g rfl
        split
        · exact ⟨_, rfl⟩
        · apply wp_seq (wp_traffic (eraseSectors_traffic fuel _ _ _) above rfl)
          rintro res g ⟨l, rfl⟩
          exact ⟨l, rfl⟩
      · exact ⟨_, rfl⟩
    apply wp_seq arm
    rintro res g ⟨l, rfl⟩
    apply wp_seq (wp_deselect above rfl)
    rintro _ g rfl
    rfl

end

end FatFsParticle.Sdspi
