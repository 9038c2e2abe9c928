import FatFsParticle.Sdspi.Driver

/-!
# The driver on a board

One driver run by one thread. A `Board` answers for everything outside the
driver: what the other end of the bus sends back, the millisecond counter, the
levels at the input pins. Nothing is assumed of it, so a statement about every
board is a statement about every card and every passage of time. The machine
keeps the outputs the driver set and a log of what happened, newest first.
-/

namespace FatFsParticle.Sdspi
open Interact

variable {σ : Type}

/-- The world outside the driver, with states `σ`. A byte is exchanged at a level of
the driver's CS pin. -/
structure Board (σ : Type) where
  transfer : Level → BYTE → σ → BYTE × σ
  millis : σ → DWORD × σ
  delay : DWORD → σ → σ
  digitalRead : Pin → σ → Level × σ

/-- A byte exchanged (CS level, clock rate, both bytes), a clock reading, a pin
reading, or a mark with the driver's members at that moment. -/
inductive Event where
  | byte (cs : Level) (hz : DWORD) (sent got : BYTE)
  | tick (t : DWORD)
  | pin (p : Pin) (level : Level)
  | mark (m : Mark) (drv : SdspiDriver)
  deriving DecidableEq, Repr

structure Machine (σ : Type) where
  drv : SdspiDriver
  /-- What every output pin is driven to. -/
  out : Pin → Level
  /-- The rate the SPI peripheral is set to. -/
  hz : DWORD
  log : List Event
  env : σ

namespace Machine

/-- The level of the driver's own CS pin. -/
def csLevel (m : Machine σ) : Level := m.out m.drv.cs

/-- The machine answers a request. A mutex call never waits: there is one thread. -/
def handle (b : Board σ) : (r : Request) → Machine σ → r.Ans × Machine σ
  | .transfer x, m =>
    let (y, s) := b.transfer m.csLevel x m.env
    (y, { m with log := .byte m.csLevel m.hz x y :: m.log, env := s })
  | .digitalWrite p l, m => ((), { m with out := Function.update m.out p l })
  | .digitalRead p, m =>
    let (l, s) := b.digitalRead p m.env
    (l, { m with log := .pin p l :: m.log, env := s })
  | .millis, m =>
    let (t, s) := b.millis m.env
    (t, { m with log := .tick t :: m.log, env := s })
  | .delay ms, m => ((), { m with env := b.delay ms m.env })
  | .mutexLock _, m => ((), m)
  | .mutexUnlock _, m => ((), m)
  | .spi (.setClockSpeed hz), m => ((), { m with hz := hz })
  | .spi _, m => ((), m)
  | .load, m => (m.drv, m)
  | .store f, m => ((), { m with drv := f m.drv })
  | .mark k, m => ((), { m with log := .mark k m.drv :: m.log })

end Machine

/-- `p` on the board `b` from the machine `m`; `none` when its fuel runs out. -/
def exec {α : Type} (b : Board σ) (p : Prog α) (m : Machine σ) : Option (α × Machine σ) :=
  p.run (Machine.handle b) m

section
variable {α β : Type} {b : Board σ} {m m' : Machine σ}

@[simp] theorem exec_pure (a : α) : exec b (pure a) m = some (a, m) := rfl

@[simp] theorem exec_load : exec b load m = some (m.drv, m) := rfl

@[simp] theorem exec_mutexLock (k : MutexId) : exec b (mutexLock k) m = some ((), m) := rfl

@[simp] theorem exec_mutexUnlock (k : MutexId) : exec b (mutexUnlock k) m = some ((), m) := rfl

@[simp] theorem exec_digitalRead (p : Pin) :
    exec b (digitalRead p) m = some (Machine.handle b (.digitalRead p) m) := rfl

@[simp] theorem exec_millis : exec b millis m = some (Machine.handle b .millis m) := rfl

@[simp] theorem exec_xmitSpi (x : BYTE) :
    exec b (xmitSpi x) m = some (Machine.handle b (.transfer x) m) := rfl

theorem exec_bind (p : Prog α) (f : α → Prog β) :
    exec b (p >>= f) m = (exec b p m).bind fun x => exec b (f x.1) x.2 :=
  Program.run_bind _ p f m

theorem exec_bind_some {p : Prog α} {f : α → Prog β} {y : β} :
    exec b (p >>= f) m = some (y, m') ↔
      ∃ x t, exec b p m = some (x, t) ∧ exec b (f x) t = some (y, m') :=
  Program.run_bind_some

end

/-! ## A card that answers at once -/

/-- A card in the slot, with the input pins: the bytes of the command frame it has
taken in, and those of its answer still to be sent. -/
structure Scripted where
  pins : Pin → Level
  frame : List BYTE := []
  out : List BYTE := []

/-- The board of a card that answers command `i` with argument `a` by the bytes
`answer i a`, from the first byte after the frame on; no time passes. -/
def scripted (answer : BYTE → DWORD → List BYTE) : Board Scripted where
  transfer level x c :=
    match level with
    | .high => (0xFF, c)
    | .low =>
      let frame := if c.frame = [] ∧ x &&& 0xC0 ≠ 0x40 then [] else c.frame ++ [x]
      match frame with
      | [i, a₃, a₂, a₁, a₀, _] =>
        (c.out.headD 0xFF, { c with frame := [], out := answer (i &&& 0x3F) (a₃ ++ a₂ ++ a₁ ++ a₀) })
      | _ => (c.out.headD 0xFF, { c with frame := frame, out := c.out.tail })
  millis c := (0, c)
  delay _ c := c
  digitalRead p c := (c.pins p, c)

/-- The answers of an SDv2 card with block addressing. -/
def sdhcAnswer (cmd : BYTE) (_ : DWORD) : List BYTE :=
  if cmd = cmd0 ∨ cmd = cmd55 then [0x01]
  else if cmd = cmd8 then [0x01, 0x00, 0x00, 0x01, 0xAA]
  else if cmd = cmd58 then [0x00, 0xC0, 0xFF, 0x80, 0x00]
  else if cmd = cmd9 then 0x00 :: 0xFE :: List.replicate 18 0x40
  else [0x00]

end FatFsParticle.Sdspi
