import FatFsParticle.Diskio
import FatFsParticle.Interact.Program

/-!
# The bus half of `SDSPIDriver`

The requests the driver makes of the board, its data members, and the member
functions that exchange bytes with a card: `wait_ready`, `select`, `send_cmd`
and the two data-block helpers. A polling loop takes `fuel`, the number of
turns it may make; a run that needs more is stuck.
-/

namespace FatFsParticle.Sdspi
open Interact

inductive Level where
  | low | high
  deriving DecidableEq, Repr

abbrev Pin := BitVec 16
abbrev MutexId := Nat

/-- The data members of `SDSPIDriver`; `mutex` is `none` for a null `_mutex`. -/
structure SdspiDriver where
  cs : Pin
  cd : Pin := 0
  cdEnabled : Bool := false
  cdActiveState : Level := .high
  wp : Pin := 0
  wpEnabled : Bool := false
  wpActiveState : Level := .low
  highSpeedClock : DWORD := 15000000
  lowSpeedClock : DWORD := 400000
  activeClock : DWORD := 400000
  mutex : Option MutexId := none
  status : DSTATUS := staNoinit
  cardType : BYTE := 0
  busy : Bool := false
  busyCheck : Bool := false
  deriving DecidableEq, Repr

/-- The calls `setSPI` makes on the `SPIClass` object. -/
inductive SpiCall where
  | begin (cs : Pin)
  | setClockSpeed (hz : DWORD)
  | setDataMode
  | setBitOrder
  deriving DecidableEq, Repr

/-- The public member functions that reach the card or the status byte. -/
inductive Member where
  | initializeCard | status | read | write | ioctl
  deriving DecidableEq, Repr

/-- Where a run is: at the start or at the end of a member function. -/
inductive Mark where
  | enter (f : Member)
  | leave (f : Member)
  deriving DecidableEq, Repr

/-- What the driver asks of the board. `load` and `store` are accesses to its
own members; an `ATOMIC_BLOCK` is one `store`. `mark` is no code: it notes in
the log where a member function begins and ends. -/
inductive Request where
  | transfer (b : BYTE)
  | digitalWrite (pin : Pin) (level : Level)
  | digitalRead (pin : Pin)
  | millis
  | delay (ms : DWORD)
  | mutexLock (m : MutexId)
  | mutexUnlock (m : MutexId)
  | spi (c : SpiCall)
  | load
  | store (f : SdspiDriver → SdspiDriver)
  | mark (m : Mark)

abbrev Request.Ans : Request → Type
  | transfer _ => BYTE
  | digitalRead _ => Level
  | millis => DWORD
  | load => SdspiDriver
  | _ => Unit

abbrev Prog := Program Request.Ans

def ask (r : Request) : Prog r.Ans := Program.request r

def load : Prog SdspiDriver := ask .load
def store (f : SdspiDriver → SdspiDriver) : Prog Unit := ask (.store f)
def digitalWrite (pin : Pin) (level : Level) : Prog Unit := ask (.digitalWrite pin level)
def digitalRead (pin : Pin) : Prog Level := ask (.digitalRead pin)
def millis : Prog DWORD := ask .millis
def delay (ms : DWORD) : Prog Unit := ask (.delay ms)
def mutexLock (m : MutexId) : Prog Unit := ask (.mutexLock m)
def mutexUnlock (m : MutexId) : Prog Unit := ask (.mutexUnlock m)
def spi (c : SpiCall) : Prog Unit := ask (.spi c)
def mark (m : Mark) : Prog Unit := ask (.mark m)

/-- `p` as the body of the member function `f`. -/
def member {α : Type} (f : Member) (p : Prog α) : Prog α := do
  mark (.enter f)
  let a ← p
  mark (.leave f)
  pure a

/-! ## Commands -/

abbrev cmd0 : BYTE := 0
abbrev cmd1 : BYTE := 1
abbrev acmd41 : BYTE := 0x80 + 41
abbrev cmd8 : BYTE := 8
abbrev cmd9 : BYTE := 9
abbrev cmd12 : BYTE := 12
abbrev acmd13 : BYTE := 0x80 + 13
abbrev cmd16 : BYTE := 16
abbrev cmd17 : BYTE := 17
abbrev acmd23 : BYTE := 0x80 + 23
abbrev cmd24 : BYTE := 24
abbrev cmd25 : BYTE := 25
abbrev cmd32 : BYTE := 32
abbrev cmd33 : BYTE := 33
abbrev cmd38 : BYTE := 38
abbrev cmd55 : BYTE := 55
abbrev cmd58 : BYTE := 58

/-! ## TimeoutChecker -/

structure TimeoutChecker where
  start : DWORD
  duration : DWORD
  end_ : DWORD
  deriving DecidableEq, Repr

/-- `operator int()` at the tick `now`. -/
def TimeoutChecker.expiredAt (t : TimeoutChecker) (now : DWORD) : Bool :=
  if t.start < t.end_ then decide (t.end_ < now) else decide (t.end_ < now) && decide (now < t.start)

def TimeoutChecker.expired (t : TimeoutChecker) : Prog Bool := do
  let now ← millis
  pure (t.expiredAt now)

/-- The constructor and `start()`: both set `_start` to the current tick. -/
def TimeoutChecker.begin (duration : DWORD) : Prog TimeoutChecker := do
  let now ← millis
  pure ⟨now, duration, now + duration⟩

/-! ## Bytes -/

def xmitSpi (b : BYTE) : Prog BYTE := ask (.transfer b)

/-- `xmit_spi_multi`: the answers are thrown away. -/
def xmitSpiMulti : List BYTE → Prog Unit
  | [] => pure ()
  | b :: bs => do
    let _ ← xmitSpi b
    xmitSpiMulti bs

/-- `rcvr_spi_multi`: 0xFF is sent for every byte received. -/
def rcvrSpiMulti : Nat → Prog (List BYTE)
  | 0 => pure []
  | n + 1 => do
    let b ← xmitSpi 0xFF
    let bs ← rcvrSpiMulti n
    pure (b :: bs)

def assertCS : Prog Unit := do
  let d ← load
  digitalWrite d.cs .low

def deassertCS : Prog Unit := do
  let d ← load
  digitalWrite d.cs .high

def deselect : Prog Unit := do
  deassertCS
  let _ ← xmitSpi 0xFF
  pure ()

/-- The `do … while` of `wait_ready`: the last byte received. -/
def waitReadyLoop (timeout : TimeoutChecker) : Nat → Prog BYTE
  | 0 => .stuck
  | fuel + 1 => do
    let d ← xmitSpi 0xFF
    if d = 0xFF then pure d
    else do
      let late ← timeout.expired
      if late then pure d else waitReadyLoop timeout fuel

def waitReady (fuel : Nat) (wt : UINT) : Prog Bool := do
  let timeout ← TimeoutChecker.begin wt
  let d ← waitReadyLoop timeout fuel
  pure (d == 0xFF)

def select (fuel : Nat) : Prog Bool := do
  assertCS
  let _ ← xmitSpi 0xFF
  let ready ← waitReady fuel 100
  if ready then pure true
  else do
    deselect
    pure false

/-- `do { res = xmit_spi(0xFF); } while ((res & 0x80) && --n);` with `n + 1` in `n`. -/
def receiveResponse : Nat → Prog BYTE
  | 0 => xmitSpi 0xFF
  | n + 1 => do
    let res ← xmitSpi 0xFF
    if res &&& 0x80 ≠ 0 then receiveResponse n else pure res

def crcByte (cmd : BYTE) : BYTE :=
  if cmd = cmd8 then 0x87 else if cmd = cmd0 then 0x95 else 0x01

/-- The part of `send_cmd` after the `CMD55` of an application command. -/
def sendPacket (fuel : Nat) (cmd : BYTE) (arg : DWORD) : Prog BYTE := do
  let selected ← (if cmd ≠ cmd12 then do
      deselect
      select fuel
    else pure true)
  if selected then do
    let _ ← xmitSpi (0x40 ||| cmd)
    let _ ← xmitSpi ((arg >>> 24).setWidth 8)
    let _ ← xmitSpi ((arg >>> 16).setWidth 8)
    let _ ← xmitSpi ((arg >>> 8).setWidth 8)
    let _ ← xmitSpi (arg.setWidth 8)
    let _ ← xmitSpi (crcByte cmd)
    if cmd = cmd12 then do
      let _ ← xmitSpi 0xFF
      receiveResponse 9
    else receiveResponse 9
  else pure 0xFF

/-- `send_cmd`. Its one recursive call, `send_cmd(CMD55, 0)`, is written out. -/
def sendCmd (fuel : Nat) (cmd : BYTE) (arg : DWORD) : Prog BYTE := do
  let _ ← waitReady fuel 10
  if cmd &&& 0x80 ≠ 0 then do
    let _ ← waitReady fuel 10
    let res ← sendPacket fuel cmd55 0
    if 1 < res then pure res else sendPacket fuel (cmd &&& 0x7F) arg
  else sendPacket fuel cmd arg

/-! ## Data blocks -/

/-- `xmit_datablock`, sending the first 512 bytes of `buff`. -/
def xmitDatablock (fuel : Nat) (buff : List BYTE) (token : BYTE) : Prog Bool := do
  let ready ← waitReady fuel 100
  if ready then do
    let _ ← xmitSpi token
    if token ≠ 0xFD then do
      xmitSpiMulti (buff.take 512)
      let _ ← xmitSpi 0xFF
      let _ ← xmitSpi 0xFF
      let resp ← xmitSpi 0xFF
      pure (resp &&& 0x1F == 0x05)
    else pure true
  else pure false

/-- The `do … while` of `rcvr_datablock`: the last byte received. -/
def waitToken (timeout : TimeoutChecker) : Nat → Prog BYTE
  | 0 => .stuck
  | fuel + 1 => do
    let token ← xmitSpi 0xFF
    if token = 0xFF then do
      let late ← timeout.expired
      if late then pure token else waitToken timeout fuel
    else pure token

/-- `rcvr_datablock`: `none` for a return value of 0, else the bytes stored. -/
def rcvrDatablock (fuel : Nat) (btr : Nat) : Prog (Option (List BYTE)) := do
  let timeout ← TimeoutChecker.begin 200
  let token ← waitToken timeout fuel
  if token = 0xFE then do
    let bytes ← rcvrSpiMulti btr
    let _ ← xmitSpi 0xFF
    pure (some bytes)
  else pure none

/-! ## Bus ownership -/

def setSPI : Prog Unit := do
  let d ← load
  spi (.begin d.cs)
  spi (.setClockSpeed d.activeClock)
  spi .setDataMode
  spi .setBitOrder

/-- `if (_mutex != nullptr) _mutex->lock();` -/
def acquire : Prog Unit := do
  let d ← load
  match d.mutex with
  | some m => mutexLock m
  | none => pure ()

/-- `if (_mutex != nullptr) _mutex->unlock();` -/
def release : Prog Unit := do
  let d ← load
  match d.mutex with
  | some m => mutexUnlock m
  | none => pure ()

def lock : Prog Unit := do
  acquire
  store fun d => { d with busy := true, busyCheck := true }
  setSPI

def unlock : Prog Unit := do
  store fun d => { d with busy := false }
  release

/-- A body under `std::lock_guard`. -/
def lockGuard {α : Type} (p : Prog α) : Prog α := do
  lock
  let a ← p
  unlock
  pure a

end FatFsParticle.Sdspi
