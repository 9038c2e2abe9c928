import FatFsParticle.Sdspi.Bus

/-!
# The public half of `SDSPIDriver`

`initialize`, `status`, `read`, `write` and `ioctl` as the header computes
them, with the setters of the clock limits. `LOG` calls are left out; the
clock readings made only to decide whether to log are kept.
-/

namespace FatFsParticle.Sdspi
open Interact

def cardPresent : Prog Bool := do
  let d ← load
  if d.cdEnabled then do
    let level ← digitalRead d.cd
    pure (level == d.cdActiveState)
  else pure true

def writeProtected : Prog Bool := do
  let d ← load
  if d.wpEnabled then do
    let level ← digitalRead d.wp
    pure (level == d.wpActiveState)
  else pure false

def activateLowSpeed : Prog Unit := store fun d => { d with activeClock := d.lowSpeedClock }
def activateHighSpeed : Prog Unit := store fun d => { d with activeClock := d.highSpeedClock }

def highSpeedClock (clock : DWORD) : Prog Unit := store fun d => { d with highSpeedClock := clock }
def lowSpeedClock (clock : DWORD) : Prog Unit := store fun d => { d with lowSpeedClock := clock }

/-! ## initialize -/

/-- `for (n = 0; n < 200; n++) { delay(1); send_cmd(CMD0, 0); }` with 200 for `n`. -/
def goIdle (fuel : Nat) : Nat → Prog Unit
  | 0 => pure ()
  | n + 1 => do
    delay 1
    let _ ← sendCmd fuel cmd0 0
    goIdle fuel n

/-- `while (!timeout && send_cmd(cmd, arg));`, telling which of the two ended it:
`true` when the card answered 0. The code does not look. -/
def pollUntilZero (fuel : Nat) (timeout : TimeoutChecker) (cmd : BYTE) (arg : DWORD) :
    Nat → Prog Bool
  | 0 => .stuck
  | turns + 1 => do
    let late ← timeout.expired
    if late then pure false
    else do
      let res ← sendCmd fuel cmd arg
      if res = 0 then pure true else pollUntilZero fuel timeout cmd arg turns

/-- The branch of `initialize` after CMD8 was answered 1: the value of `ty`. -/
def identifySdv2 (fuel : Nat) (timeout : TimeoutChecker) : Prog BYTE := do
  let _ ← xmitSpi 0xFF
  let _ ← xmitSpi 0xFF
  let ocr2 ← xmitSpi 0xFF
  let ocr3 ← xmitSpi 0xFF
  if ocr2 = 0x01 ∧ ocr3 = 0xAA then do
    let _ ← pollUntilZero fuel timeout acmd41 (1 <<< 30) fuel
    let late ← timeout.expired
    let ready ← (if late then pure false
      else do
        let res ← sendCmd fuel cmd58 0
        pure (res == 0))
    if ready then do
      let ocr0 ← xmitSpi 0xFF
      let _ ← xmitSpi 0xFF
      let _ ← xmitSpi 0xFF
      let _ ← xmitSpi 0xFF
      pure (if ocr0 &&& 0x40 ≠ 0 then ctSd2 ||| ctBlock else ctSd2)
    else do
      let _ ← timeout.expired
      pure 0
  else pure 0

/-- The branch of `initialize` for a card that is not SDv2: the value of `ty`. -/
def identifySdv1 (fuel : Nat) (timeout : TimeoutChecker) : Prog BYTE := do
  let res ← sendCmd fuel acmd41 0
  let ty := if res ≤ 1 then ctSd1 else ctMmc
  let cmd := if res ≤ 1 then acmd41 else cmd1
  let _ ← pollUntilZero fuel timeout cmd 0 fuel
  let late ← timeout.expired
  let rejected ← (if !late then pure true
    else do
      let res ← sendCmd fuel cmd16 512
      pure (res != 0))
  pure (if rejected then 0 else ty)

/-- The part of `initialize` that computes `ty`, with its last look at the clock. -/
def identify (fuel : Nat) (timeout : TimeoutChecker) : Prog BYTE := do
  let res ← sendCmd fuel cmd0 0
  if res = 1 then do
    let timeout ← TimeoutChecker.begin timeout.duration
    let res ← sendCmd fuel cmd8 0x1AA
    let ty ← (if res = 1 then identifySdv2 fuel timeout else identifySdv1 fuel timeout)
    let _ ← timeout.expired
    pure ty
  else do
    let _ ← timeout.expired
    pure 0

/-- The commands `initialize` sends to a card that is there: the value of `ty`. -/
def handshake (fuel : Nat) : Prog BYTE := do
  let _ ← rcvrSpiMulti 10
  let timeout ← TimeoutChecker.begin 1000
  goIdle fuel 200
  identify fuel timeout

/-- The end of `initialize`, from `_cardType = ty` on. -/
def conclude (ty : BYTE) : Prog DSTATUS := do
  store fun d => { d with cardType := ty }
  deselect
  (if ty ≠ 0 then store fun d => { d with status := d.status &&& ~~~staNoinit }
    else store fun d => { d with status := staNoinit })
  let wp ← writeProtected
  (if !wp then store fun d => { d with status := d.status ||| staProtect }
    else store fun d => { d with status := d.status &&& ~~~staProtect })
  activateHighSpeed
  let d ← load
  pure d.status

def initializeCard (fuel : Nat) : Prog DSTATUS := member .initializeCard <| lockGuard do
  activateLowSpeed
  let present ← cardPresent
  if !present then pure staNodisk
  else do
    let ty ← handshake fuel
    conclude ty

/-! ## status -/

def status : Prog DSTATUS := member .status do
  let present ← cardPresent
  (if !present then store fun d => { d with status := staNodisk }
  else do
    let wp ← writeProtected
    if wp then store fun d => { d with status := d.status ||| staProtect }
      else store fun d => { d with status := d.status &&& ~~~staProtect })
  let d ← load
  pure d.status

/-! ## read -/

/-- `bytes` written over `buff` from the offset `off` on. -/
def blit (buff : List BYTE) (off : Nat) (bytes : List BYTE) : List BYTE :=
  buff.take off ++ bytes ++ buff.drop (off + bytes.length)

/-- The `while (count != 0)` of `read`: the final `count` and the buffer. -/
def readLoop (fuel : Nat) (sector : DWORD) :
    Nat → UINT → UINT → List BYTE → Prog (UINT × List BYTE)
  | 0, _, _, _ => .stuck
  | turns + 1, read, count, buff =>
    if count = 0 then pure (count, buff)
    else do
      let res ← sendCmd fuel cmd17 sector
      if res = 0 then do
        let block ← rcvrDatablock fuel 512
        match block with
        | some bytes =>
          readLoop fuel sector turns (read + 1) (count - 1) (blit buff (512 * read).toNat bytes)
        | none => readLoop fuel sector turns read count buff
      else do
        deselect
        unlock
        let _ ← initializeCard fuel
        lock
        readLoop fuel sector turns read count buff

/-- LBA to byte address for byte addressing cards. -/
def cardAddress (cardType : BYTE) (sector : DWORD) : DWORD :=
  if cardType &&& ctBlock = 0 then sector * 512 else sector

/-- `read` returns its result and what it leaves in `buff`. -/
def read (fuel : Nat) (buff : List BYTE) (sector : DWORD) (count : UINT) :
    Prog (DRESULT × List BYTE) := member .read <| lockGuard do
  let present ← cardPresent
  let d ← load
  if !present || d.status &&& staNoinit != 0 then pure (.notrdy, buff)
  else do
    let d ← load
    let (count, buff) ← readLoop fuel (cardAddress d.cardType sector) fuel 0 count buff
    deselect
    pure (if count ≠ 0 then .error else .ok, buff)

/-! ## write -/

/-- The `do … while (--count)` of `write`: the final `count`. -/
def writeBlocks (fuel : Nat) : Nat → UINT → List BYTE → Prog UINT
  | 0, _, _ => .stuck
  | turns + 1, count, buff => do
    let ok ← xmitDatablock fuel buff 0xFC
    if !ok then pure count
    else if count - 1 = 0 then pure (count - 1)
    else writeBlocks fuel turns (count - 1) (buff.drop 512)

/-- Single sector write: the final `count`. -/
def writeSingle (fuel : Nat) (buff : List BYTE) (sector : DWORD) (count : UINT) : Prog UINT := do
  let res ← sendCmd fuel cmd24 sector
  if res = 0 then do
    let ok ← xmitDatablock fuel buff 0xFE
    pure (if ok then 0 else count)
  else pure count

/-- Multiple sector write: the final `count`. -/
def writeMultiple (fuel : Nat) (buff : List BYTE) (sector : DWORD) (count : UINT) : Prog UINT := do
  let d ← load
  (if d.cardType &&& ctSdc ≠ 0 then do
    let _ ← sendCmd fuel acmd23 count
    pure ()
  else pure ())
  let res ← sendCmd fuel cmd25 sector
  if res = 0 then do
    let count ← writeBlocks fuel fuel count buff
    let ok ← xmitDatablock fuel [] 0xFD
    pure (if ok then count else 1)
  else pure count

def write (fuel : Nat) (buff : List BYTE) (sector : DWORD) (count : UINT) : Prog DRESULT :=
  member .write <| lockGuard do
    let present ← cardPresent
    if !present then pure .error
    else do
      let wp ← writeProtected
      if wp then pure .wrprt
      else do
        let d ← load
        if d.status &&& staNoinit ≠ 0 then pure .notrdy
        else if d.status &&& staProtect ≠ 0 then pure .wrprt
        else do
          let addr := cardAddress d.cardType sector
          let count ← (if count = 1 then writeSingle fuel buff addr count
            else writeMultiple fuel buff addr count)
          deselect
          pure (if count ≠ 0 then .error else .ok)

/-! ## ioctl -/

/-- Byte `i` of a register, as an `int`. -/
def regByte (csd : List BYTE) (i : Nat) : Nat := (csd.getD i 0).toNat

/-- The capacity `GET_SECTOR_COUNT` stores. The shift count `n - 9` of the second
branch is negative, which C leaves undefined, only when `READ_BL_LEN` is below 7. -/
def sectorCount (csd : List BYTE) : DWORD :=
  if regByte csd 0 >>> 6 = 1 then
    BitVec.ofNat 32 (regByte csd 9 + (regByte csd 8 <<< 8) + ((regByte csd 7 &&& 63) <<< 16) + 1) <<< 10
  else
    let n := (regByte csd 5 &&& 15) + ((regByte csd 10 &&& 128) >>> 7) + ((regByte csd 9 &&& 3) <<< 1) + 2
    let csize := (regByte csd 8 >>> 6) + (regByte csd 7 <<< 2) + ((regByte csd 6 &&& 3) <<< 10) + 1
    BitVec.ofNat 32 csize <<< (n - 9)

/-- What `GET_BLOCK_SIZE` stores for SDv1 cards. The shift count is negative, which C
leaves undefined, only when the two low bits of `WRITE_BL_LEN` are 0. -/
def blockSizeSd1 (csd : List BYTE) : DWORD :=
  BitVec.ofNat 32 (((regByte csd 10 &&& 63) <<< 1) + ((regByte csd 11 &&& 128) >>> 7) + 1) <<<
    ((regByte csd 13 >>> 6) - 1)

/-- What `GET_BLOCK_SIZE` stores for MMC cards. -/
def blockSizeMmc (csd : List BYTE) : DWORD :=
  BitVec.ofNat 32 ((((regByte csd 10 &&& 124) >>> 2) + 1) *
    (((regByte csd 11 &&& 3) <<< 3) + ((regByte csd 11 &&& 224) >>> 5) + 1))

/-- `(send_cmd(CMD9, 0) == 0) && rcvr_datablock(csd, 16)`: the register, if read. -/
def readCsd (fuel : Nat) : Prog (Option (List BYTE)) := do
  let res ← sendCmd fuel cmd9 0
  if res = 0 then rcvrDatablock fuel 16 else pure none

/-- The block size of an SDv2 card out of its SD status, if read. -/
def readSdStatus (fuel : Nat) : Prog (Option DWORD) := do
  let res ← sendCmd fuel acmd13 0
  if res = 0 then do
    let _ ← xmitSpi 0xFF
    let block ← rcvrDatablock fuel 16
    match block with
    | some csd => do
      let _ ← rcvrSpiMulti (64 - 16)
      pure (some (16 <<< (regByte csd 10 >>> 4)))
    | none => pure none
  else pure none

/-- A chain of commands joined by `&&`: whether all were answered 0. -/
def sendCmds (fuel : Nat) : List (BYTE × DWORD) → Prog Bool
  | [] => pure true
  | (cmd, arg) :: rest => do
    let res ← sendCmd fuel cmd arg
    if res = 0 then sendCmds fuel rest else pure false

/-- The end of `CTRL_ERASE_SECTOR`, once `csd` is there. -/
def eraseSectors (fuel : Nat) (csd : List BYTE) (st ed : DWORD) : Prog DRESULT := do
  if regByte csd 0 >>> 6 = 0 ∧ regByte csd 10 &&& 0x40 = 0 then pure .error
  else do
    let d ← load
    let accepted ← sendCmds fuel
      [(cmd32, cardAddress d.cardType st), (cmd33, cardAddress d.cardType ed), (cmd38, 0)]
    if accepted then do
      let ready ← waitReady fuel 30000
      pure (if ready then .ok else .error)
    else pure .error

/-- The arm `GET_BLOCK_SIZE` of `ioctl`. -/
def ioctlBlockSize (fuel : Nat) : Prog (DRESULT × Option DWORD) := do
  let d ← load
  if d.cardType &&& ctSd2 ≠ 0 then do
    let size ← readSdStatus fuel
    pure (if size.isSome then .ok else .error, size)
  else do
    let csd ← readCsd fuel
    let d ← load
    match csd with
    | some csd =>
      pure (.ok, some (if d.cardType &&& ctSd1 ≠ 0 then blockSizeSd1 csd else blockSizeMmc csd))
    | none => pure (.error, none)

/-- The arm `GET_SECTOR_COUNT` of `ioctl`. -/
def ioctlSectorCount (fuel : Nat) : Prog (DRESULT × Option DWORD) := do
  let csd ← readCsd fuel
  match csd with
  | some csd => pure (.ok, some (sectorCount csd))
  | none => pure (.error, none)

/-- The arm `CTRL_ERASE_SECTOR` of `ioctl`, where `nested` is `ioctl(MMC_GET_CSD, csd)`.
It stores nothing in the local array `csd`, and never returns `RES_OK`. -/
def ioctlErase (fuel : Nat) (nested : Prog (DRESULT × Option DWORD)) (dp : DWORD × DWORD) :
    Prog (DRESULT × Option DWORD) := do
  let d ← load
  if d.cardType &&& ctSdc = 0 then pure (.error, none)
  else do
    let got ← nested
    if got.1 ≠ .ok then pure (.error, none)
    else do
      let res ← eraseSectors fuel [] dp.1 dp.2
      pure (res, none)

/-- `ioctl`, with the words `dp[0]` and `dp[1]` at `buff` before the call, returns
its result and the word it stored through `buff`, if any. -/
def ioctl : Nat → BYTE → DWORD × DWORD → Prog (DRESULT × Option DWORD)
  | 0, _, _ => .stuck
  | fuel + 1, cmd, dp => member .ioctl <| lockGuard do
    let d ← load
    if d.status &&& staNoinit ≠ 0 then pure (.notrdy, none)
    else do
      let present ← cardPresent
      if !present then pure (.notrdy, none)
      else do
        let res ← (if cmd = ctrlSync then do
            let ready ← select fuel
            pure (if ready then .ok else .error, none)
          else if cmd = getSectorCount then ioctlSectorCount fuel
          else if cmd = getBlockSize then ioctlBlockSize fuel
          else if cmd = ctrlEraseSector then ioctlErase fuel (ioctl fuel mmcGetCsd dp) dp
          else pure (.parerr, none))
        deselect
        pure res

end FatFsParticle.Sdspi
