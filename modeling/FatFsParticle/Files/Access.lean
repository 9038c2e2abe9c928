import FatFsParticle.Files.Volume

/-!
# The file functions of `ff.c`

`f_open`, `f_read`, `f_write`, `f_sync`, `f_close` and `f_lseek` for FAT volumes, with
the sector buffer of the file object. A loop over sectors makes at most as many turns
as there are bytes, so its bound is one it cannot use up. `FA_CREATE_ALWAYS` keeps the
timestamps aside.
-/

namespace FatFsParticle.Files
open Interact Cells

variable {Name : Type} [DecidableEq Name]

/-! ## The table of open objects -/

/-- `chk_lock` for `acc` 0 or 1. -/
def chkLock (v : Volume Name) (n : Name) (acc : Bool) : FRESULT :=
  if v.ctr n = 0 then if v.entries < fsLock then .ok else .tooManyOpenFiles
  else if acc ∨ v.ctr n = 0x100 then .locked else .ok

/-- `enq_lock`. -/
def enqLock (v : Volume Name) : Bool := v.entries < fsLock

/-- `inc_lock` on the entry `f` of `n`: `none` where it returns 0. -/
def incLock (v : Volume Name) (n : Name) (f : Node) (acc : Bool) : Option (Volume Name) :=
  if f.ctr = 0 ∧ v.entries = fsLock then none
  else if acc ∧ f.ctr ≠ 0 then none
  else some { v.setNode n { f with ctr := if acc then 0x100 else f.ctr + 1 } with
    entries := if f.ctr = 0 then v.entries + 1 else v.entries }

/-- `dec_lock`. -/
def decLock (v : Volume Name) (n : Name) : Volume Name :=
  match v.node n with
  | none => v
  | some f =>
    let ctr := if f.ctr = 0x100 then 0 else f.ctr - 1
    { v.setNode n { f with ctr := ctr } with
      entries := if ctr = 0 then v.entries - 1 else v.entries }

/-! ## f_open -/

/-- A file object that is not open. -/
def FIL.blank (n : Name) : FIL Name where
  name := n
  attached := false
  csize := 1
  flag := 0
  err := .ok
  fptr := 0
  objsize := 0
  clusters := 0
  sect := none
  buf _ := 0

/-- A file object of `n` as `f_open` fills it in from the directory entry `f`. -/
def FIL.opened (n : Name) (csize : Nat) (f : Node) (mode : BYTE) : FIL Name where
  name := n
  attached := true
  csize := csize
  flag := mode
  err := .ok
  fptr := 0
  objsize := f.size.toNat
  clusters := f.clusters
  sect := none
  buf _ := 0

/-- Whether the open may change the file. -/
def wantsWrite (mode : BYTE) : Bool := mode &&& ~~~faRead != 0

/-- The entry of a new file. -/
def Node.created (scrap : Nat → BYTE) : Node where
  attr := amArc
  size := 0
  clusters := 0
  data := scrap
  ctr := 0
  disk := none

/-- `dir_register`, and what `f_open` puts into the new entry: all of it into the window. -/
def dirRegister (n : Name) : Prog Name FRESULT := do
  let res ← ask (.dirRegister n)
  if res = .ok then do
    store fun v => v.setNode n (.created v.scrap)
    pure .ok
  else pure res

/-- `move_window` for directories or the FAT, on the way to something else: it may have
written the entry of `n` that was in the window, also where it fails. -/
def moveOn (n : Name) : Prog Name Unit := do
  let v ← load
  if v.pending n then do
    let written ← ask (.window n)
    if written then store fun v => v.enter n else pure ()
  else pure ()

/-- The entry of an existing file emptied in the window, its chain removed. -/
def truncate (n : Name) (f : Node) : Prog Name FRESULT := do
  store fun v => v.setNode n { f with attr := amArc, size := 0, clusters := 0 }
  if f.clusters ≠ 0 then do
    let res ← ask (.removeChain n)
    -- the FAT takes the place of the entry in the window
    store fun v => if res = .ok then v.enter n else v
    pure res
  else pure .ok

/-- `f_open` after the path was followed with result `res`, up to the lock on the file:
the result and the mode. -/
def createOrOpen (n : Name) (mode : BYTE) (res : FRESULT) : Prog Name (FRESULT × BYTE) := do
  let v ← load
  if mode &&& (faCreateAlways ||| faOpenAlways ||| faCreateNew) ≠ 0 then
    if res ≠ .ok then do
      let res ← (if res = .noFile then
          if enqLock v then dirRegister n else pure .tooManyOpenFiles
        else pure res)
      pure (res, mode ||| faCreateAlways)
    else match v.node n with
      | none => pure (.intErr, mode)
      | some f =>
        if f.attr &&& (amRdo ||| amDir) ≠ 0 then pure (.denied, mode)
        else if mode &&& faCreateNew ≠ 0 then pure (.exist, mode)
        else if mode &&& faCreateAlways ≠ 0 then do
          let res ← truncate n f
          pure (res, mode)
        else pure (.ok, mode)
  else if res ≠ .ok then pure (res, mode)
  else match v.node n with
    | none => pure (.intErr, mode)
    | some f =>
      if f.attr &&& amDir ≠ 0 then pure (.noFile, mode)
      else if mode &&& faWrite ≠ 0 ∧ f.attr &&& amRdo ≠ 0 then pure (.denied, mode)
      else pure (.ok, mode)

/-- The loop that follows the cluster chain to the end of the file. -/
def followChain (n : Name) : Nat → Prog Name FRESULT
  | 0 => pure .ok
  | k + 1 => do
    let f ← ask (.getFat n)
    match f with
    | some f => pure f.result
    | none => followChain n k

/-- The seek of `FA_SEEKEND`. -/
def seekEnd (fp : FIL Name) : Prog Name (FRESULT × FIL Name) := do
  if fp.has faSeekend ∧ 0 < fp.objsize then do
    let fp := { fp with fptr := fp.objsize }
    let res ← followChain fp.name ((fp.objsize - 1) / fp.bcs)
    if res ≠ .ok then pure (res, fp)
    else if fp.objsize % ss = 0 then pure (.ok, fp)
    else if fp.clusters * fp.bcs < fp.objsize then pure (.intErr, fp)
    else do
      let read ← ask (.diskRead fp.name)
      let v ← load
      if read then
        pure (.ok, { fp with
          sect := some (fp.objsize / ss)
          buf := fun i => v.data fp.name (fp.objsize / ss * ss + i) })
      else pure (.diskErr, { fp with sect := some (fp.objsize / ss) })
  else pure (.ok, fp)

/-- `f_open` from where the path was followed with the result `path`. -/
def openFound (n : Name) (mode : BYTE) (path : FRESULT) : Prog Name (FRESULT × FIL Name) := do
  let v ← load
  let res := if path ≠ .ok then path
    else if (v.node n).isNone then .noFile else chkLock v n (wantsWrite mode)
  let (res, mode) ← createOrOpen n mode res
  if res ≠ .ok then pure (res, .blank n)
  else do
    let mode := if mode &&& faCreateAlways ≠ 0 then mode ||| faModified else mode
    let v ← load
    match v.node n with
    | none => pure (.intErr, .blank n)
    | some f =>
      match incLock v n f (wantsWrite mode) with
      | none => pure (.intErr, .blank n)
      | some v' => do
        store fun _ => v'
        let (res, fp) ← seekEnd (.opened n (v.csize n) f mode)
        pure (res, if res ≠ .ok then { fp with attached := false } else fp)

/-- `f_open` returns its result and the file object. -/
def fOpen (n : Name) (mode : BYTE) : Prog Name (FRESULT × FIL Name) :=
  noted .open_ n (fun r => (r.1, 0)) do
    let mode := mode &&& 0x3F
    let res ← ask (.findVolume n)
    if res ≠ .ok then pure (res, .blank n)
    else do
      let path ← ask (.followPath n)
      -- for the path, and for the chain that `seekEnd` follows
      moveOn n
      openFound n mode path.1

/-! ## The sector buffer -/

/-- `validate`. -/
def validate (fp : FIL Name) : Prog Name FRESULT :=
  if fp.attached then ask (.validate fp.name) else pure .invalidObject

/-- `validate`, then the error that an earlier call left. -/
def check (fp : FIL Name) : Prog Name FRESULT := do
  let res ← validate fp
  pure (if res ≠ .ok then res else fp.err)

/-- `count` sectors from the bytes `bytes` written at `off`. -/
def diskWrite (n : Name) (off : Nat) (bytes : List BYTE) (count : Nat) : Prog Name Bool := do
  let failed ← ask (.diskWrite n count)
  match failed with
  | none => do
    store fun v => v.writeData n off bytes
    pure true
  | some k => do
    store fun v => v.writeData n off (bytes.take (k * ss))
    pure false

/-- Write-back of a dirty sector buffer. -/
def writeBack (fp : FIL Name) : Prog Name (FRESULT × FIL Name) :=
  match fp.has faDirty, fp.sect with
  | true, some s => do
    let ok ← diskWrite fp.name (s * ss) (slice fp.buf 0 ss) 1
    pure (if ok then (.ok, fp.clear faDirty) else (.diskErr, fp))
  | _, _ => pure (.ok, fp)

/-- The buffer filled with the sector `s` of the file. -/
def fill (fp : FIL Name) (s : Nat) : Prog Name (FRESULT × FIL Name) := do
  let ok ← ask (.diskRead fp.name)
  let v ← load
  pure (if ok then (.ok, { fp with buf := fun i => v.data fp.name (s * ss + i) }) else (.diskErr, fp))

/-- The cluster that `fptr` is at the top of, for reading. -/
def followCluster (fp : FIL Name) : Prog Name FRESULT := do
  if fp.fptr = 0 then pure (if fp.clusters = 0 then .intErr else .ok)
  else do
    let f ← ask (.getFat fp.name)
    moveOn fp.name
    match f with
    | some f => pure f.result
    | none => pure (if fp.fptr < fp.clusters * fp.bcs then .ok else .intErr)

/-- `cc`, the sectors transferred at once: those of `n` bytes, up to the end of the cluster. -/
def cc (fp : FIL Name) (n : Nat) : Nat :=
  let csect := fp.fptr / ss % fp.csize
  if fp.csize < csect + n / ss then fp.csize - csect else n / ss

/-! ## f_read -/

/-- What the buffer and the disk together hold. -/
def FIL.view (fp : FIL Name) (data : Nat → BYTE) (i : Nat) : BYTE :=
  if fp.has faDirty ∧ fp.sect = some (i / ss) then fp.buf (i % ss) else data i

/-- The part of a turn of the loop of `f_read` within the buffered sector. -/
def readBuffer (fp : FIL Name) (btr : Nat) : List BYTE :=
  slice fp.buf (fp.fptr % ss) (min (ss - fp.fptr % ss) btr)

/-- A turn of the loop of `f_read`: the bytes it stored. -/
def readTurn (fp : FIL Name) (btr : Nat) : Prog Name (FRESULT × FIL Name × List BYTE) := do
  if fp.fptr % ss ≠ 0 then pure (.ok, fp, readBuffer fp btr)
  else do
    let res ← (if fp.fptr / ss % fp.csize = 0 then followCluster fp else pure .ok)
    if res ≠ .ok then pure (res, fp, [])
    else if btr / ss ≠ 0 then do
      let ok ← ask (.diskRead fp.name)
      let v ← load
      -- a dirty buffer takes the place of its sector in the bytes read
      pure (if ok then (.ok, fp, slice (fp.view (v.data fp.name)) fp.fptr (cc fp btr * ss))
        else (.diskErr, fp, []))
    else if fp.sect ≠ some (fp.fptr / ss) then do
      let (res, fp) ← writeBack fp
      if res ≠ .ok then pure (res, fp, [])
      else do
        let (res, fp) ← fill fp (fp.fptr / ss)
        if res ≠ .ok then pure (res, fp, [])
        else do
          let fp := { fp with sect := some (fp.fptr / ss) }
          pure (.ok, fp, readBuffer fp btr)
    else pure (.ok, fp, readBuffer fp btr)

/-- `ABORT`. -/
def FIL.abort (fp : FIL Name) (res : FRESULT) : FIL Name := { fp with err := res }

def readLoop : Nat → FIL Name → Nat → List BYTE → Prog Name (FRESULT × FIL Name × List BYTE)
  | 0, fp, _, got => pure (.ok, fp, got)
  | turns + 1, fp, btr, got =>
    if btr = 0 then pure (.ok, fp, got)
    else do
      let (res, fp, bytes) ← readTurn fp btr
      if res ≠ .ok then pure (res, fp.abort res, got)
      else readLoop turns { fp with fptr := fp.fptr + bytes.length } (btr - bytes.length) (got ++ bytes)

/-- `f_read` returns its result, the file object and the bytes it stored, `*br` of them. -/
def fRead (fp : FIL Name) (btr : Nat) : Prog Name (FRESULT × FIL Name × List BYTE) :=
  noted .read fp.name (fun r => (r.1, r.2.2.length)) do
    let res ← check fp
    if res ≠ .ok then pure (res, fp, [])
    else if !fp.has faRead then pure (.denied, fp, [])
    else
      let btr := min btr (fp.objsize - fp.fptr)
      readLoop btr fp btr []

/-! ## f_write -/

/-- The cluster that `fptr` is at the top of, for writing; the chain is stretched where it
ends. `none`: the disk is full. -/
def stretchCluster (fp : FIL Name) : Prog Name (Option FRESULT × FIL Name) := do
  if fp.fptr < fp.clusters * fp.bcs then
    if fp.fptr = 0 then pure (some .ok, fp)
    else do
      let f ← ask (.getFat fp.name)
      moveOn fp.name
      pure (some (f.elim .ok Fault.result), fp)
  else do
    let c ← ask (.createChain fp.name)
    match c with
    | .done => do
      store fun v => v.stretch fp.name
      pure (some .ok, { fp with clusters := fp.clusters + 1 })
    | .full => do
      -- the whole FAT went through the window
      store fun v => v.enter fp.name
      pure (none, fp)
    | .fault f => do
      moveOn fp.name
      pure (some f.result, fp)

/-- The part of a turn of the loop of `f_write` within the buffered sector: the file object
and how many bytes it took. -/
def writeBuffer (fp : FIL Name) (bytes : List BYTE) : FIL Name × Nat :=
  let n := min (ss - fp.fptr % ss) bytes.length
  ({ fp with buf := put fp.buf (fp.fptr % ss) (bytes.take n) }.set faDirty, n)

/-- The buffer refilled if it holds one of the `count` sectors written from `fptr` on. -/
def refill (fp : FIL Name) (piece : List BYTE) (count : Nat) : FIL Name :=
  match fp.sect with
  | some s =>
    if fp.fptr / ss ≤ s ∧ s - fp.fptr / ss < count then
      { fp with buf := fun i => piece.getD ((s - fp.fptr / ss) * ss + i) 0 }.clear faDirty
    else fp
  | none => fp

/-- Whole sectors written directly. -/
def writeSectors (fp : FIL Name) (bytes : List BYTE) :
    Prog Name (Option FRESULT × FIL Name × Nat) := do
  let count := cc fp bytes.length
  let piece := bytes.take (count * ss)
  let ok ← diskWrite fp.name fp.fptr piece count
  if ok then
    pure (some .ok, refill fp piece count, piece.length)
  else pure (some .diskErr, fp, 0)

/-- A turn of the loop of `f_write`: how many bytes it took. -/
def writeTurn (fp : FIL Name) (bytes : List BYTE) : Prog Name (Option FRESULT × FIL Name × Nat) := do
  if fp.fptr % ss ≠ 0 then
    let (fp, n) := writeBuffer fp bytes
    pure (some .ok, fp, n)
  else do
    let (res, fp) ← (if fp.fptr / ss % fp.csize = 0 then stretchCluster fp else pure (some .ok, fp))
    if res ≠ some .ok then pure (res, fp, 0)
    else do
      let (res, fp) ← writeBack fp
      if res ≠ .ok then pure (some res, fp, 0)
      else if bytes.length / ss ≠ 0 then writeSectors fp bytes
      else do
        let (res, fp) ← (if fp.sect ≠ some (fp.fptr / ss) ∧ fp.fptr < fp.objsize then
            fill fp (fp.fptr / ss)
          else pure (.ok, fp))
        if res ≠ .ok then pure (some res, fp, 0)
        else
          let (fp, n) := writeBuffer { fp with sect := some (fp.fptr / ss) } bytes
          pure (some .ok, fp, n)

def writeLoop : Nat → FIL Name → List BYTE → Nat → Prog Name (FRESULT × FIL Name × Nat)
  | 0, fp, _, bw => pure (.ok, fp.set faModified, bw)
  | turns + 1, fp, bytes, bw =>
    if bytes = [] then pure (.ok, fp.set faModified, bw)
    else do
      let (res, fp, n) ← writeTurn fp bytes
      match res with
      | none => pure (.ok, fp.set faModified, bw)
      | some .ok =>
        let fptr := fp.fptr + n
        writeLoop turns { fp with fptr := fptr, objsize := max fptr fp.objsize } (bytes.drop n) (bw + n)
      | some res => pure (res, fp.abort res, bw)

/-- `f_write` returns its result, the file object and `*bw`. -/
def fWrite (fp : FIL Name) (bytes : List BYTE) : Prog Name (FRESULT × FIL Name × Nat) :=
  noted .write fp.name (fun r => (r.1, r.2.2)) do
    let res ← check fp
    if res ≠ .ok then pure (res, fp, 0)
    else if !fp.has faWrite then pure (.denied, fp, 0)
    else
      let bytes := if fp.fptr + bytes.length < 2 ^ 32 then bytes else bytes.take (0xFFFFFFFF - fp.fptr)
      writeLoop bytes.length fp bytes 0

/-! ## f_sync and f_close -/

/-- The end of `f_sync`, from the directory entry on. Where `sync_fs` cannot write it, the
entry waits in the window. -/
def syncEntry (fp : FIL Name) : Prog Name (FRESULT × FIL Name) := do
  let ok ← ask (.moveWindow fp.name)
  if !ok then pure (.diskErr, fp)
  else do
    store fun v => v.record fp.name fp.objsize fp.clusters
    let failed ← ask (.syncFs fp.name)
    store fun v => if failed = some false then v else v.enter fp.name
    pure (if failed.isNone then .ok else .diskErr, fp.clear faModified)

def fSync (fp : FIL Name) : Prog Name (FRESULT × FIL Name) :=
  noted .sync fp.name (fun r => (r.1, 0)) do
    let res ← validate fp
    if res ≠ .ok then pure (res, fp)
    else if !fp.has faModified then pure (.ok, fp)
    else do
      let (res, fp) ← writeBack fp
      if res ≠ .ok then pure (res, fp) else syncEntry fp

def fClose (fp : FIL Name) : Prog Name (FRESULT × FIL Name) :=
  noted .close fp.name (fun r => (r.1, 0)) do
    let (res, fp) ← fSync fp
    if res ≠ .ok then pure (res, fp)
    else do
      let res ← validate fp
      if res ≠ .ok then pure (res, fp)
      else do
        store fun v => decLock v fp.name
        pure (.ok, { fp with attached := false })

/-! ## f_lseek -/

/-- The chain followed by a cluster, or stretched in write mode. -/
def seekCluster (fp : FIL Name) : Prog Name (Option FRESULT × FIL Name) := do
  if fp.has faWrite then stretchCluster fp
  else do
    let res ← followCluster fp
    pure (some res, fp)

/-- The loop of `f_lseek` over clusters, with `fptr` at the top of one and `ofs` to go. -/
def seekLoop : Nat → FIL Name → Nat → Prog Name (FRESULT × FIL Name × Nat)
  | 0, fp, ofs => pure (.ok, fp, ofs)
  | turns + 1, fp, ofs =>
    if ofs ≤ fp.bcs then pure (.ok, fp, ofs)
    else do
      let (res, next) ← seekCluster { fp with fptr := fp.fptr + fp.bcs }
      match res with
      | none => pure (.ok, fp, fp.bcs)
      | some .ok => seekLoop turns next (ofs - fp.bcs)
      | some res => pure (res, fp, ofs)

/-- The sector that `fptr` is inside of, put into the buffer. -/
def seekSector (fp : FIL Name) : Prog Name (FRESULT × FIL Name) := do
  if fp.fptr % ss ≠ 0 ∧ fp.sect ≠ some (fp.fptr / ss) then
    let (res, fp) ← writeBack fp
    if res ≠ .ok then pure (res, fp)
    else do
      let (res, fp) ← fill fp (fp.fptr / ss)
      pure (res, if res ≠ .ok then fp else { fp with sect := some (fp.fptr / ss) })
  else pure (.ok, fp)

/-- The end of `f_lseek`, with `fptr` where it goes. -/
def seekDone (fp : FIL Name) : Prog Name (FRESULT × FIL Name) := do
  let (res, fp) ← seekSector fp
  if res ≠ .ok then pure (res, fp.abort res)
  else pure (.ok, if fp.objsize < fp.fptr then { fp with objsize := fp.fptr }.set faModified else fp)

/-- `ofs` bytes on from the top of a cluster. -/
def seekFrom (fp : FIL Name) (ofs : Nat) : Prog Name (FRESULT × FIL Name) := do
  let (res, fp, ofs) ← seekLoop (ofs / fp.bcs) fp ofs
  if res ≠ .ok then pure (res, fp.abort res)
  else seekDone { fp with fptr := fp.fptr + ofs }

def fLseek (fp : FIL Name) (ofs : Nat) : Prog Name (FRESULT × FIL Name) :=
  noted .lseek fp.name (fun r => (r.1, 0)) do
    let res ← check fp
    if res ≠ .ok then pure (res, fp)
    else
      let ofs := if fp.objsize < ofs ∧ !fp.has faWrite then fp.objsize else ofs
      let top := (fp.fptr - 1) / fp.bcs * fp.bcs
      if ofs = 0 then seekDone { fp with fptr := 0 }
      else if 0 < fp.fptr ∧ (fp.fptr - 1) / fp.bcs ≤ (ofs - 1) / fp.bcs then
        seekFrom { fp with fptr := top } (ofs - top)
      else if fp.clusters ≠ 0 then seekFrom { fp with fptr := 0 } ofs
      else do
        let (res, fp) ← stretchCluster { fp with fptr := 0 }
        match res with
        | none => seekDone fp
        | some .ok => seekFrom fp ofs
        | some res => pure (res, fp.abort res)

end FatFsParticle.Files
