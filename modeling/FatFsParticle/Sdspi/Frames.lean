import FatFsParticle.Sdspi.Tape
import FatFsParticle.Sdspi.Polite
import Mathlib.Data.List.TakeWhile

/-!
# Command frames

`frames` finds the command frames on a tape as a card does: a frame begins at the first
byte that is no filler, and has six bytes. `send_cmd` puts one frame there for its
command, behind that of CMD55 for an application command, or none.
-/

namespace FatFsParticle.Sdspi
open Interact Program

/-- Six bytes from a start bit on, what was exchanged just before them, and the filler
after them. -/
structure Frame where
  before : Option Exchange
  bytes : List Exchange
  after : List Exchange

/-- The frames of a tape, where `prev` was exchanged before it. -/
def frames (prev : Option Exchange) : List Exchange → List Frame
  | [] => []
  | x :: rest =>
    if x.sent = 0xFF then frames (some x) rest
    else
      let bytes := x :: rest.take 5
      ⟨prev, bytes, (rest.drop 5).takeWhile (·.sent == 0xFF)⟩ :: frames bytes.getLast? (rest.drop 5)
  termination_by xs => xs.length

/-- The command index and the argument in the bytes of a frame. -/
def decodeFrame : List BYTE → Option (BYTE × DWORD)
  | [i, a₃, a₂, a₁, a₀, crc] =>
    if i &&& 0xC0 = 0x40 ∧ crc &&& 1 = 1 then some (i &&& 0x3F, a₃ ++ a₂ ++ a₁ ++ a₀) else none
  | _ => none

/-! ## CRC7 -/

/-- One bit into the shift register of x⁷ + x³ + 1. -/
def crcBit (crc : BYTE) (bit : Bool) : BYTE :=
  let next := crc <<< 1 &&& 0x7F
  if crc.getLsbD 6 = bit then next else next ^^^ 0x09

/-- CRC7 over bytes, the most significant bit of each first. -/
def crc7 (bytes : List BYTE) : BYTE :=
  (bytes.flatMap fun x => (List.range 8).map fun i => x.getLsbD (7 - i)).foldl crcBit 0

/-- The sixth byte of a frame is the CRC7 of the other five and the end bit. -/
def ValidCrc (bytes : List BYTE) : Prop := bytes.drop 5 = [crc7 (bytes.take 5) <<< 1 ||| 1]

instance (bytes : List BYTE) : Decidable (ValidCrc bytes) := by
  unfold ValidCrc
  infer_instance

/-! ## Frames of a command -/

abbrev cmd10 : BYTE := 10
abbrev cmd18 : BYTE := 18
abbrev cmd23 : BYTE := 23

/-- The codes of `FatFs-SD.h`. -/
def commandCodes : List BYTE :=
  [cmd0, cmd1, acmd41, cmd8, cmd9, cmd10, cmd12, acmd13, cmd16, cmd17, cmd18, cmd23, acmd23, cmd24,
    cmd25, cmd32, cmd33, cmd38, cmd55, cmd58]

namespace Frame

def sent (f : Frame) : List BYTE := f.bytes.map Exchange.sent

/-- The frame of the command `cmd` with argument `arg`, with CS at `l`. -/
structure Bears (f : Frame) (l : Level) (cmd : BYTE) (arg : DWORD) : Prop where
  level : ∀ x ∈ f.bytes, x.cs = l
  decodes : decodeFrame f.sent = some (cmd, arg)
  crc : cmd = cmd0 ∧ arg = 0 ∨ cmd = cmd8 ∧ arg = 0x1AA → ValidCrc f.sent

/-- The card was ready just before the frame: it sent 0xFF with CS low. -/
def Ready (f : Frame) : Prop := ∃ x, f.before = some x ∧ x.cs = .low ∧ x.got = 0xFF

/-- The bytes received after the frame until CS moves, but for the one after CMD12. -/
def responses (f : Frame) (l : Level) (cmd : BYTE) : List BYTE :=
  ((f.after.takeWhile (·.cs == l)).map Exchange.got).drop (if cmd = cmd12 then 1 else 0)

/-- The frame of a command that was sent as it should be and answered by `res`. -/
structure Sound (f : Frame) (l : Level) (cmd : BYTE) (arg : DWORD) (res : BYTE) : Prop where
  bears : f.Bears l cmd arg
  ready : cmd ≠ cmd12 → f.Ready
  answer : Answer res (f.responses l cmd)

end Frame

/-- The frames a plain command may put on the tape. -/
inductive Plain (l : Level) (cmd : BYTE) (arg : DWORD) (res : BYTE) : List Frame → Prop
  | none (failed : 1 < res) : Plain l cmd arg res []
  | one {f : Frame} (sound : f.Sound l cmd arg res) : Plain l cmd arg res [f]

/-- Those of an application command: first CMD55, and the command if that was answered
0 or 1. -/
inductive Application (cmd : BYTE) (arg : DWORD) (res : BYTE) : List Frame → Prop
  | none (failed : 1 < res) : Application cmd arg res []
  | refused {f : Frame} (sound : f.Sound .low cmd55 0 res) (refused : 1 < res) :
      Application cmd arg res [f]
  | granted {f : Frame} {r : BYTE} {own : List Frame} (sound : f.Sound .low cmd55 0 r)
      (granted : r ≤ 1) (rest : Plain .low cmd arg res own) : Application cmd arg res (f :: own)

/-! ## Finding frames -/

theorem frames_idle {xs : List Exchange} (idle : Idle xs) (prev : Option Exchange)
    (ys : List Exchange) : frames prev (xs ++ ys) = frames (xs.getLast?.or prev) ys := by
  induction xs generalizing prev with
  | nil => rfl
  | cons x xs ih =>
    rw [List.cons_append, frames, if_pos (idle x List.mem_cons_self),
      ih fun y mem => idle y (List.mem_cons_of_mem x mem), List.getLast?_cons]
    cases xs.getLast? <;> rfl

theorem frames_frame {bytes : List Exchange} (six : bytes.length = 6)
    (start : ∀ x ∈ bytes.head?, x.sent ≠ 0xFF) (prev : Option Exchange) (rest : List Exchange) :
    frames prev (bytes ++ rest) =
      ⟨prev, bytes, rest.takeWhile (·.sent == 0xFF)⟩ :: frames bytes.getLast? rest := by
  match bytes, six, start with
  | [i, a, b, c, d, e], _, start =>
    simp only [List.cons_append, List.nil_append]
    rw [frames, if_neg (start i rfl)]
    rfl

theorem map_got_fillers (l : Level) (ys : List BYTE) : (fillers l ys).map Exchange.got = ys := by
  unfold fillers
  rw [List.map_map]
  exact List.map_id ys

/-! ## One packet -/

/-- The bytes of the frame of a command. -/
def frameBytes (cmd : BYTE) (arg : DWORD) : List BYTE :=
  [0x40 ||| cmd, (arg >>> 24).setWidth 8, (arg >>> 16).setWidth 8, (arg >>> 8).setWidth 8,
    arg.setWidth 8, crcByte cmd]

/-- The bytes of `frameBytes` on the tape. -/
structure Carried (l : Level) (cmd : BYTE) (arg : DWORD) (bytes : List Exchange) : Prop where
  sent : bytes.map Exchange.sent = frameBytes cmd arg
  level : ∀ x ∈ bytes, x.cs = l

theorem arg_split (arg : DWORD) : ((arg >>> 24).setWidth 8 ++ (arg >>> 16).setWidth 8 ++
    (arg >>> 8).setWidth 8 ++ arg.setWidth 8 : BitVec (8 + 8 + 8 + 8)) = arg := by
  ext i inside
  simp
  grind

theorem Carried.length {l : Level} {cmd : BYTE} {arg : DWORD} {bytes : List Exchange}
    (h : Carried l cmd arg bytes) : bytes.length = 6 := by
  rw [← List.length_map (f := Exchange.sent), h.sent]
  rfl

theorem Carried.start {l : Level} {cmd : BYTE} {arg : DWORD} {bytes : List Exchange}
    (h : Carried l cmd arg bytes) (valid : cmd &&& 0xC0 = 0) : ∀ x ∈ bytes.head?, x.sent ≠ 0xFF := by
  intro x first full
  have head := congrArg List.head? h.sent
  rw [List.head?_map, Option.mem_def.mp first] at head
  have byte : x.sent = 0x40 ||| cmd := Option.some.inj head
  have start := (start_byte valid).1
  rw [← byte, full] at start
  exact absurd start (by decide)

theorem decodeFrame_frameBytes {cmd : BYTE} (valid : cmd &&& 0xC0 = 0) (arg : DWORD) :
    decodeFrame (frameBytes cmd arg) = some (cmd, arg) := by
  have end_ : crcByte cmd &&& 1 = 1 := by
    unfold crcByte
    split
    · decide
    · split <;> decide
  simp only [frameBytes, decodeFrame]
  rw [if_pos ⟨(start_byte valid).1, end_⟩, (start_byte valid).2, arg_split]

theorem Carried.bears {l : Level} {cmd : BYTE} {arg : DWORD} {bytes : List Exchange}
    (h : Carried l cmd arg bytes) (valid : cmd &&& 0xC0 = 0) (prev : Option Exchange)
    (after : List Exchange) : Frame.Bears ⟨prev, bytes, after⟩ l cmd arg := by
  have sent : Frame.sent ⟨prev, bytes, after⟩ = frameBytes cmd arg := h.sent
  constructor
  · exact h.level
  · rw [sent]
    exact decodeFrame_frameBytes valid arg
  · rw [sent]
    rintro (⟨rfl, rfl⟩ | ⟨rfl, rfl⟩)
    · decide +kernel
    · decide +kernel

/-- What `sendPacket` puts on the tape: nothing but filler, the first of it with CS high, or
the frame, with filler before it that shows the card ready, and the answer after it. -/
inductive Packet (l : Level) (cmd : BYTE) (arg : DWORD) : BYTE → List Exchange → Prop
  | none {x : Exchange} {xs : List Exchange} (released : x.cs = .high) (idle : Idle (x :: xs)) :
      Packet l cmd arg 0xFF (x :: xs)
  | one {lead bytes : List Exchange} {ys : List BYTE} {res : BYTE} (idle : Idle lead)
      (ready : cmd ≠ cmd12 → (∃ x ∈ lead.head?, x.cs = .high) ∧
        lead.getLast? = some ⟨.low, 0xFF, 0xFF⟩)
      (carried : Carried l cmd arg bytes)
      (answer : Answer res (ys.drop (if cmd = cmd12 then 1 else 0))) :
      Packet l cmd arg res (lead ++ (bytes ++ fillers l ys))

/-- The level of CS at the bytes of a frame: `sendPacket` sets it but for CMD12. -/
def frameLevel (l : Level) (cmd : BYTE) : Level := if cmd = cmd12 then l else .low

/-- The frame and the answer, once the card is ready. -/
theorem puts_frame (l : Level) (cmd : BYTE) (arg : DWORD) :
    Puts (do
      let _ ← xmitSpi (0x40 ||| cmd)
      let _ ← xmitSpi ((arg >>> 24).setWidth 8)
      let _ ← xmitSpi ((arg >>> 16).setWidth 8)
      let _ ← xmitSpi ((arg >>> 8).setWidth 8)
      let _ ← xmitSpi (arg.setWidth 8)
      let _ ← xmitSpi (crcByte cmd)
      if cmd = cmd12 then do
        let _ ← xmitSpi 0xFF
        receiveResponse 9
      else receiveResponse 9) l fun res xs _ => ∃ bytes ys, xs = bytes ++ fillers l ys ∧
        Carried l cmd arg bytes ∧ Answer res (ys.drop (if cmd = cmd12 then 1 else 0)) := by
  have byte (x : BYTE) : Puts (xmitSpi x) l fun y xs l' => xs = [⟨l, x, y⟩] ∧ l = l' :=
    puts_xmitSpi fun y => ⟨rfl, rfl⟩
  apply puts_bind (byte _)
  rintro y₁ _ _ ⟨rfl, rfl⟩
  apply puts_bind (byte _)
  rintro y₂ _ _ ⟨rfl, rfl⟩
  apply puts_bind (byte _)
  rintro y₃ _ _ ⟨rfl, rfl⟩
  apply puts_bind (byte _)
  rintro y₄ _ _ ⟨rfl, rfl⟩
  apply puts_bind (byte _)
  rintro y₅ _ _ ⟨rfl, rfl⟩
  apply puts_bind (byte _)
  rintro y₆ _ _ ⟨rfl, rfl⟩
  have carried : Carried l cmd arg [⟨l, 0x40 ||| cmd, y₁⟩, ⟨l, (arg >>> 24).setWidth 8, y₂⟩,
      ⟨l, (arg >>> 16).setWidth 8, y₃⟩, ⟨l, (arg >>> 8).setWidth 8, y₄⟩, ⟨l, arg.setWidth 8, y₅⟩,
      ⟨l, crcByte cmd, y₆⟩] := ⟨rfl, by simp⟩
  apply puts_ite
  · intro stop
    apply puts_bind (puts_filler (Q := fun y xs l' => xs = fillers l [y] ∧ l = l')
      fun y => ⟨rfl, rfl⟩)
    rintro y₇ _ _ ⟨rfl, rfl⟩
    apply puts_mono (puts_receiveResponse 9)
    rintro res _ _ ⟨⟨ys, rfl, bound, last, first⟩, rfl⟩
    refine ⟨_, y₇ :: ys, ?_, carried, ?_⟩
    · rfl
    rw [if_pos stop]
    exact ⟨bound, first, last⟩
  · intro other
    apply puts_mono (puts_receiveResponse 9)
    rintro res _ _ ⟨⟨ys, rfl, bound, last, first⟩, rfl⟩
    refine ⟨_, ys, ?_, carried, ?_⟩
    · rfl
    rw [if_neg other]
    exact ⟨bound, first, last⟩

theorem puts_sendPacket (fuel : Nat) (cmd : BYTE) (arg : DWORD) (l : Level) :
    Puts (sendPacket fuel cmd arg) l fun res xs _ => Packet (frameLevel l cmd) cmd arg res xs := by
  unfold sendPacket
  by_cases stop : cmd = cmd12
  · rw [if_neg (not_not.mpr stop)]
    apply puts_bind (P := fun ok xs l' => ok = true ∧ xs = [] ∧ l' = l) (puts_pure ⟨rfl, rfl, rfl⟩)
    rintro _ _ _ ⟨rfl, rfl, same⟩
    rw [if_pos rfl, same]
    apply puts_mono (puts_frame l cmd arg)
    rintro res _ _ ⟨bytes, ys, rfl, carried, answer⟩
    have level : frameLevel l cmd = l := if_pos stop
    rw [level]
    exact .one nofun (fun other => absurd stop other) carried answer
  · rw [if_pos stop]
    have level : frameLevel l cmd = .low := if_neg stop
    have waited : Puts (do deselect; select fuel) l fun ok xs l' =>
        Idle xs ∧ (∃ x ∈ xs.head?, x.cs = .high) ∧
          (ok = true → l' = .low ∧ xs.getLast? = some ⟨.low, 0xFF, 0xFF⟩) := by
      apply puts_bind puts_deselect
      rintro _ _ _ ⟨y, rfl, rfl⟩
      apply puts_mono (puts_select fuel)
      rintro ok xs l' ⟨idle, ready⟩
      refine ⟨idle_append (idle_fillers _ _) idle, ⟨_, rfl, rfl⟩, ?_⟩
      intro yes
      obtain ⟨low, last⟩ := ready yes
      exact ⟨low, by rw [List.getLast?_append, last]; rfl⟩
    apply puts_bind waited
    rintro ok lead l' ⟨idle, released, ready⟩
    rw [level]
    cases ok with
    | true =>
      obtain ⟨rfl, last⟩ := ready rfl
      rw [if_pos rfl]
      apply puts_mono (puts_frame _ cmd arg)
      rintro res _ _ ⟨bytes, ys, rfl, carried, answer⟩
      exact .one idle (fun _ => ⟨released, last⟩) carried answer
    | false =>
      rw [if_neg Bool.false_ne_true]
      apply puts_pure
      rw [List.append_nil]
      cases lead with
      | nil =>
        obtain ⟨x, none, -⟩ := released
        exact nomatch none
      | cons x xs =>
        obtain ⟨y, head, high⟩ := released
        cases head
        exact .none high idle

theorem Packet.released {l : Level} {cmd : BYTE} {arg : DWORD} {res : BYTE} {xs : List Exchange}
    (packet : Packet l cmd arg res xs) (other : cmd ≠ cmd12) : ∃ x ∈ xs.head?, x.cs = .high := by
  cases packet with
  | none released idle => exact ⟨_, rfl, released⟩
  | one idle ready carried answer =>
    obtain ⟨x, head, high⟩ := (ready other).1
    refine ⟨x, ?_, high⟩
    rw [List.head?_append, Option.mem_def.mp head]
    rfl

/-- The frames of a packet with more on the tape behind it, where CS has moved. -/
theorem Packet.plain {l : Level} {cmd : BYTE} {arg : DWORD} {res : BYTE} {xs : List Exchange}
    (packet : Packet l cmd arg res xs) (valid : cmd &&& 0xC0 = 0) (prev : Option Exchange)
    {rest : List Exchange} (moved : ∀ x ∈ rest.head?, x.cs ≠ l) :
    ∃ own prev', frames prev (xs ++ rest) = own ++ frames prev' rest ∧ Plain l cmd arg res own := by
  cases packet with
  | none released idle => exact ⟨[], _, frames_idle idle _ _, .none (by decide)⟩
  | @one lead bytes ys _ idle ready carried answer =>
    rw [List.append_assoc, frames_idle idle, List.append_assoc,
      frames_frame carried.length (carried.start valid), frames_idle (idle_fillers l ys)]
    refine ⟨[_], _, rfl, .one ⟨carried.bears valid _ _, ?_, ?_⟩⟩
    · intro other
      refine ⟨⟨.low, 0xFF, 0xFF⟩, ?_, rfl, rfl⟩
      change lead.getLast?.or prev = _
      rw [(ready other).2]
      rfl
    · have apart : (rest.takeWhile (·.sent == 0xFF)).takeWhile (·.cs == l) = [] := by
        cases rest with
        | nil => rfl
        | cons x rest =>
          have other : (x.cs == l) = false := by simpa using moved x rfl
          rw [List.takeWhile_cons]
          split
          · rw [List.takeWhile_cons, other]
            rfl
          · rfl
      have heard : ((fillers l ys ++ rest).takeWhile (·.sent == 0xFF)).takeWhile (·.cs == l) =
          fillers l ys := by
        rw [List.takeWhile_append_of_pos fun x mem => by simpa using idle_fillers l ys x mem,
          List.takeWhile_append_of_pos, apart, List.append_nil]
        intro x mem
        obtain ⟨y, -, rfl⟩ := List.mem_map.mp mem
        exact beq_self_eq_true l
      unfold Frame.responses
      rw [heard, map_got_fillers]
      exact answer

theorem Packet.plain_last {l : Level} {cmd : BYTE} {arg : DWORD} {res : BYTE} {xs : List Exchange}
    (packet : Packet l cmd arg res xs) (valid : cmd &&& 0xC0 = 0) (prev : Option Exchange) :
    Plain l cmd arg res (frames prev xs) := by
  have moved : ∀ x ∈ ([] : List Exchange).head?, x.cs ≠ l := nofun
  obtain ⟨own, prev', found, plain⟩ := packet.plain valid prev moved
  rw [List.append_nil] at found
  rw [found, frames, List.append_nil]
  exact plain

/-! ## send_cmd -/

theorem puts_sendCmd (fuel : Nat) {cmd : BYTE} (arg : DWORD) (l : Level)
    (valid : (cmd &&& 0x7F) &&& 0xC0 = 0) (app : cmd &&& 0x80 ≠ 0 → cmd &&& 0x7F ≠ cmd12) :
    Puts (sendCmd fuel cmd arg) l fun res xs _ => ∀ prev,
      (cmd &&& 0x80 = 0 → Plain (frameLevel l cmd) cmd arg res (frames prev xs)) ∧
      (cmd &&& 0x80 ≠ 0 → Application (cmd &&& 0x7F) arg res (frames prev xs)) := by
  unfold sendCmd
  apply puts_bind (puts_waitReady fuel 10)
  rintro _ xs _ ⟨polled, rfl⟩
  apply puts_ite
  · intro announced
    apply puts_bind (puts_waitReady fuel 10)
    rintro _ ys _ ⟨polled', rfl⟩
    apply puts_bind (puts_sendPacket fuel cmd55 0 _)
    intro r zs l' first
    have first : Packet .low cmd55 0 r zs := first
    apply puts_ite
    · intro refused
      apply puts_pure
      intro prev
      refine ⟨fun plain => absurd plain announced, fun _ => ?_⟩
      rw [List.append_nil, frames_idle polled.idle, frames_idle polled'.idle]
      have own := first.plain_last (by decide) (ys.getLast?.or (xs.getLast?.or prev))
      generalize frames (ys.getLast?.or (xs.getLast?.or prev)) zs = fs at own
      cases own with
      | none failed => exact .none failed
      | one sound => exact .refused sound refused
    · intro granted
      apply puts_mono (puts_sendPacket fuel _ arg l')
      intro res ws _ second prev
      refine ⟨fun plain => absurd plain announced, fun _ => ?_⟩
      have other := app announced
      have level : frameLevel l' (cmd &&& 0x7F) = .low := if_neg other
      rw [level] at second
      obtain ⟨x, head, high⟩ := second.released other
      have moved : ∀ y ∈ ws.head?, y.cs ≠ .low := by
        intro y mem low
        cases Option.mem_unique mem head
        rw [high] at low
        cases low
      rw [frames_idle polled.idle, frames_idle polled'.idle]
      obtain ⟨own, prev', found, plain⟩ := first.plain (by decide) (ys.getLast?.or (xs.getLast?.or prev)) moved
      rw [found]
      cases plain with
      | none failed => exact absurd failed granted
      | one sound =>
        exact .granted sound (BitVec.not_lt.mp granted) (second.plain_last valid prev')
  · intro plain
    have plain : cmd &&& 0x80 = 0 := not_not.mp plain
    have same : cmd &&& 0x7F = cmd := by
      revert cmd
      decide
    apply puts_mono (puts_sendPacket fuel cmd arg _)
    intro res zs _ packet prev
    refine ⟨fun _ => ?_, fun announced => absurd plain announced⟩
    rw [frames_idle polled.idle]
    exact packet.plain_last (same ▸ valid) _

theorem commandCodes_valid {cmd : BYTE} (code : cmd ∈ commandCodes) :
    (cmd &&& 0x7F) &&& 0xC0 = 0 ∧ (cmd &&& 0x80 ≠ 0 → cmd &&& 0x7F ≠ cmd12) := by
  revert cmd
  decide

/-- What a card sees of a call of `send_cmd`: one frame for its command, while CS is low
and right after the card sent 0xFF, and R1 as the result, or no frame and a result greater
than 1; for an application command behind a frame of CMD55 that was answered 0 or 1. The
frame of CMD12 goes out at the level that CS has. -/
theorem sendCmd_frames {σ : Type} {b : Board σ} {m m' : Machine σ} {fuel : Nat} {cmd res : BYTE}
    {arg : DWORD} (code : cmd ∈ commandCodes)
    (run : exec b (sendCmd fuel cmd arg) m = some (res, m')) :
    (cmd &&& 0x80 = 0 →
      Plain (frameLevel m.csLevel cmd) cmd arg res (frames none (tapeSince m m'))) ∧
    (cmd &&& 0x80 ≠ 0 → Application (cmd &&& 0x7F) arg res (frames none (tapeSince m m'))) := by
  obtain ⟨valid, app⟩ := commandCodes_valid code
  obtain ⟨new, log, put⟩ := puts_sendCmd fuel arg m.csLevel valid app σ b m m' res rfl run
  rw [tapeSince_eq log]
  exact put none

/-- An SDHC card that is sent ACMD41. -/
theorem sendCmd_frames_acmd41 :
    let board := scripted sdhcAnswer
    let start : Machine Scripted :=
      ⟨{ cs := 10 }, fun _ => .high, 400000, [], { pins := fun _ => .high }⟩
    ∃ m', exec board (sendCmd 1 acmd41 (1 <<< 30)) start = some (0, m') ∧
      Application 41 (1 <<< 30) 0 (frames none (tapeSince start m')) := by
  intro board start
  have result : (exec board (sendCmd 1 acmd41 (1 <<< 30)) start).map (·.1) = some 0 := by
    decide +kernel
  obtain ⟨⟨res, m'⟩, run, rfl⟩ := Option.map_eq_some_iff.mp result
  exact ⟨m', run, (sendCmd_frames (by decide) run).2 (by decide)⟩

end FatFsParticle.Sdspi
