import FatFsParticle.Sdspi.Frames
import FatFsParticle.Interact.Logic

/-!
# What a listener makes out

Somebody who follows the log hears the command frames that the driver sends and the
data blocks that come in: `listen`. A block is a token and 512 bytes in one go, with no
look at the clock in between. `Ear` is the machine with that knowledge; its `rules`
allow CMD17 with certain arguments only, so they can be used at every moment of a run.
-/

namespace FatFsParticle.Sdspi
open Interact Program

/-- `frame`: the bytes sent of a command frame that is going out. `commands`: those sent
so far, newest first. `burst`: what came in since the last event that is no byte.
`blocks`: how many data blocks have come in. -/
structure Hearing where
  frame : List BYTE := []
  commands : List (BYTE × DWORD) := []
  burst : List BYTE := []
  blocks : Nat := 0
  deriving DecidableEq, Repr

namespace Hearing

/-- A byte `x` goes out: the frame then, and the command it completes. -/
def sends (x : BYTE) : List BYTE → List BYTE × Option (BYTE × DWORD)
  | [] => (if x = 0xFF then [] else [x], none)
  | frame => if frame.length = 5 then ([], decodeFrame (frame ++ [x])) else (frame ++ [x], none)

/-- The bytes received in one go are a start token and a sector. -/
def Block (burst : List BYTE) : Prop := burst.length = 513 ∧ burst.head? = some 0xFE

instance (burst : List BYTE) : Decidable (Block burst) := by
  unfold Block
  infer_instance

def byte (x y : BYTE) (h : Hearing) : Hearing where
  frame := (sends x h.frame).1
  commands := (sends x h.frame).2.toList ++ h.commands
  burst := h.burst ++ [y]
  blocks := if Block (h.burst ++ [y]) then h.blocks + 1 else h.blocks

/-- Something other than a byte is logged. -/
def pause (h : Hearing) : Hearing := { h with burst := [] }

end Hearing

def Event.told : Event → Hearing → Hearing
  | .byte _ _ x y, h => h.byte x y
  | _, h => h.pause

def listen : List Event → Hearing
  | [] => {}
  | e :: older => e.told (listen older)

/-- What is heard since the log of `m`. -/
def heardSince {σ : Type} (m m' : Machine σ) : Hearing :=
  listen (m'.log.take (m'.log.length - m.log.length))

section
variable {σ : Type} {m m' : Machine σ}

theorem heardSince_eq {new : List Event} (h : m'.log = new ++ m.log) :
    heardSince m m' = listen new := by
  simp [heardSince, h]

/-- What was heard stays heard. -/
theorem listen_commands {c : BYTE × DWORD} {older : List Event} (h : c ∈ (listen older).commands)
    (newer : List Event) : c ∈ (listen (newer ++ older)).commands := by
  induction newer with
  | nil => exact h
  | cons e newer ih =>
    cases e with
    | byte => exact List.mem_append_right _ ih
    | tick | pin | mark => exact ih

end

/-! ## Frames on the tape -/

/-- The frame and the commands after the bytes of a tape. -/
def Hearing.overTape (frame : List BYTE) (commands : List (BYTE × DWORD)) :
    List Exchange → List BYTE × List (BYTE × DWORD)
  | [] => (frame, commands)
  | x :: xs =>
    overTape (sends x.sent frame).1 ((sends x.sent frame).2.toList ++ commands) xs

theorem overTape_append (frame : List BYTE) (commands : List (BYTE × DWORD))
    (xs ys : List Exchange) : Hearing.overTape frame commands (xs ++ ys) =
      Hearing.overTape (Hearing.overTape frame commands xs).1 (Hearing.overTape frame commands xs).2 ys := by
  induction xs generalizing frame commands with
  | nil => rfl
  | cons x xs ih => exact ih _ _

theorem listen_tape (log : List Event) :
    ((listen log).frame, (listen log).commands) = Hearing.overTape [] [] (tape log) := by
  induction log with
  | nil => rfl
  | cons e older ih =>
    have split : tape (e :: older) = tape older ++ tape [e] := tape_append [e] older
    rw [split, overTape_append, ← ih]
    cases e <;> rfl

/-- A frame that breaks off is no command. -/
theorem decodeFrame_short {bytes : List BYTE} (short : bytes.length ≠ 6) :
    decodeFrame bytes = none := by
  unfold decodeFrame
  split
  · exact absurd rfl short
  · rfl

theorem overTape_frames (prev : Option Exchange) (commands : List (BYTE × DWORD))
    (xs : List Exchange) : (Hearing.overTape [] commands xs).2 =
      ((frames prev xs).filterMap fun f => decodeFrame f.sent).reverse ++ commands := by
  induction prev, xs using frames.induct generalizing commands with
  | case1 prev => simp [frames, Hearing.overTape]
  | case2 prev x rest filler ih =>
    have idle : Hearing.sends x.sent [] = ([], none) := by simp [Hearing.sends, filler]
    rw [frames, if_pos filler, Hearing.overTape, idle]
    exact ih commands
  | case3 prev x rest start bytes ih =>
    have begun : Hearing.sends x.sent [] = ([x.sent], none) := by
      rw [Hearing.sends, if_neg start]
    rw [frames, if_neg start, Hearing.overTape, begun]
    dsimp only [bytes] at ih ⊢
    clear bytes
    rcases rest with - | ⟨a, - | ⟨b, - | ⟨c, - | ⟨d, - | ⟨e, rest⟩⟩⟩⟩⟩
    case cons.cons.cons.cons.cons =>
      have whole : Hearing.overTape [x.sent] commands (a :: b :: c :: d :: e :: rest) =
          Hearing.overTape [] ((decodeFrame [x.sent, a.sent, b.sent, c.sent, d.sent, e.sent]).toList ++
            commands) rest := rfl
      change (Hearing.overTape [x.sent] commands _).2 = _
      rw [whole]
      have later := ih ((decodeFrame [x.sent, a.sent, b.sent, c.sent, d.sent, e.sent]).toList ++ commands)
      refine Eq.trans later ?_
      simp only [List.filterMap_cons, Frame.sent, List.take_succ_cons, List.take_zero,
        List.drop_succ_cons, List.drop_zero, List.map_cons, List.map_nil]
      cases decodeFrame [x.sent, a.sent, b.sent, c.sent, d.sent, e.sent] <;> simp
    all_goals simp [Hearing.overTape, Hearing.sends, frames, Frame.sent, decodeFrame]

/-- The commands heard are the frames that a card finds. -/
theorem listen_frames (log : List Event) : (listen log).commands.reverse =
    (frames none (tape log)).filterMap fun f => decodeFrame f.sent := by
  have heard : (listen log).commands = (Hearing.overTape [] [] (tape log)).2 :=
    congrArg Prod.snd (listen_tape log)
  rw [heard, overTape_frames none, List.append_nil, List.reverse_reverse]

/-! ## The machine and its listener -/

structure Ear where
  drv : SdspiDriver
  heard : Hearing

/-- Any answer may come to a request. CMD17 may go out where `P` holds of its argument. -/
def Ear.rules (P : DWORD → Prop) : Rules Request.Ans Ear where
  allowed e
    | .transfer x => ∀ arg, decodeFrame (e.heard.frame ++ [x]) = some (cmd17, arg) → P arg
    | _ => True
  step e
    | .transfer x, y, e' => e' = { e with heard := e.heard.byte x y }
    | .load, d, e' => d = e.drv ∧ e' = e
    | .store f, _, e' => e' = { e with drv := f e.drv }
    | .millis, _, e' | .digitalRead _, _, e' | .mark _, _, e' =>
      e' = { e with heard := e.heard.pause }
    | _, _, e' => e' = e

section
variable {σ α β : Type} {b : Board σ} {base : List Event} {m m' : Machine σ} {e : Ear}
  {P : DWORD → Prop}

/-- `e` has heard the machine `m` since its log was `base`, and CMD17 as allowed. -/
structure Hears (P : DWORD → Prop) (base : List Event) (m : Machine σ) (e : Ear) : Prop where
  drv : e.drv = m.drv
  log : ∃ new, m.log = new ++ base ∧ listen new = e.heard
  right : ∀ arg, (cmd17, arg) ∈ e.heard.commands → P arg

theorem Hears.start (m : Machine σ) : Hears P m.log m ⟨m.drv, {}⟩ :=
  ⟨rfl, ⟨[], rfl, rfl⟩, nofun⟩

theorem Hears.byte (h : Hears P base m e) {cs : Level} {hz : DWORD} {x y : BYTE} {s : σ}
    (allowed : (Ear.rules P).allowed e (.transfer x)) :
    Hears P base { m with log := .byte cs hz x y :: m.log, env := s }
      { e with heard := e.heard.byte x y } := by
  obtain ⟨new, log, told⟩ := h.log
  refine ⟨h.drv, ⟨.byte cs hz x y :: new, by rw [log]; rfl, congrArg (Hearing.byte x y) told⟩, ?_⟩
  intro arg mem
  rcases List.mem_append.1 mem with mem | mem
  · apply allowed
    unfold Hearing.sends at mem
    split at mem
    · simp at mem
    · split at mem
      · simpa using mem
      · simp at mem
  · exact h.right arg mem

theorem Hears.pause (h : Hears P base m e) {ev : Event} {s : σ} (quiet : ev.exchange = none) :
    Hears P base { m with log := ev :: m.log, env := s } { e with heard := e.heard.pause } := by
  obtain ⟨new, log, told⟩ := h.log
  refine ⟨h.drv, ⟨ev :: new, by rw [log]; rfl, ?_⟩, h.right⟩
  rw [← told]
  cases ev with
  | byte => cases quiet
  | tick | pin | mark => rfl

theorem ear_simulates (P : DWORD → Prop) (b : Board σ) (base : List Event) :
    Simulates (Machine.handle b) (Ear.rules P) (Hears P base) := by
  intro m e h r allowed
  cases r with
  | transfer x => exact ⟨_, rfl, h.byte allowed⟩
  | load => exact ⟨e, ⟨h.drv.symm, rfl⟩, h⟩
  | store f => exact ⟨_, rfl, congrArg f h.drv, h.log, h.right⟩
  | digitalWrite | delay | mutexLock | mutexUnlock => exact ⟨e, rfl, h.drv, h.log, h.right⟩
  | spi c => cases c <;> exact ⟨e, rfl, h.drv, h.log, h.right⟩
  | digitalRead | millis | mark => exact ⟨_, rfl, h.pause rfl⟩

end

namespace Ear

variable {α β : Type} {P : DWORD → Prop} {K : BYTE × DWORD → Prop} {e e' e'' : Ear}
  {i j k : Nat}

/-! ## Single requests -/

theorem wp_load {Q : SdspiDriver → Ear → Prop} (h : Q e.drv e) : load.wp (rules P) Q e := by
  refine ⟨trivial, ?_⟩
  rintro d e' ⟨rfl, rfl⟩
  exact h

theorem wp_millis {Q : DWORD → Ear → Prop} (h : ∀ t, Q t { e with heard := e.heard.pause }) :
    millis.wp (rules P) Q e := by
  refine ⟨trivial, ?_⟩
  rintro t e' rfl
  exact h t

theorem wp_xmitSpi {x : BYTE} {Q : BYTE → Ear → Prop}
    (allowed : ∀ arg, decodeFrame (e.heard.frame ++ [x]) = some (cmd17, arg) → P arg)
    (h : ∀ y, Q y { e with heard := e.heard.byte x y }) : (xmitSpi x).wp (rules P) Q e := by
  refine ⟨allowed, ?_⟩
  rintro y e' rfl
  exact h y

/-! ## Programs between frames -/

/-- Begun and ended between frames, the commands `cs` sent in between, newest first, and
at most `j` bytes in one go at the end. -/
structure Said (cs : List (BYTE × DWORD)) (j : Nat) (e e' : Ear) : Prop where
  frame : e'.heard.frame = []
  commands : e'.heard.commands = cs ++ e.heard.commands
  blocks : e'.heard.blocks = e.heard.blocks
  burst : e'.heard.burst.length ≤ j

theorem said_refl (frame : e.heard.frame = []) (burst : e.heard.burst.length ≤ i) :
    Said [] i e e := ⟨frame, rfl, rfl, burst⟩

theorem Said.trans {cs cs' : List (BYTE × DWORD)} (h : Said cs i e e') (h' : Said cs' j e' e'') :
    Said (cs' ++ cs) j e e'' :=
  ⟨h'.frame, by rw [h'.commands, h.commands, List.append_assoc], h'.blocks.trans h.blocks, h'.burst⟩

theorem Said.weaken {cs : List (BYTE × DWORD)} (h : Said cs i e e') (le : i ≤ j) : Said cs j e e' :=
  ⟨h.frame, h.commands, h.blocks, Nat.le_trans h.burst le⟩

/-- Begun between frames with at most `i` bytes in one go, `p` sends no commands but those
of `K`, takes in no block and ends with at most `j`. -/
def Chats (P : DWORD → Prop) (K : BYTE × DWORD → Prop) (i j : Nat) (p : Prog α) : Prop :=
  ∀ e : Ear, e.heard.frame = [] → e.heard.burst.length ≤ i →
    p.wp (rules P) (fun _ e' => ∃ cs, Said cs j e e' ∧ ∀ c ∈ cs, K c) e

namespace Chats

theorem pure (a : α) (le : i ≤ j) : Chats P K i j (pure a) := by
  intro e frame burst
  exact ⟨[], said_refl frame (Nat.le_trans burst le), nofun⟩

theorem stuck : Chats P K i j (.stuck : Prog α) := fun _ _ _ => trivial

theorem bind {p : Prog α} {f : α → Prog β} (hp : Chats P K i j p) (hf : ∀ a, Chats P K j k (f a)) :
    Chats P K i k (p >>= f) := by
  intro e frame burst
  apply wp_seq (hp e frame burst)
  rintro a e₁ ⟨cs, said, others⟩
  apply wp_mono (hf a e₁ said.frame said.burst)
  rintro _ e₂ ⟨cs', said', others'⟩
  refine ⟨cs' ++ cs, said.trans said', ?_⟩
  intro c mem
  rcases List.mem_append.1 mem with mem | mem
  · exact others' c mem
  · exact others c mem

theorem ite {c : Prop} [Decidable c] {p q : Prog α} (hp : Chats P K i j p) (hq : Chats P K i j q) :
    Chats P K i j (if c then p else q) := by
  split
  · exact hp
  · exact hq

theorem mono {p : Prog α} (h : Chats P K i j p) {i' j' : Nat} (start : i' ≤ i) (end_ : j ≤ j') :
    Chats P K i' j' p := by
  intro e frame burst
  apply wp_mono (h e frame (Nat.le_trans burst start))
  rintro _ _ ⟨cs, said, others⟩
  exact ⟨cs, said.weaken end_, others⟩

/-- A request that is neither a byte nor a look at something. -/
theorem silent {r : Request} (h : ∀ x e e', (rules P).step e r x e' → e'.heard = e.heard)
    (allowed : ∀ e, (rules P).allowed e r) (le : i ≤ j) : Chats P K i j (ask r) := by
  intro e frame burst
  refine ⟨allowed e, ?_⟩
  intro x e' step
  have same := h x e e' step
  refine ⟨[], ⟨?_, ?_, ?_, ?_⟩, nofun⟩
  · rw [same, frame]
  · rw [same]
    rfl
  · rw [same]
  · rw [same]
    exact Nat.le_trans burst le

/-- A look at the clock, at a pin, or a mark. -/
theorem look {r : Request}
    (h : ∀ x e e', (rules P).step e r x e' → e'.heard = e.heard.pause)
    (allowed : ∀ e, (rules P).allowed e r) : Chats P K i j (ask r) := by
  intro e frame burst
  refine ⟨allowed e, ?_⟩
  intro x e' step
  have same := h x e e' step
  refine ⟨[], ⟨?_, ?_, ?_, ?_⟩, nofun⟩
  · rw [same]
    exact frame
  · rw [same]
    rfl
  · rw [same]
    rfl
  · rw [same]
    exact Nat.zero_le j

theorem load (le : i ≤ j) : Chats P K i j load :=
  silent (fun _ _ _ step => step.2 ▸ rfl) (fun _ => trivial) le

theorem store (f : SdspiDriver → SdspiDriver) (le : i ≤ j) : Chats P K i j (store f) :=
  silent (fun _ _ _ step => step ▸ rfl) (fun _ => trivial) le

theorem millis : Chats P K i j millis :=
  look (fun _ _ _ step => step ▸ rfl) fun _ => trivial

theorem filler (le : i + 1 ≤ j) (short : j ≤ 512) : Chats P K i j (xmitSpi 0xFF) := by
  intro e frame burst
  apply wp_xmitSpi
  · intro arg found
    rw [frame] at found
    cases found
  · intro y
    refine ⟨[], ⟨?_, ?_, ?_, ?_⟩, nofun⟩
    · simp [Hearing.byte, Hearing.sends, frame]
    · simp [Hearing.byte, Hearing.sends, frame]
    · have few : ¬ Hearing.Block (e.heard.burst ++ [y]) := by
        rintro ⟨length, -⟩
        rw [List.length_append, List.length_singleton] at length
        omega
      exact if_neg few
    · simp only [Hearing.byte, List.length_append, List.length_singleton]
      omega

/-! ## Waiting for the card -/

theorem expired (t : TimeoutChecker) : Chats P K i j t.expired :=
  .bind (j := 0) millis fun _ => .pure _ (Nat.zero_le j)

theorem begin (d : DWORD) : Chats P K i j (TimeoutChecker.begin d) :=
  .bind (j := 0) millis fun _ => .pure _ (Nat.zero_le j)

theorem waitReady (fuel : Nat) (wt : UINT) : Chats P K i 1 (waitReady fuel wt) := by
  have loop (t : TimeoutChecker) (fuel : Nat) : Chats P K 0 1 (waitReadyLoop t fuel) := by
    induction fuel with
    | zero => exact .stuck
    | succ fuel ih =>
      apply Chats.bind (filler (j := 1) (by decide) (by decide))
      intro d
      apply Chats.ite (.pure _ (by decide))
      apply Chats.bind (expired (j := 0) t)
      intro late
      exact .ite (.pure _ (by decide)) ih
  apply Chats.bind (begin (j := 0) wt)
  intro t
  exact .bind (loop t fuel) fun _ => .pure _ (by decide)

theorem setCS (l : Level) (le : i ≤ j) : Chats P K i j (do
    let d ← Sdspi.load
    digitalWrite d.cs l) := by
  apply Chats.bind (load le)
  intro d
  exact silent (fun _ _ _ step => step ▸ rfl) (fun _ => trivial) (Nat.le_refl j)

theorem deselect (short : i + 1 ≤ 512) : Chats P K i (i + 1) deselect :=
  .bind (setCS .high (Nat.le_refl i)) fun _ =>
    .bind (filler (Nat.le_refl _) short) fun _ => .pure _ (Nat.le_refl _)

theorem select (fuel : Nat) (short : i + 1 ≤ 512) : Chats P K i 2 (select fuel) := by
  apply Chats.bind (setCS .low (Nat.le_refl i))
  intro _
  apply Chats.bind (filler (Nat.le_refl _) short)
  intro _
  apply Chats.bind (waitReady fuel 100)
  intro ready
  exact .ite (.pure _ (by decide)) (.bind (deselect (by decide)) fun _ => .pure _ (by decide))

theorem receiveResponse (n : Nat) (short : i + n + 1 ≤ 512) :
    Chats P K i (i + n + 1) (receiveResponse n) := by
  induction n generalizing i with
  | zero => exact filler (Nat.le_refl _) short
  | succ n ih =>
    apply Chats.bind (filler (j := i + 1) (Nat.le_refl _) (by omega))
    intro res
    exact .ite ((ih (by omega)).mono (Nat.le_refl _) (by omega)) (.pure _ (by omega))

theorem rcvrSpiMulti (n : Nat) (short : i + n ≤ 512) : Chats P K i (i + n) (rcvrSpiMulti n) := by
  induction n generalizing i with
  | zero => exact .pure _ (Nat.le_refl _)
  | succ n ih =>
    apply Chats.bind (filler (j := i + 1) (Nat.le_refl _) (by omega))
    intro y
    exact .bind ((ih (by omega)).mono (Nat.le_refl _) (by omega)) fun _ => .pure _ (Nat.le_refl _)

end Chats

/-! ## Commands -/

/-- In the middle of a frame, `frame` being out. -/
structure Amid (frame : List BYTE) (j : Nat) (e e' : Ear) : Prop where
  frame : e'.heard.frame = frame
  commands : e'.heard.commands = e.heard.commands
  blocks : e'.heard.blocks = e.heard.blocks
  burst : e'.heard.burst.length ≤ j

theorem wp_start {x : BYTE} (frame : e.heard.frame = []) (burst : e.heard.burst.length ≤ i)
    (short : i < 512) (start : x ≠ 0xFF) :
    (xmitSpi x).wp (rules P) (fun _ e' => Amid [x] (i + 1) e e') e := by
  apply wp_xmitSpi
  · intro arg found
    rw [frame] at found
    cases found
  · intro y
    have few : ¬ Hearing.Block (e.heard.burst ++ [y]) := by
      rintro ⟨length, -⟩
      rw [List.length_append, List.length_singleton] at length
      omega
    refine ⟨?_, ?_, if_neg few, ?_⟩
    · simp only [Hearing.byte, Hearing.sends, frame, if_neg start]
    · simp [Hearing.byte, Hearing.sends, frame]
    · simp only [Hearing.byte, List.length_append, List.length_singleton]
      omega

theorem Amid.sends {frame : List BYTE} (h : Amid frame i e e') (x y : BYTE) (short : i < 512)
    (some_ : frame ≠ []) :
    let heard := e'.heard.byte x y
    heard.frame = (if frame.length = 5 then [] else frame ++ [x]) ∧
      heard.commands = (if frame.length = 5 then (decodeFrame (frame ++ [x])).toList else []) ++
        e.heard.commands ∧
      heard.blocks = e.heard.blocks ∧ heard.burst.length ≤ i + 1 := by
  intro heard
  have few : ¬ Hearing.Block (e'.heard.burst ++ [y]) := by
    rintro ⟨length, -⟩
    have burst := h.burst
    rw [List.length_append, List.length_singleton] at length
    omega
  have sent : Hearing.sends x frame =
      if frame.length = 5 then ([], decodeFrame (frame ++ [x])) else (frame ++ [x], none) := by
    cases frame with
    | nil => exact absurd rfl some_
    | cons a rest => rfl
  refine ⟨?_, ?_, ?_, ?_⟩
  · simp only [heard, Hearing.byte, h.frame, sent]
    split <;> rfl
  · simp only [heard, Hearing.byte, h.frame, h.commands, sent]
    split <;> rfl
  · exact (if_neg few).trans h.blocks
  · have burst := h.burst
    simp only [heard, Hearing.byte, List.length_append, List.length_singleton]
    omega

theorem Amid.wp_next {frame : List BYTE} (h : Amid frame i e e') (x : BYTE) (short : i < 512)
    (some_ : frame ≠ []) (more : frame.length < 5) :
    (xmitSpi x).wp (rules P) (fun _ e'' => Amid (frame ++ [x]) (i + 1) e e'') e' := by
  apply wp_xmitSpi
  · intro arg found
    rw [h.frame, decodeFrame_short (by simp; omega)] at found
    cases found
  · intro y
    obtain ⟨frame_, commands, blocks, burst⟩ := h.sends x y short some_
    rw [if_neg (by omega)] at frame_ commands
    exact ⟨frame_, commands, blocks, burst⟩

theorem Amid.wp_last {frame : List BYTE} (h : Amid frame i e e') {x cmd : BYTE} {arg : DWORD}
    (short : i < 512) (five : frame.length = 5)
    (decodes : decodeFrame (frame ++ [x]) = some (cmd, arg)) (allowed : cmd = cmd17 → P arg) :
    (xmitSpi x).wp (rules P) (fun _ e'' => Said [(cmd, arg)] (i + 1) e e'') e' := by
  apply wp_xmitSpi
  · intro arg' found
    rw [h.frame, decodes] at found
    cases found
    exact allowed rfl
  · intro y
    obtain ⟨frame_, commands, blocks, burst⟩ := h.sends x y short (by rintro rfl; cases five)
    rw [if_pos five] at frame_ commands
    rw [decodes] at commands
    exact ⟨frame_, commands, blocks, burst⟩

theorem wp_frame {cmd : BYTE} {arg : DWORD} (valid : cmd &&& 0xC0 = 0)
    (allowed : cmd = cmd17 → P arg) (frame : e.heard.frame = [])
    (burst : e.heard.burst.length ≤ 2) :
    (do
      let _ ← xmitSpi (0x40 ||| cmd)
      let _ ← xmitSpi ((arg >>> 24).setWidth 8)
      let _ ← xmitSpi ((arg >>> 16).setWidth 8)
      let _ ← xmitSpi ((arg >>> 8).setWidth 8)
      let _ ← xmitSpi (arg.setWidth 8)
      let _ ← xmitSpi (crcByte cmd)
      if cmd = cmd12 then do
        let _ ← xmitSpi 0xFF
        receiveResponse 9
      else receiveResponse 9 : Prog BYTE).wp (rules P)
      (fun _ e' => Said [(cmd, arg)] 19 e e') e := by
  have start : (0x40 ||| cmd : BYTE) ≠ 0xFF := by
    intro full
    have start := (start_byte valid).1
    rw [full] at start
    exact absurd start (by decide)
  apply wp_seq (wp_start frame burst (by decide) start)
  intro _ e₁ amid₁
  apply wp_seq (amid₁.wp_next _ (by decide) (by simp) (by simp))
  intro _ e₂ amid₂
  apply wp_seq (amid₂.wp_next _ (by decide) (by simp) (by simp))
  intro _ e₃ amid₃
  apply wp_seq (amid₃.wp_next _ (by decide) (by simp) (by simp))
  intro _ e₄ amid₄
  apply wp_seq (amid₄.wp_next _ (by decide) (by simp) (by simp))
  intro _ e₅ amid₅
  apply wp_seq (amid₅.wp_last (by decide) (by simp) (decodeFrame_frameBytes valid arg) allowed)
  intro _ e₆ said
  have answer : Chats P (fun _ => False) 8 19 (if cmd = cmd12 then do
      let _ ← xmitSpi 0xFF
      receiveResponse 9
    else receiveResponse 9) := by
    apply Chats.ite
    · exact .bind (Chats.filler (j := 9) (by decide) (by decide)) fun _ =>
        Chats.receiveResponse 9 (by decide)
    · exact (Chats.receiveResponse 9 (by decide)).mono (Nat.le_refl _) (by decide)
  apply wp_mono (answer e₆ said.frame said.burst)
  rintro res e₇ ⟨cs, said', none_⟩
  rw [List.eq_nil_iff_forall_not_mem.2 none_] at said'
  exact said.trans said'

/-- The command goes out, or the card does not get ready and nothing does. -/
theorem wp_sendPacket (fuel : Nat) {cmd : BYTE} {arg : DWORD} (valid : cmd &&& 0xC0 = 0)
    (other : cmd ≠ cmd12) (allowed : cmd = cmd17 → P arg) (frame : e.heard.frame = [])
    (burst : e.heard.burst.length ≤ 19) :
    (sendPacket fuel cmd arg).wp (rules P) (fun res e' =>
      ∃ cs, Said cs 19 e e' ∧ (cs = [(cmd, arg)] ∨ cs = [] ∧ res = 0xFF)) e := by
  have selected : Chats P (fun _ => False) 19 2 (do
      deselect
      select fuel) :=
    .bind (Chats.deselect (by decide)) fun _ => Chats.select fuel (by decide)
  unfold sendPacket
  rw [if_pos other]
  apply wp_seq (selected e frame burst)
  rintro ok e₁ ⟨cs, said, none_⟩
  obtain rfl := List.eq_nil_iff_forall_not_mem.2 none_
  cases ok with
  | true =>
    apply wp_mono (wp_frame valid allowed said.frame said.burst)
    intro res e₂ said'
    exact ⟨_, said.trans said', .inl rfl⟩
  | false => exact ⟨[], said.weaken (by decide), .inr ⟨rfl, rfl⟩⟩

theorem wp_sendCmd (fuel : Nat) {cmd : BYTE} {arg : DWORD} (valid : cmd &&& 0x40 = 0)
    (other : cmd &&& 0x7F ≠ cmd12) (allowed : cmd &&& 0x7F = cmd17 → P arg)
    (frame : e.heard.frame = []) :
    (sendCmd fuel cmd arg).wp (rules P) (fun res e' => ∃ cs, Said cs 19 e e' ∧
      (∀ c ∈ cs, c = (cmd &&& 0x7F, arg) ∨ c = (cmd55, 0)) ∧
      (cmd &&& 0x80 = 0 → cs = [(cmd, arg)] ∨ cs = [] ∧ res = 0xFF)) e := by
  have waits {e : Ear} (frame : e.heard.frame = []) :
      (waitReady fuel 10).wp (rules P) (fun _ e' => Said [] 1 e e') e := by
    have waited : Chats P (fun _ => False) e.heard.burst.length 1 (waitReady fuel 10) :=
      Chats.waitReady fuel 10
    apply wp_mono (waited e frame (Nat.le_refl _))
    rintro _ e' ⟨cs, said, none_⟩
    rwa [List.eq_nil_iff_forall_not_mem.2 none_] at said
  have low : (cmd &&& 0x7F) &&& 0xC0 = 0 := by
    clear allowed
    revert cmd
    decide
  unfold sendCmd
  apply wp_seq (waits frame)
  intro _ e₁ said
  split
  · rename_i announced
    apply wp_seq (waits said.frame)
    intro _ e₂ said₂
    have said₂ := said.trans said₂
    apply wp_seq (wp_sendPacket fuel (by decide) (by decide) (fun h => absurd h (by decide)) said₂.frame
      (said₂.weaken (by decide)).burst)
    rintro r e₃ ⟨cs, said₃, what⟩
    have said₃ := said₂.trans said₃
    have first : ∀ c ∈ cs ++ [], c = (cmd &&& 0x7F, arg) ∨ c = (cmd55, 0) := by
      rcases what with rfl | ⟨rfl, -⟩ <;> simp
    split
    · exact ⟨_, said₃, first, fun plain => absurd plain announced⟩
    · apply wp_mono (wp_sendPacket fuel low other allowed said₃.frame said₃.burst)
      rintro res e₄ ⟨cs', said₄, what'⟩
      refine ⟨_, said₃.trans said₄, ?_, fun plain => absurd plain announced⟩
      intro c mem
      rcases List.mem_append.1 mem with mem | mem
      · rcases what' with rfl | ⟨rfl, -⟩
        · exact .inl (List.mem_singleton.1 mem)
        · cases mem
      · exact first c mem
  · rename_i plain
    have plain : cmd &&& 0x80 = 0 := not_not.1 plain
    have same : cmd &&& 0x7F = cmd := by
      clear allowed
      revert cmd
      decide
    rw [same] at low other allowed ⊢
    apply wp_mono (wp_sendPacket fuel low other allowed said.frame (said.weaken (by decide)).burst)
    rintro res e₂ ⟨cs, said₂, what⟩
    refine ⟨_, said.trans said₂, ?_, fun _ => by simpa using what⟩
    rcases what with rfl | ⟨rfl, -⟩ <;> simp

theorem Chats.sendCmd (fuel : Nat) {cmd : BYTE} (arg : DWORD) (valid : cmd &&& 0x40 = 0)
    (other : cmd &&& 0x7F ≠ cmd12 ∧ cmd &&& 0x7F ≠ cmd17) (le : 19 ≤ j) :
    Chats P (fun c => c.1 ≠ cmd17) i j (sendCmd fuel cmd arg) := by
  intro e frame burst
  apply wp_mono (wp_sendCmd fuel valid other.1 (fun read => absurd read other.2) frame)
  rintro res e' ⟨cs, said, what, -⟩
  refine ⟨cs, said.weaken le, ?_⟩
  intro c mem
  rcases what c mem with rfl | rfl
  · exact other.2
  · exact (by decide : cmd55 ≠ cmd17)

/-! ## `initialize()` -/

/-- Every command but CMD17. -/
abbrev NoRead (c : BYTE × DWORD) : Prop := c.1 ≠ cmd17

namespace Chats

theorem delay (ms : DWORD) (le : i ≤ j) : Chats P K i j (delay ms) :=
  silent (r := .delay ms) (fun _ _ _ step => congrArg Ear.heard step) (fun _ => trivial) le

theorem spi (c : SpiCall) (le : i ≤ j) : Chats P K i j (spi c) :=
  silent (r := .spi c) (fun _ _ _ step => congrArg Ear.heard step) (fun _ => trivial) le

theorem mark (k : Mark) : Chats P K i j (mark k) :=
  look (r := .mark k) (fun _ _ _ step => congrArg Ear.heard step) fun _ => trivial

theorem goIdle (fuel n : Nat) : Chats P NoRead 20 20 (goIdle fuel n) := by
  induction n with
  | zero => exact .pure _ (by decide)
  | succ n ih =>
    apply Chats.bind (delay (j := 20) _ (by decide))
    intro _
    exact .bind (.sendCmd fuel _ (by decide) (by decide) (by decide)) fun _ => ih

theorem pollUntilZero (fuel : Nat) (t : TimeoutChecker) {cmd : BYTE} (arg : DWORD)
    (valid : cmd &&& 0x40 = 0) (other : cmd &&& 0x7F ≠ cmd12 ∧ cmd &&& 0x7F ≠ cmd17) (turns : Nat) :
    Chats P NoRead i 20 (pollUntilZero fuel t cmd arg turns) := by
  induction turns generalizing i with
  | zero => exact .stuck
  | succ turns ih =>
    apply Chats.bind (expired (j := 20) t)
    intro late
    apply Chats.ite (.pure _ (by decide))
    exact .bind (j := 20) (.sendCmd fuel arg valid other (by decide)) fun res =>
      .ite (.pure _ (by decide)) ih

theorem identifySdv2 (fuel : Nat) (t : TimeoutChecker) :
    Chats P NoRead 20 24 (identifySdv2 fuel t) := by
  apply Chats.bind (filler (j := 21) (by decide) (by decide))
  intro _
  apply Chats.bind (filler (j := 22) (by decide) (by decide))
  intro _
  apply Chats.bind (filler (j := 23) (by decide) (by decide))
  intro ocr2
  apply Chats.bind (filler (j := 24) (by decide) (by decide))
  intro ocr3
  apply Chats.ite _ (.pure _ (by decide))
  apply Chats.bind (pollUntilZero fuel t _ (by decide) (by decide) fuel)
  intro _
  apply Chats.bind (expired (j := 20) t)
  intro late
  apply Chats.bind (j := 20)
  · apply Chats.ite (.pure _ (by decide))
    exact .bind (j := 20) (.sendCmd fuel _ (by decide) (by decide) (by decide)) fun _ =>
      .pure _ (by decide)
  intro ready
  apply Chats.ite
  · apply Chats.bind (filler (j := 21) (by decide) (by decide))
    intro ocr0
    apply Chats.bind (filler (j := 22) (by decide) (by decide))
    intro _
    apply Chats.bind (filler (j := 23) (by decide) (by decide))
    intro _
    apply Chats.bind (filler (j := 24) (by decide) (by decide))
    intro _
    exact .pure _ (by decide)
  · exact .bind (expired (j := 20) t) fun _ => .pure _ (by decide)

theorem identifySdv1 (fuel : Nat) (t : TimeoutChecker) :
    Chats P NoRead 20 24 (identifySdv1 fuel t) := by
  apply Chats.bind (j := 20) (.sendCmd fuel _ (by decide) (by decide) (by decide))
  intro res
  apply Chats.bind (j := 20)
  · apply pollUntilZero
    · split <;> decide
    · split <;> decide
  intro _
  apply Chats.bind (expired (j := 20) t)
  intro late
  apply Chats.bind (j := 20)
  · apply Chats.ite (.pure _ (by decide))
    exact .bind (j := 20) (.sendCmd fuel _ (by decide) (by decide) (by decide)) fun _ =>
      .pure _ (by decide)
  · exact fun _ => .pure _ (by decide)

theorem identify (fuel : Nat) (t : TimeoutChecker) : Chats P NoRead 20 24 (identify fuel t) := by
  apply Chats.bind (j := 20) (.sendCmd fuel _ (by decide) (by decide) (by decide))
  intro res
  apply Chats.ite
  · apply Chats.bind (begin (j := 20) _)
    intro t'
    apply Chats.bind (j := 20) (.sendCmd fuel _ (by decide) (by decide) (by decide))
    intro res
    apply Chats.bind (.ite (identifySdv2 fuel t') (identifySdv1 fuel t'))
    intro ty
    exact .bind (expired (j := 20) t') fun _ => .pure _ (by decide)
  · exact .bind (expired (j := 20) t) fun _ => .pure _ (by decide)

theorem handshake (fuel : Nat) : Chats P NoRead 2 24 (handshake fuel) := by
  apply Chats.bind (rcvrSpiMulti 10 (by decide))
  intro _
  apply Chats.bind (begin (j := 20) 1000)
  intro t
  exact .bind (goIdle fuel 200) fun _ => identify fuel t

theorem pinCheck (en : SdspiDriver → Bool) (p : SdspiDriver → Pin) (l : SdspiDriver → Level)
    (default_ : Bool) (le : i ≤ j) : Chats P K i j (do
      let d ← Sdspi.load
      if en d then do
        let level ← digitalRead (p d)
        Pure.pure (level == l d)
      else Pure.pure default_) := by
  apply Chats.bind (load le)
  intro d
  apply Chats.ite _ (.pure _ (Nat.le_refl j))
  exact .bind (j := 0) (look (fun _ _ _ step => step ▸ rfl) fun _ => trivial) fun _ =>
    .pure _ (Nat.zero_le j)

theorem conclude (ty : BYTE) : Chats P K 24 25 (conclude ty) := by
  apply Chats.bind (store _ (Nat.le_refl 24))
  intro _
  apply Chats.bind (deselect (by decide))
  intro _
  apply Chats.bind (.ite (store _ (Nat.le_refl 25)) (store _ (Nat.le_refl 25)))
  intro _
  apply Chats.bind (pinCheck (fun d => d.wpEnabled) (fun d => d.wp) (fun d => d.wpActiveState) false
    (Nat.le_refl 25))
  intro wp
  apply Chats.bind (.ite (store _ (Nat.le_refl 25)) (store _ (Nat.le_refl 25)))
  intro _
  exact .bind (store _ (Nat.le_refl 25)) fun _ => .bind (load (Nat.le_refl 25)) fun _ =>
    .pure _ (Nat.le_refl 25)

theorem mutex (f : MutexId → Prog Unit) (hf : ∀ k, Chats P K i i (f k)) : Chats P K i i (do
    let d ← Sdspi.load
    match d.mutex with
    | some m => f m
    | none => Pure.pure ()) := by
  apply Chats.bind (load (Nat.le_refl i))
  intro d
  cases d.mutex with
  | some k => exact hf k
  | none => exact .pure _ (Nat.le_refl i)

theorem lock : Chats P K i i lock := by
  apply Chats.bind (mutex mutexLock fun _ =>
    silent (fun _ _ _ step => step ▸ rfl) (fun _ => trivial) (Nat.le_refl i))
  intro _
  apply Chats.bind (store _ (Nat.le_refl i))
  intro _
  apply Chats.bind (load (Nat.le_refl i))
  intro d
  iterate 3
    apply Chats.bind (spi _ (Nat.le_refl i))
    intro _
  exact spi _ (Nat.le_refl i)

theorem unlock : Chats P K i i unlock :=
  .bind (store _ (Nat.le_refl i)) fun _ => mutex mutexUnlock fun _ =>
    silent (fun _ _ _ step => step ▸ rfl) (fun _ => trivial) (Nat.le_refl i)

theorem initializeCard (fuel : Nat) : Chats P NoRead i 2 (initializeCard fuel) := by
  apply Chats.bind (mark (j := 0) _)
  intro _
  apply Chats.bind (j := 25)
  · apply Chats.bind lock
    intro _
    apply Chats.bind (j := 25)
    · apply Chats.bind (store _ (Nat.le_refl 0))
      intro _
      apply Chats.bind (pinCheck (fun d => d.cdEnabled) (fun d => d.cd) (fun d => d.cdActiveState)
        true (by decide : 0 ≤ 2))
      intro present
      apply Chats.ite (.pure _ (by decide))
      exact .bind (handshake fuel) fun ty => conclude ty
    · intro st
      exact .bind unlock fun _ => .pure _ (Nat.le_refl 25)
  · intro st
    exact .bind (mark (j := 2) _) fun _ => .pure _ (Nat.le_refl 2)

end Chats

/-! ## Data blocks -/

/-- Between frames before and after, the commands `cs` sent in between, and `n` blocks
received. -/
structure Took (cs : List (BYTE × DWORD)) (n : Nat) (e e' : Ear) : Prop where
  frame : e'.heard.frame = []
  commands : e'.heard.commands = cs ++ e.heard.commands
  blocks : e'.heard.blocks = e.heard.blocks + n

theorem Said.took {cs : List (BYTE × DWORD)} (h : Said cs j e e') : Took cs 0 e e' :=
  ⟨h.frame, h.commands, h.blocks⟩

theorem Took.trans {cs cs' : List (BYTE × DWORD)} {n n' : Nat} (h : Took cs n e e')
    (h' : Took cs' n' e' e'') : Took (cs' ++ cs) (n + n') e e'' :=
  ⟨h'.frame, by rw [h'.commands, h.commands, List.append_assoc],
    by rw [h'.blocks, h.blocks, Nat.add_assoc]⟩

/-- A filler byte between frames. -/
theorem wp_filler {Q : BYTE → Ear → Prop} (frame : e.heard.frame = [])
    (h : ∀ y e', e'.heard.frame = [] → e'.heard.commands = e.heard.commands →
      e'.heard.burst = e.heard.burst ++ [y] →
      e'.heard.blocks = (if Hearing.Block (e.heard.burst ++ [y]) then e.heard.blocks + 1
        else e.heard.blocks) → Q y e') : (xmitSpi 0xFF).wp (rules P) Q e := by
  apply wp_xmitSpi
  · intro arg found
    rw [frame] at found
    cases found
  · intro y
    apply h
    · simp [Hearing.byte, Hearing.sends, frame]
    · simp [Hearing.byte, Hearing.sends, frame]
    · rfl
    · rfl

/-- What follows a token up to the end of the sector. -/
theorem wp_sector {n : Nat} (frame : e.heard.frame = [])
    (token : e.heard.burst.head? = some 0xFE) (length : e.heard.burst.length + n = 513) :
    (rcvrSpiMulti n).wp (rules P) (fun _ e' => Took [] (if n = 0 then 0 else 1) e e' ∧
      e'.heard.burst.length = 513) e := by
  induction n generalizing e with
  | zero => exact ⟨⟨frame, rfl, rfl⟩, length⟩
  | succ n ih =>
    unfold rcvrSpiMulti
    rw [wp_bind]
    apply wp_filler frame
    intro y e₁ frame₁ commands₁ burst₁ blocks₁
    have token₁ : e₁.heard.burst.head? = some 0xFE := by
      rw [burst₁, List.head?_append, token]
      rfl
    have length₁ : e₁.heard.burst.length + n = 513 := by
      rw [burst₁, List.length_append, List.length_singleton]
      omega
    apply wp_seq (ih frame₁ token₁ length₁)
    rintro ys e₂ ⟨took, end_⟩
    refine ⟨⟨took.frame, by rw [took.commands, commands₁], ?_⟩, end_⟩
    rw [took.blocks, blocks₁, if_neg (Nat.succ_ne_zero n)]
    by_cases last : n = 0
    · have whole : Hearing.Block (e.heard.burst ++ [y]) := by
        rw [← burst₁]
        exact ⟨by omega, token₁⟩
      rw [if_pos last, if_pos whole]
    · have part : ¬ Hearing.Block (e.heard.burst ++ [y]) := by
        rintro ⟨whole, -⟩
        rw [← burst₁] at whole
        omega
      rw [if_neg last, if_neg part]

/-- The token, if one came, is all that came in since the last look at the clock. -/
theorem wp_waitToken (t : TimeoutChecker) (fuel : Nat) (frame : e.heard.frame = [])
    (burst : e.heard.burst = []) :
    (waitToken t fuel).wp (rules P) (fun token e' => Took [] 0 e e' ∧
      e'.heard.burst.length ≠ 512 ∧ (token ≠ 0xFF → e'.heard.burst = [token])) e := by
  induction fuel generalizing e with
  | zero => trivial
  | succ fuel ih =>
    unfold waitToken
    rw [wp_bind]
    apply wp_filler frame
    intro y e₁ frame₁ commands₁ burst₁ blocks₁
    have took : Took [] 0 e e₁ := by
      refine ⟨frame₁, commands₁, ?_⟩
      rw [blocks₁, burst, if_neg]
      · rfl
      · rintro ⟨length, -⟩
        cases length
    split
    · rename_i full
      subst full
      unfold TimeoutChecker.expired
      rw [wp_bind, wp_bind]
      apply wp_millis
      intro now
      rw [wp_pure]
      have took₂ : Took [] 0 e { e₁ with heard := e₁.heard.pause } :=
        ⟨took.frame, took.commands, took.blocks⟩
      split
      · exact ⟨took₂, nofun, fun other => absurd rfl other⟩
      · apply wp_mono (ih (e := { e₁ with heard := e₁.heard.pause }) frame₁ rfl)
        rintro token e₂ ⟨took₃, rest⟩
        exact ⟨took₂.trans took₃, rest⟩
    · have single : e₁.heard.burst = [y] := by
        rw [burst₁, burst]
        rfl
      exact ⟨took, by rw [single, List.length_singleton]; decide, fun _ => single⟩

/-- A block of 512 bytes is heard exactly if one is returned. -/
theorem wp_rcvrDatablock (fuel : Nat) (frame : e.heard.frame = []) :
    (rcvrDatablock fuel 512).wp (rules P) (fun block e' =>
      Took [] block.toList.length e e' ∧ e'.heard.burst.length ≠ 512) e := by
  unfold rcvrDatablock TimeoutChecker.begin
  rw [wp_bind, wp_bind]
  apply wp_millis
  intro now
  rw [wp_pure]
  apply wp_seq (wp_waitToken (e := { e with heard := e.heard.pause }) _ fuel frame rfl)
  rintro token e₁ ⟨took, short, single⟩
  have took : Took [] 0 e e₁ := ⟨took.frame, took.commands, took.blocks⟩
  split
  · rename_i start
    subst start
    have burst := single (by decide)
    apply wp_seq (wp_sector took.frame (by rw [burst]; rfl) (by rw [burst]; rfl))
    rintro bytes e₂ ⟨took₂, length⟩
    rw [wp_bind]
    apply wp_filler took₂.frame
    intro y e₃ frame₃ commands₃ burst₃ blocks₃
    have after : Took [] 0 e₂ e₃ := by
      refine ⟨frame₃, commands₃, ?_⟩
      rw [blocks₃, if_neg]
      · rfl
      · rintro ⟨long, -⟩
        rw [List.length_append, length] at long
        cases long
    refine ⟨(took.trans took₂).trans after, ?_⟩
    rw [burst₃, List.length_append, length, List.length_singleton]
    decide
  · exact ⟨took, short⟩

end Ear

end FatFsParticle.Sdspi
