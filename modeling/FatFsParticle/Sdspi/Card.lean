import FatFsParticle.Sdspi.Machine
import FatFsParticle.Interact.Logic
import Mathlib.Data.Vector.Basic

/-!
# A card in SPI mode

What a card may answer, byte for byte: command frames, R1 after any number of filler
bytes, single block reads with their latency, block writes with their data responses
and busy times. Delays and refusals are left open, so a statement about every card
that conforms covers all of them. A `Scene` is the machine as seen by somebody who
knows the card's state, and `rules` are what its programs can rely on.
-/

namespace FatFsParticle.Sdspi
open Interact Program

abbrev Sector := List.Vector BYTE 512

/-- Where the card is. `frame`: the first bytes of a command frame are in. `command`:
the frame is in, R1 is still to come. `latency`: R1 was 0 for a read, the token is
still to come. `loose`: answering something else, until it is deselected. `await`: R1
was 0 for a write, or another block may follow. `packet`: the block with its CRC is
coming in. `busy next`: programming, with the sector that may follow. `stuff`: the
byte after a stop token. -/
inductive Phase where
  | ready
  | frame (got : List BYTE)
  | command (cmd : BYTE) (arg : DWORD)
  | latency (a : Nat)
  | sending (bytes : List BYTE)
  | loose
  | await (a : Nat) (multi : Bool)
  | packet (a : Nat) (multi : Bool) (got : List BYTE)
  | busy (next : Option Nat)
  | stuff

/-- A data packet may be coming in nowhere but in `packet`. -/
def Phase.Quiet : Phase → Prop
  | packet _ _ _ => False
  | _ => True

/-- Where a card can be once it was deselected. -/
def Phase.Rest : Phase → Prop
  | ready | busy none | stuff => True
  | _ => False

theorem Phase.Rest.quiet {p : Phase} (h : p.Rest) : p.Quiet := by
  cases p <;> trivial

/-- A byte exchanged while the card is deselected: it goes on programming, and drops
whatever else it was doing. -/
inductive Phase.Off : Phase → Phase → Prop
  | drop {p : Phase} : Off p .ready
  | busy {next : Option Nat} : Off (.busy next) (.busy none)
  | stuff : Off .stuff .stuff
  | done : Off .stuff (.busy none)

theorem Phase.Off.rest {p q : Phase} (h : p.Off q) : q.Rest := by
  cases h <;> trivial

/-- A card: whether it is block addressed, how many sectors it has, what is in them,
the data responses it has given, newest first, and the stop tokens it has taken. -/
structure Card where
  block : Bool
  sectors : Nat
  store : Nat → Sector
  phase : Phase := .ready
  responses : List Bool := []
  stops : Nat := 0

namespace Card

/-- The sector a command argument addresses. -/
def sectorAt (c : Card) (arg : DWORD) : Nat := if c.block then arg.toNat else arg.toNat / 512

/-- The card is the one `cardType` says, byte addresses reach all of it, and it has the
`n` sectors from `s` on. -/
structure Addressed (c : Card) (cardType : BYTE) (s : DWORD) (n : UINT) : Prop where
  block : cardType &&& ctBlock ≠ 0 ↔ c.block = true
  bytes : c.block = false → c.sectors ≤ 2 ^ 23
  within : s.toNat + n.toNat ≤ c.sectors

theorem sectorAt_cardAddress {c : Card} {cardType : BYTE} {s : DWORD} {n : UINT}
    (h : c.Addressed cardType s n) (some_ : n ≠ 0) :
    c.sectorAt (cardAddress cardType s) = s.toNat := by
  unfold sectorAt cardAddress
  cases block : c.block with
  | true => rw [if_neg (h.block.2 block), if_pos rfl]
  | false =>
    have bytes : cardType &&& ctBlock = 0 := by
      by_contra set
      exact absurd (h.block.1 set) (by simp [block])
    have positive : n.toNat ≠ 0 := fun zero => some_ (BitVec.eq_of_toNat_eq zero)
    have small : s.toNat < 2 ^ 23 := by
      have := h.bytes block
      have := h.within
      omega
    rw [if_pos bytes, if_neg (by decide)]
    have exact_ : (s * 512).toNat = s.toNat * 512 := by
      rw [BitVec.toNat_mul]
      exact Nat.mod_eq_of_lt (by simp; omega)
    omega

/-- Where R1 `r` to a command takes the card. -/
def answered (c : Card) (cmd : BYTE) (arg : DWORD) (r : BYTE) : Phase :=
  if r = 0 then
    if cmd = cmd17 then .latency (c.sectorAt arg)
    else if cmd = cmd24 then .await (c.sectorAt arg) false
    else if cmd = cmd25 then .await (c.sectorAt arg) true
    else .loose
  else .loose

/-- The token before a packet. -/
def startToken (multi : Bool) : BYTE := if multi then 0xFC else 0xFE

/-- The first 512 bytes of a packet. -/
def block512 (got : List BYTE) (h : got.length = 514) : Sector := ⟨got.take 512, by simp [h]⟩

/-- A byte exchanged while the card is selected: the card takes in `x` and sends `y`. -/
inductive Step : Card → (x y : BYTE) → Card → Prop
  | idle {c : Card} {x : BYTE} (at_ : c.phase = .ready) (h : x &&& 0xC0 ≠ 0x40) : Step c x 0xFF c
  | start {c : Card} {x : BYTE} (at_ : c.phase = .ready) (h : x &&& 0xC0 = 0x40) :
      Step c x 0xFF { c with phase := .frame [x] }
  | frame {c : Card} {x : BYTE} {got : List BYTE} (at_ : c.phase = .frame got)
      (h : got.length ≠ 5) : Step c x 0xFF { c with phase := .frame (got ++ [x]) }
  | framed {c : Card} {x i a₃ a₂ a₁ a₀ : BYTE} (at_ : c.phase = .frame [i, a₃, a₂, a₁, a₀]) :
      Step c x 0xFF { c with phase := .command (i &&& 0x3F) (a₃ ++ a₂ ++ a₁ ++ a₀) }
  | filler {c : Card} {x cmd : BYTE} {arg : DWORD} (at_ : c.phase = .command cmd arg) :
      Step c x 0xFF c
  | answer {c : Card} {x r cmd : BYTE} {arg : DWORD} (at_ : c.phase = .command cmd arg)
      (h : r &&& 0x80 = 0) : Step c x r { c with phase := c.answered cmd arg r }
  | latency {c : Card} {x : BYTE} {a : Nat} (at_ : c.phase = .latency a) : Step c x 0xFF c
  | token {c : Card} {x k k' : BYTE} {a : Nat} (at_ : c.phase = .latency a) :
      Step c x 0xFE { c with phase := .sending ((c.store a).toList ++ [k, k']) }
  | dataError {c : Card} {x y : BYTE} {a : Nat} (at_ : c.phase = .latency a) (h : y ≠ 0xFF)
      (h' : y ≠ 0xFE) : Step c x y { c with phase := .loose }
  | send {c : Card} {x y : BYTE} {ys : List BYTE} (at_ : c.phase = .sending (y :: ys)) :
      Step c x y { c with phase := .sending ys }
  | sent {c : Card} {x : BYTE} (at_ : c.phase = .sending []) : Step c x 0xFF { c with phase := .loose }
  | loose {c : Card} {x y : BYTE} (at_ : c.phase = .loose) : Step c x y c
  | await {c : Card} {a : Nat} {multi : Bool} (at_ : c.phase = .await a multi) :
      Step c 0xFF 0xFF c
  | data {c : Card} {x y : BYTE} {a : Nat} {multi : Bool} (at_ : c.phase = .await a multi)
      (h : x = startToken multi) : Step c x y { c with phase := .packet a multi [] }
  | stop {c : Card} {y : BYTE} {a : Nat} (at_ : c.phase = .await a true) :
      Step c 0xFD y { c with phase := .stuff, stops := c.stops + 1 }
  | packet {c : Card} {x y : BYTE} {a : Nat} {multi : Bool} {got : List BYTE}
      (at_ : c.phase = .packet a multi got) (h : got.length ≠ 514) :
      Step c x y { c with phase := .packet a multi (got ++ [x]) }
  | accept {c : Card} {x y : BYTE} {a : Nat} {multi : Bool} {got : List BYTE}
      (at_ : c.phase = .packet a multi got) (h : got.length = 514) (h' : y &&& 0x1F = 0x05) :
      Step c x y { c with
        store := Function.update c.store a (block512 got h)
        phase := .busy (if multi then some (a + 1) else none)
        responses := true :: c.responses }
  | reject {c : Card} {x y : BYTE} {a : Nat} {multi : Bool} {got : List BYTE}
      (at_ : c.phase = .packet a multi got) (h : got.length = 514) (h' : y &&& 0x1F ≠ 0x05) :
      Step c x y { c with
        phase := .busy (if multi then some a else none)
        responses := false :: c.responses }
  | busy {c : Card} {x y : BYTE} {next : Option Nat} (at_ : c.phase = .busy next) (h : y ≠ 0xFF) :
      Step c x y c
  | release {c : Card} {next : Option Nat} (at_ : c.phase = .busy next) :
      Step c 0xFF 0xFF { c with phase := next.elim .ready (.await · true) }
  | stuff {c : Card} {x y : BYTE} (at_ : c.phase = .stuff) : Step c x y { c with phase := .busy none }
  | astray {c : Card} {x y : BYTE} {a : Nat} {multi : Bool} (at_ : c.phase = .await a multi)
      (h : x ≠ 0xFF) (h' : x ≠ startToken multi) (h'' : multi = true → x ≠ 0xFD) :
      Step c x y { c with phase := .loose }
  | disturb {c : Card} {x y : BYTE} {next : Option Nat} (at_ : c.phase = .busy next)
      (h : x ≠ 0xFF) : Step c x y { c with phase := .loose }

/-! What a card does in each phase. -/

variable {c c' : Card} {x y : BYTE}

theorem step_ready (h : c.Step 0xFF y c') (at_ : c.phase = .ready) : y = 0xFF ∧ c' = c := by
  cases h <;> simp_all

theorem step_start (h : c.Step x y c') (at_ : c.phase = .ready) (start : x &&& 0xC0 = 0x40) :
    c' = { c with phase := .frame [x] } := by
  cases h <;> simp_all

theorem step_frame {got : List BYTE} (h : c.Step x y c') (at_ : c.phase = .frame got)
    (more : got.length < 5) : c' = { c with phase := .frame (got ++ [x]) } := by
  cases h <;> simp_all
  grind

theorem step_framed {i a₃ a₂ a₁ a₀ : BYTE} (h : c.Step x y c')
    (at_ : c.phase = .frame [i, a₃, a₂, a₁, a₀]) :
    c' = { c with phase := .command (i &&& 0x3F) (a₃ ++ a₂ ++ a₁ ++ a₀) } := by
  cases h <;> simp_all

theorem step_command {cmd : BYTE} {arg : DWORD} (h : c.Step x y c')
    (at_ : c.phase = .command cmd arg) :
    y = 0xFF ∧ c' = c ∨ y &&& 0x80 = 0 ∧ c' = { c with phase := c.answered cmd arg y } := by
  cases h <;> simp_all

theorem step_latency {a : Nat} (h : c.Step x y c') (at_ : c.phase = .latency a) :
    y = 0xFF ∧ c' = c ∨
      (y = 0xFE ∧ ∃ k k', c' = { c with phase := .sending ((c.store a).toList ++ [k, k']) }) ∨
      y ≠ 0xFF ∧ y ≠ 0xFE ∧ c' = { c with phase := .loose } := by
  cases h <;> simp_all

theorem step_sending {b : BYTE} {bs : List BYTE} (h : c.Step x y c')
    (at_ : c.phase = .sending (b :: bs)) : y = b ∧ c' = { c with phase := .sending bs } := by
  cases h <;> simp_all

theorem step_await {a : Nat} {multi : Bool} (h : c.Step 0xFF y c')
    (at_ : c.phase = .await a multi) : y = 0xFF ∧ c' = c := by
  cases multi <;> cases h <;> simp_all [startToken]

theorem step_token {a : Nat} {multi : Bool} (h : c.Step x y c') (at_ : c.phase = .await a multi)
    (token : x = startToken multi) : c' = { c with phase := .packet a multi [] } := by
  cases multi <;> cases h <;> simp_all [startToken]

theorem step_stop {a : Nat} (h : c.Step 0xFD y c') (at_ : c.phase = .await a true) :
    c' = { c with phase := .stuff, stops := c.stops + 1 } := by
  cases h <;> simp_all [startToken]

theorem step_packet {a : Nat} {multi : Bool} {got : List BYTE} (h : c.Step x y c')
    (at_ : c.phase = .packet a multi got) (more : got.length < 514) :
    c' = { c with phase := .packet a multi (got ++ [x]) } := by
  cases h <;> simp_all
  all_goals grind

theorem step_response {a : Nat} {multi : Bool} {got : List BYTE} (h : c.Step x y c')
    (at_ : c.phase = .packet a multi got) (full : got.length = 514) :
    (y &&& 0x1F = 0x05 ∧ c' = { c with
        store := Function.update c.store a (block512 got full)
        phase := .busy (if multi then some (a + 1) else none)
        responses := true :: c.responses }) ∨
      y &&& 0x1F ≠ 0x05 ∧ c' = { c with
        phase := .busy (if multi then some a else none)
        responses := false :: c.responses } := by
  cases h <;> simp_all

theorem step_busy {next : Option Nat} (h : c.Step 0xFF y c') (at_ : c.phase = .busy next) :
    y = 0xFF ∧ c' = { c with phase := next.elim .ready (.await · true) } ∨
      y ≠ 0xFF ∧ c' = c := by
  cases h <;> simp_all

theorem step_stuff (h : c.Step x y c') (at_ : c.phase = .stuff) :
    c' = { c with phase := .busy none } := by
  cases h <;> simp_all

end Card

/-- A board whose card, in the state `view` makes out, does what a card may do. The
clock, the pins and whatever the bus reads while nothing is selected are free. -/
structure Conforms {σ : Type} (b : Board σ) (view : σ → Card) : Prop where
  low : ∀ x s, (view s).Step x (b.transfer .low x s).1 (view (b.transfer .low x s).2)
  high : ∀ x s, ∃ p, (view s).phase.Off p ∧
    view (b.transfer .high x s).2 = { view s with phase := p }
  millis : ∀ s, view (b.millis s).2 = view s
  delay : ∀ ms s, view (b.delay ms s) = view s
  digitalRead : ∀ p s, view (b.digitalRead p s).2 = view s

/-! ## The machine with its card -/

structure Scene where
  drv : SdspiDriver
  out : Pin → Level
  card : Card

namespace Scene

/-- The level of the driver's own CS pin. -/
def level (w : Scene) : Level := w.out w.drv.cs

/-- The card in the phase `p`. -/
def at_ (w : Scene) (p : Phase) : Scene := { w with card := { w.card with phase := p } }

/-- A byte `x` sent and `y` received. -/
inductive Exchange (w : Scene) (x y : BYTE) : Scene → Prop
  | low {c : Card} (h : w.level = .low) (step : w.card.Step x y c) : Exchange w x y { w with card := c }
  | high {p : Phase} (h : w.level = .high) (off : w.card.phase.Off p) : Exchange w x y (w.at_ p)

def rules : Rules Request.Ans Scene where
  allowed _ _ := True
  step w
    | .transfer x, y, w' => w.Exchange x y w'
    | .digitalWrite p l, _, w' => w' = { w with out := Function.update w.out p l }
    | .load, d, w' => d = w.drv ∧ w' = w
    | .store f, _, w' => w' = { w with drv := f w.drv }
    | _, _, w' => w' = w

end Scene

/-- A machine as a scene. -/
def Machine.scene {σ : Type} (view : σ → Card) (m : Machine σ) : Scene := ⟨m.drv, m.out, view m.env⟩

theorem scene_simulates {σ : Type} {b : Board σ} {view : σ → Card} (h : Conforms b view) :
    Simulates (Machine.handle b) Scene.rules fun m w => w = m.scene view := by
  rintro m w rfl r -
  cases r with
  | transfer x =>
    refine ⟨_, ?_, rfl⟩
    cases level : m.csLevel with
    | low =>
      have step := Scene.Exchange.low (w := m.scene view) level (h.low x m.env)
      simpa [Scene.rules, Machine.handle, level, Machine.scene] using step
    | high =>
      obtain ⟨p, off, next⟩ := h.high x m.env
      have step := Scene.Exchange.high (w := m.scene view) (x := x)
        (y := (b.transfer .high x m.env).1) level off
      simpa [Scene.rules, Machine.handle, level, Machine.scene, Scene.at_, next] using step
  | load => exact ⟨_, ⟨rfl, rfl⟩, rfl⟩
  | digitalWrite | mutexLock | mutexUnlock | store | mark => exact ⟨_, rfl, rfl⟩
  | spi c => cases c <;> exact ⟨_, rfl, rfl⟩
  | digitalRead p =>
    refine ⟨m.scene view, rfl, ?_⟩
    simp [Machine.handle, Machine.scene, h.digitalRead]
  | millis =>
    refine ⟨m.scene view, rfl, ?_⟩
    simp [Machine.handle, Machine.scene, h.millis]
  | delay ms =>
    refine ⟨m.scene view, rfl, ?_⟩
    simp [Machine.handle, Machine.scene, h.delay]

/-- What the rules promise of a program holds of its runs on boards with a card. -/
theorem exec_scene {σ α : Type} {b : Board σ} {view : σ → Card} (h : Conforms b view) {p : Prog α}
    {Q : α → Scene → Prop} {m m' : Machine σ} {a : α} (hp : p.wp Scene.rules Q (m.scene view))
    (run : exec b p m = some (a, m')) : Q a (m'.scene view) := by
  obtain ⟨w, hw, rfl⟩ := run_sound (scene_simulates h) rfl hp run
  exact hw

end FatFsParticle.Sdspi
