import FatFsParticle.Sdspi.Card
import FatFsParticle.Sdspi.Polite

/-!
# What the wires tell

Somebody who sees the bytes on both lines while CS is low, and nothing else, makes out
the command frames, the answers to them and the data packets of a write: `watch`. The
card at the other end may be anything. `Bench` is the machine with that knowledge, and
its `rules` forbid one thing: to begin a command frame while the card waits for a data
token.
-/

namespace FatFsParticle.Sdspi
open Interact Program

/-- Where the talk is. `frame`: the first bytes of a command frame are out. `reply`: all
of it is out, and R1 may come in one of the next `left` bytes. `tokens`: the card waits
for a data token. `packet`: the token is out, and `left` more bytes before the data
response. -/
inductive Talk where
  | between
  | frame (sent : List BYTE)
  | reply (cmd : BYTE) (left : Nat)
  | tokens (multi : Bool)
  | packet (multi : Bool) (left : Nat)
  deriving DecidableEq, Repr

/-- What can be made out. `ready`: the card that waits for a data token sent 0xFF.
`stray`: a command frame began while it waits for one. -/
inductive Sign where
  | command (cmd : BYTE)
  | accepted (cmd : BYTE)
  | ready
  | packet (multi : Bool)
  | stop
  | stray
  deriving DecidableEq, Repr

/-- Where R1 of 0 to a command takes the talk. -/
def Talk.granted (cmd : BYTE) : Talk :=
  if cmd = cmd24 then .tokens false else if cmd = cmd25 then .tokens true else .between

/-- The byte `sent` exchanged for `got` while CS is low, and what shows in it. -/
def Talk.hear (sent got : BYTE) : Talk → Talk × List Sign
  | .between => (if sent &&& 0xC0 = 0x40 then .frame [sent] else .between, [])
  | .frame [i, _, _, _, _] => (.reply (i &&& 0x3F) 10, [.command (i &&& 0x3F)])
  | .frame bytes => (.frame (bytes ++ [sent]), [])
  | .reply cmd left =>
    if got &&& 0x80 = 0 then
      if got = 0 then (Talk.granted cmd, [.accepted cmd]) else (.between, [])
    else (if left ≤ 1 then .between else .reply cmd (left - 1), [])
  | .tokens multi =>
    if sent &&& 0xC0 = 0x40 then (.frame [sent], [.stray])
    else if sent = Card.startToken multi then (.packet multi 514, [])
    else if multi = true ∧ sent = 0xFD then (.between, [.stop])
    else (.tokens multi, if got = 0xFF then [.ready] else [])
  | .packet multi 0 => (if multi then .tokens true else .between, [.packet multi])
  | .packet multi (left + 1) => (.packet multi left, [])

def Event.heard : Event → Talk → Talk × List Sign
  | .byte .low _ sent got, t => t.hear sent got
  | _, t => (t, [])

/-- What the events tell, newest first, begun at `t`. -/
def watch (t : Talk) : List Event → Talk × List Sign
  | [] => (t, [])
  | e :: older =>
    ((e.heard (watch t older).1).1, (e.heard (watch t older).1).2 ++ (watch t older).2)

theorem watch_append (t : Talk) (newer older : List Event) :
    watch t (newer ++ older) =
      ((watch (watch t older).1 newer).1, (watch (watch t older).1 newer).2 ++ (watch t older).2) := by
  induction newer with
  | nil => rfl
  | cons e newer ih => simp only [List.cons_append, watch, ih, List.append_assoc]

/-! ## The machine and its wires -/

structure Bench where
  drv : SdspiDriver
  out : Pin → Level
  talk : Talk
  signs : List Sign

namespace Bench

def level (w : Bench) : Level := w.out w.drv.cs

/-- A byte `x` sent and `y` received. -/
def hears (x y : BYTE) (w : Bench) : Bench :=
  match w.level with
  | .low => { w with talk := (w.talk.hear x y).1, signs := (w.talk.hear x y).2 ++ w.signs }
  | .high => w

/-- Any answer may come to a request; none may begin a frame before the card that waits
for a data token. -/
def rules : Rules Request.Ans Bench where
  allowed w
    | .transfer x => w.level = .low → ∀ multi, w.talk = .tokens multi → x &&& 0xC0 ≠ 0x40
    | _ => True
  step w
    | .transfer x, y, w' => w' = w.hears x y
    | .digitalWrite p l, _, w' => w' = { w with out := Function.update w.out p l }
    | .load, d, w' => d = w.drv ∧ w' = w
    | .store f, _, w' => w' = { w with drv := f w.drv }
    | _, _, w' => w' = w

end Bench

/-- No byte but a frame's first shows a stray frame. -/
theorem hear_stray {t : Talk} {x y : BYTE} (h : ∀ multi, t = .tokens multi → x &&& 0xC0 ≠ 0x40) :
    Sign.stray ∉ (t.hear x y).2 := by
  unfold Talk.hear
  split
  · exact List.not_mem_nil
  · simp
  · exact List.not_mem_nil
  · split_ifs <;> simp
  · rename_i multi
    rw [if_neg (h multi rfl)]
    split_ifs <;> simp
  · simp
  · exact List.not_mem_nil

/-- `w` describes the machine `m` since its log was `base`, and no frame was stray. -/
structure Describes {σ : Type} (base : List Event) (m : Machine σ) (w : Bench) : Prop where
  drv : w.drv = m.drv
  out : w.out = m.out
  log : ∃ new, m.log = new ++ base ∧ watch .between new = (w.talk, w.signs)
  orderly : Sign.stray ∉ w.signs

section
variable {σ α : Type} {b : Board σ} {base : List Event} {m m' : Machine σ} {w : Bench}

theorem Describes.refl (m : Machine σ) : Describes m.log m ⟨m.drv, m.out, .between, []⟩ :=
  ⟨rfl, rfl, ⟨[], rfl, rfl⟩, List.not_mem_nil⟩

/-- An event that no card hears. -/
theorem Describes.unheard (h : Describes base m w) {e : Event} {s : σ} (he : ∀ t, e.heard t = (t, [])) :
    Describes base { m with log := e :: m.log, env := s } w := by
  obtain ⟨new, log, told⟩ := h.log
  refine ⟨h.drv, h.out, ⟨e :: new, by rw [log]; rfl, ?_⟩, h.orderly⟩
  simp only [watch, told, he, List.nil_append]

theorem Describes.byte (h : Describes base m w) {x y : BYTE} {s : σ}
    (allowed : Bench.rules.allowed w (.transfer x)) :
    Describes base { m with log := .byte m.csLevel m.hz x y :: m.log, env := s } (w.hears x y) := by
  have same : m.csLevel = w.level := by
    unfold Machine.csLevel Bench.level
    rw [h.drv, h.out]
  obtain ⟨new, log, told⟩ := h.log
  unfold Bench.hears
  rw [same]
  cases level : w.level with
  | high => exact h.unheard fun _ => rfl
  | low =>
    refine ⟨h.drv, h.out, ⟨.byte .low m.hz x y :: new, by rw [log]; rfl, ?_⟩, ?_⟩
    · simp only [watch, told]
      rfl
    · intro stray
      rcases List.mem_append.1 stray with stray | stray
      · exact hear_stray (allowed level) stray
      · exact h.orderly stray

theorem bench_simulates (b : Board σ) (base : List Event) :
    Simulates (Machine.handle b) Bench.rules (Describes base) := by
  intro m w h r allowed
  cases r with
  | transfer x => exact ⟨_, rfl, h.byte allowed⟩
  | load => exact ⟨w, ⟨h.drv.symm, rfl⟩, h⟩
  | store f => exact ⟨_, rfl, congrArg f h.drv, h.out, h.log, h.orderly⟩
  | digitalWrite p l =>
    exact ⟨_, rfl, h.drv, congrArg (Function.update · p l) h.out, h.log, h.orderly⟩
  | delay | mutexLock | mutexUnlock => exact ⟨w, rfl, h.drv, h.out, h.log, h.orderly⟩
  | spi c => cases c <;> exact ⟨w, rfl, h.drv, h.out, h.log, h.orderly⟩
  | digitalRead | millis | mark => exact ⟨w, rfl, h.unheard fun _ => rfl⟩

/-- What the rules promise of a program holds of its runs on every board. -/
theorem exec_bench {p : Prog α} {Q : α → Bench → Prop} {a : α} (h : Describes base m w)
    (hp : p.wp Bench.rules Q w) (run : exec b p m = some (a, m')) :
    ∃ w', Q a w' ∧ Describes base m' w' :=
  run_sound (bench_simulates b base) h hp run

end

end FatFsParticle.Sdspi
