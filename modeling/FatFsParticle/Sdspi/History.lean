import FatFsParticle.Sdspi.Initialize
import Mathlib.Logic.Relation

/-!
# Runs of calls on one driver

A run is any sequence of calls of the driver's public functions, each on any
board, with the world changed arbitrarily in between: removals, insertions and
swaps of the card. What happened before a moment is read off the log.
-/

namespace FatFsParticle.Sdspi
open Interact Program

variable {σ α : Type} {b : Board σ} {m m' : Machine σ}

inductive Call where
  | initializeCard
  | status
  | read (buff : List BYTE) (sector : DWORD) (count : UINT)
  | write (buff : List BYTE) (sector : DWORD) (count : UINT)
  | ioctl (cmd : BYTE) (dp : DWORD × DWORD)
  | highSpeedClock (clock : DWORD)
  | lowSpeedClock (clock : DWORD)

/-- The call, its result left aside. -/
def Call.prog (fuel : Nat) : Call → Prog Unit
  | initializeCard => do let _ ← Sdspi.initializeCard fuel; pure ()
  | status => do let _ ← Sdspi.status; pure ()
  | read buff sector count => do let _ ← Sdspi.read fuel buff sector count; pure ()
  | write buff sector count => do let _ ← Sdspi.write fuel buff sector count; pure ()
  | ioctl cmd dp => do let _ ← Sdspi.ioctl fuel cmd dp; pure ()
  | highSpeedClock clock => Sdspi.highSpeedClock clock
  | lowSpeedClock clock => Sdspi.lowSpeedClock clock

theorem exec_discard {p : Prog α} :
    exec b (do let _ ← p; pure ()) m = some ((), m') ↔ ∃ a, exec b p m = some (a, m') := by
  rw [exec_bind]
  cases exec b p m with
  | none => simp
  | some x =>
    obtain ⟨a, t⟩ := x
    simp

inductive Step : Machine σ → Machine σ → Prop
  | call (b : Board σ) (fuel : Nat) (c : Call) {m m' : Machine σ}
      (h : exec b (c.prog fuel) m = some ((), m')) : Step m m'
  | world (s : σ) (m : Machine σ) : Step m { m with env := s }

abbrev Run : Machine σ → Machine σ → Prop := Relation.ReflTransGen Step

/-- One thing that happens in a run, as data. -/
inductive Move (σ : Type) where
  | call (b : Board σ) (fuel : Nat) (c : Call)
  | world (f : σ → σ)

def Move.apply : Move σ → Machine σ → Option (Machine σ)
  | call b fuel c, m => (exec b (c.prog fuel) m).map Prod.snd
  | world f, m => some { m with env := f m.env }

def replay : List (Move σ) → Machine σ → Option (Machine σ)
  | [], m => some m
  | a :: as, m => (a.apply m).bind (replay as)

theorem replay_run {as : List (Move σ)} (h : replay as m = some m') : Run m m' := by
  induction as generalizing m with
  | nil =>
    cases h
    exact .refl
  | cons a as ih =>
    obtain ⟨t, ht, h⟩ := Option.bind_eq_some_iff.1 h
    refine .head ?_ (ih h)
    cases a with
    | call b fuel c =>
      obtain ⟨⟨⟨⟩, u⟩, hu, rfl⟩ := Option.map_eq_some_iff.1 ht
      exact .call b fuel c hu
    | world f =>
      cases ht
      exact .world _ m

theorem replay_any (as : List (Move σ)) (m : Machine σ) (P : Machine σ → Bool)
    (h : (replay as m).any P = true) : ∃ m', Run m m' ∧ P m' = true := by
  cases hr : replay as m with
  | none =>
    rw [hr] at h
    cases h
  | some m' =>
    rw [hr] at h
    exact ⟨m', replay_run hr, h⟩

/-- The driver as constructed, after `begin(spi, cs, mutex)`. -/
def SdspiDriver.begin (cs : Pin) (mutex : Option MutexId) : SdspiDriver :=
  { cs := cs, mutex := mutex }

def SdspiDriver.enableCardDetect (d : SdspiDriver) (cdPin : Pin) (activeState : Level) :
    SdspiDriver :=
  { d with cd := cdPin, cdActiveState := activeState, cdEnabled := true }

def SdspiDriver.enableWriteProtectDetect (d : SdspiDriver) (wpPin : Pin) (activeState : Level) :
    SdspiDriver :=
  { d with wp := wpPin, wpActiveState := activeState, wpEnabled := true }

/-- Constructed and begun, with its pins set up in any way, and not used since. -/
inductive SetUp : SdspiDriver → Prop
  | begin (cs : Pin) (mutex : Option MutexId) : SetUp (.begin cs mutex)
  | cardDetect {d : SdspiDriver} (h : SetUp d) (p : Pin) (l : Level) : SetUp (d.enableCardDetect p l)
  | writeProtect {d : SdspiDriver} (h : SetUp d) (p : Pin) (l : Level) :
      SetUp (d.enableWriteProtectDetect p l)

theorem SetUp.status {d : SdspiDriver} (h : SetUp d) : d.status = staNoinit := by
  induction h with
  | begin => rfl
  | cardDetect _ _ _ ih | writeProtect _ _ _ ih => exact ih

/-- A machine whose driver has made no call yet. -/
def Machine.start (d : SdspiDriver) (out : Pin → Level) (hz : DWORD) (s : σ) : Machine σ :=
  ⟨d, out, hz, [], s⟩

/-- A driver on pin 0 with card detect on pin 1, at rest in front of the given pins. -/
def detecting (pins : Pin → Level) : Machine Scripted :=
  .start ((SdspiDriver.begin 0 none).enableCardDetect 1 .high) (fun _ => .high) 0 ⟨pins, [], []⟩

theorem detecting_setUp : SetUp ((SdspiDriver.begin 0 none).enableCardDetect 1 .high) :=
  .cardDetect (.begin 0 none) 1 .high

/-! ## What the log tells -/

/-- The newest event is the presence check of `initialize()` or `status()` finding
the slot empty. -/
def foundEmpty : List Event → Bool
  | .pin p level :: .mark (.enter f) d :: _ =>
    (f == .initializeCard || f == .status) && d.cdEnabled && p == d.cd && level != d.cdActiveState
  | _ => false

/-- The newest event is the end of an `initialize()` that succeeded. -/
def initialized : List Event → Bool
  | .mark (.leave .initializeCard) d :: older => d.status &&& staNoinit == 0 && !foundEmpty older
  | _ => false

/-- The member functions being executed, innermost first, each with the driver's
members at its start. -/
def openCalls : List Event → List (Member × SdspiDriver)
  | [] => []
  | .mark (.enter f) d :: older => (f, d) :: openCalls older
  | .mark (.leave _) _ :: older => (openCalls older).tail
  | _ :: older => openCalls older

theorem openCalls_inner {hz : DWORD} {l : List Event} (h : ∀ e ∈ l, e.IsInner hz)
    (log : List Event) : openCalls (l ++ log) = openCalls log := by
  induction l with
  | nil => rfl
  | cons e l ih =>
    have rest := ih fun e he => h e (List.mem_cons_of_mem _ he)
    cases e with
    | byte | tick | pin => exact rest
    | mark k d => exact (h _ List.mem_cons_self).elim

/-- A part of a log that ends among the newer events begins with one of them. -/
theorem suffix_newer {new old u : List Event} (h : u <:+ new ++ old) (longer : old.length < u.length) :
    ∃ later e rest, new = later ++ e :: rest ∧ u = e :: rest ++ old := by
  obtain ⟨later, split⟩ := h
  rcases List.append_eq_append_iff.1 split with ⟨mid, rfl, rfl⟩ | ⟨mid, rfl, rfl⟩
  · cases mid with
    | nil => simp at longer
    | cons e rest => exact ⟨later, e, rest, rfl, rfl⟩
  · simp only [List.length_append] at longer
    omega

/-- A call of `f` has begun and not ended. -/
def inside (f : Member) : List Event → Bool
  | [] => false
  | .mark (.enter g) _ :: older => g == f || inside f older
  | .mark (.leave g) _ :: older => g != f && inside f older
  | .byte _ _ _ _ :: older | .tick _ :: older | .pin _ _ :: older => inside f older

theorem inside_inner {hz : DWORD} {l : List Event} (h : ∀ e ∈ l, e.IsInner hz) (f : Member)
    (log : List Event) : inside f (l ++ log) = inside f log := by
  induction l with
  | nil => rfl
  | cons e l ih =>
    have rest := ih fun e he => h e (List.mem_cons_of_mem _ he)
    cases e with
    | byte | tick | pin => exact rest
    | mark k d => exact (h _ List.mem_cons_self).elim

theorem initializeCard_inside {fuel : Nat} {st : DSTATUS} {f : Member}
    (hf : f ≠ .initializeCard) (h : exec b (initializeCard fuel) m = some (st, m')) :
    inside f m'.log = inside f m.log := by
  have other : (Member.initializeCard == f) = false := beq_eq_false_iff_ne.2 hf.symm
  cases initializeCard_outcome h with
  | empty level absent status enabled read drv log =>
    rw [log]
    simp [inside, bne, other]
  | concluded ty w pins traffic cd y present status drv wpEnabled wp wpActiveState log pins_inner
      is_traffic detect =>
    have cd_inner : ∀ e ∈ cd, e.IsInner m.drv.activeClock := by
      rcases detect with ⟨-, rfl⟩ | ⟨-, rfl⟩ <;> simp [Event.IsInner]
    rw [log, inside, inside_inner pins_inner, inside,
      inside_inner fun e he => (is_traffic e he).inner, inside_inner cd_inner, inside]
    simp [bne, other]

/-- The mark at the end of an `initialize()` is the only one of its kind in it. -/
theorem initializeCard_ends {fuel : Nat} {st : DSTATUS}
    (run : exec b (initializeCard fuel) m = some (st, m')) : ∃ mid,
    m'.log = .mark (.leave .initializeCard) m'.drv :: (mid ++ m.log) ∧
      ∀ e ∈ mid, ∀ f d, e ≠ .mark (.leave f) d := by
  cases initializeCard_outcome run with
  | empty level absent status enabled read drv log => exact ⟨[_, _], log, by simp⟩
  | concluded ty w pins traffic cd y present status drv wpEnabled wp wpActiveState log inner
      is_traffic detect =>
    refine ⟨pins ++ .byte .high m.drv.activeClock 0xFF y :: (traffic ++
      (cd ++ [.mark (.enter .initializeCard) m.drv])), by simpa using log, ?_⟩
    rintro e he f d rfl
    simp only [List.mem_append, List.mem_cons, List.not_mem_nil, or_false, reduceCtorEq,
      false_or, Event.mark.injEq, false_and] at he
    rcases he with he | he | he
    · exact inner _ he
    · exact is_traffic _ he
    · rcases detect with ⟨-, rfl⟩ | ⟨-, rfl⟩ <;> simp at he

theorem status_ends {st : DSTATUS} (run : exec b status m = some (st, m')) : ∃ mid,
    m'.log = .mark (.leave .status) m'.drv :: (mid ++ m.log) ∧
      ∀ e ∈ mid, ∀ f d, e ≠ .mark (.leave f) d := by
  cases status_outcome run with
  | empty level absent status enabled read drv log => exact ⟨[_, _], log, by simp⟩
  | present w pins cd present status drv same log shape detect =>
    refine ⟨pins ++ (cd ++ [.mark (.enter .status) m.drv]), by simpa using log, ?_⟩
    rcases shape with ⟨-, rfl⟩ | ⟨-, level, rfl⟩ <;> rcases detect with ⟨-, rfl⟩ | ⟨-, rfl⟩ <;>
      simp

theorem slot_inner (b : Board σ) (m : Machine σ) :
    ∃ new, (m.slot b).2.log = new ++ m.log ∧ ∀ e ∈ new, e.IsInner m.hz := by
  rcases m.slot_log b with ⟨-, hs⟩ | ⟨-, level, -, hlog⟩
  · exact ⟨[], by rw [hs]; rfl, by simp⟩
  · exact ⟨[_], hlog, by simp [Event.IsInner]⟩

/-- After something other than a mark, no presence check is the newest event. -/
theorem foundEmpty_inner {hz : DWORD} {l : List Event} (h : ∀ e ∈ l, e.IsInner hz)
    {x : Event} (hx : x.IsTraffic hz) (log : List Event) : foundEmpty (l ++ x :: log) = false := by
  match l with
  | [] => cases x <;> first | rfl | exact hx.elim
  | [e] => cases e <;> cases x <;> first | rfl | exact hx.elim
  | e :: e' :: l =>
    have he := h e' (by simp)
    cases e <;> cases e' <;> first | rfl | exact he.elim

end FatFsParticle.Sdspi
