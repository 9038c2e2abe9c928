import FatFsParticle.Interact.Logic
import Mathlib.Logic.Relation
import Mathlib.Data.Option.Basic
import Mathlib.Logic.Function.Basic

/-!
# Threads that run programs

Any number of threads over one shared state, in every interleaving: an idle thread
begins a job, a running one makes the next request of its program, and a thread whose
program is over is idle again. A `Protocol` gives each running thread a ghost value
and rules for it, and says what the ghost values tell about the shared state; a
program that obeys the rules alone then keeps the protocol among all others.
-/

namespace Interact

variable {Req : Type} {Ans : Req → Type} {T J S G : Type}

/-- What threads do to a shared state. -/
structure Sharing (Ans : Req → Type) (T J S : Type) where
  /-- A request of a thread in a job, with its answer. -/
  act : T → J → (r : Req) → Ans r → S → S → Prop
  /-- A step of a thread between two jobs. -/
  idle : T → S → S → Prop
  /-- The programs of a job a thread can begin in a state. -/
  code : T → J → S → Program Ans Unit → Prop

structure Pool (Ans : Req → Type) (T J S : Type) where
  shared : S
  threads : T → Option (J × Program Ans Unit)

namespace Pool

/-- The rest of a job, if any is left. -/
def resume (j : J) : Program Ans Unit → Option (J × Program Ans Unit)
  | .ret _ => none
  | .call r k => some (j, .call r k)
  | .stuck => some (j, .stuck)

variable [DecidableEq T]

inductive Step (W : Sharing Ans T J S) : Pool Ans T J S → Pool Ans T J S → Prop
  | idle {s s' : S} {ts : T → Option (J × Program Ans Unit)} (t : T) (free : ts t = none)
      (h : W.idle t s s') : Step W ⟨s, ts⟩ ⟨s', ts⟩
  | begin {s : S} {ts : T → Option (J × Program Ans Unit)} (t : T) (j : J) (p : Program Ans Unit)
      (free : ts t = none) (h : W.code t j s p) :
      Step W ⟨s, ts⟩ ⟨s, Function.update ts t (resume j p)⟩
  | act {s s' : S} {ts : T → Option (J × Program Ans Unit)} (t : T) (j : J) (r : Req)
      (k : Ans r → Program Ans Unit) (x : Ans r) (running : ts t = some (j, .call r k))
      (h : W.act t j r x s s') : Step W ⟨s, ts⟩ ⟨s', Function.update ts t (resume j (k x))⟩

end Pool

variable [DecidableEq T]

/-- Rules for the threads, with what the ghost values tell about the shared state. -/
structure Protocol (W : Sharing Ans T J S) (G : Type) where
  rules : J → Rules Ans G
  post : J → G → Prop
  coherent : S → (T → Option (J × G)) → Prop
  idle : ∀ s s' g t, coherent s g → g t = none → W.idle t s s' → coherent s' g
  begin : ∀ s g t j p, coherent s g → g t = none → W.code t j s p →
    ∃ l, p.wp (rules j) (fun _ => post j) l ∧ coherent s (Function.update g t (some (j, l)))
  /-- What a thread can tell of the state right after a request of its own. -/
  sees : J → G → S → Prop
  act : ∀ s s' g t j l r x, coherent s g → g t = some (j, l) → (rules j).allowed l r →
    W.act t j r x s s' → ∃ l', (rules j).step l r x l' ∧
      coherent s' (Function.update g t (some (j, l'))) ∧ sees j l' s'
  done : ∀ s g t j l, coherent s g → g t = some (j, l) → post j l →
    coherent s (Function.update g t none)

namespace Protocol

variable {W : Sharing Ans T J S} (P : Protocol W G)

/-- The ghost value of a thread belongs to its job, and the rest of its program obeys
the rules from there. -/
def Obeys (x : J × Program Ans Unit) (y : J × G) : Prop :=
  x.1 = y.1 ∧ x.2.wp (P.rules x.1) (fun _ => P.post x.1) y.2

def Follows (c : Pool Ans T J S) : Prop :=
  ∃ g, P.coherent c.shared g ∧ ∀ t, Option.Rel P.Obeys (c.threads t) (g t)

variable {P}

theorem rel_none {o : Option (J × G)} (h : Option.Rel P.Obeys none o) : o = none := by
  cases h
  rfl

theorem rel_some {j : J} {p : Program Ans Unit} {o : Option (J × G)}
    (h : Option.Rel P.Obeys (some (j, p)) o) :
    ∃ l, o = some (j, l) ∧ p.wp (P.rules j) (fun _ => P.post j) l := by
  cases h with
  | some h =>
    rename_i y
    obtain ⟨j', l⟩ := y
    obtain ⟨rfl, h⟩ := h
    exact ⟨l, rfl, h⟩

/-- One thread continues with `p` from the ghost value `l`, or is idle when `p` is over. -/
theorem follows_resume {s : S} {ts : T → Option (J × Program Ans Unit)} {g : T → Option (J × G)}
    {t : T} {j : J} {p : Program Ans Unit} {l : G}
    (rel : ∀ t, Option.Rel P.Obeys (ts t) (g t))
    (coherent : P.coherent s (Function.update g t (some (j, l))))
    (obeys : p.wp (P.rules j) (fun _ => P.post j) l) :
    P.Follows ⟨s, Function.update ts t (Pool.resume j p)⟩ := by
  have others {o : Option (J × Program Ans Unit)} {o' : Option (J × G)}
      (same : Option.Rel P.Obeys o o') (u : T) :
      Option.Rel P.Obeys (Function.update ts t o u) (Function.update g t o' u) := by
    by_cases h : u = t
    · subst h
      simpa using same
    · simpa [h] using rel u
  cases p with
  | ret a =>
    refine ⟨Function.update g t none, ?_, others .none⟩
    have ended := P.done s _ t j l coherent (by simp) obeys
    simpa using ended
  | call r k => exact ⟨_, coherent, others (.some ⟨rfl, obeys⟩)⟩
  | stuck => exact ⟨_, coherent, others (.some ⟨rfl, obeys⟩)⟩

theorem step_follows {c c' : Pool Ans T J S} (h : P.Follows c) (step : Pool.Step W c c') :
    P.Follows c' := by
  obtain ⟨g, coherent, rel⟩ := h
  cases step with
  | idle t free h =>
    have off : Option.Rel P.Obeys none (g t) := by simpa only [free] using rel t
    exact ⟨g, P.idle _ _ g t coherent (rel_none off) h, rel⟩
  | begin t j p free h =>
    have off : Option.Rel P.Obeys none (g t) := by simpa only [free] using rel t
    obtain ⟨l, obeys, coherent'⟩ := P.begin _ g t j p coherent (rel_none off) h
    exact follows_resume rel coherent' obeys
  | act t j r k x running h =>
    have on : Option.Rel P.Obeys (some (j, .call r k)) (g t) := by
      simpa only [running] using rel t
    obtain ⟨l, hl, allowed, next⟩ := rel_some on
    obtain ⟨l', hstep, coherent', -⟩ := P.act _ _ g t j l r x coherent hl allowed h
    exact follows_resume rel coherent' (next x l' hstep)

theorem run_follows {c c' : Pool Ans T J S} (h : P.Follows c)
    (run : Relation.ReflTransGen (Pool.Step W) c c') : P.Follows c' := by
  induction run with
  | refl => exact h
  | tail _ step ih => exact step_follows ih step

/-- Where a thread's job ends, its ghost value satisfies the postcondition. -/
theorem step_returns {c c' : Pool Ans T J S} (h : P.Follows c) (step : Pool.Step W c c') {t : T}
    {j : J} {p : Program Ans Unit} (running : c.threads t = some (j, p))
    (ended : c'.threads t = none) :
    ∃ g l, P.coherent c'.shared g ∧ g t = some (j, l) ∧ P.post j l ∧ P.sees j l c'.shared := by
  obtain ⟨g, coherent, rel⟩ := h
  cases step with
  | idle u free h => exact absurd (running.symm.trans ended) (by simp)
  | begin u j' p' free h =>
    by_cases hu : t = u
    · subst hu
      exact absurd (running.symm.trans free) (by simp)
    · have same := running.symm.trans (by simpa only [Function.update_of_ne hu] using ended)
      cases same
  | act u j' r k x running' h =>
    by_cases hu : t = u
    · subst hu
      obtain ⟨rfl, rfl⟩ := by simpa using running.symm.trans running'
      have on : Option.Rel P.Obeys (some (j, .call r k)) (g t) := by
        simpa only [running'] using rel t
      obtain ⟨l, hl, allowed, next⟩ := rel_some on
      obtain ⟨l', hstep, coherent', sees⟩ := P.act _ _ g t j l r x coherent hl allowed h
      have obeys := next x l' hstep
      have ended : Pool.resume j (k x) = none := by
        simpa only [Function.update_self] using ended
      cases hk : k x with
      | ret a =>
        rw [hk] at obeys
        exact ⟨_, l', coherent', by simp, obeys, sees⟩
      | call r' k' =>
        rw [hk] at ended
        cases ended
      | stuck =>
        rw [hk] at ended
        cases ended
    · have same := running.symm.trans (by simpa only [Function.update_of_ne hu] using ended)
      cases same

end Protocol

end Interact
