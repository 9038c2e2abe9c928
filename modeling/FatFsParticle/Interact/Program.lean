import Mathlib.Logic.Basic
import Mathlib.Data.List.Basic

/-!
# Programs that talk to a machine

Generic results about code that is a sequence of requests with answers:

* `Program`: a program as a tree, one node for each request it makes and one
  branch for each answer it can get;
* `run`: the program against a machine that answers every request and changes
  its own state in doing so;
* `run_steps`: what every request does to the machine, a run does;
* `advance`: the machine in the middle of the program;
* `Halts`: a program whose loops never use up their bounds;
* `Yields`: what every result of a program is like;
* `Maintains`: an invariant of the machine that holds again where a run ends.
-/

namespace Interact

variable {Req : Type} {Ans : Req → Type} {α β γ S : Type}

/-- A program over requests `Req`, where `r` is answered by a value of `Ans r`.
`stuck` is a loop that used up its bound on turns: nothing follows it. -/
inductive Program (Ans : Req → Type) (α : Type) where
  | ret (a : α)
  | call (r : Req) (k : Ans r → Program Ans α)
  | stuck

namespace Program

def bind (f : α → Program Ans β) : Program Ans α → Program Ans β
  | ret a => f a
  | call r k => call r fun x => (k x).bind f
  | stuck => stuck

instance : Monad (Program Ans) where
  pure := ret
  bind p f := p.bind f

/-- One request, its answer returned. -/
def request (r : Req) : Program Ans (Ans r) := call r ret

@[simp] theorem pure_bind (a : α) (f : α → Program Ans β) :
    ((pure a : Program Ans α) >>= f) = f a := rfl

@[simp] theorem call_bind (r : Req) (k : Ans r → Program Ans α) (f : α → Program Ans β) :
    (call r k >>= f) = call r fun x => k x >>= f := rfl

theorem bind_assoc (p : Program Ans α) (f : α → Program Ans β) (g : β → Program Ans γ) :
    (p >>= f >>= g) = (p >>= fun a => f a >>= g) := by
  induction p with
  | ret a => rfl
  | call r k ih => exact congrArg (call r) (funext ih)
  | stuck => rfl

theorem bind_ite {c : Prop} [Decidable c] (p q : Program Ans α) (f : α → Program Ans β) :
    ((if c then p else q) >>= f) = (if c then p >>= f else q >>= f) := by
  split <;> rfl

/-! ## Running a program -/

/-- The program against a machine `handle`; `none` when it gets stuck. -/
def run (handle : (r : Req) → S → Ans r × S) : Program Ans α → S → Option (α × S)
  | ret a, s => some (a, s)
  | call r k, s => (k (handle r s).1).run handle (handle r s).2
  | stuck, _ => none

variable (handle : (r : Req) → S → Ans r × S)

@[simp] theorem run_pure (a : α) (s : S) :
    (pure a : Program Ans α).run handle s = some (a, s) := rfl

@[simp] theorem run_ret (a : α) (s : S) : (ret a : Program Ans α).run handle s = some (a, s) := rfl

@[simp] theorem run_call (r : Req) (k : Ans r → Program Ans α) (s : S) :
    (call r k).run handle s = (k (handle r s).1).run handle (handle r s).2 := rfl

@[simp] theorem run_request (r : Req) (s : S) :
    (request r : Program Ans (Ans r)).run handle s = some (handle r s) := rfl

theorem run_bind (p : Program Ans α) (f : α → Program Ans β) (s : S) :
    (p >>= f).run handle s = (p.run handle s).bind fun x => (f x.1).run handle x.2 := by
  induction p generalizing s with
  | ret a => rfl
  | call r k ih => exact ih _ _
  | stuck => rfl

variable {handle}

/-- A run of a sequence is a run of its first part and, from where that ends,
a run of the rest. -/
theorem run_bind_some {p : Program Ans α} {f : α → Program Ans β} {s s' : S} {b : β} :
    (p >>= f).run handle s = some (b, s') ↔
      ∃ a t, p.run handle s = some (a, t) ∧ (f a).run handle t = some (b, s') := by
  rw [run_bind]
  cases p.run handle s with
  | none => simp
  | some x =>
    obtain ⟨a, t⟩ := x
    simp

/-- A machine whose states are only more detailed runs a program the same way. -/
theorem run_map {S' : Type} {handle' : (r : Req) → S' → Ans r × S'} {f : S' → S}
    (h : ∀ r s, handle r (f s) = ((handle' r s).1, f (handle' r s).2)) (p : Program Ans α) (s : S') :
    p.run handle (f s) = (p.run handle' s).map fun x => (x.1, f x.2) := by
  induction p generalizing s with
  | ret a => rfl
  | call r k ih =>
    rw [run_call, run_call, h]
    exact ih _ _
  | stuck => rfl

/-- A relation that is reflexive, transitive and holds across every request holds
across every run. -/
theorem run_steps {T : S → S → Prop} (refl : ∀ s, T s s)
    (trans : ∀ s t u, T s t → T t u → T s u) (step : ∀ r s, T s (handle r s).2)
    {p : Program Ans α} {s s' : S} {a : α} (h : p.run handle s = some (a, s')) : T s s' := by
  induction p generalizing s with
  | ret b =>
    simp only [run_ret, Option.some.injEq, Prod.mk.injEq] at h
    exact h.2 ▸ refl s
  | call r k ih => exact trans _ _ _ (step r s) (ih _ h)
  | stuck => cases h

/-- The machine after the first `n` requests of the program, or all if it makes fewer. -/
def advance (handle : (r : Req) → S → Ans r × S) : Nat → Program Ans α → S → S
  | n + 1, call r k, s => advance handle n (k (handle r s).1) (handle r s).2
  | _, _, s => s

/-! ## Programs that never get stuck -/

/-- No answers lead to a loop that uses up its bound. -/
def Halts : Program Ans α → Prop
  | ret _ => True
  | call _ k => ∀ x, (k x).Halts
  | stuck => False

theorem halts_pure (a : α) : (pure a : Program Ans α).Halts := trivial

theorem halts_request (r : Req) : (request r : Program Ans (Ans r)).Halts := fun _ => trivial

theorem halts_bind {p : Program Ans α} {f : α → Program Ans β} (hp : p.Halts)
    (hf : ∀ a, (f a).Halts) : (p >>= f).Halts := by
  induction p with
  | ret a => exact hf a
  | call r k ih => exact fun x => ih x (hp x)
  | stuck => exact hp

theorem halts_ite {c : Prop} [Decidable c] {p q : Program Ans α} (hp : p.Halts) (hq : q.Halts) :
    (if c then p else q).Halts := by
  split
  · exact hp
  · exact hq

variable (handle) in
theorem halts_run {p : Program Ans α} (h : p.Halts) (s : S) : ∃ x, p.run handle s = some x := by
  induction p generalizing s with
  | ret a => exact ⟨(a, s), rfl⟩
  | call r k ih => exact ih _ (h _) _
  | stuck => exact h.elim

/-! ## Results -/

/-- Whatever is answered, a result of the program satisfies `Q`. -/
def Yields (Q : α → Prop) : Program Ans α → Prop
  | ret a => Q a
  | call _ k => ∀ x, (k x).Yields Q
  | stuck => True

variable {P : α → Prop} {Q : β → Prop}

theorem yields_true (p : Program Ans α) : p.Yields fun _ => True := by
  induction p with
  | ret a => trivial
  | call r k ih => exact ih
  | stuck => trivial

theorem yields_bind {p : Program Ans α} {f : α → Program Ans β} (hp : p.Yields P)
    (hf : ∀ a, P a → (f a).Yields Q) : (p >>= f).Yields Q := by
  induction p with
  | ret a => exact hf a hp
  | call r k ih => exact fun x => ih x (hp x)
  | stuck => trivial

theorem yields_ite {c : Prop} [Decidable c] {p q : Program Ans α} (hp : p.Yields P)
    (hq : q.Yields P) : (if c then p else q).Yields P := by
  split
  · exact hp
  · exact hq

theorem yields_run {p : Program Ans α} (h : p.Yields P) {s t : S} {a : α}
    (run : p.run handle s = some (a, t)) : P a := by
  induction p generalizing s with
  | ret b =>
    cases run
    exact h
  | call r k ih => exact ih _ (h _) run
  | stuck => cases run

/-! ## Invariants of runs -/

variable (handle) in
/-- Every completed run of the program from a state of `I` ends in `I`. -/
def Maintains (I : S → Prop) (p : Program Ans α) : Prop :=
  ∀ s a t, I s → p.run handle s = some (a, t) → I t

variable {I : S → Prop}

theorem maintains_pure (a : α) : Maintains handle I (pure a : Program Ans α) := by
  intro s b t hs h
  simp only [run_pure, Option.some.injEq, Prod.mk.injEq] at h
  exact h.2 ▸ hs

theorem maintains_stuck : Maintains handle I (stuck : Program Ans α) := by
  intro s b t hs h
  cases h

theorem maintains_bind {p : Program Ans α} {f : α → Program Ans β}
    (hp : Maintains handle I p) (hf : ∀ a, Maintains handle I (f a)) :
    Maintains handle I (p >>= f) := by
  intro s b t hs h
  obtain ⟨a, u, hu, h⟩ := run_bind_some.1 h
  exact hf a u b t (hp s a u hs hu) h

theorem maintains_ite {c : Prop} [Decidable c] {p q : Program Ans α}
    (hp : Maintains handle I p) (hq : Maintains handle I q) :
    Maintains handle I (if c then p else q) := by
  split
  · exact hp
  · exact hq

end Program

end Interact
