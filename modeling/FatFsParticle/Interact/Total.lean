import FatFsParticle.Interact.Logic

/-!
# Weakest preconditions of programs that come to their end

`wp` promises nothing of a program that gets stuck; `twp` promises that it does not.
-/

namespace Interact.Program

variable {Req : Type} {Ans : Req → Type} {α β S M : Type} (L : Rules Ans S)

/-- From this state every request made is allowed, whatever the answers; no loop uses up
its bound, and every end satisfies the postcondition. -/
def twp (Q : α → S → Prop) : Program Ans α → S → Prop
  | ret a, s => Q a s
  | call r k, s => L.allowed s r ∧ ∀ x t, L.step s r x t → (k x).twp Q t
  | stuck, _ => False

@[simp] theorem twp_pure (Q : α → S → Prop) (a : α) (s : S) :
    (pure a : Program Ans α).twp L Q s ↔ Q a s := Iff.rfl

theorem twp_call (Q : α → S → Prop) (r : Req) (k : Ans r → Program Ans α) (s : S) :
    (call r k).twp L Q s ↔ L.allowed s r ∧ ∀ x t, L.step s r x t → (k x).twp L Q t := Iff.rfl

theorem twp_bind (p : Program Ans α) (f : α → Program Ans β) (Q : β → S → Prop) (s : S) :
    (p >>= f).twp L Q s ↔ p.twp L (fun a t => (f a).twp L Q t) s := by
  induction p generalizing s with
  | ret a => rfl
  | call r k ih =>
    simp only [call_bind, twp_call]
    exact and_congr_right fun _ => forall_congr' fun x => forall_congr' fun t =>
      imp_congr_right fun _ => ih x t
  | stuck => rfl

variable {L}

theorem twp_mono {p : Program Ans α} {Q Q' : α → S → Prop} {s : S}
    (h : p.twp L Q s) (hQ : ∀ a t, Q a t → Q' a t) : p.twp L Q' s := by
  induction p generalizing s with
  | ret a => exact hQ a s h
  | call r k ih => exact ⟨h.1, fun x t ht => ih x (h.2 x t ht)⟩
  | stuck => exact h

/-- First `p` with what it establishes, then `f` from there. -/
theorem twp_seq {p : Program Ans α} {f : α → Program Ans β} {P : α → S → Prop}
    {Q : β → S → Prop} {s : S} (hp : p.twp L P s) (hf : ∀ a t, P a t → (f a).twp L Q t) :
    (p >>= f).twp L Q s :=
  (twp_bind L p f Q s).2 (twp_mono hp hf)

/-- What is promised of a program that comes to its end is promised of its ends. -/
theorem twp_wp {p : Program Ans α} {Q : α → S → Prop} {s : S} (h : p.twp L Q s) : p.wp L Q s := by
  induction p generalizing s with
  | ret a => exact h
  | call r k ih => exact ⟨h.1, fun x t ht => ih x (h.2 x t ht)⟩
  | stuck => trivial

/-- A machine that simulates into the rules runs the program to its end. -/
theorem run_total {handle : (r : Req) → M → Ans r × M} {V : M → S → Prop}
    (sim : Simulates handle L V) {p : Program Ans α} {Q : α → S → Prop} {m : M} {s : S}
    (hs : V m s) (hp : p.twp L Q s) : ∃ a m' t, p.run handle m = some (a, m') ∧ Q a t ∧ V m' t := by
  induction p generalizing m s with
  | ret a => exact ⟨a, m, s, rfl, hp, hs⟩
  | call r k ih =>
    obtain ⟨t, ht, hv⟩ := sim m s hs r hp.1
    exact ih _ hv (hp.2 _ t ht)
  | stuck => exact hp.elim

end Interact.Program
