import FatFsParticle.Interact.Total
import FatFsParticle.Interact.Fuel

/-!
# Ends of a program

All the ways a program can come to its end where each request may be answered in any way
that the rules have for it.
-/

namespace Interact.Program

variable {Req : Type} {Ans : Req → Type} {α β S M : Type}

inductive Ends (L : Rules Ans S) : Program Ans α → S → α → S → Prop
  | ret (a : α) (s : S) : Ends L (.ret a) s a s
  | call {r : Req} {k : Ans r → Program Ans α} {s t u : S} {x : Ans r} {a : α}
      (step : L.step s r x t) (rest : Ends L (k x) t a u) : Ends L (.call r k) s a u

variable {L : Rules Ans S} {p q : Program Ans α} {s t : S} {a : α}

theorem Ends.of_twp {Q : α → S → Prop} (ends : Ends L p s a t) (h : p.twp L Q s) : Q a t := by
  induction ends with
  | ret a s => exact h
  | call step rest ih => exact ih (h.2 _ _ step)

theorem Ends.of_wp {Q : α → S → Prop} (ends : Ends L p s a t) (h : p.wp L Q s) : Q a t := by
  induction ends with
  | ret a s => exact h
  | call step rest ih => exact ih (h.2 _ _ step)

/-- An end is one of the program with more turns, too. -/
theorem Ends.continued (ends : Ends L p s a t) (more : p.Below q) : Ends L q s a t := by
  induction ends generalizing q with
  | ret a s =>
    cases more
    exact .ret a s
  | call step rest ih =>
    obtain ⟨k', rfl, hk⟩ := more
    exact .call step (ih (hk _))

/-- A run of a machine that simulates into the rules is an end of the program. -/
theorem ends_of_run {handle : (r : Req) → M → Ans r × M} {V : M → S → Prop}
    (sim : Simulates handle L V) (all : ∀ s r, L.allowed s r) {m m' : M} (hs : V m s)
    (h : p.run handle m = some (a, m')) : ∃ t, Ends L p s a t ∧ V m' t := by
  induction p generalizing m s with
  | ret b =>
    simp only [run_ret, Option.some.injEq, Prod.mk.injEq] at h
    obtain ⟨rfl, rfl⟩ := h
    exact ⟨s, .ret b s, hs⟩
  | call r k ih =>
    obtain ⟨u, step, hv⟩ := sim m s hs r (all s r)
    obtain ⟨t, ends, hv'⟩ := ih _ hv h
    exact ⟨t, .call step ends, hv'⟩
  | stuck => cases h

end Interact.Program
