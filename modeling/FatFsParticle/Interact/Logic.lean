import FatFsParticle.Interact.Program

/-!
# Weakest preconditions over a nondeterministic machine

Generic rules for programs whose machine is only known by what it may answer:

* `Rules`: which requests are allowed in a state, and which answers and next
  states each may have;
* `wp`: from this state every request made is allowed, whatever the answers,
  and every end satisfies the postcondition;
* `wp_bind`, `wp_mono`, `wp_seq`: sequence and consequence;
* `run_sound`: a deterministic machine that simulates into the rules obeys
  what `wp` promises.
-/

namespace Interact

variable {Req : Type} {Ans : Req → Type} {α β S M : Type}

/-- What a machine with states `S` allows and may answer. -/
structure Rules (Ans : Req → Type) (S : Type) where
  allowed : S → Req → Prop
  step : S → (r : Req) → Ans r → S → Prop

namespace Program

variable (L : Rules Ans S)

def wp (Q : α → S → Prop) : Program Ans α → S → Prop
  | ret a, s => Q a s
  | call r k, s => L.allowed s r ∧ ∀ x t, L.step s r x t → (k x).wp Q t
  | stuck, _ => True

@[simp] theorem wp_pure (Q : α → S → Prop) (a : α) (s : S) :
    (pure a : Program Ans α).wp L Q s ↔ Q a s := Iff.rfl

theorem wp_call (Q : α → S → Prop) (r : Req) (k : Ans r → Program Ans α) (s : S) :
    (call r k).wp L Q s ↔ L.allowed s r ∧ ∀ x t, L.step s r x t → (k x).wp L Q t := Iff.rfl

theorem wp_bind (p : Program Ans α) (f : α → Program Ans β) (Q : β → S → Prop) (s : S) :
    (p >>= f).wp L Q s ↔ p.wp L (fun a t => (f a).wp L Q t) s := by
  induction p generalizing s with
  | ret a => rfl
  | call r k ih =>
    simp only [call_bind, wp_call]
    exact and_congr_right fun _ => forall_congr' fun x => forall_congr' fun t =>
      imp_congr_right fun _ => ih x t
  | stuck => rfl

variable {L}

theorem wp_mono {p : Program Ans α} {Q Q' : α → S → Prop} {s : S}
    (h : p.wp L Q s) (hQ : ∀ a t, Q a t → Q' a t) : p.wp L Q' s := by
  induction p generalizing s with
  | ret a => exact hQ a s h
  | call r k ih => exact ⟨h.1, fun x t ht => ih x (h.2 x t ht)⟩
  | stuck => trivial

theorem wp_and {p : Program Ans α} {Q Q' : α → S → Prop} {s : S} (h : p.wp L Q s)
    (h' : p.wp L Q' s) : p.wp L (fun a t => Q a t ∧ Q' a t) s := by
  induction p generalizing s with
  | ret a => exact ⟨h, h'⟩
  | call r k ih => exact ⟨h.1, fun x t ht => ih x (h.2 x t ht) (h'.2 x t ht)⟩
  | stuck => trivial

/-- First `p` with what it establishes, then `f` from there. -/
theorem wp_seq {p : Program Ans α} {f : α → Program Ans β} {P : α → S → Prop}
    {Q : β → S → Prop} {s : S} (hp : p.wp L P s) (hf : ∀ a t, P a t → (f a).wp L Q t) :
    (p >>= f).wp L Q s :=
  (wp_bind L p f Q s).2 (wp_mono hp hf)

/-! ## A machine that simulates into the rules -/

/-- `V m s`: the rules' state `s` describes the machine's state `m`, and stays
able to after every allowed request. -/
def Simulates (handle : (r : Req) → M → Ans r × M) (L : Rules Ans S) (V : M → S → Prop) : Prop :=
  ∀ m s, V m s → ∀ r, L.allowed s r → ∃ t, L.step s r (handle r m).1 t ∧ V (handle r m).2 t

theorem run_sound {handle : (r : Req) → M → Ans r × M} {V : M → S → Prop}
    (sim : Simulates handle L V) {p : Program Ans α} {Q : α → S → Prop} {m m' : M} {s : S} {a : α}
    (hs : V m s) (hp : p.wp L Q s) (h : p.run handle m = some (a, m')) :
    ∃ t, Q a t ∧ V m' t := by
  induction p generalizing m s with
  | ret b =>
    simp only [run_ret, Option.some.injEq, Prod.mk.injEq] at h
    obtain ⟨rfl, rfl⟩ := h
    exact ⟨s, hp, hs⟩
  | call r k ih =>
    obtain ⟨t, ht, hv⟩ := sim m s hs r hp.1
    exact ih _ hv (hp.2 _ t ht) h
  | stuck => cases h

/-- In the middle of a program that only makes allowed requests, too, the rules
describe the machine. -/
theorem advance_sound {handle : (r : Req) → M → Ans r × M} {V : M → S → Prop}
    (sim : Simulates handle L V) {p : Program Ans α} {Q : α → S → Prop} {m : M} {s : S}
    (hs : V m s) (hp : p.wp L Q s) (n : Nat) : ∃ t, V (p.advance handle n m) t := by
  induction n generalizing p m s with
  | zero => exact ⟨s, hs⟩
  | succ n ih =>
    cases p with
    | ret a => exact ⟨s, hs⟩
    | call r k =>
      obtain ⟨t, ht, hv⟩ := sim m s hs r hp.1
      exact ih hv (hp.2 _ t ht)
    | stuck => exact ⟨s, hs⟩

end Program

end Interact
