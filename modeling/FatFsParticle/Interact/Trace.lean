import Mathlib.Data.List.Basic

/-!
# Traces of a step relation

A system takes labelled steps, and a trace lists its labels and the states after them.
What each step keeps, every trace keeps. Where a good state stays good exactly in the
steps of one kind, all states of a trace are good exactly when all its steps are of that
kind.
-/

namespace Interact

variable {A S : Type} {step : A → S → S → Prop} {I P : S → Prop} {Q : A → S → S → Prop}
  {s : S} {l m : List (A × S)}

/-- `Q` for every step of the list. -/
def Every (Q : A → S → S → Prop) : S → List (A × S) → Prop
  | _, [] => True
  | s, (a, t) :: l => Q a s t ∧ Every Q t l

/-- The state after the last step. -/
def final : S → List (A × S) → S
  | s, [] => s
  | _, (_, t) :: l => final t l

@[simp] theorem every_nil : Every Q s [] := trivial

@[simp] theorem every_cons {a : A} {t : S} : Every Q s ((a, t) :: l) ↔ Q a s t ∧ Every Q t l := Iff.rfl

@[simp] theorem final_nil : final s ([] : List (A × S)) = s := rfl

@[simp] theorem final_cons {a : A} {t : S} : final s ((a, t) :: l) = final t l := rfl

/-- A relation that every step has and that can be put together, a trace has from its first
to its last state. -/
theorem Every.across {R : S → S → Prop} (refl : ∀ s, R s s)
    (trans : ∀ s t u, R s t → R t u → R s u) (one : ∀ a s t, I s → step a s t → I t ∧ R s t)
    (run : Every step s l) (start : I s) : I (final s l) ∧ R s (final s l) := by
  induction l generalizing s with
  | nil => exact ⟨start, refl s⟩
  | cons x l ih =>
    obtain ⟨a, t⟩ := x
    obtain ⟨inv, rel⟩ := one a s t start run.1
    obtain ⟨inv', rel'⟩ := ih run.2 inv
    exact ⟨inv', trans _ _ _ rel rel'⟩

/-- What one step from a good state comes to, every trace comes to. -/
theorem Every.always_iff (keeps : ∀ a s t, I s → step a s t → I t)
    (exact_ : ∀ a s t, I s → P s → step a s t → (P t ↔ Q a s t)) (run : Every step s l)
    (start : I s) (good : P s) : (∀ x ∈ l, P x.2) ↔ Every Q s l := by
  induction l generalizing s with
  | nil => simp
  | cons x l ih =>
    obtain ⟨a, t⟩ := x
    have inv := keeps a s t start run.1
    have now := exact_ a s t start good run.1
    simp only [List.forall_mem_cons, every_cons]
    constructor
    · rintro ⟨here, later⟩
      exact ⟨now.1 here, (ih run.2 inv here).1 later⟩
    · rintro ⟨right, rest⟩
      have here := now.2 right
      exact ⟨here, (ih run.2 inv here).2 rest⟩

end Interact
