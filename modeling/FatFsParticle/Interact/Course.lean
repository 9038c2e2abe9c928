import Mathlib.Logic.Basic

/-!
# Courses of a partial step function

A component answers calls one after the other, and a call may be undefined. What holds
after every step of a course of calls is compared with a condition that every call meets
in the state it finds.
-/

namespace Interact

variable {S C ε : Type} {step : S → C → Except ε S} {P : S → Prop} {L Q : S → C → Prop}

/-- Every step is defined, and `P` holds after it. -/
def After (step : S → C → Except ε S) (P : S → Prop) : List C → S → Prop
  | [], _ => True
  | c :: cs, s => ∃ s', step s c = .ok s' ∧ P s' ∧ After step P cs s'

/-- Every call meets `Q` in the state that it finds. -/
def Meets (step : S → C → Except ε S) (Q : S → C → Prop) : List C → S → Prop
  | [], _ => True
  | c :: cs, s => Q s c ∧ ∀ s', step s c = .ok s' → Meets step Q cs s'

theorem meets_cons {c : C} {cs : List C} {s s' : S} (ran : step s c = .ok s') :
    Meets step Q (c :: cs) s ↔ Q s c ∧ Meets step Q cs s' := by
  constructor
  · rintro ⟨now, later⟩
    exact ⟨now, later s' ran⟩
  · rintro ⟨now, later⟩
    refine ⟨now, ?_⟩
    intro s'' ran'
    have same : s' = s'' := Except.ok.inj (ran.symm.trans ran')
    rwa [← same]

theorem meets_cons_error {c : C} {cs : List C} {s : S} {e : ε} (ran : step s c = .error e) :
    Meets step Q (c :: cs) s ↔ Q s c := by
  constructor
  · exact And.left
  · intro now
    refine ⟨now, ?_⟩
    intro s' ran'
    cases ran.symm.trans ran'

instance decidableMeets [∀ s c, Decidable (Q s c)] :
    (cs : List C) → (s : S) → Decidable (Meets step Q cs s)
  | [], _ => .isTrue trivial
  | c :: cs, s =>
    match ran : step s c with
    | .ok s' =>
      have := decidableMeets cs s'
      decidable_of_iff _ (meets_cons ran).symm
    | .error _ => decidable_of_iff _ (meets_cons_error ran).symm

/-- What one step from a good state comes to, every course comes to: all its states are
good exactly when all its calls meet the condition. -/
theorem after_iff_meets (exact_ : ∀ s c, P s → L s c → (Q s c ↔ ∃ s', step s c = .ok s' ∧ P s'))
    {cs : List C} {s : S} (start : P s) (legal : Meets step L cs s) :
    After step P cs s ↔ Meets step Q cs s := by
  induction cs generalizing s with
  | nil => exact Iff.rfl
  | cons c cs ih =>
    obtain ⟨now, later⟩ := legal
    constructor
    · rintro ⟨s', ran, good, rest⟩
      refine ⟨(exact_ s c start now).2 ⟨s', ran, good⟩, ?_⟩
      intro s'' ran'
      have same : s' = s'' := Except.ok.inj (ran.symm.trans ran')
      subst same
      exact (ih good (later _ ran)).1 rest
    · rintro ⟨meets, rest⟩
      obtain ⟨s', ran, good⟩ := (exact_ s c start now).1 meets
      exact ⟨s', ran, good, (ih good (later _ ran)).2 (rest _ ran)⟩

/-- Where the condition decides whether a step is undefined in a way that is not mild, and a
step that is defined keeps the invariant, a course ends in a mild way only exactly when
all its calls meet the condition. -/
theorem foldlM_mild_iff_meets {mild : ε → Prop}
    (sound : ∀ s c, P s → Q s c →
      (∃ s', step s c = .ok s' ∧ P s') ∨ ∃ e, step s c = .error e ∧ mild e)
    (faults : ∀ s c, ¬ Q s c → ∃ e, step s c = .error e ∧ ¬ mild e) {cs : List C} {s : S}
    (start : P s) : (∀ e, cs.foldlM step s = .error e → mild e) ↔ Meets step Q cs s := by
  induction cs generalizing s with
  | nil => exact ⟨fun _ => trivial, nofun⟩
  | cons c cs ih =>
    by_cases meets : Q s c
    · rcases sound s c start meets with ⟨s', ran, good⟩ | ⟨e, ran, passed⟩
      · rw [meets_cons ran, and_iff_right meets, ← ih good, List.foldlM_cons, ran]
        exact Iff.rfl
      · rw [meets_cons_error ran, List.foldlM_cons, ran]
        refine iff_of_true ?_ meets
        rintro e' ⟨⟩
        exact passed
    · obtain ⟨e, ran, bad⟩ := faults s c meets
      rw [meets_cons_error ran, List.foldlM_cons, ran]
      exact iff_of_false (fun only => bad (only e rfl)) meets

end Interact
