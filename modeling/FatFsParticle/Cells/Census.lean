import Mathlib.Data.Fintype.Card
import Mathlib.Logic.Function.Basic

/-!
# Holders

Each of finitely many holders has one thing or none. Counted are those that have a thing
of one kind.
-/

namespace Cells

variable {H α : Type} [Fintype H] {p q : α → Bool} {f : H → Option α} {h h' : H} {a b : α}

/-- Holders of a thing of the kind `p`. -/
def census (p : α → Bool) (f : H → Option α) : Nat := (Finset.univ.filter fun h => (f h).any p).card

theorem census_congr {f' : H → Option α} (same : ∀ h, (f h).any p = (f' h).any q) :
    census p f = census q f' := by
  simp only [census, same]

theorem census_eq_zero : census p f = 0 ↔ ∀ h a, f h = some a → p a = false := by
  rw [census, Finset.card_eq_zero, Finset.filter_eq_empty_iff]
  constructor
  · intro none_ h a has
    simpa [has] using none_ (Finset.mem_univ h)
  · intro none_ h _
    cases has : f h with
    | none => simp
    | some a => simp [none_ h a has]

theorem census_pos (has : f h = some a) (kind : p a) : 0 < census p f := by
  apply Nat.pos_of_ne_zero
  intro zero
  rw [census_eq_zero.1 zero h a has] at kind
  cases kind

theorem census_exists (some_ : 0 < census p f) : ∃ h a, f h = some a ∧ p a := by
  by_contra none_
  refine absurd (census_eq_zero.2 fun h a has => ?_) (Nat.ne_of_gt some_)
  rw [← Bool.not_eq_true]
  exact fun kind => none_ ⟨h, a, has, kind⟩

/-- Where there is one holder at most, it is the same. -/
theorem census_unique (one : census p f ≤ 1) (has : f h = some a) (kind : p a)
    (has' : f h' = some b) (kind' : p b) : h = h' := by
  apply Finset.card_le_one.1 one
  · simp [has, kind]
  · simp [has', kind']

theorem census_le : census p f ≤ Fintype.card H := Finset.card_le_univ _

/-- Not everybody is counted. -/
theorem census_lt : census p f < Fintype.card H ↔ ∃ h, (f h).any p = false := by
  unfold census
  constructor
  · intro less
    by_contra all
    rw [not_exists] at all
    rw [Finset.filter_true_of_mem fun h _ => by simpa using all h, Finset.card_univ] at less
    exact lt_irrefl _ less
  · rintro ⟨h, out⟩
    exact Finset.card_lt_univ_of_notMem (x := h) (by simp [out])

section
variable [DecidableEq H]

theorem census_fill (empty : f h = none) :
    census p (Function.update f h (some a)) = census p f + if p a then 1 else 0 := by
  have out : h ∉ Finset.univ.filter fun h => (f h).any p := by simp [empty]
  unfold census
  split
  case isTrue kind =>
    rw [← Finset.card_insert_of_notMem out]
    congr 1
    ext x
    by_cases here : x = h <;> simp [here, kind]
  case isFalse other =>
    rw [Nat.add_zero]
    congr 1
    ext x
    by_cases here : x = h
    · simp [here, other, empty]
    · simp [here]

theorem census_clear (full : f h = some a) :
    census p (Function.update f h none) + (if p a then 1 else 0) = census p f := by
  have filled : Function.update (Function.update f h none) h (some a) = f := by
    rw [Function.update_idem, ← full, Function.update_eq_self]
  have count : census p (Function.update (Function.update f h none) h (some a)) = _ :=
    census_fill (Function.update_self ..)
  rw [filled] at count
  exact count.symm

end

end Cells
