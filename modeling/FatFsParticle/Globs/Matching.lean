import Mathlib.Data.List.Basic

/-!
# Patterns with wildcards

A pattern is a row of tokens: one for any character, one for any string, and characters.
What a pattern matches behind some wildcards is told by two numbers: how many characters
they take at least, and whether they take more.
-/

namespace Globs

variable {α : Type}

inductive Token (α : Type) where
  | one
  | many
  | lit (a : α)

/-- The pattern matches the whole string, up to what is the `same`. -/
inductive Matches (same : α → α → Prop) : List (Token α) → List α → Prop
  | nil : Matches same [] []
  | one {p : List (Token α)} {n : List α} {a : α} (rest : Matches same p n) : Matches same (.one :: p) (a :: n)
  | none {p : List (Token α)} {n : List α} (rest : Matches same p n) : Matches same (.many :: p) n
  | more {p : List (Token α)} {n : List α} {a : α} (rest : Matches same (.many :: p) n) :
      Matches same (.many :: p) (a :: n)
  | lit {p : List (Token α)} {n : List α} {a b : α} (eq : same a b) (rest : Matches same p n) :
      Matches same (.lit a :: p) (b :: n)

/-- The pattern matches behind `skip` characters, or behind as many or more. -/
def After (same : α → α → Prop) (skip : Nat) (inf : Bool) (p : List (Token α)) (n : List α) : Prop :=
  ∃ k ≤ n.length, (if inf then skip ≤ k else skip = k) ∧ Matches same p (n.drop k)

variable {same : α → α → Prop} {p : List (Token α)} {n : List α} {a : α} {skip : Nat} {inf : Bool}

theorem matches_nil : Matches same [] n ↔ n = [] := by
  constructor
  · rintro ⟨⟩
    rfl
  · rintro rfl
    exact .nil

theorem matches_one : Matches same (.one :: p) n ↔ ∃ b m, n = b :: m ∧ Matches same p m := by
  constructor
  · rintro (_ | rest)
    exact ⟨_, _, rfl, rest⟩
  · rintro ⟨b, m, rfl, rest⟩
    exact .one rest

theorem matches_lit : Matches same (.lit a :: p) n ↔ ∃ b m, n = b :: m ∧ same a b ∧ Matches same p m := by
  constructor
  · rintro (_ | _ | _ | _ | ⟨eq, rest⟩)
    exact ⟨_, _, rfl, eq, rest⟩
  · rintro ⟨b, m, rfl, eq, rest⟩
    exact .lit eq rest

theorem matches_many : Matches same (.many :: p) n ↔ ∃ k ≤ n.length, Matches same p (n.drop k) := by
  constructor
  · intro h
    induction n with
    | nil =>
      cases h with
      | none rest => exact ⟨0, Nat.le_refl 0, rest⟩
    | cons b m ih =>
      cases h with
      | none rest => exact ⟨0, Nat.zero_le _, rest⟩
      | more rest =>
        obtain ⟨k, inside, rest'⟩ := ih rest
        exact ⟨k + 1, Nat.succ_le_succ inside, rest'⟩
  · rintro ⟨k, inside, rest⟩
    induction k generalizing n with
    | zero => exact .none rest
    | succ k ih =>
      cases n with
      | nil => cases inside
      | cons b m => exact .more (ih (Nat.le_of_succ_le_succ inside) rest)

theorem after_zero : After same 0 false p n ↔ Matches same p n := by
  constructor
  · rintro ⟨k, -, rfl, rest⟩
    exact rest
  · exact fun rest => ⟨0, Nat.zero_le _, rfl, rest⟩

theorem after_one : After same skip inf (.one :: p) n ↔ After same (skip + 1) inf p n := by
  constructor
  · rintro ⟨k, inside, enough, rest⟩
    obtain ⟨b, m, is, rest⟩ := matches_one.1 rest
    have less : k < n.length := by
      by_contra beyond
      rw [List.drop_eq_nil_of_le (by omega)] at is
      cases is
    refine ⟨k + 1, less, ?_, ?_⟩
    · cases inf <;> simpa using enough
    · rw [← List.tail_drop, is]
      exact rest
  · rintro ⟨k, inside, enough, rest⟩
    obtain ⟨j, rfl⟩ : ∃ j, k = j + 1 := by
      refine ⟨k - 1, ?_⟩
      cases inf <;> simp at enough <;> omega
    refine ⟨j, by omega, ?_, ?_⟩
    · cases inf <;> simpa using enough
    · rw [List.drop_eq_getElem_cons inside]
      exact .one rest

theorem after_many : After same skip inf (.many :: p) n ↔ After same skip true p n := by
  constructor
  · rintro ⟨k, inside, enough, rest⟩
    obtain ⟨j, inside', rest⟩ := matches_many.1 rest
    rw [List.length_drop] at inside'
    rw [List.drop_drop] at rest
    refine ⟨k + j, by omega, ?_, rest⟩
    cases inf <;> simp at enough <;> simp <;> omega
  · rintro ⟨k, inside, enough, rest⟩
    rw [if_pos rfl] at enough
    refine ⟨skip, by omega, by cases inf <;> simp, matches_many.2 ⟨k - skip, by rw [List.length_drop]; omega, ?_⟩⟩
    rw [List.drop_drop, Nat.add_sub_cancel' enough]
    exact rest

theorem after_drop (inside : skip ≤ n.length) : After same 0 inf p (n.drop skip) ↔ After same skip inf p n := by
  constructor
  · rintro ⟨k, inside', enough, rest⟩
    rw [List.length_drop] at inside'
    rw [List.drop_drop] at rest
    refine ⟨skip + k, by omega, ?_, rest⟩
    cases inf <;> simp at enough <;> simp
    exact enough.symm
  · rintro ⟨k, inside', enough, rest⟩
    have least : skip ≤ k := by cases inf <;> simp at enough <;> omega
    refine ⟨k - skip, by rw [List.length_drop]; omega, ?_, ?_⟩
    · cases inf <;> simp at enough <;> simp
      omega
    · rw [List.drop_drop, Nat.add_sub_cancel' least]
      exact rest

end Globs
