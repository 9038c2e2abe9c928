import Mathlib.Data.List.Basic
import Mathlib.Data.List.GetD

/-!
# Cells and slices

An unbounded row of cells as a function of their numbers: `slice` reads a part of it as
a list, `put` replaces a part by a list.
-/

namespace Cells

variable {α : Type}

/-- The `n` cells from `off` on. -/
def slice (f : Nat → α) (off n : Nat) : List α := (List.range n).map fun i => f (off + i)

/-- `bs` written over the cells from `off` on. -/
def put (f : Nat → α) (off : Nat) (bs : List α) (i : Nat) : α :=
  if off ≤ i then bs.getD (i - off) (f i) else f i

variable {f g : Nat → α} {off n m i : Nat} {bs cs : List α}

@[simp] theorem length_slice (f : Nat → α) (off n : Nat) : (slice f off n).length = n := by
  simp [slice]

@[simp] theorem slice_zero (f : Nat → α) (off : Nat) : slice f off 0 = [] := rfl

theorem slice_append (f : Nat → α) (off n m : Nat) :
    slice f off (n + m) = slice f off n ++ slice f (off + n) m := by
  unfold slice
  rw [List.range_add, List.map_append, List.map_map]
  simp [Function.comp_def, Nat.add_assoc]

theorem slice_congr (h : ∀ i, off ≤ i → i < off + n → f i = g i) : slice f off n = slice g off n := by
  apply List.map_congr_left
  intro i mem
  exact h _ (by omega) (by have := List.mem_range.1 mem; omega)

theorem slice_eq_iff : slice f off n = slice g off n ↔ ∀ i, off ≤ i → i < off + n → f i = g i := by
  constructor
  · intro same i low high
    have at_ := List.map_inj_left.1 same (i - off) (List.mem_range.2 (by omega))
    rwa [Nat.add_sub_cancel' low] at at_
  · exact slice_congr

/-- The same cells elsewhere. -/
theorem slice_zero_eq_iff : slice f 0 n = slice g 0 m ↔ n = m ∧ ∀ i < n, f i = g i := by
  constructor
  · intro same
    have length := congrArg List.length same
    simp only [length_slice] at length
    subst length
    exact ⟨rfl, fun i lt => slice_eq_iff.1 same i (Nat.zero_le i) (by omega)⟩
  · rintro ⟨rfl, same⟩
    exact slice_congr fun i _ lt => same i (by omega)

theorem slice_shift {b : Nat} (h : ∀ i < n, f (off + i) = g (b + i)) : slice f off n = slice g b n := by
  apply List.map_congr_left
  intro i mem
  exact h i (List.mem_range.1 mem)

theorem take_slice (f : Nat → α) (off : Nat) (h : m ≤ n) :
    (slice f off n).take m = slice f off m := by
  obtain ⟨k, rfl⟩ := Nat.exists_eq_add_of_le h
  rw [slice_append]
  exact List.take_left' (length_slice f off m)

theorem put_before (f : Nat → α) (bs : List α) (h : i < off) : put f off bs i = f i := by
  unfold put
  rw [if_neg (by omega)]

theorem put_after (f : Nat → α) (h : off + bs.length ≤ i) : put f off bs i = f i := by
  unfold put
  split
  · exact List.getD_eq_default _ _ (by omega)
  · rfl

theorem put_at (f : Nat → α) (low : off ≤ i) (high : i < off + bs.length) :
    put f off bs i = bs[i - off] := by
  unfold put
  rw [if_pos low]
  exact List.getD_eq_getElem _ _ (by omega)

theorem put_congr (bs : List α) (h : i < off ∨ off + bs.length ≤ i → f i = g i) :
    put f off bs i = put g off bs i := by
  by_cases before : i < off
  · rw [put_before _ _ before, put_before _ _ before, h (.inl before)]
  by_cases inside : i < off + bs.length
  · rw [put_at f (by omega) inside, put_at g (by omega) inside]
  · rw [put_after f (by omega), put_after g (by omega), h (.inr (by omega))]

/-- What was put is read again. -/
@[simp] theorem slice_put (f : Nat → α) (off : Nat) (bs : List α) :
    slice (put f off bs) off bs.length = bs := by
  apply List.ext_getElem (length_slice _ _ _)
  intro i h h'
  simp only [slice, List.getElem_map, List.getElem_range]
  rw [put_at f (by omega) (by omega)]
  simp

@[simp] theorem put_nil (f : Nat → α) (off : Nat) : put f off [] = f := by
  funext i
  by_cases before : i < off
  · exact put_before f [] before
  · exact put_after f (by simpa using before)

/-- A part of cells put where it stands in the whole. -/
theorem put_shift {a b j : Nat} (h : bs.length ≤ j → f (a + j) = g (b + j)) :
    put f a bs (a + j) = put g b bs (b + j) := by
  by_cases inside : j < bs.length
  · rw [put_at f (by omega) (by omega), put_at g (by omega) (by omega)]
    simp only [Nat.add_sub_cancel_left]
  · rw [put_after f (by omega), put_after g (by omega), h (by omega)]

/-- Cells put over themselves. -/
theorem put_slice (f g : Nat → α) (off n : Nat) (i : Nat) :
    put f off (slice g off n) i = if off ≤ i ∧ i < off + n then g i else f i := by
  by_cases before : i < off
  · rw [put_before _ _ before, if_neg (by omega)]
  by_cases inside : i < off + n
  · rw [put_at _ (by omega) (by simpa using inside), if_pos ⟨by omega, inside⟩]
    simp only [slice, List.getElem_map, List.getElem_range]
    congr 1
    omega
  · rw [put_after _ (by simpa using inside), if_neg (by omega)]

theorem put_append (f : Nat → α) (off : Nat) (bs cs : List α) :
    put (put f off bs) (off + bs.length) cs = put f off (bs ++ cs) := by
  funext i
  by_cases before : i < off
  · rw [put_before _ _ (by omega), put_before _ _ before, put_before _ _ before]
  by_cases first : i < off + bs.length
  · rw [put_before _ _ first, put_at f (by omega) first, put_at f (by omega) (by simp; omega),
      List.getElem_append_left]
  by_cases second : i < off + bs.length + cs.length
  · rw [put_at _ (by omega) second, put_at f (by omega) (by simp; omega),
      List.getElem_append_right (by omega)]
    simp only [Nat.sub_sub]
  · rw [put_after _ (by omega), put_after _ (by omega), put_after _ (by simp; omega)]

end Cells
