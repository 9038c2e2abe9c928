import Mathlib.Data.Nat.Bitwise
import Mathlib.Tactic.Linarith

/-!
# Masks of powers of two

Words are rounded with masks. What the masks do is said in numbers here, and how far a
quotient moves when something is taken off the dividend.
-/

namespace Words

variable {w : Nat} {x b : BitVec w} {k : Nat}

theorem and_add_and_not (x m : BitVec w) : (x &&& m) + (x &&& ~~~m) = x := by
  have apart : (x &&& m) &&& (x &&& ~~~m) = 0 := by
    apply BitVec.eq_of_getLsbD_eq
    intro i inside
    simp
    grind
  rw [BitVec.add_eq_or_of_and_eq_zero _ _ apart]
  apply BitVec.eq_of_getLsbD_eq
  intro i inside
  simp
  grind

/-- A bit that the mask leaves out. -/
theorem and_masked {mask : BitVec w} (out : mask &&& b = 0) (a x : BitVec w) :
    ((a &&& mask) ||| (x &&& ~~~mask)) &&& b = x &&& b := by
  apply BitVec.eq_of_getLsbD_eq
  intro i small
  have bit := congrArg (fun v => BitVec.getLsbD v i) out
  simp only [BitVec.getLsbD_and, BitVec.getLsbD_or, BitVec.getLsbD_not, small, decide_true, Bool.true_and,
    BitVec.ofNat_eq_ofNat, BitVec.getLsbD_zero] at bit ⊢
  cases inside : b.getLsbD i with
  | false => simp
  | true =>
    rw [inside, Bool.and_true] at bit
    simp [bit]

theorem toNat_pred (power : b.toNat = 2 ^ k) : (b - 1).toNat = 2 ^ k - 1 := by
  have pos := Nat.two_pow_pos k
  have small := b.isLt
  rw [power] at small
  have width : w ≠ 0 := by
    rintro rfl
    simp at small
  have one : (1 : BitVec w).toNat = 1 := by
    have big := Nat.one_lt_two_pow width
    simp [Nat.mod_eq_of_lt big]
  rw [BitVec.toNat_sub_of_le, power, one]
  rw [BitVec.le_def, power, one]
  exact pos

/-- The test for a power of two. -/
theorem power_iff (some_ : x ≠ 0) : x &&& (x - 1) = 0 ↔ ∃ k, x.toNat = 2 ^ k := by
  have pos : x.toNat ≠ 0 := fun zero => some_ (BitVec.eq_of_toNat_eq (by simpa using zero))
  have width : w ≠ 0 := by
    rintro rfl
    exact some_ (Subsingleton.elim _ _)
  have one : (1 : BitVec w).toNat = 1 := by
    have big := Nat.one_lt_two_pow width
    simp [Nat.mod_eq_of_lt big]
  have pred : (x - 1).toNat = x.toNat - 1 := by
    rw [BitVec.toNat_sub_of_le, one]
    rw [BitVec.le_def, one]
    omega
  have zero : (0 : BitVec w).toNat = 0 := by simp
  rw [← BitVec.toNat_inj, BitVec.toNat_and, pred, zero]
  exact Nat.and_sub_one_eq_zero_iff_isPowerOfTwo pos

/-- The mask that rounds down. -/
theorem toNat_and_not (power : b.toNat = 2 ^ k) : (x &&& ~~~(b - 1)).toNat = x.toNat - x.toNat % 2 ^ k := by
  have low : (x &&& (b - 1)).toNat = x.toNat % 2 ^ k := by
    rw [BitVec.toNat_and, toNat_pred power, Nat.and_two_pow_sub_one_eq_mod]
  have sum := congrArg BitVec.toNat (and_add_and_not x (b - 1))
  have le := Nat.mod_le x.toNat (2 ^ k)
  have small := (x &&& ~~~(b - 1)).isLt
  have fits : (x &&& ~~~(b - 1)).toNat ≤ x.toNat := by
    rw [BitVec.toNat_and]
    exact Nat.and_le_left
  rw [BitVec.toNat_add, low] at sum
  have big := x.isLt
  by_cases beyond : x.toNat % 2 ^ k + (x &&& ~~~(b - 1)).toNat < 2 ^ w
  · rw [Nat.mod_eq_of_lt beyond] at sum
    omega
  · rw [Nat.mod_eq_sub_mod (by omega), Nat.mod_eq_of_lt (by omega)] at sum
    omega

/-- What is missing to the next multiple. -/
theorem padding (power : b.toNat = 2 ^ k) (fits : x.toNat + b.toNat < 2 ^ w) :
    (((x + b - 1) &&& ~~~(b - 1)) - x).toNat < 2 ^ k ∧
      (x.toNat + (((x + b - 1) &&& ~~~(b - 1)) - x).toNat) % 2 ^ k = 0 := by
  have pos := Nat.two_pow_pos k
  have pred := toNat_pred power
  have sum : (x + b - 1).toNat = x.toNat + (2 ^ k - 1) := by
    have split_ : x + b - 1 = x + (b - 1) := by rw [BitVec.sub_eq_add_neg, BitVec.add_assoc, ← BitVec.sub_eq_add_neg]
    rw [split_, BitVec.toNat_add, pred, Nat.mod_eq_of_lt (by omega)]
  have whole := Nat.div_add_mod (x.toNat + (2 ^ k - 1)) (2 ^ k)
  have rest := Nat.mod_lt (x.toNat + (2 ^ k - 1)) pos
  have down := toNat_and_not (x := x + b - 1) power
  rw [sum] at down
  have up : x.toNat ≤ ((x + b - 1) &&& ~~~(b - 1)).toNat := by omega
  rw [BitVec.toNat_sub_of_le (BitVec.le_def.2 up), down]
  constructor
  · omega
  · rw [← Nat.add_sub_assoc (down ▸ up), Nat.add_sub_cancel_left]
    have multiple : x.toNat + (2 ^ k - 1) - (x.toNat + (2 ^ k - 1)) % 2 ^ k =
        2 ^ k * ((x.toNat + (2 ^ k - 1)) / 2 ^ k) := by omega
    rw [multiple, Nat.mul_mod_right]

theorem div_le_sub_div_add {d : Nat} (pos : 0 < d) (a c : Nat) : a / d ≤ (a - c) / d + c := by
  have more : a ≤ a - c + c * d := by
    have le := Nat.le_mul_of_pos_right c pos
    omega
  have le := Nat.div_le_div_right (c := d) more
  rwa [Nat.add_mul_div_right _ _ pos] at le

end Words
