import FeatureStyle.Numeric.Arithmetic
import Mathlib.Algebra.Order.Field.Basic
import Mathlib.Data.Rat.Floor
import Mathlib.Tactic.Linarith
import Mathlib.Tactic.Ring

/-!
# Arithmetic without rounding

The arithmetic of expressions is stated for any kind of number. Read over the rationals it says what
is computed apart from rounding.

**Two remainders.** Expressions take the remainder of truncating division, shaders that of flooring
division. The two agree exactly where the quotient is not negative or there is no remainder
(`rem_eq_floorRem_iff`).
-/

namespace FeatureStyle.Numeric

/-! ### Remainders -/

/-- The whole number next to the given one in the direction of zero. -/
def truncate (q : ℚ) : ℤ := if 0 ≤ q then ⌊q⌋ else ⌈q⌉

instance : Arithmetic ℚ where
  ofNat n := n
  rem x y := x - y * truncate (x / y)
  less x y := decide (x < y)
  atMost x y := decide (x ≤ y)
  same x y := decide (x = y)

theorem truncate_neg (q : ℚ) : truncate (-q) = -truncate q := by
  rcases lt_trichotomy q 0 with h | rfl | h
  · rw [truncate, truncate, if_pos (by linarith), if_neg (by linarith), Int.floor_neg]
  · simp [truncate]
  · rw [truncate, truncate, if_neg (by linarith), if_pos (by linarith), Int.ceil_neg]

theorem rem_eq (x y : ℚ) : Arithmetic.rem x y = x - y * truncate (x / y) := rfl

theorem rem_neg_left (x y : ℚ) : Arithmetic.rem (-x) y = -Arithmetic.rem x y := by
  rw [rem_eq, rem_eq, neg_div, truncate_neg]
  push_cast
  ring

theorem rem_neg_right (x y : ℚ) : Arithmetic.rem x (-y) = Arithmetic.rem x y := by
  rw [rem_eq, rem_eq, div_neg, truncate_neg]
  push_cast
  ring

theorem rem_mul_right (x y : ℚ) {c : ℚ} (hc : c ≠ 0) :
    Arithmetic.rem (x * c) (y * c) = Arithmetic.rem x y * c := by
  rw [rem_eq, rem_eq, mul_div_mul_right x y hc]
  ring

/-- Of natural numbers it is the remainder of their division. -/
theorem rem_natCast (a b : ℕ) : Arithmetic.rem (a : ℚ) b = (a % b : ℕ) := by
  have hq : (0 : ℚ) ≤ a / b := by positivity
  have hmod : ((a % b : ℤ) : ℚ) = ((a - b * ⌊(a : ℚ) / b⌋ : ℤ) : ℚ) :=
    congrArg Int.cast (Int.mod_nat_eq_sub_mul_floor_rat_div (n := a))
  rw [Int.cast_sub, Int.cast_mul] at hmod
  rw [rem_eq, truncate, if_pos hq]
  exact hmod.symm

/-! ### The two remainders compared -/

/-- The remainder of flooring division. -/
def floorRem (x y : ℚ) : ℚ := x - y * ⌊x / y⌋

theorem truncate_eq_floor_iff (q : ℚ) : truncate q = ⌊q⌋ ↔ 0 ≤ q ∨ ∃ n : ℤ, q = n := by
  rw [truncate]
  split
  · next hq => exact iff_of_true rfl (.inl hq)
  · next hq =>
    constructor
    · -- Below zero, truncating goes up; if that is also down, the number is whole.
      intro h
      refine .inr ⟨⌊q⌋, le_antisymm ?_ (Int.floor_le q)⟩
      rw [← h]
      exact Int.le_ceil q
    · rintro (h | ⟨n, rfl⟩)
      · exact absurd h hq
      · rw [Int.ceil_intCast, Int.floor_intCast]

/-- The two remainders agree exactly where the quotient is not negative or is whole. -/
theorem rem_eq_floorRem_iff {x y : ℚ} (hy : y ≠ 0) :
    Arithmetic.rem x y = floorRem x y ↔ 0 ≤ x / y ∨ ∃ n : ℤ, x / y = n := by
  rw [← truncate_eq_floor_iff]
  change x - y * truncate (x / y) = x - y * ⌊x / y⌋ ↔ _
  rw [sub_right_inj, mul_right_inj' hy, Int.cast_inj]

end FeatureStyle.Numeric
