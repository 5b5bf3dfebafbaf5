import FeatureStyle.Numeric.Language
import FeatureStyle.Proofs.Numeric.Rational

/-!
# The numbers that doubles stand for

A double that is finite stands for a rational number `± m · 2 ^ e` (`exactValue?`), and its
remainders are the exact ones, rounded once (`truncatedRemainder_finite`).

The whole number that a double stands for can be computed (`wholeValue?`), and as long as it is not
too large the constant of the double in a shader spells out all of its digits.
-/

namespace FeatureStyle.Numeric

open Float.Model (Format)
open Float.Model.UnpackedFloat (Sign)

/-! ### Dyadic numbers -/

/-- The number `± m · 2 ^ e`. -/
def dyadic (s : Sign) (m : ℕ) (e : ℤ) : ℚ :=
  match s with
  | .positive => m * 2 ^ e
  | .negative => -(m * 2 ^ e)

theorem abs_dyadic (s : Sign) (m : ℕ) (e : ℤ) : |dyadic s m e| = m * 2 ^ e := by
  have hnonneg : (0 : ℚ) ≤ m * 2 ^ e := mul_nonneg (Nat.cast_nonneg m) (zpow_nonneg zero_le_two e)
  cases s with
  | positive => exact abs_of_nonneg hnonneg
  | negative => rw [dyadic, abs_neg, abs_of_nonneg hnonneg]

/-- Without an exponent the number is whole. -/
theorem dyadic_zero (s : Sign) (m : ℕ) :
    dyadic s m 0 = ((if (s == .negative) = true then -(m : ℤ) else m : ℤ) : ℚ) := by
  cases s with
  | positive =>
    show (m : ℚ) * 2 ^ (0 : ℤ) = ((m : ℤ) : ℚ)
    simp
  | negative =>
    show -((m : ℚ) * 2 ^ (0 : ℤ)) = ((-(m : ℤ) : ℤ) : ℚ)
    simp

/-- The exponent can be lowered. -/
theorem dyadic_lower (s : Sign) (m : ℕ) {e e' : ℤ} (h : e' ≤ e) :
    dyadic s (m * 2 ^ (e - e').toNat) e' = dyadic s m e := by
  have hpow : (2 : ℚ) ^ (e - e').toNat * 2 ^ e' = 2 ^ e := by
    rw [← zpow_natCast, Int.toNat_of_nonneg (by omega), ← zpow_add₀ two_ne_zero, Int.sub_add_cancel]
  cases s <;> simp only [dyadic] <;> push_cast <;> rw [mul_assoc, hpow]

/-- The remainder of two numbers of one exponent is that of the mantissas. -/
theorem rem_dyadic (s₁ s₂ : Sign) (m₁ m₂ : ℕ) (e : ℤ) :
    Arithmetic.rem (dyadic s₁ m₁ e) (dyadic s₂ m₂ e) = dyadic s₁ (m₁ % m₂) e := by
  have hpow : (2 : ℚ) ^ e ≠ 0 := zpow_ne_zero e two_ne_zero
  have hrem := rem_mul_right m₁ m₂ hpow
  rw [rem_natCast] at hrem
  cases s₁ <;> cases s₂ <;> simp only [dyadic, rem_neg_left, rem_neg_right, hrem]

/-- **The remainder of doubles is the exact one**, rounded once. -/
theorem truncatedRemainder_finite (spec : Format) {s₁ s₂ : Sign} {m₁ m₂ : ℕ} {e₁ e₂ : ℤ}
    (h₁ : 0 < m₁) (h₂ : 0 < m₂) :
    ∃ m e, dyadic s₁ m e = Arithmetic.rem (dyadic s₁ m₁ e₁) (dyadic s₂ m₂ e₂) ∧
      truncatedRemainder spec (.finite s₁ m₁ e₁ h₁) (.finite s₂ m₂ e₂ h₂) =
        if m = 0 then .zero s₁ else .round spec s₁ m e := by
  -- Both are written with the smaller exponent, and then the mantissas are divided.
  refine ⟨_, min e₁ e₂, ?_, rfl⟩
  rw [← dyadic_lower s₁ m₁ (min_le_left e₁ e₂), ← dyadic_lower s₂ m₂ (min_le_right e₁ e₂),
    rem_dyadic]
  rfl

/-! ### Exact values -/

/-- The number that a double stands for. -/
def exactValue? (x : Float) : Option ℚ :=
  match x.toModel.unpack with
  | .zero _ => some 0
  | .finite s m e _ => some (dyadic s m e)
  | _ => none

/-- The whole number that a double stands for, if it stands for one, from its parts. -/
def wholeValue? (x : Float) : Option ℤ :=
  let u := x.toModel.unpack
  if isWhole u then some (if isNegative u then -(magnitude u : ℤ) else magnitude u) else none

theorem dyadic_of_isWhole {s : Sign} {m : ℕ} {e : ℤ} (hm : 0 < m) (h : isWhole (.finite s m e hm)) :
    dyadic s m e = dyadic s (magnitude (.finite s m e hm)) 0 := by
  by_cases he : 0 ≤ e
  · have hmagnitude : magnitude (.finite s m e hm) = m * 2 ^ e.toNat := if_pos he
    rw [hmagnitude, ← dyadic_lower s m he, Int.sub_zero]
  · have hmagnitude : magnitude (.finite s m e hm) = m / 2 ^ (-e).toNat := if_neg he
    have hdvd : 2 ^ (-e).toNat ∣ m := by
      have hor : (decide (0 ≤ e) || m % 2 ^ (-e).toNat == 0) = true := h
      rw [decide_eq_false he, Bool.false_or] at hor
      exact Nat.dvd_of_mod_eq_zero (beq_iff_eq.1 hor)
    have hlower := dyadic_lower s (m / 2 ^ (-e).toNat) (show e ≤ 0 by omega)
    rw [Int.zero_sub, Nat.div_mul_cancel hdvd] at hlower
    rw [hmagnitude]
    exact hlower

/-- The whole number is the magnitude with its sign. -/
theorem dyadic_eq_of_isWhole {s : Sign} {m : ℕ} {e : ℤ} (hm : 0 < m)
    (h : isWhole (.finite s m e hm)) :
    dyadic s m e = ((if isNegative (.finite s m e hm) then -(magnitude (.finite s m e hm) : ℤ)
      else magnitude (.finite s m e hm) : ℤ) : ℚ) := by
  rw [dyadic_of_isWhole hm h, dyadic_zero]
  rfl

theorem isWhole_of_dyadic_eq {s : Sign} {m : ℕ} {e n : ℤ} (hm : 0 < m) (h : dyadic s m e = n) :
    isWhole (.finite s m e hm) := by
  by_cases he : 0 ≤ e
  · exact Bool.or_eq_true_iff.2 (.inl (decide_eq_true he))
  · have hpow : (2 : ℚ) ^ e * 2 ^ (-e).toNat = 1 := by
      rw [← zpow_natCast, Int.toNat_of_nonneg (by omega), ← zpow_add₀ two_ne_zero, add_neg_cancel,
        zpow_zero]
    -- The mantissa is the whole number times a power of two.
    have habs : (n.natAbs : ℚ) = m * 2 ^ e := by
      rw [Nat.cast_natAbs, Int.cast_abs, ← h, abs_dyadic]
    have hm : (m : ℚ) = (n.natAbs * 2 ^ (-e).toNat : ℕ) := by
      push_cast [habs]
      rw [mul_assoc, hpow, mul_one]
    have hmod : m % 2 ^ (-e).toNat = 0 := by
      rw [Nat.cast_injective hm]
      exact Nat.mul_mod_left _ _
    exact Bool.or_eq_true_iff.2 (.inr (beq_iff_eq.2 hmod))

theorem wholeValue?_eq_some_iff {x : Float} {n : ℤ} :
    wholeValue? x = some n ↔ exactValue? x = some (n : ℚ) := by
  rw [wholeValue?, exactValue?]
  cases x.toModel.unpack with
  | notANumber | infinity => exact iff_of_false nofun nofun
  | zero s =>
    have hzero : (if isNegative (.zero s) then -(0 : ℤ) else 0) = 0 := by simp
    show some (if isNegative (.zero s) then -(0 : ℤ) else 0) = some n ↔ some (0 : ℚ) = some (n : ℚ)
    rw [hzero, Option.some.injEq, Option.some.injEq]
    norm_cast
  | finite s m e hm =>
    by_cases hwhole : isWhole (.finite s m e hm)
    · rw [if_pos hwhole, Option.some.injEq]
      show _ = n ↔ some (dyadic s m e) = some (n : ℚ)
      rw [dyadic_eq_of_isWhole hm hwhole, Option.some.injEq]
      exact Int.cast_inj.symm
    · rw [if_neg hwhole]
      exact iff_of_false nofun fun h ↦ hwhole (isWhole_of_dyadic_eq hm (Option.some.inj h))

/-! ### Constants -/

/-- The whole number and its sign bit. -/
theorem eq_of_wholeValue? {x : Float} {n : ℤ} (h : wholeValue? x = some n) :
    isWhole x.toModel.unpack ∧ magnitude x.toModel.unpack = n.natAbs ∧
      n = if isNegative x.toModel.unpack then -(n.natAbs : ℤ) else n.natAbs := by
  simp only [wholeValue?] at h
  split at h
  · next hwhole =>
    have hn := Option.some.inj h
    have hmagnitude : magnitude x.toModel.unpack = n.natAbs := by
      rw [← hn]
      split <;> simp
    refine ⟨hwhole, hmagnitude, ?_⟩
    rw [← hmagnitude]
    exact hn.symm
  · cases h

/-- A whole number that is not too large is written with all of its digits and a point. -/
theorem constantText_of_wholeValue? {x : Float} {n : ℤ} (h : wholeValue? x = some n)
    (hn : n.natAbs < 10 ^ 21) :
    constantText x = wholeText (isNegative x.toModel.unpack) n.natAbs := by
  obtain ⟨hwhole, hmagnitude, -⟩ := eq_of_wholeValue? h
  rw [constantText, hmagnitude]
  simp only [hwhole, Bool.true_and]
  rw [if_pos]
  exact decide_eq_true hn

end FeatureStyle.Numeric
