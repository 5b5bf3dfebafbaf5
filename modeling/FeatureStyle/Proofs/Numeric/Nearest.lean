import FeatureStyle.Proofs.Numeric.Reading

/-!
# The nearest double

The double nearest to a number that is not negative (`IsNearest`) is zero up to half of the least
double, an infinity from where rounding leaves the largest one, and in between the double that
attracts the number. There is only one (`IsNearest.unique`).

**Decimals are read as the nearest double**, however many digits they have (`isNearest_toFloat`),
and **natural numbers are converted to it** (`isNearest_ofNat`). One of at most 53 bits goes another
way than the larger ones: it is converted from a machine word, which takes one rounding
(`rounded_round`), and multiplied by one, which changes nothing (`mul_one_float`).
-/

namespace FeatureStyle.Numeric

open Float.Model (Format UnpackedFloat)
open Float.Model.UnpackedFloat

variable {x : Float} {q : ℚ} {m : ℕ} {e : ℤ}

/-- The double is the nearest one to a number that is not negative, and of two it is the even one.
What lies at least half a step above the largest double is nearest to infinity. -/
inductive IsNearest (q : ℚ) (x : Float) : Prop
  | zero (hx : x.toModel.unpack = .zero .positive) (hq : q ≤ 2 ^ (-1075 : ℤ))
  | finite {m : ℕ} {e : ℤ} {hm : 0 < m} (hx : x.toModel.unpack = .finite .positive m e hm)
      (hq : Attracts m e q)
  | infinity (hx : x.toModel.unpack = .infinity .positive) (hq : highEnd (2 ^ 53 - 1) 971 ≤ q)

theorem IsNearest.isNaN_eq_false (h : IsNearest q x) : x.isNaN = false := by
  show x.toModel.unpack.isNaN = false
  cases h with
  | zero hx | finite hx | infinity hx => rw [hx]; rfl

/-- Where infinity begins is the lower end of what the next power of two would attract. -/
theorem attracts_overflow : Attracts (2 ^ 52) 972 (highEnd (2 ^ 53 - 1) 971) := by
  have hdouble : (2 : ℚ) ^ (972 : ℤ) = 2 ^ (971 : ℤ) * 2 := zpow_add_one₀ two_ne_zero 971
  have hpos : (0 : ℚ) < 2 ^ (971 : ℤ) := zpow_pos two_pos _
  rw [highEnd]
  refine ⟨?_, ?_, fun hodd ↦ absurd hodd (by decide)⟩
  · rw [lowEnd, hdouble, if_pos (by decide)]
    generalize (2 : ℚ) ^ (971 : ℤ) = step at hpos
    push_cast
    linarith
  · rw [highEnd, hdouble]
    generalize (2 : ℚ) ^ (971 : ℤ) = step at hpos
    push_cast
    linarith

/-- What is rounded to a double lies below where infinity begins. -/
theorem Attracts.lt_overflow (h : IsDouble m e) (hq : Attracts m e q) :
    q < highEnd (2 ^ 53 - 1) 971 := by
  have hnext : IsCanonical (2 ^ 52) 972 := by constructor <;> norm_num
  exact hq.lt_of_lt h.toIsCanonical hnext (.inl (Int.lt_add_one_iff.2 h.le)) attracts_overflow

/-- **A number has only one nearest double.** -/
theorem IsNearest.unique {y : Float} (hx : IsNearest q x) (hy : IsNearest q y) : x = y := by
  -- A number has one place: near zero, where a double attracts it, or from where infinity begins.
  have hlow {m : ℕ} {e : ℤ} (h : IsDouble m e) (hq : Attracts m e q) :
      ¬ q ≤ 2 ^ (-1075 : ℤ) := not_le.2 (hq.pos h.toIsCanonical)
  have hhigh {m : ℕ} {e : ℤ} (h : IsDouble m e) (hq : Attracts m e q) :
      ¬ highEnd (2 ^ 53 - 1) 971 ≤ q := not_le.2 (hq.lt_overflow h)
  have hends : ¬ (q ≤ 2 ^ (-1075 : ℤ) ∧ highEnd (2 ^ 53 - 1) 971 ≤ q) := by
    have hone : IsDouble 1 (-1074) := ⟨⟨one_pos, by norm_num, .inr rfl, le_rfl⟩, by norm_num⟩
    rintro ⟨hzero, hinfinity⟩
    have hself := attracts_self 1 (-1074)
    linarith [hself.pos hone.toIsCanonical, hself.lt_overflow hone]
  refine eq_of_unpack_eq ?_
  rcases hx with ⟨hx, hq⟩ | ⟨hx, hq⟩ | ⟨hx, hq⟩ <;>
    rcases hy with ⟨hy, hq'⟩ | ⟨hy, hq'⟩ | ⟨hy, hq'⟩
  · rw [hx, hy]
  · exact absurd hq (hlow (isDouble_of_unpack hy) hq')
  · exact absurd ⟨hq, hq'⟩ hends
  · exact absurd hq' (hlow (isDouble_of_unpack hx) hq)
  · obtain ⟨rfl, rfl⟩ := hq.unique (isDouble_of_unpack hx).toIsCanonical
      (isDouble_of_unpack hy).toIsCanonical hq'
    rw [hx, hy]
  · exact absurd hq' (hhigh (isDouble_of_unpack hx) hq)
  · exact absurd ⟨hq', hq⟩ hends
  · exact absurd hq (hhigh (isDouble_of_unpack hy) hq')
  · rw [hx, hy]

/-! ### Rounded numbers -/

/-- What rounding to nearest comes to. -/
def Rounded (u : UnpackedFloat) (q : ℚ) : Prop :=
  (u = .zero .positive ∧ q ≤ 2 ^ (-1075 : ℤ)) ∨
    ∃ (m : ℕ) (e : ℤ) (hm : 0 < m),
      u = .finite .positive m e hm ∧ IsCanonical m e ∧ Attracts m e q

/-- A rounded number is packed as the nearest double. -/
theorem Rounded.isNearest {u : UnpackedFloat} (h : Rounded u q) :
    IsNearest q (.ofModel (.pack u)) := by
  rcases h with ⟨rfl, hq⟩ | ⟨m, e, hm, rfl, hcanonical, hq⟩
  · exact .zero rfl hq
  by_cases hle : e ≤ 971
  · have hunpack : unpack .binary64 (pack .binary64 (.finite .positive m e hm)) =
        .finite .positive m e hm := unpack_pack_finite ⟨hcanonical, hle⟩
    exact .finite hunpack hq
  · refine .infinity ?_ ?_
    · show unpack .binary64 (pack .binary64 (.finite .positive m e hm)) = _
      rw [pack_of_large (not_le.1 hle), unpack_packedInfinity]
    · have hlargest : IsCanonical (2 ^ 53 - 1) 971 := by constructor <;> norm_num
      obtain ⟨hhigh, hlow⟩ := highEnd_le_lowEnd_of_exponent hlargest hcanonical (not_le.1 hle)
      exact (hhigh.trans hlow).trans hq.ge

theorem isNearest_infinity (hq : (2 : ℚ) ^ (1024 : ℤ) ≤ q) :
    IsNearest q (.ofModel (.pack (.infinity .positive))) := by
  have hsplit : (2 : ℚ) ^ (1024 : ℤ) = 2 ^ 53 * 2 ^ (971 : ℤ) := by
    rw [← zpow_natCast, ← zpow_add₀ two_ne_zero]
    rfl
  refine .infinity rfl (le_trans ?_ hq)
  rw [highEnd, hsplit]
  exact mul_le_mul_of_nonneg_right (by norm_num) (zpow_nonneg zero_le_two _)

/-- **A decimal is read as the nearest double.** -/
theorem isNearest_toFloat (d : Decimal) : IsNearest d.value (d.toFloat false) := by
  show IsNearest _ (.ofModel (.pack (ofScientific .binary64 d.coefficient d.exponent)))
  rw [Decimal.value]
  generalize d.coefficient = c, d.exponent = k
  by_cases hc : c = 0
  · subst hc
    have hunpack : unpack .binary64 (packedZero .binary64 .positive) = .zero .positive :=
      unpack_packedZero
    refine .zero hunpack ?_
    rw [Nat.cast_zero, zero_mul]
    exact zpow_nonneg zero_le_two _
  by_cases hlarge : 2 ^ 11 < k
  · rw [ofScientific_of_large hc hlarge]
    exact isNearest_infinity (le_mul_zpow_of_lt hc hlarge)
  by_cases hsmall : k < -(2 ^ 11 + (c.log2 : ℤ))
  · rw [ofScientific_of_small hc hsmall]
    exact .zero rfl (mul_zpow_le_of_lt hsmall)
  exact Rounded.isNearest (ofScientific_spec hc hlarge hsmall)

/-! ### Natural numbers -/

theorem log2_add_le_log2_shiftLeft {m : ℕ} (hm : m ≠ 0) (n : ℕ) :
    m.log2 + n ≤ (m <<< n).log2 := by
  have hpos : m <<< n ≠ 0 := by
    rw [Nat.shiftLeft_eq]
    positivity
  rw [Nat.le_log2 hpos, Nat.shiftLeft_eq, pow_add]
  exact Nat.mul_le_mul_right _ (Nat.log2_self_le hm)

/-- A whole mantissa is rounded to nearest. -/
theorem rounded_round {m : ℕ} (hm : m ≠ 0) (e : ℤ) :
    Rounded (UnpackedFloat.round .binary64 .positive m e) (m * 2 ^ e) := by
  -- The exponent is decreased until the mantissa has all of its bits or the exponent is the least.
  let target : ℤ := max (m.log2 + e - 52) (-1074)
  let shift : ℕ := (e - target).toNat
  have hvalue : (m : ℚ) * 2 ^ e / 2 ^ (e - shift) = ((m <<< shift : ℕ) : ℚ) := by
    rw [mul_div_assoc, ← zpow_sub₀ two_ne_zero, sub_sub_cancel, Nat.shiftLeft_eq, zpow_natCast]
    push_cast
    rfl
  have hround : UnpackedFloat.round .binary64 .positive m e =
      roundWithAccuracy .binary64 .positive (m <<< shift) (e - shift) .exact := by
    unfold UnpackedFloat.round
    dsimp only
    rw [targetExponent_eq]
    rfl
  have hbits : 52 ≤ (m <<< shift).log2 ∨ e - shift ≤ -1074 := by
    have hlog : m.log2 + shift ≤ (m <<< shift).log2 := log2_add_le_log2_shiftLeft hm shift
    omega
  rw [hround]
  refine roundWithAccuracy_spec .positive ?_ hbits
  rw [hvalue]
  exact represents_exact _

/-- Multiplying by one changes nothing. -/
theorem mul_one_float (x : Float) : x * 1 = x := by
  refine eq_of_unpack_eq ?_
  have hone : (1 : Float).toModel.unpack = .finite .positive (2 ^ 52) (-52) (by decide) := rfl
  show unpack .binary64 (pack .binary64 (mul .binary64 x.toModel.unpack (1 : Float).toModel.unpack))
    = x.toModel.unpack
  rw [hone]
  rcases hx : x.toModel.unpack with s | - | s | ⟨s, m, e, hm⟩
  · cases s <;> rfl
  · rfl
  · cases s <;> rfl
  have hdouble := isDouble_of_unpack hx
  have hmul : mul .binary64 (.finite s m e hm) (.finite .positive (2 ^ 52) (-52) (by decide)) =
      roundWithAccuracy .binary64 s (m * 2 ^ 52) (e + -52) .exact := by
    cases s <;> rfl
  have hvalue : (m : ℚ) * 2 ^ e / 2 ^ (e + -52) = ((m * 2 ^ 52 : ℕ) : ℚ) := by
    rw [mul_div_assoc, ← zpow_sub₀ two_ne_zero, sub_add_cancel_left]
    push_cast
    rfl
  have hbits : 52 ≤ (m * 2 ^ 52).log2 := by
    have hlog := log2_add_le_log2_shiftLeft hm.ne' 52
    rw [Nat.shiftLeft_eq] at hlog
    omega
  rw [hmul]
  rcases roundWithAccuracy_spec (q := m * 2 ^ e) s (hvalue ▸ represents_exact _) (.inl hbits) with
    ⟨-, hq⟩ | ⟨m', e', hm', hfinite, hcanonical, hq⟩
  · exact absurd ((attracts_self m e).pos hdouble.toIsCanonical) (not_lt.2 hq)
  · obtain ⟨rfl, rfl⟩ := hq.unique hcanonical hdouble.toIsCanonical (attracts_self m e)
    rw [hfinite, unpack_pack_finite hdouble]

/-- A machine word is converted to the nearest double. -/
theorem isNearest_toFloat_word {n : ℕ} (h : n < 2 ^ 64) : IsNearest n n.toUInt64.toFloat := by
  have htoNat : n.toUInt64.toNat = n := UInt64.toNat_ofNat_of_lt' h
  show IsNearest n (.ofModel (.pack (UnpackedFloat.ofNat .binary64 n.toUInt64.toNat)))
  rw [htoNat]
  rcases Nat.eq_zero_or_pos n with rfl | hpos
  · exact .zero rfl (zpow_nonneg zero_le_two _)
  · have hround :
        UnpackedFloat.ofNat .binary64 n = UnpackedFloat.round .binary64 .positive n 0 := by
      have hcompare : compare (n : ℤ) 0 = .gt := compare_gt_iff_gt.2 (Int.natCast_pos.2 hpos)
      show UnpackedFloat.normalize .binary64 n 0 .positive = _
      unfold UnpackedFloat.normalize
      rw [hcompare]
      rfl
    have hrounded := rounded_round hpos.ne' 0
    rw [zpow_zero, mul_one] at hrounded
    rw [hround]
    exact hrounded.isNearest

/-- **A natural number is converted to the nearest double.** -/
theorem isNearest_ofNat (n : ℕ) : IsNearest n (Float.ofNat n) := by
  by_cases hsmall : n < 2 ^ 53
  · have hofNat : Float.ofNat n = n.toUInt64.toFloat := by
      have hword : Float.ofNat n = n.toUInt64.toFloat * 1 := by
        show Float.ofScientific n false 0 = _
        unfold Float.ofScientific
        rw [dif_pos ⟨hsmall, by decide⟩]
        rfl
      rw [hword, mul_one_float]
    rw [hofNat]
    exact isNearest_toFloat_word (hsmall.trans (by decide))
  · have hofNat : Float.ofNat n = (⟨n, 0⟩ : Decimal).toFloat false := by
      show Float.ofScientific n false 0 = _
      unfold Float.ofScientific
      rw [dif_neg fun h ↦ hsmall h.1]
      rfl
    have hvalue : Decimal.value ⟨n, 0⟩ = n := by rw [Decimal.value, zpow_zero, mul_one]
    rw [hofNat, ← hvalue]
    exact isNearest_toFloat _

end FeatureStyle.Numeric
