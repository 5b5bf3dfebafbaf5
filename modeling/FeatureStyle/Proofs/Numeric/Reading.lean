import FeatureStyle.Proofs.Numeric.Rounding

/-!
# Reading a decimal

**A decimal is read as a double exactly if the double attracts its value** (`toFloat_eq_iff`). There
is no bound on the decimal: what is far below the least double is read as zero and what is far above
the largest one as an infinity, and no double attracts it.
-/

namespace FeatureStyle.Numeric

open Float.Model (Format UnpackedFloat)
open Float.Model.UnpackedFloat

variable {m : ℕ} {e : ℤ} {c : ℕ} {k : ℤ} {d : Decimal}

/-! ### Decimals out of range -/

/-- What is far below the least double is not attracted by one. -/
theorem mul_zpow_le_of_lt (hk : k < -(2 ^ 11 + (c.log2 : ℤ))) :
    (c : ℚ) * 10 ^ k ≤ 2 ^ (-1075 : ℤ) := by
  have hc : (c : ℚ) ≤ 2 ^ (c.log2 + 1 : ℤ) := by
    have := (Nat.lt_log2_self (n := c)).le
    exact_mod_cast this
  have hpow : (10 : ℚ) ^ k ≤ 2 ^ k := by
    have hle : (2 : ℚ) ^ (-k) ≤ 10 ^ (-k) :=
      zpow_le_zpow_left₀ (by omega) zero_le_two (by norm_num)
    rw [zpow_neg, zpow_neg] at hle
    exact (inv_le_inv₀ (zpow_pos two_pos k) (zpow_pos (by norm_num) k)).1 hle
  calc (c : ℚ) * 10 ^ k ≤ 2 ^ (c.log2 + 1 : ℤ) * 2 ^ k :=
        mul_le_mul hc hpow (zpow_nonneg (by norm_num) k) (zpow_nonneg zero_le_two _)
    _ = 2 ^ (c.log2 + 1 + k : ℤ) := (zpow_add₀ two_ne_zero _ _).symm
    _ ≤ 2 ^ (-1075 : ℤ) := zpow_le_zpow_right₀ one_le_two (by omega)

/-- What is far above the largest double is not attracted by one. -/
theorem le_mul_zpow_of_lt (hc : c ≠ 0) (hk : 2 ^ 11 < k) : (2 : ℚ) ^ (1024 : ℤ) ≤ c * 10 ^ k := by
  have hc : (1 : ℚ) ≤ c := by exact_mod_cast Nat.one_le_iff_ne_zero.2 hc
  calc (2 : ℚ) ^ (1024 : ℤ) ≤ 2 ^ k := zpow_le_zpow_right₀ one_le_two (by omega)
    _ ≤ 10 ^ k := zpow_le_zpow_left₀ (by omega) zero_le_two (by norm_num)
    _ ≤ c * 10 ^ k := le_mul_of_one_le_left (zpow_nonneg (by norm_num) k) hc

theorem ofScientific_of_large (hc : c ≠ 0) (hk : 2 ^ 11 < k) :
    ofScientific .binary64 c k = .infinity .positive := by
  unfold ofScientific
  rw [dif_neg hc, if_pos hk]

theorem ofScientific_of_small (hc : c ≠ 0) (hk : k < -(2 ^ 11 + (c.log2 : ℤ))) :
    ofScientific .binary64 c k = .zero .positive := by
  have hlarge : ¬ 2 ^ 11 < k := by omega
  unfold ofScientific
  rw [dif_neg hc, if_neg hlarge, if_pos hk]

/-! ### Decimals in range -/

/-- **A decimal is rounded to a double exactly if the double attracts its value.** -/
theorem ofScientific_eq_finite_iff (h : IsDouble m e) (hm : 0 < m) :
    ofScientific .binary64 c k = .finite .positive m e hm ↔ Attracts m e (c * 10 ^ k) := by
  by_cases hc : c = 0
  · subst hc
    refine iff_of_false nofun fun hq ↦ ?_
    have hpos := hq.pos h.toIsCanonical
    rw [Nat.cast_zero, zero_mul] at hpos
    exact absurd hpos (not_lt.2 (zpow_nonneg zero_le_two _))
  by_cases hlarge : 2 ^ 11 < k
  · rw [ofScientific_of_large hc hlarge]
    refine iff_of_false nofun fun hq ↦ ?_
    have hlt : (c : ℚ) * 10 ^ k < 2 ^ (1024 : ℤ) := hq.lt_of_le h.toIsCanonical h.le
    exact absurd hlt (not_lt.2 (le_mul_zpow_of_lt hc hlarge))
  by_cases hsmall : k < -(2 ^ 11 + (c.log2 : ℤ))
  · rw [ofScientific_of_small hc hsmall]
    refine iff_of_false nofun fun hq ↦ ?_
    exact absurd (hq.pos h.toIsCanonical) (not_lt.2 (mul_zpow_le_of_lt hsmall))
  rcases ofScientific_spec hc hlarge hsmall with
    ⟨hzero, hle⟩ | ⟨m', e', hm', hfinite, hcanonical, hq⟩
  · rw [hzero]
    exact iff_of_false nofun fun hq ↦ absurd (hq.pos h.toIsCanonical) (not_lt.2 hle)
  · rw [hfinite]
    constructor
    · intro heq
      cases heq
      exact hq
    · intro hq'
      obtain ⟨rfl, rfl⟩ := hq.unique hcanonical h.toIsCanonical hq'
      rfl

/-! ### The double that a decimal is read as -/

theorem isCanonical_of_ofScientific {s : Sign} {hm : 0 < m}
    (h : ofScientific .binary64 c k = .finite s m e hm) : IsCanonical m e := by
  by_cases hc : c = 0
  · subst hc
    cases h
  by_cases hlarge : 2 ^ 11 < k
  · rw [ofScientific_of_large hc hlarge] at h
    cases h
  by_cases hsmall : k < -(2 ^ 11 + (c.log2 : ℤ))
  · rw [ofScientific_of_small hc hsmall] at h
    cases h
  rcases ofScientific_spec hc hlarge hsmall with ⟨hzero, -⟩ | ⟨_, _, _, hfinite, hcanonical, -⟩
  · rw [hzero] at h
    cases h
  · rw [hfinite] at h
    cases h
    exact hcanonical

/-- A double is packed from nothing but its parts. -/
theorem eq_finite_of_unpack_pack {u : UnpackedFloat} {s : Sign} {hm : 0 < m}
    (hu : ∀ s m e hm, u = .finite s m e hm → IsCanonical m e)
    (h : unpack .binary64 (pack .binary64 u) = .finite s m e hm) : u = .finite s m e hm := by
  rcases u with s' | - | s' | ⟨s', m', e', hm'⟩
  · exact absurd ((unpack_packedInfinity s').symm.trans h) nofun
  · exact absurd (unpack_packedNaN.symm.trans h) nofun
  · exact absurd (unpack_packedZero.symm.trans h) nofun
  · by_cases hle : e' ≤ 971
    · rwa [unpack_pack_finite ⟨hu s' m' e' hm' rfl, hle⟩] at h
    · rw [pack_of_large (not_le.1 hle), unpack_packedInfinity] at h
      cases h

theorem unpack_neg (x : Float) : (-x).toModel.unpack = x.toModel.unpack.neg := by
  show unpack .binary64 (pack .binary64 x.toModel.unpack.neg) = _
  rcases h : x.toModel.unpack with s | - | s | ⟨s, m, e, hm⟩
  · exact unpack_packedInfinity _
  · exact unpack_packedNaN
  · exact unpack_packedZero
  · exact unpack_pack_finite (isDouble_of_unpack h)

/-- The sign of a double can be turned back. -/
theorem neg_neg_float (x : Float) : - -x = x := by
  refine eq_of_unpack_eq ?_
  rw [unpack_neg, unpack_neg]
  rcases x.toModel.unpack with s | - | s | ⟨s, m, e, hm⟩
  · cases s <;> rfl
  · rfl
  · cases s <;> rfl
  · cases s <;> rfl

theorem toFloat_eq_iff_of_positive {x : Float} {hm : 0 < m}
    (hx : x.toModel.unpack = .finite .positive m e hm) :
    d.toFloat false = x ↔ Attracts m e d.value := by
  have hdouble := isDouble_of_unpack hx
  rw [Decimal.value, ← ofScientific_eq_finite_iff hdouble hm]
  constructor
  · rintro rfl
    exact eq_finite_of_unpack_pack (fun _ _ _ _ ↦ isCanonical_of_ofScientific) hx
  · intro h
    refine eq_of_unpack_eq (Eq.trans ?_ hx.symm)
    show unpack .binary64 (pack .binary64 (ofScientific .binary64 _ _)) = _
    rw [h, unpack_pack_finite hdouble]

/-- **A decimal is read as a double exactly if the double attracts its value.** -/
theorem toFloat_eq_iff {x : Float} {s : Sign} {hm : 0 < m}
    (hx : x.toModel.unpack = .finite s m e hm) :
    d.toFloat (s == .negative) = x ↔ Attracts m e d.value := by
  cases s with
  | positive => exact toFloat_eq_iff_of_positive hx
  | negative =>
    have hneg : (-x).toModel.unpack = .finite .positive m e hm := by
      rw [unpack_neg, hx]
      rfl
    rw [← toFloat_eq_iff_of_positive hneg]
    show -d.toFloat false = x ↔ _
    constructor
    · rintro rfl
      exact (neg_neg_float _).symm
    · intro h
      rw [h, neg_neg_float]

end FeatureStyle.Numeric
