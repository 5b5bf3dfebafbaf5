import FeatureStyle.Numeric.Decimal
import FeatureStyle.Proofs.Numeric.Double

/-!
# Rounding a decimal to a double

A double *attracts* a number if it is the nearest one to it, and of two equally near ones the one
with the even mantissa (`Attracts`). What is attracted by a smaller double is smaller
(`Attracts.lt_of_lt`), so that no two doubles attract one number (`Attracts.unique`).

**A decimal is read as the double that attracts its value** (`ofScientific_spec`). The value is
brought into a mantissa with two more bits, one for the half and one for all that is below it, and
these say which double is the nearest (`Represents.roundsTo`, `roundWithAccuracy_spec`).
-/

namespace FeatureStyle.Numeric

open Float.Model (Format UnpackedFloat totalExponent)
open Float.Model.UnpackedFloat

/-! ### Extended mantissas -/

/-- The extended mantissa stands for the number as far as rounding is concerned: its round bit and
its sticky bit say on which side of the middle of two mantissas the number is. -/
def Represents : ExtendedMantissa → ℚ → Prop
  | ⟨m, false, false⟩, q => q = m
  | ⟨m, false, true⟩, q => m < q ∧ q < m + 1 / 2
  | ⟨m, true, false⟩, q => q = m + 1 / 2
  | ⟨m, true, true⟩, q => m + 1 / 2 < q ∧ q < m + 1

/-- The number is rounded to the mantissa: there is no nearer one, and no even one as near. -/
structure RoundsTo (q : ℚ) (m : ℕ) : Prop where
  ge : (m : ℚ) - 1 / 2 ≤ q
  le : q ≤ m + 1 / 2
  odd : m % 2 = 1 → m - 1 / 2 < q ∧ q < m + 1 / 2

variable {em : ExtendedMantissa} {q : ℚ}

/-- An extended mantissa stands for numbers between two mantissas. -/
theorem Represents.bounds (h : Represents em q) : (em.mantissa : ℚ) ≤ q ∧ q < em.mantissa + 1 := by
  obtain ⟨m, round, sticky⟩ := em
  cases round <;> cases sticky <;> simp only [Represents] at h ⊢ <;> constructor <;> linarith

/-- Shifting by one place halves the number. -/
theorem Represents.shiftRightOne (h : Represents em q) : Represents em.shiftRightOne (q / 2) := by
  obtain ⟨m, round, sticky⟩ := em
  have hm : (m : ℚ) = 2 * (m / 2 : ℕ) + (m % 2 : ℕ) := by
    exact_mod_cast (Nat.div_add_mod m 2).symm
  rcases Nat.mod_two_eq_zero_or_one m with hmod | hmod <;> rw [hmod] at hm <;>
    push_cast at hm <;> cases round <;> cases sticky <;>
    simp only [Represents, ExtendedMantissa.shiftRightOne, hmod, Bool.or_true, Bool.or_false,
      bne_self_eq_false, Nat.reduceBNe] at h ⊢ <;>
    first | constructor <;> linarith | linarith

/-- Shifting it out bit by bit keeps on which side of the middle the number is. -/
theorem Represents.shiftRight (h : Represents em q) (n : ℕ) :
    Represents (em >>> n) (q / 2 ^ n) := by
  show Represents (n.repeat ExtendedMantissa.shiftRightOne em) _
  induction n with
  | zero => simpa [Nat.repeat] using h
  | succ n ih =>
    rw [Nat.repeat, pow_succ, ← div_div]
    exact ih.shiftRightOne

/-- **So it is rounded as the number is.** -/
theorem Represents.roundsTo (h : Represents em q) : RoundsTo q em.roundedMantissa := by
  obtain ⟨m, round, sticky⟩ := em
  cases round <;> cases sticky <;>
    simp only [Represents, ExtendedMantissa.roundedMantissa, ExtendedMantissa.accuracy,
      Accuracy.roundToNearestEven] at h ⊢
  · exact ⟨by linarith, by linarith, fun _ ↦ ⟨by linarith, by linarith⟩⟩
  · exact ⟨by linarith, by linarith, fun _ ↦ ⟨by linarith, by linarith⟩⟩
  · rcases Nat.mod_two_eq_zero_or_one m with hmod | hmod
    · rw [hmod, Nat.add_zero]
      exact ⟨by linarith, by linarith, by omega⟩
    · rw [hmod]
      exact ⟨by push_cast; linarith, by push_cast; linarith, by omega⟩
  · exact ⟨by push_cast; linarith, by push_cast; linarith,
      fun _ ↦ ⟨by push_cast; linarith, by push_cast; linarith⟩⟩

/-- A mantissa without an error stands for itself. -/
theorem represents_exact (m : ℕ) :
    Represents (.ofMantissaAndAccuracy m .exact) m := rfl

/-- A quotient is represented by its whole part and how the remainder compares. -/
theorem represents_div (a : ℕ) {b : ℕ} (hb : 0 < b) :
    Represents (.ofMantissaAndAccuracy (a / b) (accuracyOfFraction (a % b) b)) (a / b) := by
  have hbq : (0 : ℚ) < b := Nat.cast_pos.2 hb
  have hdiv : (a : ℚ) / b = (a / b : ℕ) + (a % b : ℕ) / b := by
    rw [div_eq_iff hbq.ne', add_mul, div_mul_cancel₀ _ hbq.ne']
    exact_mod_cast (Nat.div_add_mod' a b).symm
  have hlt : ((a % b : ℕ) : ℚ) / b < 1 := by
    rw [div_lt_one hbq]
    exact_mod_cast Nat.mod_lt a hb
  rw [hdiv]
  generalize a % b = r at *
  unfold accuracyOfFraction
  split
  · next hr =>
    subst hr
    show _ = _
    simp
  · next hr =>
    have hpos : 0 < (r : ℚ) / b := div_pos (Nat.cast_pos.2 (Nat.pos_of_ne_zero hr)) hbq
    rcases hcompare : compare (2 * r) b with - | - | -
    · have hhalf : (r : ℚ) / b < 1 / 2 := by
        rw [div_lt_div_iff₀ hbq two_pos]
        have : 2 * r < b := Nat.compare_eq_lt.1 hcompare
        exact_mod_cast (by omega : r * 2 < 1 * b)
      exact ⟨by linarith, by linarith⟩
    · have hhalf : (r : ℚ) / b = 1 / 2 := by
        rw [div_eq_div_iff hbq.ne' two_ne_zero]
        have : 2 * r = b := Nat.compare_eq_eq.1 hcompare
        exact_mod_cast (by omega : r * 2 = 1 * b)
      show _ = _
      rw [hhalf]
    · have hhalf : 1 / 2 < (r : ℚ) / b := by
        rw [div_lt_div_iff₀ two_pos hbq]
        have : b < 2 * r := Nat.compare_eq_gt.1 hcompare
        exact_mod_cast (by omega : 1 * b < r * 2)
      exact ⟨by linarith, by linarith⟩

/-! ### The numbers that a double stands for when they are rounded -/

/-- The lower end of what is rounded to `m · 2 ^ e`. Below a power of two doubles are closer to one
another. -/
def lowEnd (m : ℕ) (e : ℤ) : ℚ :=
  (m - if m = 2 ^ 52 ∧ -1074 < e then 1 / 4 else 1 / 2) * 2 ^ e

/-- The upper end of what is rounded to `m · 2 ^ e`. -/
def highEnd (m : ℕ) (e : ℤ) : ℚ := (m + 1 / 2) * 2 ^ e

/-- The double `m · 2 ^ e` is the nearest one to the number, and of two it is the even one. -/
structure Attracts (m : ℕ) (e : ℤ) (q : ℚ) : Prop where
  ge : lowEnd m e ≤ q
  le : q ≤ highEnd m e
  odd : m % 2 = 1 → lowEnd m e < q ∧ q < highEnd m e

/-- What a double attracts from below is never more than half a step away. -/
theorem half_le_lowEnd (m : ℕ) (e : ℤ) : ((m : ℚ) - 1 / 2) * 2 ^ e ≤ lowEnd m e := by
  refine mul_le_mul_of_nonneg_right ?_ (zpow_nonneg zero_le_two e)
  split <;> linarith

variable {m m' : ℕ} {e e' : ℤ} {q' : ℚ}

/-- What lies between two numbers that are attracted is attracted. -/
theorem Attracts.mid {p r : ℚ} (hp : Attracts m e p) (hr : Attracts m e r) (hpq : p ≤ q)
    (hqr : q ≤ r) : Attracts m e q :=
  ⟨hp.ge.trans hpq, hqr.trans hr.le,
    fun hodd ↦ ⟨(hp.odd hodd).1.trans_le hpq, hqr.trans_lt (hr.odd hodd).2⟩⟩

/-- A double is nearest to itself. -/
theorem attracts_self (m : ℕ) (e : ℤ) : Attracts m e (m * 2 ^ e) := by
  have hpos : (0 : ℚ) < 2 ^ e := zpow_pos two_pos e
  have hlow : lowEnd m e < m * 2 ^ e :=
    mul_lt_mul_of_pos_right (by split <;> linarith) hpos
  have hhigh : m * 2 ^ e < highEnd m e := mul_lt_mul_of_pos_right (by linarith) hpos
  exact ⟨hlow.le, hhigh.le, fun _ ↦ ⟨hlow, hhigh⟩⟩

/-- A larger exponent makes a larger number. -/
theorem highEnd_le_lowEnd_of_exponent (h : IsCanonical m e) (h' : IsCanonical m' e') (he : e < e') :
    highEnd m e ≤ (2 ^ 53 - 1 / 2) * 2 ^ e ∧ (2 ^ 53 - 1 / 2) * 2 ^ e ≤ lowEnd m' e' := by
  have hpos : (0 : ℚ) < 2 ^ e := zpow_pos two_pos e
  have hm : (m : ℚ) + 1 ≤ 2 ^ 53 := by exact_mod_cast h.lt
  have hm' : (2 : ℚ) ^ 52 ≤ m' := by
    have := h'.full.resolve_right (by have := h.ge; omega)
    exact_mod_cast this
  refine ⟨mul_le_mul_of_nonneg_right (by linarith) hpos.le, ?_⟩
  have hdouble : 2 * (2 : ℚ) ^ e ≤ 2 ^ e' := by
    rw [mul_comm, ← zpow_add_one₀ two_ne_zero]
    exact zpow_le_zpow_right₀ one_le_two he
  have hquarter :
      (2 : ℚ) ^ 52 - 1 / 4 ≤ m' - if m' = 2 ^ 52 ∧ -1074 < e' then 1 / 4 else 1 / 2 := by
    split
    · linarith
    · next hpower =>
      have hne : m' ≠ 2 ^ 52 := fun heq ↦ hpower ⟨heq, by have := h.ge; omega⟩
      have hlt : (2 : ℚ) ^ 52 + 1 ≤ m' := by
        have : 2 ^ 52 ≤ m' := by exact_mod_cast hm'
        exact_mod_cast (by omega : 2 ^ 52 + 1 ≤ m')
      linarith
  calc ((2 : ℚ) ^ 53 - 1 / 2) * 2 ^ e = (2 ^ 52 - 1 / 4) * (2 * 2 ^ e) := by ring
    _ ≤ (2 ^ 52 - 1 / 4) * 2 ^ e' := mul_le_mul_of_nonneg_left hdouble (by norm_num)
    _ ≤ lowEnd m' e' := mul_le_mul_of_nonneg_right hquarter (zpow_nonneg zero_le_two e')

/-- **What is rounded to a smaller double is smaller.** -/
theorem Attracts.lt_of_lt (h : IsCanonical m e) (h' : IsCanonical m' e')
    (hlt : e < e' ∨ e = e' ∧ m < m') (hq : Attracts m e q) (hq' : Attracts m' e' q') : q < q' := by
  have hpos : (0 : ℚ) < 2 ^ e := zpow_pos two_pos e
  rcases hlt with he | ⟨rfl, hm⟩
  · obtain ⟨hhigh, hlow⟩ := highEnd_le_lowEnd_of_exponent h h' he
    rcases Nat.mod_two_eq_zero_or_one m with heven | hodd
    · -- An even mantissa is not the last one.
      have hlast : (m : ℚ) + 2 ≤ 2 ^ 53 := by
        have := h.lt
        exact_mod_cast (by omega : m + 2 ≤ 2 ^ 53)
      have hbelow : highEnd m e < (2 ^ 53 - 1 / 2) * 2 ^ e :=
        mul_lt_mul_of_pos_right (by linarith) hpos
      linarith [hq.le, hq'.ge]
    · linarith [(hq.odd hodd).2, hq'.ge]
  · have hlow := half_le_lowEnd m' e
    rcases (Nat.succ_le_of_lt hm).lt_or_eq with hfar | hnext
    · have hfar : (m : ℚ) + 2 ≤ m' := by exact_mod_cast hfar
      have hbelow : highEnd m e < (m' - 1 / 2) * 2 ^ e :=
        mul_lt_mul_of_pos_right (by linarith) hpos
      linarith [hq.le, hq'.ge]
    · -- Of two neighbours one is odd.
      have hmeet : highEnd m e = (m' - 1 / 2) * 2 ^ e := by
        rw [highEnd, ← hnext]
        push_cast
        ring
      rcases Nat.mod_two_eq_zero_or_one m with heven | hodd
      · linarith [hq.le, (hq'.odd (by omega)).1]
      · linarith [(hq.odd hodd).2, hq'.ge]

/-- **No two doubles attract one number.** -/
theorem Attracts.unique (h : IsCanonical m e) (h' : IsCanonical m' e') (hq : Attracts m e q)
    (hq' : Attracts m' e' q) : m = m' ∧ e = e' := by
  rcases lt_trichotomy e e' with he | rfl | he
  · exact absurd (hq.lt_of_lt h h' (.inl he) hq') (lt_irrefl q)
  · rcases lt_trichotomy m m' with hm | rfl | hm
    · exact absurd (hq.lt_of_lt h h' (.inr ⟨rfl, hm⟩) hq') (lt_irrefl q)
    · exact ⟨rfl, rfl⟩
    · exact absurd (hq'.lt_of_lt h' h (.inr ⟨rfl, hm⟩) hq) (lt_irrefl q)
  · exact absurd (hq'.lt_of_lt h' h (.inl he) hq) (lt_irrefl q)

/-- What is rounded to a double is above half of the least one. -/
theorem Attracts.pos (h : IsCanonical m e) (hq : Attracts m e q) : (2 : ℚ) ^ (-1075 : ℤ) < q := by
  have hpos : (0 : ℚ) < 2 ^ e := zpow_pos two_pos e
  have hleast : (2 : ℚ) ^ (-1075 : ℤ) ≤ 1 / 2 * 2 ^ e := by
    rw [one_div, ← zpow_neg_one, ← zpow_add₀ two_ne_zero]
    exact zpow_le_zpow_right₀ one_le_two (by have := h.ge; omega)
  have hlow := half_le_lowEnd m e
  rcases (Nat.succ_le_of_lt h.pos).lt_or_eq with hm | rfl
  · have hm : (1 : ℚ) + 1 ≤ m := by exact_mod_cast hm
    have habove : 1 / 2 * (2 : ℚ) ^ e < (m - 1 / 2) * 2 ^ e :=
      mul_lt_mul_of_pos_right (by linarith) hpos
    linarith [hq.ge]
  · norm_num at hlow
    linarith [(hq.odd rfl).1]

/-- What is rounded to a double is not much larger than the largest one. -/
theorem Attracts.lt_of_le {E : ℤ} (h : IsCanonical m e) (hq : Attracts m e q) (he : e ≤ E) :
    q < 2 ^ (E + 53) := by
  have hm : (m : ℚ) + 1 ≤ 2 ^ 53 := by exact_mod_cast h.lt
  calc q ≤ (m + 1 / 2) * 2 ^ e := hq.le
    _ < 2 ^ 53 * 2 ^ e := mul_lt_mul_of_pos_right (by linarith) (zpow_pos two_pos e)
    _ ≤ 2 ^ 53 * 2 ^ E :=
      mul_le_mul_of_nonneg_left (zpow_le_zpow_right₀ one_le_two he) (by norm_num)
    _ = 2 ^ (E + 53) := by
      rw [mul_comm, ← zpow_natCast, ← zpow_add₀ two_ne_zero]
      rfl

/-! ### Rounding to what attracts -/

/-- **A number that rounds to a mantissa of full length is attracted by that double.** Below the
least normal number there is no other length. -/
theorem RoundsTo.attracts {r : ℕ} {T : ℤ} (h : RoundsTo (q / 2 ^ T) r)
    (hfull : -1074 < T → 2 ^ 52 ≤ q / 2 ^ T) : Attracts r T q := by
  have hpos : (0 : ℚ) < 2 ^ T := zpow_pos two_pos T
  obtain ⟨hge, hle, hodd⟩ := h
  rw [le_div_iff₀ hpos] at hge
  rw [div_le_iff₀ hpos] at hle
  refine ⟨?_, hle, fun hr ↦ ?_⟩
  · unfold lowEnd
    split
    · next hpower =>
      have hfull := hfull hpower.2
      rw [le_div_iff₀ hpos] at hfull
      rw [hpower.1]
      push_cast
      linarith
    · exact hge
  · have hne : ¬ (r = 2 ^ 52 ∧ -1074 < T) := by
      rintro ⟨rfl, -⟩
      exact absurd hr (by norm_num)
    rw [lowEnd, if_neg hne, highEnd]
    rw [lt_div_iff₀ hpos, div_lt_iff₀ hpos] at hodd
    exact hodd hr

/-- A mantissa with one bit too many is half of itself with the next exponent. -/
theorem RoundsTo.attracts_carry {T : ℤ} (h : RoundsTo (q / 2 ^ T) (2 ^ 53))
    (hlt : q / 2 ^ T < 2 ^ 53) : Attracts (2 ^ 52) (T + 1) q := by
  have hpos : (0 : ℚ) < 2 ^ T := zpow_pos two_pos T
  have hstep : (2 : ℚ) ^ (T + 1) = 2 ^ T * 2 := zpow_add_one₀ two_ne_zero T
  have hge := h.ge
  push_cast at hge
  rw [le_div_iff₀ hpos] at hge
  rw [div_lt_iff₀ hpos] at hlt
  refine ⟨?_, ?_, fun hodd ↦ absurd hodd (by norm_num)⟩
  · unfold lowEnd
    rw [hstep]
    split <;> push_cast <;> linarith
  · unfold highEnd
    rw [hstep]
    push_cast
    linarith

/-! ### Rounding -/

variable {M : ℕ} {E : ℤ} {acc : Accuracy}

/-- The exponent that is aimed at leaves a mantissa of full length, or is the least there is. -/
theorem targetExponent_eq (M : ℕ) (E : ℤ) :
    Format.binary64.targetExponent (totalExponent M E) = max (M.log2 + E - 52) (-1074) := by
  show max ((M.log2 : ℤ) + 1 + E - 53) (-1074) = _
  congr 1
  omega

/-- The target exponent leaves no more bits than a double has. -/
theorem div_zpow_lt {T : ℤ} (hT : M.log2 + E - 52 ≤ T) (hq : q < (M + 1) * 2 ^ E) :
    q / 2 ^ T < 2 ^ 53 := by
  have hbound : (M : ℚ) + 1 ≤ 2 ^ ((M.log2 + 1 : ℕ) : ℤ) := by
    rw [zpow_natCast]
    exact_mod_cast Nat.lt_log2_self (n := M)
  rw [div_lt_iff₀ (zpow_pos two_pos T), ← zpow_natCast, ← zpow_add₀ two_ne_zero]
  calc q < (M + 1) * 2 ^ E := hq
    _ ≤ 2 ^ ((M.log2 + 1 : ℕ) : ℤ) * 2 ^ E :=
      mul_le_mul_of_nonneg_right hbound (zpow_nonneg zero_le_two E)
    _ = 2 ^ (((M.log2 + 1 : ℕ) : ℤ) + E) := (zpow_add₀ two_ne_zero _ _).symm
    _ ≤ 2 ^ (((53 : ℕ) : ℤ) + T) := by
      refine zpow_le_zpow_right₀ one_le_two ?_
      push_cast
      omega

/-- The target exponent leaves as many bits, unless it is the least one. -/
theorem le_div_zpow {T : ℤ} (hM : M ≠ 0) (hT : M.log2 + E - 52 = T) (hq : M * 2 ^ E ≤ q) :
    2 ^ 52 ≤ q / 2 ^ T := by
  have hbound : (2 : ℚ) ^ (M.log2 : ℤ) ≤ M := by
    rw [zpow_natCast]
    exact_mod_cast Nat.log2_self_le hM
  rw [le_div_iff₀ (zpow_pos two_pos T), ← zpow_natCast, ← zpow_add₀ two_ne_zero]
  calc (2 : ℚ) ^ (((52 : ℕ) : ℤ) + T) = 2 ^ ((M.log2 : ℤ) + E) := by
        congr 1
        push_cast
        omega
    _ = 2 ^ (M.log2 : ℤ) * 2 ^ E := zpow_add₀ two_ne_zero _ _
    _ ≤ M * 2 ^ E := mul_le_mul_of_nonneg_right hbound (zpow_nonneg zero_le_two E)
    _ ≤ q := hq

/-- **The first shift** leaves as many bits as a double has, and keeps what is represented. -/
theorem exists_shift (hrep : Represents (.ofMantissaAndAccuracy M acc) (q / 2 ^ E))
    (hbits : 52 ≤ M.log2 ∨ E ≤ -1074) :
    ∃ em T, shiftToTargetExponent .binary64 M E acc = (em, T) ∧ Represents em (q / 2 ^ T) ∧
      -1074 ≤ T ∧ q / 2 ^ T < 2 ^ 53 ∧ (2 ^ 52 ≤ q / 2 ^ T ∨ T = -1074) := by
  let T : ℤ := max (M.log2 + E - 52) (-1074)
  have hshift : E + ((T - E).toNat : ℤ) = T := by omega
  have hpow : (2 : ℚ) ^ E * 2 ^ (T - E).toNat = 2 ^ T := by
    rw [← zpow_natCast, ← zpow_add₀ two_ne_zero, hshift]
  have hmantissa : (ExtendedMantissa.ofMantissaAndAccuracy M acc).mantissa = M := by
    rcases acc with - | - | - | - <;> rfl
  obtain ⟨hge, hlt⟩ := hrep.bounds
  rw [hmantissa, le_div_iff₀ (zpow_pos two_pos E)] at hge
  rw [hmantissa, div_lt_iff₀ (zpow_pos two_pos E)] at hlt
  refine ⟨ExtendedMantissa.ofMantissaAndAccuracy M acc >>> (T - E).toNat, T, ?_, ?_,
    le_max_right _ _, div_zpow_lt (le_max_left _ _) hlt, ?_⟩
  · unfold shiftToTargetExponent
    dsimp only
    rw [targetExponent_eq, shiftToExponent]
    exact Prod.ext rfl hshift
  · rw [← hpow, ← div_div]
    exact hrep.shiftRight _
  · refine or_iff_not_imp_right.2 fun hT ↦ le_div_zpow ?_ (by omega) hge
    -- Without bits there is only the least exponent.
    rintro rfl
    have hzero : T = max (((0 : ℕ).log2 : ℤ) + E - 52) (-1074) := rfl
    rw [Nat.log2_zero] at hbits hzero
    omega

/-- A mantissa that has not grown is left where it is. -/
theorem shiftToTargetExponent_of_lt {r : ℕ} {T : ℤ} (hr : r < 2 ^ 53) (hT : -1074 ≤ T) :
    shiftToTargetExponent .binary64 r T .exact = (⟨r, false, false⟩, T) := by
  have hlog : r.log2 ≤ 52 := by
    rcases Nat.eq_zero_or_pos r with rfl | hpos
    · decide
    · exact Nat.lt_succ_iff.1 ((Nat.log2_lt hpos.ne').2 hr)
  have htarget : (max ((r.log2 : ℤ) + T - 52) (-1074) - T).toNat = 0 := by omega
  unfold shiftToTargetExponent
  dsimp only
  rw [targetExponent_eq, shiftToExponent, htarget]
  simp [ExtendedMantissa.ofMantissaAndAccuracy, HShiftRight.hShiftRight, Nat.repeat]

/-- One that has is halved once. -/
theorem shiftToTargetExponent_carry {T : ℤ} (hT : -1074 ≤ T) :
    shiftToTargetExponent .binary64 (2 ^ 53) T .exact = (⟨2 ^ 52, false, false⟩, T + 1) := by
  have htarget : (max (((2 ^ 53).log2 : ℤ) + T - 52) (-1074) - T).toNat = 1 := by
    rw [Nat.log2_two_pow]
    omega
  unfold shiftToTargetExponent
  dsimp only
  rw [targetExponent_eq, shiftToExponent, htarget]
  rfl

/-- **Rounding gives the double that attracts the number**, as long as enough bits are given. What
is not above half of the least double is rounded to zero, and what is given back may be too large
for a double. -/
theorem roundWithAccuracy_spec (s : Sign)
    (hrep : Represents (.ofMantissaAndAccuracy M acc) (q / 2 ^ E))
    (hbits : 52 ≤ M.log2 ∨ E ≤ -1074) :
    (roundWithAccuracy .binary64 s M E acc = .zero s ∧ q ≤ 2 ^ (-1075 : ℤ)) ∨
      ∃ (m : ℕ) (e : ℤ) (hm : 0 < m), roundWithAccuracy .binary64 s M E acc = .finite s m e hm ∧
        IsCanonical m e ∧ Attracts m e q := by
  obtain ⟨em, T, hshift, hem, hT, hlt, hfull⟩ := exists_shift hrep hbits
  have hrounds := hem.roundsTo
  unfold roundWithAccuracy
  rw [hshift]
  dsimp only
  generalize em.roundedMantissa = r at *
  have hpos : (0 : ℚ) < 2 ^ T := zpow_pos two_pos T
  have hr : r ≤ 2 ^ 53 := by
    have : (r : ℚ) < 2 ^ 53 + 1 := by linarith [hrounds.ge]
    exact Nat.lt_succ_iff.1 (by exact_mod_cast this)
  have hnormal : 2 ^ 52 ≤ r ∨ T = -1074 := by
    refine hfull.imp_left fun h ↦ ?_
    have : (2 : ℚ) ^ 52 < r + 1 := by linarith [hrounds.le]
    exact Nat.lt_succ_iff.1 (by exact_mod_cast this)
  rcases hr.lt_or_eq with hr | rfl
  · rw [shiftToTargetExponent_of_lt hr hT]
    dsimp only
    by_cases hzero : r = 0
    · subst hzero
      obtain rfl := hnormal.resolve_left (by norm_num)
      refine .inl ⟨rfl, ?_⟩
      have hle := hrounds.le
      rw [div_le_iff₀ hpos] at hle
      refine hle.trans (le_of_eq ?_)
      rw [Nat.cast_zero, zero_add, one_div, ← zpow_neg_one, ← zpow_add₀ two_ne_zero]
      rfl
    · have hpos := Nat.pos_of_ne_zero hzero
      refine .inr ⟨r, T, hpos, dif_neg hzero, ⟨hpos, hr, hnormal, hT⟩, ?_⟩
      exact hrounds.attracts fun hT ↦ hfull.resolve_right hT.ne'
  · rw [shiftToTargetExponent_carry hT]
    refine .inr ⟨2 ^ 52, T + 1, by norm_num, rfl,
      ⟨by norm_num, by norm_num, .inl le_rfl, by omega⟩, ?_⟩
    exact hrounds.attracts_carry hlt

/-! ### Decimals -/

/-- The number that a decimal stands for. -/
def Decimal.value (d : Decimal) : ℚ := d.coefficient * 10 ^ d.exponent

/-- A power is a quotient of powers with natural exponents, one of which is one. -/
theorem zpow_toNat_div {b : ℚ} (hb : b ≠ 0) (k : ℤ) : b ^ k.toNat / b ^ (-k).toNat = b ^ k := by
  rw [← zpow_natCast, ← zpow_natCast, ← zpow_sub₀ hb]
  congr 1
  omega

/-- A product has at least the bits that its factor was shifted by. -/
theorem le_log2_shiftLeft_mul {c p n : ℕ} (hc : c ≠ 0) (hp : 0 < p) :
    n ≤ (c <<< n * p).log2 := by
  have hpos : c <<< n * p ≠ 0 := by
    rw [Nat.shiftLeft_eq]
    positivity
  rw [Nat.le_log2 hpos, Nat.shiftLeft_eq, mul_right_comm]
  exact Nat.le_mul_of_pos_left _ (by positivity)

/-- A decimal with a power of ten that is a factor is rounded as it is. -/
theorem ofScientific_mul_spec {c : ℕ} {k : ℤ} (hc : c ≠ 0) (hk : 0 ≤ k) :
    (roundWithAccuracy .binary64 .positive (c <<< 53 * 10 ^ k.toNat) (-53) .exact =
        .zero .positive ∧ (c : ℚ) * 10 ^ k ≤ 2 ^ (-1075 : ℤ)) ∨
      ∃ (m : ℕ) (e : ℤ) (hm : 0 < m),
        roundWithAccuracy .binary64 .positive (c <<< 53 * 10 ^ k.toNat) (-53) .exact =
          .finite .positive m e hm ∧ IsCanonical m e ∧ Attracts m e (c * 10 ^ k) := by
  have hvalue : (c : ℚ) * (10 : ℚ) ^ k / (2 : ℚ) ^ (-53 : ℤ) =
      ((c <<< 53 * 10 ^ k.toNat : ℕ) : ℚ) := by
    have hpow : (10 : ℚ) ^ k = 10 ^ k.toNat := by
      rw [← zpow_natCast, Int.toNat_of_nonneg hk]
    rw [hpow, Nat.shiftLeft_eq, zpow_neg, div_inv_eq_mul]
    push_cast
    ring
  refine roundWithAccuracy_spec .positive ?_ (.inl ?_)
  · rw [hvalue]
    exact represents_exact _
  · exact (by decide : 52 ≤ 53).trans (le_log2_shiftLeft_mul hc (by positivity))

/-- The quotient that is rounded has as many bits as a double. -/
theorem le_log2_quotient {c p n : ℕ} (hc : c ≠ 0) (hp : p ≠ 0) (hn : 53 + p.log2 ≤ c.log2 + n) :
    52 ≤ (c <<< n / p).log2 := by
  have hle : 2 ^ 52 ≤ c <<< n / p := by
    rw [Nat.le_div_iff_mul_le (Nat.pos_of_ne_zero hp), Nat.shiftLeft_eq]
    calc 2 ^ 52 * p ≤ 2 ^ 52 * 2 ^ (p.log2 + 1) := Nat.mul_le_mul_left _ Nat.lt_log2_self.le
      _ = 2 ^ (53 + p.log2) := by ring
      _ ≤ 2 ^ (c.log2 + n) := Nat.pow_le_pow_right two_pos hn
      _ = 2 ^ c.log2 * 2 ^ n := pow_add ..
      _ ≤ c * 2 ^ n := Nat.mul_le_mul_right _ (Nat.log2_self_le hc)
  exact (Nat.le_log2 (by omega)).2 hle

/-- One with a divisor has a quotient with all the bits that rounding asks for. -/
theorem divCore_spec {c : ℕ} {k : ℤ} (hc : c ≠ 0) (hk : k < 0) :
    ∃ M E acc, divCore .binary64 c 0 (10 ^ (-k).toNat) 0 = (M, E, acc) ∧
      Represents (.ofMantissaAndAccuracy M acc) (c * 10 ^ k / 2 ^ E) ∧
      (52 ≤ M.log2 ∨ E ≤ -1074) := by
  let p := 10 ^ (-k).toNat
  have hp : 0 < p := by positivity
  let E : ℤ := min 0 (max (c.log2 - p.log2 - 53) (-1074))
  refine ⟨c <<< (-E).toNat / p, E, accuracyOfFraction (c <<< (-E).toNat % p) p, ?_, ?_, ?_⟩
  · have hE : min ((0 : ℤ) - 0) (Format.binary64.targetExponent
        (totalExponent c 0 - totalExponent p 0)) = E := by
      show min ((0 : ℤ) - 0)
        (max (((c.log2 : ℤ) + 1 + 0) - ((p.log2 : ℤ) + 1 + 0) - 53) (-1074)) = E
      omega
    unfold divCore
    dsimp only
    rw [hE]
    simp only [sub_zero, zero_sub]
    rfl
  · have hE : ((-E).toNat : ℤ) = -E := Int.toNat_of_nonneg (by omega)
    have hpow : (10 : ℚ) ^ k = (10 ^ (-k).toNat)⁻¹ := by
      rw [← zpow_natCast, Int.toNat_of_nonneg (by omega), zpow_neg, inv_inv]
    have hvalue : (c : ℚ) * 10 ^ k / 2 ^ E = ((c <<< (-E).toNat : ℕ) : ℚ) / (p : ℕ) := by
      rw [Nat.shiftLeft_eq, hpow]
      push_cast
      have hp : ((p : ℕ) : ℚ) = 10 ^ (-k).toNat := Nat.cast_pow 10 _
      rw [← zpow_natCast 2, hE, zpow_neg, div_eq_mul_inv, div_eq_mul_inv, hp]
      ring
    rw [hvalue]
    exact represents_div _ hp
  · refine or_iff_not_imp_right.2 fun hE ↦ le_log2_quotient hc hp.ne' ?_
    omega

/-- **A decimal is rounded to the double that attracts its value.** -/
theorem ofScientific_spec {c : ℕ} {k : ℤ} (hc : c ≠ 0) (hlarge : ¬ k > 2 ^ 11)
    (hsmall : ¬ k < -(2 ^ 11 + (c.log2 : ℤ))) :
    (ofScientific .binary64 c k = .zero .positive ∧ (c : ℚ) * 10 ^ k ≤ 2 ^ (-1075 : ℤ)) ∨
      ∃ (m : ℕ) (e : ℤ) (hm : 0 < m), ofScientific .binary64 c k = .finite .positive m e hm ∧
        IsCanonical m e ∧ Attracts m e (c * 10 ^ k) := by
  unfold ofScientific
  rw [dif_neg hc]
  by_cases hk : 0 ≤ k
  · rw [if_neg hlarge, if_neg hsmall, if_pos hk]
    exact ofScientific_mul_spec hc hk
  · rw [if_neg hlarge, if_neg hsmall, if_neg hk]
    obtain ⟨M, E, acc, hdiv, hrep, hbits⟩ := divCore_spec hc (not_le.1 hk)
    unfold div
    dsimp only
    rw [hdiv]
    exact roundWithAccuracy_spec .positive hrep hbits

end FeatureStyle.Numeric
