import FeatureStyle.Numeric.Shortest
import FeatureStyle.Proofs.Numeric.Rounding

/-!
# The shortest decimal of a double

The interval around a double is what the double attracts (`holds_iff`), and the nearest multiple of
a power of ten that lies in it is found next to the double (`nearestMultiple?_spec`).

**The search finds the coarsest decimal that is read as the double** (`isCoarsest_shortestDecimal`):
twenty powers of ten are always enough, since the double has no more than seventeen digits, and
above the first one there is nothing to be found. **The coarsest decimal has the fewest digits**
(`IsCoarsest.length_le`), and a power of ten comes to stand among the coarsest decimals where the
double that it is read as stands among the doubles (`IsCoarsest.pow_le_iff`).
-/

namespace FeatureStyle.Numeric

open Float.Model (Format)

/-! ### Digits -/

/-- A number is less than the power of ten with as many zeros as it has digits. -/
theorem lt_pow_length (n : ℕ) : n < 10 ^ (Nat.toDigits 10 n).length :=
  (Nat.length_toDigits_le_iff (by decide) (List.length_pos_iff.2 Nat.toDigits_ne_nil)).1 le_rfl

/-- It is not less than the one with a zero less. -/
theorem pow_length_le {n : ℕ} (hn : 0 < n) : 10 ^ ((Nat.toDigits 10 n).length - 1) ≤ n := by
  rcases Nat.eq_zero_or_pos ((Nat.toDigits 10 n).length - 1) with hlength | hlength
  · rw [hlength]
    exact hn
  · rw [← not_lt, ← Nat.length_toDigits_le_iff (by decide) hlength]
    omega

/-- The place of the first digit says between which powers of ten the decimal is. -/
theorem pow_le_value_iff {d : Decimal} {k : ℤ} (hd : 0 < d.coefficient) :
    (10 : ℚ) ^ k ≤ d.value ↔ k ≤ d.exponent + (Nat.toDigits 10 d.coefficient).length - 1 := by
  have hpos : (0 : ℚ) < 10 ^ d.exponent := zpow_pos (by norm_num) _
  have hlength : 0 < (Nat.toDigits 10 d.coefficient).length :=
    List.length_pos_iff.2 Nat.toDigits_ne_nil
  constructor
  · intro hle
    have hlt : (d.coefficient : ℚ) < 10 ^ ((Nat.toDigits 10 d.coefficient).length : ℤ) := by
      rw [zpow_natCast]
      exact_mod_cast lt_pow_length d.coefficient
    have hvalue : d.value < 10 ^ ((Nat.toDigits 10 d.coefficient).length + d.exponent : ℤ) := by
      rw [zpow_add₀ (by norm_num)]
      exact mul_lt_mul_of_pos_right hlt hpos
    have := (zpow_lt_zpow_iff_right₀ (by norm_num)).1 (hle.trans_lt hvalue)
    omega
  · intro hk
    have hle :
        (10 : ℚ) ^ (((Nat.toDigits 10 d.coefficient).length - 1 : ℕ) : ℤ) ≤ d.coefficient := by
      rw [zpow_natCast]
      exact_mod_cast pow_length_le hd
    calc (10 : ℚ) ^ k
        ≤ 10 ^ ((((Nat.toDigits 10 d.coefficient).length - 1 : ℕ) : ℤ) + d.exponent) :=
          zpow_le_zpow_right₀ (by norm_num) (by omega)
      _ = 10 ^ (((Nat.toDigits 10 d.coefficient).length - 1 : ℕ) : ℤ) * 10 ^ d.exponent :=
        zpow_add₀ (by norm_num) _ _
      _ ≤ d.value := mul_le_mul_of_nonneg_right hle hpos.le

namespace RoundingInterval

variable {m : ℕ} {e : ℤ} {c : ℕ} {k : ℤ}

/-! ### The interval around a double -/

/-- The ends of an interval are fractions. -/
theorem around_denominator_pos (spec : Format) (m : ℕ) (e : ℤ) :
    0 < (around spec m e).denominator :=
  Nat.two_pow_pos _

/-- The unit of measure is a quarter of the unit in the last place. -/
theorem scale_div (e : ℤ) :
    (2 : ℚ) ^ (e - 2).toNat / 2 ^ (-(e - 2)).toNat = 2 ^ e / 4 := by
  rw [zpow_toNat_div two_ne_zero, zpow_sub₀ two_ne_zero]
  norm_num

/-- The interval is around the double. -/
theorem around_value (m : ℕ) (e : ℤ) :
    ((around .binary64 m e).value : ℚ) / (around .binary64 m e).denominator = m * 2 ^ e := by
  show ((4 * m * 2 ^ (e - 2).toNat : ℕ) : ℚ) / (2 ^ (-(e - 2)).toNat : ℕ) = _
  push_cast
  rw [mul_div_assoc, scale_div]
  ring

/-- It ends halfway to the double above. -/
theorem around_high (m : ℕ) (e : ℤ) :
    ((around .binary64 m e).high : ℚ) / (around .binary64 m e).denominator = highEnd m e := by
  show (((4 * m + 2) * 2 ^ (e - 2).toNat : ℕ) : ℚ) / (2 ^ (-(e - 2)).toNat : ℕ) = _
  push_cast
  rw [mul_div_assoc, scale_div, highEnd]
  ring

/-- It begins halfway to the one below. -/
theorem around_low (hm : 0 < m) (e : ℤ) :
    ((around .binary64 m e).low : ℚ) / (around .binary64 m e).denominator = lowEnd m e := by
  show (((4 * m - if m = 2 ^ 52 ∧ -1074 < e then 1 else 2) * 2 ^ (e - 2).toNat : ℕ) : ℚ) /
    (2 ^ (-(e - 2)).toNat : ℕ) = _
  rw [lowEnd, Nat.cast_mul, mul_div_assoc, Nat.cast_pow, Nat.cast_pow, Nat.cast_two, scale_div]
  split
  · rw [Nat.cast_sub (by omega)]
    push_cast
    ring
  · rw [Nat.cast_sub (by omega)]
    push_cast
    ring

/-! ### Grids -/

section Grid

variable {a D : ℕ}

/-- A fraction is compared with a multiple of a power of ten by whole numbers alone. -/
theorem div_le_grid_iff (hD : 0 < D) :
    (a : ℚ) / D ≤ c * 10 ^ k ↔ a * 10 ^ (-k).toNat ≤ c * 10 ^ k.toNat * D := by
  have hD : (0 : ℚ) < D := Nat.cast_pos.2 hD
  rw [← zpow_toNat_div (by norm_num), ← mul_div_assoc, div_le_div_iff₀ hD (by positivity)]
  norm_cast

/-- The same with the multiple at the left. -/
theorem grid_le_div_iff (hD : 0 < D) :
    (c : ℚ) * 10 ^ k ≤ a / D ↔ c * 10 ^ k.toNat * D ≤ a * 10 ^ (-k).toNat := by
  have hD : (0 : ℚ) < D := Nat.cast_pos.2 hD
  rw [← zpow_toNat_div (by norm_num), ← mul_div_assoc, div_le_div_iff₀ (by positivity) hD]
  norm_cast

end Grid

/-- **What lies in the interval is what the double attracts.** -/
theorem holds_iff (hm : 0 < m) :
    (around .binary64 m e).holds (10 ^ k.toNat) (10 ^ (-k).toNat) c ↔
      Attracts m e (c * 10 ^ k) := by
  have hD := around_denominator_pos .binary64 m e
  have hlow : lowEnd m e ≤ c * 10 ^ k ↔ _ := around_low hm e ▸ div_le_grid_iff hD
  have hhigh : c * 10 ^ k ≤ highEnd m e ↔ _ := around_high m e ▸ grid_le_div_iff hD
  have hlow' : lowEnd m e < c * 10 ^ k ↔ _ :=
    around_low hm e ▸ lt_iff_lt_of_le_iff_le (grid_le_div_iff hD)
  have hhigh' : c * 10 ^ k < highEnd m e ↔ _ :=
    around_high m e ▸ lt_iff_lt_of_le_iff_le (div_le_grid_iff hD)
  have hclosed : (around .binary64 m e).closed = (m % 2 == 0) := rfl
  unfold holds
  rw [hclosed]
  dsimp only
  rcases Nat.mod_two_eq_zero_or_one m with heven | hodd
  · rw [heven, if_pos (by decide), Bool.and_eq_true, decide_eq_true_eq, decide_eq_true_eq, ← hlow,
      ← hhigh]
    exact ⟨fun h ↦ ⟨h.1, h.2, by omega⟩, fun h ↦ ⟨h.ge, h.le⟩⟩
  · rw [hodd, if_neg (by decide), Bool.and_eq_true, decide_eq_true_eq, decide_eq_true_eq, ← hlow',
      ← hhigh']
    exact ⟨fun h ↦ ⟨h.1.le, h.2.le, fun _ ↦ h⟩, fun h ↦ h.odd hodd⟩

/-! ### The nearest point of a grid -/

/-- The multiple that the division gives is not above the double. -/
theorem grid_le_value (m : ℕ) (e k : ℤ) :
    ((around .binary64 m e).value * 10 ^ (-k).toNat /
      (10 ^ k.toNat * (around .binary64 m e).denominator) : ℕ) * (10 : ℚ) ^ k ≤ m * 2 ^ e := by
  rw [← around_value, grid_le_div_iff (around_denominator_pos .binary64 m e), mul_assoc]
  exact Nat.div_mul_le_self _ _

/-- The next one is. -/
theorem value_lt_grid (m : ℕ) (e k : ℤ) :
    (m : ℚ) * 2 ^ e < (((around .binary64 m e).value * 10 ^ (-k).toNat /
      (10 ^ k.toNat * (around .binary64 m e).denominator) + 1 : ℕ) : ℚ) * 10 ^ k := by
  have hD := around_denominator_pos .binary64 m e
  rw [← around_value, ← not_le, grid_le_div_iff hD, not_le, mul_assoc]
  exact (Nat.lt_mul_div_succ _ (Nat.mul_pos (by positivity) hD)).trans_eq (mul_comm _ _)

/-- The multiple of a power of ten is the nearest one that the double attracts. -/
structure IsNearestMultiple (m : ℕ) (e k : ℤ) (c : ℕ) : Prop where
  attracts : Attracts m e (c * 10 ^ k)
  nearest : ∀ n : ℕ, Attracts m e (n * 10 ^ k) →
    |(c : ℚ) * 10 ^ k - m * 2 ^ e| ≤ |(n : ℚ) * 10 ^ k - m * 2 ^ e|

variable (tie : Tie)

/-- **Only the neighbours have to be tested**: if a multiple is attracted, then so is the neighbour
on its side, which is nearer. -/
theorem neighbour {n : ℕ} (hle : c * (10 : ℚ) ^ k ≤ m * 2 ^ e)
    (hlt : m * (2 : ℚ) ^ e < (c + 1 : ℕ) * 10 ^ k) (hn : Attracts m e (n * 10 ^ k)) :
    (Attracts m e (c * 10 ^ k) ∧ m * 2 ^ e - c * (10 : ℚ) ^ k ≤ |(n : ℚ) * 10 ^ k - m * 2 ^ e|) ∨
      Attracts m e ((c + 1 : ℕ) * 10 ^ k) ∧
        (c + 1 : ℕ) * (10 : ℚ) ^ k - m * 2 ^ e ≤ |(n : ℚ) * 10 ^ k - m * 2 ^ e| := by
  have hpos : (0 : ℚ) < 10 ^ k := zpow_pos (by norm_num) k
  rcases Nat.lt_or_ge c n with hcn | hnc
  · have hcn : ((c + 1 : ℕ) : ℚ) * 10 ^ k ≤ n * 10 ^ k :=
      mul_le_mul_of_nonneg_right (Nat.cast_le.2 hcn) hpos.le
    exact .inr ⟨(attracts_self m e).mid hn hlt.le hcn, (by linarith : _ ≤ _).trans (le_abs_self _)⟩
  · have hnc : (n : ℚ) * 10 ^ k ≤ c * 10 ^ k :=
      mul_le_mul_of_nonneg_right (Nat.cast_le.2 hnc) hpos.le
    exact .inl ⟨hn.mid (attracts_self m e) hnc hle, (by linarith : _ ≤ _).trans (neg_le_abs _)⟩

/-- The neighbour below is the nearest multiple, unless the one above is attracted and nearer. -/
theorem isNearestMultiple_below (hle : c * (10 : ℚ) ^ k ≤ m * 2 ^ e)
    (hlt : m * (2 : ℚ) ^ e < (c + 1 : ℕ) * 10 ^ k) (hc : Attracts m e (c * 10 ^ k))
    (hmiddle : Attracts m e ((c + 1 : ℕ) * 10 ^ k) → 2 * (m * 2 ^ e) ≤ (2 * c + 1) * (10 : ℚ) ^ k) :
    IsNearestMultiple m e k c := by
  have habs : |(c : ℚ) * 10 ^ k - m * 2 ^ e| = m * 2 ^ e - c * 10 ^ k := by
    rw [abs_sub_comm, abs_of_nonneg (by linarith)]
  refine ⟨hc, fun n hn ↦ habs.trans_le ?_⟩
  rcases neighbour hle hlt hn with ⟨-, hnear⟩ | ⟨habove, hnear⟩
  · exact hnear
  · have hmiddle := hmiddle habove
    push_cast at hnear
    linarith

/-- The neighbour above is the nearest multiple, unless the one below is attracted and nearer. -/
theorem isNearestMultiple_above (hle : c * (10 : ℚ) ^ k ≤ m * 2 ^ e)
    (hlt : m * (2 : ℚ) ^ e < (c + 1 : ℕ) * 10 ^ k) (hc : Attracts m e ((c + 1 : ℕ) * 10 ^ k))
    (hmiddle : Attracts m e (c * 10 ^ k) → (2 * c + 1) * (10 : ℚ) ^ k ≤ 2 * (m * 2 ^ e)) :
    IsNearestMultiple m e k (c + 1) := by
  have habs : |((c + 1 : ℕ) : ℚ) * 10 ^ k - m * 2 ^ e| = (c + 1 : ℕ) * 10 ^ k - m * 2 ^ e :=
    abs_of_nonneg (by linarith)
  refine ⟨hc, fun n hn ↦ habs.trans_le ?_⟩
  rcases neighbour hle hlt hn with ⟨hbelow, hnear⟩ | ⟨-, hnear⟩
  · have hmiddle := hmiddle hbelow
    push_cast
    linarith
  · exact hnear

/-- **The nearest multiple is found if the double attracts any.** -/
theorem nearestMultiple?_spec (hm : 0 < m) :
    match (around .binary64 m e).nearestMultiple? tie k with
    | none => ∀ n : ℕ, ¬ Attracts m e (n * 10 ^ k)
    | some c => IsNearestMultiple m e k c := by
  have hle := grid_le_value m e k
  have hlt := value_lt_grid m e k
  have hD := around_denominator_pos .binary64 m e
  have hvalue := around_value m e
  have hmiddle (c : ℕ) :=
    div_le_grid_iff (c := 2 * c + 1) (k := k) (a := 2 * (around .binary64 m e).value) hD
  have hmiddle' (c : ℕ) :=
    grid_le_div_iff (c := 2 * c + 1) (k := k) (a := 2 * (around .binary64 m e).value) hD
  push_cast [mul_div_assoc, hvalue, mul_assoc] at hmiddle hmiddle'
  unfold nearestMultiple?
  dsimp only [Nat.pow_eq]
  generalize (around .binary64 m e).value * 10 ^ (-k).toNat /
    (10 ^ k.toNat * (around .binary64 m e).denominator) = c at *
  have hlow := holds_iff (e := e) (c := c) (k := k) hm
  have hhigh := holds_iff (e := e) (c := c + 1) (k := k) hm
  rcases h : (around .binary64 m e).holds (10 ^ k.toNat) (10 ^ (-k).toNat) c <;>
    rcases h' : (around .binary64 m e).holds (10 ^ k.toNat) (10 ^ (-k).toNat) (c + 1) <;>
    rw [h] at hlow <;> rw [h'] at hhigh <;> dsimp only
  · intro n hn
    rcases neighbour hle hlt hn with ⟨hc, -⟩ | ⟨hc, -⟩
    · exact absurd (hlow.2 hc) (by decide)
    · exact absurd (hhigh.2 hc) (by decide)
  · exact isNearestMultiple_above hle hlt (hhigh.1 rfl) fun hc ↦ absurd (hlow.2 hc) (by decide)
  · exact isNearestMultiple_below hle hlt (hlow.1 rfl) fun hc ↦ absurd (hhigh.2 hc) (by decide)
  · have hdown := isNearestMultiple_below hle hlt (hlow.1 rfl)
    have hup := isNearestMultiple_above hle hlt (hhigh.1 rfl)
    rcases hcompare : compare (2 * ((around .binary64 m e).value * 10 ^ (-k).toNat))
      ((2 * c + 1) * (10 ^ k.toNat * (around .binary64 m e).denominator)) with - | - | -
    · exact hdown fun _ ↦ (hmiddle c).2 (Nat.compare_eq_lt.1 hcompare).le
    · have heq := Nat.compare_eq_eq.1 hcompare
      dsimp only
      split
      · exact hdown fun _ ↦ (hmiddle c).2 heq.le
      · exact hup fun _ ↦ (hmiddle' c).2 heq.ge
    · exact hup fun _ ↦ (hmiddle' c).2 (Nat.compare_eq_gt.1 hcompare).le

/-! ### The search -/

variable {tie}

/-- What the search finds is a nearest multiple, and coarser powers of ten have none. -/
theorem search_eq_some {i : RoundingInterval} {n : ℕ} {d : Decimal}
    (h : i.search tie n k = some d) :
    i.nearestMultiple? tie d.exponent = some d.coefficient ∧
      ∀ j, d.exponent < j → j ≤ k → i.nearestMultiple? tie j = none := by
  induction n generalizing k with
  | zero => cases h
  | succ n ih =>
    rw [search] at h
    split at h
    · next hmultiple =>
      cases h
      exact ⟨hmultiple, fun j hj hjk ↦ absurd hj (not_lt.2 hjk)⟩
    · next hnone =>
      obtain ⟨hmultiple, hcoarser⟩ := ih h
      refine ⟨hmultiple, fun j hj hjk ↦ ?_⟩
      rcases hjk.lt_or_eq with hjk | rfl
      · exact hcoarser j hj (by omega)
      · exact hnone

/-- If it finds nothing, no power of ten that it has tried has any. -/
theorem search_eq_none {i : RoundingInterval} {n : ℕ} (h : i.search tie n k = none) :
    ∀ j, k - n < j → j ≤ k → i.nearestMultiple? tie j = none := by
  induction n generalizing k with
  | zero => exact fun j hj hjk ↦ absurd hj (by simpa using hjk)
  | succ n ih =>
    rw [search] at h
    split at h
    · cases h
    · next hnone =>
      intro j hj hjk
      rcases hjk.lt_or_eq with hjk | rfl
      · exact ih h j (by push_cast at hj; omega) (by omega)
      · exact hnone

/-! ### Where the search starts and ends -/

/-- The search starts above the double. -/
theorem value_lt_top (m : ℕ) (e : ℤ) :
    (m : ℚ) * 2 ^ e < 10 ^ (around .binary64 m e).topExponent := by
  have hD := around_denominator_pos .binary64 m e
  rw [← around_value, div_lt_iff₀ (Nat.cast_pos.2 hD), topExponent]
  generalize (around .binary64 m e).value = value
  generalize (around .binary64 m e).denominator = D at *
  have hlength : 0 < (Nat.toDigits 10 D).length := List.length_pos_iff.2 Nat.toDigits_ne_nil
  calc (value : ℚ) < 10 ^ (Nat.toDigits 10 value).length := by exact_mod_cast lt_pow_length value
    _ = 10 ^ (((Nat.toDigits 10 value).length : ℤ) - (Nat.toDigits 10 D).length + 1) *
        10 ^ ((Nat.toDigits 10 D).length - 1) := by
      rw [← zpow_natCast, ← zpow_natCast, ← zpow_add₀ (by norm_num)]
      congr 1
      omega
    _ ≤ _ := mul_le_mul_of_nonneg_left (by exact_mod_cast pow_length_le hD) (by positivity)

/-- It starts above by no more than two powers of ten. -/
theorem top_lt_value (hm : 0 < m) (e : ℤ) :
    (10 : ℚ) ^ ((around .binary64 m e).topExponent - 2) < m * 2 ^ e := by
  have hD := around_denominator_pos .binary64 m e
  have hvalue : 0 < (around .binary64 m e).value :=
    Nat.mul_pos (Nat.mul_pos (by decide) hm) (Nat.two_pow_pos _)
  rw [← around_value, lt_div_iff₀ (Nat.cast_pos.2 hD), topExponent]
  generalize (around .binary64 m e).value = value at *
  generalize (around .binary64 m e).denominator = D at *
  have hlength : 0 < (Nat.toDigits 10 value).length := List.length_pos_iff.2 Nat.toDigits_ne_nil
  calc _ < (10 : ℚ) ^ (((Nat.toDigits 10 value).length : ℤ) - (Nat.toDigits 10 D).length + 1 - 2) *
        10 ^ (Nat.toDigits 10 D).length :=
        mul_lt_mul_of_pos_left (by exact_mod_cast lt_pow_length D) (by positivity)
    _ = 10 ^ ((Nat.toDigits 10 value).length - 1) := by
      rw [← zpow_natCast, ← zpow_natCast, ← zpow_add₀ (by norm_num)]
      congr 1
      omega
    _ ≤ _ := by exact_mod_cast pow_length_le hvalue

/-- Above the start of the search nothing is found. -/
theorem not_attracts_of_top_lt (h : IsCanonical m e)
    (hk : (around .binary64 m e).topExponent < k) (n : ℕ) : ¬ Attracts m e (n * 10 ^ k) := by
  intro hn
  have hpos : (0 : ℚ) < 2 ^ e := zpow_pos two_pos e
  have hm : (1 : ℚ) ≤ m := by exact_mod_cast h.pos
  have hne : n ≠ 0 := by
    rintro rfl
    have := hn.pos h
    rw [Nat.cast_zero, zero_mul] at this
    exact absurd this (not_lt.2 (zpow_nonneg zero_le_two _))
  have htop := value_lt_top m e
  have hstep : (10 : ℚ) ^ (around .binary64 m e).topExponent * 10 ≤ 10 ^ k := by
    rw [← zpow_add_one₀ (by norm_num)]
    exact zpow_le_zpow_right₀ (by norm_num) hk
  have hgrid : (10 : ℚ) ^ k ≤ n * 10 ^ k :=
    le_mul_of_one_le_left (zpow_nonneg (by norm_num) k)
      (by exact_mod_cast Nat.one_le_iff_ne_zero.2 hne)
  have hhigh : highEnd m e ≤ 2 * (m * 2 ^ e) := by
    rw [highEnd, ← mul_assoc]
    exact mul_le_mul_of_nonneg_right (by linarith) hpos.le
  have hvalue : 0 ≤ (m : ℚ) * 2 ^ e := by positivity
  linarith [hn.le]

/-- A grid that is fine enough has a multiple that is attracted. -/
theorem exists_attracts (hk : (10 : ℚ) ^ k < 1 / 2 * 2 ^ e) :
    ∃ n : ℕ, Attracts m e (n * 10 ^ k) := by
  have hle := grid_le_value m e k
  have hlt := value_lt_grid m e k
  have hself := attracts_self m e
  refine ⟨_, hself.ge.trans hlt.le, ?_, fun hodd ↦ ⟨(hself.odd hodd).1.trans hlt, ?_⟩⟩ <;>
    rw [highEnd] <;> push_cast <;> linarith

/-- Twenty grids are enough. -/
theorem top_sub_lt (h : IsCanonical m e) :
    (10 : ℚ) ^ ((around .binary64 m e).topExponent - 19) < 1 / 2 * 2 ^ e := by
  have hpos : (0 : ℚ) < 2 ^ e := zpow_pos two_pos e
  have hm : (m : ℚ) < 2 ^ 53 := by exact_mod_cast h.lt
  have htop := top_lt_value h.pos e
  have hstep : (10 : ℚ) ^ ((around .binary64 m e).topExponent - 2) =
      10 ^ ((around .binary64 m e).topExponent - 19) * 10 ^ 17 := by
    rw [← zpow_natCast, ← zpow_add₀ (by norm_num)]
    congr 1
    push_cast
    omega
  rw [hstep] at htop
  have hvalue : (m : ℚ) * 2 ^ e < 2 ^ 53 * 2 ^ e := mul_lt_mul_of_pos_right hm hpos
  linarith

end RoundingInterval

/-! ### The shortest decimal -/

open RoundingInterval

variable {m : ℕ} {e : ℤ}

/-- No multiple of a larger power of ten is read as the double, and no multiple of the same power of
ten that is read as the double is nearer to it. -/
structure IsCoarsest (m : ℕ) (e : ℤ) (d : Decimal) : Prop where
  multiple : IsNearestMultiple m e d.exponent d.coefficient
  coarser : ∀ (k : ℤ) (n : ℕ), d.exponent < k → ¬ Attracts m e (n * 10 ^ k)

/-- **The search finds the coarsest decimal that is read as the double.** -/
theorem isCoarsest_shortestDecimal (tie : Tie) (h : IsCanonical m e) :
    IsCoarsest m e (shortestDecimal .binary64 tie m e) := by
  have hnone {j : ℤ} (hj : (around .binary64 m e).nearestMultiple? tie j = none) (n : ℕ) :
      ¬ Attracts m e (n * 10 ^ j) := by
    have hspec := nearestMultiple?_spec (k := j) (e := e) tie h.pos
    rw [hj] at hspec
    exact hspec n
  unfold shortestDecimal
  dsimp only
  rcases hsearch : (around .binary64 m e).search tie 20 (around .binary64 m e).topExponent with
    - | d
  · obtain ⟨n, hn⟩ := exists_attracts (top_sub_lt h)
    exact absurd hn (hnone (search_eq_none hsearch _ (by push_cast; omega) (by omega)) n)
  · obtain ⟨hmultiple, hcoarser⟩ := search_eq_some hsearch
    have hspec := nearestMultiple?_spec (k := d.exponent) (e := e) tie h.pos
    rw [hmultiple] at hspec
    refine ⟨hspec, fun k n hk ↦ ?_⟩
    rcases le_or_gt k (around .binary64 m e).topExponent with htop | htop
    · exact hnone (hcoarser k hk htop) n
    · exact not_attracts_of_top_lt h htop n

/-- **It has the fewest digits** of the decimals that are read as the double. -/
theorem IsCoarsest.length_le {d d' : Decimal} (h : IsCoarsest m e d)
    (hd' : Attracts m e d'.value) :
    (Nat.toDigits 10 d.coefficient).length ≤ (Nat.toDigits 10 d'.coefficient).length := by
  by_contra hlt
  rw [not_le] at hlt
  have hlength : 0 < (Nat.toDigits 10 d'.coefficient).length :=
    List.length_pos_iff.2 Nat.toDigits_ne_nil
  have hpos : 0 < d.coefficient := by
    refine Nat.pos_of_ne_zero fun hzero ↦ ?_
    rw [hzero, Nat.toDigits_zero, List.length_singleton] at hlt
    omega
  have hexponent : d'.exponent ≤ d.exponent :=
    not_lt.1 fun hk ↦ h.coarser d'.exponent d'.coefficient hk hd'
  -- A power of ten with more digits than `d'` and no more than `d` lies between the two.
  let power : ℤ := (((Nat.toDigits 10 d.coefficient).length - 1 : ℕ) : ℤ) + d.exponent
  have hbelow : d'.value ≤ 10 ^ power := by
    rcases Nat.eq_zero_or_pos d'.coefficient with hzero | hpos'
    · rw [Decimal.value, hzero, Nat.cast_zero, zero_mul]
      exact zpow_nonneg (by norm_num) power
    · exact (not_le.1 fun hle ↦ absurd ((pow_le_value_iff hpos').1 hle) (by omega)).le
  have habove : 10 ^ power ≤ d.value := (pow_le_value_iff hpos).2 (by omega)
  have hpower : Attracts m e ((1 : ℕ) * 10 ^ power) := by
    rw [Nat.cast_one, one_mul]
    exact hd'.mid h.multiple.attracts hbelow habove
  exact h.coarser power 1 (by omega) hpower

/-! ### Powers of ten -/

variable {m' : ℕ} {e' k : ℤ} {d : Decimal}

/-- A canonical double does not attract zero. -/
theorem coefficient_pos (h : IsCanonical m e) (hd : Attracts m e d.value) : 0 < d.coefficient := by
  refine Nat.pos_of_ne_zero fun hzero ↦ ?_
  have hpos := hd.pos h
  rw [Decimal.value, hzero, Nat.cast_zero, zero_mul] at hpos
  exact absurd hpos (not_lt.2 (zpow_nonneg zero_le_two _))

/-- **The coarsest decimals are ordered as the doubles are**, with the powers of ten among them. -/
theorem IsCoarsest.pow_le_iff (h : IsCanonical m e) (h' : IsCanonical m' e')
    (hd : IsCoarsest m e d) (hpow : Attracts m' e' (10 ^ k)) :
    10 ^ k ≤ d.value ↔ ¬ (e < e' ∨ e = e' ∧ m < m') := by
  constructor
  · intro hle hlt
    exact absurd (hd.multiple.attracts.lt_of_lt h h' hlt hpow) (not_lt.2 hle)
  · intro hlt
    by_cases heq : m' = m ∧ e' = e
    · -- A double that is read from a power of ten has no decimal of a smaller exponent.
      obtain ⟨rfl, rfl⟩ := heq
      have hk : k ≤ d.exponent := by
        refine not_lt.1 fun hk ↦ hd.coarser k 1 hk ?_
        rw [Nat.cast_one, one_mul]
        exact hpow
      have hlength : 0 < (Nat.toDigits 10 d.coefficient).length :=
        List.length_pos_iff.2 Nat.toDigits_ne_nil
      exact (pow_le_value_iff (coefficient_pos h hd.multiple.attracts)).2 (by omega)
    · exact (hpow.lt_of_lt h' h (by omega) hd.multiple.attracts).le

end FeatureStyle.Numeric
