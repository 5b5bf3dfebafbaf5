import FeatureStyle.Proofs.Numeric.Exact
import FeatureStyle.Proofs.Numeric.Shortest

/-!
# The constant one

The opaque alpha channel is recognised by its text. **Only the number one has the constant `1.0`**
(`eq_one_of_constantText`).

A constant is written in one of two ways. A whole number is spelled out, and the only positive
double of magnitude one is the number one, since doubles have canonical mantissas
(`eq_one_of_magnitude`). Any other number is written with the fewest digits that read back, and
these are never `10` (`numberText_ne_one`).
-/

namespace FeatureStyle.Numeric

open Float.Model (Format UnpackedFloat)
open Float.Model.UnpackedFloat

/-! ### Doubles -/

theorem unpack_one : (1 : Float).toModel.unpack = .finite .positive (2 ^ 52) (-52) (by decide) := by
  rfl

/-- **The only positive whole number of magnitude one is one.** -/
theorem eq_one_of_magnitude {x : Float} (hwhole : isWhole x.toModel.unpack)
    (hone : magnitude x.toModel.unpack = 1) (hpos : isNegative x.toModel.unpack = false) :
    x = 1 := by
  refine eq_of_unpack_eq (unpack_one ▸ ?_)
  rcases h : x.toModel.unpack with s | - | s | ⟨s, m, e, hm⟩
  · rw [h] at hone
    cases hone
  · rw [h] at hone
    cases hone
  · rw [h] at hone
    cases hone
  rw [h] at hwhole hone hpos
  obtain ⟨⟨-, hlt, hcanonical, -⟩, -⟩ := isDouble_of_unpack h
  by_cases he : 0 ≤ e
  · have hmul : m * 2 ^ e.toNat = 1 := by simpa [magnitude, he] using hone
    obtain rfl := Nat.eq_one_of_mul_eq_one_right hmul
    omega
  · -- The mantissa is a power of two, and there is only one of as many bits.
    have hdiv : m / 2 ^ (-e).toNat = 1 := by simpa [magnitude, he] using hone
    have hmod : m % 2 ^ (-e).toNat = 0 := by simpa [isWhole, he] using hwhole
    have hpow : m = 2 ^ (-e).toNat := by
      have := Nat.div_add_mod m (2 ^ (-e).toNat)
      rw [hdiv, hmod] at this
      omega
    have hbits : (-e).toNat < 53 := (Nat.pow_lt_pow_iff_right (by decide)).1 (hpow ▸ hlt)
    have hexponent : 52 ≤ (-e).toNat := by
      rcases hcanonical with hle | he
      · exact (Nat.pow_le_pow_iff_right (by decide)).1 (hpow ▸ hle)
      · omega
    obtain rfl : e = -52 := by omega
    cases s with
    | negative => cases hpos
    | positive =>
      subst hpow
      rfl

theorem narrow_one : narrow 1 = 1 := by decide +kernel

/-- Of single-precision numbers, only one is equal to one. -/
theorem eq_one_of_beq {x : Float32} (h : (x == 1) = true) : x = 1 := by
  obtain ⟨-, -, hone | ⟨-, hzero⟩ | ⟨-, hzero⟩⟩ := Float32.beq_iff_ne_nan_and_eq.1 h
  · exact hone
  · exact absurd hzero (by decide)
  · exact absurd hzero (by decide)

/-! ### Digits -/

theorem toDigits_inj {m n : ℕ} (h : Nat.toDigits 10 m = Nat.toDigits 10 n) : m = n := by
  have := congrArg (Nat.ofDigitChars 10 · 0) h
  simpa only [Nat.ofDigitChars_ten_toDigits] using this

theorem eq_one_of_wholeText {negative : Bool} {n : ℕ} (h : wholeText negative n = "1.0") :
    negative = false ∧ n = 1 := by
  have hlist : (if negative then ['-'] else []) ++ Nat.toDigits 10 n ++ ['.', '0'] =
      ['1'] ++ ['.', '0'] := by
    rw [wholeText, ← String.toList_inj, String.toList_append, String.toList_append,
      String.toList_ofList] at h
    cases negative <;> exact h
  have hlist := List.append_cancel_right hlist
  cases negative with
  | true => simp at hlist
  | false => exact ⟨rfl, toDigits_inj hlist⟩

/-- Digits are laid out as `1.0` only if they are `10`, the first of which stands for one. -/
theorem eq_of_layout {digits : List Char} {e : ℤ} (hne : digits ≠ [])
    (hdigits : ∀ c ∈ digits, c.isDigit)
    (h : NumeralStyle.language.layout digits e = ['1', '.', '0']) :
    digits = ['1', '0'] ∧ e = 0 := by
  have hpoint : '.' ∉ digits := fun hc ↦ absurd (hdigits '.' hc) (by decide)
  rw [NumeralStyle.layout] at h
  split at h
  · split at h
    · simp at h
    · next he =>
      dsimp only at h
      split at h
      · -- Digits that all stand before the point leave no point behind.
        have hmem : '.' ∈ digits ++ List.replicate (e.toNat + 1 - digits.length) '0' := by
          rw [show digits ++ List.replicate (e.toNat + 1 - digits.length) '0' = ['1', '.', '0'] by
            simpa [NumeralStyle.language] using h]
          decide
        rcases List.mem_append.1 hmem with hmem | hmem
        · exact absurd hmem hpoint
        · exact absurd (List.eq_of_mem_replicate hmem) (by decide)
      · next hlength =>
        obtain ⟨first, rest, rfl⟩ := List.exists_cons_of_ne_nil hne
        rw [List.take_succ_cons, List.drop_succ_cons, List.cons_append] at h
        obtain ⟨rfl, hrest⟩ := List.cons.inj h
        rcases hplace : e.toNat with - | place
        · rw [hplace] at hrest
          obtain rfl : rest = ['0'] := by simpa using hrest
          exact ⟨rfl, by omega⟩
        · -- A second digit before the point would be the point.
          rw [hplace] at hrest hlength
          rcases rest with - | ⟨second, rest⟩
          · simp at hlength
          · obtain ⟨rfl, -⟩ := List.cons.inj hrest
            exact absurd (List.mem_cons_of_mem _ List.mem_cons_self) hpoint
  · -- A power of ten is written with its letter.
    have hmem : 'e' ∈ (['1', '.', '0'] : List Char) := by
      rw [← h]
      simp
    exact absurd hmem (by decide)

theorem eq_of_write {d : Decimal} (h : NumeralStyle.language.write d = ['1', '.', '0']) :
    d = ⟨10, -1⟩ := by
  obtain ⟨hdigits, he⟩ := eq_of_layout Nat.toDigits_ne_nil
    (fun c ↦ Nat.isDigit_of_mem_toDigits (by decide) (by decide)) h
  have hten : d.coefficient = 10 := toDigits_inj hdigits
  obtain ⟨coefficient, exponent⟩ := d
  obtain rfl : coefficient = 10 := hten
  have hlength : (Nat.toDigits 10 10).length = 2 := by decide
  rw [hlength] at he
  congr 1
  dsimp only at he
  omega

/-! ### Digits that read back -/

/-- No double is written as `1.0`: of the digits `10` the second one could be left out. -/
theorem numberText_ne_one (x : Float) : numberText x ≠ "1.0" := by
  intro h
  unfold numberText at h
  rcases hx : x.toModel.unpack with s | - | s | ⟨s, m, e, hm⟩
  · rw [hx] at h
    cases s <;> exact absurd h (by decide)
  · rw [hx] at h
    exact absurd h (by decide)
  · rw [hx] at h
    have hzero : "0" = "1.0" := h
    exact absurd hzero (by decide)
  · rw [hx] at h
    have htext : signText s ++ String.ofList
      (NumeralStyle.language.write (shortestDecimal .binary64 .up m e)) = "1.0" := h
    rw [← String.toList_inj, String.toList_append, String.toList_ofList] at htext
    cases s with
    | negative => exact absurd (List.cons.inj htext).1 (by decide)
    | positive =>
      have hcoarsest := isCoarsest_shortestDecimal .up (isDouble_of_unpack hx).toIsCanonical
      rw [eq_of_write htext] at hcoarsest
      have hten := hcoarsest.multiple.attracts
      have hone : ((10 : ℕ) : ℚ) * 10 ^ (-1 : ℤ) = (1 : ℕ) * 10 ^ (0 : ℤ) := by norm_num
      rw [hone] at hten
      exact hcoarsest.coarser 0 1 (by decide) hten

/-- **Only the number one has the constant `1.0`.** -/
theorem eq_one_of_constantText {x : Float} (h : constantText x = "1.0") : x = 1 := by
  unfold constantText at h
  dsimp only at h
  split at h
  · next hwhole =>
    obtain ⟨hpos, hone⟩ := eq_one_of_wholeText h
    exact eq_one_of_magnitude (Bool.and_eq_true_iff.1 hwhole).1 hone hpos
  · exact absurd h (numberText_ne_one x)

end FeatureStyle.Numeric
