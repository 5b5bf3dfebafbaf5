import FeatureStyle.Eval.Operations
import FeatureStyle.Proofs.Numeric.Acceptance
import FeatureStyle.Proofs.Numeric.One
import FeatureStyle.Proofs.Numeric.RoundTrip

/-!
# Indices

A number is an index if it is exactly a natural number (`exactNat?_eq_some_iff`), and a text is one
if it is the decimal digits of one (`indexOfText?_eq_some_iff`). Below `2 ^ 53` every natural number
is a double (`exactNat?_ofNat`), and its shortest decimal is the number itself: a decimal whose last
place stands for one or more is a whole number, and no other one is attracted by the double
(`eq_of_attracts_natCast`). So it is written with its digits (`numberText_of_exactNat?`), and **the
text of a number is the same index as the number** (`indexOfText?_numberText_iff`).
-/

namespace FeatureStyle.Numeric

open Float.Model.UnpackedFloat (Sign)

variable {x : Float} {m n : ℕ} {e : ℤ}

/-! ### Natural numbers as doubles -/

theorem eq_positive_of_beq {s : Sign} (h : (s == .negative) = false) : s = .positive := by
  cases s with
  | positive => rfl
  | negative => cases h

theorem exactNat?_eq_some_iff_wholeValue? :
    exactNat? x = some n ↔ wholeValue? x = some (n : ℤ) := by
  rw [exactNat?, wholeValue?]
  by_cases hwhole : isWhole x.toModel.unpack
  · rw [if_pos hwhole, hwhole, Bool.true_and, Option.some.injEq]
    cases isNegative x.toModel.unpack with
    | false => simp
    | true =>
      -- Of the numbers with a minus sign only zero is natural.
      simp
      omega
  · rw [if_neg hwhole, eq_false_of_ne_true hwhole, Bool.false_and]
    simp

/-- **An index is exactly a natural number.** -/
theorem exactNat?_eq_some_iff : exactNat? x = some n ↔ exactValue? x = some (n : ℚ) := by
  rw [exactNat?_eq_some_iff_wholeValue?, wholeValue?_eq_some_iff, Int.cast_natCast]

theorem exactValue?_of_finite {s : Sign} {hm : 0 < m} (hx : x.toModel.unpack = .finite s m e hm) :
    exactValue? x = some (dyadic s m e) := by
  rw [exactValue?, hx]

/-- Small natural numbers have the form of doubles. -/
theorem exists_isCanonical (hpos : 0 < n) (hn : n < 2 ^ 53) :
    ∃ m e, IsCanonical m e ∧ e ≤ 0 ∧ (m : ℚ) * 2 ^ e = n := by
  have hlog : n.log2 < 53 := (Nat.log2_lt hpos.ne').2 hn
  -- The mantissa is shifted until it has all of its bits.
  obtain ⟨k, hk⟩ : ∃ k, n.log2 + k = 52 := ⟨52 - n.log2, by omega⟩
  have hlow : 2 ^ 52 ≤ n * 2 ^ k := by
    rw [← hk, pow_add]
    exact Nat.mul_le_mul_right _ (Nat.log2_self_le hpos.ne')
  have hhigh : n * 2 ^ k < 2 ^ 53 := by
    have hsucc : n.log2 + 1 + k = 53 := by omega
    rw [← hsucc, pow_add]
    exact Nat.mul_lt_mul_of_pos_right Nat.lt_log2_self (by positivity)
  refine ⟨n * 2 ^ k, -k, ⟨by positivity, hhigh, .inl hlow, by omega⟩, by omega, ?_⟩
  rw [zpow_neg, zpow_natCast]
  push_cast
  field_simp

/-- **A small natural number is only attracted by itself.** -/
theorem eq_of_attracts_natCast (h : IsCanonical m e) (hn : n < 2 ^ 53)
    (hattracts : Attracts m e n) : e ≤ 0 ∧ (m : ℚ) * 2 ^ e = n := by
  have hpos : 0 < n := by exact_mod_cast (zpow_pos two_pos _).trans (hattracts.pos h)
  obtain ⟨m', e', hcanonical, he, hvalue⟩ := exists_isCanonical hpos hn
  have hself := attracts_self m' e'
  rw [hvalue] at hself
  obtain ⟨rfl, rfl⟩ := hattracts.unique h hcanonical hself
  exact ⟨he, hvalue⟩

/-- **Small natural numbers are doubles.** -/
theorem exactNat?_ofNat (hn : n < 2 ^ 53) : exactNat? (.ofNat n) = some n := by
  rcases Nat.eq_zero_or_pos n with rfl | hpos
  · decide +kernel
  · obtain ⟨m, e, hcanonical, he, hvalue⟩ := exists_isCanonical hpos hn
    have hdouble : IsDouble m e := ⟨hcanonical, he.trans (by decide)⟩
    obtain ⟨x, hx⟩ : ∃ x : Float, x.toModel.unpack = .finite .positive m e hdouble.pos :=
      ⟨.ofModel (.pack (.finite .positive m e hdouble.pos)), unpack_pack_finite hdouble⟩
    have hnearest : IsNearest n x := .finite hx (hvalue ▸ attracts_self m e)
    rw [exactNat?_eq_some_iff, (isNearest_ofNat n).unique hnearest, exactValue?_of_finite hx,
      ← hvalue]
    rfl

/-! ### Natural numbers as texts -/

theorem radixValue?_toDigits (n : ℕ) : radixValue? 10 (Nat.toDigits 10 n) = some n := by
  have hdigit : ∀ d < 10, digitValue? (Nat.digitChar d) = some d := by decide
  induction n using Nat.strong_induction_on with
  | _ n ih =>
    rw [Nat.toDigits_eq_if (by decide)]
    split
    · next hlt =>
      show radixValue? 10 ([] ++ [n.digitChar]) = some n
      rw [radixValue?_append_singleton, hdigit n hlt]
      exact (if_pos hlt).trans (congrArg some (Nat.zero_add n))
    · next hge =>
      have hmod : n % 10 < 10 := Nat.mod_lt n (by decide)
      rw [radixValue?_append_singleton, ih (n / 10) (by omega), hdigit _ hmod, Option.bind_some,
        Option.bind_some, if_pos hmod, Nat.div_add_mod]

/-- **A text is an index if it is the digits of one.** -/
theorem indexOfText?_eq_some_iff {s : String} :
    Value.indexOfText? s = some n ↔ s.toList = Nat.toDigits 10 n ∧ n < wordBound := by
  rw [Value.indexOfText?]
  constructor
  · intro h
    split at h
    · next n' hread =>
      split at h
      · next hdigits =>
        obtain rfl := Option.some.inj h
        exact ⟨hdigits.symm, ((readWhole?_eq_some_iff (by decide)).1 hread).1⟩
      · cases h
    · cases h
  · rintro ⟨hdigits, hn⟩
    have hspells : Spells 10 (Nat.toDigits 10 n) n :=
      (spells_iff (by decide)).2 ⟨Nat.toDigits_ne_nil, radixValue?_toDigits n⟩
    have hread : readWhole? 10 wordBound (Nat.toDigits 10 n) = some n :=
      (readWhole?_eq_some_iff (by decide)).2 ⟨hn, [], by decide, _, rfl, hspells⟩
    rw [hdigits, hread]
    exact if_pos rfl

theorem toDigits_mul_pow {c : ℕ} (hc : 0 < c) (k : ℕ) :
    Nat.toDigits 10 (c * 10 ^ k) = Nat.toDigits 10 c ++ List.replicate k '0' := by
  induction k with
  | zero => simp
  | succ k ih =>
    have hpos : 0 < c * 10 ^ k := by positivity
    have happend := Nat.toDigits_append_toDigits (b := 10) (d := 0) (by decide) hpos (by decide)
    rw [pow_succ', mul_left_comm, ← Nat.add_zero (10 * _), ← happend, ih, List.append_assoc,
      List.replicate_succ']
    rfl

/-- Where the digits end before the point, zeros stand behind them. -/
theorem layout_language {digits : List Char} {k l : ℕ} (hlength : digits.length = l + 1)
    (hplace : k + l ≤ 20) :
    NumeralStyle.language.layout digits (k + l : ℕ) = digits ++ List.replicate k '0' := by
  have hpositional : NumeralStyle.language.isPositional (k + l : ℕ) := by
    simp only [NumeralStyle.language, Bool.and_eq_true, decide_eq_true_eq]
    omega
  have hzeros : k + l + 1 - (l + 1) = k := by omega
  rw [NumeralStyle.layout, if_pos hpositional, if_neg (Int.not_lt.2 (Int.natCast_nonneg _)),
    Int.toNat_natCast, if_pos (by omega), hlength, hzeros]
  exact List.append_nil _

/-- A whole number that is not too large is written with its digits. -/
theorem write_language {c : ℕ} (hc : 0 < c) (k : ℕ) (h : c * 10 ^ k < 10 ^ 21) :
    NumeralStyle.language.write ⟨c, k⟩ = Nat.toDigits 10 (c * 10 ^ k) := by
  obtain ⟨l, hl⟩ : ∃ l, (Nat.toDigits 10 c).length = l + 1 :=
    ⟨_, (Nat.sub_add_cancel (List.length_pos_iff.2 Nat.toDigits_ne_nil)).symm⟩
  have hplace := (Nat.length_toDigits_le_iff (by decide) (by decide)).2 h
  rw [toDigits_mul_pow hc, List.length_append, List.length_replicate, hl] at hplace
  have he : (k : ℤ) + (Nat.toDigits 10 c).length - 1 = (k + l : ℕ) := by omega
  rw [NumeralStyle.write, toDigits_mul_pow hc, he]
  exact layout_language hl (by omega)

/-- The shortest decimal of a small natural number is the number, written as a whole number. -/
theorem shortestDecimal_of_eq (h : IsCanonical m e) (hvalue : (m : ℚ) * 2 ^ e = n)
    (hn : n < 2 ^ 53) :
    ∃ c k : ℕ, 0 < c ∧ shortestDecimal .binary64 .up m e = ⟨c, k⟩ ∧ c * 10 ^ k = n := by
  have hcoarsest := isCoarsest_shortestDecimal .up h
  generalize shortestDecimal .binary64 .up m e = d at hcoarsest
  obtain ⟨c, k⟩ := d
  have hattracts := hcoarsest.multiple.attracts
  have hpos := coefficient_pos h hattracts
  dsimp only at hattracts hpos
  -- The number itself is a multiple of one.
  have hk : 0 ≤ k := by
    refine not_lt.1 fun hk ↦ hcoarsest.coarser 0 n hk ?_
    rw [zpow_zero, mul_one, ← hvalue]
    exact attracts_self m e
  obtain ⟨k, rfl⟩ := Int.eq_ofNat_of_zero_le hk
  refine ⟨c, k, hpos, rfl, ?_⟩
  have he : e ≤ 0 := (eq_of_attracts_natCast h hn (hvalue ▸ attracts_self m e)).1
  have hnat : Attracts m e (c * 10 ^ k : ℕ) := by
    rw [zpow_natCast] at hattracts
    exact_mod_cast hattracts
  have hlt : c * 10 ^ k < 2 ^ 53 := by exact_mod_cast hnat.lt_of_le h he
  have heq := (eq_of_attracts_natCast h hlt hnat).2
  rw [hvalue] at heq
  exact_mod_cast heq.symm

/-- **A small natural number is written with its digits.** -/
theorem numberText_of_exactNat? (h : exactNat? x = some n) (hn : n < 2 ^ 53) :
    (numberText x).toList = Nat.toDigits 10 n := by
  have hvalue := exactNat?_eq_some_iff.1 h
  rw [exactValue?] at hvalue
  rcases hx : x.toModel.unpack with s | - | s | ⟨s, m, e, hm⟩
  · rw [hx] at hvalue
    cases hvalue
  · rw [hx] at hvalue
    cases hvalue
  · rw [hx] at hvalue
    have hzero : n = 0 := by exact_mod_cast (Option.some.inj hvalue).symm
    have htext : numberText x = "0" := by rw [numberText, hx]
    rw [htext, hzero]
    decide
  · rw [hx] at hvalue
    have hdyadic := Option.some.inj hvalue
    have hsign := decide_dyadic_neg s hm e
    rw [hdyadic, decide_eq_false (not_lt.2 (Nat.cast_nonneg n))] at hsign
    obtain rfl := eq_positive_of_beq hsign.symm
    obtain ⟨c, k, hc, hd, hck⟩ :=
      shortestDecimal_of_eq (isDouble_of_unpack hx).toIsCanonical hdyadic hn
    rw [numberText_of_finite hx, hd, write_language hc k (by omega), hck]
    rfl

/-- Only zeros are not read back, and these are one index. -/
theorem exactNat?_readNumber (x : Float) : exactNat? (readNumber (numberText x)) = exactNat? x := by
  rw [readNumber_numberText, beq_zero_eq]
  split
  · next hzero =>
    rw [exactNat?, exactNat?]
    rcases hx : x.toModel.unpack with s | - | s | ⟨s, m, e, hm⟩
    · rw [hx] at hzero
      cases s <;> cases hzero
    · rw [hx] at hzero
      cases hzero
    · cases s <;> rfl
    · rw [hx] at hzero
      cases s <;> cases hzero
  · rfl

/-- **The text of a number is the same index as the number.** -/
theorem indexOfText?_numberText_iff (hn : n < 2 ^ 53) :
    Value.indexOfText? (numberText x) = some n ↔ exactNat? x = some n := by
  have hword : n < wordBound := hn.trans (by decide)
  rw [indexOfText?_eq_some_iff, and_iff_left hword]
  refine ⟨fun h ↦ ?_, fun h ↦ numberText_of_exactNat? h hn⟩
  -- The number that is equal to the index has the same text, and so the same index.
  have hofNat := exactNat?_ofNat hn
  have htext : numberText x = numberText (.ofNat n) :=
    String.toList_inj.1 (h.trans (numberText_of_exactNat? hofNat hn).symm)
  rw [← exactNat?_readNumber x, htext, exactNat?_readNumber, hofNat]

/-- No number is written with other letters than those of a power of ten or of the two words. -/
theorem numberText_ne_length (x : Float) : numberText x ≠ "length" := by
  intro h
  have hmem : 'l' ∈ (numberText x).toList := h ▸ by decide
  rcases hx : x.toModel.unpack with s | - | s | ⟨s, m, e, hm⟩
  · have htext : numberText x = signText s ++ "Infinity" := by rw [numberText, hx]
    rw [htext] at hmem
    cases s <;> exact absurd hmem (by decide)
  · have htext : numberText x = "NaN" := by rw [numberText, hx]
    rw [htext] at hmem
    exact absurd hmem (by decide)
  · have htext : numberText x = "0" := by rw [numberText, hx]
    rw [htext] at hmem
    exact absurd hmem (by decide)
  · obtain ⟨text, htext, -⟩ := writes_write .language (shortestDecimal .binary64 .up m e)
    rw [numberText_of_finite hx, htext] at hmem
    exact absurd (isNumeralChar_of_mem_sign_append 'l' hmem) (by decide)

end FeatureStyle.Numeric
