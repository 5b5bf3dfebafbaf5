import FeatureStyle.Proofs.Expr.Spelling
import FeatureStyle.Proofs.Numeric.Index
import FeatureStyle.Shader.Emit

/-!
# Numbers as constants of shaders

`Glsl.FloatConstant` is the grammar of floating-point constants in the language of shaders, with the
number that each of them denotes. Digits alone are not among them: they are an integer there, for
which a shader has no conversion.

Natural numbers below `10 ^ 21` are written with all of their digits and a point. Any other finite
number is written with its shortest decimal, which has a point or a power of ten in its text
(`exists_numeral_of_forall_ne`): without both it would be a natural number below `10 ^ 21`, and
then the double would be such a number itself (`IsCoarsest.exists_eq_natCast`). So **a number of a
source is written as a constant for it exactly if it is finite** (`emitsConstant_iff`). NaN and
infinity are written as words, although what has no shader form is reported elsewhere.
-/

namespace FeatureStyle

open Numeric

namespace Glsl

/-! ### Floating-point constants -/

/-- A letter, perhaps a sign, and digits: a power of ten. -/
inductive IsExponent : List Char → ℤ → Prop
  | intro {letter : Char} {sign digits : List Char} (hletter : letter ∈ ['e', 'E'])
      (hsign : sign ∈ signs) (hne : digits ≠ []) (hdigits : ∀ c ∈ digits, c.isDigit) :
      IsExponent (letter :: (sign ++ digits))
        (if sign = ['-'] then -(digitsValue digits : ℤ) else digitsValue digits)

/-- The text is a floating-point constant and denotes the number: digits with a point before, among
or behind them and perhaps a power of ten, or digits and a power of ten. -/
inductive FloatConstant : List Char → ℚ → Prop
  | point {whole fraction power : List Char} {k : ℤ} (hwhole : ∀ c ∈ whole, c.isDigit)
      (hfraction : ∀ c ∈ fraction, c.isDigit) (hne : whole ++ fraction ≠ [])
      (hpower : power = [] ∧ k = 0 ∨ IsExponent power k) :
      FloatConstant (whole ++ '.' :: (fraction ++ power))
        (digitsValue (whole ++ fraction) * 10 ^ (k - fraction.length))
  | power {whole power : List Char} {k : ℤ} (hwhole : ∀ c ∈ whole, c.isDigit) (hne : whole ≠ [])
      (hpower : IsExponent power k) :
      FloatConstant (whole ++ power) (digitsValue whole * 10 ^ k)

/-- The text is a constant, and the double is the nearest one to the number that it denotes. -/
def Denotes (text : String) (x : Float) : Prop :=
  ∃ q, FloatConstant text.toList q ∧ IsNearest q x

variable {text : List Char} {q : ℚ}

/-- A constant begins with a digit or a point. -/
theorem FloatConstant.head (h : FloatConstant text q) : ∀ c ∈ text.head?, c.isDigit ∨ c = '.' := by
  intro c hc
  cases h with
  | @point whole fraction power k hwhole =>
    cases whole with
    | nil => exact .inr (Option.some.inj hc).symm
    | cons d ds => exact .inl (hwhole c (Option.some.inj hc ▸ List.mem_cons_self))
  | @power whole power k hwhole hne =>
    obtain ⟨d, ds, rfl⟩ := List.exists_cons_of_ne_nil hne
    exact .inl (hwhole c (Option.some.inj hc ▸ List.mem_cons_self))

theorem isExponent_powerText (k : ℤ) : IsExponent (powerText k) k := by
  have hpower {sign : List Char} (hsign : sign ∈ signs) :
      IsExponent ('e' :: (sign ++ Nat.toDigits 10 k.natAbs))
        (if sign = ['-'] then -(k.natAbs : ℤ) else k.natAbs) := by
    have hexponent := IsExponent.intro (List.mem_cons_self : 'e' ∈ ['e', 'E']) hsign
      Nat.toDigits_ne_nil (isDigit_of_mem_toDigits (n := k.natAbs))
    rwa [digitsValue_toDigits] at hexponent
  rw [powerText]
  split
  · have hminus : ['-'] ∈ signs := by decide
    have hk := hpower hminus
    rw [if_pos rfl, (by omega : -(k.natAbs : ℤ) = k)] at hk
    exact hk
  · have hplus : ['+'] ∈ signs := by decide
    have hk := hpower hplus
    rw [if_neg (by decide), (by omega : (k.natAbs : ℤ) = k)] at hk
    exact hk

/-- A numeral with a point or a power of ten is a constant. -/
theorem floatConstant_text (n : Numeral) (h : n.fraction ≠ [] ∨ n.power.isSome) :
    FloatConstant n.text n.decimal.value := by
  have hpower : n.power.elim [] powerText = [] ∧ n.power.getD 0 = 0 ∨
      IsExponent (n.power.elim [] powerText) (n.power.getD 0) := by
    cases n.power with
    | none => exact .inl ⟨rfl, rfl⟩
    | some k => exact .inr (isExponent_powerText k)
  rw [n.value_decimal, Numeral.text]
  by_cases hfraction : n.fraction = []
  · obtain ⟨k, hk⟩ := Option.isSome_iff_exists.1 (h.resolve_left (not_not.2 hfraction))
    have hconstant := FloatConstant.power n.whole_digits n.whole_ne (isExponent_powerText k)
    rw [hfraction, hk, List.append_nil, List.length_nil, Nat.cast_zero, sub_zero]
    exact hconstant
  · rw [pointed_of_ne_nil hfraction]
    exact .point n.whole_digits n.fraction_digits (List.append_ne_nil_of_left_ne_nil n.whole_ne _)
      hpower

/-- A whole number with all of its digits and a point denotes itself. -/
theorem floatConstant_wholeText (n : ℕ) : FloatConstant (wholeText false n).toList n := by
  have hzero : ∀ c ∈ ['0'], c.isDigit := List.forall_mem_singleton.2 (by decide)
  have hconstant := FloatConstant.point (isDigit_of_mem_toDigits (n := n)) hzero
    (List.append_ne_nil_of_left_ne_nil Nat.toDigits_ne_nil _) (.inl ⟨rfl, rfl⟩)
  have hdigits : digitsValue (Nat.toDigits 10 n ++ ['0']) = n * 10 := by
    rw [digitsValue_append, digitsValue_toDigits]
    rfl
  have htext : (wholeText false n).toList = Nat.toDigits 10 n ++ '.' :: (['0'] ++ []) := by
    simp [wholeText]
  rw [hdigits] at hconstant
  rw [htext]
  convert hconstant using 1
  push_cast
  rw [List.length_singleton, Nat.cast_one, zero_sub, zpow_neg_one]
  field_simp

end Glsl

/-! ### Texts of constants -/

namespace Numeric

open Float.Model (UnpackedFloat)

variable {x : Float} {m : ℕ} {e : ℤ} {hm : 0 < m}

/-- A number that is not negative is the nearest double to its own value. -/
theorem isNearest_of_exactValue? {q : ℚ} (h : exactValue? x = some q)
    (hsign : isNegative x.toModel.unpack = false) : IsNearest q x := by
  rw [exactValue?] at h
  rcases hx : x.toModel.unpack with s | - | s | ⟨s, m, e, hm⟩
  · rw [hx] at h
    cases h
  · rw [hx] at h
    cases h
  · rw [hx] at h hsign
    obtain rfl := Option.some.inj h
    obtain rfl := eq_positive_of_beq hsign
    exact .zero hx (zpow_nonneg zero_le_two _)
  · rw [hx] at h hsign
    obtain rfl := Option.some.inj h
    obtain rfl := eq_positive_of_beq hsign
    exact .finite hx (attracts_self m e)

/-- A double whose shortest decimal is a natural number below `10 ^ 21` is such a number itself. -/
theorem IsCoarsest.exists_eq_natCast {d : Decimal} {n : ℕ} (hd : IsCoarsest m e d)
    (h : IsCanonical m e) (hvalue : d.value = n) (hlt : d.value < 10 ^ (21 : ℤ)) :
    ∃ k < 10 ^ 21, (m : ℚ) * 2 ^ e = (k : ℕ) := by
  have hattracts : Attracts m e d.value := hd.multiple.attracts
  rcases lt_or_ge e 0 with he | he
  · -- The two are equal.
    rw [hvalue] at hattracts hlt
    have hsmall : n < 2 ^ 53 := by exact_mod_cast hattracts.lt_of_le h he.le
    exact ⟨n, by exact_mod_cast hlt, (eq_of_attracts_natCast h hsmall hattracts).2⟩
  · -- From `10 ^ 21` on that power of ten would be attracted as well.
    have hnat : (m : ℚ) * 2 ^ e = (m * 2 ^ e.toNat : ℕ) := by
      rw [← Int.toNat_of_nonneg he]
      push_cast
      rfl
    refine ⟨_, not_le.1 fun hge ↦ ?_, hnat⟩
    have hge : (10 : ℚ) ^ (21 : ℤ) ≤ m * 2 ^ e := by
      rw [hnat]
      exact_mod_cast hge
    have hmid := hattracts.mid (attracts_self m e) hlt.le hge
    refine hd.coarser 21 1 ?_ (by rwa [Nat.cast_one, one_mul])
    have hlength : 0 < (Nat.toDigits 10 d.coefficient).length :=
      List.length_pos_iff.2 Nat.toDigits_ne_nil
    have hplace := mt (pow_le_value_iff (coefficient_pos h hattracts)).2 (not_le.2 hlt)
    omega

/-- **A number that is not a small natural one is written with a point or a power of ten.** -/
theorem exists_numeral_of_forall_ne (hx : x.toModel.unpack = .finite .positive m e hm)
    (hne : ∀ n < 10 ^ 21, exactNat? x ≠ some n) :
    ∃ n : Numeral, (numberText x).toList = n.text ∧ Attracts m e n.decimal.value ∧
      (n.fraction ≠ [] ∨ n.power.isSome) := by
  have hcanonical := (isDouble_of_unpack hx).toIsCanonical
  have hcoarsest := isCoarsest_shortestDecimal .up hcanonical
  obtain ⟨n, htext, hvalue, hpower⟩ := writes_write .language (shortestDecimal .binary64 .up m e)
  have hattracts : Attracts m e (shortestDecimal .binary64 .up m e).value :=
    hcoarsest.multiple.attracts
  refine ⟨n, (numberText_of_finite hx).trans htext, hvalue ▸ hattracts, ?_⟩
  by_contra hnone
  obtain ⟨hfraction, hpositional⟩ := not_or.1 hnone
  -- Without a point the digits are a natural number.
  have hnat : n.decimal.value = (digitsValue n.whole : ℕ) := by
    rw [n.value_decimal, not_not.1 hfraction, Option.not_isSome_iff_eq_none.1 hpositional]
    simp
  -- Without a power of ten the first digit stands for less than `10 ^ 21`.
  have hlt : (shortestDecimal .binary64 .up m e).value < 10 ^ (21 : ℤ) := by
    rw [hpower, Bool.not_eq_true', Bool.not_eq_false] at hpositional
    simp only [NumeralStyle.language, Bool.and_eq_true, decide_eq_true_eq] at hpositional
    rw [← not_le, pow_le_value_iff (coefficient_pos hcanonical hattracts)]
    omega
  obtain ⟨k, hk, heq⟩ := hcoarsest.exists_eq_natCast hcanonical (hvalue ▸ hnat) hlt
  refine hne k hk (exactNat?_eq_some_iff.2 ?_)
  rw [exactValue?_of_finite hx, ← heq]
  rfl

theorem constantText_of_exactNat? {n : ℕ} (h : exactNat? x = some n) (hn : n < 10 ^ 21)
    (hsign : isNegative x.toModel.unpack = false) : constantText x = wholeText false n := by
  rw [constantText_of_wholeValue? (exactNat?_eq_some_iff_wholeValue?.1 h) hn, hsign]
  rfl

/-- Other numbers are written as by the language itself. -/
theorem constantText_of_forall_ne (hne : ∀ n < 10 ^ 21, exactNat? x ≠ some n)
    (hsign : isNegative x.toModel.unpack = false) : constantText x = numberText x := by
  refine if_neg fun h ↦ ?_
  obtain ⟨hwhole, hlt⟩ := Bool.and_eq_true_iff.1 h
  refine hne _ (of_decide_eq_true hlt) ?_
  rw [exactNat?, hwhole, hsign]
  simp

/-- **The text of a finite number is a constant for it.** -/
theorem denotes_constantText (hfinite : x.isFinite) (hsign : isNegative x.toModel.unpack = false) :
    Glsl.Denotes (constantText x) x := by
  by_cases hsmall : ∃ n < 10 ^ 21, exactNat? x = some n
  · obtain ⟨n, hlt, hn⟩ := hsmall
    rw [constantText_of_exactNat? hn hlt hsign]
    exact ⟨n, Glsl.floatConstant_wholeText n,
      isNearest_of_exactValue? (exactNat?_eq_some_iff.1 hn) hsign⟩
  · have hne : ∀ n < 10 ^ 21, exactNat? x ≠ some n := fun n hlt hn ↦ hsmall ⟨n, hlt, hn⟩
    rw [constantText_of_forall_ne hne hsign]
    have hfinite : x.toModel.unpack.isFinite := hfinite
    rcases hx : x.toModel.unpack with s | - | s | ⟨s, m, e, hm⟩
    · rw [hx] at hfinite
      cases hfinite
    · rw [hx] at hfinite
      cases hfinite
    · refine absurd (exactNat?_eq_some_iff.2 ?_) (hne 0 (by decide))
      rw [exactValue?, hx]
      rfl
    · rw [hx] at hsign
      obtain rfl := eq_positive_of_beq hsign
      obtain ⟨n, htext, hattracts, hpoint⟩ := exists_numeral_of_forall_ne hx hne
      exact ⟨_, htext ▸ Glsl.floatConstant_text n hpoint, .finite hx hattracts⟩

/-- The words for the numbers that are not finite. -/
theorem constantText_of_not_isFinite (hfinite : ¬ x.isFinite)
    (hsign : isNegative x.toModel.unpack = false) :
    constantText x = if x.isNaN then "NaN" else "Infinity" := by
  have hfinite : ¬ x.toModel.unpack.isFinite := hfinite
  show _ = if x.toModel.unpack.isNaN then "NaN" else "Infinity"
  rw [constantText, numberText]
  rcases hx : x.toModel.unpack with s | - | s | ⟨s, m, e, hm⟩
  · rw [hx] at hsign
    obtain rfl := eq_positive_of_beq hsign
    rfl
  · rfl
  · rw [hx] at hfinite
    exact absurd rfl hfinite
  · rw [hx] at hfinite
    exact absurd rfl hfinite

/-- A word is no constant. -/
theorem not_denotes_of_not_isFinite (hfinite : ¬ x.isFinite)
    (hsign : isNegative x.toModel.unpack = false) : ¬ Glsl.Denotes (constantText x) x := by
  rw [constantText_of_not_isFinite hfinite hsign]
  rintro ⟨q, hconstant, -⟩
  have hhead := hconstant.head
  split at hhead
  · exact absurd (hhead 'N' rfl) (by decide)
  · exact absurd (hhead 'I' rfl) (by decide)

end Numeric

/-! ### Numbers of sources -/

namespace Expr

/-- Whatever the state, the number is written as a constant for it, or it is reported and there is
no constant for it. -/
def EmitsConstant (lead : String) (x : Float) : Prop :=
  ∀ state : ShaderState,
    match (((number x).emit lead).run.run state).1 with
    | .ok text => Glsl.Denotes text x
    | .error _ => ∀ text, ¬ Glsl.Denotes text x

variable {source : String} {e : Expr} {x : Float}

theorem run_emit_number (lead : String) (x : Float) (state : ShaderState) :
    ((number x).emit lead).run.run state = (.ok (constantText x), state) := by
  rw [emit]
  rfl

/-- **A number of a source is written as a constant for it exactly if it is finite.** It is always
written, and the state stays as it is; NaN and infinity are written as words. -/
theorem emitsConstant_iff (h : ofSource source = .ok e) (hx : Within (number x) e)
    (lead : String) :
    (EmitsConstant lead x ↔ x.isFinite) ∧
      (∀ state, ((number x).emit lead).run.run state = (.ok (constantText x), state)) ∧
      (¬ x.isFinite → constantText x = if x.isNaN then "NaN" else "Infinity") := by
  have hsign := isNegative_of_within h hx
  have hemits : EmitsConstant lead x ↔ Glsl.Denotes (constantText x) x := by
    simp only [EmitsConstant, run_emit_number]
    exact ⟨fun h ↦ h ⟨false⟩, fun h _ ↦ h⟩
  refine ⟨⟨fun h ↦ ?_, fun hfinite ↦ ?_⟩, run_emit_number lead x, fun hfinite ↦ ?_⟩
  · by_contra hfinite
    exact not_denotes_of_not_isFinite hfinite hsign (hemits.1 h)
  · exact hemits.2 (denotes_constantText hfinite hsign)
  · exact constantText_of_not_isFinite hfinite hsign

/-- A decimal that is too large for a finite double. -/
theorem emitsConstant_iff_overflow :
    ∃ e x, ofSource "1e999" = .ok e ∧ Within (number x) e ∧
      (EmitsConstant "a_" x ↔ x.isFinite) ∧
      (∀ state, ((number x).emit "a_").run.run state = (.ok (constantText x), state)) ∧
      (¬ x.isFinite → constantText x = if x.isNaN then "NaN" else "Infinity") := by
  have hsource : ofSource "1e999" = .ok (number (Decimal.toFloat false ⟨1, 999⟩)) := by
    with_unfolding_all rfl
  exact ⟨_, _, hsource, .refl _, emitsConstant_iff hsource (.refl _) "a_"⟩

/-- NaN is written as a word. -/
theorem exists_not_emitsConstant :
    ∃ e x, ofSource "NaN" = .ok e ∧ Within (number x) e ∧ ¬ EmitsConstant "a_" x := by
  refine ⟨number nan, nan, by with_unfolding_all rfl, .refl _, fun h ↦ ?_⟩
  obtain ⟨q, hconstant, -⟩ : Glsl.Denotes "NaN" nan := h ⟨false⟩
  exact absurd (hconstant.head 'N' rfl) (by decide)

end Expr

end FeatureStyle
