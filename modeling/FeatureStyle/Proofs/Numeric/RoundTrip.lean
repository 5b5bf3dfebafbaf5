import FeatureStyle.Proofs.Numeric.Exact
import FeatureStyle.Proofs.Numeric.Notation
import FeatureStyle.Proofs.Numeric.Reading
import FeatureStyle.Proofs.Numeric.Shortest

/-!
# Numbers that come back

**A number is written as the shortest decimal that is read as it** (`numberText_shortest`). What is
laid out is the coarsest decimal that the number attracts, so that reading gives the number again
(`readNumber_numberText`); only zero loses its sign.

A power of ten is written for a number below `1e-6` or not below `1e21`, where the number is
compared as a double: the double `1e-6` is itself a little less than a millionth
(`isPositional_eq_false_iff`).
-/

namespace FeatureStyle.Numeric

open Float.Model (Format UnpackedFloat)
open Float.Model.UnpackedFloat (Sign)

variable {x : Float} {m : ℕ} {e : ℤ} {s : Sign} {hm : 0 < m} {d : Decimal} {cs : List Char}

/-! ### Bounds of positional notation -/

/-- The double that a millionth is read as. -/
theorem unpack_millionth :
    (1e-6 : Float).toModel.unpack = .finite .positive 4722366482869645 (-72) (by decide) := by
  rfl

/-- The double that ten to the power of twenty-one is read as, which is that number. -/
theorem unpack_sextillion :
    (1e21 : Float).toModel.unpack = .finite .positive 7629394531250000 17 (by decide) := by
  rfl

/-- The one is the nearest double to a millionth. -/
theorem attracts_millionth : Attracts 4722366482869645 (-72) (10 ^ (-6 : ℤ)) := by
  have hread : Decimal.toFloat false ⟨1, -6⟩ = 1e-6 := by decide +kernel
  have hpow := (toFloat_eq_iff unpack_millionth).1 hread
  rwa [Decimal.value, Nat.cast_one, one_mul] at hpow

/-- The other is the nearest double to the power of ten. -/
theorem attracts_sextillion : Attracts 7629394531250000 17 (10 ^ (21 : ℤ)) := by
  have hread : Decimal.toFloat false ⟨1, 21⟩ = 1e21 := by decide +kernel
  have hpow := (toFloat_eq_iff unpack_sextillion).1 hread
  rwa [Decimal.value, Nat.cast_one, one_mul] at hpow

/-- **A power of ten is written below `1e-6` and from `1e21` on**, also of the doubles next to these
bounds. -/
theorem isPositional_eq_false_iff (hx : x.toModel.unpack = .finite s m e hm)
    (hd : IsCoarsest m e d) :
    NumeralStyle.language.isPositional
        (d.exponent + (Nat.toDigits 10 d.coefficient).length - 1) = false ↔
      x.abs < 1e-6 ∨ 1e21 ≤ x.abs := by
  have hcanonical := (isDouble_of_unpack hx).toIsCanonical
  have hpos := coefficient_pos hcanonical hd.multiple.attracts
  have hlow := hd.pow_le_iff hcanonical (isDouble_of_unpack unpack_millionth).toIsCanonical
    attracts_millionth
  have hhigh := hd.pow_le_iff hcanonical (isDouble_of_unpack unpack_sextillion).toIsCanonical
    attracts_sextillion
  rw [pow_le_value_iff hpos] at hlow hhigh
  rw [lt_iff_of_unpack (unpack_abs hx) unpack_millionth,
    le_iff_of_unpack (unpack_abs hx) unpack_sextillion, ← hhigh,
    ← not_iff_comm.1 hlow.symm]
  simp only [NumeralStyle.language, Bool.and_eq_false_iff, decide_eq_false_iff_not]
  omega

/-! ### Texts of numbers -/

/-- No character of a numeral is a blank. -/
theorem not_isBlank_of_isNumeralChar {c : Char} (h : IsNumeralChar c) : ¬ Text.isBlank c := by
  rcases h with hdigit | hmem
  · intro hblank
    have hzero : '0'.val.toNat = 48 := rfl
    have hnine : '9'.val.toNat = 57 := rfl
    simp only [Char.isDigit, Bool.and_eq_true, decide_eq_true_eq, UInt32.le_iff_toNat_le] at hdigit
    simp only [Text.isBlank, Bool.or_eq_true, Bool.and_eq_true, decide_eq_true_eq, beq_iff_eq,
      Char.toNat] at hblank
    omega
  · simp only [List.mem_cons, List.not_mem_nil, or_false] at hmem
    rcases hmem with rfl | rfl | rfl | rfl <;> decide

/-- So a numeral has nothing to be trimmed. -/
theorem trim_eq_self (h : ∀ c ∈ cs, ¬ Text.isBlank c) : Text.trim cs = cs := by
  have hdrop {cs : List Char} (h : ∀ c ∈ cs, ¬ Text.isBlank c) :
      cs.dropWhile Text.isBlank = cs := by
    cases cs with
    | nil => rfl
    | cons c cs => exact List.dropWhile_cons_of_neg (h c List.mem_cons_self)
  rw [Text.trim, hdrop h, hdrop fun c hc ↦ h c (List.mem_reverse.1 hc), List.reverse_reverse]

/-- A text made of the characters of numerals announces no other base. -/
theorem splitRadix?_eq_none (h : ∀ c ∈ cs, IsNumeralChar c) : splitRadix? cs = none := by
  unfold splitRadix?
  split
  · next c ds =>
    have hc := h c (List.mem_cons_of_mem _ List.mem_cons_self)
    have hne {letter : Char} (hletter : ¬ IsNumeralChar letter) : c ≠ letter := fun heq ↦
      hletter (heq ▸ hc)
    rw [if_neg (not_or.2 ⟨hne (by decide), hne (by decide)⟩),
      if_neg (not_or.2 ⟨hne (by decide), hne (by decide)⟩),
      if_neg (not_or.2 ⟨hne (by decide), hne (by decide)⟩)]
  · rfl

/-- **A numeral is read as the number that it denotes.** -/
theorem readNumber_numeral {text : String} {negative : Bool}
    (h : ∀ c ∈ text.toList, IsNumeralChar c)
    (hread : Decimal.read? text.toList = some (negative, d)) :
    readNumber text = d.toFloat negative := by
  have hinfinity {word : String} (hword : 'I' ∈ word.toList) : text.toList ≠ word.toList := by
    intro heq
    exact absurd (h 'I' (heq ▸ hword)) (by decide)
  have hne : text.toList.isEmpty = false := by
    refine List.isEmpty_eq_false_iff.2 fun hnil ↦ ?_
    rw [hnil] at hread
    cases hread
  rw [readNumber, trim_eq_self fun c hc ↦ not_isBlank_of_isNumeralChar (h c hc), readTrimmed, hne,
    if_neg (by decide), if_neg (not_or.2 ⟨hinfinity (by decide), hinfinity (by decide)⟩),
    if_neg (hinfinity (by decide)), splitRadix?_eq_none h, hread]

/-- A numeral begins with a digit. -/
theorem splitSign_text (n : Numeral) : splitSign n.text = (false, n.text) := by
  obtain ⟨c, cs, hwhole⟩ := List.exists_cons_of_ne_nil n.whole_ne
  have hdigit := n.whole_digits c (hwhole ▸ List.mem_cons_self)
  rw [Numeral.text, hwhole, List.cons_append]
  unfold splitSign
  split
  · next heq =>
    cases heq
    cases hdigit
  · next heq =>
    cases heq
    cases hdigit
  · rfl

/-- The sign before a numeral is read as such. -/
theorem read?_text (negative : Bool) (n : Numeral) :
    Decimal.read? ((if negative then ['-'] else []) ++ n.text) = some (negative, n.decimal) := by
  have hsplit : splitSign ((if negative then ['-'] else []) ++ n.text) = (negative, n.text) := by
    cases negative with
    | true => rfl
    | false => exact splitSign_text n
  rw [Decimal.read?, hsplit]
  simp [n.readUnsigned?_text]

theorem toList_signText (s : Sign) :
    (signText s).toList = if s == .negative then ['-'] else [] := by
  cases s <;> rfl

/-- **In every style a double is written as a numeral that is read as the double.** -/
theorem exists_numeral_of_finite (style : NumeralStyle)
    (hx : x.toModel.unpack = .finite s m e hm) :
    ∃ n : Numeral, style.write (shortestDecimal .binary64 style.tie m e) = n.text ∧
      n.decimal.toFloat (s == .negative) = x := by
  obtain ⟨n, htext, hvalue, -⟩ := writes_write style (shortestDecimal .binary64 style.tie m e)
  refine ⟨n, htext, ?_⟩
  rw [toFloat_eq_iff hx, hvalue]
  exact (isCoarsest_shortestDecimal _ (isDouble_of_unpack hx).toIsCanonical).multiple.attracts

/-- A numeral with a sign before it is made of the characters of numerals. -/
theorem isNumeralChar_of_mem_sign_append {n : Numeral} {negative : Bool} :
    ∀ c ∈ (if negative then ['-'] else []) ++ n.text, IsNumeralChar c := by
  intro c hc
  rcases List.mem_append.1 hc with hc | hc
  · split at hc
    · exact List.mem_singleton.1 hc ▸ by decide
    · cases hc
  · exact n.isNumeralChar_of_mem c hc

/-- A finite number is written as its sign and its shortest decimal. -/
theorem numberText_of_finite (hx : x.toModel.unpack = .finite s m e hm) :
    (numberText x).toList = (if s == .negative then ['-'] else []) ++
      NumeralStyle.language.write (shortestDecimal .binary64 .up m e) := by
  unfold numberText
  rw [hx, ← toList_signText]
  show (signText s ++ String.ofList _).toList = _
  rw [String.toList_append, String.toList_ofList]

/-- **What is written for a finite number is read as it.** -/
theorem readNumber_numberText_of_finite (hx : x.toModel.unpack = .finite s m e hm) :
    readNumber (numberText x) = x := by
  obtain ⟨n, htext, hread⟩ := exists_numeral_of_finite .language hx
  have htext : (numberText x).toList = (if s == .negative then ['-'] else []) ++ n.text := by
    rw [numberText_of_finite hx, ← htext]
    rfl
  have hnumeral : Decimal.read? (numberText x).toList = some (s == .negative, n.decimal) := by
    rw [htext, read?_text]
  rw [readNumber_numeral (htext ▸ isNumeralChar_of_mem_sign_append) hnumeral, hread]

/-- **The text of a number is read as the number**, and only zero loses its sign. -/
theorem readNumber_numberText (x : Float) :
    readNumber (numberText x) = if x == 0 then 0 else x := by
  rw [beq_zero_eq]
  rcases hx : x.toModel.unpack with s | - | s | ⟨s, m, e, hm⟩
  · have htext : numberText x = signText s ++ "Infinity" := by
      rw [numberText, hx]
    have hread : readNumber (signText s ++ "Infinity") = .ofModel (.pack (.infinity s)) := by
      cases s <;> decide +kernel
    rw [htext, hread, if_neg (by cases s <;> decide)]
    exact eq_of_unpack_eq ((unpack_packedInfinity s).trans hx.symm)
  · have htext : numberText x = "NaN" := by
      rw [numberText, hx]
    have hread : readNumber "NaN" = nan := by decide +kernel
    rw [htext, hread, if_neg (by decide)]
    exact eq_of_unpack_eq (Float.Model.UnpackedFloat.unpack_packedNaN.trans hx.symm)
  · have htext : numberText x = "0" := by
      rw [numberText, hx]
    rw [htext, if_pos (by cases s <;> decide)]
    decide +kernel
  · have hne : ¬ ((UnpackedFloat.finite s m e hm).compare (.zero .positive) == some .eq) := by
      cases s <;> exact Bool.false_ne_true
    rw [if_neg hne]
    exact readNumber_numberText_of_finite hx

/-! ### Numbers of JSON documents -/

/-- The number is written in a JSON document as a numeral that is read as the number. -/
def WrittenExactly (x : Float) : Prop :=
  ∃ text d, jsonText? x = some text ∧
    Decimal.read? text.toList = some (isNegative x.toModel.unpack, d) ∧
      d.toFloat (isNegative x.toModel.unpack) = x

/-- **In a JSON document every finite number comes back**, also a zero with its sign. -/
theorem writtenExactly_of_isFinite (h : x.isFinite) : WrittenExactly x := by
  have hfinite : x.toModel.unpack.isFinite := h
  rcases hx : x.toModel.unpack with s | - | s | ⟨s, m, e, hm⟩
  · rw [hx] at hfinite
    cases hfinite
  · rw [hx] at hfinite
    cases hfinite
  · have hzero : Decimal.toFloat (s == .negative) ⟨0, -1⟩ = .ofModel (.pack (.zero s)) := by
      cases s <;> decide +kernel
    refine ⟨signText s ++ "0.0", ⟨0, -1⟩, ?_, ?_, ?_⟩
    · rw [jsonText?, hx]
    · rw [hx]
      cases s <;> decide
    · rw [hx]
      refine hzero.trans (eq_of_unpack_eq ?_)
      exact Float.Model.UnpackedFloat.unpack_packedZero.trans hx.symm
  · obtain ⟨n, htext, hread⟩ := exists_numeral_of_finite .json hx
    refine ⟨signText s ++ String.ofList n.text, n.decimal, ?_, ?_, ?_⟩
    · rw [jsonText?, hx, ← htext]
      rfl
    · rw [hx, String.toList_append, String.toList_ofList, toList_signText, read?_text]
      rfl
    · rw [hx]
      exact hread

/-! ### The shortest text -/

/-- The decimal is read as the double `x`, which stands for `q`, and it has the fewest digits of all
decimals that are. With the same last place there is no nearer one. -/
structure IsShortest (x : Float) (q : ℚ) (d : Decimal) : Prop where
  reads : d.toFloat (decide (q < 0)) = x
  fewest : ∀ d' : Decimal, d'.toFloat (decide (q < 0)) = x →
    (Nat.toDigits 10 d.coefficient).length ≤ (Nat.toDigits 10 d'.coefficient).length
  nearest : ∀ d' : Decimal, d'.exponent = d.exponent → d'.toFloat (decide (q < 0)) = x →
    |d.value - (|q|)| ≤ |d'.value - (|q|)|

/-- The sign of a finite number is that of the value. -/
theorem decide_dyadic_neg (s : Sign) (hm : 0 < m) (e : ℤ) :
    decide (dyadic s m e < 0) = (s == .negative) := by
  have hpos : 0 < (m : ℚ) * 2 ^ e := mul_pos (Nat.cast_pos.2 hm) (zpow_pos two_pos e)
  cases s with
  | positive => exact decide_eq_false (not_lt.2 hpos.le)
  | negative => exact decide_eq_true (neg_neg_iff_pos.2 hpos)

/-- The coarsest decimal that is read as a number is its shortest one. -/
theorem isShortest_of_isCoarsest (hx : x.toModel.unpack = .finite s m e hm)
    (hd : IsCoarsest m e d) : IsShortest x (dyadic s m e) d := by
  have hsign := decide_dyadic_neg s hm e
  constructor
  · rw [hsign, toFloat_eq_iff hx]
    exact hd.multiple.attracts
  · intro d' hread
    rw [hsign, toFloat_eq_iff hx] at hread
    exact hd.length_le hread
  · rintro ⟨c, k⟩ rfl hread
    rw [hsign, toFloat_eq_iff hx] at hread
    rw [abs_dyadic]
    exact hd.multiple.nearest c hread

/-- The letter of an exponent stands in a numeral exactly if it has a power of ten. -/
theorem e_mem_sign_append_iff {n : Numeral} {negative : Bool} :
    'e' ∈ (if negative then ['-'] else []) ++ n.text ↔ n.power.isSome := by
  rw [List.mem_append, n.e_mem_text_iff, or_iff_right]
  cases negative <;> decide

/-- **A number is written as the shortest decimal that is read as it.** Every number but NaN comes
back. The text of a finite number other than zero denotes its shortest decimal, with a power of ten
exactly below `1e-6` and from `1e21` on. -/
theorem numberText_shortest (x : Float) :
    (readNumber (numberText x) == x) = !x.isNaN ∧
      ∀ q, exactValue? x = some q → q ≠ 0 →
        ∃ d d' : Decimal, IsShortest x q d ∧ d'.value = d.value ∧
          Decimal.read? (numberText x).toList = some (decide (q < 0), d') ∧
            ('e' ∈ (numberText x).toList ↔ x.abs < 1e-6 ∨ 1e21 ≤ x.abs) := by
  constructor
  · rw [readNumber_numberText]
    split
    · next hzero => exact zero_beq_eq hzero
    · exact beq_self_eq x
  · intro q hq hne
    unfold exactValue? at hq
    rcases hx : x.toModel.unpack with s | - | s | ⟨s, m, e, hm⟩
    · rw [hx] at hq
      cases hq
    · rw [hx] at hq
      cases hq
    · rw [hx] at hq
      exact absurd (Option.some.inj hq).symm hne
    · rw [hx] at hq
      obtain rfl := Option.some.inj hq
      have hcoarsest := isCoarsest_shortestDecimal .up (isDouble_of_unpack hx).toIsCanonical
      obtain ⟨n, htext, hvalue, hpower⟩ :=
        writes_write .language (shortestDecimal .binary64 .up m e)
      refine ⟨_, n.decimal, isShortest_of_isCoarsest hx hcoarsest, hvalue, ?_, ?_⟩
      · rw [decide_dyadic_neg s hm e, numberText_of_finite hx, htext, read?_text]
      · rw [numberText_of_finite hx, htext, e_mem_sign_append_iff, hpower, Bool.not_eq_true',
          isPositional_eq_false_iff hx hcoarsest]

theorem numberText_shortest_sextillion :
    exactValue? (-1e21) = some (dyadic .negative 7629394531250000 17) ∧
      dyadic .negative 7629394531250000 17 ≠ 0 ∧
        ∃ d d' : Decimal, IsShortest (-1e21) (dyadic .negative 7629394531250000 17) d ∧
          d'.value = d.value ∧ Decimal.read? (numberText (-1e21)).toList =
            some (decide (dyadic .negative 7629394531250000 17 < 0), d') ∧
              ('e' ∈ (numberText (-1e21)).toList ↔
                (-1e21 : Float).abs < 1e-6 ∨ 1e21 ≤ (-1e21 : Float).abs) := by
  have hne : dyadic .negative 7629394531250000 17 ≠ 0 := by norm_num [dyadic]
  exact ⟨rfl, hne, (numberText_shortest (-1e21)).2 _ rfl hne⟩

end FeatureStyle.Numeric
