import FeatureStyle.Numeric.Language
import FeatureStyle.Proofs.Numeric.Rounding
import FeatureStyle.Proofs.Token.Number

/-!
# Notations of a decimal

A numeral has digits before a point, digits behind it and a power of ten, of which the last two may
be missing (`Numeral`), and it is read as what its parts say (`Numeral.readUnsigned?_text`).

The digits of a decimal are laid out in one of four ways, which differ in where the point stands and
in the zeros that fill up the places next to it. **Each of them is a numeral for the decimal**
(`writes_layout`, `writes_write`), and the letter `e` stands in it exactly if the style asks for a
power of ten (`Numeral.e_mem_text_iff`).
-/

namespace FeatureStyle.Numeric

/-! ### Values of digits -/

variable {cs : List Char}

/-- Digits behind others shift these up. -/
theorem digitsValue_append (cs ds : List Char) :
    digitsValue (cs ++ ds) = digitsValue cs * 10 ^ ds.length + digitsValue ds := by
  induction ds using List.reverseRecOn with
  | nil => simp [digitsValue]
  | append_singleton ds d ih =>
    have hlast (cs : List Char) :
        digitsValue (cs ++ [d]) = 10 * digitsValue cs + (d.toNat - '0'.toNat) := by
      rw [digitsValue, List.foldl_append]
      rfl
    rw [← List.append_assoc, hlast, hlast, ih, List.length_append, List.length_singleton]
    ring

/-- Zeros alone are zero. -/
theorem digitsValue_zeros (n : ℕ) : digitsValue (List.replicate n '0') = 0 := by
  induction n with
  | zero => rfl
  | succ n ih => rw [List.replicate_succ', digitsValue_append, ih]; rfl

/-- Zeros in front do not count. -/
theorem digitsValue_zeros_append (n : ℕ) (cs : List Char) :
    digitsValue (List.replicate n '0' ++ cs) = digitsValue cs := by
  rw [digitsValue_append, digitsValue_zeros, zero_mul, zero_add]

/-- Zeros behind are factors of ten. -/
theorem digitsValue_append_zeros (cs : List Char) (n : ℕ) :
    digitsValue (cs ++ List.replicate n '0') = digitsValue cs * 10 ^ n := by
  rw [digitsValue_append, digitsValue_zeros, add_zero, List.length_replicate]

/-- **The digits of a number are read as it.** -/
theorem digitsValue_toDigits (n : ℕ) : digitsValue (Nat.toDigits 10 n) = n :=
  Nat.ofDigitChars_ten_toDigits

/-! ### Numerals -/

/-- The digits after a point, if there are any. -/
def pointed : List Char → List Char
  | [] => []
  | digits => '.' :: digits

/-- Digits with a point before them are a fraction, and so are none without one. -/
theorem isFraction_pointed (hcs : ∀ c ∈ cs, c.isDigit) : Token.IsFraction (pointed cs) := by
  cases cs with
  | nil => exact .none
  | cons c cs => exact .point hcs

/-- Without the point they are the digits again. -/
theorem drop_pointed (cs : List Char) : (pointed cs).drop 1 = cs := by
  cases cs <;> rfl

/-- A power of ten behind its letter. -/
def powerText (e : ℤ) : List Char :=
  'e' :: (if e < 0 then '-' else '+') :: Nat.toDigits 10 e.natAbs

/-- The parts that a numeral is written with. -/
structure Numeral where
  whole : List Char
  fraction : List Char
  power : Option ℤ
  whole_ne : whole ≠ []
  whole_digits : ∀ c ∈ whole, c.isDigit
  fraction_digits : ∀ c ∈ fraction, c.isDigit

namespace Numeral

def text (n : Numeral) : List Char :=
  n.whole ++ (pointed n.fraction ++ n.power.elim [] powerText)

def decimal (n : Numeral) : Decimal :=
  ⟨digitsValue (n.whole ++ n.fraction), n.power.getD 0 - n.fraction.length⟩

end Numeral

/-- Digits are taken up to what is none. -/
theorem span_digits {rest : List Char} (hcs : ∀ c ∈ cs, c.isDigit)
    (hrest : ∀ c ∈ rest.head?, ¬ c.isDigit) :
    (cs ++ rest).takeWhile Char.isDigit = cs ∧ (cs ++ rest).dropWhile Char.isDigit = rest := by
  have htake := Token.takeWhile_append_of_head? hcs hrest
  have hspan := List.takeWhile_append_dropWhile (p := Char.isDigit) (l := cs ++ rest)
  rw [htake] at hspan
  exact ⟨htake, List.append_cancel_left hspan⟩

/-- A number is written in digits. -/
theorem isDigit_of_mem_toDigits {n : ℕ} : ∀ c ∈ Nat.toDigits 10 n, c.isDigit := fun _ ↦
  Nat.isDigit_of_mem_toDigits (by decide) (by decide)

/-! ### Reading a numeral -/

/-- What is read behind the digits, once they are known up to the power of ten. -/
def readPower? (scaled : ℤ → Decimal) : List Char → Option Decimal
  | [] => some (scaled 0)
  | c :: ds => if c = 'e' ∨ c = 'E' then (readExponent? ds).map scaled else none

/-- The digits before and behind the point are read as far as they go. -/
theorem readUnsigned?_append {whole fraction rest : List Char} (hwhole : ∀ c ∈ whole, c.isDigit)
    (hend : ∀ c ∈ (fraction ++ rest).head?, ¬ c.isDigit) (hfraction : Token.IsFraction fraction)
    (hrest : Token.FractionEnds fraction rest) :
    Decimal.readUnsigned? (whole ++ (fraction ++ rest)) =
      if whole.isEmpty && (fraction.drop 1).isEmpty then none
      else readPower? (fun power ↦ ⟨digitsValue (whole ++ fraction.drop 1),
        power - (fraction.drop 1).length⟩) rest := by
  obtain ⟨htake, hdrop⟩ := span_digits hwhole hend
  unfold Decimal.readUnsigned?
  dsimp only
  rw [htake, hdrop]
  cases hfraction with
  | none =>
    cases rest with
    | nil => rfl
    | cons c ds =>
      have hc : c ≠ '.' := fun hc ↦ (hrest c rfl).1 hc rfl
      rw [List.nil_append]
      split
      · next heq => exact absurd (List.cons.inj heq).1 hc
      · rfl
  | @point digits hdigits =>
    have hend' : ∀ c ∈ rest.head?, ¬ c.isDigit := by
      intro c hc hdigit
      cases (hrest c hc).2 hdigit
    obtain ⟨htake', hdrop'⟩ := span_digits hdigits hend'
    rw [List.cons_append]
    show (if whole.isEmpty && ((digits ++ rest).takeWhile Char.isDigit).isEmpty then none
      else readPower? (fun power ↦ ⟨digitsValue (whole ++ (digits ++ rest).takeWhile Char.isDigit),
        power - ((digits ++ rest).takeWhile Char.isDigit).length⟩)
          ((digits ++ rest).dropWhile Char.isDigit)) = _
    rw [htake', hdrop']
    rfl

/-- The exponent is read back. -/
theorem readExponent?_signed (e : ℤ) :
    readExponent? ((if e < 0 then '-' else '+') :: Nat.toDigits 10 e.natAbs) = some e := by
  have hsplit : splitSign ((if e < 0 then '-' else '+') :: Nat.toDigits 10 e.natAbs) =
      (decide (e < 0), Nat.toDigits 10 e.natAbs) := by
    split
    · next he => rw [decide_eq_true he]; rfl
    · next he => rw [decide_eq_false he]; rfl
  have hall : (Nat.toDigits 10 e.natAbs).all Char.isDigit :=
    List.all_eq_true.2 isDigit_of_mem_toDigits
  have hne : (Nat.toDigits 10 e.natAbs).isEmpty = false :=
    List.isEmpty_eq_false_iff.2 Nat.toDigits_ne_nil
  unfold readExponent?
  rw [hsplit]
  simp only [hall, hne, digitsValue_toDigits, Bool.not_true, Bool.or_false, Bool.false_eq_true,
    if_false, decide_eq_true_eq, Option.some.injEq]
  split <;> omega

/-- The characters that numerals are made of. -/
def IsNumeralChar (c : Char) : Prop := c.isDigit ∨ c ∈ ['.', 'e', '+', '-']

instance : DecidablePred IsNumeralChar := fun _ ↦ inferInstanceAs (Decidable (_ ∨ _))

namespace Numeral

variable (n : Numeral)

/-- A power of ten begins with its letter. -/
theorem head?_power : ∀ c ∈ (n.power.elim [] powerText).head?, c = 'e' := by
  cases n.power with
  | none => exact nofun
  | some e => exact fun c hc ↦ (Option.some.inj hc).symm

/-- What comes behind digits is a point, a letter or nothing. -/
theorem head?_tail : ∀ c ∈ (pointed n.fraction ++ n.power.elim [] powerText).head?,
    c = '.' ∧ n.fraction ≠ [] ∨ c = 'e' ∧ n.fraction = [] := by
  cases n.fraction with
  | nil => exact fun c hc ↦ .inr ⟨n.head?_power c hc, rfl⟩
  | cons d ds => exact fun c hc ↦ .inl ⟨(Option.some.inj hc).symm, List.cons_ne_nil _ _⟩

/-- **A numeral is read as what its parts say.** -/
theorem readUnsigned?_text : Decimal.readUnsigned? n.text = some n.decimal := by
  have htail : ∀ c ∈ (pointed n.fraction ++ n.power.elim [] powerText).head?, ¬ c.isDigit := by
    intro c hc
    rcases n.head?_tail c hc with ⟨rfl, -⟩ | ⟨rfl, -⟩ <;> decide
  have hends : Token.FractionEnds (pointed n.fraction) (n.power.elim [] powerText) := by
    intro c hc
    rw [n.head?_power c hc]
    exact ⟨nofun, nofun⟩
  have hwhole : n.whole.isEmpty = false := List.isEmpty_eq_false_iff.2 n.whole_ne
  have hpower (scaled : ℤ → Decimal) :
      readPower? scaled (n.power.elim [] powerText) = some (scaled (n.power.getD 0)) := by
    cases n.power with
    | none => rfl
    | some e => simp [powerText, readPower?, readExponent?_signed]
  rw [text, readUnsigned?_append n.whole_digits htail (isFraction_pointed n.fraction_digits) hends,
    drop_pointed, hwhole, Bool.false_and, if_neg Bool.false_ne_true, hpower]
  rfl

/-- The number that the numeral denotes. -/
theorem value_decimal : n.decimal.value =
    digitsValue (n.whole ++ n.fraction) * 10 ^ (n.power.getD 0 - n.fraction.length : ℤ) := rfl

/-! ### Characters of numerals -/

/-- A numeral is made of the characters of numerals. -/
theorem isNumeralChar_of_mem : ∀ c ∈ n.text, IsNumeralChar c := by
  intro c hc
  rw [text, List.mem_append, List.mem_append] at hc
  rcases hc with hc | hc | hc
  · exact .inl (n.whole_digits c hc)
  · have hdigits := n.fraction_digits
    generalize n.fraction = fraction at hc hdigits
    cases fraction with
    | nil => cases hc
    | cons d ds =>
      rcases List.mem_cons.1 hc with rfl | hc
      · exact .inr (by decide)
      · exact .inl (hdigits c hc)
  · generalize n.power = power at hc
    cases power with
    | none => cases hc
    | some e =>
      rcases List.mem_cons.1 hc with rfl | hc
      · exact .inr (by decide)
      rcases List.mem_cons.1 hc with rfl | hc
      · split <;> exact .inr (by decide)
      · exact .inl (isDigit_of_mem_toDigits c hc)

/-- A letter stands in a numeral only before a power of ten. -/
theorem e_mem_text_iff : 'e' ∈ n.text ↔ n.power.isSome := by
  have hwhole : 'e' ∉ n.whole := fun he ↦ absurd (n.whole_digits 'e' he) (by decide)
  have hfraction : 'e' ∉ pointed n.fraction := by
    have hdigits := n.fraction_digits
    generalize n.fraction = fraction at hdigits
    cases fraction with
    | nil => exact List.not_mem_nil
    | cons d ds =>
      intro he
      rcases List.mem_cons.1 he with he | he
      · cases he
      · exact absurd (hdigits 'e' he) (by decide)
  rw [text, List.mem_append, List.mem_append, or_iff_right hwhole, or_iff_right hfraction]
  cases n.power with
  | none => exact iff_of_false List.not_mem_nil (by decide)
  | some e => exact iff_of_true List.mem_cons_self rfl

end Numeral

/-! ### Layouts -/

/-- The text is a numeral for the number, with a power of ten or without one. -/
def Writes (text : List Char) (q : ℚ) (hasPower : Bool) : Prop :=
  ∃ n : Numeral, text = n.text ∧ n.decimal.value = q ∧ n.power.isSome = hasPower

theorem pointed_of_ne_nil (h : cs ≠ []) : pointed cs = '.' :: cs := by
  cases cs with
  | nil => exact absurd rfl h
  | cons c cs => rfl

section Layout

variable {digits : List Char} {e : ℤ} (hne : digits ≠ []) (hdigits : ∀ c ∈ digits, c.isDigit)

include hne hdigits

/-- Below one, zeros stand between the point and the digits. -/
theorem writes_below_one (he : e < 0) :
    Writes (['0'] ++ '.' :: (List.replicate (-e - 1).toNat '0' ++ digits))
      (digitsValue digits * 10 ^ (e + 1 - digits.length : ℤ)) false := by
  let fraction := List.replicate (-e - 1).toNat '0' ++ digits
  have hfraction : ∀ c ∈ fraction, c.isDigit := by
    intro c hc
    rcases List.mem_append.1 hc with hc | hc
    · exact List.eq_of_mem_replicate hc ▸ by decide
    · exact hdigits c hc
  refine ⟨⟨['0'], fraction, none, by simp, by simp, hfraction⟩, ?_, ?_, rfl⟩
  · rw [Numeral.text, pointed_of_ne_nil (List.append_ne_nil_of_right_ne_nil _ hne)]
    exact (List.append_nil _).symm
  · have hvalue : digitsValue (['0'] ++ fraction) = digitsValue digits := by
      rw [digitsValue_append, digitsValue_zeros_append]
      exact (Nat.add_eq_right).2 (Nat.zero_mul _)
    rw [Numeral.value_decimal, hvalue]
    congr 2
    show (0 : ℤ) - (fraction.length : ℤ) = _
    rw [List.length_append, List.length_replicate]
    push_cast
    omega

/-- Where all digits stand before the point, zeros stand behind them. -/
theorem writes_whole {fraction : List Char} (hfraction : fraction = [] ∨ fraction = ['0'])
    (he : 0 ≤ e) (hlength : digits.length ≤ e.toNat + 1) :
    Writes (digits ++ List.replicate (e.toNat + 1 - digits.length) '0' ++ pointed fraction)
      (digitsValue digits * 10 ^ (e + 1 - digits.length : ℤ)) false := by
  let whole := digits ++ List.replicate (e.toNat + 1 - digits.length) '0'
  have hwhole : ∀ c ∈ whole, c.isDigit := by
    intro c hc
    rcases List.mem_append.1 hc with hc | hc
    · exact hdigits c hc
    · exact List.eq_of_mem_replicate hc ▸ by decide
  have hzeros : fraction = List.replicate fraction.length '0' := by
    rcases hfraction with rfl | rfl <;> rfl
  refine ⟨⟨whole, fraction, none, List.append_ne_nil_of_left_ne_nil hne _, hwhole, ?_⟩, ?_, ?_,
    rfl⟩
  · exact fun c hc ↦ List.eq_of_mem_replicate (hzeros ▸ hc) ▸ by decide
  · exact congrArg (whole ++ ·) (List.append_nil _).symm
  · have hvalue : digitsValue (whole ++ fraction) =
        digitsValue digits * 10 ^ (e.toNat + 1 - digits.length) * 10 ^ fraction.length := by
      rw [hzeros, digitsValue_append_zeros, digitsValue_append_zeros, List.length_replicate]
    have hpow : (10 : ℚ) ^ (e + 1 - digits.length : ℤ) = 10 ^ (e.toNat + 1 - digits.length) := by
      rw [← zpow_natCast]
      congr 1
      omega
    rw [Numeral.value_decimal, hvalue, hpow]
    dsimp only [Option.getD_none]
    rw [zero_sub, zpow_neg, zpow_natCast]
    push_cast
    field_simp

/-- The point stands among the digits, and a power of ten behind them. -/
theorem writes_split {n : ℕ} (hn : 0 < n) (power : Option ℤ) (he : power.getD 0 + n = e + 1)
    (hlength : n ≤ digits.length) :
    Writes (digits.take n ++ (pointed (digits.drop n) ++ power.elim [] powerText))
      (digitsValue digits * 10 ^ (e + 1 - digits.length : ℤ)) power.isSome := by
  have htake : digits.take n ≠ [] := by
    rw [Ne, List.take_eq_nil_iff]
    exact not_or.2 ⟨hn.ne', hne⟩
  refine ⟨⟨digits.take n, digits.drop n, power, htake,
    fun c hc ↦ hdigits c (List.mem_of_mem_take hc),
    fun c hc ↦ hdigits c (List.mem_of_mem_drop hc)⟩, rfl, ?_, rfl⟩
  rw [Numeral.value_decimal]
  dsimp only
  rw [List.take_append_drop, List.length_drop]
  congr 2
  push_cast [hlength]
  omega

/-- **However digits are laid out, they are a numeral for what they stand for.** A power of ten is
written exactly where the style says so. -/
theorem writes_layout (style : NumeralStyle) :
    Writes (style.layout digits e) (digitsValue digits * 10 ^ (e + 1 - digits.length : ℤ))
      (!style.isPositional e) := by
  rw [NumeralStyle.layout]
  split
  · next hpositional =>
    rw [hpositional]
    split
    · next he =>
      rw [List.append_assoc]
      exact writes_below_one hne hdigits he
    · next he =>
      dsimp only
      split
      · next hlength =>
        have hpoint : (if style.keepsPoint then ['.', '0'] else []) =
            pointed (if style.keepsPoint then ['0'] else []) := by
          split <;> rfl
        rw [hpoint]
        refine writes_whole hne hdigits ?_ (by omega) hlength
        split
        · exact .inr rfl
        · exact .inl rfl
      · next hlength =>
        have hplace : (none : Option ℤ).getD 0 + (e.toNat + 1 : ℕ) = e + 1 := by
          rw [Option.getD_none]
          push_cast
          omega
        have hdrop : digits.drop (e.toNat + 1) ≠ [] := by
          rw [Ne, List.drop_eq_nil_iff]
          omega
        have hwrites := writes_split hne hdigits (Nat.succ_pos e.toNat) none hplace (by omega)
        rw [pointed_of_ne_nil hdrop, Option.elim_none, List.append_nil] at hwrites
        exact hwrites
  · next hpositional =>
    rw [Bool.not_eq_true] at hpositional
    rw [hpositional]
    have hplace : (some e : Option ℤ).getD 0 + (1 : ℕ) = e + 1 := rfl
    have hwrites := writes_split hne hdigits Nat.one_pos (some e) hplace
      (List.length_pos_iff.2 hne)
    dsimp only
    rw [List.append_assoc, List.append_assoc]
    exact hwrites

end Layout

/-- **A decimal is written as a numeral for it.** -/
theorem writes_write (style : NumeralStyle) (d : Decimal) :
    Writes (style.write d) d.value
      (!style.isPositional (d.exponent + (Nat.toDigits 10 d.coefficient).length - 1)) := by
  have hwrites : Writes (style.write d) _ _ :=
    writes_layout Nat.toDigits_ne_nil isDigit_of_mem_toDigits style
  rw [digitsValue_toDigits] at hwrites
  have hplace : d.exponent + (Nat.toDigits 10 d.coefficient).length - 1 + 1 -
      (Nat.toDigits 10 d.coefficient).length = d.exponent := by omega
  rw [hplace] at hwrites
  exact hwrites

end FeatureStyle.Numeric
