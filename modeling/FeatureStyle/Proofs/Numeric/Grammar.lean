import FeatureStyle.Proofs.Numeric.Nearest
import FeatureStyle.Proofs.Numeric.Notation
import FeatureStyle.Proofs.Numeric.Sign
import FeatureStyle.Proofs.Token.Number

/-!
# The grammar of numbers

A text that is meant for a number (`IsNumeral`) either announces a base and goes on with digits of
that base (`IsAnnounced`), or it announces none (`IsPlain`): it is empty, or infinity or a decimal
with a sign or without one. A decimal has the parts of a number in a source (`Token.NumberParts`).

What the readers of the parts take is compared with the grammar here. **A decimal is read exactly if
it is one** (`read?_isSome_iff`). **Behind the announcement of a base a plus sign is read too, and
only numbers up to a bound** (`exists_readWhole?_iff`); digits have the value that they stand for
(`radixValue?_reverse_eq_some_iff`).
-/

namespace FeatureStyle.Numeric

/-! ### The grammar -/

/-- The signs that a number may have. -/
def signs : List (List Char) := [[], ['+'], ['-']]

/-- What announces a base, and the base. -/
def announcements : List (List Char × ℕ) :=
  [(['0', 'x'], 16), (['0', 'X'], 16), (['0', 'o'], 8), (['0', 'O'], 8), (['0', 'b'], 2),
    (['0', 'B'], 2)]

/-- The character is a digit of the base, in either case, with the value. -/
def IsRadixDigit (radix : ℕ) (c : Char) (d : ℕ) : Prop := d < radix ∧ c.toLower = Nat.digitChar d

/-- Digits of the base, of which there is at least one, stand for the number. The last one is the
least significant. -/
inductive Spells (radix : ℕ) : List Char → ℕ → Prop
  | intro {cs : List Char} {values : List ℕ} (hne : cs ≠ [])
      (h : List.Forall₂ (IsRadixDigit radix) cs.reverse values) :
      Spells radix cs (Nat.ofDigits radix values)

/-- A base is announced, and then a mark and digits of the base come that stand for the number. -/
inductive IsAnnounced (mark : List Char) : List Char → ℕ → Prop
  | intro {announcement digits : List Char} {radix n : ℕ}
      (h : (announcement, radix) ∈ announcements) (hdigits : Spells radix digits n) :
      IsAnnounced mark (announcement ++ (mark ++ digits)) n

/-- At least one digit stands before the exponent. -/
def HasDigit (parts : Token.NumberParts) : Prop :=
  parts.whole ≠ [] ∨ parts.fraction.drop 1 ≠ []

/-- The texts that are numbers and announce no base: the empty one, infinity, and decimals. -/
inductive IsPlain : List Char → Prop
  | empty : IsPlain []
  | infinity {sign : List Char} (hsign : sign ∈ signs) : IsPlain (sign ++ "Infinity".toList)
  | decimal {sign : List Char} (hsign : sign ∈ signs) {parts : Token.NumberParts}
      (hdigit : HasDigit parts) : IsPlain (sign ++ parts.text)

/-- The texts that are meant for numbers. -/
def IsNumeral (cs : List Char) : Prop := IsPlain cs ∨ ∃ n, IsAnnounced [] cs n

variable {cs digits : List Char} {radix n : ℕ}

/-- There are three ways to write a sign, one of them to write none. -/
theorem mem_signs_iff {sign : List Char} :
    sign ∈ signs ↔ sign = [] ∨ sign = ['+'] ∨ sign = ['-'] := by
  simp [signs]

/-! ### Digits of a base -/

/-- A digit of a base has the value that it is the digit of, in either case of letters. -/
theorem digitValue?_eq_some_iff {c : Char} {d : ℕ} (hd : d < 16) :
    digitValue? c = some d ↔ c.toLower = Nat.digitChar d := by
  rcases Nat.lt_or_ge c.toNat 128 with hlt | hge
  · have hall : ∀ n < 128, ∀ d < 16,
        digitValue? (Char.ofNat n) = some d ↔ (Char.ofNat n).toLower = Nat.digitChar d := by
      decide +kernel
    have hc := hall c.toNat hlt d hd
    rwa [Char.ofNat_toNat] at hc
  · have hgt (bound : UInt32) (hbound : bound.toNat < 128) : bound < c.val :=
      UInt32.lt_iff_toNat_lt.2 (hbound.trans_le hge)
    have hdigit : c.isDigit = false := by simp [Char.isDigit, hgt 57 (by decide)]
    have hlower : c.isLower = false := by simp [Char.isLower, hgt 122 (by decide)]
    have hupper : c.isUpper = false := by simp [Char.isUpper, hgt 90 (by decide)]
    have hnone : digitValue? c = none := by simp [digitValue?, hdigit, hlower, hupper]
    have hsmall : ∀ d < 16, (Nat.digitChar d).toNat < 128 := by decide
    rw [hnone, Char.toLower_eq_of_not_isUpper (by simp [hupper])]
    exact iff_of_false nofun fun hc ↦ absurd (hsmall d hd) (Nat.not_lt.2 (hc ▸ hge))

/-- A digit more multiplies by the base and adds the value of the digit. -/
theorem radixValue?_append_singleton (c : Char) :
    radixValue? radix (cs ++ [c]) = (radixValue? radix cs).bind fun n ↦
      (digitValue? c).bind fun d ↦ if d < radix then some (radix * n + d) else none := by
  simp only [radixValue?, List.foldlM_append, List.foldlM_cons, List.foldlM_nil, bind_pure]
  rfl

/-- **Digits of a base have a value**, and it is the number that they stand for. -/
theorem radixValue?_reverse_eq_some_iff (hradix : radix ≤ 16) (cs : List Char) (n : ℕ) :
    radixValue? radix cs.reverse = some n ↔
      ∃ values, List.Forall₂ (IsRadixDigit radix) cs values ∧ Nat.ofDigits radix values = n := by
  -- The induction takes off the last digit, which is what the value ends with.
  induction cs generalizing n with
  | nil =>
    constructor
    · intro h
      exact ⟨[], .nil, Option.some.inj h⟩
    · rintro ⟨_, ⟨⟩, rfl⟩
      rfl
  | cons c cs ih =>
    rw [List.reverse_cons, radixValue?_append_singleton]
    constructor
    · intro h
      obtain ⟨n, hn, h⟩ := Option.bind_eq_some_iff.1 h
      obtain ⟨d, hd, h⟩ := Option.bind_eq_some_iff.1 h
      obtain ⟨values, hvalues, rfl⟩ := (ih _).1 hn
      split at h
      · next hlt =>
        have hdigit := (digitValue?_eq_some_iff (hlt.trans_le hradix)).1 hd
        refine ⟨d :: values, .cons ⟨hlt, hdigit⟩ hvalues, ?_⟩
        rw [Nat.ofDigits_cons, ← Option.some.inj h, add_comm]
      · cases h
    · rintro ⟨all, hall, rfl⟩
      obtain ⟨d, values, ⟨hlt, hdigit⟩, hvalues, rfl⟩ := List.forall₂_cons_left_iff.1 hall
      rw [(ih _).2 ⟨values, hvalues, rfl⟩, Option.bind_some,
        (digitValue?_eq_some_iff (hlt.trans_le hradix)).2 hdigit, Option.bind_some, if_pos hlt,
        Nat.ofDigits_cons, add_comm]

/-- **Digits of a base are read as the number that they spell.** -/
theorem spells_iff (hradix : radix ≤ 16) :
    Spells radix cs n ↔ cs ≠ [] ∧ radixValue? radix cs = some n := by
  have hvalue := radixValue?_reverse_eq_some_iff hradix cs.reverse n
  rw [List.reverse_reverse] at hvalue
  rw [hvalue]
  constructor
  · rintro ⟨hne, h⟩
    exact ⟨hne, _, h, rfl⟩
  · rintro ⟨hne, values, h, rfl⟩
    exact .intro hne h

/-- A sign is no digit. -/
theorem not_spells_plus (hradix : radix ≤ 16) : ¬ Spells radix ('+' :: cs) n := by
  rw [spells_iff hradix]
  rintro ⟨-, h⟩
  cases h

/-! ### Announced bases -/

/-- No base is above sixteen. -/
theorem radix_le_of_mem {announcement : List Char} (h : (announcement, radix) ∈ announcements) :
    radix ≤ 16 := by
  have hall : ∀ p ∈ announcements, p.2 ≤ 16 := by decide
  exact hall _ h

/-- A base is split off exactly if it is announced. -/
theorem splitRadix?_eq_some_iff :
    splitRadix? cs = some (radix, digits) ↔
      ∃ announcement, (announcement, radix) ∈ announcements ∧ cs = announcement ++ digits := by
  constructor
  · intro h
    unfold splitRadix? at h
    split at h
    · iterate 3
        split at h
        · next hc =>
          cases h
          rcases hc with rfl | rfl <;> exact ⟨['0', _], by decide, rfl⟩
      cases h
    · cases h
  · rintro ⟨announcement, h, rfl⟩
    simp only [announcements, List.mem_cons, List.not_mem_nil, or_false, Prod.mk.injEq] at h
    rcases h with ⟨rfl, rfl⟩ | ⟨rfl, rfl⟩ | ⟨rfl, rfl⟩ | ⟨rfl, rfl⟩ | ⟨rfl, rfl⟩ | ⟨rfl, rfl⟩ <;>
      rfl

/-- What can stand between the announcement of a base and the digits when a number is read. -/
def marks : List (List Char) := [[], ['+']]

/-- The only mark behind an announcement is the plus. -/
theorem mem_marks_iff {mark : List Char} : mark ∈ marks ↔ mark = [] ∨ mark = ['+'] := by
  simp [marks]

/-- What announces a base is split into the base, the mark and the digits. -/
theorem isAnnounced_iff {mark : List Char} :
    IsAnnounced mark cs n ↔
      ∃ radix digits, splitRadix? cs = some (radix, mark ++ digits) ∧ Spells radix digits n := by
  constructor
  · rintro ⟨h, hdigits⟩
    exact ⟨_, _, splitRadix?_eq_some_iff.2 ⟨_, h, rfl⟩, hdigits⟩
  · rintro ⟨radix, digits, h, hdigits⟩
    obtain ⟨announcement, hmem, rfl⟩ := splitRadix?_eq_some_iff.1 h
    exact .intro hmem hdigits

/-- A whole number of a base is read with a plus sign before it or without one, and up to a
bound. -/
theorem readWhole?_eq_some_iff {bound : ℕ} (hradix : radix ≤ 16) :
    readWhole? radix bound cs = some n ↔
      n < bound ∧ ∃ mark ∈ marks, ∃ digits, cs = mark ++ digits ∧ Spells radix digits n := by
  have hdigits (digits : List Char) :
      (if digits.isEmpty then none else (radixValue? radix digits).filter (· < bound)) = some n ↔
        n < bound ∧ Spells radix digits n := by
    rw [spells_iff hradix]
    cases digits with
    | nil => exact iff_of_false nofun fun h ↦ h.2.1 rfl
    | cons c cs =>
      rw [List.isEmpty_cons, if_neg Bool.false_ne_true, Option.filter_eq_some_iff,
        decide_eq_true_eq, and_comm]
      exact and_congr_right fun _ ↦ (and_iff_right (List.cons_ne_nil c cs)).symm
  unfold readWhole?
  dsimp only
  split
  · next digits =>
    rw [hdigits]
    refine and_congr_right fun _ ↦ ⟨fun h ↦ ⟨['+'], by decide, digits, rfl, h⟩, ?_⟩
    rintro ⟨mark, hmark, digits', heq, h⟩
    rcases mem_marks_iff.1 hmark with rfl | rfl
    · have hdigits' : '+' :: digits = digits' := heq
      exact absurd (hdigits' ▸ h) (not_spells_plus hradix)
    · exact (List.cons.inj heq).2 ▸ h
  · next hplus =>
    rw [hdigits]
    refine and_congr_right fun _ ↦ ⟨fun h ↦ ⟨[], by decide, cs, rfl, h⟩, ?_⟩
    rintro ⟨mark, hmark, digits', rfl, h⟩
    rcases mem_marks_iff.1 hmark with rfl | rfl
    · exact h
    · exact absurd rfl (hplus digits')

/-- **What is read behind the announcement of a base.** -/
theorem exists_readWhole?_iff :
    (∃ radix rest, splitRadix? cs = some (radix, rest) ∧
        readWhole? radix wordBound rest = some n) ↔
      n < wordBound ∧ ∃ mark ∈ marks, IsAnnounced mark cs n := by
  constructor
  · rintro ⟨radix, rest, hsplit, hread⟩
    obtain ⟨announcement, hmem, -⟩ := splitRadix?_eq_some_iff.1 hsplit
    obtain ⟨hlt, mark, hmark, digits, rfl, hdigits⟩ :=
      (readWhole?_eq_some_iff (radix_le_of_mem hmem)).1 hread
    exact ⟨hlt, mark, hmark, isAnnounced_iff.2 ⟨radix, digits, hsplit, hdigits⟩⟩
  · rintro ⟨hlt, mark, hmark, h⟩
    obtain ⟨radix, digits, hsplit, hdigits⟩ := isAnnounced_iff.1 h
    obtain ⟨announcement, hmem, -⟩ := splitRadix?_eq_some_iff.1 hsplit
    exact ⟨radix, _, hsplit, (readWhole?_eq_some_iff (radix_le_of_mem hmem)).2
      ⟨hlt, mark, hmark, digits, rfl, hdigits⟩⟩

/-! ### Decimals -/

/-- A sign that is split off is one of the three. -/
theorem exists_sign (cs : List Char) : ∃ sign ∈ signs, cs = sign ++ (splitSign cs).2 := by
  unfold splitSign
  split
  · exact ⟨['-'], by decide, rfl⟩
  · exact ⟨['+'], by decide, rfl⟩
  · exact ⟨[], by decide, rfl⟩

/-- Where no other sign comes behind it, it is split off. -/
theorem splitSign_append {sign rest : List Char} (hsign : sign ∈ signs)
    (hrest : ∀ c ∈ rest.head?, ¬ Text.IsSign c) : (splitSign (sign ++ rest)).2 = rest := by
  rcases mem_signs_iff.1 hsign with rfl | rfl | rfl
  · rw [List.nil_append]
    unfold splitSign
    split
    · exact absurd (.inl rfl) (hrest '-' rfl)
    · exact absurd (.inr rfl) (hrest '+' rfl)
    · rfl
  · rfl
  · rfl

/-- An exponent is a sign, if any, and at least one digit. -/
theorem readExponent?_isSome_iff :
    (readExponent? cs).isSome ↔
      ∃ sign ∈ signs, ∃ digits, cs = sign ++ digits ∧ digits ≠ [] ∧ ∀ c ∈ digits, c.isDigit := by
  have hread : (readExponent? cs).isSome ↔
      (splitSign cs).2 ≠ [] ∧ ∀ c ∈ (splitSign cs).2, c.isDigit := by
    have hcondition (digits : List Char) : (digits.isEmpty || !digits.all Char.isDigit) = true ↔
        ¬ (digits ≠ [] ∧ ∀ c ∈ digits, c.isDigit) := by
      rw [Bool.or_eq_true, List.isEmpty_iff, Bool.not_eq_true', not_and_or, not_ne_iff,
        ← List.all_eq_true, Bool.not_eq_true]
    rw [readExponent?]
    generalize splitSign cs = parts
    obtain ⟨negative, digits⟩ := parts
    dsimp only
    split
    · next h => exact iff_of_false nofun ((hcondition digits).1 h)
    · next h => exact iff_of_true rfl (not_not.1 fun hnot ↦ h ((hcondition digits).2 hnot))
  rw [hread]
  constructor
  · rintro ⟨hne, hdigits⟩
    obtain ⟨sign, hsign, hcs⟩ := exists_sign cs
    exact ⟨sign, hsign, _, hcs, hne, hdigits⟩
  · rintro ⟨sign, hsign, digits, rfl, hne, hdigits⟩
    have hhead : ∀ c ∈ digits.head?, ¬ Text.IsSign c := fun c hc ↦
      not_isSign_of_isDigit (hdigits c (List.mem_of_mem_head? hc))
    rw [splitSign_append hsign hhead]
    exact ⟨hne, hdigits⟩

/-- What stands behind the digits of a decimal is an exponent. -/
theorem isExponent_iff :
    Token.IsExponent cs ↔
      cs = [] ∨ ∃ c ds, cs = c :: ds ∧ (c = 'e' ∨ c = 'E') ∧ (readExponent? ds).isSome := by
  simp only [readExponent?_isSome_iff]
  constructor
  · rintro (_ | ⟨hmark, hne, hdigits⟩)
    · exact .inl rfl
    · right
      have hmarks : ∀ mark ∈ Token.exponentMarks, ∃ c ∈ ['e', 'E'], ∃ sign ∈ signs,
          mark = c :: sign := by
        simp [Token.exponentMarks, signs]
      obtain ⟨c, hc, sign, hsign, rfl⟩ := hmarks _ hmark
      exact ⟨c, _, rfl, by simpa using hc, sign, hsign, _, rfl, hne, hdigits⟩
  · rintro (rfl | ⟨c, ds, rfl, hc, sign, hsign, digits, rfl, hne, hdigits⟩)
    · exact .none
    · have hmark : c :: sign ∈ Token.exponentMarks := by
        rcases hc with rfl | rfl <;> rcases mem_signs_iff.1 hsign with rfl | rfl | rfl <;> decide
      exact .digits hmark hne hdigits

/-- A power of ten is nothing, or the letter and an exponent. -/
theorem readPower?_isSome_iff (scaled : ℤ → Decimal) :
    (readPower? scaled cs).isSome ↔ Token.IsExponent cs := by
  rw [isExponent_iff]
  cases cs with
  | nil => exact iff_of_true rfl (.inl rfl)
  | cons c ds =>
    rw [readPower?]
    have hcons : (∃ c' ds', c :: ds = c' :: ds' ∧ (c' = 'e' ∨ c' = 'E') ∧
        (readExponent? ds').isSome) ↔ (c = 'e' ∨ c = 'E') ∧ (readExponent? ds).isSome := by
      constructor
      · rintro ⟨_, _, heq, h⟩
        cases heq
        exact h
      · exact fun h ↦ ⟨c, ds, rfl, h⟩
    rw [or_iff_right (List.cons_ne_nil c ds), hcons]
    split
    · next hc => rw [Option.isSome_map, and_iff_right hc]
    · next hc => exact iff_of_false Bool.false_ne_true fun h ↦ hc h.1

/-- **A decimal without a sign is read exactly if it has the parts of one, and a digit before the
exponent.** -/
theorem readUnsigned?_isSome_iff :
    (Decimal.readUnsigned? cs).isSome ↔ ∃ parts, HasDigit parts ∧ cs = parts.text := by
  have hdigit {whole digits : List Char} :
      ¬ (whole.isEmpty && digits.isEmpty) = true ↔ whole ≠ [] ∨ digits ≠ [] := by
    rw [Bool.and_eq_true, List.isEmpty_iff, List.isEmpty_iff, not_and_or]
  constructor
  · intro h
    obtain ⟨whole, rest, rfl, hwhole, hend⟩ := Token.exists_run Char.isDigit cs
    obtain ⟨fraction, rest, rfl, hfraction, hrest⟩ := Token.exists_fraction rest
    rw [readUnsigned?_append hwhole hend hfraction hrest] at h
    split at h
    · cases h
    · next hnonempty =>
      have hexponent := (readPower?_isSome_iff _).1 h
      exact ⟨⟨whole, fraction, rest, hwhole, hfraction, hexponent⟩, hdigit.1 hnonempty, rfl⟩
  · rintro ⟨parts, hparts, rfl⟩
    have hends : parts.EndsBefore [] := nofun
    have hend := hends.not_isDigit
    have hrest := hends.fractionEnds
    rw [List.append_nil] at hend hrest
    rw [Token.NumberParts.text, readUnsigned?_append parts.whole_digits hend parts.fraction_valid
      hrest, if_neg (hdigit.2 hparts)]
    exact (readPower?_isSome_iff _).2 parts.exponent_valid

/-- A decimal does not begin with a sign. -/
theorem head?_text (parts : Token.NumberParts) : ∀ c ∈ parts.text.head?, ¬ Text.IsSign c := by
  refine Token.forall_head?_append (fun c hc ↦ ?_) fun _ ↦
    Token.forall_head?_append (fun c hc ↦ ?_) fun _ c hc ↦ ?_
  · exact not_isSign_of_isDigit (parts.whole_digits c (List.mem_of_mem_head? hc))
  · rw [parts.fraction_valid.head? c hc]
    decide
  · rcases parts.exponent_valid.head? c hc with rfl | rfl <;> decide

/-- **The texts that are read as decimals** are the decimals with a sign or without one. -/
theorem read?_isSome_iff :
    (Decimal.read? cs).isSome ↔
      ∃ sign ∈ signs, ∃ parts, HasDigit parts ∧ cs = sign ++ parts.text := by
  have hread : (Decimal.read? cs).isSome ↔ (Decimal.readUnsigned? (splitSign cs).2).isSome := by
    rw [Decimal.read?]
    exact iff_of_eq (congrArg (· = true) Option.isSome_map)
  rw [hread, readUnsigned?_isSome_iff]
  constructor
  · rintro ⟨parts, hdigit, hparts⟩
    obtain ⟨sign, hsign, hcs⟩ := exists_sign cs
    exact ⟨sign, hsign, parts, hdigit, hparts ▸ hcs⟩
  · rintro ⟨sign, hsign, parts, hdigit, rfl⟩
    exact ⟨parts, hdigit, splitSign_append hsign (head?_text parts)⟩

end FeatureStyle.Numeric
