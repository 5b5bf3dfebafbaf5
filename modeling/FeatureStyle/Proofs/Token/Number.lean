import FeatureStyle.Proofs.Token.Span

/-!
# Spellings of numbers

A number is spelled as digits, a point with digits behind it, and an exponent, each of which may be
missing (`NumberParts`). **A text is read as a number in front of whatever else there is exactly if
it is spelled in this way and the rest does not go on with it** (`numberLiteral_eq_ok_iff`). What
does not go on with a number (`NumberParts.EndsBefore`) shows in the first character alone.
-/

namespace FeatureStyle.Token

theorem forall_head?_append {p : Char → Prop} {cs rest : List Char} (hcs : ∀ c ∈ cs.head?, p c)
    (hrest : cs = [] → ∀ c ∈ rest.head?, p c) : ∀ c ∈ (cs ++ rest).head?, p c := by
  cases cs with
  | nil => exact hrest rfl
  | cons => exact hcs

/-! ### Fractions -/

/-- A point and digits, or nothing. -/
inductive IsFraction : List Char → Prop
  | none : IsFraction []
  | point {digits : List Char} (hdigits : ∀ c ∈ digits, c.isDigit) : IsFraction ('.' :: digits)

/-- A fraction begins with the point. -/
theorem IsFraction.head? {fraction : List Char} (h : IsFraction fraction) :
    ∀ c ∈ fraction.head?, c = '.' := by
  cases h with
  | none => exact nofun
  | point => exact fun c hc ↦ (Option.some.inj hc).symm

/-- The fraction goes on to where neither a digit nor the point of a fraction comes next. -/
def FractionEnds (fraction rest : List Char) : Prop :=
  ∀ c ∈ rest.head?, (c = '.' → fraction ≠ []) ∧ (c.isDigit → fraction = [])

theorem fractionPart_append {fraction rest : List Char} (h : IsFraction fraction)
    (hrest : FractionEnds fraction rest) : fractionPart (fraction ++ rest) = fraction := by
  cases h with
  | none =>
    rw [List.nil_append]
    unfold fractionPart
    split
    · exact absurd rfl ((hrest '.' rfl).1 rfl)
    · rfl
  | point hdigits =>
    have hend : ∀ c ∈ rest.head?, ¬ c.isDigit := by
      intro c hc hdigit
      cases (hrest c hc).2 hdigit
    rw [List.cons_append, fractionPart, takeWhile_append_of_head? hdigits hend]

theorem exists_fraction (cs : List Char) :
    ∃ fraction rest, cs = fraction ++ rest ∧ IsFraction fraction ∧ FractionEnds fraction rest := by
  by_cases hpoint : cs.head? = some '.'
  · obtain ⟨cs, rfl⟩ := List.head?_eq_some_iff.1 hpoint
    obtain ⟨digits, rest, rfl, hdigits, hend⟩ := exists_run Char.isDigit cs
    refine ⟨'.' :: digits, rest, rfl, .point hdigits, fun c hc ↦ ?_⟩
    exact ⟨fun _ ↦ List.cons_ne_nil _ _, fun hdigit ↦ absurd hdigit (hend c hc)⟩
  · refine ⟨[], cs, rfl, .none, fun c hc ↦ ⟨?_, fun _ ↦ rfl⟩⟩
    rintro rfl
    exact absurd hc hpoint

/-! ### Exponents -/

/-- What an exponent can begin with. -/
def exponentMarks : List (List Char) :=
  [['e'], ['E'], ['e', '+'], ['E', '+'], ['e', '-'], ['E', '-']]

/-- A mark and digits, of which there is at least one, or nothing. -/
inductive IsExponent : List Char → Prop
  | none : IsExponent []
  | digits {mark digits : List Char} (hmark : mark ∈ exponentMarks) (hne : digits ≠ [])
      (hdigits : ∀ c ∈ digits, c.isDigit) : IsExponent (mark ++ digits)

theorem exponentMark_append {mark digits : List Char} (hmark : mark ∈ exponentMarks)
    (hne : digits ≠ []) (hdigits : ∀ c ∈ digits, c.isDigit) (rest : List Char) :
    exponentMark (mark ++ (digits ++ rest)) = mark := by
  obtain ⟨d, digits, rfl⟩ := List.exists_cons_of_ne_nil hne
  have hsign : d ≠ '+' ∧ d ≠ '-' := by
    have hd := hdigits d List.mem_cons_self
    constructor <;> rintro rfl <;> cases hd
  simp only [exponentMarks, List.mem_cons, List.not_mem_nil, or_false] at hmark
  rcases hmark with rfl | rfl | rfl | rfl | rfl | rfl <;> simp [exponentMark, hsign]

/-- What a word cannot begin with is no exponent. -/
theorem exponentMark_eq_nil {rest : List Char} (hrest : ∀ c ∈ rest.head?, ¬ isIdentifierStart c) :
    exponentMark rest = [] := by
  cases rest with
  | nil => rfl
  | cons c rest =>
    have hc : ¬ (c = 'e' ∨ c = 'E') := by
      intro hc
      refine hrest c rfl ?_
      rcases hc with rfl | rfl <;> decide
    unfold exponentMark
    split <;> simp_all

theorem exists_exponentMark (cs : List Char) :
    ∃ mark rest, cs = mark ++ rest ∧ exponentMark cs = mark ∧
      (mark = [] ∨ mark ∈ exponentMarks) := by
  obtain ⟨rest, hrest⟩ := isPrefix_exponentMark cs
  refine ⟨exponentMark cs, rest, hrest.symm, rfl, ?_⟩
  unfold exponentMark
  split
  iterate 3
    split
    · next hc => rcases hc with rfl | rfl <;> exact .inr (by decide)
    · exact .inl rfl
  · exact .inl rfl

theorem isEmpty_of_mem_exponentMarks {mark : List Char} (h : mark ∈ exponentMarks) :
    mark.isEmpty = false := by
  revert mark
  decide

/-- The digits behind the mark of an exponent, if there is a mark. -/
def exponentDigits (mark after : List Char) : List Char :=
  if mark.isEmpty then [] else after.takeWhile Char.isDigit

theorem exponentDigits_append {mark digits rest : List Char} (hmark : mark ∈ exponentMarks)
    (hdigits : ∀ c ∈ digits, c.isDigit) (hrest : ∀ c ∈ rest.head?, ¬ c.isDigit) :
    exponentDigits mark (digits ++ rest) = digits := by
  rw [exponentDigits, isEmpty_of_mem_exponentMarks hmark]
  exact takeWhile_append_of_head? hdigits hrest

/-- An exponent begins with its mark. -/
theorem IsExponent.head? {exponent : List Char} (h : IsExponent exponent) :
    ∀ c ∈ exponent.head?, c = 'e' ∨ c = 'E' := by
  cases h with
  | none => exact nofun
  | digits hmark _ _ =>
    simp only [exponentMarks, List.mem_cons, List.not_mem_nil, or_false] at hmark
    rcases hmark with rfl | rfl | rfl | rfl | rfl | rfl <;> simp

/-! ### Numbers -/

/-- The parts that a number is spelled with. -/
structure NumberParts where
  whole : List Char
  fraction : List Char
  exponent : List Char
  whole_digits : ∀ c ∈ whole, c.isDigit
  fraction_valid : IsFraction fraction
  exponent_valid : IsExponent exponent

namespace NumberParts

def text (parts : NumberParts) : List Char := parts.whole ++ (parts.fraction ++ parts.exponent)

/-- The rest does not go on with the number, and no word comes directly behind it. -/
def EndsBefore (parts : NumberParts) (rest : List Char) : Prop :=
  ∀ c ∈ rest.head?, ¬ isIdentifierStart c ∧ ¬ c.isDigit ∧
    (c = '.' → parts.fraction ≠ [] ∨ parts.exponent ≠ [])

variable {parts : NumberParts} {rest : List Char}

/-- The fraction ends where the exponent begins or, if there is none, before the rest. -/
theorem EndsBefore.fractionEnds (h : parts.EndsBefore rest) :
    FractionEnds parts.fraction (parts.exponent ++ rest) := by
  refine forall_head?_append (fun c hc ↦ ?_) fun hexponent c hc ↦ ?_
  · have hmark := parts.exponent_valid.head? c hc
    rcases hmark with rfl | rfl <;> exact ⟨nofun, nofun⟩
  · obtain ⟨-, hdigit, hpoint⟩ := h c hc
    exact ⟨fun hc ↦ (hpoint hc).resolve_right (absurd hexponent), fun hc ↦ absurd hc hdigit⟩

/-- Behind the digits before the point comes no other. -/
theorem EndsBefore.not_isDigit (h : parts.EndsBefore rest) :
    ∀ c ∈ (parts.fraction ++ (parts.exponent ++ rest)).head?, ¬ c.isDigit := by
  refine forall_head?_append (fun c hc ↦ ?_) fun _ ↦ forall_head?_append (fun c hc ↦ ?_) ?_
  · have hpoint := parts.fraction_valid.head? c hc
    rw [hpoint]
    decide
  · have hmark := parts.exponent_valid.head? c hc
    rcases hmark with rfl | rfl <;> decide
  · exact fun _ c hc ↦ (h c hc).2.1

end NumberParts

/-- When a text is read as a number, in terms of the pieces that are read one after the other. -/
theorem numberLiteral_append_eq_ok_iff {whole fraction mark after literal : List Char}
    (hwhole : (whole ++ (fraction ++ (mark ++ after))).takeWhile Char.isDigit = whole)
    (hfraction : fractionPart (fraction ++ (mark ++ after)) = fraction)
    (hmark : exponentMark (mark ++ after) = mark) :
    numberLiteral (whole ++ (fraction ++ (mark ++ after))) = .ok literal ↔
      (mark ≠ [] → exponentDigits mark after ≠ []) ∧
        (∀ c ∈ (after.drop (exponentDigits mark after).length).head?, ¬ isIdentifierStart c) ∧
          whole ++ fraction ++ mark ++ exponentDigits mark after = literal := by
  have hmantissa : (whole ++ (fraction ++ (mark ++ after))).drop (whole ++ fraction).length =
      mark ++ after := by
    rw [← List.append_assoc, List.drop_left]
  have hafter : (whole ++ (fraction ++ (mark ++ after))).drop
      ((whole ++ fraction).length + mark.length) = after := by
    rw [← List.drop_drop, hmantissa, List.drop_left]
  have hend (exponent : List Char) : (whole ++ (fraction ++ (mark ++ after))).drop
      (whole ++ fraction ++ mark ++ exponent).length = after.drop exponent.length := by
    rw [List.length_append, ← List.drop_drop, List.length_append, hafter]
  unfold numberLiteral
  simp only [hwhole, List.drop_left, hfraction, hmantissa, hmark, hafter, hend]
  rw [← exponentDigits]
  split
  · next hmissing =>
    have hmissing : mark ≠ [] ∧ exponentDigits mark after = [] := by simpa using hmissing
    exact ⟨nofun, fun h ↦ absurd hmissing.2 (h.1 hmissing.1)⟩
  · next hpresent =>
    have hpresent : mark ≠ [] → exponentDigits mark after ≠ [] := by simpa using hpresent
    rw [and_iff_right hpresent]
    split
    · next c _ hdrop =>
      rw [hdrop]
      by_cases hc : isIdentifierStart c <;> simp [hc]
    · next hdrop =>
      rw [hdrop]
      simp

/-- What is read as a number is spelled as one. -/
theorem exists_numberParts {literal rest : List Char}
    (h : numberLiteral (literal ++ rest) = .ok literal) :
    ∃ parts : NumberParts, parts.text = literal ∧ parts.EndsBefore rest := by
  obtain ⟨whole, cs, hcs, hdigits, hdigit⟩ := exists_run Char.isDigit (literal ++ rest)
  obtain ⟨fraction, ds, rfl, hfraction, hends⟩ := exists_fraction cs
  obtain ⟨mark, after, rfl, hmark, hmem⟩ := exists_exponentMark ds
  rw [hcs, numberLiteral_append_eq_ok_iff (takeWhile_append_of_head? hdigits hdigit)
    (fractionPart_append hfraction hends) hmark] at h
  obtain ⟨hpresent, hstart, rfl⟩ := h
  rcases hmem with rfl | hmem
  · -- Without an exponent the number ends with its fraction.
    have hnone : exponentDigits [] after = [] := rfl
    simp only [hnone, List.append_nil, List.nil_append, List.append_assoc,
      List.append_cancel_left_eq, List.length_nil, List.drop_zero] at hcs hstart ⊢
    subst hcs
    have htext : whole ++ (fraction ++ []) = whole ++ fraction := by rw [List.append_nil]
    refine ⟨⟨whole, fraction, [], hdigits, hfraction, .none⟩, htext, fun c hc ↦ ?_⟩
    refine ⟨hstart c hc, fun hcdigit ↦ ?_, fun hpoint ↦ .inl ((hends c hc).1 hpoint)⟩
    obtain rfl := (hends c hc).2 hcdigit
    exact hdigit c hc hcdigit
  · obtain ⟨digits, after, rfl, hexponent, hend⟩ := exists_run Char.isDigit after
    have hmarked : mark ≠ [] := by
      rintro rfl
      cases isEmpty_of_mem_exponentMarks hmem
    rw [exponentDigits_append hmem hexponent hend] at hpresent hstart hcs ⊢
    simp only [List.append_assoc, List.append_cancel_left_eq, List.drop_left] at hcs hstart ⊢
    subst hcs
    have hvalid : IsExponent (mark ++ digits) := .digits hmem (hpresent hmarked) hexponent
    refine ⟨⟨whole, fraction, mark ++ digits, hdigits, hfraction, hvalid⟩, rfl, fun c hc ↦ ?_⟩
    have hne : mark ++ digits ≠ [] := List.append_ne_nil_of_left_ne_nil hmarked digits
    exact ⟨hstart c hc, hend c hc, fun _ ↦ .inr hne⟩

/-- What is spelled as a number is read as one. -/
theorem NumberParts.numberLiteral_eq (parts : NumberParts) {rest : List Char}
    (h : parts.EndsBefore rest) : numberLiteral (parts.text ++ rest) = .ok parts.text := by
  have hstart : ∀ c ∈ rest.head?, ¬ isIdentifierStart c := fun c hc ↦ (h c hc).1
  have hend : ∀ c ∈ rest.head?, ¬ c.isDigit := fun c hc ↦ (h c hc).2.1
  have hwhole := takeWhile_append_of_head? parts.whole_digits h.not_isDigit
  have hfraction := fractionPart_append parts.fraction_valid h.fractionEnds
  have hexponent := parts.exponent_valid
  rw [text, List.append_assoc, List.append_assoc]
  generalize parts.exponent = exponent at hwhole hfraction hexponent ⊢
  cases hexponent with
  | none =>
    have hmark : exponentMark ([] ++ rest) = [] := exponentMark_eq_nil hstart
    exact (numberLiteral_append_eq_ok_iff hwhole hfraction hmark).2
      ⟨absurd rfl, hstart, by simp [exponentDigits]⟩
  | @digits mark digits hmem hne hdigits =>
    have hmark := exponentMark_append hmem hne hdigits rest
    rw [List.append_assoc] at hwhole hfraction ⊢
    rw [numberLiteral_append_eq_ok_iff hwhole hfraction hmark,
      exponentDigits_append hmem hdigits hend, List.drop_left]
    exact ⟨fun _ ↦ hne, hstart, by simp⟩

/-- **The texts that are read as numbers are those that are spelled as numbers.** -/
theorem numberLiteral_eq_ok_iff {literal rest : List Char} :
    numberLiteral (literal ++ rest) = .ok literal ↔
      ∃ parts : NumberParts, parts.text = literal ∧ parts.EndsBefore rest := by
  refine ⟨exists_numberParts, ?_⟩
  rintro ⟨parts, rfl, hrest⟩
  exact parts.numberLiteral_eq hrest

end FeatureStyle.Token
