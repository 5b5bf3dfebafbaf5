import FeatureStyle.Proofs.Document.Reading
import FeatureStyle.Proofs.Numeric.RoundTrip

/-!
# Numbers of JSON documents

The number that is written in a document is a decimal (`JsonNumber.decimal`), and
`JsonNumber.nearest` is the double nearest to it. **Every finite double is written as a number that
it is nearest to** (`JsonText.exists_number_jsonText?`), and what is read ends where the number
ends.

For this a numeral may not begin with a zero that is followed by another digit. The only numerals
written that begin with a zero are those with a single digit before the point
(`Numeric.exists_numeral_jsonText?`).
-/

namespace FeatureStyle

open Float.Model.UnpackedFloat (Sign)

/-! ### What is written for a number -/

namespace Numeric

variable {x : Float} {cs : List Char} {c : Char}

/-- A zero is only in front of a numeral if there is no other digit before the point. -/
def Numeral.LeadsPlainly (n : Numeral) : Prop := n.whole.head? = some '0' → n.whole = ['0']

theorem head?_whole {n : Numeral} (h : n.text = c :: cs) : n.whole.head? = some c := by
  obtain ⟨d, ds, hwhole⟩ := List.exists_cons_of_ne_nil n.whole_ne
  rw [Numeral.text, hwhole, List.cons_append] at h
  rw [hwhole, List.head?_cons, (List.cons.inj h).1]

/-- A numeral that begins with another digit than zero leads plainly. -/
theorem leadsPlainly_of_ne {n : Numeral} (h : n.text = c :: cs) (hc : c ≠ '0') :
    n.LeadsPlainly := fun hzero ↦
  absurd (Option.some.inj ((head?_whole h).symm.trans hzero)) hc

/-- A numeral with a point behind its first digit leads plainly. -/
theorem leadsPlainly_of_point {n : Numeral} (h : n.text = '0' :: '.' :: cs) : n.LeadsPlainly := by
  intro hzero
  obtain ⟨d, ds, hwhole⟩ := List.exists_cons_of_ne_nil n.whole_ne
  rw [hwhole, List.head?_cons, Option.some.injEq] at hzero
  subst hzero
  have hdigits := n.whole_digits
  rw [Numeral.text, hwhole, List.cons_append] at h
  rw [hwhole] at hdigits ⊢
  cases ds with
  | nil => rfl
  | cons d ds =>
    obtain rfl : d = '.' := (List.cons.inj (List.cons.inj h).2).1
    exact absurd (hdigits '.' (List.mem_cons_of_mem _ List.mem_cons_self)) (by decide)

/-- The first digit of a positive number is not zero. -/
theorem exists_toDigits_eq_cons (n : ℕ) (hn : 0 < n) :
    ∃ c cs, Nat.toDigits 10 n = c :: cs ∧ c ≠ '0' := by
  induction n using Nat.strongRecOn with
  | ind n ih =>
    rcases lt_or_ge n 10 with hlt | hle
    · have hsmall : ∀ n < 10, 0 < n → Nat.digitChar n ≠ '0' := by decide
      exact ⟨_, [], Nat.toDigits_of_lt_base hlt, hsmall n hlt hn⟩
    · obtain ⟨c, cs, hdigits, hc⟩ := ih (n / 10) (by omega) (by omega)
      refine ⟨c, cs ++ [Nat.digitChar (n % 10)], ?_, hc⟩
      rw [Nat.toDigits_of_base_le (by decide) hle, hdigits, List.cons_append]

/-- Digits are laid out with their first one in front, or behind a zero and a point. -/
theorem layout_front (style : NumeralStyle) (e : ℤ) :
    (∃ rest, style.layout (c :: cs) e = '0' :: '.' :: rest) ∨
      ∃ rest, style.layout (c :: cs) e = c :: rest := by
  unfold NumeralStyle.layout
  split
  · split
    · exact .inl ⟨_, rfl⟩
    · dsimp only
      split
      · exact .inr ⟨_, rfl⟩
      · exact .inr ⟨_, rfl⟩
  · exact .inr ⟨_, rfl⟩

/-- A positive decimal leads plainly in every style. -/
theorem leadsPlainly_of_write {style : NumeralStyle} {d : Decimal} {n : Numeral}
    (hd : 0 < d.coefficient) (h : style.write d = n.text) : n.LeadsPlainly := by
  obtain ⟨c, cs, hdigits, hc⟩ := exists_toDigits_eq_cons d.coefficient hd
  rw [NumeralStyle.write, hdigits] at h
  rcases layout_front style (d.exponent + (c :: cs).length - 1) with ⟨rest, hfront⟩ | ⟨rest, hfront⟩
  · exact leadsPlainly_of_point (h.symm.trans hfront)
  · exact leadsPlainly_of_ne (h.symm.trans hfront) hc

/-- **In a JSON document a finite number is a numeral that leads plainly**, behind a sign if there
is one, and the number is the nearest one to it. -/
theorem exists_numeral_jsonText? (h : x.isFinite) :
    ∃ (text : String) (n : Numeral) (negative : Bool), jsonText? x = some text ∧
      text.toList = (if negative then ['-'] else []) ++ n.text ∧ n.LeadsPlainly ∧
        n.decimal.toFloat negative = x := by
  have hfinite : x.toModel.unpack.isFinite := h
  rcases hx : x.toModel.unpack with s | - | s | ⟨s, m, e, hm⟩
  · rw [hx] at hfinite
    cases hfinite
  · rw [hx] at hfinite
    cases hfinite
  · have hdigit : ∀ c ∈ ['0'], c.isDigit := List.forall_mem_singleton.2 rfl
    have hzero : Decimal.toFloat (s == .negative) ⟨0, -1⟩ = .ofModel (.pack (.zero s)) := by
      cases s <;> decide +kernel
    refine ⟨signText s ++ "0.0", ⟨['0'], ['0'], none, List.cons_ne_nil _ _, hdigit, hdigit⟩,
      s == .negative, ?_, ?_, fun _ ↦ rfl, ?_⟩
    · rw [jsonText?, hx]
    · cases s <;> rfl
    · refine hzero.trans (eq_of_unpack_eq ?_)
      exact Float.Model.UnpackedFloat.unpack_packedZero.trans hx.symm
  · have hcanonical := (isDouble_of_unpack hx).toIsCanonical
    have hcoarsest := isCoarsest_shortestDecimal NumeralStyle.json.tie hcanonical
    obtain ⟨n, htext, hread⟩ := exists_numeral_of_finite .json hx
    refine ⟨signText s ++ String.ofList n.text, n, s == .negative, ?_, ?_, ?_, hread⟩
    · rw [jsonText?, hx, ← htext]
      rfl
    · rw [String.toList_append, String.toList_ofList, toList_signText]
    · exact leadsPlainly_of_write (coefficient_pos hcanonical hcoarsest.multiple.attracts) htext

end Numeric

/-! ### What is read of a number -/

namespace JsonNumber

/-- The number as a decimal. -/
def decimal (n : JsonNumber) : Numeric.Decimal :=
  ⟨(n.whole ++ n.fraction).foldl (fun n d ↦ 10 * n + d) 0,
    n.exponent?.getD 0 - n.fraction.length⟩

/-- The double nearest to the number. -/
def nearest (n : JsonNumber) : Float := n.decimal.toFloat n.negative

end JsonNumber

namespace JsonText

open Numeric (Numeral pointed powerText digitsValue)

variable {cs rest : List Char}

/-- The number that a digit stands for. -/
def digitOf (c : Char) : Nat := c.toNat - 48

theorem foldl_digitOf (cs : List Char) :
    (cs.map digitOf).foldl (fun n d ↦ 10 * n + d) 0 = digitsValue cs := by
  rw [List.foldl_map]
  rfl

theorem eq_zero_of_digitOf {c : Char} (hc : c.isDigit) (h : digitOf c = 0) : c = '0' := by
  have hzero : '0'.val.toNat = 48 := rfl
  rw [digitOf, Char.toNat] at h
  simp only [Char.isDigit, Bool.and_eq_true, decide_eq_true_eq, UInt32.le_iff_toNat_le] at hc
  exact Char.ext (UInt32.toNat_inj.1 (by omega))

/-- What may come behind a number: nothing that a number could go on with. -/
def EndsNumber (rest : List Char) : Prop :=
  ∀ c ∈ rest.head?, ¬ (c.isDigit ∨ c = '.' ∨ c = 'e' ∨ c = 'E')

/-- Digits are read as far as they go. -/
theorem gives_someDigits (hne : cs ≠ []) (hcs : ∀ c ∈ cs, c.isDigit)
    (hrest : ∀ c ∈ rest.head?, ¬ c.isDigit) :
    (someDigits? (cs ++ rest)).Gives (cs.map digitOf) rest := by
  obtain ⟨c, cs, rfl⟩ := List.exists_cons_of_ne_nil hne
  obtain ⟨hc, hcs⟩ := List.forall_mem_cons.1 hcs
  obtain ⟨htake, hdrop⟩ := Numeric.span_digits hcs hrest
  have hread : someDigits? (c :: (cs ++ rest)) =
      some ((digits (cs ++ rest)).map (digitOf c :: ·)).behind := if_pos hc
  rw [List.cons_append, hread]
  refine ⟨by simp, ?_⟩
  simp only [digits, Text.takeWhile, Text.MaybeTaken.map, Text.MaybeTaken.behind, htake, hdrop]
  rfl

/-- A fraction is read, or its absence. -/
theorem fraction?_pointed (hcs : ∀ c ∈ cs, c.isDigit)
    (hrest : ∀ c ∈ rest.head?, ¬ c.isDigit ∧ c ≠ '.') :
    ∃ h, fraction? (pointed cs ++ rest) = some ⟨cs.map digitOf, rest, h⟩ := by
  cases cs with
  | nil =>
    have hpoint : ∀ c ∈ rest.head?, c ≠ '.' := fun c hc ↦ (hrest c hc).2
    refine ⟨le_refl _, ?_⟩
    show fraction? rest = _
    unfold fraction?
    split
    · exact absurd rfl (hpoint '.' rfl)
    · rfl
  | cons c cs =>
    obtain ⟨h, hdigits⟩ := gives_someDigits (List.cons_ne_nil c cs) hcs fun c hc ↦ (hrest c hc).1
    refine ⟨by simp [pointed]; omega, ?_⟩
    show (someDigits? (c :: cs ++ rest)).map _ = _
    rw [hdigits]
    rfl

/-- The exponent of a power of ten is read with its sign. -/
theorem gives_exponentDigits (e : ℤ) (hrest : ∀ c ∈ rest.head?, ¬ c.isDigit) :
    (exponentDigits? ((if e < 0 then '-' else '+') :: (Nat.toDigits 10 e.natAbs ++ rest))).Gives e
      rest := by
  obtain ⟨h, hdigits⟩ :=
    gives_someDigits Nat.toDigits_ne_nil (Numeric.isDigit_of_mem_toDigits (n := e.natAbs)) hrest
  have hvalue := foldl_digitOf (Nat.toDigits 10 e.natAbs)
  rw [Numeric.digitsValue_toDigits] at hvalue
  rcases lt_or_ge e 0 with he | he
  · rw [if_pos he]
    refine ⟨Nat.lt_succ_of_lt h, ?_⟩
    show (someDigits? _).map _ = _
    simp only [hdigits, Option.map_some, Text.Taken.map, Text.Taken.behind, hvalue,
      Option.some.injEq, Text.Taken.mk.injEq, and_true]
    omega
  · rw [if_neg (not_lt.2 he)]
    refine ⟨Nat.lt_succ_of_lt h, ?_⟩
    show (someDigits? _).map _ = _
    simp only [hdigits, Option.map_some, Text.Taken.map, Text.Taken.behind, hvalue,
      Option.some.injEq, Text.Taken.mk.injEq, and_true]
    omega

/-- A power of ten is read, or its absence. -/
theorem exponent?_power (power : Option ℤ) (hrest : EndsNumber rest) :
    ∃ h, exponent? (power.elim [] powerText ++ rest) = some ⟨power, rest, h⟩ := by
  cases power with
  | none =>
    cases rest with
    | nil => exact ⟨le_refl _, rfl⟩
    | cons c rest =>
      have hc := hrest c rfl
      exact ⟨le_refl _, if_neg fun he ↦ hc (.inr (.inr he))⟩
  | some e =>
    obtain ⟨h, hread⟩ := gives_exponentDigits e fun c hc hdigit ↦ hrest c hc (.inl hdigit)
    show ∃ h, exponent? ('e' :: (if e < 0 then '-' else '+') ::
      (Nat.toDigits 10 e.natAbs ++ rest)) = some ⟨some e, rest, h⟩
    refine ⟨(Nat.lt_succ_of_lt h).le, ?_⟩
    show (exponentDigits? _).map _ = _
    rw [hread]
    rfl

/-- The number with the digits of a numeral. -/
def ofNumeral (negative : Bool) (n : Numeral) : JsonNumber :=
  ⟨negative, n.whole.map digitOf, n.fraction.map digitOf, n.power⟩

theorem nearest_ofNumeral (negative : Bool) (n : Numeral) :
    (ofNumeral negative n).nearest = n.decimal.toFloat negative := by
  rw [JsonNumber.nearest, JsonNumber.decimal, ofNumeral, ← List.map_append, foldl_digitOf,
    List.length_map]
  rfl

/-- **A numeral is read as the number that it denotes**, if it leads plainly and ends there. -/
theorem gives_unsigned (negative : Bool) {n : Numeral} (hn : n.LeadsPlainly)
    (hrest : EndsNumber rest) :
    (unsigned? negative (n.text ++ rest)).Gives (ofNumeral negative n) rest := by
  have hpower : ∀ c ∈ (n.power.elim [] powerText ++ rest).head?, ¬ c.isDigit ∧ c ≠ '.' := by
    intro c hc
    cases hpower : n.power with
    | none =>
      rw [hpower] at hc
      exact ⟨fun hdigit ↦ hrest c hc (.inl hdigit), fun hpoint ↦ hrest c hc (.inr (.inl hpoint))⟩
    | some e =>
      rw [hpower] at hc
      cases Option.some.inj hc
      decide
  have hfraction : ∀ c ∈ (pointed n.fraction ++ (n.power.elim [] powerText ++ rest)).head?,
      ¬ c.isDigit := by
    intro c hc
    cases hfraction : n.fraction with
    | nil =>
      rw [hfraction] at hc
      exact (hpower c hc).1
    | cons d ds =>
      rw [hfraction] at hc
      cases Option.some.inj hc
      decide
  obtain ⟨h, hwhole⟩ := gives_someDigits n.whole_ne n.whole_digits hfraction
  obtain ⟨h', hread⟩ := fraction?_pointed n.fraction_digits hpower
  obtain ⟨h'', hread'⟩ := exponent?_power n.power hrest
  have hlead : ¬ ((n.whole.map digitOf).head? = some 0 ∧ (n.whole.map digitOf).length ≠ 1) := by
    rintro ⟨hzero, hlength⟩
    rw [List.head?_map, Option.map_eq_some_iff] at hzero
    obtain ⟨c, hc, hzero⟩ := hzero
    obtain rfl := eq_zero_of_digitOf (n.whole_digits c (List.mem_of_mem_head? hc)) hzero
    rw [hn hc] at hlength
    exact hlength rfl
  rw [Numeral.text, List.append_assoc, List.append_assoc]
  refine ⟨by omega, ?_⟩
  rw [unsigned?, hwhole]
  simp only [Option.bind_eq_bind, Option.bind_some, if_neg hlead, hread, hread', ofNumeral]

theorem number?_of_ne {c : Char} (hc : c ≠ '-') :
    number? (c :: cs) = unsigned? false (c :: cs) :=
  number?.eq_2 _ fun _ heq ↦ hc (List.cons.inj heq).1

/-- So is a numeral behind a sign. -/
theorem gives_signed (negative : Bool) {n : Numeral} (hn : n.LeadsPlainly)
    (hrest : EndsNumber rest) :
    (number? ((if negative then ['-'] else []) ++ n.text ++ rest)).Gives (ofNumeral negative n)
      rest := by
  have hunsigned := gives_unsigned negative hn hrest
  cases negative with
  | true =>
    obtain ⟨h, hunsigned⟩ := hunsigned
    refine ⟨Nat.lt_succ_of_lt h, ?_⟩
    show (unsigned? true (n.text ++ rest)).map _ = _
    rw [hunsigned]
    rfl
  | false =>
    obtain ⟨d, ds, hwhole⟩ := List.exists_cons_of_ne_nil n.whole_ne
    have hd := n.whole_digits d (hwhole ▸ List.mem_cons_self)
    have hne : d ≠ '-' := fun heq ↦ absurd (heq ▸ hd) (by decide)
    rw [Numeral.text, hwhole] at hunsigned ⊢
    exact (number?_of_ne hne).symm ▸ hunsigned

/-- A number begins with a sign or a digit. -/
theorem exists_eq_cons_of_number {n : JsonNumber} (h : (number? cs).Gives n rest) :
    ∃ c tail, cs = c :: tail ∧ (c = '-' ∨ c.isDigit) := by
  obtain ⟨_, h⟩ := h
  cases cs with
  | nil => cases h
  | cons c tail =>
    refine ⟨c, tail, rfl, or_iff_not_imp_left.2 fun hc ↦ ?_⟩
    by_contra hdigit
    have hnone : someDigits? (c :: tail) = none := if_neg hdigit
    rw [number?_of_ne hc, unsigned?, hnone] at h
    cases h

/-- **Every finite number comes back from what is written for it**, also a zero with its sign. -/
theorem exists_number_jsonText? {x : Float} (h : x.isFinite) (hrest : EndsNumber rest) :
    ∃ (text : String) (n : JsonNumber), Numeric.jsonText? x = some text ∧
      (number? (text.toList ++ rest)).Gives n rest ∧ n.nearest = x := by
  obtain ⟨text, n, negative, htext, hchars, hlead, hread⟩ := Numeric.exists_numeral_jsonText? h
  refine ⟨text, ofNumeral negative n, htext, ?_, (nearest_ofNumeral negative n).trans hread⟩
  rw [hchars]
  exact gives_signed negative hlead hrest

end JsonText

end FeatureStyle
