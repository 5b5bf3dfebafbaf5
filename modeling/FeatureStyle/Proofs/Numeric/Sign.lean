import FeatureStyle.Numeric.Language
import FeatureStyle.Proofs.Text.Sign

/-!
# Signs of numbers

The text of a number is the sign of the number, if it is negative, before a text that is fenced: the
only sign within is that of an exponent, and it stands between a letter and a digit. So **a number
that is not negative is written without a sign that could meet another one**, and no number is
written with two signs in a row (`Signed.fenced`, `Signed.signsApart`, `signed_constantText`,
`signed_componentConstantText`).

A numeral without a sign denotes no negative number (`isNegative_toFloat`).
-/

namespace FeatureStyle.Numeric

open Text

/-! ### Digits -/

theorem not_isSign_of_isDigit {c : Char} (h : c.isDigit) : ¬ IsSign c := by
  rintro (rfl | rfl) <;> simp at h

/-- There is no sign among the digits of a number. -/
theorem not_isSign_of_mem_toDigits {c : Char} {n : Nat} (h : c ∈ Nat.toDigits 10 n) :
    ¬ IsSign c :=
  not_isSign_of_isDigit (Nat.isDigit_of_mem_toDigits (by decide) (by decide) h)

/-- So digits are fenced. -/
theorem fenced_toDigits (n : Nat) : Fenced (Nat.toDigits 10 n) :=
  .of_forall_not Nat.toDigits_ne_nil fun _ ↦ not_isSign_of_mem_toDigits

/-- The sign of an exponent stands behind the letter and before digits. -/
theorem fenced_exponent {front : List Char} (e : Int) (hfront : ∀ c ∈ front, ¬ IsSign c) :
    Fenced (front ++ ['e', if e < 0 then '-' else '+'] ++ Nat.toDigits 10 e.natAbs) := by
  have hmark : Fenced (front ++ ['e']) := .of_forall_not (by simp) fun c hc ↦ by
    rcases List.mem_append.1 hc with hc | hc
    · exact hfront c hc
    · exact List.mem_singleton.1 hc ▸ by decide
  simpa using hmark.append_append (signsApart_singleton (if e < 0 then '-' else '+'))
    (fenced_toDigits e.natAbs)

/-- However digits are laid out, the only sign is that of an exponent. -/
theorem fenced_layout {style : NumeralStyle} {digits : List Char} (e : Int) (hne : digits ≠ [])
    (h : ∀ c ∈ digits, ¬ IsSign c) : Fenced (style.layout digits e) := by
  have hpoint : ¬ IsSign '.' := by decide
  have hzero : ¬ IsSign '0' := by decide
  rw [NumeralStyle.layout]
  split
  · split
    · refine .of_forall_not (by simp) fun c hc ↦ ?_
      simp only [List.mem_append, List.mem_cons, List.not_mem_nil, or_false,
        List.mem_replicate] at hc
      rcases hc with ((rfl | rfl) | ⟨-, rfl⟩) | hc
      · exact hzero
      · exact hpoint
      · exact hzero
      · exact h c hc
    · dsimp only
      split
      · refine .of_forall_not (by simp [hne]) fun c hc ↦ ?_
        simp only [List.mem_append, List.mem_replicate] at hc
        rcases hc with (hc | ⟨-, rfl⟩) | hc
        · exact h c hc
        · exact hzero
        · split at hc <;> simp at hc
          rcases hc with rfl | rfl
          · exact hpoint
          · exact hzero
      · refine .of_forall_not (by simp) fun c hc ↦ ?_
        simp only [List.mem_append, List.mem_cons] at hc
        rcases hc with hc | rfl | hc
        · exact h c (List.mem_of_mem_take hc)
        · exact hpoint
        · exact h c (List.mem_of_mem_drop hc)
  · have htake (c : Char) (hc : c ∈ digits.take 1) : ¬ IsSign c := h c (List.mem_of_mem_take hc)
    dsimp only
    split
    · exact fenced_exponent e (by simpa using htake)
    · refine fenced_exponent e fun c hc ↦ ?_
      simp only [List.mem_append, List.mem_cons] at hc
      rcases hc with hc | rfl | hc
      · exact htake c hc
      · exact hpoint
      · exact h c (List.mem_of_mem_drop hc)

/-- **A decimal is fenced in both styles**, scientific notation included. -/
theorem fenced_write (style : NumeralStyle) (d : Decimal) : Fenced (style.write d) :=
  fenced_layout _ Nat.toDigits_ne_nil fun _ ↦ not_isSign_of_mem_toDigits

/-! ### Texts of numbers -/

/-- A text is fenced, but for a minus at the front that it may have if the number is negative. -/
def Signed (negative : Bool) (text : String) : Prop :=
  ∃ cs, Fenced cs ∧ (text.toList = cs ∨ negative ∧ text.toList = '-' :: cs)

namespace Signed

variable {negative : Bool} {text : String}

/-- A fenced text is one of any number. -/
theorem of_fenced (h : Fenced text.toList) : Signed negative text := ⟨_, h, .inl rfl⟩

/-- **No two signs meet in the text of a number.** -/
theorem signsApart (h : Signed negative text) : SignsApart text.toList := by
  obtain ⟨cs, hcs, htext | ⟨-, htext⟩⟩ := h
  · exact htext ▸ hcs.apart
  · rw [htext, ← List.singleton_append, signsApart_append_of_head hcs.head]
    exact ⟨signsApart_singleton '-', hcs.apart⟩

/-- The text of a number that is not negative is fenced. -/
theorem fenced (h : Signed false text) : Fenced text.toList := by
  obtain ⟨cs, hcs, htext | ⟨⟨⟩, -⟩⟩ := h
  exact htext ▸ hcs

end Signed

theorem fenced_word {text : String} (h : text.toList ≠ [] ∧ ∀ c ∈ text.toList, ¬ IsSign c) :
    Fenced text.toList := .of_forall_not h.1 h.2

/-- A whole number has a minus if it is negative, and digits. -/
theorem signed_wholeText (negative : Bool) (n : Nat) : Signed negative (wholeText negative n) := by
  have hfenced : Fenced (Nat.toDigits 10 n ++ ['.', '0']) :=
    .of_forall_not (by simp) fun c hc ↦ by
      have hpoint : ∀ c ∈ ['.', '0'], ¬ IsSign c := by decide
      rcases List.mem_append.1 hc with hc | hc
      · exact not_isSign_of_mem_toDigits hc
      · exact hpoint c hc
  refine ⟨_, hfenced, ?_⟩
  cases negative with
  | false => exact .inl (by simp [wholeText])
  | true => exact .inr ⟨rfl, by simp [wholeText]⟩

/-- The sign is all that a fenced text may need before it. -/
theorem signed_signText (s : Float.Model.UnpackedFloat.Sign) {text : String}
    (h : Fenced text.toList) : Signed (s == .negative) (signText s ++ text) := by
  refine ⟨_, h, ?_⟩
  cases s with
  | negative => exact .inr ⟨rfl, String.toList_append⟩
  | positive => exact .inl String.toList_append

theorem fenced_ofList {cs : List Char} (h : Fenced cs) : Fenced (String.ofList cs).toList := by
  rwa [String.toList_ofList]

/-- **The text of a number begins with a minus only if the number is negative.** -/
theorem signed_numberText (x : Float) : Signed (isNegative x.toModel.unpack) (numberText x) := by
  rw [numberText]
  rcases x.toModel.unpack with s | - | s | ⟨s, m, e, -⟩
  · have hword : Fenced "Infinity".toList := fenced_word (by decide)
    exact signed_signText s hword
  · have hword : Fenced "NaN".toList := fenced_word (by decide)
    exact .of_fenced hword
  · have hword : Fenced "0".toList := fenced_word (by decide)
    exact .of_fenced hword
  · exact signed_signText s (fenced_ofList (fenced_write _ _))

/-- The same for a component. -/
theorem signed_componentText (x : Float32) :
    Signed (isNegative x.toModel.unpack) (componentText x) := by
  rw [componentText]
  rcases x.toModel.unpack with s | - | s | ⟨s, m, e, -⟩
  · have hword : Fenced "inf".toList := fenced_word (by decide)
    exact signed_signText s hword
  · have hword : Fenced "NaN".toList := fenced_word (by decide)
    exact .of_fenced hword
  · have hword : Fenced "0".toList := fenced_word (by decide)
    exact signed_signText s hword
  · exact signed_signText s (fenced_ofList (fenced_write _ _))

/-- **The constant of a number starts with a sign only if the number is negative**, and there is no
other sign that could meet one. -/
theorem signed_constantText (x : Float) :
    Signed (isNegative x.toModel.unpack) (constantText x) := by
  rw [constantText]
  split
  · exact signed_wholeText _ _
  · exact signed_numberText x

/-- And for the constant of a component, which may have a decimal point behind the text. -/
theorem signed_componentConstantText (x : Float32) :
    Signed (isNegative x.toModel.unpack) (componentConstantText x) := by
  rw [componentConstantText]
  split
  · exact signed_wholeText _ _
  · exact signed_componentText x

/-! ### Numerals -/

open Float.Model (Format UnpackedFloat)
open Float.Model.UnpackedFloat

/-- A packed number keeps its sign. -/
theorem unpackSign_packComponents {spec : Format} {s : Sign} {exponent : BitVec spec.exponentBits}
    {mantissa : BitVec spec.mantissaBitsWithoutImplicit} :
    unpackSign (packComponents spec s exponent mantissa) = s.toBitVec := by
  refine BitVec.eq_of_getLsbD_eq fun i hi ↦ ?_
  obtain rfl : i = 0 := by omega
  unfold unpackSign packComponents
  simp [BitVec.getLsbD_append, BitVec.getElem_append]

theorem isNegative_ite {c : Prop} [Decidable c] {x y : UnpackedFloat} (hx : isNegative x = false)
    (hy : isNegative y = false) : isNegative (if c then x else y) = false := by
  split
  · exact hx
  · exact hy

theorem isNegative_dite {c : Prop} [Decidable c] {x : c → UnpackedFloat} {y : ¬ c → UnpackedFloat}
    (hx : ∀ h, isNegative (x h) = false) (hy : ∀ h, isNegative (y h) = false) :
    isNegative (if h : c then x h else y h) = false := by
  split
  · exact hx _
  · exact hy _

/-- So what was packed as positive is not negative. -/
theorem isNegative_unpack_packComponents {spec : Format} {exponent : BitVec spec.exponentBits}
    {mantissa : BitVec spec.mantissaBitsWithoutImplicit} :
    isNegative (unpack spec (packComponents spec .positive exponent mantissa)) = false := by
  unfold unpack
  rw [unpackSign_packComponents]
  refine isNegative_ite (isNegative_ite rfl rfl) (isNegative_ite ?_ rfl)
  exact isNegative_dite (fun _ ↦ rfl) fun _ ↦ rfl

/-- What is packed without a sign has none. -/
theorem isNegative_unpack_pack {spec : Format} {u : UnpackedFloat} (h : isNegative u = false) :
    isNegative (unpack spec (pack spec u)) = false := by
  rcases u with s | - | s | ⟨s, m, e, hm⟩
  · cases s with
    | negative => cases h
    | positive => exact isNegative_unpack_packComponents
  · exact isNegative_unpack_packComponents
  · cases s with
    | negative => cases h
    | positive => exact isNegative_unpack_packComponents
  · cases s with
    | negative => cases h
    | positive =>
      unfold pack
      dsimp only
      split
      · exact isNegative_unpack_packComponents
      · split <;> exact isNegative_unpack_packComponents

/-- Rounding a positive number never makes it negative. -/
theorem isNegative_roundWithAccuracy (spec : Format) (m : Nat) (e : Int) (a : Accuracy) :
    isNegative (roundWithAccuracy spec .positive m e a) = false := by
  unfold roundWithAccuracy
  exact isNegative_dite (fun _ ↦ rfl) fun _ ↦ rfl

/-- **A decimal without a sign denotes no negative number.** -/
theorem isNegative_ofScientific (spec : Format) (m : Nat) (e : Int) :
    isNegative (ofScientific spec m e) = false := by
  unfold ofScientific
  refine isNegative_ite rfl (isNegative_ite rfl (isNegative_ite rfl (isNegative_ite ?_ ?_))) <;>
    exact isNegative_roundWithAccuracy _ _ _ _

/-- **A numeral without a sign denotes no negative number.** -/
theorem isNegative_toFloat (d : Decimal) : isNegative (d.toFloat false).toModel.unpack = false :=
  isNegative_unpack_pack (isNegative_ofScientific _ _ _)

/-- Only a numeral that starts with a minus is negative. -/
theorem negative_of_read? {cs : List Char} {negative : Bool} {d : Decimal}
    (h : Decimal.read? cs = some (negative, d)) (hcs : cs.head? ≠ some '-') : negative = false := by
  have hsign : (splitSign cs).1 = false := by
    unfold splitSign
    split
    · exact absurd rfl hcs
    · rfl
    · rfl
  rw [Decimal.read?] at h
  obtain ⟨_, -, heq⟩ := Option.map_eq_some_iff.1 h
  exact (Prod.mk.inj heq).1.symm.trans hsign

end FeatureStyle.Numeric
