import FeatureStyle.Proofs.Eval.Result
import FeatureStyle.Proofs.Shader.Constant
import FeatureStyle.Proofs.Shader.Opacity
import Mathlib.Data.Set.List

/-!
# Colours of constant channels

A colour whose channels are all numbers is computed while its code is written, and it is computed
again when the expression is evaluated. **The two agree** (`emit_constantColor`): what is written is
a row of four constants, which are those of the channels of the value. Only `rgba` writes its alpha
channel as it is given, and looks at that number to find out whether the colour is translucent; the
others look at the alpha channel of the value.

Other colours are never written as a row of constants (`IsConstantRow`). Their code divides by the
largest byte or calls a function, and neither a stroke nor the letter `z` occurs in such a row.
-/

namespace FeatureStyle

namespace Numeric

/-! ### The constant one -/

/-- **Only the number one is written as the constant one.** -/
theorem constantText_eq_one_iff {x : Float} : constantText x = Shader.fullAlpha ↔ x = 1 := by
  refine ⟨eq_one_of_constantText, ?_⟩
  rintro rfl
  decide +kernel

/-- A component of one is written in the same way. -/
theorem componentConstantText_one : componentConstantText 1 = Shader.fullAlpha := by
  decide +kernel

/-- Against one, comparing doubles of half the width is comparing the numbers. -/
theorem bne_one_iff {x : Float32} : (x != 1) = true ↔ x ≠ 1 := by
  have hone : ((1 : Float32) == 1) = true := by decide +kernel
  rw [bne, Bool.not_eq_true', Bool.eq_false_iff]
  exact not_congr ⟨eq_one_of_beq, fun h ↦ h ▸ hone⟩

end Numeric

namespace Shader

open Numeric

/-! ### Rows of constants -/

/-- The text is a row of three components and an alpha channel, all of them constants. -/
def IsConstantRow (text : String) : Prop :=
  ∃ red green blue : Float32, ∃ alpha : String,
    ((∃ x, alpha = componentConstantText x) ∨ ∃ x, alpha = constantText x) ∧
      text = vec4Text ([red, green, blue].map componentConstantText ++ [alpha])

/-- The characters of constants, those of the words for NaN and infinity included, and of a row. -/
def IsRowChar (c : Char) : Prop :=
  IsNumeralChar c ∨ c ∈ ['N', 'a', 'I', 'n', 'f', 'i', 't', 'y'] ∨
    c ∈ ['v', 'e', 'c', '(', ',', ' ', ')']

instance : DecidablePred IsRowChar := fun _ ↦ inferInstanceAs (Decidable (_ ∨ _))

theorem isRowChar_of_all {text : String} (h : text.toList.all (IsRowChar ·)) :
    ∀ c ∈ text.toList, IsRowChar c :=
  fun c hc ↦ of_decide_eq_true (List.all_eq_true.1 h c hc)

theorem isRowChar_of_mem_signed (s : Float.Model.UnpackedFloat.Sign) {text : String}
    (h : ∀ c ∈ text.toList, IsRowChar c) : ∀ c ∈ (signText s ++ text).toList, IsRowChar c := by
  rw [String.toList_append]
  refine List.forall_mem_append.2 ⟨?_, h⟩
  cases s <;> exact isRowChar_of_all rfl

/-- A numeral is made of characters of a row in both styles. -/
theorem isRowChar_of_mem_write (style : NumeralStyle) (d : Decimal) :
    ∀ c ∈ (String.ofList (style.write d)).toList, IsRowChar c := by
  obtain ⟨n, htext, -⟩ := writes_write style d
  rw [String.toList_ofList, htext]
  exact fun c hc ↦ .inl (n.isNumeralChar_of_mem c hc)

/-- So is a whole number. -/
theorem isRowChar_of_mem_wholeText (negative : Bool) (n : ℕ) :
    ∀ c ∈ (wholeText negative n).toList, IsRowChar c := by
  rw [wholeText, String.toList_append, String.toList_append, String.toList_ofList]
  refine List.forall_mem_append.2 ⟨List.forall_mem_append.2 ⟨?_, fun c hc ↦ ?_⟩,
    isRowChar_of_all rfl⟩
  · cases negative <;> exact isRowChar_of_all rfl
  · exact .inl (.inl (isDigit_of_mem_toDigits c hc))

/-- **A constant is made of characters of a row**, also if it is no numeral. -/
theorem isRowChar_of_mem_constantText (x : Float) :
    ∀ c ∈ (constantText x).toList, IsRowChar c := by
  rw [constantText]
  split
  · exact isRowChar_of_mem_wholeText _ _
  · rw [numberText]
    split
    · exact isRowChar_of_all rfl
    · exact isRowChar_of_mem_signed _ (isRowChar_of_all rfl)
    · exact isRowChar_of_all rfl
    · exact isRowChar_of_mem_signed _ (isRowChar_of_mem_write _ _)

/-- The same for a component. -/
theorem isRowChar_of_mem_componentConstantText (x : Float32) :
    ∀ c ∈ (componentConstantText x).toList, IsRowChar c := by
  rw [componentConstantText]
  split
  · exact isRowChar_of_mem_wholeText _ _
  · rw [componentText]
    split
    · exact isRowChar_of_all rfl
    · exact isRowChar_of_mem_signed _ (isRowChar_of_all rfl)
    · exact isRowChar_of_mem_signed _ (isRowChar_of_all rfl)
    · exact isRowChar_of_mem_signed _ (isRowChar_of_mem_write _ _)

/-- A row of constants has no other characters. -/
theorem IsConstantRow.isRowChar {text : String} (h : IsConstantRow text) :
    ∀ c ∈ text.toList, IsRowChar c := by
  obtain ⟨red, green, blue, alpha, halpha, rfl⟩ := h
  have halpha : ∀ c ∈ alpha.toList, IsRowChar c := by
    rcases halpha with ⟨x, rfl⟩ | ⟨x, rfl⟩
    · exact isRowChar_of_mem_componentConstantText x
    · exact isRowChar_of_mem_constantText x
  have hseparator : ∀ c ∈ ", ".toList, IsRowChar c := isRowChar_of_all rfl
  simp only [vec4Text, callText, List.map_cons, List.map_nil, List.cons_append, List.nil_append,
    String.intercalate_cons_cons, String.intercalate_singleton, String.toList_append,
    List.forall_mem_append]
  exact ⟨⟨⟨isRowChar_of_all rfl, isRowChar_of_all rfl⟩,
    ⟨isRowChar_of_mem_componentConstantText red, hseparator⟩,
    ⟨isRowChar_of_mem_componentConstantText green, hseparator⟩,
    ⟨isRowChar_of_mem_componentConstantText blue, hseparator⟩, halpha⟩, isRowChar_of_all rfl⟩

end Shader

namespace Expr

open Emission Fragment Numeric Shader

variable {lead : String} {f : ChannelFn} {args : List Expr} {numbers : List Float}
  {t : SyntaxTree} {e : Expr}

/-! ### Colours that are not constant -/

/-- The code of a colour with another channel divides by the largest byte or calls a function. -/
theorem not_isConstantRow_of_channelsLayout {text : String} (hnone : constantChannels? args = none)
    (hwrite : writeAll lead (channelsLayout f args) = some text) : ¬ IsConstantRow text := by
  intro hrow
  rw [channelsLayout, hnone] at hwrite
  cases f with
  | rgb | rgba =>
    have hstroke := mem_of_writeAll hwrite (t := " / 255.0") (c := '/')
      (by simp [Fragment.call, List.intercalate]) (by decide)
    exact absurd (hrow.isRowChar '/' hstroke) (by decide)
  | hsl | hsla =>
    have hletter := mem_of_writeAll hwrite (t := "czm_HSLToRGB(") (c := 'z')
      (by simp [Fragment.call, List.intercalate]) (by decide)
    exact absurd (hrow.isRowChar 'z' hletter) (by decide)

/-! ### The value of a constant colour -/

/-- Evaluating numbers takes as many channels as are asked for. -/
theorem run_evalChannels_numbers (s : Subject) (n : ℕ) :
    (evalChannels n (numbers.map number)).run.run s = .ok (numbers.take n) := by
  induction numbers generalizing n with
  | nil => cases n <;> rfl
  | cons x numbers ih =>
    cases n with
    | zero => rfl
    | succ n =>
      rw [List.map_cons, evalChannels, (hasValue_number x).run_bind, run_bind_of_ok (ih n)]
      rfl

/-- **A colour of numbers has the value its function makes of them**, whatever the subject says. -/
theorem hasValue_channels (hlength : numbers.length ≤ 4) (s : Subject) :
    HasValue s (color (.channels f) (numbers.map number)) (.color (f.apply numbers)) := by
  rw [hasValue_iff, eval, run_bind_of_ok (run_evalChannels_numbers s 4),
    List.take_of_length_le hlength]
  rfl

/-! ### The code of a constant colour -/

/-- An opaque colour of constants has the red, green and blue of the value, with or without an alpha
channel. -/
theorem rgbTexts_constantRgb (numbers : List Float) :
    rgbTexts (constantRgb numbers) = rgbTexts (ChannelFn.rgb.apply numbers) ∧
      rgbTexts (constantRgb numbers) = rgbTexts (ChannelFn.rgba.apply numbers) :=
  ⟨rfl, rfl⟩

/-- Without its own alpha channel a colour of three constants is the value, whose fourth channel is
missing. -/
theorem constantHsl_false (hlength : numbers.length = 3) :
    constantHsl false numbers = ChannelFn.hsl.apply numbers := by
  have hfourth : numbers.getD 3 1 = 1 := by
    rw [List.getD_eq_getElem?_getD, List.getElem?_eq_none hlength.le, Option.getD_none]
  rw [constantHsl, if_neg Bool.false_ne_true, ChannelFn.apply, hfourth]

/-- With its own alpha channel a colour of constants is the value. -/
theorem constantHsl_true (numbers : List Float) :
    constantHsl true numbers = ChannelFn.hsla.apply numbers := rfl

/-- Numbers are found to be constant channels, none of which is dropped. -/
theorem constantChannels?_numbers (hadmits : (colorArity (.channels f)).admits numbers.length) :
    constantChannels? (numbers.map number) = some numbers := by
  have hfour := le_four_of_admits hadmits
  have hthree : 3 ≤ numbers.length := by
    cases f <;> simp [colorArity, Arity.admits] at hadmits <;> omega
  rw [constantChannels?, List.length_map, if_pos hthree,
    List.take_of_length_le (by rwa [List.length_map]), mapM_eq_some_iff, map_literalNumber?_eq_iff]

/-- Numbers are written as constants, and leave the flag alone. -/
theorem run_emitAll_numbers (before : ShaderState) :
    (emitAll lead (numbers.map number)).run.run before =
      (.ok (numbers.map constantText), before) := by
  induction numbers with
  | nil => rfl
  | cons x numbers ih =>
    rw [List.map_cons, emitAll, run_bind, run_emit_number]
    dsimp only
    rw [run_bind, ih]
    rfl

/-- The flag is raised for the constant of every number but one. -/
theorem run_markAlpha (x : Float) (before : ShaderState) :
    (markAlpha (constantText x)).run.run before =
      (.ok (), ⟨before.translucent || decide (x ≠ 1)⟩) := by
  rw [markAlpha]
  by_cases hone : x = 1
  · rw [if_pos (constantText_eq_one_iff.2 hone), decide_eq_false (not_not.2 hone), Bool.or_false]
    rfl
  · rw [if_neg (mt constantText_eq_one_iff.1 hone), decide_eq_true hone, Bool.or_true]
    rfl

/-- The colour of constants is written as a row, and the flag looks at its own alpha channel. -/
theorem run_hslText {hasAlpha : Bool} (hconstants : constantChannels? args = some numbers)
    (channels : List String) (before : ShaderState) :
    let c := constantHsl hasAlpha numbers
    (hslText hasAlpha args channels).run.run before =
      (.ok (vec4Text (rgbTexts c ++ [componentConstantText c.alpha])),
        ⟨before.translucent || decide (c.alpha ≠ 1)⟩) := by
  intro c
  rw [hslText, hconstants]
  by_cases hone : c.alpha = 1
  · rw [decide_eq_false (not_not.2 hone), Bool.or_false]
    dsimp only
    rw [if_neg (mt bne_one_iff.1 (not_not.2 hone))]
    rfl
  · rw [decide_eq_true hone, Bool.or_true]
    dsimp only
    rw [if_pos (bne_one_iff.2 hone)]
    rfl

/-- `rgb` has no alpha channel of its own, and its colours are opaque. -/
theorem run_rgbText_opaque (hconstants : constantChannels? args = some numbers)
    (channels : List String) (before : ShaderState) :
    (rgbText false args channels).run.run before =
      (.ok (vec4Text (rgbTexts (constantRgb numbers) ++ [fullAlpha])), before) := by
  rw [rgbText, hconstants]
  rfl

/-- The alpha channel of `rgba` is written as it is given, and the flag looks at that number. -/
theorem run_rgbText_alpha {r g b a : Float} (before : ShaderState) :
    (rgbText true ([r, g, b, a].map number) ([r, g, b, a].map constantText)).run.run before =
      (.ok (vec4Text (rgbTexts (constantRgb [r, g, b, a]) ++ [constantText a])),
        ⟨before.translucent || decide (a ≠ 1)⟩) := by
  have hconstants : constantChannels? ([r, g, b, a].map number) = some [r, g, b, a] := rfl
  rw [rgbText, hconstants]
  dsimp only
  rw [if_pos rfl, run_bind]
  have hfourth : ([r, g, b, a].map constantText).getD 3 fullAlpha = constantText a := rfl
  rw [hfourth, run_markAlpha]
  rfl

/-- The row of a colour whose alpha channel is written as the given text. -/
theorem isConstantRow_vec4Text (c : Color) {alpha : String}
    (halpha : (∃ x, alpha = componentConstantText x) ∨ ∃ x, alpha = constantText x) :
    IsConstantRow (vec4Text (rgbTexts c ++ [alpha])) :=
  ⟨c.red, c.green, c.blue, alpha, halpha, rfl⟩

/-- A colour of numbers is written from the constants of these numbers. -/
theorem run_emit_channels (before : ShaderState) :
    ((color (.channels f) (numbers.map number)).emit lead).run.run before =
      (channelsText f (numbers.map number) (numbers.map constantText)).run.run before := by
  rw [emit, run_bind, run_emitAll_numbers]

/-- **All functions but `rgba` write the components of the value**, its alpha channel included. -/
theorem emit_numbers (hadmits : (colorArity (.channels f)).admits numbers.length)
    (hf : f ≠ .rgba) (before : ShaderState) :
    let c := f.apply numbers
    ((color (.channels f) (numbers.map number)).emit lead).run.run before =
      (.ok (vec4Text (rgbTexts c ++ [componentConstantText c.alpha])),
        ⟨before.translucent || decide (c.alpha ≠ 1)⟩) := by
  intro c
  have hconstants := constantChannels?_numbers hadmits
  rw [run_emit_channels]
  cases f with
  | rgba => exact absurd rfl hf
  | rgb =>
    obtain ⟨r, g, b, rfl⟩ := List.length_eq_three.1 (beq_iff_eq.1 hadmits)
    have hfourth : [r, g, b].getD 3 1 = 1 := rfl
    have hopaque : c.alpha = 1 := alpha_apply hfourth
    rw [channelsText, run_rgbText_opaque hconstants, (rgbTexts_constantRgb _).1, hopaque,
      componentConstantText_one, decide_eq_false (not_not.2 rfl), Bool.or_false]
  | hsl =>
    rw [channelsText, run_hslText hconstants, constantHsl_false (beq_iff_eq.1 hadmits)]
  | hsla => rw [channelsText, run_hslText hconstants, constantHsl_true]

/-- **`rgba` writes the components of the value and the alpha channel that is given.** -/
theorem emit_numbers_rgba (r g b a : Float) (before : ShaderState) :
    let c := ChannelFn.rgba.apply [r, g, b, a]
    ((color (.channels .rgba) ([r, g, b, a].map number)).emit lead).run.run before =
      (.ok (vec4Text (rgbTexts c ++ [constantText a])),
        ⟨before.translucent || decide (a ≠ 1)⟩) := by
  rw [run_emit_channels, channelsText, run_rgbText_alpha, (rgbTexts_constantRgb _).2]

/-! ### Agreement -/

/-- A colour of numbers is written as a row of constants, whatever the function is. -/
theorem exists_isConstantRow (hadmits : (colorArity (.channels f)).admits numbers.length)
    (before : ShaderState) :
    ∃ text after, ((color (.channels f) (numbers.map number)).emit lead).run.run before =
      (.ok text, after) ∧ IsConstantRow text := by
  by_cases hf : f = .rgba
  · subst hf
    obtain ⟨r, g, b, a, rfl⟩ := exists_of_length_eq_four (beq_iff_eq.1 hadmits)
    exact ⟨_, _, emit_numbers_rgba r g b a before, isConstantRow_vec4Text _ (.inr ⟨a, rfl⟩)⟩
  · exact ⟨_, _, emit_numbers hadmits hf before, isConstantRow_vec4Text _ (.inl ⟨_, rfl⟩)⟩

/-- **The code of a colour of constant channels agrees with its value.**

* A colour is written as a row of constants exactly if all of its arguments are numbers.
* Then it has a value, the same one for every subject, and the red, green and blue constants are
  those of the value.
* But for `rgba`, so is the fourth constant, and the flag is raised exactly if the alpha channel of
  the value is not one.
* `rgba` writes the number of its last argument, and raises the flag exactly if that is not one. -/
theorem emit_constantColor (htree : ofTree t = .ok e) (hs : Within (color (.channels f) args) e)
    (lead : String) :
    (∀ before, (∃ text after,
        ((color (.channels f) args).emit lead).run.run before = (.ok text, after) ∧
          IsConstantRow text) ↔ ∀ a ∈ args, a ∈ Set.range number) ∧
      ((∀ a ∈ args, a ∈ Set.range number) → ∃ c : Color,
        (∀ s, HasValue s (color (.channels f) args) (.color c)) ∧
        (f ≠ .rgba → ∀ before,
          ((color (.channels f) args).emit lead).run.run before =
            (.ok (vec4Text (rgbTexts c ++ [componentConstantText c.alpha])),
              ⟨before.translucent || decide (c.alpha ≠ 1)⟩)) ∧
        (f = .rgba → ∃ x, args[3]? = some (number x) ∧ ∀ before,
          ((color (.channels f) args).emit lead).run.run before =
            (.ok (vec4Text (rgbTexts c ++ [constantText x])),
              ⟨before.translucent || decide (x ≠ 1)⟩))) := by
  have hadmits := admits_of_within_tree htree hs
  have hnumbers (hall : ∀ a ∈ args, a ∈ Set.range number) :
      ∃ numbers : List Float, numbers.map number = args := by
    have hrange : args ∈ Set.range (List.map number) := by rwa [Set.range_list_map]
    exact hrange
  refine ⟨fun before ↦ ⟨?_, fun hall ↦ ?_⟩, fun hall ↦ ?_⟩
  · rintro ⟨text, after, hrun, hrow⟩
    have hcode := code?_of_emit hrun
    rw [code?_color_channels f args hadmits] at hcode
    rcases hconstants : constantChannels? args with - | constants
    · exact absurd hrow (not_isConstantRow_of_channelsLayout hconstants hcode)
    · obtain rfl := eq_map_number_of_constantChannels (le_four_of_admits hadmits) hconstants
      exact List.forall_mem_map.2 fun x _ ↦ ⟨x, rfl⟩
  · obtain ⟨numbers, rfl⟩ := hnumbers hall
    rw [List.length_map] at hadmits
    exact exists_isConstantRow hadmits before
  · obtain ⟨numbers, rfl⟩ := hnumbers hall
    rw [List.length_map] at hadmits
    refine ⟨f.apply numbers, hasValue_channels (le_four_of_admits hadmits), emit_numbers hadmits,
      ?_⟩
    rintro rfl
    obtain ⟨r, g, b, a, rfl⟩ := exists_of_length_eq_four (beq_iff_eq.1 hadmits)
    exact ⟨a, rfl, emit_numbers_rgba r g b a⟩

/-- A translucent cyan, of a hue of half a turn. -/
theorem emit_constantColor_cyan :
    let e := color (.channels .hsla) ([0.5, 1, 0.5, 0.25].map number)
    ofTree (.call (.identifier "hsla")
        ([0.5, 1, 0.5, 0.25].map fun x ↦ .literal (.number x))) = .ok e ∧
      ∃ c : Color, (∀ s, HasValue s e (.color c)) ∧ c.alpha ≠ 1 ∧
        rgbTexts c ++ [componentConstantText c.alpha] = ["0.0", "1.0", "1.0", "0.25"] ∧
        (e.emit "a_").run.run ⟨false⟩ = (.ok (vec4Text ["0.0", "1.0", "1.0", "0.25"]), ⟨true⟩) := by
  intro e
  have htree : ofTree (.call (.identifier "hsla")
      ([0.5, 1, 0.5, 0.25].map fun x ↦ .literal (.number x))) = .ok e := by
    with_unfolding_all rfl
  obtain ⟨-, hagree⟩ := emit_constantColor htree (.refl e) "a_"
  obtain ⟨c, hvalue, hrun, -⟩ := hagree (List.forall_mem_map.2 fun x _ ↦ ⟨x, rfl⟩)
  -- The value is known, so what the theorem says of it can be computed.
  have hc : c = ChannelFn.hsla.apply [0.5, 1, 0.5, 0.25] := by
    have happly (s : Subject) : HasValue s e (.color (ChannelFn.hsla.apply [0.5, 1, 0.5, 0.25])) :=
      hasValue_channels (by decide) s
    let s : Subject := .ofProperty fun _ ↦ none
    cases (hasValue_iff.1 (hvalue s)).symm.trans (hasValue_iff.1 (happly s))
    rfl
  have halpha : c.alpha ≠ 1 := by
    rw [hc]
    decide +kernel
  have htexts : rgbTexts c ++ [componentConstantText c.alpha] = ["0.0", "1.0", "1.0", "0.25"] := by
    rw [hc]
    decide +kernel
  refine ⟨htree, c, hvalue, halpha, htexts, ?_⟩
  rw [hrun (by decide) ⟨false⟩, htexts, decide_eq_true halpha]
  rfl

end Expr

end FeatureStyle
