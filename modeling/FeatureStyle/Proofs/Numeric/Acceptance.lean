import FeatureStyle.Proofs.Numeric.Grammar

/-!
# The texts that are read as numbers

**Which texts are read as numbers** (`isNaN_readTrimmed_iff`): the empty one, infinity and decimals,
all with a sign or without one, and announced bases with a whole number that fits into 64 bits. A
plus sign may stand between the announcement and the digits. A number with an announced base is read
as the nearest double (`isNearest_readTrimmed`).

In the grammar of numbers there is neither that plus sign nor that bound. So **the texts are read as
they are meant except where one of the two shows** (`readNumber_grammar`).
-/

namespace FeatureStyle.Numeric

variable {cs : List Char} {n : ℕ} {mark : List Char}

/-! ### Outcomes that are numbers -/

theorem isNaN_neg (x : Float) : (-x).isNaN = x.isNaN := by
  show (-x).toModel.unpack.isNaN = x.toModel.unpack.isNaN
  rw [unpack_neg]
  cases x.toModel.unpack <;> rfl

/-- A decimal is always read as a number. -/
theorem isNaN_toFloat (negative : Bool) (d : Decimal) : (d.toFloat negative).isNaN = false := by
  have hpositive := (isNearest_toFloat d).isNaN_eq_false
  cases negative with
  | false => exact hpositive
  | true => exact (isNaN_neg _).trans hpositive

/-! ### Texts that announce no base -/

/-- The words for infinity. -/
theorem mem_signs_infinity_iff :
    (∃ sign ∈ signs, cs = sign ++ "Infinity".toList) ↔
      (cs = "Infinity".toList ∨ cs = "+Infinity".toList) ∨ cs = "-Infinity".toList := by
  simp [signs, or_assoc]

theorem isPlain_iff :
    IsPlain cs ↔ cs = [] ∨ (∃ sign ∈ signs, cs = sign ++ "Infinity".toList) ∨
      (Decimal.read? cs).isSome := by
  rw [read?_isSome_iff]
  constructor
  · rintro (_ | hsign | ⟨hsign, hdigit⟩)
    · exact .inl rfl
    · exact .inr (.inl ⟨_, hsign, rfl⟩)
    · exact .inr (.inr ⟨_, hsign, _, hdigit, rfl⟩)
  · rintro (rfl | ⟨sign, hsign, rfl⟩ | ⟨sign, hsign, parts, hdigit, rfl⟩)
    · exact .empty
    · exact .infinity hsign
    · exact .decimal hsign hdigit

/-- What announces a base is no decimal: behind the zero there is a letter. -/
theorem splitRadix?_eq_none_of_read? (h : (Decimal.read? cs).isSome) : splitRadix? cs = none := by
  by_contra hne
  obtain ⟨⟨radix, digits⟩, hsplit⟩ := Option.ne_none_iff_exists'.1 hne
  obtain ⟨announcement, hmem, rfl⟩ := splitRadix?_eq_some_iff.1 hsplit
  simp only [announcements, List.mem_cons, List.not_mem_nil, or_false, Prod.mk.injEq] at hmem
  rcases hmem with ⟨rfl, -⟩ | ⟨rfl, -⟩ | ⟨rfl, -⟩ | ⟨rfl, -⟩ | ⟨rfl, -⟩ | ⟨rfl, -⟩ <;> cases h

theorem IsPlain.splitRadix?_eq_none (h : IsPlain cs) : splitRadix? cs = none := by
  rcases isPlain_iff.1 h with rfl | ⟨sign, hsign, rfl⟩ | h
  · rfl
  · have hall : ∀ sign ∈ signs, splitRadix? (sign ++ "Infinity".toList) = none := by decide
    exact hall sign hsign
  · exact splitRadix?_eq_none_of_read? h

/-- Without an announcement, the empty text, infinity and decimals are read as numbers. -/
theorem isNaN_readTrimmed_of_none (h : splitRadix? cs = none) :
    (readTrimmed cs).isNaN = false ↔ IsPlain cs := by
  rw [isPlain_iff, mem_signs_infinity_iff]
  unfold readTrimmed
  split
  · next hempty => exact iff_of_true (by decide) (.inl (List.isEmpty_iff.1 hempty))
  next hempty =>
  split
  · next hinfinity => exact iff_of_true (by decide) (.inr (.inl (.inl hinfinity)))
  next hinfinity =>
  split
  · next hnegative => exact iff_of_true (by decide) (.inr (.inl (.inr hnegative)))
  next hnegative =>
  rw [h, or_iff_right (mt List.isEmpty_iff.2 hempty),
    or_iff_right (not_or.2 ⟨hinfinity, hnegative⟩)]
  dsimp only
  rcases Decimal.read? cs with - | ⟨negative, d⟩
  · exact iff_of_false (by decide) nofun
  · exact iff_of_true (isNaN_toFloat negative d) rfl

/-! ### Announced bases -/

/-- With an announcement, only the whole number behind it counts. -/
theorem readTrimmed_of_splitRadix? {radix : ℕ} {rest : List Char}
    (h : splitRadix? cs = some (radix, rest)) :
    readTrimmed cs = (readWhole? radix wordBound rest).elim nan Float.ofNat := by
  have hplain : ¬ IsPlain cs := by
    intro hplain
    cases h.symm.trans hplain.splitRadix?_eq_none
  rw [isPlain_iff, mem_signs_infinity_iff, not_or, not_or, not_or] at hplain
  obtain ⟨hempty, ⟨hinfinity, hnegative⟩, -⟩ := hplain
  rw [readTrimmed, if_neg (mt List.isEmpty_iff.1 hempty), if_neg hinfinity, if_neg hnegative, h]
  dsimp only
  rcases readWhole? radix wordBound rest with - | n <;> rfl

/-- **A number with an announced base is read as the nearest double**, if it fits into 64 bits. -/
theorem isNearest_readTrimmed (hn : n < wordBound) (hmark : mark ∈ marks)
    (h : IsAnnounced mark cs n) : IsNearest n (readTrimmed cs) := by
  obtain ⟨radix, rest, hsplit, hread⟩ := exists_readWhole?_iff.2 ⟨hn, mark, hmark, h⟩
  rw [readTrimmed_of_splitRadix? hsplit, hread]
  exact isNearest_ofNat n

/-- **The texts that are read as numbers.** -/
theorem isNaN_readTrimmed_iff :
    (readTrimmed cs).isNaN = false ↔
      IsPlain cs ∨ ∃ n < wordBound, ∃ mark ∈ marks, IsAnnounced mark cs n := by
  rcases hsplit : splitRadix? cs with - | ⟨radix, rest⟩
  · rw [isNaN_readTrimmed_of_none hsplit, or_iff_left]
    rintro ⟨n, -, mark, -, h⟩
    obtain ⟨radix, digits, hannounced, -⟩ := isAnnounced_iff.1 h
    cases hsplit.symm.trans hannounced
  · have hplain : ¬ IsPlain cs := fun hplain ↦
      nomatch hsplit.symm.trans hplain.splitRadix?_eq_none
    rw [or_iff_right hplain]
    constructor
    · intro hnumber
      rw [readTrimmed_of_splitRadix? hsplit] at hnumber
      rcases hread : readWhole? radix wordBound rest with - | n
      · rw [hread] at hnumber
        exact absurd hnumber (by decide)
      · exact ⟨n, exists_readWhole?_iff.1 ⟨radix, rest, hsplit, hread⟩⟩
    · rintro ⟨n, hn, mark, hmark, h⟩
      exact (isNearest_readTrimmed hn hmark h).isNaN_eq_false

/-! ### What texts are meant for -/

/-- A text announces at most one number, with a sign before its digits or without one. -/
theorem IsAnnounced.unique {mark' : List Char} {n' : ℕ} (hmark : mark ∈ marks)
    (hmark' : mark' ∈ marks) (h : IsAnnounced mark cs n) (h' : IsAnnounced mark' cs n') :
    mark = mark' ∧ n = n' := by
  obtain ⟨radix, digits, hsplit, hdigits⟩ := isAnnounced_iff.1 h
  obtain ⟨_, digits', hsplit', hdigits'⟩ := isAnnounced_iff.1 h'
  obtain ⟨rfl, hrest⟩ := Prod.mk.inj (Option.some.inj (hsplit.symm.trans hsplit'))
  obtain ⟨announcement, hmem, -⟩ := splitRadix?_eq_some_iff.1 hsplit
  have hradix := radix_le_of_mem hmem
  have hvalue {digits : List Char} (h : Spells radix digits n) (h' : Spells radix digits n') :
      n = n' := by
    have hn := ((spells_iff hradix).1 h).2
    have hn' := ((spells_iff hradix).1 h').2
    exact Option.some.inj (hn.symm.trans hn')
  rcases mem_marks_iff.1 hmark with rfl | rfl <;> rcases mem_marks_iff.1 hmark' with rfl | rfl
  · obtain rfl : digits = digits' := hrest
    exact ⟨rfl, hvalue hdigits hdigits'⟩
  · obtain rfl : digits = '+' :: digits' := hrest
    exact absurd hdigits (not_spells_plus hradix)
  · obtain rfl : digits' = '+' :: digits := hrest.symm
    exact absurd hdigits' (not_spells_plus hradix)
  · obtain rfl : digits = digits' := (List.cons.inj hrest).2
    exact ⟨rfl, hvalue hdigits hdigits'⟩

/-- The text is read as it is meant: as a number exactly if it is one, as zero if it is empty, and
as the nearest double if it announces a base. Blanks at its ends do not count. -/
structure ReadAsMeant (text : String) : Prop where
  isNaN_iff : (readNumber text).isNaN = false ↔ IsNumeral (Text.trim text.toList)
  empty : Text.trim text.toList = [] → readNumber text = 0
  nearest (n : ℕ) : IsAnnounced [] (Text.trim text.toList) n → IsNearest n (readNumber text)

theorem not_isPlain_of_announced (h : IsAnnounced mark cs n) : ¬ IsPlain cs := by
  intro hplain
  obtain ⟨radix, digits, hsplit, -⟩ := isAnnounced_iff.1 h
  cases hsplit.symm.trans hplain.splitRadix?_eq_none

/-- **How texts are read as numbers.** For every text, of which the blanks at the ends do not count:

* it is read as a number exactly if it is empty, infinity, a decimal, or a whole number that fits
  into 64 bits behind the announcement of its base, where a plus sign may stand before the digits;
* what announces a base and is read as a number is read as the nearest double;
* it is read as it is meant exactly if it does not announce a number that takes more than 64 bits,
  nor one that takes no more and has a plus sign before its digits. -/
theorem readNumber_grammar (text : String) :
    ((readNumber text).isNaN = false ↔ IsPlain (Text.trim text.toList) ∨
        ∃ n < 2 ^ 64, ∃ mark ∈ marks, IsAnnounced mark (Text.trim text.toList) n) ∧
      (∀ mark ∈ marks, ∀ n < 2 ^ 64, IsAnnounced mark (Text.trim text.toList) n →
        IsNearest n (readNumber text)) ∧
      (ReadAsMeant text ↔
        (∀ n, IsAnnounced [] (Text.trim text.toList) n → n < 2 ^ 64) ∧
          ∀ n, IsAnnounced ['+'] (Text.trim text.toList) n → 2 ^ 64 ≤ n) := by
  have haccepted : (readNumber text).isNaN = false ↔ IsPlain (Text.trim text.toList) ∨
      ∃ n < 2 ^ 64, ∃ mark ∈ marks, IsAnnounced mark (Text.trim text.toList) n :=
    isNaN_readTrimmed_iff
  have hnearest : ∀ mark ∈ marks, ∀ n < 2 ^ 64, IsAnnounced mark (Text.trim text.toList) n →
      IsNearest n (readNumber text) := fun mark hmark n hn h ↦ isNearest_readTrimmed hn hmark h
  have hnone : [] ∈ marks := by decide
  have hplus : ['+'] ∈ marks := by decide
  refine ⟨haccepted, hnearest, ?_⟩
  constructor
  · rintro ⟨hiff, -, -⟩
    rw [haccepted] at hiff
    constructor
    · intro n h
      obtain ⟨n', hn', mark, hmark, h'⟩ :=
        (hiff.2 (.inr ⟨n, h⟩)).resolve_left (not_isPlain_of_announced h)
      exact (h.unique hnone hmark h').2 ▸ hn'
    · intro n h
      by_contra hlt
      obtain ⟨n', h'⟩ :=
        (hiff.1 (.inr ⟨n, not_le.1 hlt, _, hplus, h⟩)).resolve_left (not_isPlain_of_announced h)
      cases (h.unique hplus hnone h').1
  · rintro ⟨hfits, hlarge⟩
    refine ⟨haccepted.trans ⟨?_, ?_⟩, fun hempty ↦ ?_, fun n h ↦ hnearest [] hnone n (hfits n h) h⟩
    · rintro (hplain | ⟨n, hn, mark, hmark, h⟩)
      · exact .inl hplain
      · rcases mem_marks_iff.1 hmark with rfl | rfl
        · exact .inr ⟨n, h⟩
        · exact absurd hn (not_lt.2 (hlarge n h))
    · rintro (hplain | ⟨n, h⟩)
      · exact .inl hplain
      · exact .inr ⟨n, hfits n h, [], hnone, h⟩
    · rw [readNumber, hempty]
      rfl

/-- One more than fits into 64 bits is not read, and a plus sign behind the announcement is. -/
theorem not_readAsMeant :
    ¬ ReadAsMeant "0x10000000000000000" ∧ ¬ ReadAsMeant "0x+5" := by
  constructor
  · rintro ⟨hiff, -, -⟩
    have hNaN : (readNumber "0x10000000000000000").isNaN = true := by decide +kernel
    have hspells : Spells 16 "10000000000000000".toList 0x10000000000000000 :=
      (spells_iff le_rfl).2 ⟨by decide, by decide⟩
    have hannounced : IsAnnounced [] (Text.trim "0x10000000000000000".toList)
        0x10000000000000000 := isAnnounced_iff.2 ⟨16, _, by decide, hspells⟩
    cases hNaN.symm.trans (hiff.2 (.inr ⟨_, hannounced⟩))
  · rintro ⟨hiff, -, -⟩
    have hnumber : (readNumber "0x+5").isNaN = false := by decide +kernel
    have hsplit : splitRadix? (Text.trim "0x+5".toList) = some (16, ['+', '5']) := by decide
    rcases hiff.1 hnumber with hplain | ⟨n, h⟩
    · cases hsplit.symm.trans hplain.splitRadix?_eq_none
    · obtain ⟨radix, digits, hsplit', hdigits⟩ := isAnnounced_iff.1 h
      obtain ⟨rfl, hrest⟩ := Prod.mk.inj (Option.some.inj (hsplit.symm.trans hsplit'))
      obtain rfl : ['+', '5'] = digits := hrest
      exact not_spells_plus le_rfl hdigits

end FeatureStyle.Numeric
