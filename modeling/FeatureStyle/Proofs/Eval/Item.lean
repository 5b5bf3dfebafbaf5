import FeatureStyle.Proofs.Eval.Result
import FeatureStyle.Proofs.Numeric.Index

/-!
# Items of strings and arrays

The items of an array are its values, and the items of a string are its UTF-16 units, each as a
string of its own. A unit that is half of a pair stands for no character (`Text.ofUnit`).

Which item a number picks, if any, is said by `Value.IsItem`, with the rational number that the
double stands for. **A string or an array gives the item that its key picks**, whether the key is a
number or the text of one (`hasValue_member_item`).
-/

namespace FeatureStyle

namespace Text

/-! ### Units -/

/-- The UTF-16 units of a character: its number, or a pair that holds what is above `0x10000`. -/
def utf16 (c : Char) : List ℕ :=
  if c.toNat < 0x10000 then [c.toNat]
  else [0xD800 + (c.toNat - 0x10000) / 0x400, 0xDC00 + (c.toNat - 0x10000) % 0x400]

/-- The character that a unit reads as on its own. -/
def ofUnit (u : ℕ) : Char := if u.isValidChar then Char.ofNat u else replacement

theorem charUnits_eq (c : Char) : charUnits c = (utf16 c).map ofUnit := by
  rw [charUnits, utf16]
  split
  · have hvalid : c.toNat.isValidChar := c.valid
    rw [List.map_singleton, ofUnit, if_pos hvalid, Char.ofNat_toNat]
  · -- Both halves lie among the numbers that are left out for them.
    have hvalid : c.toNat < 0xD800 ∨ 0xDFFF < c.toNat ∧ c.toNat < 0x110000 := c.valid
    have hhigh : ¬ (0xD800 + (c.toNat - 0x10000) / 0x400).isValidChar := by
      rw [Nat.isValidChar]
      omega
    have hlow : ¬ (0xDC00 + (c.toNat - 0x10000) % 0x400).isValidChar := by
      rw [Nat.isValidChar]
      omega
    rw [List.map_cons, List.map_singleton, ofUnit, ofUnit, if_neg hhigh, if_neg hlow]

theorem units_eq (cs : List Char) : units cs = (cs.flatMap utf16).map ofUnit := by
  rw [units, List.map_flatMap]
  exact congrArg (cs.flatMap ·) (funext charUnits_eq)

end Text

namespace Value

open Numeric (exactNat? exactNat?_eq_some_iff exactNat?_ofNat exactValue? numberText)

/-! ### Items -/

/-- What is in an array, and the units of a string as strings of their own. -/
def items? : Value → Option (List Value)
  | string s => some ((s.toList.flatMap Text.utf16).map fun u ↦
      string (String.singleton (Text.ofUnit u)))
  | array items => some items
  | _ => none

/-- What a number picks of the items: the one at that place if it is exactly the number of one, and
nothing otherwise. -/
inductive IsItem (items : List Value) (x : Float) : Value → Prop
  | inside {i : ℕ} {v : Value} (hx : exactValue? x = some (i : ℚ)) (hi : items[i]? = some v) :
      IsItem items x v
  | outside (h : ∀ i : ℕ, exactValue? x = some (i : ℚ) → items.length ≤ i) :
      IsItem items x undefined

variable {object : Value} {items : List Value} {x : Float}

theorem member_eq_of_items? (h : object.items? = some items) (key : Value) :
    object.member key =
      if key.isLengthKey then number (.ofNat items.length)
      else (key.index?.bind (items[·]?)).getD undefined := by
  cases object with
  | string s =>
    obtain rfl := Option.some.inj h
    rw [member, Text.unitLength, Text.units_eq, List.length_map, List.length_map]
    split
    · rfl
    · cases key.index? with
      | none => rfl
      | some i =>
        dsimp only
        rw [List.getElem?_map, Option.bind_some, List.getElem?_map]
        cases (s.toList.flatMap Text.utf16)[i]? <;> rfl
  | array items =>
    obtain rfl := Option.some.inj h
    rw [member]
    cases key.index? <;> rfl
  | _ => cases h

/-- The number of a key picks what is at its place. -/
theorem isItem_getD (items : List Value) (x : Float) :
    IsItem items x (((exactNat? x).bind (items[·]?)).getD undefined) := by
  rcases hx : exactNat? x with - | i
  · refine .outside fun i hi ↦ ?_
    rw [exactNat?_eq_some_iff.2 hi] at hx
    cases hx
  · rw [Option.bind_some]
    rcases hi : items[i]? with - | v
    · refine .outside fun j hj ↦ ?_
      obtain rfl := Option.some.inj (hx.symm.trans (exactNat?_eq_some_iff.2 hj))
      exact List.getElem?_eq_none_iff.1 hi
    · exact .inside (exactNat?_eq_some_iff.1 hx) hi

/-- **The text of a number picks the same item as the number.** -/
theorem member_numberText (h : object.items? = some items) (hlength : items.length < 2 ^ 53)
    (x : Float) : object.member (string (numberText x)) = object.member (number x) := by
  have hkey : ¬ (string (numberText x)).isLengthKey := fun h ↦
    Numeric.numberText_ne_length x (beq_iff_eq.1 h)
  have hindex : (string (numberText x)).index?.bind (items[·]?) =
      (number x).index?.bind (items[·]?) := by
    refine Option.ext fun w ↦ ?_
    rw [Option.bind_eq_some_iff, Option.bind_eq_some_iff]
    refine exists_congr fun i ↦ and_congr_left fun hi ↦ ?_
    -- Where the texts of larger numbers differ from the digits there is no item.
    have hlt : i < items.length := (List.getElem?_eq_some_iff.1 hi).1
    exact Numeric.indexOfText?_numberText_iff (hlt.trans hlength)
  rw [member_eq_of_items? h, member_eq_of_items? h, if_neg hkey, hindex]
  rfl

end Value

/-! ### Member expressions -/

namespace Expr

open Numeric (exactNat?_eq_some_iff exactNat?_ofNat exactValue? numberText)

variable {s : Subject} {access : MemberAccess} {object key : Expr} {v k : Value}

theorem HasValue.member (hobject : HasValue s object v) (hkey : HasValue s key k) :
    HasValue s (member access object key) (v.member k) := by
  rw [hasValue_iff, eval, hkey.run_bind, hobject.run_bind]
  rfl

/-- **A string or an array gives the item that its key picks.** Below `2 ^ 53` its length is exactly
the number of its items. Whatever double the key is, the text of that double picks the same: the
item at its place if it is a natural number below the length, and nothing otherwise. -/
theorem hasValue_member_item {key' : Expr} {items : List Value} {x : Float}
    (hitems : v.items? = some items) (hlength : items.length < 2 ^ 53)
    (hobject : HasValue s object v) (hkey : HasValue s key (.number x))
    (hkey' : HasValue s key' (.string (numberText x))) :
    (∃ n, HasValue s (member access object (string "length")) (.number n) ∧
        exactValue? n = some (items.length : ℚ)) ∧
      ∃ r, Value.IsItem items x r ∧ HasValue s (member access object key) r ∧
        HasValue s (member access object key') r := by
  constructor
  · have hmember : v.member (.string "length") = .number (.ofNat items.length) :=
      Value.member_eq_of_items? hitems _
    exact ⟨_, hmember ▸ hobject.member (hasValue_string "length"),
      exactNat?_eq_some_iff.1 (exactNat?_ofNat hlength)⟩
  · have hitem : Value.IsItem items x (v.member (.number x)) :=
      Value.member_eq_of_items? hitems (.number x) ▸ Value.isItem_getD items x
    exact ⟨_, hitem, hobject.member hkey,
      Value.member_numberText hitems hlength x ▸ hobject.member hkey'⟩

/-- The second half of a character that is a pair of units. -/
theorem hasValue_member_item_half :
    let s := Subject.ofProperty fun _ ↦ none
    let text := String.ofList ['a', Char.ofNat 0x1F600]
    let items := ['a', Text.replacement, Text.replacement].map fun c ↦
      Value.string (String.singleton c)
    (Value.string text).items? = some items ∧ items.length < 2 ^ 53 ∧
      HasValue s (string text) (.string text) ∧ HasValue s (number 2) (.number 2) ∧
      HasValue s (string "2") (.string (numberText 2)) ∧
      (∃ n, HasValue s (member .brackets (string text) (string "length")) (.number n) ∧
        exactValue? n = some ((3 : ℕ) : ℚ)) ∧
      ∃ r, Value.IsItem items 2 r ∧ HasValue s (member .brackets (string text) (number 2)) r ∧
        HasValue s (member .brackets (string text) (string "2")) r := by
  intro s text items
  have hunits : (['a', Char.ofNat 0x1F600].flatMap Text.utf16).map Text.ofUnit =
      ['a', Text.replacement, Text.replacement] := by decide
  have hitems : (Value.string text).items? = some items := by
    show _ = some (List.map _ _)
    rw [Value.items?, String.toList_ofList, ← hunits, List.map_map]
    rfl
  have htext : numberText 2 = "2" := by decide +kernel
  have hkey : HasValue s (string "2") (.string (numberText 2)) := htext ▸ hasValue_string "2"
  refine ⟨hitems, by decide, hasValue_string text, hasValue_number 2, hkey, ?_⟩
  exact hasValue_member_item hitems (by decide) (hasValue_string text) (hasValue_number 2) hkey

end Expr

end FeatureStyle
