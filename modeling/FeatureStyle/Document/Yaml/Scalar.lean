import FeatureStyle.Document.Datum
import FeatureStyle.Numeric.Language

/-!
# What unquoted words mean in YAML

A word without quotes may be read as a text by whoever wants one. As a value of its own it is the
first of these that fits: nothing, a truth value, a whole number, a floating-point number, a text.
The rules are those of the core schema:

* whole numbers may be written to the base 16, 8 or 2; they have no value beyond 64 bits, and beyond
  128 bits they are no whole numbers any more;
* zeros in front of more digits make a text;
* `.inf` and `.nan` are numbers, but not as JSON values, where they are `null`.
-/

namespace FeatureStyle.Yaml

/-- Whether a word stands for the lack of a value. -/
def isNullWord (s : String) : Bool := ["null", "Null", "NULL", "~"].contains s

/-- The truth value that a word stands for. -/
def bool? (s : String) : Option Bool :=
  if ["true", "True", "TRUE"].contains s then some true
  else if ["false", "False", "FALSE"].contains s then some false
  else none

/-- Whether a word consists of a zero and more digits, behind a sign or not. -/
def hasLeadingZero (cs : List Char) : Bool :=
  let (_, digits) := Numeric.splitSign cs
  match digits with
  | '0' :: d :: ds => (d :: ds).all Char.isDigit
  | _ => false

/-- The absolute value of a whole number. -/
def wholeMagnitude? (digits : List Char) : Option Nat :=
  let value? (radix : Nat) (ds : List Char) : Option Nat :=
    if ds.isEmpty then none else Numeric.radixValue? radix ds
  match digits with
  | '0' :: 'x' :: ds => value? 16 ds
  | '0' :: 'o' :: ds => value? 8 ds
  | '0' :: 'b' :: ds => value? 2 ds
  | ds => value? 10 ds

/-- A whole number, up to 128 bits: whether it is negative, and its absolute value. -/
def whole? (cs : List Char) : Option (Bool × Nat) :=
  if hasLeadingZero cs then none
  else
    let (negative, digits) := Numeric.splitSign cs
    (wholeMagnitude? digits).bind fun n ↦
      let bound := Nat.pow 2 128
      if (if negative then 2 * n ≤ bound else n < bound) then some (negative, n) else none

/-- The value of a whole number that fits into 64 bits. -/
def wholeValue? (negative : Bool) (n : Nat) : Option Float :=
  if negative then
    if n = 0 then some 0 else if 2 * n ≤ Numeric.wordBound then some (-.ofNat n) else none
  else if n < Numeric.wordBound then some (.ofNat n)
  else none

/-- A floating-point number. -/
def float? (s : String) : Option Float :=
  if [".inf", ".Inf", ".INF", "+.inf", "+.Inf", "+.INF"].contains s then some Numeric.infinity
  else if ["-.inf", "-.Inf", "-.INF"].contains s then some (-Numeric.infinity)
  else if [".nan", ".NaN", ".NAN"].contains s then some Numeric.nan
  else
    let decimal? := Numeric.Decimal.read? s.toList
    (decimal?.map fun (negative, d) ↦ d.toFloat negative).filter (·.isFinite)

/-- The JSON value that a word stands for. -/
def wordValue? (s : String) : Option Json :=
  if s.isEmpty ∨ isNullWord s then some .null
  else
    match bool? s, whole? s.toList with
    | some b, _ => some (.bool b)
    | none, some (negative, n) => (wholeValue? negative n).map .number
    | none, none =>
      match if hasLeadingZero s.toList then none else float? s with
      | some x => some (if x.isFinite then .number x else .null)
      | none => some (.string s)

/-- A word as a part of a document. -/
def word (s : String) : Datum :=
  .scalar ⟨some s, float? s, wordValue? s, s.isEmpty || isNullWord s, s.isEmpty⟩

/-- A text in quotes as a part of a document. -/
def quoted (s : String) : Datum := .scalar ⟨some s, none, some (.string s), false, false⟩

/-- The part of a document where nothing is written. -/
def nothing : Datum := word ""

/-- The brackets and indentations that may be inside one another. -/
def nestingLimit : Nat := 128

/-- A part with parts of its own, which has no readings if it is inside too many others. -/
def nested (depth : Nat) (d : Datum) : Datum :=
  if depth < nestingLimit then d else .unreadable

end FeatureStyle.Yaml
