import FeatureStyle.Numeric.Numeral
import FeatureStyle.Text.Blank

/-!
# Numbers as the language writes and reads them

`numberText` writes a number: the fewest digits that read back, a power of ten only below `1e-6` and
from `1e21` on, and no sign on zero. `readNumber` is the conversion of a text to a number. It
accepts

* the empty text, which is `0`;
* `Infinity` with an optional sign;
* a decimal numeral;
* digits after `0x`, `0o` or `0b` in either case, as long as their value fits into 64 bits.

Blanks around the text are ignored, and every other text is NaN.
-/

namespace FeatureStyle.Numeric

/-- The not-a-number value. -/
def nan : Float := .ofModel (.pack .notANumber)

/-- Positive infinity. -/
def infinity : Float := .ofModel (.pack (.infinity .positive))

/-- The text of a number. -/
def numberText (x : Float) : String :=
  match x.toModel.unpack with
  | .notANumber => "NaN"
  | .infinity s => signText s ++ "Infinity"
  | .zero _ => "0"
  | .finite s m e _ =>
    signText s ++ String.ofList (NumeralStyle.language.write (shortestDecimal .binary64 .up m e))

/-- The value of a letter or digit in the bases up to 36. -/
def digitValue? (c : Char) : Option Nat :=
  if c.isDigit then some (c.toNat - '0'.toNat)
  else if c.isLower then some (c.toNat - 'a'.toNat + 10)
  else if c.isUpper then some (c.toNat - 'A'.toNat + 10)
  else none

/-- The value of digits of the given base; every digit has to be below the base. -/
def radixValue? (radix : Nat) (cs : List Char) : Option Nat :=
  cs.foldlM (fun n c ↦ do
    let d ← digitValue? c
    if d < radix then some (radix * n + d) else none) 0

/-- A whole number of the given base, with an optional plus sign, that is below `bound`. -/
def readWhole? (radix bound : Nat) (cs : List Char) : Option Nat :=
  let digits :=
    match cs with
    | '+' :: ds => ds
    | ds => ds
  if digits.isEmpty then none
  else (radixValue? radix digits).filter (· < bound)

/-- The base that a numeral announces, and the digits after the announcement. -/
def splitRadix? : List Char → Option (Nat × List Char)
  | '0' :: c :: cs =>
    if c = 'x' ∨ c = 'X' then some (16, cs)
    else if c = 'o' ∨ c = 'O' then some (8, cs)
    else if c = 'b' ∨ c = 'B' then some (2, cs)
    else none
  | _ => none

/-- The number that a text without blanks around it stands for. -/
def readTrimmed (cs : List Char) : Float :=
  if cs.isEmpty then .ofNat 0
  else if cs = "Infinity".toList ∨ cs = "+Infinity".toList then infinity
  else if cs = "-Infinity".toList then -infinity
  else
    match splitRadix? cs with
    | some (radix, digits) =>
      match readWhole? radix wordBound digits with
      | some n => .ofNat n
      | none => nan
    | none =>
      match Decimal.read? cs with
      | some (negative, d) => d.toFloat negative
      | none => nan

/-- The number that a text stands for. -/
def readNumber (text : String) : Float :=
  readTrimmed (Text.trim text.toList)

/-- The constant in a shader that denotes the number: a whole number keeps its point. -/
def constantText (x : Float) : String :=
  let u := x.toModel.unpack
  if isWhole u && magnitude u < Nat.pow 10 21 then wholeText (isNegative u) (magnitude u)
  else numberText x

/-- The constant in a shader that denotes a component of a colour. -/
def componentConstantText (x : Float32) : String :=
  let u := x.toModel.unpack
  if isWhole u then wholeText (isNegative u) (magnitude u) else componentText x

end FeatureStyle.Numeric
