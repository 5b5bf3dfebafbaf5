import FeatureStyle.Numeric.Binary
import FeatureStyle.Numeric.Shortest

/-!
# Numerals

How numbers are written. A `NumeralStyle` holds the decisions of one output format; the digits
are always the fewest that read back.

* `NumeralStyle.language` writes the numbers of the expression language.
* `NumeralStyle.json` writes the numbers of a JSON document.
* `NumeralStyle.component` writes the components of colours and vectors.

Whole numbers that have to keep their point are written by `wholeText`, with all of their digits.
-/

namespace FeatureStyle.Numeric

/-- The decisions of an output format for numbers. -/
structure NumeralStyle where
  /-- Which of two equally near digit strings is taken. -/
  tie : Tie
  /-- The exponents of the first digit for which no power of ten is written. -/
  isPositional : Int → Bool
  /-- Whether a whole number ends in `.0`. -/
  keepsPoint : Bool

namespace NumeralStyle

/-- Ties go up; a power of ten is written below `1e-6` and from `1e21` on. -/
def language : NumeralStyle := ⟨.up, fun e ↦ decide (-6 ≤ e) && decide (e ≤ 20), false⟩

/-- Ties go to the even digit; a power of ten is written below `1e-5` and from `1e16` on; a number
is never taken for an integer. -/
def json : NumeralStyle := ⟨.even, fun e ↦ decide (-5 ≤ e) && decide (e ≤ 15), true⟩

/-- Ties go up; a power of ten is never written. -/
def component : NumeralStyle := ⟨.up, fun _ ↦ true, false⟩

/-- The text of digits whose first one stands for `10 ^ e`. -/
def layout (style : NumeralStyle) (digits : List Char) (e : Int) : List Char :=
  if style.isPositional e then
    if e < 0 then
      ['0', '.'] ++ List.replicate (-e - 1).toNat '0' ++ digits
    else
      let whole := e.toNat + 1
      if digits.length ≤ whole then
        digits ++ List.replicate (whole - digits.length) '0' ++
          (if style.keepsPoint then ['.', '0'] else [])
      else digits.take whole ++ '.' :: digits.drop whole
  else
    let fraction :=
      match digits.drop 1 with
      | [] => []
      | rest => '.' :: rest
    digits.take 1 ++ fraction ++ ['e', if e < 0 then '-' else '+'] ++ Nat.toDigits 10 e.natAbs

/-- The text of a positive decimal. -/
def write (style : NumeralStyle) (d : Decimal) : List Char :=
  let digits := Nat.toDigits 10 d.coefficient
  style.layout digits (d.exponent + digits.length - 1)

end NumeralStyle

/-- A whole number with all of its digits and a point: `-0.0`, `3.0`. -/
def wholeText (negative : Bool) (n : Nat) : String :=
  (if negative then "-" else "") ++ String.ofList (Nat.toDigits 10 n) ++ ".0"

/-- The sign of a number before its text. -/
def signText (s : Float.Model.UnpackedFloat.Sign) : String :=
  if s == .negative then "-" else ""

/-- The text of a component: the fewest digits, never a power of ten. -/
def componentText (x : Float32) : String :=
  match x.toModel.unpack with
  | .notANumber => "NaN"
  | .infinity s => signText s ++ "inf"
  | .zero s => signText s ++ "0"
  | .finite s m e _ =>
    signText s ++ String.ofList (NumeralStyle.component.write (shortestDecimal .binary32 .up m e))

/-- The text of a number in a JSON document; there is none for NaN and the infinities. -/
def jsonText? (x : Float) : Option String :=
  match x.toModel.unpack with
  | .notANumber | .infinity _ => none
  | .zero s => some (signText s ++ "0.0")
  | .finite s m e _ =>
    let digits := shortestDecimal .binary64 .even m e
    some (signText s ++ String.ofList (NumeralStyle.json.write digits))

end FeatureStyle.Numeric
