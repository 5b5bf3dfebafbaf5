/-!
# Decimal numbers

A `Decimal` is a non-negative number written as a coefficient times a power of ten. It stands
between text and the binary formats.

* `Decimal.read?` is the grammar of a decimal numeral: an optional sign, digits with an optional
  point among, before or after them, and an optional exponent. At least one digit stands before
  the exponent, and at least one in it.
* `Decimal.toFloat` and `Decimal.toFloat32` round to nearest, a tie to even, once.
-/

namespace FeatureStyle.Numeric

/-- The first number that takes more than 64 bits. -/
def wordBound : Nat := 0x10000000000000000

/-- The number `coefficient · 10 ^ exponent`. -/
structure Decimal where
  coefficient : Nat
  exponent : Int
  deriving DecidableEq, Repr

/-- The value of a list of decimal digits, the most significant first. -/
def digitsValue (cs : List Char) : Nat :=
  cs.foldl (fun n c ↦ 10 * n + (c.toNat - '0'.toNat)) 0

/-- An optional sign and the text after it; `true` stands for minus. -/
def splitSign : List Char → Bool × List Char
  | '-' :: cs => (true, cs)
  | '+' :: cs => (false, cs)
  | cs => (false, cs)

/-- The exponent part of a numeral that has one. -/
def readExponent? (cs : List Char) : Option Int :=
  let (negative, digits) := splitSign cs
  if digits.isEmpty || !digits.all Char.isDigit then none
  else
    let n : Int := digitsValue digits
    some (if negative then -n else n)

namespace Decimal

/-- An unsigned decimal numeral: the whole list has to be used. -/
def readUnsigned? (cs : List Char) : Option Decimal :=
  let whole := cs.takeWhile Char.isDigit
  let afterWhole := cs.dropWhile Char.isDigit
  let (fraction, rest) :=
    match afterWhole with
    | '.' :: ds => (ds.takeWhile Char.isDigit, ds.dropWhile Char.isDigit)
    | ds => ([], ds)
  if whole.isEmpty && fraction.isEmpty then none
  else
    let scaled (exponent : Int) : Decimal :=
      ⟨digitsValue (whole ++ fraction), exponent - fraction.length⟩
    match rest with
    | [] => some (scaled 0)
    | c :: ds => if c = 'e' ∨ c = 'E' then (readExponent? ds).map scaled else none

/-- A decimal numeral with an optional sign; `true` stands for minus. -/
def read? (cs : List Char) : Option (Bool × Decimal) :=
  let (negative, rest) := splitSign cs
  (readUnsigned? rest).map (negative, ·)

/-- The double nearest to the number, with the sign put in front. -/
def toFloat (negative : Bool) (d : Decimal) : Float :=
  let x := Float.ofModel (.ofScientific d.coefficient d.exponent)
  if negative then -x else x

/-- The single-precision number nearest to the number, with the sign put in front. -/
def toFloat32 (negative : Bool) (d : Decimal) : Float32 :=
  let x := Float32.ofModel (.ofScientific d.coefficient d.exponent)
  if negative then -x else x

end Decimal

end FeatureStyle.Numeric
