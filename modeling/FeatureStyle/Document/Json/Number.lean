import FeatureStyle.Numeric.Decimal

/-!
# Numbers of JSON documents

A JSON document is read in one pass with 64 bits for the digits of a number. A digit that does not
fit any more is dropped, and so is everything behind it; before the point a dropped digit still
counts as a place. The digits are then multiplied or divided by a power of ten, in double precision.
The result is exact for whole numbers of 64 bits and near the number that is written otherwise,
though not always nearest.

A number that is too large for a double has no value. One that is too small is zero.
-/

namespace FeatureStyle

/-- The parts of a number in a JSON document. -/
structure JsonNumber where
  negative : Bool
  whole : List Nat
  fraction : List Nat
  /-- The exponent, if one is written. -/
  exponent? : Option Int

namespace JsonNumber

/-- Whether there is room for another digit. -/
def fits (significand digit : Nat) : Bool := 10 * significand + digit < Numeric.wordBound

/-- The significand with the digits that fit, and the number of digits that do not. -/
def accumulate (significand : Nat) : List Nat → Nat × Nat
  | [] => (significand, 0)
  | d :: ds =>
    if fits significand d then accumulate (10 * significand + d) ds
    else (significand, ds.length + 1)

/-- The number `10 ^ n`, for an `n` that is small enough. -/
def powerOfTen (n : Nat) : Float := Float.ofScientific 1 false n

/-- The largest power of ten of a double. -/
def largestPower : Nat := 308

/-- The number `x * 10 ^ e`, if it is not too large. -/
def scaleByTen (x : Float) (e : Int) : Option Float :=
  if e.natAbs ≤ largestPower then
    if 0 ≤ e then
      let y := x * powerOfTen e.toNat
      if y.isInf then none else some y
    else some (x / powerOfTen (-e).toNat)
  else if x == 0 then some x
  else if 0 ≤ e then none
  else scaleByTen (x / powerOfTen largestPower) (e + largestPower)
termination_by e.natAbs
decreasing_by simp only [largestPower] at *; omega

/-- The value of a number, if it is not too large. -/
def value? (n : JsonNumber) : Option Float :=
  let (significand, dropped) := accumulate 0 n.whole
  let (significand, ignored) := accumulate significand n.fraction
  let places : Int := dropped - (n.fraction.length - ignored : Nat)
  let magnitude :=
    if dropped = 0 ∧ n.fraction = [] ∧ n.exponent?.isNone then some (.ofNat significand)
    else scaleByTen (.ofNat significand) (places + n.exponent?.getD 0)
  magnitude.map fun x ↦ if n.negative then -x else x

end JsonNumber

end FeatureStyle
