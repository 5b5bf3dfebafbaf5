import FeatureStyle.Numeric.Decimal

/-!
# The fewest digits that read back

Every finite number of a binary format is the nearest one to a whole interval of reals. Its shortest
decimal is the one with the fewest digits in that interval, and the nearest to the number among
those.

The search walks down the grids of multiples of `10 ^ k`, starting above the number. On each grid
only the two neighbours of the number need testing: if any point of the grid lies in the interval,
one of them does. The ends of the interval belong to it exactly when the mantissa is even, because a
tie is rounded to the even mantissa when the text is read.

All comparisons are between natural numbers. A quarter of a unit in the last place is the unit of
measure, since below a power of two the neighbour is only half as far away.
-/

namespace FeatureStyle.Numeric

/-- Which of two equally near decimals is taken. -/
inductive Tie
  | up
  | even
  deriving DecidableEq, Repr

/-- A number and the interval of reals that round to it, over a common denominator. -/
structure RoundingInterval where
  low : Nat
  value : Nat
  high : Nat
  denominator : Nat
  closed : Bool

namespace RoundingInterval

/-- The interval around `m · 2 ^ e`. -/
def around (spec : Float.Model.Format) (m : Nat) (e : Int) : RoundingInterval :=
  let below := if m = Nat.pow 2 (spec.mantissaBits - 1) ∧ spec.minExponent < e then 1 else 2
  let quarter := e - 2
  let scale := Nat.pow 2 quarter.toNat
  { low := (4 * m - below) * scale
    value := 4 * m * scale
    high := (4 * m + 2) * scale
    denominator := Nat.pow 2 (-quarter).toNat
    closed := m % 2 == 0 }

/-- Whether the multiple `c` of the grid `up / down` lies in the interval. -/
def holds (i : RoundingInterval) (up down c : Nat) : Bool :=
  let point := c * up * i.denominator
  if i.closed then decide (i.low * down ≤ point) && decide (point ≤ i.high * down)
  else decide (i.low * down < point) && decide (point < i.high * down)

/-- The multiple of `10 ^ k` that lies in the interval and is nearest to the value, if any does. -/
def nearestMultiple? (i : RoundingInterval) (tie : Tie) (k : Int) : Option Nat :=
  let up := Nat.pow 10 k.toNat
  let down := Nat.pow 10 (-k).toNat
  let c := i.value * down / (up * i.denominator)
  match i.holds up down c, i.holds up down (c + 1) with
  | true, false => some c
  | false, true => some (c + 1)
  | false, false => none
  | true, true =>
    match compare (2 * (i.value * down)) ((2 * c + 1) * (up * i.denominator)) with
    | .lt => some c
    | .gt => some (c + 1)
    | .eq => some (if tie = .even ∧ c % 2 = 0 then c else c + 1)

/-- The first hit on the `n` grids from `10 ^ k` downwards. -/
def search (i : RoundingInterval) (tie : Tie) : Nat → Int → Option Decimal
  | 0, _ => none
  | n + 1, k =>
    match i.nearestMultiple? tie k with
    | some c => some ⟨c, k⟩
    | none => search i tie n (k - 1)

/-- An exponent of ten above the value. -/
def topExponent (i : RoundingInterval) : Int :=
  ((Nat.toDigits 10 i.value).length : Int) - ((Nat.toDigits 10 i.denominator).length : Int) + 1

end RoundingInterval

/-- The digits that are always enough: the number itself, written out. -/
def exactDecimal (m : Nat) (e : Int) : Decimal :=
  if 0 ≤ e then ⟨m * Nat.pow 2 e.toNat, 0⟩ else ⟨m * Nat.pow 5 (-e).toNat, e⟩

/-- The decimal with the fewest digits that rounds to `m · 2 ^ e`. Twenty grids reach seventeen
digits below any starting point, and seventeen digits always suffice. -/
def shortestDecimal (spec : Float.Model.Format) (tie : Tie) (m : Nat) (e : Int) : Decimal :=
  let i := RoundingInterval.around spec m e
  (i.search tie 20 i.topExponent).getD (exactDecimal m e)

end FeatureStyle.Numeric
