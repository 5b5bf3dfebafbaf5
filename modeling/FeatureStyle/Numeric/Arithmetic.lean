import FeatureStyle.Numeric.Binary

/-!
# Arithmetic of an unspecified kind

What the arithmetic of expressions and of hues needs from its numbers, so that both can be read over
any kind of number. Expressions compute with doubles; the same definitions over an exact field say
what is computed apart from rounding.

There is no law here: doubles have none of the usual ones.
-/

namespace FeatureStyle.Numeric

/-- The operations on numbers that expressions use. -/
class Arithmetic (K : Type) extends Add K, Sub K, Mul K, Div K where
  ofNat : Nat → K
  /-- The remainder of truncating division. -/
  rem : K → K → K
  less : K → K → Bool
  atMost : K → K → Bool
  same : K → K → Bool

instance : Arithmetic Float where
  ofNat := Float.ofNat
  rem := remainder
  less x y := x < y
  atMost x y := x ≤ y
  same x y := x == y

end FeatureStyle.Numeric
