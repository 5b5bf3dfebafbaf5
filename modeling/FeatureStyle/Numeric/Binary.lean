/-!
# Exact views of the two binary formats

`Float` carries the numbers of expressions and `Float32` the components of colours and vectors.
Both are read here as the dyadic rationals `± m · 2 ^ e` that they stand for, so that the
conversions between them, the remainders and the tests for a whole number are integer
computations followed by at most one rounding.

* `narrow` and `widen` are the conversions. Widening never rounds; narrowing rounds to nearest,
  a tie to the even mantissa, and overflows to an infinity.
* `remainder` and `remainderSingle` are the remainders of truncating division. They are
  exact: the remainder of two dyadic rationals has no more digits than its divisor.
* `flooredRemainder` is the remainder that four-component vectors use. It divides first,
  so all three of its steps round.
* `exactNat?` reads an index.
-/

namespace FeatureStyle.Numeric

open Float.Model (UnpackedFloat)

/-! ### Conversions -/

/-- The single-precision number nearest to `x`. -/
def narrow (x : Float) : Float32 :=
  match x.toModel.unpack with
  | .finite s m e _ => .ofModel (.pack (.round .binary32 s m e))
  | special => .ofModel (.pack special)

/-- The double-precision number equal to `x`. -/
def widen (x : Float32) : Float :=
  match x.toModel.unpack with
  | .finite s m e _ => .ofModel (.pack (.round .binary64 s m e))
  | special => .ofModel (.pack special)

/-! ### Whole numbers -/

/-- Whether the number has no fractional part. Infinities and NaN do not count as whole. -/
def isWhole : UnpackedFloat → Bool
  | .zero _ => true
  | .finite _ m e _ => decide (0 ≤ e) || m % Nat.pow 2 (-e).toNat == 0
  | _ => false

/-- The absolute value of the number, rounded towards zero; `0` where there is none. -/
def magnitude : UnpackedFloat → Nat
  | .finite _ m e _ => if 0 ≤ e then m * Nat.pow 2 e.toNat else m / Nat.pow 2 (-e).toNat
  | _ => 0

/-- Whether the sign bit is set. NaN has no sign. -/
def isNegative : UnpackedFloat → Bool
  | .zero s | .finite s _ _ _ | .infinity s => s == .negative
  | .notANumber => false

/-- The natural number that `x` stands for. Both zeros stand for `0`. -/
def exactNat? (x : Float) : Option Nat :=
  let u := x.toModel.unpack
  if isWhole u && (magnitude u == 0 || !isNegative u) then some (magnitude u) else none

/-! ### Remainders -/

/-- The remainder of truncating division: it has the sign of the dividend and is smaller in
absolute value than the divisor. -/
def truncatedRemainder (spec : Float.Model.Format) : UnpackedFloat → UnpackedFloat → UnpackedFloat
  | .notANumber, _ | _, .notANumber | .infinity _, _ | _, .zero _ => .notANumber
  | dividend, .infinity _ => dividend
  | .zero s, .finite .. => .zero s
  | .finite s m₁ e₁ _, .finite _ m₂ e₂ _ =>
    let e := min e₁ e₂
    let m := m₁ * Nat.pow 2 (e₁ - e).toNat % (m₂ * Nat.pow 2 (e₂ - e).toNat)
    if m = 0 then .zero s else .round spec s m e

/-- The remainder of truncating division of doubles. -/
def remainder (x y : Float) : Float :=
  .ofModel (.pack (truncatedRemainder .binary64 x.toModel.unpack y.toModel.unpack))

/-- The remainder of truncating division of single-precision numbers. -/
def remainderSingle (x y : Float32) : Float32 :=
  .ofModel (.pack (truncatedRemainder .binary32 x.toModel.unpack y.toModel.unpack))

/-- The largest whole number not above `x`, as a single-precision number. Its zero is positive, and
what has no fractional part to begin with, an infinity or NaN, is returned unchanged. -/
def floorSingle (x : Float32) : Float32 :=
  match x.toModel.unpack with
  | .zero _ => .ofNat 0
  | .finite s m e _ =>
    if 0 ≤ e then x
    else
      let unit := Nat.pow 2 (-e).toNat
      match s with
      | .positive => .ofNat (m / unit)
      | .negative => -.ofNat ((m + (unit - 1)) / unit)
  | _ => x

/-- `x - ⌊x / y⌋ * y`, each of the three steps rounded on its own. -/
def flooredRemainder (x y : Float32) : Float32 :=
  x - floorSingle (x / y) * y

end FeatureStyle.Numeric
