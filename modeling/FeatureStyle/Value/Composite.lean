import FeatureStyle.Numeric.Numeral

/-!
# Colours and vectors

A colour and the vectors of two, three and four components are all rows of single-precision numbers.
A `Lane` is one of the four kinds, and `Composite lane` its values. Their arithmetic goes component
by component, and only the remainder tells the lanes apart.
-/

namespace FeatureStyle

/-- The kinds of values that are made of components. -/
inductive Lane
  | color
  | vec2
  | vec3
  | vec4
  deriving DecidableEq, Repr

namespace Lane

/-- The number of components. A colour has an alpha channel. -/
@[reducible] def size : Lane → Nat
  | .color => 4
  | .vec2 => 2
  | .vec3 => 3
  | .vec4 => 4

/-- The name of the kind in expressions. -/
def name : Lane → String
  | .color => "color"
  | .vec2 => "vec2"
  | .vec3 => "vec3"
  | .vec4 => "vec4"

end Lane

/-- The components of a colour or vector. -/
abbrev Composite (lane : Lane) : Type := Vector Float32 lane.size

/-- A colour: red, green, blue and alpha. -/
abbrev Color : Type := Composite .color

/-- The operators that combine two numbers into a number. -/
inductive ArithmeticOp
  | add
  | sub
  | mul
  | div
  | rem
  deriving DecidableEq, Repr

namespace Composite

variable {lane : Lane}

/-- How an operator combines two components. The remainder truncates, except in four-component
vectors, where it goes by the floor of the quotient. -/
def combineComponent (lane : Lane) : ArithmeticOp → Float32 → Float32 → Float32
  | .add, x, y => x + y
  | .sub, x, y => x - y
  | .mul, x, y => x * y
  | .div, x, y => x / y
  | .rem, x, y =>
    if lane = .vec4 then Numeric.flooredRemainder x y else Numeric.remainderSingle x y

/-- An operator between two values of the same kind. -/
def combine (op : ArithmeticOp) (a b : Composite lane) : Composite lane :=
  Vector.zipWith (combineComponent lane op) a b

/-- Every component times a number. -/
def scale (a : Composite lane) (k : Float32) : Composite lane := a.map (· * k)

/-- Every component divided by a number. -/
def unscale (a : Composite lane) (k : Float32) : Composite lane := a.map (· / k)

def negate (a : Composite lane) : Composite lane := a.map (-·)

/-- The components between parentheses. -/
def text (a : Composite lane) : String :=
  "(" ++ ", ".intercalate (a.toList.map Numeric.componentText) ++ ")"

/-- What a kind of value holds before anything is put there: an opaque white colour, a zero
vector. -/
def blank (lane : Lane) : Composite lane :=
  Vector.replicate lane.size (if lane = .color then 1 else 0)

end Composite

namespace Color

def ofChannels (red green blue alpha : Float32) : Color := #v[red, green, blue, alpha]

def white : Color := ofChannels 1 1 1 1

def red (color : Color) : Float32 := color[0]

def green (color : Color) : Float32 := color[1]

def blue (color : Color) : Float32 := color[2]

def alpha (color : Color) : Float32 := color[3]

/-- The same colour with another alpha channel. -/
def withAlpha (c : Color) (alpha : Float32) : Color := ofChannels c.red c.green c.blue alpha

/-- A colour from channels between `0` and `255`. -/
def ofBytes (red green blue alpha : Float32) : Color :=
  ofChannels (red / 255) (green / 255) (blue / 255) (alpha / 255)

end Color

end FeatureStyle
