import FeatureStyle.Value.Composite

/-!
# Operators and functions

The operators and built-in functions of expressions, with the names and symbols that sources and
messages use. Each finite vocabulary is a type, so that what follows never looks at a name again.
-/

namespace FeatureStyle

/-! ### Functions of one number -/

/-- A function from numbers to numbers. -/
inductive UnaryMath
  | abs
  | sqrt
  | cos
  | sin
  | tan
  | acos
  | asin
  | atan
  | radians
  | degrees
  deriving DecidableEq, Repr

namespace UnaryMath

def name : UnaryMath → String
  | abs => "abs"
  | sqrt => "sqrt"
  | cos => "cos"
  | sin => "sin"
  | tan => "tan"
  | acos => "acos"
  | asin => "asin"
  | atan => "atan"
  | radians => "radians"
  | degrees => "degrees"

def all : List UnaryMath := [abs, sqrt, cos, sin, tan, acos, asin, atan, radians, degrees]

def ofName? (s : String) : Option UnaryMath := all.find? (·.name == s)

/-- The radians in a degree, and the degrees in a radian. -/
def radiansPerDegree : Float := 0.017453292519943295

@[inherit_doc radiansPerDegree]
def degreesPerRadian : Float := 57.29577951308232

def apply : UnaryMath → Float → Float
  | abs, x => x.abs
  | sqrt, x => x.sqrt
  | cos, x => x.cos
  | sin, x => x.sin
  | tan, x => x.tan
  | acos, x => x.acos
  | asin, x => x.asin
  | atan, x => x.atan
  | radians, x => x * radiansPerDegree
  | degrees, x => x * degreesPerRadian

end UnaryMath

/-! ### Functions of two and three numbers -/

/-- A function of two numbers. -/
inductive BinaryMath
  | atan2
  | pow
  | min
  | max
  deriving DecidableEq, Repr

namespace BinaryMath

def name : BinaryMath → String
  | atan2 => "atan2"
  | pow => "pow"
  | min => "min"
  | max => "max"

def all : List BinaryMath := [atan2, pow, min, max]

def ofName? (s : String) : Option BinaryMath := all.find? (·.name == s)

/-- The minimum and the maximum of anything and NaN are NaN. -/
def apply : BinaryMath → Float → Float → Float
  | atan2, x, y => x.atan2 y
  | pow, x, y => x.pow y
  | min, x, y => if x.isNaN then x else if y.isNaN then y else if y < x then y else x
  | max, x, y => if x.isNaN then x else if y.isNaN then y else if x < y then y else x

end BinaryMath

/-- A function of three numbers. -/
inductive TernaryFn
  | clamp
  | mix
  deriving DecidableEq, Repr

namespace TernaryFn

def name : TernaryFn → String
  | clamp => "clamp"
  | mix => "mix"

def all : List TernaryFn := [clamp, mix]

def ofName? (s : String) : Option TernaryFn := all.find? (·.name == s)

/-- `clamp` brings the first number between the other two; `mix` goes from the first to the second
as the third goes from `0` to `1`. -/
def apply : TernaryFn → Float → Float → Float → Float
  | clamp, x, low, high => if x < low then low else if high < x then high else x
  | mix, x, y, t => (1 - t) * x + t * y

end TernaryFn

/-! ### Operators -/

/-- An operator or function with one operand. -/
inductive UnaryOp
  | not
  | negative
  | positive
  | isNaN
  | isFinite
  | isExactClass
  | isClass
  | toBoolean
  | toNumber
  | toString
  | math (f : UnaryMath)
  deriving DecidableEq, Repr

namespace UnaryOp

/-- The operator that a symbol stands for. -/
def ofSymbol? : String → Option UnaryOp
  | "!" => some not
  | "-" => some negative
  | "+" => some positive
  | _ => none

def name : UnaryOp → String
  | not => "!"
  | negative => "-"
  | positive => "+"
  | isNaN => "isNaN"
  | isFinite => "isFinite"
  | isExactClass => "isExactClass"
  | isClass => "isClass"
  | toBoolean => "Boolean"
  | toNumber => "Number"
  | toString => "String"
  | math f => f.name

end UnaryOp

namespace ArithmeticOp

def symbol : ArithmeticOp → String
  | add => "+"
  | sub => "-"
  | mul => "*"
  | div => "/"
  | rem => "%"

end ArithmeticOp

/-- The operators on truth values. The right operand is only evaluated if the left one does not
decide. -/
inductive LogicalOp
  | and
  | or
  deriving DecidableEq, Repr

namespace LogicalOp

def symbol : LogicalOp → String
  | and => "&&"
  | or => "||"

/-- The operator that a symbol stands for. -/
def ofSymbol? : String → Option LogicalOp
  | "&&" => some and
  | "||" => some or
  | _ => none

/-- The truth value that decides the outcome on the left. -/
def deciding : LogicalOp → Bool
  | and => false
  | or => true

end LogicalOp

/-- The operators that compare by order. -/
inductive OrderOp
  | less
  | atMost
  | greater
  | atLeast
  deriving DecidableEq, Repr

namespace OrderOp

def symbol : OrderOp → String
  | less => "<"
  | atMost => "<="
  | greater => ">"
  | atLeast => ">="

end OrderOp

/-- An operator or function with two operands, both of which are always evaluated. -/
inductive BinaryOp
  | arithmetic (op : ArithmeticOp)
  | strictEq
  | strictNe
  | looseEq
  | looseNe
  | order (op : OrderOp)
  | regexMatch
  | regexNotMatch
  | math (f : BinaryMath)
  deriving DecidableEq, Repr

namespace BinaryOp

/-- The operator that a symbol stands for. -/
def ofSymbol? : String → Option BinaryOp
  | "+" => some (arithmetic .add)
  | "-" => some (arithmetic .sub)
  | "*" => some (arithmetic .mul)
  | "/" => some (arithmetic .div)
  | "%" => some (arithmetic .rem)
  | "===" => some strictEq
  | "==" => some looseEq
  | "!==" => some strictNe
  | "!=" => some looseNe
  | ">" => some (order .greater)
  | ">=" => some (order .atLeast)
  | "<" => some (order .less)
  | "<=" => some (order .atMost)
  | "=~" => some regexMatch
  | "!~" => some regexNotMatch
  | _ => none

def symbol : BinaryOp → String
  | arithmetic op => op.symbol
  | strictEq => "==="
  | looseEq => "=="
  | strictNe => "!=="
  | looseNe => "!="
  | order op => op.symbol
  | regexMatch => "=~"
  | regexNotMatch => "!~"
  | math f => f.name

end BinaryOp

/-! ### Constructors and methods -/

/-- A function that makes a colour of its channels. -/
inductive ChannelFn
  | rgb
  | rgba
  | hsl
  | hsla
  deriving DecidableEq, Repr

namespace ChannelFn

def name : ChannelFn → String
  | rgb => "rgb"
  | rgba => "rgba"
  | hsl => "hsl"
  | hsla => "hsla"

def all : List ChannelFn := [rgb, rgba, hsl, hsla]

end ChannelFn

/-- A function that makes a colour. -/
inductive ColorFn
  /-- From the notation of style sheets and perhaps an alpha channel. -/
  | css
  | channels (f : ChannelFn)
  deriving DecidableEq, Repr

namespace ColorFn

def name : ColorFn → String
  | css => "color"
  | channels f => f.name

def all : List ColorFn := css :: ChannelFn.all.map channels

def ofName? (s : String) : Option ColorFn := all.find? (·.name == s)

end ColorFn

/-- The number of components of a vector. -/
inductive VectorSize
  | two
  | three
  | four
  deriving DecidableEq, Repr

namespace VectorSize

/-- The lane of the vectors of this size. -/
@[reducible] def lane : VectorSize → Lane
  | two => .vec2
  | three => .vec3
  | four => .vec4

/-- The number of components. -/
def count (n : VectorSize) : Nat := n.lane.size

def name (n : VectorSize) : String := n.lane.name

def all : List VectorSize := [two, three, four]

def ofName? (s : String) : Option VectorSize := all.find? (·.name == s)

end VectorSize

/-- A method that looks for a regular expression in a text. -/
inductive SearchMethod
  | test
  | exec
  deriving DecidableEq, Repr

namespace SearchMethod

def name : SearchMethod → String
  | test => "test"
  | exec => "exec"

end SearchMethod

/-- A method. -/
inductive Method
  | toString
  | search (m : SearchMethod)
  deriving DecidableEq, Repr

namespace Method

def name : Method → String
  | toString => "toString"
  | search m => m.name

def all : List Method := [search .test, search .exec, toString]

def ofName? (s : String) : Option Method := all.find? (·.name == s)

end Method

/-- How a member is written: behind a dot or between brackets. -/
inductive MemberAccess
  | dot
  | brackets
  deriving DecidableEq, Repr

/-- A number that changes while a tileset is shown, without a property of its own. -/
inductive Global
  | tilesetTime
  deriving DecidableEq, Repr

namespace Global

/-- The global that a name in a source stands for. -/
def ofName? : String → Option Global
  | "TILES3D_TILESET_TIME" => some tilesetTime
  | _ => none

/-- The name of the uniform that holds it in a shader. -/
def uniform : Global → String
  | tilesetTime => "u_tilesetTime"

end Global

end FeatureStyle
