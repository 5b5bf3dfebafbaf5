import FeatureStyle.Value.Basic

/-!
# Conversions and comparisons

How a value is taken for a truth value, a number or a text, and how two values are compared.

* Strict equality holds only between values of one type, and never between arrays or regular
  expressions.
* Loose equality first brings both sides to a number or a text: a truth value to a number, an object
  to its text. Two objects are loosely equal only when they are colours or vectors with equal
  components. The missing values are equal to each other and to nothing else.
* Order is the order of the texts if both sides have one, and of the numbers otherwise.
-/

namespace FeatureStyle.Value

/-! ### Conversions -/

/-- The truth value that a value is taken for. -/
def truthy : Value → Bool
  | undefined | null => false
  | bool b => b
  | number x => x != 0 && !x.isNaN
  | string s => !s.isEmpty
  | _ => true

/-- The number `1` or `0` for a truth value. -/
def boolNumber (b : Bool) : Float := if b then 1 else 0

/-- The number that a value is taken for. -/
def toNumber : Value → Float
  | undefined => Numeric.nan
  | null => 0
  | bool b => boolNumber b
  | number x => x
  | string s => Numeric.readNumber s
  | v => Numeric.readNumber v.text

/-! ### Equality -/

/-- Whether two colours or two vectors of one kind are equal; no answer for other values. -/
def compositeEq? : Value → Value → Option Bool
  | composite l c, composite l' d => if h : l = l' then some (c == (h ▸ d)) else none
  | _, _ => none

/-- Equality of values of one type. -/
def strictEq (v w : Value) : Bool :=
  match compositeEq? v w with
  | some equal => equal
  | none =>
    match v, w with
    | undefined, undefined => true
    | null, null => true
    | bool a, bool b => a == b
    | number x, number y => x == y
    | string s, string t => s == t
    | _, _ => false

/-- What loose equality compares: a number or a text. -/
inductive Scalar
  | number (x : Float)
  | text (s : String)

/-- The number or text that a value is brought to. -/
def scalar : Value → Scalar
  | bool b => .number (boolNumber b)
  | number x => .number x
  | string s => .text s
  | v => .text v.text

/-- Equality of numbers and texts; a text next to a number is read as one. -/
def Scalar.eq : Scalar → Scalar → Bool
  | .number x, .number y => x == y
  | .text s, .text t => s == t
  | .number x, .text s | .text s, .number x => x == Numeric.readNumber s

/-- Equality after conversion. -/
def looseEq (v w : Value) : Bool :=
  match compositeEq? v w with
  | some equal => equal
  | none =>
    if v.isNullish || w.isNullish then v.isNullish && w.isNullish
    else if v.isObject && w.isObject then false
    else v.scalar.eq w.scalar

/-! ### Order -/

/-- The text by which a value is ordered, if it has one. -/
def orderText? (v : Value) : Option String :=
  match v with
  | string s => some s
  | v => if v.isObject then some v.text else none

end FeatureStyle.Value
