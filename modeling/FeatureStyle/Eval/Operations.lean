import FeatureStyle.Color.Css
import FeatureStyle.Color.Hsl
import FeatureStyle.Eval.Error
import FeatureStyle.Subject.Dialogue
import FeatureStyle.Text.Units
import FeatureStyle.Value.Coercion
import FeatureStyle.Value.Components

/-!
# What operators do to values

The meaning of every operator, function, method and member access on values that are already there.
What decides whether an operand is evaluated at all is not here but with the evaluation of
expressions.

* Arithmetic goes component by component between two colours or two vectors of one kind; a number
  scales them from either side but divides them only from the right. Everything else is taken for a
  number, except that `+` joins texts as soon as one side is a text or an object.
* Order and loose equality follow the conversions of `Value.Coercion`.
* A member is a component, an item, a unit of a text or a length, and missing otherwise.

The arithmetic and the order of numbers are stated for any kind of number.
-/

namespace FeatureStyle

open Numeric (Arithmetic)

/-! ### Numbers -/

/-- The operator on numbers. -/
def ArithmeticOp.ofNumbers {K : Type} [Arithmetic K] : ArithmeticOp → K → K → K
  | .add, x, y => x + y
  | .sub, x, y => x - y
  | .mul, x, y => x * y
  | .div, x, y => x / y
  | .rem, x, y => Arithmetic.rem x y

/-- The comparison of numbers. -/
def OrderOp.ofNumbers {K : Type} [Arithmetic K] : OrderOp → K → K → Bool
  | .less, x, y => Arithmetic.less x y
  | .atMost, x, y => Arithmetic.atMost x y
  | .greater, x, y => Arithmetic.less y x
  | .atLeast, x, y => Arithmetic.atMost y x

/-- The comparison of texts, character by character. -/
def OrderOp.ofTexts : OrderOp → String → String → Bool
  | .less, s, t => s < t
  | .atMost, s, t => !decide (t < s)
  | .greater, s, t => t < s
  | .atLeast, s, t => !decide (s < t)

namespace Value

/-! ### Operators with one operand -/

/-- Vectors are negated component by component, and everything else is taken for a number. -/
def negate : Value → Value
  | composite lane c =>
    if lane = .color then number (-(composite lane c).toNumber) else composite lane c.negate
  | v => number (-v.toNumber)

/-- Colours and vectors stay as they are, and everything else is taken for a number. -/
def positive : Value → Value
  | composite lane c => composite lane c
  | v => number v.toNumber

/-! ### Arithmetic -/

/-- Arithmetic that has to do with components: between two values of one kind, or with a number that
scales. -/
def componentwise? (op : ArithmeticOp) : Value → Value → Option Value
  | composite l a, composite l' b =>
    if h : l' = l then some (composite l (a.combine op (h ▸ b))) else none
  | composite l a, number k =>
    match op with
    | .mul => some (composite l (a.scale (Numeric.narrow k)))
    | .div => some (composite l (a.unscale (Numeric.narrow k)))
    | _ => none
  | number k, composite l a =>
    match op with
    | .mul => some (composite l (a.scale (Numeric.narrow k)))
    | _ => none
  | _, _ => none

/-- Whether `+` next to the value joins texts. -/
def joins : Value → Bool
  | string _ => true
  | v => v.isObject

/-- An arithmetic operator between two values. -/
def arithmetic (op : ArithmeticOp) (v w : Value) : Value :=
  match componentwise? op v w with
  | some r => r
  | none =>
    if op = .add ∧ (v.joins ∨ w.joins) then string (v.text ++ w.text)
    else number (op.ofNumbers v.toNumber w.toNumber)

/-! ### Comparison -/

/-- A comparison by order: of the texts if both sides have one, of the numbers otherwise. -/
def ordered (op : OrderOp) (v w : Value) : Bool :=
  match v.orderText?, w.orderText? with
  | some s, some t => op.ofTexts s t
  | _, _ => op.ofNumbers v.toNumber w.toNumber

/-- Whether a regular expression on either side matches the text of the other side. The left one is
taken first. -/
def regexMatches? : Value → Value → Option Bool
  | regExp p, w => some (p.test w.text)
  | v, regExp p => some (p.test v.text)
  | _, _ => none

/-! ### Members -/

/-- The number that a text stands for as an index: written in decimal without anything more than
needed. -/
def indexOfText? (s : String) : Option Nat :=
  let cs := s.toList
  match Numeric.readWhole? 10 Numeric.wordBound cs with
  | some n => if Nat.toDigits 10 n = cs then some n else none
  | none => none

/-- The index that a key stands for. -/
def index? : Value → Option Nat
  | number x => Numeric.exactNat? x
  | string s => indexOfText? s
  | _ => none

/-- The component that a name stands for. The channels of a colour have names of their own. -/
def componentOfName? (lane : Lane) : String → Option Nat
  | "x" => some 0
  | "y" => some 1
  | "z" => some 2
  | "w" => some 3
  | "red" => if lane = .color then some 0 else none
  | "green" => if lane = .color then some 1 else none
  | "blue" => if lane = .color then some 2 else none
  | "alpha" => if lane = .color then some 3 else none
  | _ => none

/-- The component that a key stands for. -/
def componentIndex? (lane : Lane) : Value → Option Nat
  | number x => Numeric.exactNat? x
  | string s => componentOfName? lane s
  | _ => none

/-- Whether a key asks for the length. -/
def isLengthKey : Value → Bool
  | string s => s == "length"
  | _ => false

/-- The member of a value at a key. -/
def member (object key : Value) : Value :=
  match object with
  | composite lane c =>
    match componentIndex? lane key with
    | some i => (c.toList[i]?).elim undefined fun x ↦ number (Numeric.widen x)
    | none => undefined
  | string s =>
    if key.isLengthKey then number (.ofNat (Text.unitLength s.toList))
    else
      match key.index? with
      | some i => ((Text.units s.toList)[i]?).elim undefined fun c ↦ string (String.singleton c)
      | none => undefined
  | array items =>
    if key.isLengthKey then number (.ofNat items.length)
    else
      match key.index? with
      | some i => (items[i]?).getD undefined
      | none => undefined
  | _ => undefined

/-! ### Truth values, regular expressions and texts -/

/-- The truth value that a logical operator needs. -/
def expectBool (op : LogicalOp) : Value → Except EvalError Bool
  | bool b => .ok b
  | v => .error (.undefinedOperation op v.type)

/-- The regular expression that a search needs. -/
def expectRegex (m : SearchMethod) : Value → Except EvalError Pattern
  | regExp p => .ok p
  | v => .error (.notARegex m v.type)

/-- The text that the method of a value gives. -/
def methodText : Value → Except EvalError String
  | v@(regExp _) | v@(composite _ _) => .ok v.text
  | v => .error (.noTextMethod v.type)

/-- The colour that a value is. -/
def expectColor : Value → Except EvalError Color
  | composite .color c => .ok c
  | v => .error (.notAColor v.type)

/-- What a pattern or flags are taken for: nothing at all if they are undefined. -/
def regexText : Value → String
  | undefined => ""
  | v => v.text

/-- The regular expression of a pattern and flags. -/
def compileRegex (pattern flags : Value) : Except EvalError Value :=
  match Pattern.compile pattern.regexText flags.regexText with
  | .ok p => .ok (regExp p)
  | .error e => .error (.invalidRegex e)

/-! ### Colours and vectors -/

/-- The colour that a value denotes in the notation of style sheets. -/
def cssColor : Value → Except EvalError Color
  | string s =>
    match Color.ofCss? s with
    | some c => .ok c
    | none => .error (.invalidColor s)
  | v => .error (.invalidColor v.text)

/-- The components that a value contributes to a vector. -/
def components (size : VectorSize) : Value → Except EvalError (List Float32)
  | number x => .ok [Numeric.narrow x]
  | v@(composite lane c) =>
    if lane = .color then .error (.noComponents size v.type) else .ok c.toList
  | v => .error (.noComponents size v.type)

end Value

/-- What a search gives. -/
def SearchMethod.result : SearchMethod → Pattern → String → Value
  | .test, p, s => .bool (p.test s)
  | .exec, p, s =>
    match p.exec s with
    | .noMatch => .null
    | .noGroup => .undefined
    | .group text => .string text

/-- The colour of at most four channels. Channels that are not given are `1`. -/
def ChannelFn.apply (f : ChannelFn) (channels : List Float) : Color :=
  let first := channels.getD 0 1
  let second := channels.getD 1 1
  let third := channels.getD 2 1
  let alpha := channels.getD 3 1
  match f with
  | .rgb => .ofBytes (Numeric.narrow first) (Numeric.narrow second) (Numeric.narrow third) 255
  | .rgba =>
    .ofBytes (Numeric.narrow first) (Numeric.narrow second) (Numeric.narrow third)
      (Numeric.narrow (alpha * 255))
  | .hsl | .hsla => .ofHsl first second third alpha

/-- The vector of the components of some number of arguments. A single component is repeated, and
a single argument may have too many. -/
def VectorSize.ofComponents (size : VectorSize) (arguments : Nat) (components : List Float32) :
    Except EvalError (Composite size.lane) :=
  let row := ComponentRow.ofList components
  if row.count = 1 then .ok (row.spread size.lane)
  else if size.count < row.count ∧ 1 < arguments then .error (.tooManyComponents size row.count)
  else if row.count < size.count then .error (.tooFewComponents size row.count)
  else .ok (row.front size.lane)

/-- An operator or function with one operand. Only the tests for a class ask the feature. -/
def UnaryOp.apply : UnaryOp → Value → Dialogue Value
  | .not, v => pure (.bool !v.truthy)
  | .negative, v => pure v.negate
  | .positive, v => pure v.positive
  | .isNaN, v => pure (.bool v.toNumber.isNaN)
  | .isFinite, v => pure (.bool v.toNumber.isFinite)
  | .isExactClass, v => Value.bool <$> Dialogue.query (.isExactClass v.text)
  | .isClass, v => Value.bool <$> Dialogue.query (.isClass v.text)
  | .toBoolean, v => pure (.bool v.truthy)
  | .toNumber, v => pure (.number v.toNumber)
  | .toString, v => pure (.string v.text)
  | .math f, v => pure (.number (f.apply v.toNumber))

/-- An operator or function with two operands. -/
def BinaryOp.apply : BinaryOp → Value → Value → Value
  | .arithmetic op, v, w => v.arithmetic op w
  | .strictEq, v, w => .bool (v.strictEq w)
  | .strictNe, v, w => .bool !v.strictEq w
  | .looseEq, v, w => .bool (v.looseEq w)
  | .looseNe, v, w => .bool !v.looseEq w
  | .order op, v, w => .bool (v.ordered op w)
  | .regexMatch, v, w => .bool ((v.regexMatches? w).getD false)
  | .regexNotMatch, v, w => .bool (((v.regexMatches? w).map not).getD false)
  | .math f, v, w => .number (f.apply v.toNumber w.toNumber)

end FeatureStyle
