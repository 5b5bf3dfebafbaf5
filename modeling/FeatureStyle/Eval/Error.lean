import FeatureStyle.Expr.Operators
import FeatureStyle.Value.Basic

/-!
# Evaluation errors

The ways in which an evaluation fails. Each belongs to one construct: logical operators need truth
values, methods and vectors need operands of certain types, colours and regular expressions need
well-formed texts. Missing properties are never an error.
-/

namespace FeatureStyle

/-- Why an evaluation fails. -/
inductive EvalError
  /-- An operand of a logical operator is no truth value. -/
  | undefinedOperation (op : LogicalOp) (found : ValueType)
  /-- A colour was asked for. -/
  | notAColor (found : ValueType)
  /-- The value has no method that gives its text. -/
  | noTextMethod (found : ValueType)
  /-- The value is no regular expression that could be searched for. -/
  | notARegex (method : SearchMethod) (found : ValueType)
  /-- The argument of a vector has no components. -/
  | noComponents (size : VectorSize) (found : ValueType)
  | tooManyComponents (size : VectorSize) (found : Nat)
  | tooFewComponents (size : VectorSize) (found : Nat)
  | invalidRegex (e : PatternError)
  | invalidColor (text : String)
  deriving DecidableEq, Repr

namespace EvalError

/-- The error as a text; `explain` words the fault of a regular expression. -/
def message (explain : Regex.Fault → String) : EvalError → String
  | undefinedOperation op found =>
    s!"Operation is undefined: `{op.symbol}` expects booleans, got {found.name}"
  | notAColor found => s!"type mismatch: expected a color, got {found.name}"
  | noTextMethod found => s!"type mismatch: toString is not available on {found.name}"
  | notARegex method found =>
    s!"type mismatch: {method.name} requires a regExp receiver, got {found.name}"
  | noComponents size found =>
    s!"type mismatch: {size.name} arguments must be numbers or vectors, got {found.name}"
  | tooManyComponents size found =>
    s!"invalid {size.name} constructor: too many arguments ({found} components for {size.count})"
  | tooFewComponents size found =>
    s!"invalid {size.name} constructor: not enough components ({found} for {size.count})"
  | invalidRegex e => s!"invalid regular expression: {e.message explain}"
  | invalidColor text => s!"invalid color `{text}`"

end EvalError

end FeatureStyle
