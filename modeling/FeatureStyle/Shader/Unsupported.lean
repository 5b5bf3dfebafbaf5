/-!
# What shaders cannot express

The constructs of the expression language that have no counterpart in a shader.
-/

namespace FeatureStyle

/-- Why an expression has no shader form. -/
inductive ShaderUnsupported
  | null
  | undefined
  /-- A string that is neither a colour nor the name of a component or property. -/
  | stringLiteral (text : String)
  | regularExpression
  | template
  /-- A function, method or operator without a counterpart. -/
  | function (name : String)
  | arrayLength (length : Nat)
  | computedProperty
  | invalidColor (text : String)
  deriving DecidableEq, Repr

namespace ShaderUnsupported

/-- The reason in words. -/
def reason : ShaderUnsupported → String
  | null => "null"
  | undefined => "undefined"
  | stringLiteral text => s!"string literal '{text}' outside a color constructor"
  | regularExpression => "regular expressions"
  | template => "converting a variable to a string"
  | function name => s!"\"{name}\""
  | arrayLength n => s!"array of length {n}, expected 2, 3 or 4"
  | computedProperty => "computed feature property"
  | invalidColor text => s!"'{text}' is not a CSS color"

/-- The error as a text. -/
def message (e : ShaderUnsupported) : String := s!"not supported in shader: {e.reason}"

end ShaderUnsupported

end FeatureStyle
