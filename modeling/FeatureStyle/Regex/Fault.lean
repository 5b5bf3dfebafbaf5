/-!
# Faults of patterns

Why a pattern is refused.
-/

namespace FeatureStyle.Regex

/-- What is wrong with a pattern. -/
inductive Fault
  | unclosedGroup
  | unopenedGroup
  | lookAround
  | invalidGroupName
  | duplicateGroupName
  | invalidFlags
  | missingOperand
  | invalidCount
  | invalidEscape
  | backReference
  | unclosedClass
  | invalidClassItem
  | invalidRange
  | unknownProperty
  | invalidCodePoint
  | unicodeRequired
  | tooDeep
  | tooLarge
  deriving DecidableEq, Repr

/-- A short description of the fault. -/
def Fault.message : Fault → String
  | .unclosedGroup => "unclosed group"
  | .unopenedGroup => "unopened group"
  | .lookAround => "look-around is not supported"
  | .invalidGroupName => "invalid group name"
  | .duplicateGroupName => "duplicate group name"
  | .invalidFlags => "invalid flags"
  | .missingOperand => "repetition operator without an operand"
  | .invalidCount => "invalid repetition count"
  | .invalidEscape => "unrecognized escape sequence"
  | .backReference => "back-references are not supported"
  | .unclosedClass => "unclosed character class"
  | .invalidClassItem => "escape sequence is not allowed in a character class"
  | .invalidRange => "invalid character class range"
  | .unknownProperty => "unknown Unicode property"
  | .invalidCodePoint => "invalid code point"
  | .unicodeRequired => "the pattern could match text that is not valid Unicode"
  | .tooDeep => "the pattern is nested too deeply"
  | .tooLarge => "the compiled pattern is too large"

end FeatureStyle.Regex
