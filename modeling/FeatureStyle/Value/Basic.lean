import FeatureStyle.Numeric.Language
import FeatureStyle.Regex.Pattern
import FeatureStyle.Value.Composite

/-!
# Values

What expressions evaluate to and what the properties of a feature hold.

`Value.text` is the text of a value: what conversions to strings, templates and the command line all
show. Equality of values is that of their numbers, so a value that holds NaN is not equal to
itself.
-/

namespace FeatureStyle

/-- The type of a value, as expressions see it. -/
inductive ValueType
  | undefined
  | null
  | boolean
  | number
  | string
  | regExp
  | composite (lane : Lane)
  | array
  deriving DecidableEq, Repr

/-- The name of a type in messages. -/
def ValueType.name : ValueType → String
  | .undefined => "undefined"
  | .null => "null"
  | .boolean => "boolean"
  | .number => "number"
  | .string => "string"
  | .regExp => "regExp"
  | .composite lane => lane.name
  | .array => "array"

/-- A value of the expression language. -/
inductive Value
  | undefined
  | null
  | bool (b : Bool)
  | number (x : Float)
  | string (s : String)
  | regExp (p : Pattern)
  | composite (lane : Lane) (c : Composite lane)
  | array (items : List Value)

namespace Value

/-- A colour as a value. -/
abbrev color (c : Color) : Value := .composite .color c

def type : Value → ValueType
  | undefined => .undefined
  | null => .null
  | bool _ => .boolean
  | number _ => .number
  | string _ => .string
  | regExp _ => .regExp
  | composite lane _ => .composite lane
  | array _ => .array

/-- The name of the value's type. -/
def typeName (v : Value) : String := v.type.name

def asBool? : Value → Option Bool
  | bool b => some b
  | _ => none

def asNumber? : Value → Option Float
  | number x => some x
  | _ => none

def asString? : Value → Option String
  | string s => some s
  | _ => none

/-- Whether the value stands for the lack of one. -/
def isNullish : Value → Bool
  | undefined | null => true
  | _ => false

/-- Whether the value is neither primitive nor missing. -/
def isObject : Value → Bool
  | regExp _ | composite _ _ | array _ => true
  | _ => false

/-- A truth value as a text. -/
def boolText (b : Bool) : String := if b then "true" else "false"

mutual

/-- The text of a value. -/
def text : Value → String
  | undefined => "undefined"
  | null => "null"
  | bool b => boolText b
  | number x => Numeric.numberText x
  | string s => s
  | regExp p => p.text
  | composite _ c => c.text
  | array items => ",".intercalate (itemTexts items)

/-- The texts of the items of an array. A missing item leaves its place empty. -/
def itemTexts : List Value → List String
  | [] => []
  | v :: vs => (if v.isNullish then "" else v.text) :: itemTexts vs

end

mutual

/-- Whether two values are equal, number by number. -/
protected def beq : Value → Value → Bool
  | undefined, undefined => true
  | null, null => true
  | bool a, bool b => a == b
  | number x, number y => x == y
  | string s, string t => s == t
  | regExp p, regExp q => p == q
  | composite l c, composite l' d => if h : l = l' then c == (h ▸ d) else false
  | array items, array items' => beqItems items items'
  | _, _ => false

def beqItems : List Value → List Value → Bool
  | [], [] => true
  | v :: vs, w :: ws => v.beq w && beqItems vs ws
  | _, _ => false

end

instance : BEq Value := ⟨Value.beq⟩

end Value

end FeatureStyle
