import FeatureStyle.Document.Json
import FeatureStyle.Numeric.Binary
import FeatureStyle.Value.Basic

/-!
# Values as JSON

A JSON value without objects is a value of the expression language. The other way, what is undefined
becomes `null`, a regular expression its text, and a colour or vector the list of its components.
-/

namespace FeatureStyle

namespace Json

mutual

/-- The value that a JSON value stands for. Objects stand for none. -/
def toValue? : Json → Option Value
  | null => some .null
  | bool b => some (.bool b)
  | number x => some (.number x)
  | string s => some (.string s)
  | array items => (toValues? items).map .array
  | object _ => none

/-- The values that JSON values stand for. -/
def toValues? : List Json → Option (List Value)
  | [] => some []
  | j :: js => do
    let v ← j.toValue?
    return v :: (← toValues? js)

end

end Json

namespace Value

mutual

/-- The value as JSON. -/
def toJson : Value → Json
  | undefined | null => .null
  | bool b => .bool b
  | number x => .number x
  | string s => .string s
  | regExp p => .string p.text
  | composite _ c => .array (c.toList.map fun x ↦ .number (Numeric.widen x))
  | array items => .array (toJsons items)

/-- The values as JSON. -/
def toJsons : List Value → List Json
  | [] => []
  | v :: vs => v.toJson :: toJsons vs

end

end Value

end FeatureStyle
