import FeatureStyle.Numeric.Numeral

/-!
# JSON values

The values of JSON documents and how they are written: with an indentation of two blanks, every item
and entry on a line of its own, and nothing between the brackets of an empty list or object. Text is
written as it is, except that quotation marks, backslashes and control characters are escaped. NaN
and the infinities are written as `null`.
-/

namespace FeatureStyle

/-- A JSON value. -/
inductive Json
  | null
  | bool (b : Bool)
  | number (x : Float)
  | string (s : String)
  | array (items : List Json)
  | object (entries : List (String × Json))

namespace Json

/-- A character in a quoted text. -/
def escape (c : Char) : List Char :=
  match c with
  | '"' => ['\\', '"']
  | '\\' => ['\\', '\\']
  | '\n' => ['\\', 'n']
  | '\r' => ['\\', 'r']
  | '\t' => ['\\', 't']
  | '\x08' => ['\\', 'b']
  | '\x0c' => ['\\', 'f']
  | c =>
    if c.toNat < 0x20 then
      ['\\', 'u', '0', '0', Nat.digitChar (c.toNat / 16), Nat.digitChar (c.toNat % 16)]
    else [c]

/-- A text between quotation marks. -/
def quote (s : String) : String :=
  String.ofList ('"' :: s.toList.flatMap escape ++ ['"'])

/-- A new line with an indentation. -/
def newLine (indentation : Nat) : String :=
  String.ofList ('\n' :: List.replicate (2 * indentation) ' ')

/-- Lines between brackets. -/
def block (opening closing : String) (indentation : Nat) : List String → String
  | [] => opening ++ closing
  | lines =>
    opening ++ newLine (indentation + 1) ++ ("," ++ newLine (indentation + 1)).intercalate lines ++
      newLine indentation ++ closing

mutual

/-- The text of a value inside so many brackets. -/
def prettyAt (indentation : Nat) : Json → String
  | null => "null"
  | bool b => if b then "true" else "false"
  | number x => (Numeric.jsonText? x).getD "null"
  | string s => quote s
  | array items => block "[" "]" indentation (prettyItems (indentation + 1) items)
  | object entries => block "\x7b" "\x7d" indentation (prettyEntries (indentation + 1) entries)

/-- The texts of items. -/
def prettyItems (indentation : Nat) : List Json → List String
  | [] => []
  | v :: vs => v.prettyAt indentation :: prettyItems indentation vs

/-- The texts of entries. -/
def prettyEntries (indentation : Nat) : List (String × Json) → List String
  | [] => []
  | (key, v) :: rest =>
    (quote key ++ ": " ++ v.prettyAt indentation) :: prettyEntries indentation rest

end

/-- The text of a value. -/
def pretty (v : Json) : String := v.prettyAt 0

end Json

end FeatureStyle
