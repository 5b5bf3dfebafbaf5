import FeatureStyle.Document.Datum
import FeatureStyle.Document.Json.Number
import FeatureStyle.Text.Reading

/-!
# Reading JSON documents

`JsonText.part?` reads a document in JSON as it is written, and `Datum.ofJsonText?` says what its
parts can be taken for. The grammar is the usual one, without any leniency: no comments, no commas
too many, no zeros in front of a number.

Three things are no mistake of the grammar but leave a part without readings: half of a pair of code
units that is escaped on its own, a number that is too large, and brackets inside more than
`nestingLimit` others.

**Every reader uses up characters,** which is why they come to an end.
-/

namespace FeatureStyle

/-- A part of a JSON document as it is written. Texts and keys are missing if half of a pair of code
units is escaped in them on its own. -/
inductive JsonPart
  | null
  | bool (b : Bool)
  | number (n : JsonNumber)
  | text (s? : Option String)
  | list (items : List JsonPart)
  | map (entries : List (Option String × JsonPart))

namespace JsonText

open Text (Taken MaybeTaken Reading)

/-- The characters between the parts of a document. -/
def isBlank (c : Char) : Bool := c == ' ' || c == '\n' || c == '\t' || c == '\r'

/-- The next character that is not blank. -/
def next? (text : List Char) : Reading Char text :=
  match Text.takeWhile isBlank text with
  | ⟨_, [], _⟩ => none
  | ⟨_, c :: rest, h⟩ => some ⟨c, rest, h⟩

/-! ### Texts -/

/-- The value of four hexadecimal digits. -/
def hexUnit? (a b c d : Char) : Option Nat :=
  [a, b, c, d].foldlM
    (fun n c ↦
      if c.isDigit then some (16 * n + (c.toNat - 48))
      else if 'a' ≤ c ∧ c ≤ 'f' then some (16 * n + (c.toNat - 87))
      else if 'A' ≤ c ∧ c ≤ 'F' then some (16 * n + (c.toNat - 55))
      else none) 0

/-- The character that an escape of one letter stands for. -/
def escaped? : Char → Option Char
  | '"' => some '"'
  | '\\' => some '\\'
  | '/' => some '/'
  | 'b' => some '\x08'
  | 'f' => some '\x0c'
  | 'n' => some '\n'
  | 'r' => some '\r'
  | 't' => some '\t'
  | _ => none

/-- Whether a code unit is the first of a pair. -/
def isHigh (n : Nat) : Bool := 0xD800 ≤ n && n < 0xDC00

/-- Whether a code unit is the second of a pair. -/
def isLow (n : Nat) : Bool := 0xDC00 ≤ n && n < 0xE000

/-- The code unit that is escaped at the front of a text. -/
def escapedUnit? (text : List Char) : Reading Nat text :=
  match text with
  | '\\' :: 'u' :: a :: b :: c :: d :: rest =>
    (hexUnit? a b c d).map fun n ↦ ⟨n, rest, by simp only [List.length_cons]; omega⟩
  | _ => none

/-- The first character of a text between quotation marks, which may be escaped. There is none for
half of a pair of code units. -/
def textChar? (text : List Char) : Reading (Option Char) text :=
  match text with
  | [] => none
  | '\\' :: 'u' :: cs => do
    let ⟨n, rest, h⟩ ← escapedUnit? ('\\' :: 'u' :: cs)
    if isHigh n then
      match escapedUnit? rest with
      | some ⟨m, rest', h'⟩ =>
        if isLow m then
          some ⟨some (Char.ofNat (0x10000 + 0x400 * (n - 0xD800) + (m - 0xDC00))), rest', by omega⟩
        else some ⟨none, rest, h⟩
      | none => some ⟨none, rest, h⟩
    else some ⟨if isLow n then none else some (Char.ofNat n), rest, h⟩
  | '\\' :: c :: rest =>
    (escaped? c).map fun c ↦ ⟨some c, rest, Nat.lt_succ_of_lt (Nat.lt_succ_self _)⟩
  | c :: rest =>
    if c.toNat < 0x20 then none else some ⟨some c, rest, by simp⟩

/-- The rest of a text between quotation marks, whose opening one has been read. -/
def textBody? (text : List Char) : Reading (Option (List Char)) text :=
  match text with
  | '"' :: rest => some ⟨some [], rest, by simp⟩
  | text => do
    let ⟨c?, rest, h⟩ ← textChar? text
    let ⟨cs?, rest', h'⟩ ← textBody? rest
    some ⟨do return (← c?) :: (← cs?), rest', by omega⟩
termination_by text.length

/-! ### Numbers and names -/

/-- The digits at the front of a text, and the rest. -/
def digits (text : List Char) : MaybeTaken (List Nat) text :=
  (Text.takeWhile Char.isDigit text).map (List.map fun c ↦ c.toNat - 48)

/-- The digits at the front of a text, of which there has to be one. -/
def someDigits? (text : List Char) : Reading (List Nat) text :=
  match text with
  | [] => none
  | c :: cs =>
    if c.isDigit then some ((digits cs).map ((c.toNat - 48) :: ·)).behind else none

/-- The digits behind a point, if there is one. -/
def fraction? (text : List Char) : Option (MaybeTaken (List Nat) text) :=
  match text with
  | '.' :: cs => (someDigits? cs).map fun t ↦ t.behind.toMaybe
  | text => some ⟨[], text, Nat.le_refl _⟩

/-- The digits of an exponent, which may have a sign. -/
def exponentDigits? (text : List Char) : Reading Int text :=
  let value (ds : List Nat) : Int := (ds.foldl (fun n d ↦ 10 * n + d) 0 : Nat)
  match text with
  | '+' :: cs => (someDigits? cs).map fun t ↦ (t.map value).behind
  | '-' :: cs => (someDigits? cs).map fun t ↦ (t.map fun ds ↦ -value ds).behind
  | text => (someDigits? text).map (Taken.map value)

/-- The exponent, if there is one. -/
def exponent? (text : List Char) : Option (MaybeTaken (Option Int) text) :=
  match text with
  | [] => some ⟨none, [], Nat.le_refl _⟩
  | c :: cs =>
    if c = 'e' ∨ c = 'E' then
      (exponentDigits? cs).map fun t ↦ (t.map some).behind.toMaybe
    else some ⟨none, c :: cs, Nat.le_refl _⟩

/-- A number behind its sign. -/
def unsigned? (negative : Bool) (text : List Char) : Reading JsonNumber text := do
  let ⟨whole, rest, h⟩ ← someDigits? text
  if whole.head? = some 0 ∧ whole.length ≠ 1 then none
  else
    let ⟨fraction, rest', h'⟩ ← fraction? rest
    let ⟨e, rest'', h''⟩ ← exponent? rest'
    some ⟨⟨negative, whole, fraction, e⟩, rest'', by omega⟩

/-- A number. -/
def number? (text : List Char) : Reading JsonNumber text :=
  match text with
  | '-' :: cs => (unsigned? true cs).map Taken.behind
  | text => unsigned? false text

/-- The rest of a text that starts with a word. -/
def afterWord? (word : List Char) (text : List Char) :
    Option { rest : List Char // rest.length ≤ text.length } :=
  if word.isPrefixOf text then some ⟨text.drop word.length, by simp⟩ else none

/-! ### Values -/

mutual

/-- A value. -/
def value? (text : List Char) : Reading JsonPart text := do
  let ⟨c, rest, h⟩ ← next? text
  if c = '[' then
    match next? rest with
    | some ⟨']', rest', h'⟩ => some ⟨.list [], rest', by omega⟩
    | _ =>
      let ⟨items, rest', h'⟩ ← items? rest
      some ⟨.list items, rest', by omega⟩
  else if c = '\x7b' then
    match next? rest with
    | some ⟨'\x7d', rest', h'⟩ => some ⟨.map [], rest', by omega⟩
    | _ =>
      let ⟨entries, rest', h'⟩ ← entries? rest
      some ⟨.map entries, rest', by omega⟩
  else if c = '"' then
    let ⟨cs?, rest', h'⟩ ← textBody? rest
    some ⟨.text (cs?.map String.ofList), rest', by omega⟩
  else if c = 'n' then
    let ⟨rest', h'⟩ ← afterWord? "ull".toList rest
    some ⟨.null, rest', by omega⟩
  else if c = 't' then
    let ⟨rest', h'⟩ ← afterWord? "rue".toList rest
    some ⟨.bool true, rest', by omega⟩
  else if c = 'f' then
    let ⟨rest', h'⟩ ← afterWord? "alse".toList rest
    some ⟨.bool false, rest', by omega⟩
  else
    let ⟨n, rest', h'⟩ ← number? (c :: rest)
    some ⟨.number n, rest', by simp only [List.length_cons] at h'; omega⟩
termination_by (text.length, 0)

/-- The items of a list up to the closing bracket. -/
def items? (text : List Char) : Reading (List JsonPart) text := do
  let ⟨item, rest, h⟩ ← value? text
  match next? rest with
  | some ⟨',', rest', h'⟩ =>
    let ⟨items, rest'', h''⟩ ← items? rest'
    some ⟨item :: items, rest'', by omega⟩
  | some ⟨']', rest', h'⟩ => some ⟨[item], rest', by omega⟩
  | _ => none
termination_by (text.length, 1)

/-- The entries of a map up to the closing brace. -/
def entries? (text : List Char) : Reading (List (Option String × JsonPart)) text := do
  match next? text with
  | some ⟨'"', rest, h⟩ =>
    let ⟨key, rest₁, h₁⟩ ← textBody? rest
    match next? rest₁ with
    | some ⟨':', rest₂, h₂⟩ =>
      let ⟨value, rest₃, h₃⟩ ← value? rest₂
      let entry := (key.map String.ofList, value)
      match next? rest₃ with
      | some ⟨',', rest₄, h₄⟩ =>
        let ⟨entries, rest₅, h₅⟩ ← entries? rest₄
        some ⟨entry :: entries, rest₅, by omega⟩
      | some ⟨'\x7d', rest₄, h₄⟩ => some ⟨[entry], rest₄, by omega⟩
      | _ => none
    | _ => none
  | _ => none
termination_by (text.length, 1)

end

/-- A text that is a value from its front to its end. -/
def part? (text : String) : Option JsonPart := do
  let taken ← value? text.toList
  match next? taken.rest with
  | none => some taken.value
  | some _ => none

end JsonText

/-! ### Readings of what is written -/

namespace JsonPart

/-- The brackets that may be inside one another. -/
def nestingLimit : Nat := 127

/-- A text as a part of a document. -/
def textDatum : Option String → Datum
  | some s => .scalar ⟨some s, none, some (.string s), false, false⟩
  | none => .unreadable

/-- A number as a part of a document. -/
def numberDatum (n : JsonNumber) : Datum :=
  let x? := n.value?
  .scalar ⟨none, x?, x?.map .number, false, false⟩

/-- A part in brackets, which has no readings if it is inside too many others. -/
def bracketed (depth : Nat) (d : Datum) : Datum :=
  if depth < nestingLimit then d else .unreadable

mutual

/-- What a part inside so many brackets can be taken for. -/
def datum (depth : Nat) : JsonPart → Datum
  | null => .scalar ⟨none, none, some .null, true, false⟩
  | bool b => .scalar ⟨none, none, some (.bool b), false, false⟩
  | number n => numberDatum n
  | text s? => textDatum s?
  | list items => bracketed depth (.list (datums (depth + 1) items))
  | map entries => bracketed depth (.map (entryDatums (depth + 1) entries))

/-- What items can be taken for. -/
def datums (depth : Nat) : List JsonPart → List Datum
  | [] => []
  | item :: items => item.datum depth :: datums depth items

/-- What the values of entries can be taken for. -/
def entryDatums (depth : Nat) : List (Option String × JsonPart) → List (Option String × Datum)
  | [] => []
  | (key, value) :: entries => (key, value.datum depth) :: entryDatums depth entries

end

end JsonPart

/-- The document that a text in JSON holds. -/
def Datum.ofJsonText? (text : String) : Option Datum :=
  (JsonText.part? text).map (JsonPart.datum 0)

end FeatureStyle
