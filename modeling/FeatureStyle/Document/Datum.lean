import FeatureStyle.Document.Json

/-!
# Documents before they have a meaning

What a part of a document can be taken for depends on who asks: the same few characters may be a
number in one place and a text in another. A `Datum` is a document whose parts still hold all of
their readings. A reading that a part does not have is only an error when it is asked for, so what
nobody looks at does no harm.

A record is read from a map or from the list of its fields in order. Fields that are left out at the
end of a list or in a map are absent, fields of other names are passed over, and a field given twice
is an error.
-/

namespace FeatureStyle

/-- The readings of a part of a document that has no parts of its own. -/
structure Scalar where
  /-- As a text. -/
  text? : Option String
  /-- As a floating-point number. -/
  number? : Option Float
  /-- As a JSON value. -/
  value? : Option Json
  /-- Whether it stands for the lack of something optional. -/
  isNull : Bool
  /-- Whether nothing is written there at all. That is also an empty list and a record without
  fields. -/
  isEmpty : Bool

/-- A document or a part of one. -/
inductive Datum
  | scalar (s : Scalar)
  | list (items : List Datum)
  /-- The keys that cannot be read are missing. -/
  | map (entries : List (Option String × Datum))

namespace Datum

/-- A part without any readings. -/
def unreadable : Datum := .scalar ⟨none, none, none, false, false⟩

/-- The part as a text. -/
def text? : Datum → Option String
  | scalar s => s.text?
  | _ => none

/-- The part as a number. -/
def number? : Datum → Option Float
  | scalar s => s.number?
  | _ => none

/-- The part as something optional: `some none` if it stands for the lack of it. -/
def optional? {α : Type} (read? : Datum → Option α) (d : Datum) : Option (Option α) :=
  match d with
  | scalar s => if s.isNull then some none else (read? d).map some
  | _ => (read? d).map some

/-- The part as a list. -/
def items? : Datum → Option (List Datum)
  | scalar s => if s.isEmpty then some [] else none
  | list items => some items
  | map _ => none

/-- The part as a map, with all keys readable. -/
def entries? : Datum → Option (List (String × Datum))
  | scalar s => if s.isEmpty then some [] else none
  | list _ => none
  | map entries => entries.mapM fun (key?, d) ↦ key?.map fun key ↦ (key, d)

mutual

/-- The part as a JSON value. -/
def json? : Datum → Option Json
  | scalar s => s.value?
  | list items => (jsonItems? items).map .array
  | map entries => (jsonEntries? entries).map .object

/-- The parts as JSON values. -/
def jsonItems? : List Datum → Option (List Json)
  | [] => some []
  | d :: ds => do
    let v ← d.json?
    return v :: (← jsonItems? ds)

/-- The entries as those of a JSON object. -/
def jsonEntries? : List (Option String × Datum) → Option (List (String × Json))
  | [] => some []
  | (key?, d) :: rest => do
    let key ← key?
    let v ← d.json?
    return (key, v) :: (← jsonEntries? rest)

end

/-! ### Records -/

/-- The fields of a record that are given. -/
abbrev Fields := List (String × Datum)

/-- The entries whose names are fields, unless one is given twice. -/
def knownFields? (names : List String) : List (String × Datum) → Option Fields
  | [] => some []
  | (key, d) :: rest => do
    let fields ← knownFields? names rest
    if !names.contains key then return fields
    else if fields.any (·.1 == key) then none
    else return (key, d) :: fields

/-- The part as a record with fields of the given names. -/
def fields? (names : List String) (d : Datum) : Option Fields :=
  match d with
  | list items => if items.length ≤ names.length then some (names.zip items) else none
  | d => d.entries?.bind (knownFields? names)

/-- A field of a record, or what stands for it if it is absent. -/
def field? {α : Type} (fields : Fields) (name : String) (absent : α) (read? : Datum → Option α) :
    Option α :=
  match fields.lookup name with
  | none => some absent
  | some d => read? d

end Datum

end FeatureStyle
