import FeatureStyle.Document.Format
import FeatureStyle.Fixture.Values
import FeatureStyle.Subject.Features

/-!
# Fixtures

A `Fixture` is a feature as a document describes it. Its properties are JSON values, of which
objects are not supported; the first unsupported property in the order of the names is the error.
-/

namespace FeatureStyle

/-- A feature as a document describes it. -/
structure Fixture where
  properties : Properties Json
  className : Option String
  classes : List String
  /-- The time since the feature was loaded, if the document gives it. -/
  timeSinceLoad : Option Float

/-- Why a fixture cannot be used. -/
inductive FixtureError
  | document (e : DocumentError)
  /-- The value of the property is or holds an object. -/
  | unsupportedValue (property : String)
  deriving DecidableEq, Repr

/-- The error as a text; `fault` says that a text does not have the form that is asked for. -/
def FixtureError.message (fault : String) : FixtureError → String
  | .document e => e.message fault
  | .unsupportedValue property =>
    s!"feature property `{property}` is an object; only null, booleans, numbers, strings and " ++
      "arrays are supported"

namespace Fixture

/-- The properties that a document holds. -/
def propertiesOfDatum? (d : Datum) : Option (Properties Json) := do
  return .ofEntries (← (← d.entries?).mapM fun (name, d) ↦ do return (name, ← d.json?))

/-- The texts of a list. -/
def textsOfDatum? (d : Datum) : Option (List String) := do
  (← d.items?).mapM Datum.text?

/-- The fixture that a document holds. -/
def ofDatum? (d : Datum) : Option Fixture := do
  let fields ← d.fields? ["properties", "class_name", "classes", "time_since_load"]
  return {
    properties := ← Datum.field? fields "properties" .empty propertiesOfDatum?
    className := ← Datum.field? fields "class_name" none (Datum.optional? Datum.text?)
    classes := ← Datum.field? fields "classes" [] textsOfDatum?
    timeSinceLoad := ← Datum.field? fields "time_since_load" none (Datum.optional? Datum.number?) }

/-- The fixture in a file. -/
def load (surroundings : Surroundings) (path : String) : Except FixtureError Fixture := do
  let text ← (surroundings.readText path).mapError .document
  (decodeDocument ofDatum? path text).mapError .document

/-- The feature with properties put in, unless one of them is not supported. -/
def insertProperties (f : Feature) : List (String × Json) → Except FixtureError Feature
  | [] => .ok f
  | (name, j) :: rest =>
    match j.toValue? with
    | some v => insertProperties (f.insert name v) rest
    | none => .error (.unsupportedValue name)

/-- The feature that a fixture describes. -/
def toFeature (fixture : Fixture) (defaultTime : Float) : Except FixtureError Feature := do
  let f ← insertProperties (Feature.empty.withTime (fixture.timeSinceLoad.getD defaultTime))
    fixture.properties.entries
  let f := fixture.className.elim f f.withClass
  return fixture.classes.foldl Feature.addClass f

end Fixture

end FeatureStyle
