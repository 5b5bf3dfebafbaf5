import FeatureStyle.Document.Datum

/-!
# Settings

What can be set in a document: how shader functions are written, and how long ago features were
loaded unless they say so themselves. Every setting has a default.
-/

namespace FeatureStyle

/-- How shader functions are written. -/
structure ShaderSettings where
  /-- What stands before the name of a property. -/
  attributeLead : String
  functionName : String
  returnType : String
  deriving DecidableEq, Repr

/-- The settings of a run. -/
structure Settings where
  schema : String
  shader : ShaderSettings
  timeSinceLoad : Float
  deriving BEq

namespace ShaderSettings

/-- The settings for shaders that are not set otherwise. -/
def default : ShaderSettings := ⟨"a_", "getStyleColor", "vec4"⟩

/-- The settings for shaders that a document holds. -/
def ofDatum? (d : Datum) : Option ShaderSettings := do
  let fields ← d.fields? ["attribute_prefix", "function_name", "return_type"]
  return {
    attributeLead := ← Datum.field? fields "attribute_prefix" default.attributeLead Datum.text?
    functionName := ← Datum.field? fields "function_name" default.functionName Datum.text?
    returnType := ← Datum.field? fields "return_type" default.returnType Datum.text? }

end ShaderSettings

namespace Settings

/-- The schema that settings have to name. -/
def supportedSchema : String := "tilestyle-runner/0.0.1"

/-- The settings that are not set otherwise. -/
def default : Settings := ⟨supportedSchema, .default, 0⟩

/-- The time since features were loaded that a document holds. -/
def timeOfDatum? (d : Datum) : Option Float := do
  let fields ← d.fields? ["time_since_load"]
  Datum.field? fields "time_since_load" default.timeSinceLoad Datum.number?

/-- The settings that a document holds. -/
def ofDatum? (d : Datum) : Option Settings := do
  let fields ← d.fields? ["schema", "shader", "evaluation"]
  return {
    schema := ← Datum.field? fields "schema" default.schema Datum.text?
    shader := ← Datum.field? fields "shader" default.shader ShaderSettings.ofDatum?
    timeSinceLoad := ← Datum.field? fields "evaluation" default.timeSinceLoad timeOfDatum? }

end Settings

end FeatureStyle
