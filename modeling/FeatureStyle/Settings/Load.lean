import FeatureStyle.Document.Format
import FeatureStyle.Settings.Expansion
import FeatureStyle.Settings.Validation

/-!
# Loading settings

A file of settings is read, its placeholders are replaced by environment variables, its document is
decoded, and what comes out is checked.
-/

namespace FeatureStyle

/-- Why settings cannot be loaded. -/
inductive SettingsError
  | document (e : DocumentError)
  | expansion (e : ExpansionError)
  | invalid (issues : List SettingsIssue)
  deriving DecidableEq, Repr

/-- The error as a text; `fault` says that a text does not have the form that is asked for. -/
def SettingsError.message (fault : String) : SettingsError → String
  | .document e => e.message fault
  | .expansion e => s!"runner config parse failed: {e.message}"
  | .invalid issues =>
    "runner config validation failed: " ++ "; ".intercalate (issues.map SettingsIssue.text)

namespace Settings

/-- The settings, unless something is wrong with them. -/
def checked (s : Settings) : Except SettingsError Settings :=
  match s.issues with
  | [] => .ok s
  | issues => .error (.invalid issues)

/-- The settings in a file. -/
def load (surroundings : Surroundings) (path : String) : Except SettingsError Settings := do
  let raw ← (surroundings.readText path).mapError .document
  let text ← (expandVariables surroundings.lookup? raw).mapError .expansion
  let settings ← (decodeDocument ofDatum? path text).mapError .document
  settings.checked

end Settings

end FeatureStyle
