import FeatureStyle.Settings.Basic

/-!
# Valid settings

What settings have to be like for the shader functions written with them to be well-formed: the name
of the function is an identifier, and so is every name behind the lead of attributes as long as it
would be one with an underscore in front.
-/

namespace FeatureStyle

/-- Whether the character is a letter or a digit of ASCII, or an underscore. -/
def isIdentifierPart (c : Char) : Bool := c.isAlphanum || c == '_'

/-- Whether an identifier of a shader may start with the text. -/
def isIdentifierLead (s : String) : Bool :=
  let cs := s.toList
  !(cs.head?.any Char.isDigit) && cs.all isIdentifierPart

/-- Whether the text is an identifier of a shader. -/
def isShaderIdentifier (s : String) : Bool := !s.isEmpty && isIdentifierLead s

/-- The types that a shader function may return. -/
def shaderReturnTypes : List String := ["bool", "float", "vec2", "vec3", "vec4"]

/-- What is wrong with settings. -/
inductive SettingsIssue
  | schema (found : String)
  | attributeLead (found : String)
  | functionName (found : String)
  | returnType (found : String)
  | timeSinceLoad
  deriving DecidableEq, Repr

namespace SettingsIssue

/-- The setting that the issue is about. -/
def field : SettingsIssue → String
  | schema _ => "schema"
  | attributeLead _ => "shader.attribute_prefix"
  | functionName _ => "shader.function_name"
  | returnType _ => "shader.return_type"
  | timeSinceLoad => "evaluation.time_since_load"

/-- The name of the rule that is broken. -/
def reference (i : SettingsIssue) : String := s!"runner.config.{i.field}"

/-- The issue in words. -/
def message : SettingsIssue → String
  | schema found =>
    s!"unsupported runner config schema `{found}` (expected `{Settings.supportedSchema}`)"
  | attributeLead found => s!"attribute_prefix `{found}` must start a valid shader identifier"
  | functionName found => s!"function_name `{found}` is not a valid shader identifier"
  | returnType found =>
    s!"return_type `{found}` must be one of " ++ ", ".intercalate shaderReturnTypes
  | timeSinceLoad => "time_since_load must be a finite number of seconds"

/-- The issue with its setting and its rule. -/
def text (i : SettingsIssue) : String := s!"{i.field}: {i.message} ({i.reference})"

/-- The issue, if what is required does not hold. -/
def require (valid : Bool) (issue : SettingsIssue) : List SettingsIssue :=
  if valid then [] else [issue]

end SettingsIssue

open SettingsIssue in
/-- Everything that is wrong with settings. -/
def Settings.issues (s : Settings) : List SettingsIssue :=
  let shader := s.shader
  require (s.schema == supportedSchema) (.schema s.schema) ++
    require (isIdentifierLead shader.attributeLead) (.attributeLead shader.attributeLead) ++
    require (isShaderIdentifier shader.functionName) (.functionName shader.functionName) ++
    require (shaderReturnTypes.contains shader.returnType) (.returnType shader.returnType) ++
    require s.timeSinceLoad.isFinite .timeSinceLoad

end FeatureStyle
