import FeatureStyle.Command.Line
import FeatureStyle.Expression.Basic
import FeatureStyle.Fixture.Basic
import FeatureStyle.Settings.Load

/-!
# Carrying out commands

The output of a command, or the first thing that goes wrong: settings are loaded first, then the
feature, then the expression is compiled, and then it is evaluated or written as a shader function.
-/

namespace FeatureStyle

/-- Why a command has no output. -/
inductive CommandError
  | settings (e : SettingsError)
  | fixture (e : FixtureError)
  | compile (e : CompileError)
  | evaluation (e : Stop)
  | shader (e : ShaderUnsupported)
  deriving DecidableEq, Repr

/-- The words for what goes wrong inside a text that is read. -/
structure Wording where
  /-- What is wrong with a regular expression. -/
  regexFault : Regex.Fault → String
  /-- That a document does not have the form that is asked for. -/
  documentFault : String

/-- The error as a text. -/
def CommandError.message (w : Wording) : CommandError → String
  | .settings e => s!"runner config load failed: {e.message w.documentFault}"
  | .fixture e => s!"feature fixture load failed: {e.message w.documentFault}"
  | .compile e => s!"compile failed ({e.className}): {e.message w.regexFault}"
  | .evaluation e => s!"evaluation failed: {e.message w.regexFault}"
  | .shader e => s!"expression has no shader form: {e.reason}"

namespace Command

variable (surroundings : Surroundings)

/-- The settings in a file, or the default ones. -/
def settingsOf (path? : Option String) : Except CommandError Settings :=
  match path? with
  | some path => (Settings.load surroundings path).mapError .settings
  | none => .ok .default

/-- The feature in a file, or one that nothing is known about. -/
def featureOf (settings : Settings) (path? : Option String) : Except CommandError Feature :=
  match path? with
  | some path => do
    let fixture ← (Fixture.load surroundings path).mapError .fixture
    (fixture.toFeature settings.timeSinceLoad).mapError .fixture
  | none => .ok (Feature.empty.withTime settings.timeSinceLoad)

/-- The expression of a source. -/
def compiled (source : String) : Except CommandError Expression :=
  (Expression.compile source).mapError .compile

/-- The value of an expression for a feature. -/
def valueFor (e : Expression) (color : Bool) (f : Feature) : Except CommandError Value :=
  if color then
    let (result, _) := (e.root.evaluateColorIn .empty).run f.subject
    (result.map Value.color).mapError .evaluation
  else
    let (result, _) := (e.root.evaluateIn .empty).run f.subject
    result.mapError .evaluation

/-- The report of a value. -/
def evalReport (source : String) (v : Value) : Json :=
  .object [("expression", .string source), ("schema", .string "tilestyle-runner-eval/0.0.1"),
    ("type", .string v.typeName), ("value", v.toJson)]

/-- The output of `eval`. -/
def runEval (c : EvalCommand) : Except CommandError String := do
  let settings ← settingsOf surroundings c.settings?
  let feature ← featureOf surroundings settings c.feature?
  let e ← compiled c.source
  let v ← valueFor e c.color feature
  match c.format with
  | .text => return v.text
  | .json => return (evalReport e.source v).pretty

/-- The settings for shaders with what the command says in their place. -/
def shaderSettings (c : ShaderCommand) (s : ShaderSettings) : ShaderSettings where
  attributeLead := c.attributeLead?.getD s.attributeLead
  functionName := c.functionName?.getD s.functionName
  returnType := c.returnType?.getD s.returnType

/-- The report of a shader function. -/
def shaderReport (source function : String) (translucent : Bool) : Json :=
  .object [("expression", .string source), ("function", .string function),
    ("schema", .string "tilestyle-runner-shader/0.0.1"), ("translucent", .bool translucent)]

/-- The output of `shader`. -/
def runShader (c : ShaderCommand) : Except CommandError String := do
  let loaded ← settingsOf surroundings c.settings?
  let settings := { loaded with shader := shaderSettings c loaded.shader }
  let settings ← settings.checked.mapError .settings
  let e ← compiled c.source
  let shader := settings.shader
  let (result, state) :=
    (e.root.emitFunction shader.functionName shader.attributeLead shader.returnType).run.run ⟨false⟩
  let function ← result.mapError .shader
  match c.format with
  | .text => return s!"{function}\ntranslucent: {Value.boolText state.translucent}"
  | .json => return (shaderReport e.source function state.translucent).pretty

/-- The output of a command. -/
def run : Command → Except CommandError String
  | .eval c => runEval surroundings c
  | .shader c => runShader surroundings c
  | .check source => do
    let _ ← compiled source
    return "ok"

/-- The files that a command may read: that of its settings and that of its feature. -/
def paths : Command → List String
  | .eval c => c.settings?.toList ++ c.feature?.toList
  | .shader c => c.settings?.toList
  | .check _ => []

end Command

end FeatureStyle
