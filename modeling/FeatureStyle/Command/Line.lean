import FeatureStyle.Command.Options

/-!
# The command line

There are three commands: `eval` evaluates an expression against a feature, `shader` writes it as a
shader function, and `check` only compiles it. A fourth one, `help`, shows what the others do.
-/

namespace FeatureStyle

/-- How a result is shown. -/
inductive OutputFormat
  | text
  | json
  deriving DecidableEq, Repr

namespace OutputFormat

/-- The format of a name. -/
def ofName? : String → Option OutputFormat
  | "text" => some text
  | "json" => some json
  | _ => none

end OutputFormat

/-- What `eval` is asked to do. -/
structure EvalCommand where
  source : String
  feature? : Option String
  settings? : Option String
  /-- Whether the value has to be a colour. -/
  color : Bool
  format : OutputFormat
  deriving DecidableEq, Repr

/-- What `shader` is asked to do. -/
structure ShaderCommand where
  source : String
  settings? : Option String
  attributeLead? : Option String
  functionName? : Option String
  returnType? : Option String
  format : OutputFormat
  deriving DecidableEq, Repr

/-- What to do. -/
inductive Command
  | eval (c : EvalCommand)
  | shader (c : ShaderCommand)
  | check (source : String)
  deriving DecidableEq, Repr

/-- A command, and whether to tell more while it runs. -/
structure CommandLine where
  verbose : Bool
  command : Command
  deriving DecidableEq, Repr

namespace CommandLine

/-! ### Options -/

/-- The options of every command. -/
def commonOptions : List OptionSpec := [⟨"help", .help⟩, ⟨"verbose", .flag⟩]

/-- An option with any value. -/
def anyOption (name : String) : OptionSpec := ⟨name, .value fun _ ↦ true⟩

/-- An option with the path of a file. -/
def pathOption (name : String) : OptionSpec := ⟨name, .value fun s ↦ !s.isEmpty⟩

/-- The option for the format of the output. -/
def formatOption : OptionSpec := ⟨"format", .value fun s ↦ (OutputFormat.ofName? s).isSome⟩

def evalOptions : List OptionSpec :=
  commonOptions ++
    [anyOption "expr", pathOption "feature", pathOption "config", ⟨"color", .flag⟩, formatOption]

def shaderOptions : List OptionSpec :=
  commonOptions ++
    [anyOption "expr", pathOption "config", anyOption "prefix", anyOption "function-name",
      anyOption "return-type", formatOption]

def checkOptions : List OptionSpec := commonOptions ++ [anyOption "expr"]

/-- The format of the output, which is text unless it is given. -/
def formatOf (r : OptionReading) : OutputFormat :=
  ((r.value? "format").bind OutputFormat.ofName?).getD .text

/-! ### Commands -/

/-- A kind of command. -/
inductive Kind
  | eval
  | shader
  | check
  | help
  deriving DecidableEq, Repr

/-- The kind of command of a name. -/
def Kind.ofName? : String → Option Kind
  | "eval" => some eval
  | "shader" => some shader
  | "check" => some check
  | "help" => some help
  | _ => none

/-- What asking for help about a list of commands gives. No command has commands of its own. -/
def helpAbout : List String → UsageError
  | [] => .displayHelp
  | [name] => if (Kind.ofName? name).isSome then .displayHelp else .invalidSubcommand
  | _ => .invalidSubcommand

/-- Reads the arguments of a command. -/
def ofCommand (kind : Kind) (verbose : Bool) (arguments : List String) :
    Except UsageError CommandLine :=
  match kind with
  | .help => .error (helpAbout arguments)
  | .eval => do
    let r ← OptionReading.readAll evalOptions arguments
    let source ← r.required "expr"
    return ⟨verbose || r.has "verbose",
      .eval ⟨source, r.value? "feature", r.value? "config", r.has "color", formatOf r⟩⟩
  | .shader => do
    let r ← OptionReading.readAll shaderOptions arguments
    let source ← r.required "expr"
    return ⟨verbose || r.has "verbose",
      .shader ⟨source, r.value? "config", r.value? "prefix", r.value? "function-name",
        r.value? "return-type", formatOf r⟩⟩
  | .check => do
    let r ← OptionReading.readAll checkOptions arguments
    let source ← r.required "expr"
    return ⟨verbose || r.has "verbose", .check source⟩

/-- Reads arguments of which some have been read. The name of a command ends the options before
it. -/
def readFrom (r : OptionReading) : List String → Except UsageError CommandLine
  | [] =>
    if r.given.isEmpty then .error .displayHelpOnMissingArgumentOrSubcommand
    else .error .missingSubcommand
  | argument :: rest =>
    match Kind.ofName? argument with
    | some kind =>
      if r.isEnded then .error .unknownArgument else ofCommand kind (r.has "verbose") rest
    | none => do
      match ← r.step? commonOptions argument with
      | some r => readFrom r rest
      | none => throw .invalidSubcommand

/-- Reads the arguments of the program. -/
def read (arguments : List String) : Except UsageError CommandLine :=
  readFrom .start arguments

end CommandLine

end FeatureStyle
