/-!
# Options on a command line

Arguments are read one after another. An option is written with two dashes; its value follows as the
next argument or behind an equals sign. An argument that starts with a dash is never a value, and
two dashes on their own end the options.

**A value is looked at late.** An option whose value is given as an argument of its own is *pending*
until the next option or the end settles it; only then is it an error that the value is missing, not
accepted, or that the option was given before. An argument that is not known is an error right away,
whatever is pending.
-/

namespace FeatureStyle

/-- Why arguments are not taken as a command, help included. -/
inductive UsageError
  | displayHelp
  | displayHelpOnMissingArgumentOrSubcommand
  | missingSubcommand
  | invalidSubcommand
  | missingRequiredArgument
  | unknownArgument
  | invalidValue
  | argumentConflict
  | tooManyValues
  deriving DecidableEq, Repr

/-- The name of the error in reports. -/
def UsageError.name : UsageError → String
  | displayHelp => "DisplayHelp"
  | displayHelpOnMissingArgumentOrSubcommand => "DisplayHelpOnMissingArgumentOrSubcommand"
  | missingSubcommand => "MissingSubcommand"
  | invalidSubcommand => "InvalidSubcommand"
  | missingRequiredArgument => "MissingRequiredArgument"
  | unknownArgument => "UnknownArgument"
  | invalidValue => "InvalidValue"
  | argumentConflict => "ArgumentConflict"
  | tooManyValues => "TooManyValues"

/-- What an option does. -/
inductive OptionKind
  /-- It asks for help. -/
  | help
  /-- It is on when it is given. -/
  | flag
  /-- It takes a value that has to be accepted. -/
  | value (accepts : String → Bool)

/-- An option. -/
structure OptionSpec where
  name : String
  kind : OptionKind

/-- The forms of an argument. -/
inductive Argument
  | escape
  | long (name : String) (value? : Option String)
  | short (letter : Char)
  | plain (text : String)
  deriving DecidableEq, Repr

/-- The form of an argument. -/
def Argument.ofText (text : String) : Argument :=
  match text.toList with
  | ['-', '-'] => escape
  | '-' :: '-' :: cs =>
    let name := String.ofList (cs.takeWhile (· ≠ '='))
    match cs.dropWhile (· ≠ '=') with
    | [] => long name none
    | _ :: value => long name (some (String.ofList value))
  | '-' :: letter :: _ => short letter
  | _ => plain text

/-- How far the reading of arguments has come. -/
structure OptionReading where
  /-- The options given, with the values of those that take one. -/
  given : List (String × Option String)
  /-- The option whose value is yet to be looked at, and the value, once there is one. -/
  pending : Option (OptionSpec × Option String)
  /-- Whether the options have been ended. -/
  isEnded : Bool

namespace OptionReading

/-- The reading of no arguments. -/
def start : OptionReading := ⟨[], none, false⟩

/-- Whether an option has been given. -/
def has (r : OptionReading) (name : String) : Bool := r.given.any (·.1 == name)

/-- The value that has been given for an option. -/
def value? (r : OptionReading) (name : String) : Option String := (r.given.lookup name).join

/-- Whether a value is accepted. -/
def accepts : OptionKind → Option String → Bool
  | .value accepts, some v => accepts v
  | _, _ => true

/-- Takes down an option that is given. -/
def give (r : OptionReading) (spec : OptionSpec) (value? : Option String) :
    Except UsageError OptionReading :=
  if r.has spec.name then .error .argumentConflict
  else if accepts spec.kind value? then .ok { r with given := (spec.name, value?) :: r.given }
  else .error .invalidValue

/-- Looks at the value that is pending. -/
def settle (r : OptionReading) : Except UsageError OptionReading :=
  match r.pending with
  | none => .ok r
  | some (_, none) => .error .invalidValue
  | some (spec, some v) => { r with pending := none }.give spec (some v)

/-- Reads an option by its name. -/
def readOption (r : OptionReading) (spec : OptionSpec) (value? : Option String) :
    Except UsageError OptionReading :=
  match spec.kind, value? with
  | .help, none => do
    let _ ← r.settle
    throw .displayHelp
  | .flag, none => do (← r.settle).give spec none
  | .help, some _ | .flag, some _ => .error .tooManyValues
  | .value _, some v => do (← r.settle).give spec (some v)
  | .value _, none => do return { ← r.settle with pending := some (spec, none) }

/-- Reads an argument that is no value. Nothing is returned for one that belongs nowhere. -/
def step? (specs : List OptionSpec) (r : OptionReading) (argument : String) :
    Except UsageError (Option OptionReading) :=
  if r.isEnded then .ok none
  else
    match Argument.ofText argument with
    | .escape => .ok (some { r with isEnded := true })
    | .long name value? =>
      match specs.find? (·.name == name) with
      | some spec => (r.readOption spec value?).map some
      | none => .error .unknownArgument
    | .short letter => do
      if letter = 'h' then
        let _ ← r.settle
        throw .displayHelp
      else throw .unknownArgument
    | .plain text =>
      match r.pending with
      | some (spec, none) => .ok (some { r with pending := some (spec, some text) })
      | _ => .ok none

/-- Reads arguments that are all options. -/
def readAll (specs : List OptionSpec) (arguments : List String) :
    Except UsageError OptionReading := do
  let r ← arguments.foldlM (fun r argument ↦ do
    match ← r.step? specs argument with
    | some r => return r
    | none => throw .unknownArgument) start
  r.settle

/-- The value of an option that has to be given. -/
def required (r : OptionReading) (name : String) : Except UsageError String :=
  match r.value? name with
  | some v => .ok v
  | none => .error .missingRequiredArgument

end OptionReading

end FeatureStyle
