import FeatureStyle.Command.Execute

/-!
# The program

Reads the command line, carries out its command, and prints the output or the error. Files and
environment variables are read before the command is carried out, which itself has no effects.
-/

namespace FeatureStyle

/-- The words that the program has for what goes wrong inside a text. -/
def Wording.plain : Wording := ⟨Regex.Fault.message, "the text does not have the expected form"⟩

/-- How the program is used. -/
def usageText : String :=
  "Usage: [--verbose] <command>\n\n" ++
  "Commands:\n" ++
  "  eval    --expr <text> [--feature <file>] [--config <file>] [--color] [--format text|json]\n" ++
  "  shader  --expr <text> [--config <file>] [--prefix <text>] [--function-name <name>]\n" ++
  "          [--return-type <type>] [--format text|json]\n" ++
  "  check   --expr <text>\n" ++
  "  help    [command]"

/-- The text of a file, or why it cannot be read. -/
def readTextFile (path : String) : IO (Except String String) := do
  try
    return .ok (← IO.FS.readFile path)
  catch e => return .error (toString e)

/-- What a command may want to see of the computer. -/
def surroundingsOf (command : Command) : IO Surroundings := do
  let files ← command.paths.mapM fun path ↦ do return (path, ← readTextFile path)
  let keys := files.flatMap fun (_, text) ↦
    match text with
    | .ok text => Expansion.keysOf text.toList
    | .error _ => []
  let values ← keys.mapM fun key ↦ do return (key, ← IO.getEnv key)
  return ⟨fun path ↦ (files.lookup path).getD (.error "not found"),
    fun key ↦ (values.lookup key).join⟩

end FeatureStyle

open FeatureStyle in
/-- Runs the program. -/
def main (arguments : List String) : IO UInt32 := do
  match CommandLine.read arguments with
  | .error .displayHelp =>
    IO.println usageText
    return 0
  | .error e =>
    IO.eprintln s!"error: {e.name}\n\n{usageText}"
    return 2
  | .ok line =>
    match line.command.run (← surroundingsOf line.command) with
    | .ok output =>
      IO.println output
      return 0
    | .error e =>
      IO.eprintln (e.message .plain)
      return 1
