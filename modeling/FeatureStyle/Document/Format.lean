import FeatureStyle.Document.Json.Reader
import FeatureStyle.Document.Yaml.Block

/-!
# Documents in files

The name of a file says how it is written: `.json` is JSON, `.yaml` and `.yml` are YAML, and
everything else is tried as YAML and then as JSON. A text only counts as read in a format if it also
has the form that is asked for.
-/

namespace FeatureStyle

/-- How a document may be written. -/
inductive DocumentFormat
  | json
  | yaml
  /-- YAML, or else JSON. -/
  | either
  deriving DecidableEq, Repr

namespace DocumentFormat

/-- The name of a format in messages. -/
def name : DocumentFormat → String
  | json => "json"
  | yaml => "yaml"
  | either => "yaml/json"

/-- What a file name ends in, behind its last point. A point in front of a name is part of it. -/
def extension? (path : String) : Option String :=
  let name := (path.toList.reverse.dropWhile (· = '/')).takeWhile (· ≠ '/')
  if name = ['.', '.'] then none
  else
    match name.dropWhile (· ≠ '.') with
    | '.' :: _ :: _ => some (String.ofList (name.takeWhile (· ≠ '.')).reverse)
    | _ => none

/-- The format of the file at a path. -/
def ofPath (path : String) : DocumentFormat :=
  match extension? path with
  | some "json" => json
  | some "yaml" | some "yml" => yaml
  | _ => either

/-- Reads a text that has to have a certain form. -/
def read? {α : Type} (format : DocumentFormat) (form? : Datum → Option α) (text : String) :
    Option α :=
  let asJson := (Datum.ofJsonText? text).bind form?
  let asYaml := (Datum.ofYamlText? text).bind form?
  match format with
  | json => asJson
  | yaml => asYaml
  | either => asYaml <|> asJson

end DocumentFormat

/-- Why a file gives no document. -/
inductive DocumentError
  /-- The file cannot be read, for the reason given. -/
  | unreadable (path reason : String)
  /-- The text does not have the form that is asked for. -/
  | malformed (path : String) (format : DocumentFormat)
  deriving DecidableEq, Repr

/-- The error as a text; `fault` says that a text does not have the form that is asked for. -/
def DocumentError.message (fault : String) : DocumentError → String
  | .unreadable path reason => s!"read file failed `{path}`: {reason}"
  | .malformed path format => s!"{format.name} decode failed `{path}`: {fault}"

/-- What a program sees of the computer: the texts of files, or why they cannot be read, and
environment variables. -/
structure Surroundings where
  file : String → Except String String
  lookup? : String → Option String

namespace Surroundings

/-- The text of a file. -/
def readText (s : Surroundings) (path : String) : Except DocumentError String :=
  (s.file path).mapError (.unreadable path)

end Surroundings

/-- The document that the text of a file holds. -/
def decodeDocument {α : Type} (form? : Datum → Option α) (path text : String) :
    Except DocumentError α :=
  let format := DocumentFormat.ofPath path
  match format.read? form? text with
  | some a => .ok a
  | none => .error (.malformed path format)

end FeatureStyle
