import FeatureStyle.Document.Yaml.Flow

/-!
# YAML by indentation

`Datum.ofYamlText?` reads a document in YAML: maps and lists by indentation, lists and maps between
brackets, texts between quotes and unquoted words, with comments anywhere. There are no anchors,
tags, directives, keys that are lists or maps, or texts marked by `|` and `>`; a document with one
of them is not read.

The lines of a part are those that are indented further than the line it belongs to, with one
exception: a list may be indented as far as the key that it belongs to.
-/

namespace FeatureStyle

namespace Yaml

/-- A line without its indentation. Blank lines and comments are none. -/
structure Line where
  indentation : Nat
  text : List Char

/-- Whether the line is an item of a list. -/
def Line.isItem (l : Line) : Bool :=
  match l.text with
  | '-' :: cs => atBlank cs
  | _ => false

/-- A text as a line that starts in a column, unless there is nothing in it. -/
def lineAt? (column : Nat) (text : List Char) : Option Line :=
  let text := trimEnd text
  match text.dropWhile (· = ' ') with
  | [] => none
  | '#' :: _ => none
  | rest => some ⟨column + (text.length - rest.length), rest⟩

/-- Whether the character may stand in a document. -/
def isPrintable (c : Char) : Bool :=
  let n := c.toNat
  n == 9 || n == 10 || n == 13 || (0x20 ≤ n && n ≤ 0x7E) || n == 0x85 ||
    (0xA0 ≤ n && n ≤ 0xFFFD && n != 0xFEFF) || 0x10000 ≤ n

/-- Whether the line separates documents by the given three characters. -/
def Line.isMarker (l : Line) (c : Char) : Bool :=
  l.indentation == 0 && [c, c, c].isPrefixOf l.text && atBlank (l.text.drop 3)

/-- The lines of the one document there is. -/
def documentLines? (lines : List Line) : Option (List Line) :=
  let body :=
    match lines with
    | l :: rest =>
      if l.isMarker '-' then (lineAt? 3 (l.text.drop 3)).toList ++ rest else lines
    | [] => []
  let body :=
    match body.getLast? with
    | some l => if l.isMarker '.' then body.dropLast else body
    | none => []
  if body.any fun l ↦ l.isMarker '-' || l.isMarker '.' then none else some body

/-! ### Lines and what belongs to them -/

/-- The lines at an indentation that start something, each with the lines that belong to it. -/
def groups? (indentation : Nat) (starts belongs : Line → Bool) (lines : List Line) :
    Option (List (Line × List Line)) :=
  match lines with
  | [] => some []
  | l :: rest =>
    if l.indentation = indentation ∧ starts l then do
      return (l, rest.takeWhile belongs) ::
        (← groups? indentation starts belongs (rest.dropWhile belongs))
    else none
termination_by lines.length
decreasing_by
  have := (List.dropWhile_suffix (p := belongs) (l := rest)).length_le
  simp only [List.length_cons]; omega

/-- The key at the front of a line, and what comes after its colon. -/
def key? (text : List Char) : Option (String × List Char) := do
  let ⟨key, rest, _⟩ ← (quotedText? text <|> word? false text)
  match rest.dropWhile (· = ' ') with
  | ':' :: after => if atBlank after then some (key, after) else none
  | _ => none

/-- The lines as they were, without their indentation. -/
def joinLines (lines : List Line) : List Char :=
  ['\n'].intercalate (lines.map Line.text)

/-- A list or map between brackets, a text or a word that fills the lines. -/
def inline? (depth : Nat) (text : List Char) : Option Datum :=
  let filled (d : Datum) (rest : List Char) : Option Datum :=
    if (skip rest).isEmpty then some d else none
  match text with
  | '[' :: _ | '\x7b' :: _ | '"' :: _ | '\'' :: _ => do
    let taken ← flow? depth text
    filled taken.value taken.rest
  | text => do
    let taken ← word? false text
    filled (word taken.value) taken.rest

/-- The part of a document that fills lines. The reader is given enough steps for the text of the
lines. -/
def block? (steps depth : Nat) (lines : List Line) : Option Datum :=
  match steps, lines with
  | _, [] => some nothing
  | 0, _ => none
  | steps + 1, l :: rest =>
    let further (m : Line) : Bool := l.indentation < m.indentation
    if l.isItem then do
      let groups ← groups? l.indentation Line.isItem further (l :: rest)
      let items ← groups.mapM fun (m, body) ↦
        block? steps (depth + 1)
          ((lineAt? (m.indentation + 1) (m.text.drop 1)).toList ++ body)
      return nested depth (.list items)
    else if (key? l.text).isSome then do
      let belongs (m : Line) : Bool :=
        further m || (m.indentation == l.indentation && m.isItem)
      let groups ← groups? l.indentation (fun m ↦ !m.isItem) belongs (l :: rest)
      let entries ← groups.mapM fun (m, body) ↦ do
        let (key, after) ← key? m.text
        match lineAt? 0 after with
        | none => return (some key, ← block? steps (depth + 1) body)
        | some value =>
          if body.all further then
            return (some key, ← inline? (depth + 1) (joinLines (value :: body)))
          else none
      return nested depth (.map entries)
    else inline? depth (joinLines (l :: rest))

end Yaml

/-- The document that a text in YAML holds. -/
def Datum.ofYamlText? (text : String) : Option Datum := do
  let cs := text.toList.dropWhile (· = '\uFEFF')
  if !cs.all Yaml.isPrintable then none
  else
    let lines := (cs.filter (· ≠ '\r')).splitOn '\n'
    let body ← Yaml.documentLines? (lines.filterMap (Yaml.lineAt? 0))
    Yaml.block? (cs.length + 1) 0 body

end FeatureStyle
