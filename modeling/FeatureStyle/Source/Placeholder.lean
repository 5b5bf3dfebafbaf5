import FeatureStyle.Text.Units

/-!
# Placeholders in sources

A source is prepared in two steps before it is cut into tokens.

* `Source.hideBackslashes` puts a sentinel in the place of every backslash, so that the reader of
  string literals finds no escapes; `Source.restoreBackslashes` undoes it.
* `Source.expandPlaceholders` turns every `${name}` outside of quotes into an identifier: the name
  behind a mark, which `Source.propertyName` takes off again. Quoted text is left alone, whichever
  of the two quotes opens first, and a quote that is never closed leaves the whole rest alone.

An opened placeholder that is never closed is an error at its byte position.
-/

namespace FeatureStyle.Source

/-- What marks an identifier as the name of a property. -/
def mark : List Char := "czm_".toList

/-- What stands for a backslash. -/
def sentinel : List Char := "@#%".toList

/-- Whether the identifier names a property. -/
def isVariable (identifier : String) : Bool := mark.isPrefixOf identifier.toList

/-- The name behind the mark, or the identifier itself if it has none. -/
def propertyName (identifier : String) : String :=
  if isVariable identifier then String.ofList (identifier.toList.drop mark.length)
  else identifier

/-- The text with the sentinel in the place of every backslash. -/
def hideBackslashes : List Char → List Char
  | [] => []
  | '\\' :: cs => sentinel ++ hideBackslashes cs
  | c :: cs => c :: hideBackslashes cs

/-- The text with a backslash in the place of every sentinel, from left to right. -/
def restoreBackslashes : List Char → List Char
  | '@' :: '#' :: '%' :: cs => '\\' :: restoreBackslashes cs
  | c :: cs => c :: restoreBackslashes cs
  | [] => []

/-- A placeholder that is opened at the given byte position and never closed. -/
structure UnmatchedPlaceholder where
  position : Nat
  deriving DecidableEq, Repr

/-- The error as a text. -/
def UnmatchedPlaceholder.message (e : UnmatchedPlaceholder) : String :=
  s!"unmatched `$\x7b` at {e.position}"

/-- Whether the character opens a quoted text. -/
def isQuote (c : Char) : Bool := c == '\'' || c == '"'

/-- The source with its placeholders turned into identifiers; `position` counts the bytes before the
text. A quoted text takes its closing quote along if it has one. -/
def expandFrom (position : Nat) (text : List Char) : Except UnmatchedPlaceholder (List Char) :=
  match text with
  | [] => .ok []
  | c :: cs =>
    if isQuote c then
      let body := cs.takeWhile (· ≠ c)
      let rest := cs.dropWhile (· ≠ c)
      let quoted := c :: body ++ rest.take 1
      (expandFrom (position + Text.byteLength quoted) (rest.drop 1)).map (quoted ++ ·)
    else if c = '$' ∧ cs.head? = some '\x7b' then
      let name := cs.tail.takeWhile (· ≠ '\x7d')
      let rest := cs.tail.dropWhile (· ≠ '\x7d')
      if rest.isEmpty then .error ⟨position⟩
      else
        (expandFrom (position + Text.byteLength name + 3) (rest.drop 1)).map (mark ++ name ++ ·)
    else (expandFrom (position + c.utf8Size) cs).map (c :: ·)
termination_by text.length
decreasing_by
  · have := (List.dropWhile_suffix (p := (· ≠ c)) (l := cs)).length_le
    simp only [List.length_drop, List.length_cons]; omega
  · have := (List.dropWhile_suffix (p := (· ≠ '\x7d')) (l := cs.tail)).length_le
    simp only [List.length_drop, List.length_cons, List.length_tail] at *; omega
  · simp

/-- The source with its placeholders turned into identifiers. -/
def expandPlaceholders (source : List Char) : Except UnmatchedPlaceholder (List Char) :=
  expandFrom 0 source

end FeatureStyle.Source
