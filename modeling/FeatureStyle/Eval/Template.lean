import FeatureStyle.Subject.Dialogue

/-!
# Templates

A template is a text with placeholders `${name}`. `Template.pieces` cuts it up in one pass from left
to right: a placeholder begins at the first `${` that has a `}` behind it on the same line and ends
at the first such `}`. `Template.fill` asks for the property of every placeholder, in order, and
puts its text there; a missing value leaves nothing. What is put there is not looked at again.
-/

namespace FeatureStyle.Template

/-- A piece of a template. -/
inductive Piece
  | char (c : Char)
  | placeholder (name : String)
  deriving DecidableEq, Repr

/-- Whether a character may stand in the name of a placeholder. -/
def isNamePart (c : Char) : Bool := c ≠ '\x7d' && c ≠ '\n'

/-- The name of a placeholder whose opening has been read, and what comes after it. -/
def readPlaceholder? (cs : List Char) : Option (String × List Char) :=
  match cs.dropWhile isNamePart with
  | '\x7d' :: rest => some (String.ofList (cs.takeWhile isNamePart), rest)
  | _ => none

theorem length_readPlaceholder {cs rest : List Char} {name : String}
    (h : readPlaceholder? cs = some (name, rest)) : rest.length < cs.length := by
  have hle := (List.dropWhile_suffix (p := isNamePart) (l := cs)).length_le
  unfold readPlaceholder? at h
  split at h
  · rename_i rest' heq
    rw [heq, List.length_cons] at hle
    simp only [Option.some.injEq, Prod.mk.injEq] at h
    obtain ⟨_, rfl⟩ := h
    omega
  · cases h

/-- The placeholder at the front of a text, and what comes after it. -/
def openPlaceholder? : List Char → Option (String × List Char)
  | '$' :: '\x7b' :: cs => readPlaceholder? cs
  | _ => none

theorem length_openPlaceholder {cs rest : List Char} {name : String}
    (h : openPlaceholder? cs = some (name, rest)) : rest.length < cs.length := by
  unfold openPlaceholder? at h
  split at h
  · have := length_readPlaceholder h
    simp only [List.length_cons]; omega
  · cases h

/-- The pieces of a template. -/
def pieces (cs : List Char) : List Piece :=
  match cs with
  | [] => []
  | c :: rest =>
    match _ : openPlaceholder? (c :: rest) with
    | some (name, after) => .placeholder name :: pieces after
    | none => .char c :: pieces rest
termination_by cs.length
decreasing_by
  · exact length_openPlaceholder ‹_›
  · simp

/-- The text that stands in the place of a property. -/
def propertyText : Option Value → String
  | some v => if v.isNullish then "" else v.text
  | none => ""

/-- The text of a piece. -/
def Piece.fill : Piece → Dialogue String
  | char c => pure (String.singleton c)
  | placeholder name => propertyText <$> Dialogue.query (.property name)

/-- The texts of the pieces, one after another. -/
def fillPieces : List Piece → Dialogue String
  | [] => pure ""
  | p :: ps => do
    let front ← p.fill
    return front ++ (← fillPieces ps)

/-- The text of a template. -/
def fill (template : String) : Dialogue String :=
  fillPieces (pieces template.toList)

end FeatureStyle.Template
