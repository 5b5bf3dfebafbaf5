/-!
# Environment variables in documents

Before settings are read, every `${key}` in their text is replaced by the environment variable of
that name. The text is gone through once, from left to right; a key runs up to the next `}`, and
what is put in the place of a placeholder is not looked at again. The first faulty placeholder is
the error.
-/

namespace FeatureStyle

/-- What is wrong with a placeholder for an environment variable. -/
inductive ExpansionError
  /-- It is never closed. -/
  | unterminated
  /-- It names no variable. -/
  | empty
  /-- There is no variable of that name. -/
  | missing (key : String)
  deriving DecidableEq, Repr

namespace ExpansionError

/-- The error as a text. -/
def message : ExpansionError → String
  | unterminated => "unterminated env placeholder `$\x7b...`"
  | empty => "empty env placeholder `$\x7b\x7d`"
  | missing key => s!"missing env var for placeholder `$\x7b{key}\x7d`"

end ExpansionError

namespace Expansion

/-- The value of the variable that a key names. -/
def valueOf (lookup? : String → Option String) (key : List Char) :
    Except ExpansionError (List Char) :=
  if key.isEmpty then .error .empty
  else
    let key := String.ofList key
    match lookup? key with
    | some value => .ok value.toList
    | none => .error (.missing key)

/-- The text with its placeholders replaced. -/
def expandChars (lookup? : String → Option String) (text : List Char) :
    Except ExpansionError (List Char) :=
  match text with
  | [] => .ok []
  | '$' :: '\x7b' :: cs =>
    match _ : cs.dropWhile (· ≠ '\x7d') with
    | [] => .error .unterminated
    | _ :: rest => do
      let value ← valueOf lookup? (cs.takeWhile (· ≠ '\x7d'))
      return value ++ (← expandChars lookup? rest)
  | c :: cs => do return c :: (← expandChars lookup? cs)
termination_by text.length
decreasing_by
  · have := (List.dropWhile_suffix (p := (· ≠ '\x7d')) (l := cs)).length_le
    rename_i h
    rw [h] at this
    simp only [List.length_cons] at *; omega
  · simp

/-- The keys of the placeholders of a text. -/
def keysOf (text : List Char) : List String :=
  match text with
  | [] => []
  | '$' :: '\x7b' :: cs =>
    String.ofList (cs.takeWhile (· ≠ '\x7d')) :: keysOf (cs.dropWhile (· ≠ '\x7d'))
  | _ :: cs => keysOf cs
termination_by text.length
decreasing_by
  · have := (List.dropWhile_suffix (p := (· ≠ '\x7d')) (l := cs)).length_le
    simp only [List.length_cons]; omega
  · simp

end Expansion

/-- The text with the values of environment variables in the place of their placeholders. -/
def expandVariables (lookup? : String → Option String) (text : String) :
    Except ExpansionError String :=
  (Expansion.expandChars lookup? text.toList).map String.ofList

end FeatureStyle
