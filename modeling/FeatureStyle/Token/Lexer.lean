import FeatureStyle.Text.Blank
import FeatureStyle.Token.Basic
import FeatureStyle.Token.Operators

/-!
# Cutting a source into tokens

`Token.scan` reads one token at the front of a text, and `Token.tokenize` a whole source. What a
token is depends on its first character:

* a letter, an underscore, a dollar sign or anything beyond ASCII starts an identifier;
* a digit, or a point before a digit, starts a number, which no identifier may follow directly;
* a quote starts a string, which the same quote ends and in which a backslash takes the
  character after it along;
* what is left is punctuation or an operator.
-/

namespace FeatureStyle

namespace Token

/-! ### Classes of characters -/

def isIdentifierStart (c : Char) : Bool :=
  c.isAlpha || c == '_' || c == '$' || decide (128 ≤ c.toNat)

def isIdentifierPart (c : Char) : Bool := isIdentifierStart c || c.isDigit

def isQuote (c : Char) : Bool := c == '\'' || c == '"'

/-- Whether the text starts with a digit. -/
def startsWithDigit : List Char → Bool
  | c :: _ => c.isDigit
  | [] => false

/-! ### Numbers -/

/-- The point of a number and the digits after it, if the text goes on with them. -/
def fractionPart : List Char → List Char
  | '.' :: cs => '.' :: cs.takeWhile Char.isDigit
  | _ => []

/-- The mark and the sign of an exponent, if the text goes on with them. -/
def exponentMark : List Char → List Char
  | c :: '+' :: _ => if c = 'e' ∨ c = 'E' then [c, '+'] else []
  | c :: '-' :: _ => if c = 'e' ∨ c = 'E' then [c, '-'] else []
  | c :: _ => if c = 'e' ∨ c = 'E' then [c] else []
  | [] => []

/-- The literal at the front of a text that starts a number. What cannot be a literal is given back
as far as it was read. -/
def numberLiteral (cs : List Char) : Except (List Char) (List Char) :=
  let whole := cs.takeWhile Char.isDigit
  let fraction := fractionPart (cs.drop whole.length)
  let mantissa := whole ++ fraction
  let mark := exponentMark (cs.drop mantissa.length)
  let afterMark := cs.drop (mantissa.length + mark.length)
  let exponent := if mark.isEmpty then [] else afterMark.takeWhile Char.isDigit
  if !mark.isEmpty && exponent.isEmpty then .error (mantissa ++ mark)
  else
    let literal := mantissa ++ mark ++ exponent
    match cs.drop literal.length with
    | c :: _ => if isIdentifierStart c then .error (literal ++ [c]) else .ok literal
    | [] => .ok literal

/-! ### Strings -/

/-- The character that a backslash with the given character after it stands for. -/
def decodeEscape : Char → Char
  | 'n' => '\n'
  | 'r' => '\r'
  | 't' => '\t'
  | 'b' => '\x08'
  | 'f' => '\x0c'
  | 'v' => '\x0b'
  | c => c

/-- The decoded body of a string and the number of characters up to and including the closing quote;
nothing if there is no such quote. -/
def stringBody? (quote : Char) : List Char → Option (List Char × Nat)
  | [] => none
  | c :: cs =>
    if c = quote then some ([], 1)
    else if c = '\\' then
      match cs with
      | [] => none
      | escaped :: rest =>
        (stringBody? quote rest).map fun (body, n) ↦ (decodeEscape escaped :: body, n + 2)
    else (stringBody? quote cs).map fun (body, n) ↦ (c :: body, n + 1)

/-! ### Tokens -/

/-- The kind of an identifier-like word. -/
def wordKind (word : List Char) : TokenKind :=
  if word = "true".toList then .true
  else if word = "false".toList then .false
  else if word = "null".toList then .null
  else .identifier

/-- A token and the number of characters it takes. -/
def ofSpan (kind : TokenKind) (lexeme : List Char) (start length : Nat) : Token :=
  ⟨kind, String.ofList lexeme, start, start + length⟩

/-- The token at the front of a text that starts with `c`, which is not blank. -/
def scan (table : OperatorTable) (position : Nat) (c : Char) (cs : List Char) :
    Except LexError Token :=
  if isIdentifierStart c then
    let word := c :: cs.takeWhile isIdentifierPart
    .ok (ofSpan (wordKind word) word position word.length)
  else if c.isDigit || (c == '.' && startsWithDigit cs) then
    match numberLiteral (c :: cs) with
    | .error literal => .error (.invalidNumber (String.ofList literal) position)
    | .ok literal => .ok (ofSpan .number literal position literal.length)
  else if isQuote c then
    match stringBody? c cs with
    | none => .error (.unterminatedString position)
    | some (body, n) => .ok (ofSpan .string body position (n + 1))
  else
    match TokenKind.ofPunctuation? c with
    | some kind => .ok (ofSpan kind [c] position 1)
    | none =>
      match table.longestMatch? (c :: cs) with
      | some symbol => .ok (ofSpan .operator symbol position symbol.length)
      | none => .error (.unexpectedCharacter c position)

/-- Reads the tokens of a text that starts at the given position. Blanks are passed over, and after
a token the reading goes on where its span ends. -/
def tokensFrom (table : OperatorTable) (position : Nat) (text : List Char) :
    Except LexError (List Token) :=
  match text with
  | [] => .ok [eof position]
  | c :: cs =>
    if Text.isBlank c then tokensFrom table (position + 1) cs
    else
      match scan table position c cs with
      | .error e => .error e
      | .ok token =>
        (tokensFrom table token.stop (cs.drop (token.stop - position - 1))).map (token :: ·)
  termination_by text.length
  decreasing_by all_goals simp only [List.length_drop, List.length_cons]; omega

/-- The tokens of a source, the last of which is its end. -/
def tokenize (table : OperatorTable) (source : List Char) : Except LexError (List Token) :=
  tokensFrom table 0 source

end Token

end FeatureStyle
