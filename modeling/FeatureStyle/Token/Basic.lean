/-!
# Tokens

The pieces that a source is cut into. A token knows the span of characters it was read from: it runs
from `start` up to, and not including, `stop`. Its lexeme is the text of the span, except that a
string has its quotes removed and its escapes decoded.
-/

namespace FeatureStyle

/-- What a token is. -/
inductive TokenKind
  | identifier
  | number
  | string
  | true
  | false
  | null
  | operator
  | lparen
  | rparen
  | lbracket
  | rbracket
  | comma
  | semicolon
  | dot
  | question
  | colon
  | eof
  deriving DecidableEq, Repr

namespace TokenKind

/-- The name of a kind in messages. -/
def name : TokenKind → String
  | identifier => "Identifier"
  | number => "Number"
  | string => "String"
  | true => "True"
  | false => "False"
  | null => "Null"
  | operator => "Operator"
  | lparen => "LParen"
  | rparen => "RParen"
  | lbracket => "LBracket"
  | rbracket => "RBracket"
  | comma => "Comma"
  | semicolon => "Semicolon"
  | dot => "Dot"
  | question => "Question"
  | colon => "Colon"
  | eof => "Eof"

/-- The kind of a token that is a single punctuation character. -/
def ofPunctuation? : Char → Option TokenKind
  | '(' => some lparen
  | ')' => some rparen
  | '[' => some lbracket
  | ']' => some rbracket
  | ',' => some comma
  | ';' => some semicolon
  | '.' => some dot
  | '?' => some question
  | ':' => some colon
  | _ => none

end TokenKind

/-- A piece of a source. -/
structure Token where
  kind : TokenKind
  lexeme : String
  start : Nat
  stop : Nat
  deriving DecidableEq, Repr

namespace Token

/-- The token that ends every source. -/
def eof (position : Nat) : Token := ⟨.eof, "", position, position⟩

/-- The token as a message shows it. -/
def describe (t : Token) : String :=
  if t.kind = .eof then "end of input" else "`" ++ t.lexeme ++ "`"

end Token

/-- Why a source cannot be cut into tokens. Positions count characters. -/
inductive LexError
  | unexpectedCharacter (c : Char) (position : Nat)
  | unterminatedString (position : Nat)
  | invalidNumber (literal : String) (position : Nat)
  deriving DecidableEq, Repr

def LexError.message : LexError → String
  | .unexpectedCharacter c position => s!"unexpected character '{c}' at {position}"
  | .unterminatedString position => s!"unterminated string at {position}"
  | .invalidNumber literal position => s!"invalid number literal at {position}: {literal}"

end FeatureStyle
