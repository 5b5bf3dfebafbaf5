import FeatureStyle.Numeric.Decimal
import FeatureStyle.Token.Lexer
import FeatureStyle.Tree.Basic

/-!
# Reading syntax trees

`SyntaxTree.parse` reads a source under a table of operators.

* A source is any number of expressions with commas and semicolons between, before and after them,
  or nothing between them.
* An expression is a binary expression, or a conditional of three.
* A binary expression groups to the left; its operands are unary expressions, and the right operand
  of an operator only takes up operators of a strictly higher precedence.
* A unary operator takes a unary expression; everything else is a primary expression with any number
  of members and calls behind it.

**Nesting is bounded.** Every construct that makes a tree deeper costs one level while it is read,
and there are `nestingLimit` of them: a conditional, a unary operator, each operator of a binary
expression and each member or call. The levels are handed down as a parameter, so they are all
available again to whatever comes next. A counter that goes up and down with them comes to the same
(`Counted.parse_eq`).

**Every reader uses up tokens.** A reader gives back the tokens after its tree with a proof that
they are fewer, which is also why the readers terminate.
-/

namespace FeatureStyle

/-- Why a source cannot be read as trees. Positions count characters. -/
inductive ParseError
  | lex (e : LexError)
  | unexpectedToken (expected found : String) (position : Nat)
  | invalidNumber (literal : String) (position : Nat)
  | tooDeep (position : Nat)
  deriving DecidableEq, Repr

def ParseError.message : ParseError → String
  | .lex e => s!"lex error: {e.message}"
  | .unexpectedToken expected found position =>
    s!"unexpected token at {position}: expected {expected}, got {found}"
  | .invalidNumber literal position => s!"invalid number literal at {position}: {literal}"
  | .tooDeep position => s!"expression nested too deeply at {position}"

namespace SyntaxTree

/-- The levels of nesting that a source may use. -/
def nestingLimit : Nat := 128

/-- What a reader gives: a tree, or several, and the tokens after it. -/
abbrev Reading (α : Type) (tokens : List Token) : Type :=
  Except ParseError (α × { rest : List Token // rest.length < tokens.length })

/-- What a reader gives that may be content with no token at all. -/
abbrev Continuation (α : Type) (tokens : List Token) : Type :=
  Except ParseError (α × { rest : List Token // rest.length ≤ tokens.length })

/-- What a reader needs to know besides the tokens: the operators, and where the source ends. -/
structure Grammar where
  table : OperatorTable
  stop : Nat

namespace Grammar

variable (g : Grammar)

/-- The next token. -/
def peek : List Token → Token
  | [] => .eof g.stop
  | t :: _ => t

/-- One level of nesting more, if there is one. -/
def descend (depth : Nat) (tokens : List Token) : Except ParseError Nat :=
  if depth < nestingLimit then .ok (depth + 1) else .error (.tooDeep (g.peek tokens).start)

/-- The complaint that the next token is not the expected one. -/
def unexpected (expected : String) (tokens : List Token) : ParseError :=
  let t := g.peek tokens
  .unexpectedToken expected t.describe t.start

/-- The tokens after the first one, if that is of the given kind. -/
def skip? (kind : TokenKind) : (tokens : List Token) →
    Option { rest : List Token // rest.length < tokens.length }
  | [] => none
  | t :: rest => if t.kind = kind then some ⟨rest, by simp⟩ else none

/-- Takes a token of the given kind. -/
def expect (kind : TokenKind) : (tokens : List Token) → Reading Token tokens
  | [] => .error (g.unexpected kind.name [])
  | t :: rest =>
    if t.kind = kind then .ok (t, ⟨rest, by simp⟩) else .error (g.unexpected kind.name (t :: rest))

/-- The operator at the front, if it is a binary one of at least the given precedence. -/
def operator? (least : Nat) : (tokens : List Token) →
    Option (String × Nat × { rest : List Token // rest.length < tokens.length })
  | [] => none
  | t :: rest =>
    if t.kind = .operator then
      match g.table.precedence? t.lexeme with
      | some precedence =>
        if precedence < least then none else some (t.lexeme, precedence, ⟨rest, by simp⟩)
      | none => none
    else none

/-- The operator at the front, if it is a unary one. -/
def unaryOperator? : (tokens : List Token) →
    Option (String × { rest : List Token // rest.length < tokens.length })
  | [] => none
  | t :: rest =>
    if t.kind = .operator ∧ g.table.isUnary t.lexeme then some (t.lexeme, ⟨rest, by simp⟩)
    else none

/-- The literal of a number token. -/
def numberLiteral (t : Token) : Except ParseError SyntaxTree :=
  match Numeric.Decimal.read? t.lexeme.toList with
  | some (negative, d) => .ok (.literal (.number (d.toFloat negative)))
  | none => .error (.invalidNumber t.lexeme t.start)

/-- The tree of a token that is an expression by itself. -/
def leaf? (t : Token) : Option (Except ParseError SyntaxTree) :=
  match t.kind with
  | .identifier => some (.ok (.identifier t.lexeme))
  | .number => some (numberLiteral t)
  | .string => some (.ok (.literal (.string t.lexeme)))
  | .true => some (.ok (.literal (.bool true)))
  | .false => some (.ok (.literal (.bool false)))
  | .null => some (.ok (.literal .null))
  | _ => none

mutual

/-- An expression. -/
def conditional (depth : Nat) (tokens : List Token) : Reading SyntaxTree tokens := do
  let depth ← g.descend depth tokens
  let (test, ⟨rest, h⟩) ← binary depth 0 tokens
  match skip? .question rest with
  | none => return (test, ⟨rest, h⟩)
  | some ⟨rest₁, h₁⟩ =>
    let (consequent, ⟨rest₂, h₂⟩) ← conditional depth rest₁
    let (_, ⟨rest₃, h₃⟩) ← g.expect .colon rest₂
    let (alternate, ⟨rest₄, h₄⟩) ← conditional depth rest₃
    return (.conditional test consequent alternate, ⟨rest₄, by omega⟩)
termination_by 8 * tokens.length + 5

/-- A binary expression of operators with at least the given precedence. -/
def binary (depth least : Nat) (tokens : List Token) : Reading SyntaxTree tokens := do
  let (left, ⟨rest, h⟩) ← unary depth tokens
  let (tree, ⟨rest', h'⟩) ← binaryRest depth least left rest
  return (tree, ⟨rest', by omega⟩)
termination_by 8 * tokens.length + 4

/-- The operators and right operands that go on from a left operand. -/
def binaryRest (depth least : Nat) (left : SyntaxTree) (tokens : List Token) :
    Continuation SyntaxTree tokens := do
  match g.operator? least tokens with
  | none => return (left, ⟨tokens, Nat.le_refl _⟩)
  | some (operator, precedence, ⟨rest, h⟩) =>
    let depth ← g.descend depth tokens
    let (right, ⟨rest₁, h₁⟩) ← binary depth (precedence + 1) rest
    let (tree, ⟨rest₂, h₂⟩) ← binaryRest depth least (joinBinary operator left right) rest₁
    return (tree, ⟨rest₂, by omega⟩)
termination_by 8 * tokens.length

/-- Unary operators and what they apply to. -/
def unary (depth : Nat) (tokens : List Token) : Reading SyntaxTree tokens := do
  match g.unaryOperator? tokens with
  | some (operator, ⟨rest, h⟩) =>
    let depth ← g.descend depth tokens
    let (operand, ⟨rest₁, h₁⟩) ← unary depth rest
    return (.unary operator operand, ⟨rest₁, by omega⟩)
  | none =>
    let (object, ⟨rest, h⟩) ← primary depth tokens
    let (tree, ⟨rest₁, h₁⟩) ← postfixRest depth object rest
    return (tree, ⟨rest₁, by omega⟩)
termination_by 8 * tokens.length + 3

/-- The members and calls behind a primary expression. -/
def postfixRest (depth : Nat) (object : SyntaxTree) (tokens : List Token) :
    Continuation SyntaxTree tokens := do
  match skip? .dot tokens, skip? .lbracket tokens, skip? .lparen tokens with
  | some ⟨rest, h⟩, _, _ =>
    let depth ← g.descend depth tokens
    let (name, ⟨rest₁, h₁⟩) ← g.expect .identifier rest
    let (tree, ⟨rest₂, h₂⟩) ←
      postfixRest depth (.member object (.identifier name.lexeme) false) rest₁
    return (tree, ⟨rest₂, by omega⟩)
  | none, some ⟨rest, h⟩, _ =>
    let depth ← g.descend depth tokens
    let (property, ⟨rest₁, h₁⟩) ← conditional depth rest
    let (_, ⟨rest₂, h₂⟩) ← g.expect .rbracket rest₁
    let (tree, ⟨rest₃, h₃⟩) ← postfixRest depth (.member object property true) rest₂
    return (tree, ⟨rest₃, by omega⟩)
  | none, none, some ⟨rest, h⟩ =>
    let depth ← g.descend depth tokens
    let (arguments, ⟨rest₁, h₁⟩) ← list depth .rparen rest
    let (tree, ⟨rest₂, h₂⟩) ← postfixRest depth (.call object arguments) rest₁
    return (tree, ⟨rest₂, by omega⟩)
  | none, none, none => return (object, ⟨tokens, Nat.le_refl _⟩)
termination_by 8 * tokens.length

/-- A literal, a name, an array or an expression in parentheses. -/
def primary (depth : Nat) : (tokens : List Token) → Reading SyntaxTree tokens
  | [] => .error (g.unexpected "primary expression" [])
  | t :: rest =>
    match leaf? t with
    | some tree => tree.map fun tree ↦ (tree, ⟨rest, by simp⟩)
    | none =>
      if t.kind = .lparen then do
        let (tree, ⟨rest₁, h₁⟩) ← conditional depth rest
        let (_, ⟨rest₂, h₂⟩) ← g.expect .rparen rest₁
        return (tree, ⟨rest₂, by simp; omega⟩)
      else if t.kind = .lbracket then do
        let (items, ⟨rest₁, h₁⟩) ← list depth .rbracket rest
        return (.array items, ⟨rest₁, by simp; omega⟩)
      else .error (g.unexpected "primary expression" (t :: rest))
termination_by tokens => 8 * tokens.length + 2

/-- Expressions between commas, up to the closing token. -/
def list (depth : Nat) (close : TokenKind) (tokens : List Token) :
    Reading (List SyntaxTree) tokens :=
  match skip? close tokens with
  | some rest => .ok ([], rest)
  | none => items depth close tokens
termination_by 8 * tokens.length + 7

/-- At least one expression, and more after commas, up to the closing token. -/
def items (depth : Nat) (close : TokenKind) (tokens : List Token) :
    Reading (List SyntaxTree) tokens := do
  let (item, ⟨rest, h⟩) ← conditional depth tokens
  match skip? .comma rest with
  | some ⟨rest₁, h₁⟩ =>
    let (more, ⟨rest₂, h₂⟩) ← items depth close rest₁
    return (item :: more, ⟨rest₂, by omega⟩)
  | none =>
    let (_, ⟨rest₁, h₁⟩) ← g.expect close rest
    return ([item], ⟨rest₁, by omega⟩)
termination_by 8 * tokens.length + 6

end

/-- Expressions side by side, up to the end of the source. -/
def expressions (tokens : List Token) : Except ParseError (List SyntaxTree) :=
  match tokens with
  | [] => .ok []
  | t :: rest =>
    if t.kind = .comma ∨ t.kind = .semicolon then expressions rest
    else do
      let (item, ⟨rest, _⟩) ← g.conditional 0 (t :: rest)
      return item :: (← expressions rest)
termination_by tokens.length
decreasing_by all_goals simp only [List.length_cons] at *; omega

end Grammar

/-- The tree of a source. -/
def parse (table : OperatorTable) (source : List Char) : Except ParseError SyntaxTree :=
  match Token.tokenize table source with
  | .error e => .error (.lex e)
  | .ok tokens => (Grammar.expressions ⟨table, source.length⟩ tokens.dropLast).map ofItems

end SyntaxTree

end FeatureStyle
