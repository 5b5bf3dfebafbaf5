/-!
# Syntax trees

The shape of a source once operators are grouped and brackets matched. Nothing has been looked up
yet: names and operator symbols are still texts.
-/

namespace FeatureStyle

/-- A literal of a source. -/
inductive Literal
  | null
  | bool (b : Bool)
  | number (x : Float)
  | string (s : String)
  deriving DecidableEq

/-- A syntax tree. -/
inductive SyntaxTree
  | literal (l : Literal)
  | identifier (name : String)
  | call (callee : SyntaxTree) (arguments : List SyntaxTree)
  | unary (operator : String) (operand : SyntaxTree)
  | binary (operator : String) (left right : SyntaxTree)
  | logical (operator : String) (left right : SyntaxTree)
  | conditional (test consequent alternate : SyntaxTree)
  | member (object property : SyntaxTree) (computed : Bool)
  | array (items : List SyntaxTree)
  /-- Any number of expressions but one, side by side. -/
  | compound (items : List SyntaxTree)

namespace SyntaxTree

/-- The name of the kind of tree in messages. -/
def kindName : SyntaxTree → String
  | literal _ => "Literal"
  | identifier _ => "Identifier"
  | call _ _ => "CallExpression"
  | unary _ _ => "UnaryExpression"
  | binary _ _ _ => "BinaryExpression"
  | logical _ _ _ => "LogicalExpression"
  | conditional _ _ _ => "ConditionalExpression"
  | member _ _ _ => "MemberExpression"
  | array _ => "ArrayExpression"
  | compound _ => "Compound"

/-- The name that the tree consists of, if it is a mere name. -/
def identifierName? : SyntaxTree → Option String
  | identifier name => some name
  | _ => none

/-- The operands of a binary operator put together. -/
def joinBinary (operator : String) (left right : SyntaxTree) : SyntaxTree :=
  if operator = "&&" ∨ operator = "||" then logical operator left right
  else binary operator left right

/-- A list of expressions as one tree. -/
def ofItems : List SyntaxTree → SyntaxTree
  | [item] => item
  | items => compound items

end SyntaxTree

end FeatureStyle
