/-!
# Tables of operators

Which symbols are operators is a parameter of reading a source. An `OperatorTable` lists the unary
symbols and the binary symbols with their precedences; a larger precedence binds tighter. Adding a
binary symbol again changes its precedence.

Precedences have no bound here. Behind an operator its right operand is read at the next precedence
(`SyntaxTree.Grammar.binaryRest`), and where precedences are numbers of eight bits there is none
after 255. Tables with that precedence are left out of account; every other one is a table here.

At a place in a source, the longest symbol of the table that the text starts with is the one that
counts. The empty symbol never does. That the symbols may as well be sorted by their length and
looked through is `firstMatch?_eq_longestMatch?`.
-/

namespace FeatureStyle

/-- The operators of a language. -/
structure OperatorTable where
  unary : List String
  binary : List (String × Nat)
  deriving DecidableEq, Repr

namespace OperatorTable

/-- The operators that every table starts from. -/
def default : OperatorTable where
  unary := ["-", "!", "~", "+"]
  binary :=
    [("||", 1), ("&&", 2), ("|", 3), ("^", 4), ("&", 5), ("==", 6), ("!=", 6), ("===", 6),
     ("!==", 6), ("<", 7), (">", 7), ("<=", 7), (">=", 7), ("<<", 8), (">>", 8), (">>>", 8),
     ("+", 9), ("-", 9), ("*", 10), ("/", 10), ("%", 10)]

def isUnary (table : OperatorTable) (symbol : String) : Bool := table.unary.contains symbol

/-- The precedence of a binary symbol. -/
def precedence? (table : OperatorTable) (symbol : String) : Option Nat :=
  table.binary.lookup symbol

/-- The table with one more unary symbol. -/
def addUnary (table : OperatorTable) (symbol : String) : OperatorTable :=
  if table.isUnary symbol then table else { table with unary := table.unary ++ [symbol] }

/-- A list of precedences with one set. -/
def setPrecedence (symbol : String) (precedence : Nat) : List (String × Nat) → List (String × Nat)
  | [] => [(symbol, precedence)]
  | entry :: rest =>
    if entry.1 = symbol then (symbol, precedence) :: rest
    else entry :: setPrecedence symbol precedence rest

/-- The table with the precedence of a binary symbol set. -/
def addBinary (table : OperatorTable) (symbol : String) (precedence : Nat) : OperatorTable :=
  { table with binary := setPrecedence symbol precedence table.binary }

/-- All symbols of the table. -/
def symbols (table : OperatorTable) : List (List Char) :=
  table.unary.map String.toList ++ table.binary.map (·.1.toList)

/-- The longer of two symbols. -/
def longer (best : Option (List Char)) (symbol : List Char) : Option (List Char) :=
  match best with
  | none => some symbol
  | some other => if other.length < symbol.length then some symbol else some other

/-- The longest symbol that the text starts with. -/
def longestMatch? (table : OperatorTable) (text : List Char) : Option (List Char) :=
  (table.symbols.filter fun symbol ↦ !symbol.isEmpty && symbol.isPrefixOf text).foldl longer none

end OperatorTable

end FeatureStyle
