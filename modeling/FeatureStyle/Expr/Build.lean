import FeatureStyle.Expr.Basic
import FeatureStyle.Source.Placeholder
import FeatureStyle.Tree.Parser
import FeatureStyle.Value.Basic

/-!
# Building expressions

`Expr.ofTree` looks up every name and operator of a syntax tree, and `Expr.ofSource` takes a source
all the way. Each function checks how many arguments it gets; conversions and methods only look at
the first ones they need, and whatever stands behind those is ignored.

A regular expression whose parts are all literals is compiled here, so that a faulty one is found
before any evaluation.
-/

namespace FeatureStyle

/-- How many arguments a function takes. -/
inductive Arity
  | none
  | one
  | two
  | three
  | four
  | atLeastOne
  | atMostTwo
  deriving DecidableEq, Repr

namespace Arity

/-- The requirement in words. -/
def text : Arity → String
  | none => "no arguments"
  | one => "exactly one argument"
  | two => "exactly two arguments"
  | three => "exactly three arguments"
  | four => "exactly four arguments"
  | atLeastOne => "at least one argument"
  | atMostTwo => "at most two arguments"

/-- Whether a number of arguments meets the requirement. -/
def admits : Arity → Nat → Bool
  | none, n => n == 0
  | one, n => n == 1
  | two, n => n == 2
  | three, n => n == 3
  | four, n => n == 4
  | atLeastOne, n => 1 ≤ n
  | atMostTwo, n => n ≤ 2

end Arity

/-- Why a source is no expression. -/
inductive CompileError
  | placeholder (e : Source.UnmatchedPlaceholder)
  | parse (e : ParseError)
  | invalidRegex (e : PatternError)
  | undefinedIdentifier (name : String)
  | unexpectedCall (name : String)
  | unexpectedOperator (symbol : String)
  | arity (function : String) (expected : Arity) (found : Nat)
  | tooManyComponents (function : String) (found : Nat)
  | notAFunction (callee : String)
  | compound (count : Nat)
  deriving DecidableEq, Repr

namespace CompileError

/-- Whether the source is no well-formed text, rather than one that means nothing. -/
def isSyntactic : CompileError → Bool
  | placeholder _ | parse _ | invalidRegex _ => true
  | _ => false

/-- The class of the error in reports. -/
def className (e : CompileError) : String :=
  if e.isSyntactic then "syntax" else "unsupported"

/-- The error as a text; `explain` words the fault of a regular expression. -/
def message (explain : Regex.Fault → String) : CompileError → String
  | placeholder e => s!"syntax error: {e.message}"
  | parse e => s!"syntax error: {e.message}"
  | invalidRegex e => s!"syntax error: {e.message explain}"
  | undefinedIdentifier name => s!"{name} is not defined"
  | unexpectedCall name => s!"unexpected function call \"{name}\""
  | unexpectedOperator symbol => s!"unexpected operator \"{symbol}\""
  | arity function expected found => s!"{function} requires {expected.text}, got {found}"
  | tooManyComponents function found =>
    s!"invalid {function} constructor: too many arguments ({found})"
  | notAFunction callee => s!"{callee} is not a function"
  | compound count => s!"expected a single expression, found {count}"

end CompileError

namespace Expr

/-- What building gives. -/
abbrev Built := Except CompileError Expr

/-! ### Names and literals -/

/-- Whether a text has a placeholder opened in it. -/
def opensPlaceholder : List Char → Bool
  | '$' :: '\x7b' :: _ => true
  | _ :: cs => opensPlaceholder cs
  | [] => false

/-- A literal. A string with a placeholder in it is a template. -/
def ofLiteral : Literal → Expr
  | .null => .null
  | .bool b => .bool b
  | .number x => .number x
  | .string s =>
    let restored := String.ofList (Source.restoreBackslashes s.toList)
    if opensPlaceholder s.toList then .template restored else .string restored

/-- The ratio of a circle's circumference to its diameter. -/
def pi : Float := 3.141592653589793

/-- The base of the natural logarithm. -/
def eulerNumber : Float := 2.718281828459045

/-- A name that stands by itself. -/
def ofIdentifier (name : String) : Built :=
  if Source.isVariable name then .ok (.property (Source.propertyName name))
  else
    match Global.ofName? name with
    | some g => .ok (.global g)
    | none =>
      match name with
      | "NaN" => .ok (.number Numeric.nan)
      | "Infinity" => .ok (.number Numeric.infinity)
      | "undefined" => .ok .undefined
      | "PI" => .ok (.number pi)
      | "E" => .ok (.number eulerNumber)
      | _ => .error (.undefinedIdentifier name)

/-! ### Functions -/

/-- The text of a literal, for a regular expression made of literals. -/
def literalText? : Expr → Option String
  | .string s => some s
  | .number x => some (Numeric.numberText x)
  | .bool b => some (Value.boolText b)
  | .null => some "null"
  | .undefined => some "undefined"
  | _ => none

/-- A regular expression of literals. -/
def literalRegex (source flags : String) : Built :=
  match Pattern.compile source flags with
  | .ok p => .ok (.regex p)
  | .error e => .error (.invalidRegex e)

/-- A regular expression of a pattern and perhaps flags. -/
def ofRegexArguments (args : List Built) : Built :=
  match args with
  | [] => literalRegex "" ""
  | [pattern] => do
    let pattern ← pattern
    match pattern.literalText? with
    | some source => literalRegex source ""
    | none => return .regExp pattern none
  | pattern :: flags :: _ => do
    let pattern ← pattern
    let flags ← flags
    match pattern.literalText?, flags.literalText? with
    | some source, some flags => literalRegex source flags
    | _, _ => return .regExp pattern (some flags)

/-- The arguments, each of which has to be built. -/
def sequenceArguments : List Built → Except CompileError (List Expr)
  | [] => .ok []
  | arg :: args => do
    let arg ← arg
    return arg :: (← sequenceArguments args)

/-- The requirement of a function that makes a colour. -/
def colorArity : ColorFn → Arity
  | .css => .atMostTwo
  | .channels .rgb | .channels .hsl => .three
  | .channels .rgba | .channels .hsla => .four

/-- A call of a function that makes a colour. -/
def ofColorCall (fn : ColorFn) (args : List Built) : Built :=
  if (colorArity fn).admits args.length then (sequenceArguments args).map (.color fn)
  else .error (.arity fn.name (colorArity fn) args.length)

/-- A call of a function that makes a vector. -/
def ofVectorCall (size : VectorSize) (args : List Built) : Built :=
  if args.isEmpty then .error (.arity size.name .atLeastOne 0)
  else if size.count < args.length then .error (.tooManyComponents size.name args.length)
  else (sequenceArguments args).map (.vector size)

/-- The conversions: the value without an argument, and the operator on the first one. -/
def conversion? : String → Option (Expr × UnaryOp)
  | "isNaN" => some (.bool true, .isNaN)
  | "isFinite" => some (.bool false, .isFinite)
  | "Boolean" => some (.bool false, .toBoolean)
  | "Number" => some (.number 0, .toNumber)
  | "String" => some (.string "", .toString)
  | _ => none

/-- The functions with exactly one argument. -/
def unaryFunction? : String → Option UnaryOp
  | "isExactClass" => some .isExactClass
  | "isClass" => some .isClass
  | name => (UnaryMath.ofName? name).map .math

/-- A call of a function with a fixed number of arguments. -/
def ofFixedCall (name : String) (args : List Built) : Built :=
  if name = "getExactClassName" then
    match args with
    | [] => .ok .className
    | _ => .error (.arity name .none args.length)
  else if name = "regExp" then ofRegexArguments args
  else
    match unaryFunction? name, BinaryMath.ofName? name, TernaryFn.ofName? name with
    | some op, _, _ =>
      match args with
      | [a] => do return .unary op (← a)
      | _ => .error (.arity name .one args.length)
    | none, some f, _ =>
      match args with
      | [a, b] => do return .binary (.math f) (← a) (← b)
      | _ => .error (.arity name .two args.length)
    | none, none, some f =>
      match args with
      | [a, b, c] => do return .ternary f (← a) (← b) (← c)
      | _ => .error (.arity name .three args.length)
    | none, none, none => .error (.unexpectedCall name)

/-- A call of a function by name. -/
def ofFunctionCall (name : String) (args : List Built) : Built :=
  match ColorFn.ofName? name, VectorSize.ofName? name, conversion? name with
  | some fn, _, _ => ofColorCall fn args
  | none, some size, _ => ofVectorCall size args
  | none, none, some (missing, op) =>
    match args with
    | [] => .ok missing
    | a :: _ => do return .unary op (← a)
  | none, none, none => ofFixedCall name args

/-- Whether the tree is a call that makes a regular expression. -/
def isRegexCall : SyntaxTree → Bool
  | .call (.identifier name) _ => name == "regExp"
  | _ => false

/-- What searching for a regular expression gives when there is no text to search. -/
def searchOfNothing : SearchMethod → Expr
  | .test => .bool false
  | .exec => .null

/-- A call of a method. A regular expression is required of every object but that of `toString`. -/
def ofMethodCall (name : String) (isRegex : Bool) (object : Built) (args : List Built) : Built :=
  match Method.ofName? name with
  | none => .error (.unexpectedCall name)
  | some .toString => do return .call .toString (← object) none
  | some (.search m) =>
    if !isRegex then .error (.notAFunction name)
    else
      match args with
      | [] => .ok (searchOfNothing m)
      | a :: _ => do
        let object ← object
        return .call (.search m) object (some (← a))

/-! ### Trees -/

/-- The form of expression that a symbol between two operands makes. -/
def binaryForm? (symbol : String) : Option (Expr → Expr → Expr) :=
  match LogicalOp.ofSymbol? symbol, BinaryOp.ofSymbol? symbol with
  | some op, _ => some (.logical op)
  | none, some op => some (.binary op)
  | none, none => none

mutual

/-- The expression that a syntax tree stands for. -/
def ofTree : SyntaxTree → Built
  | .literal l => .ok (ofLiteral l)
  | .identifier name => ofIdentifier name
  | .unary operator operand =>
    match UnaryOp.ofSymbol? operator with
    | none => .error (.unexpectedOperator operator)
    | some op => do return .unary op (← ofTree operand)
  | .binary operator left right =>
    match binaryForm? operator with
    | none => .error (.unexpectedOperator operator)
    | some form => do
      let left ← ofTree left
      return form left (← ofTree right)
  | .logical operator left right =>
    match LogicalOp.ofSymbol? operator with
    | none => .error (.unexpectedOperator operator)
    | some op => do
      let left ← ofTree left
      return .logical op left (← ofTree right)
  | .conditional test consequent alternate => do
    let test ← ofTree test
    let consequent ← ofTree consequent
    return .conditional test consequent (← ofTree alternate)
  | .member object key computed => do
    let member : MemberAccess → Expr → Expr ←
      match object.identifierName? with
      | some "feature" => pure .featureMember
      | _ => do
        let object ← ofTree object
        pure fun access key ↦ .member access object key
    if computed then return member .brackets (← ofTree key)
    else
      match key.identifierName? with
      | some name => return member .dot (.string name)
      | none => .error (.unexpectedOperator ".")
  | .array items => do return .array (← sequenceArguments (ofTrees items))
  | .call callee args =>
    match callee with
    | .member object key false =>
      ofMethodCall (key.identifierName?.getD "") (isRegexCall object) (ofTree object)
        (ofTrees args)
    | .identifier name => ofFunctionCall name (ofTrees args)
    | other => .error (.notAFunction other.kindName)
  | .compound items => .error (.compound items.length)

/-- What building gives for each of the trees. -/
def ofTrees : List SyntaxTree → List Built
  | [] => []
  | t :: ts => ofTree t :: ofTrees ts

end

/-! ### Sources -/

/-- The operators of expressions. -/
def operators : OperatorTable :=
  (OperatorTable.default.addBinary "=~" 6).addBinary "!~" 6

/-- The expression that a source stands for. -/
def ofSource (source : String) : Built :=
  match Source.expandPlaceholders (Source.hideBackslashes source.toList) with
  | .error e => .error (.placeholder e)
  | .ok prepared =>
    match SyntaxTree.parse operators prepared with
    | .error e => .error (.parse e)
    | .ok tree => ofTree tree

end Expr

end FeatureStyle
