import FeatureStyle.Expr.Operators
import FeatureStyle.Regex.Pattern

/-!
# Expressions

An expression whose names have all been looked up. This is what is evaluated and what is written as
shader code.

The object of a member is either the feature itself, which is no value, or an expression; the two
are different constructors. Equality of expressions is that of their numbers, so an expression that
holds NaN is not equal to itself.
-/

namespace FeatureStyle

/-- An expression. -/
inductive Expr
  | null
  | undefined
  | bool (b : Bool)
  | number (x : Float)
  | string (s : String)
  | global (g : Global)
  | regex (p : Pattern)
  | color (fn : ColorFn) (args : List Expr)
  | vector (size : VectorSize) (args : List Expr)
  /-- The property of the feature with the given name. -/
  | property (name : String)
  /-- A text in which placeholders stand for properties. -/
  | template (text : String)
  | unary (op : UnaryOp) (operand : Expr)
  /-- The name of the class that the feature is exactly of. -/
  | className
  | logical (op : LogicalOp) (left right : Expr)
  | binary (op : BinaryOp) (left right : Expr)
  | ternary (fn : TernaryFn) (first second third : Expr)
  | conditional (test consequent alternate : Expr)
  /-- A property of the feature whose name is computed. -/
  | featureMember (access : MemberAccess) (key : Expr)
  | member (access : MemberAccess) (object key : Expr)
  | array (items : List Expr)
  | call (method : Method) (object : Expr) (argument : Option Expr)
  /-- A regular expression that is compiled during evaluation. -/
  | regExp (pattern : Expr) (flags : Option Expr)

namespace Expr

/-- The kind of an expression in reports. -/
def kindName : Expr → String
  | null => "LITERAL_NULL"
  | undefined => "LITERAL_UNDEFINED"
  | bool _ => "LITERAL_BOOLEAN"
  | number _ => "LITERAL_NUMBER"
  | string _ => "LITERAL_STRING"
  | global _ => "LITERAL_GLOBAL"
  | regex _ => "LITERAL_REGEX"
  | color _ _ => "LITERAL_COLOR"
  | vector _ _ => "LITERAL_VECTOR"
  | property _ => "VARIABLE"
  | template _ => "VARIABLE_IN_STRING"
  | unary _ _ | className => "UNARY"
  | logical _ _ _ | binary _ _ _ => "BINARY"
  | ternary _ _ _ _ => "TERNARY"
  | conditional _ _ _ => "CONDITIONAL"
  | featureMember _ _ | member _ _ _ => "MEMBER"
  | array _ => "ARRAY"
  | call _ _ _ => "FUNCTION_CALL"
  | regExp _ _ => "REGEX"

/-- The number that the expression consists of, if it is a literal one. -/
def literalNumber? : Expr → Option Float
  | number x => some x
  | _ => none

mutual

/-- Whether two expressions are equal, number by number. -/
protected def beq : Expr → Expr → Bool
  | null, null => true
  | undefined, undefined => true
  | bool a, bool b => a == b
  | number x, number y => x == y
  | string s, string t => s == t
  | global g, global h => g == h
  | regex p, regex q => p == q
  | color f as, color g bs => f == g && beqList as bs
  | vector n as, vector m bs => n == m && beqList as bs
  | property s, property t => s == t
  | template s, template t => s == t
  | unary f a, unary g b => f == g && a.beq b
  | className, className => true
  | logical f a b, logical g c d => f == g && a.beq c && b.beq d
  | binary f a b, binary g c d => f == g && a.beq c && b.beq d
  | ternary f a b c, ternary g d e h => f == g && a.beq d && b.beq e && c.beq h
  | conditional a b c, conditional d e f => a.beq d && b.beq e && c.beq f
  | featureMember m a, featureMember n b => m == n && a.beq b
  | member m a b, member n c d => m == n && a.beq c && b.beq d
  | array as, array bs => beqList as bs
  | call m a b, call n c d => m == n && a.beq c && beqOption b d
  | regExp a b, regExp c d => a.beq c && beqOption b d
  | _, _ => false

def beqList : List Expr → List Expr → Bool
  | [], [] => true
  | a :: as, b :: bs => a.beq b && beqList as bs
  | _, _ => false

def beqOption : Option Expr → Option Expr → Bool
  | none, none => true
  | some a, some b => a.beq b
  | _, _ => false

end

instance : BEq Expr := ⟨Expr.beq⟩

end Expr

end FeatureStyle
