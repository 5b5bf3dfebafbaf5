import FeatureStyle.Proofs.Numeric.Rational
import FeatureStyle.Settings.Validation

/-!
# Reading shader code

The part of the language of shaders that numbers and truth values need: constants, attributes, the
operators of arithmetic, order and equality, the conditional operator and the function `mod`.
`Glsl.read?` reads a text as a term, and `Term.value?` gives the value of a term, over the rationals
and with a partial meaning: nothing is divided by zero, and an operator that does not fit its
operands gives nothing.

**Parentheses group.** An operator with two or three operands is only read between parentheses of
its own. What is read this way means the same under any rules of precedence, so none are needed.

Readers give back what comes behind the term. A reader of a term is handed a bound on the number of
nested terms; the length of the text is always enough.
-/

namespace FeatureStyle.Glsl

/-! ### Terms and their values -/

/-- An operator between two operands. -/
inductive Operator
  | add
  | sub
  | mul
  | div
  | less
  | atMost
  | greater
  | atLeast
  | equal
  | notEqual
  deriving DecidableEq

/-- An expression of a shader. -/
inductive Term
  | constant (q : ℚ)
  | input (name : String)
  | negate (t : Term)
  | binary (op : Operator) (left right : Term)
  | mod (left right : Term)
  | choose (test consequent alternate : Term)

/-- A value in a shader. -/
inductive Value
  | number (q : ℚ)
  | truth (b : Bool)
  deriving DecidableEq

/-- An operator between two values that it fits. -/
def Operator.apply? : Operator → Value → Value → Option Value
  | .add, .number x, .number y => some (.number (x + y))
  | .sub, .number x, .number y => some (.number (x - y))
  | .mul, .number x, .number y => some (.number (x * y))
  | .div, .number x, .number y => if y = 0 then none else some (.number (x / y))
  | .less, .number x, .number y => some (.truth (decide (x < y)))
  | .atMost, .number x, .number y => some (.truth (decide (x ≤ y)))
  | .greater, .number x, .number y => some (.truth (decide (y < x)))
  | .atLeast, .number x, .number y => some (.truth (decide (y ≤ x)))
  | .equal, .number x, .number y => some (.truth (decide (x = y)))
  | .equal, .truth a, .truth b => some (.truth (a == b))
  | .notEqual, .number x, .number y => some (.truth (decide (x ≠ y)))
  | .notEqual, .truth a, .truth b => some (.truth (a != b))
  | _, _, _ => none

/-- `mod(x, y) = x - y * floor(x / y)`. -/
def mod? : Value → Value → Option Value
  | .number x, .number y => if y = 0 then none else some (.number (Numeric.floorRem x y))
  | _, _ => none

/-- The value of a term where the attributes have the given values. -/
def Term.value? (attributes : String → ℚ) : Term → Option Value
  | constant q => some (.number q)
  | input name => some (.number (attributes name))
  | negate t => do
    match ← t.value? attributes with
    | .number x => some (.number (-x))
    | .truth _ => none
  | binary op left right => do
    let l ← left.value? attributes
    let r ← right.value? attributes
    op.apply? l r
  | mod left right => do
    let l ← left.value? attributes
    let r ← right.value? attributes
    mod? l r
  | choose test consequent alternate => do
    match ← test.value? attributes with
    | .truth b => if b then consequent.value? attributes else alternate.value? attributes
    | .number _ => none

/-! ### Reading -/

/-- The text without blanks in front. -/
def skipBlanks (cs : List Char) : List Char := cs.dropWhile (· == ' ')

/-- The text behind a character, which blanks may precede. -/
def expect? (c : Char) (cs : List Char) : Option (List Char) :=
  match skipBlanks cs with
  | d :: ds => if d = c then some ds else none
  | [] => none

/-- The operator at the front; of two that fit it is the longer one. -/
def operator? : List Char → Option (Operator × List Char)
  | '<' :: '=' :: cs => some (.atMost, cs)
  | '>' :: '=' :: cs => some (.atLeast, cs)
  | '=' :: '=' :: cs => some (.equal, cs)
  | '!' :: '=' :: cs => some (.notEqual, cs)
  | '<' :: cs => some (.less, cs)
  | '>' :: cs => some (.greater, cs)
  | '+' :: cs => some (.add, cs)
  | '-' :: cs => some (.sub, cs)
  | '*' :: cs => some (.mul, cs)
  | '/' :: cs => some (.div, cs)
  | _ => none

/-- A constant: digits, a point and digits. -/
def constant? (cs : List Char) : Option (Term × List Char) :=
  let whole := cs.takeWhile Char.isDigit
  match cs.dropWhile Char.isDigit with
  | '.' :: ds =>
    let fraction := ds.takeWhile Char.isDigit
    let digits := Nat.ofDigitChars 10 (whole ++ fraction) 0
    some (.constant (digits / 10 ^ fraction.length), ds.dropWhile Char.isDigit)
  | _ => none

/-- What an opening parenthesis and a term begin, up to the closing parenthesis. -/
def group? (term? : List Char → Option (Term × List Char)) (first : Term) :
    List Char → Option (Term × List Char)
  | ')' :: cs => some (first, cs)
  | '?' :: cs => do
    let (consequent, cs) ← term? cs
    let cs ← expect? ':' cs
    let (alternate, cs) ← term? cs
    let cs ← expect? ')' cs
    return (.choose first consequent alternate, cs)
  | cs => do
    let (op, cs) ← operator? cs
    let (second, cs) ← term? cs
    let cs ← expect? ')' cs
    return (.binary op first second, cs)

/-- The arguments of `mod`, up to the closing parenthesis. -/
def modCall? (term? : List Char → Option (Term × List Char)) (cs : List Char) :
    Option (Term × List Char) := do
  let (left, cs) ← term? cs
  let cs ← expect? ',' cs
  let (right, cs) ← term? cs
  let cs ← expect? ')' cs
  return (.mod left right, cs)

/-- The term at the front of a text. -/
def term? : Nat → List Char → Option (Term × List Char)
  | 0, _ => none
  | n + 1, cs =>
    match skipBlanks cs with
    | '-' :: cs => do
      let (t, cs) ← term? n cs
      return (.negate t, cs)
    | '(' :: cs => do
      let (first, cs) ← term? n cs
      group? (term? n) first (skipBlanks cs)
    | c :: cs =>
      if c.isDigit then constant? (c :: cs)
      else if isIdentifierPart c then
        let name := c :: cs.takeWhile isIdentifierPart
        -- `mod` is a function if it is called, and an attribute like any other if it is not.
        match name, cs.dropWhile isIdentifierPart with
        | ['m', 'o', 'd'], '(' :: cs => modCall? (term? n) cs
        | name, cs => some (.input (String.ofList name), cs)
      else none
    | [] => none

/-- The term that a text is. -/
def read? (text : String) : Option Term :=
  match term? (text.toList.length + 1) text.toList with
  | some (t, rest) => if skipBlanks rest = [] then some t else none
  | none => none

end FeatureStyle.Glsl
