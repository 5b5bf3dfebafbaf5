import FeatureStyle.Eval.Operations
import FeatureStyle.Eval.Template
import FeatureStyle.Expr.Basic

/-!
# The meaning of expressions

`Expr.eval` is what an expression means: a dialogue with a feature that ends in a value or an error.
It handles values directly and needs no room for them.

Operands are evaluated from left to right, with four exceptions. The key of a member comes before
the object; of a conditional only one branch is evaluated; the right operand of a logical operator
only counts if the left one does not decide; and a search checks its regular expression before it
evaluates the text.
-/

namespace FeatureStyle.Expr

/-- An evaluation, which asks questions and may fail. -/
abbrev Evaluation := ExceptT EvalError Dialogue

/-- A property of the feature. An absent one is undefined. -/
def askProperty (name : String) : Dialogue Value :=
  (·.getD .undefined) <$> Dialogue.query (.property name)

/-- The name of the class that the feature is exactly of. -/
def askClassName : Dialogue Value :=
  (·.elim .undefined .string) <$> Dialogue.query .exactClassName

/-- The value of a global. -/
def askGlobal : Global → Dialogue Value
  | .tilesetTime => .number <$> Dialogue.query .timeSinceLoad

mutual

/-- The value of an expression. -/
def eval : Expr → Evaluation Value
  | null => pure .null
  | undefined => pure .undefined
  | bool b => pure (.bool b)
  | number x => pure (.number x)
  | string s => pure (.string s)
  | global g => askGlobal g
  | regex p => pure (.regExp p)
  | color .css [] => pure (.color Color.white)
  | color .css (css :: rest) => do
    let c ← (← css.eval).cssColor
    match rest with
    | [] => return .color c
    | alpha :: _ => do
      let a ← alpha.eval
      return .color (c.withAlpha (Numeric.narrow a.toNumber))
  | color (.channels f) args => do
    let channels ← evalChannels 4 args
    return .color (f.apply channels)
  | vector size args => do
    let components ← evalComponents size args
    let v ← size.ofComponents args.length components
    return .composite size.lane v
  | property name => askProperty name
  | template text => .string <$> Template.fill text
  | unary op operand => do
    let v ← operand.eval
    op.apply v
  | className => askClassName
  | logical op left right => do
    let l ← (← left.eval).expectBool op
    if l = op.deciding then return .bool l
    else return .bool (← (← right.eval).expectBool op)
  | binary op left right => do
    let l ← left.eval
    let r ← right.eval
    return op.apply l r
  | ternary f first second third => do
    let a ← first.eval
    let b ← second.eval
    let c ← third.eval
    return .number (f.apply a.toNumber b.toNumber c.toNumber)
  | conditional test consequent alternate => do
    if (← test.eval).truthy then consequent.eval else alternate.eval
  | featureMember _ key => do
    let k ← key.eval
    askProperty k.text
  | member _ object key => do
    let k ← key.eval
    let o ← object.eval
    return o.member k
  | array items => .array <$> evalItems items
  | call .toString object _ => do
    let o ← object.eval
    return .string (← o.methodText)
  | call (.search m) object argument => do
    let p ← (← object.eval).expectRegex m
    match argument with
    | some a => do
      let v ← a.eval
      return m.result p v.text
    | none => return m.result p (Value.text .undefined)
  | regExp pattern flags => do
    let p ← pattern.eval
    match flags with
    | some f => do
      let f ← f.eval
      p.compileRegex f
    | none => p.compileRegex .undefined

/-- The values of expressions. -/
def evalItems : List Expr → Evaluation (List Value)
  | [] => pure []
  | e :: es => do
    let v ← e.eval
    return v :: (← evalItems es)

/-- The numbers of at most the given number of expressions. -/
def evalChannels : Nat → List Expr → Evaluation (List Float)
  | _, [] => pure []
  | 0, _ => pure []
  | n + 1, e :: es => do
    let v ← e.eval
    return v.toNumber :: (← evalChannels n es)

/-- The components of the values of expressions. -/
def evalComponents (size : VectorSize) : List Expr → Evaluation (List Float32)
  | [] => pure []
  | e :: es => do
    let components ← (← e.eval).components size
    return components ++ (← evalComponents size es)

end

end FeatureStyle.Expr
