import FeatureStyle.Eval.Direct
import FeatureStyle.Eval.Term

/-!
# Evaluation with a scratch pool

`Expr.evaluateIn` computes the value of an expression with a scratch pool. It empties the pool,
evaluates the expression to a term and reads the term back. The pool is part of the outcome also
when the evaluation fails, so its generation and room tell what went on.

A new colour or vector takes a slot when it comes from a property, a constructor, arithmetic or a
negation. The plus sign, conditionals and members of arrays hand on the slots that they find.

A slot that is not live stops the evaluation. The value is otherwise that of `Expr.eval`.
-/

namespace FeatureStyle

/-- Why an evaluation with a pool ends early. -/
inductive Stop
  | error (e : EvalError)
  /-- A slot was read that is not of the current generation. -/
  | deadSlot
  deriving DecidableEq, Repr

/-- The reason as a text; `explain` words the fault of a regular expression. -/
def Stop.message (explain : Regex.Fault → String) : Stop → String
  | .error e => e.message explain
  | .deadSlot => "scratch slot used after its generation ended"

namespace Expr

/-- An evaluation with a scratch pool. -/
abbrev PooledEvaluation := ExceptT Stop (StateT ScratchPool Dialogue)

namespace PooledEvaluation

/-- A step that may fail and has nothing to do with the pool. -/
def ofExcept {α : Type} : Except EvalError α → PooledEvaluation α
  | .ok a => pure a
  | .error e => throw (.error e)

/-- The value of a term. -/
def valueOf (t : Term) : PooledEvaluation Value := do
  match t.resolve? (← get) with
  | some v => return v
  | none => throw .deadSlot

/-- The term of a value. -/
def intern (v : Value) : PooledEvaluation Term :=
  modifyGet (Term.intern v)

end PooledEvaluation

open PooledEvaluation

mutual

/-- The term of an expression. -/
def evalPooled : Expr → PooledEvaluation Term
  | null => pure .null
  | undefined => pure .undefined
  | bool b => pure (.bool b)
  | number x => pure (.number x)
  | string s => pure (.string s)
  | global g => do intern (← askGlobal g)
  | regex p => pure (.regExp p)
  | color .css [] => intern (.color Color.white)
  | color .css (css :: rest) => do
    let c ← ofExcept (← valueOf (← css.evalPooled)).cssColor
    match rest with
    | [] => intern (.color c)
    | alpha :: _ => do
      let a ← valueOf (← alpha.evalPooled)
      intern (.color (c.withAlpha (Numeric.narrow a.toNumber)))
  | color (.channels f) args => do
    let channels ← evalPooledChannels 4 args
    intern (.color (f.apply channels))
  | vector size args => do
    let components ← evalPooledComponents size args
    let v ← ofExcept (size.ofComponents args.length components)
    intern (.composite size.lane v)
  | property name => do intern (← askProperty name)
  | template text => do return .string (← Template.fill text)
  | unary op operand => do
    let t ← operand.evalPooled
    if op = .positive ∧ t.isSlot then return t
    else
      let v ← op.apply (← valueOf t)
      intern v
  | className => do intern (← askClassName)
  | logical op left right => do
    let l ← ofExcept ((← valueOf (← left.evalPooled)).expectBool op)
    if l = op.deciding then return .bool l
    else return .bool (← ofExcept ((← valueOf (← right.evalPooled)).expectBool op))
  | binary op left right => do
    let l ← left.evalPooled
    let r ← right.evalPooled
    intern (op.apply (← valueOf l) (← valueOf r))
  | ternary f first second third => do
    let a ← first.evalPooled
    let b ← second.evalPooled
    let c ← third.evalPooled
    let a ← valueOf a
    let b ← valueOf b
    let c ← valueOf c
    return .number (f.apply a.toNumber b.toNumber c.toNumber)
  | conditional test consequent alternate => do
    if (← valueOf (← test.evalPooled)).truthy then consequent.evalPooled else alternate.evalPooled
  | featureMember _ key => do
    let k ← valueOf (← key.evalPooled)
    intern (← askProperty k.text)
  | member _ object key => do
    let k ← key.evalPooled
    let o ← object.evalPooled
    let k ← valueOf k
    match o.item? k with
    | some t => return t
    | none => intern ((← valueOf o).member k)
  | array items => do return .array (← evalPooledItems items)
  | call .toString object _ => do
    let o ← valueOf (← object.evalPooled)
    return .string (← ofExcept o.methodText)
  | call (.search m) object argument => do
    let p ← ofExcept ((← valueOf (← object.evalPooled)).expectRegex m)
    match argument with
    | some a => do
      let v ← valueOf (← a.evalPooled)
      intern (m.result p v.text)
    | none => intern (m.result p (Value.text .undefined))
  | regExp pattern flags => do
    let p ← pattern.evalPooled
    match flags with
    | some f => do
      let f ← f.evalPooled
      intern (← ofExcept ((← valueOf p).compileRegex (← valueOf f)))
    | none => intern (← ofExcept ((← valueOf p).compileRegex .undefined))

/-- The terms of expressions. -/
def evalPooledItems : List Expr → PooledEvaluation (List Term)
  | [] => pure []
  | e :: es => do
    let t ← e.evalPooled
    return t :: (← evalPooledItems es)

/-- The numbers of at most the given number of expressions. -/
def evalPooledChannels : Nat → List Expr → PooledEvaluation (List Float)
  | _, [] => pure []
  | 0, _ => pure []
  | n + 1, e :: es => do
    let v ← valueOf (← e.evalPooled)
    return v.toNumber :: (← evalPooledChannels n es)

/-- The components of the values of expressions. -/
def evalPooledComponents (size : VectorSize) : List Expr → PooledEvaluation (List Float32)
  | [] => pure []
  | e :: es => do
    let components ← ofExcept ((← valueOf (← e.evalPooled)).components size)
    return components ++ (← evalPooledComponents size es)

end

/-- The value of an expression, computed with a pool. The pool is emptied first. -/
def evaluateIn (e : Expr) (pool : ScratchPool) :
    Dialogue (Except Stop Value × ScratchPool) :=
  (e.evalPooled >>= valueOf).run.run pool.reset

/-- The colour of an expression, computed with a pool. -/
def evaluateColorIn (e : Expr) (pool : ScratchPool) :
    Dialogue (Except Stop Color × ScratchPool) :=
  (e.evalPooled >>= valueOf >>= fun v ↦ ofExcept v.expectColor).run.run pool.reset

end Expr

end FeatureStyle
