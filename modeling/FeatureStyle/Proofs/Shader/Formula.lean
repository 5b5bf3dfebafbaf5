import FeatureStyle.Proofs.Eval.Result
import FeatureStyle.Proofs.Numeric.Exact
import FeatureStyle.Shader.Emit

/-!
# Formulas

The expressions that compare numbers and compute with them: whole constants, properties, the
operators of arithmetic, order and equality, and conditionals. A `Formula` is such an expression
together with what it is about, a number or a truth value, so that every operator fits its operands.

**The value of a formula can be read over any numbers.** `Formula.value` leaves open what the
numbers are. Over doubles it is the value that the expression evaluates to (`eval_toExpr`); over the
rationals, with every constant and every property standing for its whole number, it is the
`exactValue`.
-/

namespace FeatureStyle

open Numeric (Arithmetic exactValue?)

/-- What a formula is about. -/
inductive Formula.Kind
  | number
  | truth

/-- The operators that compare for equality. -/
inductive Equality
  | strictEq
  | strictNe
  | looseEq
  | looseNe

namespace Equality

def toBinaryOp : Equality → BinaryOp
  | strictEq => .strictEq
  | strictNe => .strictNe
  | looseEq => .looseEq
  | looseNe => .looseNe

/-- What is made of the equality of the operands. -/
def decideBy : Equality → Bool → Bool
  | strictEq, same | looseEq, same => same
  | strictNe, same | looseNe, same => !same

end Equality

/-- An expression about numbers or truth values. -/
inductive Formula : Formula.Kind → Type
  /-- A constant that stands for a whole number. -/
  | literal (x : Float) (n : ℤ) (hx : exactValue? x = some (n : ℚ)) (hn : n.natAbs < 2 ^ 53) :
    Formula .number
  | property (name : String) : Formula .number
  | arithmetic (op : ArithmeticOp) (left right : Formula .number) : Formula .number
  | order (op : OrderOp) (left right : Formula .number) : Formula .truth
  | equality (op : Equality) {k : Formula.Kind} (left right : Formula k) : Formula .truth
  | conditional {k : Formula.Kind} (test : Formula .truth) (consequent alternate : Formula k) :
    Formula k

namespace Formula

variable {k : Kind}

/-- The formula as an expression. -/
def toExpr : {k : Kind} → Formula k → Expr
  | _, literal x _ _ _ => .number x
  | _, property name => .property name
  | _, arithmetic op left right => .binary (.arithmetic op) left.toExpr right.toExpr
  | _, order op left right => .binary (.order op) left.toExpr right.toExpr
  | _, equality op left right => .binary op.toBinaryOp left.toExpr right.toExpr
  | _, conditional test consequent alternate =>
    .conditional test.toExpr consequent.toExpr alternate.toExpr

/-- The properties that occur in a formula. -/
def names : {k : Kind} → Formula k → List String
  | _, literal _ _ _ _ => []
  | _, property name => [name]
  | _, arithmetic _ left right | _, order _ left right | _, equality _ left right =>
    left.names ++ right.names
  | _, conditional test consequent alternate => test.names ++ consequent.names ++ alternate.names

/-! ### Values -/

/-- The values of a kind, over some numbers. -/
abbrev Kind.Carrier (K : Type) : Kind → Type
  | number => K
  | truth => Bool

/-- Whether two values of a kind are equal. -/
def Kind.same {K : Type} [Arithmetic K] : (k : Kind) → k.Carrier K → k.Carrier K → Bool
  | number => fun (x y : K) ↦ Arithmetic.same x y
  | truth => fun (a b : Bool) ↦ a == b

/-- The value of a formula, given what constants and properties stand for. -/
def value {K : Type} [Arithmetic K] (constant : Float → ℤ → K) (properties : String → K) :
    {k : Kind} → Formula k → k.Carrier K
  | _, literal x n _ _ => constant x n
  | _, property name => properties name
  | _, arithmetic op left right =>
    let x : K := left.value constant properties
    let y : K := right.value constant properties
    op.ofNumbers x y
  | _, order op left right =>
    let x : K := left.value constant properties
    let y : K := right.value constant properties
    op.ofNumbers x y
  | _, @equality op k left right =>
    op.decideBy (k.same (left.value constant properties) (right.value constant properties))
  | _, conditional test consequent alternate =>
    let b : Bool := test.value constant properties
    if b then consequent.value constant properties else alternate.value constant properties

/-- The value over doubles. -/
def floatValue (properties : String → Float) (f : Formula k) : k.Carrier Float :=
  f.value (fun x _ ↦ x) properties

/-- The value over the rationals. -/
def exactValue (properties : String → ℤ) (f : Formula k) : k.Carrier ℚ :=
  f.value (fun _ n ↦ (n : ℚ)) fun name ↦ (properties name : ℚ)

/-- Of a conditional only the branch that is taken counts. -/
theorem floatValue_conditional (properties : String → Float) (test : Formula .truth)
    (consequent alternate : Formula k) :
    (conditional test consequent alternate).floatValue properties =
      if test.floatValue properties = true then consequent.floatValue properties
      else alternate.floatValue properties := rfl

/-- The same for exact values. -/
theorem exactValue_conditional (properties : String → ℤ) (test : Formula .truth)
    (consequent alternate : Formula k) :
    (conditional test consequent alternate).exactValue properties =
      if test.exactValue properties = true then consequent.exactValue properties
      else alternate.exactValue properties := rfl

/-! ### Evaluation -/

/-- A value of a kind as a value of expressions. -/
def Kind.toValue : (k : Kind) → k.Carrier Float → Value
  | number => Value.number
  | truth => Value.bool

/-- Values of one kind are strictly equal exactly if they are the same. -/
theorem strictEq_toValue (v w : k.Carrier Float) :
    (k.toValue v).strictEq (k.toValue w) = k.same v w := by
  cases k <;> rfl

/-- They are loosely equal under the same condition. -/
theorem looseEq_toValue (v w : k.Carrier Float) :
    (k.toValue v).looseEq (k.toValue w) = k.same v w := by
  cases k with
  | number => rfl
  | truth => cases v <;> cases w <;> decide +kernel

theorem arithmetic_apply (op : ArithmeticOp) (x y : Float) :
    (BinaryOp.arithmetic op).apply (Kind.number.toValue x) (Kind.number.toValue y) =
      Kind.number.toValue (op.ofNumbers x y) := by
  -- Numbers have no components and join no texts.
  show (if op = .add ∧ (false = true ∨ false = true) then _ else _) = _
  rw [if_neg]
  · rfl
  · simp

theorem equality_apply (op : Equality) (v w : k.Carrier Float) :
    op.toBinaryOp.apply (k.toValue v) (k.toValue w) = .bool (op.decideBy (k.same v w)) := by
  cases op <;>
    simp only [Equality.toBinaryOp, BinaryOp.apply, Equality.decideBy, strictEq_toValue,
      looseEq_toValue]

/-- An operator has the value of its operands when both have one. -/
theorem run_binary {s : Subject} {left right : Expr} {v w : Value} (op : BinaryOp)
    (hl : left.eval.run.run s = .ok v) (hr : right.eval.run.run s = .ok w) :
    (Expr.binary op left right).eval.run.run s = .ok (op.apply v w) := by
  rw [Expr.eval, Expr.run_bind_of_ok hl, Expr.run_bind_of_ok hr]
  rfl

/-- A conditional goes on with the branch that its test selects. -/
theorem run_conditional {s : Subject} {test consequent alternate : Expr} {v : Value}
    (ht : test.eval.run.run s = .ok v) :
    (Expr.conditional test consequent alternate).eval.run.run s =
      (if v.truthy then consequent else alternate).eval.run.run s := by
  rw [Expr.eval, Expr.run_bind_of_ok ht]
  split <;> rfl

/-- **Evaluation reads a formula over doubles.** -/
theorem eval_toExpr {s : Subject} {properties : String → Float} {k : Kind} (f : Formula k)
    (hs : ∀ name ∈ f.names, s.property name = some (.number (properties name))) :
    f.toExpr.eval.run.run s = .ok (k.toValue (f.floatValue properties)) := by
  induction f with
  | literal x n hx hn => rfl
  | property name =>
    show Except.ok ((s.property name).getD .undefined) = _
    rw [hs name (List.mem_singleton_self name)]
    rfl
  | arithmetic op left right ihl ihr =>
    rw [names, List.forall_mem_append] at hs
    rw [toExpr, run_binary (.arithmetic op) (ihl hs.1) (ihr hs.2)]
    exact congrArg Except.ok (arithmetic_apply op _ _)
  | order op left right ihl ihr =>
    rw [names, List.forall_mem_append] at hs
    exact run_binary (.order op) (ihl hs.1) (ihr hs.2)
  | equality op left right ihl ihr =>
    rw [names, List.forall_mem_append] at hs
    rw [toExpr, run_binary op.toBinaryOp (ihl hs.1) (ihr hs.2), equality_apply]
    rfl
  | conditional test consequent alternate iht ihc iha =>
    rw [names, List.forall_mem_append, List.forall_mem_append] at hs
    rw [toExpr, run_conditional (iht hs.1.1)]
    -- The value of the test is a truth value, and it decides by itself.
    show (if test.floatValue properties = true then _ else _ : Expr).eval.run.run s = _
    split
    · next h => rw [ihc hs.1.2, floatValue_conditional, if_pos h]
    · next h => rw [iha hs.2, floatValue_conditional, if_neg h]

/-! ### Shader code -/

/-- The shader code of a formula. -/
def text (lead : String) : {k : Kind} → Formula k → String
  | _, literal x _ _ _ => Numeric.constantText x
  | _, property name => lead ++ name
  | _, arithmetic op left right =>
    Shader.binaryText (.arithmetic op) (left.text lead) (right.text lead)
  | _, order op left right => Shader.binaryText (.order op) (left.text lead) (right.text lead)
  | _, equality op left right => Shader.binaryText op.toBinaryOp (left.text lead) (right.text lead)
  | _, conditional test consequent alternate =>
    s!"({test.text lead} ? {consequent.text lead} : {alternate.text lead})"

/-- Code of an operator is put together from the codes of its operands. -/
theorem emit_binary {lead l r : String} {left right : Expr} {op : BinaryOp}
    (hop : Shader.supportsBinary op) (hl : left.emit lead = pure l)
    (hr : right.emit lead = pure r) :
    (Expr.binary op left right).emit lead = pure (Shader.binaryText op l r) := by
  rw [Expr.emit, if_pos hop, hl, hr, pure_bind, pure_bind]

/-- **Every formula has shader code**, and writing it finds nothing that is translucent. -/
theorem emit_toExpr (lead : String) (f : Formula k) :
    f.toExpr.emit lead = pure (f.text lead) := by
  induction f with
  | literal | property => rw [toExpr, Expr.emit, text]
  | arithmetic op left right ihl ihr => exact emit_binary rfl ihl ihr
  | order op left right ihl ihr => exact emit_binary rfl ihl ihr
  | equality op left right ihl ihr =>
    refine emit_binary ?_ ihl ihr
    cases op <;> rfl
  | conditional test consequent alternate iht ihc iha =>
    rw [toExpr, Expr.emit, iht, ihc, iha, pure_bind, pure_bind, pure_bind, text]

end Formula

end FeatureStyle
