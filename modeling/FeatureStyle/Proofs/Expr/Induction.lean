import FeatureStyle.Expr.Basic

/-!
# Induction over expressions

Expressions are nested: arguments come in lists and options. `Expr.induction` is induction over
expressions where the hypothesis for a list says that every member of it has the property. It is the
principle that `induction` uses for expressions.
-/

namespace FeatureStyle.Expr

/-- Induction over expressions; arguments in lists and options all have the property. -/
@[induction_eliminator]
theorem induction {motive : Expr → Prop} (null : motive null) (undefined : motive undefined)
    (bool : ∀ b, motive (bool b)) (number : ∀ x, motive (number x))
    (string : ∀ s, motive (string s)) (global : ∀ g, motive (global g))
    (regex : ∀ p, motive (regex p))
    (color : ∀ fn args, (∀ e ∈ args, motive e) → motive (color fn args))
    (vector : ∀ size args, (∀ e ∈ args, motive e) → motive (vector size args))
    (property : ∀ name, motive (property name)) (template : ∀ text, motive (template text))
    (unary : ∀ op operand, motive operand → motive (unary op operand))
    (className : motive className)
    (logical : ∀ op left right, motive left → motive right → motive (logical op left right))
    (binary : ∀ op left right, motive left → motive right → motive (binary op left right))
    (ternary : ∀ fn first second third, motive first → motive second → motive third →
      motive (ternary fn first second third))
    (conditional : ∀ test consequent alternate, motive test → motive consequent →
      motive alternate → motive (conditional test consequent alternate))
    (featureMember : ∀ access key, motive key → motive (featureMember access key))
    (member : ∀ access object key, motive object → motive key →
      motive (member access object key))
    (array : ∀ items, (∀ e ∈ items, motive e) → motive (array items))
    (call : ∀ method object argument, motive object → (∀ e ∈ argument, motive e) →
      motive (call method object argument))
    (regExp : ∀ pattern flags, motive pattern → (∀ e ∈ flags, motive e) →
      motive (regExp pattern flags)) (e : Expr) : motive e :=
  @Expr.rec motive (fun es ↦ ∀ e ∈ es, motive e) (fun o ↦ ∀ e ∈ o, motive e)
    null undefined bool number string global regex color vector property template unary className
    logical binary ternary conditional featureMember member array call regExp
    (fun _ h ↦ absurd h List.not_mem_nil)
    (fun _ _ hhead htail ↦ List.forall_mem_cons.2 ⟨hhead, htail⟩)
    (fun _ h ↦ absurd h (Option.not_mem_none _))
    (fun _ h _ ha ↦ Option.mem_some_iff.1 ha ▸ h) e

end FeatureStyle.Expr
