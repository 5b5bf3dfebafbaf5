import FeatureStyle.Eval.Pooled
import FeatureStyle.Expr.Build
import FeatureStyle.Shader.Emit

/-!
# Compiled expressions

An `Expression` is a source together with the expression that it compiles to. The two cannot
disagree, but equality still compares both, number by number: an expression that holds NaN is not
equal to itself.
-/

namespace FeatureStyle

/-- A compiled source. -/
structure Expression where
  source : String
  root : Expr
  root_eq : Expr.ofSource source = .ok root

namespace Expression

/-- Compiles a source. -/
def compile (source : String) : Except CompileError Expression :=
  match h : Expr.ofSource source with
  | .ok root => .ok ⟨source, root, h⟩
  | .error e => .error e

instance : BEq Expression := ⟨fun a b ↦ a.source == b.source && a.root == b.root⟩

/-- An expression is determined by its source. -/
theorem ext {a b : Expression} (h : a.source = b.source) : a = b := by
  obtain ⟨s, r, hr⟩ := a
  obtain ⟨s', r', hr'⟩ := b
  obtain rfl : s = s' := h
  obtain rfl : r = r' := by injection hr.symm.trans hr'
  rfl

end Expression

end FeatureStyle
