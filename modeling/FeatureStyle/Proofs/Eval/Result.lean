import FeatureStyle.Proofs.Eval.Transparency

/-!
# The value of an expression

For a subject an expression has at most one value, the same with every pool that it is evaluated
with (`hasValue_iff`). So what a construct makes of its operands can be said with their values
alone, whatever expressions have them: `HasValue.run_bind` replaces an operand by its value.
-/

namespace FeatureStyle.Expr

variable {s : Subject} {e : Expr} {v : Value}

/-- For the subject the expression has the value, with whatever pool it is evaluated. -/
def HasValue (s : Subject) (e : Expr) (v : Value) : Prop :=
  ∀ pool, ((e.evaluateIn pool).run s).1 = .ok v

theorem hasValue_iff : HasValue s e v ↔ e.eval.run.run s = .ok v := by
  have hmap : (e.eval.run.run s).mapError Stop.error = .ok v ↔ e.eval.run.run s = .ok v := by
    cases e.eval.run.run s with
    | ok w => exact ⟨fun h ↦ congrArg _ (Except.ok.inj h), fun h ↦ congrArg _ (Except.ok.inj h)⟩
    | error err => exact iff_of_false nofun nofun
  refine ⟨fun h ↦ hmap.1 ?_, fun h pool ↦ ?_⟩
  · rw [← fst_run_evaluateIn e .empty, h]
  · rw [fst_run_evaluateIn, h]
    rfl

/-- A step that gives a value hands it on. -/
theorem run_bind_of_ok {α β : Type} {x : Evaluation α} {a : α} (h : x.run.run s = .ok a)
    (f : α → Evaluation β) : (x >>= f).run.run s = (f a).run.run s := by
  rw [ExceptT.run_bind, Dialogue.run_bind, h]

theorem HasValue.run_bind {β : Type} (h : HasValue s e v) (f : Value → Evaluation β) :
    (e.eval >>= f).run.run s = (f v).run.run s :=
  run_bind_of_ok (hasValue_iff.1 h) f

/-! ### Expressions with a given value -/

theorem hasValue_number (x : Float) : HasValue s (number x) (.number x) := fun _ ↦ rfl

theorem hasValue_string (text : String) : HasValue s (string text) (.string text) := fun _ ↦ rfl

theorem hasValue_property {name : String} (h : s.property name = some v) :
    HasValue s (property name) v := by
  rw [hasValue_iff]
  show Except.ok ((s.property name).getD .undefined) = _
  rw [h]
  rfl

end FeatureStyle.Expr
