import FeatureStyle.Eval.Pooled
import FeatureStyle.Proofs.Scratch.Denotation
import FeatureStyle.Proofs.Subject.Lockstep

/-!
# Evaluations with and without a pool

An evaluation with a pool **simulates** one without when, from a given pool, the two ask the same
questions and end alike: with results that are related in a pool that extends the given one, or with
the same error. A slot that is not live stops an evaluation with a pool, and no evaluation without
one stops like that; so an evaluation that simulates another reads live slots only.

The calculus has one rule for each way in which evaluations are put together:

* `Simulates.bind` for one step after another, where the pool of the second step extends the first
  one's, so that what was denoted before is denoted still;
* `Simulates.valueOf_bind` and `Simulates.read_bind` for reading a term back;
* `simulates_intern`, `simulates_pure`, `simulates_ofExcept` and `simulates_lift` for the last step.
-/

namespace FeatureStyle.Expr

open PooledEvaluation

variable {α β γ δ : Type}

/-- How an evaluation with a pool ends, next to one without: in a pool that extends the one before,
with related results or with the same error. -/
def EndsAlike (R : ScratchPool → α → β → Prop) (before : ScratchPool) :
    Except Stop α × ScratchPool → Except EvalError β → Prop
  | (.ok a, after), .ok b => before.Extends after ∧ R after a b
  | (.error (.error e), after), .error e' => before.Extends after ∧ e = e'
  | _, _ => False

/-- From the given pool, the evaluation with a pool does what the one without does. -/
def Simulates (R : ScratchPool → α → β → Prop) (before : ScratchPool) (x : PooledEvaluation α)
    (y : Evaluation β) : Prop :=
  Dialogue.Lockstep (EndsAlike R before) (x.run.run before) y.run

/-- Results that have nothing to do with the pool. -/
abbrev Same (_ : ScratchPool) (a b : α) : Prop := a = b

variable {R : ScratchPool → α → β → Prop} {S : ScratchPool → γ → δ → Prop}
  {before after : ScratchPool} {t : Term} {v : Value}

/-- To look at the pool is to go on with the pool there is. -/
theorem run_get_bind (f : ScratchPool → PooledEvaluation α) :
    (get >>= f).run.run before = (f before).run.run before :=
  rfl

/-- A live term is read back. -/
theorem run_valueOf (ht : t.Denotes before v) :
    (valueOf t).run.run before = .done (.ok v, before) := by
  have hresolve : t.resolve? before = some v := ht
  rw [valueOf, run_get_bind, hresolve]
  rfl

namespace Simulates

/-- What is done from an extended pool may count from the pool before. -/
theorem of_extends {x : PooledEvaluation α} {y : Evaluation β} (hext : before.Extends after)
    (h : Dialogue.Lockstep (EndsAlike R after) (x.run.run after) y.run) :
    Dialogue.Lockstep (EndsAlike R before) (x.run.run after) y.run := by
  refine h.mono fun a b hab ↦ ?_
  match a, b, hab with
  | (.ok _, _), .ok _, ⟨hext', hR⟩ => exact ⟨hext.trans hext', hR⟩
  | (.error (.error _), _), .error _, ⟨hext', he⟩ => exact ⟨hext.trans hext', he⟩

/-- **One step after another.** -/
theorem bind {x : PooledEvaluation α} {y : Evaluation β} {f : α → PooledEvaluation γ}
    {g : β → Evaluation δ} (h : Simulates R before x y)
    (hfg : ∀ after a b, before.Extends after → R after a b → Simulates S after (f a) (g b)) :
    Simulates S before (x >>= f) (y >>= g) := by
  refine Dialogue.Lockstep.bind h fun a b hab ↦ ?_
  match a, b, hab with
  | (.ok a, after), .ok b, ⟨hext, hR⟩ => exact of_extends hext (hfg after a b hext hR)
  -- An error ends both, and the pool of the first step is the last one.
  | (.error (.error e), after), .error _, ⟨hext, he⟩ => exact .done ⟨hext, he⟩

/-- Reading a live term back is a step that only the evaluation with a pool makes. -/
theorem valueOf_bind {f : Value → PooledEvaluation α} {y : Evaluation β}
    (ht : t.Denotes before v) (h : Simulates R before (f v) y) :
    Simulates R before (valueOf t >>= f) y := by
  have hrun : (valueOf t >>= f).run.run before = (f v).run.run before := by
    change (valueOf t).run.run before >>= _ = _
    rw [run_valueOf ht]
    rfl
  rw [Simulates, hrun]
  exact h

/-- An operand, read back as soon as it has been evaluated. -/
theorem read_bind {x : PooledEvaluation Term} {y : Evaluation Value}
    {f : Value → PooledEvaluation γ} {g : Value → Evaluation δ}
    (h : Simulates Term.Denotes before x y)
    (hfg : ∀ after v, before.Extends after → Simulates S after (f v) (g v)) :
    Simulates S before (x >>= fun t ↦ valueOf t >>= f) (y >>= g) :=
  h.bind fun after _ v hext ht ↦ valueOf_bind ht (hfg after v hext)

/-- The evaluation without a pool may end in a step that does nothing. -/
theorem of_bind_pure {x : PooledEvaluation α} {y : Evaluation β}
    (h : Simulates R before x (y >>= pure)) : Simulates R before x y := by
  rwa [bind_pure] at h

end Simulates

/-! ### Last steps -/

theorem simulates_pure {a : α} {b : β} (h : R before a b) :
    Simulates R before (pure a) (pure b) :=
  .done ⟨.refl before, h⟩

/-- A value goes into the pool. -/
theorem simulates_intern (v : Value) : Simulates Term.Denotes before (intern v) (pure v) :=
  .done (Term.denotes_intern v before)

/-- Both ask the feature. -/
theorem simulates_lift (d : Dialogue α) : Simulates Same before (liftM d) (liftM d) := by
  induction d with
  | done a => exact .done ⟨.refl before, rfl⟩
  | ask q resume ih => exact .ask q ih

/-- Both fail, or neither. -/
theorem simulates_ofExcept (r : Except EvalError α) :
    Simulates Same before (ofExcept r) (liftM r) := by
  cases r with
  | ok a => exact .done ⟨.refl before, rfl⟩
  | error e => exact .done ⟨.refl before, rfl⟩

end FeatureStyle.Expr
