import FeatureStyle.Expression.Basic

/-!
# Evaluation inside an evaluation

A thread has one scratch pool for all of its evaluations. A feature may evaluate expressions of its
own to answer a question; the pool is then busy, and such an evaluation gets a new one.

A `Script` is the behaviour of a feature that does so: it answers right away, or it first evaluates
an expression against a feature of the same kind and goes on with the result. `Script.run` follows
it on a thread.
-/

namespace FeatureStyle

/-- A thread: its pool, and whether an evaluation is using it. -/
structure Thread where
  pool : ScratchPool
  busy : Bool

namespace Thread

/-- A thread on which nothing has been evaluated. -/
def fresh : Thread := ⟨.empty, false⟩

/-- Does something with the pool of the thread, or with a new pool if that is busy. -/
def withPool {m : Type → Type} [Monad m] [MonadStateOf Thread m] {α : Type}
    (use : ScratchPool → m (α × ScratchPool)) : m α := do
  let thread ← getThe Thread
  if thread.busy then
    let (a, _) ← use .empty
    return a
  else
    set { thread with busy := true }
    let (a, pool) ← use thread.pool
    set (Thread.mk pool false)
    return a

end Thread

/-- The answers of a subject whose properties have effects. -/
def Subject.answerWith {m : Type → Type} [Monad m] (s : Subject)
    (property : String → m (Option Value)) : (q : Query) → m q.Answer
  | .property name => property name
  | .isClass name => pure (s.isClass name)
  | .isExactClass name => pure (s.isExactClass name)
  | .exactClassName => pure s.exactClassName
  | .timeSinceLoad => pure s.timeSinceLoad

namespace Expr

variable {m : Type → Type} [Monad m] [MonadStateOf Thread m]

/-- The value of an expression on a thread. -/
def evaluateOn (e : Expr) (answer : (q : Query) → m q.Answer) : m (Except Stop Value) :=
  Thread.withPool fun pool ↦ (e.evaluateIn pool).runM answer

/-- The colour of an expression on a thread. -/
def evaluateColorOn (e : Expr) (answer : (q : Query) → m q.Answer) : m (Except Stop Color) :=
  Thread.withPool fun pool ↦ (e.evaluateColorIn pool).runM answer

end Expr

/-- How a feature comes to the answer for a property. -/
inductive Script
  | answer (v : Option Value)
  /-- Evaluates an expression against a feature, whose properties have scripts too, and goes on with
  the value. -/
  | evaluate (e : Expr) (base : Subject) (property : String → Script)
      (resume : Except Stop Value → Script)
  /-- Likewise, with a colour. -/
  | evaluateColor (e : Expr) (base : Subject) (property : String → Script)
      (resume : Except Stop Color → Script)

/-- Follows a script on a thread. -/
def Script.run {m : Type → Type} [Monad m] [MonadStateOf Thread m] :
    Script → m (Option Value)
  | answer v => pure v
  | evaluate e base property resume => do
    let r ← e.evaluateOn (base.answerWith fun name ↦ (property name).run)
    (resume r).run
  | evaluateColor e base property resume => do
    let r ← e.evaluateColorOn (base.answerWith fun name ↦ (property name).run)
    (resume r).run

end FeatureStyle
