import FeatureStyle.Proofs.Eval.Recording
import FeatureStyle.Proofs.Eval.Transparency
import FeatureStyle.Proofs.Expression.InPlace

/-!
# Evaluations inside an evaluation do not show

A feature may evaluate expressions of its own while it is asked for a property, and the features of
those may do the same, to whatever depth (`Script`). All of this happens on one thread, in the
middle of an evaluation that holds on to slots of the pool of that thread.

The reference knows of no thread: every evaluation gets a new pool, on every level
(`Script.value`). **On a thread whose pool is busy, a script gives what the reference gives and
leaves the thread as it is** (`Script.run_follow`), by induction over the script: an evaluation in
it finds the pool busy, so it gets a new one, and its own questions find the pool busy again.

So an evaluation with the pool of the thread gives what it gives with a new pool against the subject
that has the properties of the reference, and leaves the pool as it would without the evaluations
inside (`evaluateOn_reentrant`). This holds whether the pool is put aside in the meantime or lies
open for all that is done on the thread.
-/

namespace FeatureStyle

/-! ### Ways to evaluate on a thread -/

/-- A way to evaluate expressions on a thread. -/
structure Thread.Evaluator where
  value (e : Expr) (answer : (q : Query) → StateM Thread q.Answer) :
    StateM Thread (Except Stop Value)
  color (e : Expr) (answer : (q : Query) → StateM Thread q.Answer) :
    StateM Thread (Except Stop Color)

namespace Thread.Evaluator

/-- The pool is put aside while it is in use. -/
def aside : Evaluator := ⟨Expr.evaluateOn, Expr.evaluateColorOn⟩

/-- The pool stays where it is. -/
def inPlace : Evaluator := ⟨Expr.evaluateInPlace, Expr.evaluateColorInPlace⟩

/-- An evaluation is a matter of one pool, as long as busy threads are left alone by those who
answer. -/
structure Sound (E : Evaluator) : Prop where
  value {answer : (q : Query) → StateM Thread q.Answer} {s : Subject} (h : Answers answer s)
    (e : Expr) : Uses (E.value e answer) fun pool ↦ (e.evaluateIn pool).run s
  color {answer : (q : Query) → StateM Thread q.Answer} {s : Subject} (h : Answers answer s)
    (e : Expr) : Uses (E.color e answer) fun pool ↦ (e.evaluateColorIn pool).run s

theorem sound_aside : aside.Sound := ⟨Expr.uses_evaluateOn, Expr.uses_evaluateColorOn⟩

theorem sound_inPlace : inPlace.Sound :=
  ⟨Expr.uses_evaluateInPlace, Expr.uses_evaluateColorInPlace⟩

end Thread.Evaluator

/-! ### Scripts -/

namespace Script

/-- A subject whose properties are found by a rule. -/
def subject (base : Subject) (property : String → Option Value) : Subject := { base with property }

/-- The answer that a script comes to if every evaluation in it gets a new pool. -/
def value : Script → Option Value
  | answer v => v
  | evaluate e base property resume =>
    (resume ((e.evaluateIn .empty).run (subject base fun name ↦ (property name).value)).1).value
  | evaluateColor e base property resume =>
    (resume ((e.evaluateColorIn .empty).run
      (subject base fun name ↦ (property name).value)).1).value

/-- Follows a script on a thread, with a way to evaluate. -/
def follow (E : Thread.Evaluator) : Script → StateM Thread (Option Value)
  | answer v => pure v
  | evaluate e base property resume => do
    let r ← E.value e (base.answerWith fun name ↦ (property name).follow E)
    (resume r).follow E
  | evaluateColor e base property resume => do
    let r ← E.color e (base.answerWith fun name ↦ (property name).follow E)
    (resume r).follow E

/-- Scripts are run with the pool put aside. -/
theorem run_eq_follow (script : Script) :
    (script.run : StateM Thread (Option Value)) = script.follow .aside := by
  induction script with
  | answer v => rfl
  | evaluate e base property resume ihp ihr | evaluateColor e base property resume ihp ihr =>
    simp only [run, follow, ihp, ihr]
    rfl

variable {E : Thread.Evaluator}

/-- Answers for properties that leave a busy thread alone. -/
theorem answers_answerWith {base : Subject} {property : String → Script}
    (h : ∀ name held, ((property name).follow E).run ⟨held, true⟩ =
      ((property name).value, ⟨held, true⟩)) :
    Thread.Answers (base.answerWith fun name ↦ (property name).follow E)
      (subject base fun name ↦ (property name).value) := by
  intro q held
  cases q with
  | property name => exact h name held
  | isClass | isExactClass | exactClassName | timeSinceLoad => rfl

/-- **On a busy thread, a script comes to the answer of the reference and leaves no trace.** -/
theorem run_follow (hE : E.Sound) (script : Script) (held : ScratchPool) :
    (script.follow E).run ⟨held, true⟩ = (script.value, ⟨held, true⟩) := by
  induction script generalizing held with
  | answer v => rfl
  | evaluate e base property resume ihp ihr =>
    have hanswer : Thread.Answers (base.answerWith fun name ↦ (property name).follow E) _ :=
      answers_answerWith ihp
    have hvalue := (hE.value hanswer e).busy held
    rw [follow, StateT.run_bind, hvalue]
    exact ihr _ held
  | evaluateColor e base property resume ihp ihr =>
    have hanswer : Thread.Answers (base.answerWith fun name ↦ (property name).follow E) _ :=
      answers_answerWith ihp
    have hcolor := (hE.color hanswer e).busy held
    rw [follow, StateT.run_bind, hcolor]
    exact ihr _ held

end Script

namespace Expr

open Thread.Evaluator

/-- The outcome of an evaluation does not depend on the pool. -/
theorem fst_run_evaluateIn_eq (e : Expr) (pool pool' : ScratchPool) (s : Subject) :
    ((e.evaluateIn pool).run s).1 = ((e.evaluateIn pool').run s).1 := by
  rw [fst_run_evaluateIn, fst_run_evaluateIn]

/-- That a colour is asked for changes the outcome only. -/
theorem run_evaluateColorIn (e : Expr) (pool : ScratchPool) (s : Subject) :
    (e.evaluateColorIn pool).run s =
      (((e.evaluateIn pool).run s).1.bind fun v ↦ v.expectColor.mapError Stop.error,
        ((e.evaluateIn pool).run s).2) := by
  rw [evaluateColorIn_eq, Dialogue.run_map]

theorem generation_evaluateIn (e : Expr) (pool : ScratchPool) (s : Subject) :
    ((e.evaluateIn pool).run s).2.generation = pool.generation + 1 := by
  rw [evaluateIn_eq, Dialogue.run_map, ScratchPool.generation_storeAll,
    ScratchPool.generation_reset]

/-- A sound way to evaluate, on a thread whose pool is free. -/
theorem run_free {E : Thread.Evaluator} (hE : E.Sound) (e : Expr) (base : Subject)
    (property : String → Script) (pool : ScratchPool) :
    let answer := base.answerWith fun name ↦ (property name).follow E
    let feature := Script.subject base fun name ↦ (property name).value
    let after := ((e.evaluateIn pool).run feature).2
    (E.value e answer).run ⟨pool, false⟩ =
        (((e.evaluateIn .empty).run feature).1, ⟨after, false⟩) ∧
      (E.color e answer).run ⟨pool, false⟩ =
        (((e.evaluateColorIn .empty).run feature).1, ⟨after, false⟩) := by
  intro answer feature after
  have hanswer : Thread.Answers answer feature :=
    Script.answers_answerWith fun name ↦ Script.run_follow hE (property name)
  constructor
  · rw [(hE.value hanswer e).free pool, fst_run_evaluateIn_eq e pool .empty]
  · rw [(hE.color hanswer e).free pool, run_evaluateColorIn, run_evaluateColorIn,
      fst_run_evaluateIn_eq e pool .empty]

/-- **Evaluations inside an evaluation do not show.** Let the properties of a feature have scripts,
which evaluate expressions to whatever depth, some of them in vain, and let an expression be
evaluated on a thread whose pool is free.

* The value and the colour are those of an evaluation with a new pool, against the feature whose
  properties are what their scripts come to with a new pool for every evaluation.
* The pool of the thread is left as an evaluation with it leaves it that has no others inside: it
  has moved on by one generation.
* The same is true of evaluations in place, for which the pool lies open while the scripts run.
* Whatever is held in the pool of a busy thread, a script leaves it as it is. -/
theorem evaluateOn_reentrant (e : Expr) (base : Subject) (property : String → Script)
    (pool : ScratchPool) :
    let answer := base.answerWith fun name ↦ ((property name).run : StateM Thread _)
    let answerInPlace := base.answerWith fun name ↦ (property name).follow .inPlace
    let feature := Script.subject base fun name ↦ (property name).value
    let after := ((e.evaluateIn pool).run feature).2
    (e.evaluateOn answer).run ⟨pool, false⟩ =
        (((e.evaluateIn .empty).run feature).1, ⟨after, false⟩) ∧
      (e.evaluateColorOn answer).run ⟨pool, false⟩ =
        (((e.evaluateColorIn .empty).run feature).1, ⟨after, false⟩) ∧
      after.generation = pool.generation + 1 ∧
      (e.evaluateInPlace answerInPlace).run ⟨pool, false⟩ =
        (((e.evaluateIn .empty).run feature).1, ⟨after, false⟩) ∧
      (e.evaluateColorInPlace answerInPlace).run ⟨pool, false⟩ =
        (((e.evaluateColorIn .empty).run feature).1, ⟨after, false⟩) ∧
      ∀ (name : String) (held : ScratchPool),
        ((property name).run : StateM Thread _).run ⟨held, true⟩ =
            ((property name).value, ⟨held, true⟩) ∧
          ((property name).follow .inPlace).run ⟨held, true⟩ =
            ((property name).value, ⟨held, true⟩) := by
  intro answer answerInPlace feature after
  have haside := run_free sound_aside e base property pool
  have hplace := run_free sound_inPlace e base property pool
  have hanswer : answer = base.answerWith fun name ↦ (property name).follow .aside :=
    congrArg base.answerWith (funext fun name ↦ (property name).run_eq_follow)
  rw [hanswer]
  refine ⟨haside.1, haside.2, e.generation_evaluateIn pool feature, hplace.1, hplace.2,
    fun name held ↦ ⟨?_, Script.run_follow sound_inPlace (property name) held⟩⟩
  rw [Script.run_eq_follow]
  exact Script.run_follow sound_aside (property name) held

end Expr

end FeatureStyle
