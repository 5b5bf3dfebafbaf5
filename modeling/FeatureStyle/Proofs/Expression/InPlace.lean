import FeatureStyle.Expression.Reentrant
import FeatureStyle.Proofs.Eval.Correspondence
import FeatureStyle.Proofs.Eval.Simulation

/-!
# Evaluation in place

`Expr.evaluateOn` takes the pool out of the thread, evaluates with it and puts it back, so nothing
that answers a question on the way could reach it. An evaluation **in place** leaves it where it is:
what is put away goes into the pool of the thread and is read from there, and in between the answers
are found on the same thread, with the same pool in sight. All that protects the pool is that it is
marked as busy.

**That is enough.** Let the answers on a busy thread be those of a subject and leave the thread as
it is (`Thread.Answers`). Then an evaluation in place does, step by step, what one with a pool of
its own does (`inPlaceCorrespondence`). Both ways of evaluating use the pool of the thread if it is
free, and a new one otherwise, and leave no other trace (`Thread.Uses`).
-/

namespace FeatureStyle

open FeatureStyle.Expr (PooledEvaluation)
open FeatureStyle.Expr.PooledEvaluation (valueOf)

variable {α β γ δ : Type}

/-! ### Answers that leave things alone -/

/-- A dialogue with somebody who answers like a subject and leaves the state alone. -/
theorem Dialogue.run_runM {σ : Type} {state : σ} {answer : (q : Query) → StateM σ q.Answer}
    {s : Subject} (h : ∀ q, (answer q).run state = (s.answer q, state)) (d : Dialogue α) :
    (d.runM answer).run state = (d.run s, state) := by
  induction d with
  | done a => rfl
  | ask q resume ih =>
    have hstep : ((ask q resume).runM answer).run state =
        ((resume ((answer q).run state).1).runM answer).run ((answer q).run state).2 := rfl
    rw [hstep, h q]
    exact ih (s.answer q)

/-- On a busy thread, the answers are those of a subject, and the thread stays what it is. -/
def Thread.Answers (answer : (q : Query) → StateM Thread q.Answer) (s : Subject) : Prop :=
  ∀ (q : Query) (held : ScratchPool), (answer q).run ⟨held, true⟩ = (s.answer q, ⟨held, true⟩)

variable {answer : (q : Query) → StateM Thread q.Answer} {s : Subject}

/-- While the pool is held, asking gives the answers of the subject and leaves the pool as it is. -/
theorem Thread.Answers.run_runM (h : Thread.Answers answer s) (d : Dialogue α)
    (held : ScratchPool) : (d.runM answer).run ⟨held, true⟩ = (d.run s, ⟨held, true⟩) :=
  Dialogue.run_runM (h · held) d

/-! ### The machine -/

/-- An evaluation whose pool is the one of the thread. -/
abbrev InPlace := ExceptT Stop (StateM Thread)

/-- The machine that puts colours and vectors into the pool of the thread. -/
def Machine.inPlace (answer : (q : Query) → StateM Thread q.Answer) : Machine InPlace Term where
  ask d := liftM (d.runM answer)
  check
    | .ok a => pure a
    | .error e => throw (.error e)
  intern v := modifyGet fun thread ↦
    let (t, pool) := Term.intern v thread.pool
    (t, { thread with pool })
  read t := do (t.resolve? (← get).pool).elim (throw .deadSlot) pure
  array := .array
  isSlot := Term.isSlot
  item? := Term.item?

/-- Uses the pool of the thread in place: it is emptied, and busy until the end. If it is busy
already it is left alone, and something else is done. -/
def Thread.borrow (inside : InPlace α) (aside : StateM Thread (Except Stop α)) :
    StateM Thread (Except Stop α) := do
  if (← get).busy then aside
  else
    modify fun thread ↦ ⟨thread.pool.reset, true⟩
    let result ← inside.run
    modify fun thread ↦ ⟨thread.pool, false⟩
    return result

namespace Expr

/-- The value of an expression on a thread, whose pool is used in place. -/
def evaluateInPlace (e : Expr) (answer : (q : Query) → StateM Thread q.Answer) :
    StateM Thread (Except Stop Value) :=
  Thread.borrow ((Machine.inPlace answer).evaluate e)
    (Prod.fst <$> (e.evaluateIn .empty).runM answer)

/-- The colour of an expression on a thread, whose pool is used in place. -/
def evaluateColorInPlace (e : Expr) (answer : (q : Query) → StateM Thread q.Answer) :
    StateM Thread (Except Stop Color) :=
  Thread.borrow ((Machine.inPlace answer).evaluateColor e)
    (Prod.fst <$> (e.evaluateColorIn .empty).runM answer)

/-! ### The pool of the thread and a pool of one's own -/

/-- From the same pool, busy on the thread, an evaluation in place ends like the one with a pool of
its own: with related results or stopped alike, and on the thread with just that pool. -/
inductive EndsInPlace (R : α → β → Prop) :
    Except Stop α × Thread → Except Stop β × ScratchPool → Prop
  | ok {a : α} {b : β} (pool : ScratchPool) (h : R a b) :
    EndsInPlace R (.ok a, ⟨pool, true⟩) (.ok b, pool)
  | stop (reason : Stop) (pool : ScratchPool) :
    EndsInPlace R (.error reason, ⟨pool, true⟩) (.error reason, pool)

/-- The evaluation in place follows the one with a pool of its own that asks the subject. -/
def FollowsInPlace (s : Subject) (R : α → β → Prop) (x : InPlace α) (y : PooledEvaluation β) :
    Prop :=
  ∀ pool, EndsInPlace R (x.run.run ⟨pool, true⟩) ((y.run.run pool).run s)

namespace FollowsInPlace

variable {R : α → β → Prop} {S : γ → δ → Prop}

/-- One step after another. -/
theorem bind {x : InPlace α} {y : PooledEvaluation β} {f : α → InPlace γ}
    {g : β → PooledEvaluation δ} (h : FollowsInPlace s R x y)
    (hfg : ∀ a b, R a b → FollowsInPlace s S (f a) (g b)) :
    FollowsInPlace s S (x >>= f) (y >>= g) := by
  intro pool
  have hends := h pool
  rw [ExceptT.run_bind, ExceptT.run_bind, StateT.run_bind, StateT.run_bind, Dialogue.run_bind]
  generalize x.run.run ⟨pool, true⟩ = r at hends ⊢
  generalize (y.run.run pool).run s = r' at hends ⊢
  cases hends with
  | ok after hab => exact hfg _ _ hab after
  | stop reason after => exact .stop reason after

theorem pure {a : α} {b : β} (h : R a b) : FollowsInPlace s R (pure a) (pure b) :=
  fun pool ↦ .ok pool h

theorem run_pooled_ask (d : Dialogue α) (pool : ScratchPool) :
    (Machine.pooled.ask d).run.run pool = (fun a ↦ (.ok a, pool)) <$> d := by
  induction d with
  | done a => rfl
  | ask q resume ih => exact congrArg (Dialogue.ask q) (funext ih)

/-- Questions are answered alike, and nobody touches the pool in the meantime. -/
theorem ask (hanswer : Thread.Answers answer s) (d : Dialogue α) :
    FollowsInPlace s Eq ((Machine.inPlace answer).ask d) (Machine.pooled.ask d) := by
  intro pool
  have hx : ((Machine.inPlace answer).ask d).run.run ⟨pool, true⟩ =
      (.ok (d.run s), ⟨pool, true⟩) := by
    have hrun : ((Machine.inPlace answer).ask d).run.run ⟨pool, true⟩ =
        (.ok ((d.runM answer).run ⟨pool, true⟩).1, ((d.runM answer).run ⟨pool, true⟩).2) := rfl
    rw [hrun, hanswer.run_runM]
  rw [hx, run_pooled_ask, Dialogue.run_map]
  exact .ok pool rfl

/-- A step that cannot ask does the same in place. -/
theorem check (r : Except EvalError α) :
    FollowsInPlace s Eq ((Machine.inPlace answer).check r) (Machine.pooled.check r) := by
  intro pool
  cases r with
  | ok a => exact .ok pool rfl
  | error e => exact .stop _ pool

/-- A value is put into the same slot. -/
theorem intern (v : Value) :
    FollowsInPlace s Eq ((Machine.inPlace answer).intern v) (Machine.pooled.intern v) :=
  fun _ ↦ .ok _ rfl

/-- A term has the same value. -/
theorem read (t : Term) :
    FollowsInPlace s Eq ((Machine.inPlace answer).read t) (Machine.pooled.read t) := by
  intro pool
  have hx : ((Machine.inPlace answer).read t).run.run ⟨pool, true⟩ =
      ((t.resolve? pool).elim (throw .deadSlot) Pure.pure : InPlace Value).run.run ⟨pool, true⟩ :=
    rfl
  have hy : (Machine.pooled.read t).run.run pool = (valueOf t).run.run pool := rfl
  rw [hx, hy, valueOf, run_get_bind]
  cases t.resolve? pool with
  | none => exact .stop .deadSlot pool
  | some v => exact .ok pool rfl

end FollowsInPlace

/-- **An evaluation in place is one with a pool of its own**, as long as the answers leave a busy
thread alone. -/
def inPlaceCorrespondence (hanswer : Thread.Answers answer s) :
    Correspondence (Machine.inPlace answer) Machine.pooled Unit where
  Later _ _ := True
  Denotes _ t u := t = u
  Relates R w x y := FollowsInPlace s (R w) x y
  denotes_later _ ht := ht
  relates_pure := .pure
  relates_bind h hfg := h.bind fun a b hab ↦ hfg () a b trivial hab
  relates_ask _ := .ask hanswer
  relates_check _ := .check
  relates_intern _ := .intern
  relates_read := by
    rintro _ t _ rfl
    exact .read t
  denotes_array h := congrArg Term.array (List.forall₂_eq_eq_eq ▸ h)
  isSlot_eq := by
    rintro _ t _ rfl
    rfl
  item?_rel := by
    rintro _ t _ rfl key
    change Option.Rel Eq (t.item? key) (t.item? key)
    cases t.item? key with
    | none => exact .none
    | some item => exact .some rfl

end Expr

/-! ### What an evaluation does to its thread -/

namespace Thread

/-- What is done on a thread is a matter of one pool, with the outcome that is given for it: the
pool of the thread if that is free, and otherwise a new one. -/
structure Uses (x : StateM Thread α) (outcome : ScratchPool → α × ScratchPool) : Prop where
  free (pool : ScratchPool) : x.run ⟨pool, false⟩ = ((outcome pool).1, ⟨(outcome pool).2, false⟩)
  busy (held : ScratchPool) : x.run ⟨held, true⟩ = ((outcome .empty).1, ⟨held, true⟩)

/-- A dialogue with the pool put aside. -/
theorem uses_withPool (hanswer : Answers answer s) (d : ScratchPool → Dialogue (α × ScratchPool)) :
    Uses (withPool fun pool ↦ (d pool).runM answer) fun pool ↦ (d pool).run s where
  free pool := by
    have hrun : (withPool fun pool ↦ (d pool).runM answer).run ⟨pool, false⟩ =
        ((((d pool).runM answer).run ⟨pool, true⟩).1.1,
          ⟨(((d pool).runM answer).run ⟨pool, true⟩).1.2, false⟩) := rfl
    rw [hrun, hanswer.run_runM]
  busy held := by
    have hrun : (withPool fun pool ↦ (d pool).runM answer).run ⟨held, true⟩ =
        ((((d .empty).runM answer).run ⟨held, true⟩).1.1,
          (((d .empty).runM answer).run ⟨held, true⟩).2) := rfl
    rw [hrun, hanswer.run_runM]

/-- An evaluation in place that follows one with a pool of its own. -/
theorem uses_borrow (hanswer : Answers answer s) {inside : InPlace α} {x : PooledEvaluation α}
    {d : ScratchPool → Dialogue (Except Stop α × ScratchPool)}
    (h : Expr.FollowsInPlace s Eq inside x) (hd : ∀ pool, x.run.run pool.reset = d pool) :
    Uses (borrow inside (Prod.fst <$> (d .empty).runM answer)) fun pool ↦ (d pool).run s where
  free pool := by
    have hrun (aside : StateM Thread (Except Stop α)) : (borrow inside aside).run ⟨pool, false⟩ =
        ((inside.run.run ⟨pool.reset, true⟩).1,
          ⟨(inside.run.run ⟨pool.reset, true⟩).2.pool, false⟩) := rfl
    have hends := h pool.reset
    rw [hd] at hends
    rw [hrun]
    generalize inside.run.run ⟨pool.reset, true⟩ = r at hends ⊢
    generalize (d pool).run s = r' at hends ⊢
    cases hends with
    | ok after hab =>
      subst hab
      rfl
    | stop reason after => rfl
  busy held := by
    have hrun : (borrow inside (Prod.fst <$> (d .empty).runM answer)).run ⟨held, true⟩ =
        ((((d .empty).runM answer).run ⟨held, true⟩).1.1,
          (((d .empty).runM answer).run ⟨held, true⟩).2) := rfl
    rw [hrun, hanswer.run_runM]

end Thread

namespace Expr

/-- **An evaluation uses the pool of the thread, and does with it what one with that pool does.** -/
theorem uses_evaluateOn (hanswer : Thread.Answers answer s) (e : Expr) :
    Thread.Uses (e.evaluateOn answer) fun pool ↦ (e.evaluateIn pool).run s :=
  Thread.uses_withPool hanswer e.evaluateIn

/-- So does the evaluation of a colour. -/
theorem uses_evaluateColorOn (hanswer : Thread.Answers answer s) (e : Expr) :
    Thread.Uses (e.evaluateColorOn answer) fun pool ↦ (e.evaluateColorIn pool).run s :=
  Thread.uses_withPool hanswer e.evaluateColorIn

/-- The same in place. -/
theorem uses_evaluateInPlace (hanswer : Thread.Answers answer s) (e : Expr) :
    Thread.Uses (e.evaluateInPlace answer) fun pool ↦ (e.evaluateIn pool).run s :=
  Thread.uses_borrow hanswer ((inPlaceCorrespondence hanswer).relates_evaluate e ())
    (Machine.run_pooled_evaluate e)

/-- The same for a colour in place. -/
theorem uses_evaluateColorInPlace (hanswer : Thread.Answers answer s) (e : Expr) :
    Thread.Uses (e.evaluateColorInPlace answer) fun pool ↦ (e.evaluateColorIn pool).run s :=
  Thread.uses_borrow hanswer ((inPlaceCorrespondence hanswer).relates_evaluateColor e ())
    (Machine.run_pooled_evaluateColor e)

end Expr

end FeatureStyle
