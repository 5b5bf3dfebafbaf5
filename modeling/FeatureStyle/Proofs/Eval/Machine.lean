import FeatureStyle.Eval.Pooled
import FeatureStyle.Proofs.Expr.Induction

/-!
# What an evaluation runs on

An evaluation holds on to the values of some operands while it computes others. How it does so is
the business of a `Machine`: it puts values away and reads them back, and it says how the feature is
asked and what a failure is. `Machine.eval` evaluates expressions on any machine.

The evaluation with a scratch pool is the one on the machine `Machine.pooled`, which puts colours
and vectors into the pool (`pooled_eval`). Other machines do the same to other ends; what they
have in common with it does not have to be proved for every construct again.
-/

namespace FeatureStyle

/-- What an evaluation in `m` runs on. A value that has been put away is a `T`. -/
structure Machine (m : Type → Type) (T : Type) where
  /-- Has a dialogue with the feature. -/
  ask {α : Type} (d : Dialogue α) : m α
  /-- Goes on with a result, or fails. -/
  check {α : Type} (r : Except EvalError α) : m α
  /-- Puts a value away. -/
  intern (v : Value) : m T
  /-- Reads back what was put away. -/
  read (t : T) : m Value
  /-- The array of what was put away. -/
  array (items : List T) : T
  /-- Whether it is a colour or vector, which the plus sign hands on. -/
  isSlot (t : T) : Bool
  /-- The item of an array at a key, which is handed on; nothing for the length. -/
  item? (t : T) (key : Value) : Option T

namespace Machine

variable {m : Type → Type} [Monad m] {T : Type} (M : Machine m T)

mutual

/-- The value of an expression, put away. -/
def eval : Expr → m T
  | .null => M.intern .null
  | .undefined => M.intern .undefined
  | .bool b => M.intern (.bool b)
  | .number x => M.intern (.number x)
  | .string s => M.intern (.string s)
  | .global g => do M.intern (← M.ask (Expr.askGlobal g))
  | .regex p => M.intern (.regExp p)
  | .color .css [] => M.intern (.color Color.white)
  | .color .css (css :: rest) => do
    let c ← M.check (← M.read (← eval css)).cssColor
    match rest with
    | [] => M.intern (.color c)
    | alpha :: _ => do
      let a ← M.read (← eval alpha)
      M.intern (.color (c.withAlpha (Numeric.narrow a.toNumber)))
  | .color (.channels f) args => do
    let channels ← evalChannels 4 args
    M.intern (.color (f.apply channels))
  | .vector size args => do
    let components ← evalComponents size args
    let v ← M.check (size.ofComponents args.length components)
    M.intern (.composite size.lane v)
  | .property name => do M.intern (← M.ask (Expr.askProperty name))
  | .template text => do M.intern (.string (← M.ask (Template.fill text)))
  | .unary op operand => do
    let t ← eval operand
    if op = .positive ∧ M.isSlot t then return t
    else
      let v ← M.ask (op.apply (← M.read t))
      M.intern v
  | .className => do M.intern (← M.ask Expr.askClassName)
  | .logical op left right => do
    let l ← M.check ((← M.read (← eval left)).expectBool op)
    if l = op.deciding then M.intern (.bool l)
    else M.intern (.bool (← M.check ((← M.read (← eval right)).expectBool op)))
  | .binary op left right => do
    let l ← eval left
    let r ← eval right
    M.intern (op.apply (← M.read l) (← M.read r))
  | .ternary f first second third => do
    let a ← eval first
    let b ← eval second
    let c ← eval third
    let a ← M.read a
    let b ← M.read b
    let c ← M.read c
    M.intern (.number (f.apply a.toNumber b.toNumber c.toNumber))
  | .conditional test consequent alternate => do
    if (← M.read (← eval test)).truthy then eval consequent else eval alternate
  | .featureMember _ key => do
    let k ← M.read (← eval key)
    M.intern (← M.ask (Expr.askProperty k.text))
  | .member _ object key => do
    let k ← eval key
    let o ← eval object
    let k ← M.read k
    match M.item? o k with
    | some t => return t
    | none => M.intern ((← M.read o).member k)
  | .array items => do return M.array (← evalItems items)
  | .call .toString object _ => do
    let o ← M.read (← eval object)
    M.intern (.string (← M.check o.methodText))
  | .call (.search s) object argument => do
    let p ← M.check ((← M.read (← eval object)).expectRegex s)
    match argument with
    | some a => do
      let v ← M.read (← eval a)
      M.intern (s.result p v.text)
    | none => M.intern (s.result p (Value.text .undefined))
  | .regExp pattern flags => do
    let p ← eval pattern
    match flags with
    | some f => do
      let f ← eval f
      M.intern (← M.check ((← M.read p).compileRegex (← M.read f)))
    | none => M.intern (← M.check ((← M.read p).compileRegex .undefined))

/-- The values of expressions, put away. -/
def evalItems : List Expr → m (List T)
  | [] => pure []
  | e :: es => do
    let t ← eval e
    return t :: (← evalItems es)

/-- The numbers of at most the given number of expressions. -/
def evalChannels : Nat → List Expr → m (List Float)
  | _, [] => pure []
  | 0, _ => pure []
  | n + 1, e :: es => do
    let v ← M.read (← eval e)
    return v.toNumber :: (← evalChannels n es)

/-- The components of the values of expressions. -/
def evalComponents (size : VectorSize) : List Expr → m (List Float32)
  | [] => pure []
  | e :: es => do
    let components ← M.check ((← M.read (← eval e)).components size)
    return components ++ (← evalComponents size es)

end

/-- The value of an expression. -/
def evaluate (e : Expr) : m Value := M.eval e >>= M.read

/-- The colour of an expression. -/
def evaluateColor (e : Expr) : m Color := M.evaluate e >>= fun v ↦ M.check v.expectColor

open FeatureStyle.Expr (PooledEvaluation)

/-- The machine that puts colours and vectors into a scratch pool. -/
def pooled : Machine PooledEvaluation Term where
  ask d := liftM d
  check := PooledEvaluation.ofExcept
  intern := PooledEvaluation.intern
  read := PooledEvaluation.valueOf
  array := .array
  isSlot := Term.isSlot
  item? := Term.item?

/-! ### Evaluation with a pool -/

section Pooled

variable {es : List Expr}

theorem pooled_evalItems (h : ∀ e ∈ es, pooled.eval e = e.evalPooled) :
    pooled.evalItems es = Expr.evalPooledItems es := by
  induction es with
  | nil => rw [evalItems, Expr.evalPooledItems]
  | cons e es ih =>
    obtain ⟨he, hes⟩ := List.forall_mem_cons.1 h
    rw [evalItems, Expr.evalPooledItems, he, ih hes]

theorem pooled_evalChannels (h : ∀ e ∈ es, pooled.eval e = e.evalPooled) (n : Nat) :
    pooled.evalChannels n es = Expr.evalPooledChannels n es := by
  induction es generalizing n with
  | nil => rw [evalChannels, Expr.evalPooledChannels]
  | cons e es ih =>
    obtain ⟨he, hes⟩ := List.forall_mem_cons.1 h
    cases n with
    | zero =>
      rw [evalChannels, Expr.evalPooledChannels]
      all_goals simp
    | succ n =>
      rw [evalChannels, Expr.evalPooledChannels, he, ih hes]
      rfl

theorem pooled_evalComponents (h : ∀ e ∈ es, pooled.eval e = e.evalPooled) (size : VectorSize) :
    pooled.evalComponents size es = Expr.evalPooledComponents size es := by
  induction es with
  | nil => rw [evalComponents, Expr.evalPooledComponents]
  | cons e es ih =>
    obtain ⟨he, hes⟩ := List.forall_mem_cons.1 h
    rw [evalComponents, Expr.evalPooledComponents, he, ih hes]
    rfl

end Pooled

/-- **Evaluation with a pool is evaluation on the machine of pools.** -/
theorem pooled_eval (e : Expr) : pooled.eval e = e.evalPooled := by
  induction e with
  | null | undefined | bool _ | number _ | string _ | global _ | regex _ | property _ | template _
  | className =>
    rw [eval, Expr.evalPooled]
    rfl
  | color fn args ih =>
    match fn, args with
    | .channels f, args =>
      rw [eval, Expr.evalPooled, pooled_evalChannels ih]
      rfl
    | .css, [] =>
      rw [eval, Expr.evalPooled]
      rfl
    | .css, [css] =>
      rw [eval, Expr.evalPooled, ih css (by simp)]
      rfl
    | .css, css :: alpha :: rest =>
      rw [eval, Expr.evalPooled, ih css (by simp)]
      simp only [ih alpha (by simp)]
      rfl
  | vector size args ih =>
    rw [eval, Expr.evalPooled, pooled_evalComponents ih]
    rfl
  | unary op operand ih | featureMember op operand ih =>
    rw [eval, Expr.evalPooled, ih]
    rfl
  | logical op left right ihl ihr | binary op left right ihl ihr =>
    rw [eval, Expr.evalPooled, ihl, ihr]
    rfl
  | member access object key iho ihk =>
    rw [eval, Expr.evalPooled, iho, ihk]
    refine bind_congr fun k ↦ bind_congr fun o ↦ bind_congr fun v ↦ ?_
    have hitem : pooled.item? o v = o.item? v := rfl
    rw [hitem]
    cases o.item? v with
    | none => rfl
    | some t => rfl
  | ternary fn first second third ih₁ ih₂ ih₃ | conditional first second third ih₁ ih₂ ih₃ =>
    rw [eval, Expr.evalPooled, ih₁, ih₂, ih₃]
    rfl
  | array items ih =>
    rw [eval, Expr.evalPooled, pooled_evalItems ih]
    rfl
  | call method object argument iho iha =>
    match method, argument with
    | .toString, argument =>
      rw [eval, Expr.evalPooled, iho]
      rfl
    | .search s, none =>
      rw [eval, Expr.evalPooled, iho]
      rfl
    | .search s, some a =>
      rw [eval, Expr.evalPooled, iho]
      simp only [iha a rfl]
      rfl
  | regExp pattern flags ihp ihf =>
    match flags with
    | none =>
      rw [eval, Expr.evalPooled, ihp]
      rfl
    | some f =>
      rw [eval, Expr.evalPooled, ihp]
      simp only [ihf f rfl]
      rfl

/-- So are whole evaluations, which empty the pool first. -/
theorem run_pooled_evaluate (e : Expr) (pool : ScratchPool) :
    (pooled.evaluate e).run.run pool.reset = e.evaluateIn pool := by
  rw [evaluate, pooled_eval]
  rfl

theorem run_pooled_evaluateColor (e : Expr) (pool : ScratchPool) :
    (pooled.evaluateColor e).run.run pool.reset = e.evaluateColorIn pool := by
  rw [evaluateColor, evaluate, pooled_eval]
  rfl

end Machine

end FeatureStyle
