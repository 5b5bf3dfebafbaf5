import FeatureStyle.Proofs.Eval.Transparency
import FeatureStyle.Proofs.Expr.Part
import FeatureStyle.Proofs.Subject.Ending

/-!
# Where evaluations fail

A construct **raises** an error when it fails on values that its parts can have, which it may only
do where it needs a value of a certain type or form. `Raises` has one constructor for each such
place; everything else that is done to values cannot fail, whatever their types are.

**Every error of an evaluation is raised within the expression** (`raisesWithin_of_fails`), and by
a construct of the kind that the error speaks of (`belongsTo_of_raises`). So an expression without
any such construct has a value for every feature, whatever properties are missing and whatever the
others hold (`evaluateIn_error_belongs`).
-/

namespace FeatureStyle

namespace Expr

namespace Evaluation

variable {α β : Type} {a : α} {b : β} {err : EvalError}

/-- Some answers of a feature lead to the value. -/
def Gives (x : Evaluation α) (a : α) : Prop := x.run.Ends (.ok a)

/-- Some answers of a feature lead to the error. -/
def Fails (x : Evaluation α) (err : EvalError) : Prop := x.run.Ends (.error err)

/-- What is there gives itself. -/
theorem gives_pure_iff {c : α} : Gives (pure a) c ↔ c = a := by
  rw [Gives, ExceptT.run_pure, Dialogue.pure_def, Dialogue.ends_done_iff, Except.ok.injEq]

/-- It does not fail. -/
theorem not_fails_pure : ¬ Fails (pure a : Evaluation α) err := by
  rw [Fails, ExceptT.run_pure, Dialogue.pure_def, Dialogue.ends_done_iff]
  nofun

/-- Two steps give what the second gives for something that the first one gives. -/
theorem gives_bind_iff {x : Evaluation α} {f : α → Evaluation β} :
    Gives (x >>= f) b ↔ ∃ a, Gives x a ∧ Gives (f a) b := by
  rw [Gives, ExceptT.run_bind, Dialogue.ends_bind_iff]
  constructor
  · rintro ⟨_ | a, ha, h⟩
    · exact absurd (Dialogue.ends_done_iff.1 h) nofun
    · exact ⟨a, ha, h⟩
  · rintro ⟨a, ha, h⟩
    exact ⟨.ok a, ha, h⟩

/-- One step after another fails if the first one does, or if the second one does on a value of the
first. -/
theorem fails_bind_iff {x : Evaluation α} {f : α → Evaluation β} :
    Fails (x >>= f) err ↔ Fails x err ∨ ∃ a, Gives x a ∧ Fails (f a) err := by
  rw [Fails, ExceptT.run_bind, Dialogue.ends_bind_iff]
  constructor
  · rintro ⟨e | a, ha, h⟩
    · obtain ⟨⟩ := Dialogue.ends_done_iff.1 h
      exact .inl ha
    · exact .inr ⟨a, ha, h⟩
  · rintro (h | ⟨a, ha, h⟩)
    · exact ⟨.error err, h, .done _⟩
    · exact ⟨.ok a, ha, h⟩

/-- The last step may be one that cannot fail. -/
theorem fails_bind_pure_iff {x : Evaluation α} {f : α → β} :
    Fails (x >>= fun a ↦ pure (f a)) err ↔ Fails x err := by
  rw [fails_bind_iff, or_iff_left]
  rintro ⟨a, -, h⟩
  exact not_fails_pure h

/-- Asking the feature cannot fail. -/
theorem not_fails_lift {d : Dialogue α} : ¬ Fails (liftM d) err := by
  intro h
  obtain ⟨a, -, h⟩ := Dialogue.ends_map_iff.1 (show (Except.ok <$> d).Ends (.error err) from h)
  cases h

/-- What does not ask gives its value if it has one. -/
theorem gives_liftExcept_iff {r : Except EvalError α} : Gives (liftM r) a ↔ r = .ok a :=
  Dialogue.ends_done_iff.trans eq_comm

/-- It fails if it has an error instead. -/
theorem fails_liftExcept_iff {r : Except EvalError α} : Fails (liftM r) err ↔ r = .error err :=
  Dialogue.ends_done_iff.trans eq_comm

end Evaluation

open Evaluation

variable {e : Expr} {err : EvalError}

/-! ### Errors of constructs -/

/-- The construct at the top of the expression fails with the error, on values that its parts can
have. -/
inductive Raises : Expr → EvalError → Prop
  | css {css : Expr} {rest : List Expr} {v : Value} {err : EvalError} (hv : css.eval.Gives v)
    (herr : v.cssColor = .error err) : Raises (color .css (css :: rest)) err
  | component {size : VectorSize} {args : List Expr} {arg : Expr} {v : Value} {err : EvalError}
    (harg : arg ∈ args) (hv : arg.eval.Gives v) (herr : v.components size = .error err) :
    Raises (vector size args) err
  | count {size : VectorSize} {args : List Expr} {components : List Float32} {err : EvalError}
    (hcomponents : (evalComponents size args).Gives components)
    (herr : size.ofComponents args.length components = .error err) : Raises (vector size args) err
  | left {op : LogicalOp} {left right : Expr} {v : Value} {err : EvalError}
    (hv : left.eval.Gives v) (herr : v.expectBool op = .error err) :
    Raises (logical op left right) err
  | right {op : LogicalOp} {left right : Expr} {v : Value} {err : EvalError}
    (hv : right.eval.Gives v) (herr : v.expectBool op = .error err) :
    Raises (logical op left right) err
  | text {object : Expr} {argument : Option Expr} {v : Value} {err : EvalError}
    (hv : object.eval.Gives v) (herr : v.methodText = .error err) :
    Raises (call .toString object argument) err
  | receiver {m : SearchMethod} {object : Expr} {argument : Option Expr} {v : Value}
    {err : EvalError} (hv : object.eval.Gives v) (herr : v.expectRegex m = .error err) :
    Raises (call (.search m) object argument) err
  | pattern {pattern : Expr} {flags : Option Expr} {v w : Value} {err : EvalError}
    (hv : pattern.eval.Gives v) (herr : v.compileRegex w = .error err) :
    Raises (regExp pattern flags) err

/-- Something within the expression raises the error. -/
def RaisesWithin (e : Expr) (err : EvalError) : Prop := ∃ s, Within s e ∧ s.Raises err

/-- What the topmost construct raises is raised within the expression. -/
theorem Raises.within (h : e.Raises err) : e.RaisesWithin err := ⟨e, .refl e, h⟩

/-- So is what is raised within a part. -/
theorem RaisesWithin.part {p : Expr} (hp : p ∈ e.parts) (h : p.RaisesWithin err) :
    e.RaisesWithin err := by
  obtain ⟨s, hs, hraises⟩ := h
  exact ⟨s, .part hp hs, hraises⟩

/-! ### Lists of operands -/

/-- If several expressions fail, one of them does. -/
theorem exists_fails_of_items {es : List Expr} (h : (evalItems es).Fails err) :
    ∃ e ∈ es, e.eval.Fails err := by
  induction es with
  | nil =>
    rw [evalItems] at h
    exact absurd h not_fails_pure
  | cons e es ih =>
    rw [evalItems] at h
    rcases fails_bind_iff.1 h with h | ⟨v, -, h⟩
    · exact ⟨e, List.mem_cons_self, h⟩
    · obtain ⟨e', he', h⟩ := ih (fails_bind_pure_iff.1 h)
      exact ⟨e', List.mem_cons_of_mem e he', h⟩

/-- The same for channels: turning a value into a number never fails. -/
theorem exists_fails_of_channels {es : List Expr} {n : Nat} (h : (evalChannels n es).Fails err) :
    ∃ e ∈ es, e.eval.Fails err := by
  induction es generalizing n with
  | nil =>
    rw [evalChannels] at h
    exact absurd h not_fails_pure
  | cons e es ih =>
    cases n with
    | zero =>
      rw [evalChannels] at h
      · exact absurd h not_fails_pure
      · simp
    | succ n =>
      rw [evalChannels] at h
      rcases fails_bind_iff.1 h with h | ⟨v, -, h⟩
      · exact ⟨e, List.mem_cons_self, h⟩
      · obtain ⟨e', he', h⟩ := ih (fails_bind_pure_iff.1 h)
        exact ⟨e', List.mem_cons_of_mem e he', h⟩

/-- An argument of a vector fails, or its value has no components. -/
theorem exists_fails_of_components {size : VectorSize} {es : List Expr}
    (h : (evalComponents size es).Fails err) :
    ∃ e ∈ es, e.eval.Fails err ∨ ∃ v, e.eval.Gives v ∧ v.components size = .error err := by
  induction es with
  | nil =>
    rw [evalComponents] at h
    exact absurd h not_fails_pure
  | cons e es ih =>
    rw [evalComponents] at h
    rcases fails_bind_iff.1 h with h | ⟨v, hv, h⟩
    · exact ⟨e, List.mem_cons_self, .inl h⟩
    rcases fails_bind_iff.1 h with h | ⟨components, -, h⟩
    · exact ⟨e, List.mem_cons_self, .inr ⟨v, hv, fails_liftExcept_iff.1 h⟩⟩
    · obtain ⟨e', he', h⟩ := ih (fails_bind_pure_iff.1 h)
      exact ⟨e', List.mem_cons_of_mem e he', h⟩

/-! ### Constructs -/

/-- An error of an expression is one of a part, or the construct at the top raises it. -/
theorem raises_or_exists_fails (h : e.eval.Fails err) :
    e.Raises err ∨ ∃ p ∈ e.parts, p.eval.Fails err := by
  cases e with
  | null | undefined | bool | number | string | regex =>
    rw [eval] at h
    exact absurd h not_fails_pure
  | global | property | className =>
    rw [eval] at h
    exact absurd h not_fails_lift
  | template text =>
    rw [eval, map_eq_pure_bind, fails_bind_pure_iff] at h
    exact absurd h not_fails_lift
  | color fn args =>
    match fn, args with
    | .channels f, args =>
      rw [eval, fails_bind_pure_iff] at h
      exact .inr (exists_fails_of_channels h)
    | .css, [] =>
      rw [eval] at h
      exact absurd h not_fails_pure
    | .css, css :: rest =>
      rw [eval] at h
      rcases fails_bind_iff.1 h with h | ⟨v, hv, h⟩
      · exact .inr ⟨css, List.mem_cons_self, h⟩
      rcases fails_bind_iff.1 h with h | ⟨c, -, h⟩
      · exact .inl (.css hv (fails_liftExcept_iff.1 h))
      match rest with
      | [] => exact absurd h not_fails_pure
      | alpha :: _ =>
        exact .inr ⟨alpha, List.mem_cons_of_mem css List.mem_cons_self, fails_bind_pure_iff.1 h⟩
  | vector size args =>
    rw [eval] at h
    rcases fails_bind_iff.1 h with h | ⟨components, hcomponents, h⟩
    · obtain ⟨arg, harg, h | ⟨v, hv, herr⟩⟩ := exists_fails_of_components h
      · exact .inr ⟨arg, harg, h⟩
      · exact .inl (.component harg hv herr)
    · exact .inl (.count hcomponents (fails_liftExcept_iff.1 (fails_bind_pure_iff.1 h)))
  | unary op operand =>
    rw [eval] at h
    rcases fails_bind_iff.1 h with h | ⟨v, -, h⟩
    · exact .inr ⟨operand, List.mem_cons_self, h⟩
    · exact absurd h not_fails_lift
  | logical op left right =>
    rw [eval] at h
    rcases fails_bind_iff.1 h with h | ⟨v, hv, h⟩
    · exact .inr ⟨left, by simp [parts], h⟩
    rcases fails_bind_iff.1 h with h | ⟨l, -, h⟩
    · exact .inl (.left hv (fails_liftExcept_iff.1 h))
    -- If the left operand decides, the right one is not evaluated.
    split at h
    · exact absurd h not_fails_pure
    rcases fails_bind_iff.1 h with h | ⟨w, hw, h⟩
    · exact .inr ⟨right, by simp [parts], h⟩
    · exact .inl (.right hw (fails_liftExcept_iff.1 (fails_bind_pure_iff.1 h)))
  | binary op left right =>
    rw [eval] at h
    rcases fails_bind_iff.1 h with h | ⟨v, -, h⟩
    · exact .inr ⟨left, by simp [parts], h⟩
    · exact .inr ⟨right, by simp [parts], fails_bind_pure_iff.1 h⟩
  | ternary fn first second third =>
    rw [eval] at h
    rcases fails_bind_iff.1 h with h | ⟨v, -, h⟩
    · exact .inr ⟨first, by simp [parts], h⟩
    rcases fails_bind_iff.1 h with h | ⟨w, -, h⟩
    · exact .inr ⟨second, by simp [parts], h⟩
    · exact .inr ⟨third, by simp [parts], fails_bind_pure_iff.1 h⟩
  | conditional test consequent alternate =>
    rw [eval] at h
    rcases fails_bind_iff.1 h with h | ⟨v, -, h⟩
    · exact .inr ⟨test, by simp [parts], h⟩
    split at h
    · exact .inr ⟨consequent, by simp [parts], h⟩
    · exact .inr ⟨alternate, by simp [parts], h⟩
  | featureMember access key =>
    rw [eval] at h
    rcases fails_bind_iff.1 h with h | ⟨k, -, h⟩
    · exact .inr ⟨key, List.mem_cons_self, h⟩
    · exact absurd h not_fails_lift
  | member access object key =>
    rw [eval] at h
    rcases fails_bind_iff.1 h with h | ⟨k, -, h⟩
    · exact .inr ⟨key, by simp [parts], h⟩
    · exact .inr ⟨object, by simp [parts], fails_bind_pure_iff.1 h⟩
  | array items =>
    rw [eval, map_eq_pure_bind, fails_bind_pure_iff] at h
    exact .inr (exists_fails_of_items h)
  | call method object argument =>
    cases method with
    | toString =>
      rw [eval] at h
      rcases fails_bind_iff.1 h with h | ⟨v, hv, h⟩
      · exact .inr ⟨object, List.mem_cons_self, h⟩
      · exact .inl (.text hv (fails_liftExcept_iff.1 (fails_bind_pure_iff.1 h)))
    | search m =>
      rw [eval] at h
      rcases fails_bind_iff.1 h with h | ⟨v, hv, h⟩
      · exact .inr ⟨object, List.mem_cons_self, h⟩
      rcases fails_bind_iff.1 h with h | ⟨p, -, h⟩
      · exact .inl (.receiver hv (fails_liftExcept_iff.1 h))
      cases argument with
      | none => exact absurd h not_fails_pure
      | some a => exact .inr ⟨a, by simp [parts], fails_bind_pure_iff.1 h⟩
  | regExp pattern flags =>
    rw [eval] at h
    rcases fails_bind_iff.1 h with h | ⟨v, hv, h⟩
    · exact .inr ⟨pattern, List.mem_cons_self, h⟩
    cases flags with
    | none => exact .inl (.pattern hv (fails_liftExcept_iff.1 h))
    | some f =>
      rcases fails_bind_iff.1 h with h | ⟨w, -, h⟩
      · exact .inr ⟨f, by simp [parts], h⟩
      · exact .inl (.pattern hv (fails_liftExcept_iff.1 h))

/-- **Every error of an expression is raised within it.** -/
theorem raisesWithin_of_fails (h : e.eval.Fails err) : e.RaisesWithin err := by
  induction e using induction_parts with
  | step e ih =>
    rcases raises_or_exists_fails h with hraises | ⟨p, hp, h⟩
    · exact hraises.within
    · exact (ih p hp h).part hp

end Expr

/-! ### Errors and the constructs that they speak of -/

/-- The construct at the top of the expression is the one that the error speaks of. -/
def EvalError.BelongsTo : EvalError → Expr → Prop
  | undefinedOperation op _, .logical op' _ _ => op' = op
  | noComponents size _, .vector size' _ | tooManyComponents size _, .vector size' _
  | tooFewComponents size _, .vector size' _ => size' = size
  | invalidColor _, .color .css (_ :: _) => True
  | invalidRegex _, .regExp _ _ => True
  | noTextMethod _, .call .toString _ _ => True
  | notARegex m _, .call (.search m') _ _ => m' = m
  | _, _ => False

namespace Expr

variable {e : Expr} {err : EvalError}

/-- Whether the construct at the top of the expression needs values of a certain type or form: a
logical operator, a vector, a colour in the notation of style sheets, a regular expression that is
compiled during evaluation or a call of a method. -/
def needsForm : Expr → Bool
  | logical _ _ _ | vector _ _ | color .css (_ :: _) | regExp _ _ | call _ _ _ => true
  | _ => false

/-- Errors only speak of constructs that need values of a certain form. -/
theorem needsForm_of_belongsTo (h : err.BelongsTo e) : e.needsForm := by
  unfold EvalError.BelongsTo at h
  split at h
  case h_9 => exact h.elim
  all_goals rfl

/-- **A construct raises the errors that speak of it, and no others.** -/
theorem belongsTo_of_raises (h : e.Raises err) : err.BelongsTo e := by
  cases h with
  | css hv herr =>
    unfold Value.cssColor at herr
    split at herr
    · split at herr <;> cases herr
      trivial
    · cases herr
      trivial
  | component harg hv herr =>
    unfold Value.components at herr
    split at herr
    · cases herr
    · split at herr <;> cases herr
      rfl
    · cases herr
      rfl
  | count hcomponents herr =>
    unfold VectorSize.ofComponents at herr
    dsimp only at herr
    split at herr
    · cases herr
    split at herr
    · cases herr
      rfl
    split at herr <;> cases herr
    rfl
  | @left _ _ _ v _ _ herr | @right _ _ _ v _ _ herr => cases v <;> cases herr <;> rfl
  | @text _ _ v _ _ herr => cases v <;> cases herr <;> trivial
  | @receiver _ _ _ v _ _ herr => cases v <;> cases herr <;> rfl
  | pattern hv herr =>
    unfold Value.compileRegex at herr
    split at herr <;> cases herr
    trivial

/-! ### Whole evaluations -/

/-- An evaluation with a pool ends as one without does. -/
theorem ends_of_evaluateIn {pool after : ScratchPool} {result : Except Stop Value}
    (h : (e.evaluateIn pool).Ends (result, after)) :
    ∃ r, e.eval.run.Ends r ∧ r.mapError Stop.error = result := by
  have hfst : (Prod.fst <$> e.evaluateIn pool).Ends result := Dialogue.ends_map_iff.2 ⟨_, h, rfl⟩
  rw [fst_evaluateIn] at hfst
  exact Dialogue.ends_map_iff.1 hfst

/-- **An evaluation with a pool only fails with an error of the one without.** It is never stopped
otherwise. -/
theorem fails_of_evaluateIn {pool after : ScratchPool} {stop : Stop}
    (h : (e.evaluateIn pool).Ends (.error stop, after)) :
    ∃ err, stop = .error err ∧ e.eval.Fails err := by
  obtain ⟨err | v, hr, hstop⟩ := ends_of_evaluateIn h
  · cases hstop
    exact ⟨err, rfl, hr⟩
  · cases hstop

/-- So does it give only values of the one without. -/
theorem gives_of_evaluateIn {pool after : ScratchPool} {v : Value}
    (h : (e.evaluateIn pool).Ends (.ok v, after)) : e.eval.Gives v := by
  obtain ⟨err | w, hr, hv⟩ := ends_of_evaluateIn h
  · cases hv
  · cases hv
    exact hr

/-- **Every evaluation error has its construct.** From every pool:

* an error that the evaluation can end with, whatever the feature answers on the way, speaks of a
  construct that stands within the expression;
* if nothing within the expression needs values of a certain form, the expression has a value for
  every feature. -/
theorem evaluateIn_error_belongs (e : Expr) (pool : ScratchPool) :
    (∀ stop after, (e.evaluateIn pool).Ends (.error stop, after) →
      ∃ err s, stop = .error err ∧ Within s e ∧ err.BelongsTo s) ∧
    ((∀ s, Within s e → s.needsForm = false) →
      ∀ feature : Subject, ∃ v after, (e.evaluateIn pool).run feature = (.ok v, after)) := by
  have herror (stop : Stop) (after : ScratchPool)
      (h : (e.evaluateIn pool).Ends (.error stop, after)) :
      ∃ err s, stop = .error err ∧ Within s e ∧ err.BelongsTo s := by
    obtain ⟨err, hstop, hfails⟩ := fails_of_evaluateIn h
    obtain ⟨s, hs, hraises⟩ := raisesWithin_of_fails hfails
    exact ⟨err, s, hstop, hs, belongsTo_of_raises hraises⟩
  refine ⟨herror, fun hform feature ↦ ?_⟩
  have hend := Dialogue.ends_run feature (e.evaluateIn pool)
  generalize (e.evaluateIn pool).run feature = result at hend
  obtain ⟨stop | v, after⟩ := result
  · obtain ⟨err, s, -, hs, hbelongs⟩ := herror stop after hend
    have hneeds := needsForm_of_belongsTo hbelongs
    rw [hform s hs] at hneeds
    cases hneeds
  · exact ⟨v, after, rfl⟩

end Expr

end FeatureStyle
