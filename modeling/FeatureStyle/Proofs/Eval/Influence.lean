import FeatureStyle.Proofs.Eval.Transparency
import FeatureStyle.Proofs.Expr.Part
import FeatureStyle.Proofs.Subject.Transcript

/-!
# What influences an evaluation

An evaluation is observed against a respondent, from what is on record when it begins: the value or
the error, and the record after it (`Expr.outcome`). The right operand of a logical operator adds
something to the record only behind a left one that does not decide, and of the branches of a
conditional only the selected one does.

`Alike A t e e'` says that `e'` is `e` but for parts that are not evaluated. At every construct the
operands are compared `InTurn`, each of them from the record that the ones before it lead to, and
only as far as these give values. **Expressions that are alike cannot be told apart**
(`Alike.agree`), by induction over the expression with one lemma for each construct. All that
influences an evaluation is put together in `evaluateIn_influence`.
-/

namespace FeatureStyle.Expr

-- The equations of the evaluation are made here, once for all of the proofs below.
attribute [local simp] eval

variable {A B : Respondent} {t t' : Transcript}

/-! ### Evaluations on record -/

namespace Evaluation

variable {α β : Type} {x x' : Evaluation α} {f f' : α → Evaluation β} {a : α} {err : EvalError}

/-- What an evaluation gives when `t` is on record, and the record after it. -/
def observe (A : Respondent) (t : Transcript) (x : Evaluation α) :
    Except EvalError α × Transcript :=
  x.run.converse A t

/-- What goes on with a value is observed from where the value was reached. -/
theorem observe_bind_ok (h : observe A t x = (.ok a, t')) :
    observe A t (x >>= f) = observe A t' (f a) := by
  rw [observe, ExceptT.run_bind, Dialogue.converse_bind, ← observe, h]
  rfl

/-- What fails is observed no further. -/
theorem observe_bind_error (h : observe A t x = (.error err, t')) :
    observe A t (x >>= f) = (.error err, t') := by
  rw [observe, ExceptT.run_bind, Dialogue.converse_bind, ← observe, h]
  rfl

/-- Where two steps give a value, the first one gives one as well. -/
theorem exists_of_observe_bind {b : β} (h : observe A t (x >>= f) = (.ok b, t')) :
    ∃ a s, observe A t x = (.ok a, s) ∧ observe A s (f a) = (.ok b, t') := by
  rcases hx : observe A t x with ⟨err | a, s⟩
  · rw [observe_bind_error hx] at h
    cases h
  · rw [observe_bind_ok hx] at h
    exact ⟨a, s, rfl, h⟩

/-- Of two steps, the second one only counts where the first one gives a value. -/
theorem observe_bind_congr (hx : observe A t x = observe A t x')
    (hf : ∀ a t', observe A t x = (.ok a, t') → observe A t' (f a) = observe A t' (f' a)) :
    observe A t (x >>= f) = observe A t (x' >>= f') := by
  rcases h : observe A t x with ⟨err | a, t'⟩
  · rw [observe_bind_error h, observe_bind_error (hx.symm.trans h)]
  · rw [observe_bind_ok h, observe_bind_ok (hx.symm.trans h), hf a t' h]

/-- A check of a value asks nothing. -/
theorem observe_lift (r : Except EvalError α) : observe A t (liftM r) = (r, t) := by
  cases r <;> rfl

/-- Behind a check only the values that pass it count. -/
theorem observe_lift_bind_congr {r : Except EvalError α}
    (hf : ∀ a, r = .ok a → observe A t (f a) = observe A t (f' a)) :
    observe A t (liftM r >>= f) = observe A t (liftM r >>= f') := by
  refine observe_bind_congr rfl fun a t' ha ↦ ?_
  obtain ⟨hr, rfl⟩ := Prod.mk.inj ((observe_lift r).symm.trans ha)
  exact hf a hr

/-- A step that asks nothing adds nothing to the record. -/
theorem snd_observe_bind (hf : ∀ a t', (observe A t' (f a)).2 = t') :
    (observe A t (x >>= f)).2 = (observe A t x).2 := by
  rcases h : observe A t x with ⟨err | a, t'⟩
  · rw [observe_bind_error h]
  · rw [observe_bind_ok h, hf]

end Evaluation

open Evaluation

variable {e e' : Expr} {es es' : List Expr} {v : Value}

/-- What an evaluation gives when `t` is on record, and the record after it. The pool has no
influence on this (`converse_evaluateIn`). -/
def outcome (A : Respondent) (t : Transcript) (e : Expr) : Except Stop Value × Transcript :=
  (Prod.fst <$> e.evaluateIn .empty).converse A t

/-- The evaluator on a pool asks what the evaluation without one asks. -/
theorem converse_evaluateIn (A : Respondent) (t : Transcript) (e : Expr) (pool : ScratchPool) :
    (Prod.fst <$> e.evaluateIn pool).converse A t = e.outcome A t := by
  rw [outcome, fst_evaluateIn, fst_evaluateIn]

/-- The pool has no influence on what a subject is asked and what comes of it. -/
theorem calls_evaluateIn (e : Expr) (pool : ScratchPool) (s : Subject) :
    (e.evaluateIn pool).calls s = e.eval.run.calls s := by
  rw [← Dialogue.calls_map s Prod.fst, fst_evaluateIn, Dialogue.calls_map]

/-- The outcome is that of the evaluation without a pool. -/
theorem outcome_eq (e : Expr) :
    e.outcome A t = ((observe A t e.eval).1.mapError Stop.error, (observe A t e.eval).2) := by
  rw [outcome, fst_evaluateIn, Dialogue.converse_map]
  rfl

/-- A value is the outcome exactly if the evaluation reaches it. -/
theorem outcome_eq_ok_iff :
    e.outcome A t = (.ok v, t') ↔ observe A t e.eval = (.ok v, t') := by
  rw [outcome_eq]
  rcases observe A t e.eval with ⟨_ | _, _⟩ <;> simp [Except.mapError]

/-- Expressions that are observed alike have the same outcome. -/
theorem outcome_congr (h : observe A t e.eval = observe A t' e'.eval) :
    e.outcome A t = e'.outcome A t' := by
  rw [outcome_eq, outcome_eq, h]

/-! ### Operands that are left out -/

variable {op : LogicalOp} {left right : Expr} {b : Bool} {result : Except Stop Value}

/-- What is expected to be a truth value passes if it is one. -/
theorem expectBool_eq_ok_iff : v.expectBool op = .ok b ↔ v = .bool b := by
  cases v <;> simp [Value.expectBool]

/-- The right operand of a logical operator counts behind a left one that does not decide. -/
theorem record_logical_right (h : left.outcome A t = (.ok (.bool b), t')) (hb : b ≠ op.deciding) :
    ((logical op left right).outcome A t).2 = (right.outcome A t').2 := by
  have hcheck : observe A t' (liftM ((Value.bool b).expectBool op)) = (.ok b, t') := observe_lift _
  have hright : observe A t (logical op left right).eval = observe A t'
      (right.eval >>= fun v ↦ liftM (v.expectBool op) >>= fun b ↦ pure (.bool b)) := by
    rw [eval, observe_bind_ok (outcome_eq_ok_iff.1 h), observe_bind_ok hcheck, if_neg hb]
  rw [outcome_eq, outcome_eq, hright]
  refine snd_observe_bind fun v t' ↦ ?_
  rw [snd_observe_bind fun _ _ ↦ rfl, observe_lift]

/-- Behind any other left operand nothing is asked. -/
theorem record_logical_left (h : left.outcome A t = (result, t'))
    (hstop : ∀ b, result = .ok (.bool b) → b = op.deciding) :
    ((logical op left right).outcome A t).2 = t' := by
  rw [outcome_eq, Prod.mk.injEq] at h
  obtain ⟨rfl, rfl⟩ := h
  rw [outcome_eq, eval]
  rcases hleft : observe A t left.eval with ⟨err | v, t''⟩
  · rw [observe_bind_error hleft]
  · rw [observe_bind_ok hleft]
    rcases hcheck : v.expectBool op with err | b
    · rw [observe_bind_error (observe_lift (.error err))]
    · have hb : b = op.deciding := by
        obtain rfl := expectBool_eq_ok_iff.1 hcheck
        rw [hleft] at hstop
        exact hstop b rfl
      rw [observe_bind_ok (observe_lift (.ok b)), if_pos hb]
      rfl

variable {test consequent alternate : Expr} {stop : Stop}

/-- A conditional goes on as the branch that its test selects. -/
theorem outcome_conditional (h : test.outcome A t = (.ok v, t')) :
    (conditional test consequent alternate).outcome A t =
      (if v.truthy then consequent else alternate).outcome A t' := by
  refine outcome_congr ?_
  rw [eval, observe_bind_ok (outcome_eq_ok_iff.1 h)]
  split <;> rfl

/-- If its test fails, a conditional asks nothing more. -/
theorem outcome_conditional_error (h : test.outcome A t = (.error stop, t')) :
    (conditional test consequent alternate).outcome A t = (.error stop, t') := by
  rw [outcome_eq] at h ⊢
  rcases htest : observe A t test.eval with ⟨err | v, t''⟩
  · rw [htest] at h
    rw [eval, observe_bind_error htest]
    exact h
  · rw [htest] at h
    cases h

/-! ### Expressions that agree -/

/-- The lists are related position by position, as far as what comes before gives values. -/
inductive InTurn (A : Respondent) (R : Transcript → Expr → Expr → Prop) :
    Transcript → List Expr → List Expr → Prop
  | nil {t : Transcript} : InTurn A R t [] []
  | cons {t : Transcript} {e e' : Expr} {es es' : List Expr} (h : R t e e')
      (hs : ∀ v t', e.outcome A t = (.ok v, t') → InTurn A R t' es es') :
      InTurn A R t (e :: es) (e' :: es')

/-- Nothing can be seen to be different when `t` is on record. -/
def Agree (A : Respondent) (t : Transcript) (e e' : Expr) : Prop :=
  observe A t e.eval = observe A t e'.eval

namespace InTurn

variable {R S : Transcript → Expr → Expr → Prop}

/-- The first parts are related where the evaluation starts. -/
theorem head (h : InTurn A R t (e :: es) (e' :: es')) : R t e e' := by
  cases h with
  | cons h _ => exact h

/-- The other parts are related where the first one has been evaluated. -/
theorem tail (h : InTurn A R t (e :: es) (e' :: es')) (hv : observe A t e.eval = (.ok v, t')) :
    InTurn A R t' es es' := by
  cases h with
  | cons _ hs => exact hs v t' (outcome_eq_ok_iff.2 hv)

/-- A relation in turn is kept by every weaker relation of the parts. -/
theorem mono (hRS : ∀ e ∈ es, ∀ t e', R t e e' → S t e e') (h : InTurn A R t es es') :
    InTurn A S t es es' := by
  induction h with
  | nil => exact .nil
  | cons h _ ih =>
    obtain ⟨hhead, htail⟩ := List.forall_mem_cons.1 hRS
    exact .cons (hhead _ _ h) fun v t' hv ↦ ih v t' hv htail

end InTurn

/-- **Items that agree in turn are observed alike**, also if one of them fails. -/
theorem agree_items (h : InTurn A (Agree A) t es es') :
    observe A t (evalItems es) = observe A t (evalItems es') := by
  induction h with
  | nil => rfl
  | cons h _ ih =>
    rw [evalItems, evalItems]
    refine observe_bind_congr h fun v t' hv ↦ ?_
    exact observe_bind_congr (ih v t' (outcome_eq_ok_iff.2 hv)) fun _ _ _ ↦ rfl

/-- The same for the channels of a colour, of which some are not there. -/
theorem agree_channels (h : InTurn A (Agree A) t es es') (n : Nat) :
    observe A t (evalChannels n es) = observe A t (evalChannels n es') := by
  induction h generalizing n with
  | nil => rfl
  | cons h _ ih =>
    cases n with
    | zero => rw [evalChannels, evalChannels] <;> exact List.cons_ne_nil _ _
    | succ n =>
      rw [evalChannels, evalChannels]
      refine observe_bind_congr h fun v t' hv ↦ ?_
      exact observe_bind_congr (ih v t' (outcome_eq_ok_iff.2 hv) n) fun _ _ _ ↦ rfl

/-- The same for the components of a vector. -/
theorem agree_components (h : InTurn A (Agree A) t es es') (size : VectorSize) :
    observe A t (evalComponents size es) = observe A t (evalComponents size es') := by
  induction h with
  | nil => rfl
  | cons h _ ih =>
    rw [evalComponents, evalComponents]
    refine observe_bind_congr h fun v t' hv ↦ observe_lift_bind_congr fun xs _ ↦ ?_
    exact observe_bind_congr (ih v t' (outcome_eq_ok_iff.2 hv)) fun _ _ _ ↦ rfl

/-- Where there are components, the lists are of one length. -/
theorem length_eq_of_components {R : Transcript → Expr → Expr → Prop} (h : InTurn A R t es es')
    {size : VectorSize} {xs : List Float32}
    (hxs : observe A t (evalComponents size es) = (.ok xs, t')) : es.length = es'.length := by
  induction h generalizing xs t' with
  | nil => rfl
  | @cons t e e' es es' h _ ih =>
    rw [evalComponents] at hxs
    obtain ⟨v, s, hv, hxs⟩ := exists_of_observe_bind hxs
    obtain ⟨ys, s', hys, hxs⟩ := exists_of_observe_bind hxs
    obtain ⟨-, rfl⟩ := Prod.mk.inj ((observe_lift _).symm.trans hys)
    obtain ⟨zs, s', hzs, -⟩ := exists_of_observe_bind hxs
    rw [List.length_cons, List.length_cons, ih v s (outcome_eq_ok_iff.2 hv) hzs]

/-! ### Constructs -/

/-- Colours agree if their arguments do, in turn. -/
theorem agree_color {fn : ColorFn} {args args' : List Expr}
    (h : InTurn A (Agree A) t args args') : Agree A t (color fn args) (color fn args') := by
  cases fn with
  | channels f =>
    rw [Agree, eval, eval]
    exact observe_bind_congr (agree_channels h 4) fun _ _ _ ↦ rfl
  | css =>
    cases h with
    | nil => rfl
    | @cons t css css' rest rest' h hs =>
      rw [Agree, eval, eval]
      refine observe_bind_congr h fun v t' hv ↦ observe_lift_bind_congr fun c _ ↦ ?_
      cases hs v t' (outcome_eq_ok_iff.2 hv) with
      | nil => rfl
      | cons h _ => exact observe_bind_congr h fun _ _ _ ↦ rfl

/-- So do vectors. -/
theorem agree_vector {size : VectorSize} {args args' : List Expr}
    (h : InTurn A (Agree A) t args args') : Agree A t (vector size args) (vector size args') := by
  rw [Agree, eval, eval]
  refine observe_bind_congr (agree_components h size) fun xs t' hxs ↦ ?_
  rw [length_eq_of_components h hxs]

/-- So do operators before an operand. -/
theorem agree_unary {op : UnaryOp} {operand operand' : Expr} (h : Agree A t operand operand') :
    Agree A t (unary op operand) (unary op operand') := by
  rw [Agree, eval, eval]
  exact observe_bind_congr h fun _ _ _ ↦ rfl

/-- The right side of a logical operator has to agree only if the left side does not decide. -/
theorem agree_logical {left' right' : Expr} (hleft : Agree A t left left')
    (hright : ∀ b t', left.outcome A t = (.ok (.bool b), t') → b ≠ op.deciding →
      Agree A t' right right') : Agree A t (logical op left right) (logical op left' right') := by
  rw [Agree, eval, eval]
  refine observe_bind_congr hleft fun v t' hv ↦ observe_lift_bind_congr fun b hb ↦ ?_
  obtain rfl := expectBool_eq_ok_iff.1 hb
  split
  · rfl
  · next hb => exact observe_bind_congr (hright b t' (outcome_eq_ok_iff.2 hv) hb) fun _ _ _ ↦ rfl

/-- Operators between operands agree if the operands do, in turn. -/
theorem agree_binary {op : BinaryOp} {left' right' : Expr}
    (h : InTurn A (Agree A) t [left, right] [left', right']) :
    Agree A t (binary op left right) (binary op left' right') := by
  rw [Agree, eval, eval]
  refine observe_bind_congr h.head fun v t' hv ↦ ?_
  exact observe_bind_congr (h.tail hv).head fun _ _ _ ↦ rfl

/-- So do functions of three arguments. -/
theorem agree_ternary {fn : TernaryFn} {first second third first' second' third' : Expr}
    (h : InTurn A (Agree A) t [first, second, third] [first', second', third']) :
    Agree A t (ternary fn first second third) (ternary fn first' second' third') := by
  rw [Agree, eval, eval]
  refine observe_bind_congr h.head fun v t' hv ↦ ?_
  refine observe_bind_congr (h.tail hv).head fun w t'' hw ↦ ?_
  exact observe_bind_congr ((h.tail hv).tail hw).head fun _ _ _ ↦ rfl

/-- Of a conditional only the branch that is taken has to agree. -/
theorem agree_conditional {test' consequent' alternate' : Expr} (htest : Agree A t test test')
    (hbranch : ∀ v t', test.outcome A t = (.ok v, t') →
      Agree A t' (if v.truthy then consequent else alternate)
        (if v.truthy then consequent' else alternate')) :
    Agree A t (conditional test consequent alternate)
      (conditional test' consequent' alternate') := by
  rw [Agree, eval, eval]
  refine observe_bind_congr htest fun v t' hv ↦ ?_
  have hagree := hbranch v t' (outcome_eq_ok_iff.2 hv)
  split
  · next htrue =>
    rw [if_pos htrue, if_pos htrue] at hagree
    exact hagree
  · next hfalse =>
    rw [if_neg hfalse, if_neg hfalse] at hagree
    exact hagree

/-- A name of a property that is evaluated agrees if its expression does. -/
theorem agree_featureMember {access : MemberAccess} {key key' : Expr} (h : Agree A t key key') :
    Agree A t (featureMember access key) (featureMember access key') := by
  rw [Agree, eval, eval]
  exact observe_bind_congr h fun _ _ _ ↦ rfl

/-- The key of a member is evaluated before the object. -/
theorem agree_member {access : MemberAccess} {object key object' key' : Expr}
    (h : InTurn A (Agree A) t [key, object] [key', object']) :
    Agree A t (member access object key) (member access object' key') := by
  rw [Agree, eval, eval]
  refine observe_bind_congr h.head fun v t' hv ↦ ?_
  exact observe_bind_congr (h.tail hv).head fun _ _ _ ↦ rfl

/-- Arrays agree if their items do, in turn. -/
theorem agree_array {items items' : List Expr} (h : InTurn A (Agree A) t items items') :
    Agree A t (array items) (array items') := by
  rw [Agree, eval, eval, map_eq_pure_bind, map_eq_pure_bind]
  exact observe_bind_congr (agree_items h) fun _ _ _ ↦ rfl

/-- A call evaluates its object, and then its argument if there is one. -/
theorem agree_call {method : Method} {object object' : Expr} {argument argument' : Option Expr}
    (h : InTurn A (Agree A) t (object :: argument.toList) (object' :: argument'.toList)) :
    Agree A t (call method object argument) (call method object' argument') := by
  cases method with
  | toString =>
    rw [Agree, eval, eval]
    exact observe_bind_congr h.head fun _ _ _ ↦ rfl
  | search m =>
    rw [Agree, eval, eval]
    refine observe_bind_congr h.head fun v t' hv ↦ observe_lift_bind_congr fun p _ ↦ ?_
    have htail := h.tail hv
    cases argument <;> cases argument'
    · rfl
    · cases htail
    · cases htail
    · exact observe_bind_congr htail.head fun _ _ _ ↦ rfl

/-- A regular expression evaluates its pattern, and then its flags if there are any. -/
theorem agree_regExp {pattern pattern' : Expr} {flags flags' : Option Expr}
    (h : InTurn A (Agree A) t (pattern :: flags.toList) (pattern' :: flags'.toList)) :
    Agree A t (regExp pattern flags) (regExp pattern' flags') := by
  rw [Agree, eval, eval]
  refine observe_bind_congr h.head fun v t' hv ↦ ?_
  have htail := h.tail hv
  cases flags <;> cases flags'
  · rfl
  · cases htail
  · cases htail
  · exact observe_bind_congr htail.head fun _ _ _ ↦ rfl

/-! ### Expressions that are alike where they are evaluated -/

/-- The second expression is the first one but for parts that are not evaluated against `A` when `t`
is on record. There is one rule for each construct: the operands are related in the order in which
they are evaluated, as far as the evaluation comes. -/
inductive Alike (A : Respondent) : Transcript → Expr → Expr → Prop
  | refl (t : Transcript) (e : Expr) : Alike A t e e
  | color {t : Transcript} (fn : ColorFn) {args args' : List Expr}
      (h : InTurn A (Alike A) t args args') : Alike A t (color fn args) (color fn args')
  | vector {t : Transcript} (size : VectorSize) {args args' : List Expr}
      (h : InTurn A (Alike A) t args args') : Alike A t (vector size args) (vector size args')
  | unary {t : Transcript} (op : UnaryOp) {operand operand' : Expr}
      (h : Alike A t operand operand') : Alike A t (unary op operand) (unary op operand')
  /-- Of the right operand nothing is asked unless the left one does not decide. -/
  | logical {t : Transcript} (op : LogicalOp) {left right left' right' : Expr}
      (hleft : Alike A t left left')
      (hright : ∀ b t', left.outcome A t = (.ok (.bool b), t') → b ≠ op.deciding →
        Alike A t' right right') :
      Alike A t (logical op left right) (logical op left' right')
  | binary {t : Transcript} (op : BinaryOp) {left right left' right' : Expr}
      (h : InTurn A (Alike A) t [left, right] [left', right']) :
      Alike A t (binary op left right) (binary op left' right')
  | ternary {t : Transcript} (fn : TernaryFn) {first second third first' second' third' : Expr}
      (h : InTurn A (Alike A) t [first, second, third] [first', second', third']) :
      Alike A t (ternary fn first second third) (ternary fn first' second' third')
  /-- Of the branches only the one that is selected counts. -/
  | conditional {t : Transcript} {test consequent alternate test' consequent' alternate' : Expr}
      (htest : Alike A t test test')
      (hbranch : ∀ v t', test.outcome A t = (.ok v, t') →
        Alike A t' (if v.truthy then consequent else alternate)
          (if v.truthy then consequent' else alternate')) :
      Alike A t (conditional test consequent alternate)
        (conditional test' consequent' alternate')
  | featureMember {t : Transcript} (access : MemberAccess) {key key' : Expr}
      (h : Alike A t key key') : Alike A t (featureMember access key) (featureMember access key')
  | member {t : Transcript} (access : MemberAccess) {object key object' key' : Expr}
      (h : InTurn A (Alike A) t [key, object] [key', object']) :
      Alike A t (member access object key) (member access object' key')
  | array {t : Transcript} {items items' : List Expr} (h : InTurn A (Alike A) t items items') :
      Alike A t (array items) (array items')
  | call {t : Transcript} (method : Method) {object object' : Expr}
      {argument argument' : Option Expr}
      (h : InTurn A (Alike A) t (object :: argument.toList) (object' :: argument'.toList)) :
      Alike A t (call method object argument) (call method object' argument')
  | regExp {t : Transcript} {pattern pattern' : Expr} {flags flags' : Option Expr}
      (h : InTurn A (Alike A) t (pattern :: flags.toList) (pattern' :: flags'.toList)) :
      Alike A t (regExp pattern flags) (regExp pattern' flags')

/-- **What is not evaluated makes no difference.** -/
theorem Alike.agree (h : Alike A t e e') : Agree A t e e' := by
  induction e using induction_parts generalizing t e' with
  | step e ih =>
    cases h with
    | refl => rfl
    | color fn h => exact agree_color (h.mono fun p hp t p' ↦ ih p hp)
    | vector size h => exact agree_vector (h.mono fun p hp t p' ↦ ih p hp)
    | unary op h => exact agree_unary (ih _ List.mem_cons_self h)
    | logical op hleft hright =>
      refine agree_logical (ih _ List.mem_cons_self hleft) fun b t' hb hop ↦ ?_
      exact ih _ (by simp [parts]) (hright b t' hb hop)
    | binary op h => exact agree_binary (h.mono fun p hp t p' ↦ ih p hp)
    | ternary fn h => exact agree_ternary (h.mono fun p hp t p' ↦ ih p hp)
    | conditional htest hbranch =>
      refine agree_conditional (ih _ List.mem_cons_self htest) fun v t' hv ↦ ?_
      exact ih _ (by split <;> simp [parts]) (hbranch v t' hv)
    | featureMember access h => exact agree_featureMember (ih _ List.mem_cons_self h)
    | member access h =>
      refine agree_member (h.mono fun p hp t p' ↦ ih p ?_)
      exact (List.Perm.swap _ _ []).mem_iff.1 hp
    | array h => exact agree_array (h.mono fun p hp t p' ↦ ih p hp)
    | call method h => exact agree_call (h.mono fun p hp t p' ↦ ih p hp)
    | regExp h => exact agree_regExp (h.mono fun p hp t p' ↦ ih p hp)

/-- **What influences an evaluation.** An expression depends on a subject only through what it asks:
of two subjects that give the same answers to what the first one is asked, the second one is asked
the same, in the same order, and the value or the error is the same, with whatever pools.

This is not less true of respondents, which may answer in view of what came before. Let `e` be
evaluated against one of them.

* Another one that would give each of the answers on record in its place is asked the same, and the
  value or the error is the same.
* An expression that differs from `e` only in parts that are not evaluated asks the same, and its
  value or error is the same.

So it is wherever a logical operator or a conditional is evaluated, whether it fails or not:

* what a logical operator asks is what its left operand asks, and behind that what the right one
  asks if the left one is the truth value that does not decide, but nothing otherwise;
* a conditional goes on as the branch that its test selects, and stops where its test fails. -/
theorem evaluateIn_influence (e : Expr) (A : Respondent) :
    (∀ pool pool' s s', (∀ q ∈ (e.evaluateIn pool).calls s, s'.answer q = s.answer q) →
      (e.evaluateIn pool').calls s' = (e.evaluateIn pool).calls s ∧
        ((e.evaluateIn pool').run s').1 = ((e.evaluateIn pool).run s).1) ∧
    (∀ pool B, B.Confirms (e.outcome A []).2 →
      (Prod.fst <$> e.evaluateIn pool).converse B [] = e.outcome A []) ∧
    (∀ pool e', e.Alike A [] e' →
      (Prod.fst <$> e'.evaluateIn pool).converse A [] = e.outcome A []) ∧
    (∀ t op left right result t', left.outcome A t = (result, t') →
      (∀ b, result = .ok (.bool b) → b ≠ op.deciding →
        ((logical op left right).outcome A t).2 = (right.outcome A t').2) ∧
      ((∀ b, result = .ok (.bool b) → b = op.deciding) →
        ((logical op left right).outcome A t).2 = t')) ∧
    ∀ t test consequent alternate result t', test.outcome A t = (result, t') →
      (∀ v, result = .ok v → (conditional test consequent alternate).outcome A t =
        (if v.truthy then consequent else alternate).outcome A t') ∧
      ∀ stop, result = .error stop →
        (conditional test consequent alternate).outcome A t = (.error stop, t') := by
  refine ⟨fun pool pool' s s' h ↦ ?_, fun pool B hB ↦ ?_, fun pool e' he ↦ ?_, ?_, ?_⟩
  · rw [calls_evaluateIn] at h
    obtain ⟨hcalls, hrun⟩ := Dialogue.calls_eq_of_forall _ h
    simp only [calls_evaluateIn, fst_run_evaluateIn, hcalls, hrun, and_self]
  · rw [converse_evaluateIn]
    exact Dialogue.converse_eq_of_confirms _ hB
  · rw [converse_evaluateIn]
    exact (outcome_congr he.agree).symm
  · intro t op left right result t' h
    refine ⟨?_, record_logical_left h⟩
    rintro b rfl hb
    exact record_logical_right h hb
  · intro t test consequent alternate result t' h
    constructor
    · rintro v rfl
      exact outcome_conditional h
    · rintro stop rfl
      exact outcome_conditional_error h

/-- An evaluation that fails at the right operand of a disjunction. The right operand of the
conjunction before it is left out, and so are the branches of a conditional that it is the test
of. -/
theorem evaluateIn_influence_failing :
    let door (name : String) : Option Value :=
      if name = "a" then some (.bool false) else if name = "c" then some (.string "x") else none
    let s : Subject := .ofProperty door
    let s' : Subject :=
      ⟨fun name ↦ (door name).or (some (.bool true)), fun _ ↦ true, fun _ ↦ true, some "door", 1⟩
    let both (right : Expr) := logical .and (property "a") right
    let either (right : Expr) := logical .or (both right) (property "c")
    let a : Exchange := ⟨.property "a", some (.bool false)⟩
    let failed : Except Stop Value × Transcript :=
      (.error (.error (.undefinedOperation .or .string)), [a, ⟨.property "c", some (.string "x")⟩])
    ((either (property "b")).evaluateIn .empty).calls s' = [.property "a", .property "c"] ∧
      (either (property "b")).outcome s.respondent [] = failed ∧
      (Prod.fst <$> (either (property "b")).evaluateIn .empty).converse s'.respondent [] =
        failed ∧
      (Prod.fst <$> (either className).evaluateIn .empty).converse s.respondent [] = failed ∧
      ((both (property "b")).outcome s.respondent []).2 = [a] ∧
      ((either (property "b")).outcome s.respondent []).2 =
        ((property "c").outcome s.respondent [a]).2 ∧
      (conditional (property "a") className (property "c")).outcome s.respondent [] =
        (property "c").outcome s.respondent [a] ∧
      (conditional (either (property "b")) className (property "c")).outcome s.respondent [] =
        failed := by
  intro door s s' both either a failed
  have hcalls : ((either (property "b")).evaluateIn .empty).calls s =
      [.property "a", .property "c"] := by
    with_unfolding_all rfl
  have hfailed : (either (property "b")).outcome s.respondent [] = failed := by
    with_unfolding_all rfl
  have ha : (property "a").outcome s.respondent [] = (.ok (.bool false), [a]) := by
    with_unfolding_all rfl
  have hboth : (both (property "b")).outcome s.respondent [] = (.ok (.bool false), [a]) := by
    with_unfolding_all rfl
  obtain ⟨hsubject, hrespondent, halike, hlogical, hconditional⟩ :=
    evaluateIn_influence (either (property "b")) s.respondent
  have hanswers : ∀ q ∈ ((either (property "b")).evaluateIn .empty).calls s,
      s'.answer q = s.answer q := by
    rw [hcalls]
    simp only [List.forall_mem_cons]
    exact ⟨rfl, rfl, fun q hq ↦ absurd hq List.not_mem_nil⟩
  have hconfirms : s'.respondent.Confirms ((either (property "b")).outcome s.respondent []).2 := by
    rw [hfailed]
    refine Subject.respondent_confirms_iff.2 ?_
    simp only [failed, List.forall_mem_cons]
    exact ⟨rfl, rfl, fun x hx ↦ absurd hx List.not_mem_nil⟩
  have hleft : (either (property "b")).Alike s.respondent [] (either className) := by
    refine .logical .or (.logical .and (.refl [] _) fun b t hb hop ↦ ?_) fun _ t _ _ ↦ .refl t _
    rw [ha] at hb
    cases hb
    exact absurd rfl hop
  refine ⟨(hsubject .empty .empty s s' hanswers).1.trans hcalls, hfailed,
    (hrespondent .empty s'.respondent hconfirms).trans hfailed,
    (halike .empty _ hleft).trans hfailed, ?_, ?_, ?_, ?_⟩
  · refine (hlogical [] .and _ _ _ _ ha).2 fun b hb ↦ ?_
    cases hb
    rfl
  · have hop : false ≠ LogicalOp.or.deciding := by decide
    exact (hlogical [] .or _ _ _ _ hboth).1 false rfl hop
  · exact (hconditional [] _ _ _ _ _ ha).1 (.bool false) rfl
  · exact (hconditional [] _ _ _ _ _ hfailed).2 _ rfl

end FeatureStyle.Expr
