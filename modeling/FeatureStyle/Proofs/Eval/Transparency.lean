import FeatureStyle.Proofs.Eval.Simulation
import FeatureStyle.Proofs.Expr.Induction

/-!
# The scratch pool is transparent

An expression is **transparent** when, from every pool, evaluating it with the pool simulates
evaluating it without one. The term it ends with denotes the value, in a pool that extends the one
before; so terms that are held while a sibling is evaluated denote the same value afterwards, and a
text that is made of a term is the text of the value.

Every expression is transparent (`Expr.transparent`). There is one lemma for each construct, whose
hypotheses are the transparency of its operands, and induction over expressions puts them together.
For a whole evaluation, which empties the pool first, this says that the pool has no influence on
the result (`evaluateIn_transparent`).
-/

namespace FeatureStyle.Expr

open PooledEvaluation

-- Every proof below opens the two evaluations; their equations are made here, once for all of them.
attribute [local simp] eval evalPooled

/-- With a pool, whatever is in it, the expression is evaluated to what it means. -/
def Transparent (e : Expr) : Prop :=
  ∀ before : ScratchPool, Simulates Term.Denotes before e.evalPooled e.eval

variable {before : ScratchPool}

/-! ### Lists of operands -/

/-- **Operands that are transparent can be held one beside the other**: the terms of the first ones
keep what they denote while the others are evaluated. -/
theorem simulates_items {es : List Expr} (h : ∀ e ∈ es, e.Transparent) :
    Simulates Term.DenotesItems before (evalPooledItems es) (evalItems es) := by
  induction es generalizing before with
  | nil =>
    rw [evalPooledItems, evalItems]
    exact simulates_pure (Term.denotesItems_nil.2 rfl)
  | cons e es ih =>
    rw [evalPooledItems, evalItems]
    obtain ⟨he, hes⟩ := List.forall_mem_cons.1 h
    refine (he before).bind fun after t v _ ht ↦ ?_
    refine (ih hes).bind fun after' ts vs hext hts ↦ ?_
    -- The first term was held while the others were evaluated.
    exact simulates_pure (Term.denotesItems_cons.2 ⟨v, vs, rfl, ht.extend hext, hts⟩)

/-- Channels are turned into numbers at once, so nothing is held. -/
theorem simulates_channels {es : List Expr} (h : ∀ e ∈ es, e.Transparent) (n : Nat) :
    Simulates Same before (evalPooledChannels n es) (evalChannels n es) := by
  induction es generalizing before n with
  | nil =>
    rw [evalPooledChannels, evalChannels]
    exact simulates_pure rfl
  | cons e es ih =>
    obtain ⟨he, hes⟩ := List.forall_mem_cons.1 h
    cases n with
    | zero =>
      -- Arguments behind the fourth are not evaluated.
      rw [evalPooledChannels, evalChannels]
      · exact simulates_pure rfl
      all_goals simp
    | succ n =>
      rw [evalPooledChannels, evalChannels]
      refine (he before).read_bind fun after v _ ↦ ?_
      refine (ih hes n).bind fun after' xs ys _ hxs ↦ ?_
      exact simulates_pure (congrArg (v.toNumber :: ·) hxs)

/-- Components are copied out of the pool as they come. -/
theorem simulates_components {es : List Expr} (h : ∀ e ∈ es, e.Transparent) (size : VectorSize) :
    Simulates Same before (evalPooledComponents size es) (evalComponents size es) := by
  induction es generalizing before with
  | nil =>
    rw [evalPooledComponents, evalComponents]
    exact simulates_pure rfl
  | cons e es ih =>
    rw [evalPooledComponents, evalComponents]
    obtain ⟨he, hes⟩ := List.forall_mem_cons.1 h
    refine (he before).read_bind fun after v _ ↦ ?_
    refine (simulates_ofExcept (v.components size)).bind fun after' xs ys _ hxs ↦ ?_
    subst hxs
    refine (ih hes).bind fun after'' zs ws _ hzs ↦ ?_
    exact simulates_pure (congrArg (xs ++ ·) hzs)

/-! ### Properties, constructors and texts -/

/-- What the feature answers goes into the pool. -/
theorem simulates_ask (d : Dialogue Value) :
    Simulates Term.Denotes before (liftM d >>= intern) (liftM d) := by
  refine .of_bind_pure ((simulates_lift d).bind fun after v w _ hvw ↦ ?_)
  subst hvw
  exact simulates_intern v

/-- What may fail goes into the pool if it does not. -/
theorem simulates_check (r : Except EvalError Value) :
    Simulates Term.Denotes before (ofExcept r >>= intern) (liftM r) := by
  refine .of_bind_pure ((simulates_ofExcept r).bind fun after v w _ hvw ↦ ?_)
  subst hvw
  exact simulates_intern v

/-- A colour is put into a slot when its channels are numbers, and no term is held. -/
theorem transparent_color (fn : ColorFn) {args : List Expr} (h : ∀ e ∈ args, e.Transparent) :
    (color fn args).Transparent := by
  intro before
  match fn, args with
  | .channels f, args =>
    rw [evalPooled, eval]
    refine (simulates_channels h 4).bind fun after xs ys _ hxs ↦ ?_
    subst hxs
    exact simulates_intern _
  | .css, [] =>
    rw [evalPooled, eval]
    exact simulates_intern _
  | .css, css :: rest =>
    rw [evalPooled, eval]
    obtain ⟨hcss, hrest⟩ := List.forall_mem_cons.1 h
    refine (hcss before).read_bind fun after v _ ↦ ?_
    refine (simulates_ofExcept v.cssColor).bind fun after' c c' _ hc ↦ ?_
    subst hc
    match rest with
    | [] => exact simulates_intern _
    | alpha :: _ =>
      exact (hrest alpha List.mem_cons_self after').read_bind fun after'' a _ ↦ simulates_intern _

/-- So is a vector, when its components are. -/
theorem transparent_vector (size : VectorSize) {args : List Expr}
    (h : ∀ e ∈ args, e.Transparent) : (vector size args).Transparent := by
  intro before
  rw [evalPooled, eval]
  refine (simulates_components h size).bind fun after xs ys _ hxs ↦ ?_
  subst hxs
  refine (simulates_ofExcept (size.ofComponents args.length xs)).bind fun after' c c' _ hc ↦ ?_
  subst hc
  exact simulates_intern _

/-- A template asks for texts and uses no slots. -/
theorem transparent_template (text : String) : (template text).Transparent := by
  intro before
  rw [evalPooled, eval]
  exact (simulates_lift (Template.fill text)).bind fun after s s' _ hs ↦
    simulates_pure (congrArg (some ∘ Value.string) hs)

/-! ### Operators -/

/-- The positive sign may give back the term itself. Every other operator makes a value of its own.
-/
theorem transparent_unary (op : UnaryOp) {operand : Expr} (h : operand.Transparent) :
    (unary op operand).Transparent := by
  intro before
  rw [evalPooled, eval]
  refine (h before).bind fun after t v _ ht ↦ ?_
  by_cases hop : op = .positive ∧ t.isSlot
  · -- The slot is handed on, and the value is the operand's own.
    obtain ⟨rfl, hslot⟩ := hop
    rw [if_pos ⟨rfl, hslot⟩, UnaryOp.apply, ht.positive_eq hslot]
    exact simulates_pure ht
  · rw [if_neg hop]
    exact .valueOf_bind ht (simulates_ask (op.apply v))

/-- The right side is evaluated in the pool that the left side has left, if it is evaluated. -/
theorem transparent_logical (op : LogicalOp) {left right : Expr} (hleft : left.Transparent)
    (hright : right.Transparent) : (logical op left right).Transparent := by
  intro before
  rw [evalPooled, eval]
  refine (hleft before).read_bind fun after v _ ↦ ?_
  refine (simulates_ofExcept (v.expectBool op)).bind fun after' l l' _ hl ↦ ?_
  subst hl
  -- If the left operand decides, the right one is not evaluated on either side.
  split
  · exact simulates_pure rfl
  · refine (hright after').read_bind fun after'' w _ ↦ ?_
    exact (simulates_ofExcept (w.expectBool op)).bind fun _ r r' _ hr ↦
      simulates_pure (congrArg (some ∘ Value.bool) hr)

/-- The left term is held while the right side is evaluated. -/
theorem transparent_binary (op : BinaryOp) {left right : Expr} (hleft : left.Transparent)
    (hright : right.Transparent) : (binary op left right).Transparent := by
  intro before
  rw [evalPooled, eval]
  refine (hleft before).bind fun after t v _ ht ↦ ?_
  refine (hright after).bind fun after' u w hext hu ↦ ?_
  -- The left operand was held while the right one was evaluated.
  exact .valueOf_bind (ht.extend hext) (.valueOf_bind hu (simulates_intern _))

/-- Two terms are held while the third is evaluated. -/
theorem transparent_ternary (fn : TernaryFn) {first second third : Expr}
    (hfirst : first.Transparent) (hsecond : second.Transparent) (hthird : third.Transparent) :
    (ternary fn first second third).Transparent := by
  intro before
  rw [evalPooled, eval]
  refine (hfirst before).bind fun after₁ t₁ v₁ _ ht₁ ↦ ?_
  refine (hsecond after₁).bind fun after₂ t₂ v₂ hext₂ ht₂ ↦ ?_
  refine (hthird after₂).bind fun after₃ t₃ v₃ hext₃ ht₃ ↦ ?_
  refine .valueOf_bind ((ht₁.extend hext₂).extend hext₃) ?_
  exact .valueOf_bind (ht₂.extend hext₃) (.valueOf_bind ht₃ (simulates_pure rfl))

/-- So is the branch in the pool that the test has left. -/
theorem transparent_conditional {test consequent alternate : Expr} (htest : test.Transparent)
    (hconsequent : consequent.Transparent) (halternate : alternate.Transparent) :
    (conditional test consequent alternate).Transparent := by
  intro before
  rw [evalPooled, eval]
  refine (htest before).read_bind fun after v _ ↦ ?_
  split
  · exact hconsequent after
  · exact halternate after

/-! ### Members, arrays and methods -/

/-- The name of the property is the text of a value, not a term. -/
theorem transparent_featureMember (access : MemberAccess) {key : Expr} (h : key.Transparent) :
    (featureMember access key).Transparent := by
  intro before
  rw [evalPooled, eval]
  exact (h before).read_bind fun after k _ ↦ simulates_ask (askProperty k.text)

/-- The term of the key is held while the object is evaluated, and an item of an array is given back
as the term it is. -/
theorem transparent_member (access : MemberAccess) {object key : Expr}
    (hobject : object.Transparent) (hkey : key.Transparent) :
    (member access object key).Transparent := by
  intro before
  rw [evalPooled, eval]
  refine (hkey before).bind fun after t k _ ht ↦ ?_
  refine (hobject after).bind fun after' o v hext ho ↦ ?_
  refine .valueOf_bind (ht.extend hext) ?_
  split
  · rename_i t' ht'
    exact simulates_pure (ho.item? ht')
  · exact .valueOf_bind ho (simulates_intern _)

/-- The items of an array are terms, which it holds. -/
theorem transparent_array {items : List Expr} (h : ∀ e ∈ items, e.Transparent) :
    (array items).Transparent := by
  intro before
  rw [evalPooled, eval, map_eq_pure_bind]
  exact (simulates_items h).bind fun after ts vs _ hts ↦
    simulates_pure (Term.denotes_array.2 ⟨vs, rfl, hts⟩)

/-- The object of a method is turned into its value before the argument is evaluated. -/
theorem transparent_call (method : Method) {object : Expr} {argument : Option Expr}
    (hobject : object.Transparent) (hargument : ∀ e ∈ argument, e.Transparent) :
    (call method object argument).Transparent := by
  intro before
  cases method with
  | toString =>
    rw [evalPooled, eval]
    refine (hobject before).read_bind fun after o _ ↦ ?_
    exact (simulates_ofExcept o.methodText).bind fun _ s s' _ hs ↦
      simulates_pure (congrArg (some ∘ Value.string) hs)
  | search m =>
    rw [evalPooled, eval]
    refine (hobject before).read_bind fun after o _ ↦ ?_
    refine (simulates_ofExcept (o.expectRegex m)).bind fun after' p p' _ hp ↦ ?_
    subst hp
    cases argument with
    | none => exact simulates_intern _
    | some a => exact (hargument a rfl after').read_bind fun _ v _ ↦ simulates_intern _

/-- The term of the pattern is held while the flags are evaluated. -/
theorem transparent_regExp {pattern : Expr} {flags : Option Expr} (hpattern : pattern.Transparent)
    (hflags : ∀ e ∈ flags, e.Transparent) : (regExp pattern flags).Transparent := by
  intro before
  rw [evalPooled, eval]
  refine (hpattern before).bind fun after t v _ ht ↦ ?_
  cases flags with
  | none => exact .valueOf_bind ht (simulates_check _)
  | some f =>
    refine (hflags f rfl after).bind fun after' u w hext hu ↦ ?_
    exact .valueOf_bind (ht.extend hext) (.valueOf_bind hu (simulates_check _))

/-! ### Whole expressions -/

/-- **Every expression is transparent.** -/
theorem transparent (e : Expr) : e.Transparent := by
  induction e with
  | null | undefined | bool _ | number _ | string _ | regex _ =>
    intro before
    rw [evalPooled, eval]
    exact simulates_pure rfl
  | global g | property name | className =>
    intro before
    rw [evalPooled, eval]
    exact simulates_ask _
  | template text => exact transparent_template text
  | color fn args ih => exact transparent_color fn ih
  | vector size args ih => exact transparent_vector size ih
  | unary op operand ih => exact transparent_unary op ih
  | logical op left right ihl ihr => exact transparent_logical op ihl ihr
  | binary op left right ihl ihr => exact transparent_binary op ihl ihr
  | ternary fn first second third ih₁ ih₂ ih₃ => exact transparent_ternary fn ih₁ ih₂ ih₃
  | conditional test consequent alternate iht ihc iha => exact transparent_conditional iht ihc iha
  | featureMember access key ih => exact transparent_featureMember access ih
  | member access object key iho ihk => exact transparent_member access iho ihk
  | array items ih => exact transparent_array ih
  | call method object argument iho iha => exact transparent_call method iho iha
  | regExp pattern flags ihp ihf => exact transparent_regExp ihp ihf

/-- Reading the final term back gives the value. -/
theorem simulates_evaluation (e : Expr) (before : ScratchPool) :
    Simulates Same before (e.evalPooled >>= valueOf) e.eval := by
  refine .of_bind_pure ((e.transparent before).bind fun after t v _ ht ↦ ?_)
  rw [Simulates, run_valueOf ht]
  exact .done ⟨.refl after, rfl⟩

/-- An evaluation with a pool asks and gives what the one without does. -/
theorem fst_evaluateIn (e : Expr) (pool : ScratchPool) :
    Prod.fst <$> e.evaluateIn pool = Except.mapError Stop.error <$> e.eval.run := by
  refine Dialogue.Lockstep.map_eq_map ((simulates_evaluation e pool.reset).mono fun a b hab ↦ ?_)
  match a, b, hab with
  | (.ok _, _), .ok _, ⟨_, rfl⟩ => rfl
  | (.error (.error _), _), .error _, ⟨_, rfl⟩ => rfl

/-- The outcome of an evaluation with a pool, whatever the feature answers. -/
theorem fst_run_evaluateIn (e : Expr) (pool : ScratchPool) (s : Subject) :
    ((e.evaluateIn pool).run s).1 = (e.eval.run.run s).mapError Stop.error := by
  have h := congrArg (Dialogue.run s) (e.fst_evaluateIn pool)
  rwa [Dialogue.run_map, Dialogue.run_map] at h

/-- **The pool is transparent.** From whatever pool an evaluation starts, and whatever the feature
answers on the way:

* it asks what the evaluation without a pool asks, and has the same value or the same error. It is
  never stopped by a slot that is not live, so every slot that it reads is of its own generation and
  filled, and no blank is read in place of one;
* no slot is live when it begins, so every live slot was stored by this evaluation;
* each part of it, from whatever pool that part starts, ends in a pool that extends this one, so
  that no live slot is overwritten and terms that are held keep their values and texts, and the
  part's own term denotes its value. -/
theorem evaluateIn_transparent (e : Expr) (pool : ScratchPool) :
    Prod.fst <$> e.evaluateIn pool = Except.mapError Stop.error <$> e.eval.run ∧
      (∀ {l : Lane} (s : Slot l), pool.reset.live? s = none) ∧
      ∀ before : ScratchPool, Simulates Term.Denotes before e.evalPooled e.eval :=
  ⟨fst_evaluateIn e pool, pool.live?_reset, e.transparent⟩

end FeatureStyle.Expr
