import FeatureStyle.Proofs.Eval.Machine
import Mathlib.Data.List.Forall2

/-!
# Machines that correspond

Two machines **correspond** when what is done on the one goes with what is done on the other. A
`Correspondence` says what that means: at every moment of the evaluation, which values that were put
away on either side stand for each other, and when two steps that begin at that moment go together.
What stands for each other goes on doing so, whatever is done later, and steps in sequence go
together if each of them does.

Every operation of the machines has one clause. **Then all evaluations go together**
(`Correspondence.relates_eval`), which is proved once, by induction over expressions.
-/

namespace FeatureStyle

/-- What goes together on two machines. The moments of an evaluation are told apart by a `W`. -/
structure Correspondence {m n : Type → Type} [Monad m] [Monad n] {T U : Type} (M : Machine m T)
    (N : Machine n U) (W : Type) where
  /-- Whether a moment comes after another one. -/
  Later : W → W → Prop
  /-- Whether what was put away on both sides stands for each other. -/
  Denotes : W → T → U → Prop
  /-- Whether two steps that begin at a moment go together, with results in a relation. -/
  Relates {α β : Type} (R : W → α → β → Prop) (w : W) (x : m α) (y : n β) : Prop
  denotes_later {w w' : W} {t : T} {u : U} (h : Later w w') (ht : Denotes w t u) : Denotes w' t u
  relates_pure {α β : Type} {R : W → α → β → Prop} {w : W} {a : α} {b : β} (h : R w a b) :
    Relates R w (pure a) (pure b)
  relates_bind {α β γ δ : Type} {R : W → α → β → Prop} {S : W → γ → δ → Prop} {w : W} {x : m α}
    {y : n β} {f : α → m γ} {g : β → n δ} (h : Relates R w x y)
    (hfg : ∀ w' a b, Later w w' → R w' a b → Relates S w' (f a) (g b)) :
    Relates S w (x >>= f) (y >>= g)
  relates_ask {α : Type} (w : W) (d : Dialogue α) :
    Relates (fun _ a b ↦ a = b) w (M.ask d) (N.ask d)
  relates_check {α : Type} (w : W) (r : Except EvalError α) :
    Relates (fun _ a b ↦ a = b) w (M.check r) (N.check r)
  relates_intern (w : W) (v : Value) : Relates Denotes w (M.intern v) (N.intern v)
  relates_read {w : W} {t : T} {u : U} (h : Denotes w t u) :
    Relates (fun _ v v' ↦ v = v') w (M.read t) (N.read u)
  denotes_array {w : W} {ts : List T} {us : List U} (h : List.Forall₂ (Denotes w) ts us) :
    Denotes w (M.array ts) (N.array us)
  isSlot_eq {w : W} {t : T} {u : U} (h : Denotes w t u) : M.isSlot t = N.isSlot u
  item?_rel {w : W} {t : T} {u : U} (h : Denotes w t u) (key : Value) :
    Option.Rel (Denotes w) (M.item? t key) (N.item? u key)

namespace Correspondence

variable {m n : Type → Type} [Monad m] [Monad n] {T U W : Type} {M : Machine m T} {N : Machine n U}
  (C : Correspondence M N W) {α β γ δ : Type} {S : W → γ → δ → Prop} {w : W}

/-! ### One step after another -/

/-- A step with the same result on both sides, and another one. -/
theorem bind_same {x : m α} {y : n α} {f : α → m γ} {g : α → n δ}
    (h : C.Relates (fun _ a b ↦ a = b) w x y)
    (hfg : ∀ w' a, C.Later w w' → C.Relates S w' (f a) (g a)) :
    C.Relates S w (x >>= f) (y >>= g) := by
  refine C.relates_bind h fun w' a b hlater hab ↦ ?_
  subst hab
  exact hfg w' a hlater

/-- What stands for each other is read, and another step. -/
theorem read_bind {t : T} {u : U} {f : Value → m γ} {g : Value → n δ} (h : C.Denotes w t u)
    (hfg : ∀ w' v, C.Later w w' → C.Relates S w' (f v) (g v)) :
    C.Relates S w (M.read t >>= f) (N.read u >>= g) :=
  C.bind_same (C.relates_read h) hfg

/-- An operand, read as soon as it has been evaluated. -/
theorem operand_bind {x : m T} {y : n U} {f : Value → m γ} {g : Value → n δ}
    (h : C.Relates C.Denotes w x y) (hfg : ∀ w' v, C.Relates S w' (f v) (g v)) :
    C.Relates S w (x >>= fun t ↦ M.read t >>= f) (y >>= fun u ↦ N.read u >>= g) :=
  C.relates_bind h fun _ _ _ _ ht ↦ C.read_bind ht fun w' v _ ↦ hfg w' v

/-- What the feature answers is put away. -/
theorem ask_intern (w : W) (d : Dialogue Value) :
    C.Relates C.Denotes w (M.ask d >>= M.intern) (N.ask d >>= N.intern) :=
  C.bind_same (C.relates_ask w d) fun w' v _ ↦ C.relates_intern w' v

/-- What may fail is put away if it does not. -/
theorem check_intern (w : W) (r : Except EvalError Value) :
    C.Relates C.Denotes w (M.check r >>= M.intern) (N.check r >>= N.intern) :=
  C.bind_same (C.relates_check w r) fun w' v _ ↦ C.relates_intern w' v

/-! ### Lists of operands -/

section Operands

variable {es : List Expr}

theorem relates_evalItems (h : ∀ e ∈ es, ∀ w, C.Relates C.Denotes w (M.eval e) (N.eval e)) (w : W) :
    C.Relates (fun w' ↦ List.Forall₂ (C.Denotes w')) w (M.evalItems es) (N.evalItems es) := by
  induction es generalizing w with
  | nil =>
    rw [Machine.evalItems, Machine.evalItems]
    exact C.relates_pure .nil
  | cons e es ih =>
    obtain ⟨he, hes⟩ := List.forall_mem_cons.1 h
    rw [Machine.evalItems, Machine.evalItems]
    refine C.relates_bind (he w) fun w₁ t u _ ht ↦ ?_
    refine C.relates_bind (ih hes w₁) fun w₂ ts us hlater hts ↦ ?_
    -- The first item has been held while the others were evaluated.
    exact C.relates_pure (.cons (C.denotes_later hlater ht) hts)

theorem relates_evalChannels (h : ∀ e ∈ es, ∀ w, C.Relates C.Denotes w (M.eval e) (N.eval e))
    (k : Nat) (w : W) :
    C.Relates (fun _ xs ys ↦ xs = ys) w (M.evalChannels k es) (N.evalChannels k es) := by
  induction es generalizing k w with
  | nil =>
    rw [Machine.evalChannels, Machine.evalChannels]
    exact C.relates_pure rfl
  | cons e es ih =>
    obtain ⟨he, hes⟩ := List.forall_mem_cons.1 h
    cases k with
    | zero =>
      -- Arguments behind the fourth are not evaluated.
      rw [Machine.evalChannels, Machine.evalChannels]
      · exact C.relates_pure rfl
      all_goals simp
    | succ k =>
      rw [Machine.evalChannels, Machine.evalChannels]
      refine C.operand_bind (he w) fun w₁ v ↦ ?_
      exact C.bind_same (ih hes k w₁) fun w₂ xs _ ↦ C.relates_pure rfl

theorem relates_evalComponents (h : ∀ e ∈ es, ∀ w, C.Relates C.Denotes w (M.eval e) (N.eval e))
    (size : VectorSize) (w : W) :
    C.Relates (fun _ xs ys ↦ xs = ys) w (M.evalComponents size es) (N.evalComponents size es) := by
  induction es generalizing w with
  | nil =>
    rw [Machine.evalComponents, Machine.evalComponents]
    exact C.relates_pure rfl
  | cons e es ih =>
    obtain ⟨he, hes⟩ := List.forall_mem_cons.1 h
    rw [Machine.evalComponents, Machine.evalComponents]
    refine C.operand_bind (he w) fun w₁ v ↦ ?_
    refine C.bind_same (C.relates_check w₁ _) fun w₂ components _ ↦ ?_
    exact C.bind_same (ih hes w₂) fun w₃ more _ ↦ C.relates_pure rfl

end Operands

/-! ### Expressions -/

/-- **Evaluations on machines that correspond go together.** -/
theorem relates_eval (e : Expr) (w : W) : C.Relates C.Denotes w (M.eval e) (N.eval e) := by
  induction e generalizing w with
  | null | undefined | bool _ | number _ | string _ | regex _ =>
    rw [Machine.eval, Machine.eval]
    exact C.relates_intern w _
  | global _ | property _ | className =>
    rw [Machine.eval, Machine.eval]
    exact C.ask_intern w _
  | template text =>
    rw [Machine.eval, Machine.eval]
    exact C.bind_same (C.relates_ask w _) fun w₁ s _ ↦ C.relates_intern w₁ _
  | color fn args ih =>
    rcases fn with _ | f
    · rcases args with _ | ⟨css, rest⟩
      · rw [Machine.eval, Machine.eval]
        exact C.relates_intern w _
      · rw [Machine.eval, Machine.eval]
        refine C.operand_bind (ih css List.mem_cons_self w) fun w₁ v ↦ ?_
        refine C.bind_same (C.relates_check w₁ _) fun w₂ c _ ↦ ?_
        rcases rest with _ | ⟨alpha, _⟩
        · exact C.relates_intern w₂ _
        · have halpha := ih alpha (List.mem_cons_of_mem css List.mem_cons_self) w₂
          exact C.operand_bind halpha fun w₃ a ↦ C.relates_intern w₃ _
    · rw [Machine.eval, Machine.eval]
      exact C.bind_same (C.relates_evalChannels ih 4 w) fun w₁ channels _ ↦ C.relates_intern w₁ _
  | vector size args ih =>
    rw [Machine.eval, Machine.eval]
    refine C.bind_same (C.relates_evalComponents ih size w) fun w₁ components _ ↦ ?_
    exact C.bind_same (C.relates_check w₁ _) fun w₂ c _ ↦ C.relates_intern w₂ _
  | unary op operand ih =>
    rw [Machine.eval, Machine.eval]
    refine C.relates_bind (ih w) fun w₁ t u _ ht ↦ ?_
    rw [C.isSlot_eq ht]
    split
    · exact C.relates_pure ht
    · exact C.read_bind ht fun w₂ v _ ↦ C.ask_intern w₂ _
  | logical op left right ihl ihr =>
    rw [Machine.eval, Machine.eval]
    refine C.operand_bind (ihl w) fun w₁ v ↦ ?_
    refine C.bind_same (C.relates_check w₁ _) fun w₂ l _ ↦ ?_
    split
    · exact C.relates_intern w₂ _
    · refine C.operand_bind (ihr w₂) fun w₃ v' ↦ ?_
      exact C.bind_same (C.relates_check w₃ _) fun w₄ r _ ↦ C.relates_intern w₄ _
  | binary op left right ihl ihr =>
    rw [Machine.eval, Machine.eval]
    refine C.relates_bind (ihl w) fun w₁ t u _ ht ↦ ?_
    refine C.relates_bind (ihr w₁) fun w₂ t' u' h₂ ht' ↦ ?_
    refine C.read_bind (C.denotes_later h₂ ht) fun w₃ v h₃ ↦ ?_
    exact C.read_bind (C.denotes_later h₃ ht') fun w₄ v' _ ↦ C.relates_intern w₄ _
  | ternary fn first second third ih₁ ih₂ ih₃ =>
    rw [Machine.eval, Machine.eval]
    refine C.relates_bind (ih₁ w) fun w₁ t₁ u₁ _ ht₁ ↦ ?_
    refine C.relates_bind (ih₂ w₁) fun w₂ t₂ u₂ h₂ ht₂ ↦ ?_
    refine C.relates_bind (ih₃ w₂) fun w₃ t₃ u₃ h₃ ht₃ ↦ ?_
    have ht₁ := C.denotes_later h₃ (C.denotes_later h₂ ht₁)
    refine C.read_bind ht₁ fun w₄ v₁ h₄ ↦ ?_
    have ht₂ := C.denotes_later h₄ (C.denotes_later h₃ ht₂)
    refine C.read_bind ht₂ fun w₅ v₂ h₅ ↦ ?_
    have ht₃ := C.denotes_later h₅ (C.denotes_later h₄ ht₃)
    exact C.read_bind ht₃ fun w₆ v₃ _ ↦ C.relates_intern w₆ _
  | conditional test consequent alternate iht ihc iha =>
    rw [Machine.eval, Machine.eval]
    refine C.operand_bind (iht w) fun w₁ v ↦ ?_
    split
    · exact ihc w₁
    · exact iha w₁
  | featureMember access key ih =>
    rw [Machine.eval, Machine.eval]
    exact C.operand_bind (ih w) fun w₁ k ↦ C.ask_intern w₁ _
  | member access object key iho ihk =>
    rw [Machine.eval, Machine.eval]
    refine C.relates_bind (ihk w) fun w₁ tk uk _ htk ↦ ?_
    refine C.relates_bind (iho w₁) fun w₂ t u h₂ ht ↦ ?_
    refine C.read_bind (C.denotes_later h₂ htk) fun w₃ k h₃ ↦ ?_
    have ht := C.denotes_later h₃ ht
    have hitem := C.item?_rel ht k
    revert hitem
    generalize M.item? t k = item
    generalize N.item? u k = item'
    rintro (hitem | _)
    · exact C.relates_pure hitem
    · exact C.read_bind ht fun w₄ v _ ↦ C.relates_intern w₄ _
  | array items ih =>
    rw [Machine.eval, Machine.eval]
    refine C.relates_bind (C.relates_evalItems ih w) fun w₁ ts us _ hts ↦ ?_
    exact C.relates_pure (C.denotes_array hts)
  | call method object argument iho iha =>
    rcases method with _ | s
    · rw [Machine.eval, Machine.eval]
      refine C.operand_bind (iho w) fun w₁ v ↦ ?_
      exact C.bind_same (C.relates_check w₁ _) fun w₂ s _ ↦ C.relates_intern w₂ _
    · rw [Machine.eval, Machine.eval]
      refine C.operand_bind (iho w) fun w₁ v ↦ ?_
      refine C.bind_same (C.relates_check w₁ _) fun w₂ p _ ↦ ?_
      rcases argument with _ | a
      · exact C.relates_intern w₂ _
      · exact C.operand_bind (iha a rfl w₂) fun w₃ v' ↦ C.relates_intern w₃ _
  | regExp pattern flags ihp ihf =>
    rw [Machine.eval, Machine.eval]
    refine C.relates_bind (ihp w) fun w₁ t u _ ht ↦ ?_
    rcases flags with _ | f
    · exact C.read_bind ht fun w₂ v _ ↦ C.check_intern w₂ _
    · refine C.relates_bind (ihf f rfl w₁) fun w₂ t' u' h₂ ht' ↦ ?_
      refine C.read_bind (C.denotes_later h₂ ht) fun w₃ v h₃ ↦ ?_
      exact C.read_bind (C.denotes_later h₃ ht') fun w₄ v' _ ↦ C.check_intern w₄ _

/-- And so do whole evaluations, with the same value. -/
theorem relates_evaluate (e : Expr) (w : W) :
    C.Relates (fun _ v v' ↦ v = v') w (M.evaluate e) (N.evaluate e) :=
  C.relates_bind (C.relates_eval e w) fun _ _ _ _ ht ↦ C.relates_read ht

/-- Those of colours too. -/
theorem relates_evaluateColor (e : Expr) (w : W) :
    C.Relates (fun _ c c' ↦ c = c') w (M.evaluateColor e) (N.evaluateColor e) :=
  C.bind_same (C.relates_evaluate e w) fun w' v _ ↦ C.relates_check w' v.expectColor

end Correspondence

end FeatureStyle
