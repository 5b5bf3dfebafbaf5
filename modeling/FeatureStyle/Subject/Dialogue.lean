import FeatureStyle.Value.Basic

/-!
# Questions to a feature

An expression learns about the feature it is evaluated against only by asking. There are five kinds
of `Query`, and a computation that asks them is a `Dialogue`: a result, or a question together with
what happens next for every possible answer.

A `Subject` answers every question by a fixed rule. `Dialogue.run` gives the result of a dialogue
with a subject and `Dialogue.calls` the questions it asks on the way, in order. A subject whose
answers have effects of their own is a monadic handler instead, and `Dialogue.runM` runs a dialogue
with it.
-/

namespace FeatureStyle

/-- A question about a feature. -/
inductive Query
  /-- What is the property of this name? -/
  | property (name : String)
  /-- Is the feature of this class? -/
  | isClass (name : String)
  /-- Is the feature of exactly this class? -/
  | isExactClass (name : String)
  /-- What is the name of the class that the feature is exactly of? -/
  | exactClassName
  /-- How many seconds have passed since the feature was loaded? -/
  | timeSinceLoad
  deriving DecidableEq, Repr

/-- The answers to a question. An absent property and a missing class name have none. -/
abbrev Query.Answer : Query → Type
  | .property _ => Option Value
  | .isClass _ => Bool
  | .isExactClass _ => Bool
  | .exactClassName => Option String
  | .timeSinceLoad => Float

/-- What answers questions about a feature. -/
structure Subject where
  property : String → Option Value
  isClass : String → Bool
  isExactClass : String → Bool
  exactClassName : Option String
  timeSinceLoad : Float

namespace Subject

/-- The answer to a question. -/
def answer (s : Subject) : (q : Query) → q.Answer
  | .property name => s.property name
  | .isClass name => s.isClass name
  | .isExactClass name => s.isExactClass name
  | .exactClassName => s.exactClassName
  | .timeSinceLoad => s.timeSinceLoad

/-- The subject that has properties and nothing else: it is of no class and no time has passed. -/
def ofProperty (property : String → Option Value) : Subject where
  property := property
  isClass _ := false
  isExactClass _ := false
  exactClassName := none
  timeSinceLoad := 0

end Subject

/-- A computation that asks questions. -/
inductive Dialogue (α : Type) : Type
  | done (a : α)
  | ask (q : Query) (resume : q.Answer → Dialogue α)

namespace Dialogue

variable {α β : Type}

/-- One dialogue after another. -/
protected def bind : Dialogue α → (α → Dialogue β) → Dialogue β
  | done a, f => f a
  | ask q resume, f => ask q fun answer ↦ (resume answer).bind f

instance : Monad Dialogue where
  pure := done
  bind := Dialogue.bind

/-- The dialogue that asks one question and gives its answer. -/
def query (q : Query) : Dialogue q.Answer := ask q done

/-- The result of a dialogue with a subject. -/
def run (s : Subject) : Dialogue α → α
  | done a => a
  | ask q resume => (resume (s.answer q)).run s

/-- The questions that a dialogue with a subject asks, in order. -/
def calls (s : Subject) : Dialogue α → List Query
  | done _ => []
  | ask q resume => q :: (resume (s.answer q)).calls s

/-- A dialogue with something whose answers have effects. -/
def runM {m : Type → Type} [Monad m] (answer : (q : Query) → m q.Answer) : Dialogue α → m α
  | done a => pure a
  | ask q resume => do
    let a ← answer q
    (resume a).runM answer

/-! ### Dialogues in sequence -/

@[simp] theorem pure_def (a : α) : (pure a : Dialogue α) = done a := rfl

@[simp] theorem bind_done (a : α) (f : α → Dialogue β) : (done a >>= f) = f a := rfl

/-- What goes on behind a question is passed down to its answers. -/
@[simp] theorem bind_ask (q : Query) (resume : q.Answer → Dialogue α) (f : α → Dialogue β) :
    (ask q resume >>= f) = ask q fun answer ↦ resume answer >>= f := rfl

theorem bind_assoc {γ : Type} (d : Dialogue α) (f : α → Dialogue β) (g : β → Dialogue γ) :
    ((d >>= f) >>= g) = d >>= fun a ↦ f a >>= g := by
  induction d with
  | done a => rfl
  | ask q resume ih => simp only [bind_ask, ih]

theorem bind_pure (d : Dialogue α) : (d >>= pure) = d := by
  induction d with
  | done a => rfl
  | ask q resume ih =>
    rw [bind_ask]
    exact congrArg (ask q) (funext ih)

instance : LawfulMonad Dialogue :=
  LawfulMonad.mk' _ bind_pure (fun _ _ ↦ rfl) bind_assoc

/-- Two dialogues are held with one subject after the other. -/
@[simp] theorem run_bind (s : Subject) (d : Dialogue α) (f : α → Dialogue β) :
    (d >>= f).run s = (f (d.run s)).run s := by
  induction d with
  | done a => rfl
  | ask q resume ih => exact ih (s.answer q)

@[simp] theorem run_map (s : Subject) (f : α → β) (d : Dialogue α) :
    (f <$> d).run s = f (d.run s) := by
  rw [← bind_pure_comp, run_bind]
  rfl

/-- The second one asks what it does for the value of the first. -/
@[simp] theorem calls_bind (s : Subject) (d : Dialogue α) (f : α → Dialogue β) :
    (d >>= f).calls s = d.calls s ++ (f (d.run s)).calls s := by
  induction d with
  | done a => rfl
  | ask q resume ih => exact congrArg (q :: ·) (ih (s.answer q))

theorem calls_map (s : Subject) (f : α → β) (d : Dialogue α) : (f <$> d).calls s = d.calls s := by
  rw [← bind_pure_comp, calls_bind]
  exact List.append_nil _

end Dialogue

end FeatureStyle
