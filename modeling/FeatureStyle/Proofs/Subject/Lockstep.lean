import FeatureStyle.Subject.Dialogue

/-!
# Dialogues in lockstep

Two dialogues go in **lockstep** when they ask the same questions in the same order, whatever the
answers are, and end with related results. A question may be answered differently each time it comes
up, so nothing is assumed about what stands at the other end: the relation covers every subject, and
also subjects whose answers change on the way.

Lockstep is kept by sequencing (`Lockstep.bind`), and where the relation compares the images of the
results under two functions it is an equality of dialogues (`Lockstep.map_eq_map`).
-/

namespace FeatureStyle.Dialogue

variable {α β γ δ : Type}

/-- Two dialogues that ask the same questions and end with related results. -/
inductive Lockstep (R : α → β → Prop) : Dialogue α → Dialogue β → Prop
  | done {a : α} {b : β} (h : R a b) : Lockstep R (done a) (done b)
  | ask (q : Query) {x : q.Answer → Dialogue α} {y : q.Answer → Dialogue β}
      (h : ∀ answer, Lockstep R (x answer) (y answer)) : Lockstep R (ask q x) (ask q y)

namespace Lockstep

/-- A dialogue goes in lockstep with itself. -/
theorem refl {R : α → α → Prop} (h : ∀ a, R a a) (x : Dialogue α) : Lockstep R x x := by
  induction x with
  | done a => exact .done (h a)
  | ask q x ih => exact .ask q ih

theorem mono {R S : α → β → Prop} (hRS : ∀ a b, R a b → S a b) {x : Dialogue α} {y : Dialogue β}
    (h : Lockstep R x y) : Lockstep S x y := by
  induction h with
  | done hab => exact .done (hRS _ _ hab)
  | ask q _ ih => exact .ask q ih

/-- Lockstep is kept by sequencing. -/
theorem bind {R : α → β → Prop} {S : γ → δ → Prop} {x : Dialogue α} {y : Dialogue β}
    {f : α → Dialogue γ} {g : β → Dialogue δ} (h : Lockstep R x y)
    (hfg : ∀ a b, R a b → Lockstep S (f a) (g b)) : Lockstep S (x >>= f) (y >>= g) := by
  induction h with
  | done hab => exact hfg _ _ hab
  | ask q _ ih => exact .ask q ih

/-- Dialogues in lockstep whose results have the same image are equal up to that image. -/
theorem map_eq_map {f : α → γ} {g : β → γ} {x : Dialogue α} {y : Dialogue β}
    (h : Lockstep (fun a b ↦ f a = g b) x y) : f <$> x = g <$> y := by
  induction h with
  | done hab => exact congrArg Dialogue.done hab
  | ask q _ ih => exact congrArg (Dialogue.ask q) (funext ih)

end Lockstep

end FeatureStyle.Dialogue
