import FeatureStyle.Proofs.Expr.Induction

/-!
# Parts of expressions

An expression is made of its **parts**, the expressions that it holds directly, and `Within s e`
says that `s` is `e` itself or stands somewhere inside of it. What is asked of everything within an
expression is asked of the expression and of everything within its parts (`forall_within_iff`), so
that such a condition is taken apart along with the expression.
-/

namespace FeatureStyle.Expr

/-- The expressions that an expression holds directly, in the order in which they are written. -/
def parts : Expr → List Expr
  | color _ args | vector _ args | array args => args
  | unary _ operand => [operand]
  | featureMember _ key => [key]
  | logical _ left right | binary _ left right | member _ left right => [left, right]
  | ternary _ first second third | conditional first second third => [first, second, third]
  | call _ object argument => object :: argument.toList
  | regExp pattern flags => pattern :: flags.toList
  | _ => []

/-- Induction over expressions with a single case: what holds of all parts holds of the whole. -/
theorem induction_parts {motive : Expr → Prop}
    (step : ∀ e, (∀ p ∈ e.parts, motive p) → motive e) (e : Expr) : motive e := by
  induction e with
  | null | undefined | bool | number | string | global | regex | property | template | className =>
    exact step _ nofun
  | color _ _ ih | vector _ _ ih | array _ ih => exact step _ ih
  | unary _ _ ih | featureMember _ _ ih => exact step _ (List.forall_mem_singleton.2 ih)
  | logical _ _ _ ih ih' | binary _ _ _ ih ih' | member _ _ _ ih ih' =>
    exact step _ (List.forall_mem_cons.2 ⟨ih, List.forall_mem_singleton.2 ih'⟩)
  | ternary _ _ _ _ ih ih' ih'' | conditional _ _ _ ih ih' ih'' =>
    exact step _ (List.forall_mem_cons.2 ⟨ih, List.forall_mem_cons.2
      ⟨ih', List.forall_mem_singleton.2 ih''⟩⟩)
  | call _ _ _ ih ih' | regExp _ _ ih ih' =>
    exact step _ (List.forall_mem_cons.2 ⟨ih, fun p hp ↦ ih' p (Option.mem_toList.1 hp)⟩)

/-- An expression is the other one or stands inside of it. -/
inductive Within : Expr → Expr → Prop
  | refl (e : Expr) : Within e e
  | part {s p e : Expr} (hp : p ∈ e.parts) (h : Within s p) : Within s e

theorem within_iff {s e : Expr} : Within s e ↔ s = e ∨ ∃ p ∈ e.parts, Within s p := by
  constructor
  · rintro (_ | ⟨hp, h⟩)
    · exact .inl rfl
    · exact .inr ⟨_, hp, h⟩
  · rintro (rfl | ⟨p, hp, h⟩)
    · exact .refl _
    · exact .part hp h

theorem Within.trans {r s e : Expr} (hr : Within r s) (hs : Within s e) : Within r e := by
  induction hs with
  | refl => exact hr
  | part hp _ ih => exact .part hp ih

/-- What holds of everything within an expression. -/
theorem forall_within_iff {P : Expr → Prop} {e : Expr} :
    (∀ s, Within s e → P s) ↔ P e ∧ ∀ p ∈ e.parts, ∀ s, Within s p → P s := by
  constructor
  · intro h
    exact ⟨h e (.refl e), fun p hp s hs ↦ h s (.part hp hs)⟩
  · rintro ⟨hself, hparts⟩ s (_ | ⟨hp, hs⟩)
    · exact hself
    · exact hparts _ hp s hs

end FeatureStyle.Expr
