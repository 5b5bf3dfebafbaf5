import FeatureStyle.Proofs.Expr.Induction
import FeatureStyle.Shader.Emit

/-!
# What writing shader code gives

Writing code keeps a flag, but it never looks at it. So what is written does not depend on the flag
that it is started with, and the flag afterwards is the one before or one that is raised in any
case: the writing is **steady**. `Emission.result` is then all that has to be known about a text,
and it is put together from the results of the parts as if there were no flag at all
(`result_bind`).

**The code of every expression is written steadily** (`steady_emit`).
-/

namespace FeatureStyle

namespace Emission

variable {α β : Type}

/-- What is written, started without the flag. -/
def result (m : Emission α) : Except ShaderUnsupported α := (m.run.run ⟨false⟩).1

/-- Whether the flag is raised, started without it. -/
def raises (m : Emission α) : Bool := (m.run.run ⟨false⟩).2.translucent

/-- The writing does not depend on the flag, and raises it in any case or in none. -/
def Steady (m : Emission α) : Prop :=
  ∀ before, m.run.run before = (m.result, ⟨before.translucent || m.raises⟩)

/-! ### Steps -/

/-- What goes on with a text starts with the flag as it has been left. -/
theorem run_bind (m : Emission α) (f : α → Emission β) (before : ShaderState) :
    (m >>= f).run.run before =
      match m.run.run before with
      | (.ok a, after) => (f a).run.run after
      | (.error e, after) => (.error e, after) := by
  rw [ExceptT.run_bind, StateT.run_bind]
  change (match m.run.run before with | (r, after) => _) = _
  rcases m.run.run before with ⟨_ | _, _⟩ <;> rfl

/-- What is written already is steady. -/
theorem steady_pure (a : α) : Steady (pure a : Emission α) := fun before ↦ by
  rw [raises, result]
  exact Prod.ext rfl (congrArg ShaderState.mk (Bool.or_false _).symm)

/-- So is a refusal, which leaves the flag alone. -/
theorem steady_throw (e : ShaderUnsupported) : Steady (throw e : Emission α) := fun before ↦ by
  rw [raises, result]
  exact Prod.ext rfl (congrArg ShaderState.mk (Bool.or_false _).symm)

/-- So is the raising of the flag itself. -/
theorem steady_markTranslucent : Steady Shader.markTranslucent := fun before ↦ by
  rw [raises, result]
  exact Prod.ext rfl (congrArg ShaderState.mk (Bool.or_true _).symm)

/-- Which of two steady writings is taken may depend on anything but the flag. -/
theorem steady_ite {c : Prop} [Decidable c] {m n : Emission α} (hm : m.Steady) (hn : n.Steady) :
    (if c then m else n).Steady := by
  split
  · exact hm
  · exact hn

/-- Results are put together as if there were no flag. -/
theorem result_bind {m : Emission α} {f : α → Emission β} (hf : ∀ a, (f a).Steady) :
    (m >>= f).result = m.result >>= fun a ↦ (f a).result := by
  rw [result, run_bind, result]
  rcases m.run.run ⟨false⟩ with ⟨e | a, after⟩
  · rfl
  · have hsteady := congrArg Prod.fst (hf a after)
    exact hsteady

/-- **Steady writings can be put one behind the other.** -/
theorem steady_bind {m : Emission α} {f : α → Emission β} (hm : m.Steady)
    (hf : ∀ a, (f a).Steady) : (m >>= f).Steady := by
  intro before
  rw [run_bind, result, raises, run_bind, hm before, hm ⟨false⟩]
  rcases m.result with e | a
  · simp
  · simp only [hf a ⟨_⟩, Bool.false_or, Bool.or_assoc]

/-! ### Values -/

/-- What is written, if it can be. -/
def value? (m : Emission α) : Option α := m.result.toOption

theorem value?_pure (a : α) : (pure a : Emission α).value? = some a := rfl

theorem value?_throw (e : ShaderUnsupported) : (throw e : Emission α).value? = none := rfl

/-- So a writing of two steps has a text if both have one. -/
theorem value?_bind {m : Emission α} {f : α → Emission β} (hf : ∀ a, (f a).Steady) :
    (m >>= f).value? = m.value? >>= fun a ↦ (f a).value? := by
  rw [value?, result_bind hf, value?]
  cases m.result <;> rfl

/-- What is done with a text does not change whether there is one. -/
theorem value?_bind_pure {m : Emission α} {f : α → β} :
    (m >>= fun a ↦ pure (f a)).value? = m.value?.map f := by
  rw [value?_bind fun _ ↦ steady_pure _]
  cases m.value? <;> rfl

end Emission

open Emission

/-! ### Colours -/

namespace Shader

/-- Looking at an alpha is steady: it raises the flag for the text that it has. -/
theorem steady_markAlpha (alpha : String) : (markAlpha alpha).Steady := by
  rw [markAlpha]
  split
  · exact steady_pure ()
  · exact steady_markTranslucent

/-- A text in the notation of style sheets is written or refused, whatever the flag is. -/
theorem steady_cssText (text : String) : (cssText text).Steady := by
  rw [cssText]
  split
  · exact steady_pure _
  · exact steady_throw _

/-- So is a colour in this notation. -/
theorem steady_cssColorText (color : String) (rest : List String) :
    (cssColorText color rest).Steady := by
  cases rest with
  | nil => exact steady_pure _
  | cons alpha rest => exact steady_bind (steady_markAlpha alpha) fun _ ↦ steady_pure _

/-- A colour of red, green and blue is steady: the flag is raised for its arguments alone. -/
theorem steady_rgbText (hasAlpha : Bool) (args : List Expr) (channels : List String) :
    (rgbText hasAlpha args channels).Steady := by
  have hmark {text : String} : Emission.Steady (do
      if hasAlpha then markAlpha (channels.getD 3 fullAlpha)
      pure text) :=
    steady_ite (steady_bind (steady_markAlpha _) fun _ ↦ steady_pure _) (steady_pure _)
  rw [rgbText]
  cases constantChannels? args with
  | none => exact hmark
  | some constants => exact hmark

/-- So is one of hue, saturation and lightness. -/
theorem steady_hslText (hasAlpha : Bool) (args : List Expr) (channels : List String) :
    (hslText hasAlpha args channels).Steady := by
  rw [hslText]
  split
  · exact steady_ite (steady_bind steady_markTranslucent fun _ ↦ steady_pure _) (steady_pure _)
  · exact steady_bind (steady_markAlpha _) fun _ ↦ steady_pure _

/-- So every colour of channels is steady. -/
theorem steady_channelsText (f : ChannelFn) (args : List Expr) (channels : List String) :
    (channelsText f args channels).Steady := by
  cases f with
  | rgb => exact steady_rgbText false args channels
  | rgba => exact steady_rgbText true args channels
  | hsl => exact steady_hslText false args channels
  | hsla => exact steady_hslText true args channels

end Shader

/-! ### Expressions -/

namespace Expr

open Shader

variable {lead : String}

/-- Several expressions are steady if each of them is. -/
theorem steady_emitAll {es : List Expr} (h : ∀ e ∈ es, (e.emit lead).Steady) :
    (emitAll lead es).Steady := by
  induction es with
  | nil => exact steady_pure []
  | cons e es ih =>
    obtain ⟨hhead, htail⟩ := List.forall_mem_cons.1 h
    rw [emitAll]
    exact steady_bind hhead fun _ ↦ steady_bind (ih htail) fun _ ↦ steady_pure _

/-- **The code of every expression is written steadily.** -/
theorem steady_emit (lead : String) (e : Expr) : (e.emit lead).Steady := by
  induction e with
  | null | undefined | string | regex | regExp | template | className | call =>
    rw [emit]
    exact steady_throw _
  | bool | number | global | property =>
    rw [emit]
    exact steady_pure _
  | color fn args ih =>
    cases fn with
    | channels f =>
      rw [emit]
      exact steady_bind (steady_emitAll ih) fun _ ↦ steady_channelsText _ _ _
    | css =>
      cases args with
      | nil =>
        rw [emit]
        exact steady_pure _
      | cons css rest =>
        obtain ⟨hcss, hrest⟩ := List.forall_mem_cons.1 ih
        unfold emit
        have hcolor (c : String) : (emitAll lead rest >>= cssColorText c).Steady :=
          steady_bind (steady_emitAll hrest) fun _ ↦ steady_cssColorText c _
        split
        · exact steady_bind (steady_cssText _) hcolor
        · exact steady_bind hcss hcolor
  | vector size args ih =>
    rw [emit]
    exact steady_bind (steady_emitAll ih) fun _ ↦ steady_pure _
  | unary op operand ih =>
    rw [emit]
    split
    · exact steady_bind ih fun _ ↦ steady_pure _
    · exact steady_throw _
  | logical op left right ihl ihr =>
    rw [emit]
    exact steady_bind ihl fun _ ↦ steady_bind ihr fun _ ↦ steady_pure _
  | binary op left right ihl ihr =>
    rw [emit]
    split
    · exact steady_bind ihl fun _ ↦ steady_bind ihr fun _ ↦ steady_pure _
    · exact steady_throw _
  | ternary f a b c iha ihb ihc =>
    rw [emit]
    exact steady_bind iha fun _ ↦ steady_bind ihb fun _ ↦ steady_bind ihc fun _ ↦ steady_pure _
  | conditional t c a iht ihc iha =>
    rw [emit]
    exact steady_bind iht fun _ ↦ steady_bind ihc fun _ ↦ steady_bind iha fun _ ↦ steady_pure _
  | featureMember access key ih =>
    unfold emit
    split
    · exact steady_pure _
    · exact steady_throw _
  | member access object key iho ihk =>
    rw [emit]
    refine steady_bind iho fun _ ↦ ?_
    split
    · exact steady_pure _
    · exact steady_bind ihk fun _ ↦ steady_pure _
  | array items ih =>
    rw [emit]
    refine steady_bind (steady_emitAll ih) fun texts ↦ ?_
    dsimp only
    split
    · exact steady_pure _
    · exact steady_throw _

end Expr

end FeatureStyle
