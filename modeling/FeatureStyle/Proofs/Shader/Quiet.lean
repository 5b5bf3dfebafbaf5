import FeatureStyle.Proofs.Shader.Layout
import Mathlib.Data.List.Forall2

/-!
# Quiet writing

Writing is **quiet** if it succeeds and leaves the flag down. The flag is never taken back, so two
steps are quiet exactly if both are (`Emission.quiet_bind_iff`), and **what is written quietly has
been written quietly everywhere inside** (`Expr.exists_quiet_of_within`).

An alpha channel that is written for itself is quiet only if it is the constant one
(`Shader.quiet_markAlpha_iff`).
-/

namespace FeatureStyle

namespace Emission

variable {α β : Type} {m : Emission α} {a : α}

/-- The writing succeeds, and the flag is down after it. -/
def Quiet (m : Emission α) (a : α) : Prop := m.run.run ⟨false⟩ = (.ok a, ⟨false⟩)

theorem quiet_pure_iff {b : α} : (pure a : Emission α).Quiet b ↔ b = a := by
  rw [Quiet, eq_comm (a := b)]
  constructor
  · rintro ⟨⟩
    rfl
  · rintro rfl
    rfl

/-- A refusal is not quiet. -/
theorem not_quiet_throw {e : ShaderUnsupported} : ¬ (throw e : Emission α).Quiet a := nofun

/-- Nor is raising the flag. -/
theorem not_quiet_markTranslucent {u : Unit} : ¬ Shader.markTranslucent.Quiet u := nofun

/-- Two steps are quiet if both are. -/
theorem quiet_bind_iff {f : α → Emission β} {b : β} (hf : ∀ a, (f a).Steady) :
    (m >>= f).Quiet b ↔ ∃ a, m.Quiet a ∧ (f a).Quiet b := by
  simp only [Quiet, run_bind]
  constructor
  · intro h
    rcases hm : m.run.run ⟨false⟩ with ⟨err | a, flag⟩
    · rw [hm] at h
      cases h
    · rw [hm] at h
      dsimp only at h
      -- A flag that is up would stay up.
      have hflag : flag = ⟨false⟩ := by
        have hsteady := congrArg ShaderState.translucent (congrArg Prod.snd (hf a flag))
        rw [h] at hsteady
        obtain ⟨translucent⟩ := flag
        simp only [Bool.false_eq, Bool.or_eq_false_iff] at hsteady
        rw [hsteady.1]
      exact ⟨a, by rw [hflag], hflag ▸ h⟩
  · rintro ⟨a, hm, ha⟩
    rw [hm]
    exact ha

theorem quiet_bind_pure_iff {f : α → β} {b : β} :
    (m >>= fun a ↦ pure (f a)).Quiet b ↔ ∃ a, m.Quiet a ∧ b = f a := by
  rw [quiet_bind_iff fun _ ↦ steady_pure _]
  simp only [quiet_pure_iff]

end Emission

open Emission

namespace Shader

/-- An alpha channel is quiet if it is the constant one. -/
theorem quiet_markAlpha_iff {alpha : String} {u : Unit} :
    (markAlpha alpha).Quiet u ↔ alpha = fullAlpha := by
  rw [markAlpha]
  split
  · next h => exact iff_of_true rfl h
  · next h => exact iff_of_false not_quiet_markTranslucent h

end Shader

namespace Expr

open Emission Fragment Shader

variable {lead : String} {e p : Expr} {es : List Expr}

/-! ### Parts of quiet writing -/

/-- Several expressions are quiet exactly if each of them is. -/
theorem quiet_emitAll_iff {texts : List String} :
    (emitAll lead es).Quiet texts ↔
      List.Forall₂ (fun e text ↦ (e.emit lead).Quiet text) es texts := by
  induction es generalizing texts with
  | nil =>
    rw [emitAll, quiet_pure_iff]
    exact List.forall₂_nil_left_iff.symm
  | cons e es ih =>
    rw [emitAll, quiet_bind_iff fun _ ↦ steady_bind
      (steady_emitAll fun e _ ↦ steady_emit lead e) fun _ ↦ steady_pure _]
    simp only [quiet_bind_pure_iff, ih, List.forall₂_cons_left_iff]
    constructor
    · rintro ⟨text, htext, texts, htexts, rfl⟩
      exact ⟨text, texts, htext, htexts, rfl⟩
    · rintro ⟨text, texts, htext, htexts, rfl⟩
      exact ⟨text, htext, texts, htexts, rfl⟩

/-- **So a part of what is written quietly is written quietly.** -/
theorem exists_quiet_of_mem {texts : List String} (h : (emitAll lead es).Quiet texts)
    (hp : p ∈ es) : ∃ text, (p.emit lead).Quiet text := by
  have hall := quiet_emitAll_iff.1 h
  clear h
  induction hall with
  | nil => cases hp
  | cons htext _ ih =>
    rcases List.mem_cons.1 hp with rfl | hp
    · exact ⟨_, htext⟩
    · exact ih hp

/-- The same for a construct with two parts. -/
theorem exists_quiet_of_two {a b : Expr} {f : String → String → String} {text : String}
    (h : (do
      let x ← a.emit lead
      let y ← b.emit lead
      return f x y : Emission String).Quiet text) (hp : p ∈ [a, b]) :
    ∃ t, (p.emit lead).Quiet t := by
  obtain ⟨x, hx, h⟩ := (quiet_bind_iff fun _ ↦ steady_emit_bind_pure _ b).1 h
  obtain ⟨y, hy, -⟩ := quiet_bind_pure_iff.1 h
  simp only [List.mem_cons, List.not_mem_nil, or_false] at hp
  rcases hp with rfl | rfl
  · exact ⟨x, hx⟩
  · exact ⟨y, hy⟩

/-- The same for one with three. -/
theorem exists_quiet_of_three {a b c : Expr} {f : String → String → String → String}
    {text : String} (h : (do
      let x ← a.emit lead
      let y ← b.emit lead
      let z ← c.emit lead
      return f x y z : Emission String).Quiet text) (hp : p ∈ [a, b, c]) :
    ∃ t, (p.emit lead).Quiet t := by
  obtain ⟨x, hx, h⟩ := (quiet_bind_iff fun _ ↦ steady_bind (steady_emit lead b)
    fun _ ↦ steady_emit_bind_pure _ c).1 h
  rcases List.mem_cons.1 hp with rfl | hp
  · exact ⟨x, hx⟩
  · exact exists_quiet_of_two h hp

/-- A colour in the notation of style sheets is written after its arguments; a text is read. -/
theorem quiet_css_cons {css : Expr} {rest : List Expr} {text : String}
    (h : ((color .css (css :: rest)).emit lead).Quiet text) :
    ((∃ s, css = .string s) ∨ ∃ t, (css.emit lead).Quiet t) ∧
      ∃ c texts, (emitAll lead rest).Quiet texts ∧ (cssColorText c texts).Quiet text := by
  have hsteady (c : String) : (emitAll lead rest >>= cssColorText c).Steady :=
    steady_bind (steady_emitAll fun e _ ↦ steady_emit lead e) fun _ ↦ steady_cssColorText c _
  unfold emit at h
  split at h
  · obtain ⟨c, -, h⟩ := (quiet_bind_iff hsteady).1 h
    obtain ⟨texts, htexts, h⟩ := (quiet_bind_iff fun _ ↦ steady_cssColorText c _).1 h
    exact ⟨.inl ⟨_, rfl⟩, c, texts, htexts, h⟩
  · obtain ⟨c, hc, h⟩ := (quiet_bind_iff hsteady).1 h
    obtain ⟨texts, htexts, h⟩ := (quiet_bind_iff fun _ ↦ steady_cssColorText c _).1 h
    exact ⟨.inr ⟨c, hc⟩, c, texts, htexts, h⟩

/-- The alpha channel is the fourth text. -/
theorem quiet_fourth {a b c d : Expr} {texts : List String}
    (h : (emitAll lead [a, b, c, d]).Quiet texts) :
    (d.emit lead).Quiet (texts.getD 3 fullAlpha) := by
  have hall := quiet_emitAll_iff.1 h
  simp only [List.forall₂_cons_left_iff, List.forall₂_nil_left_iff] at hall
  obtain ⟨_, _, -, ⟨_, _, -, ⟨_, _, -, ⟨_, _, hd, rfl, rfl⟩, rfl⟩, rfl⟩, rfl⟩ := hall
  exact hd

/-- A part of what is written quietly is a literal, or is written quietly too. -/
theorem literal_or_exists_quiet {text : String} (h : (e.emit lead).Quiet text) (hp : p ∈ e.parts) :
    ((∃ x, p = .number x) ∨ ∃ s, p = .string s) ∨ ∃ t, (p.emit lead).Quiet t := by
  cases e with
  | null | undefined | bool | number | string | global | regex | property | template | className =>
    cases hp
  | regExp | call =>
    rw [emit] at h
    exact absurd h not_quiet_throw
  | color fn args =>
    cases fn with
    | channels f =>
      rw [emit, quiet_bind_iff fun _ ↦ steady_channelsText f args _] at h
      obtain ⟨texts, htexts, -⟩ := h
      exact .inr (exists_quiet_of_mem htexts hp)
    | css =>
      cases args with
      | nil => cases hp
      | cons css rest =>
        obtain ⟨hcss, c, texts, htexts, -⟩ := quiet_css_cons h
        rcases List.mem_cons.1 hp with rfl | hp
        · exact hcss.imp_left .inr
        · exact .inr (exists_quiet_of_mem htexts hp)
  | vector size args =>
    rw [emit, quiet_bind_pure_iff] at h
    obtain ⟨texts, htexts, -⟩ := h
    exact .inr (exists_quiet_of_mem htexts hp)
  | unary op operand =>
    obtain rfl := List.mem_singleton.1 hp
    rw [emit] at h
    split at h
    · obtain ⟨t, ht, -⟩ := quiet_bind_pure_iff.1 h
      exact .inr ⟨t, ht⟩
    · exact absurd h not_quiet_throw
  | logical op left right =>
    rw [emit] at h
    exact .inr (exists_quiet_of_two h hp)
  | binary op left right =>
    rw [emit] at h
    split at h
    · exact .inr (exists_quiet_of_two h hp)
    · exact absurd h not_quiet_throw
  | ternary f first second third =>
    rw [emit] at h
    exact .inr (exists_quiet_of_three h hp)
  | conditional test consequent alternate =>
    rw [emit] at h
    exact .inr (exists_quiet_of_three h hp)
  | featureMember access key =>
    obtain rfl := List.mem_singleton.1 hp
    unfold emit at h
    split at h
    · exact .inl (.inr ⟨_, rfl⟩)
    · exact absurd h not_quiet_throw
  | member access object key =>
    rw [emit] at h
    rcases hkey : componentKey? key with - | i
    · rw [hkey] at h
      exact .inr (exists_quiet_of_two h hp)
    · rw [hkey] at h
      obtain ⟨o, ho, -⟩ := quiet_bind_pure_iff.1 h
      rcases List.mem_cons.1 hp with rfl | hp
      · exact .inr ⟨o, ho⟩
      · obtain rfl := List.mem_singleton.1 hp
        exact .inl (literal_of_componentKey? (Option.isSome_of_eq_some hkey))
  | array items =>
    rw [emit, quiet_bind_iff fun _ ↦ steady_ite (steady_pure _) (steady_throw _)] at h
    obtain ⟨texts, htexts, -⟩ := h
    exact .inr (exists_quiet_of_mem htexts hp)

/-- **What is written quietly has been written quietly everywhere inside**, except for literals,
which need not be written at all. -/
theorem exists_quiet_of_within {s : Expr} {text : String} (h : (e.emit lead).Quiet text)
    (hs : Within s e) : ((∃ x, s = .number x) ∨ ∃ name, s = .string name) ∨
      ∃ t, (s.emit lead).Quiet t := by
  induction hs generalizing text with
  | refl => exact .inr ⟨text, h⟩
  | part hp hs ih =>
    rcases literal_or_exists_quiet h hp with hliteral | ⟨t, ht⟩
    · rw [eq_of_within_literal hliteral hs]
      exact .inl hliteral
    · exact ih ht

end Expr

end FeatureStyle
