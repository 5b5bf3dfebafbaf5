import FeatureStyle.Proofs.Expr.Spelling
import FeatureStyle.Proofs.Shader.Layout
import FeatureStyle.Settings.Validation

/-!
# References in shader code

Shader code is made of **pieces**: code that does not depend on the lead, and references, which are
the lead before the name of a property. The pieces of an expression are found by laying out its
parts in turn, and they are the same for every lead. **The references among them are those that the
expression makes** (`exists_pieces`).

Settings are checked before anything is written, so the lead is one that an identifier may start
with. Names are not checked. A reference is an identifier exactly if its name has only characters
of one (`isShaderIdentifier_append_iff`), and a name in brackets may have any other character: **the
references that are written are identifiers exactly if the names are made for it**
(`emit_references_valid_iff`).
-/

namespace FeatureStyle

/-- A piece of shader code. -/
inductive Piece
  | code (text : String)
  /-- The attribute of the property with the given name. -/
  | reference (name : String)
  deriving DecidableEq

namespace Piece

variable {lead : String}

/-- The text of a piece. -/
def text (lead : String) : Piece → String
  | code text => text
  | reference name => lead ++ name

/-- The text of pieces, one after the other. -/
def join (lead : String) : List Piece → String
  | [] => ""
  | p :: ps => p.text lead ++ join lead ps

theorem join_append (ps qs : List Piece) : join lead (ps ++ qs) = join lead ps ++ join lead qs := by
  induction ps with
  | nil => rw [List.nil_append, join, String.empty_append]
  | cons p ps ih => rw [List.cons_append, join, ih, join, String.append_assoc]

end Piece

namespace Expr

open Emission Fragment

variable {e : Expr} {lead : String}

/-- The code of the expression consists of the pieces for every lead, and the references among them
are those of the expression. -/
def HasPieces (e : Expr) (pieces : List Piece) : Prop :=
  (∀ lead, e.code? lead = some (Piece.join lead pieces)) ∧
    ∀ name, .reference name ∈ pieces ↔ e.RefersTo name

/-- Fragments come to pieces if their parts do. -/
theorem exists_pieces_of_fragments {fs : List Fragment}
    (h : ∀ p, .part p ∈ fs → ∃ pieces, p.HasPieces pieces) :
    ∃ pieces, (∀ lead, writeAll lead fs = some (Piece.join lead pieces)) ∧
      ∀ name, .reference name ∈ pieces ↔
        .reference name ∈ fs ∨ ∃ p, .part p ∈ fs ∧ p.RefersTo name := by
  induction fs with
  | nil => exact ⟨[], fun _ ↦ rfl, by simp⟩
  | cons f fs ih =>
    obtain ⟨pieces, hwrite, hreferences⟩ := ih fun p hp ↦ h p (List.mem_cons_of_mem _ hp)
    cases f with
    | code text =>
      refine ⟨.code text :: pieces, fun lead ↦ ?_, by simpa using hreferences⟩
      rw [writeAll_cons, hwrite]
      rfl
    | reference name =>
      refine ⟨.reference name :: pieces, fun lead ↦ ?_, fun name' ↦ ?_⟩
      · rw [writeAll_cons, hwrite]
        rfl
      · rw [List.mem_cons, hreferences]
        simp [or_assoc]
    | part p =>
      obtain ⟨front, hfront, hfrontReferences⟩ := h p List.mem_cons_self
      refine ⟨front ++ pieces, fun lead ↦ ?_, fun name ↦ ?_⟩
      · rw [writeAll_cons, hwrite, write_part, hfront, Piece.join_append]
        rfl
      · rw [List.mem_append, hreferences, hfrontReferences]
        simp [or_and_right, exists_or, or_left_comm]

/-- **The code of an expression is made of pieces, the same for every lead**, and their references
are those of the expression. -/
theorem exists_pieces
    (hcolor : ∀ fn args, Within (.color fn args) e → (colorArity fn).admits args.length)
    (h : (e.code? lead).isSome) : ∃ pieces, e.HasPieces pieces := by
  induction e using induction_parts with
  | step e ih =>
  have hself (fn : ColorFn) (args : List Expr) (he : e = .color fn args) :
      (colorArity fn).admits args.length := hcolor fn args (he ▸ .refl e)
  obtain ⟨text, htext⟩ := Option.isSome_iff_exists.1 h
  rw [code?_eq e hself] at htext
  obtain ⟨fs, hfs, hwrite⟩ := Option.bind_eq_some_iff.1 htext
  have hparts (p : Expr) (hp : .part p ∈ fs) : ∃ pieces, p.HasPieces pieces := by
    have hmem := mem_parts_of_mem_fragments hfs hself hp
    refine ih p hmem (fun fn args hwithin ↦ hcolor fn args (.part hmem hwithin)) ?_
    exact Option.isSome_iff_exists.2 (exists_code_of_mem hwrite hp)
  obtain ⟨pieces, hpieces, hreferences⟩ := exists_pieces_of_fragments hparts
  refine ⟨pieces, fun lead ↦ ?_, fun name ↦ ?_⟩
  · rw [code?_eq e hself, hfs, Option.bind_some, hpieces]
  · rw [hreferences, reference_mem_fragments_iff hfs hself, refersTo_iff]
    refine or_congr_right ⟨?_, ?_⟩
    · rintro ⟨p, hp, hname⟩
      exact ⟨p, mem_parts_of_mem_fragments hfs hself hp, hname⟩
    · rintro ⟨p, hp, hname⟩
      rcases literal_or_part_mem hfs hself hp with hliteral | hmem
      · -- A literal refers to nothing.
        obtain ⟨s, hs, hs'⟩ := hname
        rw [eq_of_within_literal hliteral hs] at hs'
        rcases hliteral with ⟨x, rfl⟩ | ⟨s, rfl⟩ <;> simp at hs'
      · exact ⟨p, hmem, hname⟩

end Expr

/-! ### Identifiers -/

theorem isShaderIdentifier_iff {s : String} :
    isShaderIdentifier s ↔ s ≠ "" ∧ isIdentifierLead s := by
  simp [isShaderIdentifier]

/-- **A reference is an identifier exactly if its name has only characters of one.** Without a lead
the name has to be an identifier by itself. -/
theorem isShaderIdentifier_append_iff {lead name : String} (hlead : isIdentifierLead lead) :
    isShaderIdentifier (lead ++ name) ↔
      name.toList.all isIdentifierPart ∧ (lead = "" → isShaderIdentifier name) := by
  by_cases hempty : lead = ""
  · subst hempty
    rw [String.empty_append, forall_prop_of_true rfl, iff_and_self]
    intro h
    exact (Bool.and_eq_true _ _ ▸ (isShaderIdentifier_iff.1 h).2).2
  · obtain ⟨c, cs, hcs⟩ := List.exists_cons_of_ne_nil (mt String.toList_eq_nil_iff.1 hempty)
    rw [isShaderIdentifier_iff]
    simp only [isIdentifierLead, String.toList_append, hcs, List.cons_append, List.head?_cons,
      List.all_cons, List.all_append, Bool.and_eq_true] at hlead ⊢
    have hdigit : c.isDigit = false := by simpa using hlead.1
    simp [hempty, hlead, hdigit]

namespace Expr

/-- **The references in the code of a source are identifiers exactly if the names are made for it.**
The code is made of pieces, the same for every lead, and its references are those of the expression;
nothing keeps the names to characters of identifiers. -/
theorem emit_references_valid_iff {source lead text : String} {e : Expr}
    {before after : ShaderState} (hsource : ofSource source = .ok e)
    (hlead : isIdentifierLead lead) (hemit : (e.emit lead).run.run before = (.ok text, after)) :
    ∃ pieces, text = Piece.join lead pieces ∧
      (∀ other start, ∃ stop,
        (e.emit other).run.run start = (.ok (Piece.join other pieces), stop)) ∧
      (∀ name, .reference name ∈ pieces ↔ e.RefersTo name) ∧
      ((∀ name, .reference name ∈ pieces → isShaderIdentifier (lead ++ name)) ↔
        ∀ name, e.RefersTo name →
          name.toList.all isIdentifierPart ∧ (lead = "" → isShaderIdentifier name)) := by
  have hcode := code?_of_emit hemit
  obtain ⟨pieces, hpieces, hreferences⟩ :=
    exists_pieces (fun fn args ↦ admits_of_within hsource) (Option.isSome_of_eq_some hcode)
  refine ⟨pieces, ?_, fun other start ↦ ?_, hreferences, ?_⟩
  · exact Option.some.inj (hcode.symm.trans (hpieces lead))
  · exact exists_emit_of_code? (hpieces other) start
  · refine forall_congr' fun name ↦ ?_
    rw [hreferences, isShaderIdentifier_append_iff hlead]

/-- A member whose name is an identifier is written as one. -/
theorem emit_reference_valid_member :
    ∃ e pieces, ofSource "-feature.a" = .ok e ∧
      (e.emit "a_").run.run ⟨false⟩ = (.ok (Piece.join "a_" pieces), ⟨false⟩) ∧
      ∀ name, .reference name ∈ pieces → isShaderIdentifier ("a_" ++ name) := by
  have hsource : ofSource "-feature.a" =
      .ok (.unary .negative (.featureMember .dot (.string "a"))) := by
    with_unfolding_all rfl
  have hemit : ((unary .negative (.featureMember .dot (.string "a"))).emit "a_").run.run ⟨false⟩ =
      (.ok "-a_a", ⟨false⟩) := by
    with_unfolding_all rfl
  have hlead : isIdentifierLead "a_" := by decide
  obtain ⟨pieces, htext, -, -, hvalid⟩ := emit_references_valid_iff hsource hlead hemit
  refine ⟨_, pieces, hsource, htext ▸ hemit, hvalid.2 ?_⟩
  simp only [refersTo_unary, refersTo_featureMember_string, forall_eq']
  decide

/-- A name in brackets is written as it is. -/
theorem exists_emit_reference_invalid :
    ∃ e text name, ofSource "feature['a b']" = .ok e ∧ isIdentifierLead "a_" ∧
      (e.emit "a_").run.run ⟨false⟩ = (.ok text, ⟨false⟩) ∧ e.RefersTo name ∧
      text = "a_" ++ name ∧ ¬ isShaderIdentifier ("a_" ++ name) := by
  have hprepared : Source.expandPlaceholders (Source.hideBackslashes "feature['a b']".toList) =
      .ok "feature['a b']".toList := by
    decide +kernel
  have htokens : Token.tokenize operators "feature['a b']".toList =
      .ok [⟨.identifier, "feature", 0, 7⟩, ⟨.lbracket, "[", 7, 8⟩, ⟨.string, "a b", 8, 13⟩,
        ⟨.rbracket, "]", 13, 14⟩, .eof 14] := by
    decide +kernel
  have hitems : SyntaxTree.Grammar.expressions ⟨operators, 14⟩
      [⟨.identifier, "feature", 0, 7⟩, ⟨.lbracket, "[", 7, 8⟩, ⟨.string, "a b", 8, 13⟩,
        ⟨.rbracket, "]", 13, 14⟩] =
      .ok [.member (.identifier "feature") (.literal (.string "a b")) true] := by
    with_unfolding_all rfl
  have hparse := SyntaxTree.parse_eq_ok.2 ⟨_, _, htokens, hitems, rfl⟩
  refine ⟨.featureMember .brackets (.string "a b"), "a_a b", "a b",
    ofSource_eq_ok.2 ⟨_, _, hprepared, hparse, ?_⟩, by decide, ?_,
    refersTo_featureMember_string.2 rfl, rfl, by decide⟩
  · with_unfolding_all rfl
  · with_unfolding_all rfl

end Expr

end FeatureStyle
