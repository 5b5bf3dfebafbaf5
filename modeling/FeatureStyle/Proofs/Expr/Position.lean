import FeatureStyle.Expression.Basic
import FeatureStyle.Proofs.Expr.Fault
import FeatureStyle.Proofs.Expr.Seam
import FeatureStyle.Proofs.Tree.Refusal

/-!
# Where errors point

A source that is no expression is refused with the position of what is wrong. The position is right
for the text that is read, and that is the prepared one: a reading comes to the place
(`SyntaxTree.exists_arrives_of_parse_error`), and what the error says is true of what follows there
(`ParseError.Concerns`). No reading of an expression ends within a sentinel or a mark
(`Arrives.seam`), so the place is one of the source too. But the position is not counted anew:

* **it is that of the place in the source exactly if everything before is kept as it is**, with no
  backslash and no placeholder among it;
* otherwise it is too large, and it may point behind the end of the source
  (`exists_position_gt_length`).

The position of a placeholder that is never closed is counted in bytes, once backslashes are hidden.
It is right exactly if none comes before (`positions_of_compile`).
-/

namespace FeatureStyle

/-! ### What errors say of the text -/

/-- Where the text is said to be at fault. -/
def LexError.position : LexError → Nat
  | unexpectedCharacter _ position => position
  | unterminatedString position => position
  | invalidNumber _ position => position

/-- Where the text is said to be at fault. -/
def ParseError.position : ParseError → Nat
  | lex e => e.position
  | unexpectedToken _ _ position => position
  | invalidNumber _ position => position
  | tooDeep position => position

/-- What is wrong with a text that starts at the position: no token can be read, or the one that is
read is not the expected one, or it would nest too deeply. -/
inductive ParseError.Concerns (table : OperatorTable) (position : Nat) (text : List Char) :
    ParseError → Prop
  | lex {e : LexError} (h : e.Concerns table position text) : Concerns table position text (.lex e)
  | unexpected (expected : String) {t : Token} (h : Token.StandsAt table position text t) :
      Concerns table position text (.unexpectedToken expected t.describe position)
  | tooDeep {t : Token} (h : Token.StandsAt table position text t) :
      Concerns table position text (.tooDeep position)

theorem ParseError.Concerns.position_eq {table : OperatorTable} {position : Nat} {text : List Char}
    {e : ParseError} (h : e.Concerns table position text) : e.position = position := by
  rcases h with h | - | -
  · cases h <;> rfl
  · rfl
  · rfl

namespace SyntaxTree

variable {table : OperatorTable} {source : List Char}

/-- The token that a complaint is about is one of the source. -/
theorem peek_mem {tokens rest : List Token} (h : Token.tokenize table source = .ok tokens)
    (hrest : rest <:+ tokens.dropLast) : Grammar.peek ⟨table, source.length⟩ rest ∈ tokens := by
  cases rest with
  | nil =>
    obtain ⟨before, rfl, -⟩ := (Token.reads_of_tokensFrom h).tiles.exists_eof
    rw [Nat.zero_add]
    exact List.mem_append_right _ List.mem_cons_self
  | cons t rest => exact List.dropLast_subset tokens (hrest.subset List.mem_cons_self)

/-- **A source is refused for what follows where its reading comes to.** -/
theorem exists_arrives_of_parse_error {e : ParseError} (h : parse table source = .error e) :
    ∃ passed rest, source = passed ++ rest ∧ Token.Arrives table 0 passed rest ∧
      e.Concerns table passed.length rest := by
  rcases parse_eq_error h with ⟨e, he, rfl⟩ | ⟨tokens, htokens, hcomplaint⟩
  · obtain ⟨passed, c, cs, rfl, harrives, hscan⟩ := Token.exists_arrives_of_error he
    rw [Nat.zero_add] at hscan
    exact ⟨passed, c :: cs, rfl, harrives, .lex (Token.concerns_of_scan hscan)⟩
  · have hplace {rest : List Token} (hrest : rest <:+ tokens.dropLast) :=
      Token.exists_arrives_of_mem (Token.reads_of_tokensFrom htokens) (peek_mem htokens hrest)
    cases hcomplaint with
    | unexpected expected hrest =>
      obtain ⟨passed, rest, hsource, harrives, hstands⟩ := hplace hrest
      rw [Nat.zero_add] at hstands
      refine ⟨passed, rest, hsource, harrives, ?_⟩
      rw [Grammar.unexpected, hstands.start_eq]
      exact .unexpected expected hstands
    | tooDeep hrest =>
      obtain ⟨passed, rest, hsource, harrives, hstands⟩ := hplace hrest
      rw [Nat.zero_add] at hstands
      refine ⟨passed, rest, hsource, harrives, ?_⟩
      rw [hstands.start_eq]
      exact .tooDeep hstands
    | number ht hkind hnone =>
      obtain ⟨-, -, -, d, hd⟩ := exists_read?_of_mem htokens (List.dropLast_subset tokens ht) hkind
      rw [hd] at hnone
      cases hnone

end SyntaxTree

/-! ### Places in the source -/

namespace Expression

open Source

variable {source : String}

theorem compile_eq_error_iff {e : CompileError} :
    compile source = .error e ↔ Expr.ofSource source = .error e := by
  unfold compile
  split
  · next h => simp [h]
  · next h => simp [h]

/-- A source is refused while it is prepared, or while it is parsed, or for what it means. -/
theorem compile_error_cases {e : CompileError} (h : compile source = .error e) :
    (∃ unmatched, expandPlaceholders (hideBackslashes source.toList) = .error unmatched ∧
        e = .placeholder unmatched) ∨
      (∃ prepared complaint,
        expandPlaceholders (hideBackslashes source.toList) = .ok prepared ∧
          SyntaxTree.parse Expr.operators prepared = .error complaint ∧ e = .parse complaint) ∨
      e.IsPlaceless := by
  rw [compile_eq_error_iff, Expr.ofSource] at h
  split at h
  · next unmatched hprepared =>
    cases h
    exact .inl ⟨unmatched, hprepared, rfl⟩
  · next prepared hprepared =>
    split at h
    · next complaint hparse =>
      cases h
      exact .inr (.inl ⟨prepared, complaint, hprepared, hparse, rfl⟩)
    · next tree _ => exact .inr (.inr (Expr.failsPlaceless_ofTree tree e h))

/-- The position of a placeholder that is never closed. -/
theorem position_of_placeholder_error {e : UnmatchedPlaceholder}
    (h : compile source = .error (.placeholder e)) :
    ∃ w : Writing, w.text = source.toList ∧ (∃ rest, w.ending = .openPlaceholder rest) ∧
      e.position = Text.byteLength (w.passages.flatMap Passage.text) +
        2 * (w.passages.flatMap Passage.text).count '\\' := by
  rcases compile_error_cases h with ⟨_, hprepared, ⟨⟩⟩ | ⟨_, _, -, -, ⟨⟩⟩ | hplaceless
  · exact exists_writing_of_error hprepared
  · exact hplaceless.elim

/-- **A complaint about the prepared text is one about what follows behind some edits.** -/
theorem exists_edits_of_parse_error {e : ParseError} (h : compile source = .error (.parse e)) :
    ∃ before after, Edits source.toList (before ++ after) ∧ after.head? ≠ some .closed ∧
      Token.Arrives Expr.operators 0 (before.flatMap Edit.prepared)
        (after.flatMap Edit.prepared) ∧
      e.Concerns Expr.operators (before.flatMap Edit.prepared).length
        (after.flatMap Edit.prepared) := by
  rcases compile_error_cases h with ⟨_, -, ⟨⟩⟩ | ⟨_, _, hprepared, hparse, ⟨⟩⟩ | hplaceless
  · obtain ⟨es, hedits, hes⟩ := exists_edits_of_prepared hprepared
    obtain ⟨passed, rest, rfl, harrives, hconcerns⟩ :=
      SyntaxTree.exists_arrives_of_parse_error hparse
    obtain ⟨before, after, rfl, rfl, rfl, hhead⟩ := exists_split hes harrives.seam
    exact ⟨before, after, hedits, hhead, harrives, hconcerns⟩
  · exact hplaceless.elim

/-- **Where errors point.** A source is refused for a placeholder if it ends in one that is never
closed, and the error has the number of bytes before it, and two more for each backslash among them.
In any other case that has a position, reading comes to a place of the source where the complaint
holds of what follows, but the position is the number of characters that the prepared text has
before that place. This is the number of characters of the source exactly if all of them are kept.
-/
theorem positions_of_compile (source : String) :
    (∀ e, compile source = .error (.placeholder e) →
      ∃ (w : Writing) (front rest : List Char), w.text = source.toList ∧
        w.ending = .openPlaceholder rest ∧ front = w.passages.flatMap Passage.text ∧
        e.position = Text.byteLength front + 2 * front.count '\\' ∧
        (e.position = Text.byteLength front ↔ '\\' ∉ front)) ∧
      ∀ e, compile source = .error (.parse e) →
        ∃ before after, Edits source.toList (before ++ after) ∧ after.head? ≠ some .closed ∧
          before.flatMap Edit.source ++ after.flatMap Edit.source = source.toList ∧
          Token.Arrives Expr.operators 0 (before.flatMap Edit.prepared)
            (after.flatMap Edit.prepared) ∧
          e.Concerns Expr.operators e.position (after.flatMap Edit.prepared) ∧
          e.position + before.count .closed =
            (before.flatMap Edit.source).length +
              2 * (before.count .hidden + before.count .opened) ∧
          (e.position = (before.flatMap Edit.source).length ↔ ∀ s ∈ before, s.IsKept) := by
  refine ⟨fun e he ↦ ?_, fun e he ↦ ?_⟩
  · obtain ⟨w, hw, ⟨rest, hending⟩, hposition⟩ := position_of_placeholder_error he
    refine ⟨w, _, rest, hw, hending, rfl, hposition, ?_⟩
    rw [hposition, ← List.count_eq_zero]
    omega
  · obtain ⟨before, after, hedits, hhead, harrives, hconcerns⟩ := exists_edits_of_parse_error he
    have hposition := hconcerns.position_eq
    rw [← hposition] at hconcerns
    refine ⟨before, after, hedits, hhead, ?_, harrives, hconcerns, ?_, ?_⟩
    · rw [← List.flatMap_append, hedits.flatMap_source]
    · rw [hposition, length_flatMap_prepared]
    · rw [hposition, hedits.length_eq_iff]

/-- An operand is missing at the end of a source without placeholders. -/
theorem positions_of_compile_plus :
    ∃ e, compile "1+" = .error (.parse e) ∧ e.position = 2 ∧
      ∃ before after, Edits "1+".toList (before ++ after) ∧ after.head? ≠ some .closed ∧
        e.Concerns Expr.operators e.position (after.flatMap Edit.prepared) ∧
        (e.position = (before.flatMap Edit.source).length ↔ ∀ s ∈ before, s.IsKept) := by
  have he : compile "1+" =
      .error (.parse (.unexpectedToken "primary expression" "end of input" 2)) := by
    rw [compile_eq_error_iff]
    with_unfolding_all rfl
  obtain ⟨before, after, hedits, hhead, -, -, hconcerns, -, hiff⟩ :=
    (positions_of_compile "1+").2 _ he
  exact ⟨_, he, rfl, before, after, hedits, hhead, hconcerns, hiff⟩

/-- With a placeholder in front, the position lies behind the end of the source. -/
theorem exists_position_gt_length :
    ∃ e, compile "${a}+" = .error (.parse e) ∧ "${a}+".toList.length < e.position := by
  have he : compile "${a}+" =
      .error (.parse (.unexpectedToken "primary expression" "end of input" 6)) := by
    rw [compile_eq_error_iff]
    with_unfolding_all rfl
  exact ⟨_, he, by decide⟩

end Expression

end FeatureStyle
