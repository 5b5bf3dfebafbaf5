import FeatureStyle.Proofs.Expr.Hygiene
import FeatureStyle.Proofs.Source.Edit
import FeatureStyle.Proofs.Token.Arrival
import FeatureStyle.Proofs.Token.Mark

/-!
# Where readings of expressions stop

The sentinel and the mark are written into a source when it is prepared, and nothing keeps them
whole when the prepared text is read. But with the operators of expressions they are: a sentinel
begins with two characters that no token ends with, and the mark consists of parts of words, of
which a token takes up all that come next. So **wherever the reading of an expression comes to, it
has not cut through a sentinel or a mark** (`Arrives.seam`).
-/

namespace FeatureStyle.Token

open Source (sentinel mark Seam)

variable {passed rest taken lexeme : List Char} {kind : TokenKind} {position : Nat}

/-- What has been read does not end within a sentinel, and if it ends with a letter of the mark, no
other one comes next. -/
def EndsApart (taken rest : List Char) : Prop :=
  ∀ c ∈ taken.getLast?, c ∉ sentinel.dropLast ∧ (c ∈ mark → ∀ d ∈ rest.head?, d ∉ mark)

theorem isIdentifierPart_of_mem_mark : ∀ c ∈ mark, isIdentifierPart c := by
  decide

theorem endsApart_of_getLast? (h : ∀ c ∈ taken.getLast?, c ∉ sentinel.dropLast ++ mark) :
    EndsApart taken rest := fun c hc ↦
  ⟨fun hmem ↦ h c hc (List.mem_append_left _ hmem),
    fun hmem ↦ absurd (List.mem_append_right _ hmem) (h c hc)⟩

/-- A token of an expression ends apart from what comes behind it. -/
theorem Scanned.endsApart (h : Scanned Expr.operators rest taken kind lexeme) :
    EndsApart taken rest := by
  cases h with
  | @word c cs hstart hparts hrest =>
    intro last hlast
    have hpart : isIdentifierPart last := by
      rcases List.mem_cons.1 (List.mem_of_getLast? hlast) with rfl | hmem
      · exact isIdentifierPart_of_start hstart
      · exact hparts last hmem
    refine ⟨fun hmem ↦ ?_, fun _ d hd hmem ↦ hrest d hd (isIdentifierPart_of_mem_mark d hmem)⟩
    exact Source.not_isIdentifierPart_of_mem_sentinel last (List.dropLast_subset _ hmem) hpart
  | number _ hliteral =>
    have hwords : ∀ c ∈ sentinel.dropLast ++ mark,
        ¬ (c.isDigit ∨ c ∈ ['.', 'e', 'E', '+', '-']) := by decide
    obtain ⟨parts, htext, -⟩ := numberLiteral_eq_ok_iff.1 hliteral
    refine endsApart_of_getLast? fun c hc hmem ↦ hwords c hmem ?_
    exact parts.forall_mem_text c (htext ▸ List.mem_of_getLast? hc)
  | @string q inner body hq _ =>
    refine endsApart_of_getLast? fun c hc ↦ ?_
    rw [← List.cons_append, List.getLast?_concat] at hc
    obtain rfl := Option.some.inj hc
    simp only [isQuote, Bool.or_eq_true, beq_iff_eq] at hq
    rcases hq with rfl | rfl <;> decide
  | @punctuation c _ hkind =>
    refine endsApart_of_getLast? fun d hd ↦ ?_
    obtain rfl := List.mem_singleton.1 (List.mem_of_getLast? hd)
    unfold TokenKind.ofPunctuation? at hkind
    split at hkind <;> first | cases hkind; done | decide
  | operator hsymbol =>
    have hsymbols : ∀ symbol ∈ Expr.operators.symbols, ∀ c ∈ symbol,
        c ∉ sentinel.dropLast ++ mark := by decide
    exact endsApart_of_getLast? fun c hc ↦
      hsymbols _ (OperatorTable.mem_of_longestMatch? hsymbol).1 c (List.mem_of_getLast? hc)

/-- Two pieces that are read one after the other end apart, unless nothing is read second. -/
theorem endsApart_append {piece : List Char} (hfirst : passed = [] → EndsApart piece rest)
    (hsecond : EndsApart passed rest) : EndsApart (piece ++ passed) rest := by
  rcases List.eq_nil_or_concat passed with rfl | ⟨front, last, rfl⟩
  · rw [List.append_nil]
    exact hfirst rfl
  · intro c hc
    rw [List.getLast?_append_of_ne_nil _ (by simp)] at hc
    exact hsecond c hc

theorem Arrives.endsApart (h : Arrives Expr.operators position passed rest) :
    EndsApart passed rest := by
  induction h with
  | here => simp [EndsApart]
  | @blank position c passed rest hc _ ih =>
    have hblank : ∀ d ∈ sentinel.dropLast ++ mark, ¬ Text.isBlank d := by decide
    rw [← List.singleton_append]
    refine endsApart_append (fun _ ↦ endsApart_of_getLast? fun d hd hmem ↦ hblank d hmem ?_) ih
    rwa [List.mem_singleton.1 (List.mem_of_getLast? hd)]
  | @token position c front passed rest t ht hstop _ ih =>
    rw [← List.cons_append]
    refine endsApart_append (fun hpassed ↦ ?_) ih
    subst hpassed
    obtain ⟨taken, rest', htext, hscanned, -, hlength⟩ := scanned_of_scan ht
    obtain ⟨rfl, rfl⟩ := List.append_inj htext (by omega)
    exact hscanned.endsApart

/-- **Wherever the reading of an expression comes to, it has not cut through a sentinel or a
mark.** -/
theorem Arrives.seam (h : Arrives Expr.operators position passed rest) : Seam passed rest := by
  rintro u v hu hv hword ⟨before, rfl⟩ ⟨after, rfl⟩
  obtain ⟨front, c, rfl⟩ := List.eq_nil_or_concat u |>.resolve_left hu
  obtain ⟨d, back, rfl⟩ := List.exists_cons_of_ne_nil hv
  obtain ⟨hsentinel, hmark⟩ := h.endsApart c (by simp)
  simp only [List.mem_cons, List.not_mem_nil, or_false] at hword
  rcases hword with hword | hword
  · refine hsentinel ?_
    rw [← hword]
    simp
  · exact hmark (by simp [← hword]) d rfl (by simp [← hword])

end FeatureStyle.Token
