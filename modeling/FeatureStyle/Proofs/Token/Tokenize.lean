import FeatureStyle.Token.Lexer

/-!
# Lists of tokens

What the list of tokens of a source looks like as a whole: **it ends with the end of the source**,
and the equations by which it grows at the front.
-/

namespace FeatureStyle

theorem map_eq_ok {ε α β : Type} {f : α → β} {x : Except ε α} {b : β} :
    x.map f = .ok b ↔ ∃ a, x = .ok a ∧ f a = b := by
  cases x <;> simp [Except.map]

namespace Token

variable {table : OperatorTable}

theorem tokensFrom_nil (position : Nat) : tokensFrom table position [] = .ok [eof position] := by
  rw [tokensFrom]

theorem tokensFrom_scan {c : Char} {cs : List Char} {position : Nat} {t : Token}
    (hc : ¬ Text.isBlank c) (ht : scan table position c cs = .ok t) :
    tokensFrom table position (c :: cs) =
      (tokensFrom table t.stop (cs.drop (t.stop - position - 1))).map (t :: ·) := by
  rw [tokensFrom, if_neg hc, ht]

/-- The last token of a text is its end. -/
theorem exists_eof_of_tokensFrom {position : Nat} {text : List Char} {tokens : List Token}
    (h : tokensFrom table position text = .ok tokens) :
    ∃ before stop, tokens = before ++ [eof stop] := by
  fun_induction tokensFrom table position text generalizing tokens with
  | case1 position =>
    cases h
    exact ⟨[], position, rfl⟩
  | case2 position c cs hc ih => exact ih h
  | case3 position c cs hc e he => cases h
  | case4 position c cs hc t ht ih =>
    obtain ⟨more, hmore, rfl⟩ := map_eq_ok.1 h
    obtain ⟨before, stop, rfl⟩ := ih hmore
    exact ⟨t :: before, stop, rfl⟩

/-! ### Texts of single characters -/

/-- The characters that are tokens by themselves in the texts below. -/
def singles : List Char := ['[', ']', '(', ')', '+', '?', ':']

/-- The tokens of a text of single characters. -/
def spell (position : Nat) : List Char → List Token
  | [] => []
  | c :: cs =>
    ⟨(TokenKind.ofPunctuation? c).getD .operator, String.ofList [c], position, position + 1⟩ ::
      spell (position + 1) cs

theorem spell_append (position : Nat) (cs ds : List Char) :
    spell position (cs ++ ds) = spell position cs ++ spell (position + cs.length) ds := by
  induction cs generalizing position with
  | nil => rfl
  | cons c cs ih =>
    rw [List.cons_append, spell, spell, ih, List.cons_append, List.length_cons, Nat.add_assoc,
      Nat.add_comm 1]

theorem scan_single {c : Char} (hc : c ∈ singles) (position : Nat) (cs : List Char) :
    scan .default position c cs =
      .ok ⟨(TokenKind.ofPunctuation? c).getD .operator, String.ofList [c], position,
        position + 1⟩ := by
  simp only [singles, List.mem_cons, List.not_mem_nil, or_false] at hc
  rcases hc with rfl | rfl | rfl | rfl | rfl | rfl | rfl <;> with_unfolding_all rfl

/-- A text of single characters is cut into them. -/
theorem tokensFrom_spell {cs : List Char} (h : ∀ c ∈ cs, c ∈ singles) (position : Nat) :
    tokensFrom .default position cs =
      .ok (spell position cs ++ [eof (position + cs.length)]) := by
  induction cs generalizing position with
  | nil => exact tokensFrom_nil position
  | cons c cs ih =>
    obtain ⟨hc, hcs⟩ := List.forall_mem_cons.1 h
    have hblank : ¬ Text.isBlank c := by
      simp only [singles, List.mem_cons, List.not_mem_nil, or_false] at hc
      rcases hc with rfl | rfl | rfl | rfl | rfl | rfl | rfl <;> decide
    rw [tokensFrom_scan hblank (scan_single hc position cs)]
    simp only [Nat.add_sub_cancel_left, Nat.sub_self, List.drop_zero, ih hcs, List.length_cons]
    rw [Nat.add_right_comm, Nat.add_assoc position]
    rfl

end Token

end FeatureStyle
