import FeatureStyle.Proofs.Token.Registration
import FeatureStyle.Proofs.Tree.Run

/-!
# Trees under registered operators

What the readers ask a table is which precedence a binary symbol has and whether a symbol is unary.
So **tables that agree read every source as the same tree, or refuse it for the same reason**
(`parse_congr`). The readers are compared by their outcomes, with the recursion that they have
themselves, and one reader behind another only where the first one gives a tree, since only there
the rest is known to be shorter (`bind_congr_of_ok`).

Put together with what is known of the tokens, a table does not depend on the order in which its
symbols were registered, and at every place the longest of them counts (`longest_unordered`).
-/

namespace FeatureStyle.SyntaxTree

variable {table table' : OperatorTable}

/-- Of two steps, the second one only counts where the first one gives something. -/
theorem bind_congr_of_ok {ε α β : Type} {x x' : Except ε α} {f f' : α → Except ε β}
    (hx : x = x') (hf : ∀ a, x = .ok a → f a = f' a) : (x >>= f) = (x' >>= f') := by
  subst hx
  rcases x with e | a
  · rfl
  · exact hf a rfl

namespace Grammar

/-! ### The operator at the front -/

/-- Tables that agree find the same operator at the front. -/
theorem frontOperator?_congr (h : table.Agrees table') (stop least : Nat) (tokens : List Token) :
    frontOperator? ⟨table, stop⟩ least tokens = frontOperator? ⟨table', stop⟩ least tokens := by
  rcases tokens with - | ⟨t, rest⟩
  · rfl
  · show Option.map _ (operator? ⟨table, stop⟩ least (t :: rest)) = Option.map _ _
    rw [operator?, operator?, h.precedence?_eq]

/-- They find the same one before an operand. -/
theorem frontUnary?_congr (h : table.Agrees table') (stop : Nat) (tokens : List Token) :
    frontUnary? ⟨table, stop⟩ tokens = frontUnary? ⟨table', stop⟩ tokens := by
  rcases tokens with - | ⟨t, rest⟩
  · rfl
  · show Option.map _ (unaryOperator? ⟨table, stop⟩ (t :: rest)) = Option.map _ _
    rw [unaryOperator?, unaryOperator?, h.isUnary_eq]

/-! ### The readers -/

mutual

/-- **Tables that agree read the same conditional expression.** They are asked about symbols only,
so the readers are followed down to these questions. -/
theorem conditional_congr (h : table.Agrees table') (stop depth : Nat) (tokens : List Token) :
    outcome (conditional ⟨table, stop⟩ depth tokens) =
      outcome (conditional ⟨table', stop⟩ depth tokens) := by
  rw [outcome_conditional, outcome_conditional]
  refine bind_congr_of_ok rfl fun depth _ ↦ ?_
  refine bind_congr_of_ok (binary_congr h stop depth 0 tokens) fun (test, rest) htest ↦ ?_
  dsimp only
  rcases hfront : front? .question rest with - | rest₁
  · rfl
  obtain ⟨question, -, rfl⟩ := front?_eq_some.1 hfront
  have hrest₁ : rest₁.length + 1 < tokens.length := length_lt_of_outcome htest
  refine bind_congr_of_ok (conditional_congr h stop depth rest₁) fun (_, rest₂) hconsequent ↦ ?_
  refine bind_congr_of_ok rfl fun (colon, rest₃) htake ↦ ?_
  obtain ⟨-, rfl⟩ := take_eq_ok.1 htake
  have hrest₃ : rest₃.length + 1 < rest₁.length := length_lt_of_outcome hconsequent
  exact bind_congr_of_ok (conditional_congr h stop depth rest₃) fun _ _ ↦ rfl
termination_by 8 * tokens.length + 5

theorem binary_congr (h : table.Agrees table') (stop depth least : Nat) (tokens : List Token) :
    outcome (binary ⟨table, stop⟩ depth least tokens) =
      outcome (binary ⟨table', stop⟩ depth least tokens) := by
  rw [outcome_binary, outcome_binary]
  refine bind_congr_of_ok (unary_congr h stop depth tokens) fun (left, rest) hleft ↦ ?_
  have hrest : rest.length < tokens.length := length_lt_of_outcome hleft
  exact binaryRest_congr h stop depth least left rest
termination_by 8 * tokens.length + 4

/-- The operators behind an operand are the same, and bind as tightly. -/
theorem binaryRest_congr (h : table.Agrees table') (stop depth least : Nat) (left : SyntaxTree)
    (tokens : List Token) :
    outcome (binaryRest ⟨table, stop⟩ depth least left tokens) =
      outcome (binaryRest ⟨table', stop⟩ depth least left tokens) := by
  rw [outcome_binaryRest, outcome_binaryRest, ← frontOperator?_congr h]
  rcases hfront : frontOperator? ⟨table, stop⟩ least tokens with - | ⟨symbol, precedence, rest⟩
  · rfl
  obtain ⟨t, -, -, -, -, htokens⟩ := frontOperator?_eq_some.1 hfront
  have hrest : rest.length < tokens.length := by simp [htokens]
  refine bind_congr_of_ok rfl fun depth _ ↦ ?_
  refine bind_congr_of_ok (binary_congr h stop depth (precedence + 1) rest)
    fun (right, rest₁) hright ↦ ?_
  have hrest₁ : rest₁.length < rest.length := length_lt_of_outcome hright
  exact binaryRest_congr h stop depth least (joinBinary symbol left right) rest₁
termination_by 8 * tokens.length

/-- So are those before an operand. -/
theorem unary_congr (h : table.Agrees table') (stop depth : Nat) (tokens : List Token) :
    outcome (unary ⟨table, stop⟩ depth tokens) = outcome (unary ⟨table', stop⟩ depth tokens) := by
  rw [outcome_unary, outcome_unary, ← frontUnary?_congr h]
  rcases hfront : frontUnary? ⟨table, stop⟩ tokens with - | ⟨symbol, rest⟩
  · refine bind_congr_of_ok (primary_congr h stop depth tokens) fun (object, rest) hobject ↦ ?_
    have hrest : rest.length < tokens.length := length_lt_of_outcome hobject
    exact postfixRest_congr h stop depth object rest
  · obtain ⟨t, -, -, -, htokens⟩ := frontUnary?_eq_some.1 hfront
    have hrest : rest.length < tokens.length := by simp [htokens]
    refine bind_congr_of_ok rfl fun depth _ ↦ ?_
    exact bind_congr_of_ok (unary_congr h stop depth rest) fun _ _ ↦ rfl
termination_by 8 * tokens.length + 3

theorem postfixRest_congr (h : table.Agrees table') (stop depth : Nat) (object : SyntaxTree)
    (tokens : List Token) :
    outcome (postfixRest ⟨table, stop⟩ depth object tokens) =
      outcome (postfixRest ⟨table', stop⟩ depth object tokens) := by
  rw [outcome_postfixRest, outcome_postfixRest]
  rcases hdot : front? .dot tokens with - | rest
  · rcases hbracket : front? .lbracket tokens with - | rest
    · rcases hparen : front? .lparen tokens with - | rest
      · rfl
      · obtain ⟨paren, -, htokens⟩ := front?_eq_some.1 hparen
        have hrest : rest.length < tokens.length := by simp [htokens]
        refine bind_congr_of_ok rfl fun depth _ ↦ ?_
        refine bind_congr_of_ok (list_congr h stop depth .rparen rest)
          fun (arguments, rest₁) harguments ↦ ?_
        have hrest₁ : rest₁.length < rest.length := length_lt_of_outcome harguments
        exact postfixRest_congr h stop depth (.call object arguments) rest₁
    · obtain ⟨bracket, -, htokens⟩ := front?_eq_some.1 hbracket
      have hrest : rest.length < tokens.length := by simp [htokens]
      refine bind_congr_of_ok rfl fun depth _ ↦ ?_
      refine bind_congr_of_ok (conditional_congr h stop depth rest) fun (key, rest₁) hkey ↦ ?_
      refine bind_congr_of_ok rfl fun (closing, rest₂) htake ↦ ?_
      obtain ⟨-, rfl⟩ := take_eq_ok.1 htake
      have hrest₂ : rest₂.length + 1 < rest.length := length_lt_of_outcome hkey
      exact postfixRest_congr h stop depth (.member object key true) rest₂
  · obtain ⟨dot, -, htokens⟩ := front?_eq_some.1 hdot
    refine bind_congr_of_ok rfl fun depth _ ↦ ?_
    refine bind_congr_of_ok rfl fun (name, rest₁) htake ↦ ?_
    obtain ⟨-, hrest⟩ := take_eq_ok.1 htake
    have hrest₁ : rest₁.length < tokens.length := by
      rw [htokens, hrest, List.length_cons, List.length_cons]
      omega
    exact postfixRest_congr h stop depth (.member object (.identifier name.lexeme) false) rest₁
termination_by 8 * tokens.length

theorem primary_congr (h : table.Agrees table') (stop depth : Nat) (tokens : List Token) :
    outcome (primary ⟨table, stop⟩ depth tokens) =
      outcome (primary ⟨table', stop⟩ depth tokens) := by
  rcases tokens with - | ⟨t, rest⟩
  · rw [outcome_primary_nil, outcome_primary_nil]
    rfl
  rw [outcome_primary_cons, outcome_primary_cons, primaryRest, primaryRest]
  rcases leaf? t with - | tree
  · dsimp only
    split
    · exact bind_congr_of_ok (conditional_congr h stop depth rest) fun _ _ ↦ rfl
    split
    · exact bind_congr_of_ok (list_congr h stop depth .rbracket rest) fun _ _ ↦ rfl
    · rfl
  · rfl
termination_by 8 * tokens.length + 2

theorem list_congr (h : table.Agrees table') (stop depth : Nat) (close : TokenKind)
    (tokens : List Token) :
    outcome (list ⟨table, stop⟩ depth close tokens) =
      outcome (list ⟨table', stop⟩ depth close tokens) := by
  rw [outcome_list, outcome_list, items_congr h stop depth close tokens]
termination_by 8 * tokens.length + 7

theorem items_congr (h : table.Agrees table') (stop depth : Nat) (close : TokenKind)
    (tokens : List Token) :
    outcome (items ⟨table, stop⟩ depth close tokens) =
      outcome (items ⟨table', stop⟩ depth close tokens) := by
  rw [outcome_items, outcome_items]
  refine bind_congr_of_ok (conditional_congr h stop depth tokens) fun (item, rest) hitem ↦ ?_
  dsimp only
  rcases hfront : front? .comma rest with - | rest₁
  · rfl
  · obtain ⟨comma, -, rfl⟩ := front?_eq_some.1 hfront
    have hrest₁ : rest₁.length + 1 < tokens.length := length_lt_of_outcome hitem
    exact bind_congr_of_ok (items_congr h stop depth close rest₁) fun _ _ ↦ rfl
termination_by 8 * tokens.length + 6

end

/-- **Tables that agree read the same expressions.** -/
theorem expressions_congr (h : table.Agrees table') (stop : Nat) (tokens : List Token) :
    expressions ⟨table, stop⟩ tokens = expressions ⟨table', stop⟩ tokens := by
  rcases tokens with - | ⟨t, tokens⟩
  · rw [expressions_nil, expressions_nil]
  rw [expressions_cons, expressions_cons]
  split
  · exact expressions_congr h stop tokens
  · refine bind_congr_of_ok (conditional_congr h stop 0 (t :: tokens))
      fun (item, rest) hitem ↦ ?_
    have hrest : rest.length < tokens.length + 1 := length_lt_of_outcome hitem
    exact bind_congr_of_ok (expressions_congr h stop rest) fun _ _ ↦ rfl
termination_by tokens.length
decreasing_by all_goals simp only [List.length_cons]; omega

end Grammar

/-- **Tables that agree read every source alike.** -/
theorem parse_congr (h : table.Agrees table') (source : List Char) :
    parse table source = parse table' source := by
  rw [parse, parse, Token.tokenize, Token.tokenize, Token.tokensFrom_congr h]
  rcases Token.tokensFrom table' 0 source with e | tokens
  · rfl
  · exact congrArg (Except.map ofItems) (Grammar.expressions_congr h source.length tokens.dropLast)

open OperatorTable (Registration Consistent)

/-- **The longest symbol counts, in whatever order the symbols were registered.** If no symbol of a
table is empty, then

* an operator that is read is the longest symbol of the table that the source goes on with there;
* a character is only unexpected where the source goes on with no symbol of the table;
* calls that register further symbols, and give none of them two precedences, can be made in any
  order: the source is cut into the same tokens and read as the same tree, or refused for the same
  reason. -/
theorem longest_unordered (hne : ∀ s ∈ table.symbols, s ≠ []) (source : List Char) :
    (∀ tokens, Token.tokenize table source = .ok tokens → ∀ t ∈ tokens, t.kind = .operator →
        table.IsLongest (source.drop t.start) t.lexeme.toList) ∧
      (∀ c position, Token.tokenize table source = .error (.unexpectedCharacter c position) →
        source[position]? = some c ∧ ∀ s ∈ table.symbols, ¬ s <+: source.drop position) ∧
      ∀ calls calls' : List Registration, calls.Perm calls' → Consistent calls →
        Token.tokenize (table.registerAll calls) source =
            Token.tokenize (table.registerAll calls') source ∧
          parse (table.registerAll calls) source = parse (table.registerAll calls') source := by
  have hempty : ([] : List Char).length = 0 := rfl
  refine ⟨fun tokens htokens ↦ ?_, fun c position herror ↦ ?_,
    fun calls calls' hperm hconsistent ↦ ?_⟩
  · have hreads : Token.Reads table 0 source tokens := Token.reads_of_tokensFrom htokens
    exact hreads.isLongest hempty
  · obtain ⟨hc, hnone⟩ := Token.of_unexpectedCharacter herror hempty
    have hnot := OperatorTable.longestMatch?_eq_none_iff.1 hnone
    exact ⟨hc, fun s hs ↦ hnot s hs (hne s hs)⟩
  · have hagrees := OperatorTable.agrees_of_perm hperm hconsistent table
    exact ⟨Token.tokensFrom_congr hagrees 0 source, parse_congr hagrees source⟩

/-- A shift by the longest of three symbols; one more symbol, another one that is unary as well, and
a precedence that is given again. -/
theorem longest_unordered_shift :
    let table := OperatorTable.default
    let source := "a>>>b".toList
    let calls : List Registration := [.binary ">>>=" 1, .unary ">>", .binary ">" 7]
    (∀ s ∈ table.symbols, s ≠ []) ∧
      Token.tokenize table source =
        .ok [⟨.identifier, "a", 0, 1⟩, ⟨.operator, ">>>", 1, 4⟩, ⟨.identifier, "b", 4, 5⟩,
          .eof 5] ∧
      table.IsLongest (source.drop 1) ">>>".toList ∧
      calls.Perm calls.reverse ∧ Consistent calls ∧
      parse (table.registerAll calls) source = parse (table.registerAll calls.reverse) source := by
  intro table source calls
  have hne : ∀ s ∈ table.symbols, s ≠ [] := by decide
  have htokens : Token.tokenize table source =
      .ok [⟨.identifier, "a", 0, 1⟩, ⟨.operator, ">>>", 1, 4⟩, ⟨.identifier, "b", 4, 5⟩,
        .eof 5] := by
    decide +kernel
  have hconsistent : Consistent calls := by
    intro symbol p q hp hq
    simp only [calls, List.mem_cons, List.not_mem_nil, or_false, Registration.binary.injEq,
      reduceCtorEq, false_or] at hp hq
    rcases hp with ⟨rfl, rfl⟩ | ⟨rfl, rfl⟩ <;> simpa [eq_comm] using hq
  have hperm : calls.Perm calls.reverse := (List.reverse_perm calls).symm
  obtain ⟨hlongest, -, hunordered⟩ := longest_unordered hne source
  exact ⟨hne, htokens, hlongest _ htokens ⟨.operator, ">>>", 1, 4⟩ (by decide) rfl, hperm,
    hconsistent, (hunordered calls calls.reverse hperm hconsistent).2⟩

end FeatureStyle.SyntaxTree
