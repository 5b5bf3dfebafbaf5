import FeatureStyle.Proofs.Tree.Outcome

/-!
# Runs of the readers

A **run** is a reading that came to an end with a tree: which branch each reader took, on which
tokens, and with how many levels of nesting used up. There is one kind of run for each reader, and
the runs are built like the calls of the readers: `ConditionalRun g depth tokens tree rest` is a run
of `conditional` at `depth` that reads `tree` off the front of `tokens` and leaves `rest`. What
comes behind an operator, a member or a call is read one level further down; only the end of the
whole chain gives its levels back.

**The runs are exactly the readings that succeed.** The readers recurse on the number of tokens left
and may fail; a run does neither, so what holds of every tree that is read is shown by induction on
runs. `ConditionalRun.outcome_eq` and `ConditionalRun.of_outcome`, with their companions for the
other readers, go back and forth between the two.
-/

namespace FeatureStyle.SyntaxTree

namespace Grammar

variable {g : Grammar} {depth least : Nat} {close : TokenKind} {tokens rest : List Token}

mutual

/-- A run of `conditional`. -/
inductive ConditionalRun (g : Grammar) : Nat → List Token → SyntaxTree → List Token → Prop
  | test {depth tokens test rest} (level : depth < nestingLimit)
      (testRun : BinaryRun g (depth + 1) 0 tokens test rest) (stop : front? .question rest = none) :
      ConditionalRun g depth tokens test rest
  | branches {depth tokens test question rest₁ consequent colon rest₂ alternate rest}
      (level : depth < nestingLimit)
      (testRun : BinaryRun g (depth + 1) 0 tokens test (question :: rest₁))
      (hquestion : question.kind = .question)
      (consequentRun : ConditionalRun g (depth + 1) rest₁ consequent (colon :: rest₂))
      (hcolon : colon.kind = .colon)
      (alternateRun : ConditionalRun g (depth + 1) rest₂ alternate rest) :
      ConditionalRun g depth tokens (.conditional test consequent alternate) rest

/-- A run of `binary`. -/
inductive BinaryRun (g : Grammar) : Nat → Nat → List Token → SyntaxTree → List Token → Prop
  | mk {depth least tokens left rest₁ tree rest} (leftRun : UnaryRun g depth tokens left rest₁)
      (restRun : BinaryRestRun g depth least left rest₁ tree rest) :
      BinaryRun g depth least tokens tree rest

/-- A run of `binaryRest`. -/
inductive BinaryRestRun (g : Grammar) :
    Nat → Nat → SyntaxTree → List Token → SyntaxTree → List Token → Prop
  | stop {depth least left tokens} (stop : g.frontOperator? least tokens = none) :
      BinaryRestRun g depth least left tokens left tokens
  | operator {depth least left t precedence rest right rest₁ tree rest₂}
      (hkind : t.kind = .operator) (hprecedence : g.table.precedence? t.lexeme = some precedence)
      (hleast : least ≤ precedence) (level : depth < nestingLimit)
      (rightRun : BinaryRun g (depth + 1) (precedence + 1) rest right rest₁)
      (restRun :
        BinaryRestRun g (depth + 1) least (joinBinary t.lexeme left right) rest₁ tree rest₂) :
      BinaryRestRun g depth least left (t :: rest) tree rest₂

/-- A run of `unary`. -/
inductive UnaryRun (g : Grammar) : Nat → List Token → SyntaxTree → List Token → Prop
  | operator {depth t rest operand rest₁} (hkind : t.kind = .operator)
      (hunary : g.table.isUnary t.lexeme) (level : depth < nestingLimit)
      (operandRun : UnaryRun g (depth + 1) rest operand rest₁) :
      UnaryRun g depth (t :: rest) (.unary t.lexeme operand) rest₁
  | operand {depth tokens object rest tree rest₁} (nounary : g.frontUnary? tokens = none)
      (objectRun : PrimaryRun g depth tokens object rest)
      (restRun : PostfixRestRun g depth object rest tree rest₁) :
      UnaryRun g depth tokens tree rest₁

/-- A run of `postfixRest`. -/
inductive PostfixRestRun (g : Grammar) :
    Nat → SyntaxTree → List Token → SyntaxTree → List Token → Prop
  | stop {depth object tokens} (dot : front? .dot tokens = none)
      (bracket : front? .lbracket tokens = none) (paren : front? .lparen tokens = none) :
      PostfixRestRun g depth object tokens object tokens
  | member {depth object dot name rest tree rest₁} (hdot : dot.kind = .dot)
      (level : depth < nestingLimit) (hname : name.kind = .identifier)
      (restRun :
        PostfixRestRun g (depth + 1) (.member object (.identifier name.lexeme) false) rest tree
          rest₁) :
      PostfixRestRun g depth object (dot :: name :: rest) tree rest₁
  | index {depth object bracket rest key closing rest₁ tree rest₂}
      (hbracket : bracket.kind = .lbracket) (level : depth < nestingLimit)
      (keyRun : ConditionalRun g (depth + 1) rest key (closing :: rest₁))
      (hclosing : closing.kind = .rbracket)
      (restRun : PostfixRestRun g (depth + 1) (.member object key true) rest₁ tree rest₂) :
      PostfixRestRun g depth object (bracket :: rest) tree rest₂
  | call {depth object paren rest arguments rest₁ tree rest₂} (hparen : paren.kind = .lparen)
      (level : depth < nestingLimit)
      (argumentsRun : ListRun g (depth + 1) .rparen rest arguments rest₁)
      (restRun : PostfixRestRun g (depth + 1) (.call object arguments) rest₁ tree rest₂) :
      PostfixRestRun g depth object (paren :: rest) tree rest₂

/-- A run of `primary`. -/
inductive PrimaryRun (g : Grammar) : Nat → List Token → SyntaxTree → List Token → Prop
  | leaf {depth t tree rest} (h : leaf? t = some (.ok tree)) :
      PrimaryRun g depth (t :: rest) tree rest
  | parentheses {depth paren rest tree closing rest₁} (hparen : paren.kind = .lparen)
      (innerRun : ConditionalRun g depth rest tree (closing :: rest₁))
      (hclosing : closing.kind = .rparen) : PrimaryRun g depth (paren :: rest) tree rest₁
  | array {depth bracket rest items rest₁} (hbracket : bracket.kind = .lbracket)
      (itemsRun : ListRun g depth .rbracket rest items rest₁) :
      PrimaryRun g depth (bracket :: rest) (.array items) rest₁

/-- A run of `list`. -/
inductive ListRun (g : Grammar) : Nat → TokenKind → List Token → List SyntaxTree → List Token → Prop
  | nil {depth close closing rest} (hclosing : closing.kind = close) :
      ListRun g depth close (closing :: rest) [] rest
  | items {depth close tokens items rest} (nonempty : front? close tokens = none)
      (itemsRun : ItemsRun g depth close tokens items rest) :
      ListRun g depth close tokens items rest

/-- A run of `items`. -/
inductive ItemsRun (g : Grammar) :
    Nat → TokenKind → List Token → List SyntaxTree → List Token → Prop
  | last {depth close tokens item closing rest}
      (itemRun : ConditionalRun g depth tokens item (closing :: rest))
      (nocomma : closing.kind ≠ .comma) (hclosing : closing.kind = close) :
      ItemsRun g depth close tokens [item] rest
  | more {depth close tokens item comma rest items rest₁}
      (itemRun : ConditionalRun g depth tokens item (comma :: rest)) (hcomma : comma.kind = .comma)
      (itemsRun : ItemsRun g depth close rest items rest₁) :
      ItemsRun g depth close tokens (item :: items) rest₁

end

/-! ### Single steps -/

/-- What succeeds in two steps succeeds in the first one and then in the second. -/
theorem bind_eq_ok {ε α β : Type} {x : Except ε α} {f : α → Except ε β} {b : β} :
    (x >>= f) = .ok b ↔ ∃ a, x = .ok a ∧ f a = .ok b := by
  rcases x with e | a
  · exact iff_of_false nofun fun ⟨_, h, _⟩ ↦ nomatch h
  · exact ⟨fun h ↦ ⟨a, rfl, h⟩, by rintro ⟨_, ⟨⟩, h⟩; exact h⟩

/-- A level can be taken as long as the limit is not reached. -/
theorem descend_eq_ok {n : Nat} :
    g.descend depth tokens = .ok n ↔ depth < nestingLimit ∧ n = depth + 1 := by
  rw [descend]
  split
  · next h => simp [h, eq_comm]
  · next h => simp [h]

/-- A token is taken exactly if it is there and of that kind. -/
theorem take_eq_ok {kind : TokenKind} {t : Token} :
    g.take kind tokens = .ok (t, rest) ↔ t.kind = kind ∧ tokens = t :: rest := by
  cases tokens with
  | nil => simp [take, expect]
  | cons s tail =>
    by_cases hs : s.kind = kind
    · simp only [take, expect, hs, if_true, outcome_ok, Except.ok.injEq, Prod.mk.injEq,
        List.cons.injEq]
      constructor
      · rintro ⟨rfl, rfl⟩
        exact ⟨hs, rfl, rfl⟩
      · rintro ⟨-, h⟩
        exact h
    · simp only [take, expect, hs, if_false, outcome_error, reduceCtorEq, List.cons.injEq,
        false_iff]
      rintro ⟨ht, rfl, -⟩
      exact hs ht

/-- A look at the first token tells exactly its kind. -/
theorem front?_eq_some {kind : TokenKind} :
    front? kind tokens = some rest ↔ ∃ t, t.kind = kind ∧ tokens = t :: rest := by
  cases tokens with
  | nil => simp [front?]
  | cons s tail =>
    rw [front?]
    split
    · next hs =>
      constructor
      · intro h
        exact ⟨s, hs, by rw [Option.some.inj h]⟩
      · rintro ⟨_, _, ⟨⟩⟩
        rfl
    · next hs =>
      constructor
      · rintro ⟨⟩
      · rintro ⟨t, ht, ⟨⟩⟩
        exact absurd ht hs

/-- A token of another kind is not at the front. -/
theorem front?_cons_of_ne {kind : TokenKind} {t : Token} (h : t.kind ≠ kind) :
    front? kind (t :: rest) = none := by
  simp [front?, h]

/-- An operator goes on exactly if it is registered and binds tightly enough. -/
theorem frontOperator?_eq_some {symbol : String} {precedence : Nat} :
    g.frontOperator? least tokens = some (symbol, precedence, rest) ↔
      ∃ t, t.kind = .operator ∧ g.table.precedence? t.lexeme = some precedence ∧
        least ≤ precedence ∧ symbol = t.lexeme ∧ tokens = t :: rest := by
  constructor
  · intro hfront
    obtain ⟨⟨s, p, tail, htail⟩, h, ⟨⟩⟩ := Option.map_eq_some_iff.1 hfront
    clear hfront
    cases tokens with
    | nil => cases h
    | cons t tokens =>
      -- Three tests: an operator, with a precedence, that is high enough.
      simp only [operator?] at h
      split at h <;> try contradiction
      next hkind =>
      split at h <;> try contradiction
      next precedence' hp =>
      split at h <;> try contradiction
      next hle =>
      cases h
      exact ⟨t, hkind, hp, Nat.le_of_not_lt hle, rfl, rfl⟩
  · rintro ⟨t, hkind, hp, hle, rfl, rfl⟩
    simp [frontOperator?, operator?, hkind, hp, Nat.not_lt.2 hle]

/-- An operator stands before an operand exactly if it is registered as such. -/
theorem frontUnary?_eq_some {symbol : String} :
    g.frontUnary? tokens = some (symbol, rest) ↔
      ∃ t, t.kind = .operator ∧ g.table.isUnary t.lexeme ∧ symbol = t.lexeme ∧
        tokens = t :: rest := by
  constructor
  · intro hfront
    obtain ⟨⟨s, tail, htail⟩, h, ⟨⟩⟩ := Option.map_eq_some_iff.1 hfront
    clear hfront
    cases tokens with
    | nil => cases h
    | cons t tokens =>
      simp only [unaryOperator?] at h
      split at h <;> try contradiction
      next ht =>
      cases h
      exact ⟨t, ht.1, ht.2, rfl, rfl⟩
  · rintro ⟨t, hkind, hunary, rfl, rfl⟩
    simp [frontUnary?, unaryOperator?, hkind, hunary]

/-- What is no operator is no unary operator. -/
theorem frontUnary?_cons_of_ne {t : Token} (h : t.kind ≠ .operator) (rest : List Token) :
    g.frontUnary? (t :: rest) = none := by
  refine Option.eq_none_iff_forall_ne_some.2 fun ⟨symbol, rest'⟩ hfront ↦ ?_
  obtain ⟨_, hkind, -, -, ⟨⟩⟩ := frontUnary?_eq_some.1 hfront
  exact h hkind

/-! ### From runs to readings -/

mutual

/-- **A run of a conditional expression is what the reader does.** -/
theorem ConditionalRun.outcome_eq {depth : Nat} {tokens rest : List Token} {tree : SyntaxTree} :
    ConditionalRun g depth tokens tree rest →
      outcome (g.conditional depth tokens) = .ok (tree, rest)
  | .test level testRun stop => by
    rw [outcome_conditional]
    refine bind_eq_ok.2 ⟨_, descend_eq_ok.2 ⟨level, rfl⟩, ?_⟩
    refine bind_eq_ok.2 ⟨_, testRun.outcome_eq, ?_⟩
    simp only [stop]
    rfl
  | .branches level testRun hquestion consequentRun hcolon alternateRun => by
    rw [outcome_conditional]
    refine bind_eq_ok.2 ⟨_, descend_eq_ok.2 ⟨level, rfl⟩, ?_⟩
    refine bind_eq_ok.2 ⟨_, testRun.outcome_eq, ?_⟩
    simp only [front?_eq_some.2 ⟨_, hquestion, rfl⟩]
    refine bind_eq_ok.2 ⟨_, consequentRun.outcome_eq, ?_⟩
    refine bind_eq_ok.2 ⟨_, take_eq_ok.2 ⟨hcolon, rfl⟩, ?_⟩
    exact bind_eq_ok.2 ⟨_, alternateRun.outcome_eq, rfl⟩

theorem BinaryRun.outcome_eq {depth least : Nat} {tokens rest : List Token} {tree : SyntaxTree} :
    BinaryRun g depth least tokens tree rest →
      outcome (g.binary depth least tokens) = .ok (tree, rest)
  | .mk leftRun restRun => by
    rw [outcome_binary]
    exact bind_eq_ok.2 ⟨_, leftRun.outcome_eq, restRun.outcome_eq⟩

/-- The operators stop where the next one does not bind tightly enough. -/
theorem BinaryRestRun.outcome_eq {depth least : Nat} {left : SyntaxTree} {tokens rest : List Token}
    {tree : SyntaxTree} : BinaryRestRun g depth least left tokens tree rest →
      outcome (g.binaryRest depth least left tokens) = .ok (tree, rest)
  | .stop stop => by
    rw [outcome_binaryRest, stop]
  | .operator hkind hprecedence hleast level rightRun restRun => by
    rw [outcome_binaryRest, frontOperator?_eq_some.2 ⟨_, hkind, hprecedence, hleast, rfl, rfl⟩]
    refine bind_eq_ok.2 ⟨_, descend_eq_ok.2 ⟨level, rfl⟩, ?_⟩
    exact bind_eq_ok.2 ⟨_, rightRun.outcome_eq, restRun.outcome_eq⟩

theorem UnaryRun.outcome_eq {depth : Nat} {tokens rest : List Token} {tree : SyntaxTree} :
    UnaryRun g depth tokens tree rest → outcome (g.unary depth tokens) = .ok (tree, rest)
  | .operator hkind hunary level operandRun => by
    rw [outcome_unary, frontUnary?_eq_some.2 ⟨_, hkind, hunary, rfl, rfl⟩]
    refine bind_eq_ok.2 ⟨_, descend_eq_ok.2 ⟨level, rfl⟩, ?_⟩
    exact bind_eq_ok.2 ⟨_, operandRun.outcome_eq, rfl⟩
  | .operand nounary objectRun restRun => by
    rw [outcome_unary, nounary]
    exact bind_eq_ok.2 ⟨_, objectRun.outcome_eq, restRun.outcome_eq⟩

/-- Members and calls stop at the first token that begins none. -/
theorem PostfixRestRun.outcome_eq {depth : Nat} {object : SyntaxTree} {tokens rest : List Token}
    {tree : SyntaxTree} : PostfixRestRun g depth object tokens tree rest →
      outcome (g.postfixRest depth object tokens) = .ok (tree, rest)
  | .stop dot bracket paren => by
    rw [outcome_postfixRest, dot, bracket, paren]
  | .member hdot level hname restRun => by
    rw [outcome_postfixRest, front?_eq_some.2 ⟨_, hdot, rfl⟩]
    refine bind_eq_ok.2 ⟨_, descend_eq_ok.2 ⟨level, rfl⟩, ?_⟩
    exact bind_eq_ok.2 ⟨_, take_eq_ok.2 ⟨hname, rfl⟩, restRun.outcome_eq⟩
  | .index hbracket level keyRun hclosing restRun => by
    rw [outcome_postfixRest, front?_cons_of_ne (by simp [hbracket]),
      front?_eq_some.2 ⟨_, hbracket, rfl⟩]
    refine bind_eq_ok.2 ⟨_, descend_eq_ok.2 ⟨level, rfl⟩, ?_⟩
    refine bind_eq_ok.2 ⟨_, keyRun.outcome_eq, ?_⟩
    exact bind_eq_ok.2 ⟨_, take_eq_ok.2 ⟨hclosing, rfl⟩, restRun.outcome_eq⟩
  | .call hparen level argumentsRun restRun => by
    rw [outcome_postfixRest, front?_cons_of_ne (by simp [hparen]),
      front?_cons_of_ne (by simp [hparen]), front?_eq_some.2 ⟨_, hparen, rfl⟩]
    refine bind_eq_ok.2 ⟨_, descend_eq_ok.2 ⟨level, rfl⟩, ?_⟩
    exact bind_eq_ok.2 ⟨_, argumentsRun.outcome_eq, restRun.outcome_eq⟩

theorem PrimaryRun.outcome_eq {depth : Nat} {tokens rest : List Token} {tree : SyntaxTree} :
    PrimaryRun g depth tokens tree rest → outcome (g.primary depth tokens) = .ok (tree, rest)
  | .leaf h => by
    rw [outcome_primary_cons, primaryRest, h]
    rfl
  | .parentheses hparen innerRun hclosing => by
    rw [outcome_primary_cons, primaryRest, leaf?, hparen]
    refine bind_eq_ok.2 ⟨_, innerRun.outcome_eq, ?_⟩
    exact bind_eq_ok.2 ⟨_, take_eq_ok.2 ⟨hclosing, rfl⟩, rfl⟩
  | .array hbracket itemsRun => by
    rw [outcome_primary_cons, primaryRest, leaf?, hbracket]
    exact bind_eq_ok.2 ⟨_, itemsRun.outcome_eq, rfl⟩

/-- A list is closed at once or read item by item. -/
theorem ListRun.outcome_eq {depth : Nat} {close : TokenKind} {tokens rest : List Token}
    {items : List SyntaxTree} : ListRun g depth close tokens items rest →
      outcome (g.list depth close tokens) = .ok (items, rest)
  | .nil hclosing => by
    rw [outcome_list, front?_eq_some.2 ⟨_, hclosing, rfl⟩]
  | .items nonempty itemsRun => by
    rw [outcome_list, nonempty]
    exact itemsRun.outcome_eq

theorem ItemsRun.outcome_eq {depth : Nat} {close : TokenKind} {tokens rest : List Token}
    {items : List SyntaxTree} : ItemsRun g depth close tokens items rest →
      outcome (g.items depth close tokens) = .ok (items, rest)
  | .last itemRun nocomma hclosing => by
    rw [outcome_items]
    refine bind_eq_ok.2 ⟨_, itemRun.outcome_eq, ?_⟩
    simp only [front?_cons_of_ne nocomma]
    exact bind_eq_ok.2 ⟨_, take_eq_ok.2 ⟨hclosing, rfl⟩, rfl⟩
  | .more itemRun hcomma itemsRun => by
    rw [outcome_items]
    refine bind_eq_ok.2 ⟨_, itemRun.outcome_eq, ?_⟩
    simp only [front?_eq_some.2 ⟨_, hcomma, rfl⟩]
    exact bind_eq_ok.2 ⟨_, itemsRun.outcome_eq, rfl⟩

end

/-! ### From readings to runs -/

/-- What a reader leaves is shorter. -/
theorem length_lt_of_outcome {α : Type} {r : Reading α tokens} {a : α}
    (h : outcome r = .ok (a, rest)) : rest.length < tokens.length := by
  rcases r with e | ⟨b, rest', hrest⟩
  · cases h
  · cases h
    exact hrest

mutual

/-- **Conversely, what the reader of a conditional expression does is a run.** What the recursion is
on gets shorter from part to part. -/
theorem ConditionalRun.of_outcome {depth : Nat} {tokens rest : List Token} {tree : SyntaxTree}
    (h : outcome (g.conditional depth tokens) = .ok (tree, rest)) :
    ConditionalRun g depth tokens tree rest := by
  rw [outcome_conditional] at h
  obtain ⟨_, hlevel, h⟩ := bind_eq_ok.1 h
  obtain ⟨level, rfl⟩ := descend_eq_ok.1 hlevel
  obtain ⟨⟨test, rest₁⟩, htest, h⟩ := bind_eq_ok.1 h
  have testRun := BinaryRun.of_outcome htest
  dsimp only at h
  cases hfront : front? .question rest₁ with
  | none =>
    rw [hfront] at h
    cases h
    exact .test level testRun hfront
  | some rest₂ =>
    rw [hfront] at h
    obtain ⟨question, hquestion, rfl⟩ := front?_eq_some.1 hfront
    -- The branches begin behind the test, and this is what the recursion is on.
    have hrest₂ : rest₂.length + 1 < tokens.length := length_lt_of_outcome htest
    obtain ⟨⟨consequent, rest₃⟩, hconsequent, h⟩ := bind_eq_ok.1 h
    have consequentRun := ConditionalRun.of_outcome hconsequent
    obtain ⟨⟨colon, rest₄⟩, htake, h⟩ := bind_eq_ok.1 h
    obtain ⟨hcolon, rfl⟩ := take_eq_ok.1 htake
    have hrest₄ : rest₄.length + 1 < rest₂.length := length_lt_of_outcome hconsequent
    obtain ⟨⟨alternate, rest₅⟩, halternate, h⟩ := bind_eq_ok.1 h
    have alternateRun := ConditionalRun.of_outcome halternate
    cases h
    exact .branches level testRun hquestion consequentRun hcolon alternateRun
termination_by 8 * tokens.length + 5

theorem BinaryRun.of_outcome {depth least : Nat} {tokens rest : List Token} {tree : SyntaxTree}
    (h : outcome (g.binary depth least tokens) = .ok (tree, rest)) :
    BinaryRun g depth least tokens tree rest := by
  rw [outcome_binary] at h
  obtain ⟨⟨left, rest₁⟩, hleft, h⟩ := bind_eq_ok.1 h
  have hrest₁ := length_lt_of_outcome hleft
  exact .mk (UnaryRun.of_outcome hleft) (BinaryRestRun.of_outcome h)
termination_by 8 * tokens.length + 4

/-- Every operator has been registered, binds tightly enough and has a level for its right side. -/
theorem BinaryRestRun.of_outcome {depth least : Nat} {left : SyntaxTree} {tokens rest : List Token}
    {tree : SyntaxTree} (h : outcome (g.binaryRest depth least left tokens) = .ok (tree, rest)) :
    BinaryRestRun g depth least left tokens tree rest := by
  rw [outcome_binaryRest] at h
  cases hfront : g.frontOperator? least tokens with
  | none =>
    rw [hfront] at h
    cases h
    exact .stop hfront
  | some found =>
    obtain ⟨symbol, precedence, rest₁⟩ := found
    rw [hfront] at h
    obtain ⟨t, hkind, hprecedence, hleast, rfl, htokens⟩ := frontOperator?_eq_some.1 hfront
    have hrest₁ : rest₁.length < tokens.length := by simp [htokens]
    obtain ⟨_, hlevel, h⟩ := bind_eq_ok.1 h
    obtain ⟨level, rfl⟩ := descend_eq_ok.1 hlevel
    obtain ⟨⟨right, rest₂⟩, hright, h⟩ := bind_eq_ok.1 h
    have hrest₂ := length_lt_of_outcome hright
    -- `tokens` is only replaced now, since the bounds on the lengths are about it.
    exact htokens ▸ .operator hkind hprecedence hleast level (BinaryRun.of_outcome hright)
      (BinaryRestRun.of_outcome h)
termination_by 8 * tokens.length

/-- An operator before an operand has been registered and has a level for it. -/
theorem UnaryRun.of_outcome {depth : Nat} {tokens rest : List Token} {tree : SyntaxTree}
    (h : outcome (g.unary depth tokens) = .ok (tree, rest)) :
    UnaryRun g depth tokens tree rest := by
  rw [outcome_unary] at h
  cases hfront : g.frontUnary? tokens with
  | none =>
    rw [hfront] at h
    obtain ⟨⟨object, rest₁⟩, hobject, h⟩ := bind_eq_ok.1 h
    have hrest₁ := length_lt_of_outcome hobject
    exact .operand hfront (PrimaryRun.of_outcome hobject) (PostfixRestRun.of_outcome h)
  | some found =>
    obtain ⟨symbol, rest₁⟩ := found
    rw [hfront] at h
    obtain ⟨t, hkind, hunary, rfl, htokens⟩ := frontUnary?_eq_some.1 hfront
    have hrest₁ : rest₁.length < tokens.length := by simp [htokens]
    obtain ⟨_, hlevel, h⟩ := bind_eq_ok.1 h
    obtain ⟨level, rfl⟩ := descend_eq_ok.1 hlevel
    obtain ⟨⟨operand, rest₂⟩, hoperand, h⟩ := bind_eq_ok.1 h
    have operandRun := UnaryRun.of_outcome hoperand
    cases h
    exact htokens ▸ .operator hkind hunary level operandRun
termination_by 8 * tokens.length + 3

/-- Members and calls are told by their first token. -/
theorem PostfixRestRun.of_outcome {depth : Nat} {object : SyntaxTree} {tokens rest : List Token}
    {tree : SyntaxTree} (h : outcome (g.postfixRest depth object tokens) = .ok (tree, rest)) :
    PostfixRestRun g depth object tokens tree rest := by
  rw [outcome_postfixRest] at h
  cases hdot : front? .dot tokens with
  | some rest₁ =>
    rw [hdot] at h
    obtain ⟨dot, hkind, htokens⟩ := front?_eq_some.1 hdot
    obtain ⟨_, hlevel, h⟩ := bind_eq_ok.1 h
    obtain ⟨level, rfl⟩ := descend_eq_ok.1 hlevel
    obtain ⟨⟨name, rest₂⟩, htake, h⟩ := bind_eq_ok.1 h
    obtain ⟨hname, hrest₁⟩ := take_eq_ok.1 htake
    have hrest₂ : rest₂.length < tokens.length := by
      rw [htokens, hrest₁, List.length_cons, List.length_cons]
      omega
    exact htokens ▸ hrest₁ ▸ .member hkind level hname (PostfixRestRun.of_outcome h)
  | none =>
    cases hbracket : front? .lbracket tokens with
    | some rest₁ =>
      rw [hdot, hbracket] at h
      obtain ⟨bracket, hkind, htokens⟩ := front?_eq_some.1 hbracket
      have hrest₁ : rest₁.length < tokens.length := by simp [htokens]
      obtain ⟨_, hlevel, h⟩ := bind_eq_ok.1 h
      obtain ⟨level, rfl⟩ := descend_eq_ok.1 hlevel
      obtain ⟨⟨key, rest₂⟩, hkey, h⟩ := bind_eq_ok.1 h
      obtain ⟨⟨closing, rest₃⟩, htake, hrest⟩ := bind_eq_ok.1 h
      obtain ⟨hclosing, rfl⟩ := take_eq_ok.1 htake
      have hrest₃ : rest₃.length + 1 < rest₁.length := length_lt_of_outcome hkey
      exact htokens ▸ .index hkind level (ConditionalRun.of_outcome hkey) hclosing
        (PostfixRestRun.of_outcome hrest)
    | none =>
      cases hparen : front? .lparen tokens with
      | some rest₁ =>
        rw [hdot, hbracket, hparen] at h
        obtain ⟨paren, hkind, htokens⟩ := front?_eq_some.1 hparen
        have hrest₁ : rest₁.length < tokens.length := by simp [htokens]
        obtain ⟨_, hlevel, h⟩ := bind_eq_ok.1 h
        obtain ⟨level, rfl⟩ := descend_eq_ok.1 hlevel
        obtain ⟨⟨arguments, rest₂⟩, harguments, h⟩ := bind_eq_ok.1 h
        have hrest₂ := length_lt_of_outcome harguments
        exact htokens ▸ .call hkind level (ListRun.of_outcome harguments)
          (PostfixRestRun.of_outcome h)
      | none =>
        rw [hdot, hbracket, hparen] at h
        cases h
        exact .stop hdot hbracket hparen
termination_by 8 * tokens.length

/-- A primary expression is a leaf or begins with a bracket. -/
theorem PrimaryRun.of_outcome {depth : Nat} {tokens rest : List Token} {tree : SyntaxTree}
    (h : outcome (g.primary depth tokens) = .ok (tree, rest)) :
    PrimaryRun g depth tokens tree rest := by
  match tokens with
  | [] =>
    rw [outcome_primary_nil] at h
    cases h
  | t :: tokens =>
    rw [outcome_primary_cons, primaryRest] at h
    cases hleaf : leaf? t with
    | some result =>
      rw [hleaf] at h
      rcases result with e | tree'
      · cases h
      · cases h
        exact .leaf hleaf
    | none =>
      simp only [hleaf] at h
      split at h
      · next hparen =>
        obtain ⟨⟨inner, rest₁⟩, hinner, h⟩ := bind_eq_ok.1 h
        have innerRun := ConditionalRun.of_outcome hinner
        obtain ⟨⟨closing, rest₂⟩, htake, h⟩ := bind_eq_ok.1 h
        obtain ⟨hclosing, rfl⟩ := take_eq_ok.1 htake
        cases h
        exact .parentheses hparen innerRun hclosing
      · split at h
        · next hbracket =>
          obtain ⟨⟨items, rest₁⟩, hitems, h⟩ := bind_eq_ok.1 h
          have itemsRun := ListRun.of_outcome hitems
          cases h
          exact .array hbracket itemsRun
        · cases h
termination_by 8 * tokens.length + 2

theorem ListRun.of_outcome {depth : Nat} {close : TokenKind} {tokens rest : List Token}
    {items : List SyntaxTree} (h : outcome (g.list depth close tokens) = .ok (items, rest)) :
    ListRun g depth close tokens items rest := by
  rw [outcome_list] at h
  cases hfront : front? close tokens with
  | some rest₁ =>
    rw [hfront] at h
    obtain ⟨closing, hclosing, rfl⟩ := front?_eq_some.1 hfront
    cases h
    exact .nil hclosing
  | none =>
    rw [hfront] at h
    exact .items hfront (ItemsRun.of_outcome h)
termination_by 8 * tokens.length + 7

/-- Items are told apart by what stands behind them: a comma or the end. -/
theorem ItemsRun.of_outcome {depth : Nat} {close : TokenKind} {tokens rest : List Token}
    {items : List SyntaxTree} (h : outcome (g.items depth close tokens) = .ok (items, rest)) :
    ItemsRun g depth close tokens items rest := by
  rw [outcome_items] at h
  obtain ⟨⟨item, rest₁⟩, hitem, h⟩ := bind_eq_ok.1 h
  have itemRun := ConditionalRun.of_outcome hitem
  dsimp only at h
  cases hfront : front? .comma rest₁ with
  | some rest₂ =>
    rw [hfront] at h
    obtain ⟨comma, hcomma, rfl⟩ := front?_eq_some.1 hfront
    have hrest₂ : rest₂.length + 1 < tokens.length := length_lt_of_outcome hitem
    obtain ⟨⟨more, rest₃⟩, hmore, h⟩ := bind_eq_ok.1 h
    have moreRun := ItemsRun.of_outcome hmore
    cases h
    exact .more itemRun hcomma moreRun
  | none =>
    rw [hfront] at h
    obtain ⟨⟨closing, rest₂⟩, htake, hrest⟩ := bind_eq_ok.1 h
    obtain ⟨hclosing, rfl⟩ := take_eq_ok.1 htake
    cases hrest
    -- A closing token that is a comma would have been taken for one.
    refine .last itemRun (fun hcomma ↦ ?_) hclosing
    rw [front?_eq_some.2 ⟨_, hcomma, rfl⟩] at hfront
    cases hfront
termination_by 8 * tokens.length + 6

end

/-! ### Whole sources -/

/-- Every expression of a source is read with all levels left. -/
theorem exists_run_of_expressions {tokens : List Token} {items : List SyntaxTree}
    (h : g.expressions tokens = .ok items) :
    ∀ item ∈ items, ∃ tokens rest, ConditionalRun g 0 tokens item rest := by
  match tokens with
  | [] =>
    rw [expressions_nil] at h
    cases h
    exact nofun
  | t :: tokens =>
    rw [expressions_cons] at h
    split at h
    · exact exists_run_of_expressions h
    · obtain ⟨⟨first, rest⟩, hfirst, h⟩ := bind_eq_ok.1 h
      have hrest : rest.length ≤ tokens.length := Nat.le_of_lt_succ (length_lt_of_outcome hfirst)
      obtain ⟨more, hmore, h⟩ := bind_eq_ok.1 h
      have ih := exists_run_of_expressions hmore
      cases h
      exact List.forall_mem_cons.2 ⟨⟨_, _, .of_outcome hfirst⟩, ih⟩
termination_by tokens.length

/-- A source of a single expression. -/
theorem expressions_of_run {tokens : List Token} {tree : SyntaxTree}
    (h : ConditionalRun g 0 tokens tree [])
    (hbegins : ∀ t ∈ tokens.head?, ¬ (t.kind = .comma ∨ t.kind = .semicolon)) :
    g.expressions tokens = .ok [tree] := by
  cases tokens with
  | nil => exact absurd (length_lt_of_outcome h.outcome_eq) (Nat.not_lt_zero _)
  | cons t tokens =>
    rw [expressions_cons, if_neg (hbegins t rfl)]
    refine bind_eq_ok.2 ⟨_, h.outcome_eq, ?_⟩
    exact bind_eq_ok.2 ⟨[], expressions_nil g, rfl⟩

end Grammar

/-- A source is read if it can be cut into tokens and these are read as expressions. -/
theorem parse_eq_ok {table : OperatorTable} {source : List Char} {tree : SyntaxTree} :
    parse table source = .ok tree ↔
      ∃ tokens items, Token.tokenize table source = .ok tokens ∧
        Grammar.expressions ⟨table, source.length⟩ tokens.dropLast = .ok items ∧
        tree = ofItems items := by
  rw [parse]
  cases Token.tokenize table source with
  | error e => exact iff_of_false nofun fun ⟨_, _, h, _⟩ ↦ nomatch h
  | ok tokens =>
    cases hitems : Grammar.expressions ⟨table, source.length⟩ tokens.dropLast with
    | error e =>
      simp only [hitems]
      refine iff_of_false nofun ?_
      rintro ⟨_, _, ⟨⟩, h, _⟩
      rw [hitems] at h
      cases h
    | ok items =>
      simp only [hitems]
      constructor
      · rintro ⟨⟩
        exact ⟨tokens, items, rfl, hitems, rfl⟩
      · rintro ⟨_, _, ⟨⟩, h, rfl⟩
        rw [hitems] at h
        cases h
        rfl

end FeatureStyle.SyntaxTree
