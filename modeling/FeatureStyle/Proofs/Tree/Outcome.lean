import FeatureStyle.Tree.Parser

/-!
# What readers give

A reader of syntax trees gives back the tokens after its tree together with a proof that they are
fewer. The proofs are there for termination and say nothing about the tree, so what a reader gives
is looked at without them: `outcome` forgets them, and there is one equation for the outcome of each
reader (`outcome_conditional`, `outcome_binary` and so on). Nothing else unfolds a reader.

The equations are stated with the token at the front in view: `front? kind` is the rest behind a
token of the given kind, and `frontOperator?` the binary operator at the front.
-/

namespace FeatureStyle.SyntaxTree

/-- What a reader gives, without the proof about the rest. -/
def outcome {α : Type} {P : List Token → Prop}
    (r : Except ParseError (α × { rest : List Token // P rest })) :
    Except ParseError (α × List Token) :=
  r.map fun (a, rest) ↦ (a, rest.1)

section Outcome

variable {α β : Type} {P Q : List Token → Prop}

@[simp] theorem outcome_ok (a : α) (rest : { rest : List Token // P rest }) :
    outcome (.ok (a, rest)) = .ok (a, rest.1) := rfl

@[simp] theorem outcome_error (e : ParseError) :
    outcome (.error e : Except ParseError (α × { rest : List Token // P rest })) = .error e := rfl

/-- One reader after another, if what the second one gives does not depend on the proof. -/
theorem outcome_bind {r : Except ParseError (α × { rest : List Token // P rest })}
    {f : α × { rest : List Token // P rest } →
      Except ParseError (β × { rest : List Token // Q rest })}
    {k : α × List Token → Except ParseError (β × List Token)}
    (h : ∀ a rest hrest, outcome (f (a, ⟨rest, hrest⟩)) = k (a, rest)) :
    outcome (r >>= f) = outcome r >>= k := by
  rcases r with e | ⟨a, rest, hrest⟩
  · rfl
  · exact h a rest hrest

/-- A reader after a step that may fail. -/
theorem outcome_bind_step {r : Except ParseError α}
    {f : α → Except ParseError (β × { rest : List Token // Q rest })} :
    outcome (r >>= f) = r >>= fun a ↦ outcome (f a) := by
  cases r <;> rfl

end Outcome

namespace Grammar

variable (g : Grammar)

/-- The tokens behind a token of the given kind at the front. -/
def front? (kind : TokenKind) : List Token → Option (List Token)
  | [] => none
  | t :: rest => if t.kind = kind then some rest else none

/-- The binary operator at the front, its precedence and the tokens behind it. -/
def frontOperator? (least : Nat) (tokens : List Token) : Option (String × Nat × List Token) :=
  (g.operator? least tokens).map fun (symbol, precedence, rest) ↦ (symbol, precedence, rest.1)

/-- The unary operator at the front and the tokens behind it. -/
def frontUnary? (tokens : List Token) : Option (String × List Token) :=
  (g.unaryOperator? tokens).map fun (symbol, rest) ↦ (symbol, rest.1)

/-- Takes a token of the given kind, or complains. -/
def take (kind : TokenKind) (tokens : List Token) : Except ParseError (Token × List Token) :=
  outcome (g.expect kind tokens)

/-- Skipping a token is a look at it when the proof is forgotten. -/
theorem skip?_map (kind : TokenKind) (tokens : List Token) :
    (skip? kind tokens).map Subtype.val = front? kind tokens := by
  cases tokens with
  | nil => rfl
  | cons t rest =>
    by_cases ht : t.kind = kind <;> simp [skip?, front?, ht]

/-- A conditional expression is its test, or has two branches behind it. -/
theorem outcome_conditional (depth : Nat) (tokens : List Token) :
    outcome (g.conditional depth tokens) = do
      let depth ← g.descend depth tokens
      let (test, rest) ← outcome (g.binary depth 0 tokens)
      match front? .question rest with
      | none => return (test, rest)
      | some rest => do
        let (consequent, rest) ← outcome (g.conditional depth rest)
        let (_, rest) ← g.take .colon rest
        let (alternate, rest) ← outcome (g.conditional depth rest)
        return (.conditional test consequent alternate, rest) := by
  rw [conditional, outcome_bind_step]
  refine bind_congr fun depth ↦ outcome_bind fun test rest h ↦ ?_
  dsimp only
  rw [← skip?_map]
  rcases skip? .question rest with - | ⟨rest₁, h₁⟩
  · rfl
  · refine outcome_bind fun consequent rest₂ h₂ ↦ ?_
    refine outcome_bind fun _ rest₃ h₃ ↦ ?_
    exact outcome_bind fun alternate rest₄ h₄ ↦ rfl

/-- An operator expression is its first operand and the operators behind it. -/
theorem outcome_binary (depth least : Nat) (tokens : List Token) :
    outcome (g.binary depth least tokens) =
      (do
        let (left, rest) ← outcome (g.unary depth tokens)
        outcome (g.binaryRest depth least left rest)) := by
  rw [binary]
  refine outcome_bind fun left rest h ↦ ?_
  dsimp only
  -- What is read behind `left` comes with a proof about `rest`, which becomes one about `tokens`.
  rcases g.binaryRest depth least left rest with e | ⟨tree, rest', h'⟩ <;> rfl

/-- An operator joins what has been read with a right side, and the result is the left side of the
next one. -/
theorem outcome_binaryRest (depth least : Nat) (left : SyntaxTree) (tokens : List Token) :
    outcome (g.binaryRest depth least left tokens) =
      match g.frontOperator? least tokens with
      | none => .ok (left, tokens)
      | some (operator, precedence, rest) => (do
        let depth ← g.descend depth tokens
        let (right, rest) ← outcome (g.binary depth (precedence + 1) rest)
        outcome (g.binaryRest depth least (joinBinary operator left right) rest)) := by
  rw [binaryRest, frontOperator?]
  rcases g.operator? least tokens with - | ⟨operator, precedence, rest, h⟩
  · rfl
  · rw [Option.map_some]
    dsimp only
    rw [outcome_bind_step]
    refine bind_congr fun depth ↦ outcome_bind fun right rest₁ h₁ ↦ ?_
    dsimp only
    rcases g.binaryRest depth least (joinBinary operator left right) rest₁
      with e | ⟨tree, rest₂, h₂⟩ <;> rfl

/-- An operator before an operand takes a level, and without one there is a primary expression. -/
theorem outcome_unary (depth : Nat) (tokens : List Token) :
    outcome (g.unary depth tokens) =
      match g.frontUnary? tokens with
      | some (operator, rest) => do
        let depth ← g.descend depth tokens
        let (operand, rest) ← outcome (g.unary depth rest)
        return (.unary operator operand, rest)
      | none => (do
        let (object, rest) ← outcome (g.primary depth tokens)
        outcome (g.postfixRest depth object rest)) := by
  rw [unary, frontUnary?]
  rcases g.unaryOperator? tokens with - | ⟨operator, rest, h⟩
  · rw [Option.map_none]
    refine outcome_bind fun object rest h ↦ ?_
    dsimp only
    rcases g.postfixRest depth object rest with e | ⟨tree, rest₁, h₁⟩ <;> rfl
  · rw [Option.map_some]
    dsimp only
    rw [outcome_bind_step]
    exact bind_congr fun depth ↦ outcome_bind fun operand rest₁ h₁ ↦ rfl

/-- A member or a call is the object of the next one. -/
theorem outcome_postfixRest (depth : Nat) (object : SyntaxTree) (tokens : List Token) :
    outcome (g.postfixRest depth object tokens) =
      match front? .dot tokens, front? .lbracket tokens, front? .lparen tokens with
      | some rest, _, _ => do
        let depth ← g.descend depth tokens
        let (name, rest) ← g.take .identifier rest
        outcome (g.postfixRest depth (.member object (.identifier name.lexeme) false) rest)
      | none, some rest, _ => do
        let depth ← g.descend depth tokens
        let (key, rest) ← outcome (g.conditional depth rest)
        let (_, rest) ← g.take .rbracket rest
        outcome (g.postfixRest depth (.member object key true) rest)
      | none, none, some rest => do
        let depth ← g.descend depth tokens
        let (arguments, rest) ← outcome (g.list depth .rparen rest)
        outcome (g.postfixRest depth (.call object arguments) rest)
      | none, none, none => .ok (object, tokens) := by
  rw [postfixRest, ← skip?_map, ← skip?_map, ← skip?_map]
  -- The three tokens are looked for one after the other, and the first one that is there counts.
  rcases skip? .dot tokens with - | ⟨rest, h⟩
  · rcases skip? .lbracket tokens with - | ⟨rest, h⟩
    · rcases skip? .lparen tokens with - | ⟨rest, h⟩
      · rfl
      · simp only [Option.map_none, Option.map_some]
        rw [outcome_bind_step]
        refine bind_congr fun depth ↦ outcome_bind fun arguments rest₁ h₁ ↦ ?_
        dsimp only
        rcases g.postfixRest depth (.call object arguments) rest₁ with e | ⟨tree, rest₂, h₂⟩ <;> rfl
    · simp only [Option.map_none, Option.map_some]
      rw [outcome_bind_step]
      refine bind_congr fun depth ↦ outcome_bind fun key rest₁ h₁ ↦ ?_
      refine outcome_bind fun _ rest₂ h₂ ↦ ?_
      dsimp only
      rcases g.postfixRest depth (.member object key true) rest₂ with e | ⟨tree, rest₃, h₃⟩ <;> rfl
  · simp only [Option.map_some]
    rw [outcome_bind_step]
    refine bind_congr fun depth ↦ outcome_bind fun name rest₁ h₁ ↦ ?_
    dsimp only
    rcases g.postfixRest depth (.member object (.identifier name.lexeme) false) rest₁
      with e | ⟨tree, rest₂, h₂⟩ <;> rfl

/-- What comes after the first token of a primary expression. -/
def primaryRest (depth : Nat) (t : Token) (rest : List Token) :
    Except ParseError (SyntaxTree × List Token) :=
  match leaf? t with
  | some tree => tree.map (·, rest)
  | none =>
    if t.kind = .lparen then do
      let (tree, rest) ← outcome (g.conditional depth rest)
      let (_, rest) ← g.take .rparen rest
      return (tree, rest)
    else if t.kind = .lbracket then do
      let (items, rest) ← outcome (g.list depth .rbracket rest)
      return (.array items, rest)
    else .error (g.unexpected "primary expression" (t :: rest))

/-- Without a token there is no primary expression. -/
theorem outcome_primary_nil (depth : Nat) :
    outcome (g.primary depth []) = .error (g.unexpected "primary expression" []) := by
  rw [primary, outcome_error]

/-- What is read behind the first token depends on its kind. -/
theorem outcome_primary_cons (depth : Nat) (t : Token) (rest : List Token) :
    outcome (g.primary depth (t :: rest)) = g.primaryRest depth t rest := by
  rw [primary, primaryRest]
  -- Only a token without a tree of its own can open a pair of parentheses or brackets.
  rcases leaf? t with - | tree
  · dsimp only
    split
    · refine outcome_bind fun tree rest₁ h₁ ↦ ?_
      exact outcome_bind fun _ rest₂ h₂ ↦ rfl
    · split
      · exact outcome_bind fun items rest₁ h₁ ↦ rfl
      · rfl
  · rcases tree with e | tree <;> rfl

/-- A list is closed at once, or has items. -/
theorem outcome_list (depth : Nat) (close : TokenKind) (tokens : List Token) :
    outcome (g.list depth close tokens) =
      match front? close tokens with
      | some rest => .ok ([], rest)
      | none => outcome (g.items depth close tokens) := by
  rw [list, ← skip?_map]
  rcases skip? close tokens with - | ⟨rest, h⟩ <;> rfl

/-- An item is read, and more of them behind a comma. -/
theorem outcome_items (depth : Nat) (close : TokenKind) (tokens : List Token) :
    outcome (g.items depth close tokens) = do
      let (item, rest) ← outcome (g.conditional depth tokens)
      match front? .comma rest with
      | some rest => do
        let (more, rest) ← outcome (g.items depth close rest)
        return (item :: more, rest)
      | none => do
        let (_, rest) ← g.take close rest
        return ([item], rest) := by
  rw [items]
  refine outcome_bind fun item rest h ↦ ?_
  dsimp only
  rw [← skip?_map]
  rcases skip? .comma rest with - | ⟨rest₁, h₁⟩
  · exact outcome_bind fun _ rest₂ h₂ ↦ rfl
  · exact outcome_bind fun more rest₂ h₂ ↦ rfl

theorem expressions_nil : g.expressions [] = .ok [] := by
  rw [expressions]

/-- A mark between expressions is skipped, and otherwise an expression is read at full depth. -/
theorem expressions_cons (t : Token) (rest : List Token) :
    g.expressions (t :: rest) =
      if t.kind = .comma ∨ t.kind = .semicolon then g.expressions rest
      else do
        let (item, rest) ← outcome (g.conditional 0 (t :: rest))
        let items ← g.expressions rest
        return item :: items := by
  rw [expressions]
  rcases g.conditional 0 (t :: rest) with e | ⟨item, rest', h⟩ <;> rfl

end Grammar

end FeatureStyle.SyntaxTree
