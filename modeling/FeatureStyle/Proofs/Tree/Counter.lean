import FeatureStyle.Tree.Parser

/-!
# Counting levels of nesting

The readers of syntax trees are told how many levels are open around them, so that a level is given
back when its reader is done. The same readers can be written with a counter that goes through all
of them: it goes up where a level is opened, and **each reader takes from it again what it has put
on it**. A conditional and a unary operator take off their one level; the operators of a binary
expression, and the members and calls behind a primary expression, are counted as they are read and
taken off together at the end.

Both ways come to the same (`Counted.parse_eq`). After a tree the counter is where it was before it
(`Counted.conditional_eq` and those around it), whatever has been read in between; after a failure
nothing is read any more. So no level is lost, none is given back twice, and every expression of a
source starts with all of them (`Counted.expressions_eq`).
-/

namespace FeatureStyle.SyntaxTree

/-- What a reader gives that changes a counter. -/
abbrev CountedReading (α : Type) (tokens : List Token) : Type :=
  Except ParseError (α × Nat × { rest : List Token // rest.length < tokens.length })

/-- What such a reader gives that may be content with no token at all. -/
abbrev CountedContinuation (α : Type) (tokens : List Token) : Type :=
  Except ParseError (α × Nat × { rest : List Token // rest.length ≤ tokens.length })

namespace Counted

open Grammar (skip? leaf?)

variable (g : Grammar)

/-! ### Readers with a counter -/

mutual

/-- An expression. Its own level is open until the end. -/
def conditional (count : Nat) (tokens : List Token) : CountedReading SyntaxTree tokens := do
  let count ← g.descend count tokens
  let (test, count, ⟨rest, h⟩) ← binary count 0 tokens
  match skip? .question rest with
  | none => return (test, count - 1, ⟨rest, h⟩)
  | some ⟨rest₁, h₁⟩ =>
    let (consequent, count, ⟨rest₂, h₂⟩) ← conditional count rest₁
    let (_, ⟨rest₃, h₃⟩) ← g.expect .colon rest₂
    let (alternate, count, ⟨rest₄, h₄⟩) ← conditional count rest₃
    return (.conditional test consequent alternate, count - 1, ⟨rest₄, by omega⟩)
termination_by 8 * tokens.length + 5

/-- A binary expression of operators with at least the given precedence. -/
def binary (count least : Nat) (tokens : List Token) : CountedReading SyntaxTree tokens := do
  let (left, count, ⟨rest, h⟩) ← unary count tokens
  let (tree, count, ⟨rest', h'⟩) ← binaryRest count 0 least left rest
  return (tree, count, ⟨rest', by omega⟩)
termination_by 8 * tokens.length + 4

/-- The operators and right operands that go on from a left operand. So many levels are open for
those that have been read. -/
def binaryRest (count nested least : Nat) (left : SyntaxTree) (tokens : List Token) :
    CountedContinuation SyntaxTree tokens := do
  match g.operator? least tokens with
  | none => return (left, count - nested, ⟨tokens, Nat.le_refl _⟩)
  | some (operator, precedence, ⟨rest, h⟩) =>
    let count ← g.descend count tokens
    let (right, count, ⟨rest₁, h₁⟩) ← binary count (precedence + 1) rest
    let (tree, count, ⟨rest₂, h₂⟩) ←
      binaryRest count (nested + 1) least (joinBinary operator left right) rest₁
    return (tree, count, ⟨rest₂, by omega⟩)
termination_by 8 * tokens.length

/-- Unary operators and what they apply to. -/
def unary (count : Nat) (tokens : List Token) : CountedReading SyntaxTree tokens := do
  match g.unaryOperator? tokens with
  | some (operator, ⟨rest, h⟩) =>
    let count ← g.descend count tokens
    let (operand, count, ⟨rest₁, h₁⟩) ← unary count rest
    return (.unary operator operand, count - 1, ⟨rest₁, by omega⟩)
  | none =>
    let (object, count, ⟨rest, h⟩) ← primary count tokens
    let (tree, count, ⟨rest₁, h₁⟩) ← postfixRest count 0 object rest
    return (tree, count, ⟨rest₁, by omega⟩)
termination_by 8 * tokens.length + 3

/-- The members and calls behind a primary expression. So many levels are open for those that have
been read. -/
def postfixRest (count nested : Nat) (object : SyntaxTree) (tokens : List Token) :
    CountedContinuation SyntaxTree tokens := do
  match skip? .dot tokens, skip? .lbracket tokens, skip? .lparen tokens with
  | some ⟨rest, h⟩, _, _ =>
    let count ← g.descend count tokens
    let (name, ⟨rest₁, h₁⟩) ← g.expect .identifier rest
    let (tree, count, ⟨rest₂, h₂⟩) ←
      postfixRest count (nested + 1) (.member object (.identifier name.lexeme) false) rest₁
    return (tree, count, ⟨rest₂, by omega⟩)
  | none, some ⟨rest, h⟩, _ =>
    let count ← g.descend count tokens
    let (property, count, ⟨rest₁, h₁⟩) ← conditional count rest
    let (_, ⟨rest₂, h₂⟩) ← g.expect .rbracket rest₁
    let (tree, count, ⟨rest₃, h₃⟩) ←
      postfixRest count (nested + 1) (.member object property true) rest₂
    return (tree, count, ⟨rest₃, by omega⟩)
  | none, none, some ⟨rest, h⟩ =>
    let count ← g.descend count tokens
    let (arguments, count, ⟨rest₁, h₁⟩) ← list count .rparen rest
    let (tree, count, ⟨rest₂, h₂⟩) ← postfixRest count (nested + 1) (.call object arguments) rest₁
    return (tree, count, ⟨rest₂, by omega⟩)
  | none, none, none => return (object, count - nested, ⟨tokens, Nat.le_refl _⟩)
termination_by 8 * tokens.length

/-- A literal, a name, an array or an expression in parentheses. -/
def primary (count : Nat) : (tokens : List Token) → CountedReading SyntaxTree tokens
  | [] => .error (g.unexpected "primary expression" [])
  | t :: rest =>
    match leaf? t with
    | some tree => tree.map fun tree ↦ (tree, count, ⟨rest, by simp⟩)
    | none =>
      if t.kind = .lparen then do
        let (tree, count, ⟨rest₁, h₁⟩) ← conditional count rest
        let (_, ⟨rest₂, h₂⟩) ← g.expect .rparen rest₁
        return (tree, count, ⟨rest₂, by simp; omega⟩)
      else if t.kind = .lbracket then do
        let (items, count, ⟨rest₁, h₁⟩) ← list count .rbracket rest
        return (.array items, count, ⟨rest₁, by simp; omega⟩)
      else .error (g.unexpected "primary expression" (t :: rest))
termination_by tokens => 8 * tokens.length + 2

/-- Expressions between commas, up to the closing token. -/
def list (count : Nat) (close : TokenKind) (tokens : List Token) :
    CountedReading (List SyntaxTree) tokens :=
  match skip? close tokens with
  | some rest => .ok ([], count, rest)
  | none => items count close tokens
termination_by 8 * tokens.length + 7

/-- At least one expression, and more after commas, up to the closing token. -/
def items (count : Nat) (close : TokenKind) (tokens : List Token) :
    CountedReading (List SyntaxTree) tokens := do
  let (item, count, ⟨rest, h⟩) ← conditional count tokens
  match skip? .comma rest with
  | some ⟨rest₁, h₁⟩ =>
    let (more, count, ⟨rest₂, h₂⟩) ← items count close rest₁
    return (item :: more, count, ⟨rest₂, by omega⟩)
  | none =>
    let (_, ⟨rest₁, h₁⟩) ← g.expect close rest
    return ([item], count, ⟨rest₁, by omega⟩)
termination_by 8 * tokens.length + 6

end

/-- Expressions side by side, up to the end of the source. The counter goes from one to the next. -/
def expressions (count : Nat) (tokens : List Token) : Except ParseError (List SyntaxTree) :=
  match tokens with
  | [] => .ok []
  | t :: rest =>
    if t.kind = .comma ∨ t.kind = .semicolon then expressions count rest
    else do
      let (item, count, ⟨rest, _⟩) ← conditional g count (t :: rest)
      return item :: (← expressions count rest)
termination_by tokens.length
decreasing_by all_goals simp only [List.length_cons] at *; omega

/-- The tree of a source, read with a counter. -/
def parse (table : OperatorTable) (source : List Char) : Except ParseError SyntaxTree :=
  match Token.tokenize table source with
  | .error e => .error (.lex e)
  | .ok tokens => (expressions ⟨table, source.length⟩ 0 tokens.dropLast).map ofItems

/-! ### The counter is given back -/

variable {g}

/-- What a reader without a counter gives, with a counter. -/
def withCount {α : Type} {P : List Token → Prop} (count : Nat)
    (r : Except ParseError (α × { rest : List Token // P rest })) :
    Except ParseError (α × Nat × { rest : List Token // P rest }) :=
  r.map fun (a, rest) ↦ (a, count, rest)

theorem descend_eq_ok {count count' : Nat} {tokens : List Token}
    (h : g.descend count tokens = .ok count') : count' = count + 1 := by
  unfold Grammar.descend at h
  split at h
  · cases h
    rfl
  · cases h

-- The recursion is that of the readers. In each of them the calls are followed in turn; where one
-- fails both sides fail, and where it gives a tree the counter is known again.
mutual

/-- **After an expression the counter is where it was.** -/
theorem conditional_eq (count : Nat) (tokens : List Token) :
    conditional g count tokens = withCount count (g.conditional count tokens) := by
  rw [conditional, Grammar.conditional]
  rcases hdescend : g.descend count tokens with e | opened
  · rfl
  obtain rfl := descend_eq_ok hdescend
  dsimp only [bind, Except.bind]
  rw [binary_eq (count + 1) 0 tokens]
  rcases g.binary (count + 1) 0 tokens with e | ⟨test, rest, h⟩
  · rfl
  dsimp only [withCount, Except.map]
  rcases skip? .question rest with - | ⟨rest₁, h₁⟩
  · rfl
  dsimp only
  rw [conditional_eq (count + 1) rest₁]
  rcases g.conditional (count + 1) rest₁ with e | ⟨consequent, rest₂, h₂⟩
  · rfl
  dsimp only [withCount, Except.map]
  rcases g.expect .colon rest₂ with e | ⟨colon, rest₃, h₃⟩
  · rfl
  dsimp only
  rw [conditional_eq (count + 1) rest₃]
  rcases g.conditional (count + 1) rest₃ with e | ⟨alternate, rest₄, h₄⟩ <;> rfl
termination_by 8 * tokens.length + 5

theorem binary_eq (count least : Nat) (tokens : List Token) :
    binary g count least tokens = withCount count (g.binary count least tokens) := by
  rw [binary, Grammar.binary, unary_eq count tokens]
  rcases g.unary count tokens with e | ⟨left, rest, h⟩
  · rfl
  dsimp only [withCount, Except.map, bind, Except.bind]
  rw [binaryRest_eq count 0 least left rest]
  rcases g.binaryRest count least left rest with e | ⟨tree, rest', h'⟩ <;> rfl
termination_by 8 * tokens.length + 4

/-- Behind the operators of an expression the levels that were open for them are taken off. -/
theorem binaryRest_eq (count nested least : Nat) (left : SyntaxTree) (tokens : List Token) :
    binaryRest g count nested least left tokens =
      withCount (count - nested) (g.binaryRest count least left tokens) := by
  rw [binaryRest, Grammar.binaryRest]
  rcases g.operator? least tokens with - | ⟨operator, precedence, rest, h⟩
  · rfl
  dsimp only
  rcases hdescend : g.descend count tokens with e | opened
  · rfl
  obtain rfl := descend_eq_ok hdescend
  dsimp only [bind, Except.bind]
  rw [binary_eq (count + 1) (precedence + 1) rest]
  rcases g.binary (count + 1) (precedence + 1) rest with e | ⟨right, rest₁, h₁⟩
  · rfl
  dsimp only [withCount, Except.map]
  rw [binaryRest_eq (count + 1) (nested + 1) least (joinBinary operator left right) rest₁,
    Nat.add_sub_add_right]
  rcases g.binaryRest (count + 1) least (joinBinary operator left right) rest₁
    with e | ⟨tree, rest₂, h₂⟩ <;> rfl
termination_by 8 * tokens.length

theorem unary_eq (count : Nat) (tokens : List Token) :
    unary g count tokens = withCount count (g.unary count tokens) := by
  rw [unary, Grammar.unary]
  rcases g.unaryOperator? tokens with - | ⟨operator, rest, h⟩
  · dsimp only
    rw [primary_eq count tokens]
    rcases g.primary count tokens with e | ⟨object, rest, h⟩
    · rfl
    dsimp only [withCount, Except.map, bind, Except.bind]
    rw [postfixRest_eq count 0 object rest]
    rcases g.postfixRest count object rest with e | ⟨tree, rest₁, h₁⟩ <;> rfl
  · dsimp only
    rcases hdescend : g.descend count tokens with e | opened
    · rfl
    obtain rfl := descend_eq_ok hdescend
    dsimp only [bind, Except.bind]
    rw [unary_eq (count + 1) rest]
    rcases g.unary (count + 1) rest with e | ⟨operand, rest₁, h₁⟩ <;> rfl
termination_by 8 * tokens.length + 3

/-- Behind members and calls the levels that were open for them are taken off. -/
theorem postfixRest_eq (count nested : Nat) (object : SyntaxTree) (tokens : List Token) :
    postfixRest g count nested object tokens =
      withCount (count - nested) (g.postfixRest count object tokens) := by
  rw [postfixRest, Grammar.postfixRest]
  rcases hdescend : g.descend count tokens with e | opened
  · rcases skip? .dot tokens with - | ⟨rest, h⟩
    · rcases skip? .lbracket tokens with - | ⟨rest, h⟩
      · rcases skip? .lparen tokens with - | ⟨rest, h⟩ <;> rfl
      · rfl
    · rfl
  obtain rfl := descend_eq_ok hdescend
  rcases skip? .dot tokens with - | ⟨rest, h⟩
  · rcases skip? .lbracket tokens with - | ⟨rest, h⟩
    · rcases skip? .lparen tokens with - | ⟨rest, h⟩
      · rfl
      · dsimp only [bind, Except.bind]
        rw [list_eq (count + 1) .rparen rest]
        rcases g.list (count + 1) .rparen rest with e | ⟨arguments, rest₁, h₁⟩
        · rfl
        dsimp only [withCount, Except.map]
        rw [postfixRest_eq (count + 1) (nested + 1) (.call object arguments) rest₁,
          Nat.add_sub_add_right]
        rcases g.postfixRest (count + 1) (.call object arguments) rest₁
          with e | ⟨tree, rest₂, h₂⟩ <;> rfl
    · dsimp only [bind, Except.bind]
      rw [conditional_eq (count + 1) rest]
      rcases g.conditional (count + 1) rest with e | ⟨key, rest₁, h₁⟩
      · rfl
      dsimp only [withCount, Except.map]
      rcases g.expect .rbracket rest₁ with e | ⟨bracket, rest₂, h₂⟩
      · rfl
      dsimp only
      rw [postfixRest_eq (count + 1) (nested + 1) (.member object key true) rest₂,
        Nat.add_sub_add_right]
      rcases g.postfixRest (count + 1) (.member object key true) rest₂
        with e | ⟨tree, rest₃, h₃⟩ <;> rfl
  · dsimp only [bind, Except.bind]
    rcases g.expect .identifier rest with e | ⟨name, rest₁, h₁⟩
    · rfl
    dsimp only
    rw [postfixRest_eq (count + 1) (nested + 1) (.member object (.identifier name.lexeme) false)
      rest₁, Nat.add_sub_add_right]
    rcases g.postfixRest (count + 1) (.member object (.identifier name.lexeme) false) rest₁
      with e | ⟨tree, rest₂, h₂⟩ <;> rfl
termination_by 8 * tokens.length

theorem primary_eq (count : Nat) (tokens : List Token) :
    primary g count tokens = withCount count (g.primary count tokens) := by
  rcases tokens with - | ⟨t, rest⟩
  · rw [primary, Grammar.primary]
    rfl
  rw [primary, Grammar.primary]
  rcases leaf? t with - | tree
  · dsimp only
    split
    · rw [conditional_eq count rest]
      rcases g.conditional count rest with e | ⟨tree, rest₁, h₁⟩
      · rfl
      dsimp only [withCount, Except.map, bind, Except.bind]
      rcases g.expect .rparen rest₁ with e | ⟨paren, rest₂, h₂⟩ <;> rfl
    split
    · rw [list_eq count .rbracket rest]
      rcases g.list count .rbracket rest with e | ⟨items, rest₁, h₁⟩ <;> rfl
    · rfl
  · rcases tree with e | tree <;> rfl
termination_by 8 * tokens.length + 2

theorem list_eq (count : Nat) (close : TokenKind) (tokens : List Token) :
    list g count close tokens = withCount count (g.list count close tokens) := by
  rw [list, Grammar.list, items_eq count close tokens]
  rcases skip? close tokens with - | rest <;> rfl
termination_by 8 * tokens.length + 7

theorem items_eq (count : Nat) (close : TokenKind) (tokens : List Token) :
    items g count close tokens = withCount count (g.items count close tokens) := by
  rw [items, Grammar.items, conditional_eq count tokens]
  rcases g.conditional count tokens with e | ⟨item, rest, h⟩
  · rfl
  dsimp only [withCount, Except.map, bind, Except.bind]
  rcases skip? .comma rest with - | ⟨rest₁, h₁⟩
  · dsimp only
    rcases g.expect close rest with e | ⟨closing, rest₁, h₁⟩ <;> rfl
  · dsimp only
    rw [items_eq count close rest₁]
    rcases g.items count close rest₁ with e | ⟨more, rest₂, h₂⟩ <;> rfl
termination_by 8 * tokens.length + 6

end

/-- Every expression of a source starts with all levels. -/
theorem expressions_eq (tokens : List Token) : expressions g 0 tokens = g.expressions tokens := by
  rcases tokens with - | ⟨t, rest⟩
  · rw [expressions, Grammar.expressions]
  rw [expressions, Grammar.expressions, expressions_eq rest, conditional_eq 0 (t :: rest)]
  rcases g.conditional 0 (t :: rest) with e | ⟨item, rest', h⟩
  · rfl
  dsimp only [withCount, Except.map, bind, Except.bind]
  rw [expressions_eq rest']
termination_by tokens.length
decreasing_by all_goals simp only [List.length_cons] at *; omega

/-- **A source is read alike with a counter**, or refused for the same reason. -/
theorem parse_eq (table : OperatorTable) (source : List Char) :
    parse table source = SyntaxTree.parse table source := by
  rw [parse, SyntaxTree.parse]
  rcases Token.tokenize table source with e | tokens
  · rfl
  · dsimp only
    rw [expressions_eq]

end Counted

end FeatureStyle.SyntaxTree
