import FeatureStyle.Tree.Parser

/-!
# The grammar of sources

Which trees a source stands for, said without reading it from left to right: a **phrase** is a list
of tokens that makes up an expression of some sort, and `Phrase.Conditional table tokens tree` says
that `tokens` is a conditional phrase for `tree`. The sorts are

* conditional phrases: a binary phrase, or a binary phrase, `?` and two conditional phrases with `:`
  between them;
* binary phrases: a unary phrase, or two binary phrases with a binary operator between them;
* unary phrases: a postfix phrase, or a unary operator and a unary phrase;
* postfix phrases: a primary phrase, or a postfix phrase with a member or a call behind it;
* primary phrases: an atom, a conditional phrase in parentheses, or an array.

**Grouping is a condition on precedences.** A binary phrase knows its *root*, the precedence of the
operator that was put together last, if it is not a mere unary phrase. The root of a left operand is
at least the precedence of the operator behind it, the root of a right operand is greater than the
precedence of the operator before it. A phrase in parentheses is a unary phrase and has no root.

**Side by side.** A whole source is a list of conditional phrases with any number of separators
between, before and after them. Where there is none, what comes behind a phrase must not begin with
a token that goes on with it (`Continues`).
-/

namespace FeatureStyle.Phrase

open SyntaxTree (joinBinary)

/-- A token that is an expression by itself. -/
inductive Atom : Token → SyntaxTree → Prop
  | identifier {t : Token} (h : t.kind = .identifier) : Atom t (.identifier t.lexeme)
  | number {t : Token} {negative d} (h : t.kind = .number)
      (hd : Numeric.Decimal.read? t.lexeme.toList = some (negative, d)) :
      Atom t (.literal (.number (d.toFloat negative)))
  | string {t : Token} (h : t.kind = .string) : Atom t (.literal (.string t.lexeme))
  | true {t : Token} (h : t.kind = .true) : Atom t (.literal (.bool Bool.true))
  | false {t : Token} (h : t.kind = .false) : Atom t (.literal (.bool Bool.false))
  | null {t : Token} (h : t.kind = .null) : Atom t (.literal .null)

mutual

/-- A conditional phrase. -/
inductive Conditional (table : OperatorTable) : List Token → SyntaxTree → Prop
  | binary {root tokens tree} (h : Binary table root tokens tree) : Conditional table tokens tree
  | branches {root test question consequent colon alternate a b c}
      (htest : Binary table root test a) (hquestion : question.kind = .question)
      (hconsequent : Conditional table consequent b) (hcolon : colon.kind = .colon)
      (halternate : Conditional table alternate c) :
      Conditional table (test ++ question :: (consequent ++ colon :: alternate))
        (.conditional a b c)

/-- A binary phrase with its root. -/
inductive Binary (table : OperatorTable) : Option Nat → List Token → SyntaxTree → Prop
  | operand {tokens tree} (h : Unary table tokens tree) : Binary table none tokens tree
  | operator {leftRoot rightRoot precedence left t right a b} (hleft : Binary table leftRoot left a)
      (hkind : t.kind = .operator) (hprecedence : table.precedence? t.lexeme = some precedence)
      (hright : Binary table rightRoot right b) (hleftRoot : ∀ p ∈ leftRoot, precedence ≤ p)
      (hrightRoot : ∀ p ∈ rightRoot, precedence < p) :
      Binary table (some precedence) (left ++ t :: right) (joinBinary t.lexeme a b)

/-- A unary phrase. -/
inductive Unary (table : OperatorTable) : List Token → SyntaxTree → Prop
  | operator {t tokens a} (hkind : t.kind = .operator) (hunary : table.isUnary t.lexeme)
      (h : Unary table tokens a) : Unary table (t :: tokens) (.unary t.lexeme a)
  | operand {tokens tree} (h : Postfix table tokens tree) : Unary table tokens tree

/-- A postfix phrase. -/
inductive Postfix (table : OperatorTable) : List Token → SyntaxTree → Prop
  | primary {tokens tree} (h : Primary table tokens tree) : Postfix table tokens tree
  | member {tokens object dot name} (h : Postfix table tokens object) (hdot : dot.kind = .dot)
      (hname : name.kind = .identifier) :
      Postfix table (tokens ++ [dot, name]) (.member object (.identifier name.lexeme) false)
  | index {tokens object bracket inner key closing} (h : Postfix table tokens object)
      (hbracket : bracket.kind = .lbracket) (hkey : Conditional table inner key)
      (hclosing : closing.kind = .rbracket) :
      Postfix table (tokens ++ bracket :: (inner ++ [closing])) (.member object key true)
  | call {tokens callee paren inner arguments closing} (h : Postfix table tokens callee)
      (hparen : paren.kind = .lparen) (harguments : Listed table inner arguments)
      (hclosing : closing.kind = .rparen) :
      Postfix table (tokens ++ paren :: (inner ++ [closing])) (.call callee arguments)

/-- A primary phrase. -/
inductive Primary (table : OperatorTable) : List Token → SyntaxTree → Prop
  | atom {t tree} (h : Atom t tree) : Primary table [t] tree
  | parentheses {paren inner tree closing} (hparen : paren.kind = .lparen)
      (h : Conditional table inner tree) (hclosing : closing.kind = .rparen) :
      Primary table (paren :: (inner ++ [closing])) tree
  | array {bracket inner items closing} (hbracket : bracket.kind = .lbracket)
      (h : Listed table inner items) (hclosing : closing.kind = .rbracket) :
      Primary table (bracket :: (inner ++ [closing])) (.array items)

/-- Any number of conditional phrases with commas between them. -/
inductive Listed (table : OperatorTable) : List Token → List SyntaxTree → Prop
  | nil : Listed table [] []
  | items {tokens items} (h : Items table tokens items) : Listed table tokens items

/-- One conditional phrase or more, with commas between them. -/
inductive Items (table : OperatorTable) : List Token → List SyntaxTree → Prop
  | last {tokens item} (h : Conditional table tokens item) : Items table tokens [item]
  | more {tokens item comma rest items} (h : Conditional table tokens item)
      (hcomma : comma.kind = .comma) (hitems : Items table rest items) :
      Items table (tokens ++ comma :: rest) (item :: items)

end

/-- A token that goes on with the expression before it. -/
def Continues (table : OperatorTable) (t : Token) : Prop :=
  (t.kind = .operator ∧ (table.precedence? t.lexeme).isSome) ∨ t.kind = .question ∨
    t.kind = .dot ∨ t.kind = .lbracket ∨ t.kind = .lparen

/-- What comes next does not go on with the expression. -/
def Ends (table : OperatorTable) (rest : List Token) : Prop :=
  ∀ t ∈ rest.head?, ¬ Continues table t

/-- Conditional phrases side by side. -/
inductive SideBySide (table : OperatorTable) : List Token → List SyntaxTree → Prop
  | nil : SideBySide table [] []
  | separator {t rest items} (ht : t.kind = .comma ∨ t.kind = .semicolon)
      (h : SideBySide table rest items) : SideBySide table (t :: rest) items
  | item {tokens item rest items} (hitem : Conditional table tokens item)
      (hrest : Ends table rest) (h : SideBySide table rest items) :
      SideBySide table (tokens ++ rest) (item :: items)

/-- The tokens of a whole source, its end included, and their tree. -/
inductive Source (table : OperatorTable) : List Token → SyntaxTree → Prop
  | single {tokens tree stop} (h : SideBySide table tokens [tree]) (hstop : stop.kind = .eof) :
      Source table (tokens ++ [stop]) tree
  | compound {tokens items stop} (h : SideBySide table tokens items) (hitems : items.length ≠ 1)
      (hstop : stop.kind = .eof) : Source table (tokens ++ [stop]) (.compound items)

/-! ### What comes behind phrases -/

/-- Neither a member nor a call comes next. -/
def PostfixEnds (rest : List Token) : Prop :=
  ∀ t ∈ rest.head?, t.kind ≠ .dot ∧ t.kind ≠ .lbracket ∧ t.kind ≠ .lparen

/-- If a binary operator comes next, its precedence is below the bound. -/
def OperatorBelow (table : OperatorTable) (bound : Nat) (rest : List Token) : Prop :=
  ∀ t ∈ rest.head?, t.kind = .operator → ∀ p ∈ table.precedence? t.lexeme, p < bound

/-- What is below an operator is below every tighter one. -/
theorem OperatorBelow.mono {table : OperatorTable} {m n : Nat} {rest : List Token} (hmn : m ≤ n)
    (h : OperatorBelow table m rest) : OperatorBelow table n rest :=
  fun t ht hkind p hp ↦ Nat.lt_of_lt_of_le (h t ht hkind p hp) hmn

/-- A conditional phrase is ended by what goes on with no member, no operator and no test. -/
theorem ends_iff {table : OperatorTable} {rest : List Token} :
    Ends table rest ↔ PostfixEnds rest ∧ OperatorBelow table 0 rest ∧
      ∀ t ∈ rest.head?, t.kind ≠ .question := by
  simp only [Ends, PostfixEnds, OperatorBelow, Continues, ← forall_and]
  refine forall_congr' fun t ↦ ?_
  -- No precedence is below zero, so that bound only says that no binary operator comes next.
  cases table.precedence? t.lexeme <;> simp <;> grind

/-- Members and calls are ended by a token of any other kind. -/
theorem postfixEnds_cons {t : Token} {kind : TokenKind} (ht : t.kind = kind)
    (h : kind ≠ .dot ∧ kind ≠ .lbracket ∧ kind ≠ .lparen) (rest : List Token) :
    PostfixEnds (t :: rest) := by
  rintro _ ⟨⟩
  exact ht ▸ h

/-- Operators are ended by a token that is none. -/
theorem operatorBelow_cons {table : OperatorTable} {t : Token} {kind : TokenKind} {bound : Nat}
    (ht : t.kind = kind) (h : kind ≠ .operator) (rest : List Token) :
    OperatorBelow table bound (t :: rest) := by
  rintro _ ⟨⟩ hkind
  exact absurd (ht.symm.trans hkind) h

/-- Commas, colons and closing brackets end every phrase. -/
theorem ends_cons {table : OperatorTable} {t : Token} {kind : TokenKind} (ht : t.kind = kind)
    (h : (kind ≠ .dot ∧ kind ≠ .lbracket ∧ kind ≠ .lparen) ∧ kind ≠ .operator ∧ kind ≠ .question)
    (rest : List Token) : Ends table (t :: rest) := by
  refine ends_iff.2 ⟨postfixEnds_cons ht h.1 rest, operatorBelow_cons ht h.2.1 rest, ?_⟩
  rintro _ ⟨⟩
  exact ht ▸ h.2.2

/-! ### How phrases begin -/

/-- A token that a phrase can begin with. -/
def Begins (t : Token) : Prop :=
  t.kind ≠ .rparen ∧ t.kind ≠ .rbracket ∧ t.kind ≠ .comma ∧ t.kind ≠ .semicolon

variable {table : OperatorTable} {root : Option Nat} {tokens : List Token} {tree : SyntaxTree}
  {items : List SyntaxTree}

/-- A primary phrase begins with a token that is no operator. -/
theorem Primary.exists_cons (h : Primary table tokens tree) :
    ∃ t rest, tokens = t :: rest ∧ Begins t ∧ t.kind ≠ .operator := by
  rcases h with @⟨t, tree, hatom⟩ | ⟨hparen, _, _⟩ | ⟨hbracket, _, _⟩
  · refine ⟨t, [], rfl, ?_⟩
    cases hatom <;> simp_all [Begins]
  · exact ⟨_, _, rfl, by simp [Begins, hparen]⟩
  · exact ⟨_, _, rfl, by simp [Begins, hbracket]⟩

/-- A postfix phrase does not begin with an operator. -/
theorem Postfix.exists_cons : ∀ {tokens : List Token} {tree : SyntaxTree},
    Postfix table tokens tree → ∃ t rest, tokens = t :: rest ∧ Begins t ∧ t.kind ≠ .operator
  | _, _, .primary h => h.exists_cons
  | _, _, .member h _ _ | _, _, .index h _ _ _ | _, _, .call h _ _ _ => by
    obtain ⟨t, rest, rfl, ht⟩ := h.exists_cons
    exact ⟨t, _, rfl, ht⟩

theorem Unary.exists_cons (h : Unary table tokens tree) :
    ∃ t rest, tokens = t :: rest ∧ Begins t := by
  rcases h with ⟨hkind, _, _⟩ | h
  · exact ⟨_, _, rfl, by simp [Begins, hkind]⟩
  · obtain ⟨t, rest, rfl, ht, _⟩ := h.exists_cons
    exact ⟨t, rest, rfl, ht⟩

theorem Binary.exists_cons : ∀ {root : Option Nat} {tokens : List Token} {tree : SyntaxTree},
    Binary table root tokens tree → ∃ t rest, tokens = t :: rest ∧ Begins t
  | _, _, _, .operand h => h.exists_cons
  | _, _, _, .operator hleft _ _ _ _ _ => by
    obtain ⟨t, rest, rfl, ht⟩ := hleft.exists_cons
    exact ⟨t, _, rfl, ht⟩

theorem Conditional.exists_cons (h : Conditional table tokens tree) :
    ∃ t rest, tokens = t :: rest ∧ Begins t := by
  rcases h with h | ⟨htest, _, _, _, _⟩
  · exact h.exists_cons
  · obtain ⟨t, rest, rfl, ht⟩ := htest.exists_cons
    exact ⟨t, _, rfl, ht⟩

/-- So every phrase has a first token, and it is one that begins phrases. -/
theorem Items.exists_cons (h : Items table tokens items) :
    ∃ t rest, tokens = t :: rest ∧ Begins t := by
  rcases h with h | ⟨h, _, _⟩
  · exact h.exists_cons
  · obtain ⟨t, rest, rfl, ht⟩ := h.exists_cons
    exact ⟨t, _, rfl, ht⟩

end FeatureStyle.Phrase
