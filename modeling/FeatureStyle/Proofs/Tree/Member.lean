import FeatureStyle.Proofs.Token.Word
import FeatureStyle.Proofs.Tree.Soundness

/-!
# Reading names and members

A name by itself is read as an identifier and a text in quotes by itself as a literal. A name behind
another one and a dot is read as the key of a member, and so is a text in quotes between brackets.
Where a name is read, it does not matter what else it is the name of, since nothing is looked up
here.
-/

namespace FeatureStyle.SyntaxTree

open Phrase
open Token (IsName)

namespace Grammar

variable {g : Grammar} {depth : Nat} {tokens rest : List Token} {t : Token}
  {object tree : SyntaxTree}

/-- A leaf, and members and calls behind it. -/
theorem ConditionalRun.of_leaf (hleaf : leaf? t = some (.ok object))
    (hrest : PostfixRestRun g (depth + 1) object tokens tree rest) (level : depth < nestingLimit)
    (hends : Ends g.table rest) : ConditionalRun g depth (t :: tokens) tree rest := by
  obtain ⟨-, hbelow, hquestion⟩ := ends_iff.1 hends
  have hkind : t.kind ≠ .operator := by
    intro h
    simp [leaf?, h] at hleaf
  exact .test level
    (.mk (.operand (frontUnary?_cons_of_ne hkind tokens) (.leaf hleaf) hrest)
      (.stop (operatorBelow_iff.1 hbelow)))
    (front?_eq_none.2 hquestion)

end Grammar

variable {table : OperatorTable} {object name : String}

/-- A source of one expression that begins with an identifier or a literal. -/
theorem parse_of_run {source : List Char} {tokens : List Token} {stop : Nat} {tree : SyntaxTree}
    (htokens : Token.tokenize table source = .ok (tokens ++ [.eof stop]))
    (hbegins : ∀ t ∈ tokens.head?, t.kind = .identifier ∨ t.kind = .string)
    (hrun : Grammar.ConditionalRun ⟨table, source.length⟩ 0 tokens tree []) :
    parse table source = .ok tree := by
  refine parse_eq_ok.2 ⟨_, [tree], htokens, ?_, rfl⟩
  rw [List.dropLast_concat]
  refine Grammar.expressions_of_run hrun fun t ht ↦ ?_
  rcases hbegins t ht with hkind | hkind <;> simp [hkind]

theorem leaf?_ofName (name : String) (position : Nat) :
    Grammar.leaf? (Token.ofName name position) = some (.ok (.identifier name)) := rfl

/-- A name by itself. -/
theorem parse_name (h : IsName table name) : parse table name.toList = .ok (.identifier name) := by
  have htokens : Token.tokenize table name.toList =
      .ok ([.ofName name 0] ++ [.eof (0 + name.length)]) := Token.tokensFrom_name_nil h
  refine parse_of_run htokens (by rintro _ ⟨⟩; exact .inl rfl) ?_
  exact .of_leaf (leaf?_ofName name 0) (.stop rfl rfl rfl) (by decide) nofun

/-- A name behind a dot. -/
theorem parse_dot (hobject : IsName table object) (hname : IsName table name) :
    parse table (object.toList ++ '.' :: name.toList) =
      .ok (.member (.identifier object) (.identifier name) false) := by
  let p := 0 + object.length
  have htokens : Token.tokenize table (object.toList ++ '.' :: name.toList) =
      .ok ([.ofName object 0, .ofSpan .dot ['.'] p 1, .ofName name (p + 1)] ++
        [.eof (p + 1 + name.length)]) := by
    rw [Token.tokenize, Token.tokensFrom_name hobject (by rintro _ ⟨⟩; decide),
      Token.tokensFrom_punctuation rfl fun _ ↦ hname.isWord.startsWithDigit,
      Token.tokensFrom_name_nil hname]
    rfl
  refine parse_of_run htokens (by rintro _ ⟨⟩; exact .inl rfl) ?_
  refine .of_leaf (leaf?_ofName object 0) ?_ (by decide) nofun
  exact .member rfl (by decide) rfl (.stop rfl rfl rfl)

/-- A text in quotes between brackets. -/
theorem parse_brackets {body : List Char} (hobject : IsName table object) (hquote : '\'' ∉ body)
    (hbackslash : '\\' ∉ body) :
    parse table (object.toList ++ '[' :: '\'' :: (body ++ ['\'', ']'])) =
      .ok (.member (.identifier object) (.literal (.string (String.ofList body))) true) := by
  let p := 0 + object.length
  let q := p + 1 + (body.length + 2)
  have hpoint {c : Char} (hc : c ≠ '.') (cs : List Char) :
      c = '.' → Token.startsWithDigit cs = false :=
    fun h ↦ absurd h hc
  have htokens : Token.tokenize table (object.toList ++ '[' :: '\'' :: (body ++ ['\'', ']'])) =
      .ok ([.ofName object 0, .ofSpan .lbracket ['['] p 1,
        .ofSpan .string body (p + 1) (body.length + 2), .ofSpan .rbracket [']'] q 1] ++
        [.eof (q + 1)]) := by
    rw [Token.tokenize, Token.tokensFrom_name hobject (by rintro _ ⟨⟩; decide),
      Token.tokensFrom_punctuation rfl (hpoint (by decide) _),
      Token.tokensFrom_quoted rfl hquote hbackslash,
      Token.tokensFrom_punctuation rfl (hpoint (by decide) _), Token.tokensFrom_nil]
    rfl
  refine parse_of_run htokens (by rintro _ ⟨⟩; exact .inl rfl) ?_
  refine .of_leaf (leaf?_ofName object 0) ?_ (by decide) nofun
  refine .index rfl (by decide) (.of_leaf rfl (.stop rfl rfl rfl) (by decide) ?_) rfl
    (.stop rfl rfl rfl)
  exact ends_cons (show _ = TokenKind.rbracket from rfl) (by decide) _

/-- A text in quotes by itself. -/
theorem parse_quoted {q : Char} {body : List Char} (hq : Token.isQuote q) (hquote : q ∉ body)
    (hbackslash : '\\' ∉ body) :
    parse table (q :: (body ++ [q])) = .ok (.literal (.string (String.ofList body))) := by
  have htokens : Token.tokenize table (q :: (body ++ [q])) =
      .ok ([.ofSpan .string body 0 (body.length + 2)] ++ [.eof (0 + (body.length + 2))]) := by
    rw [Token.tokenize, Token.tokensFrom_quoted hq hquote hbackslash, Token.tokensFrom_nil]
    rfl
  refine parse_of_run htokens (by rintro _ ⟨⟩; exact .inr rfl) ?_
  exact .of_leaf rfl (.stop rfl rfl rfl) (by decide) nofun

end FeatureStyle.SyntaxTree
