import FeatureStyle.Proofs.Numeric.Acceptance
import FeatureStyle.Proofs.Token.Arrival
import FeatureStyle.Proofs.Token.Behind
import FeatureStyle.Proofs.Tree.Soundness

/-!
# Why sources are refused

A reader that gives no tree complains about what comes next at some place of its tokens
(`Grammar.Complaint`): a token other than the expected one, a level of nesting too many, or a number
that cannot be read. **Every refusal of a reader is such a complaint about its own tokens**
(`refuses_conditional` with its companions). A complaint about what a reader leaves to the next one
is one about the tokens of both (`Complaint.of_suffix`), so the readers are followed as they call
each other, with `Refuses.bind` for one behind another.

Two of the three kinds of complaints remain. A number token is spelled as a decimal
(`exists_parts_of_mem`), and decimals are read as numbers without a sign, so **no source is ever
refused because of a number token** (`number_tokens_read`).
-/

namespace FeatureStyle

namespace SyntaxTree

namespace Grammar

variable {g : Grammar} {tokens rest : List Token} {e : ParseError} {α β : Type}

/-! ### Complaints -/

/-- What a reader of the tokens can complain about. -/
inductive Complaint (g : Grammar) (tokens : List Token) : ParseError → Prop
  | unexpected (expected : String) {rest : List Token} (h : rest <:+ tokens) :
      Complaint g tokens (g.unexpected expected rest)
  | number {t : Token} (ht : t ∈ tokens) (hkind : t.kind = .number)
      (hread : Numeric.Decimal.read? t.lexeme.toList = none) :
      Complaint g tokens (.invalidNumber t.lexeme t.start)
  | tooDeep {rest : List Token} (h : rest <:+ tokens) :
      Complaint g tokens (.tooDeep (g.peek rest).start)

/-- A complaint about later tokens is one about all of them. -/
theorem Complaint.of_suffix (h : Complaint g rest e) (hrest : rest <:+ tokens) :
    Complaint g tokens e := by
  cases h with
  | unexpected expected h => exact .unexpected expected (h.trans hrest)
  | number ht hkind hread => exact .number (hrest.subset ht) hkind hread
  | tooDeep h => exact .tooDeep (h.trans hrest)

/-- If the reading fails, it complains about the tokens. -/
def Refuses (g : Grammar) (tokens : List Token) (r : Except ParseError α) : Prop :=
  ∀ e, r = .error e → g.Complaint tokens e

/-- What succeeds refuses nothing. -/
theorem Refuses.ok (a : α) : g.Refuses tokens (.ok a) := nofun

/-- A reader that complains about later tokens complains about all of them. -/
theorem Refuses.of_suffix {r : Except ParseError α} (h : g.Refuses rest r)
    (hrest : rest <:+ tokens) : g.Refuses tokens r :=
  fun e he ↦ (h e he).of_suffix hrest

/-- One reading behind another, which only comes if the first one gives something. -/
theorem Refuses.bind {r : Except ParseError α} {f : α → Except ParseError β}
    (h : g.Refuses tokens r) (hf : ∀ a, r = .ok a → g.Refuses tokens (f a)) :
    g.Refuses tokens (r >>= f) := by
  rcases r with e | a
  · rintro _ ⟨⟩
    exact h e rfl
  · exact hf a rfl

/-! ### Single steps -/

variable (g : Grammar) (depth : Nat) (tokens : List Token)

/-- A token that was not expected is complained about where it stands, or at the end. -/
theorem refuses_unexpected (expected : String) :
    g.Refuses tokens (.error (g.unexpected expected tokens) : Except ParseError α) := by
  rintro _ ⟨⟩
  exact .unexpected expected List.suffix_rfl

/-- The limit is complained about where it is reached. -/
theorem refuses_descend : g.Refuses tokens (g.descend depth tokens) := by
  intro e he
  rw [descend] at he
  split at he
  · cases he
  · cases he
    exact .tooDeep List.suffix_rfl

/-- A token that is to be taken is complained about if it is of another kind. -/
theorem refuses_take (kind : TokenKind) : g.Refuses tokens (g.take kind tokens) := by
  rcases tokens with - | ⟨t, rest⟩
  · exact g.refuses_unexpected [] kind.name
  · rw [take, expect]
    split
    · exact .ok _
    · exact g.refuses_unexpected (t :: rest) kind.name

/-- A leaf is complained about only if it is a number that has no value. -/
theorem refuses_leaf {t : Token} {r : Except ParseError SyntaxTree} (h : leaf? t = some r)
    (rest : List Token) : g.Refuses (t :: rest) r := by
  rw [leaf?] at h
  split at h
  · cases h; exact .ok _
  · next hkind =>
    cases h
    rw [numberLiteral]
    split
    · exact .ok _
    · next hread =>
      rintro _ ⟨⟩
      exact .number List.mem_cons_self hkind hread
  · cases h; exact .ok _
  · cases h; exact .ok _
  · cases h; exact .ok _
  · cases h; exact .ok _
  · cases h

variable {g} {depth} {tokens} {tree : SyntaxTree}

/-- What a look at the first token leaves is a rest of the tokens. -/
theorem isSuffix_of_front? {kind : TokenKind} (h : front? kind tokens = some rest) :
    rest <:+ tokens := by
  obtain ⟨t, -, rfl⟩ := front?_eq_some.1 h
  exact List.suffix_cons t rest

/-- So is what taking it leaves. -/
theorem isSuffix_of_take {kind : TokenKind} {t : Token} (h : g.take kind tokens = .ok (t, rest)) :
    rest <:+ tokens := by
  obtain ⟨-, rfl⟩ := take_eq_ok.1 h
  exact List.suffix_cons t rest

/-! ### What the readers leave -/

/-- A conditional expression leaves a rest of the tokens. -/
theorem isSuffix_of_conditional (h : outcome (g.conditional depth tokens) = .ok (tree, rest)) :
    rest <:+ tokens := by
  obtain ⟨used, rfl, -⟩ := (ConditionalRun.of_outcome h).phrase
  exact List.suffix_append used rest

/-- So does an operator expression. -/
theorem isSuffix_of_binary {least : Nat}
    (h : outcome (g.binary depth least tokens) = .ok (tree, rest)) : rest <:+ tokens := by
  obtain ⟨-, used, rfl, -⟩ := (BinaryRun.of_outcome h).phrase
  exact List.suffix_append used rest

/-- So does an operand with the operators before it. -/
theorem isSuffix_of_unary (h : outcome (g.unary depth tokens) = .ok (tree, rest)) :
    rest <:+ tokens := by
  obtain ⟨used, rfl, -⟩ := (UnaryRun.of_outcome h).phrase
  exact List.suffix_append used rest

/-- So does a primary expression. -/
theorem isSuffix_of_primary (h : outcome (g.primary depth tokens) = .ok (tree, rest)) :
    rest <:+ tokens := by
  obtain ⟨used, rfl, -⟩ := (PrimaryRun.of_outcome h).phrase
  exact List.suffix_append used rest

/-- So do the items of a list. -/
theorem isSuffix_of_list {close : TokenKind} {items : List SyntaxTree}
    (h : outcome (g.list depth close tokens) = .ok (items, rest)) : rest <:+ tokens := by
  obtain ⟨used, closing, rfl, -⟩ := (ListRun.of_outcome h).phrase
  exact (List.suffix_cons closing rest).trans (List.suffix_append used (closing :: rest))

/-! ### The readers -/

variable (g) in
mutual

/-- **A conditional expression only complains about tokens of its own**, or about their end. All
readers below are called on a rest of these tokens, and their complaints are passed on. -/
theorem refuses_conditional (depth : Nat) (tokens : List Token) :
    g.Refuses tokens (outcome (g.conditional depth tokens)) := by
  rw [outcome_conditional]
  refine (g.refuses_descend depth tokens).bind fun depth _ ↦ ?_
  refine (refuses_binary depth 0 tokens).bind fun (test, rest) htest ↦ ?_
  dsimp only
  rcases hfront : front? .question rest with - | rest₁
  · exact .ok _
  have hsuffix : rest₁ <:+ tokens := (isSuffix_of_front? hfront).trans (isSuffix_of_binary htest)
  obtain ⟨question, -, rfl⟩ := front?_eq_some.1 hfront
  have hrest₁ : rest₁.length + 1 < tokens.length := length_lt_of_outcome htest
  refine ((refuses_conditional depth rest₁).of_suffix hsuffix).bind
    fun (consequent, rest₂) hconsequent ↦ ?_
  have hsuffix₂ := (isSuffix_of_conditional hconsequent).trans hsuffix
  refine ((g.refuses_take rest₂ .colon).of_suffix hsuffix₂).bind fun (colon, rest₃) htake ↦ ?_
  have hsuffix₃ := (isSuffix_of_take htake).trans hsuffix₂
  obtain ⟨-, rfl⟩ := take_eq_ok.1 htake
  have hrest₃ : rest₃.length + 1 < rest₁.length := length_lt_of_outcome hconsequent
  exact ((refuses_conditional depth rest₃).of_suffix hsuffix₃).bind fun _ _ ↦ .ok _
termination_by 8 * tokens.length + 5

theorem refuses_binary (depth least : Nat) (tokens : List Token) :
    g.Refuses tokens (outcome (g.binary depth least tokens)) := by
  rw [outcome_binary]
  refine (refuses_unary depth tokens).bind fun (left, rest) hleft ↦ ?_
  have hrest : rest.length < tokens.length := length_lt_of_outcome hleft
  exact (refuses_binaryRest depth least left rest).of_suffix (isSuffix_of_unary hleft)
termination_by 8 * tokens.length + 4

/-- Of the operators behind an operand only the right sides can be refused. -/
theorem refuses_binaryRest (depth least : Nat) (left : SyntaxTree) (tokens : List Token) :
    g.Refuses tokens (outcome (g.binaryRest depth least left tokens)) := by
  rw [outcome_binaryRest]
  rcases hfront : g.frontOperator? least tokens with - | ⟨symbol, precedence, rest⟩
  · exact .ok _
  obtain ⟨t, -, -, -, -, htokens⟩ := frontOperator?_eq_some.1 hfront
  have hrest : rest.length < tokens.length := by simp [htokens]
  have hsuffix : rest <:+ tokens := htokens ▸ List.suffix_cons t rest
  refine (g.refuses_descend depth tokens).bind fun depth _ ↦ ?_
  refine ((refuses_binary depth (precedence + 1) rest).of_suffix hsuffix).bind
    fun (right, rest₁) hright ↦ ?_
  have hrest₁ : rest₁.length < rest.length := length_lt_of_outcome hright
  exact (refuses_binaryRest depth least (joinBinary symbol left right) rest₁).of_suffix
    ((isSuffix_of_binary hright).trans hsuffix)
termination_by 8 * tokens.length

theorem refuses_unary (depth : Nat) (tokens : List Token) :
    g.Refuses tokens (outcome (g.unary depth tokens)) := by
  rw [outcome_unary]
  rcases hfront : g.frontUnary? tokens with - | ⟨symbol, rest⟩
  · refine (refuses_primary depth tokens).bind fun (object, rest) hobject ↦ ?_
    have hrest : rest.length < tokens.length := length_lt_of_outcome hobject
    exact (refuses_postfixRest depth object rest).of_suffix (isSuffix_of_primary hobject)
  · obtain ⟨t, -, -, -, htokens⟩ := frontUnary?_eq_some.1 hfront
    have hrest : rest.length < tokens.length := by simp [htokens]
    have hsuffix : rest <:+ tokens := htokens ▸ List.suffix_cons t rest
    refine (g.refuses_descend depth tokens).bind fun depth _ ↦ ?_
    exact ((refuses_unary depth rest).of_suffix hsuffix).bind fun _ _ ↦ .ok _
termination_by 8 * tokens.length + 3

/-- A member needs its name or its closing bracket, and a call its list. -/
theorem refuses_postfixRest (depth : Nat) (object : SyntaxTree) (tokens : List Token) :
    g.Refuses tokens (outcome (g.postfixRest depth object tokens)) := by
  rw [outcome_postfixRest]
  rcases hdot : front? .dot tokens with - | rest
  · rcases hbracket : front? .lbracket tokens with - | rest
    · rcases hparen : front? .lparen tokens with - | rest
      · exact .ok _
      · have hsuffix := isSuffix_of_front? hparen
        obtain ⟨paren, -, htokens⟩ := front?_eq_some.1 hparen
        have hrest : rest.length < tokens.length := by simp [htokens]
        refine (g.refuses_descend depth tokens).bind fun depth _ ↦ ?_
        refine ((refuses_list depth .rparen rest).of_suffix hsuffix).bind
          fun (arguments, rest₁) harguments ↦ ?_
        have hrest₁ : rest₁.length < rest.length := length_lt_of_outcome harguments
        exact (refuses_postfixRest depth (.call object arguments) rest₁).of_suffix
          ((isSuffix_of_list harguments).trans hsuffix)
    · have hsuffix := isSuffix_of_front? hbracket
      obtain ⟨bracket, -, htokens⟩ := front?_eq_some.1 hbracket
      have hrest : rest.length < tokens.length := by simp [htokens]
      refine (g.refuses_descend depth tokens).bind fun depth _ ↦ ?_
      refine ((refuses_conditional depth rest).of_suffix hsuffix).bind
        fun (key, rest₁) hkey ↦ ?_
      have hsuffix₁ := (isSuffix_of_conditional hkey).trans hsuffix
      refine ((g.refuses_take rest₁ .rbracket).of_suffix hsuffix₁).bind
        fun (closing, rest₂) htake ↦ ?_
      have hsuffix₂ := (isSuffix_of_take htake).trans hsuffix₁
      obtain ⟨-, rfl⟩ := take_eq_ok.1 htake
      have hrest₂ : rest₂.length + 1 < rest.length := length_lt_of_outcome hkey
      exact (refuses_postfixRest depth (.member object key true) rest₂).of_suffix hsuffix₂
  · have hsuffix := isSuffix_of_front? hdot
    obtain ⟨dot, -, htokens⟩ := front?_eq_some.1 hdot
    refine (g.refuses_descend depth tokens).bind fun depth _ ↦ ?_
    refine ((g.refuses_take rest .identifier).of_suffix hsuffix).bind
      fun (name, rest₁) htake ↦ ?_
    have hsuffix₁ := (isSuffix_of_take htake).trans hsuffix
    obtain ⟨-, hrest⟩ := take_eq_ok.1 htake
    have hrest₁ : rest₁.length < tokens.length := by
      rw [htokens, hrest, List.length_cons, List.length_cons]
      omega
    exact (refuses_postfixRest depth (.member object (.identifier name.lexeme) false)
      rest₁).of_suffix hsuffix₁
termination_by 8 * tokens.length

/-- What is no leaf and no bracket is refused where it stands. -/
theorem refuses_primary (depth : Nat) (tokens : List Token) :
    g.Refuses tokens (outcome (g.primary depth tokens)) := by
  rcases tokens with - | ⟨t, rest⟩
  · rw [outcome_primary_nil]
    exact g.refuses_unexpected [] _
  have hsuffix : rest <:+ t :: rest := List.suffix_cons t rest
  rw [outcome_primary_cons, primaryRest]
  rcases hleaf : leaf? t with - | tree
  · dsimp only
    split
    · refine ((refuses_conditional depth rest).of_suffix hsuffix).bind
        fun (tree, rest₁) htree ↦ ?_
      have hsuffix₁ := (isSuffix_of_conditional htree).trans hsuffix
      exact ((g.refuses_take rest₁ .rparen).of_suffix hsuffix₁).bind fun _ _ ↦ .ok _
    split
    · exact ((refuses_list depth .rbracket rest).of_suffix hsuffix).bind fun _ _ ↦ .ok _
    · exact g.refuses_unexpected (t :: rest) _
  · have htree := g.refuses_leaf hleaf rest
    rcases tree with e | tree
    · rintro _ ⟨⟩
      exact htree e rfl
    · exact .ok _
termination_by 8 * tokens.length + 2

theorem refuses_list (depth : Nat) (close : TokenKind) (tokens : List Token) :
    g.Refuses tokens (outcome (g.list depth close tokens)) := by
  rw [outcome_list]
  rcases front? close tokens with - | rest
  · exact refuses_items depth close tokens
  · exact .ok _
termination_by 8 * tokens.length + 7

/-- Behind an item there has to be a comma or the end of the list. -/
theorem refuses_items (depth : Nat) (close : TokenKind) (tokens : List Token) :
    g.Refuses tokens (outcome (g.items depth close tokens)) := by
  rw [outcome_items]
  refine (refuses_conditional depth tokens).bind fun (item, rest) hitem ↦ ?_
  have hsuffix := isSuffix_of_conditional hitem
  dsimp only
  rcases hfront : front? .comma rest with - | rest₁
  · exact ((g.refuses_take rest close).of_suffix hsuffix).bind fun _ _ ↦ .ok _
  · have hsuffix₁ := (isSuffix_of_front? hfront).trans hsuffix
    obtain ⟨comma, -, rfl⟩ := front?_eq_some.1 hfront
    have hrest₁ : rest₁.length + 1 < tokens.length := length_lt_of_outcome hitem
    exact ((refuses_items depth close rest₁).of_suffix hsuffix₁).bind fun _ _ ↦ .ok _
termination_by 8 * tokens.length + 6

end

/-- **A text of expressions only complains about its own tokens**, or about its end. -/
theorem refuses_expressions (g : Grammar) (tokens : List Token) :
    g.Refuses tokens (g.expressions tokens) := by
  rcases tokens with - | ⟨t, tokens⟩
  · rw [expressions_nil]
    exact .ok _
  rw [expressions_cons]
  split
  · exact (refuses_expressions g tokens).of_suffix (List.suffix_cons t tokens)
  · refine (g.refuses_conditional 0 (t :: tokens)).bind fun (item, rest) hitem ↦ ?_
    have hrest : rest.length < tokens.length + 1 := length_lt_of_outcome hitem
    exact ((refuses_expressions g rest).of_suffix (isSuffix_of_conditional hitem)).bind
      fun _ _ ↦ .ok _
termination_by tokens.length
decreasing_by all_goals simp only [List.length_cons]; omega

end Grammar

/-- **A source is refused because it cannot be cut into tokens, or by a complaint about them.** -/
theorem parse_eq_error {table : OperatorTable} {source : List Char} {e : ParseError}
    (h : parse table source = .error e) :
    (∃ lexError, Token.tokenize table source = .error lexError ∧ e = .lex lexError) ∨
      ∃ tokens, Token.tokenize table source = .ok tokens ∧
        Grammar.Complaint ⟨table, source.length⟩ tokens.dropLast e := by
  rw [parse] at h
  rcases htokens : Token.tokenize table source with lexError | tokens
  · rw [htokens] at h
    cases h
    exact .inl ⟨lexError, rfl, rfl⟩
  · rw [htokens] at h
    have hrefuses := Grammar.refuses_expressions ⟨table, source.length⟩ tokens.dropLast
    rcases hitems : Grammar.expressions ⟨table, source.length⟩ tokens.dropLast with e' | items
    · dsimp only at h
      rw [hitems] at h
      cases h
      exact .inr ⟨tokens, rfl, hrefuses e hitems⟩
    · dsimp only at h
      rw [hitems] at h
      cases h

end SyntaxTree

/-! ### Number tokens -/

namespace Token

variable {table : OperatorTable} {source : List Char} {t : Token} {tokens : List Token}

/-- What starts like a number has a digit before its exponent. -/
theorem NumberParts.hasDigit {parts : NumberParts} {c : Char} {cs rest : List Char}
    (hstart : startsNumber c cs) (htext : c :: cs = parts.text ++ rest)
    (hends : parts.EndsBefore rest) : Numeric.HasDigit parts := by
  by_contra hnone
  obtain ⟨hwhole, hfraction⟩ : parts.whole = [] ∧ parts.fraction.drop 1 = [] := by
    rwa [Numeric.HasDigit, not_or, not_ne_iff, not_ne_iff] at hnone
  have hfirst := hends.not_isDigit
  have hnext := hends.fractionEnds
  have hvalid := parts.fraction_valid
  rw [text, hwhole, List.nil_append, List.append_assoc] at htext
  rw [← htext] at hfirst
  rw [startsNumber, Bool.or_eq_true, Bool.and_eq_true, beq_iff_eq] at hstart
  obtain ⟨rfl, hdigit⟩ := hstart.resolve_left (hfirst c rfl)
  -- The number starts with its point, so the digit behind the point belongs to the fraction.
  generalize parts.fraction = fraction at *
  cases hvalid with
  | none =>
    rw [List.nil_append] at htext
    rw [← htext] at hnext
    exact (hnext '.' rfl).1 rfl rfl
  | point =>
    rw [List.drop_succ_cons, List.drop_zero] at hfraction
    subst hfraction
    rw [List.singleton_append, List.cons.injEq] at htext
    obtain ⟨-, rfl⟩ := htext
    have hnone : startsWithDigit (parts.exponent ++ rest) = false :=
      startsWithDigit_eq_false_iff.2 fun d hd hd' ↦ List.cons_ne_nil _ _ ((hnext d hd).2 hd')
    rw [hnone] at hdigit
    cases hdigit

/-- A token that is a number was read by the number reader, which started at it. -/
theorem numberLiteral_of_scan {position : Nat} {c : Char} {cs : List Char}
    (h : scan table position c cs = .ok t) (hkind : t.kind = .number) :
    startsNumber c cs ∧ numberLiteral (c :: cs) = .ok t.lexeme.toList := by
  unfold scan at h
  rw [← startsNumber] at h
  split at h
  · cases h
    have hmem := wordKind_mem (c :: cs.takeWhile isIdentifierPart)
    have hword : wordKind (c :: cs.takeWhile isIdentifierPart) = .number := hkind
    rw [hword] at hmem
    exact absurd hmem (by decide)
  split at h
  · next hstart =>
    split at h
    · cases h
    · next literal hliteral =>
      cases h
      rw [ofSpan, String.toList_ofList]
      exact ⟨hstart, hliteral⟩
  split at h
  · split at h <;> cases h
    cases hkind
  split at h
  · next kind hpunctuation =>
    cases h
    obtain rfl : kind = .number := hkind
    unfold TokenKind.ofPunctuation? at hpunctuation
    split at hpunctuation <;> cases hpunctuation
  split at h <;> cases h
  cases hkind

/-- **A number token is spelled as a decimal** with a digit before its exponent. -/
theorem exists_parts_of_mem (h : tokenize table source = .ok tokens) (ht : t ∈ tokens)
    (hkind : t.kind = .number) :
    ∃ parts : NumberParts, Numeric.HasDigit parts ∧ t.lexeme.toList = parts.text := by
  obtain ⟨passed, rest, rfl, -, hstands⟩ := exists_arrives_of_mem (reads_of_tokensFrom h) ht
  cases hstands with
  | eof => cases hkind
  | @scan c cs _ hscan =>
    obtain ⟨hstart, hliteral⟩ := numberLiteral_of_scan hscan hkind
    obtain ⟨⟨rest, hcs⟩, -, -⟩ := numberLiteral_eq_ok hliteral
    rw [← hcs] at hliteral
    obtain ⟨parts, htext, hends⟩ := numberLiteral_eq_ok_iff.1 hliteral
    have hdigit := NumberParts.hasDigit hstart (htext ▸ hcs.symm) hends
    exact ⟨parts, hdigit, htext.symm⟩

end Token

namespace SyntaxTree

variable {table : OperatorTable} {source : List Char} {t : Token} {tokens : List Token}

/-- A decimal without a sign is read as a number, and as none that is negative. -/
theorem exists_read?_text {parts : Token.NumberParts} (h : Numeric.HasDigit parts) :
    ∃ d, Numeric.Decimal.read? parts.text = some (false, d) := by
  have hread := Numeric.read?_isSome_iff.2 ⟨[], by decide, parts, h, rfl⟩
  obtain ⟨⟨negative, d⟩, hd⟩ := Option.isSome_iff_exists.1 hread
  have hhead : parts.text.head? ≠ some '-' := fun hminus ↦
    Numeric.head?_text parts '-' hminus (.inl rfl)
  obtain rfl := Numeric.negative_of_read? hd hhead
  exact ⟨d, hd⟩

/-- A number token is spelled as a decimal, and is read as one. -/
theorem exists_read?_of_mem (h : Token.tokenize table source = .ok tokens) (ht : t ∈ tokens)
    (hkind : t.kind = .number) :
    ∃ parts : Token.NumberParts, Numeric.HasDigit parts ∧ t.lexeme.toList = parts.text ∧
      ∃ d, Numeric.Decimal.read? t.lexeme.toList = some (false, d) := by
  obtain ⟨parts, hdigit, htext⟩ := Token.exists_parts_of_mem h ht hkind
  obtain ⟨d, hd⟩ := exists_read?_text hdigit
  exact ⟨parts, hdigit, htext, d, htext ▸ hd⟩

/-- **Every number token is a number.** However a source is cut into tokens, the lexeme of each
number token is spelled as a decimal with a digit before its exponent and is read as a decimal
without a sign, and the double that it stands for is neither NaN nor negative. So no source is
refused because a number token cannot be read. -/
theorem number_tokens_read (table : OperatorTable) (source : List Char) :
    (∀ tokens, Token.tokenize table source = .ok tokens → ∀ t ∈ tokens, t.kind = .number →
        ∃ parts : Token.NumberParts, Numeric.HasDigit parts ∧ t.lexeme.toList = parts.text ∧
          ∃ d, Numeric.Decimal.read? t.lexeme.toList = some (false, d) ∧
            (d.toFloat false).isNaN = false ∧
            Numeric.isNegative (d.toFloat false).toModel.unpack = false) ∧
      ∀ literal position, parse table source ≠ .error (.invalidNumber literal position) := by
  refine ⟨fun tokens htokens t ht hkind ↦ ?_, fun literal position herror ↦ ?_⟩
  · obtain ⟨parts, hdigit, htext, d, hd⟩ := exists_read?_of_mem htokens ht hkind
    exact ⟨parts, hdigit, htext, d, hd, Numeric.isNaN_toFloat false d,
      Numeric.isNegative_toFloat d⟩
  · rcases parse_eq_error herror with ⟨_, -, hlex⟩ | ⟨tokens, htokens, hcomplaint⟩
    · cases hlex
    · generalize he : ParseError.invalidNumber literal position = e at hcomplaint
      cases hcomplaint with
      | unexpected | tooDeep => cases he
      | number ht hkind hnone =>
        obtain ⟨-, -, -, d, hd⟩ :=
          exists_read?_of_mem htokens (List.dropLast_subset tokens ht) hkind
        rw [hd] at hnone
        cases hnone

/-- A number that ends in its point, and one that begins with it and has an exponent. -/
theorem number_tokens_read_sum :
    let source := "12.+.5E-3".toList
    Token.tokenize .default source =
        .ok [⟨.number, "12.", 0, 3⟩, ⟨.operator, "+", 3, 4⟩, ⟨.number, ".5E-3", 4, 9⟩, .eof 9] ∧
      (∃ parts : Token.NumberParts, Numeric.HasDigit parts ∧ ".5E-3".toList = parts.text ∧
        ∃ d, Numeric.Decimal.read? ".5E-3".toList = some (false, d) ∧
          (d.toFloat false).isNaN = false ∧
          Numeric.isNegative (d.toFloat false).toModel.unpack = false) ∧
      ∀ literal position, parse .default source ≠ .error (.invalidNumber literal position) := by
  intro source
  have htokens : Token.tokenize .default source =
      .ok [⟨.number, "12.", 0, 3⟩, ⟨.operator, "+", 3, 4⟩, ⟨.number, ".5E-3", 4, 9⟩, .eof 9] := by
    decide +kernel
  obtain ⟨hread, hparse⟩ := number_tokens_read .default source
  exact ⟨htokens, hread _ htokens ⟨.number, ".5E-3", 4, 9⟩ (by decide) rfl, hparse⟩

end SyntaxTree

end FeatureStyle
