import FeatureStyle.Proofs.Token.Behind
import FeatureStyle.Proofs.Tree.Soundness

/-!
# Runs on other tokens

A run uses up the tokens at the front and only looks at the one behind them, to see that it does not
go on with the tree. So **a run is also a run on other tokens of the same kinds and lexemes, in
front of whatever goes on with the tree no more than what was there before**
(`ConditionalRun.transport`), and at the same depth: all levels that it needs are its own.

What may stand behind the tokens is said by `Stands table rest rest'`: the tokens of `rest'` begin
like those of `rest`, or with a token that goes on with nothing. Inside of a run it is mostly the
first, since the next token belongs to the same run, and at its end it may be either.
-/

namespace FeatureStyle.SyntaxTree.Grammar

open Phrase
open Token (reading)

variable {table : OperatorTable} {stop stop' least : Nat} {t t' : Token}
  {used used' rest rest' : List Token} {tree : SyntaxTree}

/-! ### What may stand behind tokens -/

/-- The tokens begin with the same kind and lexeme, or do not go on with an expression. -/
def Stands (table : OperatorTable) (rest rest' : List Token) : Prop :=
  ∀ t' ∈ rest'.head?, (∃ t ∈ rest.head?, t'.reading = t.reading) ∨ ¬ Continues table t'

/-- What ends every expression may stand behind any. -/
theorem Stands.of_ends (h : Ends table rest') : Stands table rest rest' :=
  fun t' ht' ↦ .inr (h t' ht')

/-- A token of the same kind and lexeme may stand for another one. -/
theorem Stands.cons (h : t'.reading = t.reading) : Stands table (t :: rest) (t' :: rest') := by
  rintro _ ⟨⟩
  exact .inl ⟨t, rfl, h⟩

/-- So may several of them, with whatever may stand behind them. -/
theorem Stands.append (hused : used'.map reading = used.map reading)
    (h : Stands table rest rest') : Stands table (used ++ rest) (used' ++ rest') := by
  cases used with
  | nil =>
    obtain rfl := List.map_eq_nil_iff.1 hused
    exact h
  | cons t used =>
    obtain ⟨t', used', rfl, ht, -⟩ := List.map_eq_cons_iff.1 hused
    exact .cons ht

/-- What holds of a token that goes on with nothing, and only depends on kinds and lexemes, still
holds of the token that comes next. -/
theorem Stands.forall_head? {P : Token → Prop} (h : Stands table rest rest')
    (hP : ∀ t t' : Token, t'.reading = t.reading → P t → P t')
    (hends : ∀ t', ¬ Continues table t' → P t') (hrest : ∀ t ∈ rest.head?, P t) :
    ∀ t' ∈ rest'.head?, P t' := by
  intro t' ht'
  rcases h t' ht' with ⟨t, ht, hreading⟩ | hcontinues
  · exact hP t t' hreading (hrest t ht)
  · exact hends t' hcontinues

theorem kind_eq_of_reading (h : t'.reading = t.reading) : t'.kind = t.kind := (Prod.mk.inj h).1

theorem lexeme_eq_of_reading (h : t'.reading = t.reading) : t'.lexeme = t.lexeme :=
  (Prod.mk.inj h).2

/-- A test, a member or a call that does not go on before the one rest does not go on before the
other. -/
theorem Stands.front?_eq_none (h : Stands table rest rest') {kind : TokenKind}
    (hkind : kind ∈ [.question, .dot, .lbracket, .lparen]) (hrest : front? kind rest = none) :
    front? kind rest' = none := by
  rw [Grammar.front?_eq_none] at hrest ⊢
  refine h.forall_head? (fun t t' hreading ht ↦ ?_) (fun t' ht' hkind' ↦ ht' ?_) hrest
  · rwa [kind_eq_of_reading hreading]
  · simp only [List.mem_cons, List.not_mem_nil, or_false] at hkind
    rw [← hkind'] at hkind
    exact .inr hkind

/-- Nor does an operator. -/
theorem Stands.frontOperator?_eq_none (h : Stands table rest rest')
    (hrest : frontOperator? ⟨table, stop⟩ least rest = none) :
    frontOperator? ⟨table, stop'⟩ least rest' = none := by
  rw [← operatorBelow_iff] at hrest ⊢
  refine h.forall_head? (fun t t' hreading ht ↦ ?_) (fun t' ht' hkind p hp ↦ ?_) hrest
  · rwa [kind_eq_of_reading hreading, lexeme_eq_of_reading hreading]
  · exact absurd (.inl ⟨hkind, Option.isSome_of_mem hp⟩) ht'

/-! ### Single tokens -/

/-- Whether a token is a leaf, and which, is told by its kind and lexeme. -/
theorem leaf?_eq_some_of_reading (h : t'.reading = t.reading) (hleaf : leaf? t = some (.ok tree)) :
    leaf? t' = some (.ok tree) := by
  obtain ⟨kind, lexeme, start, stop⟩ := t
  obtain ⟨kind', lexeme', start', stop'⟩ := t'
  obtain ⟨rfl, rfl⟩ := Prod.mk.inj h
  rw [leaf?_eq_some] at hleaf ⊢
  cases hleaf with
  | identifier h => exact .identifier h
  | number h hd => exact .number h hd
  | string h => exact .string h
  | true h => exact .true h
  | false h => exact .false h
  | null h => exact .null h

/-- So is whether it is an operator before an operand. -/
theorem frontUnary?_cons_eq_none (h : t'.reading = t.reading)
    (hnone : frontUnary? ⟨table, stop⟩ (t :: rest) = none) :
    frontUnary? ⟨table, stop'⟩ (t' :: rest') = none := by
  refine Option.eq_none_iff_forall_ne_some.2 fun ⟨symbol, tail⟩ hfront ↦ ?_
  obtain ⟨_, hkind, hunary, -, ⟨⟩⟩ := frontUnary?_eq_some.1 hfront
  rw [lexeme_eq_of_reading h] at hunary
  rw [kind_eq_of_reading h] at hkind
  cases hnone.symm.trans (frontUnary?_eq_some.2 ⟨t, hkind, hunary, rfl, rfl⟩)

/-- So is which kind it is of. -/
theorem front?_cons_eq_none {kind : TokenKind} (h : t'.reading = t.reading)
    (hnone : front? kind (t :: rest) = none) : front? kind (t' :: rest') = none := by
  refine front?_cons_of_ne fun hkind ↦ ?_
  rw [front?_eq_some.2 ⟨t, (kind_eq_of_reading h).symm.trans hkind, rfl⟩] at hnone
  cases hnone

/-! ### Statements about the tokens that are used up -/

/-- The statement holds of all tokens with the kinds and lexemes of those before `rest`, in front of
whatever may stand in the place of `rest`. -/
def Local (table : OperatorTable) (tokens rest : List Token)
    (P : List Token → List Token → Prop) : Prop :=
  ∃ used, tokens = used ++ rest ∧ ∀ used' rest', used'.map reading = used.map reading →
    Stands table rest rest' → P (used' ++ rest') rest'

namespace Local

variable {tokens mid : List Token} {P Q : List Token → List Token → Prop}

/-- A local statement may be replaced by a weaker one. -/
theorem mono (h : Local table tokens rest P)
    (hPQ : ∀ tokens' rest', P tokens' rest' → Q tokens' rest') : Local table tokens rest Q := by
  obtain ⟨used, rfl, hP⟩ := h
  exact ⟨used, rfl, fun used' rest' hused hrest ↦ hPQ _ _ (hP used' rest' hused hrest)⟩

/-- Nothing is used up. -/
theorem here (rest : List Token) :
    Local table rest rest fun tokens' rest' ↦ tokens' = rest' ∧ Stands table rest rest' := by
  refine ⟨[], rfl, fun used' rest' hused hrest ↦ ?_⟩
  obtain rfl := List.map_eq_nil_iff.1 hused
  exact ⟨rfl, hrest⟩

/-- One token is used up. -/
theorem token {kind : TokenKind} (h : t.kind = kind) (rest : List Token) :
    Local table (t :: rest) rest fun tokens' rest' ↦
      ∃ t', tokens' = t' :: rest' ∧ t'.kind = kind ∧ t'.reading = t.reading := by
  refine ⟨[t], rfl, fun used' rest' hused _ ↦ ?_⟩
  obtain ⟨t', used', rfl, ht, hnil⟩ := List.map_eq_cons_iff.1 hused
  obtain rfl := List.map_eq_nil_iff.1 hnil
  exact ⟨t', rfl, (kind_eq_of_reading ht).trans h, ht⟩

/-- One statement about the tokens up to a place, and another one from there on. -/
theorem append (hP : Local table tokens mid P) (hQ : Local table mid rest Q) :
    Local table tokens rest fun tokens' rest' ↦ ∃ mid', P tokens' mid' ∧ Q mid' rest' := by
  obtain ⟨used, rfl, hP⟩ := hP
  obtain ⟨more, rfl, hQ⟩ := hQ
  refine ⟨used ++ more, (List.append_assoc used more rest).symm, fun used' rest' hused hrest ↦ ?_⟩
  rw [List.map_append, List.map_eq_append_iff] at hused
  obtain ⟨used', more', rfl, hused, hmore⟩ := hused
  rw [List.append_assoc]
  exact ⟨more' ++ rest', hP _ _ hused (hrest.append hmore), hQ _ _ hmore hrest⟩

/-- If anything is used up, the tokens begin alike. -/
theorem head (h : Local table tokens rest P) (hlt : rest.length < tokens.length) :
    ∃ t tail, tokens = t :: tail ∧ Local table tokens rest fun tokens' rest' ↦
      P tokens' rest' ∧ ∃ t' tail', tokens' = t' :: tail' ∧ t'.reading = t.reading := by
  obtain ⟨used, rfl, hP⟩ := h
  cases used with
  | nil => exact absurd hlt (Nat.lt_irrefl _)
  | cons t used =>
    refine ⟨t, used ++ rest, rfl, t :: used, rfl, fun used' rest' hused hrest ↦ ?_⟩
    obtain ⟨t', used', rfl, ht, -⟩ := List.map_eq_cons_iff.1 hused
    exact ⟨hP _ _ hused hrest, t', used' ++ rest', rfl, ht⟩

end Local

/-! ### Runs -/

mutual

/-- **A run is a run on other tokens of the same kinds and lexemes.** -/
theorem ConditionalRun.transport {depth : Nat} {tokens rest : List Token} {tree : SyntaxTree} :
    ConditionalRun ⟨table, stop⟩ depth tokens tree rest →
      Local table tokens rest (ConditionalRun ⟨table, stop'⟩ depth · tree ·)
  | .test level testRun stop => by
    refine (testRun.transport.append (.here rest)).mono ?_
    rintro tokens' _ ⟨rest', htest, rfl, hrest⟩
    exact .test level htest (hrest.front?_eq_none (by decide) stop)
  | .branches level testRun hquestion consequentRun hcolon alternateRun => by
    refine (testRun.transport.append ((Local.token hquestion _).append
      (consequentRun.transport.append
        ((Local.token hcolon _).append alternateRun.transport)))).mono ?_
    rintro tokens' rest' ⟨_, htest, _, ⟨question, rfl, hquestion', -⟩, _, hconsequent, _,
      ⟨colon, rfl, hcolon', -⟩, halternate⟩
    exact .branches level htest hquestion' hconsequent hcolon' halternate

/-- Where the left operand ends, the operators begin or the whole ends. -/
theorem BinaryRun.transport {depth least : Nat} {tokens rest : List Token} {tree : SyntaxTree} :
    BinaryRun ⟨table, stop⟩ depth least tokens tree rest →
      Local table tokens rest (BinaryRun ⟨table, stop'⟩ depth least · tree ·)
  | .mk leftRun restRun => by
    refine (leftRun.transport.append restRun.transport).mono ?_
    rintro tokens' rest' ⟨_, hleft, hrest⟩
    exact .mk hleft hrest

/-- What ends the operators may be replaced by what goes on with none. -/
theorem BinaryRestRun.transport {depth least : Nat} {left tree : SyntaxTree}
    {tokens rest : List Token} : BinaryRestRun ⟨table, stop⟩ depth least left tokens tree rest →
      Local table tokens rest (BinaryRestRun ⟨table, stop'⟩ depth least left · tree ·)
  | .stop stop => by
    refine (Local.here _).mono ?_
    rintro _ rest' ⟨rfl, hrest⟩
    exact .stop (hrest.frontOperator?_eq_none stop)
  | .operator hkind hprecedence hleast level rightRun restRun => by
    refine ((Local.token hkind _).append (rightRun.transport.append restRun.transport)).mono ?_
    rintro _ rest' ⟨_, ⟨t', rfl, hkind', ht⟩, _, hright, hrest⟩
    rw [← lexeme_eq_of_reading ht] at hprecedence hrest
    exact .operator hkind' hprecedence hleast level hright hrest

/-- An operator before an operand is itself one of the tokens that are used up. -/
theorem UnaryRun.transport {depth : Nat} {tokens rest : List Token} {tree : SyntaxTree} :
    UnaryRun ⟨table, stop⟩ depth tokens tree rest →
      Local table tokens rest (UnaryRun ⟨table, stop'⟩ depth · tree ·)
  | .operator hkind hunary level operandRun => by
    refine ((Local.token hkind _).append operandRun.transport).mono ?_
    rintro _ rest' ⟨_, ⟨t', rfl, hkind', ht⟩, hoperand⟩
    rw [← lexeme_eq_of_reading ht] at hunary ⊢
    exact .operator hkind' hunary level hoperand
  | .operand nounary objectRun restRun => by
    obtain ⟨t, tail, rfl, hobject⟩ :=
      objectRun.transport.head (length_lt_of_outcome objectRun.outcome_eq)
    refine (hobject.append restRun.transport).mono ?_
    rintro _ rest' ⟨_, ⟨hobject, t', tail', rfl, ht⟩, hrest⟩
    exact .operand (frontUnary?_cons_eq_none ht nounary) hobject hrest

/-- What ends members and calls may be replaced by what begins none. -/
theorem PostfixRestRun.transport {depth : Nat} {object tree : SyntaxTree}
    {tokens rest : List Token} : PostfixRestRun ⟨table, stop⟩ depth object tokens tree rest →
      Local table tokens rest (PostfixRestRun ⟨table, stop'⟩ depth object · tree ·)
  | .stop dot bracket paren => by
    refine (Local.here _).mono ?_
    rintro _ rest' ⟨rfl, hrest⟩
    exact .stop (hrest.front?_eq_none (by decide) dot) (hrest.front?_eq_none (by decide) bracket)
      (hrest.front?_eq_none (by decide) paren)
  | .member hdot level hname restRun => by
    refine ((Local.token hdot _).append
      ((Local.token hname _).append restRun.transport)).mono ?_
    rintro _ rest' ⟨_, ⟨dot, rfl, hdot', -⟩, _, ⟨name, rfl, hname', ht⟩, hrest⟩
    rw [← lexeme_eq_of_reading ht] at hrest
    exact .member hdot' level hname' hrest
  | .index hbracket level keyRun hclosing restRun => by
    refine ((Local.token hbracket _).append (keyRun.transport.append
      ((Local.token hclosing _).append restRun.transport))).mono ?_
    rintro _ rest' ⟨_, ⟨bracket, rfl, hbracket', -⟩, _, hkey, _, ⟨closing, rfl, hclosing', -⟩,
      hrest⟩
    exact .index hbracket' level hkey hclosing' hrest
  | .call hparen level argumentsRun restRun => by
    refine ((Local.token hparen _).append
      (argumentsRun.transport.append restRun.transport)).mono ?_
    rintro _ rest' ⟨_, ⟨paren, rfl, hparen', -⟩, _, harguments, hrest⟩
    exact .call hparen' level harguments hrest

/-- A primary expression ends with its own last token, and looks at no other. -/
theorem PrimaryRun.transport {depth : Nat} {tokens rest : List Token} {tree : SyntaxTree} :
    PrimaryRun ⟨table, stop⟩ depth tokens tree rest →
      Local table tokens rest (PrimaryRun ⟨table, stop'⟩ depth · tree ·)
  | .leaf h => by
    refine (Local.token rfl _).mono ?_
    rintro _ rest' ⟨t', rfl, -, ht⟩
    exact .leaf (leaf?_eq_some_of_reading ht h)
  | .parentheses hparen innerRun hclosing => by
    refine ((Local.token hparen _).append
      (innerRun.transport.append (Local.token hclosing _))).mono ?_
    rintro _ rest' ⟨_, ⟨paren, rfl, hparen', -⟩, _, hinner, closing, rfl, hclosing', -⟩
    exact .parentheses hparen' hinner hclosing'
  | .array hbracket itemsRun => by
    refine ((Local.token hbracket _).append itemsRun.transport).mono ?_
    rintro _ rest' ⟨_, ⟨bracket, rfl, hbracket', -⟩, hitems⟩
    exact .array hbracket' hitems

/-- So does a list. -/
theorem ListRun.transport {depth : Nat} {close : TokenKind} {tokens rest : List Token}
    {items : List SyntaxTree} : ListRun ⟨table, stop⟩ depth close tokens items rest →
      Local table tokens rest (ListRun ⟨table, stop'⟩ depth close · items ·)
  | .nil hclosing => by
    refine (Local.token hclosing _).mono ?_
    rintro _ rest' ⟨closing, rfl, hclosing', -⟩
    exact .nil hclosing'
  | .items nonempty itemsRun => by
    obtain ⟨t, tail, rfl, hitems⟩ :=
      itemsRun.transport.head (length_lt_of_outcome itemsRun.outcome_eq)
    refine hitems.mono ?_
    rintro _ rest' ⟨hitems, t', tail', rfl, ht⟩
    exact .items (front?_cons_eq_none ht nonempty) hitems

theorem ItemsRun.transport {depth : Nat} {close : TokenKind} {tokens rest : List Token}
    {items : List SyntaxTree} : ItemsRun ⟨table, stop⟩ depth close tokens items rest →
      Local table tokens rest (ItemsRun ⟨table, stop'⟩ depth close · items ·)
  | .last itemRun nocomma hclosing => by
    refine (itemRun.transport.append (Local.token hclosing _)).mono ?_
    rintro _ rest' ⟨_, hitem, closing, rfl, hclosing', ht⟩
    exact .last hitem (kind_eq_of_reading ht ▸ nocomma) hclosing'
  | .more itemRun hcomma itemsRun => by
    refine (itemRun.transport.append
      ((Local.token hcomma _).append itemsRun.transport)).mono ?_
    rintro _ rest' ⟨_, hitem, _, ⟨comma, rfl, hcomma', -⟩, hitems⟩
    exact .more hitem hcomma' hitems

end

/-- The expressions of a source are read in front of further ones as they are by themselves. -/
theorem expressions_transport {tokens : List Token} {items : List SyntaxTree}
    (h : expressions ⟨table, stop⟩ tokens = .ok items) :
    Local table tokens [] fun tokens' rest' ↦
      expressions ⟨table, stop'⟩ tokens' = (expressions ⟨table, stop'⟩ rest').map (items ++ ·) := by
  match tokens with
  | [] =>
    rw [expressions_nil] at h
    cases h
    refine (Local.here []).mono ?_
    rintro tokens' _ ⟨rfl, -⟩
    simp only [List.nil_append]
    cases expressions ⟨table, stop'⟩ tokens' <;> rfl
  | t :: tokens =>
    rw [expressions_cons] at h
    split at h
    · next hseparator =>
      refine ((Local.token rfl _).append (expressions_transport h)).mono ?_
      rintro _ rest' ⟨tokens', ⟨t', rfl, hkind, -⟩, htokens'⟩
      rw [expressions_cons, hkind, if_pos hseparator, htokens']
    · next hseparator =>
      obtain ⟨⟨first, rest⟩, hfirst, h⟩ := bind_eq_ok.1 h
      have hlt := length_lt_of_outcome hfirst
      obtain ⟨more, hmore, h⟩ := bind_eq_ok.1 h
      cases h
      have hrest : rest.length ≤ tokens.length := Nat.le_of_lt_succ hlt
      obtain ⟨_, _, ⟨⟩, hitem⟩ := (ConditionalRun.of_outcome hfirst).transport.head hlt
      refine (hitem.append (expressions_transport hmore)).mono ?_
      rintro _ rest' ⟨mid', ⟨hitem, t', tail', rfl, ht⟩, hmid'⟩
      rw [expressions_cons, kind_eq_of_reading ht, if_neg hseparator, hitem.outcome_eq]
      show (do
        let items ← expressions ⟨table, stop'⟩ mid'
        return first :: items) = _
      rw [hmid']
      cases expressions ⟨table, stop'⟩ rest' <;> rfl
termination_by tokens.length

end FeatureStyle.SyntaxTree.Grammar
