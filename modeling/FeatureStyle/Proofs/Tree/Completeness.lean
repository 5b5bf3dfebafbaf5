import FeatureStyle.Proofs.Token.Tokenize
import FeatureStyle.Proofs.Tree.Soundness

/-!
# Every tree of the grammar is read

A reader that is handed a phrase of its sort gives the tree of the phrase, provided what comes
behind does not go on with it. There is one way for this to fail: the phrase may need more levels of
nesting than there are. A computation **attains** a result if it gives the result or fails for that
reason.

For binary and postfix phrases, which the readers take apart from the left while the grammar puts
them together at the right, the statement is about the way and not about the end: reading a phrase
and what is behind it comes down to reading what is behind it with the tree of the phrase in hand.
How many levels have been used up by then depends on the phrase and does not matter.

Put together with the converse, **reading a source that tokenizes gives a tree exactly if the
grammar does** (`parse_eq_ok_iff`), as long as the nesting stays within the bound.
-/

namespace FeatureStyle.SyntaxTree

open Phrase

/-- Gives the result, or fails for want of levels. -/
def Attains {α : Type} (x y : Except ParseError α) : Prop :=
  x = y ∨ ∃ position, x = .error (.tooDeep position)

namespace Attains

variable {α β : Type} {x y z : Except ParseError α}

/-- A computation attains what it gives. -/
theorem refl (x : Except ParseError α) : Attains x x := .inl rfl

/-- What attains a result that attains another one attains that. -/
theorem trans (hxy : Attains x y) (hyz : Attains y z) : Attains x z := by
  rcases hxy with rfl | h
  · exact hyz
  · exact .inr h

/-- Two steps attain what the second one attains from the result of the first. -/
theorem bind {a : α} {f : α → Except ParseError β} {y : Except ParseError β}
    (hx : Attains x (.ok a)) (hf : Attains (f a) y) : Attains (x >>= f) y := by
  rcases hx with rfl | ⟨position, rfl⟩
  · exact hf
  · exact .inr ⟨position, rfl⟩

/-- Within the bound, what is attained is what is given. -/
theorem eq (h : Attains x y) (hx : ∀ position, x ≠ .error (.tooDeep position)) : x = y :=
  h.resolve_right fun ⟨position, hposition⟩ ↦ hx position hposition

end Attains

namespace Grammar

variable {g : Grammar}

/-! ### Single steps -/

/-- A level can be taken, unless that is where the levels end. -/
theorem attains_descend (depth : Nat) (tokens : List Token) :
    Attains (g.descend depth tokens) (.ok (depth + 1)) := by
  rw [descend]
  split
  · exact .refl _
  · exact .inr ⟨_, rfl⟩

/-- A token that is there can be taken. -/
theorem attains_take {kind : TokenKind} {t : Token} (h : t.kind = kind) (rest : List Token) :
    Attains (g.take kind (t :: rest)) (.ok (t, rest)) :=
  .inl (take_eq_ok.2 ⟨h, rfl⟩)

/-- Behind an operator's operands, an operator of no higher precedence takes up nothing. -/
theorem outcome_binaryRest_of_below {depth least : Nat} {left : SyntaxTree} {rest : List Token}
    (h : OperatorBelow g.table least rest) :
    outcome (g.binaryRest depth least left rest) = .ok (left, rest) := by
  rw [outcome_binaryRest, operatorBelow_iff.1 h]

/-- Where no member and no call begins, the object is all there is. -/
theorem outcome_postfixRest_of_ends {depth : Nat} {object : SyntaxTree} {rest : List Token}
    (h : PostfixEnds rest) : outcome (g.postfixRest depth object rest) = .ok (object, rest) := by
  obtain ⟨dot, bracket, paren⟩ := postfixEnds_iff.1 h
  rw [outcome_postfixRest, dot, bracket, paren]

/-! ### Phrases are read -/

mutual

/-- **A conditional phrase is read**, with whatever ends it behind it. -/
theorem attains_conditional {used : List Token} {tree : SyntaxTree} :
    Conditional g.table used tree → ∀ depth rest, Ends g.table rest →
      Attains (outcome (g.conditional depth (used ++ rest))) (.ok (tree, rest))
  | .binary htest, depth, rest, hrest => by
    obtain ⟨hends, hbelow, hquestion⟩ := ends_iff.1 hrest
    obtain ⟨depth', h⟩ := attains_binary htest (depth + 1) 0 rest (fun _ _ ↦ Nat.zero_le _) hends
      fun p _ ↦ hbelow.mono (Nat.zero_le _)
    rw [outcome_binaryRest_of_below hbelow] at h
    rw [outcome_conditional]
    refine (attains_descend depth _).bind (h.bind ?_)
    simp only [front?_eq_none.2 hquestion]
    exact .refl _
  | .branches htest hquestion hconsequent hcolon halternate, depth, rest, hrest => by
    rw [List.append_assoc, List.cons_append, List.append_assoc, List.cons_append,
      outcome_conditional]
    refine (attains_descend depth _).bind ?_
    obtain ⟨depth', h⟩ := attains_binary htest (depth + 1) 0 _ (fun _ _ ↦ Nat.zero_le _)
      (postfixEnds_cons hquestion (by decide) _)
      fun p _ ↦ operatorBelow_cons hquestion (by decide) _
    rw [outcome_binaryRest_of_below (operatorBelow_cons hquestion (by decide) _)] at h
    refine h.bind ?_
    simp only [front?_eq_some.2 ⟨_, hquestion, rfl⟩]
    refine (attains_conditional hconsequent (depth + 1) _
      (ends_cons hcolon (by decide) _)).bind ((attains_take hcolon _).bind ?_)
    exact (attains_conditional halternate (depth + 1) rest hrest).bind (.refl _)

/-- **Reading a binary phrase comes down to reading what is behind it with its tree in hand**, if
the phrase and the reader have room for the precedence of its root. -/
theorem attains_binary {root : Option Nat} {used : List Token} {tree : SyntaxTree} :
    Binary g.table root used tree → ∀ depth least rest, (∀ p ∈ root, least ≤ p) →
      PostfixEnds rest → (∀ p ∈ root, OperatorBelow g.table (p + 1) rest) →
      ∃ depth', Attains (outcome (g.binary depth least (used ++ rest)))
        (outcome (g.binaryRest depth' least tree rest))
  | .operand h, depth, least, rest, _, hends, _ => by
    refine ⟨depth, ?_⟩
    rw [outcome_binary]
    exact (attains_unary h depth rest hends).bind (.refl _)
  | .operator hleft hkind hprecedence hright hleftRoot hrightRoot, depth, least, rest, hroot, hends,
      hbelow => by
    have hleast := hroot _ rfl
    have hrest := hbelow _ rfl
    -- The operator itself comes behind the left operand, and it is not above the root of that one.
    obtain ⟨depth₁, h₁⟩ := attains_binary hleft depth least (_ :: (_ ++ rest))
      (fun p hp ↦ Nat.le_trans hleast (hleftRoot p hp)) (postfixEnds_cons hkind (by decide) _)
      (by
        rintro p hp _ ⟨⟩ - q hq
        cases hprecedence.symm.trans hq
        exact Nat.lt_succ_of_le (hleftRoot p hp))
    -- Behind the right operand comes what is behind the whole phrase.
    obtain ⟨depth₂, h₂⟩ := attains_binary hright (depth₁ + 1) (_ + 1) rest hrightRoot hends
      fun p hp ↦ hrest.mono (Nat.le_succ_of_le (hrightRoot p hp))
    rw [outcome_binaryRest_of_below hrest] at h₂
    refine ⟨depth₁ + 1, ?_⟩
    rw [List.append_assoc, List.cons_append]
    refine h₁.trans ?_
    rw [outcome_binaryRest, frontOperator?_eq_some.2 ⟨_, hkind, hprecedence, hleast, rfl, rfl⟩]
    exact (attains_descend depth₁ _).bind (h₂.bind (.refl _))

/-- A unary phrase is read up to what begins neither a member nor a call. -/
theorem attains_unary {used : List Token} {tree : SyntaxTree} :
    Unary g.table used tree → ∀ depth rest, PostfixEnds rest →
      Attains (outcome (g.unary depth (used ++ rest))) (.ok (tree, rest))
  | .operator hkind hunary h, depth, rest, hends => by
    rw [List.cons_append, outcome_unary, frontUnary?_eq_some.2 ⟨_, hkind, hunary, rfl, rfl⟩]
    exact (attains_descend depth _).bind ((attains_unary h (depth + 1) rest hends).bind (.refl _))
  | .operand h, depth, rest, hends => by
    obtain ⟨depth', h'⟩ := attains_postfix h depth rest
    rw [outcome_postfixRest_of_ends hends] at h'
    -- A postfix phrase does not begin with an operator, so no unary operator is looked for in it.
    obtain ⟨t, more, rfl, -, hkind⟩ := h.exists_cons
    rw [List.cons_append] at h' ⊢
    rw [outcome_unary, frontUnary?_cons_of_ne hkind]
    exact h'

/-- **Reading a postfix phrase comes down to reading what is behind it with its tree in hand.** -/
theorem attains_postfix {used : List Token} {tree : SyntaxTree} :
    Postfix g.table used tree → ∀ depth rest, ∃ depth',
      Attains
        (do
          let (object, rest) ← outcome (g.primary depth (used ++ rest))
          outcome (g.postfixRest depth object rest))
        (outcome (g.postfixRest depth' tree rest))
  | .primary h, depth, rest => ⟨depth, (attains_primary h depth rest).bind (.refl _)⟩
  | .member h hdot hname, depth, rest => by
    obtain ⟨depth', h'⟩ := attains_postfix h depth (_ :: _ :: rest)
    refine ⟨depth' + 1, ?_⟩
    rw [List.append_assoc, List.cons_append, List.cons_append, List.nil_append]
    refine h'.trans ?_
    rw [outcome_postfixRest, front?_eq_some.2 ⟨_, hdot, rfl⟩]
    exact (attains_descend depth' _).bind ((attains_take hname rest).bind (.refl _))
  | .index h hbracket hkey hclosing, depth, rest => by
    obtain ⟨depth', h'⟩ := attains_postfix h depth (_ :: (_ ++ _ :: rest))
    refine ⟨depth' + 1, ?_⟩
    rw [List.append_assoc, List.cons_append, List.append_assoc, List.cons_append, List.nil_append]
    refine h'.trans ?_
    rw [outcome_postfixRest, front?_cons_of_ne (by simp [hbracket]),
      front?_eq_some.2 ⟨_, hbracket, rfl⟩]
    refine (attains_descend depth' _).bind ((attains_conditional hkey _ _ ?_).bind ?_)
    · exact ends_cons hclosing (by decide) _
    · exact (attains_take hclosing rest).bind (.refl _)
  | .call h hparen harguments hclosing, depth, rest => by
    obtain ⟨depth', h'⟩ := attains_postfix h depth (_ :: (_ ++ _ :: rest))
    refine ⟨depth' + 1, ?_⟩
    rw [List.append_assoc, List.cons_append, List.append_assoc, List.cons_append, List.nil_append]
    refine h'.trans ?_
    rw [outcome_postfixRest, front?_cons_of_ne (by simp [hparen]),
      front?_cons_of_ne (by simp [hparen]), front?_eq_some.2 ⟨_, hparen, rfl⟩]
    exact (attains_descend depth' _).bind
      ((attains_list harguments hclosing (.inl rfl) _ rest).bind (.refl _))

/-- A primary phrase is read, whatever is behind it. -/
theorem attains_primary {used : List Token} {tree : SyntaxTree} :
    Primary g.table used tree → ∀ depth rest,
      Attains (outcome (g.primary depth (used ++ rest))) (.ok (tree, rest))
  | .atom h, depth, rest => by
    rw [List.cons_append, List.nil_append, outcome_primary_cons, primaryRest, leaf?_eq_some.2 h]
    exact .refl _
  | .parentheses hparen h hclosing, depth, rest => by
    rw [List.cons_append, List.append_assoc, List.cons_append, List.nil_append,
      outcome_primary_cons, primaryRest, leaf?, hparen]
    refine (attains_conditional h depth _ ?_).bind ((attains_take hclosing rest).bind (.refl _))
    exact ends_cons hclosing (by decide) _
  | .array hbracket h hclosing, depth, rest => by
    rw [List.cons_append, List.append_assoc, List.cons_append, List.nil_append,
      outcome_primary_cons, primaryRest, leaf?, hbracket]
    exact (attains_list h hclosing (.inr rfl) depth rest).bind (.refl _)

/-- A list is read up to the bracket that closes it. -/
theorem attains_list {used : List Token} {items : List SyntaxTree} {close : TokenKind}
    {closing : Token} : Listed g.table used items → closing.kind = close →
      close = .rparen ∨ close = .rbracket → ∀ depth rest,
      Attains (outcome (g.list depth close (used ++ closing :: rest))) (.ok (items, rest))
  | .nil, hclosing, _, depth, rest => by
    rw [List.nil_append, outcome_list, front?_eq_some.2 ⟨_, hclosing, rfl⟩]
    exact .refl _
  | .items h, hclosing, hclose, depth, rest => by
    have h' := attains_items h hclosing hclose depth rest
    -- The list is not taken for empty: no phrase begins with a closing token.
    obtain ⟨t, more, rfl, hparen, hbracket, -⟩ := h.exists_cons
    rw [outcome_list, List.cons_append, front?_cons_of_ne]
    · exact h'
    · rcases hclose with rfl | rfl
      · exact hparen
      · exact hbracket

/-- The items of a list are told apart by their commas. -/
theorem attains_items {used : List Token} {items : List SyntaxTree} {close : TokenKind}
    {closing : Token} : Items g.table used items → closing.kind = close →
      close = .rparen ∨ close = .rbracket → ∀ depth rest,
      Attains (outcome (g.items depth close (used ++ closing :: rest))) (.ok (items, rest))
  | .last h, hclosing, hclose, depth, rest => by
    have hends : Ends g.table (closing :: rest) := by
      rcases hclose with rfl | rfl <;> exact ends_cons hclosing (by decide) _
    have hcomma : closing.kind ≠ .comma := by rcases hclose with rfl | rfl <;> simp [hclosing]
    rw [outcome_items]
    refine (attains_conditional h depth _ hends).bind ?_
    simp only [front?_cons_of_ne hcomma]
    exact (attains_take hclosing rest).bind (.refl _)
  | .more h hcomma hitems, hclosing, hclose, depth, rest => by
    rw [List.append_assoc, List.cons_append, outcome_items]
    refine (attains_conditional h depth _ ?_).bind ?_
    · exact ends_cons hcomma (by decide) _
    · simp only [front?_eq_some.2 ⟨_, hcomma, rfl⟩]
      exact (attains_items hitems hclosing hclose depth rest).bind (.refl _)

end

/-- **Expressions side by side are read one after the other.** -/
theorem attains_expressions {tokens : List Token} {items : List SyntaxTree}
    (h : SideBySide g.table tokens items) : Attains (g.expressions tokens) (.ok items) := by
  induction h with
  | nil =>
    rw [expressions_nil]
    exact .refl _
  | separator ht _ ih =>
    rw [expressions_cons, if_pos ht]
    exact ih
  | item hitem hrest _ ih =>
    have h := attains_conditional hitem 0 _ hrest
    -- No phrase begins with a separator either.
    obtain ⟨t, more, rfl, -, -, hcomma, hsemicolon⟩ := hitem.exists_cons
    rw [List.cons_append] at h ⊢
    rw [expressions_cons, if_neg (not_or.2 ⟨hcomma, hsemicolon⟩)]
    exact h.bind (ih.bind (.refl _))

end Grammar

/-! ### Whole sources -/

/-- A source is the list of its expressions, as one tree. -/
theorem source_iff {table : OperatorTable} {tokens : List Token} {stop : Token}
    (hstop : stop.kind = .eof) {tree : SyntaxTree} :
    Source table (tokens ++ [stop]) tree ↔
      ∃ items, SideBySide table tokens items ∧ tree = ofItems items := by
  constructor
  · generalize hall : tokens ++ [stop] = all
    rintro (⟨h, -⟩ | ⟨h, hitems, -⟩)
    · obtain ⟨rfl, -⟩ := List.append_inj' hall rfl
      exact ⟨_, h, rfl⟩
    · obtain ⟨rfl, -⟩ := List.append_inj' hall rfl
      refine ⟨_, h, ?_⟩
      rw [ofItems]
      rintro item rfl
      exact hitems rfl
  · rintro ⟨items, h, rfl⟩
    by_cases hitems : items.length = 1
    · obtain ⟨item, rfl⟩ := List.length_eq_one_iff.1 hitems
      exact .single h hstop
    · have hcompound : ofItems items = .compound items := by
        rw [ofItems]
        rintro item rfl
        exact hitems rfl
      exact hcompound ▸ .compound h hitems hstop

/-- **The trees that are read are the trees of the grammar.** A source that can be cut into tokens,
and whose nesting stays within the bound, is read as a tree exactly if its tokens stand for that
tree; and they stand for no other. -/
theorem parse_eq_ok_iff {table : OperatorTable} {source : List Char} {tokens : List Token}
    (htokens : Token.tokenize table source = .ok tokens)
    (hdepth : ∀ position, parse table source ≠ .error (.tooDeep position)) :
    (∀ tree, parse table source = .ok tree ↔ Source table tokens tree) ∧
      ∀ tree tree', Source table tokens tree → Source table tokens tree' → tree = tree' := by
  obtain ⟨before, stop, rfl⟩ := Token.exists_eof_of_tokensFrom htokens
  have hiff (tree : SyntaxTree) :
      parse table source = .ok tree ↔ Source table (before ++ [.eof stop]) tree := by
    rw [parse_eq_ok, source_iff rfl]
    constructor
    · rintro ⟨tokens, items, htokens', hitems, rfl⟩
      cases htokens.symm.trans htokens'
      rw [List.dropLast_concat] at hitems
      exact ⟨items, Grammar.sideBySide_of_expressions hitems, rfl⟩
    · rintro ⟨items, h, rfl⟩
      refine ⟨_, items, htokens, ?_, rfl⟩
      rw [List.dropLast_concat]
      refine (Grammar.attains_expressions h).eq fun position htooDeep ↦ hdepth position ?_
      simp only [parse, htokens, List.dropLast_concat, htooDeep]
      rfl
  -- Reading is a function, so a source of the grammar has one tree.
  refine ⟨hiff, fun tree tree' h h' ↦ ?_⟩
  have heq := ((hiff tree).2 h).symm.trans ((hiff tree').2 h')
  exact Except.ok.inj heq

/-- The tokens of a sum of a name and a product stand for that tree and no other. -/
theorem source_sum_iff :
    ∃ tokens, Token.tokenize .default "a+b*c".toList = .ok tokens ∧
      (∀ position, parse .default "a+b*c".toList ≠ .error (.tooDeep position)) ∧
      ∀ tree, Source .default tokens tree ↔
        tree = .binary "+" (.identifier "a") (.binary "*" (.identifier "b") (.identifier "c")) := by
  have htokens : Token.tokenize .default "a+b*c".toList =
      .ok [⟨.identifier, "a", 0, 1⟩, ⟨.operator, "+", 1, 2⟩, ⟨.identifier, "b", 2, 3⟩,
        ⟨.operator, "*", 3, 4⟩, ⟨.identifier, "c", 4, 5⟩, .eof 5] := by
    with_unfolding_all rfl
  have hparse : parse .default "a+b*c".toList =
      .ok (.binary "+" (.identifier "a") (.binary "*" (.identifier "b") (.identifier "c"))) := by
    with_unfolding_all rfl
  have hdepth : ∀ position, parse .default "a+b*c".toList ≠ .error (.tooDeep position) := by
    rw [hparse]
    exact nofun
  refine ⟨_, htokens, hdepth, fun tree ↦ ?_⟩
  rw [← (parse_eq_ok_iff htokens hdepth).1, hparse, Except.ok.injEq, eq_comm]

end FeatureStyle.SyntaxTree
