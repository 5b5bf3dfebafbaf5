import FeatureStyle.Proofs.Tree.Phrase
import FeatureStyle.Proofs.Tree.Run

/-!
# Every tree that is read is a tree of the grammar

A run of a reader uses up a phrase of its sort, and stops where the phrase cannot go on. Most runs
are phrases as they stand. Two readers collect what comes behind a tree that they are handed, and
for them the phrase read so far is part of the statement.

**The invariant of the operators.** `binaryRest` is handed a left operand whose root is at least the
least precedence that it may take up, and also at least the precedence of an operator that comes
next. It keeps both: the right operand takes up everything of a higher precedence than its operator,
so that what comes next has at most this precedence, and this precedence is the root of the operands
put together.
-/

namespace FeatureStyle.SyntaxTree.Grammar

open Phrase

variable {g : Grammar} {depth least : Nat} {close : TokenKind} {tokens rest : List Token}
  {tree object left : SyntaxTree} {items : List SyntaxTree}

/-! ### Looking at the next token -/

/-- A look at the first token finds nothing exactly if it is of another kind. -/
theorem front?_eq_none {kind : TokenKind} :
    front? kind tokens = none ↔ ∀ t ∈ tokens.head?, t.kind ≠ kind := by
  cases tokens <;> simp [front?]

theorem postfixEnds_iff : PostfixEnds tokens ↔
    front? .dot tokens = none ∧ front? .lbracket tokens = none ∧ front? .lparen tokens = none := by
  simp only [front?_eq_none, PostfixEnds, ← forall_and]

theorem operatorBelow_iff :
    OperatorBelow g.table least tokens ↔ g.frontOperator? least tokens = none := by
  constructor
  · intro h
    refine Option.eq_none_iff_forall_ne_some.2 fun ⟨symbol, precedence, rest⟩ hfront ↦ ?_
    obtain ⟨t, hkind, hprecedence, hleast, -, rfl⟩ := frontOperator?_eq_some.1 hfront
    exact absurd (h t rfl hkind precedence hprecedence) (Nat.not_lt.2 hleast)
  · intro h t ht hkind precedence hprecedence
    obtain ⟨rest, rfl⟩ := List.head?_eq_some_iff.1 ht
    refine Nat.lt_of_not_le fun hleast ↦ ?_
    rw [frontOperator?_eq_some.2 ⟨t, hkind, hprecedence, hleast, rfl, rfl⟩] at h
    cases h

/-- A token without a tree of its own is no atom, and the tree of an atom is its own. -/
theorem leaf?_eq_some {t : Token} : leaf? t = some (.ok tree) ↔ Atom t tree := by
  constructor
  · intro h
    rw [leaf?] at h
    split at h
    · next hkind => cases h; exact .identifier hkind
    · next hkind =>
      rw [numberLiteral] at h
      split at h
      · next hd => cases h; exact .number hkind hd
      · cases h
    · next hkind => cases h; exact .string hkind
    · next hkind => cases h; exact .true hkind
    · next hkind => cases h; exact .false hkind
    · next hkind => cases h; exact .null hkind
    · cases h
  · rintro (h | ⟨h, hd⟩ | h | h | h | h)
    · rw [leaf?, h]
    · rw [leaf?, h, numberLiteral, hd]
    all_goals rw [leaf?, h]

/-! ### Runs use up phrases -/

mutual

/-- **What a run uses up is a phrase of the grammar, and what it leaves ends the phrase.** -/
theorem ConditionalRun.phrase {depth : Nat} {tokens rest : List Token} {tree : SyntaxTree} :
    ConditionalRun g depth tokens tree rest →
      ∃ used, tokens = used ++ rest ∧ Conditional g.table used tree ∧ Ends g.table rest
  | .test _ testRun stop => by
    obtain ⟨root, used, rfl, htest, -, hends, hbelow⟩ := testRun.phrase
    exact ⟨used, rfl, .binary htest, ends_iff.2 ⟨hends, hbelow, front?_eq_none.1 stop⟩⟩
  | .branches _ testRun hquestion consequentRun hcolon alternateRun => by
    obtain ⟨root, test, rfl, htest, -⟩ := testRun.phrase
    obtain ⟨consequent, rfl, hconsequent, -⟩ := consequentRun.phrase
    obtain ⟨alternate, rfl, halternate, hends⟩ := alternateRun.phrase
    exact ⟨_, by simp, .branches htest hquestion hconsequent hcolon halternate, hends⟩

/-- The root of an operator expression is no looser than the reader was asked for. -/
theorem BinaryRun.phrase {depth least : Nat} {tokens rest : List Token} {tree : SyntaxTree} :
    BinaryRun g depth least tokens tree rest →
      ∃ root used, tokens = used ++ rest ∧ Binary g.table root used tree ∧
        (∀ p ∈ root, least ≤ p) ∧ PostfixEnds rest ∧ OperatorBelow g.table least rest
  | .mk leftRun restRun => by
    obtain ⟨used, rfl, hleft, hends⟩ := leftRun.phrase
    obtain ⟨root, more, rfl, h⟩ := restRun.phrase (.operand hleft) nofun hends
    exact ⟨root, used ++ more, by simp, h⟩

/-- The phrase that has been read becomes the left side of the operators, so it grows at the right.
-/
theorem BinaryRestRun.phrase {depth least : Nat} {left tree : SyntaxTree} {tokens rest : List Token}
    {root : Option Nat} {used : List Token} : BinaryRestRun g depth least left tokens tree rest →
      Binary g.table root used left →
      (∀ p ∈ root, least ≤ p ∧ OperatorBelow g.table (p + 1) tokens) → PostfixEnds tokens →
      ∃ root more, tokens = more ++ rest ∧ Binary g.table root (used ++ more) tree ∧
        (∀ p ∈ root, least ≤ p) ∧ PostfixEnds rest ∧ OperatorBelow g.table least rest
  | .stop stop, hleft, hroot, hends =>
    ⟨root, [], rfl, by simpa using hleft, fun p hp ↦ (hroot p hp).1, hends,
      operatorBelow_iff.2 stop⟩
  | .operator hkind hprecedence hleast _ rightRun restRun, hleft, hroot, _ => by
    obtain ⟨rightRoot, right, rfl, hright, hrightRoot, hends, hbelow⟩ := rightRun.phrase
    -- The operator did not go to the left operand, so the root of that one is not below it.
    have hleftRoot : ∀ p ∈ root, _ ≤ p := fun p hp ↦
      Nat.lt_succ_iff.1 ((hroot p hp).2 _ rfl hkind _ hprecedence)
    have hjoin := Binary.operator hleft hkind hprecedence hright hleftRoot hrightRoot
    -- The right operand left what comes next, so this is not above the new root.
    obtain ⟨root', more, rfl, h, hrest⟩ :=
      restRun.phrase hjoin (by rintro p ⟨⟩; exact ⟨hleast, hbelow⟩) hends
    rw [List.append_assoc] at h
    exact ⟨root', _, by simp, h, hrest⟩

/-- An operator before an operand is the first token of the phrase. -/
theorem UnaryRun.phrase {depth : Nat} {tokens rest : List Token} {tree : SyntaxTree} :
    UnaryRun g depth tokens tree rest →
      ∃ used, tokens = used ++ rest ∧ Unary g.table used tree ∧ PostfixEnds rest
  | .operator hkind hunary _ operandRun => by
    obtain ⟨used, rfl, h, hends⟩ := operandRun.phrase
    exact ⟨_ :: used, rfl, .operator hkind hunary h, hends⟩
  | .operand _ objectRun restRun => by
    obtain ⟨used, rfl, hobject⟩ := objectRun.phrase
    obtain ⟨more, rfl, h, hends⟩ := restRun.phrase (.primary hobject)
    exact ⟨used ++ more, by simp, .operand h, hends⟩

/-- The object grows at the right, too. -/
theorem PostfixRestRun.phrase {depth : Nat} {object tree : SyntaxTree} {tokens rest : List Token}
    {used : List Token} : PostfixRestRun g depth object tokens tree rest →
      Postfix g.table used object →
      ∃ more, tokens = more ++ rest ∧ Postfix g.table (used ++ more) tree ∧ PostfixEnds rest
  | .stop dot bracket paren, hobject =>
    ⟨[], rfl, by simpa using hobject, postfixEnds_iff.2 ⟨dot, bracket, paren⟩⟩
  | .member hdot _ hname restRun, hobject => by
    obtain ⟨more, rfl, h, hends⟩ := restRun.phrase (.member hobject hdot hname)
    rw [List.append_assoc] at h
    exact ⟨_, by simp, h, hends⟩
  | .index hbracket _ keyRun hclosing restRun, hobject => by
    obtain ⟨inner, rfl, hkey, -⟩ := keyRun.phrase
    obtain ⟨more, rfl, h, hends⟩ := restRun.phrase (.index hobject hbracket hkey hclosing)
    rw [List.append_assoc] at h
    exact ⟨_, by simp, h, hends⟩
  | .call hparen _ argumentsRun restRun, hobject => by
    obtain ⟨inner, closing, rfl, harguments, hclosing⟩ := argumentsRun.phrase
    obtain ⟨more, rfl, h, hends⟩ := restRun.phrase (.call hobject hparen harguments hclosing)
    rw [List.append_assoc] at h
    exact ⟨_, by simp, h, hends⟩

theorem PrimaryRun.phrase {depth : Nat} {tokens rest : List Token} {tree : SyntaxTree} :
    PrimaryRun g depth tokens tree rest →
      ∃ used, tokens = used ++ rest ∧ Primary g.table used tree
  | .leaf h => ⟨[_], rfl, .atom (leaf?_eq_some.1 h)⟩
  | .parentheses hparen innerRun hclosing => by
    obtain ⟨inner, rfl, h, -⟩ := innerRun.phrase
    exact ⟨_, by simp, .parentheses hparen h hclosing⟩
  | .array hbracket itemsRun => by
    obtain ⟨inner, closing, rfl, h, hclosing⟩ := itemsRun.phrase
    exact ⟨_, by simp, .array hbracket h hclosing⟩

/-- The bracket that closes a list is not part of its items. -/
theorem ListRun.phrase {depth : Nat} {close : TokenKind} {tokens rest : List Token}
    {items : List SyntaxTree} : ListRun g depth close tokens items rest →
      ∃ used closing, tokens = used ++ closing :: rest ∧ Listed g.table used items ∧
        closing.kind = close
  | .nil hclosing => ⟨[], _, rfl, .nil, hclosing⟩
  | .items _ itemsRun => by
    obtain ⟨used, closing, rfl, h, hclosing⟩ := itemsRun.phrase
    exact ⟨used, closing, rfl, .items h, hclosing⟩

theorem ItemsRun.phrase {depth : Nat} {close : TokenKind} {tokens rest : List Token}
    {items : List SyntaxTree} : ItemsRun g depth close tokens items rest →
      ∃ used closing, tokens = used ++ closing :: rest ∧ Items g.table used items ∧
        closing.kind = close
  | .last itemRun _ hclosing => by
    obtain ⟨used, rfl, h, -⟩ := itemRun.phrase
    exact ⟨used, _, rfl, .last h, hclosing⟩
  | .more itemRun hcomma itemsRun => by
    obtain ⟨used, rfl, h, -⟩ := itemRun.phrase
    obtain ⟨inner, closing, rfl, hitems, hclosing⟩ := itemsRun.phrase
    exact ⟨used ++ _ :: inner, closing, by simp, .more h hcomma hitems, hclosing⟩

end

/-- The expressions of a source are conditional phrases side by side. -/
theorem sideBySide_of_expressions {tokens : List Token} {items : List SyntaxTree}
    (h : g.expressions tokens = .ok items) : SideBySide g.table tokens items := by
  match tokens with
  | [] =>
    rw [expressions_nil] at h
    cases h
    exact .nil
  | t :: tokens =>
    rw [expressions_cons] at h
    split at h
    · next hseparator => exact .separator hseparator (sideBySide_of_expressions h)
    · obtain ⟨⟨item, rest⟩, hitem, h⟩ := bind_eq_ok.1 h
      have hrest : rest.length ≤ tokens.length := Nat.le_of_lt_succ (length_lt_of_outcome hitem)
      obtain ⟨items, hitems, h⟩ := bind_eq_ok.1 h
      cases h
      have ih := sideBySide_of_expressions hitems
      obtain ⟨used, hused, hphrase, hends⟩ := (ConditionalRun.of_outcome hitem).phrase
      rw [hused]
      exact .item hphrase hends ih
termination_by tokens.length

end FeatureStyle.SyntaxTree.Grammar
