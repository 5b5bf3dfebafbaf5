import FeatureStyle.Proofs.Token.Tokenize
import FeatureStyle.Proofs.Tree.Height
import FeatureStyle.Proofs.Tree.Soundness
import Mathlib.Tactic.IntervalCases

/-!
# The highest trees

The bound on the height of a tree is attained. `tower m` uses up `m + 1` levels, and spends each of
them as well as it can: an array of the tower one level lower, all calls that the levels left allow
behind it, as many operators behind these, and all of it the test of a conditional expression. The
right operands and the branches are empty arrays, for which no level is needed.

So `nestingLimit` does not bound the height of trees: **the highest tree that can be read has height
`nestingLimit * (nestingLimit + 1) - 1`.**
-/

namespace FeatureStyle.SyntaxTree

open Phrase Token

/-! ### The towers and their texts -/

/-- A tree with calls behind it. -/
def calls : Nat → SyntaxTree → SyntaxTree
  | 0, tree => tree
  | k + 1, tree => calls k (.call tree [])

/-- A tree with empty arrays added to it. -/
def sums : Nat → SyntaxTree → SyntaxTree
  | 0, tree => tree
  | k + 1, tree => sums k (joinBinary (String.ofList ['+']) tree (.array []))

/-- The highest tree that can be read with a level more than the given number. -/
def tower : Nat → SyntaxTree
  | 0 => .array []
  | m + 1 =>
    .conditional (sums (m + 1) (calls (m + 1) (.array [tower m]))) (.array []) (.array [])

def callsText : Nat → List Char
  | 0 => []
  | k + 1 => '(' :: ')' :: callsText k

def sumsText : Nat → List Char
  | 0 => []
  | k + 1 => '+' :: '[' :: ']' :: sumsText k

def towerText : Nat → List Char
  | 0 => ['[', ']']
  | m + 1 =>
    '[' :: (towerText m ++ ']' ::
      (callsText (m + 1) ++ (sumsText (m + 1) ++ ['?', '[', ']', ':', '[', ']'])))

/-- Every call adds one to the height. -/
theorem height_calls (k : Nat) (tree : SyntaxTree) : (calls k tree).height = tree.height + k := by
  induction k generalizing tree with
  | zero => rfl
  | succ k ih =>
    rw [calls, ih, height, heights]
    omega

/-- So does every sum, if the tree is higher than what is added. -/
theorem height_sums (k : Nat) {tree : SyntaxTree} (h : 0 < tree.height) :
    (sums k tree).height = tree.height + k := by
  induction k generalizing tree with
  | zero => rfl
  | succ k ih =>
    have hjoin : (joinBinary (String.ofList ['+']) tree (.array [])).height = tree.height + 1 := by
      rw [height_joinBinary, height, heights]
      omega
    rw [sums, ih (by omega), hjoin]
    omega

/-- **A tower is as high as there is room for.** -/
theorem height_tower (m : Nat) : (tower m).height + 1 = Grammar.room (m + 1) := by
  induction m with
  | zero => rfl
  | succ m ih =>
    rw [Grammar.room_succ (Nat.succ_pos m), ← ih, tower, height, height_sums, height_calls, height,
      heights, heights, height, heights]
    · omega
    · rw [height_calls, height]
      omega

/-! ### The towers are read -/

namespace Grammar

variable {g : Grammar} {depth least : Nat} {rest : List Token}

theorem BinaryRun.emptyArray {opening closing : Token} (hopening : opening.kind = .lbracket)
    (hclosing : closing.kind = .rbracket) (hends : PostfixEnds rest)
    (hbelow : OperatorBelow g.table least rest) :
    BinaryRun g depth least (opening :: closing :: rest) (.array []) rest := by
  obtain ⟨dot, bracket, paren⟩ := postfixEnds_iff.1 hends
  refine .mk (.operand ?_ (.array hopening (.nil hclosing)) (.stop dot bracket paren))
    (.stop (operatorBelow_iff.1 hbelow))
  exact frontUnary?_cons_of_ne (by simp [hopening]) _

theorem ConditionalRun.emptyArray {opening closing : Token} (hopening : opening.kind = .lbracket)
    (hclosing : closing.kind = .rbracket) (level : depth < nestingLimit)
    (hends : Ends g.table rest) :
    ConditionalRun g depth (opening :: closing :: rest) (.array []) rest := by
  obtain ⟨hpost, hbelow, hquestion⟩ := ends_iff.1 hends
  exact .test level (.emptyArray hopening hclosing hpost hbelow) (front?_eq_none.2 hquestion)

/-- Calls behind a tree are read as long as there are levels for their lists. -/
theorem callsRun {k : Nat} {tree : SyntaxTree} (position : Nat) (hk : depth + k ≤ nestingLimit)
    (hends : PostfixEnds rest) :
    PostfixRestRun g depth tree (spell position (callsText k) ++ rest) (calls k tree) rest := by
  induction k generalizing depth position tree with
  | zero =>
    obtain ⟨dot, bracket, paren⟩ := postfixEnds_iff.1 hends
    exact .stop dot bracket paren
  | succ k ih => exact .call rfl (by omega) (.nil rfl) (ih _ (by omega))

/-- So are sums, whose right sides take a level each. -/
theorem sumsRun {k : Nat} {tree : SyntaxTree} (hg : g.table = .default) (position : Nat)
    (hk : depth + k ≤ nestingLimit) (hends : PostfixEnds rest)
    (hbelow : OperatorBelow g.table 0 rest) :
    BinaryRestRun g depth 0 tree (spell position (sumsText k) ++ rest) (sums k tree) rest := by
  induction k generalizing depth position tree with
  | zero => exact .stop (operatorBelow_iff.1 hbelow)
  | succ k ih =>
    have hplus : g.table.precedence? (String.ofList ['+']) = some 9 := by
      rw [hg]
      with_unfolding_all rfl
    refine .operator rfl hplus (Nat.zero_le _) (by omega) (.emptyArray rfl rfl ?_ ?_)
      (ih (position + 3) (by omega))
    · cases k with
      | zero => exact hends
      | succ k => exact postfixEnds_cons (show _ = TokenKind.operator from rfl) (by decide) _
    · cases k with
      | zero => exact hbelow.mono (Nat.zero_le _)
      | succ k =>
        -- The next operator is of the same precedence, and right operands only take up higher ones.
        rintro _ ⟨⟩ - p hp
        cases hplus.symm.trans hp
        decide

theorem front?_towerText (m position : Nat) :
    front? .rbracket (spell position (towerText m) ++ rest) = none := by
  cases m <;> exact front?_cons_of_ne (show TokenKind.lbracket ≠ .rbracket by decide)

/-- **A tower is read with as many levels as it is built of.** -/
theorem towerRun {m : Nat} (hg : g.table = .default) (position : Nat)
    (hm : depth + m < nestingLimit) (hends : Ends g.table rest) :
    ConditionalRun g depth (spell position (towerText m) ++ rest) (tower m) rest := by
  induction m generalizing depth position rest with
  | zero => exact .emptyArray rfl rfl hm hends
  | succ m ih =>
    simp only [towerText, spell, spell_append, List.cons_append, List.append_assoc,
      List.nil_append]
    -- The lower tower is read with one level less. The calls give their levels back, so there are
    -- as many again for the operators.
    refine .branches (by omega)
      (.mk
        (.operand ?bracket
          (.array rfl (.items (front?_towerText m _) (.last (ih _ (by omega) ?item) ?comma rfl)))
          (callsRun _ (by omega) ?calls))
        (sumsRun hg _ (by omega) ?sums ?operators))
      rfl (.emptyArray rfl rfl (by omega) ?consequent) rfl (.emptyArray rfl rfl (by omega) hends)
    case bracket => exact frontUnary?_cons_of_ne (show TokenKind.lbracket ≠ .operator by decide) _
    case item => exact ends_cons (show _ = TokenKind.rbracket from rfl) (by decide) _
    case comma => exact (show TokenKind.rbracket ≠ .comma by decide)
    case calls => exact postfixEnds_cons (show _ = TokenKind.operator from rfl) (by decide) _
    case sums => exact postfixEnds_cons (show _ = TokenKind.question from rfl) (by decide) _
    case operators => exact operatorBelow_cons (show _ = TokenKind.question from rfl) (by decide) _
    case consequent => exact ends_cons (show _ = TokenKind.colon from rfl) (by decide) _

end Grammar

/-- A tower is written in tokens of one character. -/
theorem forall_mem_towerText (m : Nat) : ∀ c ∈ towerText m, c ∈ singles := by
  have hcalls : ∀ k, ∀ c ∈ callsText k, c ∈ singles := by
    intro k
    induction k with
    | zero => simp [callsText]
    | succ k ih => simpa [callsText, singles] using ih
  have hsums : ∀ k, ∀ c ∈ sumsText k, c ∈ singles := by
    intro k
    induction k with
    | zero => simp [sumsText]
    | succ k ih => simpa [sumsText, singles] using ih
  induction m with
  | zero => simp [towerText, singles]
  | succ m ih =>
    simp only [towerText, List.forall_mem_cons, List.forall_mem_append]
    exact ⟨by simp [singles], ih, by simp [singles], hcalls _, hsums _, by simp [singles]⟩

/-- The text of a tower is read as the tower. -/
theorem parse_towerText {m : Nat} (hm : m < nestingLimit) :
    parse .default (towerText m) = .ok (tower m) := by
  have hrun : Grammar.ConditionalRun ⟨.default, (towerText m).length⟩ 0
      (spell 0 (towerText m) ++ []) (tower m) [] :=
    Grammar.towerRun rfl 0 (by omega) nofun
  rw [List.append_nil] at hrun
  refine parse_eq_ok.2 ⟨_, [tower m], tokensFrom_spell (forall_mem_towerText m) 0, ?_, rfl⟩
  rw [List.dropLast_concat]
  refine Grammar.expressions_of_run hrun ?_
  -- Every tower begins with a bracket.
  have hbegins : ¬ (TokenKind.lbracket = .comma ∨ TokenKind.lbracket = .semicolon) := by decide
  cases m <;> rintro _ ⟨⟩ <;> exact hbegins

/-! ### What the bound amounts to -/

/-- As many levels as are left bound the height of an expression exactly if there is at most one. -/
theorem forall_height_le_levels_iff {m : Nat} (hm : m ≤ nestingLimit) :
    (∀ (g : Grammar) tokens tree rest,
      outcome (g.conditional (nestingLimit - m) tokens) = .ok (tree, rest) → tree.height ≤ m) ↔
        m ≤ 1 := by
  constructor
  · intro h
    refine Nat.le_of_not_lt fun hlt ↦ ?_
    obtain ⟨k, rfl⟩ : ∃ k, m = k + 2 := ⟨m - 2, by omega⟩
    -- With more than one level left there is a tower that is higher than that.
    have hrun : Grammar.ConditionalRun ⟨.default, 0⟩ (nestingLimit - (k + 2))
        (spell 0 (towerText (k + 1)) ++ []) (tower (k + 1)) [] :=
      Grammar.towerRun rfl 0 (by omega) nofun
    have hle := h _ _ _ _ hrun.outcome_eq
    have hheight := height_tower (k + 1)
    have hroom := Grammar.room_add_le (k + 1)
    have hone := Grammar.one_le_room (k + 1)
    omega
  · intro hle g tokens tree rest h
    have hlt := (Grammar.ConditionalRun.of_outcome h).height_lt (Nat.sub_add_cancel hm)
    -- For no level and for one, `room m` is `m + 1`.
    interval_cases m
    · exact Nat.le_of_lt_succ hlt
    · exact Nat.le_of_lt_succ hlt

/-- **The bound on the height is attained.** -/
theorem exists_parse_height_add_one_eq :
    ∃ source tree, parse .default source = .ok tree ∧
      tree.height + 1 = nestingLimit * (nestingLimit + 1) :=
  ⟨towerText (nestingLimit - 1), tower (nestingLimit - 1), parse_towerText (by decide),
    height_tower (nestingLimit - 1)⟩

end FeatureStyle.SyntaxTree
