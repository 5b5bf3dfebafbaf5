import FeatureStyle.Proofs.Tree.Run
import Mathlib.Tactic.Ring

/-!
# How deep trees get

The readers keep count of the levels of nesting and stop at `nestingLimit`. What this bounds is not
the height of the tree that is read.

**What is bounded is the charge of the tree.** A level is spent on what is to come: on the operand
of a unary operator, on the right operand of a binary one, on a key, on arguments, on a whole
conditional expression. Nothing is spent on what has been read already, and a chain of operators,
members or calls gives all its levels back before its left end is used again as an operand. So a
path that goes down to the left operand, to the object or to the callee of a node gets past the node
for free, and also past an array. The `charge` of a tree leaves these nodes out, and it is at most
`nestingLimit`.

**The height is bounded by a square.** With `m` levels left, a primary expression has height at most
`room m`; `m` calls behind it and `m` operators behind these make it higher by `2 * m`, and this can
be the test of a conditional expression in the array that the next level is about. So every level
adds twice the number of levels left.
-/

namespace FeatureStyle.SyntaxTree

mutual

/-- The greatest number of composite nodes on a path from the root to a leaf. A list of expressions
side by side is no composite node. -/
def height : SyntaxTree → Nat
  | literal _ | identifier _ => 0
  | call callee arguments => max callee.height (heights arguments) + 1
  | unary _ operand => operand.height + 1
  | binary _ left right | logical _ left right => max left.height right.height + 1
  | conditional test consequent alternate =>
    max test.height (max consequent.height alternate.height) + 1
  | member object property _ => max object.height property.height + 1
  | array items => heights items + 1
  | compound items => heights items

/-- The greatest height in a list. -/
def heights : List SyntaxTree → Nat
  | [] => 0
  | item :: items => max item.height (heights items)

end

mutual

/-- The greatest number of nodes on a path that a level of nesting has been spent on. -/
def charge : SyntaxTree → Nat
  | literal _ | identifier _ => 0
  | call callee arguments => max callee.charge (charges arguments + 1)
  | unary _ operand => operand.charge + 1
  | binary _ left right | logical _ left right => max left.charge (right.charge + 1)
  | conditional test consequent alternate =>
    max test.charge (max consequent.charge alternate.charge) + 1
  | member object property _ => max object.charge (property.charge + 1)
  | array items => charges items
  | compound items => charges items

/-- The greatest charge in a list. -/
def charges : List SyntaxTree → Nat
  | [] => 0
  | item :: items => max item.charge (charges items)

end

/-- A tree put together by an operator is one higher than the higher side. -/
theorem height_joinBinary (symbol : String) (left right : SyntaxTree) :
    (joinBinary symbol left right).height = max left.height right.height + 1 := by
  rw [joinBinary]
  split <;> rw [height]

section Bounds

variable {object property left right : SyntaxTree} {arguments : List SyntaxTree} {bound : Nat}

/-- The same as a bound. -/
theorem height_joinBinary_le (hleft : left.height ≤ bound) (hright : right.height ≤ bound)
    (symbol : String) : (joinBinary symbol left right).height ≤ bound + 1 := by
  rw [height_joinBinary]
  omega

/-- Reading a member adds one to the heights of the object and the key. -/
theorem height_member_le (hobject : object.height ≤ bound) (hproperty : property.height ≤ bound)
    (computed : Bool) : (member object property computed).height ≤ bound + 1 := by
  rw [height]
  omega

/-- So does a call, whose arguments are counted together. -/
theorem height_call_le (hcallee : object.height ≤ bound) (harguments : heights arguments ≤ bound) :
    (call object arguments).height ≤ bound + 1 := by
  rw [height]
  omega

end Bounds

/-- An operator charges its right side a level, and its left side none. -/
theorem charge_joinBinary (symbol : String) (left right : SyntaxTree) :
    (joinBinary symbol left right).charge = max left.charge (right.charge + 1) := by
  rw [joinBinary]
  split <;> rw [charge]

/-- The tree of a single token. -/
theorem leaf?_height_charge {t : Token} {tree : SyntaxTree}
    (h : Grammar.leaf? t = some (.ok tree)) : tree.height = 0 ∧ tree.charge = 0 := by
  rw [Grammar.leaf?] at h
  split at h <;> try cases h
  case h_2 =>
    -- A number is the only leaf that can fail to be one.
    have hnumber : Grammar.numberLiteral t = .ok tree := Option.some.inj h
    rw [Grammar.numberLiteral] at hnumber
    split at hnumber <;> cases hnumber
    exact ⟨by rw [height], by rw [charge]⟩
  all_goals exact ⟨by rw [height], by rw [charge]⟩

namespace Grammar

variable {g : Grammar}

/-! ### What the count of levels bounds -/

/-- A conditional expression takes a level. -/
theorem ConditionalRun.level {depth : Nat} {tokens rest : List Token} {tree : SyntaxTree}
    (h : ConditionalRun g depth tokens tree rest) : depth < nestingLimit := by
  cases h <;> assumption

mutual

/-- **A reading charges no more than the levels that were left to it.** -/
theorem ConditionalRun.charge_le {depth m : Nat} {tokens rest : List Token} {tree : SyntaxTree} :
    ConditionalRun g depth tokens tree rest → depth + m = nestingLimit → tree.charge ≤ m
  | .test level testRun _, hm => by
    have := testRun.charge_le (m := m - 1) (by omega)
    omega
  | .branches level testRun _ consequentRun _ alternateRun, hm => by
    have := testRun.charge_le (m := m - 1) (by omega)
    have := consequentRun.charge_le (m := m - 1) (by omega)
    have := alternateRun.charge_le (m := m - 1) (by omega)
    rw [charge]
    omega

/-- An operator expression is charged what its first operand is and what the operators are. -/
theorem BinaryRun.charge_le {depth least m : Nat} {tokens rest : List Token} {tree : SyntaxTree} :
    BinaryRun g depth least tokens tree rest → depth + m = nestingLimit → tree.charge ≤ m
  | .mk leftRun restRun, hm => restRun.charge_le (leftRun.charge_le hm) (by omega)

/-- What has been read before the operators is charged by its own account, so that the bound is
carried along it. -/
theorem BinaryRestRun.charge_le {depth least bound : Nat} {left tree : SyntaxTree}
    {tokens rest : List Token} : BinaryRestRun g depth least left tokens tree rest →
      left.charge ≤ bound → nestingLimit ≤ depth + bound → tree.charge ≤ bound
  | .stop _, hleft, _ => hleft
  | .operator _ _ _ level rightRun restRun, hleft, hbound => by
    -- The bound is that of the whole chain, however many levels the chain has used up by now.
    have := rightRun.charge_le (m := nestingLimit - (depth + 1)) (by omega)
    refine restRun.charge_le ?_ (by omega)
    rw [charge_joinBinary]
    omega

/-- The same for an operator before its operand, which takes a level. -/
theorem UnaryRun.charge_le {depth m : Nat} {tokens rest : List Token} {tree : SyntaxTree} :
    UnaryRun g depth tokens tree rest → depth + m = nestingLimit → tree.charge ≤ m
  | .operator _ _ level operandRun, hm => by
    have := operandRun.charge_le (m := m - 1) (by omega)
    rw [charge]
    omega
  | .operand _ objectRun restRun, hm => restRun.charge_le (objectRun.charge_le hm) (by omega)

/-- Members and calls are charged like operators: what stands before them has its own account. -/
theorem PostfixRestRun.charge_le {depth bound : Nat} {object tree : SyntaxTree}
    {tokens rest : List Token} : PostfixRestRun g depth object tokens tree rest →
      object.charge ≤ bound → nestingLimit ≤ depth + bound → tree.charge ≤ bound
  | .stop _ _ _, hobject, _ => hobject
  | .member _ level _ restRun, hobject, hbound => by
    refine restRun.charge_le ?_ (by omega)
    rw [charge, charge]
    omega
  | .index _ level keyRun _ restRun, hobject, hbound => by
    have := keyRun.charge_le (m := nestingLimit - (depth + 1)) (by omega)
    refine restRun.charge_le ?_ (by omega)
    rw [charge]
    omega
  | .call _ level argumentsRun restRun, hobject, hbound => by
    have := argumentsRun.charges_le (m := nestingLimit - (depth + 1)) (by omega)
    refine restRun.charge_le ?_ (by omega)
    rw [charge]
    omega

/-- What stands in parentheses or brackets is read with one level less. -/
theorem PrimaryRun.charge_le {depth m : Nat} {tokens rest : List Token} {tree : SyntaxTree} :
    PrimaryRun g depth tokens tree rest → depth + m = nestingLimit → tree.charge ≤ m
  | .leaf h, _ => by
    rw [(leaf?_height_charge h).2]
    exact Nat.zero_le m
  | .parentheses _ innerRun _, hm => innerRun.charge_le hm
  | .array _ itemsRun, hm => by
    rw [charge]
    exact itemsRun.charges_le hm

/-- No item of a list is charged more than the levels that were left to the list. -/
theorem ListRun.charges_le {depth m : Nat} {close : TokenKind} {tokens rest : List Token}
    {items : List SyntaxTree} :
    ListRun g depth close tokens items rest → depth + m = nestingLimit → charges items ≤ m
  | .nil _, _ => by
    rw [charges]
    exact Nat.zero_le m
  | .items _ itemsRun, hm => itemsRun.charges_le hm

theorem ItemsRun.charges_le {depth m : Nat} {close : TokenKind} {tokens rest : List Token}
    {items : List SyntaxTree} :
    ItemsRun g depth close tokens items rest → depth + m = nestingLimit → charges items ≤ m
  | .last itemRun _ _, hm => by
    have := itemRun.charge_le hm
    rw [charges, charges]
    omega
  | .more itemRun _ itemsRun, hm => by
    have := itemRun.charge_le hm
    have := itemsRun.charges_le hm
    rw [charges]
    omega

end

/-! ### How high trees can get -/

/-- The greatest height of a primary expression that is read with the given number of levels
left. -/
def room : Nat → Nat
  | 0 => 1
  | m + 1 => (m + 1) * (m + 2)

theorem one_le_room : ∀ m, 1 ≤ room m
  | 0 => Nat.le_refl 1
  | m + 1 => by
    rw [room]
    exact Nat.mul_pos (Nat.succ_pos m) (Nat.succ_pos _)

/-- A level more has room for a chain of calls and one of operators, and for a conditional
expression about them if there is a level left for its branches. -/
theorem room_succ {m : Nat} (hm : 0 < m) : room (m + 1) = room m + 2 * m + 2 := by
  obtain ⟨k, rfl⟩ := Nat.exists_eq_add_of_lt hm
  simp only [Nat.zero_add, room]
  ring

/-- A level more has room for the operators on either side of an operand. -/
theorem room_add_le (m : Nat) : room m + 2 * m + 1 ≤ room (m + 1) := by
  rcases Nat.eq_zero_or_pos m with rfl | hm
  · decide
  · rw [room_succ hm]
    omega

theorem room_le_of_succ {k bound : Nat} (hk : room k ≤ bound) :
    ∀ j, k = j + 1 → room j ≤ bound + 1 := by
  rintro j rfl
  have := room_add_le j
  omega

mutual

/-- **A reading stays below the room of the levels that were left to it.** -/
theorem ConditionalRun.height_lt {depth m : Nat} {tokens rest : List Token} {tree : SyntaxTree} :
    ConditionalRun g depth tokens tree rest → depth + m = nestingLimit → tree.height < room m
  | .test level testRun _, hm => by
    obtain ⟨k, rfl⟩ : ∃ k, m = k + 1 := ⟨m - 1, by omega⟩
    have htest := testRun.height_le (m := k) (by omega)
    have := room_add_le k
    omega
  | .branches level testRun _ consequentRun _ alternateRun, hm => by
    obtain ⟨k, rfl⟩ : ∃ k, m = k + 1 := ⟨m - 1, by omega⟩
    have htest := testRun.height_le (m := k) (by omega)
    have hconsequent := consequentRun.height_lt (m := k) (by omega)
    have halternate := alternateRun.height_lt (m := k) (by omega)
    -- The branches take a level of their own, so the test was not read with the last one.
    have hk : 0 < k := by
      have := consequentRun.level
      omega
    rw [height, room_succ hk]
    omega

/-- An operator expression may in addition have one operator for each level on either side. -/
theorem BinaryRun.height_le {depth least m : Nat} {tokens rest : List Token} {tree : SyntaxTree} :
    BinaryRun g depth least tokens tree rest → depth + m = nestingLimit →
      tree.height ≤ room m + 2 * m
  | .mk leftRun restRun, hm => by
    have hleft := leftRun.height_le hm
    have := restRun.height_le hm hleft fun k hk ↦ by
      have := room_add_le k
      subst hk
      omega
    omega

/-- Every operator puts one node more on top of the left operand, and the right operands are read
with fewer levels left than the left one. -/
theorem BinaryRestRun.height_le {depth least m bound : Nat} {left tree : SyntaxTree}
    {tokens rest : List Token} : BinaryRestRun g depth least left tokens tree rest →
      depth + m = nestingLimit → left.height ≤ bound →
      (∀ k, m = k + 1 → room k + 2 * k ≤ bound) → tree.height ≤ bound + m
  | .stop _, _, hleft, _ => Nat.le_add_right_of_le hleft
  | .operator _ _ _ level rightRun restRun, hm, hleft, hbound => by
    obtain ⟨k, rfl⟩ : ∃ k, m = k + 1 := ⟨m - 1, by omega⟩
    have hright := rightRun.height_le (m := k) (by omega)
    have hk := hbound k rfl
    -- Right operands are never the higher ones, so an operator adds one to the left operand.
    have hjoin := height_joinBinary_le hleft (Nat.le_trans hright hk)
    have := restRun.height_le (m := k) (by omega) (hjoin _) fun j hj ↦ by
      have := room_add_le j
      subst hj
      omega
    omega

/-- An operator before its operand adds one for each level. -/
theorem UnaryRun.height_le {depth m : Nat} {tokens rest : List Token} {tree : SyntaxTree} :
    UnaryRun g depth tokens tree rest → depth + m = nestingLimit → tree.height ≤ room m + m
  | .operator _ _ level operandRun, hm => by
    obtain ⟨k, rfl⟩ : ∃ k, m = k + 1 := ⟨m - 1, by omega⟩
    have hoperand := operandRun.height_le (m := k) (by omega)
    have := room_add_le k
    rw [height]
    omega
  | .operand _ objectRun restRun, hm => by
    have hobject := objectRun.height_le hm
    exact restRun.height_le hm hobject fun k hk ↦ by
      have := room_add_le k
      subst hk
      omega

/-- Every member or call puts one node more on top of the object. -/
theorem PostfixRestRun.height_le {depth m bound : Nat} {object tree : SyntaxTree}
    {tokens rest : List Token} : PostfixRestRun g depth object tokens tree rest →
      depth + m = nestingLimit → object.height ≤ bound → (∀ k, m = k + 1 → room k ≤ bound) →
      tree.height ≤ bound + m
  | .stop _ _ _, _, hobject, _ => Nat.le_add_right_of_le hobject
  | .member _ level _ restRun, hm, hobject, hbound => by
    obtain ⟨k, rfl⟩ : ∃ k, m = k + 1 := ⟨m - 1, by omega⟩
    have hk := hbound k rfl
    have := restRun.height_le (m := k) (by omega)
      (height_member_le hobject (by rw [height]; exact Nat.zero_le bound) false)
      (room_le_of_succ hk)
    omega
  | .index _ level keyRun _ restRun, hm, hobject, hbound => by
    obtain ⟨k, rfl⟩ : ∃ k, m = k + 1 := ⟨m - 1, by omega⟩
    have hk := hbound k rfl
    have hkey := keyRun.height_lt (m := k) (by omega)
    have hmember := height_member_le hobject (hkey.le.trans hk) true
    have := restRun.height_le (m := k) (by omega) hmember (room_le_of_succ hk)
    omega
  | .call _ level argumentsRun restRun, hm, hobject, hbound => by
    obtain ⟨k, rfl⟩ : ∃ k, m = k + 1 := ⟨m - 1, by omega⟩
    have hk := hbound k rfl
    have harguments := argumentsRun.heights_lt (m := k) (by omega)
    have hcall := height_call_le hobject (harguments.le.trans hk)
    have := restRun.height_le (m := k) (by omega) hcall (room_le_of_succ hk)
    omega

/-- A primary expression stays within the room. -/
theorem PrimaryRun.height_le {depth m : Nat} {tokens rest : List Token} {tree : SyntaxTree} :
    PrimaryRun g depth tokens tree rest → depth + m = nestingLimit → tree.height ≤ room m
  | .leaf h, _ => by
    rw [(leaf?_height_charge h).1]
    exact Nat.zero_le _
  | .parentheses _ innerRun _, hm => (innerRun.height_lt hm).le
  | .array _ itemsRun, hm => by
    rw [height]
    exact itemsRun.heights_lt hm

/-- The items of a list stay below the room, as conditional expressions do. -/
theorem ListRun.heights_lt {depth m : Nat} {close : TokenKind} {tokens rest : List Token}
    {items : List SyntaxTree} :
    ListRun g depth close tokens items rest → depth + m = nestingLimit → heights items < room m
  | .nil _, _ => by
    rw [heights]
    exact one_le_room m
  | .items _ itemsRun, hm => itemsRun.heights_lt hm

theorem ItemsRun.heights_lt {depth m : Nat} {close : TokenKind} {tokens rest : List Token}
    {items : List SyntaxTree} :
    ItemsRun g depth close tokens items rest → depth + m = nestingLimit → heights items < room m
  | .last itemRun _ _, hm => by
    have := itemRun.height_lt hm
    rw [heights, heights]
    omega
  | .more itemRun _ itemsRun, hm => by
    have := itemRun.height_lt hm
    have := itemsRun.heights_lt hm
    rw [heights]
    omega

end

end Grammar

/-! ### Whole sources -/

/-- The heights of items are bounded together if each of them is. -/
theorem heights_lt_of_forall {n : Nat} (hn : 0 < n) {items : List SyntaxTree}
    (h : ∀ item ∈ items, item.height < n) : heights items < n := by
  induction items with
  | nil => rwa [heights]
  | cons item items ih =>
    obtain ⟨hitem, hitems⟩ := List.forall_mem_cons.1 h
    rw [heights]
    exact Nat.max_lt.2 ⟨hitem, ih hitems⟩

/-- So are their charges. -/
theorem charges_le_of_forall {n : Nat} {items : List SyntaxTree}
    (h : ∀ item ∈ items, item.charge ≤ n) : charges items ≤ n := by
  induction items with
  | nil =>
    rw [charges]
    exact Nat.zero_le n
  | cons item items ih =>
    obtain ⟨hitem, hitems⟩ := List.forall_mem_cons.1 h
    rw [charges]
    exact Nat.max_le.2 ⟨hitem, ih hitems⟩

/-- Expressions side by side are as high as the highest of them. -/
theorem height_ofItems (items : List SyntaxTree) : (ofItems items).height = heights items := by
  unfold ofItems
  split
  · rw [heights, heights, Nat.max_zero]
  · rw [height]

/-- They are charged what the most expensive of them is. -/
theorem charge_ofItems (items : List SyntaxTree) : (ofItems items).charge = charges items := by
  unfold ofItems
  split
  · rw [charges, charges, Nat.max_zero]
  · rw [charge]

variable {table : OperatorTable} {source : List Char} {tree : SyntaxTree}

/-- No path of a tree that is read passes more nodes that are charged for than there are levels. -/
theorem charge_le_of_parse (h : parse table source = .ok tree) : tree.charge ≤ nestingLimit := by
  obtain ⟨tokens, items, -, hitems, rfl⟩ := parse_eq_ok.1 h
  rw [charge_ofItems]
  refine charges_le_of_forall fun item hitem ↦ ?_
  obtain ⟨_, _, hrun⟩ := Grammar.exists_run_of_expressions hitems item hitem
  exact hrun.charge_le (Nat.zero_add _)

/-- **Every parsed tree stays below the room of the nesting limit.** -/
theorem height_lt_of_parse (h : parse table source = .ok tree) :
    tree.height < Grammar.room nestingLimit := by
  obtain ⟨tokens, items, -, hitems, rfl⟩ := parse_eq_ok.1 h
  rw [height_ofItems]
  refine heights_lt_of_forall (Grammar.one_le_room _) fun item hitem ↦ ?_
  obtain ⟨_, _, hrun⟩ := Grammar.exists_run_of_expressions hitems item hitem
  exact hrun.height_lt (Nat.zero_add _)

end FeatureStyle.SyntaxTree
