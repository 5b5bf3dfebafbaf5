import FeatureStyle.Proofs.Token.Tokenize
import FeatureStyle.Proofs.Tree.Soundness

/-!
# The leaves of syntax trees

The **leaves** of a tree are its names and literals from left to right, the name behind a dot
included. Reading neither makes up a leaf nor loses one, and it keeps their order: **the leaves of a
tree that is read are the tokens of its source that are trees by themselves** (`leaves_of_parse`).
-/

namespace FeatureStyle

namespace SyntaxTree

open Grammar (leaf? leaf?_eq_some)

/-! ### Leaves -/

mutual

/-- The names and literals of a tree, from left to right. -/
def leaves : SyntaxTree → List SyntaxTree
  | literal l => [literal l]
  | identifier name => [identifier name]
  | call callee arguments => callee.leaves ++ leavesAll arguments
  | unary _ operand => operand.leaves
  | binary _ left right | logical _ left right => left.leaves ++ right.leaves
  | conditional test consequent alternate =>
    test.leaves ++ consequent.leaves ++ alternate.leaves
  | member object property _ => object.leaves ++ property.leaves
  | array items | compound items => leavesAll items

/-- The names and literals of trees, from left to right. -/
def leavesAll : List SyntaxTree → List SyntaxTree
  | [] => []
  | item :: items => item.leaves ++ leavesAll items

end

/-- An operator has the leaves of its left side, and then those of its right side. -/
theorem leaves_joinBinary (symbol : String) (left right : SyntaxTree) :
    (joinBinary symbol left right).leaves = left.leaves ++ right.leaves := by
  rw [joinBinary]
  split <;> rw [leaves]

/-- Expressions side by side have their leaves side by side. -/
theorem leaves_ofItems (items : List SyntaxTree) : (ofItems items).leaves = leavesAll items := by
  fun_cases ofItems items with
  | case1 item => rw [leavesAll, leavesAll, List.append_nil]
  | case2 => rw [leaves]

/-- The leaves of one of several trees are among those of all. -/
theorem leaves_subset_leavesAll {item : SyntaxTree} {items : List SyntaxTree} (h : item ∈ items) :
    item.leaves ⊆ leavesAll items := by
  induction items with
  | nil => cases h
  | cons head items ih =>
    rw [leavesAll]
    rcases List.mem_cons.1 h with rfl | h
    · exact List.subset_append_left _ _
    · exact List.Subset.trans (ih h) (List.subset_append_right _ _)

/-- A tree that is a single token is its own leaf. -/
theorem leaves_of_atom {t : Token} {tree : SyntaxTree} (h : Phrase.Atom t tree) :
    tree.leaves = [tree] := by
  cases h <;> rw [leaves]

/-- The trees of the tokens that are trees by themselves. -/
def atoms (tokens : List Token) : List (Except ParseError SyntaxTree) := tokens.filterMap leaf?

@[simp] theorem atoms_nil : atoms [] = [] := rfl

@[simp] theorem atoms_append (tokens rest : List Token) :
    atoms (tokens ++ rest) = atoms tokens ++ atoms rest := List.filterMap_append

/-- Operators and punctuation have no tree. -/
theorem atoms_cons {t : Token} {kind : TokenKind} (ht : t.kind = kind)
    (hkind : kind ∉ [.identifier, .number, .string, .true, .false, .null]) (rest : List Token) :
    atoms (t :: rest) = atoms rest := by
  refine List.filterMap_cons_none ?_
  subst ht
  rw [leaf?]
  split <;> simp_all

/-- A token that is a tree by itself is kept, with its tree. -/
theorem atoms_cons_atom {t : Token} {tree : SyntaxTree} (h : Phrase.Atom t tree)
    (rest : List Token) : atoms (t :: rest) = .ok tree :: atoms rest :=
  List.filterMap_cons_some (leaf?_eq_some.2 h)

end SyntaxTree

/-! ### Leaves of phrases -/

namespace Phrase

open SyntaxTree

variable {table : OperatorTable}

mutual

/-- **The leaves of a phrase are the trees of those of its tokens that are trees by themselves.**
All other tokens of it are operators, brackets and marks. -/
theorem Conditional.leaves {tokens : List Token} {tree : SyntaxTree} :
    Conditional table tokens tree → atoms tokens = tree.leaves.map .ok
  | .binary h => h.leaves
  | .branches htest hquestion hconsequent hcolon halternate => by
    rw [atoms_append, atoms_cons hquestion (by decide), atoms_append,
      atoms_cons hcolon (by decide), htest.leaves, hconsequent.leaves, halternate.leaves,
      SyntaxTree.leaves, List.map_append, List.map_append, List.append_assoc]

/-- An operator between operands is no leaf. -/
theorem Binary.leaves {root : Option Nat} {tokens : List Token} {tree : SyntaxTree} :
    Binary table root tokens tree → atoms tokens = tree.leaves.map .ok
  | .operand h => h.leaves
  | .operator hleft hkind _ hright _ _ => by
    rw [atoms_append, atoms_cons hkind (by decide), hleft.leaves, hright.leaves,
      leaves_joinBinary, List.map_append]

/-- Nor is one before its operand. -/
theorem Unary.leaves {tokens : List Token} {tree : SyntaxTree} :
    Unary table tokens tree → atoms tokens = tree.leaves.map .ok
  | .operator hkind _ h => by
    rw [atoms_cons hkind (by decide), h.leaves, SyntaxTree.leaves]
  | .operand h => h.leaves

/-- The name behind a dot is a leaf; dots and brackets are none. -/
theorem Postfix.leaves {tokens : List Token} {tree : SyntaxTree} :
    Postfix table tokens tree → atoms tokens = tree.leaves.map .ok
  | .primary h => h.leaves
  | .member h hdot hname => by
    rw [atoms_append, atoms_cons hdot (by decide), atoms_cons_atom (.identifier hname), atoms_nil,
      h.leaves, SyntaxTree.leaves, SyntaxTree.leaves, List.map_append]
    rfl
  | .index h hbracket hkey hclosing => by
    rw [atoms_append, atoms_cons hbracket (by decide), atoms_append,
      atoms_cons hclosing (by decide), atoms_nil, List.append_nil, h.leaves, hkey.leaves,
      SyntaxTree.leaves, List.map_append]
  | .call h hparen harguments hclosing => by
    rw [atoms_append, atoms_cons hparen (by decide), atoms_append,
      atoms_cons hclosing (by decide), atoms_nil, List.append_nil, h.leaves, harguments.leaves,
      SyntaxTree.leaves, List.map_append]

theorem Primary.leaves {tokens : List Token} {tree : SyntaxTree} :
    Primary table tokens tree → atoms tokens = tree.leaves.map .ok
  | .atom h => by
    rw [atoms_cons_atom h, atoms_nil, leaves_of_atom h]
    rfl
  | .parentheses hparen h hclosing => by
    rw [atoms_cons hparen (by decide), atoms_append, atoms_cons hclosing (by decide), atoms_nil,
      List.append_nil, h.leaves]
  | .array hbracket h hclosing => by
    rw [atoms_cons hbracket (by decide), atoms_append, atoms_cons hclosing (by decide), atoms_nil,
      List.append_nil, h.leaves, SyntaxTree.leaves]

/-- Commas are no leaves either. -/
theorem Listed.leaves {tokens : List Token} {items : List SyntaxTree} :
    Listed table tokens items → atoms tokens = (leavesAll items).map .ok
  | .nil => by
    rw [leavesAll]
    rfl
  | .items h => h.leaves

theorem Items.leaves {tokens : List Token} {items : List SyntaxTree} :
    Items table tokens items → atoms tokens = (leavesAll items).map .ok
  | .last h => by
    rw [h.leaves, leavesAll, leavesAll, List.append_nil]
  | .more h hcomma hitems => by
    rw [atoms_append, atoms_cons hcomma (by decide), h.leaves, hitems.leaves, leavesAll,
      List.map_append]

end

/-- Nor are the marks between expressions side by side. -/
theorem SideBySide.leaves {tokens : List Token} {items : List SyntaxTree}
    (h : SideBySide table tokens items) : atoms tokens = (leavesAll items).map .ok := by
  induction h with
  | nil => rw [leavesAll]; rfl
  | separator ht _ ih => rcases ht with ht | ht <;> rw [atoms_cons ht (by decide), ih]
  | item hitem _ _ ih => rw [atoms_append, hitem.leaves, ih, leavesAll, List.map_append]

end Phrase

namespace SyntaxTree

variable {table : OperatorTable} {source : List Char} {tree : SyntaxTree}

/-- **The leaves of a tree are the tokens of its source that are trees by themselves.** -/
theorem leaves_of_parse (h : parse table source = .ok tree) :
    ∃ tokens, Token.tokenize table source = .ok tokens ∧ atoms tokens = tree.leaves.map .ok := by
  obtain ⟨tokens, items, htokens, hitems, rfl⟩ := parse_eq_ok.1 h
  obtain ⟨before, stop, rfl⟩ := Token.exists_eof_of_tokensFrom htokens
  rw [List.dropLast_concat] at hitems
  have hphrase := Grammar.sideBySide_of_expressions hitems
  have hstop : (Token.eof stop).kind = .eof := rfl
  refine ⟨_, htokens, ?_⟩
  rw [atoms_append, atoms_cons hstop (by decide), atoms_nil, List.append_nil, hphrase.leaves,
    leaves_ofItems]

/-- Every leaf of a tree has a token. -/
theorem exists_atom_of_mem_leaves {tokens : List Token} (h : atoms tokens = tree.leaves.map .ok)
    {leaf : SyntaxTree} (hleaf : leaf ∈ tree.leaves) : ∃ t ∈ tokens, Phrase.Atom t leaf := by
  have hmem : .ok leaf ∈ atoms tokens := h ▸ List.mem_map_of_mem hleaf
  obtain ⟨t, ht, hatom⟩ := List.mem_filterMap.1 hmem
  exact ⟨t, ht, Grammar.leaf?_eq_some.1 hatom⟩

end SyntaxTree

end FeatureStyle
