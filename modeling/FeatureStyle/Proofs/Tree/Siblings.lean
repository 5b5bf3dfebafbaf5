import FeatureStyle.Proofs.Token.Mark
import FeatureStyle.Proofs.Tree.Transport
import Mathlib.Data.List.Forall2

/-!
# Expressions next to each other

The levels of nesting that an expression needs are its own. What is read as the only element of an
array is read in the same way among any number of others, and what is read as a source of one
expression is read in the same way among others (`parse_siblings`): the levels that one expression
has used up are all there again for the next one, whatever it is made of.

Two things are behind it. The marks between the texts cut them apart, so that each of them is read
as the tokens that it is read as by itself. And a run at one depth is a run at this depth on other
tokens of the same kinds and lexemes, and with a mark behind it.
-/

namespace FeatureStyle.SyntaxTree

open Phrase
open Token (reading ReadsAs IsMark)

variable {table : OperatorTable} {g : Grammar} {depth stop : Nat} {tokens rest : List Token}
  {tree : SyntaxTree} {items : List SyntaxTree}

namespace Grammar

/-! ### The only element of an array -/

mutual

/-- What is read behind a left operand is the operand, or an operator is put on top of it. -/
theorem BinaryRestRun.eq_or_joinBinary {depth least : Nat} {left tree : SyntaxTree}
    {tokens rest : List Token} : BinaryRestRun g depth least left tokens tree rest →
      tree = left ∧ tokens = rest ∨ ∃ symbol a b, tree = joinBinary symbol a b
  | .stop _ => .inl ⟨rfl, rfl⟩
  | .operator _ _ _ _ _ restRun => by
    rcases restRun.eq_or_joinBinary with ⟨rfl, -⟩ | hjoin
    · exact .inr ⟨_, _, _, rfl⟩
    · exact .inr hjoin

/-- What is read behind an object is the object, or a member or a call of it. -/
theorem PostfixRestRun.eq_or_member_or_call {depth : Nat} {object tree : SyntaxTree}
    {tokens rest : List Token} : PostfixRestRun g depth object tokens tree rest →
      tree = object ∧ tokens = rest ∨ (∃ o key computed, tree = .member o key computed) ∨
        ∃ callee arguments, tree = .call callee arguments
  | .stop _ _ _ => .inl ⟨rfl, rfl⟩
  | .member _ _ _ restRun | .index _ _ _ _ restRun => by
    rcases restRun.eq_or_member_or_call with ⟨rfl, -⟩ | hchain
    · exact .inr (.inl ⟨_, _, _, rfl⟩)
    · exact .inr hchain
  | .call _ _ _ restRun => by
    rcases restRun.eq_or_member_or_call with ⟨rfl, -⟩ | hchain
    · exact .inr (.inr ⟨_, _, rfl⟩)
    · exact .inr hchain

end

/-- An array is read as a primary expression, with nothing around it. -/
theorem ConditionalRun.primary_of_array
    (h : ConditionalRun g depth tokens (.array items) rest) :
    depth < nestingLimit ∧ PrimaryRun g (depth + 1) tokens (.array items) rest := by
  generalize htree : SyntaxTree.array items = tree at h
  cases h with
  | branches => cases htree
  | test level testRun _ =>
    obtain ⟨leftRun, restRun⟩ := testRun
    rcases restRun.eq_or_joinBinary with ⟨rfl, rfl⟩ | ⟨symbol, a, b, rfl⟩
    · cases leftRun with
      | operator => cases htree
      | operand _ objectRun restRun =>
        rcases restRun.eq_or_member_or_call with ⟨rfl, rfl⟩ | ⟨_, _, _, rfl⟩ | ⟨_, _, rfl⟩
        · exact ⟨level, objectRun⟩
        · cases htree
        · cases htree
    · rw [joinBinary] at htree
      split at htree <;> cases htree

theorem ItemsRun.ne_nil {close : TokenKind} (h : ItemsRun g depth close tokens items rest) :
    items ≠ [] := by
  cases h <;> exact List.cons_ne_nil _ _

/-- The only element of an array is read up to the closing bracket, a level further down than the
array. -/
theorem ConditionalRun.only_element {bracket : Token} (hbracket : bracket.kind = .lbracket)
    (h : ConditionalRun g depth (bracket :: tokens) (.array [tree]) rest) :
    ∃ closing, closing.kind = .rbracket ∧
      ConditionalRun g (depth + 1) tokens tree (closing :: rest) := by
  obtain ⟨-, hprimary⟩ := h.primary_of_array
  cases hprimary with
  | leaf hleaf => simp [leaf?, hbracket] at hleaf
  | parentheses hparen => cases hbracket.symm.trans hparen
  | array _ itemsRun =>
    generalize hitems : [tree] = items at itemsRun
    cases itemsRun with
    | nil => cases hitems
    | items _ itemsRun =>
      cases itemsRun with
      | last itemRun _ hclosing =>
        cases hitems
        exact ⟨_, hclosing, itemRun⟩
      | more _ _ itemsRun =>
        obtain rfl := (List.cons.inj hitems).2
        exact absurd rfl itemsRun.ne_nil

/-! ### Sources of a single array -/

/-- Where no expression is read, there are only separators. -/
theorem forall_separator_of_expressions (h : g.expressions tokens = .ok []) :
    ∀ t ∈ tokens, t.kind = .comma ∨ t.kind = .semicolon := by
  induction tokens with
  | nil => exact nofun
  | cons t tokens ih =>
    rw [expressions_cons] at h
    split at h
    · next ht => exact List.forall_mem_cons.2 ⟨ht, ih h⟩
    · obtain ⟨_, -, h⟩ := bind_eq_ok.1 h
      obtain ⟨_, -, h⟩ := bind_eq_ok.1 h
      cases h

/-- A source of one expression that does not begin with a separator is read as it without anything
left, unless it ends with a separator. -/
theorem conditionalRun_of_expressions {t closing : Token}
    (h : g.expressions (t :: (tokens ++ [closing])) = .ok [tree])
    (ht : t.kind ≠ .comma ∧ t.kind ≠ .semicolon)
    (hclosing : closing.kind ≠ .comma ∧ closing.kind ≠ .semicolon) :
    ConditionalRun g 0 (t :: (tokens ++ [closing])) tree [] := by
  rw [expressions_cons, if_neg (not_or.2 ht)] at h
  obtain ⟨⟨_, rest⟩, hfirst, h⟩ := bind_eq_ok.1 h
  obtain ⟨more, hmore, h⟩ := bind_eq_ok.1 h
  cases h
  have hrun := ConditionalRun.of_outcome hfirst
  obtain ⟨used, htokens, -, -⟩ := hrun.phrase
  rcases List.eq_nil_or_concat' rest with rfl | ⟨rest, last, rfl⟩
  · exact hrun
  · -- The last token left would be the last one of the source, and a separator.
    rw [← List.append_assoc, ← List.cons_append] at htokens
    obtain ⟨-, hlast⟩ := List.append_inj' htokens rfl
    obtain rfl := List.singleton_inj.1 hlast
    rcases forall_separator_of_expressions hmore closing (by simp) with hkind | hkind
    · exact absurd hkind hclosing.1
    · exact absurd hkind hclosing.2

end Grammar

open Grammar

/-! ### Texts of expressions -/

/-- The readings are those of an expression at the depth, whatever tokens have them and whatever
comes behind that does not go on with it. -/
def ReadsItem (table : OperatorTable) (depth : Nat) (readings : List (TokenKind × String))
    (tree : SyntaxTree) : Prop :=
  ∀ stop tokens rest, tokens.map reading = readings → Ends table rest →
    ConditionalRun ⟨table, stop⟩ depth (tokens ++ rest) tree rest

/-- The readings are those of the expressions of a source, in front of any others. -/
def ReadsSource (table : OperatorTable) (readings : List (TokenKind × String))
    (items : List SyntaxTree) : Prop :=
  ∀ stop tokens rest, tokens.map reading = readings → Ends table rest →
    expressions ⟨table, stop⟩ (tokens ++ rest) =
      (expressions ⟨table, stop⟩ rest).map (items ++ ·)

variable {text : List Char} {readings rs : List (TokenKind × String)} {es : List (List Char)}
  {trees : List SyntaxTree}

/-- Tokens before and behind a mark. -/
theorem exists_mark_of_map_reading {kind : TokenKind} {lexeme : String}
    (h : tokens.map reading = readings ++ (kind, lexeme) :: rs) :
    ∃ used mark rest, tokens = used ++ mark :: rest ∧ used.map reading = readings ∧
      mark.kind = kind ∧ rest.map reading = rs := by
  obtain ⟨used, tail, rfl, hused, htail⟩ := List.map_eq_append_iff.1 h
  obtain ⟨mark, rest, rfl, hmark, hrest⟩ := List.map_eq_cons_iff.1 htail
  exact ⟨used, mark, rest, rfl, hused, (Prod.mk.inj hmark).1, hrest⟩

theorem parse_of_readsAs (h : ReadsAs table text readings)
    (hitems : ∀ stop tokens, tokens.map reading = readings →
      expressions ⟨table, stop⟩ tokens = .ok items) : parse table text = .ok (ofItems items) := by
  obtain ⟨tokens, htokens, hreadings⟩ := Token.readsAs_iff_tokenize.1 h
  exact parse_eq_ok.2 ⟨tokens, items, htokens, hitems _ _ hreadings, rfl⟩

theorem eq_singleton_of_ofItems (h : tree = ofItems items) (hne : ∀ items, tree ≠ .compound items) :
    items = [tree] := by
  unfold ofItems at h
  split at h
  · rw [h]
  · exact absurd h (hne items)

/-! ### Elements of arrays -/

/-- The text between the brackets of an array of one element. -/
theorem exists_readsItem (hopen : IsMark table '[' .lbracket) (hclose : IsMark table ']' .rbracket)
    (h : parse table ('[' :: (text ++ [']'])) = .ok (.array [tree])) :
    ∃ readings, ReadsAs table text readings ∧ ReadsItem table 1 readings tree := by
  obtain ⟨tokens, items, htokens, hitems, hof⟩ := parse_eq_ok.1 h
  obtain rfl := eq_singleton_of_ofItems hof nofun
  obtain ⟨rs, hrs, hreadings⟩ :=
    (Token.readsAs_cons_mark_iff hopen).1 (Token.readsAs_iff_tokenize.2 ⟨tokens, htokens, rfl⟩)
  obtain ⟨readings, hreads, rfl⟩ := hrs.of_concat hclose
  refine ⟨readings, hreads, fun stop used' rest' hused' hrest' ↦ ?_⟩
  -- The tokens are an opening bracket, those of the text, and a closing bracket.
  rw [← List.nil_append (_ :: _)] at hreadings
  obtain ⟨front, bracket, inner, htokens, hfront, hbracket, hinner⟩ :=
    exists_mark_of_map_reading hreadings
  obtain rfl := List.map_eq_nil_iff.1 hfront
  obtain ⟨used, closing, last, rfl, hused, hclosing, hlast⟩ := exists_mark_of_map_reading hinner
  obtain rfl := List.map_eq_nil_iff.1 hlast
  rw [htokens, List.nil_append] at hitems
  have hrun := conditionalRun_of_expressions hitems (by simp [hbracket]) (by simp [hclosing])
  obtain ⟨closing', -, hitem⟩ := hrun.only_element hbracket
  have hlocal : Local table (used ++ [closing]) [closing']
      (ConditionalRun ⟨table, stop⟩ 1 · tree ·) := hitem.transport
  obtain ⟨before, hbefore, htransport⟩ := hlocal
  obtain ⟨rfl, -⟩ := List.append_inj' hbefore rfl
  exact htransport used' rest' (hused'.trans hused.symm) (.of_ends hrest')

/-- Texts of elements with commas between them, up to the closing bracket. -/
theorem exists_itemsRun (hcomma : IsMark table ',' .comma) (hclose : IsMark table ']' .rbracket)
    (h : List.Forall₂ (fun e tree ↦ ∃ readings, ReadsAs table e readings ∧
      ReadsItem table depth readings tree) es trees) (hne : es ≠ []) :
    ∃ readings, ReadsAs table (List.intercalate [','] es ++ [']']) readings ∧
      ∀ stop tokens, tokens.map reading = readings →
        ItemsRun ⟨table, stop⟩ depth .rbracket tokens trees [] := by
  induction h with
  | nil => exact absurd rfl hne
  | cons hfirst hmore ih =>
    obtain ⟨readings, hreads, hitem⟩ := hfirst
    cases hmore with
    | nil =>
      rw [List.intercalate_singleton]
      refine ⟨_, hreads.append_mark Token.readsAs_nil hclose, fun stop tokens htokens ↦ ?_⟩
      obtain ⟨used, closing, last, rfl, hused, hclosing, hlast⟩ :=
        exists_mark_of_map_reading htokens
      obtain rfl := List.map_eq_nil_iff.1 hlast
      exact .last (hitem stop used [closing] hused (ends_cons hclosing (by decide) _))
        (by simp [hclosing]) hclosing
    | cons =>
      obtain ⟨rs, hrs, hrun⟩ := ih (List.cons_ne_nil _ _)
      rw [List.intercalate_cons_cons, List.append_assoc, List.append_assoc]
      refine ⟨_, hreads.append_mark hrs hcomma, fun stop tokens htokens ↦ ?_⟩
      obtain ⟨used, comma, rest, rfl, hused, hkind, hrest⟩ := exists_mark_of_map_reading htokens
      exact .more (hitem stop used (comma :: rest) hused (ends_cons hkind (by decide) _)) hkind
        (hrun stop rest hrest)

/-- The same with any number of elements. -/
theorem exists_listRun (hcomma : IsMark table ',' .comma) (hclose : IsMark table ']' .rbracket)
    (h : List.Forall₂ (fun e tree ↦ ∃ readings, ReadsAs table e readings ∧
      ReadsItem table depth readings tree) es trees) :
    ∃ readings, ReadsAs table (List.intercalate [','] es ++ [']']) readings ∧
      ∀ stop tokens, tokens.map reading = readings →
        ListRun ⟨table, stop⟩ depth .rbracket tokens trees [] := by
  rcases h with - | ⟨hfirst, hmore⟩
  · refine ⟨_, (Token.readsAs_cons_mark_iff hclose).2 ⟨[], Token.readsAs_nil, rfl⟩,
      fun stop tokens htokens ↦ ?_⟩
    obtain ⟨closing, _, rfl, hclosing, hnil⟩ := List.map_eq_cons_iff.1 htokens
    obtain rfl := List.map_eq_nil_iff.1 hnil
    exact .nil (Prod.mk.inj hclosing).1
  · obtain ⟨readings, hreads, hrun⟩ :=
      exists_itemsRun hcomma hclose (.cons hfirst hmore) (List.cons_ne_nil _ _)
    refine ⟨readings, hreads, fun stop tokens htokens ↦ ?_⟩
    have itemsRun := hrun stop tokens htokens
    obtain ⟨used, closing, rfl, hphrase, -⟩ := itemsRun.phrase
    obtain ⟨t, tail, rfl, -, hbracket, -⟩ := hphrase.exists_cons
    exact .items (front?_cons_of_ne hbracket) itemsRun

/-- An array is read at the outermost level, with nothing in front of it or behind it. -/
theorem expressions_array {bracket : Token} (hbracket : bracket.kind = .lbracket)
    (h : ListRun g 1 .rbracket tokens items []) :
    g.expressions (bracket :: tokens) = .ok [.array items] := by
  have unaryRun : UnaryRun g 1 (bracket :: tokens) (.array items) [] :=
    .operand (frontUnary?_cons_of_ne (by simp [hbracket]) tokens) (.array hbracket h)
      (.stop rfl rfl rfl)
  refine expressions_of_run (.test (by decide) (.mk unaryRun (.stop rfl)) rfl) ?_
  rintro _ ⟨⟩
  simp [hbracket]

/-! ### Expressions of sources -/

/-- A source of one expression. -/
theorem exists_readsSource (h : parse table text = .ok tree)
    (hne : ∀ items, tree ≠ .compound items) :
    ∃ readings, ReadsAs table text readings ∧ ReadsSource table readings [tree] := by
  obtain ⟨tokens, items, htokens, hitems, hof⟩ := parse_eq_ok.1 h
  obtain rfl := eq_singleton_of_ofItems hof hne
  refine ⟨_, Token.readsAs_iff_tokenize.2 ⟨tokens, htokens, rfl⟩,
    fun stop used' rest' hused' hrest' ↦ ?_⟩
  have hlocal : Local table tokens.dropLast [] fun tokens' rest' ↦
      expressions ⟨table, stop⟩ tokens' = (expressions ⟨table, stop⟩ rest').map ([tree] ++ ·) :=
    expressions_transport hitems
  obtain ⟨used, hused, htransport⟩ := hlocal
  rw [List.append_nil] at hused
  exact htransport used' rest' (hused ▸ hused') (.of_ends hrest')

/-- Texts of sources with semicolons between them. -/
theorem exists_expressions (hsemicolon : IsMark table ';' .semicolon)
    (h : List.Forall₂ (fun e tree ↦ ∃ readings, ReadsAs table e readings ∧
      ReadsSource table readings [tree]) es trees) :
    ∃ readings, ReadsAs table (List.intercalate [';'] es) readings ∧
      ∀ stop tokens, tokens.map reading = readings →
        expressions ⟨table, stop⟩ tokens = .ok trees := by
  induction h with
  | nil =>
    refine ⟨[], Token.readsAs_nil, fun stop tokens htokens ↦ ?_⟩
    obtain rfl := List.map_eq_nil_iff.1 htokens
    exact expressions_nil _
  | cons hfirst hmore ih =>
    obtain ⟨readings, hreads, hsource⟩ := hfirst
    cases hmore with
    | nil =>
      rw [List.intercalate_singleton]
      refine ⟨readings, hreads, fun stop tokens htokens ↦ ?_⟩
      have hitem := hsource stop tokens [] htokens nofun
      rwa [List.append_nil, expressions_nil] at hitem
    | cons =>
      obtain ⟨rs, hrs, hitems⟩ := ih
      rw [List.intercalate_cons_cons, List.append_assoc]
      refine ⟨_, hreads.append_mark hrs hsemicolon, fun stop tokens htokens ↦ ?_⟩
      obtain ⟨used, semicolon, rest, rfl, hused, hkind, hrest⟩ :=
        exists_mark_of_map_reading htokens
      rw [hsource stop used _ hused (ends_cons hkind (by decide) _), expressions_cons,
        if_pos (.inr hkind), hitems stop rest hrest]
      rfl

/-! ### Siblings -/

theorem isMark_default : IsMark .default '[' .lbracket ∧ IsMark .default ']' .rbracket ∧
    IsMark .default ',' .comma ∧ IsMark .default ';' .semicolon := by
  refine ⟨⟨rfl, ?_⟩, ⟨rfl, ?_⟩, ⟨rfl, ?_⟩, rfl, ?_⟩ <;> exact ⟨by decide, by decide, by decide⟩

/-- **Siblings do not use up each other's levels of nesting.**

* If each of some texts is read between brackets as an array of one tree, then all of them with
  commas between them are read between brackets as the array of these trees.
* If each of some texts is read by itself as one tree, then all of them with semicolons between them
  are read as these trees side by side. -/
theorem parse_siblings (es : List (List Char)) (trees : List SyntaxTree) :
    (List.Forall₂ (fun e tree ↦ parse .default ('[' :: (e ++ [']'])) = .ok (.array [tree]))
        es trees →
      parse .default ('[' :: (List.intercalate [','] es ++ [']'])) = .ok (.array trees)) ∧
    (List.Forall₂ (fun e tree ↦ parse .default e = .ok tree ∧ ∀ items, tree ≠ .compound items)
        es trees →
      parse .default (List.intercalate [';'] es) = .ok (ofItems trees)) := by
  obtain ⟨hopen, hclose, hcomma, hsemicolon⟩ := isMark_default
  constructor
  · intro h
    obtain ⟨readings, hreads, hrun⟩ := exists_listRun hcomma hclose
      (h.imp fun e tree hparse ↦ exists_readsItem hopen hclose hparse)
    have hread := (Token.readsAs_cons_mark_iff hopen).2 ⟨readings, hreads, rfl⟩
    have hitems (stop : Nat) (tokens : List Token)
        (htokens : tokens.map reading = (.lbracket, String.ofList ['[']) :: readings) :
        expressions ⟨.default, stop⟩ tokens = .ok [.array trees] := by
      obtain ⟨bracket, inner, rfl, hbracket, hinner⟩ := List.map_eq_cons_iff.1 htokens
      exact expressions_array (Prod.mk.inj hbracket).1 (hrun stop inner hinner)
    exact parse_of_readsAs hread hitems
  · intro h
    obtain ⟨readings, hreads, hitems⟩ := exists_expressions hsemicolon
      (h.imp fun e tree hparse ↦ exists_readsSource hparse.1 hparse.2)
    exact parse_of_readsAs hreads hitems

/-- A conditional expression, and an operator in front of a member of a call. -/
theorem parse_siblings_chains :
    let es := ["a?b:c".toList, "!f(d).e".toList]
    let trees : List SyntaxTree :=
      [.conditional (.identifier "a") (.identifier "b") (.identifier "c"),
        .unary "!" (.member (.call (.identifier "f") [.identifier "d"]) (.identifier "e") false)]
    List.Forall₂ (fun e tree ↦ parse .default ('[' :: (e ++ [']'])) = .ok (.array [tree]))
        es trees ∧
      parse .default "[a?b:c,!f(d).e]".toList = .ok (.array trees) ∧
      List.Forall₂ (fun e tree ↦ parse .default e = .ok tree ∧ ∀ items, tree ≠ .compound items)
        es trees ∧
      parse .default "a?b:c;!f(d).e".toList = .ok (.compound trees) := by
  intro es trees
  have helements : List.Forall₂
      (fun e tree ↦ parse .default ('[' :: (e ++ [']'])) = .ok (.array [tree])) es trees :=
    .cons (by with_unfolding_all rfl) (.cons (by with_unfolding_all rfl) .nil)
  have hsources : List.Forall₂
      (fun e tree ↦ parse .default e = .ok tree ∧ ∀ items, tree ≠ .compound items) es trees :=
    .cons ⟨by with_unfolding_all rfl, nofun⟩ (.cons ⟨by with_unfolding_all rfl, nofun⟩ .nil)
  obtain ⟨harray, hcompound⟩ := parse_siblings es trees
  exact ⟨helements, harray helements, hsources, hcompound hsources⟩

end FeatureStyle.SyntaxTree
