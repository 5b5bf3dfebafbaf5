import FeatureStyle.Proofs.Expr.Origin
import FeatureStyle.Proofs.Numeric.Sign
import FeatureStyle.Proofs.Token.Span
import FeatureStyle.Proofs.Tree.Leaf

/-!
# How sources spell properties and numbers

What is consulted of a tree has only leaves of that tree, and those are tokens of the source. So
**every property in the expression of a source is spelled out in the prepared source** as a word,
the mark before the name of the property (`exists_spelling`).

Numbers are spelled without a sign, and **no number in the expression of a source is negative**
(`isNegative_of_within`).
-/

namespace FeatureStyle

namespace SyntaxTree

theorem leaves_subset_of_mem_consulted {s t : SyntaxTree} (h : s ∈ t.consulted) :
    s.leaves ⊆ t.leaves := by
  revert h
  fun_cases consulted t with
  | case1 operator operand =>
    intro h
    rw [List.mem_singleton.1 h, leaves]
    exact List.Subset.refl _
  | case2 operator left right | case3 operator left right =>
    simp only [List.mem_cons, List.not_mem_nil, or_false]
    rintro (rfl | rfl) <;> simp [leaves]
  | case4 test consequent alternate =>
    simp only [List.mem_cons, List.not_mem_nil, or_false]
    rintro (rfl | rfl | rfl) <;> simp [leaves]
  | case5 object key computed =>
    rw [List.mem_append, leaves]
    rintro (h | h)
    · split at h
      · cases h
      · obtain rfl := List.mem_singleton.1 h
        exact List.subset_append_left _ _
    · split at h
      · obtain rfl := List.mem_singleton.1 h
        exact List.subset_append_right _ _
      · cases h
  | case6 items =>
    intro h
    rw [leaves]
    exact leaves_subset_leavesAll h
  | case7 object key args m =>
    intro h
    rw [leaves, leaves]
    rcases Method.mem_of_mem_operands h with rfl | h
    · exact List.Subset.trans (List.subset_append_left _ _) (List.subset_append_left _ _)
    · exact List.Subset.trans (leaves_subset_leavesAll h) (List.subset_append_right _ _)
  | case9 name args rule =>
    intro h
    rw [leaves]
    exact List.Subset.trans (leaves_subset_leavesAll (List.mem_of_mem_take h))
      (List.subset_append_right _ _)
  | _ =>
    intro h
    cases h

/-- What is consulted has only leaves of the tree. -/
theorem Consulted.leaves_subset {s t : SyntaxTree} (h : Consulted s t) : s.leaves ⊆ t.leaves := by
  induction h with
  | refl => exact List.Subset.refl _
  | step hr _ ih => exact List.Subset.trans ih (leaves_subset_of_mem_consulted hr)

end SyntaxTree

namespace Expr

variable {source : String} {e : Expr}

theorem ofSource_eq_ok :
    ofSource source = .ok e ↔
      ∃ prepared tree,
        Source.expandPlaceholders (Source.hideBackslashes source.toList) = .ok prepared ∧
        SyntaxTree.parse operators prepared = .ok tree ∧ ofTree tree = .ok e := by
  unfold ofSource
  split
  · next h => simp [h]
  · next prepared h =>
    split
    · next hparse => simp [h, hparse]
    · next tree hparse => simp [h, hparse]

/-- Every part of an expression but a name is built from a consulted tree, and leaves of that tree
are tokens of the source. -/
theorem exists_origin (h : ofSource source = .ok e) {s : Expr} (hs : Within s e)
    (hstring : ∀ name, s ≠ .string name) :
    ∃ prepared tokens r,
      Source.expandPlaceholders (Source.hideBackslashes source.toList) = .ok prepared ∧
      Token.tokenize operators prepared = .ok tokens ∧
      (∀ leaf ∈ r.leaves, ∃ t ∈ tokens, Phrase.Atom t leaf) ∧ ofTree r = .ok s := by
  obtain ⟨prepared, tree, hprepared, hparse, htree⟩ := ofSource_eq_ok.1 h
  obtain ⟨tokens, htokens, hatoms⟩ := SyntaxTree.leaves_of_parse hparse
  rcases hs.origin htree with ⟨r, hr, hbuilt⟩ | ⟨_, name, -, rfl⟩
  · refine ⟨prepared, tokens, r, hprepared, htokens, fun leaf hleaf ↦ ?_, hbuilt⟩
    exact SyntaxTree.exists_atom_of_mem_leaves hatoms (hr.leaves_subset hleaf)
  · exact absurd rfl (hstring name)

/-! ### Properties -/

/-- No operator of expressions has a part of a word in it. -/
theorem not_isIdentifierPart_operators :
    ∀ symbol ∈ operators.symbols, ∀ c ∈ symbol, ¬ Token.isIdentifierPart c := by
  decide

/-- **Every property in the expression of a source is spelled out in the prepared source**, as a
word that is the mark before the name. -/
theorem exists_spelling (h : ofSource source = .ok e) {name : String}
    (hname : Within (.property name) e) :
    ∃ before after,
      Source.expandPlaceholders (Source.hideBackslashes source.toList) =
        .ok (before ++ (Source.mark ++ name.toList ++ after)) ∧
      Token.Apart before ∧ (∀ c ∈ name.toList, Token.isIdentifierPart c) ∧
      ∀ c ∈ after.head?, ¬ Token.isIdentifierPart c := by
  obtain ⟨prepared, tokens, r, hprepared, htokens, hleaves, hbuilt⟩ := exists_origin h hname nofun
  obtain ⟨word, rfl, hvariable, hpropertyName⟩ := traced_of_ofTree hbuilt
  obtain ⟨t, ht, hatom⟩ := hleaves (.identifier word) (by rw [SyntaxTree.leaves]; simp)
  cases hatom with
  | identifier hkind =>
  obtain ⟨before, c, front, after, rfl, hscanned, -, -, hapart⟩ :=
    Token.exists_scanned_of_mem not_isIdentifierPart_operators htokens ht (by simp [hkind])
  obtain ⟨rest, hrest⟩ := List.isPrefixOf_iff_prefix.1 hvariable
  have hname : name.toList = rest := by
    rw [hpropertyName, Source.propertyName, if_pos hvariable, String.toList_ofList, ← hrest,
      List.drop_left]
  rw [hkind] at hscanned
  obtain ⟨hlexeme, hstart, hparts, hafter⟩ := hscanned.of_identifier
  rw [← hlexeme, ← hrest, ← hname] at hprepared hparts
  exact ⟨before, after, hprepared, hapart (hstart c rfl),
    fun d hd ↦ hparts d (List.mem_append_right _ hd), hafter⟩

/-! ### Numbers -/

theorem isNegative_of_mem_namedNumbers :
    ∀ x ∈ namedNumbers, Numeric.isNegative x.toModel.unpack = false := by
  decide +kernel

/-- **No number in the expression of a source is negative.** -/
theorem isNegative_of_within (h : ofSource source = .ok e) {x : Float}
    (hx : Within (.number x) e) : Numeric.isNegative x.toModel.unpack = false := by
  obtain ⟨_, tokens, r, -, htokens, hleaves, hbuilt⟩ := exists_origin h hx nofun
  rcases traced_of_ofTree hbuilt with rfl | hnamed
  · obtain ⟨t, ht, hatom⟩ := hleaves (.literal (.number x)) (by rw [SyntaxTree.leaves]; simp)
    cases hatom with
    | @number negative d hkind hd =>
    obtain ⟨before, c, front, after, -, hscanned, -⟩ :=
      Token.exists_scanned_of_mem not_isIdentifierPart_operators htokens ht (by simp [hkind])
    rw [hkind] at hscanned
    obtain ⟨hlexeme, hstart⟩ := hscanned.of_number
    have hminus : t.lexeme.toList.head? ≠ some '-' := by
      rw [hlexeme]
      rintro ⟨⟩
      exact absurd (hstart '-' rfl) (by decide)
    rw [Numeric.negative_of_read? hd hminus]
    exact Numeric.isNegative_toFloat d
  · exact isNegative_of_mem_namedNumbers x hnamed

/-- Every colour in the expression of a source has as many arguments as its function takes. -/
theorem admits_of_within (h : ofSource source = .ok e) {fn : ColorFn} {args : List Expr}
    (hcolor : Within (.color fn args) e) : (colorArity fn).admits args.length := by
  obtain ⟨_, _, _, -, -, -, hbuilt⟩ := exists_origin h hcolor nofun
  exact traced_of_ofTree hbuilt

end Expr

end FeatureStyle
