import FeatureStyle.Proofs.Expr.Spelling
import FeatureStyle.Proofs.Source.Backslash
import FeatureStyle.Proofs.Tree.Member
import Mathlib.Data.List.Infix

/-!
# Texts in quotes

A source that is a text between two equal quotes, which are not in the text, always compiles, and
what it compiles to has no escapes in it (`ofSource_quotation`): hidden backslashes pass the reader
of strings unnoticed and come back when the literal is built, and a placeholder within quotes is
left to the evaluation. Only the sentinel does not come through, since it cannot be told from a
hidden backslash. So **a quoted text is taken as it stands exactly if it is free of the sentinel**
(`ofSource_quotation_iff`).
-/

namespace FeatureStyle.Expr

open Source

variable {q : Char} {cs : List Char}

/-- What opens a placeholder. -/
def placeholderFront : List Char := ['$', '\x7b']

theorem opensPlaceholder_iff : opensPlaceholder cs ↔ placeholderFront <:+: cs := by
  fun_induction opensPlaceholder cs with
  | case1 cs => exact iff_of_true rfl ⟨[], cs, rfl⟩
  | case2 c cs hc ih =>
    rw [ih, List.infix_cons_iff]
    refine ⟨.inr, fun h ↦ h.resolve_left ?_⟩
    rintro ⟨rest, hrest⟩
    obtain ⟨rfl, rfl⟩ := List.cons.inj hrest
    exact hc rest rfl rfl
  | case3 => simp [placeholderFront]

/-- A placeholder is opened in a text exactly if it is with backslashes hidden. -/
theorem opensPlaceholder_hideBackslashes (cs : List Char) :
    opensPlaceholder (hideBackslashes cs) = opensPlaceholder cs := by
  rw [Bool.eq_iff_iff, opensPlaceholder_iff, opensPlaceholder_iff]
  constructor
  · rintro ⟨front, back, h⟩
    rw [List.append_assoc] at h
    obtain ⟨front', back', rfl, -, -⟩ :=
      exists_of_hideBackslashes_eq_append (List.cons_ne_nil _ _) (by decide) h.symm
    exact ⟨front', back', List.append_assoc ..⟩
  · rintro ⟨front, back, rfl⟩
    rw [hideBackslashes_append, hideBackslashes_append]
    exact ⟨hideBackslashes front, hideBackslashes back, rfl⟩

/-- The expression of a text: a template if a placeholder is opened in it, or else a string. -/
def ofText (s : String) : Expr :=
  if placeholderFront <:+: s.toList then .template s else .string s

/-- The source that has a text between quotes. -/
def quotation (q : Char) (s : String) : String :=
  String.singleton q ++ s ++ String.singleton q

theorem toList_quotation (q : Char) (s : String) :
    (quotation q s).toList = q :: (s.toList ++ [q]) := by
  simp [quotation]

/-- **A quoted text compiles to the text without escapes**, in which every sentinel, whether it was
written or stands for a backslash, is a backslash. -/
theorem ofSource_quotation {s : String} (hq : Source.isQuote q) (hs : q ∉ s.toList) :
    ofSource (quotation q s) =
      .ok (if placeholderFront <:+: s.toList
        then .template (String.ofList (restoreBackslashes s.toList))
        else .string (String.ofList (restoreBackslashes s.toList))) := by
  have hsentinel : q ∉ sentinel := not_mem_sentinel_of_isQuote hq
  have hbackslash : q ≠ '\\' := ne_backslash_of_isQuote hq
  have hbody : q ∉ hideBackslashes s.toList := notMem_hideBackslashes hsentinel hs
  have hhidden : hideBackslashes (quotation q s).toList =
      q :: (hideBackslashes s.toList ++ q :: []) := by
    rw [toList_quotation, hideBackslashes_cons hbackslash, hideBackslashes_append,
      hideBackslashes_cons hbackslash]
    rfl
  have hprepared : expandPlaceholders (hideBackslashes (quotation q s).toList) =
      .ok (q :: (hideBackslashes s.toList ++ [q])) := by
    rw [hhidden]
    exact expandPlaceholders_eq_ok_iff.2
      ⟨_, .quoted hq hbody .nil, (List.flatMap_singleton ..).symm⟩
  have hparse : SyntaxTree.parse operators _ = _ := SyntaxTree.parse_quoted hq hbody
    (backslash_notMem_hideBackslashes s.toList)
  refine ofSource_eq_ok.2 ⟨_, _, hprepared, hparse, ?_⟩
  rw [ofTree, ofLiteral, String.toList_ofList, opensPlaceholder_hideBackslashes,
    restoreBackslashes_hide, if_congr opensPlaceholder_iff rfl rfl]

/-- **Quoted texts are taken as they stand.** A text between two quotes of a kind that is not in it
compiles. It compiles to itself, as a template if a placeholder is opened in it and as a string if
not, exactly if the sentinel is not in it. More generally these are the texts that come back from
hiding their backslashes. -/
theorem ofSource_quotation_iff :
    (∀ q s, Source.isQuote q → q ∉ s.toList →
      (∃ e, ofSource (quotation q s) = .ok e) ∧
        (ofSource (quotation q s) = .ok (ofText s) ↔ ¬ sentinel <:+: s.toList)) ∧
      ∀ cs, restoreBackslashes (hideBackslashes cs) = cs ↔ ¬ sentinel <:+: cs := by
  refine ⟨fun q s hq hs ↦ ⟨⟨_, ofSource_quotation hq hs⟩, ?_⟩,
    fun _ ↦ restoreBackslashes_hide_eq_self_iff⟩
  have hself : String.ofList (restoreBackslashes s.toList) = s ↔ ¬ sentinel <:+: s.toList := by
    rw [← String.toList_inj, String.toList_ofList, restoreBackslashes_eq_self_iff]
  rw [ofSource_quotation hq hs, ofText, ← hself, Except.ok.injEq]
  split
  · rw [template.injEq]
  · rw [string.injEq]

/-- A text with the other quote, backslashes and a placeholder in it, and almost a sentinel. -/
theorem ofSource_quotation_template :
    Source.isQuote '\'' ∧ '\'' ∉ "\"\\n@#\\%$\x7ba\x7d".toList ∧
      ¬ sentinel <:+: "\"\\n@#\\%$\x7ba\x7d".toList ∧
      ofSource (quotation '\'' "\"\\n@#\\%$\x7ba\x7d") =
        .ok (.template "\"\\n@#\\%$\x7ba\x7d") := by
  have hquote : '\'' ∉ "\"\\n@#\\%$\x7ba\x7d".toList := by decide +kernel
  have hsentinel : ¬ sentinel <:+: "\"\\n@#\\%$\x7ba\x7d".toList := by decide +kernel
  have hplaceholder : placeholderFront <:+: "\"\\n@#\\%$\x7ba\x7d".toList := by decide +kernel
  have h := (ofSource_quotation_iff.1 _ _ rfl hquote).2.2 hsentinel
  rw [ofText, if_pos hplaceholder] at h
  exact ⟨rfl, hquote, hsentinel, h⟩

end FeatureStyle.Expr
