import FeatureStyle.Expr.Build
import FeatureStyle.Proofs.Eval.Transparency
import FeatureStyle.Subject.Features

/-!
# Regular expressions of literals

A regular expression whose pattern and flags are literals is compiled while the expression is built.
Left as it is, it would be compiled in every evaluation instead. Both take the text of a literal for
what it says, except that an evaluation takes a pattern or flags that are `undefined` for none at
all, while building takes them for the word.

So building and evaluating agree for literals of every other kind (`folds_iff`). Flags that are
`undefined` never agree: the word is no flags. A pattern that is `undefined` agrees only next to
flags that are refused, because they are looked at before the pattern.
-/

namespace FeatureStyle

/-! ### Compiling -/

namespace Pattern

variable {source flags : String}

/-- Flags that are none are refused, whatever the source is. -/
theorem compile_of_flags_none (h : Regex.Mode.initial.withFlags? flags.toList = none) :
    compile source flags = .error (.invalidFlags flags) := by
  have hmatcher : Regex.Matcher.ofSource source flags = .error (.invalidFlags flags) := by
    unfold Regex.Matcher.ofSource
    rw [h]
  unfold compile
  split
  · next e he => rw [Except.error.inj (he.symm.trans hmatcher)]
  · next m hm => cases hm.symm.trans hmatcher

/-- With flags that are some, what compiling comes to has the source in it. -/
theorem compile_of_flags_some (source : String) {mode : Regex.Mode}
    (h : Regex.Mode.initial.withFlags? flags.toList = some mode) :
    (∃ p, compile source flags = .ok p ∧ p.source = source) ∨
      ∃ fault, compile source flags = .error (.invalidSource source fault) := by
  unfold compile
  split
  · next e he =>
    unfold Regex.Matcher.ofSource at he
    rw [h] at he
    dsimp only at he
    split at he
    · next fault _ => exact .inr ⟨fault, by rw [← Except.error.inj he]⟩
    · cases he
  · exact .inl ⟨_, rfl, rfl⟩

/-- With flags that are some, the source shows in what compiling comes to. -/
theorem source_eq_of_compile_eq {source' : String} {mode : Regex.Mode}
    (h : Regex.Mode.initial.withFlags? flags.toList = some mode)
    (heq : compile source flags = compile source' flags) : source = source' := by
  have hsource := compile_of_flags_some source h
  have hsource' := compile_of_flags_some source' h
  rcases hsource with ⟨p, hp, rfl⟩ | ⟨fault, hfault⟩ <;>
    rcases hsource' with ⟨q, hq, rfl⟩ | ⟨fault', hfault'⟩
  · rw [hp, hq] at heq
    rw [Except.ok.inj heq]
  · cases hp.symm.trans (heq.trans hfault')
  · cases hfault.symm.trans (heq.trans hq)
  · cases hfault.symm.trans (heq.trans hfault')
    rfl

end Pattern

namespace Expr

/-! ### Literals -/

/-- The value of a literal. -/
def literalValue? : Expr → Option Value
  | null => some .null
  | undefined => some .undefined
  | bool b => some (.bool b)
  | number x => some (.number x)
  | string s => some (.string s)
  | _ => none

variable {e : Expr} {v : Value}

theorem literalText?_of_literalValue? (h : e.literalValue? = some v) :
    e.literalText? = some v.text := by
  cases e <;> cases h <;> rfl

theorem eval_of_literalValue? (h : e.literalValue? = some v) : e.eval = pure v := by
  cases e <;> cases h <;> rw [eval]

/-! ### Building and evaluating -/

/-- The regular expression that is built and the one that an evaluation ends with are the same one,
or both are refused with the same error. -/
inductive SameRegex : Built → Except Stop Value → Prop
  | compiled (p : Pattern) : SameRegex (.ok (.regex p)) (.ok (.regExp p))
  | refused (err : PatternError) :
    SameRegex (.error (.invalidRegex err)) (.error (.error (.invalidRegex err)))

/-- What building literals and evaluating them come to is the same exactly if compiling is. -/
theorem sameRegex_iff {source flags : String} {pattern other : Value} :
    SameRegex (literalRegex source flags)
        ((pattern.compileRegex other).mapError Stop.error) ↔
      Pattern.compile source flags = Pattern.compile pattern.regexText other.regexText := by
  unfold literalRegex Value.compileRegex
  rcases Pattern.compile source flags with err | p <;>
    rcases Pattern.compile pattern.regexText other.regexText with err' | q
  · exact ⟨fun | .refused _ => rfl, fun h ↦ Except.error.inj h ▸ .refused err⟩
  · exact ⟨nofun, nofun⟩
  · exact ⟨nofun, nofun⟩
  · exact ⟨fun | .compiled _ => rfl, fun h ↦ Except.ok.inj h ▸ .compiled p⟩

section Call

variable {p : SyntaxTree} {f : Option SyntaxTree} {a : Expr} {b : Option Expr} {v : Value}
  {w : Option Value}

/-- A call with literals is built to what its texts compile to. Flags that are not given are
empty. -/
theorem ofTree_regExp (hp : ofTree p = .ok a) (hf : f.mapM ofTree = .ok b)
    (hv : a.literalValue? = some v) (hw : b.mapM literalValue? = some w) :
    ofTree (.call (.identifier "regExp") (p :: f.toList)) =
      literalRegex v.text (w.elim "" Value.text) := by
  have hcall (args : List SyntaxTree) :
      ofTree (.call (.identifier "regExp") args) = ofRegexArguments (ofTrees args) := by
    rw [ofTree]
    rfl
  have htext := literalText?_of_literalValue? hv
  rw [hcall]
  cases f with
  | none =>
    cases hf
    cases hw
    simp only [ofTrees, Option.toList_none, hp, ofRegexArguments, bind, Except.bind, htext]
    rfl
  | some f =>
    rcases hc : ofTree f with err | c
    · rw [Option.mapM_some, hc] at hf
      cases hf
    rw [Option.mapM_some, hc] at hf
    cases hf
    obtain ⟨u, hu, rfl⟩ := Option.map_eq_some_iff.1 hw
    simp only [ofTrees, Option.toList_some, hp, hc, ofRegexArguments, bind, Except.bind, htext,
      literalText?_of_literalValue? hu]
    rfl

/-- Without being built, the call is evaluated without asking anything. Flags that are not given are
undefined. -/
theorem eval_regExp (hv : a.literalValue? = some v) (hw : b.mapM literalValue? = some w) :
    (Expr.regExp a b).eval = liftM (v.compileRegex (w.getD .undefined)) := by
  cases b with
  | none =>
    cases hw
    rw [eval, eval_of_literalValue? hv]
    rfl
  | some b =>
    obtain ⟨u, hu, rfl⟩ := Option.map_eq_some_iff.1 hw
    simp only [eval, eval_of_literalValue? hv, eval_of_literalValue? hu, pure_bind]
    rfl

/-- The outcome of a call with literals that is not built, for every feature. -/
theorem fst_run_evaluateIn_regExp (hv : a.literalValue? = some v)
    (hw : b.mapM literalValue? = some w) (pool : ScratchPool) (feature : Subject) :
    (((Expr.regExp a b).evaluateIn pool).run feature).1 =
      (v.compileRegex (w.getD .undefined)).mapError Stop.error := by
  rw [fst_run_evaluateIn, eval_regExp hv hw]
  rfl

theorem regexText_of_ne (h : v ≠ .undefined) : v.regexText = v.text := by
  cases v <;> first | rfl | exact absurd rfl h

/-- The two ways to take texts of a pattern and flags compile to the same. -/
theorem compile_text_eq_iff (v : Value) (w : Option Value) :
    Pattern.compile v.text (w.elim "" Value.text) =
        Pattern.compile v.regexText (w.getD .undefined).regexText ↔
      w ≠ some .undefined ∧
        (v = .undefined →
          Regex.Mode.initial.withFlags? (w.elim "" Value.text).toList = none) := by
  by_cases hw : w = some .undefined
  · -- The word is refused as flags, and the empty text is not.
    subst hw
    refine iff_of_false (fun h ↦ ?_) (fun h ↦ h.1 rfl)
    have hword : Regex.Mode.initial.withFlags? "undefined".toList = none := by decide
    have hempty : Regex.Mode.initial.withFlags? "".toList = some .initial := rfl
    have hrefused : Pattern.compile v.text "undefined" = .error (.invalidFlags "undefined") :=
      Pattern.compile_of_flags_none hword
    have h : Pattern.compile v.text "undefined" = Pattern.compile v.regexText "" := h
    rcases Pattern.compile_of_flags_some v.regexText hempty with ⟨p, hp, -⟩ | ⟨fault, hfault⟩
    · cases hrefused.symm.trans (h.trans hp)
    · cases hrefused.symm.trans (h.trans hfault)
  have hflags : (w.getD .undefined).regexText = w.elim "" Value.text := by
    cases w with
    | none => rfl
    | some u => exact regexText_of_ne fun hu ↦ hw (hu ▸ rfl)
  rw [hflags]
  by_cases hv : v ≠ .undefined
  · rw [regexText_of_ne hv]
    exact iff_of_true rfl ⟨hw, fun h ↦ absurd h hv⟩
  obtain rfl : v = .undefined := Classical.not_not.1 hv
  rcases hmode : Regex.Mode.initial.withFlags? (w.elim "" Value.text).toList with - | mode
  · rw [Pattern.compile_of_flags_none hmode, Pattern.compile_of_flags_none hmode]
    exact iff_of_true rfl ⟨hw, fun _ ↦ rfl⟩
  · -- Otherwise the two sources, the word and the empty text, show.
    refine iff_of_false (fun h ↦ ?_) (fun h ↦ nomatch h.2 rfl)
    have hsource : "undefined" ≠ "" := by decide
    exact hsource (Pattern.source_eq_of_compile_eq hmode h)

/-- **Building and evaluating agree.** A call with literals is built to the regular expression, or
refused with the error, that evaluating it as it stands comes to for every feature, exactly if its
flags are not `undefined` and its pattern is not `undefined` either, unless the flags are refused
anyway. -/
theorem folds_iff (hp : ofTree p = .ok a) (hf : f.mapM ofTree = .ok b)
    (hv : a.literalValue? = some v) (hw : b.mapM literalValue? = some w)
    (pool : ScratchPool) (feature : Subject) :
    SameRegex (ofTree (.call (.identifier "regExp") (p :: f.toList)))
        (((Expr.regExp a b).evaluateIn pool).run feature).1 ↔
      w ≠ some .undefined ∧
        (v = .undefined →
          Regex.Mode.initial.withFlags? (w.elim "" Value.text).toList = none) := by
  rw [ofTree_regExp hp hf hv hw, fst_run_evaluateIn_regExp hv hw, sameRegex_iff,
    compile_text_eq_iff]

/-- A text with flags is built to the regular expression that it is evaluated to. -/
theorem folds_iff_string_flags :
    SameRegex
      (ofTree (.call (.identifier "regExp") [.literal (.string "a+"), .literal (.string "gi")]))
      (((Expr.regExp (.string "a+") (some (.string "gi"))).evaluateIn .empty).run
        Feature.empty.subject).1 :=
  (folds_iff (p := .literal (.string "a+")) (f := some (.literal (.string "gi")))
    (v := .string "a+") (w := some (.string "gi")) (by rfl) (by rfl) (by rfl) (by rfl) .empty
    Feature.empty.subject).2 ⟨nofun, nofun⟩

/-- The pattern `undefined` is built to the word but evaluated to nothing. -/
theorem not_sameRegex_undefined :
    ofTree (.identifier "undefined") = .ok .undefined ∧
      ¬ SameRegex (ofTree (.call (.identifier "regExp") [.identifier "undefined"]))
        (((Expr.regExp .undefined none).evaluateIn .empty).run Feature.empty.subject).1 := by
  have hbuild : ofTree (.identifier "undefined") = .ok .undefined := by rfl
  have hcall : ofTree (.call (.identifier "regExp") [.identifier "undefined"]) =
      literalRegex "undefined" "" :=
    ofTree_regExp (f := none) (b := none) (v := .undefined) (w := none) hbuild rfl rfl rfl
  refine ⟨hbuild, fun h ↦ ?_⟩
  rw [hcall, fst_run_evaluateIn_regExp (v := .undefined) (w := none) (by rfl) (by rfl)] at h
  have hcompile : Pattern.compile "undefined" "" = Pattern.compile "" "" := sameRegex_iff.1 h
  have hempty : Regex.Mode.initial.withFlags? "".toList = some .initial := rfl
  have hsource : "undefined" = "" := Pattern.source_eq_of_compile_eq hempty hcompile
  exact absurd hsource (by decide)

end Call

end Expr

end FeatureStyle
