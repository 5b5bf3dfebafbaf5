import FeatureStyle.Proofs.Eval.Recording
import FeatureStyle.Proofs.Expr.Assembly
import FeatureStyle.Proofs.Expr.Quotation
import FeatureStyle.Shader.Emit

/-!
# Three ways to write a property

A property can be written as a placeholder, as a member of the feature behind a dot, and as one in
brackets with its name in quotes. For every name that is read as one identifier the three mean the
same (`ofSource_synonyms`), although they have little in common on the way:

* the placeholder becomes a word with the mark before it, which is taken off again, once, when the
  expression is built;
* behind the dot the name is a word by itself, and it is no matter whether it is also the name of a
  constant or of a function;
* in quotes the name is a text, in which there is no placeholder and no escape.

The first comes out as a property and the others as members of the feature. These have different
keys, but evaluate and are emitted alike.
-/

namespace FeatureStyle

open Token (IsName IsWord isName_iff)

/-! ### Names -/

namespace Token

variable {table : OperatorTable} {name : String}

/-- What words are made of becomes a name behind the mark, also where it is a keyword by itself. -/
theorem isName_mark_append (h : ∀ c ∈ name.toList, isIdentifierPart c) :
    IsName table (String.ofList (Source.mark ++ name.toList)) := by
  have hmark : IsWord Source.mark := .mk (by decide) (by decide) (by decide)
  rw [isName_iff, String.toList_ofList]
  refine ⟨hmark.append h, ?_⟩
  -- No keyword begins with the letter that the mark begins with.
  simp [wordKind, Source.mark]

end Token

/-! ### Preparing -/

namespace Source

variable {front cs : List Char} {segments : List Segment}

/-- Characters that are neither quotes nor braces are segments by themselves. -/
theorem Cuts.plain_append (hfront : ∀ c ∈ front, ¬ isQuote c ∧ c ≠ '\x7b')
    (hhead : cs.head? ≠ some '\x7b') (h : Cuts cs segments) :
    Cuts (front ++ cs) (front.map .plain ++ segments) := by
  induction front with
  | nil => exact h
  | cons c front ih =>
    obtain ⟨hc, hfront⟩ := List.forall_mem_cons.1 hfront
    refine .plain hc.1 ?_ (ih hfront)
    rintro ⟨-, hopen⟩
    cases front with
    | nil => exact hhead hopen
    | cons d front => exact (hfront d List.mem_cons_self).2 (Option.some.inj hopen)

end Source

/-! ### Building -/

namespace Expr

variable {table : OperatorTable} {name : String}

open Source

theorem opensPlaceholder_eq_false {cs : List Char} (h : '\x7b' ∉ cs) :
    opensPlaceholder cs = false :=
  Bool.eq_false_iff.2 fun hopens ↦ h ((opensPlaceholder_iff.1 hopens).subset (by decide))

/-- A name in quotes is a text without placeholders. -/
theorem ofLiteral_name (h : IsName table name) : ofLiteral (.string name) = .string name := by
  simp only [ofLiteral, opensPlaceholder_eq_false (h.notMem (by decide)),
    restoreBackslashes_eq_self (h.notMem (by decide)), String.ofList_toList]
  rfl

/-- One mark is taken off, and no more. -/
theorem ofIdentifier_mark_append (name : String) :
    ofIdentifier (String.ofList (mark ++ name.toList)) = .ok (.property name) := by
  have hvariable : isVariable (String.ofList (mark ++ name.toList)) := by
    rw [isVariable, String.toList_ofList]
    exact List.isPrefixOf_iff_prefix.2 (List.prefix_append mark name.toList)
  unfold ofIdentifier
  rw [if_pos hvariable, propertyName, if_pos hvariable, String.toList_ofList, List.drop_left,
    String.ofList_toList]

theorem isName_feature : IsName operators "feature" :=
  isName_iff.2 ⟨.mk (by decide) (by decide) (by decide), by decide⟩

/-! ### The three sources -/

/-- A source without backslashes, from its segments to its expression. -/
theorem ofSource_of_cuts {source : String} {cs prepared : List Char} {segments : List Segment}
    {tree : SyntaxTree} {e : Expr} (hsource : source.toList = cs) (hbackslash : '\\' ∉ cs)
    (hcuts : Cuts cs segments) (hexpanded : segments.flatMap Segment.expanded = prepared)
    (hparse : SyntaxTree.parse operators prepared = .ok tree) (hbuild : ofTree tree = .ok e) :
    ofSource source = .ok e := by
  refine ofSource_eq_ok.2 ⟨prepared, tree, ?_, hparse, hbuild⟩
  rw [hsource, hideBackslashes_eq_self hbackslash, ← hexpanded]
  exact hcuts.expandFrom_eq 0

theorem flatMap_expanded_plain (cs : List Char) :
    (cs.map Segment.plain).flatMap Segment.expanded = cs := by
  induction cs with
  | nil => rfl
  | cons c cs ih =>
    rw [List.map_cons, List.flatMap_cons, ih]
    rfl

/-- A placeholder is a property as long as what stands in it could be part of a word. -/
theorem ofSource_placeholder_of_parts (h : ∀ c ∈ name.toList, Token.isIdentifierPart c) :
    ofSource ("$\x7b" ++ name ++ "\x7d") = .ok (.property name) := by
  have hsource : ("$\x7b" ++ name ++ "\x7d").toList =
      '$' :: '\x7b' :: (name.toList ++ '\x7d' :: []) := by
    simp
  have hbackslash : '\\' ∉ name.toList := fun hmem ↦ absurd (h _ hmem) (by decide)
  have hbrace : '\x7d' ∉ name.toList := fun hmem ↦ absurd (h _ hmem) (by decide)
  have hcuts : Cuts ('$' :: '\x7b' :: (name.toList ++ '\x7d' :: [])) [.placeholder name.toList] :=
    .placeholder hbrace .nil
  have hmark : IsName operators (String.ofList (mark ++ name.toList)) :=
    Token.isName_mark_append h
  have hparse := SyntaxTree.parse_name hmark
  rw [String.toList_ofList] at hparse
  have hbuild : ofTree (.identifier (String.ofList (mark ++ name.toList))) =
      .ok (.property name) := by
    rw [ofTree, ofIdentifier_mark_append]
  exact ofSource_of_cuts hsource (by simp [hbackslash]) hcuts (List.flatMap_singleton ..) hparse
    hbuild

theorem ofSource_placeholder (h : IsName operators name) :
    ofSource ("$\x7b" ++ name ++ "\x7d") = .ok (.property name) :=
  ofSource_placeholder_of_parts h.isWord.forall_mem

theorem ofSource_dot (h : IsName operators name) :
    ofSource ("feature." ++ name) = .ok (.featureMember .dot (.string name)) := by
  have hsource : ("feature." ++ name).toList = "feature".toList ++ '.' :: name.toList := by
    simp
  have hbackslash : '\\' ∉ name.toList := h.notMem (by decide)
  have hplain : ∀ c ∈ "feature".toList ++ '.' :: name.toList, ¬ Source.isQuote c ∧ c ≠ '\x7b' := by
    refine List.forall_mem_append.2 ⟨by decide, List.forall_mem_cons.2 ⟨by decide, fun c hc ↦ ?_⟩⟩
    have hpart := h.isWord.forall_mem c hc
    exact ⟨fun hquote ↦ Token.not_isIdentifierPart_of_isQuote hquote hpart,
      ne_of_mem_of_not_mem hc (h.notMem (by decide))⟩
  have hcuts := Cuts.plain_append hplain (by simp) .nil
  rw [List.append_nil, List.append_nil] at hcuts
  have hbuild : ofTree (.member (.identifier "feature") (.identifier name) false) =
      .ok (.featureMember .dot (.string name)) := by
    rw [ofTree_member]
    rfl
  exact ofSource_of_cuts hsource (by simp [hbackslash]) hcuts (flatMap_expanded_plain _)
    (SyntaxTree.parse_dot isName_feature h) hbuild

theorem ofSource_brackets (h : IsName operators name) :
    ofSource ("feature['" ++ name ++ "']") = .ok (.featureMember .brackets (.string name)) := by
  have hsource : ("feature['" ++ name ++ "']").toList =
      "feature[".toList ++ '\'' :: (name.toList ++ '\'' :: [']']) := by
    simp
  have hbackslash : '\\' ∉ name.toList := h.notMem (by decide)
  have hquote : '\'' ∉ name.toList := h.notMem (by decide)
  let quoted : List Segment := [.quoted '\'' name.toList, .plain ']']
  have hcuts : Cuts ("feature[".toList ++ '\'' :: (name.toList ++ '\'' :: [']']))
      ("feature[".toList.map .plain ++ quoted) :=
    .plain_append (by decide) (by simp) (.quoted rfl hquote (.plain (by decide) (by decide) .nil))
  have hexpanded : ("feature[".toList.map Segment.plain ++ quoted).flatMap Segment.expanded =
      "feature".toList ++ '[' :: '\'' :: (name.toList ++ ['\'', ']']) := by
    rw [List.flatMap_append, flatMap_expanded_plain]
    simp [quoted, Segment.expanded, Segment.text]
  have hparse := SyntaxTree.parse_brackets isName_feature hquote hbackslash
  rw [String.ofList_toList] at hparse
  have hbuild : ofTree (.member (.identifier "feature") (.literal (.string name)) true) =
      .ok (.featureMember .brackets (.string name)) := by
    have hfeature : (SyntaxTree.identifier "feature").isFeature := rfl
    rw [ofTree_member, if_pos hfeature, ofMember, if_pos rfl, ofTree, ofLiteral_name h]
    rfl
  exact ofSource_of_cuts hsource (by simp [hbackslash]) hcuts hexpanded hparse hbuild

/-! ### Meaning -/

/-- The expression means the property of the given name. -/
structure MeansProperty (e : Expr) (name : String) : Prop where
  /-- It is evaluated like the property, with every pool and whatever the feature answers. -/
  evaluateIn_eq (pool : ScratchPool) : e.evaluateIn pool = (property name).evaluateIn pool
  evaluateColorIn_eq (pool : ScratchPool) :
    e.evaluateColorIn pool = (property name).evaluateColorIn pool
  /-- Nothing but the property is asked for, and only once. -/
  calls_eq (pool : ScratchPool) (s : Subject) :
    (e.evaluateIn pool).calls s = [.property name] ∧
      (e.evaluateColorIn pool).calls s = [.property name]
  /-- Its value is that of the property, or undefined if the feature has none. -/
  value_eq (pool : ScratchPool) (s : Subject) :
    ((e.evaluateIn pool).run s).1 = .ok ((s.property name).getD .undefined)
  /-- It is emitted as the name behind the lead. -/
  emit_eq (lead : String) : e.emit lead = pure (lead ++ name)

theorem recorded_property (name : String) :
    (property name).recorded =
      (fun v : Option Value ↦ (.ok (v.getD .undefined), (v.getD .undefined).composites)) <$>
        Dialogue.query (.property name) := by
  rw [recorded, Machine.evaluate, Machine.eval]
  rfl

/-- What is evaluated and emitted like a property means it. -/
theorem meansProperty_of_eq {e : Expr}
    (heval : ∀ pool, e.evaluateIn pool = (property name).evaluateIn pool)
    (hemit : ∀ lead, e.emit lead = pure (lead ++ name)) : e.MeansProperty name where
  evaluateIn_eq := heval
  evaluateColorIn_eq pool := by
    rw [Expr.evaluateColorIn_eq, Expr.evaluateColorIn_eq, heval]
  calls_eq pool s := by
    have hcalls : (e.evaluateIn pool).calls s = [.property name] := by
      rw [heval, Expr.evaluateIn_eq, Dialogue.calls_map, recorded_property, Dialogue.calls_map]
      rfl
    refine ⟨hcalls, ?_⟩
    rw [Expr.evaluateColorIn_eq, Dialogue.calls_map, hcalls]
  value_eq pool s := by
    rw [heval, Expr.evaluateIn_eq, Dialogue.run_map, recorded_property, Dialogue.run_map]
    rfl
  emit_eq := hemit

theorem meansProperty_property (name : String) : (property name).MeansProperty name :=
  meansProperty_of_eq (fun _ ↦ rfl) fun lead ↦ by rw [emit]

/-- A member of the feature is asked for like a property. -/
theorem meansProperty_featureMember (access : MemberAccess) (name : String) :
    (featureMember access (.string name)).MeansProperty name := by
  refine meansProperty_of_eq (fun pool ↦ ?_) fun lead ↦ ?_
  · rw [evaluateIn, evaluateIn, evalPooled, evalPooled, evalPooled]
    rfl
  · rw [emit]

/-- **The three ways to write a property mean the same.** Let a name be read as one identifier, just
as it stands, whatever operators there are. As a placeholder, as a member of the feature behind a
dot, and as one in brackets with the name in quotes, it compiles and means the property of that
name: the feature is asked for it once and for nothing else, the value and the colour are the same,
and it is emitted as its name behind the lead. -/
theorem ofSource_synonyms {table : OperatorTable} {name : String} (h : IsName table name) :
    ∀ source ∈ ["$\x7b" ++ name ++ "\x7d", "feature." ++ name, "feature['" ++ name ++ "']"],
      ∃ e, ofSource source = .ok e ∧ e.MeansProperty name := by
  have hname : IsName operators name := h.of_table
  intro source hsource
  simp only [List.mem_cons, List.not_mem_nil, or_false] at hsource
  rcases hsource with rfl | rfl | rfl
  · exact ⟨_, ofSource_placeholder hname, meansProperty_property name⟩
  · exact ⟨_, ofSource_dot hname, meansProperty_featureMember .dot name⟩
  · exact ⟨_, ofSource_brackets hname, meansProperty_featureMember .brackets name⟩

/-- A name that begins like the mark, and goes on with letters beyond ASCII and a sign that could
open a placeholder. -/
theorem ofSource_synonyms_mark :
    IsName operators "czm_é$" ∧
      (∃ e, ofSource "$\x7bczm_é$\x7d" = .ok e ∧ e.MeansProperty "czm_é$") ∧
      (∃ e, ofSource "feature.czm_é$" = .ok e ∧ e.MeansProperty "czm_é$") ∧
      ∃ e, ofSource "feature['czm_é$']" = .ok e ∧ e.MeansProperty "czm_é$" := by
  have hname : IsName operators "czm_é$" := ⟨_, _, by with_unfolding_all rfl, rfl, rfl⟩
  have hmeans := ofSource_synonyms hname
  exact ⟨hname, hmeans _ (by decide), hmeans _ (by decide), hmeans _ (by decide)⟩

end Expr

end FeatureStyle
