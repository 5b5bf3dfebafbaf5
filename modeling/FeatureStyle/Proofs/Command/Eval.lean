import FeatureStyle.Command.Execute
import FeatureStyle.Proofs.Document.Printing
import FeatureStyle.Proofs.Expr.Synonym
import FeatureStyle.Proofs.Expression.Session
import FeatureStyle.Proofs.Fixture.Properties
import FeatureStyle.Proofs.Numeric.RoundTrip

/-!
# Evaluating a property of a fixture

A value in a fixture goes a long way until `eval` reports it: it becomes a value of the language and
a property of the feature, the placeholder is compiled to that property, its value is taken apart
into terms and put together again, and becomes JSON. **At the end it is what it was**, also when the
report is read again (`Command.eval_reports_property`).
-/

namespace FeatureStyle

/-- What stands under a name in an object. -/
def Json.field? (j : Json) (name : String) : Option Json :=
  match j with
  | .object entries => entries.lookup name
  | _ => none

/-- A value without objects whose numbers are finite. -/
theorem Json.Plain.finite {j : Json} (h : j.Plain fun x ↦ x.isFinite) : j.Finite := by
  induction h with
  | null => exact .null
  | bool b => exact .bool b
  | number hx => exact .number hx
  | string s => exact .string s
  | array _ ih => exact .array ih

namespace Command

variable {surroundings : Surroundings} {name path : String} {fixture : Fixture} {j : Json}

/-- A report is as finite as what is reported. -/
theorem finite_evalReport {source : String} {v : Value} (h : v.toJson.Finite) :
    (evalReport source v).Finite := by
  refine .object fun entry hentry ↦ ?_
  simp only [List.mem_cons, List.not_mem_nil, or_false] at hentry
  rcases hentry with rfl | rfl | rfl | rfl
  · exact .string _
  · exact .string _
  · exact .string _
  · exact h

theorem field?_evalReport (source : String) (v : Value) :
    (evalReport source v).field? "value" = some v.toJson := rfl

/-- **The value of a placeholder is that of the property.** -/
theorem exists_compiled_placeholder (hname : ∀ c ∈ name.toList, Token.isIdentifierPart c) :
    ∃ e : Expression, compiled ("$\x7b" ++ name ++ "\x7d") = .ok e ∧
      e.source = "$\x7b" ++ name ++ "\x7d" ∧
        ∀ f : Feature, valueFor e false f = .ok ((f.property? name).getD .undefined) := by
  have hsource := Expr.ofSource_placeholder_of_parts hname
  let e : Expression := ⟨_, _, hsource⟩
  have hcompile : Expression.compile ("$\x7b" ++ name ++ "\x7d") = .ok e :=
    Expression.compile_eq_ok_iff.2 rfl
  refine ⟨e, ?_, rfl, fun f ↦ ?_⟩
  · rw [compiled, hcompile]
    rfl
  · have hvalue := (Expr.meansProperty_property name).value_eq .empty f.subject
    unfold valueFor
    rw [if_neg Bool.false_ne_true]
    dsimp only
    rw [hvalue]
    rfl

/-- What a run of `eval` comes to, from what its steps come to. -/
theorem run_eval {settings : Settings} {f : Feature} {e : Expression} {v : Value} {source : String}
    {settings? : Option String} (hsettings : settingsOf surroundings settings? = .ok settings)
    (hload : Fixture.load surroundings path = .ok fixture)
    (hfeature : fixture.toFeature settings.timeSinceLoad = .ok f)
    (hcompiled : compiled source = .ok e) (hvalue : valueFor e false f = .ok v) :
    run surroundings (.eval ⟨source, some path, settings?, false, .json⟩) =
      .ok (evalReport e.source v).pretty := by
  have hfeatureOf : featureOf surroundings settings (some path) = .ok f := by
    rw [featureOf, hload]
    show (fixture.toFeature settings.timeSinceLoad).mapError CommandError.fixture = .ok f
    rw [hfeature]
    rfl
  rw [run, runEval, hsettings]
  show (featureOf surroundings settings (some path) >>= _) = _
  rw [hfeatureOf]
  show (compiled source >>= _) = _
  rw [hcompiled]
  show (valueFor e false f >>= _) = _
  rw [hvalue]
  rfl

/-! ### A fixture with a list in a list -/

/-- The text of a fixture that is written as the list of its fields, with a list in a list. -/
def nestedText : String := "[\x7b\"a\":[[1,null]]\x7d]"

/-- The only property of that fixture. -/
def nested : Json := .array [.array [.number 1, .null]]

/-- That fixture. -/
def nestedFixture : Fixture := ⟨.ofEntries [("a", nested)], none, [], none⟩

open JsonText in
/-- What is written there. -/
theorem part?_nestedText : part? nestedText =
    some (.list [.map [(some "a", .list [.list [.number ⟨false, [1], [], none⟩, .null]])]]) := by
  have hend {c : Char} {rest : List Char} (hc : ¬ isBlank c) : (next? (c :: rest)).Gives c rest :=
    gives_next_cons hc
  have hone : (number? ['1', ',', 'n', 'u', 'l', 'l', ']', ']', '\x7d', ']']).Gives
      ⟨false, [1], [], none⟩ [',', 'n', 'u', 'l', 'l', ']', ']', '\x7d', ']'] :=
    ⟨by decide, rfl⟩
  have hinner := gives_list (hend (c := '[') (by decide))
    (gives_items_cons (gives_number (hend (by decide)) (by decide) hone) (hend (by decide))
      (gives_items_last (gives_null (hend (by decide))) (hend (by decide))))
  have houter := gives_list (hend (c := '[') (by decide))
    (gives_items_last hinner (hend (by decide)))
  have hmap := gives_map (hend (c := '\x7b') (by decide))
    (gives_entries_last (hend (by decide)) (gives_textBody ['a'] _) (hend (by decide)) houter
      (hend (by decide)))
  exact part?_eq_some (gives_list (hend (c := '[') (by decide))
    (gives_items_last hmap (hend (by decide))))

/-- The fixture is loaded from its text. -/
theorem load_nestedText : Fixture.load ⟨fun _ ↦ .ok nestedText, fun _ ↦ none⟩ "f.json" =
    .ok nestedFixture := by
  have hpath : DocumentFormat.ofPath "f.json" = .json := by decide +kernel
  have hread : DocumentFormat.json.read? Fixture.ofDatum? nestedText =
      some nestedFixture := by
    rw [DocumentFormat.read?, Datum.ofJsonText?, part?_nestedText]
    rfl
  have hdecode : decodeDocument Fixture.ofDatum? "f.json" nestedText =
      .ok nestedFixture := by
    rw [decodeDocument, hpath, hread]
  show (decodeDocument Fixture.ofDatum? "f.json" nestedText).mapError FixtureError.document = _
  rw [hdecode]
  rfl

/-! ### Properties of fixtures -/

/-- **A property of a fixture is reported as it is.** Let a fixture without objects be loaded, and
let one of its properties have a name that is made of the characters of identifiers and a value
whose numbers are finite. The fixture describes a feature, and the placeholder of that name is
evaluated for it to a value that is the property again. What is printed for this value is a JSON
document, and the property is what its field `value` denotes. Every number is written exactly. -/
theorem eval_reports_property (hload : Fixture.load surroundings path = .ok fixture)
    (hplain : ∀ entry ∈ fixture.properties.entries, entry.2.Plain fun _ ↦ True)
    (hname : ∀ c ∈ name.toList, Token.isIdentifierPart c)
    (hmem : (name, j) ∈ fixture.properties.entries) (hfinite : j.Plain fun x ↦ x.isFinite) :
    (∀ defaultTime, ∃ f, fixture.toFeature defaultTime = .ok f) ∧
      j.Plain Numeric.WrittenExactly ∧
        ∀ settings? settings, settingsOf surroundings settings? = .ok settings →
          ∃ f e v text, fixture.toFeature settings.timeSinceLoad = .ok f ∧
            compiled ("$\x7b" ++ name ++ "\x7d") = .ok e ∧
            valueFor e false f = .ok v ∧ v.toJson = j ∧
            run surroundings
              (.eval ⟨"$\x7b" ++ name ++ "\x7d", some path, settings?, false, .json⟩) = .ok text ∧
            text = (evalReport ("$\x7b" ++ name ++ "\x7d") v).pretty ∧
            ∃ report, Json.ofText? text = some report ∧ report.field? "value" = some j := by
  refine ⟨fun defaultTime ↦ ?_, hfinite.mono fun _ ↦ Numeric.writtenExactly_of_isFinite,
    fun settings? settings hsettings ↦ ?_⟩
  · obtain ⟨f, hf, -⟩ := Fixture.exists_toFeature hplain defaultTime
    exact ⟨f, hf⟩
  · obtain ⟨f, hf, hproperty⟩ := Fixture.exists_toFeature hplain settings.timeSinceLoad
    obtain ⟨e, hcompiled, hsource, hvalue⟩ := exists_compiled_placeholder hname
    obtain ⟨v, hv, hback⟩ := hfinite.exists_toValue?
    have hfound : f.property? name = some v := (hproperty _ hmem).trans hv
    have hresult : valueFor e false f = .ok v := by
      rw [hvalue, hfound]
      rfl
    have hrun := run_eval hsettings hload hf hcompiled hresult
    rw [hsource] at hrun
    refine ⟨f, e, v, _, hf, hcompiled, hresult, hback, hrun, rfl, _,
      Json.ofText?_pretty (finite_evalReport (hback ▸ hfinite.finite)), ?_⟩
    rw [field?_evalReport, hback]

theorem eval_reports_property_nested :
    let surroundings : Surroundings := ⟨fun _ ↦ .ok nestedText, fun _ ↦ none⟩
    Fixture.load surroundings "f.json" = .ok nestedFixture ∧
      (∀ entry ∈ nestedFixture.properties.entries, entry.2.Plain fun _ ↦ True) ∧
        (∀ c ∈ "a".toList, Token.isIdentifierPart c) ∧
          ("a", nested) ∈ nestedFixture.properties.entries ∧
            nested.Plain (fun x ↦ x.isFinite) ∧
              ∃ text report, run surroundings
                  (.eval ⟨"$\x7ba\x7d", some "f.json", none, false, .json⟩) = .ok text ∧
                Json.ofText? text = some report ∧ report.field? "value" = some nested := by
  have hfinite : nested.Plain fun x ↦ x.isFinite := by
    refine .array (List.forall_mem_singleton.2 (.array (List.forall_mem_cons.2 ⟨.number ?_, ?_⟩)))
    · decide +kernel
    · exact List.forall_mem_singleton.2 .null
  have hplain : ∀ entry ∈ [("a", nested)], entry.2.Plain fun _ ↦ True :=
    List.forall_mem_singleton.2 (hfinite.mono fun _ _ ↦ trivial)
  have hname : ∀ c ∈ "a".toList, Token.isIdentifierPart c := by
    show ∀ c ∈ ['a'], Token.isIdentifierPart c
    exact List.forall_mem_singleton.2 (by decide)
  have hmem : ("a", nested) ∈ nestedFixture.properties.entries := List.mem_cons_self
  obtain ⟨-, -, hreports⟩ :=
    eval_reports_property load_nestedText hplain hname hmem hfinite
  obtain ⟨-, -, -, text, -, -, -, -, hrun, -, report, hread, hvalue⟩ := hreports none _ rfl
  exact ⟨load_nestedText, hplain, hname, hmem, hfinite, text, report, hrun, hread, hvalue⟩

end Command

end FeatureStyle
