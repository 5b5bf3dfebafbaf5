import FeatureStyle.Proofs.Eval.Failure
import FeatureStyle.Proofs.Expr.Origin
import FeatureStyle.Proofs.Shader.Outcome

/-!
# Well-formed expressions

An expression is **well-formed** if it has the arguments that what it is made by is called with, and
if what it searches with is a regular expression. The type of expressions does not ask for this:
there is a colour of seven arguments, and a search whose object is a number.

**Everything within a built expression is well-formed** (`wellFormed_of_within`), whatever the tree
is that it has been built from. Two things later on rely on it. The code of a colour is written from
three channels without asking whether there are so many, and a search is never done with something
that is no regular expression (`ofTree_wellFormed`).
-/

namespace FeatureStyle.Expr

open SyntaxTree.Grammar (bind_eq_ok)

variable {t : SyntaxTree} {e : Expr} {es : List Expr}

/-- Whether the expression is a string. -/
def isString : Expr → Bool
  | string _ => true
  | _ => false

/-- Whether the expression makes a regular expression, now or during evaluation. -/
def isRegex : Expr → Bool
  | regex _ | regExp _ _ => true
  | _ => false

/-- Whether the construct at the top of the expression has the arguments, and the object, that it
requires. -/
def wellFormed : Expr → Bool
  | color .css args => args.length ≤ 2
  | color (.channels .rgb) args | color (.channels .hsl) args => args.length == 3
  | color (.channels .rgba) args | color (.channels .hsla) args => args.length == 4
  | vector size args => 1 ≤ args.length && args.length ≤ size.count
  | featureMember .dot key | member .dot _ key => key.isString
  | call (.search _) object argument => argument.isSome && object.isRegex
  | call .toString _ argument => argument.isNone
  | regExp pattern flags => (pattern :: flags.toList).any (·.literalText?.isNone)
  | _ => true

/-! ### What building makes -/

/-- A regular expression that is not compiled yet has an argument without a literal text: only
`null`, `undefined`, truth values, numbers and strings have one. -/
theorem wellFormed_of_ofRegexArguments (h : ofRegexArguments (es.map .ok) = .ok e) :
    e.isRegex ∧ e.wellFormed := by
  have hliteral {source flags : String} (h : literalRegex source flags = .ok e) :
      e.isRegex ∧ e.wellFormed := by
    rw [literalRegex] at h
    split at h <;> cases h
    exact ⟨rfl, rfl⟩
  rcases es with - | ⟨pattern, - | ⟨flags, rest⟩⟩
  · have h : literalRegex "" "" = .ok e := h
    exact hliteral h
  · obtain ⟨x, ⟨⟩, h⟩ := bind_eq_ok.1 h
    split at h
    · exact hliteral h
    · next hpattern =>
      cases h
      exact ⟨rfl, by simp [wellFormed, hpattern]⟩
  · obtain ⟨x, ⟨⟩, h⟩ := bind_eq_ok.1 h
    obtain ⟨y, ⟨⟩, h⟩ := bind_eq_ok.1 h
    split at h
    · exact hliteral h
    · next hnone =>
      cases h
      refine ⟨rfl, ?_⟩
      rcases hp : pattern.literalText? with - | source
      · simp [wellFormed, hp]
      rcases hf : flags.literalText? with - | text
      · simp [wellFormed, hf]
      · exact absurd hf (hnone source text hp)

theorem wellFormed_of_ofLiteral (l : Literal) : (ofLiteral l).wellFormed := by
  cases l with
  | string s =>
    simp only [ofLiteral]
    split <;> rfl
  | _ => rfl

theorem wellFormed_of_ofIdentifier {name : String} (h : ofIdentifier name = .ok e) :
    e.wellFormed := by
  unfold ofIdentifier at h
  split at h
  · cases h
    rfl
  split at h
  · cases h
    rfl
  split at h <;> cases h <;> rfl

/-- What a call that makes a regular expression builds to. -/
theorem isRegex_of_isRegexCall (hcall : isRegexCall t) (h : ofTree t = .ok e) : e.isRegex := by
  unfold isRegexCall at hcall
  split at hcall
  · obtain rfl := beq_iff_eq.1 hcall
    obtain ⟨es, -, hassemble⟩ := ofTree_eq_ok_iff.1 h
    have hrule : FunctionRule.ofName? "regExp" = some .regExp := rfl
    simp only [SyntaxTree.assemble?, hrule] at hassemble
    exact (wellFormed_of_ofRegexArguments (toOption_eq_some_iff.1 hassemble)).1
  · cases hcall

theorem wellFormed_of_assemble_method {m : Method} {object : SyntaxTree} {args : List SyntaxTree}
    (hes : (m.operands object args).map ofTree = es.map .ok)
    (hregex : m.requiresRegex → isRegexCall object) (h : m.assemble? es = some e) :
    e.wellFormed := by
  revert h
  fun_cases Method.assemble? m es with
  | case1 =>
    rintro ⟨⟩
    rfl
  | case2 m =>
    rintro ⟨⟩
    cases m <;> rfl
  | case3 m x a =>
    rintro ⟨⟩
    -- With an argument, the object is looked at, and it is a call that makes a regular expression.
    cases args with
    | nil => cases hes
    | cons arg rest =>
      have hobject : ofTree object = .ok x := (List.cons.inj hes).1
      exact isRegex_of_isRegexCall (hregex rfl) hobject
  | case4 =>
    intro h
    cases h

/-- What looks at all of its arguments is made of as many as it is called with. -/
theorem admits_length {rule : FunctionRule} {args : List SyntaxTree}
    (hadmits : rule.admits args.length) (hlength : (args.take rule.reach).length = es.length)
    (hconversion : ∀ missing op, rule ≠ .conversion missing op) (hregExp : rule ≠ .regExp) :
    rule.admits es.length := by
  have hreach := FunctionRule.le_reach_of_admits hadmits hconversion hregExp
  rw [List.take_of_length_le hreach] at hlength
  rwa [← hlength]

theorem wellFormed_of_assemble_function {name : String} {rule : FunctionRule}
    {args : List SyntaxTree} (hrule : FunctionRule.ofName? name = some rule)
    (hadmits : rule.admits args.length) (hlength : (args.take rule.reach).length = es.length)
    (h : rule.assemble? es = some e) : e.wellFormed := by
  revert h
  fun_cases FunctionRule.assemble? rule es with
  | case1 fn =>
    rintro ⟨⟩
    have hadmits := admits_length hadmits hlength (by simp) (by simp)
    rcases fn with - | - | - | - | - <;> exact hadmits
  | case2 size =>
    rintro ⟨⟩
    exact admits_length hadmits hlength (by simp) (by simp)
  | case3 missing op =>
    rintro ⟨⟩
    have := missing_of_ofName hrule
    simp only [List.mem_cons, List.not_mem_nil, or_false] at this
    rcases this with rfl | rfl | rfl | rfl <;> rfl
  | case6 =>
    intro h
    exact (wellFormed_of_ofRegexArguments (toOption_eq_some_iff.1 h)).2
  | case4 | case5 | case7 | case8 | case9 =>
    rintro ⟨⟩
    rfl
  | case10 =>
    intro h
    cases h

/-- **What building makes is well-formed**, at the top. -/
theorem wellFormed_of_ofTree (h : ofTree t = .ok e) : e.wellFormed := by
  obtain ⟨es, hes, h⟩ := ofTree_eq_ok_iff.1 h
  revert h
  fun_cases SyntaxTree.assemble? t es with
  | case1 l =>
    rintro ⟨⟩
    exact wellFormed_of_ofLiteral l
  | case2 name =>
    intro h
    exact wellFormed_of_ofIdentifier (toOption_eq_some_iff.1 h)
  | case3 | case5 =>
    intro h
    obtain ⟨op, -, rfl⟩ := Option.map_eq_some_iff.1 h
    rfl
  | case4 =>
    intro h
    obtain ⟨form, hform, rfl⟩ := Option.map_eq_some_iff.1 h
    unfold binaryForm? at hform
    split at hform <;> cases hform <;> rfl
  | case6 | case10 =>
    rintro ⟨⟩
    rfl
  | case7 | case8 =>
    intro h
    rcases assembleMember_cases h with ⟨k, rfl, rfl⟩ | ⟨rfl, rfl, name, rfl, rfl⟩ <;> rfl
  | case11 object key args =>
    intro h
    obtain ⟨m, hm, h⟩ := Option.bind_eq_some_iff.1 h
    split at h
    · next hregex =>
      simp only [SyntaxTree.consulted, hm] at hes
      exact wellFormed_of_assemble_method hes hregex h
    · cases h
  | case12 name args =>
    intro h
    obtain ⟨rule, hrule, h⟩ := Option.bind_eq_some_iff.1 h
    split at h
    · next hadmits =>
      simp only [SyntaxTree.consulted, hrule] at hes
      refine wellFormed_of_assemble_function hrule hadmits ?_ h
      simpa using congrArg List.length hes
    · cases h
  | case9 | case13 =>
    intro h
    cases h

/-- **Everything within a built expression is well-formed.** -/
theorem wellFormed_of_within {s : Expr} (hs : Within s e) (h : ofTree t = .ok e) :
    s.wellFormed := by
  rcases hs.origin h with ⟨r, -, hr⟩ | ⟨object, name, -, rfl⟩
  · exact wellFormed_of_ofTree hr
  · rfl

/-! ### What relies on it -/

/-- What is written after the arguments only has to be known for as many texts as there are
arguments. -/
theorem emitAll_bind_congr {α : Type} {lead : String} {f g : List String → Emission α}
    (h : ∀ texts, texts.length = es.length → f texts = g texts) :
    emitAll lead es >>= f = emitAll lead es >>= g := by
  induction es generalizing f g with
  | nil =>
    simp only [emitAll, pure_bind]
    exact h [] rfl
  | cons e es ih =>
    simp only [emitAll, bind_assoc, pure_bind]
    congr 1
    funext text
    exact ih fun texts hlength ↦ h (text :: texts) (congrArg (· + 1) hlength)

theorem three_le_length_of_wellFormed {f : ChannelFn} {args : List Expr}
    (h : (color (.channels f) args).wellFormed) : 3 ≤ args.length := by
  cases f <;> simp only [wellFormed, beq_iff_eq] at h <;> omega

/-- What makes a regular expression has no other values. -/
theorem exists_regExp_of_gives {v : Value} (h : e.isRegex) (hv : e.eval.Gives v) :
    ∃ p, v = .regExp p := by
  have hcompiled {pattern flags : Value}
      (h : Evaluation.Gives (liftM (pattern.compileRegex flags)) v) : ∃ p, v = .regExp p := by
    have h := Evaluation.gives_liftExcept_iff.1 h
    unfold Value.compileRegex at h
    split at h <;> cases h
    exact ⟨_, rfl⟩
  cases e with
  | regex p =>
    rw [eval] at hv
    exact ⟨p, Evaluation.gives_pure_iff.1 hv⟩
  | regExp pattern flags =>
    rw [eval] at hv
    obtain ⟨x, -, hv⟩ := Evaluation.gives_bind_iff.1 hv
    cases flags with
    | none => exact hcompiled hv
    | some flags =>
      obtain ⟨y, -, hv⟩ := Evaluation.gives_bind_iff.1 hv
      exact hcompiled hv
  | _ => cases h

/-- Nothing that is well-formed searches with something else than a regular expression. -/
theorem not_raises_notARegex {m : SearchMethod} {found : ValueType} (hwf : e.wellFormed) :
    ¬ e.Raises (.notARegex m found) := by
  intro h
  have hbelongs := belongsTo_of_raises h
  -- The error speaks of a search, so the other constructs do not raise it.
  cases h with
  | receiver hv herr =>
    obtain ⟨p, rfl⟩ := exists_regExp_of_gives (Bool.and_eq_true_iff.1 hwf).2 hv
    cases herr
  | _ => exact hbelongs

/-- **Built expressions are well-formed**, everywhere inside. So

* the code of a colour is written from three channels at least: it would be the same if anything
  else (`missing`) happened when there are fewer;
* no evaluation of the expression ends with a search without a regular expression. -/
theorem ofTree_wellFormed (h : ofTree t = .ok e) :
    (∀ s, Within s e → s.wellFormed) ∧
    (∀ f args, Within (color (.channels f) args) e → ∀ (lead : String) (missing : Emission String),
      (color (.channels f) args).emit lead = do
        let channels ← emitAll lead args
        if 3 ≤ channels.length then Shader.channelsText f args channels else missing) ∧
    ∀ pool m found after,
      ¬ (e.evaluateIn pool).Ends (.error (.error (.notARegex m found)), after) := by
  refine ⟨fun s hs ↦ wellFormed_of_within hs h, fun f args hs lead missing ↦ ?_,
    fun pool m found after hends ↦ ?_⟩
  · have hthree := three_le_length_of_wellFormed (wellFormed_of_within hs h)
    rw [emit]
    exact emitAll_bind_congr fun texts hlength ↦ (if_pos (hlength ▸ hthree)).symm
  · obtain ⟨err, ⟨⟩, hfails⟩ := fails_of_evaluateIn hends
    obtain ⟨s, hs, hraises⟩ := raisesWithin_of_fails hfails
    exact not_raises_notARegex (wellFormed_of_within hs h) hraises

/-- A search for a property in a colour. -/
theorem ofTree_wellFormed_search :
    -- `regExp(${p}).test(rgb(0, 0, ${b}))`
    let tree : SyntaxTree :=
      .call
        (.member (.call (.identifier "regExp") [.identifier "czm_p"]) (.identifier "test") false)
        [.call (.identifier "rgb")
          [.literal (.number 0), .literal (.number 0), .identifier "czm_b"]]
    let args : List Expr := [number 0, number 0, property "b"]
    let e := call (.search .test) (regExp (property "p") none)
      (some (color (.channels .rgb) args))
    ofTree tree = .ok e ∧ (∀ s, Within s e → s.wellFormed) ∧
    ((color (.channels .rgb) args).emit "a_" = do
      let channels ← emitAll "a_" args
      if 3 ≤ channels.length then Shader.channelsText .rgb args channels else throw .null) ∧
    ∀ m found after,
      ¬ (e.evaluateIn .empty).Ends (.error (.error (.notARegex m found)), after) := by
  intro tree args e
  have htree : ofTree tree = .ok e := by with_unfolding_all rfl
  obtain ⟨hwf, hemit, heval⟩ := ofTree_wellFormed htree
  have hcolor : Within (color (.channels .rgb) args) e :=
    .part (by simp [e, parts]) (.refl _)
  exact ⟨htree, hwf, hemit .rgb args hcolor "a_" (throw .null), heval .empty⟩

end FeatureStyle.Expr
