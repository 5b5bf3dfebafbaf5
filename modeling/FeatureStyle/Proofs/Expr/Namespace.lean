import FeatureStyle.Proofs.Expr.Assembly
import Mathlib.Data.List.Basic

/-!
# The closed namespace

Names, operators, functions and methods are looked up while an expression is built, and so is what
an argument list may look like. `Sound` says of a tree that nothing is wrong with its topmost
construct, in terms of the vocabulary alone: its name is defined, its operator known, its function
known and called with a number of arguments that it admits, and a regular expression of literals
compiles.

**A tree builds exactly if everything that is consulted for it is sound.** A sub-expression that is
not consulted is one that a call leaves `unread`: an argument beyond those that its function or
method looks at, and the receiver of a search for nothing. There an expression may hold anything at
all, so the namespace is closed for what is consulted and for nothing else
(`ofTree_closed`).
-/

namespace FeatureStyle

namespace SyntaxTree

/-! ### Sub-expressions -/

/-- The expressions that a tree consists of. The name of the feature before a member is none, and
neither are the names behind a dot and before arguments. -/
def subexpressions : SyntaxTree → List SyntaxTree
  | .literal _ | .identifier _ => []
  | .unary _ operand => [operand]
  | .binary _ left right | .logical _ left right => [left, right]
  | .conditional test consequent alternate => [test, consequent, alternate]
  | .member object key computed =>
    (if object.isFeature then [] else [object]) ++ (if computed then [key] else [])
  | .array items | .compound items => items
  | .call (.member object _ false) args => object :: args
  | .call (.identifier _) args => args
  | .call callee args => callee :: args

/-- The sub-expressions that a call does not look at. -/
def unread : SyntaxTree → List SyntaxTree
  | .call (.identifier name) args =>
    match FunctionRule.ofName? name with
    | some (.conversion _ _) => args.drop 1
    | some .regExp => args.drop 2
    | _ => []
  | .call (.member object key false) args =>
    match Method.ofName? (key.identifierName?.getD ""), args with
    | some .toString, args => args
    | some (.search _), [] => [object]
    | some (.search _), _ :: rest => rest
    | none, _ => []
  | _ => []

/-! ### Soundness -/

/-- Whether a name that stands by itself means something. -/
def isDefined (name : String) : Bool :=
  Source.isVariable name || (Global.ofName? name).isSome ||
    ["NaN", "Infinity", "undefined", "PI", "E"].contains name

/-- The text that a tree is known to be without an evaluation, if it is a literal. -/
def literalText? (t : SyntaxTree) : Option String :=
  (Expr.ofTree t).toOption.bind Expr.literalText?

/-- The pattern and the flags of a regular expression, if they are literals. -/
def literalRegex? : List SyntaxTree → Option (String × String)
  | [] => some ("", "")
  | [pattern] => pattern.literalText?.map (·, "")
  | pattern :: flags :: _ => do return (← pattern.literalText?, ← flags.literalText?)

/-- A function is called as it can be. -/
def SoundCall (rule : FunctionRule) (args : List SyntaxTree) : Prop :=
  rule.admits args.length ∧
    (rule = .regExp → ∀ pattern flags, literalRegex? args = some (pattern, flags) →
      ∃ p, Pattern.compile pattern flags = .ok p)

/-- Nothing is wrong with the topmost construct of a tree. -/
def Sound : SyntaxTree → Prop
  | .literal _ | .conditional _ _ _ | .array _ => True
  | .identifier name => isDefined name
  | .unary operator _ => (UnaryOp.ofSymbol? operator).isSome
  | .binary operator _ _ => (Expr.binaryForm? operator).isSome
  | .logical operator _ _ => (LogicalOp.ofSymbol? operator).isSome
  | .member _ key computed => computed ∨ key.identifierName?.isSome
  | .call (.member object key false) _ =>
    ∃ m, Method.ofName? (key.identifierName?.getD "") = some m ∧
      (m.requiresRegex → Expr.isRegexCall object)
  | .call (.identifier name) args => ∃ rule, FunctionRule.ofName? name = some rule ∧
      SoundCall rule args
  | .call _ _ | .compound _ => False

/-- The sub-expressions of a sound tree are consulted or left unread. -/
theorem subexpressions_eq {t : SyntaxTree} (hsound : t.Sound) :
    t.subexpressions = t.consulted ++ t.unread := by
  cases t with
  | literal | identifier => rfl
  | unary | binary | logical | conditional | member | array => exact (List.append_nil _).symm
  | compound => exact hsound.elim
  | call callee args =>
    cases callee with
    | identifier name =>
      obtain ⟨rule, hrule, hadmits, -⟩ := hsound
      simp only [subexpressions, consulted, unread, hrule]
      cases rule with
      | conversion | regExp => exact (List.take_append_drop _ args).symm
      | color | vector | className | unary | binary | ternary =>
        have hlength := FunctionRule.le_reach_of_admits hadmits (by simp) (by simp)
        rw [List.append_nil, List.take_of_length_le hlength]
    | member object key computed =>
      cases computed with
      | false =>
        obtain ⟨m, hm, -⟩ := hsound
        simp only [subexpressions, consulted, unread, hm]
        rcases m with - | m
        · rfl
        · cases args <;> rfl
      | true => exact hsound.elim
    | _ => exact hsound.elim

end SyntaxTree

namespace Expr

open SyntaxTree (Consulted literalRegex? isDefined SoundCall Sound)

variable {t : SyntaxTree} {es : List Expr}

theorem exists_ofIdentifier_iff {name : String} :
    (∃ e, ofIdentifier name = .ok e) ↔ isDefined name := by
  unfold ofIdentifier isDefined
  by_cases hvariable : Source.isVariable name
  · simp [hvariable]
  · rw [if_neg hvariable]
    rcases Global.ofName? name with - | g
    · simp only [hvariable]
      split <;> simp_all
    · simp

theorem exists_literalRegex_iff {source flags : String} :
    (∃ e, literalRegex source flags = .ok e) ↔ ∃ p, Pattern.compile source flags = .ok p := by
  rw [literalRegex]
  cases Pattern.compile source flags <;> simp

/-- A regular expression fails only if it is one of literals that does not compile. -/
theorem exists_ofRegexArguments_iff {args : List SyntaxTree}
    (h : (args.take 2).map ofTree = es.map .ok) :
    (∃ e, ofRegexArguments (es.map .ok) = .ok e) ↔
      ∀ source flags, literalRegex? args = some (source, flags) →
        ∃ p, Pattern.compile source flags = .ok p := by
  have htext {t : SyntaxTree} {x : Expr} (h : ofTree t = .ok x) :
      t.literalText? = x.literalText? := by
    rw [SyntaxTree.literalText?, h]
    rfl
  match args with
  | [] =>
    obtain rfl := List.map_eq_nil_iff.1 h.symm
    simp [ofRegexArguments, literalRegex?, exists_literalRegex_iff]
  | [pattern] =>
    obtain ⟨x, xs, rfl, hx, hxs⟩ := List.map_eq_cons_iff.1 h.symm
    obtain rfl := List.map_eq_nil_iff.1 hxs
    rw [List.map_singleton, ofRegexArguments]
    rcases hsource : x.literalText? with - | source <;>
    simp [bind, Except.bind, pure, Except.pure, literalRegex?, htext hx.symm, hsource,
      exists_literalRegex_iff]
  | pattern :: flags :: rest =>
    obtain ⟨x, xs, rfl, hx, hxs⟩ := List.map_eq_cons_iff.1 h.symm
    obtain ⟨y, ys, rfl, hy, hys⟩ := List.map_eq_cons_iff.1 hxs
    obtain rfl := List.map_eq_nil_iff.1 hys
    rcases hsource : x.literalText? with - | source <;>
    rcases hflags : y.literalText? with - | flags <;>
    simp [ofRegexArguments, bind, Except.bind, pure, Except.pure, literalRegex?, htext hx.symm,
      htext hy.symm, hsource, hflags, exists_literalRegex_iff]

theorem assemble_function_iff {rule : FunctionRule} {args : List SyntaxTree}
    (h : (args.take rule.reach).map ofTree = es.map .ok) :
    (rule.admits args.length ∧ (rule.assemble? es).isSome) ↔ SoundCall rule args := by
  have hlength : es.length = min rule.reach args.length := by
    simpa using (congrArg List.length h).symm
  rw [SoundCall]
  refine and_congr_right fun hadmits ↦ ?_
  cases rule with
  | color | vector => simp [FunctionRule.assemble?]
  | regExp =>
    simp only [FunctionRule.assemble?, Option.isSome_iff_exists, toOption_eq_some_iff, true_imp_iff]
    exact exists_ofRegexArguments_iff h
  | conversion missing op =>
    have : es.length ≤ 1 := hlength ▸ Nat.min_le_left 1 _
    rcases es with _ | ⟨e, _ | ⟨_, _⟩⟩
    · simp [FunctionRule.assemble?]
    · simp [FunctionRule.assemble?]
    · simp at this
  | className | unary | binary | ternary =>
    simp only [FunctionRule.admits, Arity.admits, beq_iff_eq] at hadmits
    simp only [FunctionRule.reach, hadmits, Nat.min_self] at hlength
    rcases es with _ | ⟨_, _ | ⟨_, _ | ⟨_, _ | _⟩⟩⟩ <;>
      simp [FunctionRule.assemble?] at hlength ⊢

theorem isSome_assemble_method {m : Method} {object : SyntaxTree} {args : List SyntaxTree}
    (h : (m.operands object args).map ofTree = es.map .ok) : (m.assemble? es).isSome := by
  have hlength : (m.operands object args).length = es.length := by
    simpa using congrArg List.length h
  rcases m with - | m
  · obtain ⟨x, rfl⟩ := List.length_eq_one_iff.1 hlength.symm
    rfl
  · cases args with
    | nil =>
      obtain rfl := List.length_eq_zero_iff.1 hlength.symm
      rfl
    | cons a args =>
      obtain ⟨x, y, rfl⟩ := List.length_eq_two.1 hlength.symm
      rfl

theorem isSome_assembleMember_iff {key : SyntaxTree} {computed : Bool}
    {member : MemberAccess → Expr → Expr}
    (hlength : (if computed then [key] else []).length = es.length) :
    (SyntaxTree.assembleMember? key computed member es).isSome ↔
      computed ∨ key.identifierName?.isSome := by
  cases computed with
  | false =>
    obtain rfl := List.length_eq_zero_iff.1 hlength.symm
    simp [SyntaxTree.assembleMember?]
  | true =>
    obtain ⟨x, rfl⟩ := List.length_eq_one_iff.1 hlength.symm
    simp [SyntaxTree.assembleMember?]

/-- What is consulted for a tree can be put together exactly if the tree is sound. -/
theorem isSome_assemble_iff (h : t.consulted.map ofTree = es.map .ok) :
    (t.assemble? es).isSome ↔ t.Sound := by
  have hlength : t.consulted.length = es.length := by simpa using congrArg List.length h
  cases t with
  | literal | array | compound => simp [SyntaxTree.assemble?, Sound]
  | identifier name =>
    simp only [SyntaxTree.assemble?, Option.isSome_iff_exists, toOption_eq_some_iff]
    exact exists_ofIdentifier_iff
  | unary operator operand =>
    obtain ⟨x, rfl⟩ := List.length_eq_one_iff.1 hlength.symm
    simp [SyntaxTree.assemble?, Sound]
  | binary operator left right | logical operator left right =>
    obtain ⟨x, y, rfl⟩ := List.length_eq_two.1 hlength.symm
    simp [SyntaxTree.assemble?, Sound]
  | conditional test consequent alternate =>
    obtain ⟨x, y, z, rfl⟩ := List.length_eq_three.1 hlength.symm
    simp [SyntaxTree.assemble?, Sound]
  | member object key computed =>
    rw [SyntaxTree.consulted, List.length_append] at hlength
    by_cases hfeature : object.isFeature
    · simp only [if_pos hfeature, List.length_nil, Nat.zero_add] at hlength
      simp only [SyntaxTree.assemble?, if_pos hfeature]
      exact isSome_assembleMember_iff hlength
    · cases es with
      | nil => simp [hfeature] at hlength
      | cons o ks =>
        rw [if_neg hfeature, List.length_singleton, List.length_cons, Nat.add_comm] at hlength
        simp only [SyntaxTree.assemble?, if_neg hfeature]
        exact isSome_assembleMember_iff (Nat.succ.inj hlength)
  | call callee args =>
    cases callee with
    | identifier name =>
      simp only [SyntaxTree.consulted] at h
      rcases hrule : FunctionRule.ofName? name with - | rule
      · simp [SyntaxTree.assemble?, Sound, hrule]
      · rw [hrule] at h
        simp only [SyntaxTree.assemble?, Sound, hrule, Option.bind_eq_bind, Option.bind_some,
          Option.some.injEq, exists_eq_left', ← assemble_function_iff h]
        split <;> simp [*]
    | member object key computed =>
      cases computed with
      | false =>
        simp only [SyntaxTree.consulted] at h
        rcases hmethod : Method.ofName? (key.identifierName?.getD "") with - | m
        · simp [SyntaxTree.assemble?, Sound, hmethod]
        · rw [hmethod] at h
          simp only [SyntaxTree.assemble?, Sound, hmethod, Option.bind_eq_bind, Option.bind_some,
            Option.some.injEq, exists_eq_left']
          split <;> simp_all [isSome_assemble_method h]
      | true => simp [SyntaxTree.assemble?, Sound]
    | _ => simp [SyntaxTree.assemble?, Sound]

theorem exists_map_eq_map_ok {ts : List SyntaxTree} (h : ∀ s ∈ ts, ∃ x, ofTree s = .ok x) :
    ∃ es : List Expr, ts.map ofTree = es.map .ok := by
  induction ts with
  | nil => exact ⟨[], rfl⟩
  | cons s ts ih =>
    obtain ⟨x, hx⟩ := h s List.mem_cons_self
    obtain ⟨xs, hxs⟩ := ih fun r hr ↦ h r (List.mem_cons_of_mem _ hr)
    exact ⟨x :: xs, by rw [List.map_cons, List.map_cons, hx, hxs]⟩

/-- A tree builds exactly if it is sound and its consulted trees build. -/
theorem exists_ofTree_iff :
    (∃ e, ofTree t = .ok e) ↔ t.Sound ∧ ∀ s ∈ t.consulted, ∃ x, ofTree s = .ok x := by
  constructor
  · rintro ⟨e, he⟩
    obtain ⟨es, hes, hassemble⟩ := ofTree_eq_ok_iff.1 he
    exact ⟨(isSome_assemble_iff hes).1 (Option.isSome_of_eq_some hassemble),
      fun s hs ↦ exists_ofTree_of_mem_consulted he hs⟩
  · rintro ⟨hsound, hconsulted⟩
    obtain ⟨es, hes⟩ := exists_map_eq_map_ok hconsulted
    obtain ⟨e, he⟩ := Option.isSome_iff_exists.1 ((isSome_assemble_iff hes).2 hsound)
    exact ⟨e, ofTree_eq_ok_iff.2 ⟨es, hes, he⟩⟩

/-- **A tree builds exactly if everything that is consulted for it is sound.** -/
theorem exists_ofTree_iff_forall_sound :
    (∃ e, ofTree t = .ok e) ↔ ∀ s, Consulted s t → s.Sound := by
  induction t using SyntaxTree.induction_consulted with
  | step t ih =>
    rw [exists_ofTree_iff, SyntaxTree.forall_consulted_iff]
    refine and_congr_right fun _ ↦ forall₂_congr fun s hs ↦ ih s hs

/-- What is consulted for an expression at any depth builds. -/
theorem exists_ofTree_of_consulted {s t : SyntaxTree} {e : Expr} (h : ofTree t = .ok e)
    (hs : Consulted s t) : ∃ x, ofTree s = .ok x := by
  induction hs generalizing e with
  | refl => exact ⟨e, h⟩
  | step hr _ ih =>
    obtain ⟨x, hx⟩ := exists_ofTree_of_mem_consulted h hr
    exact ih hx

/-- **The namespace is closed for what is consulted.** A tree builds exactly if everything that is
consulted for it is sound. Then its sub-expressions, at any depth, are the consulted ones, which
build as well, and those that a call leaves unread. -/
theorem ofTree_closed (t : SyntaxTree) :
    ((∃ e, ofTree t = .ok e) ↔ ∀ s, Consulted s t → s.Sound) ∧
      ∀ e, ofTree t = .ok e → ∀ r, Consulted r t →
        r.subexpressions = r.consulted ++ r.unread ∧ ∀ s ∈ r.consulted, ∃ x, ofTree s = .ok x := by
  refine ⟨exists_ofTree_iff_forall_sound, fun e he r hr ↦ ?_⟩
  obtain ⟨x, hx⟩ := exists_ofTree_of_consulted he hr
  obtain ⟨hsound, hconsulted⟩ := exists_ofTree_iff.1 ⟨x, hx⟩
  exact ⟨SyntaxTree.subexpressions_eq hsound, hconsulted⟩

/-- A search for nothing builds although its receiver does not. -/
theorem exists_ofTree_not_closed :
    ∃ (t s : SyntaxTree) (e : Expr), ofTree t = .ok e ∧ s ∈ t.subexpressions ∧
      ¬ ∃ x, ofTree s = .ok x := by
  -- `regExp(foo).test()`
  let receiver : SyntaxTree := .call (.identifier "regExp") [.identifier "foo"]
  refine ⟨.call (.member receiver (.identifier "test") false) [], receiver, .bool false, ?_,
    List.mem_cons_self, ?_⟩
  · with_unfolding_all rfl
  · have herror : ofTree receiver = .error (.undefinedIdentifier "foo") := by
      with_unfolding_all rfl
    rintro ⟨x, hx⟩
    rw [herror] at hx
    cases hx

end Expr

end FeatureStyle
