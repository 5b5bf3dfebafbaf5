import FeatureStyle.Proofs.Expr.Assembly

/-!
# Where the parts of an expression come from

Building puts nothing into an expression that has not been built from a tree, with one exception:
the name behind a dot, which becomes a string. So **everything within a built expression is built
from a consulted tree, or is the name of a member** (`Within.origin`).

`Traced` says what the tree of an expression has to be like. A property is made by a name with the
mark of placeholders, a number by a literal or by one of the numbers that have a name, and a colour
has as many arguments as its function takes.
-/

namespace FeatureStyle.Expr

open SyntaxTree (Consulted)
open SyntaxTree.Grammar (bind_eq_ok)

variable {t : SyntaxTree} {e : Expr} {es : List Expr}

/-! ### Parts -/

/-- What a conversion gives without an argument. -/
theorem missing_of_ofName {name : String} {missing : Expr} {op : UnaryOp}
    (h : FunctionRule.ofName? name = some (.conversion missing op)) :
    missing ∈ [.bool true, .bool false, .number 0, .string ""] := by
  have hfixed : FunctionRule.fixed? name ≠ some (.conversion missing op) := by
    unfold FunctionRule.fixed?
    split
    · nofun
    split
    · nofun
    split <;> nofun
  rw [FunctionRule.ofName?] at h
  split at h
  · cases h
  · cases h
  · next hmissing =>
    obtain ⟨rfl, rfl⟩ := FunctionRule.conversion.inj (Option.some.inj h)
    unfold conversion? at hmissing
    split at hmissing <;> cases hmissing <;> simp
  · exact absurd h hfixed

/-- A regular expression is compiled, or it has the arguments for parts. -/
theorem ofRegexArguments_cases (h : ofRegexArguments (es.map .ok) = .ok e) :
    (∃ p, e = .regex p) ∨ ∃ pattern flags, e = .regExp pattern flags ∧ e.parts ⊆ es := by
  have hliteral {source flags : String} (h : literalRegex source flags = .ok e) :
      ∃ p, e = .regex p := by
    rw [literalRegex] at h
    split at h <;> cases h
    exact ⟨_, rfl⟩
  match es with
  | [] => exact .inl (hliteral (show literalRegex "" "" = .ok e from h))
  | [pattern] =>
    obtain ⟨x, ⟨⟩, h⟩ := bind_eq_ok.1 h
    split at h
    · exact .inl (hliteral h)
    · cases h
      exact .inr ⟨_, _, rfl, List.Subset.refl _⟩
  | pattern :: flags :: rest =>
    obtain ⟨x, ⟨⟩, h⟩ := bind_eq_ok.1 h
    obtain ⟨y, ⟨⟩, h⟩ := bind_eq_ok.1 h
    split at h
    · exact .inl (hliteral h)
    · cases h
      exact .inr ⟨_, _, rfl, by simp [parts]⟩

theorem parts_of_assemble_function {name : String} {rule : FunctionRule}
    (hrule : FunctionRule.ofName? name = some rule) (h : rule.assemble? es = some e) :
    e.parts ⊆ es := by
  revert h
  fun_cases FunctionRule.assemble? rule es with
  | case1 fn | case2 size =>
    rintro ⟨⟩
    exact List.Subset.refl _
  | case3 missing op =>
    rintro ⟨⟩
    have := missing_of_ofName hrule
    simp only [List.mem_cons, List.not_mem_nil, or_false] at this
    rcases this with rfl | rfl | rfl | rfl <;> exact List.Subset.refl _
  | case6 =>
    intro h
    rcases ofRegexArguments_cases (toOption_eq_some_iff.1 h) with ⟨p, rfl⟩ | ⟨_, _, -, h⟩
    · exact List.nil_subset _
    · exact h
  | case4 | case5 | case7 | case8 | case9 =>
    rintro ⟨⟩
    exact List.Subset.refl _
  | case10 => nofun

theorem parts_of_ofLiteral (l : Literal) : (ofLiteral l).parts = [] := by
  cases l with
  | string s =>
    simp only [ofLiteral]
    split <;> rfl
  | _ => rfl

theorem parts_of_ofIdentifier {name : String} (h : ofIdentifier name = .ok e) : e.parts = [] := by
  unfold ofIdentifier at h
  split at h
  · cases h
    rfl
  split at h
  · cases h
    rfl
  split at h <;> cases h <;> rfl

theorem parts_of_assemble_method {m : Method} (h : m.assemble? es = some e) : e.parts ⊆ es := by
  revert h
  fun_cases Method.assemble? m es with
  | case1 | case3 =>
    rintro ⟨⟩
    exact List.Subset.refl _
  | case2 m =>
    rintro ⟨⟩
    cases m <;> exact List.Subset.refl _
  | case4 => nofun

/-- The key of a member is a part of it, behind the object if there is one. -/
theorem assembleMember_cases {key : SyntaxTree} {computed : Bool}
    {member : MemberAccess → Expr → Expr}
    (h : SyntaxTree.assembleMember? key computed member es = some e) :
    (∃ k, es = [k] ∧ e = member .brackets k) ∨
      computed = false ∧ es = [] ∧
        ∃ name, key = .identifier name ∧ e = member .dot (.string name) := by
  revert h
  fun_cases SyntaxTree.assembleMember? key computed member es with
  | case1 k =>
    rintro ⟨⟩
    exact .inl ⟨k, rfl, rfl⟩
  | case4 hdot =>
    cases key with
    | identifier name =>
      rintro ⟨⟩
      exact .inr ⟨by simpa using hdot, rfl, name, rfl, rfl⟩
    | _ => nofun
  | case2 | case3 | case5 => nofun

/-- The parts of an expression are those that it has been put together from, or the name behind a
dot. -/
theorem parts_of_assemble (h : t.assemble? es = some e) {p : Expr} (hp : p ∈ e.parts) :
    p ∈ es ∨ ∃ object name, t = .member object (.identifier name) false ∧ p = .string name := by
  revert h
  fun_cases SyntaxTree.assemble? t es with
  | case1 l =>
    rintro ⟨⟩
    rw [parts_of_ofLiteral] at hp
    cases hp
  | case2 name =>
    intro h
    rw [parts_of_ofIdentifier (toOption_eq_some_iff.1 h)] at hp
    cases hp
  | case3 | case5 =>
    intro h
    obtain ⟨op, -, rfl⟩ := Option.map_eq_some_iff.1 h
    exact .inl hp
  | case4 operator left right x y =>
    intro h
    obtain ⟨form, hform, rfl⟩ := Option.map_eq_some_iff.1 h
    unfold binaryForm? at hform
    split at hform <;> cases hform <;> exact .inl hp
  | case6 | case10 =>
    rintro ⟨⟩
    exact .inl hp
  | case7 object key computed =>
    intro h
    rcases assembleMember_cases h with ⟨k, rfl, rfl⟩ | ⟨rfl, rfl, name, rfl, rfl⟩
    · exact .inl hp
    · exact .inr ⟨_, name, rfl, List.mem_singleton.1 hp⟩
  | case8 object key computed _ o =>
    intro h
    rcases assembleMember_cases h with ⟨k, rfl, rfl⟩ | ⟨rfl, rfl, name, rfl, rfl⟩
    · exact .inl hp
    · rcases List.mem_cons.1 hp with rfl | hp
      · exact .inl List.mem_cons_self
      · exact .inr ⟨_, name, rfl, List.mem_singleton.1 hp⟩
  | case11 =>
    intro h
    obtain ⟨m, -, h⟩ := Option.bind_eq_some_iff.1 h
    split at h
    · exact .inl (parts_of_assemble_method h hp)
    · cases h
  | case12 =>
    intro h
    obtain ⟨rule, hrule, h⟩ := Option.bind_eq_some_iff.1 h
    split at h
    · exact .inl (parts_of_assemble_function hrule h hp)
    · cases h
  | case9 | case13 => nofun

/-! ### Trees of expressions -/

/-- The numbers that no literal is needed for. -/
def namedNumbers : List Float := [Numeric.nan, Numeric.infinity, pi, eulerNumber, 0]

/-- What the tree is like that an expression has been built from. -/
def Traced (t : SyntaxTree) : Expr → Prop
  | .property name =>
    ∃ identifier, t = .identifier identifier ∧ Source.isVariable identifier ∧
      name = Source.propertyName identifier
  | .number x => t = .literal (.number x) ∨ x ∈ namedNumbers
  | .color fn args => (colorArity fn).admits args.length
  | _ => True

theorem traced_of_ofLiteral (l : Literal) : Traced (.literal l) (ofLiteral l) := by
  cases l with
  | number x => exact .inl rfl
  | string s =>
    simp only [ofLiteral]
    split <;> trivial
  | _ => trivial

theorem traced_of_ofIdentifier {name : String} (h : ofIdentifier name = .ok e) :
    Traced (.identifier name) e := by
  unfold ofIdentifier at h
  split at h
  · next hvariable =>
    cases h
    exact ⟨name, rfl, hvariable, rfl⟩
  split at h
  · cases h
    trivial
  split at h <;> cases h <;> simp [Traced, namedNumbers]

theorem traced_of_assemble_method {m : Method} (h : m.assemble? es = some e) : Traced t e := by
  revert h
  fun_cases Method.assemble? m es with
  | case1 | case3 =>
    rintro ⟨⟩
    trivial
  | case2 m =>
    rintro ⟨⟩
    cases m <;> trivial
  | case4 => nofun

theorem traced_of_assemble_function {name : String} {rule : FunctionRule}
    {args : List SyntaxTree} (hrule : FunctionRule.ofName? name = some rule)
    (hadmits : rule.admits args.length) (hlength : (args.take rule.reach).length = es.length)
    (h : rule.assemble? es = some e) : Traced t e := by
  revert h
  fun_cases FunctionRule.assemble? rule es with
  | case1 fn =>
    rintro ⟨⟩
    have := FunctionRule.le_reach_of_admits hadmits nofun nofun
    rw [List.take_of_length_le this] at hlength
    rw [Traced, ← hlength]
    exact hadmits
  | case3 missing op =>
    rintro ⟨⟩
    have := missing_of_ofName hrule
    simp only [List.mem_cons, List.not_mem_nil, or_false] at this
    rcases this with rfl | rfl | rfl | rfl <;> simp [Traced, namedNumbers]
  | case6 =>
    intro h
    rcases ofRegexArguments_cases (toOption_eq_some_iff.1 h) with ⟨p, rfl⟩ | ⟨_, _, rfl, -⟩ <;>
      trivial
  | case2 | case4 | case5 | case7 | case8 | case9 =>
    rintro ⟨⟩
    trivial
  | case10 => nofun

/-- A built expression is made by a tree of its own kind. -/
theorem traced_of_ofTree (h : ofTree t = .ok e) : Traced t e := by
  obtain ⟨es, hes, h⟩ := ofTree_eq_ok_iff.1 h
  revert h
  fun_cases SyntaxTree.assemble? t es with
  | case1 l =>
    rintro ⟨⟩
    exact traced_of_ofLiteral l
  | case2 name =>
    intro h
    exact traced_of_ofIdentifier (toOption_eq_some_iff.1 h)
  | case3 | case5 =>
    intro h
    obtain ⟨op, -, rfl⟩ := Option.map_eq_some_iff.1 h
    trivial
  | case4 =>
    intro h
    obtain ⟨form, hform, rfl⟩ := Option.map_eq_some_iff.1 h
    unfold binaryForm? at hform
    split at hform <;> cases hform <;> trivial
  | case6 | case10 =>
    rintro ⟨⟩
    trivial
  | case7 | case8 =>
    intro h
    rcases assembleMember_cases h with ⟨k, rfl, rfl⟩ | ⟨rfl, rfl, name, rfl, rfl⟩ <;> trivial
  | case11 =>
    intro h
    obtain ⟨m, -, h⟩ := Option.bind_eq_some_iff.1 h
    split at h
    · exact traced_of_assemble_method h
    · cases h
  | case12 name args =>
    intro h
    obtain ⟨rule, hrule, h⟩ := Option.bind_eq_some_iff.1 h
    split at h
    · next hadmits =>
      simp only [SyntaxTree.consulted, hrule] at hes
      refine traced_of_assemble_function hrule hadmits ?_ h
      simpa using congrArg List.length hes
    · cases h
  | case9 | case13 =>
    intro h
    cases h

/-- **Everything within a built expression is built from a consulted tree, or is the name of a
member.** -/
theorem Within.origin {s : Expr} (hs : Within s e) (h : ofTree t = .ok e) :
    (∃ r, Consulted r t ∧ ofTree r = .ok s) ∨
      ∃ object name, Consulted (.member object (.identifier name) false) t ∧ s = .string name := by
  induction hs generalizing t with
  | refl => exact .inl ⟨t, .refl t, h⟩
  | @part p e hp hs ih =>
    obtain ⟨es, hes, hassemble⟩ := ofTree_eq_ok_iff.1 h
    rcases parts_of_assemble hassemble hp with hmem | ⟨object, name, rfl, rfl⟩
    · obtain ⟨r, hr, hbuilt⟩ := List.mem_map.1 (hes.symm ▸ List.mem_map_of_mem hmem)
      rcases ih hbuilt with ⟨r', hr', hs⟩ | ⟨object, name, hmember, hs⟩
      · exact .inl ⟨r', .step hr hr', hs⟩
      · exact .inr ⟨object, name, .step hr hmember, hs⟩
    · rcases hs with - | ⟨hnone, -⟩
      · exact .inr ⟨object, name, .refl _, rfl⟩
      · cases hnone

/-- Every colour within a built expression has as many arguments as its function takes. -/
theorem admits_of_within_tree (h : ofTree t = .ok e) {fn : ColorFn} {args : List Expr}
    (hs : Within (.color fn args) e) : (colorArity fn).admits args.length := by
  rcases hs.origin h with ⟨r, -, hr⟩ | ⟨_, _, -, hs⟩
  · exact traced_of_ofTree hr
  · cases hs

end FeatureStyle.Expr
