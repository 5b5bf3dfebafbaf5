import FeatureStyle.Expr.Build
import FeatureStyle.Proofs.Expr.Part
import FeatureStyle.Proofs.Token.Tokenize
import FeatureStyle.Proofs.Tree.Run

/-!
# How expressions are assembled from trees

Building an expression is done in two steps at every node of a tree. The node is looked up, which
says which of the trees below it are **consulted**, and what these build to is put together.

* `FunctionRule` is what is known about a function by its name: the numbers of arguments it can be
  called with, how many of them it looks at, and what it makes of those.
* `SyntaxTree.consulted` are the trees that are built for a node. They are its sub-expressions but
  for the arguments that a call does not look at, and for the receiver of a search for nothing.
* `SyntaxTree.assemble?` puts the expressions of the consulted trees together.

**A tree builds exactly if its consulted trees do and can be put together** (`ofTree_eq_ok_iff`).
Nothing below unfolds `ofTree`.
-/

namespace FeatureStyle

open SyntaxTree.Grammar (bind_eq_ok)

namespace Expr

variable {args : List Built} {e : Expr}

/-! ### Arguments -/

/-- Arguments are built together exactly if each of them is. -/
theorem sequenceArguments_eq_ok_iff {es : List Expr} :
    sequenceArguments args = .ok es ↔ args = es.map .ok := by
  induction args generalizing es with
  | nil =>
    cases es with
    | nil => exact iff_of_true rfl rfl
    | cons => exact iff_of_false nofun nofun
  | cons arg args ih =>
    rw [sequenceArguments, bind_eq_ok]
    constructor
    · rintro ⟨x, rfl, h⟩
      obtain ⟨xs, hxs, ⟨⟩⟩ := bind_eq_ok.1 h
      rw [ih.1 hxs]
      rfl
    · intro h
      obtain ⟨x, xs, rfl, rfl, rfl⟩ := List.map_eq_cons_iff.1 h.symm
      exact ⟨x, rfl, bind_eq_ok.2 ⟨xs, ih.2 rfl, rfl⟩⟩

/-- Trees side by side are built one by one. -/
theorem ofTrees_eq_map (ts : List SyntaxTree) : ofTrees ts = ts.map ofTree := by
  induction ts with
  | nil => rw [ofTrees, List.map_nil]
  | cons t ts ih => rw [ofTrees, List.map_cons, ih]

end Expr

/-! ### Functions -/

/-- What is known about a function by its name. -/
inductive FunctionRule
  | color (fn : ColorFn)
  | vector (size : VectorSize)
  /-- A conversion, with what it gives if it has no argument. -/
  | conversion (missing : Expr) (op : UnaryOp)
  | className
  | regExp
  | unary (op : UnaryOp)
  | binary (f : BinaryMath)
  | ternary (f : TernaryFn)

namespace FunctionRule

/-- The rule of a function with a fixed number of arguments. -/
def fixed? (name : String) : Option FunctionRule :=
  if name = "getExactClassName" then some className
  else if name = "regExp" then some regExp
  else
    match Expr.unaryFunction? name, BinaryMath.ofName? name, TernaryFn.ofName? name with
    | some op, _, _ => some (unary op)
    | none, some f, _ => some (binary f)
    | none, none, some f => some (ternary f)
    | none, none, none => none

/-- The rule of the function with the given name. -/
def ofName? (name : String) : Option FunctionRule :=
  match ColorFn.ofName? name, VectorSize.ofName? name, Expr.conversion? name with
  | some fn, _, _ => some (color fn)
  | none, some size, _ => some (vector size)
  | none, none, some (missing, op) => some (conversion missing op)
  | none, none, none => fixed? name

/-- Whether the function can be called with the given number of arguments. -/
def admits : FunctionRule → Nat → Bool
  | color fn, n => (Expr.colorArity fn).admits n
  | vector size, n => Arity.atLeastOne.admits n && decide (n ≤ size.count)
  | conversion _ _, _ | regExp, _ => true
  | className, n => Arity.none.admits n
  | unary _, n => Arity.one.admits n
  | binary _, n => Arity.two.admits n
  | ternary _, n => Arity.three.admits n

/-- The number of arguments that the function looks at, if it has so many. -/
def reach : FunctionRule → Nat
  | color _ | vector _ => 4
  | ternary _ => 3
  | regExp | binary _ => 2
  | conversion _ _ | unary _ => 1
  | className => 0

/-- Only conversions and regular expressions can be called with more arguments than they look at. -/
theorem le_reach_of_admits {rule : FunctionRule} {n : Nat} (h : rule.admits n)
    (hconversion : ∀ missing op, rule ≠ conversion missing op) (hregExp : rule ≠ regExp) :
    n ≤ rule.reach := by
  cases rule with
  | color fn =>
    rcases fn with - | - | - | - | - <;>
    simp [admits, Expr.colorArity, Arity.admits, reach] at h ⊢ <;> omega
  | vector size =>
    have hcount : size.count ≤ 4 := by cases size <;> decide
    exact Nat.le_trans (of_decide_eq_true (Bool.and_eq_true_iff.1 h).2) hcount
  | conversion missing op => exact absurd rfl (hconversion missing op)
  | regExp => exact absurd rfl hregExp
  | className | unary | binary | ternary =>
    simp only [admits, Arity.admits, beq_iff_eq] at h
    exact Nat.le_of_eq h

/-- What the function makes of the arguments that it looks at. -/
def assemble? : FunctionRule → List Expr → Option Expr
  | color fn, args => some (.color fn args)
  | vector size, args => some (.vector size args)
  | conversion missing _, [] => some missing
  | conversion _ op, [x] => some (.unary op x)
  | className, [] => some .className
  | regExp, args => (Expr.ofRegexArguments (args.map .ok)).toOption
  | unary op, [x] => some (.unary op x)
  | binary f, [x, y] => some (.binary (.math f) x y)
  | ternary f, [x, y, z] => some (.ternary f x y z)
  | _, _ => none

/-- What the function makes of arguments, if each is built that it looks at. -/
def Makes (rule : FunctionRule) (args : List Expr.Built) (e : Expr) : Prop :=
  rule.admits args.length ∧ ∃ es, args.take rule.reach = es.map .ok ∧ rule.assemble? es = some e

end FunctionRule

namespace Expr

variable {args : List Built} {e : Expr}

/-- What succeeds is there when the error is forgotten. -/
theorem toOption_eq_some_iff {ε α : Type} {x : Except ε α} {a : α} :
    x.toOption = some a ↔ x = .ok a := by
  cases x <;> simp [Except.toOption]

/-- What is given is the only thing that is there. -/
theorem exists_some_eq {α : Type} {a : α} {P : α → Prop} :
    (∃ b, some a = some b ∧ P b) ↔ P a := by
  simp only [Option.some.injEq, exists_eq_left']

/-- A regular expression only looks at its first two arguments. -/
theorem ofRegexArguments_eq_ok_iff :
    ofRegexArguments args = .ok e ↔
      ∃ es : List Expr, args.take 2 = es.map .ok ∧ ofRegexArguments (es.map .ok) = .ok e := by
  match args with
  | [] =>
    constructor
    · exact fun h ↦ ⟨[], rfl, h⟩
    · rintro ⟨es, hes, h⟩
      obtain rfl := List.map_eq_nil_iff.1 hes.symm
      exact h
  | [pattern] =>
    constructor
    · intro h
      obtain ⟨x, rfl, -⟩ := bind_eq_ok.1 h
      exact ⟨[x], rfl, h⟩
    · rintro ⟨es, hes, h⟩
      obtain ⟨x, xs, rfl, rfl, hxs⟩ := List.map_eq_cons_iff.1 hes.symm
      obtain rfl := List.map_eq_nil_iff.1 hxs
      exact h
  | pattern :: flags :: rest =>
    constructor
    · intro h
      obtain ⟨x, rfl, hflags⟩ := bind_eq_ok.1 h
      obtain ⟨y, rfl, -⟩ := bind_eq_ok.1 hflags
      exact ⟨[x, y], rfl, h⟩
    · rintro ⟨es, hes, h⟩
      obtain ⟨x, xs, rfl, rfl, hxs⟩ := List.map_eq_cons_iff.1 hes.symm
      obtain ⟨y, ys, rfl, rfl, hys⟩ := List.map_eq_cons_iff.1 hxs
      obtain rfl := List.map_eq_nil_iff.1 hys
      exact h

/-- The first of several arguments can be looked at by itself. -/
theorem exists_cons_eq_map {a : Built} {P : List Expr → Prop} :
    (∃ es : List Expr, a :: args = es.map .ok ∧ P es) ↔
      ∃ x, a = .ok x ∧ ∃ es : List Expr, args = es.map .ok ∧ P (x :: es) := by
  constructor
  · rintro ⟨es, hes, h⟩
    obtain ⟨x, xs, rfl, rfl, rfl⟩ := List.map_eq_cons_iff.1 hes.symm
    exact ⟨x, rfl, xs, rfl, h⟩
  · rintro ⟨x, rfl, xs, rfl, h⟩
    exact ⟨x :: xs, rfl, h⟩

/-! Every form of call looks at as many arguments as its rule says, or fails. -/

/-- A call that makes a colour looks at all of its arguments. -/
theorem ofColorCall_eq_ok_iff {fn : ColorFn} :
    ofColorCall fn args = .ok e ↔ (FunctionRule.color fn).Makes args e := by
  rw [ofColorCall, FunctionRule.Makes, FunctionRule.admits, FunctionRule.reach]
  split
  · next h =>
    have hlength : args.length ≤ 4 :=
      FunctionRule.le_reach_of_admits (show (FunctionRule.color fn).admits _ from h) nofun nofun
    simp only [h, true_and, List.take_of_length_le hlength, map_eq_ok, sequenceArguments_eq_ok_iff,
      FunctionRule.assemble?, Option.some.injEq]
  · next h => exact iff_of_false nofun fun h' ↦ h h'.1

/-- So does one that makes a vector, of which there may be fewer than components. -/
theorem ofVectorCall_eq_ok_iff {size : VectorSize} :
    ofVectorCall size args = .ok e ↔ (FunctionRule.vector size).Makes args e := by
  rw [ofVectorCall, FunctionRule.Makes, FunctionRule.admits, FunctionRule.reach]
  split
  · next h =>
    obtain rfl := List.isEmpty_iff.1 h
    exact iff_of_false nofun fun h' ↦ absurd h'.1 (by simp [Arity.admits])
  · next hempty =>
    split
    · next h =>
      exact iff_of_false nofun fun h' ↦ absurd h'.1 (by simp [Nat.not_le.2 h])
    · next h =>
      have hpos : 1 ≤ args.length := by
        cases args with
        | nil => exact absurd rfl hempty
        | cons => simp
      have hadmits : (FunctionRule.vector size).admits args.length := by
        simp [FunctionRule.admits, Arity.admits, hpos, Nat.le_of_not_lt h]
      have hlength : args.length ≤ 4 := FunctionRule.le_reach_of_admits hadmits nofun nofun
      simp only [Arity.admits, hpos, Nat.le_of_not_lt h, decide_true, Bool.and_self, true_and,
        List.take_of_length_le hlength, map_eq_ok, sequenceArguments_eq_ok_iff,
        FunctionRule.assemble?, Option.some.injEq]

/-- A conversion takes any number of arguments and looks at the first one. -/
theorem makes_conversion_iff {missing : Expr} {op : UnaryOp} :
    (FunctionRule.conversion missing op).Makes args e ↔
      (match args with
        | [] => .ok missing
        | a :: _ => do return .unary op (← a) : Built) = .ok e := by
  rw [FunctionRule.Makes, FunctionRule.admits, FunctionRule.reach]
  match args with
  | [] => simp [FunctionRule.assemble?]
  | a :: _ => simp [exists_cons_eq_map, Functor.map, map_eq_ok, FunctionRule.assemble?]

/-- The class name takes none. -/
theorem makes_className_iff {error : CompileError} :
    FunctionRule.className.Makes args e ↔
      (match args with
        | [] => .ok .className
        | _ => .error error : Built) = .ok e := by
  rw [FunctionRule.Makes, FunctionRule.admits, FunctionRule.reach]
  match args with
  | [] => simp [FunctionRule.assemble?, Arity.admits]
  | _ :: _ => simp [Arity.admits]

/-- A function of one number takes one. -/
theorem makes_unary_iff {op : UnaryOp} {error : CompileError} :
    (FunctionRule.unary op).Makes args e ↔
      (match args with
        | [a] => do return .unary op (← a)
        | _ => .error error : Built) = .ok e := by
  rw [FunctionRule.Makes, FunctionRule.admits, FunctionRule.reach]
  match args with
  | [] | _ :: _ :: _ => simp [Arity.admits]
  | [a] => simp [exists_cons_eq_map, Functor.map, map_eq_ok, FunctionRule.assemble?, Arity.admits]

/-- A function of two numbers takes two. -/
theorem makes_binary_iff {f : BinaryMath} {error : CompileError} :
    (FunctionRule.binary f).Makes args e ↔
      (match args with
        | [a, b] => do return .binary (.math f) (← a) (← b)
        | _ => .error error : Built) = .ok e := by
  rw [FunctionRule.Makes, FunctionRule.admits, FunctionRule.reach]
  match args with
  | [] | [_] | _ :: _ :: _ :: _ => simp [Arity.admits]
  | [a, b] =>
    simp [exists_cons_eq_map, bind_eq_ok, Functor.map, map_eq_ok, FunctionRule.assemble?,
      Arity.admits]

/-- A function of three numbers takes three. -/
theorem makes_ternary_iff {f : TernaryFn} {error : CompileError} :
    (FunctionRule.ternary f).Makes args e ↔
      (match args with
        | [a, b, c] => do return .ternary f (← a) (← b) (← c)
        | _ => .error error : Built) = .ok e := by
  rw [FunctionRule.Makes, FunctionRule.admits, FunctionRule.reach]
  match args with
  | [] | [_] | [_, _] | _ :: _ :: _ :: _ :: _ => simp [Arity.admits]
  | [a, b, c] =>
    simp [exists_cons_eq_map, bind_eq_ok, Functor.map, map_eq_ok, FunctionRule.assemble?,
      Arity.admits]

/-- A regular expression looks at a pattern and at flags. -/
theorem makes_regExp_iff :
    FunctionRule.regExp.Makes args e ↔ ofRegexArguments args = .ok e := by
  simp only [FunctionRule.Makes, FunctionRule.admits, FunctionRule.reach, FunctionRule.assemble?,
    toOption_eq_some_iff, true_and]
  exact ofRegexArguments_eq_ok_iff.symm

/-- A function with a fixed number of arguments is called by its rule. -/
theorem ofFixedCall_eq_ok_iff {name : String} :
    ofFixedCall name args = .ok e ↔
      ∃ rule, FunctionRule.fixed? name = some rule ∧ rule.Makes args e := by
  unfold ofFixedCall FunctionRule.fixed?
  by_cases hclass : name = "getExactClassName"
  · rw [if_pos hclass, if_pos hclass, exists_some_eq]
    exact makes_className_iff.symm
  rw [if_neg hclass, if_neg hclass]
  by_cases hregExp : name = "regExp"
  · rw [if_pos hregExp, if_pos hregExp, exists_some_eq, makes_regExp_iff]
  rw [if_neg hregExp, if_neg hregExp]
  rcases unaryFunction? name with - | op
  · rcases BinaryMath.ofName? name with - | f
    · rcases TernaryFn.ofName? name with - | f
      · exact iff_of_false nofun nofun
      · rw [exists_some_eq]
        exact makes_ternary_iff.symm
    · rw [exists_some_eq]
      exact makes_binary_iff.symm
  · rw [exists_some_eq]
    exact makes_unary_iff.symm

/-- A function is called by its rule. -/
theorem ofFunctionCall_eq_ok_iff {name : String} :
    ofFunctionCall name args = .ok e ↔
      ∃ rule, FunctionRule.ofName? name = some rule ∧ rule.Makes args e := by
  rw [ofFunctionCall, FunctionRule.ofName?]
  rcases ColorFn.ofName? name with - | fn
  · rcases VectorSize.ofName? name with - | size
    · rcases conversion? name with - | ⟨missing, op⟩
      · exact ofFixedCall_eq_ok_iff
      · rw [exists_some_eq]
        exact makes_conversion_iff.symm
    · rw [exists_some_eq, ofVectorCall_eq_ok_iff]
  · rw [exists_some_eq, ofColorCall_eq_ok_iff]

end Expr

/-! ### Methods -/

namespace Method

/-- Whether the method can only be called on a regular expression. -/
def requiresRegex : Method → Bool
  | toString => false
  | search _ => true

/-- What the method looks at. A search for nothing does not look at the object either. -/
def operands {α : Type} : Method → α → List α → List α
  | toString, object, _ => [object]
  | search _, _, [] => []
  | search _, object, a :: _ => [object, a]

/-- What the method makes of what it looks at. -/
def assemble? : Method → List Expr → Option Expr
  | toString, [x] => some (.call .toString x none)
  | search m, [] => some (Expr.searchOfNothing m)
  | search m, [x, a] => some (.call (.search m) x (some a))
  | _, _ => none

/-- What a method looks at does not depend on what it is done to. -/
theorem map_operands {α β : Type} (f : α → β) (m : Method) (object : α) (args : List α) :
    (m.operands object args).map f = m.operands (f object) (args.map f) := by
  rcases m with - | m
  · rfl
  · cases args <;> rfl

/-- A method looks at its object and at its arguments only. -/
theorem mem_of_mem_operands {α : Type} {m : Method} {object a : α} {args : List α}
    (h : a ∈ m.operands object args) : a = object ∨ a ∈ args := by
  rcases m with - | m
  · exact .inl (List.mem_singleton.1 h)
  · cases args with
    | nil => cases h
    | cons b rest =>
      simp only [operands, List.mem_cons, List.not_mem_nil, or_false] at h ⊢
      exact h.imp_right .inl

end Method

/-- A method is called on a regular expression, if it requires one. -/
theorem Expr.ofMethodCall_eq_ok_iff {name : String} {isRegex : Bool} {object : Built}
    {args : List Built} {e : Expr} :
    ofMethodCall name isRegex object args = .ok e ↔
      ∃ m, Method.ofName? name = some m ∧ (m.requiresRegex → isRegex) ∧
        ∃ es, m.operands object args = es.map .ok ∧ m.assemble? es = some e := by
  rw [ofMethodCall]
  rcases Method.ofName? name with - | m | m
  · exact iff_of_false nofun nofun
  · rw [exists_some_eq]
    simp [Method.requiresRegex, Method.operands, Method.assemble?, exists_cons_eq_map, Functor.map,
      map_eq_ok]
  · rw [exists_some_eq]
    rcases isRegex with - | -
    · simp [Method.requiresRegex]
    · rcases args with - | ⟨a, rest⟩
      · simp [Method.requiresRegex, Method.operands, Method.assemble?]
      · simp [Method.requiresRegex, Method.operands, Method.assemble?, exists_cons_eq_map,
          bind_eq_ok, Functor.map, map_eq_ok]

/-! ### Trees -/

namespace SyntaxTree

/-- Whether the tree is the name of the feature. -/
def isFeature (t : SyntaxTree) : Bool := t.identifierName? == some "feature"

/-- The trees that are built for a tree. -/
def consulted : SyntaxTree → List SyntaxTree
  | .unary _ operand => [operand]
  | .binary _ left right | .logical _ left right => [left, right]
  | .conditional test consequent alternate => [test, consequent, alternate]
  | .member object key computed =>
    (if object.isFeature then [] else [object]) ++ (if computed then [key] else [])
  | .array items => items
  | .call (.member object key false) args =>
    match Method.ofName? (key.identifierName?.getD "") with
    | some m => m.operands object args
    | none => []
  | .call (.identifier name) args =>
    match FunctionRule.ofName? name with
    | some rule => args.take rule.reach
    | none => []
  | _ => []

/-- The member of an object; there is no object if it is the feature. -/
def assembleMember? (key : SyntaxTree) (computed : Bool) (member : MemberAccess → Expr → Expr) :
    List Expr → Option Expr
  | [k] => if computed then some (member .brackets k) else none
  | [] => if computed then none else key.identifierName?.map fun name ↦ member .dot (.string name)
  | _ => none

/-- What a tree makes of the expressions of its consulted trees. -/
def assemble? : SyntaxTree → List Expr → Option Expr
  | .literal l, _ => some (Expr.ofLiteral l)
  | .identifier name, _ => (Expr.ofIdentifier name).toOption
  | .unary operator _, [x] => (UnaryOp.ofSymbol? operator).map fun op ↦ .unary op x
  | .binary operator _ _, [x, y] => (Expr.binaryForm? operator).map fun form ↦ form x y
  | .logical operator _ _, [x, y] => (LogicalOp.ofSymbol? operator).map fun op ↦ .logical op x y
  | .conditional _ _ _, [x, y, z] => some (.conditional x y z)
  | .member object key computed, es =>
    if object.isFeature then assembleMember? key computed .featureMember es
    else
      match es with
      | o :: ks => assembleMember? key computed (fun access k ↦ .member access o k) ks
      | [] => none
  | .array _, es => some (.array es)
  | .call (.member object key false) _, es => do
    let m ← Method.ofName? (key.identifierName?.getD "")
    if m.requiresRegex → Expr.isRegexCall object then m.assemble? es else none
  | .call (.identifier name) args, es => do
    let rule ← FunctionRule.ofName? name
    if rule.admits args.length then rule.assemble? es else none
  | _, _ => none

end SyntaxTree

namespace Expr

/-- A member, when it is known what it is a member of. -/
def ofMember (key : SyntaxTree) (computed : Bool) (member : MemberAccess → Expr → Expr) : Built :=
  if computed then (ofTree key).map (member .brackets)
  else
    match key.identifierName? with
    | some name => .ok (member .dot (.string name))
    | none => .error (.unexpectedOperator ".")

variable {object key : SyntaxTree} {computed : Bool}

/-- The feature is not built, every other object is. -/
theorem ofTree_member :
    ofTree (.member object key computed) =
      if object.isFeature then ofMember key computed .featureMember
      else ofTree object >>= fun o ↦ ofMember key computed fun access k ↦ .member access o k := by
  have hmember (member : MemberAccess → Expr → Expr) :
      (if computed = true then (do return member .brackets (← ofTree key) : Built)
        else
          match key.identifierName? with
          | some name => return member .dot (.string name)
          | none => .error (.unexpectedOperator ".")) = ofMember key computed member := by
    rw [ofMember]
    cases ofTree key <;> rfl
  rw [ofTree]
  split
  · next h =>
    rw [if_pos (by rw [SyntaxTree.isFeature, h]; rfl)]
    exact hmember .featureMember
  · next h =>
    rw [if_neg (by simpa [SyntaxTree.isFeature] using h)]
    cases ofTree object with
    | error => rfl
    | ok o => exact hmember fun access k ↦ .member access o k

/-- **A member builds exactly if its consulted trees do**: the name behind a dot is none of them. -/
theorem ofMember_eq_ok_iff {member : MemberAccess → Expr → Expr} :
    ofMember key computed member = .ok e ↔
      ∃ es, (if computed then [key] else []).map ofTree = es.map .ok ∧
        SyntaxTree.assembleMember? key computed member es = some e := by
  rw [ofMember]
  rcases computed with - | -
  · rcases h : key.identifierName? with - | name <;> simp [SyntaxTree.assembleMember?, h]
  · simp [SyntaxTree.assembleMember?, exists_cons_eq_map, map_eq_ok]

/-- **A tree builds exactly if its consulted trees do and can be put together.** -/
theorem ofTree_eq_ok_iff {t : SyntaxTree} {e : Expr} :
    ofTree t = .ok e ↔ ∃ es, t.consulted.map ofTree = es.map .ok ∧ t.assemble? es = some e := by
  cases t with
  | literal l => simp [ofTree, SyntaxTree.consulted, SyntaxTree.assemble?]
  | identifier name =>
    simp [ofTree, SyntaxTree.consulted, SyntaxTree.assemble?, toOption_eq_some_iff]
  | unary operator operand =>
    rw [ofTree]
    rcases h : UnaryOp.ofSymbol? operator with - | op <;>
    simp [SyntaxTree.consulted, SyntaxTree.assemble?, exists_cons_eq_map, Functor.map, map_eq_ok, h]
  | binary operator left right =>
    rw [ofTree]
    rcases h : binaryForm? operator with - | form <;>
    simp [SyntaxTree.consulted, SyntaxTree.assemble?, exists_cons_eq_map, bind_eq_ok, Functor.map,
      map_eq_ok, h]
  | logical operator left right =>
    rw [ofTree]
    rcases h : LogicalOp.ofSymbol? operator with - | op <;>
    simp [SyntaxTree.consulted, SyntaxTree.assemble?, exists_cons_eq_map, bind_eq_ok, Functor.map,
      map_eq_ok, h]
  | conditional test consequent alternate =>
    simp [ofTree, SyntaxTree.consulted, SyntaxTree.assemble?, exists_cons_eq_map, bind_eq_ok,
      Functor.map, map_eq_ok]
  | member object key computed =>
    rw [ofTree_member, SyntaxTree.consulted]
    simp only [SyntaxTree.assemble?]
    by_cases hfeature : object.isFeature
    · simp only [if_pos hfeature, List.nil_append]
      exact ofMember_eq_ok_iff
    · simp only [if_neg hfeature, List.singleton_append, List.map_cons, exists_cons_eq_map,
        bind_eq_ok, ofMember_eq_ok_iff]
  | array items =>
    simp [ofTree, SyntaxTree.consulted, SyntaxTree.assemble?, ofTrees_eq_map, Functor.map,
      map_eq_ok, sequenceArguments_eq_ok_iff]
  | call callee args =>
    cases callee with
    | identifier name =>
      rw [ofTree, ofTrees_eq_map, ofFunctionCall_eq_ok_iff, SyntaxTree.consulted]
      rcases h : FunctionRule.ofName? name with - | rule
      · simp [SyntaxTree.assemble?, h]
      · simp only [SyntaxTree.assemble?, h, FunctionRule.Makes, exists_some_eq, List.length_map,
          List.map_take, Option.bind_eq_bind, Option.bind_some, Option.ite_none_right_eq_some]
        exact ⟨fun ⟨harity, es, hes, h⟩ ↦ ⟨es, hes, harity, h⟩,
          fun ⟨es, hes, harity, h⟩ ↦ ⟨harity, es, hes, h⟩⟩
    | member object key computed =>
      cases computed with
      | false =>
        rw [ofTree, ofTrees_eq_map, ofMethodCall_eq_ok_iff, SyntaxTree.consulted]
        rcases h : Method.ofName? (key.identifierName?.getD "") with - | m
        · simp [SyntaxTree.assemble?, h]
        · simp only [SyntaxTree.assemble?, h, exists_some_eq, Method.map_operands,
            Option.bind_eq_bind, Option.bind_some, Option.ite_none_right_eq_some]
          exact ⟨fun ⟨hregex, es, hes, h⟩ ↦ ⟨es, hes, hregex, h⟩,
            fun ⟨es, hes, hregex, h⟩ ↦ ⟨hregex, es, hes, h⟩⟩
      | true => simp [ofTree, SyntaxTree.consulted, SyntaxTree.assemble?]
    | _ => simp [ofTree, SyntaxTree.consulted, SyntaxTree.assemble?]
  | compound items => simp [ofTree, SyntaxTree.consulted, SyntaxTree.assemble?]

/-- What is consulted for an expression builds. -/
theorem exists_ofTree_of_mem_consulted {s t : SyntaxTree} {e : Expr} (h : ofTree t = .ok e)
    (hs : s ∈ t.consulted) : ∃ x, ofTree s = .ok x := by
  obtain ⟨es, hes, -⟩ := ofTree_eq_ok_iff.1 h
  obtain ⟨x, -, hx⟩ := List.mem_map.1 (hes ▸ List.mem_map_of_mem hs)
  exact ⟨x, hx.symm⟩

end Expr

/-! ### Everything that is consulted -/

namespace SyntaxTree

/-- A tree is the other one or is built on the way to it. -/
inductive Consulted : SyntaxTree → SyntaxTree → Prop
  | refl (t : SyntaxTree) : Consulted t t
  | step {s r t : SyntaxTree} (hr : r ∈ t.consulted) (h : Consulted s r) : Consulted s t

/-- The trees that are consulted are below the node. -/
theorem sizeOf_lt_of_mem_consulted {s t : SyntaxTree} (h : s ∈ t.consulted) :
    sizeOf s < sizeOf t := by
  revert h
  fun_cases consulted t with
  | case1 operator operand =>
    rw [List.mem_singleton]
    rintro rfl
    simp +arith
  | case2 operator left right | case3 operator left right =>
    simp only [List.mem_cons, List.not_mem_nil, or_false]
    rintro (rfl | rfl) <;> simp +arith
  | case4 test consequent alternate =>
    simp only [List.mem_cons, List.not_mem_nil, or_false]
    rintro (rfl | rfl | rfl) <;> simp +arith
  | case5 object key computed =>
    rw [List.mem_append]
    rintro (h | h) <;> split at h <;> simp_all +arith
  | case6 items =>
    intro h
    have := List.sizeOf_lt_of_mem h
    simp only [array.sizeOf_spec]
    omega
  | case7 object key args m =>
    intro h
    rcases Method.mem_of_mem_operands h with rfl | h
    · simp +arith
    · have := List.sizeOf_lt_of_mem h
      simp only [call.sizeOf_spec]
      omega
  | case9 name args rule =>
    intro h
    have := List.sizeOf_lt_of_mem (List.mem_of_mem_take h)
    simp only [call.sizeOf_spec]
    omega
  | _ => nofun

/-- Induction over what is consulted. -/
theorem induction_consulted {motive : SyntaxTree → Prop}
    (step : ∀ t, (∀ s ∈ t.consulted, motive s) → motive t) (t : SyntaxTree) : motive t :=
  step t fun s _ ↦ induction_consulted step s
termination_by sizeOf t
decreasing_by exact sizeOf_lt_of_mem_consulted ‹_›

/-- What holds of everything that is consulted. -/
theorem forall_consulted_iff {P : SyntaxTree → Prop} {t : SyntaxTree} :
    (∀ s, Consulted s t → P s) ↔ P t ∧ ∀ r ∈ t.consulted, ∀ s, Consulted s r → P s := by
  constructor
  · intro h
    exact ⟨h t (.refl t), fun r hr s hs ↦ h s (.step hr hs)⟩
  · rintro ⟨hself, hbelow⟩ s (_ | ⟨hr, hs⟩)
    · exact hself
    · exact hbelow _ hr s hs

end SyntaxTree

end FeatureStyle
