import FeatureStyle.Proofs.Eval.Transparency
import FeatureStyle.Proofs.Shader.Formula
import FeatureStyle.Proofs.Shader.Reading

/-!
# Evaluation and shader code agree on formulas

The shader code of a formula is read back as the term that one expects (`reads_text`), and the value
of that term is the exact value of the formula, as long as the formula is `Defined` (`value?_term`).

Being defined is about what is evaluated and nothing else: no divisor is zero, and no `%` has a
quotient that is negative without being whole. The second condition is there because `%` becomes
`mod`, which floors where evaluation truncates; it is exactly where the two agree
(`Numeric.rem_eq_floorRem_iff`).
-/

namespace FeatureStyle

open Numeric (exactValue? wholeValue?_eq_some_iff)

/-! ### Operators in shader code -/

namespace Glsl

/-- The operator of an order. -/
def Operator.ofOrder : OrderOp → Operator
  | .less => less
  | .atMost => atMost
  | .greater => greater
  | .atLeast => atLeast

/-- The operator of an equality. There is only one kind of equality. -/
def Operator.ofEquality : Equality → Operator
  | .strictEq | .looseEq => equal
  | .strictNe | .looseNe => notEqual

/-- The term of an arithmetic operator. -/
def Term.ofArithmetic : ArithmeticOp → Term → Term → Term
  | .add => binary .add
  | .sub => binary .sub
  | .mul => binary .mul
  | .div => binary .div
  | .rem => mod

variable {n : Nat} {left right : String} {t u : Term}

/-- Every arithmetic operator is read back from its code, the remainder from a call of `mod`. -/
theorem reads_arithmetic (op : ArithmeticOp) (hl : Reads n left.toList t)
    (hr : Reads n right.toList u) :
    Reads (n + 1) (Shader.binaryText (.arithmetic op) left right).toList
      (.ofArithmetic op t u) := by
  cases op with
  | add => exact reads_binary .add hl hr
  | sub => exact reads_binary .sub hl hr
  | mul => exact reads_binary .mul hl hr
  | div => exact reads_binary .div hl hr
  | rem => exact reads_mod hl hr

/-- An order is written as a group with its symbol. -/
theorem binaryText_order (op : OrderOp) (left right : String) :
    Shader.binaryText (.order op) left right =
      s!"({left} {(Operator.ofOrder op).symbol} {right})" := by
  cases op <;> rfl

/-- So is an equality, strict or not. -/
theorem binaryText_equality (op : Equality) (left right : String) :
    Shader.binaryText op.toBinaryOp left right =
      s!"({left} {(Operator.ofEquality op).symbol} {right})" := by
  cases op with
  | looseEq | looseNe => rfl
  | strictEq =>
    show "(" ++ left ++ (" " ++ "==" ++ " ") ++ right ++ ")" =
      "(" ++ left ++ " " ++ "==" ++ " " ++ right ++ ")"
    simp only [String.append_assoc]
  | strictNe =>
    show "(" ++ left ++ (" " ++ "!=" ++ " ") ++ right ++ ")" =
      "(" ++ left ++ " " ++ "!=" ++ " " ++ right ++ ")"
    simp only [String.append_assoc]

/-! ### Lengths -/

/-- A whole number has at least a decimal point and a digit behind it. -/
theorem two_le_length_wholeText (negative : Bool) (m : ℕ) :
    2 ≤ (Numeric.wholeText negative m).length := by
  have h : ".0".length = 2 := rfl
  simp only [Numeric.wholeText, String.length_append, h]
  omega

/-- A group is longer than its operands together. -/
theorem length_group (left symbol right : String) :
    left.length + right.length < s!"({left} {symbol} {right})".length := by
  show _ < ("(" ++ left ++ " " ++ symbol ++ " " ++ right ++ ")").length
  have h : "(".length = 1 := rfl
  simp only [String.length_append, h]
  omega

/-- So is a call. -/
theorem length_callText (name left right : String) :
    left.length + right.length < (Shader.callText name [left, right]).length := by
  show _ < (name ++ "(" ++ (left ++ ", " ++ right) ++ ")").length
  have h : "(".length = 1 := rfl
  simp only [String.length_append, h]
  omega

/-- So is what an arithmetic operator is written as. -/
theorem length_arithmetic (op : ArithmeticOp) (left right : String) :
    left.length + right.length < (Shader.binaryText (.arithmetic op) left right).length := by
  cases op with
  | rem => exact length_callText _ _ _
  | add | sub | mul | div => exact length_group _ _ _

/-- And so is a conditional. Reading has as many steps as there are characters. -/
theorem length_choose (test left right : String) :
    test.length + left.length + right.length < s!"({test} ? {left} : {right})".length := by
  show _ < ("(" ++ test ++ " ? " ++ left ++ " : " ++ right ++ ")").length
  have h : "(".length = 1 := rfl
  simp only [String.length_append, h]
  omega

end Glsl

namespace Formula

variable {k : Kind}

/-! ### Reading the shader code of a formula -/

/-- The term that the shader code of a formula is. -/
def term (lead : String) : {k : Kind} → Formula k → Glsl.Term
  | _, literal x n _ _ => .ofWhole (Numeric.isNegative x.toModel.unpack) n.natAbs
  | _, property name => .input (lead ++ name)
  | _, arithmetic op left right => .ofArithmetic op (left.term lead) (right.term lead)
  | _, order op left right => .binary (.ofOrder op) (left.term lead) (right.term lead)
  | _, equality op left right => .binary (.ofEquality op) (left.term lead) (right.term lead)
  | _, conditional test consequent alternate =>
    .choose (test.term lead) (consequent.term lead) (alternate.term lead)

/-- **The shader code of a formula is read as its term.** -/
theorem reads_text {lead : String} (f : Formula k)
    (hf : ∀ name ∈ f.names, isShaderIdentifier (lead ++ name)) {n : Nat}
    (hn : (f.text lead).length < n) : Glsl.Reads n (f.text lead).toList (f.term lead) := by
  -- Every form has a character more than its parts, so a bound above the length is enough.
  induction f generalizing n with
  | literal x m hx hm =>
    have htext : (literal x m hx hm).text lead = _ :=
      Numeric.constantText_of_wholeValue? (wholeValue?_eq_some_iff.2 hx) (hm.trans (by decide))
    rw [htext] at hn ⊢
    have h := Glsl.two_le_length_wholeText (Numeric.isNegative x.toModel.unpack) m.natAbs
    obtain ⟨n, rfl⟩ := Nat.exists_eq_add_of_le' (h.trans hn.le)
    exact Glsl.reads_wholeText n _ _
  | property name =>
    obtain ⟨n, rfl⟩ := Nat.exists_eq_add_one_of_ne_zero (Nat.ne_zero_of_lt hn)
    exact Glsl.reads_input n (hf name (List.mem_singleton_self name))
  | arithmetic op left right ihl ihr =>
    rw [names, List.forall_mem_append] at hf
    obtain ⟨n, rfl⟩ := Nat.exists_eq_add_one_of_ne_zero (Nat.ne_zero_of_lt hn)
    have h := Glsl.length_arithmetic op (left.text lead) (right.text lead)
    rw [text] at hn
    exact Glsl.reads_arithmetic op (ihl hf.1 (by omega)) (ihr hf.2 (by omega))
  | order op left right ihl ihr =>
    rw [names, List.forall_mem_append] at hf
    obtain ⟨n, rfl⟩ := Nat.exists_eq_add_one_of_ne_zero (Nat.ne_zero_of_lt hn)
    rw [text, Glsl.binaryText_order] at hn ⊢
    have h := Glsl.length_group (left.text lead) (Glsl.Operator.ofOrder op).symbol (right.text lead)
    exact Glsl.reads_binary _ (ihl hf.1 (by omega)) (ihr hf.2 (by omega))
  | equality op left right ihl ihr =>
    rw [names, List.forall_mem_append] at hf
    obtain ⟨n, rfl⟩ := Nat.exists_eq_add_one_of_ne_zero (Nat.ne_zero_of_lt hn)
    rw [text, Glsl.binaryText_equality] at hn ⊢
    have h :=
      Glsl.length_group (left.text lead) (Glsl.Operator.ofEquality op).symbol (right.text lead)
    exact Glsl.reads_binary _ (ihl hf.1 (by omega)) (ihr hf.2 (by omega))
  | conditional test consequent alternate iht ihc iha =>
    rw [names, List.forall_mem_append, List.forall_mem_append] at hf
    obtain ⟨n, rfl⟩ := Nat.exists_eq_add_one_of_ne_zero (Nat.ne_zero_of_lt hn)
    have h := Glsl.length_choose (test.text lead) (consequent.text lead) (alternate.text lead)
    rw [text] at hn ⊢
    exact Glsl.reads_choose (iht hf.1.1 (by omega)) (ihc hf.1.2 (by omega)) (iha hf.2 (by omega))

/-! ### Values -/

/-- A value of a kind as a value in a shader. -/
def Kind.toGlsl : (k : Kind) → k.Carrier ℚ → Glsl.Value
  | number => Glsl.Value.number
  | truth => Glsl.Value.truth

/-- Whether a shader computes what the operator does, apart from rounding. -/
def Computes (x y : ℚ) : ArithmeticOp → Prop
  | .add | .sub | .mul => True
  | .div => y ≠ 0
  | .rem => y ≠ 0 ∧ (0 ≤ x / y ∨ ∃ n : ℤ, x / y = n)

/-- Whether shaders compute everything that is evaluated in a formula. -/
def Defined (integers : String → ℤ) : {k : Kind} → Formula k → Prop
  | _, literal _ _ _ _ => True
  | _, property _ => True
  | _, arithmetic op left right =>
    left.Defined integers ∧ right.Defined integers ∧
      Computes (left.exactValue integers) (right.exactValue integers) op
  | _, order _ left right | _, equality _ left right =>
    left.Defined integers ∧ right.Defined integers
  | _, conditional test consequent alternate =>
    test.Defined integers ∧
      if test.exactValue integers = true then consequent.Defined integers
      else alternate.Defined integers

/-- **A shader computes what an arithmetic operator does**, where it computes that at all. -/
theorem value?_ofArithmetic {attributes : String → ℚ} {op : ArithmeticOp} {t u : Glsl.Term}
    {x y : ℚ} (ht : t.value? attributes = some (.number x))
    (hu : u.value? attributes = some (.number y)) (h : Computes x y op) :
    (Glsl.Term.ofArithmetic op t u).value? attributes = some (.number (op.ofNumbers x y)) := by
  cases op with
  | add | sub | mul =>
    rw [Glsl.Term.ofArithmetic, Glsl.Term.value?, ht, hu]
    rfl
  | div =>
    rw [Glsl.Term.ofArithmetic, Glsl.Term.value?, ht, hu]
    exact if_neg h
  | rem =>
    rw [Glsl.Term.ofArithmetic, Glsl.Term.value?, ht, hu]
    refine (if_neg h.1).trans ?_
    -- This is the only place where the two sides compute differently.
    rw [← (Numeric.rem_eq_floorRem_iff h.1).2 h.2]
    rfl

/-- It compares numbers as they are. -/
theorem value?_ofOrder {attributes : String → ℚ} (op : OrderOp) {t u : Glsl.Term} {x y : ℚ}
    (ht : t.value? attributes = some (.number x)) (hu : u.value? attributes = some (.number y)) :
    (Glsl.Term.binary (.ofOrder op) t u).value? attributes =
      some (.truth (op.ofNumbers x y)) := by
  rw [Glsl.Term.value?, ht, hu]
  cases op <;> rfl

/-- It compares values of one kind for being the same. -/
theorem value?_ofEquality {attributes : String → ℚ} (op : Equality) {t u : Glsl.Term}
    {v w : k.Carrier ℚ} (ht : t.value? attributes = some (k.toGlsl v))
    (hu : u.value? attributes = some (k.toGlsl w)) :
    (Glsl.Term.binary (.ofEquality op) t u).value? attributes =
      some (.truth (op.decideBy (k.same v w))) := by
  rw [Glsl.Term.value?, ht, hu]
  cases k with
  | number =>
    cases op with
    | strictEq | looseEq => rfl
    | strictNe | looseNe => exact congrArg (some ∘ Glsl.Value.truth) decide_not
  | truth => cases op <;> rfl

/-- A literal has the value of the whole number that it stands for, sign included. -/
theorem value?_ofWhole {attributes : String → ℚ} {x : Float} {n : ℤ}
    (hx : exactValue? x = some (n : ℚ)) :
    (Glsl.Term.ofWhole (Numeric.isNegative x.toModel.unpack) n.natAbs).value? attributes =
      some (.number n) := by
  obtain ⟨-, -, hn⟩ := Numeric.eq_of_wholeValue? (wholeValue?_eq_some_iff.2 hx)
  rw [Glsl.Term.ofWhole]
  split at hn
  · next h =>
    have hcast : -(n.natAbs : ℚ) = n := by exact_mod_cast hn.symm
    rw [if_pos h, ← hcast]
    rfl
  · next h =>
    have hcast : (n.natAbs : ℚ) = n := congrArg Int.cast hn.symm
    rw [if_neg h, ← hcast]
    rfl

/-- **A shader computes the exact value of a formula.** -/
theorem value?_term {lead : String} {integers : String → ℤ} {attributes : String → ℚ}
    (f : Formula k) (ha : ∀ name ∈ f.names, attributes (lead ++ name) = integers name)
    (hf : f.Defined integers) :
    (f.term lead).value? attributes = some (k.toGlsl (f.exactValue integers)) := by
  induction f with
  | literal x n hx hn => exact value?_ofWhole hx
  | property name =>
    show some (Glsl.Value.number (attributes (lead ++ name))) = _
    rw [ha name (List.mem_singleton_self name)]
    rfl
  | arithmetic op left right ihl ihr =>
    rw [names, List.forall_mem_append] at ha
    exact value?_ofArithmetic (ihl ha.1 hf.1) (ihr ha.2 hf.2.1) hf.2.2
  | order op left right ihl ihr =>
    rw [names, List.forall_mem_append] at ha
    exact value?_ofOrder op (ihl ha.1 hf.1) (ihr ha.2 hf.2)
  | equality op left right ihl ihr =>
    rw [names, List.forall_mem_append] at ha
    exact value?_ofEquality op (ihl ha.1 hf.1) (ihr ha.2 hf.2)
  | conditional test consequent alternate iht ihc iha =>
    rw [names, List.forall_mem_append, List.forall_mem_append] at ha
    -- Nothing is known about the branch that is not taken, and nothing is needed.
    obtain ⟨htest, hbranch⟩ := hf
    rw [term, Glsl.Term.value?, iht ha.1.1 htest, exactValue_conditional]
    show (if test.exactValue integers = true then _ else _) = _
    split at hbranch
    · next h => rw [if_pos h, if_pos h, ihc ha.1.2 hbranch]
    · next h => rw [if_neg h, if_neg h, iha ha.2 hbranch]

/-! ### Agreement -/

/-- A property is a whole number, and the attribute for it is the same number. -/
structure Binds (lead : String) (s : Subject) (attributes : String → ℚ) (numbers : String → Float)
    (integers : String → ℤ) (name : String) : Prop where
  property : s.property name = some (.number (numbers name))
  whole : exactValue? (numbers name) = some (integers name : ℚ)
  identifier : isShaderIdentifier (lead ++ name)
  input : attributes (lead ++ name) = integers name

/-- **Evaluation and shader code agree.** Where shaders compute everything that is evaluated in a
formula, evaluation gives its value over doubles, there is shader code for it, and a shader that
runs the code computes the value over the rationals. -/
theorem evaluation_agrees {lead : String} {s : Subject} {attributes : String → ℚ}
    {numbers : String → Float} {integers : String → ℤ} (f : Formula k)
    (hbinds : ∀ name ∈ f.names, Binds lead s attributes numbers integers name)
    (hf : f.Defined integers) (pool : ScratchPool) (before : ShaderState) :
    ((f.toExpr.evaluateIn pool).run s).1 = .ok (k.toValue (f.floatValue numbers)) ∧
      ∃ text, (f.toExpr.emit lead).run.run before = (.ok text, before) ∧
        ∃ t, Glsl.read? text = some t ∧
          t.value? attributes = some (k.toGlsl (f.exactValue integers)) := by
  constructor
  · rw [Expr.fst_run_evaluateIn, f.eval_toExpr fun name h ↦ (hbinds name h).property]
    rfl
  · have hreads := f.reads_text (fun name h ↦ (hbinds name h).identifier) (Nat.lt_succ_self _)
    refine ⟨f.text lead, ?_, f.term lead, Glsl.Reads.read?_eq ?_, ?_⟩
    · rw [emit_toExpr]
      rfl
    · exact hreads
    · exact f.value?_term (fun name h ↦ (hbinds name h).input) hf

theorem exactValue?_three : exactValue? 3 = some ((3 : ℤ) : ℚ) :=
  wholeValue?_eq_some_iff.1 (by with_unfolding_all rfl)

/-- The remainder of a property by three. -/
def remainderByThree : Formula .number :=
  arithmetic .rem (property "x") (literal 3 3 exactValue?_three (by decide))

/-- A feature whose properties are all the given number. -/
def constantSubject (x : Float) : Subject := .ofProperty fun _ ↦ some (.number x)

theorem evaluation_agrees_seven :
    (∀ name ∈ remainderByThree.names,
      Binds "a_" (constantSubject 7) (fun _ ↦ 7) (fun _ ↦ 7) (fun _ ↦ 7) name) ∧
    remainderByThree.Defined (fun _ ↦ 7) ∧
    ((remainderByThree.toExpr.evaluateIn .empty).run (constantSubject 7)).1 = .ok (.number 1) ∧
    ∃ text, (remainderByThree.toExpr.emit "a_").run.run ⟨false⟩ = (.ok text, ⟨false⟩) ∧
      ∃ t, Glsl.read? text = some t ∧ t.value? (fun _ ↦ 7) = some (.number 1) := by
  have hbinds : ∀ name ∈ remainderByThree.names,
      Binds "a_" (constantSubject 7) (fun _ ↦ 7) (fun _ ↦ 7) (fun _ ↦ 7) name := by
    intro name hname
    obtain rfl : name = "x" := List.mem_singleton.mp hname
    have hseven : exactValue? 7 = some ((7 : ℤ) : ℚ) :=
      wholeValue?_eq_some_iff.1 (by with_unfolding_all rfl)
    exact ⟨rfl, hseven, by decide, rfl⟩
  have hdefined : remainderByThree.Defined (fun _ ↦ 7) :=
    ⟨trivial, trivial, by norm_num [exactValue, value], .inl (by norm_num [exactValue, value])⟩
  have hfloat : remainderByThree.floatValue (fun _ ↦ 7) = (1 : Float) := by decide +kernel
  have hexact : remainderByThree.exactValue (fun _ ↦ 7) = (1 : ℚ) := by decide +kernel
  have h := evaluation_agrees remainderByThree hbinds hdefined .empty ⟨false⟩
  rw [hfloat, hexact] at h
  exact ⟨hbinds, hdefined, h⟩

/-- A truth value that is taken for a number: `(x < 0) + 1`. -/
def comparisonPlusOne : Expr :=
  .binary (.arithmetic .add) (.binary (.order .less) (.property "x") (.number 0)) (.number 1)

/-- Below zero the two remainders differ, and in a shader a truth value is no number. -/
theorem evaluation_disagrees :
    (((remainderByThree.toExpr.evaluateIn .empty).run (constantSubject (-7))).1 =
        .ok (.number (-1)) ∧
      (remainderByThree.toExpr.emit "a_").run.run ⟨false⟩ = (.ok "mod(a_x, 3.0)", ⟨false⟩) ∧
      (Glsl.read? "mod(a_x, 3.0)").bind (·.value? fun _ ↦ -7) = some (.number 2)) ∧
    ((comparisonPlusOne.evaluateIn .empty).run (constantSubject (-7))).1 = .ok (.number 2) ∧
      (comparisonPlusOne.emit "a_").run.run ⟨false⟩ = (.ok "((a_x < 0.0) + 1.0)", ⟨false⟩) ∧
      (Glsl.read? "((a_x < 0.0) + 1.0)").bind (·.value? fun _ ↦ -7) = none := by
  have htwo : (2 : Float) = (Value.bool (decide ((-7 : Float) < 0))).toNumber + 1 := by
    decide +kernel
  rw [Expr.fst_run_evaluateIn, Expr.fst_run_evaluateIn, htwo]
  refine ⟨⟨?_, ?_, ?_⟩, ?_, ?_, ?_⟩ <;> with_unfolding_all rfl

end Formula

end FeatureStyle
