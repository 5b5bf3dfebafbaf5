import FeatureStyle.Proofs.Expr.Assembly

/-!
# What building fails for

A source is refused while it is prepared and parsed for its text, and the error has a place in that
text. **Once there is a tree, it is only refused for what it means** (`failsPlaceless_ofTree`): no
error of building is one about the text.

The errors of the operands of a construct are passed on, so the functions that build are followed
with `FailsPlaceless.bind`, one lemma for each.
-/

namespace FeatureStyle

/-- The error is about what the source means, and not about a place of its text. -/
def CompileError.IsPlaceless : CompileError → Prop
  | placeholder _ | parse _ => False
  | _ => True

namespace Expr

variable {α β : Type} {r : Except CompileError α} {args : List Built}

/-- If this fails, then not for the text of the source. -/
def FailsPlaceless (r : Except CompileError α) : Prop := ∀ e, r = .error e → e.IsPlaceless

/-- What succeeds has no error. -/
theorem failsPlaceless_ok (a : α) : FailsPlaceless (.ok a) := by
  rintro _ ⟨⟩

/-- An error without a place may be thrown. -/
theorem failsPlaceless_error {e : CompileError} (h : e.IsPlaceless) :
    FailsPlaceless (.error e : Except CompileError α) := by
  rintro _ ⟨⟩
  exact h

/-- **Errors are passed on**, so two steps have those of the first and of the second. -/
theorem FailsPlaceless.bind {f : α → Except CompileError β} (h : FailsPlaceless r)
    (hf : ∀ a, FailsPlaceless (f a)) : FailsPlaceless (r >>= f) := by
  rcases r with e | a
  · exact failsPlaceless_error (h e rfl)
  · exact hf a

/-- A result that is changed has the same errors. -/
theorem FailsPlaceless.map (h : FailsPlaceless r) (f : α → β) : FailsPlaceless (r.map f) := by
  rcases r with e | a
  · exact failsPlaceless_error (h e rfl)
  · exact failsPlaceless_ok (f a)

/-! ### Calls -/

/-- Arguments have the errors that each of them has. -/
theorem failsPlaceless_sequenceArguments (h : ∀ a ∈ args, FailsPlaceless a) :
    FailsPlaceless (sequenceArguments args) := by
  induction args with
  | nil => exact failsPlaceless_ok []
  | cons arg args ih =>
    obtain ⟨harg, hargs⟩ := List.forall_mem_cons.1 h
    exact harg.bind fun _ ↦ (ih hargs).bind fun _ ↦ failsPlaceless_ok _

/-- A regular expression is refused for its pattern or its flags. -/
theorem failsPlaceless_literalRegex (source flags : String) :
    FailsPlaceless (literalRegex source flags) := by
  rw [literalRegex]
  split
  · exact failsPlaceless_ok _
  · exact failsPlaceless_error trivial

/-- Its arguments may be refused first, for what they mean. -/
theorem failsPlaceless_ofRegexArguments (h : ∀ a ∈ args, FailsPlaceless a) :
    FailsPlaceless (ofRegexArguments args) := by
  fun_cases ofRegexArguments args with
  | case1 => exact failsPlaceless_literalRegex "" ""
  | case2 pattern =>
    refine (h pattern (by simp)).bind fun x ↦ ?_
    split
    · exact failsPlaceless_literalRegex _ _
    · exact failsPlaceless_ok _
  | case3 pattern flags rest =>
    refine (h pattern (by simp)).bind fun x ↦ (h flags (by simp)).bind fun y ↦ ?_
    split
    · exact failsPlaceless_literalRegex _ _
    · exact failsPlaceless_ok _

/-- A function with a fixed number of arguments is refused for their number. -/
theorem failsPlaceless_ofFixedCall (name : String) (h : ∀ a ∈ args, FailsPlaceless a) :
    FailsPlaceless (ofFixedCall name args) := by
  fun_cases ofFixedCall name args with
  | case1 => exact failsPlaceless_ok _
  | case3 => exact failsPlaceless_ofRegexArguments h
  | case4 _ _ op _ a => exact (h a (by simp)).bind fun _ ↦ failsPlaceless_ok _
  | case6 _ _ f _ _ a b =>
    exact (h a (by simp)).bind fun _ ↦ (h b (by simp)).bind fun _ ↦ failsPlaceless_ok _
  | case8 _ _ f _ _ _ a b c =>
    exact (h a (by simp)).bind fun _ ↦ (h b (by simp)).bind fun _ ↦
      (h c (by simp)).bind fun _ ↦ failsPlaceless_ok _
  | case2 | case5 | case7 | case9 | case10 => exact failsPlaceless_error trivial

/-- **A call of a function is refused for its name or the number of its arguments.** -/
theorem failsPlaceless_ofFunctionCall (name : String) (h : ∀ a ∈ args, FailsPlaceless a) :
    FailsPlaceless (ofFunctionCall name args) := by
  fun_cases ofFunctionCall name args with
  | case1 fn =>
    rw [ofColorCall]
    split
    · exact (failsPlaceless_sequenceArguments h).map _
    · exact failsPlaceless_error trivial
  | case2 size =>
    rw [ofVectorCall]
    split
    · exact failsPlaceless_error trivial
    split
    · exact failsPlaceless_error trivial
    · exact (failsPlaceless_sequenceArguments h).map _
  | case3 => exact failsPlaceless_ok _
  | case4 _ _ _ _ _ a => exact (h a (by simp)).bind fun _ ↦ failsPlaceless_ok _
  | case5 => exact failsPlaceless_ofFixedCall name h

/-- A call of a method is refused for its name or its object. -/
theorem failsPlaceless_ofMethodCall (name : String) (isRegex : Bool) {object : Built}
    (hobject : FailsPlaceless object) (h : ∀ a ∈ args, FailsPlaceless a) :
    FailsPlaceless (ofMethodCall name isRegex object args) := by
  fun_cases ofMethodCall name isRegex object args with
  | case1 | case3 => exact failsPlaceless_error trivial
  | case2 => exact hobject.bind fun _ ↦ failsPlaceless_ok _
  | case4 => exact failsPlaceless_ok _
  | case5 m _ _ a =>
    exact hobject.bind fun _ ↦ (h a (by simp)).bind fun _ ↦ failsPlaceless_ok _

/-! ### Trees -/

/-- A name is refused if it stands for nothing. -/
theorem failsPlaceless_ofIdentifier (name : String) : FailsPlaceless (ofIdentifier name) := by
  fun_cases ofIdentifier name with
  | case8 => exact failsPlaceless_error trivial
  | _ => exact failsPlaceless_ok _

mutual

/-- **A tree is only refused for what it means.** -/
theorem failsPlaceless_ofTree (t : SyntaxTree) : FailsPlaceless (ofTree t) := by
  cases t with
  | literal l =>
    rw [ofTree]
    exact failsPlaceless_ok _
  | identifier name =>
    rw [ofTree]
    exact failsPlaceless_ofIdentifier name
  | unary operator operand =>
    rw [ofTree]
    split
    · exact failsPlaceless_error trivial
    · exact (failsPlaceless_ofTree operand).bind fun _ ↦ failsPlaceless_ok _
  | binary operator left right | logical operator left right =>
    rw [ofTree]
    split
    · exact failsPlaceless_error trivial
    · exact (failsPlaceless_ofTree left).bind fun _ ↦
        (failsPlaceless_ofTree right).bind fun _ ↦ failsPlaceless_ok _
  | conditional test consequent alternate =>
    rw [ofTree]
    exact (failsPlaceless_ofTree test).bind fun _ ↦
      (failsPlaceless_ofTree consequent).bind fun _ ↦
        (failsPlaceless_ofTree alternate).bind fun _ ↦ failsPlaceless_ok _
  | member object key computed =>
    have hmember (member : MemberAccess → Expr → Expr) :
        FailsPlaceless (ofMember key computed member) := by
      rw [ofMember]
      split
      · exact (failsPlaceless_ofTree key).map _
      split
      · exact failsPlaceless_ok _
      · exact failsPlaceless_error trivial
    rw [ofTree_member]
    split
    · exact hmember _
    · exact (failsPlaceless_ofTree object).bind fun _ ↦ hmember _
  | array items =>
    rw [ofTree]
    exact (failsPlaceless_sequenceArguments (failsPlaceless_ofTrees items)).bind fun _ ↦
      failsPlaceless_ok _
  | call callee args =>
    rw [ofTree.eq_def]
    dsimp only
    split
    · next object key =>
      exact failsPlaceless_ofMethodCall _ _ (failsPlaceless_ofTree object)
        (failsPlaceless_ofTrees args)
    · exact failsPlaceless_ofFunctionCall _ (failsPlaceless_ofTrees args)
    · exact failsPlaceless_error trivial
  | compound items =>
    rw [ofTree]
    exact failsPlaceless_error trivial

/-- Trees side by side have the errors that each of them has. -/
theorem failsPlaceless_ofTrees (ts : List SyntaxTree) : ∀ a ∈ ofTrees ts, FailsPlaceless a := by
  cases ts with
  | nil =>
    rw [ofTrees]
    simp
  | cons t ts =>
    rw [ofTrees]
    exact List.forall_mem_cons.2 ⟨failsPlaceless_ofTree t, failsPlaceless_ofTrees ts⟩

end

end Expr

end FeatureStyle
