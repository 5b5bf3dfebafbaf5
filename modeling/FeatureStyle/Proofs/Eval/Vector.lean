import FeatureStyle.Proofs.Eval.Result
import Mathlib.Data.List.Forall2

/-!
# Vectors of any number of components

The components of the arguments of a vector are put into a row that has room for a fixed number of
them. What such a row holds is said by `ComponentRow.Holds`, which one component keeps
(`Holds.push`) and so any number of them (`holds_ofList`).

`VectorSize.ofValues` is what a vector of values is meant to be, with the components of the values
in one list of any length. **The room of the row makes no difference** (`ofComponents_eq_ofRow`): a
vector has no more places than the row, and how many components there are is counted apart from it.
So **a vector is evaluated to the vector of the values of its arguments**
(`evaluateIn_vector_eq_ofValues`).
-/

namespace FeatureStyle

namespace ComponentRow

/-! ### What a row holds -/

/-- The row has been filled with the components: it has counted all of them, and those that found
room are in the slots, each in its place. -/
structure Holds (r : ComponentRow) (components : List Float32) : Prop where
  count_eq : r.count = components.length
  getElem_eq : ∀ (i : Nat) (hi : i < room) (h : i < components.length),
    r.slots[i] = components[i]

variable {r : ComponentRow} {components : List Float32}

theorem holds_empty : empty.Holds [] := ⟨rfl, fun _ _ h ↦ absurd h (Nat.not_lt_zero _)⟩

theorem Holds.push (h : r.Holds components) (x : Float32) :
    (r.push x).Holds (components ++ [x]) := by
  constructor
  · rw [List.length_append, ← h.count_eq]
    rfl
  · intro i hi hlength
    rw [List.length_append, List.length_singleton] at hlength
    show (r.slots.setIfInBounds r.count x)[i] = _
    rw [Vector.getElem_setIfInBounds hi, h.count_eq]
    split
    · next heq =>
      subst heq
      exact (List.getElem_concat_length rfl _).symm
    · next hne =>
      have hlt : i < components.length := by omega
      rw [h.getElem_eq i hi hlt, List.getElem_append_left hlt]

/-- A row that holds some components goes on to hold them when others are put in behind. -/
theorem Holds.foldl_push (h : r.Holds components) (behind : List Float32) :
    (behind.foldl ComponentRow.push r).Holds (components ++ behind) := by
  induction behind generalizing r components with
  | nil => rwa [List.append_nil]
  | cons x behind ih =>
    rw [List.foldl_cons, List.append_cons]
    exact ih (h.push x)

/-- **A row is filled from left to right.** -/
theorem holds_ofList (components : List Float32) : (ofList components).Holds components :=
  holds_empty.foldl_push components

theorem Holds.spread_eq {x : Float32} (h : r.Holds [x]) (lane : Lane) :
    r.spread lane = .replicate lane.size x :=
  congrArg (Vector.replicate lane.size) (h.getElem_eq 0 room_pos Nat.one_pos)

theorem Holds.front_eq {lane : Lane} (h : r.Holds components)
    (hlength : lane.size ≤ components.length) :
    r.front lane = .ofFn fun i ↦ components.get (i.castLE hlength) :=
  congrArg Vector.ofFn (funext fun i ↦
    h.getElem_eq i (Nat.lt_of_lt_of_le i.isLt (size_le_room lane))
      (Nat.lt_of_lt_of_le i.isLt hlength))

end ComponentRow

/-! ### Vectors of values -/

/-- What a value contributes to a vector, if it is a number or a vector. -/
def Value.row? : Value → Option (List Float32)
  | number x => some [Numeric.narrow x]
  | composite .vec2 v => some v.toList
  | composite .vec3 v => some v.toList
  | composite .vec4 v => some v.toList
  | _ => none

namespace VectorSize

variable (size : VectorSize)

/-- The vector of components, which are as many as they are. A single one is repeated; otherwise
there must be enough of them, and what comes behind the last place is only passed over if all of
them are from one argument. -/
def ofRow (arguments : Nat) (row : List Float32) : Except EvalError (Composite size.lane) :=
  match row with
  | [x] => .ok (.replicate size.lane.size x)
  | row =>
    if size.count < row.length ∧ 1 < arguments then .error (.tooManyComponents size row.length)
    else if h : row.length < size.count then .error (.tooFewComponents size row.length)
    else
      have hlength : size.lane.size ≤ row.length := Nat.le_of_not_lt h
      .ok (.ofFn fun i ↦ row.get (i.castLE hlength))

/-- The vector of values. All of them must be numbers or vectors, whose components follow one
another in the order of the values. -/
def ofValues (values : List Value) : Except EvalError (Composite size.lane) :=
  match values.find? (·.row?.isNone) with
  | some v => .error (.noComponents size v.type)
  | none => size.ofRow values.length (values.flatMap (·.row?.getD []))

theorem ofRow_of_length_ne_one {row : List Float32} (h : row.length ≠ 1) (arguments : Nat) :
    size.ofRow arguments row =
      if size.count < row.length ∧ 1 < arguments then .error (.tooManyComponents size row.length)
      else if h : row.length < size.count then .error (.tooFewComponents size row.length)
      else
        have hlength : size.lane.size ≤ row.length := Nat.le_of_not_lt h
        .ok (.ofFn fun i ↦ row.get (i.castLE hlength)) := by
  rcases row with - | ⟨x, - | ⟨y, row⟩⟩
  · rfl
  · exact absurd rfl h
  · rfl

/-- **The room of the row makes no difference.** -/
theorem ofComponents_eq_ofRow (arguments : Nat) (row : List Float32) :
    size.ofComponents arguments row = size.ofRow arguments row := by
  have hrow := ComponentRow.holds_ofList row
  rw [ofComponents, hrow.count_eq]
  by_cases hone : row.length = 1
  · obtain ⟨x, rfl⟩ := List.length_eq_one_iff.1 hone
    exact congrArg Except.ok (hrow.spread_eq size.lane)
  · rw [if_neg hone, size.ofRow_of_length_ne_one hone]
    split
    · rfl
    · split
      · rfl
      · next h => rw [hrow.front_eq (Nat.le_of_not_lt h)]

end VectorSize

/-- A value that contributes to a vector contributes its row, and all others are an error. -/
theorem Value.components_eq (size : VectorSize) (v : Value) :
    v.components size =
      match v.row? with
      | some row => .ok row
      | none => .error (.noComponents size v.type) := by
  cases v with
  | composite lane c => cases lane <;> rfl
  | _ => rfl

/-! ### Evaluating vectors -/

namespace Expr

variable {s : Subject} {args : List Expr} {values : List Value}

/-- The components of the arguments are those of their values, up to the first value that has
none. -/
theorem run_evalComponents (size : VectorSize) (h : List.Forall₂ (HasValue s) args values) :
    (evalComponents size args).run.run s =
      match values.find? (·.row?.isNone) with
      | some v => .error (.noComponents size v.type)
      | none => .ok (values.flatMap (·.row?.getD [])) := by
  induction h with
  | nil => rfl
  | @cons e v args values he _ ih =>
    rw [evalComponents, he.run_bind, Value.components_eq, List.find?_cons]
    cases hrow : v.row? with
    | none => rfl
    | some row =>
      show (evalComponents size args >>= fun rows ↦ pure (row ++ rows)).run.run s = _
      rw [ExceptT.run_bind, Dialogue.run_bind, ih, List.flatMap_cons, hrow]
      cases values.find? (·.row?.isNone) <;> rfl

/-- **A vector is evaluated to the vector of the values of its arguments**, as many as they are and
whatever number of components each of them has. -/
theorem evaluateIn_vector_eq_ofValues (size : VectorSize)
    (h : List.Forall₂ (HasValue s) args values) (pool : ScratchPool) :
    (((vector size args).evaluateIn pool).run s).1 =
      ((size.ofValues values).map (Value.composite size.lane)).mapError .error := by
  rw [fst_run_evaluateIn, eval, ExceptT.run_bind, Dialogue.run_bind, run_evalComponents size h,
    h.length_eq, VectorSize.ofValues]
  cases values.find? (·.row?.isNone) with
  | some v => rfl
  | none =>
    dsimp only
    rw [size.ofComponents_eq_ofRow]
    cases size.ofRow values.length (values.flatMap (·.row?.getD [])) <;> rfl

/-- Twenty components, for which there is no room in a row. -/
theorem evaluateIn_vector_eq_ofValues_twenty :
    let white : Value := .composite .vec4 (.replicate 4 1)
    let s := Subject.ofProperty fun _ ↦ some white
    let args := List.replicate 5 (property "v")
    List.Forall₂ (HasValue s) args (List.replicate 5 white) ∧
      (((vector .two args).evaluateIn .empty).run s).1 =
        .error (.error (.tooManyComponents .two 20)) := by
  intro white s args
  have harg : HasValue s (property "v") white := hasValue_property rfl
  have hargs : List.Forall₂ (HasValue s) args (List.replicate 5 white) :=
    .cons harg (.cons harg (.cons harg (.cons harg (.cons harg .nil))))
  exact ⟨hargs, evaluateIn_vector_eq_ofValues .two hargs .empty⟩

end Expr

end FeatureStyle
