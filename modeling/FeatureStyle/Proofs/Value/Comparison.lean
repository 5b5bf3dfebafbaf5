import FeatureStyle.Eval.Operations
import FeatureStyle.Proofs.Numeric.Double

/-!
# Laws of the comparisons

Equality and order of values obey the laws that their names promise, whatever is compared and also
where numbers are NaN: both equalities are symmetric, strict equality is the finer one, the orders
are each other's converses, and no two values are each below the other.

Loose equality is usually given by rounds. A **round** either gives the answer or replaces one of
the values by a number or a text and asks for another round (`looseRound`). Each round that asks for
another one leaves less to be converted (`looseRound_cases`), so **the rounds come to an end**, and
what they come to is loose equality (`looseRun_iff`).

The laws are put together in `comparison_laws`.
-/

namespace FeatureStyle.Value

variable {v w : Value}

/-! ### Equality -/

theorem compositeEq?_comm (v w : Value) : compositeEq? v w = compositeEq? w v := by
  unfold compositeEq?
  split
  · next l c l' d =>
    by_cases hl : l = l'
    · subst hl
      have hcomm : (c == d) = (d == c) := by
        rw [Bool.eq_iff_iff]
        show Vector.isEqv c d _ ↔ Vector.isEqv d c _
        simp only [Vector.isEqv_iff_rel, BEq.comm]
      simp only [dif_pos, hcomm]
    · rw [dif_neg hl, dif_neg (Ne.symm hl)]
  · next hnot =>
    split
    · next l c l' d => exact absurd rfl (hnot l' d l c rfl)
    · rfl

/-- Strict equality is symmetric. -/
theorem strictEq_comm (v w : Value) : v.strictEq w = w.strictEq v := by
  unfold strictEq
  rw [compositeEq?_comm]
  split
  · rfl
  · cases v <;> cases w <;> first | rfl | exact BEq.comm

theorem Scalar.eq_comm (a b : Scalar) : a.eq b = b.eq a := by
  rcases a with x | s <;> rcases b with y | t
  · exact BEq.comm
  · rfl
  · rfl
  · exact BEq.comm

/-- Loose equality is symmetric. -/
theorem looseEq_comm (v w : Value) : v.looseEq w = w.looseEq v := by
  unfold looseEq
  rw [compositeEq?_comm, Bool.or_comm, Bool.and_comm w.isNullish, Bool.and_comm w.isObject,
    Scalar.eq_comm]

theorem boolNumber_beq (a b : Bool) : (boolNumber a == boolNumber b) = (a == b) := by
  cases a <;> cases b <;> decide

/-- Strict equality is finer than loose equality. -/
theorem looseEq_of_strictEq (h : v.strictEq w) : v.looseEq w := by
  unfold strictEq at h
  unfold looseEq
  split at h
  · exact h
  · split at h
    · rfl
    · rfl
    · exact (boolNumber_beq _ _).trans h
    · exact h
    · exact h
    · cases h

/-! ### Rounds of loose equality -/

/-- What a round of loose equality comes to. -/
inductive Round
  | answer (equal : Bool)
  /-- These two values are to be compared instead. -/
  | again (v w : Value)

/-- One round of loose equality. The first rule that applies counts: a missing value is equal to a
missing one only; truth values, numbers and texts are compared with their like, and a number with
the number that a text is read as; then a truth value is replaced by its number; then two objects
are different, and an object next to something else is replaced by its text. -/
def looseRound (v w : Value) : Round :=
  match compositeEq? v w with
  | some equal => .answer equal
  | none =>
    if v.isNullish || w.isNullish then .answer (v.isNullish && w.isNullish)
    else
      match v, w with
      | bool a, bool b => .answer (a == b)
      | number x, number y => .answer (x == y)
      | string s, string t => .answer (s == t)
      | number x, string s | string s, number x => .answer (x == Numeric.readNumber s)
      | bool b, other | other, bool b => .again (number (boolNumber b)) other
      | v, w =>
        if v.isObject && w.isObject then .answer false
        else if v.isObject then .again (string v.text) w
        else if w.isObject then .again (string w.text) v
        else .answer false

/-- The rounds of loose equality come to an end with the answer. -/
inductive LooseRun : Value → Value → Bool → Prop
  | answer {v w : Value} {equal : Bool} (h : looseRound v w = .answer equal) : LooseRun v w equal
  | again {v w v' w' : Value} {equal : Bool} (h : looseRound v w = .again v' w')
      (rest : LooseRun v' w' equal) : LooseRun v w equal

/-- What there is to convert: a truth value to its number, or an object to its text. -/
def weight : Value → Nat
  | bool _ | regExp _ | composite _ _ | array _ => 1
  | _ => 0

/-- What is not an object is compared as it stands with whatever is not missing. -/
theorem looseEq_of_plain (hv : v.isNullish = false) (hobject : v.isObject = false)
    (hw : w.isNullish = false) : v.looseEq w = v.scalar.eq w.scalar := by
  have hnone : compositeEq? v w = none := by
    unfold compositeEq?
    split
    · cases hobject
    · rfl
  unfold looseEq
  rw [hnone, hv, hw, hobject]
  rfl

/-- A truth value is compared as its number. -/
theorem looseEq_boolNumber (b : Bool) (hw : w.isNullish = false) :
    (number (boolNumber b)).looseEq w = (bool b).looseEq w := by
  rw [looseEq_of_plain rfl rfl hw, looseEq_of_plain rfl rfl hw]
  rfl

/-- An object is compared as its text, except with another object. -/
theorem looseEq_text (hv : v.isObject = true) (hw : w.isNullish = false)
    (hobject : w.isObject = false) : (string v.text).looseEq w = v.looseEq w := by
  have hnullish : v.isNullish = false := by cases v <;> first | rfl | cases hv
  have hscalar : v.scalar = .text v.text := by cases v <;> first | rfl | cases hv
  rw [looseEq_of_plain rfl rfl hw, looseEq_comm v, looseEq_of_plain hw hobject hnullish, hscalar,
    Scalar.eq_comm]
  rfl

theorem weight_of_isObject (h : v.isObject = true) : v.weight = 1 := by
  cases v <;> first | rfl | cases h

/-- **A round either gives the answer or leaves less to convert**, and then the two values that are
left are loosely equal exactly if the given ones are. -/
theorem looseRound_cases (v w : Value) :
    looseRound v w = .answer (v.looseEq w) ∨
      ∃ v' w', looseRound v w = .again v' w' ∧ v'.looseEq w' = v.looseEq w ∧
        v'.weight + w'.weight < v.weight + w.weight := by
  rcases hcomposite : compositeEq? v w with - | equal
  swap
  · left
    simp only [looseRound, looseEq, hcomposite]
  rcases hnullish : v.isNullish || w.isNullish
  swap
  · left
    simp only [looseRound, looseEq, hcomposite, hnullish, if_true]
  obtain ⟨hv, hw⟩ := Bool.or_eq_false_iff.1 hnullish
  have hplain (hobject : v.isObject = false) : v.looseEq w = v.scalar.eq w.scalar :=
    looseEq_of_plain hv hobject hw
  simp only [looseRound, hcomposite, hnullish, if_false, Bool.false_eq_true]
  split
  · next a b => exact .inl (congrArg _ ((boolNumber_beq a b).symm.trans (hplain rfl).symm))
  · exact .inl (congrArg _ (hplain rfl).symm)
  · exact .inl (congrArg _ (hplain rfl).symm)
  · exact .inl (congrArg _ (hplain rfl).symm)
  · exact .inl (congrArg _ (hplain rfl).symm)
  · refine .inr ⟨_, _, rfl, looseEq_boolNumber _ hw, ?_⟩
    show 0 + w.weight < 1 + w.weight
    omega
  · refine .inr ⟨_, _, rfl, (looseEq_boolNumber _ hv).trans (looseEq_comm _ _), ?_⟩
    show 0 + v.weight < v.weight + 1
    omega
  · rcases hobjectV : v.isObject <;> rcases hobjectW : w.isObject
    · -- Truth values, numbers and texts are already dealt with, and nothing else is left.
      cases v <;> cases w <;> simp_all [isNullish, isObject]
    · refine .inr ⟨string w.text, v, rfl, (looseEq_text hobjectW hv hobjectV).trans
        (looseEq_comm _ _), ?_⟩
      show 0 + v.weight < v.weight + w.weight
      rw [weight_of_isObject hobjectW]
      omega
    · refine .inr ⟨string v.text, w, rfl, looseEq_text hobjectV hw hobjectW, ?_⟩
      show 0 + w.weight < v.weight + w.weight
      rw [weight_of_isObject hobjectV]
      omega
    · left
      simp only [looseEq, hcomposite, hnullish, hobjectV, hobjectW]
      rfl

/-- **The rounds of loose equality come to an end**, whatever is compared, and they come to
`looseEq`. -/
theorem looseRun_iff {equal : Bool} : LooseRun v w equal ↔ v.looseEq w = equal := by
  constructor
  · intro h
    induction h with
    | @answer v w equal h =>
      rcases looseRound_cases v w with hanswer | ⟨_, _, hagain, -⟩
      · exact Round.answer.inj (hanswer.symm.trans h)
      · cases hagain.symm.trans h
    | @again v w v' w' equal h _ ih =>
      rcases looseRound_cases v w with hanswer | ⟨_, _, hagain, hlooseEq, -⟩
      · cases hanswer.symm.trans h
      · cases hagain.symm.trans h
        exact hlooseEq.symm.trans ih
  · rintro rfl
    -- The induction is on what there is to convert.
    induction hn : v.weight + w.weight using Nat.strong_induction_on generalizing v w with
    | h n ih =>
      rcases looseRound_cases v w with hanswer | ⟨v', w', hagain, hlooseEq, hweight⟩
      · exact .answer hanswer
      · exact .again hagain (hlooseEq ▸ ih _ (hn ▸ hweight) rfl)

/-! ### Order -/

/-- Two values are ordered by two texts or by their numbers, the same way from either side and for
every operator. -/
theorem ordered_cases (v w : Value) :
    (∃ s t, ∀ op, v.ordered op w = op.ofTexts s t ∧ w.ordered op v = op.ofTexts t s) ∨
      ∀ op : OrderOp, v.ordered op w = op.ofNumbers v.toNumber w.toNumber ∧
        w.ordered op v = op.ofNumbers w.toNumber v.toNumber := by
  unfold ordered
  rcases v.orderText? with - | s <;> rcases w.orderText? with - | t
  · exact .inr fun _ ↦ ⟨rfl, rfl⟩
  · exact .inr fun _ ↦ ⟨rfl, rfl⟩
  · exact .inr fun _ ↦ ⟨rfl, rfl⟩
  · exact .inl ⟨s, t, fun _ ↦ ⟨rfl, rfl⟩⟩

theorem less_eq_greater (v w : Value) : v.ordered .less w = w.ordered .greater v := by
  rcases ordered_cases v w with ⟨s, t, h⟩ | h
  · rw [(h .less).1, (h .greater).2]
    rfl
  · rw [(h .less).1, (h .greater).2]
    rfl

theorem atMost_eq_atLeast (v w : Value) : v.ordered .atMost w = w.ordered .atLeast v := by
  rcases ordered_cases v w with ⟨s, t, h⟩ | h
  · rw [(h .atMost).1, (h .atLeast).2]
    rfl
  · rw [(h .atMost).1, (h .atLeast).2]
    rfl

/-- No two values are each below the other. -/
theorem less_asymm (hvw : v.ordered .less w) : ¬ w.ordered .less v := by
  rcases ordered_cases v w with ⟨s, t, h⟩ | h
  · rw [(h .less).1] at hvw
    rw [(h .less).2]
    have hst : s < t := of_decide_eq_true hvw
    exact fun hts ↦ lt_asymm hst (of_decide_eq_true hts)
  · rw [(h .less).1] at hvw
    rw [(h .less).2]
    have hst : v.toNumber < w.toNumber := of_decide_eq_true hvw
    exact fun hts ↦ Numeric.lt_asymm_float hst (of_decide_eq_true hts)

theorem atMost_of_less (hvw : v.ordered .less w) : v.ordered .atMost w := by
  rcases ordered_cases v w with ⟨s, t, h⟩ | h
  · rw [(h .less).1] at hvw
    rw [(h .atMost).1]
    have hst : s < t := of_decide_eq_true hvw
    show (!decide (t < s)) = true
    rw [decide_eq_false (lt_asymm hst)]
    rfl
  · rw [(h .less).1] at hvw
    rw [(h .atMost).1]
    have hst : v.toNumber < w.toNumber := of_decide_eq_true hvw
    exact decide_eq_true (Numeric.le_of_lt_float hst)

/-- Of two texts, exactly one of below, equal and above holds. -/
theorem count_order_string (s t : String) :
    [(string s).ordered .less (string t), (string s).looseEq (string t),
      (string s).ordered .greater (string t)].count true = 1 := by
  show [decide (s < t), s == t, decide (t < s)].count true = 1
  rcases lt_trichotomy s t with h | rfl | h
  · rw [decide_eq_true h, decide_eq_false (lt_asymm h), beq_false_of_ne h.ne]
    rfl
  · rw [decide_eq_false (lt_irrefl s), beq_self_eq_true]
    rfl
  · rw [decide_eq_true h, decide_eq_false (lt_asymm h), beq_false_of_ne h.ne']
    rfl

/-- **The laws of the comparisons.** Loose equality, taken round by round, comes to an end with its
answer; both equalities are symmetric, and strict equality is the finer one; the orders are
converses of each other, no two values are each below the other, and what is below is at most; and
of two texts exactly one of below, equal and above holds. -/
theorem comparison_laws (v w : Value) :
    (∀ equal, LooseRun v w equal ↔ v.looseEq w = equal) ∧
      v.looseEq w = w.looseEq v ∧ v.strictEq w = w.strictEq v ∧
      (v.strictEq w → v.looseEq w) ∧
      v.ordered .less w = w.ordered .greater v ∧
      v.ordered .atMost w = w.ordered .atLeast v ∧
      ¬ (v.ordered .less w ∧ w.ordered .less v) ∧
      (v.ordered .less w → v.ordered .atMost w) ∧
      ∀ s t : String,
        [(string s).ordered .less (string t), (string s).looseEq (string t),
          (string s).ordered .greater (string t)].count true = 1 :=
  ⟨fun _ ↦ looseRun_iff, looseEq_comm v w, strictEq_comm v w, looseEq_of_strictEq,
    less_eq_greater v w, atMost_eq_atLeast v w, fun h ↦ less_asymm h.1 h.2, atMost_of_less,
    count_order_string⟩

end FeatureStyle.Value
