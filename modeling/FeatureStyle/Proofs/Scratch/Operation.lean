import FeatureStyle.Proofs.Scratch.Extends

/-!
# Whole lives of a pool

A pool is used by storing, reading and emptying it, in any order. A slot that a store hands out is
good until the pool is emptied, and what happens to it is decided by the operations behind that
store alone:

* as long as the pool is not emptied, they **extend** it, so the slot reads as what was stored
  (`extends_performAll`);
* every time the pool is emptied it moves on by one generation (`generation_performAll`), and there
  are `2^64` of them, so a slot from before is refused (`generation_performAll_ne`).

A slot that is handed out later is a different one for the same two reasons: it lies behind the
slots that are still good, and it is of another generation than those that are not
(`slotAfter_ne`). `load_slotAfter` puts this together for a store anywhere in a sequence
of operations.
-/

namespace FeatureStyle.ScratchPool

/-- Something that is done with a pool. -/
inductive Operation
  | store {l : Lane} (c : Composite l)
  | load {l : Lane} (s : Slot l)
  | reset

/-- The pool after an operation. Reading a slot leaves it as it is. -/
def perform (p : ScratchPool) : Operation → ScratchPool
  | .store c => (p.store c).2
  | .load _ => p
  | .reset => p.reset

/-- The pool after some operations, one after another. -/
def performAll (p : ScratchPool) (ops : List Operation) : ScratchPool := ops.foldl perform p

/-- Whether the operation empties the pool. -/
def Operation.isReset : Operation → Bool
  | .reset => true
  | _ => false

/-- How many times the operations empty the pool. -/
def resets (ops : List Operation) : Nat := ops.countP Operation.isReset

/-- The slot that is handed out for something that is stored after some operations. -/
def slotAfter (p : ScratchPool) {l : Lane} (before : List Operation) (c : Composite l) : Slot l :=
  ((p.performAll before).store c).1

variable {p : ScratchPool} {l : Lane} {ops before after : List Operation}

theorem performAll_cons (p : ScratchPool) (op : Operation) (ops : List Operation) :
    p.performAll (op :: ops) = (p.perform op).performAll ops := rfl

theorem performAll_append (p : ScratchPool) (ops ops' : List Operation) :
    p.performAll (ops ++ ops') = (p.performAll ops).performAll ops' := List.foldl_append

theorem resets_append (ops ops' : List Operation) :
    resets (ops ++ ops') = resets ops + resets ops' := List.countP_append

theorem resets_cons (op : Operation) (ops : List Operation) :
    resets (op :: ops) = resets ops + if op.isReset then 1 else 0 := List.countP_cons

theorem resets_eq_zero_iff : resets ops = 0 ↔ .reset ∉ ops := by
  rw [resets, List.countP_eq_zero]
  constructor
  · intro h hmem
    exact h .reset hmem rfl
  · intro h op hop hreset
    cases op with
    | reset => exact h hop
    | store | load => cases hreset

/-! ### Generations -/

/-- A slot is refused exactly if it is of another generation. -/
theorem load?_eq_none_iff {s : Slot l} : p.load? s = none ↔ s.generation ≠ p.generation := by
  unfold load?
  split
  · next h => simp [h]
  · next h => simp [h]

/-- A live slot is read. -/
theorem load?_of_live {s : Slot l} {c : Composite l} (h : p.live? s = some c) :
    p.load? s = some c := by
  have hgeneration : s.generation = p.generation := by
    refine Decidable.byContradiction fun hne ↦ ?_
    rw [live?, if_neg hne] at h
    cases h
  rw [load?, if_pos hgeneration, h]
  rfl

/-- **Emptying a pool moves it on by one generation**, and nothing else does. -/
theorem generation_performAll (p : ScratchPool) (ops : List Operation) :
    (p.performAll ops).generation = p.generation + .ofNat (resets ops) := by
  induction ops generalizing p with
  | nil => exact (UInt64.add_zero _).symm
  | cons op ops ih =>
    rw [performAll_cons, ih, resets_cons]
    cases op with
    | store c => simp [perform, store, Operation.isReset]
    | load s => simp [perform, Operation.isReset]
    | reset =>
      simp only [perform, generation_reset, Operation.isReset, if_true]
      rw [UInt64.ofNat_add, UInt64.add_assoc, UInt64.add_comm 1]
      rfl

/-- The generation has changed once the pool has been emptied, and there are enough of them. -/
theorem generation_performAll_ne (hpos : 0 < resets ops) (hlt : resets ops < UInt64.size) :
    (p.performAll ops).generation ≠ p.generation := by
  intro h
  rw [generation_performAll] at h
  have hzero : UInt64.ofNat (resets ops) = 0 := by
    have h' := h.trans (UInt64.add_zero _).symm
    exact (UInt64.add_right_inj _).1 h'
  have hnat : (UInt64.ofNat (resets ops)).toNat = resets ops := UInt64.toNat_ofNat_of_lt' hlt
  rw [hzero] at hnat
  exact absurd hnat.symm (Nat.ne_of_gt hpos)

/-! ### Slots -/

/-- As long as the pool is not emptied, every slot that is good stays so and holds what it held. -/
theorem extends_performAll (h : resets ops = 0) : p.Extends (p.performAll ops) := by
  induction ops generalizing p with
  | nil => exact .refl p
  | cons op ops ih =>
    rw [resets_cons, Nat.add_eq_zero_iff] at h
    rw [performAll_cons]
    cases op with
    | store c => exact (p.extends_store c).trans (ih h.1)
    | load s => exact ih h.1
    | reset => exact absurd h.2 (by decide)

/-- **No slot is handed out twice.** A store behind another one gets another slot. -/
theorem slotAfter_ne (p : ScratchPool) (before : List Operation) (c c' : Composite l)
    (hlt : resets ops < UInt64.size) :
    p.slotAfter (before ++ .store c :: ops) c' ≠ p.slotAfter before c := by
  intro h
  -- The pool right behind the first store, and right before the second one.
  let first := ((p.performAll before).store c).2
  let second := p.performAll (before ++ .store c :: ops)
  have hrun : second = first.performAll ops := by
    rw [show second = _ from performAll_append p before _, performAll_cons]
    rfl
  rcases Nat.eq_zero_or_pos (resets ops) with hzero | hpos
  · -- The first slot is still good, so it lies before the place of the second one.
    have hlive : second.live? (p.slotAfter before c) = some c := by
      rw [hrun]
      exact (extends_performAll hzero).live?_eq ((p.performAll before).live?_store_self c)
    have hindex : (p.slotAfter before c).index < (second.lane l).filled := index_lt_filled hlive
    rw [← h] at hindex
    exact Nat.lt_irrefl _ hindex
  · have hgeneration : second.generation = (p.performAll before).generation :=
      congrArg Slot.generation h
    have hfirst : first.generation = (p.performAll before).generation :=
      generation_withLane _ _ _
    rw [hrun, ← hfirst] at hgeneration
    exact generation_performAll_ne hpos hlt hgeneration

/-- What lies between two places of a sequence. -/
theorem exists_between {op op' : Operation} {before' after' : List Operation}
    (heq : before ++ op :: after = before' ++ op' :: after')
    (hlt : before.length < before'.length) :
    ∃ between, before' = before ++ op :: between ∧ after = between ++ op' :: after' := by
  obtain ⟨front, rfl, hfront⟩ | ⟨front, rfl, -⟩ := List.append_eq_append_iff.1 heq
  · obtain ⟨rfl, -⟩ | ⟨between, rfl, hafter⟩ := List.cons_eq_append_iff.1 hfront
    · simp at hlt
    · exact ⟨between, rfl, hafter⟩
  · simp only [List.length_append] at hlt
    omega

/-- **Stores, reads and resets of a pool.** In a sequence of operations that empties the pool less
often than there are generations, and from whatever pool it starts, let something be stored anywhere
in between.

* If the pool is not emptied behind that, the slot reads as what was stored, whatever else is stored
  before or behind it in any lane.
* If it is, the slot is refused, and nothing is read in its place.
* A slot of the same lane that is handed out in the sequence is the same one exactly if it is handed
  out for the same store. -/
theorem load_slotAfter (p : ScratchPool) (before after : List Operation) (c : Composite l)
    (hresets : resets (before ++ .store c :: after) < UInt64.size) :
    (.reset ∉ after →
        (p.performAll (before ++ .store c :: after)).load? (p.slotAfter before c) = some c) ∧
      (.reset ∈ after →
        (p.performAll (before ++ .store c :: after)).load? (p.slotAfter before c) = none) ∧
      ∀ (before' after' : List Operation) (c' : Composite l),
        before ++ .store c :: after = before' ++ .store c' :: after' →
          (p.slotAfter before c = p.slotAfter before' c' ↔ before.length = before'.length) := by
  have hresets' : resets before + resets after < UInt64.size := by
    rw [resets_append, resets_cons] at hresets
    exact hresets
  -- The pool right behind the store; what happens later is decided by the operations behind it.
  let stored := ((p.performAll before).store c).2
  have hrun : p.performAll (before ++ .store c :: after) = stored.performAll after := by
    rw [performAll_append, performAll_cons]
    rfl
  refine ⟨fun hreset ↦ ?_, fun hreset ↦ ?_, fun before' after' c' heq ↦ ?_⟩
  · have hext : stored.Extends (stored.performAll after) :=
      extends_performAll (resets_eq_zero_iff.2 hreset)
    rw [hrun]
    exact load?_of_live (hext.live?_eq ((p.performAll before).live?_store_self c))
  · have hpos : 0 < resets after :=
      Nat.pos_of_ne_zero fun hzero ↦ resets_eq_zero_iff.1 hzero hreset
    have hlt : resets after < UInt64.size := by omega
    have hgeneration : (p.slotAfter before c).generation = stored.generation :=
      (generation_withLane _ _ _).symm
    rw [hrun, load?_eq_none_iff, hgeneration]
    exact (generation_performAll_ne hpos hlt).symm
  · constructor
    · intro hslot
      -- If one of the stores comes first, what lies between them belongs to the sequence.
      rcases Nat.lt_trichotomy before.length before'.length with hlt | hlength | hlt
      · obtain ⟨between, rfl, rfl⟩ := exists_between heq hlt
        have hbetween : resets between < UInt64.size := by
          rw [resets_append] at hresets'
          omega
        exact absurd hslot.symm (slotAfter_ne p before c c' hbetween)
      · exact hlength
      · obtain ⟨between, rfl, rfl⟩ := exists_between heq.symm hlt
        have hbetween : resets between < UInt64.size := by
          rw [resets_append, resets_cons] at hresets'
          omega
        exact absurd hslot (slotAfter_ne p before' c' c hbetween)
    · intro hlength
      obtain ⟨rfl, htail⟩ := List.append_inj heq hlength
      obtain ⟨hstore, -⟩ := List.cons.inj htail
      cases hstore
      rfl

/-- A colour that is stored between two others: it is read as long as the pool is not emptied, and
what takes its place afterwards is not read for it. -/
theorem load_slotAfter_white :
    let black : Color := .ofChannels 0 0 0 1
    let before : List Operation := [.store black]
    let after : List Operation := [.store black, .reset, .store black, .store black]
    let slot : Slot .color := ScratchPool.empty.slotAfter before Color.white
    resets (before ++ .store Color.white :: after) < UInt64.size ∧
      (ScratchPool.empty.performAll (before ++ .store Color.white :: after.take 1)).load? slot =
        some Color.white ∧
      (ScratchPool.empty.performAll (before ++ .store Color.white :: after)).load? slot = none := by
  intro black before after slot
  have hresets : resets (before ++ .store Color.white :: after) < UInt64.size := by decide
  have hread := load_slotAfter .empty before (after.take 1) Color.white (by decide)
  have hrefused := load_slotAfter .empty before after Color.white hresets
  exact ⟨hresets, hread.1 (by simp [after]), hrefused.2.1 (by simp [after])⟩

end FeatureStyle.ScratchPool
