import FeatureStyle.Eval.Term
import FeatureStyle.Proofs.Scratch.Extends

/-!
# What is stored in a pool

A list of colours and vectors that are stored one after another says all about the pool behind them
(`ScratchPool.storeAll`): its generation is the one before, every lane has as many items more in use
as the list has values of that lane, and the room of a lane is what it was or, if that is not
enough, just what is needed (`capacity_storeAll`). After the pool has been emptied only the list
counts (`capacity_storeAll_reset`).

Putting a value into a pool stores the colours and vectors in it, from left to right
(`Term.snd_intern`).
-/

namespace FeatureStyle

/-- A colour or vector. -/
abbrev Stored : Type := (l : Lane) × Composite l

/-- How many of the values are of a lane. -/
def Stored.count (l : Lane) (stored : List Stored) : Nat := stored.countP (·.1 = l)

namespace ScratchPool

/-- The pool with colours and vectors stored, one after another. -/
def storeAll (p : ScratchPool) (stored : List Stored) : ScratchPool :=
  stored.foldl (fun p c ↦ (p.store c.2).2) p

variable (p : ScratchPool)

theorem storeAll_append (stored more : List Stored) :
    p.storeAll (stored ++ more) = (p.storeAll stored).storeAll more := List.foldl_append

theorem extends_storeAll (stored : List Stored) : p.Extends (p.storeAll stored) := by
  induction stored generalizing p with
  | nil => exact .refl p
  | cons c stored ih => exact (p.extends_store c.2).trans (ih _)

theorem generation_storeAll (stored : List Stored) :
    (p.storeAll stored).generation = p.generation :=
  (p.extends_storeAll stored).generation_eq

/-- The lanes after a store. -/
theorem capacity_store (c : Stored) (l : Lane) :
    (p.store c.2).2.capacity l =
      if c.1 = l then max (p.capacity l) ((p.lane l).filled + 1) else p.capacity l := by
  obtain ⟨l', c⟩ := c
  split
  · next h =>
    obtain rfl : l' = l := h
    simp only [capacity, store, lane_withLane, LaneStore.capacity_push]
  · next h =>
    simp only [capacity, store, lane_withLane_of_ne p (Ne.symm h)]

theorem filled_store (c : Stored) (l : Lane) :
    ((p.store c.2).2.lane l).filled = (p.lane l).filled + if c.1 = l then 1 else 0 := by
  obtain ⟨l', c⟩ := c
  split
  · next h =>
    obtain rfl : l' = l := h
    simp only [store, lane_withLane, LaneStore.filled_push]
  · next h =>
    simp only [store, lane_withLane_of_ne p (Ne.symm h), Nat.add_zero]

/-- Room is made only when there is none left. -/
theorem capacity_storeAll (stored : List Stored) (l : Lane) :
    (p.storeAll stored).capacity l =
      max (p.capacity l) ((p.lane l).filled + Stored.count l stored) := by
  induction stored generalizing p with
  | nil => exact (Nat.max_eq_left (p.lane l).filled_le).symm
  | cons c stored ih =>
    have hcount : Stored.count l (c :: stored) =
        Stored.count l stored + if c.1 = l then 1 else 0 := by
      simp [Stored.count, List.countP_cons]
    have hstep : (p.storeAll (c :: stored)).capacity l =
        ((p.store c.2).2.storeAll stored).capacity l := rfl
    rw [hstep, ih, capacity_store, filled_store, hcount]
    split <;> omega

/-- **In a pool that is emptied first, a lane has the room that it had, or as much as is stored
in it.** -/
theorem capacity_storeAll_reset (stored : List Stored) (l : Lane) :
    (p.reset.storeAll stored).capacity l = max (p.capacity l) (Stored.count l stored) := by
  have hcapacity : p.reset.capacity l = p.capacity l := by
    rw [capacity, lane_reset, LaneStore.capacity_rewind, capacity]
  have hfilled : (p.reset.lane l).filled = 0 := by
    rw [lane_reset]
    rfl
  rw [capacity_storeAll, hcapacity, hfilled, Nat.zero_add]

end ScratchPool

/-! ### Values -/

mutual

/-- The colours and vectors in a value, from left to right. -/
def Value.composites : Value → List Stored
  | .composite l c => [⟨l, c⟩]
  | .array items => compositesOfItems items
  | _ => []

/-- The colours and vectors in values. -/
def Value.compositesOfItems : List Value → List Stored
  | [] => []
  | v :: vs => v.composites ++ compositesOfItems vs

end

namespace Term

mutual

/-- **Putting a value into a pool stores the colours and vectors in it.** -/
theorem snd_intern : ∀ (v : Value) (pool : ScratchPool),
    (intern v pool).2 = pool.storeAll v.composites
  | .undefined, _ | .null, _ | .bool _, _ | .number _, _ | .string _, _ | .regExp _, _
  | .composite _ _, _ => rfl
  | .array vs, pool => snd_internItems vs pool

theorem snd_internItems : ∀ (vs : List Value) (pool : ScratchPool),
    (internItems vs pool).2 = pool.storeAll (Value.compositesOfItems vs)
  | [], _ => rfl
  | v :: vs, pool => by
    calc (internItems (v :: vs) pool).2
        = (internItems vs (intern v pool).2).2 := rfl
      _ = (intern v pool).2.storeAll (Value.compositesOfItems vs) := snd_internItems vs _
      _ = pool.storeAll (v.composites ++ Value.compositesOfItems vs) := by
        rw [snd_intern v pool, ScratchPool.storeAll_append]
      _ = pool.storeAll (Value.compositesOfItems (v :: vs)) := by
        rw [Value.compositesOfItems]

end

end Term

end FeatureStyle
