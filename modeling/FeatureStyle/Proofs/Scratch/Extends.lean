import FeatureStyle.Scratch.Pool

/-!
# Pools that grow

A pool **extends** another when it is of the same generation and every slot that was live is live
still and holds what it held. Storing extends a pool (`extends_store`), because the store of a lane
is filled from its cursor on and what lies behind the cursor is left alone. A pool that has just
been emptied has no live slot at all (`live?_reset`), whatever room and cursors it had before; so a
slot that is live later on was filled since.
-/

namespace FeatureStyle.ScratchPool

/-- The pool after some stores: no slot that was live is lost, and none is overwritten. -/
structure Extends (before after : ScratchPool) : Prop where
  generation_eq : after.generation = before.generation
  live?_eq : ∀ {l : Lane} {s : Slot l} {c : Composite l}, before.live? s = some c →
    after.live? s = some c

namespace Extends

theorem refl (p : ScratchPool) : p.Extends p := ⟨rfl, id⟩

theorem trans {p q r : ScratchPool} (hpq : p.Extends q) (hqr : q.Extends r) : p.Extends r :=
  ⟨hqr.generation_eq.trans hpq.generation_eq, fun h ↦ hqr.live?_eq (hpq.live?_eq h)⟩

end Extends

/-- **Nothing is live in a pool that has just been emptied.** -/
theorem live?_reset (p : ScratchPool) {l : Lane} (s : Slot l) : p.reset.live? s = none := by
  simp [live?]

/-- A live slot lies before the cursor of its lane. -/
theorem index_lt_filled {p : ScratchPool} {l : Lane} {s : Slot l} {c : Composite l}
    (h : p.live? s = some c) : s.index < (p.lane l).filled := by
  unfold live? LaneStore.get? at h
  split at h
  · split at h
    · assumption
    · cases h
  · cases h

/-- What a lane holds after something has been stored: the new item at the cursor, and everything
else as before. -/
theorem live?_store (p : ScratchPool) {l l' : Lane} (c : Composite l) (s : Slot l')
    (hs : s.index < (p.lane l').filled) : (p.store c).2.live? s = p.live? s := by
  simp only [store, live?, generation_withLane]
  -- Another lane is not touched; in the same lane the new item lies at the cursor, behind the slot.
  by_cases hl : l' = l
  · subst hl
    rw [lane_withLane, LaneStore.get?_push, if_neg (Nat.ne_of_lt hs)]
  · rw [lane_withLane_of_ne p hl]

/-- Storing extends the pool. -/
theorem extends_store (p : ScratchPool) {l : Lane} (c : Composite l) :
    p.Extends (p.store c).2 := by
  refine ⟨by simp [store], fun {l' s c'} h ↦ ?_⟩
  rw [live?_store p c s (index_lt_filled h), h]

/-- The slot that is handed out is live and holds what was stored. -/
theorem live?_store_self (p : ScratchPool) {l : Lane} (c : Composite l) :
    (p.store c).2.live? (p.store c).1 = some c := by
  simp [store, live?, LaneStore.get?_push]

end FeatureStyle.ScratchPool
