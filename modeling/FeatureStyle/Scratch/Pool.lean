import FeatureStyle.Value.Composite

/-!
# The scratch pool

Colours and vectors that come up during an evaluation are put into a pool, and the evaluation hands
slots around instead. A `ScratchPool` has one store for each lane; a store keeps its room when it is
emptied, so an evaluation that is repeated needs no new one.

Emptying the pool starts a new generation. A slot belongs to the generation in which it was handed
out, and reading it in another one is a mistake, which `ScratchPool.load?` reports by giving
nothing. A slot that is *live*, of the current generation and filled in it, reads as what was put
there.
-/

namespace FeatureStyle

/-- One lane of a pool. The first `filled` of its items are in use. -/
structure LaneStore (lane : Lane) where
  items : Array (Composite lane)
  filled : Nat
  filled_le : filled ≤ items.size

namespace LaneStore

variable {lane : Lane}

/-- The store without room. -/
def empty : LaneStore lane := ⟨#[], 0, Nat.le_refl 0⟩

/-- The store with another item in use. Unused room is taken before new room is made. -/
def push (s : LaneStore lane) (c : Composite lane) : LaneStore lane :=
  if h : s.filled < s.items.size then
    ⟨s.items.set s.filled c, s.filled + 1, by rw [Array.size_set]; exact h⟩
  else
    ⟨s.items.push c, s.filled + 1, by simpa using s.filled_le⟩

/-- The item at an index, if it is in use. -/
def get? (s : LaneStore lane) (index : Nat) : Option (Composite lane) :=
  if index < s.filled then s.items[index]? else none

/-- The store with nothing in use and all of its room. -/
def rewind (s : LaneStore lane) : LaneStore lane := ⟨s.items, 0, Nat.zero_le _⟩

/-- The room of the store. -/
def capacity (s : LaneStore lane) : Nat := s.items.size

end LaneStore

/-- The place of a colour or vector in a pool, and the generation it was handed out in. -/
structure Slot (lane : Lane) where
  index : Nat
  generation : UInt64
  deriving DecidableEq, Repr

/-- Room for the colours and vectors of an evaluation. -/
structure ScratchPool where
  colors : LaneStore .color
  vec2s : LaneStore .vec2
  vec3s : LaneStore .vec3
  vec4s : LaneStore .vec4
  generation : UInt64

namespace ScratchPool

/-- The pool without room, in its first generation. -/
def empty : ScratchPool := ⟨.empty, .empty, .empty, .empty, 0⟩

/-- The store of a lane. -/
def lane (p : ScratchPool) : (lane : Lane) → LaneStore lane
  | .color => p.colors
  | .vec2 => p.vec2s
  | .vec3 => p.vec3s
  | .vec4 => p.vec4s

/-- The pool with another store for one lane. -/
def withLane (p : ScratchPool) : (lane : Lane) → LaneStore lane → ScratchPool
  | .color, s => { p with colors := s }
  | .vec2, s => { p with vec2s := s }
  | .vec3, s => { p with vec3s := s }
  | .vec4, s => { p with vec4s := s }

/-- Puts a colour or vector into the pool. -/
def store {l : Lane} (p : ScratchPool) (c : Composite l) : Slot l × ScratchPool :=
  (⟨(p.lane l).filled, p.generation⟩, p.withLane l ((p.lane l).push c))

/-- Empties the pool and starts a new generation. -/
def reset (p : ScratchPool) : ScratchPool :=
  ⟨p.colors.rewind, p.vec2s.rewind, p.vec3s.rewind, p.vec4s.rewind, p.generation + 1⟩

/-- What a live slot holds. -/
def live? {l : Lane} (p : ScratchPool) (s : Slot l) : Option (Composite l) :=
  if s.generation = p.generation then (p.lane l).get? s.index else none

/-- What a slot of the current generation holds. One that was never filled reads as blank. -/
def load? {l : Lane} (p : ScratchPool) (s : Slot l) : Option (Composite l) :=
  if s.generation = p.generation then some ((p.live? s).getD (.blank l)) else none

/-- The room of a lane. -/
def capacity (p : ScratchPool) (l : Lane) : Nat := (p.lane l).capacity

end ScratchPool

/-! ### One operation after another -/

namespace LaneStore

variable {lane : Lane}

@[simp] theorem filled_push (s : LaneStore lane) (c : Composite lane) :
    (s.push c).filled = s.filled + 1 := by
  unfold push; split <;> rfl

/-- A composite is stored in the next slot, and those in the others stay. -/
theorem get?_push (s : LaneStore lane) (c : Composite lane) (index : Nat) :
    (s.push c).get? index = if index = s.filled then some c else s.get? index := by
  have := s.filled_le
  unfold push get?
  split <;> grind

/-- After rewinding, no slot is filled. -/
@[simp] theorem get?_rewind (s : LaneStore lane) (index : Nat) : s.rewind.get? index = none := by
  simp [get?, rewind]

/-- The capacity is kept. -/
@[simp] theorem capacity_rewind (s : LaneStore lane) : s.rewind.capacity = s.capacity := rfl

/-- It grows only when all slots are filled. -/
theorem capacity_push (s : LaneStore lane) (c : Composite lane) :
    (s.push c).capacity = max s.capacity (s.filled + 1) := by
  have := s.filled_le
  unfold push capacity
  split
  · simp only [Array.size_set]; omega
  · simp only [Array.size_push]; omega

end LaneStore

namespace ScratchPool

@[simp] theorem lane_withLane (p : ScratchPool) (l : Lane) (s : LaneStore l) :
    (p.withLane l s).lane l = s := by
  cases l <;> rfl

/-- The lanes do not touch one another. -/
theorem lane_withLane_of_ne (p : ScratchPool) {l l' : Lane} (h : l' ≠ l) (s : LaneStore l) :
    (p.withLane l s).lane l' = p.lane l' := by
  cases l <;> cases l' <;> simp_all [lane, withLane]

@[simp] theorem generation_withLane (p : ScratchPool) (l : Lane) (s : LaneStore l) :
    (p.withLane l s).generation = p.generation := by
  cases l <;> rfl

/-- **A reset rewinds every lane.** -/
@[simp] theorem lane_reset (p : ScratchPool) (l : Lane) : p.reset.lane l = (p.lane l).rewind := by
  cases l <;> rfl

/-- **It begins a new generation.** -/
@[simp] theorem generation_reset (p : ScratchPool) : p.reset.generation = p.generation + 1 := rfl

end ScratchPool

end FeatureStyle
