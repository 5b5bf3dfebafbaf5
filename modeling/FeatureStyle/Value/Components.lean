import FeatureStyle.Value.Composite

/-!
# Rows of components

The arguments of a vector contribute components one after another. They are put into a
`ComponentRow`, which has room for a fixed number of them. A component that finds no room is not
kept, but it counts: the number of components is that of all that were put in.
-/

namespace FeatureStyle

/-- The number of components that a row has room for. -/
def ComponentRow.room : Nat := 16

/-- Components and the number of those that were put in. -/
structure ComponentRow where
  slots : Vector Float32 ComponentRow.room
  count : Nat

namespace ComponentRow

def empty : ComponentRow := ⟨.replicate room 0, 0⟩

/-- The row with one more component. -/
def push (r : ComponentRow) (x : Float32) : ComponentRow :=
  ⟨r.slots.setIfInBounds r.count x, r.count + 1⟩

/-- The row that components are put into from left to right. -/
def ofList (components : List Float32) : ComponentRow := components.foldl push empty

theorem room_pos : 0 < room := by decide

/-- There is room for every kind of colour or vector. -/
theorem size_le_room (lane : Lane) : lane.size ≤ room := by
  cases lane <;> decide

/-- The component in the first slot in every place. -/
def spread (r : ComponentRow) (lane : Lane) : Composite lane :=
  .replicate lane.size (r.slots.get ⟨0, room_pos⟩)

/-- The components in the first slots. -/
def front (r : ComponentRow) (lane : Lane) : Composite lane :=
  .ofFn fun i ↦ r.slots.get (i.castLE (size_le_room lane))

end ComponentRow

end FeatureStyle
