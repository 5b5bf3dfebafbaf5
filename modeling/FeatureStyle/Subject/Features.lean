import FeatureStyle.Subject.Dialogue
import FeatureStyle.Subject.Properties

/-!
# Features

A feature with named properties, the classes it is of, perhaps the one class it is exactly of, and
the time since it was loaded.

Putting in a property again replaces it. Being of exactly one class makes the feature one of that
class too.
-/

namespace FeatureStyle

/-- A feature and what is known about it. -/
structure Feature where
  properties : Properties Value
  className : Option String
  classes : List String
  timeSinceLoad : Float

namespace Feature

/-- The feature that nothing is known about. -/
def empty : Feature := ⟨.empty, none, [], 0⟩

/-- The feature with a property put in. -/
def insert (f : Feature) (name : String) (v : Value) : Feature :=
  { f with properties := f.properties.insert name v }

/-- The feature as one of a class. -/
def addClass (f : Feature) (name : String) : Feature :=
  { f with classes := if f.classes.contains name then f.classes else name :: f.classes }

/-- The feature as one of exactly a class. -/
def withClass (f : Feature) (name : String) : Feature :=
  { f.addClass name with className := some name }

/-- The feature at another time since it was loaded. -/
def withTime (f : Feature) (seconds : Float) : Feature :=
  { f with timeSinceLoad := seconds }

/-- The number of properties. -/
def size (f : Feature) : Nat := f.properties.size

def isEmpty (f : Feature) : Bool := f.properties.entries.isEmpty

def property? (f : Feature) (name : String) : Option Value := f.properties.get? name

def isClass (f : Feature) (name : String) : Bool := f.classes.contains name

def isExactClass (f : Feature) (name : String) : Bool := f.className == some name

/-- The feature as what answers questions. -/
def subject (f : Feature) : Subject where
  property := f.property?
  isClass := f.isClass
  isExactClass := f.isExactClass
  exactClassName := f.className
  timeSinceLoad := f.timeSinceLoad

/-! ### Looking up what was put in -/

@[simp] theorem property?_insert (f : Feature) (name key : String) (v : Value) :
    (f.insert name v).property? key = if key = name then some v else f.property? key :=
  f.properties.get?_insert name key v

@[simp] theorem isClass_addClass (f : Feature) (name key : String) :
    (f.addClass name).isClass key = (key == name || f.isClass key) := by
  simp only [addClass, isClass]
  grind

end Feature

end FeatureStyle
