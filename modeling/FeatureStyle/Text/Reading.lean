/-!
# Reading from the front of a text

A reader takes something from the front of a text and gives back the rest. It carries the proof that
the rest is shorter, so that readers can call each other and still be seen to come to an end.
-/

namespace FeatureStyle.Text

/-- What has been read from the front of a text, and the rest, which is shorter. -/
structure Taken (α : Type) (text : List Char) where
  value : α
  rest : List Char
  shorter : rest.length < text.length

/-- What has been read from the front of a text, which may be nothing, and the rest. -/
structure MaybeTaken (α : Type) (text : List Char) where
  value : α
  rest : List Char
  notLonger : rest.length ≤ text.length

/-- What a reader gives. -/
abbrev Reading (α : Type) (text : List Char) := Option (Taken α text)

variable {α β : Type} {text : List Char} {c : Char}

/-- Something made of what has been read. -/
def Taken.map (f : α → β) (t : Taken α text) : Taken β text := ⟨f t.value, t.rest, t.shorter⟩

@[inherit_doc Taken.map]
def MaybeTaken.map (f : α → β) (t : MaybeTaken α text) : MaybeTaken β text :=
  ⟨f t.value, t.rest, t.notLonger⟩

/-- The same behind a character that is passed over. -/
def Taken.behind (t : Taken α text) : Taken α (c :: text) :=
  ⟨t.value, t.rest, Nat.lt_succ_of_lt t.shorter⟩

@[inherit_doc Taken.behind]
def MaybeTaken.behind (t : MaybeTaken α text) : Taken α (c :: text) :=
  ⟨t.value, t.rest, Nat.lt_succ_of_le t.notLonger⟩

/-- The same where nothing would have done as well. -/
def Taken.toMaybe (t : Taken α text) : MaybeTaken α text :=
  ⟨t.value, t.rest, Nat.le_of_lt t.shorter⟩

/-- The longest front of a text whose characters have a property, and the rest. -/
def takeWhile (p : Char → Bool) (text : List Char) : MaybeTaken (List Char) text :=
  ⟨text.takeWhile p, text.dropWhile p, (List.dropWhile_suffix p).length_le⟩

end FeatureStyle.Text
