/-!
# Units of text

A text is a sequence of characters, but two of its measures count something else: the length and the
indices that expressions see count UTF-16 units, and the position of an unclosed placeholder
counts UTF-8 bytes.

A unit that is half of a pair stands for no character. Taken on its own it reads as `replacement`.
-/

namespace FeatureStyle.Text

/-- What half of a pair of units reads as. -/
def replacement : Char := '\uFFFD'

/-- The number of UTF-8 bytes of a text. -/
def byteLength (cs : List Char) : Nat :=
  cs.foldr (fun c n ↦ c.utf8Size + n) 0

/-- The texts that the UTF-16 units of a character read as, each on its own. -/
def charUnits (c : Char) : List Char :=
  if c.toNat < 0x10000 then [c] else [replacement, replacement]

/-- The UTF-16 units of a text, each as the character it reads as on its own. -/
def units (cs : List Char) : List Char :=
  cs.flatMap charUnits

/-- The number of UTF-16 units of a text. -/
def unitLength (cs : List Char) : Nat :=
  (units cs).length

end FeatureStyle.Text
