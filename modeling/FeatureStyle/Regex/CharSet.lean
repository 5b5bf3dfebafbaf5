/-!
# Sets of characters

A set of characters is a list of ranges of code points, in increasing order and apart from each
other. `CharSet.ofRanges` puts any list of ranges into this form, and every operation goes through
it.

Code points that are no characters may be in a set: no text has them, so they never make a
difference, and complements need no exception for them.
-/

namespace FeatureStyle.Regex

/-- A set of code points as increasing ranges. -/
structure CharSet where
  ranges : List (Nat × Nat)
  deriving DecidableEq, Repr

namespace CharSet

/-- The largest code point. -/
def top : Nat := 0x10FFFF

/-- Joins ranges that touch, in a list ordered by lower end. -/
def join : List (Nat × Nat) → List (Nat × Nat)
  | [] => []
  | (lo, hi) :: rest =>
    match join rest with
    | [] => [(lo, hi)]
    | (lo', hi') :: more =>
      if lo' ≤ hi + 1 then (lo, max hi hi') :: more else (lo, hi) :: (lo', hi') :: more

/-- The set of the code points in any of the ranges. -/
def ofRanges (ranges : List (Nat × Nat)) : CharSet :=
  ⟨join ((ranges.filter fun r ↦ r.1 ≤ r.2).mergeSort fun a b ↦ decide (a.1 ≤ b.1))⟩

/-- The set of one character. -/
def singleton (c : Char) : CharSet := ⟨[(c.toNat, c.toNat)]⟩

/-- No character. -/
def none : CharSet := ⟨[]⟩

/-- Every character. -/
def any : CharSet := ⟨[(0, top)]⟩

/-- Whether the code point is in the set. -/
def hasCode (s : CharSet) (n : Nat) : Bool :=
  s.ranges.any fun r ↦ r.1 ≤ n && n ≤ r.2

/-- Whether the character is in the set. -/
def contains (s : CharSet) (c : Char) : Bool := s.hasCode c.toNat

def union (s t : CharSet) : CharSet := ofRanges (s.ranges ++ t.ranges)

/-- The gaps between ranges, from `start` on. -/
def gaps (start : Nat) : List (Nat × Nat) → List (Nat × Nat)
  | [] => if start ≤ top then [(start, top)] else []
  | (lo, hi) :: rest =>
    if start < lo then (start, lo - 1) :: gaps (hi + 1) rest else gaps (hi + 1) rest

def complement (s : CharSet) : CharSet := ⟨gaps 0 s.ranges⟩

def inter (s t : CharSet) : CharSet := (s.complement.union t.complement).complement

def difference (s t : CharSet) : CharSet := s.inter t.complement

def symmetricDifference (s t : CharSet) : CharSet := (s.difference t).union (t.difference s)

/-- Closes a set under a table of pairs that sends every character to the representative of its
class; representatives are not listed. -/
def closeUnder (pairs : List (Nat × Nat)) (s : CharSet) : CharSet :=
  let representatives := pairs.filterMap fun p ↦ if s.hasCode p.1 then some (p.2, p.2) else .none
  let s := s.union (ofRanges representatives)
  let members := pairs.filterMap fun p ↦ if s.hasCode p.2 then some (p.1, p.1) else .none
  s.union (ofRanges members)

/-! ### Tables -/

/-- The value of a hexadecimal number. -/
def hexValue (cs : List Char) : Nat :=
  cs.foldl (fun n c ↦ 16 * n + (if c.isDigit then c.toNat - 48 else c.toNat - 55)) 0

/-- One entry of a table of ranges: a code point, or two with a hyphen between them. -/
def entryRange (cs : List Char) : Nat × Nat :=
  match cs.span (· ≠ '-') with
  | (lo, '-' :: hi) => (hexValue lo, hexValue hi)
  | (lo, _) => (hexValue lo, hexValue lo)

/-- The set that lines of a table list: hexadecimal code points and ranges between blanks. -/
def ofTable (lines : List String) : CharSet :=
  ofRanges (lines.flatMap fun line ↦ (line.toList.splitOn ' ').map entryRange)

end CharSet

end FeatureStyle.Regex
