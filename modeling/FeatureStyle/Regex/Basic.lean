import FeatureStyle.Regex.CharSet

/-!
# Regular expressions as trees

The tree that a pattern denotes once its flags have been applied: case-insensitive letters are sets,
a line anchor knows whether it is one, and a lazy operator is marked as such.

Besides the tree, this module holds the measures that decide how a repetition is run and whether a
pattern is accepted at all: whether the tree can match the empty text, whether it can match only the
empty text, how deep it is, and how large its automaton would be.
-/

namespace FeatureStyle.Regex

/-- A condition on a position in the text. -/
inductive Assertion
  | startText
  | endText
  | startLine (crlf : Bool)
  | endLine (crlf : Bool)
  | wordBoundary (unicode : Bool)
  | notWordBoundary (unicode : Bool)
  | wordStart (unicode : Bool)
  | wordEnd (unicode : Bool)
  | wordStartHalf (unicode : Bool)
  | wordEndHalf (unicode : Bool)
  deriving DecidableEq, Repr

/-- A regular expression. -/
inductive Tree
  /-- One character of the set. -/
  | set (s : CharSet)
  /-- No character, where the condition holds. -/
  | assert (a : Assertion)
  /-- A group, with its number if it captures. -/
  | group (index : Option Nat) (body : Tree)
  /-- The parts one after the other. -/
  | seq (parts : List Tree)
  /-- The first of the branches that leads to a match. -/
  | alt (branches : List Tree)
  /-- The body between `least` and `most` times; a greedy repetition prefers more. -/
  | rep (body : Tree) (least : Nat) (most : Option Nat) (greedy : Bool)

namespace Tree

mutual

/-- Whether the tree may match the empty text. -/
def matchesEmpty : Tree → Bool
  | .set _ => false
  | .assert _ => true
  | .group _ body => body.matchesEmpty
  | .seq parts => allMatchEmpty parts
  | .alt branches => someMatchesEmpty branches
  | .rep body least _ _ => least == 0 || body.matchesEmpty

def allMatchEmpty : List Tree → Bool
  | [] => true
  | t :: ts => t.matchesEmpty && allMatchEmpty ts

def someMatchesEmpty : List Tree → Bool
  | [] => false
  | t :: ts => t.matchesEmpty || someMatchesEmpty ts

end

mutual

/-- Whether the tree can match nothing but the empty text. -/
def onlyEmpty : Tree → Bool
  | .set _ => false
  | .assert _ => true
  | .group _ body => body.onlyEmpty
  | .seq parts => allOnlyEmpty parts
  | .alt branches => allOnlyEmpty branches
  | .rep body _ most _ => most == some 0 || body.onlyEmpty

def allOnlyEmpty : List Tree → Bool
  | [] => true
  | t :: ts => t.onlyEmpty && allOnlyEmpty ts

end

mutual

/-- The number of nested groups, repetitions, sequences and alternatives. -/
def depth : Tree → Nat
  | .set _ | .assert _ => 0
  | .group _ body => body.depth + 1
  | .seq parts => maxDepth parts + (if parts.length < 2 then 0 else 1)
  | .alt branches => maxDepth branches + (if branches.length < 2 then 0 else 1)
  | .rep body _ _ _ => body.depth + 1

def maxDepth : List Tree → Nat
  | [] => 0
  | t :: ts => max t.depth (maxDepth ts)

end

/-- The size of the states for one set: a range beyond ASCII takes several states. -/
def setSize (s : CharSet) : Nat :=
  s.ranges.foldl (fun n r ↦ n + if r.2 < 0x80 then 8 else 26) 32

mutual

/-- An estimate of the size in bytes of the automaton of the tree, all repetitions written out. -/
def size : Tree → Nat
  | .set s => setSize s
  | .assert _ => 32
  | .group _ body => body.size + 64
  | .seq parts => sizes parts
  | .alt branches => sizes branches + 32
  | .rep body least most _ =>
    match most with
    | none => body.size * max least 1 + 64
    | some n => if body.onlyEmpty then body.size + 64 else (body.size + 36) * n + 32

def sizes : List Tree → Nat
  | [] => 0
  | t :: ts => t.size + sizes ts

end

/-- The repetition of a tree, in the form that is run: a body that only matches the empty text is
never repeated, no repetition at all is the empty sequence, and exactly one is the body. -/
def repeated (body : Tree) (least : Nat) (most : Option Nat) (greedy : Bool) : Tree :=
  let bounds :=
    if body.onlyEmpty then (min least 1, some (min (most.getD 1) 1)) else (least, most)
  if bounds = (0, some 0) then .seq []
  else if bounds = (1, some 1) then body
  else .rep body bounds.1 bounds.2 greedy

end Tree

end FeatureStyle.Regex
