import FeatureStyle.Regex.Program
import FeatureStyle.Regex.Escape

/-!
# Searching a text

`Matcher.captures?` finds the leftmost match, and of the matches that start there the one that the
preferences of the program put first. It follows the preferred way first and comes back for the
others.

A state is a position in the program together with one in the text. Whether a match can be reached
from a state does not depend on how the state was reached, so a state that has been left without a
match is never entered again: this bounds the number of steps by the number of states.
-/

namespace FeatureStyle.Regex

/-- A program with the number of its capturing groups. -/
structure Matcher where
  program : Array Inst
  groups : Nat

/-- Whether the character belongs to words. -/
def isWordChar (unicode : Bool) (c : Char) : Bool :=
  if unicode then Property.word.contains c else asciiWord.contains c

/-- Whether the condition holds at a position of the text. -/
def Assertion.holds (a : Assertion) (text : Array Char) (i : Nat) : Bool :=
  let before := if i = 0 then none else text[i - 1]?
  let after := text[i]?
  let word (unicode : Bool) (c? : Option Char) : Bool := c?.any (isWordChar unicode)
  match a with
  | .startText => before.isNone
  | .endText => after.isNone
  | .startLine false => before.all (· == '\n')
  | .startLine true =>
    before.all fun c ↦ c == '\n' || (c == '\r' && after != some '\n')
  | .endLine false => after.all (· == '\n')
  | .endLine true =>
    after.all fun c ↦ c == '\r' || (c == '\n' && before != some '\r')
  | .wordBoundary u => word u before != word u after
  | .notWordBoundary u => word u before == word u after
  | .wordStart u => !word u before && word u after
  | .wordEnd u => word u before && !word u after
  | .wordStartHalf u => !word u before
  | .wordEndHalf u => !word u after

namespace Matcher

/-- A state that is still to be entered: the positions in the program and in the text, and the slots
saved on the way. -/
structure Pending where
  pc : Nat
  index : Nat
  slots : Array (Option Nat)

/-- What one step into a state leads to. -/
inductive Step
  | accept
  | goto (next : List Pending)

/-- One step from a state. -/
def step (m : Matcher) (text : Array Char) (p : Pending) : Step :=
  match m.program[p.pc]? with
  | none => .goto []
  | some inst =>
    match inst with
    | .accept => .accept
    | .char s =>
      match text[p.index]? with
      | some c => if s.contains c then .goto [⟨p.pc + 1, p.index + 1, p.slots⟩] else .goto []
      | none => .goto []
    | .assert a => if a.holds text p.index then .goto [{ p with pc := p.pc + 1 }] else .goto []
    | .jump target => .goto [{ p with pc := target }]
    | .split first second => .goto [{ p with pc := first }, { p with pc := second }]
    | .save slot => .goto [⟨p.pc + 1, p.index, p.slots.setIfInBounds slot (some p.index)⟩]

/-- Follows the pending states, the first one first. Gives the slots of the first match, or else the
states that have been visited. -/
def explore (m : Matcher) (text : Array Char) : Nat → List Pending → Array Bool →
    Array (Option Nat) ⊕ Array Bool
  | 0, _, visited | _, [], visited => .inr visited
  | fuel + 1, p :: rest, visited =>
    let state := p.pc * (text.size + 1) + p.index
    if visited.getD state true then explore m text fuel rest visited
    else
      match m.step text p with
      | .accept => .inl p.slots
      | .goto next => explore m text fuel (next ++ rest) (visited.setIfInBounds state true)

/-- Tries the starts from `index` on, `count` of them. -/
def searchFrom (m : Matcher) (text : Array Char) (fuel : Nat) :
    Nat → Nat → Array Bool → Option (Array (Option Nat))
  | 0, _, _ => none
  | count + 1, index, visited =>
    match m.explore text fuel [⟨0, index, .replicate (2 * (m.groups + 1)) none⟩] visited with
    | .inl slots => some slots
    | .inr visited => searchFrom m text fuel count (index + 1) visited

/-- The slots of the match, if there is one. A state is left for at most two others, so there are
never more steps than twice the number of states, and one. -/
def captures? (m : Matcher) (text : Array Char) : Option (Array (Option Nat)) :=
  let states := m.program.size * (text.size + 1)
  m.searchFrom text (2 * states + 2) (text.size + 1) 0 (.replicate states false)

/-- The part of the text between two slots. -/
def slice? (text : Array Char) (slots : Array (Option Nat)) (group : Nat) : Option (List Char) := do
  let start ← (slots[2 * group]?).join
  let stop ← (slots[2 * group + 1]?).join
  return (text.extract start stop).toList

end Matcher

end FeatureStyle.Regex
