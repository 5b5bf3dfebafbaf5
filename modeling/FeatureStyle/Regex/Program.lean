import FeatureStyle.Regex.Basic

/-!
# Programs that match

A tree is run as a list of instructions. `Inst.split` tries its first target before its second, so
the order of the targets is the preference between alternatives, and the first match in that order
is the one that counts.

A repetition of a body that always uses up a character is the usual loop. Where the body may match
the empty text, `x*` is laid out as `(x+)?`: in the plain loop the preference for leaving it would
come too early once the body has matched nothing.
-/

namespace FeatureStyle.Regex

/-- An instruction; targets are positions in the program. -/
inductive Inst
  | char (s : CharSet)
  | assert (a : Assertion)
  | jump (target : Nat)
  | split (first second : Nat)
  | save (slot : Nat)
  | accept

namespace Inst

/-- A split that prefers `enter` if it is greedy. -/
def choose (greedy : Bool) (enter leave : Nat) : Inst :=
  if greedy then .split enter leave else .split leave enter

/-- `n` copies of the code that `body` lays out, from `start` on. -/
def copies (body : Nat → List Inst) : Nat → Nat → List Inst
  | 0, _ => []
  | n + 1, start =>
    let first := body start
    first ++ copies body n (start + first.length)

/-- The body at least once, from `start` on. -/
def oneOrMore (greedy : Bool) (body : Nat → List Inst) (start : Nat) : List Inst :=
  let code := body start
  let loop := start + code.length
  code ++ [choose greedy start (loop + 1)]

/-- The body any number of times, from `start` on. -/
def zeroOrMore (greedy mayBeEmpty : Bool) (body : Nat → List Inst) (start : Nat) : List Inst :=
  if mayBeEmpty then
    let code := oneOrMore greedy body (start + 1)
    choose greedy (start + 1) (start + 1 + code.length) :: code
  else
    let code := body (start + 1)
    choose greedy (start + 1) (start + 2 + code.length) :: code ++ [.jump start]

/-- The body up to `n` times, from `start` on, where `size` is the length of its code. Every copy is
entered by a choice that may leave for the end. -/
def upTo (greedy : Bool) (body : Nat → List Inst) (size : Nat) : Nat → Nat → List Inst
  | 0, _ => []
  | n + 1, start =>
    choose greedy (start + 1) (start + (n + 1) * (size + 1)) ::
      body (start + 1) ++ upTo greedy body size n (start + 1 + size)

/-- The code of a repetition, from `start` on. -/
def repetition (greedy mayBeEmpty : Bool) (least : Nat) (most : Option Nat)
    (body : Nat → List Inst) (start : Nat) : List Inst :=
  match most with
  | none =>
    match least with
    | 0 => zeroOrMore greedy mayBeEmpty body start
    | n + 1 =>
      let first := copies body n start
      first ++ oneOrMore greedy body (start + first.length)
  | some most =>
    let first := copies body least start
    first ++ upTo greedy body (body 0).length (most - least) (start + first.length)

end Inst

namespace Tree

mutual

/-- The code of a tree that starts at the given position and goes on behind its end. -/
def code : Tree → Nat → List Inst
  | .set s, _ => [.char s]
  | .assert a, _ => [.assert a]
  | .group none body, start => body.code start
  | .group (some i) body, start =>
    .save (2 * i) :: body.code (start + 1) ++ [.save (2 * i + 1)]
  | .seq parts, start => seqCode parts start
  | .alt branches, start => altCode branches start
  | .rep body least most greedy, start =>
    Inst.repetition greedy body.matchesEmpty least most (fun s ↦ body.code s) start

def seqCode : List Tree → Nat → List Inst
  | [], _ => []
  | t :: ts, start =>
    let first := t.code start
    first ++ seqCode ts (start + first.length)

def altCode : List Tree → Nat → List Inst
  | [], _ => []
  | [t], start => t.code start
  | t :: ts, start =>
    let first := t.code (start + 1)
    let next := start + 2 + first.length
    let rest := altCode ts next
    .split (start + 1) next :: first ++ .jump (next + rest.length) :: rest

end

/-- The program of a tree: slots 0 and 1 hold the ends of the whole match. -/
def program (t : Tree) : Array Inst :=
  (Inst.save 0 :: t.code 1 ++ [Inst.save 1, Inst.accept]).toArray

end Tree

end FeatureStyle.Regex
