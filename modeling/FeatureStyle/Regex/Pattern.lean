import FeatureStyle.Regex.Parser
import FeatureStyle.Regex.Search

/-!
# Compiled patterns

A `Pattern` is what expressions handle as a regular expression: its source, its flags, and the
matcher that the two determine. Two patterns are equal when their sources and flags are.

The flags are letters: `i` ignores case, `m` lets line anchors match inside the text, `s` lets a dot
match a line feed, and `g`, `y` and `u` change nothing. A letter is given at most once. The flags
are looked at before the source.
-/

namespace FeatureStyle

/-- Why a pattern cannot be compiled. -/
inductive PatternError
  | invalidFlags (flags : String)
  | invalidSource (source : String) (fault : Regex.Fault)
  deriving DecidableEq, Repr

namespace PatternError

/-- The error as a text; `explain` words the fault of the source. -/
def message (explain : Regex.Fault → String) : PatternError → String
  | .invalidFlags flags => s!"invalid regular expression flags `{flags}`"
  | .invalidSource source fault => s!"invalid regular expression /{source}/: {explain fault}"

end PatternError

namespace Regex

/-- The mode that a pattern starts in. -/
def Mode.initial : Mode :=
  { caseless := false, multiline := false, dotAll := false, lazy := false, crlf := false
    unicode := true, spaced := false }

/-- The mode with flags put on, or nothing if they are not flags or one is given twice. -/
def Mode.withFlags? : Mode → List Char → Option Mode
  | mode, [] => some mode
  | mode, c :: cs =>
    if cs.contains c then none
    else
      match c with
      | 'i' => withFlags? { mode with caseless := true } cs
      | 'm' => withFlags? { mode with multiline := true } cs
      | 's' => withFlags? { mode with dotAll := true } cs
      | 'g' | 'y' | 'u' => withFlags? mode cs
      | _ => none

/-- The matcher that a source and flags determine. -/
def Matcher.ofSource (source flags : String) : Except PatternError Matcher :=
  match Mode.initial.withFlags? flags.toList with
  | none => .error (.invalidFlags flags)
  | some mode =>
    match Tree.parse mode source.toList with
    | .error fault => .error (.invalidSource source fault)
    | .ok (tree, groups) => .ok ⟨tree.program, groups⟩

end Regex

/-- A compiled regular expression. -/
structure Pattern where
  source : String
  flags : String
  matcher : Regex.Matcher
  matcher_eq : Regex.Matcher.ofSource source flags = .ok matcher

namespace Pattern

/-- Patterns are the same when they are written the same. -/
theorem ext {p q : Pattern} (hs : p.source = q.source) (hf : p.flags = q.flags) : p = q := by
  obtain ⟨s, f, m, hm⟩ := p
  obtain ⟨s', f', m', hm'⟩ := q
  obtain rfl : s = s' := hs
  obtain rfl : f = f' := hf
  obtain rfl : m = m' := by injection hm.symm.trans hm'
  rfl

instance : DecidableEq Pattern := fun p q ↦
  if h : p.source = q.source ∧ p.flags = q.flags then .isTrue (ext h.1 h.2)
  else .isFalse fun e ↦ h ⟨e ▸ rfl, e ▸ rfl⟩

/-- Compiles a source under flags. -/
def compile (source flags : String) : Except PatternError Pattern :=
  match h : Regex.Matcher.ofSource source flags with
  | .error e => .error e
  | .ok m => .ok ⟨source, flags, m, h⟩

/-- Whether the pattern matches somewhere in the text. -/
def test (p : Pattern) (text : String) : Bool :=
  (p.matcher.captures? text.toList.toArray).isSome

/-- What a search for the pattern gives. -/
inductive SearchResult
  /-- The pattern does not match. -/
  | noMatch
  /-- It matches, but there is no first group or the group took no part. -/
  | noGroup
  /-- It matches, and this is what the first group matched. -/
  | group (text : String)
  deriving DecidableEq, Repr

/-- The first group of the first match. -/
def exec (p : Pattern) (text : String) : SearchResult :=
  let chars := text.toList.toArray
  match p.matcher.captures? chars with
  | none => .noMatch
  | some slots =>
    match Regex.Matcher.slice? chars slots 1 with
    | none => .noGroup
    | some group => .group (String.ofList group)

/-- The pattern between slashes, then its flags. An empty source is written as an empty group. -/
def text (p : Pattern) : String :=
  let source := if p.source.isEmpty then "(?:)" else p.source
  s!"/{source}/{p.flags}"

end Pattern

end FeatureStyle
