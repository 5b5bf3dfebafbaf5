import FeatureStyle.Regex.Basic
import FeatureStyle.Regex.Fault
import FeatureStyle.Regex.Unicode.CaseFolding
import FeatureStyle.Regex.Unicode.Property
import FeatureStyle.Text.Blank

/-!
# Modes, escapes and character classes

The parts of a pattern below groups and operators. All readers take the text after what they have
recognized and give back what is left of it.

A `Mode` is what flags change. In a spaced pattern, blanks and comments between the pieces of a
pattern are skipped by `Mode.skip`; several readers skip inside a piece as well. Without the Unicode
flag, a class means its ASCII part, and whatever could match part of a character is refused.
-/

namespace FeatureStyle.Regex

/-- What the flags of a pattern decide. -/
structure Mode where
  caseless : Bool
  multiline : Bool
  dotAll : Bool
  lazy : Bool
  crlf : Bool
  unicode : Bool
  spaced : Bool
  deriving DecidableEq, Repr

namespace Mode

/-- The text after blanks and comments; the flag says whether a comment has been entered. -/
def skipFrom : Bool → List Char → List Char
  | _, [] => []
  | true, c :: cs => skipFrom (c ≠ '\n') cs
  | false, c :: cs =>
    if Text.isBlank c then skipFrom false cs
    else if c = '#' then skipFrom true cs
    else c :: cs

/-- The text after what a spaced pattern ignores. -/
def skip (mode : Mode) (cs : List Char) : List Char :=
  if mode.spaced then skipFrom false cs else cs

/-- The characters that a literal character stands for. -/
def literal (mode : Mode) (c : Char) : Except Fault CharSet :=
  if !mode.caseless then pure (.singleton c)
  else if mode.unicode then pure (CaseFolding.close (.singleton c))
  else if c.toNat < 0x80 then pure (CaseFolding.closeAscii (.singleton c))
  else throw .unicodeRequired

/-- The set, closed under case where case does not count. -/
def foldCase (mode : Mode) (s : CharSet) : CharSet :=
  if !mode.caseless then s
  else if mode.unicode then CaseFolding.close s
  else CaseFolding.closeAscii s

/-- The characters that a dot stands for. -/
def dot (mode : Mode) : Except Fault CharSet :=
  if !mode.unicode then throw .unicodeRequired
  else if mode.dotAll then pure .any
  else if mode.crlf then pure (CharSet.ofRanges [(10, 10), (13, 13)]).complement
  else pure (CharSet.singleton '\n').complement

def caret (mode : Mode) : Assertion :=
  if mode.multiline then .startLine mode.crlf else .startText

def dollar (mode : Mode) : Assertion :=
  if mode.multiline then .endLine mode.crlf else .endText

end Mode

/-! ### Escapes -/

/-- What an escape sequence stands for. -/
inductive Escape
  | literal (c : Char)
  | set (s : CharSet)
  | assert (a : Assertion)

/-- The characters that mean something in a pattern. Every one of them may be escaped. -/
def isMeta (c : Char) : Bool :=
  "\\.+*?()|[]\x7b\x7d^$#&-~".toList.contains c

/-- The characters that an escape leaves as they are. -/
def isEscapable (c : Char) : Bool :=
  isMeta c || (decide (c.toNat < 0x80) && !c.isAlphanum && c ≠ '<' && c ≠ '>')

def asciiDigits : CharSet := .ofRanges [(0x30, 0x39)]

def asciiWord : CharSet := .ofRanges [(0x30, 0x39), (0x41, 0x5A), (0x5F, 0x5F), (0x61, 0x7A)]

def asciiSpace : CharSet := .ofRanges [(9, 13), (32, 32)]

/-- The set of `\d`, `\s`, `\w` or, for a capital letter, its complement. -/
def letterClass (mode : Mode) (c : Char) : Except Fault CharSet :=
  let set :=
    match c.toLower with
    | 'd' => if mode.unicode then Category.decimalNumber else asciiDigits
    | 's' => if mode.unicode then Property.whiteSpace else asciiSpace
    | _ => if mode.unicode then Property.word else asciiWord
  if c.isLower then pure set
  else if mode.unicode then pure set.complement
  else throw .unicodeRequired

/-- The value of a hexadecimal digit. -/
def hexDigit? (c : Char) : Option Nat :=
  if c.isDigit then some (c.toNat - 48)
  else if 'a' ≤ c ∧ c ≤ 'f' then some (c.toNat - 87)
  else if 'A' ≤ c ∧ c ≤ 'F' then some (c.toNat - 55)
  else none

/-- The character with the given code point. -/
def charOfCode (n : Nat) : Except Fault Char :=
  if h : n.isValidChar then pure (Char.ofNatAux n h) else throw .invalidCodePoint

/-- Exactly `count` hexadecimal digits. -/
def fixedHex (mode : Mode) : Nat → Nat → List Char → Except Fault (Nat × List Char)
  | 0, value, cs => pure (value, cs)
  | count + 1, value, c :: cs =>
    match hexDigit? c with
    | some d => fixedHex mode count (16 * value + d) (mode.skip cs)
    | none => throw .invalidEscape
  | _ + 1, _, [] => throw .invalidEscape

/-- Hexadecimal digits up to a closing brace, at least one. -/
def bracedHex (value : Nat) (seen : Bool) : List Char → Except Fault (Nat × List Char)
  | [] => throw .invalidEscape
  | c :: cs =>
    if c = '\x7d' then if seen then pure (value, cs) else throw .invalidEscape
    else
      match hexDigit? c with
      | some d => bracedHex (16 * value + d) true cs
      | none => throw .invalidEscape

/-- The text with everything removed that a spaced pattern ignores, up to a closing brace. -/
def compactBraced (mode : Mode) (cs : List Char) : List Char :=
  if !mode.spaced then cs
  else
    let inside := cs.takeWhile (· ≠ '\x7d')
    inside.filter (fun c ↦ !Text.isBlank c) ++ cs.drop inside.length

/-- The character of an escape by code point; `width` digits where there are no braces. Two digits
without braces name a byte, which only stands for a character if it is ASCII or Unicode is on. -/
def codeEscape (mode : Mode) (width : Nat) (cs : List Char) :
    Except Fault (Escape × List Char) := do
  match mode.skip cs with
  | '\x7b' :: rest =>
    let (n, rest) ← bracedHex 0 false (compactBraced mode rest)
    return (.literal (← charOfCode n), mode.skip rest)
  | rest =>
    let (n, rest) ← fixedHex mode width 0 rest
    if width = 2 && !mode.unicode && n ≥ 0x80 then throw .unicodeRequired
    return (.literal (← charOfCode n), rest)

/-- The name and the value of a property, if there is a separator; `true` for one that negates. -/
def splitProperty : List Char → List Char → List Char × Option (Bool × List Char)
  | seen, [] => (seen.reverse, none)
  | seen, '!' :: '=' :: rest => (seen.reverse, some (true, rest))
  | seen, c :: rest =>
    if c = ':' ∨ c = '=' then (seen.reverse, some (false, rest)) else splitProperty (c :: seen) rest

/-- A class by property, after `\p` or `\P`. -/
def propertyEscape (mode : Mode) (negated : Bool) (cs : List Char) :
    Except Fault (Escape × List Char) := do
  if !mode.unicode then throw .unicodeRequired
  let (set?, flip, rest) ←
    match mode.skip cs with
    | [] => throw .invalidEscape
    | '\x7b' :: rest =>
      let rest := compactBraced mode rest
      match rest.span (· ≠ '\x7d') with
      | (_, []) => throw .invalidEscape
      | (inside, _ :: rest) =>
        match splitProperty [] inside with
        | (name, none) => pure (Property.named? name, false, rest)
        | (name, some (flip, value)) => pure (Property.valued? name value, flip, rest)
    | c :: rest =>
      if c = '\\' then throw .invalidEscape
      else pure (Property.named? [c], false, mode.skip rest)
  match set? with
  | none => throw .unknownProperty
  | some set =>
    let set := mode.foldCase set
    return (.set (if negated != flip then set.complement else set), rest)

/-- A word boundary after `\b`, which may name one of its halves in braces. -/
def boundaryEscape (mode : Mode) (cs : List Char) : Except Fault (Escape × List Char) := do
  let plain := (Escape.assert (.wordBoundary mode.unicode), cs)
  let isNameChar (c : Char) : Bool := c.isAlpha || c == '-'
  match cs with
  | '\x7b' :: rest =>
    match mode.skip rest with
    | [] => throw .invalidEscape
    | c :: _ =>
      if !isNameChar c then return plain
      match (compactBraced mode rest).span isNameChar with
      | (name, '\x7d' :: rest) =>
        if name = "start".toList then return (.assert (.wordStart mode.unicode), rest)
        else if name = "end".toList then return (.assert (.wordEnd mode.unicode), rest)
        else if name = "start-half".toList then
          return (.assert (.wordStartHalf mode.unicode), rest)
        else if name = "end-half".toList then return (.assert (.wordEndHalf mode.unicode), rest)
        else throw .invalidEscape
      | _ => throw .invalidEscape
  | _ => return plain

/-- An escape sequence, after its backslash. -/
def readEscape (mode : Mode) : List Char → Except Fault (Escape × List Char)
  | [] => throw .invalidEscape
  | c :: cs =>
    if c.isDigit then throw .backReference
    else if isEscapable c then pure (.literal c, cs)
    else
      match c with
      | 'x' => codeEscape mode 2 cs
      | 'u' => codeEscape mode 4 cs
      | 'U' => codeEscape mode 8 cs
      | 'p' => propertyEscape mode false cs
      | 'P' => propertyEscape mode true cs
      | 'd' | 's' | 'w' | 'D' | 'S' | 'W' => do return (.set (← letterClass mode c), cs)
      | 'a' => pure (.literal '\x07', cs)
      | 'f' => pure (.literal '\x0c', cs)
      | 't' => pure (.literal '\t', cs)
      | 'n' => pure (.literal '\n', cs)
      | 'r' => pure (.literal '\r', cs)
      | 'v' => pure (.literal '\x0b', cs)
      | 'A' => pure (.assert .startText, cs)
      | 'z' => pure (.assert .endText, cs)
      | 'b' => boundaryEscape mode cs
      | 'B' => pure (.assert (.notWordBoundary mode.unicode), cs)
      | '<' => pure (.assert (.wordStart mode.unicode), cs)
      | '>' => pure (.assert (.wordEnd mode.unicode), cs)
      | _ => throw .invalidEscape

/-! ### Character classes -/

/-- The operators between parts of a class. -/
inductive SetOperator
  | intersection
  | difference
  | symmetricDifference
  deriving DecidableEq, Repr

def SetOperator.apply : SetOperator → CharSet → CharSet → CharSet
  | .intersection => CharSet.inter
  | .difference => CharSet.difference
  | .symmetricDifference => CharSet.symmetricDifference

/-- The named classes of ASCII characters. -/
def asciiClass? (name : List Char) : Option CharSet :=
  match String.ofList name with
  | "alnum" => some (.ofRanges [(0x30, 0x39), (0x41, 0x5A), (0x61, 0x7A)])
  | "alpha" => some (.ofRanges [(0x41, 0x5A), (0x61, 0x7A)])
  | "ascii" => some (.ofRanges [(0, 0x7F)])
  | "blank" => some (.ofRanges [(9, 9), (32, 32)])
  | "cntrl" => some (.ofRanges [(0, 0x1F), (0x7F, 0x7F)])
  | "digit" => some asciiDigits
  | "graph" => some (.ofRanges [(0x21, 0x7E)])
  | "lower" => some (.ofRanges [(0x61, 0x7A)])
  | "print" => some (.ofRanges [(0x20, 0x7E)])
  | "punct" => some (.ofRanges [(0x21, 0x2F), (0x3A, 0x40), (0x5B, 0x60), (0x7B, 0x7E)])
  | "space" => some asciiSpace
  | "upper" => some (.ofRanges [(0x41, 0x5A)])
  | "word" => some asciiWord
  | "xdigit" => some (.ofRanges [(0x30, 0x39), (0x41, 0x46), (0x61, 0x66)])
  | _ => none

/-- A named class inside a class, after its opening bracket, if there is one. -/
def namedClass? (mode : Mode) (cs : List Char) : Option (CharSet × List Char) := do
  let rest ← match cs with
    | ':' :: rest => some rest
    | _ => none
  let (negated, rest) := match rest with
    | '^' :: rest => (true, rest)
    | rest => (false, rest)
  match rest.span (· ≠ ':') with
  | (name, ':' :: ']' :: rest) =>
    let set := mode.foldCase (← asciiClass? name)
    return (if negated then set.complement else set, rest)
  | _ => none

/-- A character or a set in a class; an assertion cannot be one. -/
def classItem (mode : Mode) : List Char → Except Fault ((Char ⊕ CharSet) × List Char)
  | [] => throw .unclosedClass
  | '\\' :: cs => do
    match ← readEscape mode cs with
    | (.literal c, rest) => return (.inl c, rest)
    | (.set s, rest) => return (.inr s, rest)
    | (.assert _, _) => throw .invalidClassItem
  | c :: cs => pure (.inl c, cs)

/-- A literal character of a class. Without the Unicode flag it has to be ASCII. -/
def classLiteral (mode : Mode) (c : Char) : Except Fault Nat :=
  if !mode.unicode && c.toNat ≥ 0x80 then throw .unicodeRequired else pure c.toNat

/-- An item of a class, or a range between two characters. -/
def classRange (mode : Mode) (cs : List Char) : Except Fault (CharSet × List Char) := do
  let (first, rest) ← classItem mode cs
  let single : Except Fault CharSet :=
    match first with
    | .inl c => do
      let n ← classLiteral mode c
      return ⟨[(n, n)]⟩
    | .inr s => pure s
  match mode.skip rest with
  | [] => throw .unclosedClass
  | '-' :: after =>
    match mode.skip after with
    | [] => throw .unclosedClass
    | c :: after' =>
      if c = ']' ∨ c = '-' then return (← single, '-' :: after)
      let (second, rest) ← classItem mode (c :: after')
      match first, second with
      | .inl lo, .inl hi =>
        let lo ← classLiteral mode lo
        let hi ← classLiteral mode hi
        if lo ≤ hi then return (⟨[(lo, hi)]⟩, rest) else throw .invalidRange
      | _, _ => throw .invalidRange
  | rest => return (← single, rest)

/-- The hyphens at the start of a class, which stand for themselves, and the text after them. -/
def leadingHyphens (mode : Mode) (fuel : Nat) (found : Bool) (cs : List Char) : Bool × List Char :=
  match fuel, cs with
  | fuel + 1, '-' :: rest => leadingHyphens mode fuel true (mode.skip rest)
  | _, cs => (found, cs)

mutual

/-- A class, after its opening bracket. Every step uses up a character, so the length of the text is
enough fuel. -/
def readClass (mode : Mode) : Nat → Nat → List Char → Except Fault (CharSet × List Char)
  | 0, _, _ => throw .unclosedClass
  | fuel + 1, level, cs => do
    if level > 250 then throw .tooDeep
    let cs := mode.skip cs
    let (negated, cs) := match cs with
      | '^' :: rest => (true, mode.skip rest)
      | cs => (false, cs)
    let (hyphen, cs) := leadingHyphens mode fuel false cs
    let start : CharSet := if hyphen then .singleton '-' else .none
    let (start, cs) := match hyphen, cs with
      | false, ']' :: rest => (CharSet.singleton ']', mode.skip rest)
      | _, cs => (start, cs)
    let (set, rest) ← classItems mode fuel level none start cs
    let set := mode.foldCase set
    if negated && !mode.unicode then throw .unicodeRequired
    return (if negated then set.complement else set, rest)

/-- The items of a class up to its closing bracket: `left` is what stands before the last
operator, and `acc` is the union of the items since. -/
def classItems (mode : Mode) : Nat → Nat → Option (SetOperator × CharSet) → CharSet → List Char →
    Except Fault (CharSet × List Char)
  | 0, _, _, _, _ => throw .unclosedClass
  | fuel + 1, level, left, acc, cs => do
    let joined : Unit → CharSet := fun _ ↦
      match left with
      | none => acc
      | some (op, before) => op.apply (mode.foldCase before) (mode.foldCase acc)
    match mode.skip cs with
    | [] => throw .unclosedClass
    | ']' :: rest => return (joined (), rest)
    | '[' :: rest =>
      match namedClass? mode rest with
      | some (set, rest) => classItems mode fuel level left (acc.union set) rest
      | none =>
        let (set, rest) ← readClass mode fuel (level + 1) rest
        classItems mode fuel level left (acc.union set) rest
    | '&' :: '&' :: rest => classItems mode fuel level (some (.intersection, joined ())) .none rest
    | '-' :: '-' :: rest => classItems mode fuel level (some (.difference, joined ())) .none rest
    | '~' :: '~' :: rest =>
      classItems mode fuel level (some (.symmetricDifference, joined ())) .none rest
    | rest =>
      let (set, rest) ← classRange mode rest
      classItems mode fuel level left (acc.union set) rest

end

end FeatureStyle.Regex
