import FeatureStyle.Document.Yaml.Scalar
import FeatureStyle.Text.Reading

/-!
# YAML between brackets

Lists between brackets, maps between braces, texts between quotes and unquoted words, over as many
lines as they take. A line break inside a text is a blank, and more than one are one less.
-/

namespace FeatureStyle.Yaml

open Text (Taken Reading)

/-! ### Blanks -/

/-- Blanks within and between lines. -/
def isBlank (c : Char) : Bool := c == ' ' || c == '\t' || c == '\n'

/-- Whether a text starts with a blank or is at its end. -/
def atBlank : List Char → Bool
  | [] => true
  | c :: _ => isBlank c

/-- The text after blanks and comments. -/
def skip (text : List Char) : List Char :=
  match text with
  | [] => []
  | c :: cs =>
    if isBlank c then skip cs
    else if c = '#' then skip (cs.dropWhile (· ≠ '\n'))
    else c :: cs
termination_by text.length
decreasing_by
  · simp
  · have := (List.dropWhile_suffix (p := (· ≠ '\n')) (l := cs)).length_le
    simp only [List.length_cons]; omega

theorem length_skip_le (text : List Char) : (skip text).length ≤ text.length := by
  fun_induction skip text with
  | case1 => simp
  | case2 c cs h ih => simp only [List.length_cons]; omega
  | case3 cs h ih =>
    have := (List.dropWhile_suffix (p := (· ≠ '\n')) (l := cs)).length_le
    simp only [List.length_cons]; omega
  | case4 => simp

theorem length_lt_of_skip_eq_cons {text rest : List Char} {c : Char} (h : skip text = c :: rest) :
    rest.length < text.length := by
  have hle := length_skip_le text
  rw [h, List.length_cons] at hle
  omega

/-- The next character that is no blank and not in a comment. -/
def next? (text : List Char) : Reading Char text :=
  match h : skip text with
  | [] => none
  | c :: rest => some ⟨c, rest, length_lt_of_skip_eq_cons h⟩

/-- The text without the blanks in front of it. -/
def trimStart (cs : List Char) : List Char := cs.dropWhile isBlank

/-- The text without the blanks behind it. -/
def trimEnd (cs : List Char) : List Char := (cs.reverse.dropWhile isBlank).reverse

/-- What a line break is, with so many empty lines behind it. -/
def gap (emptyLines : Nat) : List Char :=
  if emptyLines = 0 then [' '] else List.replicate emptyLines '\n'

/-- The lines after a line break put together, with so many empty lines before them. -/
def foldLines (emptyLines : Nat) : List (List Char) → List Char
  | [] => []
  | [line] => gap emptyLines ++ trimStart line
  | line :: lines =>
    let line := trimStart (trimEnd line)
    if line.isEmpty then foldLines (emptyLines + 1) lines
    else gap emptyLines ++ line ++ foldLines 0 lines

/-- The lines of a text put together: a single break is a blank, and of several one is left out. -/
def fold (text : List Char) : List Char :=
  match text.splitOn '\n' with
  | [] => []
  | [line] => line
  | line :: lines => trimEnd line ++ foldLines 0 lines

/-! ### Texts between quotes -/

/-- The rest of a text between single quotes, whose opening one has been read. A quote is written
twice. -/
def singleQuoted? (text : List Char) : Reading (List Char) text :=
  match text with
  | [] => none
  | '\'' :: '\'' :: cs => (singleQuoted? cs).map fun t ↦ (t.map ('\'' :: ·)).behind.behind
  | '\'' :: cs => some ⟨[], cs, by simp⟩
  | c :: cs => (singleQuoted? cs).map fun t ↦ (t.map (c :: ·)).behind

/-- The character that an escape of one letter stands for. -/
def escaped? : Char → Option Char
  | '0' => some '\x00'
  | 'a' => some '\x07'
  | 'b' => some '\x08'
  | 't' => some '\t'
  | '\t' => some '\t'
  | 'n' => some '\n'
  | 'v' => some '\x0b'
  | 'f' => some '\x0c'
  | 'r' => some '\r'
  | 'e' => some '\x1b'
  | ' ' => some ' '
  | '"' => some '"'
  | '/' => some '/'
  | '\\' => some '\\'
  | 'N' => some '\u0085'
  | '_' => some '\u00a0'
  | 'L' => some '\u2028'
  | 'P' => some '\u2029'
  | _ => none

/-- The number of digits of an escape that gives a code point. -/
def escapeLength? : Char → Option Nat
  | 'x' => some 2
  | 'u' => some 4
  | 'U' => some 8
  | _ => none

/-- The character of a code point. -/
def ofCodePoint? (n : Nat) : Option Char :=
  if n.isValidChar then some (Char.ofNat n) else none

/-- The rest of a text between double quotes, whose opening one has been read. Escapes are left as
they are. -/
def doubleQuoted? (text : List Char) : Reading (List Char) text :=
  match text with
  | [] => none
  | '"' :: cs => some ⟨[], cs, by simp⟩
  | '\\' :: c :: cs => (doubleQuoted? cs).map fun t ↦ (t.map ('\\' :: c :: ·)).behind.behind
  | c :: cs => (doubleQuoted? cs).map fun t ↦ (t.map (c :: ·)).behind

/-- The text with its escapes decoded. -/
def decodeEscapes? (text : List Char) : Option (List Char) :=
  match text with
  | [] => some []
  | '\\' :: c :: cs =>
    match escapeLength? c with
    | some n =>
      if cs.length < n then none
      else do
        let code ← Numeric.radixValue? 16 (cs.take n)
        return (← ofCodePoint? code) :: (← decodeEscapes? (cs.drop n))
    | none => do return (← escaped? c) :: (← decodeEscapes? cs)
  | c :: cs => (decodeEscapes? cs).map (c :: ·)
termination_by text.length
decreasing_by all_goals simp only [List.length_cons, List.length_drop]; omega

/-- A text between quotes of either kind. -/
def quotedText? (text : List Char) : Reading String text :=
  match text with
  | '"' :: cs => do
    let t ← doubleQuoted? cs
    let decoded ← decodeEscapes? (fold t.value)
    return (t.map fun _ ↦ String.ofList decoded).behind
  | '\'' :: cs =>
    (singleQuoted? cs).map fun t ↦ (t.map fun body ↦ String.ofList (fold body)).behind
  | _ => none

/-! ### Words -/

/-- The characters that end a word between brackets. -/
def isFlowIndicator (c : Char) : Bool := [',', '[', ']', '\x7b', '\x7d'].contains c

/-- The other characters that no word starts with. -/
def isReserved (c : Char) : Bool :=
  ['#', '&', '*', '!', '|', '>', '\'', '"', '%', '@', '\x60'].contains c

/-- Whether a word may start here. -/
def startsWord (inFlow : Bool) : List Char → Bool
  | [] => false
  | c :: cs =>
    if c = '-' then !atBlank cs
    else if c = '?' ∨ c = ':' then !inFlow && !atBlank cs
    else !isFlowIndicator c && !isBlank c && !isReserved c

/-- The rest of a word, and what comes after it. A word goes on until a colon before a blank, a
comment behind one, and between brackets the next of them or a comma. -/
def wordBody (inFlow afterBlank : Bool) : (text : List Char) → Text.MaybeTaken (List Char) text
  | [] => ⟨[], [], Nat.le_refl _⟩
  | c :: cs =>
    if (c == ':' && atBlank cs) || (c == '#' && afterBlank) || (inFlow && isFlowIndicator c) then
      ⟨[], c :: cs, Nat.le_refl _⟩
    else
      let ⟨body, rest, h⟩ := wordBody inFlow (isBlank c) cs
      ⟨c :: body, rest, Nat.le_succ_of_le h⟩

/-- A word. -/
def word? (inFlow : Bool) (text : List Char) : Reading String text :=
  match text with
  | [] => none
  | c :: cs =>
    if startsWord inFlow (c :: cs) then
      let t := wordBody inFlow false cs
      some (t.map fun body ↦ String.ofList (fold (trimEnd (c :: body)))).behind
    else none

/-! ### Brackets -/

mutual

/-- A list, a map, a text or a word. -/
def flow? (depth : Nat) (text : List Char) : Reading Datum text :=
  match text with
  | [] => none
  | c :: cs =>
    if c = '[' then
      (flowItems? (depth + 1) cs).map fun t ↦ (t.map fun items ↦ nested depth (.list items)).behind
    else if c = '\x7b' then
      (flowEntries? (depth + 1) cs).map fun t ↦
        (t.map fun entries ↦ nested depth (.map entries)).behind
    else if c = '"' ∨ c = '\'' then (quotedText? (c :: cs)).map (Taken.map quoted)
    else (word? true (c :: cs)).map (Taken.map word)
termination_by (text.length, 0)

/-- The items of a list up to the closing bracket. The last one may have a comma behind it. -/
def flowItems? (depth : Nat) (text : List Char) : Reading (List Datum) text := do
  let ⟨c, rest, h⟩ ← next? text
  if c = ']' then some ⟨[], rest, h⟩
  else
    let ⟨item, rest₁, h₁⟩ ← flow? depth (c :: rest)
    let ⟨d, rest₂, h₂⟩ ← next? rest₁
    if d = ',' then
      let ⟨items, rest₃, h₃⟩ ← flowItems? depth rest₂
      some ⟨item :: items, rest₃, by simp only [List.length_cons] at *; omega⟩
    else if d = ']' then
      some ⟨[item], rest₂, by simp only [List.length_cons] at *; omega⟩
    else none
termination_by (text.length, 1)
decreasing_by all_goals simp only [List.length_cons] at *; omega

/-- An entry of a map. A key on its own has nothing as its value. -/
def flowEntry? (depth : Nat) (text : List Char) : Reading (Option String × Datum) text := do
  let ⟨key, rest, h⟩ ← (quotedText? text <|> word? true text)
  match next? rest with
  | some ⟨':', rest₁, h₁⟩ =>
    let ⟨c, rest₂, h₂⟩ ← next? rest₁
    if c = ',' ∨ c = '\x7d' then some ⟨(some key, nothing), rest₁, by omega⟩
    else
      let ⟨value, rest₃, h₃⟩ ← flow? depth (c :: rest₂)
      some ⟨(some key, value), rest₃, by simp only [List.length_cons] at h₃; omega⟩
  | _ => some ⟨(some key, nothing), rest, h⟩
termination_by (text.length, 1)
decreasing_by simp only [List.length_cons]; omega

/-- The entries of a map up to the closing brace. The last one may have a comma behind it. -/
def flowEntries? (depth : Nat) (text : List Char) :
    Reading (List (Option String × Datum)) text := do
  let ⟨c, rest, h⟩ ← next? text
  if c = '\x7d' then some ⟨[], rest, h⟩
  else
    let ⟨entry, rest₁, h₁⟩ ← flowEntry? depth (c :: rest)
    let ⟨d, rest₂, h₂⟩ ← next? rest₁
    if d = ',' then
      let ⟨entries, rest₃, h₃⟩ ← flowEntries? depth rest₂
      some ⟨entry :: entries, rest₃, by simp only [List.length_cons] at *; omega⟩
    else if d = '\x7d' then
      some ⟨[entry], rest₂, by simp only [List.length_cons] at *; omega⟩
    else none
termination_by (text.length, 2)
decreasing_by all_goals simp only [List.length_cons] at *; omega

end

end FeatureStyle.Yaml
