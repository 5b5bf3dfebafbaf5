import FeatureStyle.Regex.Escape

/-!
# Reading a pattern

`Tree.parse` reads a whole pattern under an initial mode. Groups nest, alternatives bind weakest,
and a repetition operator takes the item before it. Flags between parentheses hold up to the end of
the group they stand in; they are no item, so nothing can repeat them.
-/

namespace FeatureStyle.Regex

/-- The text that is left, the number of capturing groups so far, and their names. -/
structure Cursor where
  rest : List Char
  groups : Nat
  names : List (List Char)

/-- The mode after the flags of `(?flags)` or `(?flags:`, and the text from the character on that
ends them. `seen` holds the flags so far, `negated` whether a minus has been read, and `dangling`
whether it was the last. -/
def readFlags (mode : Mode) (seen : List Char) (negated dangling : Bool) :
    List Char → Except Fault (Mode × Bool × List Char)
  | [] => throw .unclosedGroup
  | c :: cs =>
    if c = ':' ∨ c = ')' then
      if dangling then throw .invalidFlags else pure (mode, !seen.isEmpty || negated, c :: cs)
    else if c = '-' then
      if negated then throw .invalidFlags else readFlags mode seen true true cs
    else if seen.contains c then throw .invalidFlags
    else
      let on := !negated
      match c with
      | 'i' => readFlags { mode with caseless := on } (c :: seen) negated false cs
      | 'm' => readFlags { mode with multiline := on } (c :: seen) negated false cs
      | 's' => readFlags { mode with dotAll := on } (c :: seen) negated false cs
      | 'U' => readFlags { mode with lazy := on } (c :: seen) negated false cs
      | 'u' => readFlags { mode with unicode := on } (c :: seen) negated false cs
      | 'R' => readFlags { mode with crlf := on } (c :: seen) negated false cs
      | 'x' => readFlags { mode with spaced := on } (c :: seen) negated false cs
      | _ => throw .invalidFlags

/-- Whether the character may stand in the name of a group, at its start or later. -/
def isNameChar (first : Bool) (c : Char) : Bool :=
  c == '_' || (if first then Property.alphabetic.contains c
    else c == '.' || c == '[' || c == ']' || Property.alphanumeric.contains c)

/-- The name of a group, up to its closing angle bracket. -/
def readName (names : List (List Char)) (cs : List Char) :
    Except Fault (List Char × List Char) := do
  match cs.span (· ≠ '>') with
  | (_, []) => throw .invalidGroupName
  | (name, _ :: rest) =>
    match name with
    | [] => throw .invalidGroupName
    | c :: more =>
      if !isNameChar true c || !more.all (isNameChar false) then throw .invalidGroupName
      if names.contains name then throw .duplicateGroupName
      return (name, rest)

/-- The digits of a count in a spaced pattern, where what is ignored may stand between them. -/
def countDigits (mode : Mode) : Nat → List Char → List Char × List Char
  | fuel + 1, c :: cs =>
    if c.isDigit then
      let (more, rest) := countDigits mode fuel (mode.skip cs)
      (c :: more, rest)
    else ([], c :: cs)
  | _, cs => ([], cs)

/-- A count with blanks around it. -/
def readCount (mode : Mode) (cs : List Char) : Except Fault (Nat × List Char) := do
  let cs := cs.dropWhile Text.isBlank
  let (digits, rest) := countDigits mode cs.length cs
  let n := digits.foldl (fun n c ↦ 10 * n + (c.toNat - 48)) 0
  if digits.isEmpty || n ≥ 0x100000000 then throw .invalidCount
  return (n, mode.skip (rest.dropWhile Text.isBlank))

/-- The bounds of a counted repetition, after its opening brace. -/
def readBounds (mode : Mode) (cs : List Char) :
    Except Fault ((Nat × Option Nat) × List Char) := do
  let (least, rest) ← readCount mode (mode.skip cs)
  match rest with
  | '\x7d' :: rest => return ((least, some least), mode.skip rest)
  | ',' :: rest =>
    match mode.skip rest with
    | '\x7d' :: rest => return ((least, none), mode.skip rest)
    | rest =>
      let (most, rest) ← readCount mode rest
      match rest with
      | '\x7d' :: rest =>
        if least ≤ most then return ((least, some most), mode.skip rest) else throw .invalidCount
      | _ => throw .invalidCount
  | _ => throw .invalidCount

/-- The sequence of items, which are kept in reverse; flags have left no trace in it. -/
def sequence (items : List (Option Tree)) : Tree :=
  match items.reverse.filterMap id with
  | [t] => t
  | parts => .seq parts

/-- The alternative of branches, which are kept in reverse. -/
def alternative (branches : List Tree) : Tree :=
  match branches.reverse with
  | [t] => t
  | branches => .alt branches

/-- The items with the last one repeated, if there is one that can be. -/
def repeatLast (mode : Mode) (bounds : Nat × Option Nat) (questioned : Bool) :
    List (Option Tree) → Except Fault (List (Option Tree))
  | some body :: items =>
    pure (some (.repeated body bounds.1 bounds.2 (questioned == mode.lazy)) :: items)
  | _ => throw .missingOperand

/-- A question mark after an operator, which turns its preference around. -/
def takeQuestion : List Char → Bool × List Char
  | '?' :: cs => (true, cs)
  | cs => (false, cs)

/-! ### Pieces -/

/-- What a pattern goes on with. -/
inductive Piece
  | finish
  | bar
  | close
  /-- A capturing group opens, which may have a name. -/
  | capture (name? : Option (List Char))
  /-- A group opens that captures nothing and has a mode of its own. -/
  | group (mode : Mode)
  /-- The mode of the rest of the group. -/
  | flags (mode : Mode)
  | repetition (bounds : Nat × Option Nat) (questioned : Bool)
  | item (t : Tree)

/-- The piece that begins with a parenthesis, which has been read. -/
def readOpening (mode : Mode) (names : List (List Char)) (cs : List Char) :
    Except Fault (Piece × List Char) := do
  match mode.skip cs with
  | '?' :: '=' :: _ | '?' :: '!' :: _ | '?' :: '<' :: '=' :: _ | '?' :: '<' :: '!' :: _ =>
    throw .lookAround
  | '?' :: 'P' :: '<' :: rest | '?' :: '<' :: rest =>
    let (name, rest) ← readName names rest
    return (.capture (some name), rest)
  | '?' :: rest =>
    let (inner, changed, rest) ← readFlags mode [] false false rest
    match rest with
    | ')' :: rest => if changed then return (.flags inner, rest) else throw .missingOperand
    | rest => return (.group inner, rest.drop 1)
  | rest => return (.capture none, rest)

/-- The operator with the given bounds, which may have a question mark behind it. -/
def readRepetition (bounds : Nat × Option Nat) (cs : List Char) : Piece × List Char :=
  let (questioned, rest) := takeQuestion cs
  (.repetition bounds questioned, rest)

/-- The item that an escape stands for. -/
def Escape.toTree (mode : Mode) : Escape → Except Fault Tree
  | .literal c => return .set (← mode.literal c)
  | .set s => return .set s
  | .assert a => return .assert a

/-- The piece at the front of a text. -/
def readPiece (mode : Mode) (names : List (List Char)) (cs : List Char) :
    Except Fault (Piece × List Char) := do
  match mode.skip cs with
  | [] => return (.finish, [])
  | '|' :: rest => return (.bar, rest)
  | ')' :: rest => return (.close, rest)
  | '(' :: rest => readOpening mode names rest
  | '[' :: rest =>
    let (set, rest) ← readClass mode rest.length.succ 1 rest
    return (.item (.set set), rest)
  | '?' :: rest => return readRepetition (0, some 1) rest
  | '*' :: rest => return readRepetition (0, none) rest
  | '+' :: rest => return readRepetition (1, none) rest
  | '\x7b' :: rest =>
    let (bounds, rest) ← readBounds mode rest
    return readRepetition bounds rest
  | '\\' :: rest =>
    let (escape, rest) ← readEscape mode rest
    return (.item (← escape.toTree mode), rest)
  | '.' :: rest => return (.item (.set (← mode.dot)), rest)
  | '^' :: rest => return (.item (.assert mode.caret), rest)
  | '$' :: rest => return (.item (.assert mode.dollar), rest)
  | c :: rest => return (.item (.set (← mode.literal c)), rest)

/-! ### Trees -/

/-- Reads up to the end of a group, or of the pattern on level 0. The branches before the current
one and the items of the current one are kept in reverse. Every step uses up a character, so the
length of the text is enough fuel. -/
def readGroup : Nat → Nat → Mode → List Tree → List (Option Tree) → Cursor →
    Except Fault (Tree × Cursor)
  | 0, _, _, _, _, _ => throw .tooDeep
  | fuel + 1, level, mode, branches, items, cursor => do
    let (piece, rest) ← readPiece mode cursor.names cursor.rest
    let cursor := { cursor with rest := rest }
    match piece with
    | .finish =>
      if level = 0 then return (alternative (sequence items :: branches), cursor)
      else throw .unclosedGroup
    | .bar => readGroup fuel level mode (sequence items :: branches) [] cursor
    | .close =>
      if level = 0 then throw .unopenedGroup
      else return (alternative (sequence items :: branches), cursor)
    | .capture name? =>
      let index := cursor.groups + 1
      let opened : Cursor := ⟨rest, index, name?.toList ++ cursor.names⟩
      let (body, cursor) ← readGroup fuel (level + 1) mode [] [] opened
      readGroup fuel level mode branches (some (.group (some index) body) :: items) cursor
    | .group inner =>
      let (body, cursor) ← readGroup fuel (level + 1) inner [] [] cursor
      readGroup fuel level mode branches (some (.group none body) :: items) cursor
    | .flags inner => readGroup fuel level inner branches (none :: items) cursor
    | .repetition bounds questioned =>
      let repeated ← repeatLast mode bounds questioned items
      readGroup fuel level mode branches repeated cursor
    | .item t => readGroup fuel level mode branches (some t :: items) cursor

/-- The most levels that a tree may have. -/
def Tree.depthLimit : Nat := 250

/-- The most bytes that an automaton may take. -/
def Tree.sizeLimit : Nat := 0xA00000

/-- The tree of a pattern and the number of its capturing groups. -/
def Tree.parse (mode : Mode) (pattern : List Char) : Except Fault (Tree × Nat) := do
  let (tree, cursor) ← readGroup (2 * pattern.length + 1) 0 mode [] [] ⟨pattern, 0, []⟩
  if tree.depth > Tree.depthLimit then throw .tooDeep
  if tree.size > Tree.sizeLimit then throw .tooLarge
  return (tree, cursor.groups)

end FeatureStyle.Regex
