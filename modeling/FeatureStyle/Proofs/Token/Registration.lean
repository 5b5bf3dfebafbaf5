import FeatureStyle.Proofs.Token.Operator
import FeatureStyle.Proofs.Token.Tiling

/-!
# Registered operators

A table of operators is made by calls that register a symbol, as a unary one or as a binary one with
a precedence. What a table then says about a symbol is whether it is unary and which precedence it
has; two tables that say the same `Agrees`, however their symbols are listed.

* **The order of the calls does not matter**, unless they give one symbol two precedences
  (`agrees_of_perm`): two calls can change places (`register_comm`), and what comes behind them
  cannot tell the difference (`Agrees.register`).
* **Tables that agree cut every text into the same tokens** (`tokensFrom_congr`), since they have
  the same longest symbols.
* Where an operator is read, its symbol is the longest one of the table that the text goes on with
  there (`Reads.isLongest`), and a character is only unexpected where the text goes on with no
  symbol at all (`of_unexpectedCharacter`).
-/

namespace FeatureStyle

namespace OperatorTable

variable {table table' table'' : OperatorTable}

/-! ### Tables that agree -/

/-- Two tables have the same unary symbols, and the same binary symbols with the same
precedences. -/
structure Agrees (table table' : OperatorTable) : Prop where
  isUnary_eq (symbol : String) : table.isUnary symbol = table'.isUnary symbol
  precedence?_eq (symbol : String) : table.precedence? symbol = table'.precedence? symbol

/-- A table agrees with itself. -/
theorem Agrees.refl (table : OperatorTable) : table.Agrees table := ⟨fun _ ↦ rfl, fun _ ↦ rfl⟩

/-- What agrees with one of two tables that agree does so with the other. -/
theorem Agrees.trans (h : table.Agrees table') (h' : table'.Agrees table'') :
    table.Agrees table'' where
  isUnary_eq symbol := (h.isUnary_eq symbol).trans (h'.isUnary_eq symbol)
  precedence?_eq symbol := (h.precedence?_eq symbol).trans (h'.precedence?_eq symbol)

/-- An entry is found exactly if there is one for the symbol. -/
theorem isSome_lookup_iff {entries : List (String × Nat)} {symbol : String} :
    (entries.lookup symbol).isSome ↔ ∃ entry ∈ entries, entry.1 = symbol := by
  rw [List.lookup_isSome_iff]
  simp only [beq_iff_eq, eq_comm (a := symbol)]

/-- The symbols of a table are what the table says something about. -/
theorem mem_symbols_iff {cs : List Char} :
    cs ∈ table.symbols ↔
      ∃ symbol, symbol.toList = cs ∧
        (table.isUnary symbol ∨ (table.precedence? symbol).isSome) := by
  simp only [symbols, List.mem_append, List.mem_map, isUnary, List.contains_iff_mem, precedence?,
    isSome_lookup_iff]
  constructor
  · rintro (⟨symbol, hmem, rfl⟩ | ⟨entry, hmem, rfl⟩)
    · exact ⟨symbol, rfl, .inl hmem⟩
    · exact ⟨entry.1, rfl, .inr ⟨entry, hmem, rfl⟩⟩
  · rintro ⟨symbol, rfl, hmem | ⟨entry, hmem, rfl⟩⟩
    · exact .inl ⟨symbol, hmem, rfl⟩
    · exact .inr ⟨entry, hmem, rfl⟩

/-- **Tables that agree have the same symbols**, in whatever order. -/
theorem Agrees.mem_symbols_iff (h : table.Agrees table') {cs : List Char} :
    cs ∈ table.symbols ↔ cs ∈ table'.symbols := by
  simp only [OperatorTable.mem_symbols_iff, h.isUnary_eq, h.precedence?_eq]

/-- Tables that agree have the same symbol that counts. -/
theorem Agrees.longestMatch?_eq (h : table.Agrees table') (text : List Char) :
    table.longestMatch? text = table'.longestMatch? text := by
  refine Option.ext fun symbol ↦ ?_
  simp only [longestMatch?_eq_some_iff, h.mem_symbols_iff]

/-! ### Registering symbols -/

/-- A call that registers a symbol. -/
inductive Registration
  | unary (symbol : String)
  | binary (symbol : String) (precedence : Nat)
  deriving DecidableEq

/-- The table after a call. -/
def register (table : OperatorTable) : Registration → OperatorTable
  | .unary symbol => table.addUnary symbol
  | .binary symbol precedence => table.addBinary symbol precedence

/-- The table after a number of calls. -/
def registerAll (table : OperatorTable) (calls : List Registration) : OperatorTable :=
  calls.foldl register table

/-- No symbol is given two precedences. -/
def Consistent (calls : List Registration) : Prop :=
  ∀ symbol precedence precedence', .binary symbol precedence ∈ calls →
    .binary symbol precedence' ∈ calls → precedence = precedence'

/-- The precedence that a call gives to a symbol. -/
def Registration.precedence? : Registration → String → Option Nat
  | .unary _, _ => none
  | .binary symbol precedence, s => if s = symbol then some precedence else none

/-- A call gives a precedence to its own symbol only. -/
theorem Registration.precedence?_eq_some_iff {call : Registration} {s : String}
    {precedence : Nat} : call.precedence? s = some precedence ↔ call = .binary s precedence := by
  cases call with
  | unary symbol => simp [precedence?]
  | binary symbol p =>
    rw [precedence?, Option.ite_none_right_eq_some, Option.some.injEq, Registration.binary.injEq,
      eq_comm (a := s)]

/-- After a call, its symbol is unary if the call says so, and all others are what they were. -/
theorem isUnary_register (table : OperatorTable) (call : Registration) (s : String) :
    (table.register call).isUnary s = (decide (call = .unary s) || table.isUnary s) := by
  cases call with
  | unary symbol =>
    show (table.addUnary symbol).isUnary s = _
    unfold addUnary
    split
    · next hunary =>
      by_cases hs : symbol = s
      · rw [← hs, hunary, Bool.or_true]
      · simp [hs]
    · show (table.unary ++ [symbol]).contains s = (_ || table.unary.contains s)
      rw [List.contains_append, List.contains_cons, List.contains_nil, Bool.or_false, Bool.or_comm]
      simp [eq_comm, Bool.beq_eq_decide_eq]
  | binary symbol precedence => simp [register, addBinary, isUnary]

/-- The last precedence of a symbol is the one that is found. -/
theorem lookup_setPrecedence (symbol s : String) (precedence : Nat)
    (entries : List (String × Nat)) :
    (setPrecedence symbol precedence entries).lookup s =
      ((Registration.binary symbol precedence).precedence? s).or (entries.lookup s) := by
  rw [Registration.precedence?]
  induction entries with
  | nil =>
    rw [setPrecedence, List.lookup_cons, List.lookup_nil, Option.or_none]
    by_cases hs : s = symbol
    · rw [if_pos hs, beq_iff_eq.2 hs]
    · rw [if_neg hs, beq_eq_false_iff_ne.2 hs]
  | cons entry entries ih =>
    obtain ⟨other, p⟩ := entry
    rw [setPrecedence]
    dsimp only
    by_cases hother : other = symbol
    · rw [if_pos hother, List.lookup_cons, List.lookup_cons, hother]
      by_cases hs : s = symbol
      · rw [if_pos hs, beq_iff_eq.2 hs, Option.some_or]
      · rw [if_neg hs, beq_eq_false_iff_ne.2 hs, Option.none_or]
    · rw [if_neg hother, List.lookup_cons, List.lookup_cons, ih]
      by_cases hs : s = other
      · have hne : ¬ s = symbol := fun h ↦ hother (hs.symm.trans h)
        simp only [if_neg hne, Option.none_or, beq_iff_eq.2 hs]
      · rw [beq_eq_false_iff_ne.2 hs]

/-- **After a call, its symbol has its precedence**, and all others have theirs. -/
theorem precedence?_register (table : OperatorTable) (call : Registration) (s : String) :
    (table.register call).precedence? s = (call.precedence? s).or (table.precedence? s) := by
  cases call with
  | unary symbol =>
    show (table.addUnary symbol).precedence? s = table.precedence? s
    unfold addUnary
    split <;> rfl
  | binary symbol precedence => exact lookup_setPrecedence symbol s precedence table.binary

/-- A call does the same to tables that agree. -/
theorem Agrees.register (h : table.Agrees table') (call : Registration) :
    (table.register call).Agrees (table'.register call) where
  isUnary_eq s := by rw [isUnary_register, isUnary_register, h.isUnary_eq]
  precedence?_eq s := by rw [precedence?_register, precedence?_register, h.precedence?_eq]

/-- Two calls can change places, unless they give one symbol two precedences. -/
theorem register_comm {a b : Registration} (hab : Consistent [a, b]) (table : OperatorTable) :
    ((table.register a).register b).Agrees ((table.register b).register a) where
  isUnary_eq s := by
    simp only [isUnary_register]
    exact Bool.or_left_comm _ _ _
  precedence?_eq s := by
    simp only [precedence?_register]
    rcases ha : a.precedence? s with - | p
    · rw [Option.none_or, Option.none_or]
    rcases hb : b.precedence? s with - | q
    · rw [Option.none_or, Option.none_or]
    obtain rfl : a = .binary s p := Registration.precedence?_eq_some_iff.1 ha
    obtain rfl : b = .binary s q := Registration.precedence?_eq_some_iff.1 hb
    have hpq : p = q := hab s p q (by simp) (by simp)
    rw [hpq]

/-- Tables that agree still do after the same calls. -/
theorem Agrees.registerAll (h : table.Agrees table') (calls : List Registration) :
    (table.registerAll calls).Agrees (table'.registerAll calls) := by
  induction calls generalizing table table' with
  | nil => exact h
  | cons call calls ih => exact ih (h.register call)

/-- Fewer calls can only be more consistent. -/
theorem Consistent.mono {calls calls' : List Registration} (h : Consistent calls)
    (hsubset : calls' ⊆ calls) : Consistent calls' :=
  fun symbol p q hp hq ↦ h symbol p q (hsubset hp) (hsubset hq)

/-- **Symbols can be registered in any order**, unless one of them is given two precedences. -/
theorem agrees_of_perm {calls calls' : List Registration} (hperm : calls.Perm calls')
    (hconsistent : Consistent calls) (table : OperatorTable) :
    (table.registerAll calls).Agrees (table.registerAll calls') := by
  induction hperm generalizing table with
  | nil => exact .refl table
  | cons call _ ih =>
    exact ih (hconsistent.mono (List.subset_cons_self _ _)) (table.register call)
  | swap a b calls =>
    have hba : Consistent [b, a] := hconsistent.mono (List.prefix_append [b, a] calls).subset
    exact (register_comm hba table).registerAll calls
  | trans hperm _ ih ih' =>
    exact (ih hconsistent table).trans (ih' (hconsistent.mono hperm.symm.subset) table)

/-! ### The longest symbol -/

/-- The symbol is the longest one of the table that the text starts with. -/
structure IsLongest (table : OperatorTable) (text symbol : List Char) : Prop where
  mem : symbol ∈ table.symbols
  isPrefix : symbol <+: text
  longest : ∀ s ∈ table.symbols, s <+: text → s.length ≤ symbol.length

/-- What is matched is a symbol of the table, begins the text, and no longer one does. -/
theorem isLongest_of_longestMatch? {text symbol : List Char}
    (h : table.longestMatch? text = some symbol) : table.IsLongest text symbol := by
  obtain ⟨hmem, -, hprefix, hlongest⟩ := longestMatch?_eq_some_iff.1 h
  exact ⟨hmem, hprefix, hlongest⟩

end OperatorTable

namespace Token

variable {table table' : OperatorTable} {position : Nat} {text : List Char}

/-! ### Tokens of tables that agree -/

/-- Tables that agree read the same token at every place. -/
theorem scan_congr (h : table.Agrees table') (position : Nat) (c : Char) (cs : List Char) :
    scan table position c cs = scan table' position c cs := by
  unfold scan
  rw [h.longestMatch?_eq]

/-- **Tables that agree cut every text into the same tokens.** -/
theorem tokensFrom_congr (h : table.Agrees table') (position : Nat) (text : List Char) :
    tokensFrom table position text = tokensFrom table' position text := by
  fun_induction tokensFrom table position text with
  | case1 position => rw [tokensFrom_nil]
  | case2 position c cs hc ih => rw [ih, tokensFrom, if_pos hc]
  | case3 position c cs hc e he => rw [tokensFrom, if_neg hc, ← scan_congr h, he]
  | case4 position c cs hc t ht ih =>
    rw [ih, tokensFrom_scan hc ((scan_congr h position c cs).symm.trans ht)]

/-! ### Operators in a text -/

/-- An operator is its symbol, and was matched where it stands. -/
theorem Scanned.of_operator {rest taken lexeme : List Char}
    (h : Scanned table rest taken .operator lexeme) :
    lexeme = taken ∧ table.longestMatch? (taken ++ rest) = some taken := by
  generalize hkind : TokenKind.operator = kind at h
  cases h with
  | operator h => exact ⟨rfl, h⟩
  | @word c cs _ _ _ =>
    have hmem := wordKind_mem (c :: cs)
    rw [← hkind] at hmem
    exact absurd hmem (by decide)
  | punctuation h =>
    unfold TokenKind.ofPunctuation? at h
    subst hkind
    split at h <;> cases h
  | number | string => cases hkind

/-- The symbol of an operator is the longest one that the text goes on with where it begins. -/
theorem Reads.isLongest {tokens : List Token} (h : Reads table position text tokens)
    {before : List Char} (hbefore : before.length = position) :
    ∀ t ∈ tokens, t.kind = .operator →
      table.IsLongest ((before ++ text).drop t.start) t.lexeme.toList := by
  induction h generalizing before with
  | eof => exact List.forall_mem_singleton.2 nofun
  | @blank position c cs tokens _ _ ih =>
    rw [← List.singleton_append, ← List.append_assoc]
    exact ih (by rw [List.length_append, hbefore, List.length_singleton])
  | @token position c front rest t more _ ht hstop _ ih =>
    refine List.forall_mem_cons.2 ⟨fun hkind ↦ ?_, ?_⟩
    · obtain ⟨taken, rest', hcs, hscanned, hstart, -⟩ := scanned_of_scan ht
      rw [hkind] at hscanned
      obtain ⟨hlexeme, hmatch⟩ := hscanned.of_operator
      rw [hstart, List.drop_left' hbefore, hcs, hlexeme]
      exact OperatorTable.isLongest_of_longestMatch? hmatch
    · have hlength : (before ++ c :: front).length = t.stop := by
        rw [List.length_append, hbefore, hstop, List.length_cons]
      have htail := ih hlength
      rwa [List.append_assoc, List.cons_append] at htail

/-- The character that is unexpected is the one at the place, and no symbol begins with it there. -/
theorem scan_unexpectedCharacter {c d : Char} {cs : List Char} {p : Nat}
    (h : scan table position c cs = .error (.unexpectedCharacter d p)) :
    d = c ∧ p = position ∧ table.longestMatch? (c :: cs) = none := by
  unfold scan at h
  split at h
  · cases h
  split at h
  · split at h <;> cases h
  split at h
  · split at h <;> cases h
  split at h
  · cases h
  split at h
  · cases h
  · next hnone =>
    cases h
    exact ⟨rfl, rfl, hnone⟩

/-- A character is only unexpected where the text goes on with no symbol. -/
theorem of_unexpectedCharacter {c : Char} {p : Nat}
    (h : tokensFrom table position text = .error (.unexpectedCharacter c p))
    {before : List Char} (hbefore : before.length = position) :
    (before ++ text)[p]? = some c ∧ table.longestMatch? ((before ++ text).drop p) = none := by
  fun_induction tokensFrom table position text generalizing before with
  | case1 => cases h
  | case2 position d cs _ ih =>
    have hlength : (before ++ [d]).length = position + 1 := by
      rw [List.length_append, hbefore, List.length_singleton]
    have hrest := ih h hlength
    rwa [List.append_assoc, List.singleton_append] at hrest
  | case3 position d cs _ e he =>
    cases h
    obtain ⟨rfl, rfl, hnone⟩ := scan_unexpectedCharacter he
    rw [List.drop_left' hbefore, ← hbefore, List.getElem?_append_right (Nat.le_refl _),
      Nat.sub_self]
    exact ⟨rfl, hnone⟩
  | case4 position d cs _ t ht ih =>
    obtain ⟨front, rest, rfl, -, -, hstop⟩ := scanned_of_scan ht
    have hdrop : (front ++ rest).drop (t.stop - position - 1) = rest := by
      rw [hstop, show position + (front.length + 1) - position - 1 = front.length by omega,
        List.drop_left]
    have hlength : (before ++ d :: front).length = t.stop := by
      rw [List.length_append, hbefore, hstop, List.length_cons]
    rw [hdrop] at h ih
    rcases hmore : tokensFrom table t.stop rest with e | more
    · rw [hmore] at h
      cases h
      have hrest := ih hmore hlength
      rwa [List.append_assoc, List.cons_append] at hrest
    · rw [hmore] at h
      cases h

end Token

end FeatureStyle
