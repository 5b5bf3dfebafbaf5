import FeatureStyle.Proofs.Token.Span

/-!
# Names

A **name** is a text that is read as one identifier, just as it stands (`IsName`). Names are the
words that are no keyword, as long as they do not begin with a blank (`isName_iff`): a blank beyond
ASCII may be a part of a word, but where a token could begin it is passed over.

Before that stand the equations that read a word, a mark of punctuation and a quoted text at the
front of whatever else there is.
-/

namespace FeatureStyle.Token

variable {table : OperatorTable} {c : Char} {cs word rest : List Char} {position : Nat}

/-- A word that can be read where a token begins. -/
inductive IsWord : List Char → Prop
  | mk {c : Char} {cs : List Char} (hstart : isIdentifierStart c) (hblank : ¬ Text.isBlank c)
    (hparts : ∀ d ∈ cs, isIdentifierPart d) : IsWord (c :: cs)

/-- All characters of a word are parts of words. -/
theorem IsWord.forall_mem (h : IsWord word) : ∀ d ∈ word, isIdentifierPart d := by
  obtain ⟨hstart, -, hparts⟩ := h
  exact List.forall_mem_cons.2 ⟨isIdentifierPart_of_start hstart, hparts⟩

/-- A word with more parts behind it is a word. -/
theorem IsWord.append (h : IsWord word) (hrest : ∀ d ∈ rest, isIdentifierPart d) :
    IsWord (word ++ rest) := by
  obtain ⟨hstart, hblank, hparts⟩ := h
  exact .mk hstart hblank (List.forall_mem_append.2 ⟨hparts, hrest⟩)

/-- A digit is a part of a word, but does not begin one. -/
theorem isDigit_eq_false_of_start (h : isIdentifierStart c) : c.isDigit = false := by
  refine Bool.eq_false_iff.2 fun hdigit ↦ ?_
  have hrange : 48 ≤ c.toNat ∧ c.toNat ≤ 57 := by
    simpa [Char.isDigit, UInt32.le_iff_toNat_le] using hdigit
  have hdigits : ∀ n < 10, isIdentifierStart (Char.ofNat (48 + n)) = false := by decide
  have hc : Char.ofNat (48 + (c.toNat - 48)) = c := by
    rw [Nat.add_sub_cancel' hrange.1, Char.ofNat_toNat]
  rw [← hc, hdigits _ (by omega)] at h
  cases h

/-- No word starts with a digit. -/
theorem IsWord.startsWithDigit (h : IsWord word) : startsWithDigit word = false := by
  obtain ⟨hstart, -, -⟩ := h
  exact isDigit_eq_false_of_start hstart

/-! ### Tokens at the front of a text -/

/-- Whether a number starts at the front of a text. -/
def startsNumber (c : Char) (cs : List Char) : Bool := c.isDigit || (c == '.' && startsWithDigit cs)

/-- After a token that takes up the front, the reading goes on with the rest. -/
theorem tokensFrom_front {front : List Char} {t : Token} (hblank : ¬ Text.isBlank c)
    (ht : scan table position c (front ++ rest) = .ok t)
    (hstop : t.stop = position + (front.length + 1)) :
    tokensFrom table position (c :: (front ++ rest)) =
      (tokensFrom table (position + (front.length + 1)) rest).map (t :: ·) := by
  have hlength : t.stop - position - 1 = front.length := by omega
  rw [tokensFrom_scan hblank ht, hlength, List.drop_left, hstop]

/-- A word goes up to where no part of one comes next. -/
theorem scan_word (hstart : isIdentifierStart c) (hparts : ∀ d ∈ cs, isIdentifierPart d)
    (hrest : ∀ d ∈ rest.head?, ¬ isIdentifierPart d) :
    scan table position c (cs ++ rest) =
      .ok (ofSpan (wordKind (c :: cs)) (c :: cs) position (cs.length + 1)) := by
  rw [scan, if_pos hstart, takeWhile_append_of_head? hparts hrest]
  rfl

section

variable {cs literal symbol body : List Char} {n : Nat} {kind : TokenKind}
  (hstart : ¬ isIdentifierStart c)
include hstart

/-- Where a number starts, it is the token. -/
theorem scan_number (hnumber : startsNumber c cs) (h : numberLiteral (c :: cs) = .ok literal) :
    scan table position c cs = .ok (ofSpan .number literal position literal.length) := by
  rw [scan, if_neg hstart, ← startsNumber, if_pos hnumber, h]

/-- Where a quote stands, the token is what is quoted. -/
theorem scan_quoted (hnumber : ¬ startsNumber c cs) (hquote : isQuote c)
    (h : stringBody? c cs = some (body, n)) :
    scan table position c cs = .ok (ofSpan .string body position (n + 1)) := by
  rw [scan, if_neg hstart, ← startsNumber, if_neg hnumber, if_pos hquote, h]

/-- A mark of punctuation is a token by itself. -/
theorem scan_punctuation (hnumber : ¬ startsNumber c cs) (hquote : ¬ isQuote c)
    (h : TokenKind.ofPunctuation? c = some kind) :
    scan table position c cs = .ok (ofSpan kind [c] position 1) := by
  rw [scan, if_neg hstart, ← startsNumber, if_neg hnumber, if_neg hquote, h]

/-- What is none of these is the longest symbol of the table. -/
theorem scan_symbol (hnumber : ¬ startsNumber c cs) (hquote : ¬ isQuote c)
    (hkind : TokenKind.ofPunctuation? c = none) (h : table.longestMatch? (c :: cs) = some symbol) :
    scan table position c cs = .ok (ofSpan .operator symbol position symbol.length) := by
  rw [scan, if_neg hstart, ← startsNumber, if_neg hnumber, if_neg hquote, hkind, h]

end

/-- **A word at the front is read as one token**, up to what cannot belong to it. -/
theorem tokensFrom_word (hword : IsWord word) (hrest : ∀ d ∈ rest.head?, ¬ isIdentifierPart d) :
    tokensFrom table position (word ++ rest) =
      (tokensFrom table (position + word.length) rest).map
        (ofSpan (wordKind word) word position word.length :: ·) := by
  obtain ⟨hstart, hblank, hparts⟩ := hword
  exact tokensFrom_front hblank (scan_word hstart hparts hrest) rfl

/-- A mark at the front is read by itself. A point is one as long as no digit comes behind it. -/
theorem tokensFrom_punctuation {kind : TokenKind} (hkind : TokenKind.ofPunctuation? c = some kind)
    (hpoint : c = '.' → startsWithDigit rest = false) :
    tokensFrom table position (c :: rest) =
      (tokensFrom table (position + 1) rest).map (ofSpan kind [c] position 1 :: ·) := by
  have hclass : ¬ Text.isBlank c ∧ ¬ isIdentifierStart c ∧ ¬ c.isDigit ∧ ¬ isQuote c := by
    unfold TokenKind.ofPunctuation? at hkind
    split at hkind <;> first | decide | cases hkind
  obtain ⟨hblank, hstart, hdigit, hquote⟩ := hclass
  have hnumber : ¬ startsNumber c rest := by
    rw [startsNumber, Bool.or_eq_true, Bool.and_eq_true, beq_iff_eq, not_or]
    refine ⟨hdigit, fun ⟨hc, hrest⟩ ↦ ?_⟩
    rw [hpoint hc] at hrest
    cases hrest
  have hscan : scan table position c ([] ++ rest) = .ok (ofSpan kind [c] position 1) :=
    scan_punctuation hstart hnumber hquote hkind
  exact tokensFrom_front hblank hscan rfl

/-- A quote is no blank and begins neither a word nor a number. -/
theorem starts_of_isQuote {q : Char} (hq : isQuote q) (cs : List Char) :
    ¬ Text.isBlank q ∧ ¬ isIdentifierStart q ∧ ¬ startsNumber q cs := by
  have hclass : ¬ Text.isBlank q ∧ ¬ isIdentifierStart q ∧ ¬ q.isDigit ∧ q ≠ '.' := by
    rw [isQuote, Bool.or_eq_true, beq_iff_eq, beq_iff_eq] at hq
    rcases hq with rfl | rfl <;> decide
  obtain ⟨hblank, hstart, hdigit, hpoint⟩ := hclass
  exact ⟨hblank, hstart, by simp [startsNumber, hdigit, hpoint]⟩

/-- What stands for the body of a string is read up to the quote that closes it. -/
theorem tokensFrom_string {q : Char} {inner body : List Char} (hq : isQuote q)
    (h : Quoted q inner body) :
    tokensFrom table position (q :: (inner ++ q :: rest)) =
      (tokensFrom table (position + (inner.length + 2)) rest).map
        (ofSpan .string body position (inner.length + 2) :: ·) := by
  obtain ⟨hblank, hstart, hnumber⟩ := starts_of_isQuote hq (inner ++ q :: rest)
  have hscan : scan table position q (inner ++ [q] ++ rest) =
      .ok (ofSpan .string body position (inner.length + 2)) := by
    rw [List.append_assoc, List.singleton_append]
    exact scan_quoted hstart hnumber hq (h.stringBody?_eq hq rest)
  have hstop : (ofSpan .string body position (inner.length + 2)).stop =
      position + ((inner ++ [q]).length + 1) := by
    simp [ofSpan]
  have htokens := tokensFrom_front hblank hscan hstop
  rw [List.append_assoc, List.singleton_append, List.length_append] at htokens
  exact htokens

/-- A quoted text at the front is read with its quotes. -/
theorem tokensFrom_quoted {q : Char} {body : List Char} (hq : isQuote q) (hquote : q ∉ body)
    (hbackslash : '\\' ∉ body) :
    tokensFrom table position (q :: (body ++ q :: rest)) =
      (tokensFrom table (position + (body.length + 2)) rest).map
        (ofSpan .string body position (body.length + 2) :: ·) :=
  tokensFrom_string hq (quoted_self hquote hbackslash)

/-! ### Names -/

variable {table' : OperatorTable} {name : String}

/-- The text is read as one identifier, just as it stands. -/
def IsName (table : OperatorTable) (name : String) : Prop :=
  ∃ t stop, tokenize table name.toList = .ok [t, eof stop] ∧ t.kind = .identifier ∧ t.lexeme = name

/-- The first token of a text is scanned behind blanks. -/
theorem exists_scan_of_tokensFrom {text : List Char} {t : Token} {more : List Token}
    (h : tokensFrom table position text = .ok (t :: more)) (hkind : t.kind ≠ .eof) :
    ∃ blanks c cs position', text = blanks ++ c :: cs ∧ ¬ Text.isBlank c ∧
      scan table position' c cs = .ok t := by
  fun_induction tokensFrom table position text with
  | case1 position =>
    cases h
    exact absurd rfl hkind
  | case2 position c cs hc ih =>
    obtain ⟨blanks, d, ds, position', rfl, hblank, hscan⟩ := ih h
    exact ⟨c :: blanks, d, ds, position', rfl, hblank, hscan⟩
  | case3 => cases h
  | case4 position c cs hc s hs ih =>
    obtain ⟨_, -, heq⟩ := map_eq_ok.1 h
    obtain ⟨rfl, -⟩ := List.cons.inj heq
    exact ⟨[], c, cs, position, rfl, hc, hs⟩

/-- Nothing comes behind the end of a text. -/
theorem head?_nil_not_isIdentifierPart : ∀ d ∈ ([] : List Char).head?, ¬ isIdentifierPart d := nofun

/-- **The names are the words that are no keywords.** -/
theorem isName_iff :
    IsName table name ↔ IsWord name.toList ∧ wordKind name.toList = .identifier := by
  constructor
  · rintro ⟨t, stop, htokens, hkind, rfl⟩
    have hne : t.kind ≠ .eof := by
      rw [hkind]
      decide
    obtain ⟨blanks, c, cs, position, htext, hblank, hscan⟩ := exists_scan_of_tokensFrom htokens hne
    obtain ⟨front, rest, rfl, hscanned, -, -⟩ := scanned_of_scan hscan
    rw [hkind] at hscanned
    obtain ⟨htaken, hstart, hparts, -⟩ := hscanned.of_identifier
    -- The token is all there is, so nothing is left behind it.
    have hlength := congrArg List.length (htaken.symm.trans htext)
    simp only [List.length_append, List.length_cons] at hlength
    obtain rfl : rest = [] := List.eq_nil_of_length_eq_zero (by omega)
    have hfront : ∀ d ∈ front, isIdentifierPart d := fun d hd ↦
      hparts d (List.mem_cons_of_mem c hd)
    rw [scan_word (hstart c rfl) hfront head?_nil_not_isIdentifierPart] at hscan
    have hword : wordKind (c :: front) = t.kind := congrArg kind (Except.ok.inj hscan)
    rw [htaken]
    exact ⟨.mk (hstart c rfl) hblank hfront, hword.trans hkind⟩
  · rintro ⟨hword, hkind⟩
    have htokens : tokensFrom table 0 (name.toList ++ []) =
        .ok [ofSpan (wordKind name.toList) name.toList 0 name.toList.length,
          eof (0 + name.toList.length)] := by
      rw [tokensFrom_word hword head?_nil_not_isIdentifierPart, tokensFrom_nil]
      rfl
    rw [List.append_nil] at htokens
    exact ⟨_, _, htokens, hkind, String.ofList_toList⟩

/-- Operators have no part in names. -/
theorem IsName.of_table (h : IsName table name) : IsName table' name :=
  isName_iff.2 (isName_iff.1 h)

/-- A name is a word. -/
theorem IsName.isWord (h : IsName table name) : IsWord name.toList := (isName_iff.1 h).1

/-- What is no part of a word is not in a name. -/
theorem IsName.notMem (h : IsName table name) (hc : ¬ isIdentifierPart c) : c ∉ name.toList :=
  fun hmem ↦ hc (h.isWord.forall_mem c hmem)

/-- The identifier of a name. -/
def ofName (name : String) (position : Nat) : Token :=
  ⟨.identifier, name, position, position + name.length⟩

/-- A name at the front is read as an identifier. -/
theorem tokensFrom_name (h : IsName table name) (hrest : ∀ d ∈ rest.head?, ¬ isIdentifierPart d) :
    tokensFrom table position (name.toList ++ rest) =
      (tokensFrom table (position + name.length) rest).map (ofName name position :: ·) := by
  rw [tokensFrom_word h.isWord hrest, (isName_iff.1 h).2, ofSpan, String.ofList_toList,
    String.length_toList]
  rfl

/-- Alone, it is all there is. -/
theorem tokensFrom_name_nil (h : IsName table name) :
    tokensFrom table position name.toList =
      .ok [ofName name position, eof (position + name.length)] := by
  have htokens : tokensFrom table position (name.toList ++ []) =
      .ok [ofName name position, eof (position + name.length)] := by
    rw [tokensFrom_name h head?_nil_not_isIdentifierPart, tokensFrom_nil]
    rfl
  rwa [List.append_nil] at htokens

end FeatureStyle.Token
