import FeatureStyle.Proofs.Token.Tokenize

/-!
# What tokens take up

A token takes up a piece of the text, and what it is depends on that piece and on what comes behind
it. `Scanned table rest taken kind lexeme` says this for every sort of token, and **every token that
is read is scanned from a piece of the text** (`exists_scanned_of_mem`). What a string takes up
stands for its body when escapes are decoded (`Quoted`).

A word takes up all that could belong to it: no part of a word comes behind it, and before it only
one that is passed over as a blank (`Apart`). So that this holds behind an operator too, the symbols
of the table must not have such parts in them.
-/

namespace FeatureStyle

namespace OperatorTable

variable {table : OperatorTable}

/-- The longest symbol is one of those that were looked at. -/
theorem eq_or_mem_of_foldl_longer {symbols : List (List Char)} {best : Option (List Char)}
    {symbol : List Char} (h : symbols.foldl longer best = some symbol) :
    best = some symbol ∨ symbol ∈ symbols := by
  induction symbols generalizing best with
  | nil => exact .inl h
  | cons head symbols ih =>
    rcases ih h with hlonger | hmem
    · unfold longer at hlonger
      split at hlonger
      · exact .inr (Option.some.inj hlonger ▸ List.mem_cons_self)
      · split at hlonger
        · exact .inr (Option.some.inj hlonger ▸ List.mem_cons_self)
        · exact .inl hlonger
    · exact .inr (List.mem_cons_of_mem _ hmem)

/-- **A symbol that is matched is in the table, and the text goes on with it.** -/
theorem mem_of_longestMatch? {text symbol : List Char}
    (h : table.longestMatch? text = some symbol) :
    symbol ∈ table.symbols ∧ symbol ≠ [] ∧ symbol <+: text := by
  rcases eq_or_mem_of_foldl_longer h with h | h
  · cases h
  · obtain ⟨hmem, hmatch⟩ := List.mem_filter.1 h
    rw [Bool.and_eq_true, Bool.not_eq_true', List.isEmpty_eq_false_iff,
      List.isPrefixOf_iff_prefix] at hmatch
    exact ⟨hmem, hmatch⟩

end OperatorTable

namespace Token

variable {table : OperatorTable}

/-! ### Runs of characters -/

/-- What comes first, all of one class, is taken while it is in the class. -/
theorem takeWhile_append_of_head? {p : Char → Bool} {cs rest : List Char} (hcs : ∀ c ∈ cs, p c)
    (hrest : ∀ c ∈ rest.head?, ¬ p c) : (cs ++ rest).takeWhile p = cs := by
  rw [List.takeWhile_append_of_pos hcs]
  cases rest with
  | nil => rw [List.takeWhile_nil, List.append_nil]
  | cons c rest => rw [List.takeWhile_cons_of_neg (hrest c rfl), List.append_nil]

/-- A text is cut where its first characters are no more of one class. -/
theorem exists_run (p : Char → Bool) (cs : List Char) :
    ∃ run rest, cs = run ++ rest ∧ (∀ c ∈ run, p c) ∧ ∀ c ∈ rest.head?, ¬ p c := by
  refine ⟨cs.takeWhile p, cs.dropWhile p, List.takeWhile_append_dropWhile.symm,
    List.all_eq_true.1 List.all_takeWhile, fun c hc ↦ ?_⟩
  have hnot := List.head?_dropWhile_not p cs
  rw [hc] at hnot
  simpa using hnot

/-! ### Characters of words -/

/-- What can start a word can be in one. -/
theorem isIdentifierPart_of_start {c : Char} (h : isIdentifierStart c) : isIdentifierPart c := by
  rw [isIdentifierPart, h, Bool.true_or]

/-- A quote cannot be in a word. -/
theorem not_isIdentifierPart_of_isQuote {c : Char} (h : isQuote c) : ¬ isIdentifierPart c := by
  simp only [isQuote, Bool.or_eq_true, beq_iff_eq] at h
  rcases h with rfl | rfl <;> decide

/-- Nor can a mark of punctuation. -/
theorem not_isIdentifierPart_of_punctuation {c : Char} {kind : TokenKind}
    (h : TokenKind.ofPunctuation? c = some kind) : ¬ isIdentifierPart c := by
  unfold TokenKind.ofPunctuation? at h
  split at h <;> first | decide | cases h

/-- A blank in a word is not a digit. -/
theorem isIdentifierStart_of_isBlank {c : Char} (hblank : Text.isBlank c)
    (hpart : isIdentifierPart c) : isIdentifierStart c := by
  rw [isIdentifierPart, Bool.or_eq_true] at hpart
  refine hpart.resolve_right fun hdigit ↦ ?_
  have hzero : '0'.val.toNat = 48 := rfl
  have hnine : '9'.val.toNat = 57 := rfl
  simp only [Char.isDigit, Bool.and_eq_true, decide_eq_true_eq, UInt32.le_iff_toNat_le] at hdigit
  simp only [Text.isBlank, Bool.or_eq_true, Bool.and_eq_true, decide_eq_true_eq, beq_iff_eq,
    Char.toNat] at hblank
  omega

/-! ### Numbers -/

/-- A fraction is taken from the front. -/
theorem isPrefix_fractionPart (cs : List Char) : fractionPart cs <+: cs := by
  unfold fractionPart
  split
  · exact (List.prefix_cons_inj _).2 (List.takeWhile_prefix _)
  · exact List.nil_prefix

/-- So is the mark of an exponent. -/
theorem isPrefix_exponentMark (cs : List Char) : exponentMark cs <+: cs := by
  unfold exponentMark
  split
  · next c rest =>
    split
    · exact ⟨rest, rfl⟩
    · exact List.nil_prefix
  · next c rest =>
    split
    · exact ⟨rest, rfl⟩
    · exact List.nil_prefix
  · next c rest _ _ =>
    split
    · exact ⟨rest, rfl⟩
    · exact List.nil_prefix
  · exact List.nil_prefix

/-- A piece and one that the rest goes on with. -/
theorem prefix_append_of_drop {as bs cs : List Char} (has : as <+: cs)
    (hbs : bs <+: cs.drop as.length) : as ++ bs <+: cs := by
  obtain ⟨rest, rfl⟩ := has
  rw [List.drop_left] at hbs
  exact (List.prefix_append_right_inj as).2 hbs

/-- A literal is the front of the text, and no word comes directly behind it. -/
theorem numberLiteral_eq_ok {cs literal : List Char} (h : numberLiteral cs = .ok literal) :
    literal <+: cs ∧ (∀ c ∈ (cs.drop literal.length).head?, ¬ isIdentifierStart c) ∧
      cs.takeWhile Char.isDigit ++ fractionPart (cs.drop (cs.takeWhile Char.isDigit).length) <+:
        literal := by
  unfold numberLiteral at h
  extract_lets whole fraction mantissa mark afterMark exponent literal' at h
  have hwhole : whole <+: cs := List.takeWhile_prefix _
  have hmantissa : mantissa <+: cs := prefix_append_of_drop hwhole (isPrefix_fractionPart _)
  have hmark : mantissa ++ mark <+: cs := prefix_append_of_drop hmantissa (isPrefix_exponentMark _)
  have hexponent : exponent <+: cs.drop (mantissa ++ mark).length := by
    rw [List.length_append]
    simp only [exponent]
    split
    · exact List.nil_prefix
    · exact List.takeWhile_prefix _
  have hliteral : literal' <+: cs := prefix_append_of_drop hmark hexponent
  have hfront : mantissa <+: literal' := ⟨mark ++ exponent, by simp [literal']⟩
  split at h
  · cases h
  split at h
  · next c rest hdrop =>
    split at h
    · cases h
    · next hc =>
      obtain rfl := Except.ok.inj h
      rw [hdrop]
      exact ⟨hliteral, by rintro _ ⟨⟩; exact hc, hfront⟩
  · next hdrop =>
    obtain rfl := Except.ok.inj h
    rw [hdrop]
    exact ⟨hliteral, nofun, hfront⟩

/-- The first character belongs to the literal, whether it is a digit or the point. -/
theorem ne_nil_of_numberLiteral {c : Char} {cs literal : List Char} (hfirst : c.isDigit ∨ c = '.')
    (h : numberLiteral (c :: cs) = .ok literal) : literal ≠ [] := by
  rintro rfl
  obtain ⟨-, -, hfront⟩ := numberLiteral_eq_ok h
  rw [List.prefix_nil, List.append_eq_nil_iff] at hfront
  obtain ⟨hwhole, hfraction⟩ := hfront
  rw [hwhole] at hfraction
  rw [List.takeWhile_cons] at hwhole
  rcases hfirst with hdigit | rfl
  · rw [if_pos hdigit] at hwhole
    cases hwhole
  · cases hfraction

/-! ### Strings -/

/-- The text stands for the body between quotes: a backslash takes the character after it along, and
other characters, of which none is the quote, stand for themselves. -/
inductive Quoted (quote : Char) : List Char → List Char → Prop
  | nil : Quoted quote [] []
  | escape {c : Char} {inner body : List Char} (h : Quoted quote inner body) :
      Quoted quote ('\\' :: c :: inner) (decodeEscape c :: body)
  | plain {c : Char} {inner body : List Char} (hquote : c ≠ quote) (hbackslash : c ≠ '\\')
      (h : Quoted quote inner body) : Quoted quote (c :: inner) (c :: body)

/-- A text without escapes is quoted as it stands. -/
theorem quoted_self {q : Char} {body : List Char} (hquote : q ∉ body) (hbackslash : '\\' ∉ body) :
    Quoted q body body := by
  induction body with
  | nil => exact .nil
  | cons c body ih =>
    rw [List.mem_cons, not_or] at hquote hbackslash
    exact .plain (Ne.symm hquote.1) (Ne.symm hbackslash.1) (ih hquote.2 hbackslash.2)

/-- The body of a string is read from a text that stands for it, up to the closing quote. -/
theorem quoted_of_stringBody? {q : Char} {cs body : List Char} {n : Nat}
    (h : stringBody? q cs = some (body, n)) :
    ∃ inner rest, cs = inner ++ q :: rest ∧ n = inner.length + 1 ∧ Quoted q inner body := by
  fun_induction stringBody? q cs generalizing body n with
  | case1 => cases h
  | case2 cs =>
    cases h
    exact ⟨[], cs, rfl, rfl, .nil⟩
  | case3 => cases h
  | case4 escaped cs _ ih =>
    obtain ⟨⟨body', n'⟩, hbody, heq⟩ := Option.map_eq_some_iff.1 h
    cases heq
    obtain ⟨inner, rest, rfl, rfl, hquoted⟩ := ih hbody
    exact ⟨'\\' :: escaped :: inner, rest, rfl, rfl, hquoted.escape⟩
  | case5 c cs hquote hbackslash ih =>
    obtain ⟨⟨body', n'⟩, hbody, heq⟩ := Option.map_eq_some_iff.1 h
    cases heq
    obtain ⟨inner, rest, rfl, rfl, hquoted⟩ := ih hbody
    exact ⟨c :: inner, rest, rfl, rfl, hquoted.plain hquote hbackslash⟩

theorem ne_backslash_of_isQuote {q : Char} (hq : isQuote q) : q ≠ '\\' := by
  rintro rfl
  cases hq

/-- What comes behind the closing quote does not matter. -/
theorem Quoted.stringBody?_eq {q : Char} {inner body : List Char} (hq : isQuote q)
    (h : Quoted q inner body) (rest : List Char) :
    stringBody? q (inner ++ q :: rest) = some (body, inner.length + 1) := by
  have hbackslash : '\\' ≠ q := (ne_backslash_of_isQuote hq).symm
  induction h with
  | nil =>
    rw [List.nil_append, stringBody?.eq_def]
    exact if_pos rfl
  | escape _ ih =>
    rw [List.cons_append, List.cons_append, stringBody?.eq_def]
    simp [hbackslash, ih]
  | plain hquote hplain _ ih =>
    rw [List.cons_append, stringBody?.eq_def]
    simp [hquote, hplain, ih]

/-! ### Single tokens -/

/-- The token of the given kind and lexeme takes up `taken` where `rest` comes behind it. -/
inductive Scanned (table : OperatorTable) (rest : List Char) :
    List Char → TokenKind → List Char → Prop
  | word {c : Char} {cs : List Char} (hstart : isIdentifierStart c)
      (hparts : ∀ d ∈ cs, isIdentifierPart d) (hrest : ∀ d ∈ rest.head?, ¬ isIdentifierPart d) :
      Scanned table rest (c :: cs) (wordKind (c :: cs)) (c :: cs)
  | number {c : Char} {cs : List Char} (hstart : c.isDigit ∨ c = '.')
      (h : numberLiteral (c :: cs ++ rest) = .ok (c :: cs)) :
      Scanned table rest (c :: cs) .number (c :: cs)
  | string {q : Char} {inner body : List Char} (hq : isQuote q)
      (h : stringBody? q (inner ++ q :: rest) = some (body, inner.length + 1)) :
      Scanned table rest (q :: (inner ++ [q])) .string body
  | punctuation {c : Char} {kind : TokenKind} (h : TokenKind.ofPunctuation? c = some kind) :
      Scanned table rest [c] kind [c]
  | operator {c : Char} {cs : List Char}
      (h : table.longestMatch? (c :: cs ++ rest) = some (c :: cs)) :
      Scanned table rest (c :: cs) .operator (c :: cs)

/-- An identifier is a word as it stands. -/
theorem Scanned.of_identifier {rest taken lexeme : List Char}
    (h : Scanned table rest taken .identifier lexeme) :
    lexeme = taken ∧ (∀ c ∈ taken.head?, isIdentifierStart c) ∧ (∀ c ∈ taken, isIdentifierPart c) ∧
      ∀ c ∈ rest.head?, ¬ isIdentifierPart c := by
  generalize hkind : TokenKind.identifier = kind at h
  cases h with
  | word hstart hparts hrest =>
    refine ⟨rfl, ?_, List.forall_mem_cons.2 ⟨isIdentifierPart_of_start hstart, hparts⟩, hrest⟩
    rintro _ ⟨⟩
    exact hstart
  | punctuation h =>
    unfold TokenKind.ofPunctuation? at h
    subst hkind
    split at h <;> cases h
  | number | string | operator => cases hkind

/-- A number is spelled as it stands, and begins with a digit or the point. -/
theorem Scanned.of_number {rest taken lexeme : List Char}
    (h : Scanned table rest taken .number lexeme) :
    lexeme = taken ∧ ∀ c ∈ taken.head?, c.isDigit ∨ c = '.' := by
  generalize hkind : TokenKind.number = kind at h
  cases h with
  | number hstart _ =>
    refine ⟨rfl, ?_⟩
    rintro _ ⟨⟩
    exact hstart
  | word =>
    unfold wordKind at hkind
    split at hkind
    · cases hkind
    split at hkind
    · cases hkind
    split at hkind <;> cases hkind
  | punctuation h =>
    unfold TokenKind.ofPunctuation? at h
    subst hkind
    split at h <;> cases h
  | string | operator => cases hkind

/-- A token that is read takes up the front of the text. -/
theorem scanned_of_scan {position : Nat} {c : Char} {cs : List Char} {t : Token}
    (h : scan table position c cs = .ok t) :
    ∃ front rest, cs = front ++ rest ∧ Scanned table rest (c :: front) t.kind t.lexeme.toList ∧
      t.start = position ∧ t.stop = position + (front.length + 1) := by
  unfold scan at h
  split at h
  · next hstart =>
    cases h
    obtain ⟨run, rest, rfl, hparts, hrest⟩ := exists_run isIdentifierPart cs
    rw [takeWhile_append_of_head? hparts hrest]
    refine ⟨run, rest, rfl, ?_, rfl, rfl⟩
    rw [ofSpan, String.toList_ofList]
    exact .word hstart hparts hrest
  split at h
  · next hstart =>
    split at h
    · cases h
    · next literal hliteral =>
      cases h
      have hfirst : c.isDigit ∨ c = '.' := by
        rcases Bool.or_eq_true _ _ ▸ hstart with hdigit | hpoint
        · exact .inl hdigit
        · exact .inr (beq_iff_eq.1 (Bool.and_eq_true _ _ ▸ hpoint).1)
      obtain ⟨⟨rest, hcs⟩, -, -⟩ := numberLiteral_eq_ok hliteral
      obtain ⟨d, front, rfl⟩ := List.exists_cons_of_ne_nil (ne_nil_of_numberLiteral hfirst hliteral)
      obtain ⟨rfl, rfl⟩ := List.cons.inj hcs
      refine ⟨front, rest, rfl, ?_, rfl, rfl⟩
      rw [ofSpan, String.toList_ofList]
      exact .number hfirst hliteral
  split at h
  · next hquote =>
    split at h
    · cases h
    · next body n hbody =>
      cases h
      obtain ⟨inner, rest, rfl, rfl, -⟩ := quoted_of_stringBody? hbody
      refine ⟨inner ++ [c], rest, by simp, ?_, rfl, ?_⟩
      · rw [ofSpan, String.toList_ofList]
        exact .string hquote hbody
      · simp [ofSpan]
  split at h
  · next kind hkind =>
    cases h
    refine ⟨[], cs, rfl, ?_, rfl, rfl⟩
    rw [ofSpan, String.toList_ofList]
    exact .punctuation hkind
  split at h
  · next symbol hsymbol =>
    cases h
    obtain ⟨-, hne, rest, hcs⟩ := OperatorTable.mem_of_longestMatch? hsymbol
    obtain ⟨d, front, rfl⟩ := List.exists_cons_of_ne_nil hne
    obtain ⟨rfl, rfl⟩ := List.cons.inj hcs
    refine ⟨front, rest, rfl, ?_, rfl, rfl⟩
    rw [ofSpan, String.toList_ofList]
    exact .operator hsymbol
  · cases h

/-! ### All tokens -/

/-- No part of a word reaches up to the end of the text, but for blanks. -/
def Apart (before : List Char) : Prop :=
  ∀ run, run <:+ before → (∀ c ∈ run, isIdentifierPart c) → ∀ c ∈ run, Text.isBlank c

theorem apart_nil : Apart [] := fun run hrun _ c hc ↦ by
  rw [List.suffix_nil.1 hrun] at hc
  cases hc

/-- The end of a text is apart from what comes if the text is. -/
theorem Apart.of_suffix {before suffix : List Char} (h : Apart before)
    (hsuffix : suffix <:+ before) : Apart suffix :=
  fun run hrun ↦ h run (hrun.trans hsuffix)

/-- A blank does not bring what comes any nearer. -/
theorem apart_cons {c : Char} {before : List Char} (hc : Text.isBlank c) (h : Apart before) :
    Apart (c :: before) := by
  intro run hrun hparts d hd
  rcases List.suffix_cons_iff.1 hrun with rfl | hrun
  · have hblank := h before List.suffix_rfl fun e he ↦ hparts e (List.mem_cons_of_mem _ he)
    rcases List.mem_cons.1 hd with rfl | hd
    · exact hc
    · exact hblank d hd
  · exact h run hrun hparts d hd

/-- A suffix of two pieces that reaches into the first one. -/
theorem suffix_append_cases {run as bs : List Char} (h : run <:+ as ++ bs) :
    run <:+ bs ∨ ∃ last, as.getLast? = some last ∧ last ∈ run ∧ ∀ c ∈ bs, c ∈ run := by
  obtain ⟨before, h⟩ := h
  rcases List.append_eq_append_iff.1 h with ⟨u, has, rfl⟩ | ⟨u, -, hbs⟩
  · rcases List.eq_nil_or_concat u with rfl | ⟨u, last, rfl⟩
    · exact .inl List.suffix_rfl
    · refine .inr ⟨last, ?_, by simp, fun c hc ↦ List.mem_append_right _ hc⟩
      simp [has]
  · exact .inl ⟨u, hbs.symm⟩

/-- A token keeps apart what comes before it from a word behind it. -/
theorem apart_append {taken rest before after : List Char} {kind : TokenKind} {lexeme : List Char}
    {c : Char} (htable : ∀ symbol ∈ table.symbols, ∀ d ∈ symbol, ¬ isIdentifierPart d)
    (htaken : Scanned table rest taken kind lexeme) (hrest : rest = before ++ c :: after)
    (hc : isIdentifierStart c) (h : Apart before) : Apart (taken ++ before) := by
  intro run hrun hparts d hd
  rcases suffix_append_cases hrun with hrun | ⟨last, hlast, hmem, hbefore⟩
  · exact h run hrun hparts d hd
  exfalso
  have hpart : isIdentifierPart last := hparts last hmem
  -- What comes directly behind the token is the start of a word, or a blank that could be one.
  have hhead : ∃ e ∈ rest.head?, isIdentifierStart e := by
    subst hrest
    cases before with
    | nil => exact ⟨c, rfl, hc⟩
    | cons e before =>
      have hall (f : Char) (hf : f ∈ e :: before) : isIdentifierPart f := hparts f (hbefore f hf)
      have hblank := h (e :: before) List.suffix_rfl hall e List.mem_cons_self
      exact ⟨e, rfl, isIdentifierStart_of_isBlank hblank (hall e List.mem_cons_self)⟩
  obtain ⟨e, he, hstart⟩ := hhead
  cases htaken with
  | word _ _ hends => exact hends e he (isIdentifierPart_of_start hstart)
  | number _ hliteral =>
    have hends := (numberLiteral_eq_ok hliteral).2.1
    rw [List.drop_left] at hends
    exact hends e he hstart
  | @string q inner body hq _ =>
    rw [← List.cons_append, List.getLast?_concat] at hlast
    exact not_isIdentifierPart_of_isQuote hq (Option.some.inj hlast ▸ hpart)
  | punctuation hkind =>
    rw [List.mem_singleton.1 (List.mem_of_getLast? hlast)] at hpart
    exact not_isIdentifierPart_of_punctuation hkind hpart
  | operator hsymbol =>
    have hmem := (OperatorTable.mem_of_longestMatch? hsymbol).1
    exact htable _ hmem last (List.mem_of_getLast? hlast) hpart

/-- **Every token is scanned from a piece of the text.** A word stands apart from what comes before
it. -/
theorem exists_scanned_of_mem {position : Nat} {text : List Char} {tokens : List Token}
    (htable : ∀ symbol ∈ table.symbols, ∀ d ∈ symbol, ¬ isIdentifierPart d)
    (h : tokensFrom table position text = .ok tokens) {t : Token} (ht : t ∈ tokens)
    (hkind : t.kind ≠ .eof) :
    ∃ before c front rest, text = before ++ (c :: front ++ rest) ∧
      Scanned table rest (c :: front) t.kind t.lexeme.toList ∧
      t.start = position + before.length ∧ t.stop = t.start + (front.length + 1) ∧
      (isIdentifierStart c → Apart before) := by
  fun_induction tokensFrom table position text generalizing tokens with
  | case1 position =>
    cases h
    obtain rfl := List.mem_singleton.1 ht
    exact absurd rfl hkind
  | case2 position c cs hc ih =>
    obtain ⟨before, d, front, rest, rfl, hscanned, hstart, hstop, hapart⟩ := ih h ht
    refine ⟨c :: before, d, front, rest, rfl, hscanned, ?_, hstop, fun hd ↦ ?_⟩
    · rw [hstart, List.length_cons]
      omega
    · exact apart_cons hc (hapart hd)
  | case3 => cases h
  | case4 position c cs hc s hs ih =>
    obtain ⟨more, hmore, rfl⟩ := map_eq_ok.1 h
    obtain ⟨front, rest, rfl, hscanned, hstart, hstop⟩ := scanned_of_scan hs
    rcases List.mem_cons.1 ht with rfl | ht
    · refine ⟨[], c, front, rest, rfl, hscanned, hstart, ?_, fun _ ↦ apart_nil⟩
      rw [hstop, hstart]
    · have hdrop : (front ++ rest).drop (s.stop - position - 1) = rest := by
        rw [hstop, show position + (front.length + 1) - position - 1 = front.length by omega,
          List.drop_left]
      obtain ⟨before, d, front', rest', hrest, hscanned', hstart', hstop', hapart⟩ :=
        ih hmore ht
      rw [hdrop] at hrest
      refine ⟨c :: front ++ before, d, front', rest', ?_, hscanned', ?_, hstop', fun hd ↦ ?_⟩
      · rw [hrest]
        simp
      · rw [hstart', hstop]
        simp only [List.length_append, List.length_cons]
        omega
      · exact apart_append htable hscanned hrest hd (hapart hd)

end Token

end FeatureStyle
