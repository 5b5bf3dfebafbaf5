import FeatureStyle.Proofs.Token.Behind

/-!
# Marks between texts

A **mark** is a character of punctuation that is a token by itself wherever a token could begin, and
with which no other token goes on (`IsMark`). Brackets, commas and semicolons are marks under every
table without operators that they occur in; the point is none.

`ReadsAs table text readings` says how a text is read but for its end, wherever it stands. Marks cut
texts apart:

* a mark in front of a text is read as a token, and the text as it is by itself
  (`readsAs_cons_mark_iff`);
* a text with a mark behind it is read as it is by itself, and whatever comes behind it from the
  mark on as that is by itself (`ReadsAs.append`);
* at the end of a text a mark is a token in any case (`ReadsAs.of_concat`). There it is not inside
  of a quoted text, since nothing comes behind it that could close the quotes.
-/

namespace FeatureStyle.Token

variable {table : OperatorTable} {kind : TokenKind} {c d : Char} {position : Nat}
  {text u v : List Char} {tokens : List Token} {readings rs : List (TokenKind × String)}

/-! ### Marks -/

/-- The character is a token of the given kind, and goes on with no other one. -/
def IsMark (table : OperatorTable) (d : Char) (kind : TokenKind) : Prop :=
  TokenKind.ofPunctuation? d = some kind ∧ IsNeutral table d

theorem IsMark.not_isIdentifierPart (h : IsMark table d kind) : ¬ isIdentifierPart d :=
  not_isIdentifierPart_of_punctuation h.1

theorem IsMark.not_isBlank_not_isQuote (h : IsMark table d kind) :
    ¬ Text.isBlank d ∧ ¬ isQuote d := by
  obtain ⟨hkind, -⟩ := h
  unfold TokenKind.ofPunctuation? at hkind
  split at hkind <;> first | decide | cases hkind

/-- A number has digits, a point, and the mark and the sign of an exponent. -/
theorem NumberParts.forall_mem_text (parts : NumberParts) :
    ∀ c ∈ parts.text, c.isDigit ∨ c ∈ ['.', 'e', 'E', '+', '-'] := by
  refine List.forall_mem_append.2 ⟨fun c hc ↦ .inl (parts.whole_digits c hc),
    List.forall_mem_append.2 ⟨?_, ?_⟩⟩
  · have hfraction := parts.fraction_valid
    generalize parts.fraction = fraction at hfraction
    cases hfraction with
    | none => exact nofun
    | point hdigits =>
      exact List.forall_mem_cons.2 ⟨.inr (by decide), fun c hc ↦ .inl (hdigits c hc)⟩
  · have hexponent := parts.exponent_valid
    generalize parts.exponent = exponent at hexponent
    cases hexponent with
    | none => exact nofun
    | digits hmark _ hdigits =>
      have hmarks : ∀ mark ∈ exponentMarks, ∀ c ∈ mark, c ∈ ['.', 'e', 'E', '+', '-'] := by decide
      exact List.forall_mem_append.2
        ⟨fun c hc ↦ .inr (hmarks _ hmark c hc), fun c hc ↦ .inl (hdigits c hc)⟩

/-- No mark is part of a number. -/
theorem IsMark.notMem_of_numberLiteral {literal rest : List Char} (h : IsMark table d kind)
    (hliteral : numberLiteral (literal ++ rest) = .ok literal) : d ∉ literal := by
  obtain ⟨parts, rfl, -⟩ := numberLiteral_eq_ok_iff.1 hliteral
  obtain ⟨hkind, hdigit, hpoint, -⟩ := h
  intro hmem
  rcases parts.forall_mem_text d hmem with h | h
  · rw [hdigit] at h
    cases h
  · simp only [List.mem_cons, List.not_mem_nil, or_false] at h
    rcases h with rfl | rfl | rfl | rfl | rfl
    · exact hpoint rfl
    all_goals cases hkind

/-- What a token takes up ends with a mark only if the mark is the token. -/
theorem Scanned.eq_nil_of_concat {rest taken lexeme : List Char} {kind' : TokenKind}
    (h : Scanned table rest taken kind' lexeme) (htaken : taken = u ++ [d])
    (hd : IsMark table d kind) : u = [] ∧ kind' = kind ∧ lexeme = [d] := by
  have hmem : d ∈ taken := by simp [htaken]
  cases h with
  | word hstart hparts _ =>
    rcases List.mem_cons.1 hmem with rfl | hmem
    · exact absurd (isIdentifierPart_of_start hstart) hd.not_isIdentifierPart
    · exact absurd (hparts d hmem) hd.not_isIdentifierPart
  | number _ hliteral => exact absurd hmem (hd.notMem_of_numberLiteral hliteral)
  | @string q inner body hq _ =>
    -- The last character of a quoted text is the quote.
    rw [← List.cons_append] at htaken
    obtain ⟨-, hquote⟩ := List.append_inj' htaken rfl
    obtain rfl := (List.cons.inj hquote).1
    exact absurd hq hd.not_isBlank_not_isQuote.2
  | @punctuation c _ hkind =>
    rw [List.mem_singleton] at hmem
    subst hmem
    obtain rfl : u = [] := by
      simpa using congrArg List.length htaken
    exact ⟨rfl, Option.some.inj (hkind.symm.trans hd.1), rfl⟩
  | operator hsymbol =>
    obtain ⟨hsymbol, -, -⟩ := OperatorTable.mem_of_longestMatch? hsymbol
    obtain ⟨-, -, -, hsymbols⟩ := hd
    exact absurd hmem (hsymbols _ hsymbol)

/-! ### Texts next to each other -/

/-- A text has at least the token of its end. -/
theorem Reads.ne_nil (h : Reads table position text tokens) : tokens ≠ [] := by
  obtain ⟨before, rfl, -⟩ := h.tiles.exists_eof
  simp

/-- A text that begins with nothing that goes on with a token can stand behind any other one. -/
theorem Reads.append (h : Reads table position u tokens)
    (hneutral : ∀ d ∈ v.head?, IsNeutral table d) (hpart : ∀ d ∈ v.head?, ¬ isIdentifierPart d)
    {more : List Token} (hmore : Reads table (position + u.length) v more) :
    ∃ ts, Reads table position (u ++ v) (ts ++ more) ∧
      ts.map reading = tokens.dropLast.map reading := by
  induction h with
  | eof => exact ⟨[], hmore, rfl⟩
  | @blank position c cs tokens hc _ ih =>
    rw [List.length_cons, Nat.add_comm cs.length, ← Nat.add_assoc] at hmore
    obtain ⟨ts, hts, hreading⟩ := ih hmore
    exact ⟨ts, .blank hc hts, hreading⟩
  | @token position c front rest t tokens hc ht hstop h ih =>
    have hlength : position + (c :: (front ++ rest)).length = t.stop + rest.length := by
      rw [hstop, List.length_cons, List.length_append]
      omega
    rw [hlength] at hmore
    obtain ⟨ts, hts, hreading⟩ := ih hmore
    have ht : scan table position c (front ++ (rest ++ [])) = .ok t := by rwa [List.append_nil]
    obtain ⟨t', ht', hsame, hstop'⟩ :=
      scan_replace ht hstop (.inr hneutral) (fun _ _ ↦ .inr hpart) position
    refine ⟨t' :: ts, ?_, ?_⟩
    · rw [List.cons_append, List.append_assoc]
      exact .token hc ht' hstop' (by rwa [hstop', ← hstop])
    · rw [List.dropLast_cons_of_ne_nil h.ne_nil, List.map_cons, List.map_cons, hsame, hreading]

/-- A mark at the end of a text is its last token. -/
theorem Reads.of_concat (h : Reads table position text tokens) (htext : text = u ++ [d])
    (hd : IsMark table d kind) :
    ∃ tokens', Reads table position u tokens' ∧ tokens.dropLast.map reading =
      tokens'.dropLast.map reading ++ [(kind, String.ofList [d])] := by
  induction h generalizing u with
  | eof => simp at htext
  | @blank position c cs tokens hc _ ih =>
    rcases List.cons_eq_append_iff.1 htext with ⟨-, hlast⟩ | ⟨u, rfl, rfl⟩
    · obtain ⟨rfl, -⟩ := List.cons.inj hlast
      exact absurd hc hd.not_isBlank_not_isQuote.1
    · obtain ⟨tokens', htokens', hreading⟩ := ih rfl
      exact ⟨tokens', .blank hc htokens', hreading⟩
  | @token position c front rest t more hc ht hstop h ih =>
    rw [List.dropLast_cons_of_ne_nil h.ne_nil, List.map_cons]
    rcases List.eq_nil_or_concat' rest with rfl | ⟨rest, e, rfl⟩
    · -- The token takes up all of the text, so that it is the mark.
      obtain ⟨taken, rest', hcs, hscanned, -, hlength⟩ := scanned_of_scan ht
      obtain ⟨rfl, rfl⟩ := List.append_inj hcs (by omega : front.length = taken.length)
      rw [List.append_nil] at htext
      obtain ⟨rfl, hkind, hlexeme⟩ := hscanned.eq_nil_of_concat htext hd
      cases h
      refine ⟨[Token.eof position], .eof position, ?_⟩
      rw [reading, hkind, ← hlexeme, String.ofList_toList]
      rfl
    · rw [← List.append_assoc, ← List.cons_append] at htext
      obtain ⟨rfl, hlast⟩ := List.append_inj' htext rfl
      obtain rfl : e = d := List.singleton_inj.1 hlast
      obtain ⟨tokens', htokens', hreading⟩ := ih rfl
      have hneutral : ∀ d ∈ ([] : List Char).head?, IsNeutral table d := nofun
      have hpart : ∀ d ∈ ([] : List Char).head?, ¬ isIdentifierPart d := nofun
      obtain ⟨t', ht', hsame, hstop'⟩ :=
        scan_replace ht hstop (.inr hneutral) (fun _ _ ↦ .inr hpart) position
      rw [List.append_nil] at ht'
      refine ⟨t' :: tokens', .token hc ht' hstop' (by rwa [hstop', ← hstop]), ?_⟩
      rw [List.dropLast_cons_of_ne_nil htokens'.ne_nil, List.map_cons, hsame, hreading,
        List.cons_append]

/-! ### Readings of texts -/

/-- The text is read as the given kinds and lexemes, its end aside. -/
def ReadsAs (table : OperatorTable) (text : List Char) (readings : List (TokenKind × String)) :
    Prop :=
  ∃ position tokens, Reads table position text tokens ∧ tokens.dropLast.map reading = readings

theorem readsAs_nil : ReadsAs table [] [] := ⟨0, _, .eof 0, rfl⟩

/-- What is read at one place is read at every other. -/
theorem ReadsAs.exists_reads (h : ReadsAs table text readings) (position : Nat) :
    ∃ tokens, Reads table position text tokens ∧ tokens.dropLast.map reading = readings := by
  obtain ⟨_, _, hreads, rfl⟩ := h
  obtain ⟨tokens, htokens, hreading⟩ := hreads.shift position
  exact ⟨tokens, htokens, by rw [List.map_dropLast, hreading, List.map_dropLast]⟩

/-- A source is cut into tokens as it is read, and the last one is its end. -/
theorem readsAs_iff_tokenize : ReadsAs table text readings ↔
    ∃ tokens, tokenize table text = .ok tokens ∧ tokens.dropLast.map reading = readings := by
  constructor
  · intro h
    obtain ⟨tokens, htokens, hreading⟩ := h.exists_reads 0
    exact ⟨tokens, htokens.tokensFrom_eq, hreading⟩
  · rintro ⟨tokens, htokens, hreading⟩
    exact ⟨0, tokens, reads_of_tokensFrom htokens, hreading⟩

/-- **Texts are read one behind the other, if what comes second cannot go on with a token of the
first.** -/
theorem ReadsAs.append (h : ReadsAs table u readings) (hv : ReadsAs table v rs)
    (hneutral : ∀ d ∈ v.head?, IsNeutral table d) (hpart : ∀ d ∈ v.head?, ¬ isIdentifierPart d) :
    ReadsAs table (u ++ v) (readings ++ rs) := by
  obtain ⟨tokens, htokens, rfl⟩ := h.exists_reads 0
  obtain ⟨more, hmore, rfl⟩ := hv.exists_reads (0 + u.length)
  obtain ⟨ts, hts, hreading⟩ := htokens.append hneutral hpart hmore
  refine ⟨0, _, hts, ?_⟩
  rw [List.dropLast_append_of_ne_nil hmore.ne_nil, List.map_append, hreading]

/-- A mark in front is read by itself. -/
theorem readsAs_cons_mark_iff (hd : IsMark table d kind) :
    ReadsAs table (d :: text) readings ↔
      ∃ rs, ReadsAs table text rs ∧ readings = (kind, String.ofList [d]) :: rs := by
  have hmark : tokensFrom table 0 (d :: text) =
      (tokensFrom table (0 + 1) text).map (ofSpan kind [d] 0 1 :: ·) :=
    tokensFrom_punctuation hd.1 fun hpoint ↦ absurd hpoint hd.2.2.1
  constructor
  · intro h
    obtain ⟨tokens, htokens, rfl⟩ := h.exists_reads 0
    rw [← tokensFrom_eq_ok_iff, hmark, map_eq_ok] at htokens
    obtain ⟨more, hmore, rfl⟩ := htokens
    have hmore : Reads table (0 + 1) text more := reads_of_tokensFrom hmore
    exact ⟨_, ⟨_, more, hmore, rfl⟩, by rw [List.dropLast_cons_of_ne_nil hmore.ne_nil]; rfl⟩
  · rintro ⟨rs, h, rfl⟩
    obtain ⟨more, hmore, rfl⟩ := h.exists_reads (0 + 1)
    refine ⟨0, ofSpan kind [d] 0 1 :: more, ?_, ?_⟩
    · rw [← tokensFrom_eq_ok_iff, hmark, map_eq_ok]
      exact ⟨more, hmore.tokensFrom_eq, rfl⟩
    · rw [List.dropLast_cons_of_ne_nil hmore.ne_nil]
      rfl

/-- So is one behind. -/
theorem ReadsAs.of_concat (h : ReadsAs table (u ++ [d]) readings) (hd : IsMark table d kind) :
    ∃ rs, ReadsAs table u rs ∧ readings = rs ++ [(kind, String.ofList [d])] := by
  obtain ⟨position, tokens, htokens, rfl⟩ := h
  obtain ⟨tokens', htokens', hreading⟩ := htokens.of_concat rfl hd
  exact ⟨_, ⟨position, tokens', htokens', rfl⟩, hreading⟩

/-- A text, a mark and another text. -/
theorem ReadsAs.append_mark (h : ReadsAs table u readings) (hv : ReadsAs table v rs)
    (hd : IsMark table d kind) :
    ReadsAs table (u ++ d :: v) (readings ++ (kind, String.ofList [d]) :: rs) := by
  refine h.append ((readsAs_cons_mark_iff hd).2 ⟨rs, hv, rfl⟩) ?_ ?_
  · rintro _ ⟨⟩
    exact hd.2
  · rintro _ ⟨⟩
    exact hd.not_isIdentifierPart

end FeatureStyle.Token
