import FeatureStyle.Proofs.Token.Behind

/-!
# Blanks between tokens

How a source is read is a list of kinds and lexemes (`Token.reading`); the positions of its tokens
are left out. What a token at the front of a text is read as depends on what comes behind it only as
far as that could go on with the token. So a blank between two tokens makes no difference, with one
exception (`Reads.insert_iff`): **directly behind a word or a number, a blank that could itself
be a part of a word is taken for one**. Blanks beyond ASCII are of this sort.
-/

namespace FeatureStyle

namespace Token

variable {table : OperatorTable} {c : Char} {front x v : List Char} {position : Nat} {t : Token}

/-! ### Blank characters -/

/-- A blank is no part of a number, and the blanks that could be parts of words are those beyond
ASCII. -/
theorem class_of_isBlank {w : Char} (hw : Text.isBlank w) :
    w.isDigit = false ∧ w ≠ '.' ∧ (isIdentifierPart w ↔ 128 ≤ w.toNat) := by
  rcases Nat.lt_or_ge w.toNat 128 with hlt | hge
  · have hall : ∀ n < 128, Text.isBlank (Char.ofNat n) = true →
        (Char.ofNat n).isDigit = false ∧ Char.ofNat n ≠ '.' ∧
          isIdentifierPart (Char.ofNat n) = false := by
      decide
    have hclass := hall w.toNat hlt
    rw [Char.ofNat_toNat] at hclass
    obtain ⟨hdigit, hpoint, hpart⟩ := hclass hw
    refine ⟨hdigit, hpoint, ?_⟩
    rw [hpart]
    exact ⟨nofun, fun hge ↦ absurd hlt (Nat.not_lt.2 hge)⟩
  · have hstart : isIdentifierStart w := by simp [isIdentifierStart, hge]
    refine ⟨isDigit_eq_false_of_start hstart, ?_, fun _ ↦ hge, fun _ ↦ ?_⟩
    swap; exact isIdentifierPart_of_start hstart
    rintro rfl
    revert hge
    decide

/-! ### Single tokens -/

/-- **A token is read as before if a blank is put in behind it,** wherever the text stands, unless
the blank could go on with the token. -/
theorem scan_insert {w : Char} (htable : ∀ s ∈ table.symbols, ∀ d ∈ s, ¬ Text.isBlank d)
    (hw : Text.isBlank w) (h : scan table position c (front ++ (x ++ v)) = .ok t)
    (hstop : t.stop = position + (front.length + 1))
    (hglue : x = [] → t.kind.isWordlike → ¬ isIdentifierPart w) (position' : Nat) :
    ∃ t', scan table position' c (front ++ (x ++ w :: v)) = .ok t' ∧ t'.reading = t.reading ∧
      t'.stop = position' + (front.length + 1) := by
  obtain ⟨hdigit, hpoint, -⟩ := class_of_isBlank hw
  refine scan_replace h hstop (.inr ?_) (fun hx hkind ↦ .inr ?_) position'
  · rintro _ ⟨⟩
    exact ⟨hdigit, hpoint, fun s hs hmem ↦ htable s hs w hmem hw⟩
  · rintro _ ⟨⟩
    exact hglue hx hkind

/-- Behind what is read like a word no word begins, and its lexeme is all that it takes up. -/
theorem Scanned.of_isWordlike {rest taken lexeme : List Char} {kind : TokenKind}
    (h : Scanned table rest taken kind lexeme) (hkind : kind.isWordlike) :
    lexeme = taken ∧ ∀ d ∈ rest.head?, ¬ isIdentifierStart d := by
  cases h with
  | word _ _ hrest => exact ⟨rfl, fun d hd hstart ↦ hrest d hd (isIdentifierPart_of_start hstart)⟩
  | number _ h =>
    have hends := (numberLiteral_eq_ok h).2.1
    rw [List.drop_left] at hends
    exact ⟨rfl, hends⟩
  | string | operator => cases hkind
  | punctuation h =>
    unfold TokenKind.ofPunctuation? at h
    split at h <;> cases h <;> cases hkind

/-- **A blank that could be a part of a word is glued to a word or a number before it:** the token
is no longer read as it was. -/
theorem reading_ne_of_glued {w : Char} {position' : Nat} {t' : Token} (hw : Text.isBlank w)
    (hpart : isIdentifierPart w) (h : scan table position c (front ++ v) = .ok t)
    (hstop : t.stop = position + (front.length + 1)) (hkind : t.kind.isWordlike)
    (h' : scan table position' c (front ++ w :: v) = .ok t') : t'.reading ≠ t.reading := by
  intro hreading
  obtain ⟨hkind', hlexeme⟩ := Prod.mk.inj hreading
  obtain ⟨taken, rest, hcs, hscanned, -, hlength⟩ := scanned_of_scan h
  obtain ⟨taken', rest', hcs', hscanned', -, -⟩ := scanned_of_scan h'
  have hfront : front.length = taken.length := by omega
  obtain ⟨rfl, rfl⟩ := List.append_inj hcs hfront
  rw [hkind', hlexeme] at hscanned'
  obtain ⟨htaken, -⟩ := hscanned.of_isWordlike hkind
  obtain ⟨htaken', hends⟩ := hscanned'.of_isWordlike hkind
  obtain rfl : front = taken' := (List.cons.inj (htaken.symm.trans htaken')).2
  obtain rfl := List.append_cancel_left hcs'
  exact hends w rfl (isIdentifierStart_of_isBlank hw hpart)

/-! ### All tokens -/

variable {text u : List Char} {w : Char} {tokens : List Token}

theorem reads_blank_iff (hc : Text.isBlank c) :
    Reads table position (c :: text) tokens ↔ Reads table (position + 1) text tokens := by
  rw [← tokensFrom_eq_ok_iff, ← tokensFrom_eq_ok_iff, tokensFrom, if_pos hc]

theorem reads_token_iff {rest : List Char} (hc : ¬ Text.isBlank c)
    (ht : scan table position c (front ++ rest) = .ok t)
    (hstop : t.stop = position + (front.length + 1)) :
    Reads table position (c :: (front ++ rest)) tokens ↔
      ∃ more, Reads table t.stop rest more ∧ t :: more = tokens := by
  rw [← tokensFrom_eq_ok_iff, tokensFrom_front hc ht hstop, ← hstop, map_eq_ok]
  simp only [tokensFrom_eq_ok_iff]

/-- What is not blank is scanned. -/
theorem Reads.exists_scan (hc : ¬ Text.isBlank c) (h : Reads table position (c :: text) tokens) :
    ∃ t more, tokens = t :: more ∧ scan table position c text = .ok t := by
  cases h with
  | blank hblank _ => exact absurd hblank hc
  | token _ ht _ _ => exact ⟨_, _, rfl, ht⟩

/-- No token ends where the text begins. -/
theorem Reads.stop_ne (h : Reads table position text tokens) :
    ∀ t ∈ tokens, t.kind.isWordlike → t.stop ≠ position := by
  intro t ht hkind hstop
  obtain ⟨before, htokens, hbefore⟩ := h.tiles.exists_eof
  rw [htokens] at ht
  rcases List.mem_append.1 ht with ht' | ht'
  · have hlt := (hbefore t ht').2
    have hle := h.tiles.position_le t (htokens ▸ ht)
    omega
  · rw [List.mem_singleton.1 ht'] at hkind
    cases hkind

/-- A blank at the front of a text is passed over. -/
theorem Reads.insert_nil_iff (hw : Text.isBlank w) (h : Reads table position v tokens)
    (position' : Nat) :
    (∃ tokens', Reads table position' ([] ++ w :: v) tokens' ∧
        tokens'.map reading = tokens.map reading) ↔
      ∀ t ∈ tokens, t.kind.isWordlike → t.stop = position + ([] : List Char).length →
        ¬ isIdentifierPart w := by
  refine iff_of_true ?_ fun t ht hkind hstop ↦ absurd hstop (h.stop_ne t ht hkind)
  obtain ⟨tokens', htokens', hreading⟩ := h.shift (position' + 1)
  exact ⟨tokens', .blank hw htokens', hreading⟩

section

variable (htable : ∀ s ∈ table.symbols, ∀ d ∈ s, ¬ Text.isBlank d) (hw : Text.isBlank w)
include htable hw

/-- Behind a token that is read as before, the reading goes on as before. -/
theorem Reads.insert_token_iff {more : List Token} (hc : ¬ Text.isBlank c)
    (ht : scan table position c (front ++ (x ++ v)) = .ok t)
    (hstop : t.stop = position + (front.length + 1))
    (hglue : x = [] → t.kind.isWordlike → ¬ isIdentifierPart w) (position' : Nat) :
    (∃ tokens', Reads table position' (c :: (front ++ (x ++ w :: v))) tokens' ∧
        tokens'.map reading = (t :: more).map reading) ↔
      ∃ more', Reads table (position' + (front.length + 1)) (x ++ w :: v) more' ∧
        more'.map reading = more.map reading := by
  obtain ⟨t', ht', hsame, hstop'⟩ := scan_insert htable hw ht hstop hglue position'
  rw [← hstop']
  constructor
  · rintro ⟨tokens', htokens', hreading⟩
    obtain ⟨more', hmore', rfl⟩ := (reads_token_iff hc ht' hstop').1 htokens'
    exact ⟨more', hmore', (List.cons.inj hreading).2⟩
  · rintro ⟨more', hmore', hreading⟩
    refine ⟨t' :: more', (reads_token_iff hc ht' hstop').2 ⟨more', hmore', rfl⟩, ?_⟩
    rw [List.map_cons, List.map_cons, hsame, hreading]

/-- **A blank between two tokens leaves them as they are exactly if** it could not be a part of a
word or does not stand directly behind a word or a number. -/
theorem Reads.insert_iff (h : Reads table position text tokens) (htext : u ++ v = text)
    (hsplit : ∀ t ∈ tokens, t.stop ≤ position + u.length ∨ position + u.length ≤ t.start)
    (position' : Nat) :
    (∃ tokens', Reads table position' (u ++ w :: v) tokens' ∧
        tokens'.map reading = tokens.map reading) ↔
      ∀ t ∈ tokens, t.kind.isWordlike → t.stop = position + u.length → ¬ isIdentifierPart w := by
  induction h generalizing u position' with
  | eof position =>
    obtain ⟨rfl, rfl⟩ := List.append_eq_nil_iff.1 htext
    exact Reads.insert_nil_iff hw (.eof position) position'
  | @blank position d cs tokens hd h ih =>
    rcases List.append_eq_cons_iff.1 htext with ⟨rfl, rfl⟩ | ⟨u, rfl, rfl⟩
    · exact Reads.insert_nil_iff hw (.blank hd h) position'
    · have hlength : position + (d :: u).length = position + 1 + u.length := by
        rw [List.length_cons, Nat.add_right_comm, Nat.add_assoc]
      rw [hlength] at hsplit ⊢
      simp only [List.cons_append, reads_blank_iff hd]
      exact ih rfl hsplit (position' + 1)
  | @token position d front rest t more hd ht hstop h ih =>
    rcases List.append_eq_cons_iff.1 htext with ⟨rfl, rfl⟩ | ⟨u, rfl, hcs⟩
    · exact Reads.insert_nil_iff hw (.token hd ht hstop h) position'
    · obtain ⟨hhead, htail⟩ := List.forall_mem_cons.1 hsplit
      obtain ⟨-, -, -, -, hstart, -⟩ := scanned_of_scan ht
      -- The place for the blank is not inside of the token.
      have hle : front.length ≤ u.length := by
        rw [hstop, hstart, List.length_cons] at hhead
        omega
      obtain ⟨x, rfl⟩ : front <+: u :=
        List.prefix_of_prefix_length_le ⟨rest, hcs⟩ (List.prefix_append u v) hle
      rw [List.append_assoc] at hcs
      obtain rfl := List.append_cancel_left hcs
      have hlength : position + (d :: (front ++ x)).length = t.stop + x.length := by
        rw [hstop, List.length_cons, List.length_append]
        omega
      rw [hlength] at htail ⊢
      rw [List.cons_append, List.append_assoc]
      by_cases hglue : x = [] → t.kind.isWordlike → ¬ isIdentifierPart w
      · have hhere : t.kind.isWordlike → t.stop = t.stop + x.length → ¬ isIdentifierPart w := by
          intro hkind hend
          have hx : x = [] := List.eq_nil_of_length_eq_zero (by omega)
          exact hglue hx hkind
        rw [List.forall_mem_cons, and_iff_right hhere]
        exact (Reads.insert_token_iff htable hw hd ht hstop hglue position').trans
          (ih rfl htail _)
      · simp only [Classical.not_imp, not_not] at hglue
        obtain ⟨rfl, hkind, hpart⟩ := hglue
        refine iff_of_false ?_ fun hall ↦ hall t List.mem_cons_self hkind rfl hpart
        rintro ⟨tokens', htokens', hreading⟩
        obtain ⟨t', more', rfl, ht'⟩ := htokens'.exists_scan hd
        exact reading_ne_of_glued hw hpart ht hstop hkind ht' (List.cons.inj hreading).1

end

/-! ### Sources -/

/-- No operator of the language has a blank in it. -/
theorem not_isBlank_of_mem_symbols :
    ∀ s ∈ OperatorTable.default.symbols, ∀ d ∈ s, ¬ Text.isBlank d := by
  decide

/-- **Blanks between tokens.** Let a source be split at a place that is not inside of a token, and
put a blank there. The source is still cut into tokens of the same kinds and lexemes exactly if the
blank is in ASCII or no word and no number ends at the place. -/
theorem tokenize_insert_blank_iff (hw : Text.isBlank w)
    (h : tokenize .default (u ++ v) = .ok tokens)
    (hsplit : ∀ t ∈ tokens, t.stop ≤ u.length ∨ u.length ≤ t.start) :
    (∃ tokens', tokenize .default (u ++ w :: v) = .ok tokens' ∧
        tokens'.map reading = tokens.map reading) ↔
      w.toNat < 128 ∨ ∀ t ∈ tokens, t.kind.isWordlike → t.stop ≠ u.length := by
  have hreads : Reads .default 0 (u ++ v) tokens := reads_of_tokensFrom h
  obtain ⟨-, -, hpart⟩ := class_of_isBlank hw
  have hiff := hreads.insert_iff not_isBlank_of_mem_symbols hw rfl (by simpa using hsplit) 0
  simp only [← tokensFrom_eq_ok_iff] at hiff
  rw [tokenize, hiff, hpart, Nat.not_le, Nat.zero_add]
  constructor
  · intro hall
    by_cases hlt : w.toNat < 128
    · exact .inl hlt
    · exact .inr fun t ht hkind hstop ↦ hlt (hall t ht hkind hstop)
  · rintro (hlt | hnone) t ht hkind hstop
    · exact hlt
    · exact absurd hstop (hnone t ht hkind)

/-- A no-break space in front of a name. -/
theorem tokenize_insert_blank_iff_sum :
    let u := "a+".toList
    let v := "b".toList
    let tokens : List Token :=
      [⟨.identifier, "a", 0, 1⟩, ⟨.operator, "+", 1, 2⟩, ⟨.identifier, "b", 2, 3⟩, eof 3]
    Text.isBlank '\u00a0' ∧ tokenize .default (u ++ v) = .ok tokens ∧
      (∀ t ∈ tokens, t.stop ≤ u.length ∨ u.length ≤ t.start) ∧
      ∃ tokens', tokenize .default (u ++ '\u00a0' :: v) = .ok tokens' ∧
        tokens'.map reading = tokens.map reading := by
  have htokens : tokenize .default ("a+".toList ++ "b".toList) =
      .ok [⟨.identifier, "a", 0, 1⟩, ⟨.operator, "+", 1, 2⟩, ⟨.identifier, "b", 2, 3⟩,
        eof 3] := by
    decide +kernel
  exact ⟨by decide, htokens, by decide,
    (tokenize_insert_blank_iff (by decide) htokens (by decide)).2 (.inr (by decide))⟩

/-- A no-break space behind a name is added to it. -/
theorem exists_tokenize_insert_blank_ne :
    ∃ (u v : List Char) (w : Char) (tokens : List Token) (t t' : Token), Text.isBlank w ∧
      tokenize .default (u ++ v) = .ok tokens ∧ [t, t'] <+: tokens ∧ t.stop = u.length ∧
      t'.start = u.length ∧
      ¬ ∃ tokens', tokenize .default (u ++ w :: v) = .ok tokens' ∧
        tokens'.map reading = tokens.map reading := by
  have htokens : tokenize .default ("a".toList ++ "+b".toList) =
      .ok [⟨.identifier, "a", 0, 1⟩, ⟨.operator, "+", 1, 2⟩, ⟨.identifier, "b", 2, 3⟩,
        eof 3] := by
    decide +kernel
  have hglued : tokenize .default ("a".toList ++ '\u00a0' :: "+b".toList) =
      .ok [⟨.identifier, "a\u00a0", 0, 2⟩, ⟨.operator, "+", 2, 3⟩, ⟨.identifier, "b", 3, 4⟩,
        eof 4] := by
    decide +kernel
  refine ⟨"a".toList, "+b".toList, '\u00a0', _, ⟨.identifier, "a", 0, 1⟩, ⟨.operator, "+", 1, 2⟩,
    by decide, htokens, ⟨_, rfl⟩, rfl, rfl, ?_⟩
  rintro ⟨tokens', htokens', hreading⟩
  obtain rfl := Except.ok.inj (hglued.symm.trans htokens')
  revert hreading
  decide

end Token

end FeatureStyle
