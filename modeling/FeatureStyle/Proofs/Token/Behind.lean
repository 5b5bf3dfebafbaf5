import FeatureStyle.Proofs.Token.Number
import FeatureStyle.Proofs.Token.Operator
import FeatureStyle.Proofs.Token.Tiling
import FeatureStyle.Proofs.Token.Word

/-!
# What comes behind a token

How a source is read is a list of kinds and lexemes (`Token.reading`); the positions of its tokens
are left out.

What a token at the front of a text is read as depends on what comes behind it only as far as that
could go on with the token. A **neutral** character goes on with no number and no operator
(`IsNeutral`), and unless it could be a part of one it does not go on with a word either. So a text
that begins with such a character can take the place of whatever comes behind a token, directly
behind it or further on (`scan_replace`).
-/

namespace FeatureStyle

/-- Whether a token of this kind is read up to where no part of a word comes next. -/
def TokenKind.isWordlike : TokenKind → Bool
  | .identifier | .number | .true | .false | .null => Bool.true
  | _ => Bool.false

namespace Token

variable {table : OperatorTable} {c : Char} {front x v v' : List Char} {position : Nat} {t : Token}

/-- What a token is read as. -/
def reading (t : Token) : TokenKind × String := (t.kind, t.lexeme)

/-- The character is a part of no number and of no operator. -/
def IsNeutral (table : OperatorTable) (d : Char) : Prop :=
  d.isDigit = false ∧ d ≠ '.' ∧ ∀ s ∈ table.symbols, d ∉ s

/-! ### Another text behind a token -/

/-- What takes the place of the end of a text comes first only if nothing else is left of it. -/
theorem forall_head?_replace {P : Char → Prop} (h : ∀ d ∈ (x ++ v).head?, P d)
    (hv : x = [] → v' = v ∨ ∀ d ∈ v'.head?, P d) : ∀ d ∈ (x ++ v').head?, P d := by
  cases x with
  | cons => exact h
  | nil =>
    rw [List.nil_append] at h ⊢
    rcases hv rfl with rfl | hv
    · exact h
    · exact hv

theorem startsWithDigit_eq_false_iff {cs : List Char} :
    startsWithDigit cs = false ↔ ∀ d ∈ cs.head?, ¬ d.isDigit := by
  cases cs <;> simp [startsWithDigit]

theorem numberLiteral_replace {literal : List Char}
    (hv : v' = v ∨ ∀ d ∈ v'.head?, IsNeutral table d)
    (h : numberLiteral (literal ++ (x ++ v)) = .ok literal)
    (hglue : x = [] → v' = v ∨ ∀ d ∈ v'.head?, ¬ isIdentifierPart d) :
    numberLiteral (literal ++ (x ++ v')) = .ok literal := by
  obtain ⟨parts, rfl, hends⟩ := numberLiteral_eq_ok_iff.1 h
  refine parts.numberLiteral_eq (forall_head?_replace hends fun hx ↦ ?_)
  rcases hv with hsame | hneutral
  · exact .inl hsame
  · refine (hglue hx).imp_right fun hpart d hd ↦ ?_
    obtain ⟨hdigit, hpoint, -⟩ := hneutral d hd
    exact ⟨fun hstart ↦ hpart d hd (isIdentifierPart_of_start hstart),
      Bool.eq_false_iff.1 hdigit, fun h ↦ absurd h hpoint⟩

/-- A text without a character ends before the first one. -/
theorem isPrefix_of_notMem {s cs ds : List Char} (hs : c ∉ s) (h : s <+: cs ++ c :: ds) :
    s <+: cs := by
  rcases Nat.lt_or_ge cs.length s.length with hlt | hge
  · have hfront : cs ++ [c] <+: cs ++ c :: ds := ⟨ds, by simp⟩
    have hle : (cs ++ [c]).length ≤ s.length := by
      rw [List.length_append, List.length_singleton]
      exact hlt
    have hinside : cs ++ [c] <+: s := List.prefix_of_prefix_length_le hfront h hle
    exact absurd (hinside.subset (by simp)) hs
  · exact List.prefix_of_prefix_length_le h (List.prefix_append cs _) hge

theorem longestMatch?_replace {symbol : List Char}
    (hv : v' = v ∨ ∀ d ∈ v'.head?, IsNeutral table d)
    (h : table.longestMatch? (symbol ++ (x ++ v)) = some symbol) :
    table.longestMatch? (symbol ++ (x ++ v')) = some symbol := by
  rcases hv with rfl | hneutral
  · exact h
  obtain ⟨hmem, hne, -, hlongest⟩ := OperatorTable.longestMatch?_eq_some_iff.1 h
  refine OperatorTable.longestMatch?_eq_some_iff.2
    ⟨hmem, hne, List.prefix_append _ _, fun s hs hfront ↦ hlongest s hs ?_⟩
  -- Another symbol ends before the neutral character.
  have hbefore : s <+: symbol ++ x := by
    rw [← List.append_assoc] at hfront
    cases v' with
    | nil => rwa [List.append_nil] at hfront
    | cons d ds =>
      obtain ⟨-, -, hsymbols⟩ := hneutral d rfl
      exact isPrefix_of_notMem (hsymbols s hs) hfront
  rw [← List.append_assoc]
  exact hbefore.trans (List.prefix_append _ v)

/-- Where a number is read, what comes behind it does not hide that one starts there. -/
theorem startsNumber_replace
    (hliteral : numberLiteral (c :: front ++ (x ++ v)) = .ok (c :: front))
    (h : startsNumber c (front ++ (x ++ v))) : startsNumber c (front ++ (x ++ v')) := by
  cases front with
  | cons => exact h
  | nil =>
    -- A point alone is not the whole number if a digit comes behind it.
    obtain ⟨parts, -, hends⟩ := numberLiteral_eq_ok_iff.1 hliteral
    have hdigit : startsWithDigit (x ++ v) = false :=
      startsWithDigit_eq_false_iff.2 fun d hd ↦ (hends d hd).2.1
    rw [startsNumber, List.nil_append, hdigit, Bool.and_false, Bool.or_false] at h
    rw [startsNumber, h, Bool.true_or]

/-- Where no number starts, none starts with something neutral behind. -/
theorem not_startsNumber_replace (hv : v' = v ∨ ∀ d ∈ v'.head?, IsNeutral table d)
    (h : ¬ startsNumber c (front ++ (x ++ v))) : ¬ startsNumber c (front ++ (x ++ v')) := by
  rw [startsNumber, Bool.or_eq_true, not_or, ← List.append_assoc, Bool.and_eq_true] at h ⊢
  refine ⟨h.1, ?_⟩
  rintro ⟨hpoint, hdigit⟩
  have hnone : startsWithDigit (front ++ x ++ v) = false :=
    Bool.eq_false_iff.2 fun hdigit ↦ h.2 ⟨hpoint, hdigit⟩
  rw [startsWithDigit_eq_false_iff.2 (forall_head?_replace
    (startsWithDigit_eq_false_iff.1 hnone)
    fun _ ↦ hv.imp_right fun hneutral d hd ↦ Bool.eq_false_iff.1 (hneutral d hd).1)] at hdigit
  cases hdigit

theorem isWordlike_wordKind (word : List Char) : (wordKind word).isWordlike := by
  have hkind := wordKind_mem word
  simp only [List.mem_cons, List.not_mem_nil, or_false] at hkind
  rcases hkind with hkind | hkind | hkind | hkind <;> rw [hkind] <;> rfl

/-- A front of the text is all of its first piece if it is as long. -/
theorem eq_of_isPrefix {as cs ds : List Char} (h : as <+: cs ++ ds)
    (hlength : as.length = cs.length) : as = cs := by
  have hle : as.length ≤ cs.length := Nat.le_of_eq hlength
  exact (List.prefix_of_prefix_length_le h (List.prefix_append cs ds) hle).eq_of_length hlength

/-- **A token is read as before if something neutral takes the place of what comes behind it,**
wherever the text stands, unless that could go on with a word. -/
theorem scan_replace (h : scan table position c (front ++ (x ++ v)) = .ok t)
    (hstop : t.stop = position + (front.length + 1))
    (hv : v' = v ∨ ∀ d ∈ v'.head?, IsNeutral table d)
    (hglue : x = [] → t.kind.isWordlike → v' = v ∨ ∀ d ∈ v'.head?, ¬ isIdentifierPart d)
    (position' : Nat) :
    ∃ t', scan table position' c (front ++ (x ++ v')) = .ok t' ∧ t'.reading = t.reading ∧
      t'.stop = position' + (front.length + 1) := by
  unfold scan at h
  rw [← startsNumber] at h
  split at h
  · next hstart =>
    cases h
    obtain ⟨run, rest, hrun, hparts, hrest⟩ := exists_run isIdentifierPart (front ++ (x ++ v))
    rw [hrun, takeWhile_append_of_head? hparts hrest] at hstop hglue ⊢
    have hlength : front.length = run.length := by simpa [ofSpan] using hstop.symm
    obtain ⟨rfl, rfl⟩ := List.append_inj hrun hlength
    have hends := forall_head?_replace hrest fun hx ↦ hglue hx (isWordlike_wordKind _)
    exact ⟨_, scan_word hstart hparts hends, rfl, rfl⟩
  next hstart =>
  split at h
  · next hnumber =>
    split at h
    · cases h
    next literal hliteral =>
    cases h
    have hlength : literal.length = (c :: front).length := by simpa [ofSpan] using hstop
    have hsame : literal = c :: front := eq_of_isPrefix (numberLiteral_eq_ok hliteral).1 hlength
    subst hsame
    have hread : numberLiteral (c :: front ++ (x ++ v)) = .ok (c :: front) := hliteral
    have hread' := numberLiteral_replace hv hread fun hx ↦ hglue hx rfl
    exact ⟨_, scan_number hstart (startsNumber_replace hread hnumber) hread', rfl, rfl⟩
  next hnumber =>
  have hnumber' := not_startsNumber_replace hv hnumber
  split at h
  · next hquote =>
    split at h
    · cases h
    next body n hbody =>
    cases h
    obtain ⟨inner, rest, hinner, rfl, hquoted⟩ := quoted_of_stringBody? hbody
    have hlength : front.length = (inner ++ [c]).length := by simpa [ofSpan] using hstop.symm
    rw [List.append_cons inner] at hinner
    obtain ⟨rfl, rfl⟩ := List.append_inj hinner hlength
    have hbody' := hquoted.stringBody?_eq hquote (x ++ v')
    rw [List.append_cons inner] at hbody'
    exact ⟨_, scan_quoted hstart hnumber' hquote hbody', rfl, by simp [ofSpan]⟩
  next hquote =>
  split at h
  · next kind hkind =>
    cases h
    obtain rfl : front = [] := by simpa [ofSpan] using hstop
    exact ⟨_, scan_punctuation hstart hnumber' hquote hkind, rfl, rfl⟩
  next hkind =>
  split at h
  · next symbol hsymbol =>
    cases h
    have hlength : symbol.length = (c :: front).length := by simpa [ofSpan] using hstop
    obtain ⟨-, -, hfront⟩ := OperatorTable.mem_of_longestMatch? hsymbol
    have hsame : symbol = c :: front := eq_of_isPrefix hfront hlength
    subst hsame
    have hmatch : table.longestMatch? (c :: front ++ (x ++ v)) = some (c :: front) := hsymbol
    have hmatch' := longestMatch?_replace hv hmatch
    exact ⟨_, scan_symbol hstart hnumber' hquote hkind hmatch', rfl, rfl⟩
  · cases h

/-- A text is read in the same way wherever it stands. -/
theorem Reads.shift {text : List Char} {tokens : List Token} (h : Reads table position text tokens)
    (position' : Nat) :
    ∃ tokens', Reads table position' text tokens' ∧
      tokens'.map reading = tokens.map reading := by
  induction h generalizing position' with
  | eof => exact ⟨_, .eof position', rfl⟩
  | blank hc _ ih =>
    obtain ⟨tokens', htokens', hreading⟩ := ih (position' + 1)
    exact ⟨tokens', .blank hc htokens', hreading⟩
  | @token position c front rest t more hc ht hstop _ ih =>
    obtain ⟨t', ht', hsame, hstop'⟩ :=
      scan_replace (x := []) ht hstop (.inl rfl) (fun _ _ ↦ .inl rfl) position'
    obtain ⟨more', hmore', hreading⟩ := ih t'.stop
    refine ⟨t' :: more', .token hc ht' hstop' hmore', ?_⟩
    rw [List.map_cons, List.map_cons, hsame, hreading]

end Token

end FeatureStyle
