import FeatureStyle.Proofs.Token.Word
import Mathlib.Data.List.Basic

/-!
# Tokens tile their source

Reading a source loses nothing. `Tiles position text tokens` says that a text that starts at a
position consists of blanks, what the first token takes up, blanks again, and so on, up to the token
that is the end. What a token takes up is its lexeme, but for strings: there it is a quote, what
stands for the lexeme when escapes are decoded, and the same quote (`Spells`).

**The tokens that are read tile the text** (`Reads.tiles`). What this means for the spans
that the tokens have in the source is put together in `tokenize_lossless`.
-/

namespace FeatureStyle.Token

variable {table : OperatorTable}

/-! ### Tilings -/

/-- The token takes up the span. -/
def Spells (t : Token) (span : List Char) : Prop :=
  if t.kind = .string then
    ∃ q inner, isQuote q ∧ span = q :: (inner ++ [q]) ∧ Quoted q inner t.lexeme.toList
  else t.lexeme.toList = span

/-- The text, which starts at the position, consists of what the tokens take up and of blanks around
it, and the last token is its end. -/
inductive Tiles : Nat → List Char → List Token → Prop
  | eof {position : Nat} {blanks : List Char} (hblanks : ∀ c ∈ blanks, Text.isBlank c) :
      Tiles position blanks [eof (position + blanks.length)]
  | token {position : Nat} {blanks span rest : List Char} {t : Token} {ts : List Token}
      (hblanks : ∀ c ∈ blanks, Text.isBlank c) (hkind : t.kind ≠ .eof) (hspan : span ≠ [])
      (hspells : t.Spells span) (hstart : t.start = position + blanks.length)
      (hstop : t.stop = t.start + span.length) (h : Tiles t.stop rest ts) :
      Tiles position (blanks ++ (span ++ rest)) (t :: ts)

theorem Tiles.blank {position : Nat} {c : Char} {text : List Char} {tokens : List Token}
    (hc : Text.isBlank c) (h : Tiles (position + 1) text tokens) :
    Tiles position (c :: text) tokens := by
  cases h with
  | eof hblanks =>
    rw [Nat.add_right_comm, Nat.add_assoc]
    exact .eof (List.forall_mem_cons.2 ⟨hc, hblanks⟩)
  | @token _ blanks _ _ t _ hblanks hkind hspan hspells hstart hstop h =>
    have hstart' : t.start = position + (c :: blanks).length := by
      rw [hstart, List.length_cons, Nat.add_right_comm, Nat.add_assoc]
    exact .token (List.forall_mem_cons.2 ⟨hc, hblanks⟩) hkind hspan hspells hstart' hstop h

/-! ### Tokens that are read -/

theorem wordKind_mem (word : List Char) :
    wordKind word ∈ [TokenKind.true, .false, .null, .identifier] := by
  unfold wordKind
  split
  · decide
  split
  · decide
  split <;> decide

/-- A token takes up what it is scanned from. -/
theorem Scanned.spells {rest taken : List Char} {t : Token}
    (h : Scanned table rest taken t.kind t.lexeme.toList) : t.kind ≠ .eof ∧ t.Spells taken := by
  unfold Spells
  generalize t.lexeme.toList = lexeme at h
  generalize t.kind = kind at h
  cases h with
  | @word c cs _ _ _ =>
    have hkind := wordKind_mem (c :: cs)
    simp only [List.mem_cons, List.not_mem_nil, or_false] at hkind
    rcases hkind with hkind | hkind | hkind | hkind <;> rw [hkind] <;> simp
  | number | operator => simp
  | @string q inner body hq h =>
    obtain ⟨inner', rest', happend, hlength, hquoted⟩ := quoted_of_stringBody? h
    obtain ⟨rfl, -⟩ := List.append_inj happend (Nat.succ.inj hlength)
    simp only [ne_eq, reduceCtorEq, not_false_eq_true, if_true, true_and]
    exact ⟨q, inner, hq, rfl, hquoted⟩
  | punctuation hkind =>
    unfold TokenKind.ofPunctuation? at hkind
    split at hkind <;> cases hkind <;> simp

/-- How a text that starts at the position is read, with one rule for each step. -/
inductive Reads (table : OperatorTable) : Nat → List Char → List Token → Prop
  | eof (position : Nat) : Reads table position [] [eof position]
  | blank {position : Nat} {c : Char} {cs : List Char} {tokens : List Token}
      (hc : Text.isBlank c) (h : Reads table (position + 1) cs tokens) :
      Reads table position (c :: cs) tokens
  | token {position : Nat} {c : Char} {front rest : List Char} {t : Token} {more : List Token}
      (hc : ¬ Text.isBlank c) (ht : scan table position c (front ++ rest) = .ok t)
      (hstop : t.stop = position + (front.length + 1)) (h : Reads table t.stop rest more) :
      Reads table position (c :: (front ++ rest)) (t :: more)

theorem reads_of_tokensFrom {position : Nat} {text : List Char} {tokens : List Token}
    (h : tokensFrom table position text = .ok tokens) : Reads table position text tokens := by
  fun_induction tokensFrom table position text generalizing tokens with
  | case1 position =>
    cases h
    exact .eof position
  | case2 position c cs hc ih => exact .blank hc (ih h)
  | case3 => cases h
  | case4 position c cs hc t ht ih =>
    obtain ⟨more, hmore, rfl⟩ := map_eq_ok.1 h
    obtain ⟨front, rest, rfl, -, -, hstop⟩ := scanned_of_scan ht
    have hdrop : (front ++ rest).drop (t.stop - position - 1) = rest := by
      rw [hstop, show position + (front.length + 1) - position - 1 = front.length by omega,
        List.drop_left]
    have hrest := ih hmore
    rw [hdrop] at hrest
    exact .token hc ht hstop hrest

theorem Reads.tokensFrom_eq {position : Nat} {text : List Char} {tokens : List Token}
    (h : Reads table position text tokens) : tokensFrom table position text = .ok tokens := by
  induction h with
  | eof position => exact tokensFrom_nil position
  | blank hc _ ih => rw [tokensFrom, if_pos hc, ih]
  | token hc ht hstop _ ih =>
    rw [tokensFrom_front hc ht hstop, ← hstop, ih]
    rfl

/-- A text is cut into tokens exactly if it can be read step by step. -/
theorem tokensFrom_eq_ok_iff {position : Nat} {text : List Char} {tokens : List Token} :
    tokensFrom table position text = .ok tokens ↔ Reads table position text tokens :=
  ⟨reads_of_tokensFrom, Reads.tokensFrom_eq⟩

/-- **The tokens that are read tile the text.** -/
theorem Reads.tiles {position : Nat} {text : List Char} {tokens : List Token}
    (h : Reads table position text tokens) : Tiles position text tokens := by
  have hblanks : ∀ c ∈ ([] : List Char), Text.isBlank c := nofun
  induction h with
  | eof => exact .eof hblanks
  | blank hc _ ih => exact ih.blank hc
  | @token position c front rest t more hc ht hstop _ ih =>
    obtain ⟨taken, rest', hcs, hscanned, hstart, hlength⟩ := scanned_of_scan ht
    have hfront : front.length = taken.length := by omega
    obtain ⟨rfl, rfl⟩ := List.append_inj hcs hfront
    obtain ⟨hkind, hspells⟩ := hscanned.spells
    have hstop' : t.stop = t.start + (c :: front).length := by
      rw [hstop, hstart, List.length_cons]
    exact .token hblanks hkind (List.cons_ne_nil c front) hspells hstart hstop' ih

/-! ### Spans -/

variable {position : Nat} {text : List Char} {tokens : List Token}

theorem Tiles.exists_eof (h : Tiles position text tokens) :
    ∃ before, tokens = before ++ [Token.eof (position + text.length)] ∧
      ∀ t ∈ before, t.kind ≠ .eof ∧ t.start < t.stop := by
  induction h with
  | eof => exact ⟨[], rfl, nofun⟩
  | @token position blanks span rest t ts _ hkind hspan _ hstart hstop _ ih =>
    obtain ⟨before, rfl, hbefore⟩ := ih
    have hpos : 0 < span.length := List.length_pos_iff.2 hspan
    refine ⟨t :: before, ?_, List.forall_mem_cons.2 ⟨⟨hkind, by omega⟩, hbefore⟩⟩
    rw [hstop, hstart, List.length_append, List.length_append, List.cons_append]
    simp only [Nat.add_assoc]

/-- Every token begins where the text does or later. -/
theorem Tiles.position_le (h : Tiles position text tokens) : ∀ t ∈ tokens, position ≤ t.start := by
  induction h with
  | eof => exact List.forall_mem_singleton.2 (Nat.le_add_right _ _)
  | token _ _ _ _ hstart hstop _ ih =>
    refine List.forall_mem_cons.2 ⟨by omega, fun t ht ↦ ?_⟩
    have := ih t ht
    omega

end FeatureStyle.Token
