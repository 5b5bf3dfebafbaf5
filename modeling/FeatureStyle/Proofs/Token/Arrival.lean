import FeatureStyle.Proofs.Token.Tiling

/-!
# Where a reading comes to

A text is read from left to right, one blank or one token after the other. `Arrives` says that a
reading comes to a place of the text, with no more than the text up to there used up.

* **Every token stands where the reading came to** (`exists_arrives_of_mem`): it is scanned from
  what the text goes on with there, or it is the end and nothing is left (`StandsAt`).
* **A text that cannot be cut into tokens is at fault where the reading came to**
  (`exists_arrives_of_error`), and the error says at which character, with the reason that no token
  can be scanned from there (`LexError.Concerns`).
-/

namespace FeatureStyle.Token

variable {table : OperatorTable} {position : Nat} {c : Char} {cs text passed rest : List Char}
  {t : Token} {tokens : List Token}

/-! ### Places that are read from -/

/-- The reading of a text that starts at the position passes its front and comes to the rest. -/
inductive Arrives (table : OperatorTable) : Nat → List Char → List Char → Prop
  | here {position : Nat} {rest : List Char} : Arrives table position [] rest
  | blank {position : Nat} {c : Char} {passed rest : List Char} (hc : Text.isBlank c)
      (h : Arrives table (position + 1) passed rest) : Arrives table position (c :: passed) rest
  | token {position : Nat} {c : Char} {front passed rest : List Char} {t : Token}
      (ht : scan table position c (front ++ (passed ++ rest)) = .ok t)
      (hstop : t.stop = position + (front.length + 1)) (h : Arrives table t.stop passed rest) :
      Arrives table position (c :: (front ++ passed)) rest

/-- The token is what is read next from a text that starts at the position. -/
inductive StandsAt (table : OperatorTable) (position : Nat) : List Char → Token → Prop
  | scan {c : Char} {cs : List Char} {t : Token} (h : scan table position c cs = .ok t) :
      StandsAt table position (c :: cs) t
  | eof : StandsAt table position [] (eof position)

theorem StandsAt.start_eq (h : StandsAt table position text t) : t.start = position := by
  cases h with
  | scan h =>
    obtain ⟨-, -, -, -, hstart, -⟩ := scanned_of_scan h
    exact hstart
  | eof => rfl

/-- A place behind a blank. -/
theorem add_length_blank (position : Nat) (c : Char) (passed : List Char) :
    position + (c :: passed).length = position + 1 + passed.length := by
  rw [List.length_cons, Nat.add_comm passed.length, Nat.add_assoc]

/-- A place behind a token. -/
theorem add_length_token {front : List Char} (hstop : t.stop = position + (front.length + 1))
    (passed : List Char) :
    position + (c :: (front ++ passed)).length = t.stop + passed.length := by
  rw [hstop, List.length_cons, List.length_append]
  omega

/-- **Every token stands where the reading came to.** -/
theorem exists_arrives_of_mem (h : Reads table position text tokens) (ht : t ∈ tokens) :
    ∃ passed rest, text = passed ++ rest ∧ Arrives table position passed rest ∧
      StandsAt table (position + passed.length) rest t := by
  induction h with
  | eof position =>
    obtain rfl := List.mem_singleton.1 ht
    exact ⟨[], [], rfl, .here, .eof⟩
  | @blank position c cs tokens hc _ ih =>
    obtain ⟨passed, rest, rfl, harrives, hstands⟩ := ih ht
    refine ⟨c :: passed, rest, rfl, harrives.blank hc, ?_⟩
    rwa [add_length_blank]
  | @token position c front rest s more _ hs hstop _ ih =>
    rcases List.mem_cons.1 ht with rfl | ht
    · exact ⟨[], c :: (front ++ rest), rfl, .here, .scan hs⟩
    · obtain ⟨passed, rest, rfl, harrives, hstands⟩ := ih ht
      refine ⟨c :: (front ++ passed), rest, by simp, harrives.token hs hstop, ?_⟩
      rwa [add_length_token hstop]

/-! ### Texts at fault -/

/-- A text at fault is so where no token can be scanned. -/
theorem exists_arrives_of_error {e : LexError} (h : tokensFrom table position text = .error e) :
    ∃ passed c cs, text = passed ++ c :: cs ∧ Arrives table position passed (c :: cs) ∧
      scan table (position + passed.length) c cs = .error e := by
  fun_induction tokensFrom table position text with
  | case1 => cases h
  | case2 position c cs hc ih =>
    obtain ⟨passed, d, ds, rfl, harrives, hscan⟩ := ih h
    refine ⟨c :: passed, d, ds, rfl, harrives.blank hc, ?_⟩
    rwa [add_length_blank]
  | case3 position c cs _ e' hs =>
    cases h
    exact ⟨[], c, cs, rfl, .here, hs⟩
  | case4 position c cs _ s hs ih =>
    obtain ⟨front, rest, rfl, -, -, hstop⟩ := scanned_of_scan hs
    have hdrop : (front ++ rest).drop (s.stop - position - 1) = rest := by
      rw [hstop, show position + (front.length + 1) - position - 1 = front.length by omega,
        List.drop_left]
    rw [hdrop] at h ih
    rcases hrest : tokensFrom table s.stop rest with e' | more
    · rw [hrest] at h
      cases h
      obtain ⟨passed, d, ds, rfl, harrives, hscan⟩ := ih hrest
      refine ⟨c :: (front ++ passed), d, ds, by simp, harrives.token hs hstop, ?_⟩
      rwa [add_length_token hstop]
    · rw [hrest] at h
      cases h

end Token

/-- What is wrong with a text that starts at the position: no token can begin with its first
character, or the string that it opens is never closed, or the number that begins with it cannot
be one. -/
inductive LexError.Concerns (table : OperatorTable) (position : Nat) :
    List Char → LexError → Prop
  | character {c : Char} {cs : List Char} (h : table.longestMatch? (c :: cs) = none) :
      Concerns table position (c :: cs) (.unexpectedCharacter c position)
  | string {q : Char} {cs : List Char} (hq : Token.isQuote q) (h : Token.stringBody? q cs = none) :
      Concerns table position (q :: cs) (.unterminatedString position)
  | number {c : Char} {cs literal : List Char} (hstart : Token.startsNumber c cs)
      (h : Token.numberLiteral (c :: cs) = .error literal) :
      Concerns table position (c :: cs) (.invalidNumber (String.ofList literal) position)

namespace Token

/-- What cannot be scanned is at fault at its first character. -/
theorem concerns_of_scan {e : LexError} (h : scan table position c cs = .error e) :
    e.Concerns table position (c :: cs) := by
  unfold scan at h
  rw [← startsNumber] at h
  split at h
  · cases h
  split at h
  · next hstart =>
    split at h
    · next hliteral =>
      cases h
      exact .number hstart hliteral
    · cases h
  split at h
  · next hquote =>
    split at h
    · next hbody =>
      cases h
      exact .string hquote hbody
    · cases h
  split at h
  · cases h
  split at h
  · cases h
  · next hsymbol =>
    cases h
    exact .character hsymbol

end Token

end FeatureStyle
