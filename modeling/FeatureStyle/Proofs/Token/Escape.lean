import FeatureStyle.Proofs.Token.Arrival
import Mathlib.Algebra.Ring.Parity
import Mathlib.Data.List.DropRight

/-!
# Escapes in strings

Within a string a backslash takes the character after it along. Read from the left, the backslashes
of a run go together in pairs, and one that is left over takes along what comes behind the run. So
whether a quote ends the string shows in the run directly before it: a quote is **bare** if the run
is of even length (`HasBareQuote`).

* **A string that was escaped is read as it was before** (`quoted_escape`): what stands between the
  quotes stands for the text, and every quote in there is taken along.
* **A string is closed exactly if a bare quote comes behind the one that opens it**
  (`stringBody?_eq_none_iff`).

An error says where the string opens that is not closed (`exists_of_tokensFrom_unterminated`). For a
text that begins with a quote this is put together in `tokenize_escape_and_unterminated_iff`.
-/

namespace FeatureStyle.Token

variable {table : OperatorTable} {q c : Char} {cs : List Char} {position : Nat}

/-! ### Escaping -/

/-- The text with a backslash put before each backslash and before each quote of the given kind. -/
def escape (q : Char) (cs : List Char) : List Char :=
  cs.flatMap fun c ↦ if c = '\\' ∨ c = q then ['\\', c] else [c]

/-- What is escaped is no letter that stands for a control character. -/
theorem decodeEscape_eq_self (hq : isQuote q) (hc : c = '\\' ∨ c = q) : decodeEscape c = c := by
  rcases hc with rfl | rfl
  · rfl
  · rw [isQuote, Bool.or_eq_true, beq_iff_eq, beq_iff_eq] at hq
    rcases hq with rfl | rfl <;> rfl

/-- **An escaped text stands for the text that it was made from.** -/
theorem quoted_escape (hq : isQuote q) (cs : List Char) : Quoted q (escape q cs) cs := by
  induction cs with
  | nil => exact .nil
  | cons c cs ih =>
    rw [escape, List.flatMap_cons, ← escape]
    by_cases hc : c = '\\' ∨ c = q
    · have h := ih.escape (c := c)
      rw [decodeEscape_eq_self hq hc] at h
      rwa [if_pos hc]
    · rw [if_neg hc]
      rw [not_or] at hc
      exact ih.plain hc.2 hc.1

/-! ### Runs of backslashes -/

/-- The number of backslashes that a text ends with. -/
def backslashesAtEnd (cs : List Char) : Nat := (cs.rtakeWhile (· = '\\')).length

theorem backslashesAtEnd_le_length (cs : List Char) : backslashesAtEnd cs ≤ cs.length :=
  (List.rtakeWhile_suffix _ cs).length_le

/-- A character at the front counts only if it is a backslash and all the others are, too. -/
theorem backslashesAtEnd_cons (c : Char) (cs : List Char) :
    backslashesAtEnd (c :: cs) =
      if c = '\\' ∧ backslashesAtEnd cs = cs.length then cs.length + 1
      else backslashesAtEnd cs := by
  simp only [backslashesAtEnd, List.rtakeWhile, List.reverse_cons, List.takeWhile_append,
    List.length_reverse]
  by_cases hall : (cs.reverse.takeWhile (· = '\\')).length = cs.length <;>
    by_cases hc : c = '\\' <;> simp [hall, hc]

/-- Another character does not add to the backslashes at the end. -/
theorem backslashesAtEnd_plain (hc : c ≠ '\\') (cs : List Char) :
    backslashesAtEnd (c :: cs) = backslashesAtEnd cs := by
  rw [backslashesAtEnd_cons, if_neg fun h ↦ hc h.1]

/-- A backslash and what it takes along make no difference to the parity. -/
theorem even_backslashesAtEnd_pair (c : Char) (cs : List Char) :
    Even (backslashesAtEnd ('\\' :: c :: cs)) ↔ Even (backslashesAtEnd cs) := by
  have hle := backslashesAtEnd_le_length cs
  rw [backslashesAtEnd_cons '\\', backslashesAtEnd_cons c, List.length_cons]
  by_cases hall : c = '\\' ∧ backslashesAtEnd cs = cs.length
  · rw [if_pos hall, if_pos ⟨rfl, rfl⟩, hall.2, Nat.even_add_one, Nat.even_add_one, not_not]
  · have hshort : backslashesAtEnd cs ≠ cs.length + 1 := by omega
    rw [if_neg hall, if_neg fun h ↦ hshort h.2]

/-! ### Bare quotes -/

/-- The quote is in the text with an even number of backslashes, or none, directly before it. -/
def HasBareQuote (q : Char) (cs : List Char) : Prop :=
  ∃ front rest, cs = front ++ q :: rest ∧ Even (backslashesAtEnd front)

theorem not_hasBareQuote_nil : ¬ HasBareQuote q [] := by
  rintro ⟨front, rest, h, -⟩
  simp at h

theorem hasBareQuote_self : HasBareQuote q (q :: cs) := ⟨[], cs, rfl, .zero⟩

/-- A character that is neither a quote nor a backslash bares nothing. -/
theorem hasBareQuote_plain (hquote : c ≠ q) (hbackslash : c ≠ '\\') :
    HasBareQuote q (c :: cs) ↔ HasBareQuote q cs := by
  constructor
  · rintro ⟨front, rest, h, heven⟩
    obtain ⟨rfl, hc⟩ | ⟨front, rfl, rfl⟩ := List.cons_eq_append_iff.1 h
    · exact absurd (List.cons.inj hc).1.symm hquote
    · rw [backslashesAtEnd_plain hbackslash] at heven
      exact ⟨front, rest, rfl, heven⟩
  · rintro ⟨front, rest, rfl, heven⟩
    rw [← backslashesAtEnd_plain hbackslash] at heven
    exact ⟨c :: front, rest, rfl, heven⟩

section

variable (hq : q ≠ '\\')
include hq

/-- A backslash at the front of a text comes before every quote in it. -/
theorem exists_of_backslash_eq_append {front rest : List Char}
    (h : '\\' :: cs = front ++ q :: rest) :
    ∃ front', front = '\\' :: front' ∧ cs = front' ++ q :: rest := by
  obtain ⟨rfl, hc⟩ | ⟨front', hfront, hcs⟩ := List.cons_eq_append_iff.1 h
  · exact absurd (List.cons.inj hc).1 hq
  · exact ⟨front', hfront, hcs⟩

/-- A last backslash covers nothing, but is no quote either. -/
theorem not_hasBareQuote_backslash : ¬ HasBareQuote q ['\\'] := by
  rintro ⟨front, rest, h, -⟩
  obtain ⟨front', -, hnil⟩ := exists_of_backslash_eq_append hq h
  simp at hnil

/-- A backslash covers the character behind it, whatever that is. -/
theorem hasBareQuote_escape : HasBareQuote q ('\\' :: c :: cs) ↔ HasBareQuote q cs := by
  constructor
  · rintro ⟨front, rest, h, heven⟩
    obtain ⟨front, rfl, hcs⟩ := exists_of_backslash_eq_append hq h
    obtain ⟨rfl, -⟩ | ⟨front, rfl, rfl⟩ := List.cons_eq_append_iff.1 hcs
    · -- The quote itself is taken along: it has the one backslash before it.
      exact absurd heven (by decide)
    · exact ⟨front, rest, rfl, (even_backslashesAtEnd_pair c front).1 heven⟩
  · rintro ⟨front, rest, rfl, heven⟩
    exact ⟨'\\' :: c :: front, rest, rfl, (even_backslashesAtEnd_pair c front).2 heven⟩

/-- **A string is closed exactly if a bare quote comes behind the one that opens it.** -/
theorem stringBody?_eq_none_iff (cs : List Char) :
    stringBody? q cs = none ↔ ¬ HasBareQuote q cs := by
  fun_induction stringBody? q cs with
  | case1 => exact iff_of_true rfl not_hasBareQuote_nil
  | case2 cs => exact iff_of_false (Option.some_ne_none _) (not_not.2 hasBareQuote_self)
  | case3 => exact iff_of_true rfl (not_hasBareQuote_backslash hq)
  | case4 escaped cs _ ih => rw [Option.map_eq_none_iff, ih, hasBareQuote_escape hq]
  | case5 c cs hquote hbackslash ih =>
    rw [Option.map_eq_none_iff, ih, hasBareQuote_plain hquote hbackslash]

end

/-! ### Texts that begin with a quote -/

/-- The string that is not closed opens where the error says. -/
theorem exists_of_tokensFrom_unterminated {text : List Char} {place : Nat}
    (h : tokensFrom table position text = .error (.unterminatedString place)) :
    ∃ passed q cs, text = passed ++ q :: cs ∧ place = position + passed.length ∧
      stringBody? q cs = none := by
  obtain ⟨passed, q, cs, rfl, -, hscan⟩ := exists_arrives_of_error h
  have hconcerns := concerns_of_scan hscan
  cases hconcerns with
  | string _ hbody => exact ⟨passed, q, cs, rfl, rfl, hbody⟩

/-- A quote without an end is an error where it stands. -/
theorem tokensFrom_unclosed (hq : isQuote q) (h : stringBody? q cs = none) :
    tokensFrom table position (q :: cs) = .error (.unterminatedString position) := by
  obtain ⟨hblank, hstart, hnumber⟩ := starts_of_isQuote hq cs
  rw [tokensFrom, if_neg hblank, scan, if_neg hstart, ← startsNumber, if_neg hnumber, if_pos hq, h]

/-- Where a text begins with a quote, only the string that it opens can be at fault there. -/
theorem tokenize_unterminated_iff (hq : isQuote q) :
    tokenize table (q :: cs) = .error (.unterminatedString 0) ↔ stringBody? q cs = none := by
  refine ⟨fun h ↦ ?_, tokensFrom_unclosed hq⟩
  obtain ⟨passed, d, ds, htext, hplace, hbody⟩ := exists_of_tokensFrom_unterminated h
  obtain rfl : passed = [] := List.eq_nil_of_length_eq_zero (by omega)
  obtain ⟨rfl, rfl⟩ := List.cons.inj htext
  exact hbody

/-- **A body that is escaped is read back as it was**, as the only token of its text. -/
theorem tokenize_escape (hq : isQuote q) (s : String) :
    tokenize table (q :: (escape q s.toList ++ [q])) =
      .ok [⟨.string, s, 0, (escape q s.toList).length + 2⟩,
        eof ((escape q s.toList).length + 2)] := by
  rw [tokenize, tokensFrom_string hq (quoted_escape hq s.toList), tokensFrom_nil, Nat.zero_add,
    ofSpan, String.ofList_toList, Nat.zero_add]
  rfl

/-- **Decoding undoes escaping, and the backslashes before the quotes tell whether a string is
closed.** Whatever the operators are and whichever quote is taken,

* a text that is escaped for the quote and put between two of them is read as one string with the
  text as its lexeme, and nothing else comes before the end;
* a text that begins with the quote is at fault because the string that opens there is not closed
  exactly if every other quote of this kind has an odd number of backslashes directly before it. -/
theorem tokenize_escape_and_unterminated_iff (hq : isQuote q) :
    (∀ s : String, tokenize table (q :: (escape q s.toList ++ [q])) =
      .ok [⟨.string, s, 0, (escape q s.toList).length + 2⟩,
        eof ((escape q s.toList).length + 2)]) ∧
      ∀ body, tokenize table (q :: body) = .error (.unterminatedString 0) ↔
        ¬ HasBareQuote q body := by
  refine ⟨tokenize_escape hq, fun body ↦ ?_⟩
  rw [tokenize_unterminated_iff hq, stringBody?_eq_none_iff (ne_backslash_of_isQuote hq)]

/-- A text with a quote, a line break, and a backslash before a letter that could stand for one; and
a quote behind three backslashes. -/
theorem tokenize_escape_and_unterminated_iff_backslashes :
    isQuote '\'' ∧
      tokenize .default "'it\\'s\nC:\\\\new'".toList =
        .ok [⟨.string, "it's\nC:\\new", 0, 15⟩, eof 15] ∧
      tokenize .default "'a\\\\\\'".toList = .error (.unterminatedString 0) := by
  have hescape : "'it\\'s\nC:\\\\new'".toList =
      '\'' :: (escape '\'' "it's\nC:\\new".toList ++ ['\'']) := by decide +kernel
  have hbare : ¬ HasBareQuote '\'' ['a', '\\', '\\', '\\', '\''] := by
    rw [hasBareQuote_plain (by decide) (by decide), hasBareQuote_escape (by decide),
      hasBareQuote_escape (by decide)]
    exact not_hasBareQuote_nil
  refine ⟨rfl, ?_, ((tokenize_escape_and_unterminated_iff rfl).2 _).2 hbare⟩
  rw [hescape]
  exact (tokenize_escape_and_unterminated_iff rfl).1 "it's\nC:\\new"

end FeatureStyle.Token
