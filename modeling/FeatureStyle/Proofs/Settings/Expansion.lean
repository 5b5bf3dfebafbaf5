import FeatureStyle.Proofs.Source.Segment
import FeatureStyle.Settings.Expansion
import Mathlib.Data.List.Infix

/-!
# Documents with environment variables as they are written

What a document means before its variables are put in, said in passages rather than character by
character. A **writing** is a sequence of passages, a literal behind them, and perhaps a placeholder
that is never closed. A passage is a literal and the placeholder behind it. A literal contains no
`${`, although it may end in a `$`, and a key contains no `}`. Every text is written in this way
(`exists_writing`).

The placeholders of a writing come in a row, and each is sound or faulty by itself. The text is gone
through passage by passage (`expandChars_passage`), so **the first fault of the row is the error,
and without one the values stand in the place of the placeholders** (`expandVariables_writing`).
Values are only put in, and never gone through themselves.
-/

namespace FeatureStyle.Expansion

open Source (takeWhile_ne takeWhile_ne_append)

/-! ### Writings -/

/-- What opens a placeholder. -/
def opening : List Char := ['$', '\x7b']

/-- A literal and the placeholder behind it. -/
structure Passage where
  literal : List Char
  key : List Char
  isLiteral : ¬ opening <:+: literal
  isKey : '\x7d' ∉ key

/-- What a passage is in the text. -/
def Passage.text (p : Passage) : List Char := p.literal ++ (opening ++ p.key ++ ['\x7d'])

/-- A text as it is written. -/
structure Writing where
  passages : List Passage
  /-- What comes behind the passages. -/
  literal : List Char
  /-- What comes behind a last opening, if there is one that is never closed. -/
  unclosed? : Option (List Char)
  isLiteral : ¬ opening <:+: literal
  isUnclosed : ∀ rest ∈ unclosed?, '\x7d' ∉ rest

/-- A placeholder in a text. -/
inductive Placeholder
  | closed (key : List Char)
  | unclosed

namespace Placeholder

/-- Whether the placeholder is closed and names a variable that there is. -/
def IsSound (lookup? : String → Option String) (p : Placeholder) : Prop :=
  ∃ key, p = closed key ∧ key ≠ [] ∧ (lookup? (String.ofList key)).isSome

/-- What is wrong with a placeholder, if it is not sound. -/
def fault? (lookup? : String → Option String) : Placeholder → Option ExpansionError
  | unclosed => some .unterminated
  | closed [] => some .empty
  | closed key => if (lookup? (String.ofList key)).isSome then none
      else some (.missing (String.ofList key))

/-- Nothing is wrong with a placeholder exactly if it is sound. -/
theorem fault?_eq_none_iff {lookup? : String → Option String} {p : Placeholder} :
    p.fault? lookup? = none ↔ p.IsSound lookup? := by
  rcases p with (- | ⟨c, key⟩) | -
  · simp [fault?, IsSound]
  · simp [fault?, IsSound, -String.ofList_cons, Option.isSome_iff_ne_none]
  · simp [fault?, IsSound]

end Placeholder

namespace Writing

variable (w : Writing)

/-- What is written. -/
def text : List Char :=
  w.passages.flatMap Passage.text ++ (w.literal ++ w.unclosed?.elim [] (opening ++ ·))

/-- The placeholders, from left to right. -/
def placeholders : List Placeholder :=
  w.passages.map (.closed ·.key) ++ w.unclosed?.elim [] fun _ ↦ [.unclosed]

/-- The text with values in the place of the placeholders. -/
def filled (lookup? : String → Option String) : List Char :=
  w.passages.flatMap (fun p ↦ p.literal ++ ((lookup? (String.ofList p.key)).getD "").toList) ++
    w.literal

/-- What is to become of a text that is written like this. -/
def expansion (lookup? : String → Option String) : Except ExpansionError (List Char) :=
  match w.placeholders.findSome? (Placeholder.fault? lookup?) with
  | some e => .error e
  | none => .ok (w.filled lookup?)

/-- The writing with a passage in front. -/
def cons (p : Passage) (w : Writing) : Writing := { w with passages := p :: w.passages }

/-- A passage in front is written in front. -/
theorem text_cons (p : Passage) : (w.cons p).text = p.text ++ w.text := by
  simp [cons, text]

end Writing

/-! ### Going through a text -/

variable {lookup? : String → Option String} {text literal key rest : List Char}
  {e : ExpansionError}

/-- A character that opens nothing stays as it is. -/
theorem expandChars_cons {c : Char} (h : ¬ (c = '$' ∧ rest.head? = some '\x7b')) :
    expandChars lookup? (c :: rest) = (expandChars lookup? rest).map (c :: ·) := by
  rw [expandChars]
  · cases expandChars lookup? rest <;> rfl
  · rintro cs rfl rfl
    exact h ⟨rfl, rfl⟩

/-- A literal is copied. -/
theorem expandChars_literal (hliteral : ¬ opening <:+: literal)
    (hrest : rest.head? ≠ some '\x7b') :
    expandChars lookup? (literal ++ rest) = (expandChars lookup? rest).map (literal ++ ·) := by
  induction literal with
  | nil => cases h : expandChars lookup? rest <;> simp [h, Except.map]
  | cons c literal ih =>
    have htail : ¬ opening <:+: literal := fun h ↦
      hliteral (h.trans (List.suffix_cons c literal).isInfix)
    have hopen : ¬ (c = '$' ∧ (literal ++ rest).head? = some '\x7b') := by
      rintro ⟨rfl, hhead⟩
      cases literal with
      | nil => exact hrest hhead
      | cons d literal =>
        obtain rfl := Option.some.inj hhead
        exact hliteral ⟨[], literal, rfl⟩
    rw [List.cons_append, expandChars_cons hopen, ih htail]
    cases expandChars lookup? rest <;> rfl

/-- A placeholder becomes the value of its variable, and the rest is gone through. -/
theorem expandChars_closed (hkey : '\x7d' ∉ key) :
    expandChars lookup? (opening ++ key ++ ['\x7d'] ++ rest) = do
      let value ← valueOf lookup? key
      return value ++ (← expandChars lookup? rest) := by
  obtain ⟨htake, hdrop⟩ := takeWhile_ne_append hkey rest
  have htext : opening ++ key ++ ['\x7d'] ++ rest = '$' :: '\x7b' :: (key ++ '\x7d' :: rest) := by
    simp [opening]
  rw [htext, expandChars, htake]
  split
  · next h =>
    rw [hdrop] at h
    cases h
  · next h =>
    rw [hdrop] at h
    obtain ⟨-, rfl⟩ := List.cons.inj h
    rfl

/-- One that is never closed is an error. -/
theorem expandChars_unclosed (hrest : '\x7d' ∉ rest) :
    expandChars lookup? (opening ++ rest) = .error .unterminated := by
  rw [opening, List.cons_append, List.cons_append, List.nil_append, expandChars]
  split
  · rfl
  · next h =>
    rw [(takeWhile_ne hrest).2] at h
    cases h

/-- A key has a value unless something is wrong with it. -/
theorem valueOf_eq (lookup? : String → Option String) (key : List Char) :
    valueOf lookup? key =
      match (Placeholder.closed key).fault? lookup? with
      | some e => .error e
      | none => .ok ((lookup? (String.ofList key)).getD "").toList := by
  rcases key with - | ⟨c, key⟩
  · rfl
  · rcases h : lookup? (String.ofList (c :: key)) with - | value <;>
      simp [valueOf, Placeholder.fault?, -String.ofList_cons, h]

/-- **A passage is gone through by itself.** -/
theorem expandChars_passage (p : Passage) (rest : List Char) :
    expandChars lookup? (p.text ++ rest) = do
      let value ← valueOf lookup? p.key
      return p.literal ++ value ++ (← expandChars lookup? rest) := by
  have hhead : (opening ++ p.key ++ ['\x7d'] ++ rest).head? ≠ some '\x7b' := by simp [opening]
  rw [Passage.text, List.append_assoc, expandChars_literal p.isLiteral hhead,
    expandChars_closed p.isKey]
  cases valueOf lookup? p.key
  · rfl
  · cases expandChars lookup? rest <;> simp [Except.map, bind, Except.bind, pure, Except.pure]

/-- A passage in front is put in before anything else is looked at. -/
theorem Writing.expansion_cons (p : Passage) (w : Writing) :
    (w.cons p).expansion lookup? = do
      let value ← valueOf lookup? p.key
      return p.literal ++ value ++ (← w.expansion lookup?) := by
  have hplaceholders : (w.cons p).placeholders = .closed p.key :: w.placeholders := rfl
  have hfilled : (w.cons p).filled lookup? =
      p.literal ++ ((lookup? (String.ofList p.key)).getD "").toList ++ w.filled lookup? := by
    simp [cons, filled]
  rw [expansion, expansion, hplaceholders, hfilled, List.findSome?_cons, valueOf_eq]
  cases (Placeholder.closed p.key).fault? lookup?
  · cases w.placeholders.findSome? (Placeholder.fault? lookup?) <;> rfl
  · rfl

/-- **A text is gone through from one passage to the next.** -/
theorem expandChars_text (w : Writing) : expandChars lookup? w.text = w.expansion lookup? := by
  obtain ⟨passages, literal, unclosed?, hliteral, hunclosed⟩ := w
  induction passages with
  | nil =>
    rcases unclosed? with - | rest
    · show expandChars lookup? (literal ++ []) = .ok literal
      rw [expandChars_literal hliteral (by simp), expandChars]
      simp [Except.map]
    · show expandChars lookup? (literal ++ (opening ++ rest)) = .error .unterminated
      rw [expandChars_literal hliteral (by simp [opening]),
        expandChars_unclosed (hunclosed rest rfl)]
      rfl
  | cons p passages ih =>
    show expandChars lookup? (Writing.cons p ⟨passages, _, _, hliteral, hunclosed⟩).text = _
    rw [Writing.text_cons, expandChars_passage, ih]
    exact (Writing.expansion_cons p _).symm

/-! ### Every text is written -/

/-- A literal stays one with a character in front that opens nothing together with it. -/
theorem not_opening_infix_cons {c : Char} (hliteral : ¬ opening <:+: literal)
    (h : ¬ (c = '$' ∧ literal.head? = some '\x7b')) : ¬ opening <:+: c :: literal := by
  intro hinfix
  rcases List.infix_cons_iff.1 hinfix with hprefix | hinfix
  · obtain ⟨rfl, rest, rfl⟩ := List.cons_prefix_cons.1 hprefix
    exact h ⟨rfl, rfl⟩
  · exact hliteral hinfix

/-- A character that opens nothing joins the literal behind it. -/
theorem Writing.exists_char_cons {c : Char} (w : Writing)
    (h : ¬ (c = '$' ∧ w.text.head? = some '\x7b')) : ∃ w' : Writing, w'.text = c :: w.text := by
  have hhead {front : List Char} (hfront : front <+: w.text) :
      ¬ (c = '$' ∧ front.head? = some '\x7b') := by
    rintro ⟨hc, hbrace⟩
    obtain ⟨more, rfl⟩ := List.head?_eq_some_iff.1 hbrace
    obtain ⟨rest, htext⟩ := hfront
    exact h ⟨hc, by rw [← htext]; rfl⟩
  obtain ⟨passages, literal, unclosed?, hliteral, hunclosed⟩ := w
  rcases passages with - | ⟨⟨front, key, hfront, hkey⟩, passages⟩
  · have hprefix : literal <+: Writing.text ⟨[], _, unclosed?, hliteral, hunclosed⟩ :=
      List.prefix_append literal _
    exact ⟨⟨[], c :: literal, unclosed?, not_opening_infix_cons hliteral (hhead hprefix),
      hunclosed⟩, rfl⟩
  · have hprefix : front <+:
        Writing.text ⟨⟨front, key, hfront, hkey⟩ :: passages, _, _, hliteral, hunclosed⟩ := by
      rw [text, List.flatMap_cons, Passage.text, List.append_assoc, List.append_assoc]
      exact List.prefix_append front _
    exact ⟨⟨⟨c :: front, key, not_opening_infix_cons hfront (hhead hprefix), hkey⟩ :: passages,
      literal, unclosed?, hliteral, hunclosed⟩, rfl⟩

theorem not_opening_infix_nil : ¬ opening <:+: [] := by
  simp [opening]

/-- **Every text is written in passages.** -/
theorem exists_writing (text : List Char) : ∃ w : Writing, w.text = text := by
  match text with
  | [] => exact ⟨⟨[], [], none, not_opening_infix_nil, by simp⟩, rfl⟩
  | c :: cs =>
    by_cases hopen : c = '$' ∧ cs.head? = some '\x7b'
    · obtain ⟨rfl, hhead⟩ := hopen
      obtain ⟨rest, rfl⟩ := List.head?_eq_some_iff.1 hhead
      by_cases hclosed : '\x7d' ∈ rest
      · obtain ⟨key, rest, rfl, hkey⟩ := List.eq_append_cons_of_mem hclosed
        obtain ⟨w, rfl⟩ := exists_writing rest
        refine ⟨w.cons ⟨[], key, not_opening_infix_nil, hkey⟩, ?_⟩
        rw [Writing.text_cons]
        simp [Passage.text, opening]
      · exact ⟨⟨[], [], some rest, not_opening_infix_nil, by simpa using hclosed⟩, rfl⟩
    · obtain ⟨w, rfl⟩ := exists_writing cs
      exact w.exists_char_cons hopen
termination_by text.length
decreasing_by all_goals (subst_vars; simp only [List.length_append, List.length_cons]; omega)

/-! ### What is expanded -/

namespace Writing

variable {w : Writing}

/-- A writing is filled exactly if all of its placeholders are sound. -/
theorem expansion_eq_ok_iff {cs : List Char} :
    w.expansion lookup? = .ok cs ↔
      (∀ p ∈ w.placeholders, p.IsSound lookup?) ∧ cs = w.filled lookup? := by
  simp only [← Placeholder.fault?_eq_none_iff, ← List.findSome?_eq_none_iff]
  rw [expansion]
  cases w.placeholders.findSome? (Placeholder.fault? lookup?)
  · simp [eq_comm]
  · simp

/-- Otherwise the error is that of the first one that is not, whatever comes behind it. -/
theorem expansion_eq_error_iff :
    w.expansion lookup? = .error e ↔
      ∃ before p after, w.placeholders = before ++ p :: after ∧
        (∀ q ∈ before, q.IsSound lookup?) ∧ p.fault? lookup? = some e := by
  have hfirst : w.expansion lookup? = .error e ↔
      w.placeholders.findSome? (Placeholder.fault? lookup?) = some e := by
    rw [expansion]
    cases w.placeholders.findSome? (Placeholder.fault? lookup?) <;> simp
  rw [hfirst, List.findSome?_eq_some_iff]
  simp only [Placeholder.fault?_eq_none_iff, and_comm]

end Writing

/-- **Variables are put in as they are written.** Every text is a sequence of literals and
placeholders, perhaps with a placeholder behind them that is never closed. However it is written so,
it is expanded exactly if all of its placeholders are closed and name variables that there are; then
the literals are kept, with the values between them as they are. The error is what is wrong with the
first placeholder that is not sound, whatever comes behind it. -/
theorem expandVariables_writing (lookup? : String → Option String) :
    (∀ text : String, ∃ w : Writing, String.ofList w.text = text) ∧
      ∀ w : Writing,
        (∀ expanded, expandVariables lookup? (String.ofList w.text) = .ok expanded ↔
          (∀ p ∈ w.placeholders, p.IsSound lookup?) ∧
            expanded = String.ofList (w.filled lookup?)) ∧
        ∀ e, expandVariables lookup? (String.ofList w.text) = .error e ↔
          ∃ before p after, w.placeholders = before ++ p :: after ∧
            (∀ q ∈ before, q.IsSound lookup?) ∧ p.fault? lookup? = some e := by
  refine ⟨fun text ↦ ?_, fun w ↦ ?_⟩
  · obtain ⟨w, hw⟩ := exists_writing text.toList
    exact ⟨w, by rw [hw, String.ofList_toList]⟩
  have htext : expandVariables lookup? (String.ofList w.text) =
      (w.expansion lookup?).map String.ofList := by
    rw [expandVariables, String.toList_ofList, expandChars_text]
  rw [htext]
  refine ⟨fun expanded ↦ ?_, fun e ↦ ?_⟩
  · rw [map_eq_ok]
    constructor
    · rintro ⟨cs, hcs, rfl⟩
      obtain ⟨hsound, rfl⟩ := Writing.expansion_eq_ok_iff.1 hcs
      exact ⟨hsound, rfl⟩
    · rintro ⟨hsound, rfl⟩
      exact ⟨_, Writing.expansion_eq_ok_iff.2 ⟨hsound, rfl⟩, rfl⟩
  · rw [← Writing.expansion_eq_error_iff]
    cases w.expansion lookup? <;> simp [Except.map]

/-- A value is not looked at again, even if a placeholder is opened in it. -/
example : expandVariables (fun key ↦ if key = "a" then some "${b}" else none) "x$${a}" =
    .ok "x$${b}" := by
  decide +kernel

/-- The first fault is the error, and what comes behind it does not matter. -/
example : expandVariables (fun _ ↦ none) "${a}${}$\x7b" = .error (.missing "a") := by
  decide +kernel

end FeatureStyle.Expansion
