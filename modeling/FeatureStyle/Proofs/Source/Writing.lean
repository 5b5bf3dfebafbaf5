import FeatureStyle.Proofs.Source.Segment
import Mathlib.Data.List.Chain

/-!
# Sources as they are written

What a source means as a text with placeholders, said in passages rather than character by
character. A **writing** is a sequence of passages and an ending:

* a passage is plain text, in which nothing is quoted and no placeholder is opened, or a quoted text
  with its quotes, or a placeholder;
* a source may end there, or behind a last quote that is never closed, or behind a last placeholder
  that is never closed.

Two plain passages never stand side by side, since a placeholder could be opened where they meet.
Every source is written in this way, and **a source is prepared as it is written**
(`expandPlaceholders_writing`): placeholders become marked names, everything else stays as it is,
and the only failure is an ending in a placeholder, at the byte where it is opened.
-/

namespace FeatureStyle

namespace Text

variable {cs ds : List Char}

theorem byteLength_append : byteLength (cs ++ ds) = byteLength cs + byteLength ds := by
  induction cs with
  | nil => exact (Nat.zero_add _).symm
  | cons c cs ih =>
    show c.utf8Size + byteLength (cs ++ ds) = c.utf8Size + byteLength cs + byteLength ds
    rw [ih, Nat.add_assoc]

end Text

namespace Source

/-! ### Writings -/

/-- A passage of a source. -/
inductive Passage
  | plain (text : List Char)
  | quoted (quote : Char) (body : List Char)
  | placeholder (name : List Char)
  deriving DecidableEq

namespace Passage

/-- What a passage is in the source. -/
def text : Passage → List Char
  | plain text => text
  | quoted q body => q :: (body ++ [q])
  | placeholder name => '$' :: '\x7b' :: (name ++ ['\x7d'])

/-- What a passage is in the prepared source. -/
def prepared : Passage → List Char
  | placeholder name => mark ++ name
  | p => p.text

def IsPlain : Passage → Prop
  | plain _ => True
  | _ => False

theorem not_isPlain_quoted {q : Char} {body : List Char} : ¬ (quoted q body).IsPlain := id

theorem not_isPlain_placeholder {name : List Char} : ¬ (placeholder name).IsPlain := id

/-- Whether the passage ends where its text does, and not before. -/
def WellFormed : Passage → Prop
  | plain text => (∀ c ∈ text, ¬ isQuote c) ∧ ¬ ['$', '\x7b'] <:+: text
  | quoted q body => isQuote q ∧ q ∉ body
  | placeholder name => '\x7d' ∉ name

end Passage

/-- How a source ends behind its passages. -/
inductive Ending
  | complete
  /-- In a quoted text without its closing quote. -/
  | openQuote (quote : Char) (body : List Char)
  /-- In a placeholder without its closing brace. -/
  | openPlaceholder (rest : List Char)
  deriving DecidableEq

namespace Ending

/-- What an ending is in the source. -/
def text : Ending → List Char
  | complete => []
  | openQuote q body => q :: body
  | openPlaceholder rest => '$' :: '\x7b' :: rest

/-- Whether what is open is not closed after all. -/
def WellFormed : Ending → Prop
  | complete => True
  | openQuote q body => isQuote q ∧ q ∉ body
  | openPlaceholder rest => '\x7d' ∉ rest

end Ending

/-- A source in passages. -/
structure Writing where
  passages : List Passage
  ending : Ending
  wellFormed : ∀ p ∈ passages, p.WellFormed
  /-- Of two neighbours one is not plain. -/
  apart : passages.IsChain fun p q ↦ ¬ (p.IsPlain ∧ q.IsPlain)
  endsWell : ending.WellFormed

namespace Writing

/-- What is written. -/
def text (w : Writing) : List Char :=
  w.passages.flatMap Passage.text ++ w.ending.text

/-- What is to become of a source that is written like this. -/
def prepared (w : Writing) : Except UnmatchedPlaceholder (List Char) :=
  match w.ending with
  | .openPlaceholder _ => .error ⟨Text.byteLength (w.passages.flatMap Passage.text)⟩
  | ending => .ok (w.passages.flatMap Passage.prepared ++ ending.text)

end Writing

/-! ### Preparing passage by passage -/

variable {position : Nat} {cs rest : List Char}

theorem map_map {ε α β γ : Type} (f : α → β) (g : β → γ) (x : Except ε α) :
    (x.map f).map g = x.map (g ∘ f) := by
  cases x <;> rfl

theorem expandFrom_plainText {text : List Char} (hquote : ∀ c ∈ text, ¬ isQuote c)
    (hopen : ¬ ['$', '\x7b'] <:+: text) (hrest : rest.head? ≠ some '\x7b') :
    expandFrom position (text ++ rest) =
      (expandFrom (position + Text.byteLength text) rest).map (text ++ ·) := by
  induction text generalizing position with
  | nil =>
    show expandFrom position rest = (expandFrom position rest).map id
    cases expandFrom position rest <;> rfl
  | cons c text ih =>
    obtain ⟨hc, htext⟩ := List.forall_mem_cons.1 hquote
    have hnot : ¬ (c = '$' ∧ (text ++ rest).head? = some '\x7b') := by
      rintro ⟨rfl, hhead⟩
      cases text with
      | nil => exact hrest hhead
      | cons d text =>
        obtain rfl := Option.some.inj hhead
        exact hopen ⟨[], text, rfl⟩
    have htail : ¬ ['$', '\x7b'] <:+: text := fun h ↦
      hopen (h.trans (List.suffix_cons c text).isInfix)
    rw [List.cons_append, expandFrom_plain hc hnot, ih htext htail, map_map, Nat.add_assoc]
    rfl

/-- A passage is prepared by itself, as long as what follows does not open a placeholder at the end
of plain text. -/
theorem expandFrom_passage {p : Passage} (hp : p.WellFormed)
    (hrest : p.IsPlain → rest.head? ≠ some '\x7b') :
    expandFrom position (p.text ++ rest) =
      (expandFrom (position + Text.byteLength p.text) rest).map (p.prepared ++ ·) := by
  cases p with
  | plain text => exact expandFrom_plainText hp.1 hp.2 (hrest trivial)
  | quoted q body =>
    have h : expandFrom position (q :: (body ++ q :: rest)) = _ := expandFrom_quoted hp.1 hp.2
    simpa [Passage.text, Passage.prepared] using h
  | placeholder name =>
    have h : expandFrom position ('$' :: '\x7b' :: (name ++ '\x7d' :: rest)) = _ :=
      expandFrom_placeholder hp
    have hlength : Text.byteLength (Passage.placeholder name).text = Text.byteLength name + 3 := by
      show 1 + (1 + Text.byteLength (name ++ ['\x7d'])) = _
      rw [Text.byteLength_append, show Text.byteLength ['\x7d'] = 1 from rfl]
      omega
    rw [hlength, ← Nat.add_assoc]
    simpa [Passage.text, Passage.prepared] using h

theorem Ending.head?_text {e : Ending} (he : e.WellFormed) : e.text.head? ≠ some '\x7b' := by
  cases e with
  | complete => simp [text]
  | openQuote q body =>
    rintro ⟨⟩
    exact absurd he.1 (by decide)
  | openPlaceholder rest => simp [text]

theorem Passage.head?_text {p : Passage} (hp : p.WellFormed) (hplain : ¬ p.IsPlain) :
    (p.text ++ rest).head? ≠ some '\x7b' := by
  cases p with
  | plain text => exact absurd trivial hplain
  | quoted q body =>
    rintro ⟨⟩
    exact absurd hp.1 (by decide)
  | placeholder name => simp [text]

/-- Passages are prepared one after another. -/
theorem expandFrom_passages {passages : List Passage} (hpassages : ∀ p ∈ passages, p.WellFormed)
    (hapart : passages.IsChain fun p q ↦ ¬ (p.IsPlain ∧ q.IsPlain))
    (hrest : rest.head? ≠ some '\x7b') :
    expandFrom position (passages.flatMap Passage.text ++ rest) =
      (expandFrom (position + Text.byteLength (passages.flatMap Passage.text)) rest).map
        (passages.flatMap Passage.prepared ++ ·) := by
  induction passages generalizing position with
  | nil =>
    show expandFrom position rest = (expandFrom position rest).map id
    cases expandFrom position rest <;> rfl
  | cons p passages ih =>
    obtain ⟨hp, hmore⟩ := List.forall_mem_cons.1 hpassages
    have hnext : p.IsPlain → (passages.flatMap Passage.text ++ rest).head? ≠ some '\x7b' := by
      intro hplain
      cases passages with
      | nil => exact hrest
      | cons q passages =>
        have hq : ¬ q.IsPlain := fun h ↦ (List.isChain_cons_cons.1 hapart).1 ⟨hplain, h⟩
        rw [List.flatMap_cons, List.append_assoc]
        exact Passage.head?_text (hmore q List.mem_cons_self) hq
    rw [List.flatMap_cons, List.append_assoc, expandFrom_passage hp hnext,
      ih hmore hapart.tail, map_map, Text.byteLength_append, Nat.add_assoc, List.flatMap_cons]
    simp [Function.comp_def]

/-- **A written source is prepared as it is written.** -/
theorem expandPlaceholders_text (w : Writing) : expandPlaceholders w.text = w.prepared := by
  obtain ⟨passages, ending, hpassages, hapart, hending⟩ := w
  rw [expandPlaceholders, Writing.text,
    expandFrom_passages hpassages hapart (Ending.head?_text hending), Nat.zero_add]
  cases ending with
  | complete =>
    rw [Ending.text, expandFrom]
    rfl
  | openQuote q body =>
    rw [Ending.text, expandFrom_unclosed hending.1 hending.2]
    rfl
  | openPlaceholder rest =>
    rw [Ending.text, expandFrom_unmatched hending]
    rfl

/-! ### Every source is written -/

namespace Writing

/-- The writing of nothing but an ending. -/
def ofEnding (ending : Ending) (h : ending.WellFormed) : Writing :=
  ⟨[], ending, by simp, .nil, h⟩

/-- The writing with a passage in front that is not plain. -/
def cons {p : Passage} (hp : p.WellFormed) (hplain : ¬ p.IsPlain) (w : Writing) : Writing where
  passages := p :: w.passages
  ending := w.ending
  wellFormed := List.forall_mem_cons.2 ⟨hp, w.wellFormed⟩
  apart := .cons w.apart fun _ _ h ↦ hplain h.1
  endsWell := w.endsWell

theorem text_cons {p : Passage} {hp : p.WellFormed} {hplain : ¬ p.IsPlain} (w : Writing) :
    (w.cons hp hplain).text = p.text ++ w.text := by
  simp [cons, text]

/-- A character that is plain where it stands joins the plain text behind it, if there is some. -/
theorem exists_plain_cons {c : Char} (w : Writing) (hquote : ¬ isQuote c)
    (hopen : ¬ (c = '$' ∧ w.text.head? = some '\x7b')) :
    ∃ w' : Writing, w'.text = c :: w.text := by
  obtain ⟨passages, ending, hpassages, hapart, hending⟩ := w
  by_cases hplain : ∃ front more, passages = .plain front :: more
  · obtain ⟨front, more, rfl⟩ := hplain
    obtain ⟨⟨hfront, hinfix⟩, hmore⟩ := List.forall_mem_cons.1 hpassages
    have hjoined : (Passage.plain (c :: front)).WellFormed := by
      refine ⟨List.forall_mem_cons.2 ⟨hquote, hfront⟩, fun h ↦ ?_⟩
      rcases List.infix_cons_iff.1 h with h | h
      · obtain ⟨rfl, rest, rfl⟩ := List.cons_prefix_cons.1 h
        exact hopen ⟨rfl, rfl⟩
      · exact hinfix h
    exact ⟨⟨.plain (c :: front) :: more, ending, List.forall_mem_cons.2 ⟨hjoined, hmore⟩,
      List.isChain_cons.2 (List.isChain_cons.1 hapart), hending⟩, rfl⟩
  · have halone : (Passage.plain [c]).WellFormed := by
      refine ⟨by simpa using hquote, fun h ↦ ?_⟩
      simpa using h.length_le
    refine ⟨⟨.plain [c] :: passages, ending, List.forall_mem_cons.2 ⟨halone, hpassages⟩, ?_,
      hending⟩, rfl⟩
    refine .cons hapart fun q hq h ↦ hplain ?_
    obtain ⟨more, rfl⟩ := List.head?_eq_some_iff.1 hq
    cases q with
    | plain front => exact ⟨front, more, rfl⟩
    | quoted | placeholder => exact h.2.elim

end Writing

/-- Every source is written in passages. -/
theorem exists_writing (source : List Char) : ∃ w : Writing, w.text = source := by
  match source with
  | [] => exact ⟨.ofEnding .complete trivial, rfl⟩
  | c :: cs =>
    by_cases hquote : isQuote c
    · by_cases hclosed : c ∈ cs
      · obtain ⟨body, rest, rfl, hbody⟩ := List.eq_append_cons_of_mem hclosed
        obtain ⟨w, hw⟩ := exists_writing rest
        have hp : (Passage.quoted c body).WellFormed := ⟨hquote, hbody⟩
        refine ⟨w.cons hp Passage.not_isPlain_quoted, ?_⟩
        rw [Writing.text_cons, hw]
        simp [Passage.text]
      · exact ⟨.ofEnding (.openQuote c cs) ⟨hquote, hclosed⟩, rfl⟩
    · by_cases hopen : c = '$' ∧ cs.head? = some '\x7b'
      · obtain ⟨rfl, hhead⟩ := hopen
        obtain ⟨rest, rfl⟩ := List.head?_eq_some_iff.1 hhead
        by_cases hclosed : '\x7d' ∈ rest
        · obtain ⟨name, rest, rfl, hname⟩ := List.eq_append_cons_of_mem hclosed
          obtain ⟨w, hw⟩ := exists_writing rest
          have hp : (Passage.placeholder name).WellFormed := hname
          refine ⟨w.cons hp Passage.not_isPlain_placeholder, ?_⟩
          rw [Writing.text_cons, hw]
          simp [Passage.text]
        · exact ⟨.ofEnding (.openPlaceholder rest) hclosed, rfl⟩
      · obtain ⟨w, rfl⟩ := exists_writing cs
        exact w.exists_plain_cons hquote hopen
termination_by source.length
decreasing_by all_goals grind

/-- **A source is prepared as it is written.** Every source is a sequence of passages, perhaps with
an unclosed quote or an unclosed placeholder behind them. However it is written so, its placeholders
become marked names and everything else is kept; and if it ends in an unclosed placeholder, this is
the error, at the byte where that placeholder is opened. -/
theorem expandPlaceholders_writing :
    (∀ source, ∃ w : Writing, w.text = source) ∧
      ∀ w : Writing, expandPlaceholders w.text = w.prepared :=
  ⟨exists_writing, expandPlaceholders_text⟩

end Source

end FeatureStyle
