import FeatureStyle.Proofs.Source.Backslash
import FeatureStyle.Proofs.Source.Writing

/-!
# Where a prepared text comes from

A source and its prepared text can be read side by side. A step of this is an **edit**: a character
is kept, a backslash is hidden, a placeholder is opened or closed. The edits of a source are those
of its segments, and **the prepared source is what they write** (`exists_edits_of_prepared`).

A place of the prepared text is a place of the source as well, unless it lies within the sentinel or
the mark that an edit has written. A place that a cut of the prepared text can be made at, with
neither of them cut through (`Seam`), has edits before it and edits behind it (`exists_split`). So
many characters come before it in both texts:

* the prepared text is ahead by two for every backslash that is hidden and every placeholder that is
  opened, less one for every placeholder that is closed (`length_flatMap_prepared`);
* since no placeholder is closed that has not been opened, **the number is the same in both texts
  exactly if nothing but kept characters comes before** (`Edits.length_eq_iff`).

If a placeholder is never closed, nothing is prepared, but backslashes have been hidden by then: the
error has the number of bytes before the placeholder, and two more for every backslash among them
(`exists_writing_of_error`).
-/

namespace FeatureStyle.Source

/-! ### Edits -/

/-- One step in which a source and its prepared text are read side by side. -/
inductive Edit
  | kept (c : Char)
  /-- A backslash, with the sentinel in its place. -/
  | hidden
  /-- The opening of a placeholder, with the mark in its place. -/
  | opened
  /-- The closing brace of a placeholder, which is left out. -/
  | closed
  deriving DecidableEq

namespace Edit

/-- What is read in the source. -/
def source : Edit → List Char
  | kept c => [c]
  | hidden => ['\\']
  | opened => ['$', '\x7b']
  | closed => ['\x7d']

/-- What is read in the prepared text. -/
def prepared : Edit → List Char
  | kept c => [c]
  | hidden => sentinel
  | opened => mark
  | closed => []

def IsKept (s : Edit) : Prop := ∃ c, s = kept c

/-- What becomes of a character that does not belong to the delimiters of a placeholder. -/
def ofChar (c : Char) : Edit := if c = '\\' then hidden else kept c

theorem ofChar_ne_closed (c : Char) : ofChar c ≠ closed := by
  rw [ofChar]
  split <;> simp

end Edit

section Characters

variable {cs : List Char}

/-- The edits of a text read that text. -/
theorem flatMap_source_ofChar : (cs.map Edit.ofChar).flatMap Edit.source = cs := by
  induction cs with
  | nil => rfl
  | cons c cs ih =>
    rw [List.map_cons, List.flatMap_cons, ih, Edit.ofChar]
    split
    · next hc => rw [hc]; rfl
    · rfl

/-- They write it with its backslashes hidden. -/
theorem flatMap_prepared_ofChar :
    (cs.map Edit.ofChar).flatMap Edit.prepared = hideBackslashes cs := by
  induction cs with
  | nil => rfl
  | cons c cs ih =>
    rw [List.map_cons, List.flatMap_cons, ih, Edit.ofChar]
    split
    · next hc => rw [hc]; rfl
    · next hc => exact (hideBackslashes_cons hc cs).symm

/-- A text closes no placeholder. -/
theorem closed_notMem_ofChar : Edit.closed ∉ cs.map Edit.ofChar := by
  intro h
  obtain ⟨c, -, hc⟩ := List.mem_map.1 h
  exact Edit.ofChar_ne_closed c hc

end Characters

/-- The edits of a segment. -/
def Segment.edits : Segment → List Edit
  | placeholder name => .opened :: (name.map Edit.ofChar ++ [.closed])
  | s => s.text.map Edit.ofChar

/-- The edits of a source. -/
def Edits (source : List Char) (es : List Edit) : Prop :=
  ∃ segments, Cuts source segments ∧ es = segments.flatMap Segment.edits

variable {source front back : List Char} {es before after : List Edit}

/-- **The edits of a segment read the segment.** -/
theorem Segment.flatMap_source_edits (s : Segment) : s.edits.flatMap Edit.source = s.text := by
  cases s with
  | placeholder name =>
    rw [edits, List.flatMap_cons, List.flatMap_append, flatMap_source_ofChar]
    rfl
  | plain | quoted | unclosed => exact flatMap_source_ofChar

/-- **They write what it becomes**, with the backslashes hidden. -/
theorem Segment.flatMap_prepared_edits (s : Segment) :
    s.edits.flatMap Edit.prepared = hideBackslashes s.expanded := by
  cases s with
  | placeholder name =>
    rw [edits, List.flatMap_cons, List.flatMap_append, flatMap_prepared_ofChar, expanded,
      hideBackslashes_append, hideBackslashes_eq_self (by decide : '\\' ∉ mark)]
    simp [Edit.prepared]
  | plain | quoted | unclosed => exact flatMap_prepared_ofChar

/-- Hiding goes through texts that are put together. -/
theorem flatMap_hideBackslashes {α : Type} (f : α → List Char) (as : List α) :
    hideBackslashes (as.flatMap f) = as.flatMap fun a ↦ hideBackslashes (f a) := by
  induction as with
  | nil => rfl
  | cons a as ih => rw [List.flatMap_cons, List.flatMap_cons, hideBackslashes_append, ih]

/-- The edits are read from the source. -/
theorem Edits.flatMap_source (h : Edits source es) : es.flatMap Edit.source = source := by
  obtain ⟨segments, hcuts, rfl⟩ := h
  rw [List.flatMap_assoc, funext Segment.flatMap_source_edits, hcuts.flatMap_text]

/-- **The prepared source is what the edits write.** -/
theorem exists_edits_of_prepared {prepared : List Char}
    (h : expandPlaceholders (hideBackslashes source) = .ok prepared) :
    ∃ es, Edits source es ∧ es.flatMap Edit.prepared = prepared := by
  obtain ⟨segments, hcuts, rfl⟩ := exists_cuts_of_prepared h
  refine ⟨_, ⟨segments, hcuts, rfl⟩, ?_⟩
  rw [List.flatMap_assoc, funext Segment.flatMap_prepared_edits, flatMap_hideBackslashes]

/-! ### How far the prepared text is ahead -/

/-- An edit that hides or opens writes two characters more than it reads, and one that closes writes
one less. -/
theorem Edit.length_prepared (s : Edit) :
    s.prepared.length + [s].count .closed =
      s.source.length + 2 * ([s].count .hidden + [s].count .opened) := by
  cases s <;> rfl

/-- **The prepared text is ahead by two for every edit that hides or opens, less one for every edit
that closes.** -/
theorem length_flatMap_prepared (es : List Edit) :
    (es.flatMap Edit.prepared).length + es.count .closed =
      (es.flatMap Edit.source).length + 2 * (es.count .hidden + es.count .opened) := by
  induction es with
  | nil => rfl
  | cons s es ih =>
    have hs := s.length_prepared
    have hcount (t : Edit) : (s :: es).count t = [s].count t + es.count t := by
      rw [← List.singleton_append, List.count_append]
    rw [List.flatMap_cons, List.flatMap_cons, List.length_append, List.length_append]
    simp only [hcount]
    omega

/-- No placeholder is closed that has not been opened. -/
theorem Segment.count_closed_le {s : Segment} (h : before <+: s.edits) :
    before.count .closed ≤ before.count .opened := by
  have hchars {bs : List Edit} {cs : List Char} (h : bs <+: cs.map Edit.ofChar) :
      bs.count .closed = 0 :=
    List.count_eq_zero.2 fun hmem ↦ closed_notMem_ofChar (h.subset hmem)
  cases s with
  | placeholder name =>
    rcases List.prefix_cons_iff.1 h with rfl | ⟨bs, rfl, hbs⟩
    · exact Nat.le_refl _
    rcases List.prefix_concat_iff.1 hbs with rfl | hbs
    · simp [hchars List.prefix_rfl]
    · simp [hchars hbs]
  | plain | quoted | unclosed => exact (hchars h).trans_le (Nat.zero_le _)

/-- At no place have more placeholders been closed than opened. -/
theorem count_closed_le {segments : List Segment} (h : before <+: segments.flatMap Segment.edits) :
    before.count .closed ≤ before.count .opened := by
  induction segments generalizing before with
  | nil =>
    rw [List.prefix_nil.1 h]
    exact Nat.le_refl _
  | cons s segments ih =>
    obtain ⟨after, h⟩ := h
    rw [List.flatMap_cons] at h
    rcases List.append_eq_append_iff.1 h with ⟨more, hs, -⟩ | ⟨more, rfl, hmore⟩
    · exact Segment.count_closed_le ⟨more, hs.symm⟩
    · have hsegment := Segment.count_closed_le (List.prefix_refl s.edits)
      have hrest := ih ⟨after, hmore.symm⟩
      rw [List.count_append, List.count_append]
      omega

/-- All edits keep a character exactly if there are none of the other kinds. -/
theorem forall_isKept_iff :
    (∀ s ∈ before, s.IsKept) ↔
      before.count .hidden = 0 ∧ before.count .opened = 0 ∧ before.count .closed = 0 := by
  rw [List.count_eq_zero, List.count_eq_zero, List.count_eq_zero]
  constructor
  · intro h
    refine ⟨fun hmem ↦ ?_, fun hmem ↦ ?_, fun hmem ↦ ?_⟩ <;>
      (obtain ⟨c, hc⟩ := h _ hmem; cases hc)
  · rintro ⟨hhidden, hopened, hclosed⟩ s hs
    cases s with
    | kept c => exact ⟨c, rfl⟩
    | hidden => exact absurd hs hhidden
    | opened => exact absurd hs hopened
    | closed => exact absurd hs hclosed

/-- **So many characters come before a place in both texts exactly if all of them are kept.** -/
theorem Edits.length_eq_iff (h : Edits source (before ++ after)) :
    (before.flatMap Edit.prepared).length = (before.flatMap Edit.source).length ↔
      ∀ s ∈ before, s.IsKept := by
  obtain ⟨segments, -, hes⟩ := h
  have hclosed := count_closed_le (hes ▸ List.prefix_append before after)
  have hlength := length_flatMap_prepared before
  rw [forall_isKept_iff]
  omega

/-! ### Places of both texts -/

/-- Neither a sentinel nor a mark is cut through. -/
def Seam (front back : List Char) : Prop :=
  ∀ u v, u ≠ [] → v ≠ [] → u ++ v ∈ [sentinel, mark] → u <:+ front → ¬ v <+: back

/-- An edit can only be cut through within the sentinel or the mark. -/
theorem Edit.eq_of_prepared_eq_append {s : Edit} {u v : List Char} (h : s.prepared = u ++ v)
    (hu : u ≠ []) (hv : v ≠ []) : u ++ v ∈ [sentinel, mark] := by
  cases s with
  | hidden | opened => simp [← h, prepared]
  | closed => simp [prepared, hu] at h
  | kept c =>
    obtain ⟨a, u, rfl⟩ := List.exists_cons_of_ne_nil hu
    obtain ⟨b, v, rfl⟩ := List.exists_cons_of_ne_nil hv
    simp [prepared] at h

/-- **Where neither a sentinel nor a mark is cut through, the edits can be cut too**, with all that
is left out before the place. -/
theorem exists_split (h : es.flatMap Edit.prepared = front ++ back) (hseam : Seam front back) :
    ∃ before after, es = before ++ after ∧ before.flatMap Edit.prepared = front ∧
      after.flatMap Edit.prepared = back ∧ after.head? ≠ some .closed := by
  induction es generalizing front with
  | nil =>
    obtain ⟨rfl, rfl⟩ := List.append_eq_nil_iff.1 h.symm
    exact ⟨[], [], rfl, rfl, rfl, by simp⟩
  | cons s es ih =>
    by_cases hhere : front = [] ∧ s ≠ .closed
    · obtain ⟨rfl, hs⟩ := hhere
      exact ⟨[], s :: es, rfl, rfl, h, by simpa using hs⟩
    rw [List.flatMap_cons] at h
    rcases append_eq_append_cases h with ⟨more, rfl, hmore⟩ | ⟨c, v, hs, hback⟩
    · have hrest : Seam more back := fun u v hu hv hword hsuffix ↦
        hseam u v hu hv hword (hsuffix.trans (List.suffix_append _ _))
      obtain ⟨before, after, rfl, rfl, hafter, hhead⟩ := ih hmore hrest
      exact ⟨s :: before, after, rfl, rfl, hafter, hhead⟩
    · -- The edit would reach over the place.
      have hfront : front ≠ [] := by
        rintro rfl
        refine hhere ⟨rfl, ?_⟩
        rintro rfl
        cases hs
      have hword := Edit.eq_of_prepared_eq_append hs hfront (List.cons_ne_nil c v)
      exact absurd ⟨_, hback.symm⟩
        (hseam front (c :: v) hfront (List.cons_ne_nil c v) hword List.suffix_rfl)

/-! ### Placeholders that are never closed -/

/-- Every hidden backslash makes a text longer by two bytes. -/
theorem byteLength_hideBackslashes (cs : List Char) :
    Text.byteLength (hideBackslashes cs) = Text.byteLength cs + 2 * cs.count '\\' := by
  induction cs with
  | nil => rfl
  | cons c cs ih =>
    by_cases hc : c = '\\'
    · subst hc
      rw [hideBackslashes_backslash, List.count_cons_self]
      show 1 + (1 + (1 + Text.byteLength (hideBackslashes cs))) = 1 + Text.byteLength cs + _
      rw [ih]
      omega
    · rw [hideBackslashes_cons hc, List.count_cons_of_ne hc]
      show c.utf8Size + Text.byteLength (hideBackslashes cs) = c.utf8Size + Text.byteLength cs + _
      rw [ih]
      omega

namespace Passage

/-- The passage with its backslashes hidden. -/
def hide : Passage → Passage
  | plain text => .plain (hideBackslashes text)
  | quoted q body => .quoted q (hideBackslashes body)
  | placeholder name => .placeholder (hideBackslashes name)

/-- **Hiding a passage hides the backslashes in its text**: none of its delimiters is one. -/
theorem text_hide {p : Passage} (hp : p.WellFormed) : p.hide.text = hideBackslashes p.text := by
  cases p with
  | plain text => rfl
  | quoted q body =>
    have hq : q ≠ '\\' := ne_backslash_of_isQuote hp.1
    simp [hide, text, hideBackslashes_cons hq, hideBackslashes_append, hideBackslashes]
  | placeholder name =>
    rw [hide, text, text, hideBackslashes_cons (by decide), hideBackslashes_cons (by decide),
      hideBackslashes_append]
    rfl

/-- A hidden passage is still well-formed, since the sentinel has no delimiter in it. -/
theorem wellFormed_hide {p : Passage} (hp : p.WellFormed) : p.hide.WellFormed := by
  cases p with
  | plain text =>
    refine ⟨fun c hc hquote ↦ ?_, ?_⟩
    · exact notMem_hideBackslashes (not_mem_sentinel_of_isQuote hquote) (fun h ↦ hp.1 c h hquote) hc
    · rintro ⟨front, back, h⟩
      rw [List.append_assoc] at h
      obtain ⟨front, back, rfl, -, -⟩ :=
        exists_of_hideBackslashes_eq_append (List.cons_ne_nil _ _) (by decide) h.symm
      exact hp.2 ⟨front, back, List.append_assoc ..⟩
  | quoted q body => exact ⟨hp.1, notMem_hideBackslashes (not_mem_sentinel_of_isQuote hp.1) hp.2⟩
  | placeholder name => exact notMem_hideBackslashes (by decide) hp

/-- Nor does hiding change what kind of passage it is. -/
theorem isPlain_hide {p : Passage} : p.hide.IsPlain ↔ p.IsPlain := by
  cases p <;> rfl

end Passage

namespace Ending

/-- The ending with its backslashes hidden. -/
def hide : Ending → Ending
  | complete => complete
  | openQuote q body => openQuote q (hideBackslashes body)
  | openPlaceholder rest => openPlaceholder (hideBackslashes rest)

variable {e : Ending}

/-- The same for what a source ends with. -/
theorem text_hide (he : e.WellFormed) : e.hide.text = hideBackslashes e.text := by
  cases e with
  | complete => rfl
  | openQuote q body => exact (hideBackslashes_cons (ne_backslash_of_isQuote he.1) body).symm
  | openPlaceholder rest => rfl

theorem wellFormed_hide (he : e.WellFormed) : e.hide.WellFormed := by
  cases e with
  | complete => trivial
  | openQuote q body => exact ⟨he.1, notMem_hideBackslashes (not_mem_sentinel_of_isQuote he.1) he.2⟩
  | openPlaceholder rest => exact notMem_hideBackslashes (by decide) he

end Ending

/-- The writing with its backslashes hidden. -/
def Writing.hide (w : Writing) : Writing where
  passages := w.passages.map Passage.hide
  ending := w.ending.hide
  wellFormed := List.forall_mem_map.2 fun p hp ↦ Passage.wellFormed_hide (w.wellFormed p hp)
  apart := (List.isChain_map _).2 (by simpa only [Passage.isPlain_hide] using w.apart)
  endsWell := Ending.wellFormed_hide w.endsWell

/-- The same for passages one behind the other. -/
theorem flatMap_text_hide {passages : List Passage} (h : ∀ p ∈ passages, p.WellFormed) :
    (passages.map Passage.hide).flatMap Passage.text =
      hideBackslashes (passages.flatMap Passage.text) := by
  rw [List.flatMap_map, flatMap_hideBackslashes]
  exact List.flatMap_congr fun p hp ↦ Passage.text_hide (h p hp)

/-- **A source with hidden backslashes is written in the same passages.** -/
theorem Writing.text_hide (w : Writing) : w.hide.text = hideBackslashes w.text := by
  rw [text, text, hideBackslashes_append, ← flatMap_text_hide w.wellFormed,
    ← Ending.text_hide w.endsWell]
  rfl

/-- A source is only not prepared if it ends in a placeholder that is never closed. The position of
the error has two bytes more than come before the placeholder for every backslash among them. -/
theorem exists_writing_of_error {e : UnmatchedPlaceholder}
    (h : expandPlaceholders (hideBackslashes source) = .error e) :
    ∃ w : Writing, w.text = source ∧ (∃ rest, w.ending = .openPlaceholder rest) ∧
      e.position = Text.byteLength (w.passages.flatMap Passage.text) +
        2 * (w.passages.flatMap Passage.text).count '\\' := by
  obtain ⟨w, rfl⟩ := exists_writing source
  rw [← w.text_hide, expandPlaceholders_text, Writing.prepared] at h
  refine ⟨w, rfl, ?_⟩
  rcases hending : w.ending with - | ⟨q, body⟩ | rest <;>
    simp only [Writing.hide, hending, Ending.hide] at h <;> cases h
  refine ⟨⟨rest, rfl⟩, ?_⟩
  rw [← byteLength_hideBackslashes, ← flatMap_text_hide w.wellFormed]

end FeatureStyle.Source
