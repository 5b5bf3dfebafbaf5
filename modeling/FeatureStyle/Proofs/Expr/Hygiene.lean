import FeatureStyle.Proofs.Expr.Spelling
import FeatureStyle.Proofs.Source.Segment

/-!
# Which placeholder a property is read from

A placeholder becomes the mark before its name, and nothing in the prepared source says where the
name ends. In a source without the mark, **every property is read from a placeholder**: the mark of
its word begins within the expansion of one (`exists_placeholder_of_mark`). But the word takes up
all parts of words that come next, those written behind the placeholder as well, and it stops at the
first character of the name that is not such a part. **The property has the name of the placeholder
exactly if that name is made of parts of words and no such part is written behind the placeholder**
(`property_of_placeholder`).
-/

namespace FeatureStyle

namespace Source

open Token (Apart)

variable {segments : List Segment} {front back : List Char}

/-! ### Where marks come from -/

theorem mark_eq : mark = ['c', 'z', 'm', '_'] := by
  decide

theorem Segment.expanded_eq_text {s : Segment} (h : ∀ name, s ≠ .placeholder name) :
    s.expanded = s.text := by
  cases s with
  | placeholder name => exact absurd rfl (h name)
  | plain | quoted | unclosed => rfl

/-- Every expansion of a placeholder begins with the first letter of the mark, so a text without
that letter does not reach into one. -/
theorem prefix_text_of_prefix_expanded {t u : List Char} (ht : 'c' ∉ t)
    (h : t <+: u ++ segments.flatMap Segment.expanded) :
    t <+: u ++ segments.flatMap Segment.text := by
  induction segments generalizing u with
  | nil => exact h
  | cons s segments ih =>
    rw [List.flatMap_cons] at h ⊢
    by_cases hs : ∀ name, s ≠ .placeholder name
    · rw [Segment.expanded_eq_text hs, ← List.append_assoc] at h
      rw [← List.append_assoc]
      exact ih h
    · obtain ⟨name, rfl⟩ := not_forall_not.1 hs
      obtain ⟨rest, h⟩ := h
      rcases List.append_eq_append_iff.1 h with ⟨v, rfl, -⟩ | ⟨v, rfl, hv⟩
      · exact (List.prefix_append t v).trans (List.prefix_append _ _)
      · cases v with
        | nil =>
          rw [List.append_nil]
          exact List.prefix_append _ _
        | cons c v =>
          rw [Segment.expanded, mark_eq] at hv
          obtain rfl : 'c' = c := (List.cons.inj hv).1
          simp at ht

/-- **A mark in the prepared source begins within the expansion of a placeholder**, if there is none
in the source. -/
theorem exists_placeholder_of_mark (h : ¬ mark <:+: segments.flatMap Segment.text)
    (heq : segments.flatMap Segment.expanded = front ++ (mark ++ back)) :
    ∃ before name after pre suf, segments = before ++ .placeholder name :: after ∧
      front = before.flatMap Segment.expanded ++ pre ∧ mark ++ name = pre ++ suf ∧ suf ≠ [] ∧
      suf ++ after.flatMap Segment.expanded = mark ++ back := by
  induction segments generalizing front with
  | nil =>
    have hnil : front ++ (mark ++ back) = [] := heq.symm
    simp [mark_eq] at hnil
  | cons s segments ih =>
    have hrest : ¬ mark <:+: segments.flatMap Segment.text := fun hmark ↦
      h (hmark.trans (List.suffix_append _ _).isInfix)
    rw [List.flatMap_cons] at heq
    rcases append_eq_append_cases heq with ⟨more, rfl, hmore⟩ | ⟨c, suf, hs, hsuf⟩
    · -- The mark begins behind the segment.
      obtain ⟨before, name, after, pre, suf, rfl, rfl, hsplit, hne, hword⟩ := ih hrest hmore
      exact ⟨s :: before, name, after, pre, suf, rfl, by simp, hsplit, hne, hword⟩
    · by_cases hplain : ∀ name, s ≠ .placeholder name
      · -- All of the mark would be text of the source.
        rw [Segment.expanded_eq_text hplain] at hs
        rw [mark_eq] at hsuf
        obtain ⟨rfl, htail⟩ := List.cons.inj hsuf
        have hmark : ['z', 'm', '_'] <+: suf ++ segments.flatMap Segment.text :=
          prefix_text_of_prefix_expanded (by decide) ⟨back, htail⟩
        obtain ⟨rest, hrest⟩ := hmark
        refine absurd ⟨front, rest, ?_⟩ h
        rw [List.flatMap_cons, hs, List.append_assoc, List.append_assoc, List.cons_append,
          ← hrest, mark_eq]
        rfl
      · obtain ⟨name, rfl⟩ := not_forall_not.1 hplain
        exact ⟨[], name, segments, front, c :: suf, rfl, by simp, hs, by simp, hsuf.symm⟩

/-! ### Words behind marks -/

/-- No word ends in a backslash, so it makes no difference to words whether backslashes are
hidden. -/
theorem apart_of_hideBackslashes (h : Apart (hideBackslashes front)) : Apart front := by
  rintro run ⟨before, rfl⟩ hparts c hc
  have hrun : '\\' ∉ run := fun hmem ↦ absurd (hparts _ hmem) (by decide)
  refine h run ⟨hideBackslashes before, ?_⟩ hparts c hc
  rw [hideBackslashes_append, hideBackslashes_eq_self hrun]

theorem not_isIdentifierPart_of_mem_sentinel : ∀ c ∈ sentinel, ¬ Token.isIdentifierPart c := by
  decide

theorem head?_of_hideBackslashes
    (h : ∀ c ∈ (hideBackslashes back).head?, ¬ Token.isIdentifierPart c) :
    ∀ c ∈ back.head?, ¬ Token.isIdentifierPart c := by
  intro c hc
  obtain ⟨rest, rfl⟩ := List.head?_eq_some_iff.1 hc
  by_cases hbackslash : c = '\\'
  · exact hbackslash ▸ by decide
  · rw [hideBackslashes_cons hbackslash] at h
    exact h c rfl

/-- What a placeholder makes of the text behind it: the word of a property begins in the expansion
of the placeholder, where no other word is going on, and takes up all parts of words that come
next. -/
def ReadFrom (inner behind name : List Char) : Prop :=
  ∃ pre suf, mark ++ inner = pre ++ suf ∧ suf ≠ [] ∧ Apart pre ∧
    (suf ++ behind).takeWhile Token.isIdentifierPart = mark ++ name

theorem isIdentifierPart_of_mem_mark_append {name : List Char}
    (h : ∀ c ∈ name, Token.isIdentifierPart c) : ∀ c ∈ mark ++ name, Token.isIdentifierPart c := by
  intro c hc
  rcases List.mem_append.1 hc with hc | hc
  · exact (show ∀ c ∈ mark, Token.isIdentifierPart c by decide) c hc
  · exact h c hc

/-- A word does not begin within a placeholder that is made of parts of words. -/
theorem eq_nil_of_apart {pre suf inner : List Char} (heq : mark ++ inner = pre ++ suf)
    (hinner : ∀ c ∈ inner, Token.isIdentifierPart c) (hapart : Apart pre) : pre = [] := by
  cases pre with
  | nil => rfl
  | cons c pre =>
    have hparts := isIdentifierPart_of_mem_mark_append hinner
    have hblank := hapart (c :: pre) List.suffix_rfl
      (fun d hd ↦ hparts d (heq ▸ List.mem_append_left _ hd)) c List.mem_cons_self
    rw [mark_eq] at heq
    rw [← (List.cons.inj heq).1] at hblank
    exact absurd hblank (by decide)

variable {inner behind name : List Char}

/-- If a placeholder is made of parts of words, all that come next are added to its name. -/
theorem ReadFrom.eq_append (h : ReadFrom inner behind name)
    (hinner : ∀ c ∈ inner, Token.isIdentifierPart c) :
    name = inner ++ behind.takeWhile Token.isIdentifierPart := by
  obtain ⟨pre, suf, heq, -, hapart, hword⟩ := h
  obtain rfl := eq_nil_of_apart heq hinner hapart
  have hparts := isIdentifierPart_of_mem_mark_append hinner
  rw [List.nil_append] at heq
  rw [← heq, List.takeWhile_append_of_pos hparts, List.append_assoc] at hword
  exact (List.append_cancel_left hword).symm

theorem takeWhile_eq_nil_iff {p : Char → Bool} :
    behind.takeWhile p = [] ↔ ∀ c ∈ behind.head?, ¬ p c := by
  cases behind with
  | nil => simp
  | cons c behind => cases h : p c <;> simp [h]

/-- **The name is that of the placeholder exactly if it is made of parts of words and none comes
next.** -/
theorem ReadFrom.name_eq_iff (h : ReadFrom inner behind name) :
    name = inner ↔
      (∀ c ∈ inner, Token.isIdentifierPart c) ∧ ∀ c ∈ behind.head?, ¬ Token.isIdentifierPart c := by
  constructor
  · rintro rfl
    have hinner : ∀ c ∈ name, Token.isIdentifierPart c := by
      obtain ⟨pre, suf, -, -, -, hword⟩ := h
      intro c hc
      have hmem : c ∈ (suf ++ behind).takeWhile Token.isIdentifierPart :=
        hword ▸ List.mem_append_right _ hc
      exact List.mem_takeWhile_imp hmem
    exact ⟨hinner, takeWhile_eq_nil_iff.1 (List.self_eq_append_right.1 (h.eq_append hinner))⟩
  · rintro ⟨hinner, hbehind⟩
    rw [h.eq_append hinner, takeWhile_eq_nil_iff.2 hbehind, List.append_nil]

/-- What comes next is a part of a word in the source exactly if it is in the prepared source. -/
theorem head?_expanded_iff :
    (∀ c ∈ (segments.flatMap Segment.expanded).head?, ¬ Token.isIdentifierPart c) ↔
      ∀ c ∈ (segments.flatMap Segment.text).head?, ¬ Token.isIdentifierPart c := by
  cases segments with
  | nil => rfl
  | cons s segments =>
    cases s with
    | placeholder name =>
      -- The dollar sign of a placeholder is a part of a word, as the mark is.
      simp only [List.flatMap_cons, Segment.expanded, Segment.text, mark_eq]
      exact iff_of_false (fun h ↦ h 'c' rfl (by decide)) fun h ↦ h '$' rfl (by decide)
    | plain | quoted | unclosed => rfl

end Source

namespace Expr

open Source Token

/-- **Every property of a source without the mark is read from a placeholder outside of quotes.** It
has the name of that placeholder exactly if the name is made of parts of words and no such part is
written directly behind the placeholder. -/
theorem property_of_placeholder {source : String} {e : Expr} {name : String}
    (hsource : ofSource source = .ok e) (hmark : ¬ mark <:+: source.toList)
    (hname : Within (.property name) e) :
    ∃ before inner after, Cuts source.toList (before ++ .placeholder inner :: after) ∧
      ReadFrom inner (after.flatMap Segment.expanded) name.toList ∧
      (name.toList = inner ↔ (∀ c ∈ inner, Token.isIdentifierPart c) ∧
        ∀ c ∈ (after.flatMap Segment.text).head?, ¬ Token.isIdentifierPart c) := by
  obtain ⟨front, back, hprepared, hapart, hparts, hback⟩ := exists_spelling hsource hname
  obtain ⟨segments, hcuts, hhidden⟩ := exists_cuts_of_prepared hprepared
  -- The word stands in the expansion as it does with backslashes hidden.
  have hword := isIdentifierPart_of_mem_mark_append hparts
  have hsentinel : ∀ c ∈ mark ++ name.toList, c ∉ sentinel := fun c hc hmem ↦
    not_isIdentifierPart_of_mem_sentinel c hmem (hword c hc)
  obtain ⟨front, back, hexpanded, rfl, rfl⟩ := exists_of_hideBackslashes_eq_append
    (by simp [mark_eq]) hsentinel hhidden.symm
  rw [List.append_assoc] at hexpanded
  obtain ⟨before, inner, after, pre, suf, rfl, rfl, hsplit, hne, hsuf⟩ :=
    exists_placeholder_of_mark (hcuts.flatMap_text.symm ▸ hmark) hexpanded
  have hread : ReadFrom inner (after.flatMap Segment.expanded) name.toList := by
    refine ⟨pre, suf, hsplit, hne, ?_, ?_⟩
    · exact (apart_of_hideBackslashes hapart).of_suffix (List.suffix_append _ _)
    · rw [hsuf, ← List.append_assoc, List.takeWhile_append_of_pos hword,
        takeWhile_eq_nil_iff.2 (head?_of_hideBackslashes hback), List.append_nil]
  exact ⟨before, inner, after, hcuts, hread, by rw [hread.name_eq_iff, head?_expanded_iff]⟩

/-- A property before an operator has the name of its placeholder. -/
theorem property_of_placeholder_sum :
    ∃ e before inner after, ofSource "${a}+1" = .ok e ∧ Within (.property "a") e ∧
      Cuts "${a}+1".toList (before ++ .placeholder inner :: after) ∧
      ("a".toList = inner ↔ (∀ c ∈ inner, Token.isIdentifierPart c) ∧
        ∀ c ∈ (after.flatMap Segment.text).head?, ¬ Token.isIdentifierPart c) := by
  have hsource : ofSource "${a}+1" =
      .ok (.binary (.arithmetic .add) (.property "a") (.number 1)) := by
    with_unfolding_all rfl
  have hmark : ¬ mark <:+: "${a}+1".toList := by decide
  have hname : Within (.property "a") (.binary (.arithmetic .add) (.property "a") (.number 1)) :=
    .part List.mem_cons_self (.refl _)
  obtain ⟨before, inner, after, hcuts, -, hiff⟩ := property_of_placeholder hsource hmark hname
  exact ⟨_, before, inner, after, hsource, hname, hcuts, hiff⟩

/-- A letter behind a placeholder is added to the name. -/
theorem exists_property_of_no_placeholder :
    ∃ e name, ofSource "${a}b" = .ok e ∧ ¬ mark <:+: "${a}b".toList ∧ Within (.property name) e ∧
      ∀ before inner after, Cuts "${a}b".toList (before ++ .placeholder inner :: after) →
        name.toList ≠ inner := by
  refine ⟨.property "ab", "ab", ?_, by decide, .refl _, fun before inner after h ↦ ?_⟩
  · with_unfolding_all rfl
  · have htext : "${a}b".toList = '$' :: '\x7b' :: (['a'] ++ '\x7d' :: ['b']) := by decide
    have hcuts : Cuts "${a}b".toList [.placeholder ['a'], .plain 'b'] := by
      rw [htext]
      exact .placeholder (by decide) (.plain (by decide) (by decide) .nil)
    -- There is only one placeholder in the source.
    have hmem : .placeholder inner ∈ [Segment.placeholder ['a'], .plain 'b'] := by
      rw [hcuts.unique h]
      simp
    obtain rfl : inner = ['a'] := by simpa using hmem
    decide

end Expr

end FeatureStyle
