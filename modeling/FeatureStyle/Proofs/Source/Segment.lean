import FeatureStyle.Proofs.Token.Tokenize
import FeatureStyle.Source.Placeholder
import Mathlib.Data.List.TakeWhile

/-!
# The segments of sources

Where the placeholders of a source are, said without preparing it: a source is cut into **segments**
from left to right, and `Cuts source segments` says how. A segment is a character by itself, a
quoted text with its quotes, a placeholder, or the whole rest behind a quote that is never closed.
Nothing inside of quotes is a placeholder, and a placeholder goes up to the next closing brace,
whatever is in between.

**A source is prepared by expanding its segments** (`expandPlaceholders_eq_ok_iff`), and its
placeholders are the same with backslashes hidden (`exists_cuts_of_prepared`).
-/

namespace FeatureStyle.Source

/-- A piece of a source. -/
inductive Segment
  /-- A character that is neither quoted nor part of a placeholder. -/
  | plain (c : Char)
  /-- Text between two equal quotes. -/
  | quoted (quote : Char) (body : List Char)
  /-- Text behind a quote that is never closed. -/
  | unclosed (quote : Char) (body : List Char)
  | placeholder (name : List Char)
  deriving DecidableEq

namespace Segment

/-- What a segment is in the source. -/
def text : Segment → List Char
  | plain c => [c]
  | quoted q body => q :: (body ++ [q])
  | unclosed q body => q :: body
  | placeholder name => '$' :: '\x7b' :: (name ++ ['\x7d'])

/-- What a segment is in the prepared source. -/
def expanded : Segment → List Char
  | placeholder name => mark ++ name
  | s => s.text

end Segment

/-- How a source is cut into segments. -/
inductive Cuts : List Char → List Segment → Prop
  | nil : Cuts [] []
  | plain {c : Char} {cs : List Char} {segments : List Segment} (hquote : ¬ isQuote c)
      (hopen : ¬ (c = '$' ∧ cs.head? = some '\x7b')) (h : Cuts cs segments) :
      Cuts (c :: cs) (.plain c :: segments)
  | quoted {q : Char} {body cs : List Char} {segments : List Segment} (hquote : isQuote q)
      (hbody : q ∉ body) (h : Cuts cs segments) :
      Cuts (q :: (body ++ q :: cs)) (.quoted q body :: segments)
  | unclosed {q : Char} {body : List Char} (hquote : isQuote q) (hbody : q ∉ body) :
      Cuts (q :: body) [.unclosed q body]
  | placeholder {name cs : List Char} {segments : List Segment} (hname : '\x7d' ∉ name)
      (h : Cuts cs segments) :
      Cuts ('$' :: '\x7b' :: (name ++ '\x7d' :: cs)) (.placeholder name :: segments)

variable {cs rest : List Char} {segments : List Segment} {position : Nat}

/-- The segments are the source. -/
theorem Cuts.flatMap_text (h : Cuts cs segments) : segments.flatMap Segment.text = cs := by
  induction h with
  | nil => rfl
  | unclosed => simp [Segment.text]
  | plain _ _ _ ih | quoted _ _ _ ih | placeholder _ _ ih =>
    rw [List.flatMap_cons, ih]
    simp [Segment.text]

/-! ### Texts cut in two -/

/-- A place in a text that is put together of two is in the second one, or a character of the first
one comes next. -/
theorem append_eq_append_cases {as bs cs ds : List Char} (h : as ++ bs = cs ++ ds) :
    (∃ more, cs = as ++ more ∧ bs = more ++ ds) ∨
      ∃ c rest, as = cs ++ c :: rest ∧ ds = c :: rest ++ bs := by
  rcases List.append_eq_append_iff.1 h with hbehind | ⟨rest, rfl, rfl⟩
  · exact .inl hbehind
  · cases rest with
    | nil => exact .inl ⟨[], by simp, by simp⟩
    | cons c rest => exact .inr ⟨c, rest, rfl, rfl⟩

/-! ### Up to a character -/

section UpTo

variable {c : Char} {body : List Char}

theorem forall_decide_ne (h : c ∉ body) : ∀ d ∈ body, decide (d ≠ c) :=
  fun _ hd ↦ decide_eq_true (ne_of_mem_of_not_mem hd h)

/-- What is up to the first of these characters is what comes before it. -/
theorem takeWhile_ne_append (h : c ∉ body) (rest : List Char) :
    (body ++ c :: rest).takeWhile (· ≠ c) = body ∧
      (body ++ c :: rest).dropWhile (· ≠ c) = c :: rest := by
  rw [List.takeWhile_append_of_pos (forall_decide_ne h),
    List.dropWhile_append_of_pos (forall_decide_ne h)]
  simp

/-- Without such a character it is all of the text. -/
theorem takeWhile_ne (h : c ∉ body) :
    body.takeWhile (· ≠ c) = body ∧ body.dropWhile (· ≠ c) = [] :=
  ⟨List.takeWhile_eq_self_iff.2 (forall_decide_ne h),
    List.dropWhile_eq_nil_iff.2 (forall_decide_ne h)⟩

/-- Text is cut in one way at the first character of a kind. -/
theorem eq_of_append_cons_eq {body' rest' : List Char} (h : c ∉ body) (h' : c ∉ body')
    (heq : body ++ c :: rest = body' ++ c :: rest') : body = body' ∧ rest = rest' := by
  have hfirst := takeWhile_ne_append h rest
  rw [heq, (takeWhile_ne_append h' rest').1, (takeWhile_ne_append h' rest').2] at hfirst
  exact ⟨hfirst.1.symm, (List.cons.inj hfirst.2).2.symm⟩

end UpTo

/-- **A source is cut in one way.** -/
theorem Cuts.unique {segments' : List Segment} (h : Cuts cs segments) (h' : Cuts cs segments') :
    segments = segments' := by
  induction h generalizing segments' with
  | nil => cases h'; rfl
  | @plain c cs segments hquote hopen _ ih =>
    generalize hsource : c :: cs = source at h'
    cases h' with
    | nil => cases hsource
    | plain _ _ h' =>
      cases hsource
      rw [ih h']
    | quoted hquote' | unclosed hquote' =>
      cases hsource
      exact absurd hquote' hquote
    | placeholder =>
      cases hsource
      exact absurd ⟨rfl, rfl⟩ hopen
  | @quoted q body cs segments hquote hbody _ ih =>
    generalize hsource : q :: (body ++ q :: cs) = source at h'
    cases h' with
    | nil => cases hsource
    | plain hquote' =>
      cases hsource
      exact absurd hquote hquote'
    | quoted _ hbody' h' =>
      obtain ⟨rfl, htail⟩ := List.cons.inj hsource
      obtain ⟨rfl, rfl⟩ := eq_of_append_cons_eq hbody hbody' htail
      rw [ih h']
    | unclosed _ hbody' =>
      cases hsource
      simp at hbody'
    | placeholder =>
      obtain ⟨rfl, -⟩ := List.cons.inj hsource
      cases hquote
  | @unclosed q body hquote hbody =>
    generalize hsource : q :: body = source at h'
    cases h' with
    | nil => cases hsource
    | plain hquote' =>
      cases hsource
      exact absurd hquote hquote'
    | quoted =>
      cases hsource
      simp at hbody
    | unclosed =>
      cases hsource
      rfl
    | placeholder =>
      cases hsource
      cases hquote
  | @placeholder name cs segments hname _ ih =>
    generalize hsource : '$' :: '\x7b' :: (name ++ '\x7d' :: cs) = source at h'
    cases h' with
    | nil => cases hsource
    | plain _ hopen =>
      cases hsource
      exact absurd ⟨rfl, rfl⟩ hopen
    | quoted hquote | unclosed hquote =>
      obtain ⟨rfl, -⟩ := List.cons.inj hsource
      cases hquote
    | placeholder hname' h' =>
      have htail := (List.cons.inj (List.cons.inj hsource).2).2
      obtain ⟨rfl, rfl⟩ := eq_of_append_cons_eq hname hname' htail
      rw [ih h']

/-! ### Preparing segment by segment -/

/-- A character by itself stays as it is. -/
theorem expandFrom_plain {c : Char} (hquote : ¬ isQuote c)
    (hopen : ¬ (c = '$' ∧ cs.head? = some '\x7b')) :
    expandFrom position (c :: cs) = (expandFrom (position + c.utf8Size) cs).map (c :: ·) := by
  rw [expandFrom, if_neg hquote, if_neg hopen]

/-- So does a quoted text, whatever is in it. -/
theorem expandFrom_quoted {q : Char} {body : List Char} (hquote : isQuote q) (hbody : q ∉ body) :
    expandFrom position (q :: (body ++ q :: cs)) =
      (expandFrom (position + Text.byteLength (q :: (body ++ [q]))) cs).map
        (q :: (body ++ [q]) ++ ·) := by
  obtain ⟨htake, hdrop⟩ := takeWhile_ne_append hbody cs
  rw [expandFrom, if_pos hquote]
  simp only [htake, hdrop]
  rfl

/-- A quote that is never closed takes the rest of the source with it. -/
theorem expandFrom_unclosed {q : Char} {body : List Char} (hquote : isQuote q) (hbody : q ∉ body) :
    expandFrom position (q :: body) = .ok (q :: body) := by
  obtain ⟨htake, hdrop⟩ := takeWhile_ne hbody
  rw [expandFrom, if_pos hquote]
  simp only [htake, hdrop, List.drop_nil, List.take_nil, List.append_nil]
  rw [expandFrom]
  simp [Except.map]

/-- **A placeholder becomes the mark and its name**, with three bytes less in it. -/
theorem expandFrom_placeholder {name : List Char} (hname : '\x7d' ∉ name) :
    expandFrom position ('$' :: '\x7b' :: (name ++ '\x7d' :: cs)) =
      (expandFrom (position + Text.byteLength name + 3) cs).map (mark ++ name ++ ·) := by
  obtain ⟨htake, hdrop⟩ := takeWhile_ne_append hname cs
  rw [expandFrom, if_neg (by decide), if_pos ⟨rfl, rfl⟩]
  simp only [List.tail_cons, htake, hdrop]
  rfl

/-- A placeholder that is never closed is an error where it begins. -/
theorem expandFrom_unmatched (hcs : '\x7d' ∉ cs) :
    expandFrom position ('$' :: '\x7b' :: cs) = .error ⟨position⟩ := by
  rw [expandFrom, if_neg (by decide), if_pos ⟨rfl, rfl⟩]
  simp only [List.tail_cons, (takeWhile_ne hcs).2]
  rfl

/-- **What is prepared has been cut**, and is put together of what the segments become. -/
theorem exists_cuts_of_expandFrom {position : Nat} {cs prepared : List Char}
    (h : expandFrom position cs = .ok prepared) :
    ∃ segments, Cuts cs segments ∧ prepared = segments.flatMap Segment.expanded := by
  match cs with
  | [] =>
    rw [expandFrom] at h
    cases h
    exact ⟨[], .nil, rfl⟩
  | c :: cs =>
    by_cases hquote : isQuote c
    · by_cases hclosed : c ∈ cs
      · obtain ⟨body, rest, rfl, hbody⟩ := List.eq_append_cons_of_mem hclosed
        rw [expandFrom_quoted hquote hbody] at h
        obtain ⟨more, hmore, rfl⟩ := map_eq_ok.1 h
        obtain ⟨segments, hcuts, rfl⟩ := exists_cuts_of_expandFrom hmore
        exact ⟨_, .quoted hquote hbody hcuts, rfl⟩
      · rw [expandFrom_unclosed hquote hclosed] at h
        cases h
        exact ⟨_, .unclosed hquote hclosed, by simp [Segment.expanded, Segment.text]⟩
    · by_cases hopen : c = '$' ∧ cs.head? = some '\x7b'
      · obtain ⟨rfl, hhead⟩ := hopen
        obtain ⟨rest, rfl⟩ := List.head?_eq_some_iff.1 hhead
        by_cases hclosed : '\x7d' ∈ rest
        · obtain ⟨name, rest, rfl, hname⟩ := List.eq_append_cons_of_mem hclosed
          rw [expandFrom_placeholder hname] at h
          obtain ⟨more, hmore, rfl⟩ := map_eq_ok.1 h
          obtain ⟨segments, hcuts, rfl⟩ := exists_cuts_of_expandFrom hmore
          exact ⟨_, .placeholder hname hcuts, rfl⟩
        · rw [expandFrom_unmatched hclosed] at h
          cases h
      · rw [expandFrom_plain hquote hopen] at h
        obtain ⟨more, hmore, rfl⟩ := map_eq_ok.1 h
        obtain ⟨segments, hcuts, rfl⟩ := exists_cuts_of_expandFrom hmore
        exact ⟨_, .plain hquote hopen hcuts, rfl⟩
termination_by cs.length
decreasing_by all_goals (subst_vars; simp only [List.length_append, List.length_cons]; omega)

/-- **Conversely, a source that can be cut is prepared segment by segment**, from every position. -/
theorem Cuts.expandFrom_eq (h : Cuts cs segments) (position : Nat) :
    expandFrom position cs = .ok (segments.flatMap Segment.expanded) := by
  induction h generalizing position with
  | nil => rw [expandFrom]; rfl
  | plain hquote hopen _ ih =>
    rw [expandFrom_plain hquote hopen, ih]
    rfl
  | quoted hquote hbody _ ih =>
    rw [expandFrom_quoted hquote hbody, ih]
    rfl
  | unclosed hquote hbody =>
    rw [expandFrom_unclosed hquote hbody]
    simp [Segment.expanded, Segment.text]
  | placeholder hname _ ih =>
    rw [expandFrom_placeholder hname, ih]
    rfl

/-- **A source is prepared by expanding its segments.** -/
theorem expandPlaceholders_eq_ok_iff {prepared : List Char} :
    expandPlaceholders cs = .ok prepared ↔
      ∃ segments, Cuts cs segments ∧ prepared = segments.flatMap Segment.expanded := by
  constructor
  · exact exists_cuts_of_expandFrom
  · rintro ⟨segments, hcuts, rfl⟩
    exact hcuts.expandFrom_eq 0

/-! ### Hidden backslashes -/

section Backslashes

variable {c q : Char} {body : List Char}

theorem hideBackslashes_backslash (cs : List Char) :
    hideBackslashes ('\\' :: cs) = '@' :: '#' :: '%' :: hideBackslashes cs := rfl

/-- Other characters are not hidden. -/
theorem hideBackslashes_cons (hc : c ≠ '\\') (cs : List Char) :
    hideBackslashes (c :: cs) = c :: hideBackslashes cs := by
  rw [hideBackslashes]
  exact hc

/-- Backslashes are hidden one by one. -/
theorem hideBackslashes_append (cs ds : List Char) :
    hideBackslashes (cs ++ ds) = hideBackslashes cs ++ hideBackslashes ds := by
  induction cs with
  | nil => rfl
  | cons c cs ih =>
    by_cases hc : c = '\\'
    · subst hc
      rw [List.cons_append, hideBackslashes_backslash, hideBackslashes_backslash, ih]
      rfl
    · rw [List.cons_append, hideBackslashes_cons hc, hideBackslashes_cons hc, ih]
      rfl

/-- A text without backslashes stays as it is. -/
theorem hideBackslashes_eq_self (h : '\\' ∉ cs) : hideBackslashes cs = cs := by
  induction cs with
  | nil => rfl
  | cons c cs ih =>
    rw [List.mem_cons, not_or] at h
    rw [hideBackslashes_cons (Ne.symm h.1), ih h.2]

/-- Hiding takes nothing away. -/
theorem eq_nil_of_hideBackslashes (h : hideBackslashes cs = []) : cs = [] := by
  cases cs with
  | nil => rfl
  | cons c cs =>
    by_cases hc : c = '\\'
    · subst hc
      cases h
    · rw [hideBackslashes_cons hc] at h
      cases h

/-- Hiding backslashes keeps every other character. -/
theorem mem_hideBackslashes (hc : c ≠ '\\') (h : c ∈ cs) : c ∈ hideBackslashes cs := by
  obtain ⟨front, back, rfl⟩ := List.append_of_mem h
  rw [hideBackslashes_append, hideBackslashes_cons hc]
  simp

/-- A word without characters of the sentinel stands where it did before backslashes were hidden. -/
theorem exists_of_hideBackslashes_eq_append {front word back : List Char} (hne : word ≠ [])
    (hword : ∀ c ∈ word, c ∉ sentinel) (h : hideBackslashes cs = front ++ (word ++ back)) :
    ∃ front' back', cs = front' ++ (word ++ back') ∧ hideBackslashes front' = front ∧
      hideBackslashes back' = back := by
  induction cs generalizing front word with
  | nil =>
    have hnil : front ++ (word ++ back) = [] := h.symm
    simp [hne] at hnil
  | cons c cs ih =>
    obtain ⟨w, word, rfl⟩ := List.exists_cons_of_ne_nil hne
    have hw : w ∉ sentinel := hword w List.mem_cons_self
    by_cases hc : c = '\\'
    · subst hc
      -- The word does not begin within the sentinel.
      rw [hideBackslashes_backslash] at h
      match front with
      | [] | [_] | [_, _] =>
        simp only [List.cons_append, List.nil_append, List.cons.injEq] at h
        simp [sentinel, ← h] at hw
      | _ :: _ :: _ :: front =>
        simp only [List.cons_append, List.cons.injEq] at h
        obtain ⟨rfl, rfl, rfl, htail⟩ := h
        obtain ⟨front', back', rfl, rfl, hback⟩ := ih hne hword htail
        exact ⟨'\\' :: front', back', rfl, rfl, hback⟩
    · rw [hideBackslashes_cons hc] at h
      cases front with
      | cons f front =>
        obtain ⟨rfl, htail⟩ := List.cons.inj h
        obtain ⟨front', back', rfl, rfl, hback⟩ := ih hne hword htail
        exact ⟨c :: front', back', rfl, hideBackslashes_cons hc front', hback⟩
      | nil =>
        obtain ⟨rfl, htail⟩ := List.cons.inj h
        by_cases hrest : word = []
        · subst hrest
          exact ⟨[], cs, rfl, rfl, htail⟩
        · have hword' : ∀ d ∈ word, d ∉ sentinel := fun d hd ↦ hword d (List.mem_cons_of_mem _ hd)
          obtain ⟨front', back', rfl, hfront, hback⟩ :=
            ih hrest hword' (show hideBackslashes cs = [] ++ (word ++ back) from htail)
          rw [eq_nil_of_hideBackslashes hfront]
          exact ⟨[], back', rfl, rfl, hback⟩

/-- Text is cut at the first character of a kind as it is with backslashes hidden. -/
theorem exists_of_hideBackslashes_eq_append_cons {back : List Char} (hc : c ≠ '\\')
    (hsentinel : c ∉ sentinel) (hbody : c ∉ body)
    (h : hideBackslashes cs = body ++ c :: back) :
    ∃ body' back', cs = body' ++ c :: back' ∧ c ∉ body' ∧ hideBackslashes body' = body ∧
      hideBackslashes back' = back := by
  obtain ⟨body', back', rfl, rfl, hback⟩ :=
    exists_of_hideBackslashes_eq_append (List.cons_ne_nil c []) (by simpa using hsentinel) h
  exact ⟨body', back', rfl, fun hmem ↦ hbody (mem_hideBackslashes hc hmem), rfl, hback⟩

/-- A character that is not in the sentinel is in front of the hidden text exactly if it is in front
of the text. -/
theorem head?_hideBackslashes_iff (hc : c ≠ '\\') (hsentinel : c ∉ sentinel) :
    (hideBackslashes cs).head? = some c ↔ cs.head? = some c := by
  cases cs with
  | nil => rfl
  | cons d cs =>
    by_cases hd : d = '\\'
    · subst hd
      rw [hideBackslashes_backslash]
      refine iff_of_false ?_ fun h ↦ hc (Option.some.inj h).symm
      rintro ⟨⟩
      exact hsentinel (by decide)
    · rw [hideBackslashes_cons hd]
      rfl

theorem ne_backslash_of_isQuote (h : isQuote c) : c ≠ '\\' := by
  rintro rfl
  cases h

theorem not_mem_sentinel_of_isQuote (h : isQuote c) : c ∉ sentinel := by
  simp only [isQuote, Bool.or_eq_true, beq_iff_eq] at h
  rcases h with rfl | rfl <;> decide

/-- A source that begins with neither a quote nor a dollar is cut behind its first character. -/
theorem Cuts.of_plain {segments : List Segment} (hquote : ¬ isQuote c) (hc : c ≠ '$')
    (h : Cuts (c :: cs) segments) : ∃ more, segments = .plain c :: more ∧ Cuts cs more := by
  generalize hsource : c :: cs = source at h
  cases h with
  | nil => cases hsource
  | plain _ _ h =>
    cases hsource
    exact ⟨_, rfl, h⟩
  | quoted hquote' | unclosed hquote' =>
    obtain ⟨rfl, -⟩ := List.cons.inj hsource
    exact absurd hquote' hquote
  | placeholder => exact absurd (List.cons.inj hsource).1 hc

/-- The placeholders are the same with backslashes hidden. -/
theorem exists_cuts_of_hideBackslashes {cs : List Char} {segments : List Segment}
    (h : Cuts (hideBackslashes cs) segments) :
    ∃ segments', Cuts cs segments' ∧ segments.flatMap Segment.expanded =
      hideBackslashes (segments'.flatMap Segment.expanded) := by
  match cs with
  | [] =>
    cases h
    exact ⟨[], .nil, rfl⟩
  | c :: cs =>
    by_cases hc : c = '\\'
    · subst hc
      rw [hideBackslashes_backslash] at h
      obtain ⟨_, rfl, h₁⟩ := h.of_plain (by decide) (by decide)
      obtain ⟨_, rfl, h₂⟩ := h₁.of_plain (by decide) (by decide)
      obtain ⟨more, rfl, h₃⟩ := h₂.of_plain (by decide) (by decide)
      obtain ⟨segments', hcuts, hexpanded⟩ := exists_cuts_of_hideBackslashes h₃
      refine ⟨.plain '\\' :: segments', .plain (by decide) (by simp) hcuts, ?_⟩
      simp only [List.flatMap_cons, hexpanded]
      rfl
    · rw [hideBackslashes_cons hc] at h
      generalize hsource : c :: hideBackslashes cs = source at h
      cases h with
      | nil => cases hsource
      | plain hquote hopen h =>
        obtain ⟨rfl, rfl⟩ := List.cons.inj hsource
        rw [head?_hideBackslashes_iff (by decide) (by decide)] at hopen
        obtain ⟨segments', hcuts, hexpanded⟩ := exists_cuts_of_hideBackslashes h
        refine ⟨.plain c :: segments', .plain hquote hopen hcuts, ?_⟩
        simp only [List.flatMap_cons, hexpanded]
        exact (hideBackslashes_cons hc _).symm
      | quoted hquote hbody h =>
        obtain ⟨rfl, htail⟩ := List.cons.inj hsource
        obtain ⟨body, back, rfl, hbody', rfl, rfl⟩ := exists_of_hideBackslashes_eq_append_cons
          hc (not_mem_sentinel_of_isQuote hquote) hbody htail
        obtain ⟨segments', hcuts, hexpanded⟩ := exists_cuts_of_hideBackslashes h
        refine ⟨.quoted c body :: segments', .quoted hquote hbody' hcuts, ?_⟩
        simp [hexpanded, Segment.expanded, Segment.text, hideBackslashes_append,
          hideBackslashes_cons hc]
      | unclosed hquote hbody =>
        obtain ⟨rfl, rfl⟩ := List.cons.inj hsource
        have hbody' : c ∉ cs := fun hmem ↦ hbody (mem_hideBackslashes hc hmem)
        refine ⟨[.unclosed c cs], .unclosed hquote hbody', ?_⟩
        simp [Segment.expanded, Segment.text, hideBackslashes_cons hc]
      | placeholder hname h =>
        obtain ⟨rfl, htail⟩ := List.cons.inj hsource
        have hhead : (hideBackslashes cs).head? = some '\x7b' := by rw [htail]; rfl
        rw [head?_hideBackslashes_iff (by decide) (by decide)] at hhead
        obtain ⟨rest, rfl⟩ := List.head?_eq_some_iff.1 hhead
        rw [hideBackslashes_cons (by decide)] at htail
        obtain ⟨name, back, rfl, hname', rfl, rfl⟩ := exists_of_hideBackslashes_eq_append_cons
          (by decide) (by decide) hname (List.cons.inj htail).2
        obtain ⟨segments', hcuts, hexpanded⟩ := exists_cuts_of_hideBackslashes h
        refine ⟨.placeholder name :: segments', .placeholder hname' hcuts, ?_⟩
        simp only [List.flatMap_cons, hexpanded, Segment.expanded, hideBackslashes_append]
        rfl
termination_by cs.length

/-- **A source with hidden backslashes is prepared by expanding the segments of the source.** -/
theorem exists_cuts_of_prepared {prepared : List Char}
    (h : expandPlaceholders (hideBackslashes cs) = .ok prepared) :
    ∃ segments, Cuts cs segments ∧
      prepared = hideBackslashes (segments.flatMap Segment.expanded) := by
  obtain ⟨segments, hcuts, rfl⟩ := expandPlaceholders_eq_ok_iff.1 h
  exact exists_cuts_of_hideBackslashes hcuts

end Backslashes

end FeatureStyle.Source
