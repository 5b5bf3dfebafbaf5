import Mathlib.Data.List.Chain

/-!
# Signs in texts

Two equal signs in a row are one operator to a shader compiler, and not two. `SignsApart` says that
this happens nowhere in a text. A text that neither starts nor ends with a sign is `Fenced`, and
**beside a fenced text no sign can meet another one** (`signsApart_append_of_getLast`,
`signsApart_append_of_head`).
-/

namespace FeatureStyle.Text

variable {cs ds : List Char}

/-! What holds of every character of a text is decided on the text alone. Without these instances
it may be decided on all the characters there are. -/

instance decidableForallMemText (cs : List Char) (p : Char → Prop) [DecidablePred p] :
    Decidable (∀ c ∈ cs, p c) :=
  List.decidableBAll p cs

instance decidableForallMemEnd (c? : Option Char) (p : Char → Prop) [DecidablePred p] :
    Decidable (∀ c ∈ c?, p c) :=
  Option.decidableForallMem c?

/-- A plus or a minus. -/
def IsSign (c : Char) : Prop := c = '-' ∨ c = '+'

instance (c : Char) : Decidable (IsSign c) := inferInstanceAs (Decidable (_ ∨ _))

/-- No sign stands twice in a row. -/
def SignsApart (cs : List Char) : Prop := cs.IsChain fun a b ↦ IsSign a → a ≠ b

theorem signsApart_iff :
    SignsApart cs ↔ ¬ "--".toList <:+: cs ∧ ¬ "++".toList <:+: cs := by
  rw [SignsApart, List.isChain_iff_forall_rel_of_append_cons_cons]
  constructor
  · intro h
    constructor <;> rintro ⟨before, after, hcs⟩
    · exact @h '-' '-' before after (by rw [← hcs]; simp) (.inl rfl) rfl
    · exact @h '+' '+' before after (by rw [← hcs]; simp) (.inr rfl) rfl
  · rintro ⟨hminus, hplus⟩ a b before after hcs hsign rfl
    rcases hsign with rfl | rfl
    · exact hminus ⟨before, after, by rw [hcs]; simp⟩
    · exact hplus ⟨before, after, by rw [hcs]; simp⟩

theorem signsApart_append_iff :
    SignsApart (cs ++ ds) ↔ SignsApart cs ∧ SignsApart ds ∧
      ∀ a ∈ cs.getLast?, ∀ b ∈ ds.head?, IsSign a → a ≠ b :=
  List.isChain_append

/-- No sign behind the first text can meet one. -/
theorem signsApart_append_of_getLast (h : ∀ c ∈ cs.getLast?, ¬ IsSign c) :
    SignsApart (cs ++ ds) ↔ SignsApart cs ∧ SignsApart ds := by
  rw [signsApart_append_iff, ← and_assoc, and_iff_left]
  exact fun a ha _ _ hsign ↦ absurd hsign (h a ha)

/-- No sign before the second text can meet one. -/
theorem signsApart_append_of_head (h : ∀ c ∈ ds.head?, ¬ IsSign c) :
    SignsApart (cs ++ ds) ↔ SignsApart cs ∧ SignsApart ds := by
  rw [signsApart_append_iff, ← and_assoc, and_iff_left]
  exact fun a _ b hb hsign hab ↦ h b hb (hab ▸ hsign)

theorem signsApart_singleton (c : Char) : SignsApart [c] := .singleton c

/-- A text without signs. -/
theorem signsApart_of_forall_not (h : ∀ c ∈ cs, ¬ IsSign c) : SignsApart cs := by
  induction cs with
  | nil => exact .nil
  | cons c cs ih =>
    obtain ⟨hc, hcs⟩ := List.forall_mem_cons.1 h
    rw [← List.singleton_append, signsApart_append_of_getLast (by simpa using hc)]
    exact ⟨signsApart_singleton c, ih hcs⟩

/-- A text that a sign can stand before and behind. -/
structure Fenced (cs : List Char) : Prop where
  ne_nil : cs ≠ []
  head : ∀ c ∈ cs.head?, ¬ IsSign c
  last : ∀ c ∈ cs.getLast?, ¬ IsSign c
  apart : SignsApart cs

instance (cs : List Char) : Decidable (SignsApart cs) :=
  inferInstanceAs (Decidable (cs.IsChain _))

instance (cs : List Char) : Decidable (Fenced cs) :=
  decidable_of_iff (cs ≠ [] ∧ (∀ c ∈ cs.head?, ¬ IsSign c) ∧ (∀ c ∈ cs.getLast?, ¬ IsSign c) ∧
    SignsApart cs) ⟨fun ⟨hne, hhead, hlast, hapart⟩ ↦ ⟨hne, hhead, hlast, hapart⟩,
    fun h ↦ ⟨h.ne_nil, h.head, h.last, h.apart⟩⟩

namespace Fenced

variable {es : List Char}

/-- A text without signs. -/
theorem of_forall_not (hne : cs ≠ []) (h : ∀ c ∈ cs, ¬ IsSign c) : Fenced cs where
  ne_nil := hne
  head c hc := h c (List.mem_of_head? hc)
  last c hc := h c (List.mem_of_getLast? hc)
  apart := signsApart_of_forall_not h

/-- What stands between two fenced texts is fenced in. -/
theorem append_append (hcs : Fenced cs) (hds : SignsApart ds) (hes : Fenced es) :
    Fenced (cs ++ (ds ++ es)) where
  ne_nil := by simp [hcs.ne_nil]
  head c hc := hcs.head c (by rwa [List.head?_append_of_ne_nil _ hcs.ne_nil] at hc)
  last c hc := by
    rw [← List.append_assoc, List.getLast?_append_of_ne_nil _ hes.ne_nil] at hc
    exact hes.last c hc
  apart := (signsApart_append_of_getLast hcs.last).2
    ⟨hcs.apart, (signsApart_append_of_head hes.head).2 ⟨hds, hes.apart⟩⟩

end Fenced

end FeatureStyle.Text
