import FeatureStyle.Document.Json.Reader
import Mathlib.Data.List.Basic

/-!
# Reading JSON documents

One lemma for each form that a value can have says what is read, from what is read of its parts.
The character that a value begins with decides on its form (`JsonText.gives_null` and those after
it), and the character behind an item or an entry on how a list or a map goes on
(`JsonText.gives_items_cons`, `JsonText.gives_entries_cons`).
-/

namespace FeatureStyle

/-- The reader takes something from the front of the text and leaves the rest. -/
def Text.Reading.Gives {α : Type} {text : List Char} (r : Text.Reading α text) (a : α)
    (rest : List Char) : Prop :=
  ∃ h, r = some ⟨a, rest, h⟩

namespace JsonText

variable {text rest rest₁ rest₂ rest₃ rest₄ rest₅ : List Char} {c : Char}

/-- Characters between the parts of a document are passed over. -/
theorem gives_next {blanks : List Char} (hblanks : ∀ b ∈ blanks, isBlank b) (hc : ¬ isBlank c) :
    (next? (blanks ++ c :: rest)).Gives c rest := by
  have hdrop : (blanks ++ c :: rest).dropWhile isBlank = c :: rest := by
    rw [List.dropWhile_append_of_pos hblanks, List.dropWhile_cons_of_neg hc]
  unfold next?
  split
  · next hnil => cases hdrop.symm.trans (congrArg Text.MaybeTaken.rest hnil)
  · next c' rest' h hcons =>
    obtain ⟨rfl, rfl⟩ := List.cons.inj (hdrop.symm.trans (congrArg Text.MaybeTaken.rest hcons))
    exact ⟨h, rfl⟩

/-- The next character may also be the first one. -/
theorem gives_next_cons (hc : ¬ isBlank c) : (next? (c :: rest)).Gives c rest :=
  gives_next (List.forall_mem_nil _) hc

/-! ### Values -/

/-- A datum that begins with `n` can only be null. -/
theorem gives_null (hfirst : (next? text).Gives 'n' ('u' :: 'l' :: 'l' :: rest)) :
    (value? text).Gives .null rest := by
  obtain ⟨h, hfirst⟩ := hfirst
  rw [value?, hfirst]
  exact ⟨_, rfl⟩

theorem gives_true (hfirst : (next? text).Gives 't' ('r' :: 'u' :: 'e' :: rest)) :
    (value? text).Gives (.bool true) rest := by
  obtain ⟨h, hfirst⟩ := hfirst
  rw [value?, hfirst]
  exact ⟨_, rfl⟩

theorem gives_false (hfirst : (next? text).Gives 'f' ('a' :: 'l' :: 's' :: 'e' :: rest)) :
    (value? text).Gives (.bool false) rest := by
  obtain ⟨h, hfirst⟩ := hfirst
  rw [value?, hfirst]
  exact ⟨_, rfl⟩

/-- A quote begins a text. -/
theorem gives_text {cs? : Option (List Char)} (hfirst : (next? text).Gives '"' rest)
    (hbody : (textBody? rest).Gives cs? rest₁) :
    (value? text).Gives (.text (cs?.map String.ofList)) rest₁ := by
  obtain ⟨h, hfirst⟩ := hfirst
  obtain ⟨h₁, hbody⟩ := hbody
  rw [value?, hfirst]
  exact ⟨Nat.lt_trans h₁ h, by
    simp only [Option.bind_eq_bind, Option.bind_some, hbody]
    rfl⟩

/-- A number begins with a character that no other value begins with. -/
theorem gives_number {n : JsonNumber} (hfirst : (next? text).Gives c rest)
    (hc : c ∉ ['[', '\x7b', '"', 'n', 't', 'f']) (hnumber : (number? (c :: rest)).Gives n rest₁) :
    (value? text).Gives (.number n) rest₁ := by
  obtain ⟨h, hfirst⟩ := hfirst
  obtain ⟨h₁, hnumber⟩ := hnumber
  simp only [List.mem_cons, List.not_mem_nil, or_false, not_or] at hc
  obtain ⟨hlist, hmap, htext, hnull, htrue, hfalse⟩ := hc
  rw [value?, hfirst]
  exact ⟨Nat.lt_of_lt_of_le h₁ h, by
    simp only [Option.bind_eq_bind, Option.bind_some, if_neg hlist, if_neg hmap, if_neg htext,
      if_neg hnull, if_neg htrue, if_neg hfalse, hnumber]⟩

/-- A bracket that is closed at once is an empty list. -/
theorem gives_list_nil (hfirst : (next? text).Gives '[' rest)
    (hclose : (next? rest).Gives ']' rest₁) : (value? text).Gives (.list []) rest₁ := by
  obtain ⟨h, hfirst⟩ := hfirst
  obtain ⟨h₁, hclose⟩ := hclose
  rw [value?, hfirst]
  exact ⟨Nat.lt_trans h₁ h, by
    simp only [Option.bind_eq_bind, Option.bind_some, if_true, hclose]⟩

/-- A closing bracket is no item. -/
theorem items?_close {h : rest.length < text.length} (hclose : next? text = some ⟨']', rest, h⟩) :
    items? text = none := by
  have hvalue : value? text = none := by
    rw [value?, hclose]
    rfl
  rw [items?, hvalue]
  rfl

/-- A list that has items is what they are read as. -/
theorem gives_list {items : List JsonPart} (hfirst : (next? text).Gives '[' rest)
    (hitems : (items? rest).Gives items rest₁) : (value? text).Gives (.list items) rest₁ := by
  obtain ⟨h, hfirst⟩ := hfirst
  obtain ⟨h₁, hitems⟩ := hitems
  rw [value?, hfirst]
  refine ⟨Nat.lt_trans h₁ h, ?_⟩
  simp only [Option.bind_eq_bind, Option.bind_some, if_true]
  split
  · next hclose => cases (items?_close hclose).symm.trans hitems
  · rw [hitems]
    rfl

/-- So is a brace an empty map. -/
theorem gives_map_nil (hfirst : (next? text).Gives '\x7b' rest)
    (hclose : (next? rest).Gives '\x7d' rest₁) : (value? text).Gives (.map []) rest₁ := by
  obtain ⟨h, hfirst⟩ := hfirst
  obtain ⟨h₁, hclose⟩ := hclose
  rw [value?, hfirst]
  exact ⟨Nat.lt_trans h₁ h, by
    simp only [Option.bind_eq_bind, Option.bind_some, if_true, hclose]
    rfl⟩

/-- A closing brace is no entry. -/
theorem entries?_close {h : rest.length < text.length}
    (hclose : next? text = some ⟨'\x7d', rest, h⟩) : entries? text = none := by
  rw [entries?, hclose]
  rfl

/-- A map that has entries is what they are read as. -/
theorem gives_map {entries : List (Option String × JsonPart)}
    (hfirst : (next? text).Gives '\x7b' rest) (hentries : (entries? rest).Gives entries rest₁) :
    (value? text).Gives (.map entries) rest₁ := by
  obtain ⟨h, hfirst⟩ := hfirst
  obtain ⟨h₁, hentries⟩ := hentries
  rw [value?, hfirst]
  refine ⟨Nat.lt_trans h₁ h, ?_⟩
  simp only [Option.bind_eq_bind, Option.bind_some, if_true]
  rw [if_neg (by decide)]
  split
  · next hclose => cases (entries?_close hclose).symm.trans hentries
  · rw [hentries]
    rfl

/-! ### Items and entries -/

section Items

variable {item : JsonPart} {items : List JsonPart}

/-- Behind the last item the list is closed. -/
theorem gives_items_last (hitem : (value? text).Gives item rest)
    (hclose : (next? rest).Gives ']' rest₁) : (items? text).Gives [item] rest₁ := by
  obtain ⟨h, hitem⟩ := hitem
  obtain ⟨h₁, hclose⟩ := hclose
  rw [items?, hitem]
  exact ⟨Nat.lt_trans h₁ h, by simp only [Option.bind_eq_bind, Option.bind_some, hclose]⟩

/-- Behind any other there is a comma. -/
theorem gives_items_cons (hitem : (value? text).Gives item rest)
    (hcomma : (next? rest).Gives ',' rest₁) (hitems : (items? rest₁).Gives items rest₂) :
    (items? text).Gives (item :: items) rest₂ := by
  obtain ⟨h, hitem⟩ := hitem
  obtain ⟨h₁, hcomma⟩ := hcomma
  obtain ⟨h₂, hitems⟩ := hitems
  rw [items?, hitem]
  exact ⟨Nat.lt_trans h₂ (Nat.lt_trans h₁ h), by
    simp only [Option.bind_eq_bind, Option.bind_some, hcomma, hitems]⟩

end Items

section Entries

variable {key? : Option (List Char)} {value : JsonPart}
  {entries : List (Option String × JsonPart)}

/-- An entry has a key, a colon and a value, and the map is closed behind the last one. -/
theorem gives_entries_last (hopen : (next? text).Gives '"' rest)
    (hkey : (textBody? rest).Gives key? rest₁) (hcolon : (next? rest₁).Gives ':' rest₂)
    (hvalue : (value? rest₂).Gives value rest₃) (hclose : (next? rest₃).Gives '\x7d' rest₄) :
    (entries? text).Gives [(key?.map String.ofList, value)] rest₄ := by
  obtain ⟨h, hopen⟩ := hopen
  obtain ⟨h₁, hkey⟩ := hkey
  obtain ⟨h₂, hcolon⟩ := hcolon
  obtain ⟨h₃, hvalue⟩ := hvalue
  obtain ⟨h₄, hclose⟩ := hclose
  rw [entries?, hopen]
  exact ⟨by omega, by
    simp only [Option.bind_eq_bind, Option.bind_some, hkey, hcolon, hvalue, hclose]⟩

/-- Behind any other there is a comma. -/
theorem gives_entries_cons (hopen : (next? text).Gives '"' rest)
    (hkey : (textBody? rest).Gives key? rest₁) (hcolon : (next? rest₁).Gives ':' rest₂)
    (hvalue : (value? rest₂).Gives value rest₃) (hcomma : (next? rest₃).Gives ',' rest₄)
    (hentries : (entries? rest₄).Gives entries rest₅) :
    (entries? text).Gives ((key?.map String.ofList, value) :: entries) rest₅ := by
  obtain ⟨h, hopen⟩ := hopen
  obtain ⟨h₁, hkey⟩ := hkey
  obtain ⟨h₂, hcolon⟩ := hcolon
  obtain ⟨h₃, hvalue⟩ := hvalue
  obtain ⟨h₄, hcomma⟩ := hcomma
  obtain ⟨h₅, hentries⟩ := hentries
  rw [entries?, hopen]
  exact ⟨by omega, by
    simp only [Option.bind_eq_bind, Option.bind_some, hkey, hcolon, hvalue, hcomma, hentries]⟩

end Entries

/-- A text is read to its end if only blanks are left behind the value. -/
theorem part?_eq_some {s : String} {part : JsonPart} (h : (value? s.toList).Gives part []) :
    part? s = some part := by
  obtain ⟨h, hvalue⟩ := h
  rw [part?, hvalue]
  rfl

end JsonText

end FeatureStyle
