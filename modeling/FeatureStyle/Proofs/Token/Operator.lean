import FeatureStyle.Proofs.Token.Span
import Mathlib.Data.List.Destutter

/-!
# The symbol that counts

Where a text starts with several symbols of a table, **the longest of them is the one that counts**
(`longestMatch?_eq_some_iff`). There is none only where the text starts with no symbol at all
(`longestMatch?_eq_none_iff`).

It can also be found by sorting: the symbols are put in order with the longest in front, equal
neighbours are merged, and the first symbol that the text starts with is taken. **This comes to the
same** (`firstMatch?_eq_longestMatch?`), whatever the order of symbols of equal length and although
only neighbours are merged. The empty symbol is the exception. Every text starts with it, so that it
would be found where no other symbol is, and no character would be used up.
-/

namespace FeatureStyle.OperatorTable

variable {table : OperatorTable} {text symbol : List Char}

/-- The longer of two symbols is as long as either of them. -/
theorem exists_longer (best : Option (List Char)) (symbol : List Char) :
    ∃ other, longer best symbol = some other ∧ symbol.length ≤ other.length ∧
      ∀ s ∈ best, s.length ≤ other.length := by
  unfold longer
  split
  · exact ⟨symbol, rfl, Nat.le_refl _, nofun⟩
  · next other =>
    split
    · next hlt =>
      refine ⟨symbol, rfl, Nat.le_refl _, ?_⟩
      rintro _ ⟨⟩
      exact Nat.le_of_lt hlt
    · next hle =>
      refine ⟨other, rfl, Nat.le_of_not_lt hle, ?_⟩
      rintro _ ⟨⟩
      exact Nat.le_refl _

theorem length_le_of_foldl_longer {symbols : List (List Char)} {best : Option (List Char)}
    (h : symbols.foldl longer best = some symbol) :
    ∀ s, s ∈ best ∨ s ∈ symbols → s.length ≤ symbol.length := by
  induction symbols generalizing best with
  | nil =>
    intro s hs
    rcases hs with hs | hs
    · rw [List.foldl_nil] at h
      obtain rfl := Option.some.inj (hs.symm.trans h)
      exact Nat.le_refl _
    · cases hs
  | cons head symbols ih =>
    obtain ⟨other, hother, hhead, hbest⟩ := exists_longer best head
    have hle : other.length ≤ symbol.length := ih h other (.inl hother)
    intro s hs
    rcases hs with hs | hs
    · exact Nat.le_trans (hbest s hs) hle
    · rcases List.mem_cons.1 hs with rfl | hs
      · exact Nat.le_trans hhead hle
      · exact ih h s (.inr hs)

theorem foldl_longer_eq_none_iff {symbols : List (List Char)} {best : Option (List Char)} :
    symbols.foldl longer best = none ↔ best = none ∧ symbols = [] := by
  induction symbols generalizing best with
  | nil => simp
  | cons head symbols ih =>
    obtain ⟨other, hother, -, -⟩ := exists_longer best head
    rw [List.foldl_cons, ih, hother]
    simp

/-- The symbols that are compared at the front of a text. -/
theorem mem_filter_isPrefixOf {other : List Char} :
    (other ∈ table.symbols.filter fun s ↦ !s.isEmpty && s.isPrefixOf text) ↔
      other ∈ table.symbols ∧ other ≠ [] ∧ other <+: text := by
  rw [List.mem_filter, Bool.and_eq_true, Bool.not_eq_true', List.isEmpty_eq_false_iff,
    List.isPrefixOf_iff_prefix]

theorem longestMatch?_eq_none_iff :
    table.longestMatch? text = none ↔ ∀ s ∈ table.symbols, s ≠ [] → ¬ s <+: text := by
  rw [longestMatch?, foldl_longer_eq_none_iff, and_iff_right rfl, List.eq_nil_iff_forall_not_mem]
  simp only [mem_filter_isPrefixOf, not_and]

/-- **The longest symbol that the text starts with is the one that counts.** -/
theorem longestMatch?_eq_some_iff :
    table.longestMatch? text = some symbol ↔
      symbol ∈ table.symbols ∧ symbol ≠ [] ∧ symbol <+: text ∧
        ∀ s ∈ table.symbols, s <+: text → s.length ≤ symbol.length := by
  have hlongest {found : List Char} (h : table.longestMatch? text = some found) :
      ∀ s ∈ table.symbols, s <+: text → s.length ≤ found.length := by
    intro s hmem hprefix
    by_cases hs : s = []
    · rw [hs]
      exact Nat.zero_le _
    · exact length_le_of_foldl_longer h s (.inr (mem_filter_isPrefixOf.2 ⟨hmem, hs, hprefix⟩))
  constructor
  · intro h
    obtain ⟨hmem, hne, hprefix⟩ := mem_of_longestMatch? h
    exact ⟨hmem, hne, hprefix, hlongest h⟩
  · rintro ⟨hmem, hne, hprefix, hmax⟩
    cases hfound : table.longestMatch? text with
    | none => exact absurd hprefix (longestMatch?_eq_none_iff.1 hfound symbol hmem hne)
    | some found =>
      obtain ⟨hmem', -, hprefix'⟩ := mem_of_longestMatch? hfound
      have hle : symbol.length ≤ found.length := hlongest hfound symbol hmem hprefix
      have hge : found.length ≤ symbol.length := hmax found hmem' hprefix'
      have hsame : found <+: symbol := List.prefix_of_prefix_length_le hprefix' hprefix hge
      rw [hsame.eq_of_length (Nat.le_antisymm hge hle)]

/-! ### Sorted symbols -/

/-- The symbols of a table with the longest in front, without equal neighbours. Symbols of the same
length stay in their order. -/
def sortedSymbols (table : OperatorTable) : List (List Char) :=
  (table.symbols.mergeSort fun s t ↦ t.length ≤ s.length).destutter (· ≠ ·)

/-- The first of the sorted symbols that the text starts with. -/
def firstMatch? (table : OperatorTable) (text : List Char) : Option (List Char) :=
  table.sortedSymbols.find? fun symbol ↦ symbol.isPrefixOf text

/-- The first hit stays the first one when equal neighbours are merged. -/
theorem find?_destutter {α : Type} [DecidableEq α] (p : α → Bool) (l : List α) :
    (l.destutter (· ≠ ·)).find? p = l.find? p := by
  cases l with
  | nil => rfl
  | cons a l =>
    rw [List.destutter_cons']
    induction l generalizing a with
    | nil => rfl
    | cons b l ih =>
      by_cases hab : a = b
      · subst hab
        rw [List.destutter'_cons_neg _ (not_not.2 rfl), ih]
        cases hp : p a <;> simp [hp]
      · rw [List.destutter'_cons_pos _ hab, List.find?_cons, List.find?_cons, ih]

/-- Of sorted symbols, the first hit is the longest. -/
theorem longest_of_firstMatch? (h : table.firstMatch? text = some symbol) :
    symbol ∈ table.symbols ∧ symbol <+: text ∧
      ∀ s ∈ table.symbols, s <+: text → s.length ≤ symbol.length := by
  rw [firstMatch?, sortedSymbols, find?_destutter, List.find?_eq_some_iff_append] at h
  obtain ⟨hfront, before, behind, hsorted, hbefore⟩ := h
  have hperm := List.mergeSort_perm table.symbols fun s t ↦ t.length ≤ s.length
  have hpairwise : (table.symbols.mergeSort fun s t ↦ t.length ≤ s.length).Pairwise fun s t ↦
      decide (t.length ≤ s.length) :=
    List.pairwise_mergeSort (by simp; omega) (by simp; omega) _
  rw [hsorted] at hperm hpairwise
  refine ⟨hperm.mem_iff.1 (by simp), List.isPrefixOf_iff_prefix.1 hfront, fun s hs hstart ↦ ?_⟩
  rcases List.mem_append.1 (hperm.mem_iff.2 hs) with hs | hs
  · have hno := hbefore s hs
    rw [List.isPrefixOf_iff_prefix.2 hstart] at hno
    cases hno
  · rcases List.mem_cons.1 hs with rfl | hs
    · exact Nat.le_refl _
    · have hle := (List.pairwise_cons.1 (List.pairwise_append.1 hpairwise).2.1).1 s hs
      exact of_decide_eq_true hle

theorem firstMatch?_eq_none_iff :
    table.firstMatch? text = none ↔ ∀ s ∈ table.symbols, ¬ s <+: text := by
  rw [firstMatch?, sortedSymbols, find?_destutter, List.find?_eq_none]
  simp only [List.mem_mergeSort, List.isPrefixOf_iff_prefix]

/-- **Sorting the symbols and taking the first comes to the same**, if none of them is empty. -/
theorem firstMatch?_eq_longestMatch? (hne : [] ∉ table.symbols) (text : List Char) :
    table.firstMatch? text = table.longestMatch? text := by
  have hnonempty {s : List Char} (hs : s ∈ table.symbols) : s ≠ [] := ne_of_mem_of_not_mem hs hne
  rcases hfirst : table.firstMatch? text with - | symbol
  · have hnone := firstMatch?_eq_none_iff.1 hfirst
    exact (longestMatch?_eq_none_iff.2 fun s hs _ ↦ hnone s hs).symm
  · obtain ⟨hmem, hprefix, hlongest⟩ := longest_of_firstMatch? hfirst
    exact (longestMatch?_eq_some_iff.2 ⟨hmem, hnonempty hmem, hprefix, hlongest⟩).symm

/-- The symbols of the default table can be sorted. -/
theorem firstMatch?_default (text : List Char) :
    default.firstMatch? text = default.longestMatch? text :=
  firstMatch?_eq_longestMatch? (by decide) text

end FeatureStyle.OperatorTable
