/-!
# Properties by name

`Properties` keeps something under every one of its names, in the order of the names. **No name is
there twice**, because a property that is put in again takes the place of the one of its name. The
order and that each name is there once are one condition, and every list of properties carries it.
-/

namespace FeatureStyle

/-- Entries with an entry put in: in the place of the one of that name, or before the first later
name. -/
def insertByName {α : Type} (name : String) (a : α) : List (String × α) → List (String × α)
  | [] => [(name, a)]
  | (n, b) :: entries =>
    if name = n then (name, a) :: entries
    else if name < n then (name, a) :: (n, b) :: entries
    else (n, b) :: insertByName name a entries

section Insertion

variable {α : Type} {name : String} {a : α} {entries : List (String × α)}

theorem mem_insertByName {entry : String × α} (h : entry ∈ insertByName name a entries) :
    entry = (name, a) ∨ entry ∈ entries := by
  induction entries with
  | nil => exact .inl (List.mem_singleton.1 h)
  | cons head entries ih =>
    obtain ⟨n, b⟩ := head
    rw [insertByName] at h
    split at h
    · exact (List.mem_cons.1 h).imp_right (List.mem_cons_of_mem _)
    · split at h
      · exact List.mem_cons.1 h
      · rcases List.mem_cons.1 h with rfl | h
        · exact .inr List.mem_cons_self
        · exact (ih h).imp_right (List.mem_cons_of_mem _)

/-- **Putting in an entry keeps the names ascending.** -/
theorem pairwise_insertByName (h : entries.Pairwise fun a b ↦ a.1 < b.1) :
    (insertByName name a entries).Pairwise fun a b ↦ a.1 < b.1 := by
  induction entries with
  | nil => exact List.pairwise_singleton _ _
  | cons head entries ih =>
    obtain ⟨n, b⟩ := head
    obtain ⟨hhead, hentries⟩ := List.pairwise_cons.1 h
    rw [insertByName]
    split
    · next heq =>
      subst heq
      exact List.pairwise_cons.2 ⟨hhead, hentries⟩
    · next hne =>
      split
      · next hlt =>
        refine List.pairwise_cons.2 ⟨fun entry hentry ↦ ?_, h⟩
        rcases List.mem_cons.1 hentry with rfl | hentry
        · exact hlt
        · exact String.lt_trans hlt (hhead entry hentry)
      · next hnlt =>
        refine List.pairwise_cons.2 ⟨fun entry hentry ↦ ?_, ih hentries⟩
        rcases mem_insertByName hentry with rfl | hentry
        · exact String.not_le.1 fun hle ↦ hne (String.le_antisymm hle (String.not_lt.1 hnlt))
        · exact hhead entry hentry

theorem lookup_insertByName (key : String) : (insertByName name a entries).lookup key =
    if key = name then some a else entries.lookup key := by
  induction entries with
  | nil => simp only [insertByName, List.lookup_cons, List.lookup_nil]; grind
  | cons entry entries ih =>
    obtain ⟨n, b⟩ := entry
    simp only [insertByName]
    split
    · subst n; simp only [List.lookup_cons]; grind
    · split
      · simp only [List.lookup_cons]; grind
      · simp only [List.lookup_cons, ih]; grind

end Insertion

/-- Properties under names, in the order of the names and each name once. -/
structure Properties (α : Type) where
  entries : List (String × α)
  ascending : entries.Pairwise fun a b ↦ a.1 < b.1

namespace Properties

variable {α : Type}

/-- No properties. -/
def empty : Properties α := ⟨[], .nil⟩

/-- The properties with one put in. -/
def insert (properties : Properties α) (name : String) (a : α) : Properties α :=
  ⟨insertByName name a properties.entries, pairwise_insertByName properties.ascending⟩

/-- The properties of a list of entries. Of two of one name the later one counts. -/
def ofEntries (entries : List (String × α)) : Properties α :=
  entries.foldl (fun properties (name, a) ↦ properties.insert name a) empty

/-- The property of a name. -/
def get? (properties : Properties α) (name : String) : Option α := properties.entries.lookup name

/-- The number of properties. -/
def size (properties : Properties α) : Nat := properties.entries.length

/-- What is put in is found under its name, and nothing else changes. -/
theorem get?_insert (properties : Properties α) (name key : String) (a : α) :
    (properties.insert name a).get? key = if key = name then some a else properties.get? key :=
  lookup_insertByName key

end Properties

end FeatureStyle
