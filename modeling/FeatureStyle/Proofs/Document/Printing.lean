import FeatureStyle.Proofs.Document.Number

/-!
# JSON values that are read back

`Json.ofText?` is the value that a text denotes: it is read as it is written, and every number
stands for the nearest double. **What is printed for a value denotes the value again**
(`Json.ofText?_pretty`), as long as its numbers are finite.

The text of a value is followed by more text in a list or an object, so that the lemmas are about a
value with blanks before it and any text behind it that no number goes on with. Escapes are undone
character by character (`JsonText.gives_escape`).
-/

namespace FeatureStyle

/-! ### What a text denotes -/

namespace JsonPart

mutual

/-- The JSON value that is written, if all of its texts and keys can be read. -/
def json? : JsonPart → Option Json
  | null => some .null
  | bool b => some (.bool b)
  | number n => some (.number n.nearest)
  | text s? => s?.map .string
  | list items => (jsonItems? items).map .array
  | map entries => (jsonEntries? entries).map .object

/-- The items of a list as JSON values. -/
def jsonItems? : List JsonPart → Option (List Json)
  | [] => some []
  | item :: items => do return (← item.json?) :: (← jsonItems? items)

/-- The entries of a map as those of an object. -/
def jsonEntries? : List (Option String × JsonPart) → Option (List (String × Json))
  | [] => some []
  | (key?, value) :: entries => do return (← key?, ← value.json?) :: (← jsonEntries? entries)

end

end JsonPart

/-- The JSON value that a text denotes. -/
def Json.ofText? (text : String) : Option Json := (JsonText.part? text).bind JsonPart.json?

/-- All numbers in the value are finite. -/
inductive Json.Finite : Json → Prop
  | null : Finite .null
  | bool (b : Bool) : Finite (.bool b)
  | number {x : Float} (hx : x.isFinite) : Finite (.number x)
  | string (s : String) : Finite (.string s)
  | array {items : List Json} (hitems : ∀ j ∈ items, Finite j) : Finite (.array items)
  | object {entries : List (String × Json)} (hentries : ∀ entry ∈ entries, Finite entry.2) :
      Finite (.object entries)

namespace JsonText

variable {rest : List Char} {c : Char}

/-! ### Texts -/

/-- A character is escaped by a letter or by its number, or stands for itself. -/
theorem escape_cases (c : Char) :
    (∃ letter, Json.escape c = ['\\', letter] ∧ letter ≠ 'u' ∧ escaped? letter = some c) ∨
      (c.toNat < 0x20 ∧ Json.escape c =
        ['\\', 'u', '0', '0', Nat.digitChar (c.toNat / 16), Nat.digitChar (c.toNat % 16)]) ∨
      (Json.escape c = [c] ∧ c ≠ '"' ∧ c ≠ '\\' ∧ ¬ c.toNat < 0x20) := by
  fun_cases Json.escape c with
  | case8 c hquotation hbackslash _ _ _ _ _ hcontrol => exact .inr (.inl ⟨hcontrol, rfl⟩)
  | case9 c hquotation hbackslash _ _ _ _ _ hcontrol =>
    exact .inr (.inr ⟨rfl, hquotation, hbackslash, hcontrol⟩)
  | _ => exact .inl ⟨_, rfl, by decide, rfl⟩

/-- The digits of a control character are read as its number. -/
theorem hexUnit?_control : ∀ n < 0x20,
    hexUnit? '0' '0' (Nat.digitChar (n / 16)) (Nat.digitChar (n % 16)) = some n := by
  decide

/-- **A character is read as it was escaped.** -/
theorem gives_escape (c : Char) (rest : List Char) :
    (textChar? (Json.escape c ++ rest)).Gives (some c) rest := by
  rcases escape_cases c with
    ⟨letter, hescape, hletter, hread⟩ | ⟨hcontrol, hescape⟩ | ⟨hescape, -, hbackslash, hcontrol⟩
  · rw [hescape]
    refine ⟨by simp, ?_⟩
    show textChar? ('\\' :: letter :: rest) = _
    rw [textChar?.eq_3 letter rest hletter, hread]
    rfl
  · have hunit := hexUnit?_control c.toNat hcontrol
    have hhigh : isHigh c.toNat = false := by simp [isHigh]; omega
    have hlow : isLow c.toNat = false := by simp [isLow]; omega
    rw [hescape]
    refine ⟨by simp; omega, ?_⟩
    show textChar? ('\\' :: 'u' :: '0' :: '0' :: _ :: _ :: rest) = _
    rw [textChar?.eq_2, escapedUnit?, hunit]
    simp only [Option.map_some, Option.bind_eq_bind, Option.bind_some, hhigh, hlow,
      Bool.false_eq_true, if_false, Char.ofNat_toNat]
  · rw [hescape]
    refine ⟨Nat.lt_succ_self _, (textChar?.eq_4 c rest ?_ ?_).trans (if_neg hcontrol)⟩
    · exact fun _ h _ ↦ hbackslash h
    · exact fun _ _ h _ ↦ hbackslash h

/-- No escape begins with the mark at which a text ends. -/
theorem escape_append_ne (c : Char) {tail : List Char} :
    Json.escape c ++ rest ≠ '"' :: tail := by
  rcases escape_cases c with ⟨_, hescape, -⟩ | ⟨-, hescape⟩ | ⟨hescape, hquotation, -⟩
  · rw [hescape]
    exact fun h ↦ absurd (List.cons.inj h).1 (by decide)
  · rw [hescape]
    exact fun h ↦ absurd (List.cons.inj h).1 (by decide)
  · rw [hescape]
    exact fun h ↦ hquotation (List.cons.inj h).1

/-- A text is read up to the mark at which it ends. -/
theorem gives_textBody (cs rest : List Char) :
    (textBody? (cs.flatMap Json.escape ++ '"' :: rest)).Gives (some cs) rest := by
  induction cs with
  | nil => exact ⟨_, textBody?.eq_1 rest⟩
  | cons c cs ih =>
    obtain ⟨h, ih⟩ := ih
    rw [List.flatMap_cons, List.append_assoc]
    obtain ⟨h', hchar⟩ := gives_escape c (cs.flatMap Json.escape ++ '"' :: rest)
    refine ⟨Nat.lt_trans h h', ?_⟩
    rw [textBody?.eq_2 _ fun _ heq ↦ escape_append_ne c heq, hchar]
    simp only [Option.bind_eq_bind, Option.bind_some, ih]
    rfl

theorem toList_quote (s : String) :
    (Json.quote s).toList ++ rest = '"' :: (s.toList.flatMap Json.escape ++ '"' :: rest) := by
  rw [Json.quote, String.toList_ofList, List.cons_append, List.cons_append, List.append_assoc]
  rfl

/-! ### Lines between brackets -/

theorem toList_newLine (indentation : ℕ) :
    (Json.newLine indentation).toList = '\n' :: List.replicate (2 * indentation) ' ' :=
  String.toList_ofList

theorem isBlank_of_mem_newLine (indentation : ℕ) :
    ∀ b ∈ (Json.newLine indentation).toList, isBlank b := by
  intro b hb
  rw [toList_newLine] at hb
  rcases List.mem_cons.1 hb with rfl | hb
  · rfl
  · rw [List.eq_of_mem_replicate hb]
    rfl

/-- No number goes on with a blank. -/
theorem endsNumber_newLine (indentation : ℕ) :
    EndsNumber ((Json.newLine indentation).toList ++ rest) := by
  intro c hc
  rw [toList_newLine] at hc
  cases Option.some.inj hc
  decide

theorem endsNumber_comma : EndsNumber (',' :: rest) := by
  intro c hc
  cases Option.some.inj hc
  decide

/-- The text of a value is read as the value, wherever it stands: behind blanks and before anything
that no number goes on with. -/
def ReadsBack (j : Json) : Prop :=
  ∀ (indentation : ℕ) (blanks rest : List Char), (∀ b ∈ blanks, isBlank b) → EndsNumber rest →
    ∃ part, (value? (blanks ++ ((j.prettyAt indentation).toList ++ rest))).Gives part rest ∧
      part.json? = some j

/-- The lines of a block from the blanks before the first one to what comes behind the last one. -/
def linesText (line : List Char) (lines : List String) (behind : List Char) : List Char :=
  line ++ (List.intercalate (',' :: line) (lines.map String.toList) ++ behind)

theorem linesText_singleton (line : List Char) (s : String) (behind : List Char) :
    linesText line [s] behind = line ++ (s.toList ++ behind) := by
  rw [linesText, List.map_singleton, List.intercalate_singleton]

theorem linesText_cons_cons (line : List Char) (s t : String) (lines : List String)
    (behind : List Char) : linesText line (s :: t :: lines) behind =
      line ++ (s.toList ++ ',' :: linesText line (t :: lines) behind) := by
  rw [linesText, linesText, List.map_cons, List.map_cons, List.intercalate_cons_cons,
    List.append_assoc, List.append_assoc, List.cons_append]

theorem toList_block_nil (opening closing : String) (indentation : ℕ) :
    (Json.block opening closing indentation []).toList = opening.toList ++ closing.toList :=
  String.toList_append

/-- Brackets with lines between them have every line on its own, and commas between the lines. -/
theorem toList_block (opening closing : String) (indentation : ℕ) {lines : List String}
    (hlines : lines ≠ []) (rest : List Char) :
    (Json.block opening closing indentation lines).toList ++ rest =
      opening.toList ++ linesText (Json.newLine (indentation + 1)).toList lines
        ((Json.newLine indentation).toList ++ (closing.toList ++ rest)) := by
  obtain ⟨s, lines, rfl⟩ := List.exists_cons_of_ne_nil hlines
  simp only [Json.block, linesText, String.toList_append, String.toList_intercalate,
    List.append_assoc]
  rfl

/-- The closing bracket is found behind the last line. -/
theorem gives_next_close {closing : Char} (hclosing : ¬ isBlank closing) (indentation : ℕ)
    (rest : List Char) :
    (next? ((Json.newLine indentation).toList ++ closing :: rest)).Gives closing rest :=
  gives_next (isBlank_of_mem_newLine indentation) hclosing

/-- The texts of items are read as the items. -/
theorem exists_gives_items {items : List Json} (hne : items ≠ [])
    (hitems : ∀ j ∈ items, ReadsBack j) (indentation outer : ℕ) (rest : List Char) :
    ∃ parts, (items? (linesText (Json.newLine indentation).toList
        (Json.prettyItems indentation items)
        ((Json.newLine outer).toList ++ ']' :: rest))).Gives parts rest ∧
      JsonPart.jsonItems? parts = some items := by
  induction items with
  | nil => exact absurd rfl hne
  | cons j items ih =>
    obtain ⟨hj, hitems⟩ := List.forall_mem_cons.1 hitems
    cases items with
    | nil =>
      obtain ⟨part, hpart, hvalue⟩ :=
        hj indentation _ _ (isBlank_of_mem_newLine indentation) (endsNumber_newLine outer)
      rw [Json.prettyItems, Json.prettyItems, linesText_singleton]
      refine ⟨[part], gives_items_last hpart (gives_next_close (by decide) outer rest), ?_⟩
      rw [JsonPart.jsonItems?, hvalue]
      rfl
    | cons k items =>
      obtain ⟨part, hpart, hvalue⟩ :=
        hj indentation _ _ (isBlank_of_mem_newLine indentation) endsNumber_comma
      obtain ⟨parts, hparts, hvalues⟩ := ih (List.cons_ne_nil _ _) hitems
      rw [Json.prettyItems] at hparts
      rw [Json.prettyItems, Json.prettyItems, linesText_cons_cons]
      refine ⟨part :: parts, gives_items_cons hpart ?_ hparts, ?_⟩
      · exact gives_next_cons (by decide)
      · rw [JsonPart.jsonItems?, hvalue, hvalues]
        rfl

/-- The texts of entries are read as the entries. -/
theorem exists_gives_entries {entries : List (String × Json)} (hne : entries ≠ [])
    (hentries : ∀ entry ∈ entries, ReadsBack entry.2) (indentation outer : ℕ)
    (rest : List Char) :
    ∃ parts, (entries? (linesText (Json.newLine indentation).toList
        (Json.prettyEntries indentation entries)
        ((Json.newLine outer).toList ++ '\x7d' :: rest))).Gives parts rest ∧
      JsonPart.jsonEntries? parts = some entries := by
  induction entries with
  | nil => exact absurd rfl hne
  | cons entry entries ih =>
    obtain ⟨key, j⟩ := entry
    obtain ⟨hj, hentries⟩ := List.forall_mem_cons.1 hentries
    -- An entry is its key, a colon and a blank, and its value.
    have hentry (behind : List Char) : (Json.quote key ++ ": " ++ j.prettyAt indentation).toList ++
        behind = '"' :: (key.toList.flatMap Json.escape ++
          '"' :: ':' :: ([' '] ++ ((j.prettyAt indentation).toList ++ behind))) := by
      rw [String.toList_append, String.toList_append, List.append_assoc, List.append_assoc,
        toList_quote]
      rfl
    have hcolon (behind : List Char) : (next? (':' :: behind)).Gives ':' behind :=
      gives_next_cons (by decide)
    have hblank : ∀ b ∈ [' '], isBlank b := List.forall_mem_singleton.2 rfl
    cases entries with
    | nil =>
      obtain ⟨part, hpart, hvalue⟩ := hj indentation [' '] _ hblank (endsNumber_newLine outer)
      rw [Json.prettyEntries, Json.prettyEntries, linesText_singleton, hentry]
      refine ⟨[(_, part)], gives_entries_last
        (gives_next (isBlank_of_mem_newLine indentation) (by decide))
        (gives_textBody key.toList _) (hcolon _) hpart
        (gives_next_close (by decide) outer rest), ?_⟩
      rw [JsonPart.jsonEntries?, hvalue, Option.map_some, String.ofList_toList]
      rfl
    | cons k entries =>
      obtain ⟨part, hpart, hvalue⟩ := hj indentation [' '] _ hblank endsNumber_comma
      obtain ⟨parts, hparts, hvalues⟩ := ih (List.cons_ne_nil _ _) hentries
      rw [Json.prettyEntries] at hparts
      rw [Json.prettyEntries, Json.prettyEntries, linesText_cons_cons, hentry]
      refine ⟨(_, part) :: parts, gives_entries_cons
        (gives_next (isBlank_of_mem_newLine indentation) (by decide))
        (gives_textBody key.toList _) (hcolon _) hpart ?_ hparts, ?_⟩
      · exact gives_next_cons (by decide)
      · rw [JsonPart.jsonEntries?, hvalue, hvalues, Option.map_some, String.ofList_toList]
        rfl

theorem readsBack_array {items : List Json} (h : ∀ j ∈ items, ReadsBack j) :
    ReadsBack (.array items) := by
  intro indentation blanks rest hblanks hrest
  rw [Json.prettyAt]
  cases items with
  | nil =>
    rw [Json.prettyItems, toList_block_nil]
    refine ⟨.list [], gives_list_nil (gives_next (c := '[') hblanks (by decide))
      (gives_next_cons (by decide)), ?_⟩
    rw [JsonPart.json?, JsonPart.jsonItems?, Option.map_some]
  | cons j items =>
    have hlines : Json.prettyItems (indentation + 1) (j :: items) ≠ [] := by
      rw [Json.prettyItems]
      exact List.cons_ne_nil _ _
    obtain ⟨parts, hparts, hvalues⟩ :=
      exists_gives_items (List.cons_ne_nil j items) h (indentation + 1) indentation rest
    rw [toList_block _ _ _ hlines]
    refine ⟨.list parts, gives_list (gives_next (c := '[') hblanks (by decide)) hparts, ?_⟩
    rw [JsonPart.json?, hvalues, Option.map_some]

theorem readsBack_object {entries : List (String × Json)}
    (h : ∀ entry ∈ entries, ReadsBack entry.2) : ReadsBack (.object entries) := by
  intro indentation blanks rest hblanks hrest
  rw [Json.prettyAt]
  cases entries with
  | nil =>
    rw [Json.prettyEntries, toList_block_nil]
    refine ⟨.map [], gives_map_nil (gives_next (c := '\x7b') hblanks (by decide))
      (gives_next_cons (by decide)), ?_⟩
    rw [JsonPart.json?, JsonPart.jsonEntries?, Option.map_some]
  | cons entry entries =>
    have hlines : Json.prettyEntries (indentation + 1) (entry :: entries) ≠ [] := by
      obtain ⟨key, j⟩ := entry
      rw [Json.prettyEntries]
      exact List.cons_ne_nil _ _
    obtain ⟨parts, hparts, hvalues⟩ :=
      exists_gives_entries (List.cons_ne_nil entry entries) h (indentation + 1) indentation rest
    rw [toList_block _ _ _ hlines]
    refine ⟨.map parts, gives_map (gives_next (c := '\x7b') hblanks (by decide)) hparts, ?_⟩
    rw [JsonPart.json?, hvalues, Option.map_some]

/-- No value but a number begins with a sign or a digit. -/
theorem gives_number_of_first {n : JsonNumber} {blanks text : List Char}
    (hblanks : ∀ b ∈ blanks, isBlank b) (hnumber : (number? text).Gives n rest) :
    (value? (blanks ++ text)).Gives (.number n) rest := by
  obtain ⟨c, tail, rfl, hc⟩ := exists_eq_cons_of_number hnumber
  refine gives_number (gives_next hblanks ?_) ?_ hnumber
  · intro hblank
    simp only [isBlank, Bool.or_eq_true, beq_iff_eq] at hblank
    rcases hblank with ((rfl | rfl) | rfl) | rfl <;> exact absurd hc (by decide)
  · intro hmem
    simp only [List.mem_cons, List.not_mem_nil, or_false] at hmem
    rcases hmem with rfl | rfl | rfl | rfl | rfl | rfl <;> exact absurd hc (by decide)

/-- **A value with finite numbers is read back** from its text. -/
theorem readsBack_of_finite {j : Json} (h : j.Finite) : ReadsBack j := by
  induction h with
  | null =>
    intro indentation blanks rest hblanks hrest
    rw [Json.prettyAt]
    exact ⟨.null, gives_null (gives_next (c := 'n') hblanks (by decide)), by rw [JsonPart.json?]⟩
  | bool b =>
    intro indentation blanks rest hblanks hrest
    rw [Json.prettyAt]
    cases b with
    | true =>
      exact ⟨.bool true, gives_true (gives_next (c := 't') hblanks (by decide)),
        by rw [JsonPart.json?]⟩
    | false =>
      exact ⟨.bool false, gives_false (gives_next (c := 'f') hblanks (by decide)),
        by rw [JsonPart.json?]⟩
  | number hx =>
    intro indentation blanks rest hblanks hrest
    obtain ⟨text, n, htext, hnumber, hnearest⟩ := exists_number_jsonText? hx hrest
    rw [Json.prettyAt, htext, Option.getD_some]
    exact ⟨.number n, gives_number_of_first hblanks hnumber, by rw [JsonPart.json?, hnearest]⟩
  | string s =>
    intro indentation blanks rest hblanks hrest
    rw [Json.prettyAt, toList_quote]
    refine ⟨.text _, gives_text (gives_next hblanks (by decide)) (gives_textBody s.toList _), ?_⟩
    rw [JsonPart.json?, Option.map_some, Option.map_some, String.ofList_toList]
  | array _ ih => exact readsBack_array ih
  | object _ ih => exact readsBack_object ih

end JsonText

/-- **What is printed for a value denotes the value**, if its numbers are finite. -/
theorem Json.ofText?_pretty {j : Json} (h : j.Finite) : Json.ofText? j.pretty = some j := by
  obtain ⟨part, hread, hvalue⟩ := JsonText.readsBack_of_finite h 0 [] [] nofun nofun
  rw [List.append_nil] at hread
  rw [Json.ofText?, Json.pretty, JsonText.part?_eq_some hread]
  exact hvalue

end FeatureStyle
