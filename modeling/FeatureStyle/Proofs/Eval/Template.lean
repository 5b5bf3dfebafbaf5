import FeatureStyle.Proofs.Eval.Influence

/-!
# Templates as they are written

What a template means, said in passages rather than character by character. A **writing** is a
literal and after it any number of passages, each of them a placeholder and the literal behind it. A
literal contains no `${`, although it may end in a `$` and contain braces of its own; a name
contains no `}` and is on one line.

`pieces` matches the pattern of a placeholder from left to right, takes the shortest match where
there is one and goes on behind it (`matching_iff`). So it finds the placeholders of a writing and
nothing else (`pieces_text`), and **a template is evaluated to what is written, with the text of its
property in the place of each name** (`evaluateIn_template_text`). The texts that are put in are not
read: no question is asked but for the names of the writing.
-/

namespace FeatureStyle

namespace Template

variable {cs rest : List Char} {name : String}

/-! ### Placeholders -/

/-- The name of a placeholder: it does not contain what ends one, and it is on one line. -/
def IsName (name : String) : Prop := '\x7d' ∉ name.toList ∧ '\n' ∉ name.toList

/-- A name is made of the characters that may stand in one. -/
theorem isName_iff : IsName name ↔ ∀ c ∈ name.toList, isNamePart c := by
  simp only [IsName, isNamePart, Bool.and_eq_true, decide_eq_true_eq, ne_eq]
  constructor
  · rintro ⟨hbrace, hnewline⟩ c hc
    exact ⟨ne_of_mem_of_not_mem hc hbrace, ne_of_mem_of_not_mem hc hnewline⟩
  · exact fun h ↦ ⟨fun hc ↦ (h _ hc).1 rfl, fun hc ↦ (h _ hc).2 rfl⟩

/-- A name is read up to the first brace that ends it. -/
theorem readPlaceholder?_eq_some_iff :
    readPlaceholder? cs = some (name, rest) ↔ cs = name.toList ++ '\x7d' :: rest ∧ IsName name := by
  rw [isName_iff]
  constructor
  · intro h
    have hcs := cs.takeWhile_append_dropWhile (p := isNamePart)
    unfold readPlaceholder? at h
    split at h
    · next rest' hdrop =>
      obtain ⟨rfl, rfl⟩ := Prod.mk.inj (Option.some.inj h)
      rw [String.toList_ofList, ← hdrop]
      exact ⟨hcs.symm, List.all_eq_true.1 List.all_takeWhile⟩
    · cases h
  · rintro ⟨rfl, hname⟩
    have hstop : ¬ isNamePart '\x7d' := by decide
    rw [readPlaceholder?, List.dropWhile_append_of_pos hname, List.takeWhile_append_of_pos hname,
      List.dropWhile_cons_of_neg hstop, List.takeWhile_cons_of_neg hstop, List.append_nil,
      String.ofList_toList]
    rfl

/-- A placeholder is opened exactly where a name and its end follow. -/
theorem openPlaceholder?_eq_some_iff :
    openPlaceholder? cs = some (name, rest) ↔
      cs = '$' :: '\x7b' :: (name.toList ++ '\x7d' :: rest) ∧ IsName name := by
  unfold openPlaceholder?
  split
  · next cs => rw [readPlaceholder?_eq_some_iff, List.cons.injEq, List.cons.injEq]; simp
  · next hopen => exact iff_of_false nofun fun h ↦ hopen _ h.1

/-- The pattern of a placeholder matches at the front of the text: `${`, any characters of one line,
and `}`. -/
structure Matches (cs body rest : List Char) : Prop where
  eq : cs = '$' :: '\x7b' :: (body ++ '\x7d' :: rest)
  newline_notMem : '\n' ∉ body

/-- **A placeholder is the shortest match** of its pattern. -/
theorem openPlaceholder?_eq_some_iff_shortest :
    openPlaceholder? cs = some (name, rest) ↔
      Matches cs name.toList rest ∧
        ∀ body rest', Matches cs body rest' → name.toList.length ≤ body.length := by
  rw [openPlaceholder?_eq_some_iff]
  constructor
  · rintro ⟨rfl, hbrace, hnewline⟩
    refine ⟨⟨rfl, hnewline⟩, fun body rest' h ↦ ?_⟩
    have heq : name.toList ++ '\x7d' :: rest = body ++ '\x7d' :: rest' :=
      (List.cons.inj (List.cons.inj h.eq).2).2
    rcases List.append_eq_append_iff.1 heq with ⟨more, rfl, -⟩ | ⟨more, hname, hmore⟩
    · rw [List.length_append]
      exact Nat.le_add_right _ _
    · -- The name goes on behind the match, so that it would contain the brace there.
      rcases List.cons_eq_append_iff.1 hmore with ⟨rfl, -⟩ | ⟨more, rfl, -⟩
      · rw [List.append_nil] at hname
        exact Nat.le_of_eq (congrArg List.length hname)
      · rw [hname] at hbrace
        simp at hbrace
  · rintro ⟨⟨rfl, hnewline⟩, hshortest⟩
    refine ⟨rfl, fun hbrace ↦ ?_, hnewline⟩
    obtain ⟨body, more, hname, -⟩ := List.eq_append_cons_of_mem hbrace
    rw [hname] at hnewline hshortest
    have hle := hshortest body (more ++ '\x7d' :: rest)
      ⟨by rw [List.append_assoc, List.cons_append],
        fun hc ↦ hnewline (List.mem_append_left _ hc)⟩
    rw [List.length_append, List.length_cons] at hle
    omega

/-- There is no placeholder only where there is no match. -/
theorem openPlaceholder?_eq_none_iff :
    openPlaceholder? cs = none ↔ ∀ body rest, ¬ Matches cs body rest := by
  constructor
  · rintro hnone body rest ⟨rfl, hnewline⟩
    have hopen {name more : List Char} (heq : body ++ '\x7d' :: rest = name ++ '\x7d' :: more)
        (hbrace : '\x7d' ∉ name) (hnewline : '\n' ∉ name) : False := by
      have hsome : openPlaceholder? ('$' :: '\x7b' :: (body ++ '\x7d' :: rest)) =
          some (String.ofList name, more) := by
        rw [openPlaceholder?_eq_some_iff, IsName, String.toList_ofList, heq]
        exact ⟨rfl, hbrace, hnewline⟩
      rw [hnone] at hsome
      cases hsome
    -- The placeholder ends at the first brace behind its opening, perhaps inside of the body.
    by_cases hbrace : '\x7d' ∈ body
    · obtain ⟨name, more, rfl, hname⟩ := List.eq_append_cons_of_mem hbrace
      exact hopen (List.append_assoc _ _ _) hname fun hc ↦ hnewline (List.mem_append_left _ hc)
    · exact hopen rfl hbrace hnewline
  · intro h
    refine Option.eq_none_iff_forall_ne_some.2 fun ⟨name, rest⟩ hsome ↦ ?_
    exact h _ _ (openPlaceholder?_eq_some_iff_shortest.1 hsome).1

/-! ### Matching from left to right -/

/-- Where a placeholder is opened it is a piece, and matching goes on behind it. -/
theorem pieces_of_openPlaceholder (h : openPlaceholder? cs = some (name, rest)) :
    pieces cs = .placeholder name :: pieces rest := by
  cases cs with
  | nil => cases h
  | cons c cs =>
    rw [pieces]
    split
    · next heq =>
      obtain ⟨rfl, rfl⟩ := Prod.mk.inj (Option.some.inj (heq.symm.trans h))
      rfl
    · next heq => cases heq.symm.trans h

/-- Where none is, the character is a piece by itself. -/
theorem pieces_cons {c : Char} (h : openPlaceholder? (c :: cs) = none) :
    pieces (c :: cs) = .char c :: pieces cs := by
  rw [pieces]
  split
  · next heq => cases heq.symm.trans h
  · rfl

/-- The text is cut up by matching the pattern from left to right: at the first place where it
matches the shortest match is taken, and matching goes on behind it. -/
inductive Matching : List Char → List Piece → Prop
  | nil : Matching [] []
  | placeholder {cs rest : List Char} {name : String} {ps : List Piece}
      (h : Matches cs name.toList rest)
      (hshortest : ∀ body rest', Matches cs body rest' → name.toList.length ≤ body.length)
      (hrest : Matching rest ps) : Matching cs (.placeholder name :: ps)
  | char {c : Char} {cs : List Char} {ps : List Piece}
      (h : ∀ body rest, ¬ Matches (c :: cs) body rest) (hrest : Matching cs ps) :
      Matching (c :: cs) (.char c :: ps)

/-- **The pieces are those of matching from left to right.** -/
theorem matching_iff {ps : List Piece} : Matching cs ps ↔ pieces cs = ps := by
  constructor
  · intro h
    induction h with
    | nil => exact pieces.eq_1
    | placeholder h hshortest _ ih =>
      rw [pieces_of_openPlaceholder (openPlaceholder?_eq_some_iff_shortest.2 ⟨h, hshortest⟩), ih]
    | char h _ ih => rw [pieces_cons (openPlaceholder?_eq_none_iff.2 h), ih]
  · rintro rfl
    induction cs using pieces.induct with
    | case1 =>
      rw [pieces]
      exact .nil
    | case2 c cs name rest hopen ih =>
      obtain ⟨hmatch, hshortest⟩ := openPlaceholder?_eq_some_iff_shortest.1 hopen
      rw [pieces_of_openPlaceholder hopen]
      exact .placeholder hmatch hshortest ih
    | case3 c cs hopen ih =>
      rw [pieces_cons hopen]
      exact .char (openPlaceholder?_eq_none_iff.1 hopen) ih

/-! ### Writings -/

/-- A literal: no placeholder is opened in it. -/
def IsLiteral (text : String) : Prop := ¬ ['$', '\x7b'] <:+: text.toList

/-- A placeholder and the literal behind it. -/
structure Passage where
  name : String
  literal : String
  isName : IsName name
  isLiteral : IsLiteral literal

/-- A template as it is written: a literal, and passages behind it. -/
structure Writing where
  front : String
  passages : List Passage
  isLiteral : IsLiteral front

/-- What a passage is in the template. -/
def Passage.text (p : Passage) : String := "$\x7b" ++ p.name ++ "\x7d" ++ p.literal

namespace Writing

variable (w : Writing)

/-- The template. -/
def text : String := w.front ++ String.join (w.passages.map Passage.text)

/-- The names of the placeholders, in order. -/
def names : List String := w.passages.map Passage.name

/-- What is written, with a text in the place of each placeholder. -/
def filled (texts : String → String) : String :=
  w.front ++ String.join (w.passages.map fun p ↦ texts p.name ++ p.literal)

end Writing

/-! ### The pieces of a writing -/

/-- The pieces of a literal are its characters, whatever comes behind it that does not open a
placeholder together with its end. -/
theorem pieces_literal {literal : List Char} (hliteral : ¬ ['$', '\x7b'] <:+: literal)
    (hrest : rest.head? ≠ some '\x7b') :
    pieces (literal ++ rest) = literal.map Piece.char ++ pieces rest := by
  induction literal with
  | nil => rfl
  | cons c cs ih =>
    have hnone : openPlaceholder? (c :: (cs ++ rest)) = none := by
      refine Option.eq_none_iff_forall_ne_some.2 fun ⟨name, after⟩ h ↦ ?_
      obtain ⟨rfl, hcs⟩ := List.cons.inj (openPlaceholder?_eq_some_iff.1 h).1
      cases cs with
      | nil => exact hrest (congrArg List.head? hcs)
      | cons d cs =>
        obtain ⟨rfl, -⟩ := List.cons.inj hcs
        exact hliteral ((List.prefix_append ['$', '\x7b'] cs).isInfix)
    rw [List.cons_append, pieces_cons hnone, ih fun h ↦ hliteral (List.infix_cons h)]
    rfl

/-- **A placeholder that is written is found**, whatever is behind it. -/
theorem pieces_placeholder (hname : IsName name) (rest : List Char) :
    pieces ('$' :: '\x7b' :: (name.toList ++ '\x7d' :: rest)) = .placeholder name :: pieces rest :=
  pieces_of_openPlaceholder (openPlaceholder?_eq_some_iff.2 ⟨rfl, hname⟩)

namespace Passage

/-- The pieces of a passage. -/
def pieces (p : Passage) : List Piece := .placeholder p.name :: p.literal.toList.map .char

/-- Passages begin with a dollar, if there are any. -/
theorem head?_join (passages : List Passage) :
    (String.join (passages.map text)).toList.head? ≠ some '\x7b' := by
  cases passages with
  | nil => exact nofun
  | cons p ps =>
    rw [List.map_cons, String.join_cons, text]
    simp

/-- **The pieces of passages are found one passage after the other.** -/
theorem pieces_join (passages : List Passage) :
    Template.pieces (String.join (passages.map text)).toList = passages.flatMap pieces := by
  induction passages with
  | nil => rw [List.map_nil, String.join_nil]; exact Template.pieces.eq_1
  | cons p ps ih =>
    have htext : (String.join ((p :: ps).map text)).toList =
        '$' :: '\x7b' :: (p.name.toList ++ '\x7d' ::
          (p.literal.toList ++ (String.join (ps.map text)).toList)) := by
      rw [List.map_cons, String.join_cons, text]
      simp
    rw [htext, pieces_placeholder p.isName, pieces_literal p.isLiteral (head?_join ps), ih]
    rfl

end Passage

/-- **The pieces of a writing are its literals, character by character, and its placeholders.** -/
theorem pieces_text (w : Writing) :
    pieces w.text.toList = w.front.toList.map .char ++ w.passages.flatMap Passage.pieces := by
  rw [Writing.text, String.toList_append,
    pieces_literal w.isLiteral (Passage.head?_join w.passages), Passage.pieces_join]

/-! ### Filling in -/

/-- A value other than null and undefined is put in as it is displayed. -/
theorem propertyText_of_ne {v : Value} (hnull : v ≠ .null) (hundefined : v ≠ .undefined) :
    propertyText (some v) = v.text := by
  cases v with
  | null => exact absurd rfl hnull
  | undefined => exact absurd rfl hundefined
  | _ => rfl

section Fill

variable (s : Subject)

/-- What is in the place of a piece when it is filled in. -/
def Piece.filled : Piece → String
  | char c => String.singleton c
  | placeholder name => propertyText (s.property name)

/-- What is asked to fill in a piece. -/
def Piece.asked : Piece → List Query
  | char _ => []
  | placeholder name => [.property name]

/-- Filling in a piece gives what is in its place. -/
theorem Piece.run_fill (p : Piece) : p.fill.run s = p.filled s := by
  cases p <;> rfl

/-- It asks for the name of a placeholder, and for nothing else. -/
theorem Piece.calls_fill (p : Piece) : p.fill.calls s = p.asked := by
  cases p <;> rfl

/-- Pieces are filled in one behind the other. -/
theorem run_fillPieces (ps : List Piece) :
    (fillPieces ps).run s = String.join (ps.map (Piece.filled s)) := by
  induction ps with
  | nil => rfl
  | cons p ps ih =>
    rw [fillPieces, Dialogue.run_bind, Dialogue.run_bind, p.run_fill, ih, List.map_cons,
      String.join_cons]
    rfl

/-- They ask in this order. -/
theorem calls_fillPieces (ps : List Piece) : (fillPieces ps).calls s = ps.flatMap Piece.asked := by
  induction ps with
  | nil => rfl
  | cons p ps ih =>
    rw [fillPieces, Dialogue.calls_bind, Dialogue.calls_bind, p.calls_fill, ih, List.flatMap_cons]
    exact congrArg _ (List.append_nil _)

/-- What is in the place of the pieces of a text, as characters. -/
theorem toList_run_fillPieces (ps : List Piece) :
    ((fillPieces ps).run s).toList = ps.flatMap fun p ↦ (p.filled s).toList := by
  rw [run_fillPieces, String.toList_join, List.flatMap_map]

/-- A literal stays as it is. -/
theorem flatMap_filled_literal (literal : List Char) :
    ((literal.map Piece.char).flatMap fun p ↦ (p.filled s).toList) = literal := by
  have hchar : (fun c ↦ ((Piece.char c).filled s).toList) = fun c : Char ↦ [c] :=
    funext String.toList_singleton
  rw [List.flatMap_map, hchar]
  exact List.flatMap_singleton' literal

/-- It asks nothing. -/
theorem flatMap_asked_literal (literal : List Char) :
    (literal.map Piece.char).flatMap Piece.asked = [] := by
  rw [List.flatMap_map]
  exact List.flatMap_eq_nil_iff.2 fun _ _ ↦ rfl

/-- **Filling in a writing puts texts in the place of its names.** -/
theorem run_fill_text (w : Writing) :
    (fill w.text).run s = w.filled fun name ↦ propertyText (s.property name) := by
  have hpassage (p : Passage) : (p.pieces.flatMap fun q ↦ (q.filled s).toList) =
      (propertyText (s.property p.name) ++ p.literal).toList := by
    rw [Passage.pieces, List.flatMap_cons, flatMap_filled_literal, String.toList_append]
    rfl
  refine String.toList_inj.1 ?_
  rw [fill, toList_run_fillPieces, pieces_text, List.flatMap_append, flatMap_filled_literal,
    List.flatMap_assoc, funext hpassage, Writing.filled, String.toList_append, String.toList_join,
    List.flatMap_map]

/-- **It asks for its names, each one where it stands.** -/
theorem calls_fill_text (w : Writing) : (fill w.text).calls s = w.names.map Query.property := by
  have hpassage (p : Passage) : p.pieces.flatMap Piece.asked = [.property p.name] := by
    rw [Passage.pieces, List.flatMap_cons, flatMap_asked_literal]
    rfl
  rw [fill, calls_fillPieces, pieces_text, List.flatMap_append, flatMap_asked_literal,
    List.flatMap_assoc, funext hpassage, Writing.names, List.map_map, List.nil_append]
  exact List.map_eq_flatMap.symm

end Fill

end Template

namespace Expr

open Template

/-- **A template is filled in one pass from left to right.** However its literals and its names are
put together, it is evaluated to the literals with a text for each name between them: the text in
which the value of the property is displayed, and the empty one for a property that is missing, null
or undefined. These texts are not read, whatever they are: what is asked are the names, in order,
each of them as often as it stands there. -/
theorem evaluateIn_template_text (w : Writing) (s : Subject) (pool : ScratchPool) :
    ∃ texts : String → String,
      (∀ name, s.property name = none → texts name = "") ∧
      (∀ name, s.property name = some .null → texts name = "") ∧
      (∀ name, s.property name = some .undefined → texts name = "") ∧
      (∀ name v, s.property name = some v → v ≠ .null → v ≠ .undefined → texts name = v.text) ∧
      (((template w.text).evaluateIn pool).run s).1 = .ok (.string (w.filled texts)) ∧
      ((template w.text).evaluateIn pool).calls s = w.names.map Query.property := by
  have heval : (template w.text).eval.run = (fun t ↦ .ok (.string t)) <$> fill w.text := by
    rw [eval, ExceptT.run_map]
    exact Functor.map_map Except.ok _ _
  have htexts {name : String} {v? : Option Value} (h : s.property name = v?) :
      propertyText (s.property name) = propertyText v? := congrArg _ h
  refine ⟨fun name ↦ propertyText (s.property name), fun _ h ↦ htexts h, fun _ h ↦ htexts h,
    fun _ h ↦ htexts h, fun name v hv hnull hundefined ↦ ?_, ?_, ?_⟩
  · exact (htexts hv).trans (propertyText_of_ne hnull hundefined)
  · rw [fst_run_evaluateIn, heval, Dialogue.run_map, run_fill_text]
    rfl
  · rw [calls_evaluateIn, heval, Dialogue.calls_map, calls_fill_text]

end Expr

end FeatureStyle
