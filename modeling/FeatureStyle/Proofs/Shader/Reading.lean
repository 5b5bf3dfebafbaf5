import FeatureStyle.Proofs.Shader.Glsl
import FeatureStyle.Shader.Emit

/-!
# Reading back what is written

`Reads` says that a text is read as a term wherever it stands, as long as something follows that
ends it. There is one lemma for every form that a text can have, and each says which term it is read
as when its parts are read as theirs. A text that is read as a term wherever it stands is that term
when it stands alone (`Reads.read?_eq`).
-/

namespace FeatureStyle.Glsl

/-- What may follow a term: nothing, a blank, a comma or a closing parenthesis. -/
def Stops : List Char → Prop
  | [] => True
  | c :: _ => c = ' ' ∨ c = ',' ∨ c = ')'

theorem stops_blank (cs : List Char) : Stops (' ' :: cs) := .inl rfl

theorem stops_comma (cs : List Char) : Stops (',' :: cs) := .inr (.inl rfl)

theorem stops_close (cs : List Char) : Stops (')' :: cs) := .inr (.inr rfl)

/-- A text is read as a term wherever it stands. -/
def Reads (n : Nat) (text : List Char) (t : Term) : Prop :=
  ∀ rest, Stops rest → term? n (text ++ rest) = some (t, rest)

variable {n : Nat} {text rest : List Char} {t u v : Term}

theorem skipBlanks_blank (cs : List Char) : skipBlanks (' ' :: cs) = skipBlanks cs := rfl

theorem skipBlanks_of_ne {c : Char} (hc : c ≠ ' ') (cs : List Char) :
    skipBlanks (c :: cs) = c :: cs :=
  List.dropWhile_cons_of_neg (by simpa using hc)

/-- A blank in front of a term does not matter. -/
theorem term?_blank (n : Nat) (cs : List Char) : term? n (' ' :: cs) = term? n cs := by
  cases n with
  | zero => rfl
  | succ n => rw [term?, term?, skipBlanks_blank]

/-- A blank before a term is skipped. -/
theorem Reads.blank (h : Reads n text t) (hrest : Stops rest) :
    term? n (' ' :: (text ++ rest)) = some (t, rest) := by
  rw [term?_blank]
  exact h rest hrest

/-- A text that is read as a term wherever it stands is that term. -/
theorem Reads.read?_eq {s : String} (h : Reads (s.toList.length + 1) s.toList t) :
    read? s = some t := by
  have hterm := h [] trivial
  rw [List.append_nil] at hterm
  rw [read?, hterm]
  rfl

/-! ### Constants and attributes -/

/-- What stops a term cannot be part of its last word. -/
theorem Stops.head {c : Char} (h : Stops (c :: rest)) :
    c.isDigit = false ∧ isIdentifierPart c = false ∧ c ≠ '(' := by
  rcases h with rfl | rfl | rfl <;> decide

/-- A property that all characters of a piece have and the next one has not cuts the piece off. -/
theorem takeWhile_dropWhile_append (p : Char → Bool) {cs : List Char} (rest : List Char)
    (hcs : ∀ c ∈ cs, p c) (hrest : ∀ c ds, rest = c :: ds → p c = false) :
    (cs ++ rest).takeWhile p = cs ∧ (cs ++ rest).dropWhile p = rest := by
  have hhead : rest.takeWhile p = [] ∧ rest.dropWhile p = rest := by
    cases rest with
    | nil => exact ⟨rfl, rfl⟩
    | cons c ds => simp [hrest c ds rfl]
  rw [List.takeWhile_append_of_pos hcs, List.dropWhile_append_of_pos hcs, hhead.1, hhead.2,
    List.append_nil]
  exact ⟨rfl, rfl⟩

/-- Digits, a point and a zero are read as a whole number. -/
theorem constant?_digits {digits : List Char} (hdigits : ∀ c ∈ digits, c.isDigit)
    (hrest : Stops rest) :
    constant? (digits ++ '.' :: '0' :: rest) =
      some (.constant (Nat.ofDigitChars 10 digits 0 : Nat), rest) := by
  have hwhole := takeWhile_dropWhile_append Char.isDigit ('.' :: '0' :: rest) hdigits
    fun c ds h ↦ by
      rw [← (List.cons.inj h).1]
      rfl
  have hzero : ∀ c ∈ ['0'], c.isDigit := List.forall_mem_singleton.2 rfl
  have hfraction := takeWhile_dropWhile_append Char.isDigit rest hzero
    fun c ds h ↦ by
      subst h
      exact hrest.head.1
  rw [List.singleton_append] at hfraction
  rw [constant?, hwhole.1, hwhole.2]
  simp only [hfraction.1, hfraction.2, List.length_singleton, pow_one]
  rw [Nat.ofDigitChars_append, Nat.ofDigitChars_cons, Nat.ofDigitChars_nil]
  simp

/-- Where a digit stands, a constant is read. -/
theorem term?_of_isDigit {d : Char} (hd : d.isDigit) (n : Nat) (cs : List Char) :
    term? (n + 1) (d :: cs) = constant? (d :: cs) := by
  -- A digit is no blank, no sign and no parenthesis.
  have hne : ∀ c : Char, c.isDigit = false → d ≠ c := by
    rintro c hc rfl
    rw [hd] at hc
    cases hc
  rw [term?, skipBlanks_of_ne (hne ' ' rfl)]
  split
  · next h => exact absurd (List.cons.inj h).1 (hne '-' rfl)
  · next h => exact absurd (List.cons.inj h).1 (hne '(' rfl)
  · next h =>
    obtain ⟨rfl, rfl⟩ := List.cons.inj h
    rw [if_pos hd]
  · next h => cases h

/-- Digits, a point and a zero are a constant. -/
theorem reads_constant (n : Nat) {digits : List Char} (hne : digits ≠ [])
    (hdigits : ∀ c ∈ digits, c.isDigit) :
    Reads (n + 1) (digits ++ ['.', '0']) (.constant (Nat.ofDigitChars 10 digits 0 : Nat)) := by
  intro rest hrest
  rw [List.append_assoc, ← constant?_digits hdigits hrest]
  obtain ⟨d, ds, rfl⟩ := List.exists_cons_of_ne_nil hne
  exact term?_of_isDigit (hdigits d List.mem_cons_self) n _

/-- A minus sign and a term are the negation of the term. -/
theorem reads_negate (h : Reads n text t) : Reads (n + 1) ('-' :: text) (.negate t) := by
  intro rest hrest
  rw [List.cons_append, term?, skipBlanks_of_ne (by decide)]
  simp only [h rest hrest]
  rfl

/-- The term of a whole number. -/
def Term.ofWhole (negative : Bool) (m : ℕ) : Term :=
  if negative then negate (constant m) else constant m

/-- Whole numbers with all of their digits and a point are read. -/
theorem reads_wholeText (n : Nat) (negative : Bool) (m : ℕ) :
    Reads (n + 2) (Numeric.wholeText negative m).toList (.ofWhole negative m) := by
  have hdigits (n : Nat) : Reads (n + 1) (Nat.toDigits 10 m ++ ['.', '0']) (.constant m) := by
    have h := reads_constant n (Nat.toDigits_ne_nil (b := 10) (n := m)) fun c hc ↦
      Nat.isDigit_of_mem_toDigits (by decide) (by decide) hc
    rwa [Nat.ofDigitChars_ten_toDigits] at h
  rw [Numeric.wholeText, String.toList_append, String.toList_append, String.toList_ofList,
    List.append_assoc]
  cases negative with
  | false => exact hdigits (n + 1)
  | true => exact reads_negate (hdigits n)

/-- An identifier is an attribute, also if it is `mod`. -/
theorem reads_input (n : Nat) {name : String} (hname : isShaderIdentifier name) :
    Reads (n + 1) name.toList (.input name) := by
  intro rest hrest
  obtain ⟨hne, hdigit, hparts⟩ : name.toList ≠ [] ∧ name.toList.head?.any Char.isDigit = false ∧
      ∀ c ∈ name.toList, isIdentifierPart c := by
    simpa [isShaderIdentifier, isIdentifierLead] using hname
  obtain ⟨c, cs, hcs⟩ := List.exists_cons_of_ne_nil hne
  rw [hcs, List.head?_cons, Option.any_some] at hdigit
  rw [hcs, List.forall_mem_cons] at hparts
  have hc : ∀ d : Char, isIdentifierPart d = false → c ≠ d := by
    rintro d hd rfl
    rw [hparts.1] at hd
    cases hd
  obtain ⟨htake, hdrop⟩ := takeWhile_dropWhile_append isIdentifierPart rest
    hparts.2 fun c ds h ↦ by
      subst h
      exact hrest.head.2.1
  rw [hcs, List.cons_append, term?, skipBlanks_of_ne (hc ' ' (by decide))]
  split
  · next h => exact absurd (List.cons.inj h).1 (hc '-' (by decide))
  · next h => exact absurd (List.cons.inj h).1 (hc '(' (by decide))
  · next h =>
    obtain ⟨rfl, rfl⟩ := List.cons.inj h
    rw [if_neg (by simp [hdigit]), if_pos hparts.1]
    simp only [htake, hdrop]
    split
    · -- What follows the name does not open an argument list.
      exact absurd rfl hrest.head.2.2
    · rw [← hcs, String.ofList_toList]
  · next h => cases h

/-! ### Operators -/

/-- The text is that of the operator. -/
def Operator.Spells (op : Operator) (symbol : List Char) : Prop :=
  ∀ (read : List Char → Option (Term × List Char)) (first : Term) (cs : List Char),
    group? read first (skipBlanks (' ' :: (symbol ++ ' ' :: cs))) = do
      let (second, cs) ← read (' ' :: cs)
      let cs ← expect? ')' cs
      return (.binary op first second, cs)

/-- The symbol of an operator. -/
def Operator.symbol : Operator → String
  | add => "+"
  | sub => "-"
  | mul => "*"
  | div => "/"
  | less => "<"
  | atMost => "<="
  | greater => ">"
  | atLeast => ">="
  | equal => "=="
  | notEqual => "!="

/-- Every operator is read from its symbol. -/
theorem Operator.spells_symbol (op : Operator) : op.Spells op.symbol.toList := by
  cases op <;> exact fun _ _ _ ↦ rfl

variable {left right : String}

/-- An operator between two terms, all of it between parentheses. -/
theorem reads_binary (op : Operator) (hl : Reads n left.toList t) (hr : Reads n right.toList u) :
    Reads (n + 1) s!"({left} {op.symbol} {right})".toList (.binary op t u) := by
  intro rest hrest
  show term? (n + 1) (("(" ++ left ++ " " ++ op.symbol ++ " " ++ right ++ ")").toList ++ rest) = _
  simp only [String.toList_append, List.append_assoc]
  show term? (n + 1) ('(' :: (left.toList ++
    ' ' :: (op.symbol.toList ++ ' ' :: (right.toList ++ ')' :: rest)))) = _
  rw [term?, skipBlanks_of_ne (by decide)]
  simp only [hl _ (stops_blank _), Option.bind_eq_bind, Option.bind_some]
  rw [op.spells_symbol, hr.blank (stops_close rest)]
  rfl

/-- A test and two terms, all of it between parentheses. -/
theorem reads_choose {test : String} (ht : Reads n test.toList t) (hl : Reads n left.toList u)
    (hr : Reads n right.toList v) :
    Reads (n + 1) s!"({test} ? {left} : {right})".toList (.choose t u v) := by
  intro rest hrest
  show term? (n + 1) (("(" ++ test ++ " ? " ++ left ++ " : " ++ right ++ ")").toList ++ rest) = _
  simp only [String.toList_append, List.append_assoc]
  show term? (n + 1) ('(' :: (test.toList ++
    ' ' :: '?' :: ' ' :: (left.toList ++ ' ' :: ':' :: ' ' :: (right.toList ++ ')' :: rest)))) = _
  rw [term?, skipBlanks_of_ne (by decide)]
  simp only [ht _ (stops_blank _), Option.bind_eq_bind, Option.bind_some]
  rw [skipBlanks_blank, skipBlanks_of_ne (by decide), group?, hl.blank (stops_blank _),
    Option.bind_eq_bind, Option.bind_some]
  show (term? n (' ' :: (right.toList ++ ')' :: rest)) >>= _) = _
  rw [hr.blank (stops_close rest)]
  rfl

/-- A call of `mod`. -/
theorem reads_mod (hl : Reads n left.toList t) (hr : Reads n right.toList u) :
    Reads (n + 1) (Shader.callText "mod" [left, right]).toList (.mod t u) := by
  intro rest hrest
  show term? (n + 1) (("mod" ++ "(" ++ (left ++ ", " ++ right) ++ ")").toList ++ rest) = _
  simp only [String.toList_append, List.append_assoc]
  show modCall? (term? n) (left.toList ++ ',' :: ' ' :: (right.toList ++ ')' :: rest)) = _
  rw [modCall?, hl _ (stops_comma _), Option.bind_eq_bind, Option.bind_some]
  show (term? n (' ' :: (right.toList ++ ')' :: rest)) >>= _) = _
  rw [hr.blank (stops_close rest)]
  rfl

end FeatureStyle.Glsl
