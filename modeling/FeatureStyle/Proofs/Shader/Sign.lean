import FeatureStyle.Proofs.Expr.Spelling
import FeatureStyle.Proofs.Shader.Layout
import FeatureStyle.Settings.Validation

/-!
# Signs in shader code

To a shader compiler, two equal signs in a row are an operator of their own. An operator between two
operands puts blanks around itself and parentheses around the whole, but **a sign is written
directly before its operand**. So the two signs of `- -a` meet, and those of `-(-a)` do as well,
since parentheses of a source are not part of its tree.

The layout of every other construct is `Laid`: it has fenced code wherever two parts would meet.
A member is the one construct that begins with a part, so the sign at the front of a code is that of
the innermost object (`frontSign?`). **Signs meet exactly where a sign stands before an operand that
begins with the same sign** (`Doubled`), and nowhere else if no property has a sign in its name
(`signsApart_iff_forall_not_doubled`).
-/

namespace FeatureStyle

open Text

/-! ### Signs and fragments -/

/-- The name of a function and its parenthesis are fenced if there is no sign in the name. -/
theorem fenced_opening {name : String} (hname : ∀ c ∈ name.toList, ¬ IsSign c) :
    Fenced (name ++ "(").toList := by
  refine .of_forall_not (by simp) fun c hc ↦ ?_
  rw [String.toList_append] at hc
  rcases List.mem_append.1 hc with hc | hc
  · exact hname c hc
  · exact List.mem_singleton.1 hc ▸ by decide

namespace Fragment

variable {lead : String} {fs gs : List Fragment}

/-- Code is fenced, and what is not code has code beside it. -/
structure Laid (fs : List Fragment) : Prop where
  separated : fs.IsChain fun f g ↦ ¬ (f.isSlot ∧ g.isSlot)
  fenced : ∀ text, .code text ∈ fs → Fenced text.toList

namespace Laid

theorem nil : Laid [] := ⟨.nil, fun _ h ↦ nomatch h⟩

/-- A slot by itself. -/
theorem slot {f : Fragment} (h : f.isSlot) : Laid [f] := by
  refine ⟨.singleton f, fun text htext ↦ ?_⟩
  obtain rfl := List.mem_singleton.1 htext
  cases h

/-- Code comes between what is laid out. -/
theorem append_code (hfs : Laid fs) {text : String} (htext : Fenced text.toList) (hgs : Laid gs) :
    Laid (fs ++ .code text :: gs) := by
  constructor
  · refine List.isChain_append.2 ⟨hfs.separated, List.isChain_cons.2 ⟨?_, hgs.separated⟩, ?_⟩
    · rintro g - ⟨⟨⟩, -⟩
    · rintro f - g hg ⟨-, hslot⟩
      obtain rfl := Option.mem_some_iff.1 hg
      cases hslot
  · intro t ht
    rcases List.mem_append.1 ht with ht | ht
    · exact hfs.fenced t ht
    · rcases List.mem_cons.1 ht with ht | ht
      · cases ht
        exact htext
      · exact hgs.fenced t ht

/-- Fenced code can be put before any layout. -/
theorem code_cons {text : String} (htext : Fenced text.toList) (hgs : Laid gs) :
    Laid (.code text :: gs) := nil.append_code htext hgs

/-- So arguments that are laid out by themselves can be put side by side: the comma is fenced code.
-/
theorem intercalate {args : List (List Fragment)} (hargs : ∀ a ∈ args, Laid a) :
    Laid (List.intercalate [.code ", "] args) := by
  match args with
  | [] => exact nil
  | [fs] => exact List.intercalate_singleton (α := Fragment) ▸ hargs fs List.mem_cons_self
  | fs :: gs :: rest =>
    obtain ⟨hfs, hrest⟩ := List.forall_mem_cons.1 hargs
    rw [List.intercalate_cons_cons, List.append_assoc]
    exact hfs.append_code (by decide) (intercalate hrest)

/-- A call is laid out as its arguments are. -/
theorem call {name : String} {args : List (List Fragment)} (hname : ∀ c ∈ name.toList, ¬ IsSign c)
    (hargs : ∀ a ∈ args, Laid a) : Laid (Fragment.call name args) :=
  code_cons (fenced_opening hname) ((intercalate hargs).append_code (by decide) nil)

/-- An operator between its operands. -/
theorem between {operator : String} (h : Fenced operator.toList) (left right : Expr) :
    Laid (Fragment.between operator left right) :=
  code_cons (by decide) ((slot rfl).append_code h ((slot rfl).append_code (by decide) nil))

theorem tail {f : Fragment} (h : Laid (f :: fs)) : Laid fs :=
  ⟨h.separated.tail, fun text htext ↦ h.fenced text (List.mem_cons_of_mem _ htext)⟩

/-- What is written behind a slot does not begin with a sign. -/
theorem not_isSign_head {f : Fragment} (h : Laid (f :: fs)) (hslot : f.isSlot) {text : String}
    (hwrite : writeAll lead fs = some text) : ∀ c ∈ text.toList.head?, ¬ IsSign c := by
  cases fs with
  | nil =>
    cases hwrite
    nofun
  | cons g fs =>
    cases g with
    | code s =>
      obtain ⟨_, u, ⟨⟩, -, rfl⟩ := writeAll_cons_eq_some_iff.1 hwrite
      have hs := h.fenced s (List.mem_cons_of_mem _ List.mem_cons_self)
      rw [String.toList_append, List.head?_append_of_ne_nil _ hs.ne_nil]
      exact hs.head
    | reference | part => exact absurd ⟨hslot, rfl⟩ (List.isChain_cons_cons.1 h.separated).1

end Laid

/-- There is no sign in the references among the fragments. -/
def Unsigned (lead : String) (fs : List Fragment) : Prop :=
  ∀ name, .reference name ∈ fs → ∀ c ∈ (lead ++ name).toList, ¬ IsSign c

/-- Only the code of a part can put a sign at the front. -/
theorem head?_writeAll_iff (h : Laid fs) (hunsigned : Unsigned lead fs) {text : String}
    (hwrite : writeAll lead fs = some text) {c : Char} (hc : IsSign c) :
    text.toList.head? = some c ↔
      ∃ p rest t, fs = .part p :: rest ∧ p.code? lead = some t ∧ t.toList.head? = some c := by
  cases fs with
  | nil =>
    cases hwrite
    exact iff_of_false nofun nofun
  | cons f fs =>
    obtain ⟨t, u, ht, hu, rfl⟩ := writeAll_cons_eq_some_iff.1 hwrite
    rw [String.toList_append, List.head?_append]
    cases f with
    | code s =>
      cases ht
      have hs := h.fenced t List.mem_cons_self
      obtain ⟨d, hd⟩ := Option.isSome_iff_exists.1 (List.isSome_head?.2 hs.ne_nil)
      refine iff_of_false (fun hhead ↦ ?_) nofun
      rw [hd, Option.some_or] at hhead
      exact hs.head d hd (Option.some.inj hhead ▸ hc)
    | reference name =>
      cases ht
      refine iff_of_false (fun hhead ↦ ?_) nofun
      rcases Option.or_eq_some_iff.1 hhead with hhead | ⟨-, hhead⟩
      · exact hunsigned name List.mem_cons_self c (List.mem_of_head? hhead) hc
      · exact h.not_isSign_head rfl hu c hhead hc
    | part p =>
      have hu' : u.toList.head? ≠ some c := fun hhead ↦ h.not_isSign_head rfl hu c hhead hc
      constructor
      · intro hhead
        refine ⟨p, fs, t, rfl, ht, ?_⟩
        rcases Option.or_eq_some_iff.1 hhead with hhead | ⟨-, hhead⟩
        · exact hhead
        · exact absurd hhead hu'
      · rintro ⟨p', rest, t', ⟨⟩, ht', hhead⟩
        rw [write_part, ht'] at ht
        cases ht
        rw [hhead, Option.some_or]

/-- **Signs are apart in what is laid out exactly if they are in its parts.** -/
theorem signsApart_writeAll_iff (h : Laid fs) (hunsigned : Unsigned lead fs) {text : String}
    (hwrite : writeAll lead fs = some text) :
    SignsApart text.toList ↔
      ∀ p, .part p ∈ fs → ∀ t, p.code? lead = some t → SignsApart t.toList := by
  induction fs generalizing text with
  | nil =>
    cases hwrite
    exact iff_of_true .nil nofun
  | cons f fs ih =>
    obtain ⟨t, u, ht, hu, rfl⟩ := writeAll_cons_eq_some_iff.1 hwrite
    have ih := ih h.tail (fun name hname ↦ hunsigned name (List.mem_cons_of_mem _ hname)) hu
    rw [String.toList_append]
    cases f with
    | code s =>
      cases ht
      have hs := h.fenced t List.mem_cons_self
      rw [signsApart_append_of_getLast hs.last, and_iff_right hs.apart, ih]
      simp
    | reference name =>
      cases ht
      have hname := signsApart_of_forall_not (hunsigned name List.mem_cons_self)
      rw [signsApart_append_of_head (h.not_isSign_head rfl hu), and_iff_right hname, ih]
      simp
    | part p =>
      rw [write_part] at ht
      rw [signsApart_append_of_head (h.not_isSign_head rfl hu), ih]
      simp [ht]

end Fragment

/-! ### Constants -/

namespace Shader

/-- Texts with commas between them have no signs that meet but those within. -/
theorem signsApart_intercalate {args : List String} (h : ∀ a ∈ args, SignsApart a.toList) :
    SignsApart (", ".intercalate args).toList := by
  match args with
  | [] => exact String.intercalate_nil ▸ .nil
  | [a] => exact String.intercalate_singleton ▸ h a List.mem_cons_self
  | a :: b :: rest =>
    obtain ⟨ha, hrest⟩ := List.forall_mem_cons.1 h
    have hcomma : Fenced ", ".toList := by decide
    rw [String.intercalate_cons_cons, String.toList_append, String.toList_append,
      signsApart_append_of_getLast (by simpa using show ¬ IsSign ' ' by decide),
      signsApart_append_of_head hcomma.head]
    exact ⟨⟨ha, hcomma.apart⟩, signsApart_intercalate hrest⟩

/-- A call is fenced if no sign meets another one in any of its arguments. -/
theorem fenced_callText {name : String} {args : List String} (hname : ∀ c ∈ name.toList, ¬ IsSign c)
    (hargs : ∀ a ∈ args, SignsApart a.toList) : Fenced (callText name args).toList := by
  rw [callText, String.append_assoc, String.toList_append, String.toList_append (t := ")")]
  exact (fenced_opening hname).append_append (signsApart_intercalate hargs) (by decide)

/-- The constants of a colour are written with at most one sign each. -/
theorem signsApart_rgbTexts (c : Color) : ∀ a ∈ rgbTexts c, SignsApart a.toList := by
  intro a ha
  obtain ⟨x, -, rfl⟩ := List.mem_map.1 ha
  exact (Numeric.signed_componentConstantText x).signsApart

/-- A row of constants is fenced: its parentheses are at the outside. -/
theorem fenced_vec4Text {c : Color} {alpha : String} (h : SignsApart alpha.toList) :
    Fenced (vec4Text (rgbTexts c ++ [alpha])).toList := by
  refine fenced_callText (by decide) fun a ha ↦ ?_
  rcases List.mem_append.1 ha with ha | ha
  · exact signsApart_rgbTexts c a ha
  · exact List.mem_singleton.1 ha ▸ h

end Shader

namespace Expr

open Shader Fragment

/-- So is the code of a colour whose channels are all constants. -/
theorem fenced_constantColorText (f : ChannelFn) (constants : List Float) :
    Fenced (constantColorText f constants).toList := by
  cases f with
  | rgb => exact fenced_vec4Text (by decide)
  | rgba => exact fenced_vec4Text (Numeric.signed_constantText _).signsApart
  | hsl | hsla => exact fenced_vec4Text (Numeric.signed_componentConstantText _).signsApart

/-- The operator in the place of the first sign of the code of an expression, if the code begins
with one. The object of a member is written without parentheses. -/
def frontSign? : Expr → Option UnaryOp
  | unary .negative _ => some .negative
  | unary .positive _ => some .positive
  | member _ object _ => object.frontSign?
  | _ => none

/-- A sign before an operand whose code begins with the same one. -/
def Doubled (e : Expr) : Prop :=
  ∃ op operand, e = .unary op operand ∧ (op = .negative ∨ op = .positive) ∧
    operand.frontSign? = some op

/-- A colour has as many arguments as its function takes, and a number is not negative. -/
def Regular : Expr → Prop
  | color fn args => (colorArity fn).admits args.length
  | number x => Numeric.isNegative x.toModel.unpack = false
  | _ => True

/-- A call of parts puts parentheses and commas around every part. -/
theorem laid_call_parts {name : String} (hname : ∀ c ∈ name.toList, ¬ IsSign c) (es : List Expr) :
    Laid (Fragment.call name (es.map ([.part ·]))) := by
  refine .call hname fun a ha ↦ ?_
  obtain ⟨e, -, rfl⟩ := List.mem_map.1 ha
  exact .slot rfl

/-- Of the operators before an operand, only the signs do without a call or a mark of their own. -/
theorem laid_unaryLayout {op : UnaryOp} (hsupports : supportsUnary op)
    (hsign : op ≠ .negative ∧ op ≠ .positive) (operand : Expr) : Laid (unaryLayout op operand) := by
  cases op with
  | negative => exact absurd rfl hsign.1
  | positive => exact absurd rfl hsign.2
  | not => exact .code_cons (by decide) (.slot rfl)
  | toBoolean | toNumber => exact laid_call_parts (by decide) [operand]
  | math f =>
    have hname : ∀ c ∈ f.name.toList, ¬ IsSign c := by cases f <;> decide
    exact laid_call_parts hname [operand]
  | isNaN | isFinite | toString | isExactClass | isClass => cases hsupports

/-- **An operator between operands has blanks around it.** -/
theorem laid_binaryLayout {op : BinaryOp} (left right : Expr) :
    Laid (binaryLayout op left right) := by
  have hmath (f : BinaryMath) : ∀ c ∈ f.name.toList, ¬ IsSign c := by cases f <;> decide
  unfold binaryLayout
  split
  · exact laid_call_parts (by decide) [left, right]
  · exact .between (by decide) left right
  · exact .between (by decide) left right
  · exact laid_call_parts (by decide) [left, right]
  · exact laid_call_parts (hmath _) [left, right]
  · refine .between ?_ left right
    cases op with
    | arithmetic op => cases op <;> decide
    | order op => cases op <;> decide
    | math f => cases f <;> decide
    | strictEq | strictNe | looseEq | looseNe | regexMatch | regexNotMatch => decide

/-- Colours are calls. -/
theorem laid_cssLayout {args : List Expr} {fs : List Fragment} (h : cssLayout? args = some fs) :
    Laid fs := by
  have hcss {css : Expr} {f : Fragment} (h : cssFragment? css = some f) : Laid [f] := by
    unfold cssFragment? at h
    split at h
    · obtain ⟨c, -, rfl⟩ := Option.map_eq_some_iff.1 h
      exact .code_cons (fenced_callText (by decide) (signsApart_rgbTexts c)) .nil
    · cases h
      exact .slot rfl
  unfold cssLayout? at h
  split at h
  · cases h
    exact .code_cons (by decide) .nil
  · obtain ⟨f, hf, rfl⟩ := Option.map_eq_some_iff.1 h
    refine .call (by decide) (List.forall_mem_cons.2 ⟨hcss hf, List.forall_mem_singleton.2 ?_⟩)
    exact .code_cons (by decide) .nil
  · obtain ⟨f, hf, rfl⟩ := Option.map_eq_some_iff.1 h
    refine .call (by decide) (List.forall_mem_cons.2 ⟨hcss hf, List.forall_mem_singleton.2 ?_⟩)
    exact .slot rfl

/-- Channels that are not constant are parts of a call, and each is divided behind itself. -/
theorem laid_channelsLayout (f : ChannelFn) (args : List Expr) : Laid (channelsLayout f args) := by
  have hchannel (i : Nat) : Laid [channelLayout args i] := by
    rw [channelLayout]
    split
    · exact .slot rfl
    · exact .code_cons (by decide) .nil
  have hscaled (i : Nat) : Laid [channelLayout args i, .code " / 255.0"] :=
    (hchannel i).append_code (by decide) .nil
  rw [channelsLayout]
  split
  · exact .code_cons (fenced_constantColorText f _) .nil
  · cases f with
    | rgb | rgba =>
      refine .call (by decide) ?_
      simp only [List.forall_mem_cons]
      exact ⟨hscaled 0, hscaled 1, hscaled 2, hchannel 3, List.forall_mem_nil _⟩
    | hsl | hsla =>
      refine .call (by decide) ?_
      simp only [List.forall_mem_cons]
      refine ⟨.call (by decide) ?_, hchannel 3, List.forall_mem_nil _⟩
      simp only [List.forall_mem_cons]
      refine ⟨.call (by decide) ?_, List.forall_mem_nil _⟩
      simp only [List.forall_mem_cons]
      exact ⟨hchannel 0, hchannel 1, hchannel 2, List.forall_mem_nil _⟩

/-- The key of a member is in brackets, and its object has nothing before it. -/
theorem laid_memberLayout (object key : Expr) : Laid (memberLayout object key) := by
  rw [memberLayout]
  split
  · next i _ =>
    have hindex : Fenced s!"[{i}]".toList := by
      have := (show Fenced ['['] by decide).append_append (Numeric.fenced_toDigits i).apart
        (show Fenced [']'] by decide)
      simpa [toString] using this
    exact (Laid.slot rfl).append_code hindex .nil
  · exact (Laid.slot rfl).append_code (by decide) ((Laid.slot rfl).append_code (by decide) .nil)

/-- **Every construct is laid out with fenced code between its parts**, but for a sign. -/
theorem laid_fragments {e : Expr} {fs : List Fragment} (h : e.fragments? = some fs)
    (hregular : e.Regular)
    (hsign : ∀ op operand, e = .unary op operand → op ≠ .negative ∧ op ≠ .positive) :
    Laid fs := by
  cases e with
  | null | undefined | string | regex | regExp | template | className | call => cases h
  | bool b =>
    cases h
    cases b <;> exact .code_cons (by decide) .nil
  | number x =>
    cases h
    have hsigned := Numeric.signed_constantText x
    rw [show Numeric.isNegative x.toModel.unpack = false from hregular] at hsigned
    exact .code_cons hsigned.fenced .nil
  | global g =>
    cases h
    cases g
    exact .code_cons (by decide) .nil
  | property name =>
    cases h
    exact .slot rfl
  | color fn args =>
    cases fn with
    | css => exact laid_cssLayout h
    | channels f =>
      cases h
      exact laid_channelsLayout f args
  | vector size args =>
    cases h
    have hname : ∀ c ∈ size.name.toList, ¬ IsSign c := by cases size <;> decide
    exact laid_call_parts hname args
  | unary op operand =>
    rw [fragments?] at h
    split at h
    · next hsupports =>
      cases h
      exact laid_unaryLayout hsupports (hsign op operand rfl) operand
    · cases h
  | logical op left right =>
    cases h
    exact .between (by cases op <;> decide) left right
  | binary op left right =>
    rw [fragments?] at h
    split at h <;> cases h
    exact laid_binaryLayout left right
  | ternary f first second third =>
    cases h
    have hname : ∀ c ∈ f.name.toList, ¬ IsSign c := by cases f <;> decide
    exact laid_call_parts hname [first, second, third]
  | conditional test consequent alternate =>
    cases h
    exact .code_cons (by decide) ((Laid.slot rfl).append_code (by decide)
      ((Laid.slot rfl).append_code (by decide) ((Laid.slot rfl).append_code (by decide) .nil)))
  | featureMember access key =>
    cases key with
    | string name =>
      cases h
      exact .slot rfl
    | _ => cases h
  | member access object key =>
    cases h
    exact laid_memberLayout object key
  | array items =>
    rw [fragments?] at h
    split at h <;> cases h
    refine laid_call_parts (fun c hc ↦ ?_) items
    simp only [toString, String.toList_append, List.mem_append, Nat.toList_repr] at hc
    rcases hc with hc | hc
    · exact (show ∀ c ∈ "vec".toList, ¬ IsSign c by decide) c hc
    · exact Numeric.not_isSign_of_mem_toDigits hc

/-! ### Signs at the front -/

/-- Only a sign can be doubled. -/
theorem not_doubled_of_ne {e : Expr}
    (hsign : ∀ op operand, e = .unary op operand → op ≠ .negative ∧ op ≠ .positive) :
    ¬ e.Doubled := by
  rintro ⟨op, operand, rfl, rfl | rfl, -⟩
  · exact (hsign _ _ rfl).1 rfl
  · exact (hsign _ _ rfl).2 rfl

/-- A member is the only construct whose code begins with that of a part. -/
theorem eq_member_of_fragments {e p : Expr} {rest : List Fragment}
    (h : e.fragments? = some (.part p :: rest)) : ∃ access key, e = .member access p key := by
  cases e with
  | null | undefined | string | regex | regExp | template | className | call => cases h
  | bool | number | global | property => cases h
  | color fn args =>
    cases fn with
    | css =>
      rw [fragments?] at h
      unfold cssLayout? at h
      split at h
      · cases h
      · obtain ⟨_, -, ⟨⟩⟩ := Option.map_eq_some_iff.1 h
      · obtain ⟨_, -, ⟨⟩⟩ := Option.map_eq_some_iff.1 h
    | channels f =>
      rw [fragments?, channelsLayout] at h
      split at h
      · cases h
      · cases f <;> cases h
  | vector | logical | ternary | conditional => cases h
  | unary op operand =>
    rw [fragments?] at h
    split at h
    · unfold unaryLayout at h
      split at h <;> cases h
    · cases h
  | binary op left right =>
    rw [fragments?] at h
    split at h
    · unfold binaryLayout at h
      split at h <;> cases h
    · cases h
  | featureMember access key => cases key <;> cases h
  | member access object key =>
    rw [fragments?, memberLayout] at h
    split at h <;> cases h <;> exact ⟨access, key, rfl⟩
  | array items =>
    rw [fragments?] at h
    split at h <;> cases h

/-- What the code of an expression may be made of, so that only operators put signs into it. -/
structure Plain (lead : String) (e : Expr) : Prop where
  regular : ∀ s, Within s e → s.Regular
  unsigned : ∀ name, e.RefersTo name → ∀ c ∈ (lead ++ name).toList, ¬ IsSign c

namespace Plain

variable {lead : String} {e : Expr} {fs : List Fragment}

/-- A part is plain where the whole is. -/
theorem part {p : Expr} (h : Plain lead e) (hp : p ∈ e.parts) : Plain lead p where
  regular s hs := h.regular s (.part hp hs)
  unsigned name := fun ⟨s, hs, hname⟩ ↦ h.unsigned name ⟨s, .part hp hs, hname⟩

/-- The colours of a plain expression have as many arguments as they take. -/
theorem admits (h : Plain lead e) (fn : ColorFn) (args : List Expr) (he : e = .color fn args) :
    (colorArity fn).admits args.length := by
  subst he
  exact h.regular _ (.refl _)

/-- The references of a layout are references of the expression. -/
theorem unsigned_fragments (h : Plain lead e) (hfs : e.fragments? = some fs) :
    Fragment.Unsigned lead fs := fun name hname ↦
  h.unsigned name ⟨e, .refl e, (reference_mem_fragments_iff hfs h.admits).1 hname⟩

end Plain

variable {lead : String} {e : Expr} {text : String}

/-- The code of a sign is the sign before the code of its operand. -/
theorem code?_sign {op : UnaryOp} (hop : op = .negative ∨ op = .positive) (operand : Expr) :
    code? lead (.unary op operand) = (operand.code? lead).map (op.name ++ ·) := by
  have hsupports : supportsUnary op := by rcases hop with rfl | rfl <;> rfl
  have htext (t : String) : unaryText op t = op.name ++ t := by
    rcases hop with rfl | rfl <;> simp [unaryText, toString]
  rw [code?, emit, if_pos hsupports, value?_emit_bind_pure, funext htext]

/-- The two sign operators are written as one sign. -/
theorem exists_sign {op : UnaryOp} (hop : op = .negative ∨ op = .positive) :
    ∃ c, op.name.toList = [c] ∧ IsSign c := by
  rcases hop with rfl | rfl
  · exact ⟨'-', rfl, .inl rfl⟩
  · exact ⟨'+', rfl, .inr rfl⟩

/-- The operator in front is a sign. -/
theorem sign_of_frontSign? {op : UnaryOp} (h : e.frontSign? = some op) :
    op = .negative ∨ op = .positive := by
  fun_induction frontSign? e with
  | case1 => exact .inl (Option.some.inj h).symm
  | case2 => exact .inr (Option.some.inj h).symm
  | case3 _ _ _ ih => exact ih h
  | case4 => cases h

/-- A sign stands in front of its own code. -/
theorem frontSign?_sign {op : UnaryOp} (hop : op = .negative ∨ op = .positive) (operand : Expr) :
    (unary op operand).frontSign? = some op := by
  rcases hop with rfl | rfl <;> rfl

/-- What is neither a sign nor a member begins with no sign. -/
theorem frontSign?_eq_none (hmember : ∀ access object key, e ≠ .member access object key)
    (hsign : ∀ op operand, e = .unary op operand → op ≠ .negative ∧ op ≠ .positive) :
    e.frontSign? = none := by
  fun_cases frontSign? e with
  | case1 => exact absurd rfl (hsign _ _ rfl).1
  | case2 => exact absurd rfl (hsign _ _ rfl).2
  | case3 access object key => exact absurd rfl (hmember access object key)
  | case4 => rfl

/-- A sign, or no sign. -/
theorem sign_cases (e : Expr) :
    (∃ op operand, e = .unary op operand ∧ (op = .negative ∨ op = .positive)) ∨
      ∀ op operand, e = .unary op operand → op ≠ .negative ∧ op ≠ .positive := by
  by_cases h : ∃ op operand, e = .unary op operand ∧ (op = .negative ∨ op = .positive)
  · exact .inl h
  · refine .inr fun op operand he ↦ ⟨fun hop ↦ h ⟨op, operand, he, .inl hop⟩, fun hop ↦ ?_⟩
    exact h ⟨op, operand, he, .inr hop⟩

/-- **The code of an expression begins with a sign exactly if its front is that sign.** -/
theorem head?_code_iff (hplain : Plain lead e) (h : e.code? lead = some text) {c : Char}
    (hc : IsSign c) :
    text.toList.head? = some c ↔ ∃ op, e.frontSign? = some op ∧ op.name.toList = [c] := by
  induction e using induction_parts generalizing text with
  | step e ih =>
  rcases sign_cases e with ⟨op, operand, rfl, hop⟩ | hsign
  · rw [code?_sign hop] at h
    obtain ⟨t, -, rfl⟩ := Option.map_eq_some_iff.1 h
    obtain ⟨d, hd, -⟩ := exists_sign hop
    rw [String.toList_append, hd, frontSign?_sign hop]
    simp [hd]
  · rw [code?_eq e hplain.admits] at h
    obtain ⟨fs, hfs, hwrite⟩ := Option.bind_eq_some_iff.1 h
    have hlaid := laid_fragments hfs (hplain.regular e (.refl e)) hsign
    rw [head?_writeAll_iff hlaid (hplain.unsigned_fragments hfs) hwrite hc]
    constructor
    · rintro ⟨p, rest, t, rfl, ht, hhead⟩
      obtain ⟨access, key, rfl⟩ := eq_member_of_fragments hfs
      have hp : p ∈ (member access p key).parts := List.mem_cons_self
      exact (ih p hp (hplain.part hp) ht).1 hhead
    · rintro ⟨op, hop, hname⟩
      by_cases hmember : ∃ access object key, e = .member access object key
      · obtain ⟨access, object, key, rfl⟩ := hmember
        have hp : object ∈ (member access object key).parts := List.mem_cons_self
        obtain ⟨rest, rfl⟩ : ∃ rest, fs = .part object :: rest := by
          rw [fragments?, memberLayout] at hfs
          split at hfs <;> cases hfs <;> exact ⟨_, rfl⟩
        obtain ⟨t, ht⟩ := exists_code_of_mem hwrite List.mem_cons_self
        exact ⟨object, rest, t, rfl, ht, (ih object hp (hplain.part hp) ht).2 ⟨op, hop, hname⟩⟩
      · rw [frontSign?_eq_none (fun a o k he ↦ hmember ⟨a, o, k, he⟩) hsign] at hop
        cases hop

/-- **Signs meet exactly where a sign stands before an operand that begins with the same sign.** -/
theorem signsApart_iff_forall_not_doubled (hplain : Plain lead e) (h : e.code? lead = some text) :
    SignsApart text.toList ↔ ∀ s, Within s e → ¬ s.Doubled := by
  induction e using induction_parts generalizing text with
  | step e ih =>
  rw [forall_within_iff]
  rcases sign_cases e with ⟨op, operand, rfl, hop⟩ | hsign
  · rw [code?_sign hop] at h
    obtain ⟨t, ht, rfl⟩ := Option.map_eq_some_iff.1 h
    have hp : operand ∈ (unary op operand).parts := List.mem_cons_self
    obtain ⟨c, hname, hc⟩ := exists_sign hop
    -- The sign meets the front of the operand.
    have hdoubled : (unary op operand).Doubled ↔ t.toList.head? = some c := by
      rw [head?_code_iff (hplain.part hp) ht hc]
      constructor
      · rintro ⟨_, _, ⟨⟩, -, hfront⟩
        exact ⟨op, hfront, hname⟩
      · rintro ⟨op', hfront, hname'⟩
        have heq : op' = op := by
          rcases sign_of_frontSign? hfront with rfl | rfl <;> rcases hop with rfl | rfl <;>
            first | rfl | exact absurd (hname'.trans hname.symm) (by decide)
        exact ⟨op, operand, rfl, hop, heq ▸ hfront⟩
    rw [String.toList_append, hname, signsApart_append_iff, hdoubled,
      ih operand hp (hplain.part hp) ht, and_iff_right (signsApart_singleton c), and_comm]
    refine and_congr ?_ (by simp [parts])
    constructor
    · intro hmeet hhead
      exact hmeet c rfl c hhead hc rfl
    · rintro hhead _ ⟨⟩ d hd - rfl
      exact hhead hd
  · rw [code?_eq e hplain.admits] at h
    obtain ⟨fs, hfs, hwrite⟩ := Option.bind_eq_some_iff.1 h
    have hlaid := laid_fragments hfs (hplain.regular e (.refl e)) hsign
    rw [signsApart_writeAll_iff hlaid (hplain.unsigned_fragments hfs) hwrite,
      and_iff_right (not_doubled_of_ne hsign)]
    constructor
    · intro hparts p hp
      rcases literal_or_part_mem hfs hplain.admits hp with hliteral | hmem
      · intro s hs
        rw [eq_of_within_literal hliteral hs]
        rcases hliteral with ⟨x, rfl⟩ | ⟨name, rfl⟩ <;> exact not_doubled_of_ne (by simp)
      · obtain ⟨t, ht⟩ := exists_code_of_mem hwrite hmem
        exact (ih p hp (hplain.part hp) ht).1 (hparts p hmem t ht)
    · intro hparts p hp t ht
      have hp := mem_parts_of_mem_fragments hfs hplain.admits hp
      exact (ih p hp (hplain.part hp) ht).2 (hparts p hp)

/-- The expression of a source is plain, if its names are. -/
theorem plain_of_source {source : String} (h : ofSource source = .ok e)
    (hlead : isIdentifierLead lead)
    (hnames : ∀ name, e.RefersTo name → name.toList.all isIdentifierPart) : Plain lead e where
  regular s hs := by
    cases s with
    | number x => exact isNegative_of_within h hs
    | color fn args => exact admits_of_within h hs
    | _ => trivial
  unsigned name hname c hc := by
    have hpart : isIdentifierPart c := by
      rw [String.toList_append] at hc
      rcases List.mem_append.1 hc with hc | hc
      · exact List.all_eq_true.1 (Bool.and_eq_true _ _ ▸ hlead).2 c hc
      · exact List.all_eq_true.1 (hnames name hname) c hc
    rintro (rfl | rfl) <;> exact absurd hpart (by decide)

/-- **The code of a source keeps equal signs apart exactly if nowhere in its expression a sign is
applied to an operand whose code begins with the same sign.** -/
theorem emit_signs_apart_iff {source lead text : String} {e : Expr} {before after : ShaderState}
    (hsource : ofSource source = .ok e) (hlead : isIdentifierLead lead)
    (hnames : ∀ name, e.RefersTo name → name.toList.all isIdentifierPart)
    (hemit : (e.emit lead).run.run before = (.ok text, after)) :
    (¬ "--".toList <:+: text.toList ∧ ¬ "++".toList <:+: text.toList) ↔
      ∀ s, Within s e → ¬ s.Doubled := by
  rw [← signsApart_iff]
  exact signsApart_iff_forall_not_doubled (plain_of_source hsource hlead hnames)
    (code?_of_emit hemit)

/-- Different signs do not meet. -/
theorem emit_signs_apart_minus_plus :
    ∃ e text, ofSource "-+${a}" = .ok e ∧ (e.emit "a_").run.run ⟨false⟩ = (.ok text, ⟨false⟩) ∧
      ¬ "--".toList <:+: text.toList ∧ ¬ "++".toList <:+: text.toList := by
  have hsource : ofSource "-+${a}" =
      .ok (.unary .negative (.unary .positive (.property "a"))) := by
    with_unfolding_all rfl
  have hemit : ((unary .negative (.unary .positive (.property "a"))).emit "a_").run.run ⟨false⟩ =
      (.ok "-+a_a", ⟨false⟩) := by
    with_unfolding_all rfl
  have hnames : ∀ name, (unary .negative (.unary .positive (.property "a"))).RefersTo name →
      name.toList.all isIdentifierPart := by
    simp only [refersTo_unary, refersTo_property, forall_eq']
    decide
  refine ⟨_, _, hsource, hemit, (emit_signs_apart_iff hsource (by decide) hnames hemit).2 ?_⟩
  refine forall_within_iff.2 ⟨?_, List.forall_mem_singleton.2 <| forall_within_iff.2
    ⟨?_, List.forall_mem_singleton.2 <| forall_within_iff.2
      ⟨not_doubled_of_ne (by simp), List.forall_mem_nil _⟩⟩⟩
  · rintro ⟨_, _, ⟨⟩, -, ⟨⟩⟩
  · rintro ⟨_, _, ⟨⟩, -, ⟨⟩⟩

/-- Two minus signs before a property meet. -/
theorem exists_emit_signs_meet :
    ∃ e text, ofSource "--${a}" = .ok e ∧ isIdentifierLead "a_" ∧
      (∀ name, e.RefersTo name → name.toList.all isIdentifierPart) ∧
      (e.emit "a_").run.run ⟨false⟩ = (.ok text, ⟨false⟩) ∧ "--".toList <:+: text.toList := by
  refine ⟨.unary .negative (.unary .negative (.property "a")), "--a_a", ?_, by decide, ?_, ?_,
    by decide⟩
  · with_unfolding_all rfl
  · simp only [refersTo_unary, refersTo_property, forall_eq']
    decide
  · with_unfolding_all rfl

end Expr

end FeatureStyle
