import FeatureStyle.Proofs.Expr.Origin
import FeatureStyle.Proofs.Shader.Layout

/-!
# What has a shader form

Some constructs are for evaluation only (`Expr.isEvalOnly`): missing values, regular expressions,
texts that are put together, questions about classes. For a string it depends on where it stands. It
has a shader form as the text of a colour, as the name of a component behind an object and as the
name of a property, and nowhere else; so expressions are looked at together with their `Place`, and
`Expr.Stands` says what stands where inside of an expression.

**An expression is written exactly if nothing inside of it is for evaluation only**
(`isSome_code_iff_supported`), and then nothing is left out: but for numbers and strings, which are
read while the code is written, **the code of everything inside stands in the code of the whole**
(`exists_code_infix_of_within`). The lead and the flag have no part in this.
-/

namespace FeatureStyle.Expr

open Emission Fragment Shader

/-! ### Places -/

/-- How an expression stands in the one that holds it, as far as strings are concerned. -/
inductive Place
  /-- Where a string is a value. -/
  | operand
  /-- The first argument of `color`. -/
  | colorText
  /-- The key behind an object. -/
  | memberKey
  /-- The key behind the feature. -/
  | featureKey
  deriving DecidableEq

/-- The names of components. -/
def componentNames : List String := ["red", "green", "blue", "alpha", "x", "y", "z", "w"]

/-- Whether a string has a shader form at a place. -/
def Place.admitsString : Place → String → Bool
  | operand, _ => false
  | colorText, s => (Color.ofCss? s).isSome
  | memberKey, s => componentNames.contains s
  | featureKey, _ => true

/-- The parts of an expression and their places. -/
def placedParts : Expr → List (Place × Expr)
  | color .css (css :: rest) => (.colorText, css) :: rest.map (.operand, ·)
  | featureMember _ key => [(.featureKey, key)]
  | member _ object key => [(.operand, object), (.memberKey, key)]
  | e => e.parts.map (.operand, ·)

/-- `Stands place s outer e` says that `s` stands at `place` somewhere within `e`, which stands at
`outer` itself. -/
inductive Stands (place : Place) (s : Expr) : Place → Expr → Prop
  | here : Stands place s place s
  | part {outer q : Place} {p e : Expr} (hp : (q, p) ∈ e.placedParts) (h : Stands place s q p) :
      Stands place s outer e

/-- Whether the construct at the top of an expression is for evaluation only. -/
def isEvalOnly (place : Place) : Expr → Bool
  | null | undefined | regex _ | regExp _ _ | template _ | className | call _ _ _ => true
  | unary op _ => [UnaryOp.isNaN, .isFinite, .toString, .isClass, .isExactClass].contains op
  | binary op _ _ => [BinaryOp.regexMatch, .regexNotMatch].contains op
  | array items => !([2, 3, 4].contains items.length)
  | featureMember _ (string _) => false
  | featureMember _ _ => true
  | string s => !place.admitsString s
  | _ => false

/-- Nothing within the expression is for evaluation only. -/
def Supported (outer : Place) (e : Expr) : Prop :=
  ∀ place s, Stands place s outer e → s.isEvalOnly place = false

variable {lead : String} {e p : Expr} {es : List Expr} {outer outer' : Place}

/-- Whatever stands within an expression is the expression or stands within a part. -/
theorem supported_iff :
    Supported outer e ↔
      e.isEvalOnly outer = false ∧ ∀ q p, (q, p) ∈ e.placedParts → Supported q p := by
  constructor
  · intro h
    exact ⟨h outer e .here, fun q p hp place s hs ↦ h place s (.part hp hs)⟩
  · rintro ⟨hself, hparts⟩ place s (_ | ⟨hp, hs⟩)
    · exact hself
    · exact hparts _ _ hp place s hs

theorem supported_string_iff {s : String} :
    Supported outer (string s) ↔ outer.admitsString s := by
  rw [supported_iff]
  simp [isEvalOnly, placedParts, parts]

theorem supported_number (x : Float) : Supported outer (number x) := by
  rw [supported_iff]
  simp [isEvalOnly, placedParts, parts]

/-- The place only matters for strings. -/
theorem isEvalOnly_congr (h : ∀ s, e ≠ string s) :
    e.isEvalOnly outer = e.isEvalOnly outer' := by
  cases e with
  | string s => exact absurd rfl (h s)
  | featureMember access key => cases key <;> rfl
  | _ => rfl

theorem supported_iff_operand (h : ∀ s, e ≠ string s) :
    Supported outer e ↔ Supported .operand e := by
  rw [supported_iff, supported_iff, isEvalOnly_congr h]

/-- Operands are looked at one by one. -/
theorem forall_supported_iff :
    (∀ q p, (q, p) ∈ es.map (Place.operand, ·) → Supported q p) ↔
      ∀ p, .part p ∈ es.map Fragment.part → Supported .operand p := by
  constructor
  · intro h p hp
    exact h .operand p (List.mem_map.2 ⟨p, part_mem_map_iff.1 hp, rfl⟩)
  · intro h q p hp
    obtain ⟨p, hp, rfl, rfl⟩ := List.mem_map.1 hp
    exact h p (part_mem_map_iff.2 hp)

/-! ### Constructs and their layouts -/

theorem isSome_componentKey?_string_iff {s : String} :
    (componentKey? (string s)).isSome ↔ componentNames.contains s := by
  constructor
  · intro h
    unfold componentKey? at h
    split at h
    case h_9 => next hs => cases hs
    case h_10 => cases h
    all_goals next hs => exact string.inj hs ▸ (by decide)
  · intro h
    simp only [componentNames, List.contains_eq_mem, List.mem_cons, List.not_mem_nil, or_false,
      decide_eq_true_eq] at h
    rcases h with rfl | rfl | rfl | rfl | rfl | rfl | rfl | rfl <;> rfl

/-- A key is a component, or a supported operand. -/
theorem supported_memberKey_iff {key : Expr} :
    Supported .memberKey key ↔ (componentKey? key).isSome ∨ Supported .operand key := by
  cases key with
  | string s =>
    rw [supported_string_iff, supported_string_iff, isSome_componentKey?_string_iff]
    simp [Place.admitsString]
  | number x =>
    simp only [supported_number, or_true]
  | _ =>
    rw [supported_iff_operand (by simp)]
    simp [componentKey?]

theorem supported_css_iff {args : List Expr} (hlength : args.length ≤ 2) :
    (∀ q p, (q, p) ∈ (color .css args).placedParts → Supported q p) ↔
      (cssLayout? args).isSome ∧
        ∀ p, .part p ∈ (color .css args).slots → Supported .operand p := by
  rcases args with - | ⟨css, rest⟩
  · simp [placedParts, parts, slots, cssLayout?]
  have hlayout : (cssLayout? (css :: rest)).isSome = (cssFragment? css).isSome := by
    rcases rest with - | ⟨alpha, rest⟩ <;> rw [cssLayout?, Option.isSome_map]
  have hplaced : (∀ q p, (q, p) ∈ (color .css (css :: rest)).placedParts → Supported q p) ↔
      Supported .colorText css ∧ ∀ p, .part p ∈ rest.map Fragment.part → Supported .operand p := by
    rw [← forall_supported_iff, placedParts]
    simp only [List.mem_cons, Prod.mk.injEq]
    constructor
    · intro h
      exact ⟨h _ _ (.inl ⟨rfl, rfl⟩), fun q p hp ↦ h q p (.inr hp)⟩
    · rintro ⟨hcss, hrest⟩ q p (⟨rfl, rfl⟩ | hp)
      · exact hcss
      · exact hrest q p hp
  rw [hplaced, hlayout]
  cases css with
  | string s =>
    rw [supported_string_iff, slots, cssFragment?, Option.isSome_map]
    rfl
  | _ =>
    rw [supported_iff_operand (by simp)]
    simp [cssFragment?, slots, parts]

theorem supported_channels_iff (f : ChannelFn) {args : List Expr} (hlength : args.length ≤ 4) :
    (∀ q p, (q, p) ∈ (color (.channels f) args).placedParts → Supported q p) ↔
      ∀ p, .part p ∈ (color (.channels f) args).slots → Supported .operand p := by
  have hplaced : (color (.channels f) args).placedParts = args.map (.operand, ·) := rfl
  rw [hplaced, forall_supported_iff, slots]
  split
  · next hconstants =>
    -- Constant channels are numbers, which are supported anyway.
    obtain ⟨constants, hconstants⟩ := Option.isSome_iff_exists.1 hconstants
    obtain rfl := eq_map_number_of_constantChannels hlength hconstants
    refine iff_of_true (fun p hp ↦ ?_) fun p hp ↦ absurd hp List.not_mem_nil
    obtain ⟨x, -, rfl⟩ := List.mem_map.1 (part_mem_map_iff.1 hp)
    exact supported_number x
  · rfl

theorem supported_member_iff {access : MemberAccess} {object key : Expr} :
    (∀ q p, (q, p) ∈ (member access object key).placedParts → Supported q p) ↔
      ∀ p, .part p ∈ (member access object key).slots → Supported .operand p := by
  have hplaced : (∀ q p, (q, p) ∈ (member access object key).placedParts → Supported q p) ↔
      Supported .operand object ∧ Supported .memberKey key := by
    simp [placedParts, or_imp, forall_and]
  rw [hplaced, supported_memberKey_iff, slots]
  split
  · next hkey => simp [hkey]
  · next hkey => simp [hkey, or_imp, forall_and]

/-- An expression is supported if it has a layout and the parts that are written in it are
supported. -/
theorem supported_iff_slots
    (hcolor : ∀ fn args, e = .color fn args → (colorArity fn).admits args.length) :
    Supported .operand e ↔
      e.fragments?.isSome ∧ ∀ p, .part p ∈ e.slots → Supported .operand p := by
  rw [supported_iff]
  cases e with
  | null | undefined | string | regex | regExp | template | className | call =>
    simp [isEvalOnly, fragments?, Place.admitsString]
  | bool | number | global | property =>
    simp [isEvalOnly, fragments?, placedParts, slots, parts]
  | color fn args =>
    have hadmits := hcolor fn args rfl
    cases fn with
    | css =>
      rw [supported_css_iff (of_decide_eq_true hadmits), fragments?]
      exact and_iff_right rfl
    | channels f =>
      rw [supported_channels_iff f (le_four_of_admits hadmits)]
      exact and_congr_left' (iff_of_true rfl rfl)
  | vector | logical | ternary | conditional =>
    exact and_congr (iff_of_true rfl rfl) forall_supported_iff
  | unary op operand =>
    refine and_congr ?_ forall_supported_iff
    cases op <;> simp [isEvalOnly, fragments?, supportsUnary]
  | binary op left right =>
    refine and_congr ?_ forall_supported_iff
    cases op <;> simp [isEvalOnly, fragments?, supportsBinary]
  | featureMember access key =>
    cases key with
    | string s =>
      refine and_congr (iff_of_true rfl rfl) (iff_of_true (fun q p hp ↦ ?_) (by simp [slots]))
      obtain ⟨rfl, rfl⟩ := Prod.mk.inj (List.mem_singleton.1 hp)
      exact supported_string_iff.2 rfl
    | _ => exact iff_of_false (by simp [isEvalOnly]) (by simp [fragments?])
  | member access object key =>
    exact and_congr (iff_of_true rfl rfl) supported_member_iff
  | array items =>
    refine and_congr ?_ forall_supported_iff
    rw [isEvalOnly, fragments?]
    have hlength : [2, 3, 4].contains items.length ↔ 2 ≤ items.length ∧ items.length ≤ 4 := by
      simp only [List.contains_eq_mem, List.mem_cons, List.not_mem_nil, or_false, decide_eq_true_eq]
      omega
    rw [Bool.not_eq_false', hlength]
    split <;> simp [*]

/-! ### What is written -/

theorem isSome_writeAll_iff {fs : List Fragment} :
    (writeAll lead fs).isSome ↔ ∀ p, .part p ∈ fs → (p.code? lead).isSome := by
  induction fs with
  | nil => simp
  | cons f fs ih =>
    have hcons : (writeAll lead (f :: fs)).isSome ↔
        (f.write lead).isSome ∧ (writeAll lead fs).isSome := by
      rw [writeAll_cons]
      cases f.write lead <;> simp
    rw [hcons, ih]
    cases f <;> simp [or_imp, forall_and]

/-- An expression has a code if it has a layout whose parts have codes. -/
theorem isSome_code_iff_slots
    (hcolor : ∀ fn args, e = .color fn args → (colorArity fn).admits args.length) :
    (e.code? lead).isSome ↔
      e.fragments?.isSome ∧ ∀ p, .part p ∈ e.slots → (p.code? lead).isSome := by
  rw [code?_eq e hcolor]
  rcases hfs : e.fragments? with - | fs
  · simp
  · have hslots (p : Expr) : .part p ∈ fs ↔ .part p ∈ e.slots := by
      rw [← filter_fragments hfs hcolor, List.mem_filter]
      exact (and_iff_left rfl).symm
    rw [Option.bind_some, isSome_writeAll_iff]
    simp [hslots]

/-- **An expression is written exactly if nothing within it is for evaluation only.** -/
theorem isSome_code_iff_supported (e : Expr)
    (hcolor : ∀ fn args, Within (.color fn args) e → (colorArity fn).admits args.length) :
    (e.code? lead).isSome ↔ Supported .operand e := by
  induction e using induction_parts with
  | step e ih =>
    have hself : ∀ fn args, e = .color fn args → (colorArity fn).admits args.length :=
      fun fn args he ↦ hcolor fn args (he ▸ .refl _)
    rw [isSome_code_iff_slots hself, supported_iff_slots hself]
    refine and_congr_right' (forall₂_congr fun p hp ↦ ?_)
    have hpart : p ∈ e.parts := mem_parts_of_mem_slots hp
    exact ih p hpart fun fn args hs ↦ hcolor fn args (.part hpart hs)

/-- The code of a part stands in what is written. -/
theorem exists_code_infix_of_mem {fs : List Fragment} {text : String}
    (h : writeAll lead fs = some text) (hp : .part p ∈ fs) :
    ∃ t, p.code? lead = some t ∧ t.toList <:+: text.toList := by
  induction fs generalizing text with
  | nil => cases hp
  | cons f fs ih =>
    obtain ⟨t, u, hf, hfs, rfl⟩ := writeAll_cons_eq_some_iff.1 h
    rw [String.toList_append]
    rcases List.mem_cons.1 hp with rfl | hp
    · exact ⟨t, hf, (List.prefix_append _ _).isInfix⟩
    · obtain ⟨t', ht', hinfix⟩ := ih hfs hp
      exact ⟨t', ht', hinfix.trans (List.suffix_append _ _).isInfix⟩

/-- **Nothing is left out of the code of an expression**, but for literals. -/
theorem exists_code_infix_of_within {s : Expr} {text : String} (hs : Within s e)
    (hcolor : ∀ fn args, Within (.color fn args) e → (colorArity fn).admits args.length)
    (h : e.code? lead = some text) :
    ((∃ x, s = .number x) ∨ ∃ name, s = .string name) ∨
      ∃ t, s.code? lead = some t ∧ t.toList <:+: text.toList := by
  induction hs generalizing text with
  | refl => exact .inr ⟨text, h, List.infix_rfl⟩
  | @part p e hp hs ih =>
    have hself : ∀ fn args, e = .color fn args → (colorArity fn).admits args.length :=
      fun fn args he ↦ hcolor fn args (he ▸ .refl _)
    have hwrite := h
    rw [code?_eq e hself] at hwrite
    obtain ⟨fs, hfs, hwrite⟩ := Option.bind_eq_some_iff.1 hwrite
    rcases literal_or_part_mem hfs hself hp with hliteral | hmem
    · left
      rwa [eq_of_within_literal hliteral hs]
    · obtain ⟨t, ht, hinfix⟩ := exists_code_infix_of_mem hwrite hmem
      have hcolors : ∀ fn args, Within (.color fn args) p → (colorArity fn).admits args.length :=
        fun fn args hs ↦ hcolor fn args (.part hp hs)
      rcases ih hcolors ht with hliteral | ⟨t', ht', hinfix'⟩
      · exact .inl hliteral
      · exact .inr ⟨t', ht', hinfix'.trans hinfix⟩

/-- **What has a shader form.** If all colours inside of an expression have as many arguments as
their functions take, then for every lead, and whether or not the flag is raised before:

* the expression is written exactly if nothing in it, at its place, is for evaluation only;
* if it is written, then so is everything inside of it by itself, and its code stands in the code
  of the whole, except for numbers and strings. -/
theorem emit_succeeds_iff_supported (e : Expr)
    (hcolor : ∀ fn args, Within (.color fn args) e → (colorArity fn).admits args.length)
    (lead : String) (before : ShaderState) :
    ((∃ text after, (e.emit lead).run.run before = (.ok text, after)) ↔
      ∀ place s, Stands place s .operand e → s.isEvalOnly place = false) ∧
    ∀ text after, (e.emit lead).run.run before = (.ok text, after) → ∀ s, Within s e →
      ((∃ x, s = .number x) ∨ ∃ name, s = .string name) ∨
        ∃ t after', (s.emit lead).run.run before = (.ok t, after') ∧ t.toList <:+: text.toList := by
  refine ⟨?_, fun text after hemit s hs ↦ ?_⟩
  · have hsupported : (∃ text, e.code? lead = some text) ↔ Supported .operand e := by
      rw [← Option.isSome_iff_exists]
      exact isSome_code_iff_supported e hcolor
    refine Iff.trans (exists_congr fun text ↦ ?_) hsupported
    constructor
    · rintro ⟨after, hemit⟩
      exact code?_of_emit hemit
    · intro hcode
      exact exists_emit_of_code? hcode before
  · have hcode := code?_of_emit hemit
    rcases exists_code_infix_of_within hs hcolor hcode with hliteral | ⟨t, ht, hinfix⟩
    · exact .inl hliteral
    · obtain ⟨after', hemit'⟩ := exists_emit_of_code? ht before
      exact .inr ⟨t, after', hemit', hinfix⟩

/-- A colour of a component and a property is written, and it is not once a channel asks for a
class. -/
theorem emit_succeeds_iff_supported_color :
    let red := member .dot (property "v") (string "red")
    let written := color (.channels .rgb) [red, featureMember .brackets (string "g"), number 0]
    let asking := color (.channels .rgb) [red, unary .isClass (string "door"), number 0]
    (∃ text after, (written.emit "a_").run.run ⟨true⟩ = (.ok text, after) ∧
      ∃ t after', (red.emit "a_").run.run ⟨true⟩ = (.ok t, after') ∧ t.toList <:+: text.toList) ∧
    ¬ ∃ text after, (asking.emit "a_").run.run ⟨true⟩ = (.ok text, after) := by
  intro red written asking
  let call (second : SyntaxTree) : SyntaxTree :=
    .call (.identifier "rgb") [.member (.identifier "czm_v") (.identifier "red") false, second,
      .literal (.number 0)]
  have hwritten : ofTree
      (call (.member (.identifier "feature") (.literal (.string "g")) true)) = .ok written := by
    with_unfolding_all rfl
  have hasking : ofTree
      (call (.call (.identifier "isClass") [.literal (.string "door")])) = .ok asking := by
    with_unfolding_all rfl
  have hred : Supported .operand red := by
    rw [supported_iff, supported_member_iff]
    refine ⟨rfl, fun p hp ↦ ?_⟩
    obtain rfl : p = property "v" := by simpa [red, slots, componentKey?] using hp
    rw [supported_iff]
    exact ⟨rfl, fun q p hp ↦ absurd hp List.not_mem_nil⟩
  have hg : Supported .operand (featureMember .brackets (string "g")) := by
    rw [supported_iff]
    refine ⟨rfl, fun q p hp ↦ ?_⟩
    obtain ⟨rfl, rfl⟩ := Prod.mk.inj (List.mem_singleton.1 hp)
    exact supported_string_iff.2 rfl
  have hsupported : Supported .operand written := by
    rw [supported_iff]
    refine ⟨rfl, fun q p hp ↦ ?_⟩
    simp only [written, placedParts, parts, List.map_cons, List.map_nil, List.mem_cons,
      Prod.mk.injEq, List.not_mem_nil, or_false] at hp
    rcases hp with ⟨rfl, rfl⟩ | ⟨rfl, rfl⟩ | ⟨rfl, rfl⟩
    · exact hred
    · exact hg
    · exact supported_number 0
  obtain ⟨hiff, hinside⟩ := emit_succeeds_iff_supported written
    (fun fn args hs ↦ admits_of_within_tree hwritten hs) "a_" ⟨true⟩
  obtain ⟨text, after, htext⟩ := hiff.2 hsupported
  refine ⟨⟨text, after, htext, ?_⟩, fun h ↦ ?_⟩
  · have hwithin : Within red written := .part List.mem_cons_self (.refl red)
    exact (hinside text after htext red hwithin).resolve_left (by simp [red])
  · have hasked := ((emit_succeeds_iff_supported asking
      (fun fn args hs ↦ admits_of_within_tree hasking hs) "a_" ⟨true⟩).1.1 h)
    have hquestion : Stands .operand (unary .isClass (string "door")) .operand asking :=
      .part (List.mem_cons_of_mem _ List.mem_cons_self) .here
    cases hasked _ _ hquestion

end FeatureStyle.Expr
