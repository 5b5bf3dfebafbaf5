import FeatureStyle.Expr.Build
import FeatureStyle.Proofs.Expr.Part
import FeatureStyle.Proofs.Shader.Outcome
import Mathlib.Data.List.Basic

/-!
# The layout of shader code

The code of an expression is laid out in **fragments**: code that only depends on the topmost
construct, the name of a property, or the code of a part. `Expr.fragments?` is the layout of every
construct that has a shader form, and `writeAll` puts fragments together.

**The code of an expression is written exactly if it has a layout whose parts can be written, and it
is what its fragments come to** (`code?_eq`). The one condition is that a colour has as many
arguments as its function takes, which every built expression meets; arguments beyond that are
written and then dropped.
-/

namespace FeatureStyle

/-- A piece of the code of an expression. -/
inductive Fragment
  | code (text : String)
  /-- The attribute of the property with the given name. -/
  | reference (name : String)
  /-- The code of another expression. -/
  | part (e : Expr)

namespace Expr

/-- The shader code of an expression, if it has one. -/
def code? (lead : String) (e : Expr) : Option String := (e.emit lead).value?

end Expr

namespace Fragment

variable {lead : String}

/-! ### Writing fragments -/

/-- What a fragment comes to. -/
def write (lead : String) : Fragment → Option String
  | code text => some text
  | reference name => some (lead ++ name)
  | part e => e.code? lead

/-- What fragments come to, one after the other. -/
def writeAll (lead : String) : List Fragment → Option String
  | [] => some ""
  | f :: fs => do
    let text ← f.write lead
    return text ++ (← writeAll lead fs)

@[simp] theorem write_code (text : String) : (code text).write lead = some text := rfl

@[simp] theorem write_reference (name : String) :
    (reference name).write lead = some (lead ++ name) := rfl

@[simp] theorem write_part (e : Expr) : (part e).write lead = e.code? lead := rfl

@[simp] theorem writeAll_nil : writeAll lead [] = some "" := rfl

@[simp] theorem writeAll_cons (f : Fragment) (fs : List Fragment) :
    writeAll lead (f :: fs) =
      (f.write lead).bind fun text ↦ (writeAll lead fs).map (text ++ ·) := by
  rw [writeAll]
  cases f.write lead <;> cases writeAll lead fs <;> rfl

/-- Fragments can be written exactly if the first one can and the others can. -/
theorem writeAll_cons_eq_some_iff {f : Fragment} {fs : List Fragment} {text : String} :
    writeAll lead (f :: fs) = some text ↔
      ∃ t u, f.write lead = some t ∧ writeAll lead fs = some u ∧ text = t ++ u := by
  simp [Option.bind_eq_some_iff, Option.map_eq_some_iff, eq_comm (a := text)]

/-- Two runs of fragments are written one behind the other. -/
@[simp] theorem writeAll_append (fs gs : List Fragment) :
    writeAll lead (fs ++ gs) =
      (writeAll lead fs).bind fun text ↦ (writeAll lead gs).map (text ++ ·) := by
  induction fs with
  | nil => simp
  | cons f fs ih =>
    rw [List.cons_append, writeAll, ih, writeAll]
    cases f.write lead <;> cases writeAll lead fs <;> cases writeAll lead gs <;>
      simp [String.append_assoc]

/-- A call of a function; every argument is laid out by itself. -/
def call (name : String) (args : List (List Fragment)) : List Fragment :=
  .code (name ++ "(") :: (List.intercalate [.code ", "] args ++ [.code ")"])

/-- Arguments laid out with commas between them come to their codes with commas between them. -/
theorem writeAll_intercalate (args : List (List Fragment)) :
    writeAll lead (List.intercalate [.code ", "] args) =
      (args.mapM (writeAll lead)).map (", ".intercalate ·) := by
  match args with
  | [] => rfl
  | [fs] => cases h : writeAll lead fs <;> simp [List.intercalate_singleton, h]
  | fs :: gs :: rest =>
    rw [List.intercalate_cons_cons, writeAll_append, writeAll_append,
      writeAll_intercalate (gs :: rest), List.mapM_cons, List.mapM_cons, writeAll_cons]
    cases hfs : writeAll lead fs <;> cases hgs : writeAll lead gs <;>
    cases hrest : rest.mapM (writeAll lead) <;>
    simp [hgs, hrest, String.intercalate_cons_cons, String.append_assoc]

/-- The layout of a call comes to the call of the codes of its arguments. -/
theorem writeAll_call (name : String) (args : List (List Fragment)) :
    writeAll lead (call name args) = (args.mapM (writeAll lead)).map (Shader.callText name) := by
  rw [call, writeAll_cons, writeAll_append, writeAll_intercalate]
  cases args.mapM (writeAll lead) <;> simp [Shader.callText, String.append_assoc]

/-- The same for two arguments of one fragment each, which are written in order. -/
theorem writeAll_call_two (name : String) (f g : Fragment) :
    writeAll lead (call name [[f], [g]]) =
      (f.write lead).bind fun x ↦ (g.write lead).map fun y ↦ Shader.callText name [x, y] := by
  cases hf : f.write lead <;> cases hg : g.write lead <;> simp [writeAll_call, hf, hg]

/-- An operator, with blanks around it, between its operands. -/
def between (operator : String) (left right : Expr) : List Fragment :=
  [.code "(", .part left, .code operator, .part right, .code ")"]

/-! ### Slots -/

/-- Whether a fragment is more than code. -/
def isSlot : Fragment → Bool
  | code _ => false
  | _ => true

/-- A call has the slots of its arguments, and no others. -/
theorem filter_call (name : String) (args : List (List Fragment)) :
    (call name args).filter isSlot = args.flatMap (·.filter isSlot) := by
  have hintercalate : (List.intercalate [.code ", "] args).filter isSlot =
      args.flatMap (·.filter isSlot) := by
    induction args with
    | nil => rfl
    | cons fs args ih =>
      cases args with
      | nil => simp [List.intercalate_singleton]
      | cons gs rest => simp [List.intercalate_cons_cons, ih, isSlot]
  simp [call, hintercalate, isSlot]

/-- In particular a call of parts has these parts as its slots. -/
theorem filter_call_parts (name : String) (es : List Expr) :
    (call name (es.map ([.part ·]))).filter isSlot = es.map .part := by
  rw [filter_call]
  induction es with
  | nil => rfl
  | cons e es ih =>
    rw [List.map_cons, List.flatMap_cons, ih]
    rfl

end Fragment

/-! ### Layouts -/

namespace Expr

open Emission Fragment Shader

/-- The layout of an operator before its operand. -/
def unaryLayout (op : UnaryOp) (operand : Expr) : List Fragment :=
  match op with
  | .toBoolean => Fragment.call "bool" [[.part operand]]
  | .toNumber => Fragment.call "float" [[.part operand]]
  | .math f => Fragment.call f.name [[.part operand]]
  | op => [.code op.name, .part operand]

/-- The layout of an operator between its operands. -/
def binaryLayout (op : BinaryOp) (left right : Expr) : List Fragment :=
  match op with
  | .arithmetic .rem => Fragment.call "mod" [[.part left], [.part right]]
  | .strictEq => Fragment.between " == " left right
  | .strictNe => Fragment.between " != " left right
  | .math .atan2 => Fragment.call "atan" [[.part left], [.part right]]
  | .math f => Fragment.call f.name [[.part left], [.part right]]
  | op => Fragment.between s!" {op.symbol} " left right

/-- The opaque colour in the notation of style sheets; a text is read here. -/
def cssFragment? : Expr → Option Fragment
  | .string text => (Color.ofCss? text).map fun c ↦ .code (callText "vec3" (rgbTexts c))
  | css => some (.part css)

/-- The layout of a colour in the notation of style sheets. -/
def cssLayout? : List Expr → Option (List Fragment)
  | [] => some [.code (vec4Text [fullAlpha])]
  | [css] => (cssFragment? css).map fun color ↦ Fragment.call "vec4" [[color], [.code fullAlpha]]
  | css :: alpha :: _ =>
    (cssFragment? css).map fun color ↦ Fragment.call "vec4" [[color], [.part alpha]]

/-- The code of a colour whose channels are all constants. -/
def constantColorText (f : ChannelFn) (constants : List Float) : String :=
  match f with
  | .rgb => vec4Text (rgbTexts (constantRgb constants) ++ [fullAlpha])
  | .rgba =>
    vec4Text (rgbTexts (constantRgb constants) ++ [Numeric.constantText (constants.getD 3 1)])
  | .hsl =>
    let c := constantHsl false constants
    vec4Text (rgbTexts c ++ [Numeric.componentConstantText c.alpha])
  | .hsla =>
    let c := constantHsl true constants
    vec4Text (rgbTexts c ++ [Numeric.componentConstantText c.alpha])

/-- The layout of a channel of a colour. A missing one is full. -/
def channelLayout (args : List Expr) (i : Nat) : Fragment :=
  match args[i]? with
  | some e => .part e
  | none => .code fullAlpha

/-- The layout of a colour of channels. -/
def channelsLayout (f : ChannelFn) (args : List Expr) : List Fragment :=
  match constantChannels? args with
  | some constants => [.code (constantColorText f constants)]
  | none =>
    let channel := channelLayout args
    match f with
    | .rgb | .rgba =>
      Fragment.call "vec4" [[channel 0, .code " / 255.0"], [channel 1, .code " / 255.0"],
        [channel 2, .code " / 255.0"], [channel 3]]
    | .hsl | .hsla =>
      Fragment.call "vec4" [Fragment.call "czm_HSLToRGB"
        [Fragment.call "vec3" [[channel 0], [channel 1], [channel 2]]], [channel 3]]

/-- The layout of a member. A component has a constant for a key. -/
def memberLayout (object key : Expr) : List Fragment :=
  match componentKey? key with
  | some i => [.part object, .code s!"[{i}]"]
  | none => [.part object, .code "[int(", .part key, .code ")]"]

/-- The layout of an expression, if it has a shader form. -/
def fragments? : Expr → Option (List Fragment)
  | bool b => some [.code (Value.boolText b)]
  | number x => some [.code (Numeric.constantText x)]
  | global g => some [.code g.uniform]
  | property name | featureMember _ (.string name) => some [.reference name]
  | color .css args => cssLayout? args
  | color (.channels f) args => some (channelsLayout f args)
  | vector size args => some (Fragment.call size.name (args.map ([.part ·])))
  | unary op operand => if supportsUnary op then some (unaryLayout op operand) else none
  | logical op left right => some (Fragment.between s!" {op.symbol} " left right)
  | binary op left right => if supportsBinary op then some (binaryLayout op left right) else none
  | ternary f first second third =>
    some (Fragment.call f.name [[.part first], [.part second], [.part third]])
  | conditional test consequent alternate =>
    some [.code "(", .part test, .code " ? ", .part consequent, .code " : ", .part alternate,
      .code ")"]
  | member _ object key => some (memberLayout object key)
  | array items =>
    if 2 ≤ items.length ∧ items.length ≤ 4 then
      some (Fragment.call s!"vec{items.length}" (items.map ([.part ·])))
    else none
  | null | undefined | string _ | regex _ | template _ | className | featureMember _ _
  | call _ _ _ | regExp _ _ => none

/-! ### Every construct is written as it is laid out -/

variable {lead : String}

/-- Behind the code of a part, a steady emission goes on with its text. -/
theorem value?_emit_bind {α : Type} {f : String → Emission α} (hf : ∀ text, (f text).Steady)
    (e : Expr) :
    (e.emit lead >>= f).value? = (e.code? lead).bind fun text ↦ (f text).value? :=
  Emission.value?_bind hf

/-- The same for a text that is only put into a form. -/
theorem value?_emit_bind_pure {α : Type} (f : String → α) (e : Expr) :
    (e.emit lead >>= fun text ↦ pure (f text)).value? = (e.code? lead).map f :=
  Emission.value?_bind_pure

theorem steady_emit_bind_pure {α : Type} (f : String → α) (e : Expr) :
    (e.emit lead >>= fun text ↦ pure (f text) : Emission α).Steady :=
  steady_bind (steady_emit lead e) fun _ ↦ steady_pure _

/-- The codes of several expressions are there exactly if each one of them is. -/
theorem value?_emitAll (es : List Expr) : (emitAll lead es).value? = es.mapM (code? lead) := by
  induction es with
  | nil => rfl
  | cons e es ih =>
    rw [emitAll, value?_emit_bind fun _ ↦ steady_bind
      (steady_emitAll fun e _ ↦ steady_emit lead e) fun _ ↦ steady_pure _]
    simp only [value?_bind_pure, ih, List.mapM_cons]
    cases e.code? lead <;> cases es.mapM (code? lead) <;> rfl

/-- Results of all members of a list are one list of results. -/
theorem mapM_eq_some_iff {α β : Type} {f : α → Option β} {as : List α} {bs : List β} :
    as.mapM f = some bs ↔ as.map f = bs.map some := by
  induction as generalizing bs with
  | nil => cases bs <;> simp
  | cons a as ih =>
    cases h : f a <;> cases hs : as.mapM f <;> cases bs <;> simp [h, hs, ← ih]

/-- Arguments that are parts are written as these parts. -/
theorem mapM_writeAll_part (es : List Expr) :
    (es.map ([.part ·])).mapM (writeAll lead) = es.mapM (code? lead) := by
  rw [List.mapM_map]
  congr 1
  funext e
  cases h : e.code? lead <;> simp [h]

/-- The code of two parts, one after the other. -/
theorem value?_two (f : String → String → String) (a b : Expr) :
    (do
      let x ← a.emit lead
      let y ← b.emit lead
      return f x y : Emission String).value? =
      (a.code? lead).bind fun x ↦ (b.code? lead).map (f x) := by
  rw [value?_emit_bind fun _ ↦ steady_emit_bind_pure _ b]
  simp only [value?_emit_bind_pure]

/-- The code of a construct with three parts is made of the codes of the three, in order. -/
theorem value?_three (f : String → String → String → String) (a b c : Expr) :
    (do
      let x ← a.emit lead
      let y ← b.emit lead
      let z ← c.emit lead
      return f x y z : Emission String).value? =
      (a.code? lead).bind fun x ↦ (b.code? lead).bind fun y ↦ (c.code? lead).map (f x y) := by
  rw [value?_emit_bind fun _ ↦ steady_bind (steady_emit lead b) fun _ ↦ steady_emit_bind_pure _ c]
  simp only [value?_two]

/-! Colours are written from the codes of their arguments. -/

/-- Looking at an alpha always succeeds: it only sets the flag. -/
theorem value?_markAlpha (alpha : String) : (markAlpha alpha).value? = some () := by
  rw [markAlpha]
  split <;> rfl

theorem value?_markAlpha_bind (alpha text : String) :
    (markAlpha alpha >>= fun _ ↦ pure text : Emission String).value? = some text := by
  rw [value?_bind_pure (f := fun _ ↦ text), value?_markAlpha]
  rfl

/-- Nor does it matter to a code on which condition the flag is set. -/
theorem value?_ite_mark {c : Prop} [Decidable c] (text : String) :
    (if c then markTranslucent >>= fun _ ↦ pure text else pure text : Emission String).value? =
      some text := by
  split <;> rfl

/-- The code of a text in the notation of style sheets is there if the text is a colour. -/
theorem value?_cssText (text : String) :
    (cssText text).value? = (Color.ofCss? text).map fun c ↦ callText "vec3" (rgbTexts c) := by
  rw [cssText]
  cases Color.ofCss? text <;> rfl

/-- Its alpha is the first further argument, or full. -/
theorem value?_cssColorText (color : String) (rest : List String) :
    (cssColorText color rest).value? = some (vec4Text [color, rest.headD fullAlpha]) := by
  cases rest with
  | nil => rfl
  | cons alpha rest =>
    exact value?_markAlpha_bind alpha _

/-- A colour of style sheets is the code of its text with the code of its alpha behind it. All
further arguments are written as well, so any of them can refuse. -/
theorem code?_color_css_cons (css : Expr) (rest : List Expr) :
    code? lead (.color .css (css :: rest)) =
      ((cssFragment? css).bind (Fragment.write lead)).bind fun c ↦
        (rest.mapM (code? lead)).map fun texts ↦ vec4Text [c, texts.headD fullAlpha] := by
  have hsteady (c : String) : (emitAll lead rest >>= cssColorText c).Steady :=
    steady_bind (steady_emitAll fun e _ ↦ steady_emit lead e) fun _ ↦ steady_cssColorText c _
  have hcolor (c : String) : (emitAll lead rest >>= cssColorText c).value? =
      (rest.mapM (code? lead)).map fun texts ↦ vec4Text [c, texts.headD fullAlpha] := by
    rw [value?_bind fun texts ↦ steady_cssColorText c texts, value?_emitAll]
    cases rest.mapM (code? lead) <;> simp [value?_cssColorText]
  rw [code?]
  unfold emit
  split
  · simp only [value?_bind hsteady, value?_cssText, hcolor, cssFragment?]
    cases Color.ofCss? _ <;> rfl
  · next hcss =>
    have hpart : cssFragment? css = some (.part css) := by
      unfold cssFragment?
      split
      · exact absurd rfl (hcss _)
      · rfl
    simp only [value?_emit_bind hsteady, hcolor, hpart, Option.bind_some, Fragment.write]

/-- **A colour of style sheets is written as it is laid out**, with no arguments that are dropped.
-/
theorem code?_color_css (args : List Expr) (hlength : args.length ≤ 2) :
    code? lead (.color .css args) = (cssLayout? args).bind (writeAll lead) := by
  match args with
  | [] =>
    rw [code?, emit, value?_pure, cssLayout?, Option.bind_some]
    simp
  | [css] =>
    rw [code?_color_css_cons, cssLayout?]
    cases hcss : cssFragment? css with
    | none => rfl
    | some f =>
      simp only [Option.bind_some, Option.map_some, writeAll_call_two]
      rfl
  | [css, alpha] =>
    rw [code?_color_css_cons, cssLayout?]
    cases hcss : cssFragment? css with
    | none => rfl
    | some f =>
      simp only [Option.bind_some, Option.map_some, writeAll_call_two, write_part]
      cases halpha : alpha.code? lead <;> simp [halpha, vec4Text]
  | _ :: _ :: _ :: _ => simp at hlength

/-- The code of a colour whose channels have the given codes. -/
def channelsCode (f : ChannelFn) (args : List Expr) (channels : List String) : String :=
  match constantChannels? args with
  | some constants => constantColorText f constants
  | none =>
    let channel (i : Nat) := channels.getD i fullAlpha
    match f with
    | .rgb | .rgba =>
      vec4Text [channel 0 ++ " / 255.0", channel 1 ++ " / 255.0", channel 2 ++ " / 255.0",
        channel 3]
    | .hsl | .hsla =>
      vec4Text [callText "czm_HSLToRGB" [callText "vec3" [channel 0, channel 1, channel 2]],
        channel 3]

/-- The code of a colour of channels always is there once its arguments are written. -/
theorem value?_channelsText (f : ChannelFn) (args : List Expr) (channels : List String) :
    (channelsText f args channels).value? = some (channelsCode f args channels) := by
  rw [channelsCode]
  cases f with
  | rgb =>
    rw [channelsText, rgbText]
    cases constantChannels? args <;> rfl
  | rgba =>
    rw [channelsText, rgbText]
    cases constantChannels? args <;> exact value?_markAlpha_bind _ _
  | hsl =>
    rw [channelsText, hslText]
    cases constantChannels? args with
    | none => exact value?_markAlpha_bind _ _
    | some constants => exact value?_ite_mark _
  | hsla =>
    rw [channelsText, hslText]
    cases constantChannels? args with
    | none => exact value?_markAlpha_bind _ _
    | some constants => exact value?_ite_mark _

theorem literalNumber?_eq_some_iff {e : Expr} {x : Float} :
    e.literalNumber? = some x ↔ e = .number x := by
  cases e <;> simp [literalNumber?]

/-- All of several arguments are literal numbers exactly if they are the literals of these numbers.
-/
theorem map_literalNumber?_eq_iff {args : List Expr} {constants : List Float} :
    args.map literalNumber? = constants.map some ↔ args = constants.map .number := by
  induction args generalizing constants with
  | nil => cases constants <;> simp
  | cons a args ih => cases constants <;> simp [literalNumber?_eq_some_iff, ih]

/-- Channels are only constant if all arguments are numbers. -/
theorem eq_map_number_of_constantChannels {args : List Expr} {constants : List Float}
    (hlength : args.length ≤ 4) (h : constantChannels? args = some constants) :
    args = constants.map .number := by
  rw [constantChannels?] at h
  split at h
  · rwa [List.take_of_length_le hlength, mapM_eq_some_iff, map_literalNumber?_eq_iff] at h
  · cases h

/-- A colour of channels takes at most four arguments. -/
theorem le_four_of_admits {f : ChannelFn} {n : Nat}
    (h : (colorArity (.channels f)).admits n) : n ≤ 4 := by
  cases f <;> simp [colorArity, Arity.admits] at h <;> omega

theorem exists_of_length_eq_four {α : Type} {as : List α} (h : as.length = 4) :
    ∃ a b c d, as = [a, b, c, d] := by
  match as, h with
  | [a, b, c, d], _ => exact ⟨a, b, c, d, rfl⟩

/-- **A colour of channels is written as it is laid out**, constant or not. -/
theorem code?_color_channels (f : ChannelFn) (args : List Expr)
    (hadmits : (colorArity (.channels f)).admits args.length) :
    code? lead (.color (.channels f) args) = writeAll lead (channelsLayout f args) := by
  have hcode : code? lead (.color (.channels f) args) =
      (args.mapM (code? lead)).map (channelsCode f args) := by
    rw [code?, emit, value?_bind fun _ ↦ steady_channelsText f args _, value?_emitAll]
    cases args.mapM (code? lead) <;> simp [value?_channelsText]
  rw [hcode, channelsLayout]
  rcases hconstants : constantChannels? args with - | constants
  · -- The channels are written one after the other, and the first one without code fails both.
    cases f with
    | rgb | hsl =>
      obtain ⟨r, g, b, rfl⟩ := List.length_eq_three.1 (beq_iff_eq.1 hadmits)
      cases hr : r.code? lead <;> cases hg : g.code? lead <;> cases hb : b.code? lead <;>
      simp [channelsCode, hconstants, channelLayout, writeAll_call, hr, hg, hb, vec4Text]
    | rgba | hsla =>
      obtain ⟨r, g, b, a, rfl⟩ := exists_of_length_eq_four (beq_iff_eq.1 hadmits)
      cases hr : r.code? lead <;> cases hg : g.code? lead <;> cases hb : b.code? lead <;>
      cases ha : a.code? lead <;>
      simp [channelsCode, hconstants, channelLayout, writeAll_call, hr, hg, hb, ha, vec4Text]
  · obtain rfl := eq_map_number_of_constantChannels (le_four_of_admits hadmits) hconstants
    have hnumbers : (constants.map number).mapM (code? lead) =
        some (constants.map Numeric.constantText) := by
      rw [mapM_eq_some_iff, List.map_map, List.map_map]
      exact List.map_congr_left fun x _ ↦ by rw [Function.comp_apply, code?, emit, value?_pure]; rfl
    rw [hnumbers, Option.map_some, channelsCode, hconstants]
    simp

/-- The layout of an operator before its operand comes to the text that the emission writes. -/
theorem writeAll_unaryLayout (op : UnaryOp) (operand : Expr) :
    writeAll lead (unaryLayout op operand) = (operand.code? lead).map (unaryText op) := by
  unfold unaryLayout unaryText
  cases h : operand.code? lead <;> split <;> simp [writeAll_call, h, toString]

/-- An operator with blanks around it stands between the codes of its operands. -/
theorem writeAll_between (operator : String) (left right : Expr) :
    writeAll lead (between operator left right) =
      (left.code? lead).bind fun l ↦ (right.code? lead).map fun r ↦
        "(" ++ l ++ operator ++ r ++ ")" := by
  cases hl : left.code? lead <;> cases hr : right.code? lead <;>
  simp [between, hl, hr, String.append_assoc]

/-- The layout of an operator between its operands comes to the text that the emission writes. -/
theorem writeAll_binaryLayout (op : BinaryOp) (left right : Expr) :
    writeAll lead (binaryLayout op left right) =
      (left.code? lead).bind fun l ↦ (right.code? lead).map (binaryText op l) := by
  unfold binaryLayout binaryText
  split <;>
  simp only [writeAll_call_two, write_part, writeAll_between, toString, String.append_assoc]

/-- **The code of an expression is what its fragments come to.** -/
theorem code?_eq (e : Expr)
    (hcolor : ∀ fn args, e = .color fn args → (colorArity fn).admits args.length) :
    e.code? lead = e.fragments?.bind (writeAll lead) := by
  cases e with
  | null | undefined | string | regex | regExp | template | className | call =>
    rw [code?, emit, value?_throw, fragments?, Option.bind_none]
  | bool | number | global | property =>
    rw [code?, emit, value?_pure, fragments?, Option.bind_some]
    simp
  | color fn args =>
    have hadmits := hcolor fn args rfl
    cases fn with
    | css => exact code?_color_css args (of_decide_eq_true hadmits)
    | channels f =>
      rw [code?_color_channels f args hadmits, fragments?, Option.bind_some]
  | vector size args =>
    rw [code?, emit, value?_bind_pure, value?_emitAll, fragments?, Option.bind_some,
      writeAll_call, mapM_writeAll_part]
  | unary op operand =>
    rw [code?, emit, fragments?]
    split
    · rw [value?_emit_bind_pure, Option.bind_some, writeAll_unaryLayout]
    · rw [value?_throw, Option.bind_none]
  | logical op left right =>
    rw [code?, emit, value?_two, fragments?, Option.bind_some, writeAll_between]
    simp only [toString, String.append_assoc]
  | binary op left right =>
    rw [code?, emit, fragments?]
    split
    · rw [value?_two, Option.bind_some, writeAll_binaryLayout]
    · rw [value?_throw, Option.bind_none]
  | ternary f first second third =>
    rw [code?, emit, value?_three, fragments?, Option.bind_some, writeAll_call]
    cases hfirst : first.code? lead <;> cases hsecond : second.code? lead <;>
    cases hthird : third.code? lead <;> simp [hfirst, hsecond, hthird]
  | conditional test consequent alternate =>
    rw [code?, emit, value?_three, fragments?, Option.bind_some]
    cases htest : test.code? lead <;> cases hconsequent : consequent.code? lead <;>
    cases halternate : alternate.code? lead <;>
    simp [htest, hconsequent, halternate, toString, String.append_assoc]
  | featureMember access key =>
    cases key with
    | string name =>
      rw [code?, emit, value?_pure, fragments?, Option.bind_some]
      simp
    | _ => rfl
  | member access object key =>
    rw [code?, emit, fragments?, Option.bind_some, memberLayout]
    rcases componentKey? key with - | i
    · rw [value?_two]
      cases hobject : object.code? lead <;> cases hkey : key.code? lead <;>
      simp [hobject, hkey, toString, String.append_assoc]
    · rw [value?_emit_bind_pure]
      cases hobject : object.code? lead <;> simp [hobject, toString, String.append_assoc]
  | array items =>
    rw [code?, emit, value?_bind fun _ ↦ steady_ite (steady_pure _) (steady_throw _),
      value?_emitAll, fragments?]
    rcases hitems : items.mapM (code? lead) with - | texts
    · split
      · rw [Option.bind_some, writeAll_call, mapM_writeAll_part, hitems]
        rfl
      · rfl
    · have hlength : texts.length = items.length := by
        simpa using (congrArg List.length (mapM_eq_some_iff.1 hitems)).symm
      simp only [Option.bind_eq_bind, Option.bind_some, hlength]
      split
      · rw [value?_pure, Option.bind_some, writeAll_call, mapM_writeAll_part, hitems]
        rfl
      · rw [value?_throw, Option.bind_none]

/-! ### What a layout is made of -/

/-- What an expression writes besides code: its reference, or those of its parts that are neither
constant channels nor names. -/
def slots : Expr → List Fragment
  | property name | featureMember _ (.string name) => [.reference name]
  | color .css (.string _ :: rest) => rest.map .part
  | color (.channels _) args => if (constantChannels? args).isSome then [] else args.map .part
  | member _ object key =>
    if (componentKey? key).isSome then [.part object] else [.part object, .part key]
  | e => e.parts.map .part

/-- A laid out colour of style sheets has the slots of its arguments. -/
theorem filter_cssLayout {args : List Expr} {fs : List Fragment} (h : cssLayout? args = some fs)
    (hlength : args.length ≤ 2) : fs.filter isSlot = (color .css args).slots := by
  match args with
  | [] =>
    cases h
    rfl
  | [css] | [css, alpha] =>
    obtain ⟨f, hf, rfl⟩ := Option.map_eq_some_iff.1 h
    cases css with
    | string text =>
      obtain ⟨c, -, rfl⟩ := Option.map_eq_some_iff.1 hf
      rfl
    | _ =>
      cases hf
      rfl
  | _ :: _ :: _ :: _ => simp at hlength

/-- So has a colour of channels. Constants are no slots on either side. -/
theorem filter_channelsLayout (f : ChannelFn) {args : List Expr}
    (hadmits : (colorArity (.channels f)).admits args.length) :
    (channelsLayout f args).filter isSlot = (color (.channels f) args).slots := by
  rw [channelsLayout, slots]
  rcases constantChannels? args with - | constants
  · cases f with
    | rgb | hsl =>
      obtain ⟨r, g, b, rfl⟩ := List.length_eq_three.1 (beq_iff_eq.1 hadmits)
      rfl
    | rgba | hsla =>
      obtain ⟨r, g, b, a, rfl⟩ := exists_of_length_eq_four (beq_iff_eq.1 hadmits)
      rfl
  · rfl

/-- **A layout has the slots of its expression, each one once and in order.** -/
theorem filter_fragments {e : Expr} {fs : List Fragment} (h : e.fragments? = some fs)
    (hcolor : ∀ fn args, e = .color fn args → (colorArity fn).admits args.length) :
    fs.filter isSlot = e.slots := by
  cases e with
  | null | undefined | string | regex | regExp | template | className | call => cases h
  | bool | number | global | property =>
    cases h
    rfl
  | color fn args =>
    have hadmits := hcolor fn args rfl
    cases fn with
    | css => exact filter_cssLayout h (of_decide_eq_true hadmits)
    | channels f =>
      cases h
      exact filter_channelsLayout f hadmits
  | vector size args =>
    cases h
    exact filter_call_parts size.name args
  | unary op operand =>
    rw [fragments?] at h
    split at h <;> cases h
    unfold unaryLayout
    split <;> rfl
  | logical op left right | ternary f first second third | conditional test consequent alternate =>
    cases h
    rfl
  | binary op left right =>
    rw [fragments?] at h
    split at h <;> cases h
    unfold binaryLayout
    split <;> rfl
  | featureMember access key =>
    cases key with
    | string name =>
      cases h
      rfl
    | _ => cases h
  | member access object key =>
    cases h
    rw [memberLayout, slots]
    rcases componentKey? key with - | i <;> rfl
  | array items =>
    rw [fragments?] at h
    split at h <;> cases h
    exact filter_call_parts _ items

/-! The slots of an expression are its name or parts of it, and a part without a slot is a constant
or a name. -/

theorem part_mem_map_iff {p : Expr} {es : List Expr} : .part p ∈ es.map Fragment.part ↔ p ∈ es :=
  List.mem_map_of_injective fun _ _ ↦ Fragment.part.inj

/-- A part in a slot is one of the parts of the expression. -/
theorem mem_parts_of_mem_slots {e p : Expr} (h : .part p ∈ e.slots) : p ∈ e.parts := by
  unfold slots at h
  split at h
  · cases List.mem_singleton.1 h
  · cases List.mem_singleton.1 h
  · exact List.mem_cons_of_mem _ (part_mem_map_iff.1 h)
  · split at h
    · cases h
    · exact part_mem_map_iff.1 h
  · next object key =>
    split at h
    · cases List.mem_singleton.1 h
      exact List.mem_cons_self
    · have hmap : .part p ∈ [object, key].map Fragment.part := h
      exact part_mem_map_iff.1 hmap
  · exact part_mem_map_iff.1 h

/-- A key that selects a component is a literal. -/
theorem literal_of_componentKey? {key : Expr} (h : (componentKey? key).isSome) :
    (∃ x, key = .number x) ∨ ∃ s, key = .string s := by
  unfold componentKey? at h
  split at h <;> first | exact .inr ⟨_, rfl⟩ | exact .inl ⟨_, rfl⟩ | cases h

/-- **A part has a slot, unless it is a literal**: nothing else is dropped from the code. -/
theorem mem_slots_of_mem_parts {e p : Expr} (h : p ∈ e.parts)
    (hcolor : ∀ fn args, e = .color fn args → (colorArity fn).admits args.length)
    (hnumber : ∀ x, p ≠ .number x) (hstring : ∀ s, p ≠ .string s) : .part p ∈ e.slots := by
  unfold slots
  split
  · cases h
  · exact absurd (List.mem_singleton.1 h) (hstring _)
  · rcases List.mem_cons.1 h with rfl | h
    · exact absurd rfl (hstring _)
    · exact part_mem_map_iff.2 h
  · next f args =>
    split
    · next hconstants =>
      obtain ⟨constants, hconstants⟩ := Option.isSome_iff_exists.1 hconstants
      have hlength := le_four_of_admits (hcolor _ _ rfl)
      obtain rfl := eq_map_number_of_constantChannels hlength hconstants
      obtain ⟨x, -, hx⟩ := List.mem_map.1 h
      exact absurd hx.symm (hnumber x)
    · exact part_mem_map_iff.2 h
  · next object key =>
    rcases List.mem_cons.1 h with rfl | h
    · split <;> exact List.mem_cons_self
    · obtain rfl := List.mem_singleton.1 h
      split
      · next hkey =>
        rcases literal_of_componentKey? hkey with ⟨x, hx⟩ | ⟨s, hs⟩
        · exact absurd hx (hnumber x)
        · exact absurd hs (hstring s)
      · exact List.mem_cons_of_mem _ List.mem_cons_self
  · exact part_mem_map_iff.2 h

/-- The names in the slots are those the topmost construct reads. -/
theorem reference_mem_slots_iff {e : Expr} {name : String} :
    .reference name ∈ e.slots ↔
      e = .property name ∨ ∃ access, e = .featureMember access (.string name) := by
  have hparts (es : List Expr) : .reference name ∉ es.map Fragment.part := by simp
  unfold slots
  split
  · simp [eq_comm]
  · simp [eq_comm]
  · exact iff_of_false (hparts _) (by simp)
  · refine iff_of_false ?_ (by simp)
    split
    · exact List.not_mem_nil
    · exact hparts _
  · next object key =>
    refine iff_of_false ?_ (by simp)
    split
    · exact hparts [object]
    · exact hparts [object, key]
  · next hproperty hmember _ _ _ =>
    refine iff_of_false (hparts _) ?_
    rintro (rfl | ⟨access, rfl⟩)
    · exact hproperty name rfl
    · exact hmember access name rfl

/-! ### Steps into a layout -/

section Steps

variable {e p : Expr} {fs : List Fragment}

/-- The references of a layout. -/
theorem reference_mem_fragments_iff (h : e.fragments? = some fs)
    (hcolor : ∀ fn args, e = .color fn args → (colorArity fn).admits args.length) {name : String} :
    .reference name ∈ fs ↔
      e = .property name ∨ ∃ access, e = .featureMember access (.string name) := by
  rw [← reference_mem_slots_iff, ← filter_fragments h hcolor, List.mem_filter]
  exact (and_iff_left rfl).symm

/-- The parts of a layout are parts of the expression. -/
theorem mem_parts_of_mem_fragments (h : e.fragments? = some fs)
    (hcolor : ∀ fn args, e = .color fn args → (colorArity fn).admits args.length)
    (hp : .part p ∈ fs) : p ∈ e.parts := by
  refine mem_parts_of_mem_slots ?_
  rw [← filter_fragments h hcolor]
  exact List.mem_filter.2 ⟨hp, rfl⟩

/-- A part that a layout leaves out is a literal. -/
theorem literal_or_part_mem (h : e.fragments? = some fs)
    (hcolor : ∀ fn args, e = .color fn args → (colorArity fn).admits args.length)
    (hp : p ∈ e.parts) : ((∃ x, p = .number x) ∨ ∃ s, p = .string s) ∨ .part p ∈ fs := by
  by_cases hliteral : (∃ x, p = .number x) ∨ ∃ s, p = .string s
  · exact .inl hliteral
  · have hslot : .part p ∈ e.slots := mem_slots_of_mem_parts hp hcolor
      (fun x hx ↦ hliteral (.inl ⟨x, hx⟩)) fun s hs ↦ hliteral (.inr ⟨s, hs⟩)
    rw [← filter_fragments h hcolor] at hslot
    exact .inr (List.mem_of_mem_filter hslot)

/-- A literal has nothing within it but itself. -/
theorem eq_of_within_literal {s : Expr} (hp : (∃ x, p = .number x) ∨ ∃ name, p = .string name)
    (hs : Within s p) : s = p := by
  rcases hp with ⟨x, rfl⟩ | ⟨name, rfl⟩ <;> rcases within_iff.1 hs with hs | ⟨_, ⟨⟩, -⟩ <;> exact hs

/-- The parts in a layout that is written are written themselves. -/
theorem exists_code_of_mem {text : String} (h : writeAll lead fs = some text)
    (hp : .part p ∈ fs) : ∃ t, p.code? lead = some t := by
  induction fs generalizing text with
  | nil => cases hp
  | cons f fs ih =>
    obtain ⟨t, u, hf, hfs, -⟩ := writeAll_cons_eq_some_iff.1 h
    rcases List.mem_cons.1 hp with rfl | hp
    · exact ⟨t, hf⟩
    · exact ih hfs hp

/-- The code of an expression is what is written, whatever the flag is. -/
theorem code?_of_emit {text : String} {before after : ShaderState}
    (h : (e.emit lead).run.run before = (.ok text, after)) : e.code? lead = some text := by
  rw [steady_emit lead e before] at h
  rw [code?, value?, (Prod.mk.inj h).1]
  rfl

/-- An expression with a code is emitted as that code from every state. -/
theorem exists_emit_of_code? {text : String} (h : e.code? lead = some text)
    (before : ShaderState) : ∃ after, (e.emit lead).run.run before = (.ok text, after) := by
  rw [steady_emit lead e before]
  rw [code?, value?] at h
  rcases hresult : (e.emit lead).result with error | t
  · rw [hresult] at h
    cases h
  · rw [hresult] at h
    cases h
    exact ⟨_, rfl⟩

end Steps

/-- The expression writes the property with the given name. -/
def RefersTo (e : Expr) (name : String) : Prop :=
  ∃ s, Within s e ∧ (s = .property name ∨ ∃ access, s = .featureMember access (.string name))

/-- An expression refers to what its topmost construct reads and to what its parts refer to. -/
theorem refersTo_iff {e : Expr} {name : String} :
    e.RefersTo name ↔
      (e = .property name ∨ ∃ access, e = .featureMember access (.string name)) ∨
        ∃ p ∈ e.parts, p.RefersTo name := by
  constructor
  · rintro ⟨s, hs, hname⟩
    rcases within_iff.1 hs with rfl | ⟨p, hp, hs⟩
    · exact .inl hname
    · exact .inr ⟨p, hp, s, hs, hname⟩
  · rintro (hname | ⟨p, hp, s, hs, hname⟩)
    · exact ⟨e, .refl e, hname⟩
    · exact ⟨s, .part hp hs, hname⟩

@[simp] theorem refersTo_property {name name' : String} :
    (property name).RefersTo name' ↔ name = name' := by
  rw [refersTo_iff]
  simp [parts]

@[simp] theorem refersTo_featureMember_string {access : MemberAccess} {name name' : String} :
    (featureMember access (.string name)).RefersTo name' ↔ name = name' := by
  rw [refersTo_iff]
  simp [parts, refersTo_iff (e := .string name)]

@[simp] theorem refersTo_unary {op : UnaryOp} {operand : Expr} {name : String} :
    (unary op operand).RefersTo name ↔ operand.RefersTo name := by
  rw [refersTo_iff]
  simp [parts]

end Expr

end FeatureStyle
