import FeatureStyle.Proofs.Eval.Failure
import FeatureStyle.Proofs.Expr.Origin
import FeatureStyle.Proofs.Numeric.One
import FeatureStyle.Proofs.Shader.Quiet
import FeatureStyle.Settings.Validation

/-!
# Colours that are reported opaque

The flag says that a colour of an expression may be translucent. It is decided while code is
written, from the texts of alpha channels; the colours themselves are computed elsewhere, from the
values of arguments.

The two meet in the constant one: no construct but the number one is written as `1.0`
(`eq_number_one_of_code?`), and a colour with that number for its alpha channel has an alpha channel
of one (`alpha_apply`). So **an expression that is reported opaque has no colour but opaque ones**
(`alpha_eq_one_of_emit`). The exception is a colour of a single argument. Its own alpha channel
counts in evaluation, but in its code the constant one stands in that place.
-/

namespace FeatureStyle.Expr

open Emission Fragment Shader

variable {lead : String} {e : Expr} {es : List Expr}

/-! ### The constant one -/

/-- Code of a layout is part of what is written. -/
theorem mem_of_writeAll {fs : List Fragment} {text t : String} {c : Char}
    (h : writeAll lead fs = some text) (ht : .code t ∈ fs) (hc : c ∈ t.toList) :
    c ∈ text.toList := by
  induction fs generalizing text with
  | nil => cases ht
  | cons f fs ih =>
    obtain ⟨front, rest, hfront, hrest, rfl⟩ := writeAll_cons_eq_some_iff.1 h
    rw [String.toList_append, List.mem_append]
    rcases List.mem_cons.1 ht with rfl | ht
    · obtain rfl : t = front := Option.some.inj hfront
      exact .inl hc
    · exact .inr (ih hrest ht)

/-- The layout has code with a character that the constant one lacks. -/
def HasForeign (fs : List Fragment) : Prop :=
  ∃ t c, .code t ∈ fs ∧ c ∈ t.toList ∧ c ∉ fullAlpha.toList

/-- What has a character that the constant one lacks is not the constant one. -/
theorem HasForeign.ne_fullAlpha {fs : List Fragment} {text : String} (hfs : HasForeign fs)
    (h : writeAll lead fs = some text) : text ≠ fullAlpha := by
  rintro rfl
  obtain ⟨t, c, ht, hc, hforeign⟩ := hfs
  exact hforeign (mem_of_writeAll h ht hc)

theorem hasForeign_of_head {t : String} {c : Char} (fs : List Fragment) (hc : c ∈ t.toList)
    (hforeign : c ∉ fullAlpha.toList) : HasForeign (.code t :: fs) :=
  ⟨t, c, List.mem_cons_self, hc, hforeign⟩

/-- A call has a parenthesis. -/
theorem hasForeign_call (name : String) (args : List (List Fragment)) :
    HasForeign (Fragment.call name args) :=
  hasForeign_of_head (c := '(') _ (by simp) (by decide)

/-- So has an operator between its operands. -/
theorem hasForeign_between (operator : String) (left right : Expr) :
    HasForeign (Fragment.between operator left right) :=
  hasForeign_of_head (c := '(') _ (by simp) (by decide)

/-- So has a row of constants. -/
theorem hasForeign_vec4Text (components : List String) :
    HasForeign [.code (vec4Text components)] :=
  hasForeign_of_head (c := '(') _ (by simp [vec4Text, callText]) (by decide)

/-- Hence no colour of style sheets is written as the constant one. -/
theorem hasForeign_cssLayout {args : List Expr} {fs : List Fragment}
    (h : cssLayout? args = some fs) : HasForeign fs := by
  unfold cssLayout? at h
  split at h
  · cases h
    exact hasForeign_vec4Text _
  · obtain ⟨f, -, rfl⟩ := Option.map_eq_some_iff.1 h
    exact hasForeign_call _ _
  · obtain ⟨f, -, rfl⟩ := Option.map_eq_some_iff.1 h
    exact hasForeign_call _ _

/-- Nor is a colour of channels. -/
theorem hasForeign_channelsLayout (f : ChannelFn) (args : List Expr) :
    HasForeign (channelsLayout f args) := by
  rw [channelsLayout]
  split
  · cases f <;> exact hasForeign_vec4Text _
  · cases f <;> exact hasForeign_call _ _

/-- Nor is an operator before its operand. -/
theorem hasForeign_unaryLayout (op : UnaryOp) (operand : Expr) :
    HasForeign (unaryLayout op operand) := by
  cases op with
  | toBoolean | toNumber | math => exact hasForeign_call _ _
  | not | negative | positive | isNaN | isFinite | isExactClass | isClass | toString =>
    exact hasForeign_of_head _ (List.head_mem (by decide)) (by decide)

/-- Nor is one between its operands. -/
theorem hasForeign_binaryLayout (op : BinaryOp) (left right : Expr) :
    HasForeign (binaryLayout op left right) := by
  unfold binaryLayout
  split <;> first | exact hasForeign_call _ _ | exact hasForeign_between _ _ _

/-- Nor is a member, which has a bracket or a dot behind its object. -/
theorem hasForeign_memberLayout (object key : Expr) : HasForeign (memberLayout object key) := by
  unfold memberLayout
  split
  · next i _ =>
    exact ⟨s!"[{i}]", '[', by simp, by simp [toString], by decide⟩
  · exact ⟨"[int(", '[', by simp, by simp, by decide⟩

/-- Only a number or a reference may be written as the constant one. -/
theorem hasForeign_of_fragments {fs : List Fragment} (h : e.fragments? = some fs)
    (hnumber : ∀ x, e ≠ .number x) (hproperty : ∀ name, e ≠ .property name)
    (hmember : ∀ access name, e ≠ .featureMember access (.string name)) : HasForeign fs := by
  cases e with
  | null | undefined | string | regex | regExp | template | className | call => cases h
  | number x => exact absurd rfl (hnumber x)
  | property name => exact absurd rfl (hproperty name)
  | bool b =>
    cases h
    cases b
    · exact hasForeign_of_head (c := 'f') _ (by decide) (by decide)
    · exact hasForeign_of_head (c := 't') _ (by decide) (by decide)
  | global g =>
    cases h
    cases g
    exact hasForeign_of_head (c := 'u') _ (by decide) (by decide)
  | color fn args =>
    cases fn with
    | css => exact hasForeign_cssLayout h
    | channels f =>
      cases h
      exact hasForeign_channelsLayout f args
  | vector | ternary =>
    cases h
    exact hasForeign_call _ _
  | unary op operand =>
    rw [fragments?] at h
    split at h <;> cases h
    exact hasForeign_unaryLayout op operand
  | logical =>
    cases h
    exact hasForeign_between _ _ _
  | binary op left right =>
    rw [fragments?] at h
    split at h <;> cases h
    exact hasForeign_binaryLayout op left right
  | conditional =>
    cases h
    exact hasForeign_of_head (c := '(') _ (by decide) (by decide)
  | featureMember access key =>
    cases key with
    | string name => exact absurd rfl (hmember access name)
    | _ => cases h
  | member access object key =>
    cases h
    exact hasForeign_memberLayout object key
  | array items =>
    rw [fragments?] at h
    split at h <;> cases h
    exact hasForeign_call _ _

/-- A lead does not start with a digit. -/
theorem eq_empty_of_append_eq_fullAlpha {name : String} (hlead : isIdentifierLead lead)
    (h : lead ++ name = fullAlpha) : lead = "" ∧ name = fullAlpha := by
  by_cases hempty : lead = ""
  · subst hempty
    exact ⟨rfl, by rwa [String.empty_append] at h⟩
  · obtain ⟨c, cs, hcs⟩ := List.exists_cons_of_ne_nil (mt String.toList_eq_nil_iff.1 hempty)
    have hhead := congrArg String.toList h
    rw [String.toList_append, hcs] at hhead
    obtain ⟨rfl, -⟩ := List.cons.inj hhead
    rw [isIdentifierLead, hcs] at hlead
    cases hlead

/-- **Only the number one is written as the constant one.** Without a lead, so is a property of
that name. -/
theorem eq_number_one_of_code? (hlead : isIdentifierLead lead)
    (hcolor : ∀ fn args, e = .color fn args → (colorArity fn).admits args.length)
    (hname : lead = "" → e ≠ .property fullAlpha ∧
      ∀ access, e ≠ .featureMember access (.string fullAlpha))
    (h : e.code? lead = some fullAlpha) : e = .number 1 := by
  rw [code?_eq e hcolor] at h
  obtain ⟨fs, hfs, hwrite⟩ := Option.bind_eq_some_iff.1 h
  by_contra hone
  refine absurd rfl ((hasForeign_of_fragments hfs ?_ ?_ ?_).ne_fullAlpha hwrite)
  · rintro x rfl
    cases hfs
    have hconstant : Numeric.constantText x = fullAlpha := by simpa using hwrite
    exact hone (congrArg number (Numeric.eq_one_of_constantText hconstant))
  · rintro name rfl
    cases hfs
    obtain ⟨hempty, rfl⟩ := eq_empty_of_append_eq_fullAlpha hlead (by simpa using hwrite)
    exact (hname hempty).1 rfl
  · rintro access name rfl
    cases hfs
    obtain ⟨hempty, rfl⟩ := eq_empty_of_append_eq_fullAlpha hlead (by simpa using hwrite)
    exact (hname hempty).2 access rfl

/-! ### Alpha channels that are written -/

/-- The argument for the alpha channel of a colour, if there is one. -/
def alpha? : ColorFn → List Expr → Option Expr
  | .css, args => args[1]?
  | .channels .rgba, args | .channels .hsla, args => args[3]?
  | .channels .rgb, _ | .channels .hsl, _ => none

/-- If `rgba` leaves the flag alone, its alpha channel was written as the constant one. -/
theorem alpha_of_quiet_rgbText {args : List Expr} {texts : List String} {text : String}
    (h : (rgbText true args texts).Quiet text) : texts.getD 3 fullAlpha = fullAlpha := by
  rw [rgbText] at h
  dsimp only at h
  rw [if_pos rfl] at h
  generalize constantChannels? args = constants at h
  obtain ⟨_, hmark, -⟩ :=
    (quiet_bind_iff fun _ ↦ by cases constants <;> exact steady_pure _).1 h
  exact quiet_markAlpha_iff.1 hmark

/-- If `hsla` does, that is so, or the channels are constants and the colour of them is opaque. -/
theorem alpha_of_quiet_hslText {args : List Expr} {texts : List String} {text : String}
    (h : (hslText true args texts).Quiet text) :
    texts.getD 3 fullAlpha = fullAlpha ∨ ∃ constants, constantChannels? args = some constants ∧
      (constantHsl true constants).alpha = 1 := by
  rw [hslText] at h
  rcases hconstants : constantChannels? args with - | constants
  · rw [hconstants] at h
    obtain ⟨_, hmark, -⟩ := (quiet_bind_iff fun _ ↦ steady_pure _).1 h
    exact .inl (quiet_markAlpha_iff.1 hmark)
  · rw [hconstants] at h
    dsimp only at h
    refine .inr ⟨constants, rfl, Numeric.eq_one_of_beq ?_⟩
    by_contra hone
    rw [if_pos (by simpa [bne] using hone)] at h
    obtain ⟨_, hmark, -⟩ := (quiet_bind_iff fun _ ↦ steady_pure _).1 h
    exact not_quiet_markTranslucent hmark

/-- The alpha channel is given by one of the arguments. -/
theorem mem_of_alpha? {fn : ColorFn} {args : List Expr} {a : Expr} (h : alpha? fn args = some a) :
    a ∈ args := by
  unfold alpha? at h
  split at h <;> first | exact List.mem_of_getElem? h | cases h

/-- The alpha channel of a quiet colour is the constant one, unless the colour has been computed
from constants and found to be opaque. -/
theorem quiet_alpha {fn : ColorFn} {args : List Expr} {text : String} {a : Expr}
    (hadmits : (colorArity fn).admits args.length)
    (h : ((color fn args).emit lead).Quiet text) (ha : alpha? fn args = some a) :
    (a.emit lead).Quiet fullAlpha ∨
      ∃ constants, fn = .channels .hsla ∧ args = constants.map number ∧
        (ChannelFn.hsla.apply constants).alpha = 1 := by
  match fn with
  | .css =>
    have hlength : args.length ≤ 2 := of_decide_eq_true hadmits
    obtain ⟨css, rfl⟩ : ∃ css, args = [css, a] := by
      match args with
      | [css, alpha] => exact ⟨css, by cases ha; rfl⟩
      | [] | [_] => cases ha
      | _ :: _ :: _ :: _ => simp at hlength
    obtain ⟨-, c, texts, htexts, hcolor⟩ := quiet_css_cons h
    obtain ⟨alpha, _, halpha, hnil, rfl⟩ :=
      List.forall₂_cons_left_iff.1 (quiet_emitAll_iff.1 htexts)
    obtain ⟨_, hmark, -⟩ := (quiet_bind_iff fun _ ↦ steady_pure _).1 hcolor
    exact .inl (quiet_markAlpha_iff.1 hmark ▸ halpha)
  | .channels .rgba =>
    obtain ⟨r, g, b, a, rfl⟩ := exists_of_length_eq_four (beq_iff_eq.1 hadmits)
    cases ha
    rw [emit, quiet_bind_iff fun _ ↦ steady_channelsText _ _ _] at h
    obtain ⟨texts, htexts, hcolor⟩ := h
    exact .inl (alpha_of_quiet_rgbText hcolor ▸ quiet_fourth htexts)
  | .channels .hsla =>
    obtain ⟨r, g, b, a, rfl⟩ := exists_of_length_eq_four (beq_iff_eq.1 hadmits)
    cases ha
    rw [emit, quiet_bind_iff fun _ ↦ steady_channelsText _ _ _] at h
    obtain ⟨texts, htexts, hcolor⟩ := h
    rcases alpha_of_quiet_hslText hcolor with halpha | ⟨constants, hconstants, hone⟩
    · exact .inl (halpha ▸ quiet_fourth htexts)
    · exact .inr ⟨constants, rfl, eq_map_number_of_constantChannels (le_refl 4) hconstants, hone⟩

/-! ### Alpha channels that are evaluated -/

/-- The number is that of a value which the expression can have. -/
def GivesNumber (e : Expr) (x : Float) : Prop := ∃ v, e.eval.Gives v ∧ v.toNumber = x

/-- Channels that are evaluated are numbers of the arguments, in order. -/
theorem gives_evalChannels {n : Nat} {xs : List Float} (h : (evalChannels n es).Gives xs) :
    List.Forall₂ GivesNumber (es.take n) xs := by
  induction es generalizing n xs with
  | nil =>
    rw [evalChannels] at h
    obtain rfl := Evaluation.gives_pure_iff.1 h
    rw [List.take_nil]
    exact .nil
  | cons e es ih =>
    cases n with
    | zero =>
      rw [evalChannels] at h
      · obtain rfl := Evaluation.gives_pure_iff.1 h
        exact .nil
      · simp
    | succ n =>
      rw [evalChannels] at h
      obtain ⟨v, hv, h⟩ := Evaluation.gives_bind_iff.1 h
      obtain ⟨xs, hxs, h⟩ := Evaluation.gives_bind_iff.1 h
      obtain rfl := Evaluation.gives_pure_iff.1 h
      exact .cons ⟨v, hv, rfl⟩ (ih hxs)

/-- The alpha channel of a colour of hue, saturation and lightness is the given one. -/
theorem alpha_ofHsl (hue saturation lightness alpha : Float) :
    (Color.ofHsl hue saturation lightness alpha).alpha = Numeric.narrow alpha := by
  rw [Color.ofHsl]
  rcases Hsl.channels hue saturation lightness with ⟨red, green, blue⟩
  rfl

/-- A colour of channels is opaque if its alpha channel is one. -/
theorem alpha_apply {f : ChannelFn} {channels : List Float} (h : channels.getD 3 1 = 1) :
    (f.apply channels).alpha = 1 := by
  cases f with
  | rgb =>
    show (255 : Float32) / 255 = 1
    decide
  | rgba =>
    show Numeric.narrow (channels.getD 3 1 * 255) / 255 = 1
    rw [h]
    decide
  | hsl | hsla =>
    rw [ChannelFn.apply, alpha_ofHsl, h, Numeric.narrow_one]

/-- A literal number has no other value. -/
theorem GivesNumber.eq {x y : Float} (h : (number x).GivesNumber y) : y = x := by
  obtain ⟨v, hv, rfl⟩ := h
  rw [eval] at hv
  rw [Evaluation.gives_pure_iff.1 hv, Value.toNumber]

/-- Nor have several. -/
theorem eq_of_gives_numbers {xs ys : List Float}
    (h : List.Forall₂ GivesNumber (xs.map number) ys) :
    ys = xs := by
  induction xs generalizing ys with
  | nil => exact List.forall₂_nil_left_iff.1 h
  | cons x xs ih =>
    obtain ⟨y, ys, hy, hys, rfl⟩ := List.forall₂_cons_left_iff.1 h
    rw [GivesNumber.eq hy, ih hys]

/-- A colour of channels has the numbers of its arguments for channels. -/
theorem exists_channels_of_gives {f : ChannelFn} {args : List Expr} {v : Value}
    (hlength : args.length ≤ 4) (h : (color (.channels f) args).eval.Gives v) :
    ∃ channels, List.Forall₂ GivesNumber args channels ∧ v = .color (f.apply channels) := by
  rw [eval] at h
  obtain ⟨channels, hchannels, h⟩ := Evaluation.gives_bind_iff.1 h
  have hall := gives_evalChannels hchannels
  rw [List.take_of_length_le hlength] at hall
  exact ⟨channels, hall, Evaluation.gives_pure_iff.1 h⟩

/-- **A colour with the literal one for its alpha channel is opaque.** -/
theorem alpha_apply_of_fourth {f : ChannelFn} {r g b : Expr} {channels : List Float}
    (h : List.Forall₂ GivesNumber [r, g, b, number 1] channels) :
    (f.apply channels).alpha = 1 := by
  simp only [List.forall₂_cons_left_iff, List.forall₂_nil_left_iff] at h
  obtain ⟨_, _, -, ⟨_, _, -, ⟨_, _, -, ⟨_, _, hx, rfl, rfl⟩, rfl⟩, rfl⟩, rfl⟩ := h
  exact alpha_apply (GivesNumber.eq hx)

/-- An alpha channel that is given takes the place of the one that a colour has. -/
theorem alpha_of_gives_css {css : Expr} {v : Value}
    (h : (color .css [css, number 1]).eval.Gives v) : ∃ c, v = .color c ∧ c.alpha = 1 := by
  rw [eval] at h
  obtain ⟨w, -, h⟩ := Evaluation.gives_bind_iff.1 h
  obtain ⟨c, -, h⟩ := Evaluation.gives_bind_iff.1 h
  obtain ⟨a, ha, h⟩ := Evaluation.gives_bind_iff.1 h
  have hone : a.toNumber = 1 := GivesNumber.eq ⟨a, ha, rfl⟩
  refine ⟨_, Evaluation.gives_pure_iff.1 h, ?_⟩
  show Numeric.narrow a.toNumber = 1
  rw [hone, Numeric.narrow_one]

/-! ### Quiet colours -/

/-- **A colour that is written quietly is opaque.** A single argument in the notation of style
sheets keeps the alpha channel that it has. -/
theorem alpha_eq_one_of_quiet {fn : ColorFn} {args : List Expr} {text : String} {v : Value}
    (hadmits : (colorArity fn).admits args.length)
    (hquiet : ((color fn args).emit lead).Quiet text)
    (hone : ∀ a, alpha? fn args = some a → (a.emit lead).Quiet fullAlpha → a = .number 1)
    (hv : (color fn args).eval.Gives v) :
    ∃ c, v = .color c ∧ (c.alpha = 1 ∨
      ∃ css w, fn = .css ∧ args = [css] ∧ css.eval.Gives w ∧ w.cssColor = .ok c) := by
  match fn, args with
  | .css, [] =>
    rw [eval] at hv
    exact ⟨_, Evaluation.gives_pure_iff.1 hv, .inl rfl⟩
  | .css, [css] =>
    rw [eval] at hv
    obtain ⟨w, hw, hv⟩ := Evaluation.gives_bind_iff.1 hv
    obtain ⟨c, hc, hv⟩ := Evaluation.gives_bind_iff.1 hv
    exact ⟨c, Evaluation.gives_pure_iff.1 hv,
      .inr ⟨css, w, rfl, rfl, hw, Evaluation.gives_liftExcept_iff.1 hc⟩⟩
  | .css, [css, a] =>
    rcases quiet_alpha hadmits hquiet rfl with halpha | ⟨_, hfn, -, -⟩
    · obtain rfl := hone a rfl halpha
      obtain ⟨c, hc, halpha⟩ := alpha_of_gives_css hv
      exact ⟨c, hc, .inl halpha⟩
    · cases hfn
  | .css, _ :: _ :: _ :: _ => cases hadmits
  | .channels f, args =>
    obtain ⟨channels, hchannels, rfl⟩ := exists_channels_of_gives (le_four_of_admits hadmits) hv
    refine ⟨_, rfl, .inl ?_⟩
    cases f with
    | rgb | hsl =>
      -- There is no fourth channel, and one that is not given is full.
      have hlength : channels.length = 3 := hchannels.length_eq ▸ beq_iff_eq.1 hadmits
      exact alpha_apply (List.getD_eq_default _ _ (Nat.le_of_eq hlength))
    | rgba =>
      obtain ⟨r, g, b, a, rfl⟩ := exists_of_length_eq_four (beq_iff_eq.1 hadmits)
      rcases quiet_alpha hadmits hquiet rfl with halpha | ⟨_, hfn, -, -⟩
      · obtain rfl := hone a rfl halpha
        exact alpha_apply_of_fourth hchannels
      · cases hfn
    | hsla =>
      obtain ⟨r, g, b, a, rfl⟩ := exists_of_length_eq_four (beq_iff_eq.1 hadmits)
      rcases quiet_alpha hadmits hquiet rfl with halpha | ⟨constants, -, hconstants, halpha⟩
      · obtain rfl := hone a rfl halpha
        exact alpha_apply_of_fourth hchannels
      · rw [hconstants] at hchannels
        rw [eq_of_gives_numbers hchannels]
        exact halpha

/-- **An expression that is reported opaque has no colour but opaque ones.** Let an expression be
written with the flag down from beginning to end. Then each colour within it has an alpha channel of
one, whatever pool it is evaluated with and whatever the feature answers, except that

* a colour of a single argument has the alpha channel that its argument denotes in the notation of
  style sheets. By design its code has the constant one in that place, so the shader never shows it;
* without a lead, nothing is said of a colour that has a property of the name `1.0` for its alpha
  channel. -/
theorem alpha_eq_one_of_emit {t : SyntaxTree} {text : String} (htree : ofTree t = .ok e)
    (hlead : isIdentifierLead lead)
    (hemit : (e.emit lead).run.run ⟨false⟩ = (.ok text, ⟨false⟩)) {fn : ColorFn} {args : List Expr}
    (hs : Within (color fn args) e)
    (hname : lead = "" → ∀ a, alpha? fn args = some a →
      a ≠ .property fullAlpha ∧ ∀ access, a ≠ .featureMember access (.string fullAlpha))
    {pool after : ScratchPool} {v : Value}
    (hv : ((color fn args).evaluateIn pool).Ends (.ok v, after)) :
    ∃ c, v = .color c ∧ (c.alpha = 1 ∨ ∃ css w code, fn = .css ∧ args = [css] ∧
      css.eval.Gives w ∧ w.cssColor = .ok c ∧
      (color fn args).code? lead = some (vec4Text [code, fullAlpha])) := by
  rcases exists_quiet_of_within hemit hs with (⟨x, ⟨⟩⟩ | ⟨name, ⟨⟩⟩) | ⟨text, hquiet⟩
  have hone (a : Expr) (ha : alpha? fn args = some a) (halpha : (a.emit lead).Quiet fullAlpha) :
      a = .number 1 := by
    have hpart : a ∈ (color fn args).parts := mem_of_alpha? ha
    have hwithin : Within a e := (Within.part hpart (.refl a)).trans hs
    refine eq_number_one_of_code? hlead (fun fn args ha ↦ ?_) (fun hempty ↦ hname hempty a ha)
      (code?_of_emit halpha)
    exact admits_of_within_tree htree (ha ▸ hwithin)
  obtain ⟨c, hc, halpha | ⟨css, w, rfl, rfl, hw, hcss⟩⟩ := alpha_eq_one_of_quiet
    (admits_of_within_tree htree hs) hquiet hone (gives_of_evaluateIn hv)
  · exact ⟨c, hc, .inl halpha⟩
  · have hcode := code?_of_emit hquiet
    rw [code?_color_css_cons] at hcode
    obtain ⟨code, hfragment, -⟩ := Option.bind_eq_some_iff.1 hcode
    refine ⟨c, hc, .inr ⟨css, w, code, rfl, rfl, hw, hcss, ?_⟩⟩
    rw [code?_color_css_cons, hfragment]
    rfl

/-- A colour with a property for its red channel, and the constant one for its alpha channel. -/
theorem alpha_eq_one_of_emit_rgba :
    let e := color (.channels .rgba) [property "r", number 0, number 0, number 1]
    (e.emit "a_").run.run ⟨false⟩ =
        (.ok "vec4(a_r / 255.0, 0.0 / 255.0, 0.0 / 255.0, 1.0)", ⟨false⟩) ∧
      ∃ c after, (e.evaluateIn .empty).Ends (.ok (.color c), after) ∧ c.alpha = 1 := by
  intro e
  let t : SyntaxTree := .call (.identifier "rgba")
    [.identifier "czm_r", .literal (.number 0), .literal (.number 0), .literal (.number 1)]
  have htree : ofTree t = .ok e := by with_unfolding_all rfl
  have hemit : (e.emit "a_").run.run ⟨false⟩ =
      (.ok "vec4(a_r / 255.0, 0.0 / 255.0, 0.0 / 255.0, 1.0)", ⟨false⟩) := by
    with_unfolding_all rfl
  have hrun : ∃ v after, (e.evaluateIn .empty).run (.ofProperty fun _ ↦ some (.number 255)) =
      (.ok v, after) := ⟨_, _, by with_unfolding_all rfl⟩
  obtain ⟨v, after, hrun⟩ := hrun
  have hends := Dialogue.ends_run (.ofProperty fun _ ↦ some (.number 255)) (e.evaluateIn .empty)
  rw [hrun] at hends
  obtain ⟨c, rfl, halpha | ⟨css, w, code, hfn, -⟩⟩ := alpha_eq_one_of_emit htree (by decide) hemit
    (.refl e) (fun hempty ↦ absurd hempty (by decide)) hends
  · exact ⟨hemit, c, after, hends, halpha⟩
  · cases hfn

/-- `color('transparent')` is reported opaque, and it is transparent for every feature. -/
theorem emit_opaque_transparent :
    let e := color .css [string "transparent"]
    ofTree (.call (.identifier "color") [.literal (.string "transparent")]) = .ok e ∧
      isIdentifierLead "a_" ∧
      (e.emit "a_").run.run ⟨false⟩ = (.ok "vec4(vec3(0.0, 0.0, 0.0), 1.0)", ⟨false⟩) ∧
      ∃ c, c.alpha ≠ 1 ∧ ∀ feature : Subject, ∃ after,
        (e.evaluateIn .empty).run feature = (.ok (.color c), after) := by
  intro e
  refine ⟨?_, by decide, ?_, .ofBytes 0 0 0 0, by decide, fun feature ↦ ?_⟩
  · with_unfolding_all rfl
  · with_unfolding_all rfl
  · exact ⟨_, by with_unfolding_all rfl⟩

end FeatureStyle.Expr
