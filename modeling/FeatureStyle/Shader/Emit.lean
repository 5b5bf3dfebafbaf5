import FeatureStyle.Eval.Operations
import FeatureStyle.Expr.Basic
import FeatureStyle.Shader.Unsupported

/-!
# Expressions as shader code

`Expr.emit` writes an expression in the language of shaders. A property becomes an attribute: its
name behind the given lead. Constants keep a point, so that the shader takes them for floating-point
numbers, and colours of constant channels are computed here.

While it writes, it finds out whether the colours of the expression can be anything but opaque. The
flag is set as soon as an alpha channel is written that is not the constant one, and it is never
taken back; it is part of the outcome also when something later has no shader form.
-/

namespace FeatureStyle

/-- What writing shader code keeps track of. -/
structure ShaderState where
  translucent : Bool
  deriving DecidableEq, Repr

/-- Writing shader code: it may fail, and it may find that a colour is translucent. -/
abbrev Emission := ExceptT ShaderUnsupported (StateM ShaderState)

namespace Shader

/-! ### Texts -/

/-- The opaque alpha channel. -/
def fullAlpha : String := "1.0"

/-- A call of a function. -/
def callText (name : String) (args : List String) : String :=
  name ++ "(" ++ ", ".intercalate args ++ ")"

/-- A row of four components. -/
def vec4Text (components : List String) : String := callText "vec4" components

/-- The red, green and blue channels of a colour. -/
def rgbTexts (c : Color) : List String :=
  [c.red, c.green, c.blue].map Numeric.componentConstantText

/-- An operator between two operands. -/
def binaryText (op : BinaryOp) (left right : String) : String :=
  match op with
  | .arithmetic .rem => callText "mod" [left, right]
  | .strictEq => s!"({left} == {right})"
  | .strictNe => s!"({left} != {right})"
  | .math .atan2 => callText "atan" [left, right]
  | .math f => callText f.name [left, right]
  | op => s!"({left} {op.symbol} {right})"

/-- An operator before its operand. -/
def unaryText (op : UnaryOp) (operand : String) : String :=
  match op with
  | .toBoolean => callText "bool" [operand]
  | .toNumber => callText "float" [operand]
  | .math f => callText f.name [operand]
  | op => s!"{op.name}{operand}"

/-- Whether an operator before its operand has a shader form. -/
def supportsUnary : UnaryOp → Bool
  | .isNaN | .isFinite | .toString | .isExactClass | .isClass => false
  | _ => true

/-- Whether an operator between its operands has a shader form. -/
def supportsBinary : BinaryOp → Bool
  | .regexMatch | .regexNotMatch => false
  | _ => true

/-- The component that the name of one, or a number up to three, stands for as a key. -/
def componentKey? : Expr → Option Nat
  | .string "red" | .string "x" => some 0
  | .string "green" | .string "y" => some 1
  | .string "blue" | .string "z" => some 2
  | .string "alpha" | .string "w" => some 3
  | .number x => (Numeric.exactNat? x).filter (· ≤ 3)
  | _ => none

/-- The channels of a colour, if the first four arguments are all constants. -/
def constantChannels? (args : List Expr) : Option (List Float) :=
  if 3 ≤ args.length then (args.take 4).mapM Expr.literalNumber? else none

/-! ### Translucency -/

/-- Notes that a colour may be translucent. -/
def markTranslucent : Emission Unit := set (ShaderState.mk true)

/-- Notes that a colour may be translucent if its alpha channel is not the constant one. -/
def markAlpha (alpha : String) : Emission Unit :=
  if alpha = fullAlpha then pure () else markTranslucent

/-! ### Colours -/

/-- The colour that a constant stands for in the notation of style sheets. -/
def cssText (text : String) : Emission String :=
  match Color.ofCss? text with
  | some c => pure (callText "vec3" (rgbTexts c))
  | none => throw (.invalidColor text)

/-- A colour of an opaque one and perhaps an alpha channel. -/
def cssColorText (color : String) : List String → Emission String
  | [] => pure (vec4Text [color, fullAlpha])
  | alpha :: _ => do
    markAlpha alpha
    return vec4Text [color, alpha]

/-- The colour of constant channels of red, green and blue, taken as opaque. -/
def constantRgb (constants : List Float) : Color :=
  .ofBytes (Numeric.narrow (constants.getD 0 1)) (Numeric.narrow (constants.getD 1 1))
    (Numeric.narrow (constants.getD 2 1)) 255

/-- The colour of constant channels of hue, saturation and lightness. -/
def constantHsl (hasAlpha : Bool) (constants : List Float) : Color :=
  .ofHsl (constants.getD 0 1) (constants.getD 1 1) (constants.getD 2 1)
    (if hasAlpha then constants.getD 3 1 else 1)

/-- A colour of red, green and blue. Only `rgba` has an alpha channel that is looked at. -/
def rgbText (hasAlpha : Bool) (args : List Expr) (channels : List String) : Emission String := do
  let alpha := channels.getD 3 fullAlpha
  if hasAlpha then markAlpha alpha
  match constantChannels? args with
  | some constants =>
    let c := constantRgb constants
    let alpha := if hasAlpha then Numeric.constantText (constants.getD 3 1) else fullAlpha
    return vec4Text (rgbTexts c ++ [alpha])
  | none =>
    let scaled := (List.range 3).map fun i ↦ channels.getD i fullAlpha ++ " / 255.0"
    return vec4Text (scaled ++ [alpha])

/-- A colour of hue, saturation and lightness. -/
def hslText (hasAlpha : Bool) (args : List Expr) (channels : List String) : Emission String := do
  match constantChannels? args with
  | some constants =>
    let c := constantHsl hasAlpha constants
    if c.alpha != 1 then markTranslucent
    return vec4Text (rgbTexts c ++ [Numeric.componentConstantText c.alpha])
  | none =>
    let alpha := channels.getD 3 fullAlpha
    markAlpha alpha
    let hsl := (List.range 3).map fun i ↦ channels.getD i fullAlpha
    return vec4Text [callText "czm_HSLToRGB" [callText "vec3" hsl], alpha]

/-- A colour of channels. -/
def channelsText : ChannelFn → List Expr → List String → Emission String
  | .rgb => rgbText false
  | .rgba => rgbText true
  | .hsl => hslText false
  | .hsla => hslText true

end Shader

/-! ### Expressions -/

namespace Expr

open Shader

mutual

/-- The shader code of an expression; names of properties stand behind `lead`. -/
def emit (lead : String) : Expr → Emission String
  | null => throw .null
  | undefined => throw .undefined
  | bool b => pure (Value.boolText b)
  | number x => pure (Numeric.constantText x)
  | string s => throw (.stringLiteral s)
  | global g => pure g.uniform
  | regex _ => throw .regularExpression
  | regExp _ _ => throw .regularExpression
  | color .css [] => pure (vec4Text [fullAlpha])
  | color .css (css :: rest) => do
    let c ←
      match css with
      | .string text => cssText text
      | css => css.emit lead
    cssColorText c (← emitAll lead rest)
  | color (.channels f) args => do
    channelsText f args (← emitAll lead args)
  | vector size args => do return callText size.name (← emitAll lead args)
  | property name => pure (lead ++ name)
  | template _ => throw .template
  | unary op operand => do
    if supportsUnary op then return unaryText op (← operand.emit lead)
    else throw (.function op.name)
  | className => throw (.function "getExactClassName")
  | logical op left right => do
    let l ← left.emit lead
    let r ← right.emit lead
    return s!"({l} {op.symbol} {r})"
  | binary op left right => do
    if supportsBinary op then
      let l ← left.emit lead
      let r ← right.emit lead
      return binaryText op l r
    else throw (.function op.symbol)
  | ternary f first second third => do
    let a ← first.emit lead
    let b ← second.emit lead
    let c ← third.emit lead
    return callText f.name [a, b, c]
  | conditional test consequent alternate => do
    let t ← test.emit lead
    let c ← consequent.emit lead
    let a ← alternate.emit lead
    return s!"({t} ? {c} : {a})"
  | featureMember _ key =>
    match key with
    | .string name => pure (lead ++ name)
    | _ => throw .computedProperty
  | member _ object key => do
    let o ← object.emit lead
    match componentKey? key with
    | some i => return s!"{o}[{i}]"
    | none => do
      let k ← key.emit lead
      return s!"{o}[int({k})]"
  | array items => do
    let texts ← emitAll lead items
    let n := texts.length
    if 2 ≤ n ∧ n ≤ 4 then return callText s!"vec{n}" texts
    else throw (.arrayLength n)
  | call method _ _ => throw (.function method.name)

/-- The shader code of expressions, from left to right. -/
def emitAll (lead : String) : List Expr → Emission (List String)
  | [] => pure []
  | e :: es => do
    let text ← e.emit lead
    return text :: (← emitAll lead es)

end

/-- The shader function that returns the value of an expression. -/
def emitFunction (e : Expr) (name lead returnType : String) : Emission String := do
  let text ← e.emit lead
  return s!"{returnType} {name}() \n\x7b \n    return {text}; \n\x7d \n"

end Expr

end FeatureStyle
