import FeatureStyle.Color.Named
import FeatureStyle.Numeric.Language
import FeatureStyle.Value.Composite

/-!
# Colours as style sheets write them

`Color.ofCss?` reads a colour in the form of a style sheet: a name, hexadecimal digits with or
without a number sign, or a function of three arguments and an optional alpha.

* Arguments are separated by commas, slashes and blanks in any mixture.
* In `rgb`, all three are percentages or none is. So are the last two in `hsl`, `hwb` and `hsv`,
  whose first argument is a hue in one of four units.
* The computation is in single precision, and every channel is rounded to a byte at the end.
-/

namespace FeatureStyle

namespace Css

open Numeric (Decimal)

/-- The bytes of a colour. -/
structure Bytes where
  red : UInt8
  green : UInt8
  blue : UInt8
  alpha : UInt8
  deriving DecidableEq, Repr

/-! ### Hexadecimal digits -/

/-- A byte from one digit, which is written twice. -/
def hexDigitByte? (c : Char) : Option UInt8 :=
  (Numeric.readWhole? 16 256 [c]).map fun n ↦ .ofNat (17 * n)

/-- A byte from two digits. A plus sign may take the place of the first. -/
def hexByte? (c d : Char) : Option UInt8 :=
  (Numeric.readWhole? 16 256 [c, d]).map .ofNat

/-- Three, four, six or eight digits. -/
def readHex? : List Char → Option Bytes
  | [r, g, b] => do return ⟨← hexDigitByte? r, ← hexDigitByte? g, ← hexDigitByte? b, 255⟩
  | [r, g, b, a] => do
    return ⟨← hexDigitByte? r, ← hexDigitByte? g, ← hexDigitByte? b, ← hexDigitByte? a⟩
  | [r, r', g, g', b, b'] => do return ⟨← hexByte? r r', ← hexByte? g g', ← hexByte? b b', 255⟩
  | [r, r', g, g', b, b', a, a'] => do
    return ⟨← hexByte? r r', ← hexByte? g g', ← hexByte? b b', ← hexByte? a a'⟩
  | _ => none

/-! ### Arguments -/

/-- A number of an argument. Infinities and NaN may be written by name. -/
def readSingle? (cs : List Char) : Option Float32 :=
  let (negative, rest) := Numeric.splitSign cs
  let signed (x : Float32) : Float32 := if negative then -x else x
  match String.ofList (rest.map Char.toLower) with
  | "inf" | "infinity" => some (signed (1 / 0))
  | "nan" => some (0 / 0)
  | _ => (Decimal.readUnsigned? rest).map (Decimal.toFloat32 negative)

/-- The text without an ending, in any case. -/
def dropEnding? (ending : String) (cs : List Char) : Option (List Char) :=
  let kept := cs.length - ending.length
  if ending.length ≤ cs.length && (cs.drop kept).map Char.toLower == ending.toList then
    some (cs.take kept)
  else none

/-- A percentage, or else a number divided by `unit`; `true` for a percentage. -/
def readFraction? (unit : Float32) (cs : List Char) : Option (Float32 × Bool) :=
  let percentage := do
    let x ← readSingle? (← dropEnding? "%" cs)
    return (x / 100, true)
  percentage <|> (readSingle? cs).map fun x ↦ (x / unit, false)

/-- The number of degrees in a radian. -/
def degreesPerRadian : Float32 := .ofBits 0x42652EE1

/-- A hue in degrees. -/
def readHue? (cs : List Char) : Option Float32 :=
  let unit (ending : String) (degrees : Float32 → Float32) : Option Float32 := do
    return degrees (← readSingle? (← dropEnding? ending cs))
  unit "deg" id <|> unit "grad" (· * 360 / 400) <|> unit "rad" (· * degreesPerRadian) <|>
    unit "turn" (· * 360) <|> readSingle? cs

/-- A number brought between `0` and `1`; NaN stays. -/
def clamp (x : Float32) : Float32 :=
  if x < 0 then 0 else if 1 < x then 1 else x

/-- An angle brought into one turn. -/
def wrapDegrees (t : Float32) : Float32 :=
  Numeric.remainderSingle (Numeric.remainderSingle t 360 + 360) 360

/-! ### Colour functions -/

/-- The red, green and blue channels. -/
abbrev Channels := Float32 × Float32 × Float32

/-- A channel at a hue in sixths of a turn, between two levels. -/
def hslChannel (n₁ n₂ h : Float32) : Float32 :=
  let h := Numeric.remainderSingle (Numeric.remainderSingle h 6 + 6) 6
  if h < 1 then n₁ + (n₂ - n₁) * h
  else if h < 3 then n₂
  else if h < 4 then n₁ + (n₂ - n₁) * (4 - h)
  else n₁

/-- Hue in degrees, saturation and lightness. -/
def ofHsl (hue s l : Float32) : Channels :=
  if s == 0 then (l, l, l)
  else
    let n₂ := if l < 0.5 then l * (1 + s) else l + s - l * s
    let n₁ := 2 * l - n₂
    let h := hue / 60
    (hslChannel n₁ n₂ (h + 2), hslChannel n₁ n₂ h, hslChannel n₁ n₂ (h - 2))

/-- Hue in degrees, whiteness and blackness. -/
def ofHwb (hue w b : Float32) : Channels :=
  if 1 ≤ w + b then
    let gray := w / (w + b)
    (gray, gray, gray)
  else
    let (red, green, blue) := ofHsl hue 1 0.5
    let mix (c : Float32) : Float32 := c * (1 - w - b) + w
    (mix red, mix green, mix blue)

/-- Hue in degrees, saturation and value. -/
def ofHsv (hue s v : Float32) : Channels :=
  let l := (2 - s) * v / 2
  let s :=
    if l == 0 then s
    else if l == 1 then 0
    else if l < 0.5 then s * v / (l * 2)
    else s * v / (2 - l * 2)
  ofHsl hue (clamp s) (clamp l)

/-- The functions that name a colour. -/
inductive Function
  | rgb
  | hsl
  | hwb
  | hsv
  deriving DecidableEq, Repr

/-- The function of a name in lower case. Each also goes by the name with an `a` at its end. -/
def function? : String → Option Function
  | "rgb" | "rgba" => some .rgb
  | "hsl" | "hsla" => some .hsl
  | "hwb" | "hwba" => some .hwb
  | "hsv" | "hsva" => some .hsv
  | _ => none

/-- The channels of a function of three arguments. -/
def Function.channels? (f : Function) (a b c : List Char) : Option Channels := do
  match f with
  | .rgb =>
    let (red, percent) ← readFraction? 255 a
    let (green, percent') ← readFraction? 255 b
    let (blue, percent'') ← readFraction? 255 c
    guard (percent = percent' ∧ percent' = percent'')
    return (clamp red, clamp green, clamp blue)
  | polar =>
    let hue ← readHue? a
    let (x, percent) ← readFraction? 1 b
    let (y, percent') ← readFraction? 1 c
    guard (percent = percent')
    let convert := match polar with
      | .hwb => ofHwb
      | .hsv => ofHsv
      | _ => ofHsl
    return convert (wrapDegrees hue) (clamp x) (clamp y)

/-- The nearest byte to a channel. -/
def channelByte (x : Float32) : UInt8 := (x * 255 + 0.5).toUInt8

/-- Whether the character stands between two arguments. -/
def isSeparator (c : Char) : Bool :=
  [',', '/', ' ', '\t', '\n', '\x0c', '\r'].contains c

/-- The non-empty parts between separators. -/
def splitArguments (cs : List Char) : List (List Char) :=
  (cs.splitOnP isSeparator).filter (!·.isEmpty)

/-- The last argument, a fraction between `0` and `1`. -/
def readAlpha? : List (List Char) → Option Float32
  | [] => some 1
  | [a] => (readFraction? 1 a).map fun x ↦ clamp x.1
  | _ => none

/-- A function with its arguments. -/
def readFunction? (cs : List Char) : Option Bytes :=
  match cs.span (· ≠ '('), cs.getLast? with
  | (name, _ :: arguments), some ')' => do
    let name := (name.reverse.dropWhile Text.isBlank).reverse
    let f ← function? (String.ofList (name.map Char.toLower))
    match splitArguments arguments.dropLast with
    | a :: b :: c :: rest =>
      let alpha ← readAlpha? rest
      let (red, green, blue) ← f.channels? a b c
      return ⟨channelByte red, channelByte green, channelByte blue, channelByte alpha⟩
    | _ => none
  | _, _ => none

/-- The bytes of a colour in the form of a style sheet. -/
def read? (cs : List Char) : Option Bytes :=
  if cs.map Char.toLower = "transparent".toList then some ⟨0, 0, 0, 0⟩
  else
    match cs with
    | '#' :: digits => readHex? digits
    | _ =>
      readFunction? cs <|> readHex? cs <|>
        (named? cs).map fun (red, green, blue) ↦ ⟨red, green, blue, 255⟩

end Css

/-- The single-precision number equal to a byte. -/
def byteSingle (b : UInt8) : Float32 := .ofNat b.toNat

/-- The colour that a text in the form of a style sheet stands for. -/
def Color.ofCss? (text : String) : Option Color :=
  (Css.read? (Text.trim text.toList)).map fun b ↦
    Color.ofBytes (byteSingle b.red) (byteSingle b.green) (byteSingle b.blue) (byteSingle b.alpha)

end FeatureStyle
