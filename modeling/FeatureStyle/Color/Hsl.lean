import FeatureStyle.Numeric.Arithmetic
import FeatureStyle.Value.Composite

/-!
# Colours by hue, saturation and lightness

`Hsl.channels` turns a hue, a saturation and a lightness into the channels of a colour. A hue is a
fraction of the full circle. Its whole turns are taken off towards zero, and what is left of it, a
third of a turn ahead or behind for red and blue, is brought back by one turn at most. **So whole
turns can make a difference:** a third of a turn behind a negative hue may be more than a turn below
the circle, and then the blue channel is read outside of it. The computation is written for any kind
of number; `Color.ofHsl` carries it out in double precision and narrows the channels at the end.
-/

namespace FeatureStyle

namespace Hsl

open Numeric (Arithmetic)

variable {K : Type} [Arithmetic K]

/-- A small whole number. -/
local instance instOfNatOfArithmetic (n : Nat) : OfNat K n := ⟨Arithmetic.ofNat n⟩

/-- A hue brought into one turn, from at most one turn off. -/
def wrap (hue : K) : K :=
  let hue := if Arithmetic.less hue 0 then hue + 1 else hue
  if Arithmetic.less 1 hue then hue - 1 else hue

/-- The channel at a hue between the low level `m₁` and the high level `m₂`: a ramp up over the
first sixth of the circle, the high level up to the half, a ramp down over the next sixth, and the
low level after that. -/
def channel (m₁ m₂ hue : K) : K :=
  let hue := wrap hue
  if Arithmetic.less (hue * 6) 1 then m₁ + (m₂ - m₁) * 6 * hue
  else if Arithmetic.less (hue * 2) 1 then m₂
  else if Arithmetic.less (hue * 3) 2 then m₁ + (m₂ - m₁) * (2 / 3 - hue) * 6
  else m₁

/-- The high level of a colour. -/
def highLevel (saturation lightness : K) : K :=
  if Arithmetic.less lightness (1 / 2) then lightness * (1 + saturation)
  else lightness + saturation - lightness * saturation

/-- The red, green and blue channels. -/
def channels (hue saturation lightness : K) : K × K × K :=
  let hue := Arithmetic.rem hue 1
  if Arithmetic.same saturation 0 then (lightness, lightness, lightness)
  else
    let m₂ := highLevel saturation lightness
    let m₁ := 2 * lightness - m₂
    (channel m₁ m₂ (hue + 1 / 3), channel m₁ m₂ hue, channel m₁ m₂ (hue - 1 / 3))

end Hsl

/-- The colour with the given hue, saturation, lightness and alpha. -/
def Color.ofHsl (hue saturation lightness alpha : Float) : Color :=
  let (red, green, blue) := Hsl.channels hue saturation lightness
  Color.ofChannels (Numeric.narrow red) (Numeric.narrow green) (Numeric.narrow blue)
    (Numeric.narrow alpha)

end FeatureStyle
