import FeatureStyle.Color.Hsl
import FeatureStyle.Proofs.Numeric.Rational
import Mathlib.Tactic.NormNum

/-!
# Hues without rounding

A hue is a place on a circle, so that whole turns should make no difference. What is computed first
is the remainder of truncating division, which keeps the sign of the hue: a negative hue ends up to
one turn below its place. From there each channel looks a third of a turn ahead of it, at it, or a
third of a turn behind it, and goes at most one turn up.

**One turn is too few behind the first third of the circle.** A negative hue whose place is there
*overshoots*: its blue channel is read more than one turn below the circle, where the ramp at the
beginning is extended downwards. Every other channel of every hue is the one at its place
(`channels_eq`). So whole turns make no difference exactly if they do not change whether a hue
overshoots, or if the colour is grey; and the channels stay between `0` and `1` except for the blue
one of a hue that overshoots by more than the low level (`channels_wrap_iff`).
-/

namespace FeatureStyle.Hsl

open Numeric (Arithmetic)

variable {hue saturation lightness x m₁ m₂ : ℚ}

/-! ### Channels on the circle -/

theorem wrap_eq (x : ℚ) : wrap x =
    if 1 < (if x < 0 then x + 1 else x) then (if x < 0 then x + 1 else x) - 1
    else if x < 0 then x + 1 else x := by
  simp [wrap, Arithmetic.less, Arithmetic.ofNat, OfNat.ofNat]

/-- A hue within a turn stays where it is. -/
theorem wrap_of_mem (h0 : 0 ≤ x) (h1 : x ≤ 1) : wrap x = x := by
  rw [wrap_eq, if_neg (not_lt.2 h0), if_neg (not_lt.2 h1)]

/-- One below is moved up by a turn, and only by one. -/
theorem wrap_of_neg (h : x < 0) : wrap x = x + 1 := by
  rw [wrap_eq, if_pos h, if_neg (by linarith)]

/-- One above is moved down by a turn. -/
theorem wrap_of_one_lt (h : 1 < x) : wrap x = x - 1 := by
  have h0 : ¬ x < 0 := by linarith
  rw [wrap_eq, if_neg h0, if_pos h]

/-- A channel rises, stays high, falls and stays low in the course of a turn. -/
theorem channel_eq (m₁ m₂ x : ℚ) : channel m₁ m₂ x =
    if wrap x * 6 < 1 then m₁ + (m₂ - m₁) * 6 * wrap x
    else if wrap x * 2 < 1 then m₂
    else if wrap x * 3 < 2 then m₁ + (m₂ - m₁) * (2 / 3 - wrap x) * 6
    else m₁ := by
  simp [channel, Arithmetic.less, Arithmetic.ofNat, OfNat.ofNat]

/-- Whole turns make no difference to where a channel is, as long as one turn up or down is enough
to get there. -/
theorem channel_sub_one (h0 : 0 ≤ x) (h2 : x ≤ 2) : channel m₁ m₂ (x - 1) = channel m₁ m₂ x := by
  rcases lt_trichotomy x 1 with h | rfl | h
  · rw [channel_eq, channel_eq, wrap_of_neg (by linarith), sub_add_cancel, wrap_of_mem h0 h.le]
  · -- The two ends of the circle have the same level.
    rw [channel_eq, channel_eq, wrap_of_mem (by norm_num) (by norm_num), wrap_of_mem h0 le_rfl]
    norm_num
  · rw [channel_eq, channel_eq, wrap_of_mem (by linarith) (by linarith), wrap_of_one_lt h]

/-- In the last third of the circle a channel is low. -/
theorem channel_of_last_third (h0 : -1 / 3 ≤ x) (h1 : x < 0) : channel m₁ m₂ x = m₁ := by
  rw [channel_eq, wrap_of_neg h1, if_neg (by linarith), if_neg (by linarith), if_neg (by linarith)]

/-- Below the circle the ramp at its beginning is extended. -/
theorem channel_of_lt (h : x < -1) : channel m₁ m₂ x = m₁ + (m₂ - m₁) * 6 * (x + 1) := by
  rw [channel_eq, wrap_of_neg (by linarith), if_pos (by linarith)]

/-- Between equal levels nothing changes. -/
theorem channel_self (m x : ℚ) : channel m m x = m := by
  rw [channel_eq]
  split
  · ring
  split
  · rfl
  split <;> ring

/-- A ramp stays between its ends. -/
theorem ramp_mem (h : m₁ ≤ m₂) (h0 : 0 ≤ x) (h1 : x ≤ 1) :
    m₁ ≤ m₁ + (m₂ - m₁) * x ∧ m₁ + (m₂ - m₁) * x ≤ m₂ := by
  have hrise : 0 ≤ m₂ - m₁ := sub_nonneg.2 h
  have hlow : 0 ≤ (m₂ - m₁) * x := mul_nonneg hrise h0
  have hhigh : (m₂ - m₁) * x ≤ m₂ - m₁ := mul_le_of_le_one_right hrise h1
  exact ⟨by linarith, by linarith⟩

/-- Within one turn of the circle a channel lies between the two levels. -/
theorem channel_mem (h : m₁ ≤ m₂) (hlow : -1 ≤ x) (hhigh : x ≤ 2) :
    m₁ ≤ channel m₁ m₂ x ∧ channel m₁ m₂ x ≤ m₂ := by
  have hwrap : 0 ≤ wrap x ∧ wrap x ≤ 1 := by
    rcases lt_or_ge x 0 with h0 | h0
    · rw [wrap_of_neg h0]
      exact ⟨by linarith, by linarith⟩
    · rcases lt_or_ge 1 x with h1 | h1
      · rw [wrap_of_one_lt h1]
        exact ⟨by linarith, by linarith⟩
      · rw [wrap_of_mem h0 h1]
        exact ⟨h0, h1⟩
  rw [channel_eq]
  split
  · next hup =>
    rw [mul_assoc]
    exact ramp_mem h (by linarith) (by linarith)
  split
  · exact ⟨h, le_rfl⟩
  split
  · next hup hhalf hdown =>
    rw [mul_assoc]
    exact ramp_mem h (by linarith) (by linarith)
  · exact ⟨le_rfl, h⟩

/-! ### Levels -/

/-- The low level of a colour. -/
def lowLevel (saturation lightness : ℚ) : ℚ := 2 * lightness - highLevel saturation lightness

/-- The channel of a colour that is read at the given place. -/
def channelAt (saturation lightness x : ℚ) : ℚ :=
  channel (lowLevel saturation lightness) (highLevel saturation lightness) x

/-- How far the high level is above the low one. -/
def rise (saturation lightness : ℚ) : ℚ :=
  highLevel saturation lightness - lowLevel saturation lightness

/-- The high level is counted in one way for dark colours and in another for bright ones. -/
theorem highLevel_eq (saturation lightness : ℚ) : highLevel saturation lightness =
    if lightness < 1 / 2 then lightness * (1 + saturation)
    else lightness + saturation - lightness * saturation := by
  simp [highLevel, Arithmetic.less, Arithmetic.ofNat, OfNat.ofNat]

/-- The rise shrinks towards either end of the lightness. -/
theorem rise_eq (saturation lightness : ℚ) : rise saturation lightness =
    2 * if lightness < 1 / 2 then lightness * saturation else saturation * (1 - lightness) := by
  rw [rise, lowLevel, highLevel_eq]
  split <;> ring

/-- The levels lie between `0` and `1`, the low one not above the high one. -/
theorem levels_mem (hs : 0 ≤ saturation ∧ saturation ≤ 1) (hl : 0 ≤ lightness ∧ lightness ≤ 1) :
    0 ≤ lowLevel saturation lightness ∧ 0 ≤ rise saturation lightness ∧
      highLevel saturation lightness ≤ 1 := by
  obtain ⟨hs0, hs1⟩ := hs
  obtain ⟨hl0, hl1⟩ := hl
  have hdark : 0 ≤ lightness * saturation := mul_nonneg hl0 hs0
  have hbright : 0 ≤ saturation * (1 - lightness) := mul_nonneg hs0 (by linarith)
  have hdark' : lightness * saturation ≤ lightness := mul_le_of_le_one_right hl0 hs1
  have hbright' : saturation * (1 - lightness) ≤ 1 - lightness :=
    mul_le_of_le_one_left (by linarith) hs1
  rw [rise_eq, lowLevel, highLevel_eq]
  split
  · exact ⟨by linarith, by linarith, by linarith⟩
  · exact ⟨by linarith, by linarith, by linarith⟩

/-- Exactly the greys have a single level. -/
theorem rise_eq_zero_iff : rise saturation lightness = 0 ↔
    saturation = 0 ∨ lightness = 0 ∨ lightness = 1 := by
  rw [rise_eq]
  split
  · next hdark =>
    have hne : lightness ≠ 1 := by linarith
    simp [hne, or_comm]
  · next hbright =>
    have hne : lightness ≠ 0 := by linarith
    simp [hne, sub_eq_zero, eq_comm (a := (1 : ℚ))]

/-! ### Hues -/

/-- The hue is negative, and its place is behind the beginning of the circle and before the end of
the first third. -/
def Overshoots (hue : ℚ) : Prop := hue < 0 ∧ 0 < Int.fract hue ∧ Int.fract hue < 1 / 3

instance : DecidablePred Overshoots := fun _ ↦ instDecidableAnd

/-- A negative hue that is no whole number ends up one turn below its place. -/
theorem rem_one (hue : ℚ) : Arithmetic.rem hue 1 =
    if hue < 0 ∧ 0 < Int.fract hue then Int.fract hue - 1 else Int.fract hue := by
  rw [Numeric.rem_eq, div_one, one_mul, Numeric.truncate]
  rcases lt_or_ge hue 0 with hneg | hpos
  · rw [if_neg (not_le.2 hneg)]
    by_cases hwhole : Int.fract hue = 0
    · obtain ⟨n, rfl⟩ := Int.fract_eq_zero_iff.1 hwhole
      simp
    · have hplace : 0 < Int.fract hue := lt_of_le_of_ne (Int.fract_nonneg hue) (Ne.symm hwhole)
      rw [if_pos ⟨hneg, hplace⟩, Int.ceil_eq_add_one_sub_fract hwhole]
      ring
  · rw [if_pos hpos, if_neg fun h ↦ not_le.2 h.1 hpos]
    exact Int.self_sub_floor hue

/-- The channels are read off at three hues a third of a turn apart. -/
theorem channels_def (hue saturation lightness : ℚ) : channels hue saturation lightness =
    if saturation = 0 then (lightness, lightness, lightness)
    else
      (channelAt saturation lightness (Arithmetic.rem hue 1 + 1 / 3),
        channelAt saturation lightness (Arithmetic.rem hue 1),
        channelAt saturation lightness (Arithmetic.rem hue 1 - 1 / 3)) := by
  simp [channels, channelAt, lowLevel, Arithmetic.same, Arithmetic.ofNat, OfNat.ofNat]

/-- A colour without saturation has its lightness for both levels. -/
theorem channelAt_zero (lightness x : ℚ) : channelAt 0 lightness x = lightness := by
  have hhigh : highLevel 0 lightness = lightness := by
    rw [highLevel_eq]
    split <;> ring
  have hlow : lowLevel 0 lightness = lightness := by
    rw [lowLevel, hhigh]
    ring
  rw [channelAt, hlow, hhigh, channel_self]

/-- Without saturation they agree, so that case needs no branch of its own. -/
theorem channels_of_rem (hue saturation lightness : ℚ) : channels hue saturation lightness =
    (channelAt saturation lightness (Arithmetic.rem hue 1 + 1 / 3),
      channelAt saturation lightness (Arithmetic.rem hue 1),
      channelAt saturation lightness (Arithmetic.rem hue 1 - 1 / 3)) := by
  rw [channels_def]
  split
  · next hgrey => simp only [hgrey, channelAt_zero]
  · rfl

/-- Red is a third of a turn ahead of the hue, and green is at it. -/
theorem channelAt_rem_of_nonneg {shift : ℚ} (h0 : 0 ≤ shift) (h1 : shift ≤ 1) :
    channelAt saturation lightness (Arithmetic.rem hue 1 + shift) =
      channelAt saturation lightness (Int.fract hue + shift) := by
  have hlow := Int.fract_nonneg hue
  have hhigh := Int.fract_lt_one hue
  rw [rem_one]
  split
  · rw [sub_add_eq_add_sub]
    exact channel_sub_one (by linarith) (by linarith)
  · rfl

/-- Blue is a third of a turn behind the hue. -/
theorem channelAt_rem_sub_third : channelAt saturation lightness (Arithmetic.rem hue 1 - 1 / 3) =
    if Overshoots hue then
      lowLevel saturation lightness - rise saturation lightness * (2 - 6 * Int.fract hue)
    else channelAt saturation lightness (Int.fract hue - 1 / 3) := by
  rw [rem_one]
  by_cases hbelow : hue < 0 ∧ 0 < Int.fract hue
  · have hhigh := Int.fract_lt_one hue
    rw [if_pos hbelow, sub_right_comm]
    split
    · next hover =>
      obtain ⟨-, -, hthird⟩ := hover
      rw [channelAt, channel_of_lt (by linarith), rise]
      ring
    · next hover =>
      have hthird : 1 / 3 ≤ Int.fract hue := not_lt.1 fun h ↦ hover ⟨hbelow.1, hbelow.2, h⟩
      exact channel_sub_one (by linarith) (by linarith)
  · rw [if_neg hbelow, if_neg fun hover : Overshoots hue ↦ hbelow ⟨hover.1, hover.2.1⟩]

/-- **The channels of a hue are those at its place**, except for the blue one where it overshoots.
-/
theorem channels_eq (hue saturation lightness : ℚ) : channels hue saturation lightness =
    (channelAt saturation lightness (Int.fract hue + 1 / 3),
      channelAt saturation lightness (Int.fract hue),
      if Overshoots hue then
        lowLevel saturation lightness - rise saturation lightness * (2 - 6 * Int.fract hue)
      else channelAt saturation lightness (Int.fract hue - 1 / 3)) := by
  have hgreen : channelAt saturation lightness (Arithmetic.rem hue 1 + 0) =
      channelAt saturation lightness (Int.fract hue + 0) :=
    channelAt_rem_of_nonneg le_rfl zero_le_one
  rw [add_zero, add_zero] at hgreen
  rw [channels_of_rem, channelAt_rem_of_nonneg (by norm_num) (by norm_num), hgreen,
    channelAt_rem_sub_third]

/-! ### Turns -/

/-- The blue channel of a hue that overshoots is the one at its place only if the colour is grey. -/
theorem overshoot_eq_iff (h : Overshoots hue) :
    lowLevel saturation lightness - rise saturation lightness * (2 - 6 * Int.fract hue) =
        channelAt saturation lightness (Int.fract hue - 1 / 3) ↔
      saturation = 0 ∨ lightness = 0 ∨ lightness = 1 := by
  obtain ⟨-, hpos, hthird⟩ := h
  have hfactor : 2 - 6 * Int.fract hue ≠ 0 := by linarith
  rw [channelAt, channel_of_last_third (by linarith) (by linarith), sub_eq_self,
    mul_eq_zero_iff_right hfactor, rise_eq_zero_iff]

/-- Within one turn of the circle the channels of a colour lie between `0` and `1`. -/
theorem channelAt_mem (hs : 0 ≤ saturation ∧ saturation ≤ 1)
    (hl : 0 ≤ lightness ∧ lightness ≤ 1) (hlow : -1 ≤ x) (hhigh : x ≤ 2) :
    0 ≤ channelAt saturation lightness x ∧ channelAt saturation lightness x ≤ 1 := by
  obtain ⟨hlevel, hrise, hlevel'⟩ := levels_mem hs hl
  have hchannel := channel_mem (sub_nonneg.1 hrise) hlow hhigh
  exact ⟨hlevel.trans hchannel.1, hchannel.2.trans hlevel'⟩

/-- Turns that change whether a hue overshoots change the colour, unless it is grey. -/
theorem channels_add_iff (hue : ℚ) (turns : ℤ) :
    channels (hue + turns) saturation lightness = channels hue saturation lightness ↔
      (Overshoots (hue + turns) ↔ Overshoots hue) ∨
        saturation = 0 ∨ lightness = 0 ∨ lightness = 1 := by
  have hplace : Int.fract (hue + turns) = Int.fract hue := Int.fract_add_intCast hue turns
  rw [channels_eq, channels_eq, hplace, Prod.mk_right_inj, Prod.mk_right_inj]
  by_cases hsame : Overshoots (hue + turns) ↔ Overshoots hue
  · exact iff_of_true (by simp only [hsame]) (.inl hsame)
  · rw [or_iff_right hsame]
    by_cases hover : Overshoots hue
    · have hturned : ¬ Overshoots (hue + turns) := fun h ↦ hsame (iff_of_true h hover)
      rw [if_pos hover, if_neg hturned, eq_comm]
      exact overshoot_eq_iff hover
    · have hturned : Overshoots (hue + turns) := by
        by_contra h
        exact hsame (iff_of_false h hover)
      rw [if_pos hturned, if_neg hover, ← hplace]
      exact overshoot_eq_iff hturned

/-- A channel is only out of bounds if a hue overshoots by more than the low level. -/
theorem channels_mem_iff (hs : 0 ≤ saturation ∧ saturation ≤ 1)
    (hl : 0 ≤ lightness ∧ lightness ≤ 1) {red green blue : ℚ}
    (h : channels hue saturation lightness = (red, green, blue)) :
    (∀ c ∈ [red, green, blue], 0 ≤ c ∧ c ≤ 1) ↔
      (Overshoots hue → rise saturation lightness * (2 - 6 * Int.fract hue) ≤
        lowLevel saturation lightness) := by
  have h0 := Int.fract_nonneg hue
  have h1 := Int.fract_lt_one hue
  rw [channels_eq] at h
  obtain ⟨rfl, rfl, rfl⟩ := h
  have hred := channelAt_mem hs hl (x := Int.fract hue + 1 / 3) (by linarith) (by linarith)
  have hgreen := channelAt_mem hs hl (x := Int.fract hue) (by linarith) (by linarith)
  rw [List.forall_mem_cons, and_iff_right hred, List.forall_mem_cons, and_iff_right hgreen,
    List.forall_mem_singleton]
  by_cases hover : Overshoots hue
  · obtain ⟨-, -, hthird⟩ := id hover
    obtain ⟨-, hrise, hlevel⟩ := levels_mem hs hl
    -- What is taken away from the low level is not negative, so only `0` can be passed.
    have htaken : 0 ≤ rise saturation lightness * (2 - 6 * Int.fract hue) :=
      mul_nonneg hrise (by linarith)
    rw [rise] at hrise
    rw [if_pos hover, sub_nonneg, forall_prop_of_true hover, and_iff_left (by linarith)]
  · have hblue := channelAt_mem hs hl (x := Int.fract hue - 1 / 3) (by linarith) (by linarith)
    rw [if_neg hover]
    exact iff_of_true hblue fun h ↦ absurd h hover

/-- **Whole turns make no difference and channels stay within bounds, except where a hue
overshoots.** Let the saturation and the lightness lie between `0` and `1`.

* Turns leave the channels as they are exactly if they do not change whether the hue overshoots, or
  if the colour is grey.
* The channels lie between `0` and `1` exactly if the hue does not overshoot, or not by more than
  the low level. -/
theorem channels_wrap_iff (hs : 0 ≤ saturation ∧ saturation ≤ 1)
    (hl : 0 ≤ lightness ∧ lightness ≤ 1) (hue : ℚ) :
    (∀ turns : ℤ, channels (hue + turns) saturation lightness = channels hue saturation lightness ↔
        ((Overshoots (hue + turns) ↔ Overshoots hue) ∨
          saturation = 0 ∨ lightness = 0 ∨ lightness = 1)) ∧
      ∀ red green blue, channels hue saturation lightness = (red, green, blue) →
        ((∀ c ∈ [red, green, blue], 0 ≤ c ∧ c ≤ 1) ↔
          (Overshoots hue → rise saturation lightness * (2 - 6 * Int.fract hue) ≤
            lowLevel saturation lightness)) :=
  ⟨channels_add_iff hue, fun _ _ _ ↦ channels_mem_iff hs hl⟩

/-- A negative hue in the last third, and the same place one turn up. -/
theorem channels_wrap_iff_violet :
    (0 ≤ (1 : ℚ) ∧ (1 : ℚ) ≤ 1) ∧ (0 ≤ (1 / 2 : ℚ) ∧ (1 / 2 : ℚ) ≤ 1) ∧
      channels (-1 / 4 + (1 : ℤ) : ℚ) 1 (1 / 2) = channels (-1 / 4) 1 (1 / 2) ∧
      channels (-1 / 4 : ℚ) 1 (1 / 2) = (1 / 2, 0, 1) ∧
      ∀ c ∈ [(1 / 2 : ℚ), 0, 1], 0 ≤ c ∧ c ≤ 1 := by
  have hs : 0 ≤ (1 : ℚ) ∧ (1 : ℚ) ≤ 1 := by decide
  have hl : 0 ≤ (1 / 2 : ℚ) ∧ (1 / 2 : ℚ) ≤ 1 := by decide +kernel
  have hover : ¬ Overshoots (-1 / 4) := by decide +kernel
  have hturned : ¬ Overshoots (-1 / 4 + (1 : ℤ)) := by decide +kernel
  have hchannels : channels (-1 / 4 : ℚ) 1 (1 / 2) = (1 / 2, 0, 1) := by decide +kernel
  obtain ⟨hturn, hbounds⟩ := channels_wrap_iff hs hl (-1 / 4)
  exact ⟨hs, hl, (hturn 1).2 (.inl (iff_of_false hturned hover)), hchannels,
    (hbounds _ _ _ hchannels).2 fun h ↦ absurd h hover⟩

/-- Three quarters of a turn down, the blue channel is not the one that it is a turn further up, and
it is negative. -/
theorem exists_channels_add_ne :
    ∃ (hue saturation lightness red green blue : ℚ) (turns : ℤ),
      (0 ≤ saturation ∧ saturation ≤ 1) ∧ (0 ≤ lightness ∧ lightness ≤ 1) ∧
        channels hue saturation lightness = (red, green, blue) ∧
        channels (hue + turns) saturation lightness ≠ (red, green, blue) ∧ blue < 0 :=
  ⟨-3 / 4, 1, 1 / 2, 1 / 2, 1, -1 / 2, 1, by decide +kernel⟩

end FeatureStyle.Hsl
