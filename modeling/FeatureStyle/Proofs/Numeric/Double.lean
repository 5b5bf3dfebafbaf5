import FeatureStyle.Numeric.Binary
import Mathlib

/-!
# Doubles and their parts

A finite double other than zero is `± m · 2 ^ e`, and there is one way to write it so:
the mantissa has all of its bits, unless the exponent is the least one (`IsCanonical`), and the
exponent is not above the largest one (`IsDouble`).

**Packing and unpacking are inverse there** (`unpack_pack_finite`), and what is larger than every
double is packed as an infinity (`pack_of_large`). Doubles are compared
by their exponents and then by their mantissas (`lt_iff_of_unpack`).
-/

namespace FeatureStyle.Numeric

open Float.Model (Format UnpackedFloat)
open Float.Model.UnpackedFloat

/-! ### The parts of a double -/

/-- The numbers `m · 2 ^ e` in the form that doubles have: the mantissa has all of its bits, unless
the exponent is the least one. -/
structure IsCanonical (m : ℕ) (e : ℤ) : Prop where
  pos : 0 < m
  lt : m < 2 ^ 53
  full : 2 ^ 52 ≤ m ∨ e = -1074
  ge : -1074 ≤ e

/-- The numbers `m · 2 ^ e` that are finite doubles. -/
structure IsDouble (m : ℕ) (e : ℤ) : Prop extends IsCanonical m e where
  le : e ≤ 971

/-- The parts of a double are canonical. -/
theorem isDouble_of_unpack {b : BitVec Format.binary64.numBits} {s : Sign} {m : ℕ} {e : ℤ}
    {hm : 0 < m} (h : unpack .binary64 b = .finite s m e hm) : IsDouble m e := by
  unfold unpack at h
  dsimp only at h
  by_cases htop : unpackExponent b = -1#_
  · rw [if_pos htop] at h
    by_cases hzero : unpackMantissa b = 0#_
    · rw [if_pos hzero] at h
      cases h
    · rw [if_neg hzero] at h
      cases h
  rw [if_neg htop] at h
  by_cases hbottom : unpackExponent b = 0#_
  · rw [if_pos hbottom] at h
    by_cases hzero : unpackMantissa b = 0#_
    · rw [dif_pos hzero] at h
      cases h
    · rw [dif_neg hzero] at h
      injection h with hs hm he
      have hlt : (unpackMantissa b).toNat < 2 ^ 52 := (unpackMantissa b).isLt
      rw [hbottom] at he
      obtain rfl : -1074 = e := he
      exact ⟨⟨‹_›, by omega, .inr rfl, le_rfl⟩, by decide⟩
  · rw [if_neg hbottom] at h
    injection h with hs hm he
    have hlt : (1#1 ++ unpackMantissa b).toNat < 2 ^ 53 := (1#1 ++ unpackMantissa b).isLt
    have hle : 2 ^ 52 ≤ (1#1 ++ unpackMantissa b).toNat := by
      rw [BitVec.toNat_append]
      exact Nat.left_le_or
    have hexponent : (unpackExponent b).toNat ≠ 0 := fun h ↦
      hbottom (BitVec.eq_of_toNat_eq h)
    have htop' : (unpackExponent b).toNat ≠ 2047 := fun h ↦
      htop (BitVec.eq_of_toNat_eq h)
    have hbits : (unpackExponent b).toNat < 2048 := (unpackExponent b).isLt
    have he : ((unpackExponent b).toNat : ℤ) - 1075 = e := he
    exact ⟨⟨‹_›, hm ▸ hlt, .inl (hm ▸ hle), by omega⟩, by omega⟩

/-- A double is determined by its parts. -/
theorem eq_of_unpack_eq {x y : Float} (h : x.toModel.unpack = y.toModel.unpack) : x = y := by
  have hbits := (unpack_inj_of_valid x.toModel.valid y.toModel.valid).1 h
  obtain ⟨⟨x, hx⟩⟩ := x
  obtain ⟨⟨y, hy⟩⟩ := y
  obtain rfl : x = y := UInt64.toBitVec_inj.1 hbits
  rfl

/-! ### Packing -/

/-- **A packed number with an exponent between the ends has a leading one before its mantissa.** -/
theorem unpack_packComponents_normal (s : Sign) {exponent : BitVec 11} (mantissa : BitVec 52)
    (htop : exponent ≠ -1#11) (hbottom : exponent ≠ 0#11) (hm) :
    unpack .binary64 (packComponents .binary64 s exponent mantissa) =
      .finite s (1#1 ++ mantissa).toNat (exponent.toNat - 1075) hm := by
  unfold unpack
  simp only [unpackExponent_packComponents, unpackMantissa_packComponents,
    unpackSign_packComponents, Sign.ofBitVec_toBitVec]
  rw [if_neg htop, if_neg hbottom]
  rfl

/-- At the lower end it has none. -/
theorem unpack_packComponents_subnormal (s : Sign) {mantissa : BitVec 52}
    (hm : 0 < mantissa.toNat) :
    unpack .binary64 (packComponents .binary64 s 0#11 mantissa) =
      .finite s mantissa.toNat (-1074) hm := by
  have hne : mantissa ≠ 0#52 := by
    rintro rfl
    exact absurd hm (by decide)
  unfold unpack
  simp only [unpackExponent_packComponents, unpackMantissa_packComponents,
    unpackSign_packComponents, Sign.ofBitVec_toBitVec]
  rw [if_neg (by decide), if_pos trivial, dif_neg hne]
  rfl

/-- At the upper end it is infinite. -/
theorem unpack_packedInfinity (s : Sign) :
    unpack .binary64 (packedInfinity .binary64 s) = .infinity s := by
  cases s <;> rfl

/-- A finite double is the number that it is packed from. -/
theorem unpack_pack_finite {s : Sign} {m : ℕ} {e : ℤ} {hm : 0 < m} (h : IsDouble m e) :
    unpack .binary64 (pack .binary64 (.finite s m e hm)) = .finite s m e hm := by
  have hbiased : (e + Format.binary64.exponentBias +
      Format.binary64.mantissaBitsWithoutImplicit).toNat = (e + 1075).toNat := by
    show (e + 1023 + 52).toNat = _
    congr 1
    omega
  have hge := h.ge
  have hle := h.le
  have hlt := h.lt
  have hfits : ¬ 2 ^ Format.binary64.exponentBits ≤ (e + 1075).toNat + 1 := by
    show ¬ 2 ^ 11 ≤ _
    omega
  unfold pack
  dsimp only
  rw [hbiased, if_neg hfits]
  by_cases hfull : 2 ^ 52 ≤ m
  · have hlog : m.log2 + 1 = Format.binary64.mantissaBits := by
      have : m.log2 = 52 := (Nat.log2_eq_iff hm.ne').2 ⟨hfull, hlt⟩
      rw [this]
      rfl
    have hexponent : (BitVec.ofNat 11 (e + 1075).toNat).toNat = (e + 1075).toNat := by
      rw [BitVec.toNat_ofNat, Nat.mod_eq_of_lt (by omega)]
    have hmantissa : (1#1 ++ BitVec.ofNat 52 m).toNat = m := by
      rw [BitVec.toNat_append, ← Nat.shiftLeft_add_eq_or_of_lt (BitVec.isLt _), BitVec.toNat_ofNat,
        Nat.shiftLeft_eq]
      show 1 * 2 ^ 52 + m % 2 ^ 52 = m
      omega
    have htop : BitVec.ofNat 11 (e + 1075).toNat ≠ -1#11 := by
      intro h
      have h := congrArg BitVec.toNat h
      rw [hexponent] at h
      have h : (e + 1075).toNat = 2047 := h
      omega
    have hbottom : BitVec.ofNat 11 (e + 1075).toNat ≠ 0#11 := by
      intro h
      have h := congrArg BitVec.toNat h
      rw [hexponent] at h
      have h : (e + 1075).toNat = 0 := h
      omega
    rw [if_pos hlog]
    refine (unpack_packComponents_normal s _ htop hbottom (hmantissa.symm ▸ hm)).trans ?_
    congr 1
    rw [hexponent]
    omega
  · have hlog : m.log2 + 1 ≠ Format.binary64.mantissaBits := by
      have : m.log2 < 52 := (Nat.log2_lt hm.ne').2 (by omega)
      show m.log2 + 1 ≠ 53
      omega
    have hmantissa : (BitVec.ofNat 52 m).toNat = m := by
      rw [BitVec.toNat_ofNat, Nat.mod_eq_of_lt (by omega)]
    obtain rfl := h.full.resolve_left hfull
    rw [if_neg hlog]
    refine (unpack_packComponents_subnormal s (hmantissa.symm ▸ hm)).trans ?_
    congr 1

/-- What is too large for a double is packed as an infinity. -/
theorem pack_of_large {s : Sign} {m : ℕ} {e : ℤ} {hm : 0 < m} (h : 971 < e) :
    pack .binary64 (.finite s m e hm) = packedInfinity .binary64 s := by
  unfold pack
  dsimp only
  rw [if_pos]
  show 2 ^ 11 ≤ (e + 1023 + 52).toNat + 1
  omega

/-! ### Comparing doubles -/

variable {x : Float} {s : Sign} {m m' : ℕ} {e e' : ℤ} {hm : 0 < m} {hm' : 0 < m'}

/-- The absolute value is the same number with a positive sign. -/
theorem unpack_abs (h : x.toModel.unpack = .finite s m e hm) :
    x.abs.toModel.unpack = .finite .positive m e hm := by
  show unpack .binary64 (pack .binary64 x.toModel.unpack.abs) = _
  rw [h]
  exact unpack_pack_finite (isDouble_of_unpack h)

/-- Positive doubles are compared by their exponents and then by their mantissas. -/
theorem lt_iff_of_unpack {y : Float} (hx : x.toModel.unpack = .finite .positive m e hm)
    (hy : y.toModel.unpack = .finite .positive m' e' hm') :
    x < y ↔ e < e' ∨ e = e' ∧ m < m' := by
  have hlt : x < y ↔ x.toModel.unpack.lt y.toModel.unpack = true := by
    show decide (x.toModel < y.toModel) = true ↔ _
    rw [decide_eq_true_eq]
    rfl
  rw [hlt, hx, hy]
  show (some ((compare e e').then (compare m m')) == some Ordering.lt) = true ↔ _
  rw [beq_iff_eq, Option.some.injEq, Ordering.then_eq_lt, compare_lt_iff_lt,
    compare_eq_iff_eq, compare_lt_iff_lt]

/-- Positive numbers are compared by their exponents, and then by their mantissas. -/
theorem le_iff_of_unpack {y : Float} (hx : x.toModel.unpack = .finite .positive m e hm)
    (hy : y.toModel.unpack = .finite .positive m' e' hm') :
    y ≤ x ↔ ¬ (e < e' ∨ e = e' ∧ m < m') := by
  have hle : y ≤ x ↔ y.toModel.unpack.le x.toModel.unpack = true := by
    show decide (y.toModel ≤ x.toModel) = true ↔ _
    rw [decide_eq_true_eq]
    rfl
  rw [hle, hx, hy]
  show ((compare e' e).then (compare m' m)).isLE = true ↔ _
  rw [Ordering.isLE_iff_ne_gt, Ordering.then_eq_gt, compare_gt_iff_gt, compare_eq_iff_eq,
    compare_gt_iff_gt]
  exact not_congr (or_congr_right (and_congr_left' eq_comm))

/-- Turned round, a comparison comes out the other way. -/
theorem compare_swap (u v : UnpackedFloat) :
    (u.compare v).map Ordering.swap = v.compare u := by
  have hthen (e e' : ℤ) (m m' : ℕ) :
      ((compare e e').then (compare m m')).swap = (compare e' e).then (compare m' m) := by
    rw [Ordering.swap_then, ← Std.OrientedCmp.eq_swap, ← Std.OrientedCmp.eq_swap]
  rcases u with s | - | s | ⟨s, m, e, hm⟩ <;> rcases v with s' | - | s' | ⟨s', m', e', hm'⟩ <;>
    (try cases s) <;> (try cases s') <;> first
    | rfl
    | simp [UnpackedFloat.compare, hthen]

/-- Doubles are less where comparing what they stand for says so. -/
theorem lt_iff_compare {y : Float} :
    x < y ↔ x.toModel.unpack.compare y.toModel.unpack = some .lt := by
  show decide (x.toModel < y.toModel) = true ↔ _
  rw [decide_eq_true_eq]
  exact beq_iff_eq

theorem le_iff_compare {y : Float} :
    x ≤ y ↔ (x.toModel.unpack.compare y.toModel.unpack).any (·.isLE) = true := by
  show decide (x.toModel ≤ y.toModel) = true ↔ _
  rw [decide_eq_true_eq]
  rfl

/-- No double is below one that is below it. -/
theorem lt_asymm_float {y : Float} (h : x < y) : ¬ y < x := by
  rw [lt_iff_compare] at h ⊢
  rw [← compare_swap, h]
  decide

/-- What is less is at most. -/
theorem le_of_lt_float {y : Float} (h : x < y) : x ≤ y := by
  rw [le_iff_compare, lt_iff_compare.1 h]
  rfl

/-- A double is zero exactly if it stands for it, with any sign. -/
theorem beq_zero_eq (x : Float) :
    (x == 0) = (x.toModel.unpack.compare (.zero .positive) == some .eq) := rfl

/-- Only NaN is not equal to itself. -/
theorem beq_self_eq (x : Float) : (x == x) = !x.isNaN := by
  show (x.toModel.unpack.compare x.toModel.unpack == some .eq) = !x.toModel.unpack.isNaN
  rcases x.toModel.unpack with s | - | s | ⟨s, m, e, hm⟩
  · cases s <;> rfl
  · rfl
  · rfl
  · cases s <;> simp [UnpackedFloat.compare, UnpackedFloat.isNaN]

theorem zero_beq_eq (h : x == 0) : (0 == x) = !x.isNaN := by
  rw [beq_zero_eq] at h
  show (UnpackedFloat.compare (.zero .positive) x.toModel.unpack == some .eq) =
    !x.toModel.unpack.isNaN
  generalize x.toModel.unpack = u at h ⊢
  rcases u with s | - | s | ⟨s, m, e, hm⟩
  · cases s <;> cases h
  · cases h
  · rfl
  · cases s <;> cases h

end FeatureStyle.Numeric
