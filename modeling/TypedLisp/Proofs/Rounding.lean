import Mathlib.Algebra.Order.Field.Power
import Mathlib.Data.Rat.Cast.Order
import Mathlib.Tactic.Linarith
import TypedLisp.Number.Basic

/-!
# Rounding to numbers

A finite number is in normal form when its significand fits the width and is full, unless
the exponent is the least one (`Number.Normal`). Rounding gives numbers in normal form
only (`Number.normal_of_nearest`), and a ratio whose value is that of a number in normal
form is rounded to that number (`Number.nearest_of_normal`): no other number in normal
form has the value.

The proofs compare ratios by their values as rational numbers. The order of a ratio is
the place of its value among the powers of two (`Ratio.binaryOrder_spec`).
-/

set_option autoImplicit false

namespace TypedLisp

/-! ## Values of ratios -/

namespace Ratio

/-- The rational number that a ratio stands for. -/
def toRat (ratio : Ratio) : ℚ := ratio.numerator / ratio.denominator

theorem denominator_scale_pos {ratio : Ratio} (positive : 0 < ratio.denominator) {base : Nat}
    (basePositive : 0 < base) (exponent : Int) : 0 < (ratio.scale base exponent).denominator := by
  unfold scale
  split
  · exact positive
  · exact Nat.mul_pos positive (Nat.pow_pos basePositive)

theorem toRat_scale (ratio : Ratio) {base : Nat} (basePositive : 0 < base) (exponent : Int) :
    (ratio.scale base exponent).toRat = ratio.toRat * (base : ℚ) ^ exponent := by
  have nonzero : (base : ℚ) ≠ 0 := by exact_mod_cast basePositive.ne'
  unfold scale
  split
  · rename_i nonnegative
    obtain ⟨count, rfl⟩ := Int.eq_ofNat_of_zero_le nonnegative
    simp [toRat, mul_div_right_comm]
  · rename_i negative
    obtain ⟨count, same⟩ := Int.eq_ofNat_of_zero_le (by omega : 0 ≤ -exponent)
    obtain rfl : exponent = -(count : Int) := by omega
    simp only [toRat, Int.neg_neg, Int.toNat_natCast, zpow_neg, zpow_natCast]
    rw [Nat.pow_eq]
    push_cast
    rw [div_mul_eq_div_div, div_eq_mul_inv _ ((base : ℚ) ^ count)]

theorem le_toRat_iff {ratio : Ratio} (positive : 0 < ratio.denominator) (count : Nat) :
    (count : ℚ) ≤ ratio.toRat ↔ count * ratio.denominator ≤ ratio.numerator := by
  rw [toRat, le_div_iff₀ (by exact_mod_cast positive)]
  exact_mod_cast Iff.rfl

theorem toRat_le_iff {ratio : Ratio} (positive : 0 < ratio.denominator) (count : Nat) :
    ratio.toRat ≤ count ↔ ratio.numerator ≤ count * ratio.denominator := by
  rw [toRat, div_le_iff₀ (by exact_mod_cast positive)]
  exact_mod_cast Iff.rfl

/-- The logarithms of the parts of a ratio give its order up to one. -/
theorem toRat_between {ratio : Ratio} (positive : 0 < ratio.denominator)
    (nonzero : ratio.numerator ≠ 0) :
    (2 : ℚ) ^ ((ratio.numerator.log2 : Int) - ratio.denominator.log2 - 1) ≤ ratio.toRat ∧
      ratio.toRat < (2 : ℚ) ^ ((ratio.numerator.log2 : Int) - ratio.denominator.log2 + 1) := by
  have two : (2 : ℚ) ≠ 0 := by norm_num
  have denominatorPositive : (0 : ℚ) < ratio.denominator := by exact_mod_cast positive
  constructor
  · have numeratorBelow : (2 : ℚ) ^ (ratio.numerator.log2 : Int) ≤ ratio.numerator := by
      rw [zpow_natCast]
      exact_mod_cast Nat.log2_self_le nonzero
    have denominatorAbove : (ratio.denominator : ℚ) ≤ 2 ^ ((ratio.denominator.log2 : Int) + 1) := by
      have := @Nat.lt_log2_self ratio.denominator
      exact_mod_cast this.le
    rw [toRat, le_div_iff₀ denominatorPositive]
    calc (2 : ℚ) ^ ((ratio.numerator.log2 : Int) - ratio.denominator.log2 - 1) *
          ratio.denominator
        ≤ (2 : ℚ) ^ ((ratio.numerator.log2 : Int) - ratio.denominator.log2 - 1) *
          2 ^ ((ratio.denominator.log2 : Int) + 1) := by gcongr
      _ = (2 : ℚ) ^ (ratio.numerator.log2 : Int) := by
          rw [← zpow_add₀ two]
          congr 1
          omega
      _ ≤ ratio.numerator := numeratorBelow
  · have numeratorAbove : (ratio.numerator : ℚ) < 2 ^ ((ratio.numerator.log2 : Int) + 1) := by
      have := @Nat.lt_log2_self ratio.numerator
      exact_mod_cast this
    have denominatorBelow : (2 : ℚ) ^ (ratio.denominator.log2 : Int) ≤ ratio.denominator := by
      rw [zpow_natCast]
      exact_mod_cast Nat.log2_self_le positive.ne'
    rw [toRat, div_lt_iff₀ denominatorPositive]
    calc (ratio.numerator : ℚ) < (2 : ℚ) ^ ((ratio.numerator.log2 : Int) + 1) := numeratorAbove
      _ = (2 : ℚ) ^ ((ratio.numerator.log2 : Int) - ratio.denominator.log2 + 1) *
          2 ^ (ratio.denominator.log2 : Int) := by
          rw [← zpow_add₀ two]
          congr 1
          omega
      _ ≤ (2 : ℚ) ^ ((ratio.numerator.log2 : Int) - ratio.denominator.log2 + 1) *
          ratio.denominator := by gcongr

/-- The order of a ratio is that of the greatest power of two below its value. -/
theorem binaryOrder_spec {ratio : Ratio} (positive : 0 < ratio.denominator)
    (nonzero : ratio.numerator ≠ 0) :
    (2 : ℚ) ^ ratio.binaryOrder ≤ ratio.toRat ∧
      ratio.toRat < (2 : ℚ) ^ (ratio.binaryOrder + 1) := by
  obtain ⟨below, above⟩ := toRat_between positive nonzero
  unfold binaryOrder
  generalize (ratio.numerator.log2 : Int) - ratio.denominator.log2 = guess at below above ⊢
  have scaledPositive := denominator_scale_pos positive Nat.zero_lt_two (-guess)
  -- the guess is right unless the scaled ratio is less than one
  have compare : (ratio.scale 2 (-guess)).denominator ≤ (ratio.scale 2 (-guess)).numerator ↔
      (2 : ℚ) ^ guess ≤ ratio.toRat := by
    have one := le_toRat_iff scaledPositive 1
    rw [Nat.one_mul, toRat_scale ratio Nat.zero_lt_two] at one
    rw [← one, zpow_neg, ← div_eq_mul_inv]
    push_cast
    exact one_le_div₀ (by positivity)
  simp only [compare]
  split
  · rename_i atLeast
    exact ⟨atLeast, above⟩
  · rename_i less
    refine ⟨below, ?_⟩
    rw [Int.sub_add_cancel]
    exact lt_of_not_ge less

theorem toRat_scale_between {ratio : Ratio} (positive : 0 < ratio.denominator)
    (nonzero : ratio.numerator ≠ 0) (exponent : Int) :
    (2 : ℚ) ^ (ratio.binaryOrder + exponent) ≤ (ratio.scale 2 exponent).toRat ∧
      (ratio.scale 2 exponent).toRat < (2 : ℚ) ^ (ratio.binaryOrder + exponent + 1) := by
  have two : (2 : ℚ) ≠ 0 := by norm_num
  obtain ⟨below, above⟩ := binaryOrder_spec positive nonzero
  rw [toRat_scale ratio Nat.zero_lt_two, zpow_add₀ two, Int.add_right_comm, zpow_add₀ two]
  push_cast
  constructor <;> gcongr

end Ratio

/-! ## Rounding to naturals -/

theorem le_roundHalfEven {numerator denominator count : Nat} (positive : 0 < denominator)
    (below : count * denominator ≤ numerator) : count ≤ roundHalfEven numerator denominator := by
  have : count ≤ numerator / denominator := (Nat.le_div_iff_mul_le positive).2 below
  simp only [roundHalfEven]
  split_ifs <;> omega

theorem roundHalfEven_le {numerator denominator count : Nat} (positive : 0 < denominator)
    (above : numerator ≤ count * denominator) : roundHalfEven numerator denominator ≤ count := by
  have quotient : numerator / denominator ≤ count := Nat.div_le_of_le_mul (by rwa [Nat.mul_comm])
  rcases Nat.lt_or_eq_of_le quotient with less | exact
  · simp only [roundHalfEven]
    split_ifs <;> omega
  · -- a quotient that reaches the bound leaves no remainder
    have parts := Nat.div_add_mod numerator denominator
    rw [exact, Nat.mul_comm] at parts
    have whole : numerator % denominator = 0 := by omega
    simp [roundHalfEven, exact, whole, positive]

namespace Number

/-! ## Normal forms -/

/-- A significand and an exponent are those of a number in normal form. -/
structure Normal (significand : Nat) (exponent : Int) : Prop where
  fits : significand < 2 ^ significandWidth
  least : leastExponent ≤ exponent
  greatest : exponent ≤ greatestExponent
  full : exponent = leastExponent ∨ 2 ^ (significandWidth - 1) ≤ significand

theorem eq_of_pack {negative sign : Bool} {given significand : Nat} {power exponent : Int}
    (packed : pack negative given power = .finite sign significand exponent) :
    negative = sign ∧ given = significand ∧ power = exponent ∧ exponent ≤ greatestExponent := by
  unfold pack at packed
  split at packed
  · cases packed
  · cases packed
    exact ⟨rfl, rfl, rfl, by omega⟩

/-- What is rounded lies below the full width, and it is full unless the exponent is the
least one. -/
theorem scaled_between {value : Ratio} (positive : 0 < value.denominator)
    (nonzero : value.numerator ≠ 0) {exponent : Int}
    (chosen : exponent = max (value.binaryOrder - (significandWidth - 1)) leastExponent) :
    (value.scale 2 (-exponent)).toRat ≤ (2 ^ significandWidth : Nat) ∧
      (exponent = leastExponent ∨
        ((2 ^ (significandWidth - 1) : Nat) : ℚ) ≤ (value.scale 2 (-exponent)).toRat) := by
  obtain ⟨below, above⟩ := Ratio.toRat_scale_between positive nonzero (-exponent)
  have width : significandWidth = 53 := rfl
  have one : (1 : ℚ) ≤ 2 := by norm_num
  constructor
  · calc (value.scale 2 (-exponent)).toRat
        ≤ (2 : ℚ) ^ (value.binaryOrder + -exponent + 1) := above.le
      _ ≤ (2 : ℚ) ^ (significandWidth : Int) := zpow_le_zpow_right₀ one (by omega)
      _ = (2 ^ significandWidth : Nat) := by simp
  · rcases max_choice (value.binaryOrder - ((significandWidth : Int) - 1)) leastExponent with
      full | least
    · right
      calc ((2 ^ (significandWidth - 1) : Nat) : ℚ)
          = (2 : ℚ) ^ ((significandWidth - 1 : Nat) : Int) := by simp
        _ ≤ (2 : ℚ) ^ (value.binaryOrder + -exponent) := zpow_le_zpow_right₀ one (by omega)
        _ ≤ (value.scale 2 (-exponent)).toRat := below
    · exact .inl (chosen.trans least)

/-- Rounding gives numbers in normal form, and keeps the sign. -/
theorem normal_of_nearest {negative sign : Bool} {value : Ratio} {significand : Nat}
    {exponent : Int} (positive : 0 < value.denominator)
    (rounded : nearest negative value = .finite sign significand exponent) :
    negative = sign ∧ Normal significand exponent := by
  unfold nearest at rounded
  split at rounded
  · cases rounded
    exact ⟨rfl, by decide, le_rfl, by decide, .inl rfl⟩
  rename_i nonzero
  simp only at rounded
  generalize chosen : max (value.binaryOrder - ((significandWidth : Int) - 1)) leastExponent =
    power at rounded
  obtain ⟨above, below⟩ := scaled_between positive nonzero chosen.symm
  have scaledPositive := Ratio.denominator_scale_pos positive Nat.zero_lt_two (-power)
  have atMost := roundHalfEven_le scaledPositive ((Ratio.toRat_le_iff scaledPositive _).1 above)
  have powerLeast : leastExponent ≤ power := chosen ▸ le_max_right _ _
  split at rounded
  · obtain ⟨rfl, rfl, rfl, greatest⟩ := eq_of_pack rounded
    exact ⟨rfl, by decide, by omega, greatest, .inr le_rfl⟩
  · rename_i notFull
    obtain ⟨rfl, rfl, rfl, greatest⟩ := eq_of_pack rounded
    refine ⟨rfl, lt_of_le_of_ne atMost notFull, powerLeast, greatest, ?_⟩
    rcases below with least | below
    · exact .inl least
    · exact .inr (le_roundHalfEven scaledPositive ((Ratio.le_toRat_iff scaledPositive _).1 below))

/-- The exponent that is chosen for a value is that of its normal form. -/
theorem exponent_of_normal {value : Ratio} {significand : Nat} {exponent : Int}
    (positive : 0 < value.denominator) (nonzero : value.numerator ≠ 0)
    (normal : Normal significand exponent)
    (same : value.toRat = significand * (2 : ℚ) ^ exponent) :
    max (value.binaryOrder - (significandWidth - 1)) leastExponent = exponent := by
  obtain ⟨below, above⟩ := Ratio.binaryOrder_spec positive nonzero
  rw [same] at below above
  have two : (2 : ℚ) ≠ 0 := by norm_num
  have one : (1 : ℚ) < 2 := by norm_num
  have width : significandWidth = 53 := rfl
  have atMost : value.binaryOrder < significandWidth + exponent := by
    rw [← zpow_lt_zpow_iff_right₀ one, zpow_add₀ two]
    refine lt_of_le_of_lt below ?_
    gcongr
    exact_mod_cast normal.fits
  rcases normal.full with least | full
  · omega
  · have atLeast : (significandWidth - 1 : Nat) + exponent < value.binaryOrder + 1 := by
      rw [← zpow_lt_zpow_iff_right₀ one, zpow_add₀ two]
      refine lt_of_le_of_lt ?_ above
      gcongr
      exact_mod_cast full
    have := normal.least
    omega

/-- A ratio with the value of a number in normal form is rounded to that number. -/
theorem nearest_of_normal {value : Ratio} {significand : Nat} {exponent : Int}
    (positive : 0 < value.denominator) (normal : Normal significand exponent)
    (same : value.toRat = significand * (2 : ℚ) ^ exponent) (negative : Bool) :
    nearest negative value = .finite negative significand exponent := by
  by_cases zero : value.numerator = 0
  · have vanishes : significand = 0 := by
      have product : (significand : ℚ) * 2 ^ exponent = 0 := by
        rw [← same, Ratio.toRat, zero, Nat.cast_zero, zero_div]
      have factor := (mul_eq_zero.1 product).resolve_right (by positivity)
      exact_mod_cast factor
    subst vanishes
    obtain rfl : exponent = leastExponent := normal.full.resolve_right (by decide)
    rw [nearest, if_pos zero, Number.zero]
  · have scaledPositive := Ratio.denominator_scale_pos positive Nat.zero_lt_two (-exponent)
    have scaled : (value.scale 2 (-exponent)).toRat = significand := by
      rw [Ratio.toRat_scale value Nat.zero_lt_two, same, mul_assoc]
      push_cast
      rw [← zpow_add₀ (by norm_num), Int.add_right_neg, zpow_zero, mul_one]
    have rounded : roundHalfEven (value.scale 2 (-exponent)).numerator
        (value.scale 2 (-exponent)).denominator = significand := by
      apply le_antisymm
      · exact roundHalfEven_le scaledPositive ((Ratio.toRat_le_iff scaledPositive _).1 scaled.le)
      · exact le_roundHalfEven scaledPositive ((Ratio.le_toRat_iff scaledPositive _).1 scaled.ge)
    have finite : ¬ greatestExponent < exponent := not_lt.2 normal.greatest
    have notFull : ¬ significand = Nat.pow 2 significandWidth := normal.fits.ne
    simp only [nearest, if_neg zero, exponent_of_normal positive zero normal same, rounded,
      if_neg notFull, pack, if_neg finite]

end Number

end TypedLisp
