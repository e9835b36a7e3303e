import AccelObserver.Library.CNumber
import Mathlib.Tactic.FieldSimp
import Mathlib.Tactic.Linarith
import Mathlib.Tactic.NormNum

/-!
# Rounding to the nearest

How far rounding to an integer and to a double is from the exact value.
-/

namespace AccelObserver.Library.Rounding

open AccelObserver.Library.CNumber

theorem abs_roundHalfEven_sub_le (q : ℚ≥0) :
    |(roundHalfEven q : ℚ) - q| ≤ 1 / 2 := by
  have positive : (0 : ℚ) < q.den := by
    exact_mod_cast q.den_pos
  have value : (q : ℚ) = (q.num : ℚ) / q.den := by
    exact_mod_cast congrArg NNRat.cast (NNRat.num_div_den q).symm
  have split :
      (q.den : ℚ) * (q.num / q.den : Nat) + (q.num % q.den : Nat) = q.num := by
    exact_mod_cast Nat.div_add_mod q.num q.den
  have part : ((q.num % q.den : Nat) : ℚ) ≤ q.den := by
    exact_mod_cast (Nat.mod_lt _ q.den_pos).le
  have down (half : 2 * (q.num % q.den) ≤ q.den) :
      |((q.num / q.den : Nat) : ℚ) - q| ≤ 1 / 2 := by
    have half' : 2 * ((q.num % q.den : Nat) : ℚ) ≤ q.den := by
      exact_mod_cast half
    have nonneg : (0 : ℚ) ≤ (q.num % q.den : Nat) := Nat.cast_nonneg _
    rw [value, abs_le, sub_div' positive.ne', le_div_iff₀ positive,
      div_le_iff₀ positive]
    constructor <;> linarith
  have up (half : q.den ≤ 2 * (q.num % q.den)) :
      |((q.num / q.den + 1 : Nat) : ℚ) - q| ≤ 1 / 2 := by
    have half' : (q.den : ℚ) ≤ 2 * ((q.num % q.den : Nat) : ℚ) := by
      exact_mod_cast half
    rw [value, abs_le, sub_div' positive.ne', le_div_iff₀ positive,
      div_le_iff₀ positive, Nat.cast_succ]
    constructor <;> linarith
  rw [roundHalfEven]
  split_ifs with below above even
  · exact down below.le
  · exact up above.le
  · exact down (Nat.not_lt.mp above)
  · exact up (Nat.not_lt.mp below)

/-! ## Doubles -/

/-- The magnitude of the nearest double. -/
def rounded (magnitude : ℚ≥0) : ℚ≥0 :=
  roundHalfEven (magnitude / spacing magnitude) * spacing magnitude

theorem scale_two_one (exponent : ℤ) : scale 2 1 exponent = 2 ^ exponent := by
  cases exponent with
  | ofNat exponent =>
      rw [scale, one_mul, Nat.cast_ofNat, Int.ofNat_eq_natCast, zpow_natCast]
  | negSucc exponent =>
      rw [scale, Nat.cast_ofNat, zpow_negSucc, one_div]

theorem two_zpow_leadingExponent_le
    {magnitude : ℚ≥0} (positive : 0 < magnitude) :
    2 ^ leadingExponent magnitude ≤ magnitude := by
  rw [leadingExponent]
  split_ifs with below
  · have numerator : 2 ^ magnitude.num.log2 ≤ magnitude.num :=
      Nat.log2_self_le (NNRat.num_ne_zero.mpr positive.ne')
    have denominator : magnitude.den < 2 ^ (magnitude.den.log2 + 1) :=
      Nat.lt_log2_self
    have split :
        (magnitude.num.log2 : ℤ) - magnitude.den.log2 - 1 =
          magnitude.num.log2 - (magnitude.den.log2 + 1 : ℕ) := by
      push_cast
      ring
    have denPositive : (0 : ℚ≥0) < magnitude.den := by
      exact_mod_cast magnitude.den_pos
    rw [split, zpow_sub₀ two_ne_zero, zpow_natCast, zpow_natCast]
    conv_rhs => rw [← NNRat.num_div_den magnitude]
    rw [div_le_div_iff₀ (by positivity) denPositive]
    have product :
        2 ^ magnitude.num.log2 * magnitude.den ≤
          magnitude.num * 2 ^ (magnitude.den.log2 + 1) :=
      Nat.mul_le_mul numerator denominator.le
    exact_mod_cast product
  · rw [← scale_two_one]
    exact not_lt.mp below

/-- Rounding to a double takes off no more than one part in two to the 53. -/
theorem mul_le_rounded
    {magnitude : ℚ≥0} (normal : 2 ^ (-1022 : ℤ) ≤ magnitude) :
    (magnitude : ℚ) * (1 - 1 / 2 ^ 53) ≤ rounded magnitude := by
  have positive : 0 < magnitude :=
    lt_of_lt_of_le (zpow_pos two_pos _) normal
  have unit :
      (2 : ℚ≥0) ^ max (leadingExponent magnitude) (-1022) ≤ magnitude := by
    rcases max_choice (leadingExponent magnitude) (-1022) with same | same
    · rw [same]
      exact two_zpow_leadingExponent_le positive
    · rw [same]
      exact normal
  have step : spacing magnitude * 2 ^ 52 ≤ magnitude := by
    rw [spacing, scale_two_one, zpow_sub₀ two_ne_zero]
    calc
      _ = (2 : ℚ≥0) ^ max (leadingExponent magnitude) (-1022) := by
        rw [show (2 : ℚ≥0) ^ (52 : ℤ) = 2 ^ 52 from by norm_cast]
        field_simp
      _ ≤ magnitude := unit
  have stepPositive : 0 < spacing magnitude := by
    rw [spacing, scale_two_one]
    exact zpow_pos two_pos _
  have near := abs_roundHalfEven_sub_le (magnitude / spacing magnitude)
  have stepPositive' : (0 : ℚ) < spacing magnitude := by
    exact_mod_cast stepPositive
  have step' : (spacing magnitude : ℚ) * 2 ^ 52 ≤ magnitude := by
    exact_mod_cast step
  have lower := (abs_le.mp near).1
  rw [NNRat.cast_div, le_sub_iff_add_le, ← sub_eq_neg_add] at lower
  have scaled := mul_le_mul_of_nonneg_right lower stepPositive'.le
  rw [sub_mul, div_mul_cancel₀ _ stepPositive'.ne'] at scaled
  rw [rounded, NNRat.cast_mul, NNRat.cast_natCast]
  linarith

end AccelObserver.Library.Rounding
