import AccelObserver.Library.CNumber
import Mathlib.Data.Int.Log
import Mathlib.Data.NNRat.Floor

/-!
# Single precision

A `float` is a double that narrowing leaves as it is: at most 24 significant
bits, with an exponent from -149 on, rounded half to even.  So widening is the
inclusion, and narrowing a widened number gives the number back.
-/

namespace AccelObserver.Library

open AccelObserver.Library.CNumber

namespace Single

/-- The exponent of the last bit that a magnitude keeps. -/
def lastExponent (magnitude : ℚ≥0) : ℤ :=
  max (-149) (Int.log 2 magnitude - 23)

/-- The nearest multiple of the last bit. -/
def round (magnitude : ℚ≥0) : ℚ≥0 :=
  (roundHalfEven (magnitude / 2 ^ lastExponent magnitude) : ℚ≥0) *
    2 ^ lastExponent magnitude

/-- The conversion of a double to a float, as a double. -/
def narrow : Double → Double
  | .finite negative magnitude =>
      if 2 ^ 128 ≤ round magnitude then .infinite negative
      else .finite negative (round magnitude)
  | .infinite negative => .infinite negative
  | .nan => .nan

/-- The kept bits are at most 24. -/
theorem roundHalfEven_le_significand (magnitude : ℚ≥0) :
    roundHalfEven (magnitude / 2 ^ lastExponent magnitude) ≤ 2 ^ 24 := by
  have positive : (0 : ℚ≥0) < 2 ^ lastExponent magnitude :=
    zpow_pos two_pos _
  have top : Int.log 2 magnitude + 1 ≤ 24 + lastExponent magnitude := by
    have := le_max_right (-149) (Int.log 2 magnitude - 23)
    rw [lastExponent]
    omega
  apply roundHalfEven_le
  rw [div_le_iff₀ positive]
  calc
    magnitude ≤ 2 ^ (Int.log 2 magnitude + 1) := by
      exact_mod_cast (Int.lt_zpow_succ_log_self one_lt_two magnitude).le
    _ ≤ 2 ^ (24 + lastExponent magnitude) :=
      zpow_le_zpow_right₀ one_le_two top
    _ = ((2 ^ 24 : ℕ) : ℚ≥0) * 2 ^ lastExponent magnitude := by
      rw [zpow_add₀ two_ne_zero]
      norm_cast

/-- A number of 24 bits is a multiple of its own last bit. -/
theorem exists_multiple_of_lt
    {count : ℕ} (small : count < 2 ^ 24) {exponent : ℤ}
    (representable : -149 ≤ exponent) :
    ∃ multiple : ℕ,
      ((count : ℚ≥0) * 2 ^ exponent) /
          2 ^ lastExponent ((count : ℚ≥0) * 2 ^ exponent) =
        multiple := by
  rcases Nat.eq_zero_or_pos count with rfl | positive
  · exact ⟨0, by simp⟩
  have magnitudePositive : (0 : ℚ≥0) < count * 2 ^ exponent :=
    mul_pos (Nat.cast_pos.mpr positive) (zpow_pos two_pos _)
  have below : (count : ℚ≥0) * 2 ^ exponent < 2 ^ (24 + exponent) := by
    rw [zpow_add₀ two_ne_zero]
    apply mul_lt_mul_of_pos_right _ (zpow_pos two_pos _)
    exact_mod_cast small
  have log : Int.log 2 ((count : ℚ≥0) * 2 ^ exponent) < 24 + exponent :=
    (Int.lt_zpow_iff_log_lt one_lt_two magnitudePositive).mp
      (by exact_mod_cast below)
  have low : lastExponent ((count : ℚ≥0) * 2 ^ exponent) ≤ exponent :=
    max_le representable (by omega)
  -- The multiples of a last bit that is not above the exponent are enough.
  rcases Int.le.dest low with ⟨shift, shifted⟩
  refine ⟨count * 2 ^ shift, ?_⟩
  rw [div_eq_iff (zpow_ne_zero _ two_ne_zero)]
  generalize lastExponent ((count : ℚ≥0) * 2 ^ exponent) = last at shifted
  rw [← shifted, zpow_add₀ two_ne_zero, zpow_natCast]
  push_cast
  ring

/-- So is the next power of two, which has one bit. -/
theorem exists_multiple_of_le
    {count : ℕ} (small : count ≤ 2 ^ 24) {exponent : ℤ}
    (representable : -149 ≤ exponent) :
    ∃ multiple : ℕ,
      ((count : ℚ≥0) * 2 ^ exponent) /
          2 ^ lastExponent ((count : ℚ≥0) * 2 ^ exponent) =
        multiple := by
  rcases Nat.lt_or_eq_of_le small with less | rfl
  · exact exists_multiple_of_lt less representable
  · have halved :
        ((2 ^ 24 : ℕ) : ℚ≥0) * 2 ^ exponent =
          ((2 ^ 23 : ℕ) : ℚ≥0) * 2 ^ (exponent + 1) := by
      rw [zpow_add₀ two_ne_zero, zpow_one]
      push_cast
      ring
    rw [halved]
    exact exists_multiple_of_lt (by decide) (by omega)

/-- So rounding again does nothing. -/
theorem round_round (magnitude : ℚ≥0) :
    round (round magnitude) = round magnitude := by
  rcases exists_multiple_of_le (roundHalfEven_le_significand magnitude)
      (le_max_left _ _) with ⟨count, multiple⟩
  change round magnitude / 2 ^ lastExponent (round magnitude) = count
    at multiple
  rw [round, multiple, roundHalfEven_natCast, ← multiple]
  exact div_mul_cancel₀ _ (zpow_ne_zero _ two_ne_zero)

theorem narrow_narrow (number : Double) :
    narrow (narrow number) = narrow number := by
  cases number with
  | nan => rfl
  | infinite negative => rfl
  | finite negative magnitude =>
      rw [narrow]
      split_ifs with large
      · rfl
      · rw [narrow, round_round, if_neg large]

end Single

/-- `float` -/
structure Single where
  number : Double
  narrow_number : Single.narrow number = number
  deriving DecidableEq

namespace Single

/-- `(float)number` -/
def ofDouble (number : Double) : Single where
  number := narrow number
  narrow_number := narrow_narrow number

@[simp]
theorem ofDouble_number (single : Single) :
    ofDouble single.number = single := by
  cases single with
  | mk number same =>
      simp only [ofDouble, same]

end Single

end AccelObserver.Library
