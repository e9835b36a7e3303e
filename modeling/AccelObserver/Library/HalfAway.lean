import Mathlib.Algebra.Order.Floor.Ring
import Mathlib.Algebra.Order.Field.Basic
import Mathlib.Tactic.Linarith
import Mathlib.Tactic.Ring

/-!
# Rounding half away from zero

The rounding of C's `roundf`, on an ordered field with a floor, and what it
does to values that were clamped before they are rounded to a grid.  The bound
of the clamp is kept exactly when it is rounded down to the grid itself.
-/

namespace AccelObserver.Library.HalfAway

/-- Two, as a numeral of any semiring. -/
local instance two_atLeastTwo : Nat.AtLeastTwo 2 := ⟨le_rfl⟩

variable {K : Type*} [Field K] [LinearOrder K] [FloorRing K]

/-- The nearest integer; halfway between two, the one away from zero. -/
def roundHalfAway (x : K) : ℤ :=
  if 0 ≤ x then ⌊x + 1 / 2⌋ else ⌈x - 1 / 2⌉

theorem roundHalfAway_of_nonneg {x : K} (nonneg : 0 ≤ x) :
    roundHalfAway x = ⌊x + 1 / 2⌋ :=
  if_pos nonneg

variable [IsStrictOrderedRing K]

theorem roundHalfAway_neg (x : K) : roundHalfAway (-x) = -roundHalfAway x := by
  rcases lt_trichotomy x 0 with negative | rfl | positive
  · have split : -x + 1 / 2 = -(x - 1 / 2) := by ring
    rw [roundHalfAway, if_pos (neg_nonneg.mpr negative.le), roundHalfAway,
      if_neg (not_le.mpr negative), split, Int.floor_neg]
  · have half : ⌊(1 / 2 : K)⌋ = 0 := by
      rw [Int.floor_eq_zero_iff]
      constructor <;> norm_num
    rw [neg_zero, roundHalfAway_of_nonneg le_rfl, zero_add, half, neg_zero]
  · have split : -x - 1 / 2 = -(x + 1 / 2) := by ring
    rw [roundHalfAway, if_neg (not_le.mpr (neg_neg_of_pos positive)),
      roundHalfAway, if_pos positive.le, split, Int.ceil_neg]

theorem roundHalfAway_nonneg {x : K} (nonneg : 0 ≤ x) :
    0 ≤ roundHalfAway x := by
  rw [roundHalfAway_of_nonneg nonneg, Int.floor_nonneg]
  linarith

/-- The sign plays no part in how far a number is rounded. -/
theorem abs_roundHalfAway (x : K) :
    |(roundHalfAway x : K)| = roundHalfAway |x| := by
  rcases le_total 0 x with nonneg | nonpos
  · rw [abs_of_nonneg nonneg, abs_of_nonneg]
    exact_mod_cast roundHalfAway_nonneg nonneg
  · have opposite : 0 ≤ roundHalfAway (-x) :=
      roundHalfAway_nonneg (neg_nonneg.mpr nonpos)
    rw [abs_of_nonpos nonpos]
    rw [roundHalfAway_neg] at opposite ⊢
    rw [abs_of_nonpos]
    · push_cast
      rfl
    · exact_mod_cast neg_nonneg.mp opposite

/-- A number is rounded to at most an integer if it is less than a half above
that. -/
theorem roundHalfAway_le_iff {x : K} (nonneg : 0 ≤ x) (n : ℤ) :
    roundHalfAway x ≤ n ↔ x < n + 1 / 2 := by
  rw [roundHalfAway_of_nonneg nonneg, ← Int.lt_add_one_iff, Int.floor_lt]
  push_cast
  constructor
  · intro below
    linarith
  · intro below
    linarith

/-! ## A grid -/

/-- The multiple of a step that is nearest. -/
def toGrid (step x : K) : K :=
  roundHalfAway (x / step) * step

/-- A value is within some bounds on the grid, exactly when it is less than
half a step above the last point of the grid that is within them. -/
theorem abs_toGrid_le_iff
    {step : K} (positive : 0 < step) (limit x : K) :
    |toGrid step x| ≤ limit ↔ |x| < (⌊limit / step⌋ + 1 / 2) * step := by
  have quotient : 0 ≤ |x| / step := div_nonneg (abs_nonneg x) positive.le
  rw [toGrid, abs_mul, abs_of_pos positive, ← le_div_iff₀ positive,
    abs_roundHalfAway, abs_div, abs_of_pos positive, ← Int.le_floor,
    roundHalfAway_le_iff quotient, div_lt_iff₀ positive]

end AccelObserver.Library.HalfAway
