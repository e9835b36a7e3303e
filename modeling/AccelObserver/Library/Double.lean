import Mathlib.Algebra.Field.Rat
import Mathlib.Data.NNRat.Defs
import Mathlib.Tactic.Common

/-!
# Floating-point numbers by their values

A double is a finite number, an infinity or not a number.  The sign of a
finite number is kept apart from its magnitude, because minus zero prints with
its sign.  Every ordered comparison with a NaN is false.
-/

namespace AccelObserver.Library

inductive Double
  | finite (negative : Bool) (magnitude : ℚ≥0)
  | infinite (negative : Bool)
  | nan
  deriving DecidableEq

namespace Double

/-- Positive zero, what `0.0` and value-initialisation give. -/
def zero : Double := finite false 0

/-- The rational with a sign and a magnitude. -/
def signed (negative : Bool) (magnitude : ℚ≥0) : ℚ :=
  if negative then -(magnitude : ℚ) else magnitude

/-- Unary minus. -/
def neg : Double → Double
  | finite negative magnitude => finite (!negative) magnitude
  | infinite negative => infinite (!negative)
  | nan => nan

/-- `a < b`. -/
def lt : Double → Double → Bool
  | finite negative magnitude, finite negative' magnitude' =>
      signed negative magnitude < signed negative' magnitude'
  | finite _ _, infinite negative => !negative
  | infinite negative, finite _ _ => negative
  | infinite negative, infinite negative' => negative && !negative'
  | nan, _ => false
  | _, nan => false

/-- `a <= b`. -/
def le : Double → Double → Bool
  | finite negative magnitude, finite negative' magnitude' =>
      signed negative magnitude ≤ signed negative' magnitude'
  | finite _ _, infinite negative => !negative
  | infinite negative, finite _ _ => negative
  | infinite negative, infinite negative' => negative || !negative'
  | nan, _ => false
  | _, nan => false

/-- A finite number. -/
def IsFinite (number : Double) : Prop :=
  ∃ negative magnitude, number = finite negative magnitude

/-- A number from `-limit` to `limit`; a NaN is not one. -/
def Within (limit number : Double) : Prop :=
  limit.neg.le number = true ∧ number.le limit = true

instance (limit number : Double) : Decidable (Within limit number) :=
  inferInstanceAs (Decidable (_ ∧ _))

@[simp]
theorem nan_lt (number : Double) : nan.lt number = false := rfl

@[simp]
theorem lt_nan (number : Double) : number.lt nan = false := by
  cases number <;> rfl

@[simp]
theorem neg_eq_nan {number : Double} : number.neg = nan ↔ number = nan := by
  cases number <;> simp [neg]

/-- Between numbers, not below is at least. -/
theorem lt_eq_false_iff
    {left right : Double} (leftNumber : left ≠ nan)
    (rightNumber : right ≠ nan) :
    left.lt right = false ↔ right.le left = true := by
  cases left with
  | nan => exact absurd rfl leftNumber
  | infinite negative =>
      cases right with
      | nan => exact absurd rfl rightNumber
      | finite _ _ => simp [lt, le]
      | infinite negative' => cases negative <;> cases negative' <;> decide
  | finite negative magnitude =>
      cases right with
      | nan => exact absurd rfl rightNumber
      | finite _ _ => simp [lt, le]
      | infinite _ => simp [lt, le]

theorem not_within_nan_limit (number : Double) : ¬ Within nan number := by
  rintro ⟨lower, _⟩
  cases lower

/-- Two negated comparisons are the range check, for numbers. -/
theorem within_iff
    {limit number : Double} (limitNumber : limit ≠ nan)
    (isNumber : number ≠ nan) :
    Within limit number ↔
      number.lt limit.neg = false ∧ limit.lt number = false := by
  have negated : limit.neg ≠ nan := by simpa using limitNumber
  rw [Within, lt_eq_false_iff isNumber negated,
    lt_eq_false_iff limitNumber isNumber]

end Double

end AccelObserver.Library
