import AccelObserver.Library.Rounding
import Mathlib.Data.Int.Log
import Mathlib.Data.NNRat.Floor
import Mathlib.Order.Monotone.Basic

/-!
# Double precision

Rounding to the nearest double keeps the order, changes no double, and treats
both signs alike.  So a result that lies between doubles exactly lies between
them when it is rounded, whatever its last bits are.

The grid of the doubles goes on without end here; only the operations stop at
its largest number, and give an infinity beyond it.
-/

namespace AccelObserver.Library.Binary64

open AccelObserver.Library.CNumber
open AccelObserver.Library.Rounding

/-! ## Rounding to an integer -/

/-- Of two numbers that change places, one would be rounded by more than a
half. -/
theorem roundHalfEven_mono : Monotone roundHalfEven := by
  intro low high ordered
  by_contra crossed
  have nearLow := (abs_le.mp (abs_roundHalfEven_sub_le low)).2
  have nearHigh := (abs_le.mp (abs_roundHalfEven_sub_le high)).1
  have ordered' : (low : ℚ) ≤ high := by exact_mod_cast ordered
  have crossed' : (roundHalfEven high : ℚ) + 1 ≤ roundHalfEven low := by
    exact_mod_cast Nat.not_le.mp crossed
  have same : (low : ℚ) = high := by linarith
  have equal : low = high := by exact_mod_cast same
  rw [equal] at crossed
  exact crossed (Nat.le_refl _)

theorem le_roundHalfEven {count : Nat} {magnitude : ℚ≥0}
    (bounded : count ≤ magnitude) : count ≤ roundHalfEven magnitude := by
  have kept := roundHalfEven_mono bounded
  rwa [roundHalfEven_natCast] at kept

/-! ## The last bit -/

/-- The exponent of the leading bit is the logarithm. -/
theorem leadingExponent_eq_log {magnitude : ℚ≥0} (positive : 0 < magnitude) :
    leadingExponent magnitude = Int.log 2 magnitude := by
  have numerator : magnitude.num < 2 ^ (magnitude.num.log2 + 1) :=
    Nat.lt_log2_self
  have denominator : 2 ^ magnitude.den.log2 ≤ magnitude.den :=
    Nat.log2_self_le magnitude.den_ne_zero
  have denPositive : (0 : ℚ≥0) < magnitude.den := by
    exact_mod_cast magnitude.den_pos
  have upper :
      magnitude <
        2 ^ ((magnitude.num.log2 : ℤ) - magnitude.den.log2 + 1) := by
    have split :
        (magnitude.num.log2 : ℤ) - magnitude.den.log2 + 1 =
          (magnitude.num.log2 + 1 : ℕ) - (magnitude.den.log2 : ℕ) := by
      push_cast
      ring
    rw [split, zpow_sub₀ two_ne_zero, zpow_natCast, zpow_natCast]
    conv_lhs => rw [← NNRat.num_div_den magnitude]
    rw [div_lt_div_iff₀ denPositive (by positivity)]
    have product :
        magnitude.num * 2 ^ magnitude.den.log2 <
          2 ^ (magnitude.num.log2 + 1) * magnitude.den :=
      Nat.mul_lt_mul_of_lt_of_le numerator denominator
        magnitude.den_pos
    exact_mod_cast product
  have below : magnitude < 2 ^ (leadingExponent magnitude + 1) := by
    rw [leadingExponent]
    split_ifs with small
    · rw [scale_two_one] at small
      rwa [Int.sub_add_cancel]
    · exact upper
  apply le_antisymm
  · refine (Int.zpow_le_iff_le_log one_lt_two positive).mp ?_
    exact_mod_cast two_zpow_leadingExponent_le positive
  · refine Int.lt_add_one_iff.mp
      ((Int.lt_zpow_iff_log_lt one_lt_two positive).mp ?_)
    exact_mod_cast below

/-- The exponent of the last bit that a magnitude keeps. -/
def lastExponent (magnitude : ℚ≥0) : ℤ :=
  max (Int.log 2 magnitude) (-1022) - 52

theorem spacing_eq {magnitude : ℚ≥0} (positive : 0 < magnitude) :
    spacing magnitude = 2 ^ lastExponent magnitude := by
  rw [spacing, scale_two_one, leadingExponent_eq_log positive, lastExponent]

theorem rounded_eq {magnitude : ℚ≥0} (positive : 0 < magnitude) :
    rounded magnitude =
      roundHalfEven (magnitude / 2 ^ lastExponent magnitude) *
        2 ^ lastExponent magnitude := by
  rw [rounded, spacing_eq positive]

@[simp]
theorem rounded_zero : rounded 0 = 0 := by
  rw [rounded, zero_div]
  exact mul_eq_zero_of_left (by exact_mod_cast roundHalfEven_natCast 0) _

theorem lt_two_zpow_lastExponent (magnitude : ℚ≥0) :
    magnitude < 2 ^ (lastExponent magnitude + 53) := by
  have log : magnitude < 2 ^ (Int.log 2 magnitude + 1) := by
    exact_mod_cast Int.lt_zpow_succ_log_self one_lt_two magnitude
  refine log.trans_le (zpow_le_zpow_right₀ one_le_two ?_)
  have := le_max_left (Int.log 2 magnitude) (-1022)
  rw [lastExponent]
  omega

/-! ## Doubles -/

/-- The magnitude of a double: 53 bits, and an exponent. -/
def IsDouble (magnitude : ℚ≥0) : Prop :=
  ∃ count : ℕ, ∃ exponent : ℤ,
    count ≤ 2 ^ 53 ∧ -1074 ≤ exponent ∧
      magnitude = count * ((2 : ℕ) : ℚ≥0) ^ exponent

theorem isDouble_natCast {count : ℕ} (small : count ≤ 2 ^ 53) :
    IsDouble count :=
  ⟨count, 0, small, by decide, by rw [zpow_zero, mul_one]⟩

theorem isDouble_two_pow (exponent : ℕ) : IsDouble (2 ^ exponent) :=
  ⟨1, exponent, by decide, by omega,
    by rw [Nat.cast_one, one_mul, zpow_natCast, Nat.cast_ofNat]⟩

theorem isDouble_rounded (magnitude : ℚ≥0) : IsDouble (rounded magnitude) := by
  rcases eq_zero_or_pos magnitude with rfl | positive
  · rw [rounded_zero]
    exact_mod_cast isDouble_natCast (Nat.zero_le _)
  · refine ⟨_, lastExponent magnitude, roundHalfEven_le ?_, ?_,
      (rounded_eq positive).trans (by rw [Nat.cast_ofNat])⟩
    · rw [div_le_iff₀ (zpow_pos two_pos _)]
      refine (lt_two_zpow_lastExponent magnitude).le.trans ?_
      rw [zpow_add₀ two_ne_zero, mul_comm]
      exact le_of_eq (by norm_cast)
    · have := le_max_right (Int.log 2 magnitude) (-1022)
      rw [lastExponent]
      omega

/-- A double is a multiple of the last bit of any number below it. -/
theorem exists_multiple
    {count : ℕ} {exponent last : ℤ} (low : last ≤ exponent) :
    ∃ multiple : ℕ,
      (count : ℚ≥0) * 2 ^ exponent / 2 ^ last = multiple := by
  rcases Int.le.dest low with ⟨shift, shifted⟩
  refine ⟨count * 2 ^ shift, ?_⟩
  rw [div_eq_iff (zpow_ne_zero _ two_ne_zero), ← shifted,
    zpow_add₀ two_ne_zero, zpow_natCast]
  push_cast
  ring

/-- With 53 bits, the last bit kept is not above the exponent. -/
theorem lastExponent_le
    {count : ℕ} (positive : 0 < count) (small : count < 2 ^ 53)
    {exponent : ℤ} (low : -1074 ≤ exponent) :
    lastExponent (count * 2 ^ exponent) ≤ exponent := by
  have magnitudePositive : (0 : ℚ≥0) < count * 2 ^ exponent :=
    mul_pos (Nat.cast_pos.mpr positive) (zpow_pos two_pos _)
  have below : (count : ℚ≥0) * 2 ^ exponent < 2 ^ (53 + exponent) := by
    rw [zpow_add₀ two_ne_zero]
    apply mul_lt_mul_of_pos_right _ (zpow_pos two_pos _)
    exact_mod_cast small
  have log : Int.log 2 ((count : ℚ≥0) * 2 ^ exponent) < 53 + exponent :=
    (Int.lt_zpow_iff_log_lt one_lt_two magnitudePositive).mp
      (by exact_mod_cast below)
  rw [lastExponent]
  rcases max_choice (Int.log 2 ((count : ℚ≥0) * 2 ^ exponent)) (-1022)
    with same | same <;> rw [same] <;> omega

/-- Rounding leaves a double as it is. -/
theorem rounded_of_isDouble {magnitude : ℚ≥0} (double : IsDouble magnitude) :
    rounded magnitude = magnitude := by
  have kept
      {count : ℕ} (small : count < 2 ^ 53) {exponent : ℤ}
      (low : -1074 ≤ exponent) :
      rounded (count * 2 ^ exponent) = count * 2 ^ exponent := by
    rcases Nat.eq_zero_or_pos count with rfl | positive
    · rw [Nat.cast_zero, zero_mul, rounded_zero]
    · rcases exists_multiple (lastExponent_le positive small low)
        with ⟨multiple, isMultiple⟩
      rw [rounded_eq (mul_pos (Nat.cast_pos.mpr positive)
          (zpow_pos two_pos _)), isMultiple, roundHalfEven_natCast,
        ← isMultiple]
      exact div_mul_cancel₀ _ (zpow_ne_zero _ two_ne_zero)
  rcases double with ⟨count, exponent, small, low, rfl⟩
  rw [Nat.cast_ofNat]
  rcases Nat.lt_or_eq_of_le small with less | rfl
  · exact kept less low
  · -- 2 ^ 53 has one bit, so it is a number of 52 bits one exponent further.
    have halved :
        ((2 ^ 53 : ℕ) : ℚ≥0) * 2 ^ exponent =
          ((2 ^ 52 : ℕ) : ℚ≥0) * 2 ^ (exponent + 1) := by
      rw [zpow_add₀ two_ne_zero, zpow_one]
      push_cast
      ring
    rw [halved]
    exact kept (by decide) (by omega)

theorem lastExponent_mono
    {low high : ℚ≥0} (positive : 0 < low) (ordered : low ≤ high) :
    lastExponent low ≤ lastExponent high := by
  have := Int.log_mono_right (b := 2) positive ordered
  rw [lastExponent, lastExponent]
  have := max_le_max_right (-1022 : ℤ) this
  omega

/-- Rounding keeps the order. -/
theorem rounded_mono : Monotone rounded := by
  intro low high ordered
  rcases eq_zero_or_pos low with rfl | positive
  · rw [rounded_zero]
    exact zero_le
  have highPositive : 0 < high := positive.trans_le ordered
  rcases (lastExponent_mono positive ordered).eq_or_lt with same | further
  · rw [rounded_eq positive, rounded_eq highPositive, same]
    refine mul_le_mul_left (Nat.cast_le.mpr (roundHalfEven_mono ?_)) _
    exact div_le_div_of_nonneg_right ordered (zpow_pos two_pos _).le
  · -- A power of two lies between them, and both are rounded towards it.
    have log : lastExponent high = Int.log 2 high - 52 := by
      have := le_max_right (Int.log 2 low) (-1022)
      rw [lastExponent] at further ⊢
      rw [lastExponent] at further
      omega
    have reached : (2 : ℚ≥0) ^ (lastExponent high + 52) ≤ high := by
      rw [log, Int.sub_add_cancel]
      exact_mod_cast Int.zpow_log_le_self one_lt_two highPositive
    calc
      rounded low ≤ 2 ^ (lastExponent low + 53) := by
        rw [rounded_eq positive, zpow_add₀ two_ne_zero, mul_comm]
        refine mul_le_mul_right ?_ _
        have whole : ((2 ^ 53 : ℕ) : ℚ≥0) = 2 ^ (53 : ℤ) := by norm_cast
        rw [← whole, Nat.cast_le]
        apply roundHalfEven_le
        rw [div_le_iff₀ (zpow_pos two_pos _), whole, mul_comm,
          ← zpow_add₀ two_ne_zero]
        exact (lt_two_zpow_lastExponent low).le
      _ ≤ 2 ^ (lastExponent high + 52) :=
        zpow_le_zpow_right₀ one_le_two (by omega)
      _ ≤ rounded high := by
        rw [rounded_eq highPositive, zpow_add₀ two_ne_zero, mul_comm]
        refine mul_le_mul_left ?_ _
        have whole : ((2 ^ 52 : ℕ) : ℚ≥0) = 2 ^ (52 : ℤ) := by norm_cast
        rw [← whole, Nat.cast_le]
        apply le_roundHalfEven
        rw [le_div_iff₀ (zpow_pos two_pos _), whole, mul_comm,
          ← zpow_add₀ two_ne_zero]
        exact reached

/-- Rounding stays below a double. -/
theorem rounded_le
    {magnitude bound : ℚ≥0} (double : IsDouble bound)
    (bounded : magnitude ≤ bound) : rounded magnitude ≤ bound :=
  (rounded_mono bounded).trans_eq (rounded_of_isDouble double)

/-! ## Both signs -/

/-- The nearest double of a rational. -/
def toNearest (exact : ℚ) : ℚ :=
  Double.signed (exact < 0) (rounded exact.nnabs)

theorem toNearest_of_nonneg {exact : ℚ} (nonneg : 0 ≤ exact) :
    toNearest exact = rounded exact.nnabs := by
  rw [toNearest, decide_eq_false nonneg.not_gt, Double.signed]
  exact if_neg Bool.false_ne_true

theorem toNearest_of_neg {exact : ℚ} (negative : exact < 0) :
    toNearest exact = -(rounded exact.nnabs : ℚ) := by
  rw [toNearest, decide_eq_true negative, Double.signed]
  exact if_pos rfl

theorem toNearest_neg (exact : ℚ) : toNearest (-exact) = -toNearest exact := by
  have same : (-exact).nnabs = exact.nnabs := by
    rw [NNRat.ext_iff, Rat.coe_nnabs, Rat.coe_nnabs, abs_neg]
  rcases lt_trichotomy exact 0 with negative | rfl | positive
  · rw [toNearest_of_neg negative,
      toNearest_of_nonneg (neg_nonneg.mpr negative.le),
      same, neg_neg]
  · have none : (0 : ℚ).nnabs = 0 := rfl
    rw [neg_zero, toNearest_of_nonneg (le_refl _), none, rounded_zero,
      NNRat.cast_zero, neg_zero]
  · rw [toNearest_of_nonneg positive.le,
      toNearest_of_neg (neg_lt_zero.mpr positive),
      same]

theorem toNearest_nonneg {exact : ℚ} (nonneg : 0 ≤ exact) :
    0 ≤ toNearest exact := by
  rw [toNearest_of_nonneg nonneg]
  exact NNRat.cast_nonneg _

theorem toNearest_mono : Monotone toNearest := by
  have above {low high : ℚ} (nonneg : 0 ≤ low) (ordered : low ≤ high) :
      toNearest low ≤ toNearest high := by
    rw [toNearest_of_nonneg nonneg, toNearest_of_nonneg (nonneg.trans ordered)]
    refine NNRat.cast_le.mpr (rounded_mono ?_)
    rw [← NNRat.coe_le_coe, Rat.coe_nnabs, Rat.coe_nnabs,
      abs_of_nonneg nonneg, abs_of_nonneg (nonneg.trans ordered)]
    exact ordered
  intro low high ordered
  rcases le_total 0 low with nonneg | nonpos
  · exact above nonneg ordered
  rcases le_total 0 high with nonneg | nonpos'
  · refine le_trans ?_ (toNearest_nonneg nonneg)
    have := toNearest_nonneg (neg_nonneg.mpr nonpos)
    rw [toNearest_neg] at this
    exact neg_nonneg.mp this
  · have := above (neg_nonneg.mpr nonpos') (neg_le_neg ordered)
    rw [toNearest_neg, toNearest_neg] at this
    exact neg_le_neg_iff.mp this

@[simp]
theorem toNearest_toNearest (exact : ℚ) :
    toNearest (toNearest exact) = toNearest exact := by
  have above {exact : ℚ} (nonneg : 0 ≤ exact) :
      toNearest (toNearest exact) = toNearest exact := by
    rw [toNearest_of_nonneg (toNearest_nonneg nonneg),
      toNearest_of_nonneg nonneg,
      NNRat.cast_inj]
    have same : (rounded exact.nnabs : ℚ).nnabs = rounded exact.nnabs := by
      rw [NNRat.ext_iff, Rat.coe_nnabs, abs_of_nonneg (NNRat.cast_nonneg _)]
    rw [same]
    exact rounded_of_isDouble (isDouble_rounded _)
  rcases le_total 0 exact with nonneg | nonpos
  · exact above nonneg
  · have := above (neg_nonneg.mpr nonpos)
    rw [toNearest_neg, toNearest_neg] at this
    exact neg_inj.mp this

theorem toNearest_coe (magnitude : ℚ≥0) :
    toNearest magnitude = rounded magnitude := by
  have same : (magnitude : ℚ).nnabs = magnitude := by
    rw [NNRat.ext_iff, Rat.coe_nnabs, abs_of_nonneg (NNRat.cast_nonneg _)]
  rw [toNearest_of_nonneg (NNRat.cast_nonneg _), same]

/-- The sign is kept apart from the magnitude by rounding. -/
theorem toNearest_signed (negative : Bool) (magnitude : ℚ≥0) :
    toNearest (Double.signed negative magnitude) =
      Double.signed negative (rounded magnitude) := by
  cases negative with
  | false => exact toNearest_coe magnitude
  | true =>
      exact (toNearest_neg _).trans (congrArg Neg.neg (toNearest_coe magnitude))

theorem toNearest_of_isDouble {magnitude : ℚ≥0} (double : IsDouble magnitude) :
    toNearest magnitude = magnitude := by
  rw [toNearest_coe, rounded_of_isDouble double]

theorem toNearest_natCast (count : ℕ) (small : count ≤ 2 ^ 53) :
    toNearest count = count := by
  exact_mod_cast toNearest_of_isDouble (isDouble_natCast small)

theorem toNearest_two_pow (exponent : ℕ) :
    toNearest (2 ^ exponent) = 2 ^ exponent := by
  exact_mod_cast toNearest_of_isDouble (isDouble_two_pow exponent)

@[simp]
theorem toNearest_zero : toNearest 0 = 0 := by
  exact_mod_cast toNearest_natCast 0 (Nat.zero_le _)

@[simp]
theorem toNearest_one : toNearest 1 = 1 := by
  exact_mod_cast toNearest_natCast 1 (by decide)

/-! ## Operations -/

/-- Below this nothing overflows. -/
def limit : ℚ := 2 ^ 1023

theorem lt_limit {value : ℚ} (small : value ≤ 2 ^ 100) : value < limit :=
  small.trans_lt (pow_lt_pow_right₀ one_lt_two (by decide))

theorem neg_limit_lt {value : ℚ} (small : -2 ^ 100 ≤ value) :
    -limit < value :=
  (neg_lt_neg (lt_limit (le_refl _))).trans_le small

/-- A finite number and the rational that it is. -/
def HasValue (number : Double) (value : ℚ) : Prop :=
  ∃ negative magnitude,
    number = .finite negative magnitude ∧
      Double.signed negative magnitude = value

theorem HasValue.lt_iff
    {left right : Double} {a b : ℚ} (isLeft : HasValue left a)
    (isRight : HasValue right b) : left.lt right = true ↔ a < b := by
  rcases isLeft with ⟨negative, magnitude, rfl, rfl⟩
  rcases isRight with ⟨negative', magnitude', rfl, rfl⟩
  exact decide_eq_true_iff

theorem HasValue.le_iff
    {left right : Double} {a b : ℚ} (isLeft : HasValue left a)
    (isRight : HasValue right b) : left.le right = true ↔ a ≤ b := by
  rcases isLeft with ⟨negative, magnitude, rfl, rfl⟩
  rcases isRight with ⟨negative', magnitude', rfl, rfl⟩
  exact decide_eq_true_iff

theorem HasValue.neg
    {number : Double} {value : ℚ} (isValue : HasValue number value) :
    HasValue number.neg (-value) := by
  rcases isValue with ⟨negative, magnitude, rfl, rfl⟩
  refine ⟨!negative, magnitude, rfl, ?_⟩
  cases negative <;> simp [Double.signed]

/-- A range check says what it seems to. -/
theorem HasValue.within_iff
    {limit number : Double} {most value : ℚ} (isMost : HasValue limit most)
    (isValue : HasValue number value) :
    Double.Within limit number ↔ |value| ≤ most := by
  rw [Double.Within, isMost.neg.le_iff isValue, isValue.le_iff isMost, abs_le]

/-- A finite number between two rationals. -/
def Between (number : Double) (low high : ℚ) : Prop :=
  ∃ value, HasValue number value ∧ low ≤ value ∧ value ≤ high

theorem Between.mono
    {number : Double} {low low' high high' : ℚ}
    (between : Between number low high) (lower : low' ≤ low)
    (higher : high ≤ high') : Between number low' high' := by
  rcases between with ⟨value, isValue, above, below⟩
  exact ⟨value, isValue, lower.trans above, below.trans higher⟩

/-- A result with its sign, rounded; beyond the largest double it is
infinite. -/
def finish (negative : Bool) (exact : ℚ≥0) : Double :=
  if rounded exact < ((2 : ℕ) : ℚ≥0) ^ 1024 then
    .finite negative (rounded exact)
  else .infinite negative

/-- The sum of two doubles; what cancels out is positive zero. -/
def add : Double → Double → Double
  | .finite negative magnitude, .finite negative' magnitude' =>
      let exact :=
        Double.signed negative (rounded magnitude) +
          Double.signed negative' (rounded magnitude')
      if exact = 0 then .finite (negative && negative') 0
      else finish (exact < 0) exact.nnabs
  | .finite _ _, .infinite negative => .infinite negative
  | .infinite negative, .finite _ _ => .infinite negative
  | .infinite negative, .infinite negative' =>
      if negative = negative' then .infinite negative else .nan
  | .nan, _ | _, .nan => .nan

def sub (left right : Double) : Double :=
  add left right.neg

/-- The product; an infinity times zero is not a number. -/
def mul : Double → Double → Double
  | .finite negative magnitude, .finite negative' magnitude' =>
      finish (negative ^^ negative') (rounded magnitude * rounded magnitude')
  | .finite negative magnitude, .infinite negative' =>
      if rounded magnitude = 0 then .nan else .infinite (negative ^^ negative')
  | .infinite negative, .finite negative' magnitude =>
      if rounded magnitude = 0 then .nan else .infinite (negative ^^ negative')
  | .infinite negative, .infinite negative' => .infinite (negative ^^ negative')
  | .nan, _ | _, .nan => .nan

/-- The quotient; only zero by zero and infinity by infinity are not numbers. -/
def div : Double → Double → Double
  | .finite negative magnitude, .finite negative' magnitude' =>
      if rounded magnitude' = 0 then
        if rounded magnitude = 0 then .nan
        else .infinite (negative ^^ negative')
      else
        finish (negative ^^ negative')
          (rounded magnitude / rounded magnitude')
  | .finite negative _, .infinite negative' =>
      .finite (negative ^^ negative') 0
  | .infinite negative, .finite negative' _ => .infinite (negative ^^ negative')
  | .infinite _, .infinite _ => .nan
  | .nan, _ | _, .nan => .nan

/-- Short of the largest double, a result has its rounded value. -/
theorem hasValue_finish
    (negative : Bool) {exact : ℚ≥0} (small : exact ≤ 2 ^ 1023) :
    HasValue (finish negative exact)
      (toNearest (Double.signed negative exact)) := by
  have below : rounded exact < ((2 : ℕ) : ℚ≥0) ^ 1024 := by
    refine (rounded_le (isDouble_two_pow 1023) small).trans_lt ?_
    rw [Nat.cast_ofNat]
    exact pow_lt_pow_right₀ one_lt_two (by decide)
  rw [finish, if_pos below, toNearest_signed]
  exact ⟨_, _, rfl, rfl⟩

theorem abs_signed (negative : Bool) (magnitude : ℚ≥0) :
    |Double.signed negative magnitude| = magnitude := by
  cases negative <;> simp [Double.signed]

theorem signed_nnabs (exact : ℚ) :
    Double.signed (exact < 0) exact.nnabs = exact := by
  rcases lt_or_ge exact 0 with negative | nonneg
  · simp [Double.signed, negative, abs_of_neg negative]
  · simp [Double.signed, nonneg.not_gt, abs_of_nonneg nonneg]

theorem signed_mul_signed
    (negative negative' : Bool) (magnitude magnitude' : ℚ≥0) :
    Double.signed negative magnitude * Double.signed negative' magnitude' =
      Double.signed (negative ^^ negative') (magnitude * magnitude') := by
  cases negative <;> cases negative' <;> simp [Double.signed]

theorem signed_div_signed
    (negative negative' : Bool) (magnitude magnitude' : ℚ≥0) :
    Double.signed negative magnitude / Double.signed negative' magnitude' =
      Double.signed (negative ^^ negative') (magnitude / magnitude') := by
  cases negative <;> cases negative' <;>
    simp [Double.signed, neg_div, div_neg]

/-- What is below the limit is far from the largest double. -/
theorem le_of_abs_signed_lt
    {negative : Bool} {magnitude : ℚ≥0}
    (small : |Double.signed negative magnitude| < limit) :
    magnitude ≤ 2 ^ 1023 := by
  rw [abs_signed, limit] at small
  exact_mod_cast small.le

section Results

variable {left right : Double} {a b : ℚ}

theorem hasValue_add
    (isLeft : HasValue left a) (isRight : HasValue right b)
    (small : |toNearest a + toNearest b| < limit) :
    HasValue (add left right) (toNearest (toNearest a + toNearest b)) := by
  rcases isLeft with ⟨negative, magnitude, rfl, rfl⟩
  rcases isRight with ⟨negative', magnitude', rfl, rfl⟩
  rw [toNearest_signed, toNearest_signed] at small ⊢
  rw [add]
  split_ifs with cancels
  · rw [cancels, toNearest_zero]
    exact ⟨_, 0, rfl, by cases negative && negative' <;> rfl⟩
  · rw [← signed_nnabs (_ + _)] at small
    have value :=
      hasValue_finish (decide (Double.signed negative (rounded magnitude) +
        Double.signed negative' (rounded magnitude') < 0))
        (le_of_abs_signed_lt small)
    rwa [signed_nnabs] at value

theorem hasValue_sub
    (isLeft : HasValue left a) (isRight : HasValue right b)
    (small : |toNearest a - toNearest b| < limit) :
    HasValue (sub left right) (toNearest (toNearest a - toNearest b)) := by
  rw [sub_eq_add_neg, ← toNearest_neg] at small ⊢
  exact hasValue_add isLeft isRight.neg small

theorem hasValue_mul
    (isLeft : HasValue left a) (isRight : HasValue right b)
    (small : |toNearest a * toNearest b| < limit) :
    HasValue (mul left right) (toNearest (toNearest a * toNearest b)) := by
  rcases isLeft with ⟨negative, magnitude, rfl, rfl⟩
  rcases isRight with ⟨negative', magnitude', rfl, rfl⟩
  rw [toNearest_signed, toNearest_signed, signed_mul_signed] at small ⊢
  exact hasValue_finish _ (le_of_abs_signed_lt small)

theorem hasValue_div
    (isLeft : HasValue left a) (isRight : HasValue right b)
    (nonzero : toNearest b ≠ 0)
    (small : |toNearest a / toNearest b| < limit) :
    HasValue (div left right) (toNearest (toNearest a / toNearest b)) := by
  rcases isLeft with ⟨negative, magnitude, rfl, rfl⟩
  rcases isRight with ⟨negative', magnitude', rfl, rfl⟩
  have divisor : rounded magnitude' ≠ 0 := by
    intro zero
    rw [toNearest_signed, zero] at nonzero
    exact nonzero (by cases negative' <;> rfl)
  rw [toNearest_signed, toNearest_signed, signed_div_signed] at small ⊢
  rw [div, if_neg divisor]
  exact hasValue_finish _ (le_of_abs_signed_lt small)

end Results

end AccelObserver.Library.Binary64
