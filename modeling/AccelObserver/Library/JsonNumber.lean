import AccelObserver.Library.CNumber
import Mathlib.Tactic.Linarith

/-!
# Numbers of JSON

The longest number that a text begins with: an optional minus sign, digits
without a superfluous zero, a fraction and an exponent.  It stands for an exact
rational.  A reader that takes the digits in front of the fraction only gets
this number where the rest does not count.
-/

namespace AccelObserver.Library

open AccelObserver.Library.CNumber
open AccelObserver.Library.Decimal

/-- A number, as it is spelled. -/
structure JsonNumber where
  negative : Bool
  whole : List Nat
  fraction : List Nat
  exponent : ℤ

namespace JsonNumber

/-- What the digits and the exponent mean. -/
def magnitude (number : JsonNumber) : ℚ≥0 :=
  scale 10
    ((positional 10 (number.whole ++ number.fraction) : ℚ≥0) /
      ((10 : Nat) : ℚ≥0) ^ number.fraction.length)
    number.exponent

def value (number : JsonNumber) : ℚ :=
  if number.negative then -(number.magnitude : ℚ) else number.magnitude

/-! ## Scanning -/

def scanMinus : Bytes → Bool × Bytes
  | 45 :: rest => (true, rest)
  | text => (false, text)

/-- A zero, or digits that do not begin with one. -/
def scanWhole : Bytes → List Nat × Bytes
  | 48 :: rest => ([0], rest)
  | text => scan 10 text

/-- A point with digits behind it. -/
def scanFraction : Bytes → List Nat × Bytes
  | 46 :: more =>
      if (scan 10 more).1 = [] then ([], 46 :: more) else scan 10 more
  | text => ([], text)

/-- The number at the front of a text, and the text behind it. -/
def scanNumber (text : Bytes) : Option (JsonNumber × Bytes) :=
  let (negative, body) := scanMinus text
  let (whole, afterWhole) := scanWhole body
  if whole = [] then none
  else
    let (fraction, afterFraction) := scanFraction afterWhole
    let (exponent, rest) := scanExponent 101 afterFraction
    some
      ({ negative := negative
         whole := whole
         fraction := fraction
         exponent := exponent },
        rest)

/-- The text begins with a number that stands for this one. -/
def Denotes (text : Bytes) (n : Nat) : Prop :=
  ∃ number rest, scanNumber text = some (number, rest) ∧ number.value = n

/-! ## Where the rest does not count -/

/-- The fraction and the exponent change nothing. -/
def Neutral (whole fraction : List Nat) (exponent : ℤ) : Prop :=
  (∀ digit ∈ fraction, digit = 0) ∧ (positional 10 whole = 0 ∨ exponent = 0)

theorem positional_eq_zero_iff {digits : List Nat} :
    positional 10 digits = 0 ↔ ∀ digit ∈ digits, digit = 0 := by
  induction digits with
  | nil => simp [positional]
  | cons digit digits induction =>
      rw [positional_cons, Nat.add_eq_zero_iff, induction,
        List.forall_mem_cons, Nat.mul_eq_zero]
      simp

theorem positional_lt_pow
    {digits : List Nat} (small : ∀ digit ∈ digits, digit < 10) :
    positional 10 digits < 10 ^ digits.length := by
  induction digits with
  | nil => simp [positional]
  | cons digit digits induction =>
      rcases List.forall_mem_cons.mp small with ⟨smallHere, smallLater⟩
      have later := induction smallLater
      have product :
          (digit + 1) * 10 ^ digits.length ≤ 10 * 10 ^ digits.length :=
        Nat.mul_le_mul_right _ smallHere
      rw [Nat.add_mul, Nat.one_mul] at product
      rw [positional_cons, List.length_cons, pow_succ']
      omega

/-- A factor of one, or a number of zero. -/
theorem shifted_up_iff {n part unit exponent : Nat} :
    (n * unit + part) * 10 ^ exponent = n * unit ↔
      part = 0 ∧ (n * unit = 0 ∨ exponent = 0) := by
  cases exponent with
  | zero => simp
  | succ exponent =>
      have power : 10 ≤ 10 ^ (exponent + 1) := Nat.le_self_pow (by simp) 10
      have product := Nat.mul_le_mul_left (n * unit + part) power
      constructor
      · intro same
        omega
      · rintro ⟨rfl, zero | impossible⟩
        · rw [zero, Nat.zero_add, Nat.zero_mul]
        · omega

theorem shifted_down_iff
    {n part unit exponent : Nat} (proper : part < unit) :
    n * unit + part = n * unit * 10 ^ (exponent + 1) ↔
      part = 0 ∧ n * unit = 0 := by
  have power : 10 ≤ 10 ^ (exponent + 1) := Nat.le_self_pow (by simp) 10
  have product := Nat.mul_le_mul_left (n * unit) power
  constructor
  · intro same
    rcases Nat.eq_zero_or_pos n with rfl | positive
    · omega
    · have unitLe := Nat.le_mul_of_pos_left unit positive
      omega
  · rintro ⟨rfl, zero⟩
    rw [zero, Nat.zero_mul]

/-- A number is its whole part exactly if the rest of it is neutral. -/
theorem magnitude_eq_iff
    (negative : Bool) (whole : List Nat) {fraction : List Nat} (exponent : ℤ)
    (small : ∀ digit ∈ fraction, digit < 10) :
    magnitude ⟨negative, whole, fraction, exponent⟩ =
        (positional 10 whole : ℚ≥0) ↔
      Neutral whole fraction exponent := by
  have proper := positional_lt_pow small
  have unit : (((10 : Nat) : ℚ≥0) ^ fraction.length) ≠ 0 := by positivity
  have zero :
      positional 10 whole * 10 ^ fraction.length = 0 ↔
        positional 10 whole = 0 := by
    simp
  rw [magnitude, positional_append, Neutral, ← positional_eq_zero_iff]
  cases exponent with
  | ofNat exponent =>
      rw [scale, div_mul_eq_mul_div, div_eq_iff unit]
      norm_cast
      rw [shifted_up_iff, zero]
      simp
  | negSucc exponent =>
      have power : (((10 : Nat) : ℚ≥0) ^ (exponent + 1)) ≠ 0 := by positivity
      rw [scale, div_div, div_eq_iff (mul_ne_zero unit power), ← mul_assoc]
      norm_cast
      rw [shifted_down_iff proper, zero]
      simp

/-- A sign does not matter for zero only. -/
theorem value_eq_iff {number : JsonNumber} {n : Nat} :
    number.value = n ↔
      number.magnitude = n ∧ (number.negative = true → n = 0) := by
  rw [value]
  cases number.negative with
  | false =>
      simp only [Bool.false_eq_true, if_false, false_implies, and_true]
      norm_cast
  | true =>
      have nonnegative : (0 : ℚ) ≤ number.magnitude :=
        number.magnitude.coe_nonneg
      have natural : (0 : ℚ) ≤ (n : ℚ) := n.cast_nonneg
      simp only [if_true, true_implies]
      constructor
      · intro same
        have magnitudeZero : (number.magnitude : ℚ) = 0 := by linarith
        have zero : (n : ℚ) = 0 := by linarith
        rw [NNRat.coe_eq_zero] at magnitudeZero
        rw [Nat.cast_eq_zero] at zero
        exact ⟨by rw [magnitudeZero, zero, Nat.cast_zero], zero⟩
      · rintro ⟨magnitude, rfl⟩
        rw [magnitude]
        simp

/-! ## The digits that a C reader takes -/

/-- The digits behind an optional sign, and the text behind them. -/
def digitRun (text : Bytes) : List Nat × Bytes :=
  scan 10 (scanSign text).2

/-- The digits are all of the number, but for a rest that does not count. -/
structure Plain (text : Bytes) : Prop where
  /-- There is no plus sign. -/
  plus : text.head? ≠ some 43
  /-- A minus sign stands in front of zeros only. -/
  minus : text.head? = some 45 → positional 10 (digitRun text).1 = 0
  /-- So does a leading zero. -/
  leadingZero :
    (digitRun text).1.head? = some 0 → positional 10 (digitRun text).1 = 0
  /-- Fraction and exponent, where there can be any, are neutral. -/
  rest :
    (digitRun text).1.head? ≠ some 0 ∨ (digitRun text).1.length = 1 →
      Neutral (digitRun text).1 (scanFraction (digitRun text).2).1
        (scanExponent 101 (scanFraction (digitRun text).2).2).1

theorem scanMinus_eq {text : Bytes} (noPlus : text.head? ≠ some 43) :
    scanMinus text = scanSign text := by
  cases text with
  | nil => rfl
  | cons byte rest =>
      have different : byte ≠ 43 := by simpa using noPlus
      rw [scanSign, if_neg different]
      split_ifs with minus
      · rw [minus, scanMinus]
      · rw [scanMinus]
        intro more same
        exact minus (List.cons.inj same).1

theorem scanSign_fst_iff (text : Bytes) :
    (scanSign text).1 = true ↔ text.head? = some 45 := by
  cases text with
  | nil => simp [scanSign]
  | cons byte rest =>
      rw [scanSign, List.head?_cons, Option.some.injEq]
      split_ifs with plus minus
      · simp [plus]
      · simp [minus]
      · simp [minus]

theorem scanWhole_of_ne {text : Bytes} (noZero : text.head? ≠ some 48) :
    scanWhole text = scan 10 text := by
  rw [scanWhole]
  rintro rest rfl
  exact noZero rfl

/-- The first digit of a run, and the rest of it. -/
theorem scan_eq_cons
    {text : Bytes} {digit : Nat} {digits : List Nat} {after : Bytes}
    (scanned : scan 10 text = (digit :: digits, after)) :
    ∃ rest, text = digitByte digit :: rest ∧ digit < 10 ∧
      scan 10 rest = (digits, after) := by
  cases text with
  | nil => cases scanned
  | cons byte rest =>
      have table :
          ∀ byte, ∀ digit ∈ digitValue 10 byte,
            digit < 10 ∧ byte = digitByte digit :=
        forall_byte (by decide +kernel)
      rw [scan] at scanned
      cases value : digitValue 10 byte with
      | none =>
          rw [value] at scanned
          cases scanned
      | some first =>
          simp only [value, Prod.mk.injEq, List.cons.injEq] at scanned
          rcases scanned with ⟨⟨rfl, rfl⟩, rfl⟩
          rcases table byte first value with ⟨small, rfl⟩
          exact ⟨rest, rfl, small, rfl⟩

theorem scan_eq_nil
    {text after : Bytes} (scanned : scan 10 text = ([], after)) :
    text = after := by
  cases text with
  | nil => exact (Prod.mk.inj scanned).2
  | cons byte rest =>
      rw [scan] at scanned
      cases value : digitValue 10 byte with
      | none =>
          rw [value] at scanned
          exact (Prod.mk.inj scanned).2
      | some digit =>
          rw [value] at scanned
          cases scanned

theorem scan_small (text : Bytes) : ∀ digit ∈ (scan 10 text).1, digit < 10 := by
  induction text with
  | nil => simp [scan]
  | cons byte rest induction =>
      rw [scan]
      cases value : digitValue 10 byte with
      | none => simp
      | some digit =>
          refine List.forall_mem_cons.mpr ⟨?_, induction⟩
          simp only [digitValue, Option.ite_none_right_eq_some,
            Option.some.injEq] at value
          omega

theorem scanFraction_small (text : Bytes) :
    ∀ digit ∈ (scanFraction text).1, digit < 10 := by
  rw [scanFraction.eq_def]
  split
  · split_ifs
    · simp
    · exact scan_small _
  · simp

/-- A digit is no point and no exponent. -/
theorem digitByte_noTail :
    ∀ digit < 10, digitByte digit ≠ 46 ∧ toLower (digitByte digit) ≠ 101 := by
  decide

section Scanned

variable {text after : Bytes} (noPlus : text.head? ≠ some 43)

include noPlus

/-- A leading zero ends the number that it begins. -/
theorem scanNumber_of_leadingZero
    {next : Nat} {more : List Nat}
    (run : digitRun text = (0 :: next :: more, after)) :
    ∃ rest,
      scanNumber text =
        some
          ({ negative := (scanSign text).1
             whole := [0]
             fraction := []
             exponent := 0 },
            rest) := by
  rcases scan_eq_cons run with ⟨behind, body, _, later⟩
  rcases scan_eq_cons later with ⟨rest, rfl, small, _⟩
  rcases digitByte_noTail next small with ⟨noPoint, noExponent⟩
  have fraction :
      scanFraction (digitByte next :: rest) = ([], digitByte next :: rest) := by
    rw [scanFraction]
    intro other same
    exact noPoint (List.cons.inj same).1
  have exponent :
      scanExponent 101 (digitByte next :: rest) =
        (0, digitByte next :: rest) := by
    rw [scanExponent, if_neg noExponent]
  have whole :
      scanWhole (scanSign text).2 = ([0], digitByte next :: rest) := by
    rw [body]
    rfl
  refine ⟨digitByte next :: rest, ?_⟩
  simp only [scanNumber, scanMinus_eq noPlus, whole, fraction, exponent]
  rfl

/-- Otherwise the whole run belongs to the number. -/
theorem scanNumber_of_whole
    {digits : List Nat} (run : digitRun text = (digits, after))
    (nonempty : digits ≠ [])
    (canonical : digits.head? ≠ some 0 ∨ digits.length = 1) :
    scanNumber text =
      some
        ({ negative := (scanSign text).1
           whole := digits
           fraction := (scanFraction after).1
           exponent := (scanExponent 101 (scanFraction after).2).1 },
          (scanExponent 101 (scanFraction after).2).2) := by
  have whole : scanWhole (scanSign text).2 = (digits, after) := by
    cases digits with
    | nil => exact absurd rfl nonempty
    | cons digit digits =>
        rcases scan_eq_cons run with ⟨behind, body, small, later⟩
        rcases Nat.eq_zero_or_pos digit with rfl | positive
        · have alone : digits = [] := by simpa using canonical
          subst alone
          rw [body, scan_eq_nil later]
          rfl
        · have noZero : ∀ digit < 10, 0 < digit → digitByte digit ≠ 48 := by
            decide
          rw [scanWhole_of_ne]
          · exact run
          · rw [body]
            simpa using noZero digit small positive
  simp only [scanNumber, scanMinus_eq noPlus, whole, if_neg nonempty]

end Scanned

theorem not_denotes_of_plus
    {text : Bytes} (plus : text.head? = some 43) (n : Nat) :
    ¬ Denotes text n := by
  cases text with
  | nil => cases plus
  | cons byte rest =>
      have isPlus : byte = 43 := by simpa using plus
      subst isPlus
      rintro ⟨number, after, scanned, _⟩
      cases scanned

theorem denotes_of_scan
    {text rest : Bytes} {number : JsonNumber}
    (scanned : scanNumber text = some (number, rest)) (n : Nat) :
    Denotes text n ↔
      number.magnitude = n ∧ (number.negative = true → n = 0) := by
  rw [← value_eq_iff, Denotes, scanned]
  constructor
  · rintro ⟨other, after, same, value⟩
    cases same
    exact value
  · intro value
    exact ⟨number, rest, rfl, value⟩

section Denotes

variable {text : Bytes} {n : Nat}
  (noPlus : text.head? ≠ some 43) (read : (digitRun text).1 ≠ [])
  (unsigned : text.head? ≠ some 45 → n = positional 10 (digitRun text).1)
  (signed :
    text.head? = some 45 → (n = 0 ↔ positional 10 (digitRun text).1 = 0))

include noPlus read unsigned signed

/-- What a number denotes that begins with a superfluous zero. -/
theorem denotes_of_leadingZero
    (superfluous :
      (digitRun text).1.head? = some 0 ∧ (digitRun text).1.length ≠ 1) :
    Denotes text n ↔ positional 10 (digitRun text).1 = 0 := by
  have zeros : n = 0 ↔ positional 10 (digitRun text).1 = 0 := by
    by_cases minus : text.head? = some 45
    · exact signed minus
    · rw [unsigned minus]
  rw [← zeros]
  cases run : digitRun text with
  | mk digits after =>
  rw [run] at superfluous read
  cases digits with
  | nil => exact absurd rfl read
  | cons first more =>
  cases more with
  | nil => exact absurd rfl superfluous.2
  | cons next more =>
      have firstZero : first = 0 := by simpa using superfluous.1
      subst firstZero
      rcases scanNumber_of_leadingZero noPlus run with ⟨rest, scanned⟩
      have magnitude :=
        (magnitude_eq_iff (scanSign text).1 [0] 0 (by simp)).mpr
          (⟨by simp, .inr rfl⟩ : Neutral [0] [] 0)
      rw [denotes_of_scan scanned, magnitude, positional]
      constructor
      · rintro ⟨zero, _⟩
        exact (Nat.cast_injective zero).symm
      · rintro rfl
        exact ⟨rfl, fun _ => rfl⟩

/-- What any other number denotes. -/
theorem denotes_of_whole
    (canonical :
      (digitRun text).1.head? ≠ some 0 ∨ (digitRun text).1.length = 1) :
    Denotes text n ↔
      (text.head? = some 45 → positional 10 (digitRun text).1 = 0) ∧
        Neutral (digitRun text).1 (scanFraction (digitRun text).2).1
          (scanExponent 101 (scanFraction (digitRun text).2).2).1 := by
  have scanned :=
    @scanNumber_of_whole text (digitRun text).2 noPlus (digitRun text).1 rfl
      read canonical
  rw [denotes_of_scan scanned, scanSign_fst_iff,
    ← magnitude_eq_iff (scanSign text).1 _ _ (scanFraction_small _)]
  by_cases minus : text.head? = some 45
  · simp only [minus, true_implies, signed minus]
    constructor
    · rintro ⟨magnitude, zero⟩
      rw [zero, magnitude, (signed minus).mpr zero]
      exact ⟨rfl, rfl⟩
    · rintro ⟨zero, magnitude⟩
      rw [magnitude, zero, (signed minus).mpr zero]
      exact ⟨rfl, rfl⟩
  · simp only [minus, false_implies, and_true, true_and]
    rw [← unsigned minus]

end Denotes

/--
A text whose digits mean a number denotes it exactly if it is plain.  Behind a
minus sign the number may be any that is zero when the digits are.
-/
theorem denotes_iff_plain
    {text : Bytes} (read : (digitRun text).1 ≠ []) {n : Nat}
    (unsigned :
      text.head? ≠ some 45 → n = positional 10 (digitRun text).1)
    (signed :
      text.head? = some 45 →
        (n = 0 ↔ positional 10 (digitRun text).1 = 0)) :
    Denotes text n ↔ Plain text := by
  by_cases plus : text.head? = some 43
  · constructor
    · intro denotes
      exact absurd denotes (not_denotes_of_plus plus n)
    · intro plain
      exact absurd plus plain.plus
  · by_cases canonical :
        (digitRun text).1.head? ≠ some 0 ∨ (digitRun text).1.length = 1
    · rw [denotes_of_whole plus read unsigned signed canonical]
      constructor
      · rintro ⟨minus, neutral⟩
        refine ⟨plus, minus, ?_, fun _ => neutral⟩
        intro leading
        have alone := canonical.resolve_left (not_not.mpr leading)
        rcases List.length_eq_one_iff.mp alone with ⟨digit, digits⟩
        rw [digits, List.head?_cons, Option.some.injEq] at leading
        rw [digits, leading]
        rfl
      · intro plain
        exact ⟨plain.minus, plain.rest canonical⟩
    · have superfluous := canonical
      rw [not_or, not_not] at superfluous
      rw [denotes_of_leadingZero plus read unsigned signed superfluous]
      constructor
      · intro zeros
        exact ⟨plus, fun _ => zeros, fun _ => zeros,
          fun other => absurd other canonical⟩
      · intro plain
        exact plain.leadingZero superfluous.1

/-! ## Printed numbers -/

/-- A numeral has no superfluous zero in front. -/
theorem digits_canonical (n : Nat) :
    (digits n).head? ≠ some 0 ∨ (digits n).length = 1 := by
  have value := positional_digits n
  have small := digits_small n
  cases printed : digits n with
  | nil => exact absurd printed (digits_ne_nil n)
  | cons first more =>
      rw [printed] at value small
      rcases List.forall_mem_cons.mp small with ⟨_, smallMore⟩
      cases more with
      | nil => exact .inr rfl
      | cons second more =>
          left
          rw [List.head?_cons]
          rintro ⟨⟩
          have below := positional_lt_pow smallMore
          rw [positional_cons, Nat.zero_mul, Nat.zero_add] at value
          rw [value] at below
          have short :=
            (Nat.length_toDigits_le_iff (by decide) (Nat.succ_pos _)).mpr below
          have length := congrArg List.length printed
          rw [digits, List.length_map] at length
          rw [length, List.length_cons] at short
          exact absurd short (Nat.not_succ_le_self _)

/-- A number with decimals is read back, up to what ends it. -/
theorem scanNumber_decimals
    (negative : Bool) (whole : Nat) {fraction : List Nat}
    (nonempty : fraction ≠ []) (small : ∀ digit ∈ fraction, digit < 10)
    {byte : UInt8} (noDigit : digitValue 10 byte = none)
    (noExponent : toLower byte ≠ 101) (rest : Bytes) :
    scanNumber
        (signBytes negative ++ decimal whole ++
          46 :: fraction.map digitByte ++ byte :: rest) =
      some (⟨negative, digits whole, fraction, 0⟩, byte :: rest) := by
  have sign :
      scanSign
          (signBytes negative ++ decimal whole ++
            46 :: fraction.map digitByte ++ byte :: rest) =
        (negative, decimal whole ++
          (46 :: fraction.map digitByte ++ byte :: rest)) := by
    cases negative with
    | false =>
        rw [signBytes, if_neg (by decide), List.nil_append, List.append_assoc,
          scanSign_decimal]
    | true =>
        rw [signBytes, if_pos rfl, List.append_assoc, List.append_assoc]
        rfl
  have run :
      digitRun
          (signBytes negative ++ decimal whole ++
            46 :: fraction.map digitByte ++ byte :: rest) =
        (digits whole, 46 :: fraction.map digitByte ++ byte :: rest) := by
    rw [digitRun, sign]
    exact scan_digits (digits_small whole) (ends_cons rfl)
  have noPlus :
      (signBytes negative ++ decimal whole ++
        46 :: fraction.map digitByte ++ byte :: rest).head? ≠ some 43 := by
    cases negative with
    | true => simp [signBytes]
    | false =>
        rcases exists_digits_eq_cons whole with ⟨first, smallFirst, more,
          printed, _⟩
        have notPlus := (digitByte_plain first smallFirst).2.1
        simp [signBytes, decimal, printed, notPlus]
  have decimals :
      scanFraction (46 :: fraction.map digitByte ++ byte :: rest) =
        (fraction, byte :: rest) := by
    rw [List.cons_append, scanFraction,
      scan_digits small (ends_cons noDigit), if_neg nonempty]
  rw [scanNumber_of_whole noPlus run (digits_ne_nil whole)
    (digits_canonical whole), sign, decimals]
  simp only [scanExponent, if_neg noExponent]

end JsonNumber

end AccelObserver.Library
