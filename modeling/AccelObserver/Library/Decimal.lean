import AccelObserver.Library.Bytes
import Mathlib.Tactic.NormNum

/-!
# Digits

Numbers are printed in base ten, either with as many digits as they need or
with a fixed number of them, and read in base ten or sixteen.  A reader takes
the digits at the front of a text; what a printer wrote is read back whole as
long as no digit follows.
-/

namespace AccelObserver.Library.Decimal

/-! ## Values -/

/-- The base, as a numeral of any semiring. -/
instance ten_atLeastTwo : Nat.AtLeastTwo 10 := ⟨by decide⟩

/-- The value of a list of digits, most significant first. -/
def positional (radix : Nat) (digits : List Nat) : Nat :=
  digits.foldl (fun value digit => radix * value + digit) 0

theorem foldl_eq (radix start : Nat) (digits : List Nat) :
    digits.foldl (fun value digit => radix * value + digit) start =
      start * radix ^ digits.length + positional radix digits := by
  induction digits generalizing start with
  | nil => simp [positional]
  | cons digit digits induction =>
      rw [positional, List.foldl_cons, List.foldl_cons,
        induction (radix * start + digit), induction (radix * 0 + digit),
        List.length_cons, pow_succ]
      ring

theorem positional_append (radix : Nat) (before after : List Nat) :
    positional radix (before ++ after) =
      positional radix before * radix ^ after.length +
        positional radix after := by
  rw [positional, List.foldl_append, foldl_eq radix _ after]
  rfl

theorem positional_cons (radix digit : Nat) (digits : List Nat) :
    positional radix (digit :: digits) =
      digit * radix ^ digits.length + positional radix digits := by
  rw [positional, List.foldl_cons, foldl_eq]
  simp

/-! ## Reading digits -/

/-- What a byte stands for as a digit of a base up to sixteen. -/
def digitValue (radix : Nat) (byte : UInt8) : Option Nat :=
  let value :=
    if 48 ≤ byte ∧ byte ≤ 57 then byte.toNat - 48
    else if 97 ≤ byte ∧ byte ≤ 102 then byte.toNat - 87
    else if 65 ≤ byte ∧ byte ≤ 70 then byte.toNat - 55
    else radix
  if value < radix then some value else none

/-- The digits at the front of a text and the text behind them. -/
def scan (radix : Nat) : Bytes → List Nat × Bytes
  | [] => ([], [])
  | byte :: rest =>
      match digitValue radix byte with
      | some digit => (digit :: (scan radix rest).1, (scan radix rest).2)
      | none => ([], byte :: rest)

/-- A text that does not go on with a digit. -/
def Ends (radix : Nat) (text : Bytes) : Prop :=
  scan radix text = ([], text)

/-- A text ends the digits before it when its first byte is no digit. -/
theorem ends_cons
    {radix : Nat} {byte : UInt8} {rest : Bytes}
    (noDigit : digitValue radix byte = none) :
    Ends radix (byte :: rest) := by
  simp [Ends, scan, noDigit]

/-- The byte that prints a decimal digit. -/
def digitByte (digit : Nat) : UInt8 :=
  UInt8.ofNat (48 + digit)

theorem digitValue_digitByte :
    ∀ digit < 10, digitValue 10 (digitByte digit) = some digit := by
  decide

/-- Printed digits are read back, up to where the text ends them. -/
theorem scan_digits
    {digits : List Nat} (small : ∀ digit ∈ digits, digit < 10)
    {rest : Bytes} (ends : Ends 10 rest) :
    scan 10 (digits.map digitByte ++ rest) = (digits, rest) := by
  induction digits with
  | nil => exact ends
  | cons digit digits induction =>
      rcases List.forall_mem_cons.mp small with ⟨smallHere, smallLater⟩
      rw [List.map_cons, List.cons_append, scan,
        digitValue_digitByte digit smallHere]
      simp only [induction smallLater]

/-- No printed digit is any other byte. -/
theorem not_mem_digits
    {byte : UInt8} (noDigit : digitValue 10 byte = none)
    {digits : List Nat} (small : ∀ digit ∈ digits, digit < 10) :
    byte ∉ digits.map digitByte := by
  intro member
  rcases List.mem_map.mp member with ⟨digit, digitMember, rfl⟩
  rw [digitValue_digitByte digit (small digit digitMember)] at noDigit
  cases noDigit

/-! ## Printing -/

/-- The decimal digits of a number, none of them superfluous. -/
def digits (n : Nat) : List Nat :=
  (Nat.toDigits 10 n).map fun character => character.toNat - 48

/-- The decimal numeral of a number: `%u`, `%llu` and `operator<<`. -/
def decimal (n : Nat) : Bytes :=
  (digits n).map digitByte

theorem digit_of_isDigit
    {character : Char} (isDigit : character.isDigit = true) :
    character.toNat - 48 < 10 := by
  simp only [Char.isDigit, Bool.and_eq_true, decide_eq_true_eq] at isDigit
  have upper : character.toNat ≤ 57 := isDigit.2
  omega

theorem digits_small (n : Nat) : ∀ digit ∈ digits n, digit < 10 := by
  intro digit member
  rcases List.mem_map.mp member with ⟨character, printed, rfl⟩
  exact digit_of_isDigit
    (Nat.isDigit_of_mem_toDigits (by decide) (by decide) printed)

theorem digits_ne_nil (n : Nat) : digits n ≠ [] := by
  simp [digits, Nat.toDigits_ne_nil]

@[simp]
theorem positional_digits (n : Nat) : positional 10 (digits n) = n := by
  have value := Nat.ofDigitChars_ten_toDigits (n := n)
  rw [Nat.ofDigitChars_eq_foldl] at value
  rw [positional, digits, List.foldl_map]
  exact value

/-- A number needs no more digits than its numeral has room for. -/
theorem lt_of_length_digits_le
    {n width : Nat} (widthPositive : 0 < width)
    (short : (digits n).length ≤ width) : n < 10 ^ width := by
  rw [digits, List.length_map] at short
  exact (Nat.length_toDigits_le_iff (by decide) widthPositive).mp short

/-- A small number needs no more digits than that. -/
theorem length_decimal_le
    {n width : Nat} (positive : 0 < width) (below : n < 10 ^ width) :
    (decimal n).length ≤ width := by
  rw [decimal, List.length_map, digits, List.length_map]
  exact (Nat.length_toDigits_le_iff (by decide) positive).mpr below

/-- The last `width` decimal digits of a number, leading zeros included. -/
def lastDigits : Nat → Nat → List Nat
  | 0, _ => []
  | width + 1, n => n / 10 ^ width % 10 :: lastDigits width n

@[simp]
theorem lastDigits_length (width n : Nat) :
    (lastDigits width n).length = width := by
  induction width with
  | zero => rfl
  | succ width induction => simp [lastDigits, induction]

theorem lastDigits_small (width n : Nat) :
    ∀ digit ∈ lastDigits width n, digit < 10 := by
  induction width with
  | zero => simp [lastDigits]
  | succ width induction =>
      refine List.forall_mem_cons.mpr ⟨?_, induction⟩
      exact Nat.mod_lt _ (by decide)

@[simp]
theorem positional_lastDigits (width n : Nat) :
    positional 10 (lastDigits width n) = n % 10 ^ width := by
  induction width with
  | zero => simp [lastDigits, positional, Nat.mod_one]
  | succ width induction =>
      rw [lastDigits, positional_cons, induction, lastDigits_length,
        Nat.mod_pow_succ]
      ring

end AccelObserver.Library.Decimal
