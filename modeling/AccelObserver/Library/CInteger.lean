import AccelObserver.Library.CNumber

/-!
# Integers of the C library

`strtol`, `strtoul` and `strtoull` with base 0, where `long` has 64 bits: a
numeral is hexadecimal behind `0x`, octal behind another `0`, and decimal
otherwise.
-/

namespace AccelObserver.Library.CInteger

open AccelObserver.Library.Decimal
open AccelObserver.Library.CNumber

/-- The radix that the prefix means, and the text with the digits. -/
def splitPrefix : Bytes → Nat × Bytes
  | 48 :: x :: rest =>
      if toLower x = 120 ∧ (scan 16 rest).1 ≠ [] then (16, rest)
      else (8, 48 :: x :: rest)
  | [48] => (8, [48])
  | body => (10, body)

/-- The sign and the magnitude of a numeral, and the text behind it. -/
def scanInteger (text : Bytes) : Option (Bool × Nat × Bytes) :=
  let (negative, body) := scanSign (text.dropWhile isSpace)
  let (radix, digitText) := splitPrefix body
  let (digits, rest) := scan radix digitText
  if digits = [] then none
  else some (negative, positional radix digits, rest)

/-- `strtol(text, &end, 0)`, which saturates. -/
def strtol (text : Bytes) : Option (Conversion ℤ) :=
  match scanInteger text with
  | none => none
  | some (negative, magnitude, rest) =>
      let value : ℤ := if negative then -magnitude else magnitude
      if value < -2 ^ 63 then
        some { value := -2 ^ 63, rest := rest, erange := true }
      else if 2 ^ 63 ≤ value then
        some { value := 2 ^ 63 - 1, rest := rest, erange := true }
      else some { value := value, rest := rest, erange := false }

/-- `strtoul(text, &end, 0)`; a minus sign negates modulo `2 ^ 64`. -/
def strtoul (text : Bytes) : Option (Conversion UInt64) :=
  match scanInteger text with
  | none => none
  | some (negative, magnitude, rest) =>
      if magnitude < 2 ^ 64 then
        let value := UInt64.ofNat magnitude
        some
          { value := if negative then -value else value
            rest := rest
            erange := false }
      else
        some
          { value := UInt64.ofNat (2 ^ 64 - 1)
            rest := rest
            erange := true }

/-- `strtoull(text, &end, 0)` -/
def strtoull (text : Bytes) : Option (Conversion UInt64) :=
  strtoul text

/-! ## Base ten -/

/-- The sign and the magnitude of a decimal numeral, and the text behind it. -/
def scanDecimalInteger (text : Bytes) : Option (Bool × Nat × Bytes) :=
  let (negative, body) := scanSign (text.dropWhile isSpace)
  let (digits, rest) := scan 10 body
  if digits = [] then none
  else some (negative, positional 10 digits, rest)

/-- `strtol(text, &end, 10)`, which saturates. -/
def strtolDecimal (text : Bytes) : Option (Conversion ℤ) :=
  match scanDecimalInteger text with
  | none => none
  | some (negative, magnitude, rest) =>
      let value : ℤ := if negative then -magnitude else magnitude
      if value < -2 ^ 63 then
        some { value := -2 ^ 63, rest := rest, erange := true }
      else if 2 ^ 63 ≤ value then
        some { value := 2 ^ 63 - 1, rest := rest, erange := true }
      else some { value := value, rest := rest, erange := false }

/-- `atoi`: a `long` cut to 32 bits, and 0 without a numeral. -/
def atoi (text : Bytes) : ℤ :=
  match strtolDecimal text with
  | none => 0
  | some conversion => conversion.value.bmod (2 ^ 32)

/-! ## Texts without a numeral -/

/-- The text begins with a numeral. -/
def SpellsInteger (text : Bytes) : Prop :=
  (scanInteger text).isSome

instance (text : Bytes) : Decidable (SpellsInteger text) :=
  inferInstanceAs (Decidable (_ = true))

/-- Without a numeral there is nothing to convert. -/
theorem strtol_of_not_spells
    {text : Bytes} (unreadable : ¬ SpellsInteger text) :
    strtol text = none := by
  rw [SpellsInteger, Option.not_isSome_iff_eq_none] at unreadable
  rw [strtol, unreadable]

theorem strtoul_of_not_spells
    {text : Bytes} (unreadable : ¬ SpellsInteger text) :
    strtoul text = none := by
  rw [SpellsInteger, Option.not_isSome_iff_eq_none] at unreadable
  rw [strtoul, unreadable]

theorem strtoull_of_not_spells
    {text : Bytes} (unreadable : ¬ SpellsInteger text) :
    strtoull text = none :=
  strtoul_of_not_spells unreadable

end AccelObserver.Library.CInteger
