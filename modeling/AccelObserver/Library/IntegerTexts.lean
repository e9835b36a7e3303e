import AccelObserver.Library.CInteger
import Mathlib.Data.List.TakeWhile

/-!
# Texts of integers

A text that spells an integer: blanks, an optional sign and decimal digits.
The conversions with base 10 read the number that the digits mean.  Those with
base 0 take a leading zero for the sign of an octal numeral, and stop at a
digit above seven.
-/

namespace AccelObserver.Library

open AccelObserver.Library.CInteger
open AccelObserver.Library.CNumber
open AccelObserver.Library.Decimal

/-- The spelling of an integer, of any size. -/
structure IntegerText where
  blanks : Bytes
  sign : Option Bool
  digits : List Nat
  blank : ∀ byte ∈ blanks, isSpace byte = true
  nonempty : digits ≠ []
  small : ∀ digit ∈ digits, digit < 10

namespace IntegerText

/-- The bytes of a sign; minus is `true`. -/
def signText : Option Bool → Bytes
  | none => []
  | some false => [43]
  | some true => [45]

variable (numeral : IntegerText)

def text : Bytes :=
  numeral.blanks ++ (signText numeral.sign ++ numeral.digits.map digitByte)

def negative : Bool :=
  numeral.sign = some true

/-- A magnitude with its sign. -/
def signed (magnitude : Nat) : ℤ :=
  if numeral.negative then -magnitude else magnitude

/-- The number that the digits mean. -/
def number : ℤ :=
  numeral.signed (positional 10 numeral.digits)

/-- What digits mean where a leading zero makes them octal. -/
def prefixedValue (digits : List Nat) : Nat :=
  if digits.head? = some 0 then
    positional 8 (digits.takeWhile fun digit => decide (digit < 8))
  else positional 10 digits

/-- The number that is read with base 0. -/
def prefixedNumber : ℤ :=
  numeral.signed (prefixedValue numeral.digits)

/-- No leading zero, or one that makes no difference. -/
def Plain : Prop :=
  numeral.digits.head? ≠ some 0 ∨ positional 10 numeral.digits < 8

instance : Decidable numeral.Plain :=
  inferInstanceAs (Decidable (_ ∨ _))

/-! ## Octal values -/

theorem positional_le (digits : List Nat) :
    positional 8 digits ≤ positional 10 digits := by
  induction digits with
  | nil => exact Nat.le_refl _
  | cons digit digits induction =>
      rw [positional_cons, positional_cons]
      have powers : 8 ^ digits.length ≤ 10 ^ digits.length :=
        Nat.pow_le_pow_left (by decide) _
      exact Nat.add_le_add (Nat.mul_le_mul_left digit powers) induction

/-- From eight on, octal digits mean less than decimal ones. -/
theorem positional_lt
    {digits : List Nat} (octal : ∀ digit ∈ digits, digit < 8)
    (large : 8 ≤ positional 10 digits) :
    positional 8 digits < positional 10 digits := by
  induction digits with
  | nil => exact absurd large (by decide)
  | cons digit digits induction =>
      rcases List.forall_mem_cons.mp octal with ⟨octalHere, octalLater⟩
      rw [positional_cons] at large
      rw [positional_cons, positional_cons]
      have lower := positional_le digits
      cases digits with
      | nil =>
          simp only [positional, List.foldl_nil, List.length_nil, pow_zero,
            Nat.mul_one, Nat.add_zero] at large
          exact absurd large (Nat.not_le.mpr octalHere)
      | cons next digits =>
          rcases Nat.eq_zero_or_pos digit with rfl | positive
          · simp only [Nat.zero_mul, Nat.zero_add] at large ⊢
            exact induction octalLater large
          · have powers :
                8 ^ (next :: digits).length < 10 ^ (next :: digits).length :=
              Nat.pow_lt_pow_left (by decide) (by simp)
            have product :=
              Nat.mul_lt_mul_of_pos_left powers positive
            omega

/-- Below eight there is only one digit that counts. -/
theorem positional_eq
    {digits : List Nat} (little : positional 10 digits < 8) :
    (∀ digit ∈ digits, digit < 8) ∧
      positional 8 digits = positional 10 digits := by
  induction digits with
  | nil => exact ⟨by simp, rfl⟩
  | cons digit digits induction =>
      rw [positional_cons] at little
      rcases induction (by omega) with ⟨octal, same⟩
      rw [positional_cons, positional_cons, same]
      rcases Nat.eq_zero_or_pos digit with rfl | positive
      · exact ⟨List.forall_mem_cons.mpr ⟨by decide, octal⟩, by simp⟩
      · cases digits with
        | nil =>
            refine ⟨List.forall_mem_cons.mpr ⟨?_, octal⟩, rfl⟩
            simpa [positional] using little
        | cons next digits =>
            have power : 10 ≤ 10 ^ (next :: digits).length :=
              Nat.le_self_pow (by simp) 10
            have product := Nat.mul_le_mul positive power
            omega

/-- The octal digits at the front mean less than all digits together. -/
theorem positional_takeWhile_lt
    {digits : List Nat} (large : 8 ≤ positional 10 digits) :
    positional 8 (digits.takeWhile fun digit => decide (digit < 8)) <
      positional 10 digits := by
  have split :=
    List.takeWhile_append_dropWhile (p := fun digit => decide (digit < 8))
      (l := digits)
  cases behind : digits.dropWhile fun digit => decide (digit < 8) with
  | nil =>
      have octal := List.dropWhile_eq_nil_iff.mp behind
      rw [List.takeWhile_eq_self_iff.mpr octal]
      exact positional_lt (by simpa using octal) large
  | cons digit rest =>
      rw [behind] at split
      have noOctal : 8 ≤ digit := by
        have some : digits.dropWhile (fun digit => decide (digit < 8)) ≠ [] := by
          rw [behind]
          exact List.cons_ne_nil _ _
        have first := List.head_dropWhile_not _ some
        simpa [behind] using first
      have lower := positional_le
        (digits.takeWhile fun digit => decide (digit < 8))
      have power : 1 ≤ 10 ^ rest.length := Nat.one_le_pow _ _ (by decide)
      have shifted :
          positional 10 (digits.takeWhile fun digit => decide (digit < 8)) ≤
            positional 10 (digits.takeWhile fun digit => decide (digit < 8)) *
              10 ^ (digit :: rest).length :=
        Nat.le_mul_of_pos_right _ (Nat.pow_pos (by decide))
      have product := Nat.mul_le_mul noOctal power
      calc
        _ < positional 10 (digits.takeWhile fun digit => decide (digit < 8)) *
              10 ^ (digit :: rest).length +
            positional 10 (digit :: rest) := by
          rw [positional_cons]
          omega
        _ = positional 10 digits := by
          rw [← positional_append, split]

theorem prefixedValue_eq_of_lt
    {digits : List Nat} (little : positional 10 digits < 8) :
    prefixedValue digits = positional 10 digits := by
  rcases positional_eq little with ⟨octal, same⟩
  have whole :
      digits.takeWhile (fun digit => decide (digit < 8)) = digits :=
    List.takeWhile_eq_self_iff.mpr fun digit member =>
      decide_eq_true (octal digit member)
  rw [prefixedValue, whole, same, ite_self]

theorem prefixedValue_le (digits : List Nat) :
    prefixedValue digits ≤ positional 10 digits := by
  rcases Nat.lt_or_ge (positional 10 digits) 8 with little | large
  · exact (prefixedValue_eq_of_lt little).le
  · rw [prefixedValue]
    split_ifs
    · exact (positional_takeWhile_lt large).le
    · exact Nat.le_refl _

/-- With base 0 the digits mean what they say exactly if they are plain. -/
theorem prefixedValue_eq_iff :
    prefixedValue numeral.digits = positional 10 numeral.digits ↔
      numeral.Plain := by
  rw [Plain]
  constructor
  · intro same
    by_contra octal
    rw [not_or, not_not, Nat.not_lt] at octal
    rw [prefixedValue, if_pos octal.1] at same
    exact (positional_takeWhile_lt octal.2).ne same
  · rintro (notZero | little)
    · rw [prefixedValue, if_neg notZero]
    · exact prefixedValue_eq_of_lt little

/-! ## Reading -/

variable {numeral}

theorem exists_digits_eq_cons (numeral : IntegerText) :
    ∃ first < 10, ∃ more, numeral.digits = first :: more := by
  cases digits : numeral.digits with
  | nil => exact absurd digits numeral.nonempty
  | cons first more =>
      exact ⟨first, numeral.small first (by simp [digits]), more, rfl⟩

/-- The blanks are skipped. -/
theorem dropWhile_text (numeral : IntegerText) :
    numeral.text.dropWhile isSpace =
      signText numeral.sign ++ numeral.digits.map digitByte := by
  rw [text, List.dropWhile_append_of_pos numeral.blank]
  rcases numeral.exists_digits_eq_cons with ⟨first, small, more, digits⟩
  have plain := (digitByte_plain first small).1
  cases numeral.sign with
  | none => simp [signText, digits, plain]
  | some minus => cases minus <;> rfl

/-- The sign is read. -/
theorem scanSign_text (numeral : IntegerText) :
    scanSign (signText numeral.sign ++ numeral.digits.map digitByte) =
      (numeral.negative, numeral.digits.map digitByte) := by
  rcases numeral.exists_digits_eq_cons with ⟨first, small, more, digits⟩
  rcases digitByte_plain first small with ⟨_, notPlus, notMinus, _⟩
  rw [negative]
  cases numeral.sign with
  | none => simp [signText, digits, scanSign, notPlus, notMinus]
  | some minus => cases minus <;> rfl

/-- With base 10 all digits are read. -/
theorem scan_text (numeral : IntegerText) :
    scan 10 (numeral.digits.map digitByte) = (numeral.digits, []) := by
  have read :
      scan 10 (numeral.digits.map digitByte ++ []) = (numeral.digits, []) :=
    scan_digits numeral.small rfl
  rwa [List.append_nil] at read

/-- With base 8 the digits are read up to one above seven. -/
theorem scan_octal
    {digits : List Nat} (small : ∀ digit ∈ digits, digit < 10) :
    ∃ rest,
      scan 8 (digits.map digitByte) =
        (digits.takeWhile (fun digit => decide (digit < 8)), rest) := by
  induction digits with
  | nil => exact ⟨[], rfl⟩
  | cons digit digits induction =>
      rcases List.forall_mem_cons.mp small with ⟨smallHere, smallLater⟩
      have values :
          ∀ digit < 10, digitValue 8 (digitByte digit) =
            if digit < 8 then some digit else none := by
        decide
      rw [List.map_cons, scan, values digit smallHere, List.takeWhile_cons]
      by_cases octal : digit < 8
      · rcases induction smallLater with ⟨rest, scanned⟩
        exact ⟨rest, by simp [octal, scanned]⟩
      · exact ⟨digitByte digit :: digits.map digitByte, by simp [octal]⟩

/-- A text that does not begin with a zero has no prefix. -/
theorem splitPrefix_of_ne {byte : UInt8} (notZero : byte ≠ 48) (rest : Bytes) :
    splitPrefix (byte :: rest) = (10, byte :: rest) := by
  rw [splitPrefix]
  · intro x more same
    exact absurd (List.cons.inj same).1 notZero
  · intro same
    exact absurd (List.cons.inj same).1 notZero

/-- A leading zero is the sign of an octal numeral, and there is no other. -/
theorem splitPrefix_text (numeral : IntegerText) :
    splitPrefix (numeral.digits.map digitByte) =
      (if numeral.digits.head? = some 0 then 8 else 10,
        numeral.digits.map digitByte) := by
  rcases numeral.exists_digits_eq_cons with ⟨first, small, more, digits⟩
  have moreSmall : ∀ digit ∈ more, digit < 10 := by
    intro digit member
    exact numeral.small digit (by simp [digits, member])
  rw [digits]
  rcases Nat.eq_zero_or_pos first with rfl | positive
  · cases more with
    | nil => rfl
    | cons next more =>
        have noX := (digitByte_plain next (moreSmall next (by simp))).2.2.2.2.2
        have octal :
            splitPrefix (48 :: digitByte next :: more.map digitByte) =
              (8, 48 :: digitByte next :: more.map digitByte) := by
          rw [splitPrefix, if_neg fun hexadecimal => noX hexadecimal.1]
        exact octal
  · have notZero :
        ∀ digit < 10, 0 < digit → digitByte digit ≠ 48 := by
      decide
    rw [List.map_cons, splitPrefix_of_ne (notZero first small positive)]
    simp [positive.ne']

/-- With base 0 the prefix decides what is read. -/
theorem scanInteger_text (numeral : IntegerText) :
    ∃ rest,
      scanInteger numeral.text =
        some (numeral.negative, prefixedValue numeral.digits, rest) := by
  simp only [scanInteger, numeral.dropWhile_text, numeral.scanSign_text,
    numeral.splitPrefix_text, prefixedValue]
  by_cases zero : numeral.digits.head? = some 0
  · rcases scan_octal numeral.small with ⟨rest, scanned⟩
    have some :
        numeral.digits.takeWhile (fun digit => decide (digit < 8)) ≠ [] := by
      rcases numeral.exists_digits_eq_cons with ⟨first, _, more, digits⟩
      rw [digits, List.head?_cons, Option.some.injEq] at zero
      simp [digits, zero]
    simp only [if_pos zero, scanned, if_neg some]
    exact ⟨rest, rfl⟩
  · simp only [if_neg zero, numeral.scan_text, if_neg numeral.nonempty]
    exact ⟨[], rfl⟩

/-! ## Conversions -/

/-- A number of any size as a `long`. -/
def saturated (n : ℤ) : ℤ :=
  if n < -2 ^ 63 then -2 ^ 63 else if 2 ^ 63 ≤ n then 2 ^ 63 - 1 else n

/-- A magnitude with a sign as an `unsigned long`. -/
def unsignedLong (negative : Bool) (magnitude : Nat) : UInt64 :=
  if magnitude < 2 ^ 64 then
    if negative then -UInt64.ofNat magnitude else UInt64.ofNat magnitude
  else UInt64.ofNat (2 ^ 64 - 1)

theorem strtol_text (numeral : IntegerText) :
    (strtol numeral.text).map Conversion.value =
      some (saturated numeral.prefixedNumber) := by
  rcases numeral.scanInteger_text with ⟨rest, scanned⟩
  rw [strtol, scanned, saturated, prefixedNumber, signed]
  simp only
  split_ifs <;> rfl

theorem strtoul_text (numeral : IntegerText) :
    (strtoul numeral.text).map Conversion.value =
      some (unsignedLong numeral.negative (prefixedValue numeral.digits)) := by
  rcases numeral.scanInteger_text with ⟨rest, scanned⟩
  rw [strtoul, scanned, unsignedLong]
  simp only
  split_ifs <;> rfl

/-- With base 10 the whole text is read. -/
theorem strtoull_text (numeral : IntegerText) :
    ∃ erange,
      CNumber.strtoull numeral.text =
        some
          { value :=
              unsignedLong numeral.negative (positional 10 numeral.digits)
            rest := []
            erange := erange } := by
  simp only [CNumber.strtoull, numeral.dropWhile_text, numeral.scanSign_text,
    numeral.scan_text, if_neg numeral.nonempty, unsignedLong]
  split_ifs
  · exact ⟨false, rfl⟩
  · exact ⟨false, rfl⟩
  · exact ⟨true, rfl⟩

/-! ## Numbers that are not negative -/

theorem text_ne_nil (numeral : IntegerText) : numeral.text ≠ [] := by
  have some := numeral.nonempty
  simp [text, some]

theorem toNat_number (nonnegative : 0 ≤ numeral.number) :
    numeral.number.toNat = positional 10 numeral.digits := by
  rw [number, signed] at nonnegative ⊢
  split_ifs at nonnegative ⊢ <;> omega

/-- A minus sign does nothing to a zero. -/
theorem unsignedLong_of_nonneg
    (nonnegative : 0 ≤ numeral.number) {magnitude : Nat}
    (lower : magnitude ≤ positional 10 numeral.digits)
    (bounded : magnitude < 2 ^ 64) :
    unsignedLong numeral.negative magnitude = UInt64.ofNat magnitude := by
  rw [unsignedLong, if_pos bounded]
  cases minus : numeral.negative with
  | false => rfl
  | true =>
      rw [number, signed, minus, if_pos rfl] at nonnegative
      have zero : magnitude = 0 := by omega
      rw [zero]
      rfl

theorem prefixedNumber_of_nonneg (nonnegative : 0 ≤ numeral.number) :
    numeral.prefixedNumber = prefixedValue numeral.digits := by
  have lower := prefixedValue_le numeral.digits
  rw [number, signed] at nonnegative
  rw [prefixedNumber, signed]
  split_ifs at nonnegative ⊢ <;> omega

theorem ofNat_ne_zero
    {magnitude : Nat} (positive : 0 < magnitude)
    (bounded : magnitude < 2 ^ 64) : UInt64.ofNat magnitude ≠ 0 := by
  intro zero
  have value := congrArg UInt64.toNat zero
  rw [UInt64.toNat_ofNat_of_lt' bounded, UInt64.toNat_zero] at value
  omega

/-- A negative number is not read as zero. -/
theorem unsignedLong_ne_zero (below : numeral.number < 0) :
    unsignedLong numeral.negative (positional 10 numeral.digits) ≠ 0 := by
  rw [number, signed] at below
  rw [unsignedLong]
  cases minus : numeral.negative with
  | false =>
      simp only [minus, Bool.false_eq_true, if_false] at below
      omega
  | true =>
      simp only [minus, if_true] at below ⊢
      split_ifs with bounded
      · exact UInt64.neg_ne_zero.mpr (ofNat_ne_zero (by omega) bounded)
      · decide

end IntegerText

end AccelObserver.Library
