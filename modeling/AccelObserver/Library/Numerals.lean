import AccelObserver.Library.CNumber
import AccelObserver.Library.FlatFields

/-!
# Numerals in an object

What `strtoull` and `strtod` make of a value of a flat object.  They skip the
blanks before it, stop at the punctuation behind it, and refuse a string; so
what they read depends on the numeral alone.
-/

namespace AccelObserver.Library.Numerals

open AccelObserver.Library.CNumber
open AccelObserver.Library.Decimal
open AccelObserver.Library.FlatFields

/-- The end of the text, or what may stand behind a value. -/
def Follows (after : Bytes) : Prop :=
  ∀ byte ∈ after.head?, byte = 44 ∨ byte = 125

/-! ## Pieces of numerals -/

theorem Follows.ends {after : Bytes} (follows : Follows after) :
    Ends 10 after := by
  cases after with
  | nil => rfl
  | cons byte rest =>
      rcases follows byte rfl with rfl | rfl
      · exact ends_cons (by decide)
      · exact ends_cons (by decide)

/-- The digits of a text end before what follows it. -/
theorem scan_append
    {after : Bytes} (ends : Ends 10 after) (text : Bytes) :
    scan 10 (text ++ after) =
      ((scan 10 text).1, (scan 10 text).2 ++ after) := by
  induction text with
  | nil => exact ends
  | cons byte text induction =>
      rw [List.cons_append, scan, scan]
      cases digitValue 10 byte with
      | none => rfl
      | some digit => simp only [induction]

theorem scanSign_append
    {after : Bytes} (follows : Follows after) (text : Bytes) :
    scanSign (text ++ after) =
      ((scanSign text).1, (scanSign text).2 ++ after) := by
  cases text with
  | nil =>
      cases after with
      | nil => rfl
      | cons byte rest =>
          rcases follows byte rfl with rfl | rfl <;> rfl
  | cons byte text =>
      rw [List.cons_append, scanSign, scanSign]
      split_ifs <;> rfl

/-- A point and the digits behind it, if there is a point. -/
def scanFraction (text : Bytes) : List Nat × Bytes :=
  match text with
  | 46 :: more => scan 10 more
  | _ => ([], text)

theorem scanMantissa_eq (text : Bytes) :
    scanMantissa 10 text =
      if (scan 10 text).1 = [] ∧ (scanFraction (scan 10 text).2).1 = [] then
        none
      else
        some
          ((scan 10 text).1, (scanFraction (scan 10 text).2).1,
            (scanFraction (scan 10 text).2).2) := rfl

theorem scanFraction_append
    {after : Bytes} (follows : Follows after) (text : Bytes) :
    scanFraction (text ++ after) =
      ((scanFraction text).1, (scanFraction text).2 ++ after) := by
  cases text with
  | nil =>
      cases after with
      | nil => rfl
      | cons byte rest =>
          rcases follows byte rfl with rfl | rfl <;> rfl
  | cons byte more =>
      by_cases point : byte = 46
      · subst point
        exact scan_append follows.ends more
      · simp [scanFraction, point]

theorem scanMantissa_append
    {after : Bytes} (follows : Follows after) (text : Bytes) :
    scanMantissa 10 (text ++ after) =
      (scanMantissa 10 text).map fun (whole, fraction, rest) =>
        (whole, fraction, rest ++ after) := by
  rw [scanMantissa_eq, scanMantissa_eq, scan_append follows.ends,
    scanFraction_append follows]
  split_ifs <;> rfl

theorem scanExponent_append
    {after : Bytes} (follows : Follows after) (text : Bytes) :
    scanExponent 101 (text ++ after) =
      ((scanExponent 101 text).1, (scanExponent 101 text).2 ++ after) := by
  cases text with
  | nil =>
      cases after with
      | nil => rfl
      | cons byte rest =>
          rcases follows byte rfl with rfl | rfl <;> rfl
  | cons byte more =>
      simp only [List.cons_append, scanExponent, scanSign_append follows more,
        scan_append follows.ends]
      split_ifs <;> rfl

/-- A finite numeral reads the same whatever follows it. -/
theorem scanDecimal_append
    {after : Bytes} (follows : Follows after) (negative : Bool)
    (text : Bytes) :
    scanDecimal negative (text ++ after) =
      (scanDecimal negative text).map fun conversion =>
        { conversion with rest := conversion.rest ++ after } := by
  simp only [scanDecimal, scanFinite, scanMantissa_append follows text]
  cases scanMantissa 10 text with
  | none => rfl
  | some parts =>
      simp only [Option.map_some, scanExponent_append follows]
      rw [convertFinite, convertFinite]
      split_ifs <;> rfl

/-! ## Values -/

/-- A byte of a numeral is no blank and no letter of a word. -/
theorem numeralByte_plain {byte : UInt8} (numeral : isNumeralByte byte = true) :
    isSpace byte = false ∧ toLower byte ≠ 105 ∧ toLower byte ≠ 110 ∧
      toLower byte ≠ 120 := by
  have every :
      ∀ byte, isNumeralByte byte = true →
        isSpace byte = false ∧ toLower byte ≠ 105 ∧ toLower byte ≠ 110 ∧
          toLower byte ≠ 120 :=
    forall_byte (by decide +kernel)
  exact every byte numeral

theorem followsByte_plain {byte : UInt8} (follows : byte = 44 ∨ byte = 125) :
    toLower byte ≠ 105 ∧ toLower byte ≠ 110 ∧ toLower byte ≠ 120 ∧
      toLower byte ≠ 48 := by
  rcases follows with rfl | rfl <;> decide

/-- A text that is a numeral and what follows it. -/
structure IsValue (numeral after : Bytes) : Prop where
  bytes : numeral.all isNumeralByte = true
  follows : Follows after

theorem dropWord_eq_none
    {letter : UInt8} {word text : Bytes}
    (noStart : ∀ byte ∈ text.head?, toLower byte ≠ letter) :
    dropWord (letter :: word) text = none := by
  cases text with
  | nil => rfl
  | cons byte rest => rw [dropWord, if_neg (noStart byte rfl)]

/-- Neither a word nor a hexadecimal numeral begins here. -/
theorem IsValue.noWord
    {numeral after : Bytes} (isValue : IsValue numeral after) :
    dropWord (ascii "inf") (numeral ++ after) = none ∧
      dropWord (ascii "nan") (numeral ++ after) = none ∧
        dropWord (ascii "0x") (numeral ++ after) = none := by
  have start :
      ∀ byte ∈ (numeral ++ after).head?,
        toLower byte ≠ 105 ∧ toLower byte ≠ 110 := by
    intro byte first
    cases numeral with
    | nil =>
        have plain := followsByte_plain (isValue.follows byte first)
        exact ⟨plain.1, plain.2.1⟩
    | cons other more =>
        obtain rfl : other = byte := by simpa using first
        have plain :=
          numeralByte_plain (List.all_eq_true.mp isValue.bytes other (by simp))
        exact ⟨plain.2.1, plain.2.2.1⟩
  refine ⟨dropWord_eq_none fun byte first => (start byte first).1,
    dropWord_eq_none fun byte first => (start byte first).2, ?_⟩
  have second :
      ∀ byte ∈ (numeral ++ after).tail.head?, numeral ≠ [] →
        toLower byte ≠ 120 := by
    intro byte next some
    cases numeral with
    | nil => exact absurd rfl some
    | cons other more =>
        cases more with
        | nil =>
            exact (followsByte_plain (isValue.follows byte next)).2.2.1
        | cons digit more =>
            obtain rfl : digit = byte := by simpa using next
            exact
              (numeralByte_plain
                (List.all_eq_true.mp isValue.bytes digit (by simp))).2.2.2
  cases numeral with
  | nil =>
      exact dropWord_eq_none fun byte first =>
        (followsByte_plain (isValue.follows byte first)).2.2.2
  | cons other more =>
      rw [show ascii "0x" = 48 :: 120 :: [] from rfl, List.cons_append,
        dropWord]
      split_ifs
      · exact dropWord_eq_none fun byte next => second byte next (by simp)
      · rfl

theorem IsValue.sign
    {numeral after : Bytes} (isValue : IsValue numeral after) :
    IsValue (scanSign numeral).2 after where
  bytes := by
    have bytes := isValue.bytes
    cases numeral with
    | nil => rfl
    | cons byte rest =>
        rw [List.all_cons, Bool.and_eq_true] at bytes
        rw [scanSign]
        split_ifs
        · exact bytes.2
        · exact bytes.2
        · exact isValue.bytes
  follows := isValue.follows

theorem IsValue.dropSpace
    {numeral after : Bytes} (isValue : IsValue numeral after)
    (some : numeral ≠ []) :
    (numeral ++ after).dropWhile isSpace = numeral ++ after := by
  cases numeral with
  | nil => exact absurd rfl some
  | cons byte rest =>
      have plain :=
        numeralByte_plain (List.all_eq_true.mp isValue.bytes byte (by simp))
      simp [plain.1]

/-- `strtod` reads a value as a decimal numeral. -/
theorem strtod_value
    {numeral after : Bytes} (isValue : IsValue numeral after)
    (some : numeral ≠ []) :
    strtod (numeral ++ after) =
      scanDecimal (scanSign numeral).1 ((scanSign numeral).2 ++ after) := by
  rcases isValue.sign.noWord with ⟨noInfinity, noNan, noHexadecimal⟩
  simp only [strtod, isValue.dropSpace some, scanSign_append isValue.follows,
    scanInfinity, scanNan, scanHexadecimal, noInfinity, noNan, noHexadecimal]
  rfl

/-- What follows a value does not change what `strtod` reads. -/
theorem strtod_append
    {numeral after : Bytes} (isValue : IsValue numeral after)
    (some : numeral ≠ []) :
    strtod (numeral ++ after) =
      (strtod numeral).map fun conversion =>
        { conversion with rest := conversion.rest ++ after } := by
  have alone : IsValue numeral [] := ⟨isValue.bytes, nofun⟩
  have read := strtod_value alone some
  rw [List.append_nil, List.append_nil] at read
  rw [strtod_value isValue some, scanDecimal_append isValue.follows, read]

theorem strtoull_append
    {numeral after : Bytes} (isValue : IsValue numeral after)
    (some : numeral ≠ []) :
    strtoull (numeral ++ after) =
      (strtoull numeral).map fun conversion =>
        { conversion with rest := conversion.rest ++ after } := by
  have alone : IsValue numeral [] := ⟨isValue.bytes, nofun⟩
  have dropped := alone.dropSpace some
  rw [List.append_nil] at dropped
  simp only [strtoull, isValue.dropSpace some, dropped,
    scanSign_append isValue.follows, scan_append isValue.follows.ends]
  split_ifs <;> rfl

/-- Blanks before a numeral are skipped. -/
theorem dropSpace_append
    {spaces : Bytes} (blank : spaces.all isSpace = true) (text : Bytes) :
    (spaces ++ text).dropWhile isSpace = text.dropWhile isSpace := by
  induction spaces with
  | nil => rfl
  | cons byte spaces induction =>
      rw [List.all_cons, Bool.and_eq_true] at blank
      simpa [blank.1] using induction blank.2

/-- A string, and the punctuation behind a value, are no numerals. -/
theorem strtod_refuses
    {byte : UInt8} (refused : byte = 34 ∨ byte = 44 ∨ byte = 125)
    (rest : Bytes) : strtod (byte :: rest) = none := by
  rcases refused with rfl | rfl | rfl <;> rfl

theorem strtoull_refuses
    {byte : UInt8} (refused : byte = 34 ∨ byte = 44 ∨ byte = 125)
    (rest : Bytes) : strtoull (byte :: rest) = none := by
  rcases refused with rfl | rfl | rfl <;> rfl

/-! ## Plain numerals -/

/-- Digits, of which there is at least one. -/
structure PlainNatural where
  digits : List Nat
  some : digits ≠ []
  small : ∀ digit ∈ digits, digit < 10

def PlainNatural.text (numeral : PlainNatural) : Bytes :=
  numeral.digits.map digitByte

def PlainNatural.value (numeral : PlainNatural) : Nat :=
  positional 10 numeral.digits

/-- A sign, digits, and a point with digits where there is a fraction. -/
structure PlainDecimal where
  negative : Bool
  whole : PlainNatural
  fraction : List Nat
  fractionSmall : ∀ digit ∈ fraction, digit < 10

def PlainDecimal.text (numeral : PlainDecimal) : Bytes :=
  signBytes numeral.negative ++
    (numeral.whole.text ++
      if numeral.fraction = [] then []
      else 46 :: numeral.fraction.map digitByte)

def PlainDecimal.magnitude (numeral : PlainDecimal) : ℚ≥0 :=
  (positional 10 (numeral.whole.digits ++ numeral.fraction) : ℚ≥0) /
    10 ^ numeral.fraction.length

/-- The number that a plain numeral stands for. -/
def PlainDecimal.value (numeral : PlainDecimal) : Double :=
  .finite numeral.negative numeral.magnitude

theorem isNumeralByte_digitByte :
    ∀ digit < 10, isNumeralByte (digitByte digit) = true := by
  decide

theorem all_digits
    {digits : List Nat} (small : ∀ digit ∈ digits, digit < 10) :
    (digits.map digitByte).all isNumeralByte = true := by
  rw [List.all_map, List.all_eq_true]
  exact fun digit member => isNumeralByte_digitByte digit (small digit member)

theorem PlainNatural.text_ne_nil (numeral : PlainNatural) :
    numeral.text ≠ [] := by
  simpa [PlainNatural.text] using numeral.some

theorem PlainNatural.isValue
    (numeral : PlainNatural) {after : Bytes} (follows : Follows after) :
    IsValue numeral.text after :=
  ⟨all_digits numeral.small, follows⟩

theorem PlainNatural.scan_text (numeral : PlainNatural) :
    scan 10 numeral.text = (numeral.digits, []) := by
  have read :
      scan 10 (numeral.text ++ []) = (numeral.digits, []) :=
    scan_digits numeral.small rfl
  rwa [List.append_nil] at read

theorem PlainNatural.scanSign_text (numeral : PlainNatural) (rest : Bytes) :
    scanSign (numeral.text ++ rest) = (false, numeral.text ++ rest) := by
  rcases numeral with ⟨digits, some, small⟩
  cases digits with
  | nil => exact absurd rfl some
  | cons digit more =>
      rcases digitByte_plain digit (small digit (by simp))
        with ⟨_, notPlus, notMinus, _⟩
      simp [PlainNatural.text, scanSign, notPlus, notMinus]

/-- `strtoull` reads a plain number of 64 bits. -/
theorem strtoull_plainNatural
    (numeral : PlainNatural) (fits : numeral.value < 2 ^ 64) :
    strtoull numeral.text =
      some
        { value := UInt64.ofNat numeral.value
          rest := []
          erange := false } := by
  have alone : IsValue numeral.text [] := numeral.isValue nofun
  have dropped := alone.dropSpace numeral.text_ne_nil
  have sign := numeral.scanSign_text []
  rw [List.append_nil] at dropped sign
  simp only [strtoull, dropped, sign, numeral.scan_text, if_neg numeral.some]
  exact if_pos fits

theorem PlainDecimal.text_ne_nil (numeral : PlainDecimal) :
    numeral.text ≠ [] := by
  simp [PlainDecimal.text, numeral.whole.text_ne_nil]

theorem PlainDecimal.isValue
    (numeral : PlainDecimal) {after : Bytes} (follows : Follows after) :
    IsValue numeral.text after where
  bytes := by
    have sign : (signBytes numeral.negative).all isNumeralByte = true := by
      cases numeral.negative <;> decide
    have whole := (numeral.whole.isValue follows).bytes
    have fraction := all_digits numeral.fractionSmall
    have point : isNumeralByte 46 = true := by decide
    rw [PlainDecimal.text, List.all_append, List.all_append, sign, whole]
    split_ifs
    · rfl
    · rw [List.all_cons, point, fraction]
      rfl
  follows := follows

theorem PlainDecimal.scanSign_text (numeral : PlainDecimal) :
    scanSign numeral.text =
      (numeral.negative,
        numeral.whole.text ++
          if numeral.fraction = [] then []
          else 46 :: numeral.fraction.map digitByte) := by
  rw [PlainDecimal.text]
  cases numeral.negative with
  | false => exact numeral.whole.scanSign_text _
  | true => rfl

theorem PlainDecimal.scanMantissa_text (numeral : PlainDecimal) :
    scanMantissa 10
        (numeral.whole.text ++
          if numeral.fraction = [] then []
          else 46 :: numeral.fraction.map digitByte) =
      some (numeral.whole.digits, numeral.fraction, []) := by
  have some : numeral.whole.digits ≠ [] := numeral.whole.some
  by_cases empty : numeral.fraction = []
  · rw [if_pos empty, List.append_nil, scanMantissa_eq,
      numeral.whole.scan_text, empty]
    simp [scanFraction, some]
  · have point : Ends 10 (46 :: numeral.fraction.map digitByte) :=
      ends_cons (by decide)
    have whole :
        scan 10
            (numeral.whole.text ++ 46 :: numeral.fraction.map digitByte) =
          (numeral.whole.digits, 46 :: numeral.fraction.map digitByte) :=
      scan_digits numeral.whole.small point
    have fraction :
        scan 10 (numeral.fraction.map digitByte ++ []) =
          (numeral.fraction, []) :=
      scan_digits numeral.fractionSmall rfl
    rw [List.append_nil] at fraction
    rw [if_neg empty, scanMantissa_eq, whole]
    simp [scanFraction, fraction, some]

/-- `strtod` reads a plain numeral for what it stands for. -/
theorem strtod_plainDecimal (numeral : PlainDecimal) :
    strtod numeral.text =
      some (convertFinite numeral.negative numeral.magnitude []) := by
  have alone : IsValue numeral.text [] := numeral.isValue nofun
  have read := strtod_value alone numeral.text_ne_nil
  rw [List.append_nil, List.append_nil] at read
  rw [read, numeral.scanSign_text]
  simp only [scanDecimal, scanFinite, numeral.scanMantissa_text, scanExponent,
    Option.some.injEq]
  rw [show ((10 : Nat) : ℚ≥0) = 10 from rfl, scale_zero]
  rfl

end AccelObserver.Library.Numerals
