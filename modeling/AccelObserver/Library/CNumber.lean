import AccelObserver.Library.Decimal
import AccelObserver.Library.Double
import Mathlib.Algebra.Order.Field.Basic
import Mathlib.Algebra.Order.Field.Rat
import Mathlib.Algebra.Order.Ring.NNRat
import Mathlib.Data.NNRat.Lemmas
import Mathlib.Tactic.NormNum

/-!
# Numbers of the C library

`strtoull`, `strtod` and the `%.6f` conversion, in the C locale.  A string
conversion gives the value, the text behind the numeral and whether `errno`
became `ERANGE`; where no numeral is found there is nothing to give.  Values
are exact: a numeral stands for the rational that it spells.  Where the
nearest double matters, `atofNearest` gives it.
-/

namespace AccelObserver.Library.CNumber

open AccelObserver.Library.Decimal

/-- What a conversion function reports. -/
structure Conversion (Value : Type) where
  value : Value
  rest : Bytes
  erange : Bool
  deriving DecidableEq

/-! ## Pieces of numerals -/

/-- `isspace` -/
def isSpace (byte : UInt8) : Bool :=
  byte == 32 || (9 ≤ byte && byte ≤ 13)

/-- An optional sign; minus is `true`. -/
def scanSign : Bytes → Bool × Bytes
  | [] => (false, [])
  | byte :: rest =>
      if byte = 43 then (false, rest)
      else if byte = 45 then (true, rest)
      else (false, byte :: rest)

/-- `tolower` -/
def toLower (byte : UInt8) : UInt8 :=
  if 65 ≤ byte ∧ byte ≤ 90 then byte + 32 else byte

/-- The text behind a word in lower case that the text spells in any case. -/
def dropWord : Bytes → Bytes → Option Bytes
  | [], text => some text
  | _ :: _, [] => none
  | letter :: word, byte :: rest =>
      if toLower byte = letter then dropWord word rest else none

/-- Digits with an optional point: those before it and those behind it. -/
def scanMantissa (radix : Nat) (text : Bytes) :
    Option (List Nat × List Nat × Bytes) :=
  let (whole, afterWhole) := scan radix text
  let (fraction, rest) :=
    match afterWhole with
    | 46 :: more => scan radix more
    | _ => ([], afterWhole)
  if whole = [] ∧ fraction = [] then none else some (whole, fraction, rest)

/-- An exponent behind its marker; without digits it is not consumed. -/
def scanExponent (marker : UInt8) (text : Bytes) : Int × Bytes :=
  match text with
  | [] => (0, [])
  | byte :: more =>
      if toLower byte = marker then
        let (negative, body) := scanSign more
        let (digits, rest) := scan 10 body
        if digits = [] then (0, text)
        else if negative then (-(positional 10 digits : Int), rest)
        else (positional 10 digits, rest)
      else
        (0, text)

/-! ## `strtoull` -/

/-- `strtoull(text, &end, 10)` -/
def strtoull (text : Bytes) : Option (Conversion UInt64) :=
  let (negative, body) := scanSign (text.dropWhile isSpace)
  let (digits, rest) := scan 10 body
  if digits = [] then
    none
  else
    let n := positional 10 digits
    if n < 2 ^ 64 then
      some
        { value := if negative then -UInt64.ofNat n else UInt64.ofNat n
          rest := rest
          erange := false }
    else
      some { value := UInt64.ofNat (2 ^ 64 - 1), rest := rest, erange := true }

/-! ## `strtod` -/

/-- Magnitudes from here on round to infinity. -/
def overflowBound : ℚ≥0 := ((2 ^ 970 * (2 ^ 54 - 1) : Nat) : ℚ≥0)

/-- Magnitudes from here on are rounded to a normal number, at the latest to
the smallest one. -/
def tinyBound : ℚ≥0 := ((2 ^ 54 - 1 : Nat) : ℚ≥0) / ((2 ^ 1076 : Nat) : ℚ≥0)

/--
Below that bound, what is not a multiple of the smallest subnormal number
underflows, for a library that looks at the rounded number.  A subnormal number
that is spelled exactly does not.
-/
def Underflows (magnitude : ℚ≥0) : Prop :=
  magnitude < tinyBound ∧ (magnitude * ((2 ^ 1074 : Nat) : ℚ≥0)).den ≠ 1

instance (magnitude : ℚ≥0) : Decidable (Underflows magnitude) :=
  inferInstanceAs (Decidable (_ ∧ _))

/-- A magnitude times a power of the base. -/
def scale (base : Nat) (magnitude : ℚ≥0) : Int → ℚ≥0
  | .ofNat exponent => magnitude * (base : ℚ≥0) ^ exponent
  | .negSucc exponent => magnitude / (base : ℚ≥0) ^ (exponent + 1)

/-- The conversion of a numeral that spells a rational. -/
def convertFinite (negative : Bool) (magnitude : ℚ≥0) (rest : Bytes) :
    Conversion Double :=
  if overflowBound ≤ magnitude then
    { value := .infinite negative, rest := rest, erange := true }
  else
    { value := .finite negative magnitude
      rest := rest
      erange := decide (Underflows magnitude) }

/-- Mantissa and exponent of one base. -/
def scanFinite (radix exponentBase : Nat) (marker : UInt8) (negative : Bool)
    (text : Bytes) : Option (Conversion Double) :=
  match scanMantissa radix text with
  | none => none
  | some (whole, fraction, afterMantissa) =>
      let (exponent, rest) := scanExponent marker afterMantissa
      let magnitude : ℚ≥0 :=
        (positional radix (whole ++ fraction) : ℚ≥0) /
          (radix : ℚ≥0) ^ fraction.length
      some (convertFinite negative (scale exponentBase magnitude exponent) rest)

/-- `inf` or `infinity` -/
def scanInfinity (negative : Bool) (text : Bytes) :
    Option (Conversion Double) :=
  match dropWord (ascii "inf") text with
  | none => none
  | some rest =>
      some
        { value := .infinite negative
          rest := (dropWord (ascii "inity") rest).getD rest
          erange := false }

/-- A letter, a digit or an underscore. -/
def isTagByte (byte : UInt8) : Bool :=
  (48 ≤ byte && byte ≤ 57) || (65 ≤ byte && byte ≤ 90) ||
    (97 ≤ byte && byte ≤ 122) || byte == 95

/-- The text behind the tag in parentheses that may follow `nan`. -/
def dropNanTag : Bytes → Bytes
  | 40 :: more =>
      match more.dropWhile isTagByte with
      | 41 :: rest => rest
      | _ => 40 :: more
  | text => text

/-- `nan` or `nan(tag)` -/
def scanNan (text : Bytes) : Option (Conversion Double) :=
  (dropWord (ascii "nan") text).map fun rest =>
    { value := .nan, rest := dropNanTag rest, erange := false }

/-- A hexadecimal numeral with a binary exponent. -/
def scanHexadecimal (negative : Bool) (text : Bytes) :
    Option (Conversion Double) :=
  (dropWord (ascii "0x") text).bind (scanFinite 16 2 112 negative)

/-- A decimal numeral. -/
def scanDecimal (negative : Bool) (text : Bytes) :
    Option (Conversion Double) :=
  scanFinite 10 10 101 negative text

/-- `strtod(text, &end)` -/
def strtod (text : Bytes) : Option (Conversion Double) :=
  let (negative, body) := scanSign (text.dropWhile isSpace)
  scanInfinity negative body <|> scanNan body <|>
    scanHexadecimal negative body <|> scanDecimal negative body

/-- `atof`: zero without a numeral. -/
def atof (text : Bytes) : Double :=
  match strtod text with
  | none => Double.zero
  | some conversion => conversion.value

/-- The text spells a NaN, in any case and with any sign. -/
def SpellsNan (text : Bytes) : Prop :=
  (dropWord (ascii "nan") (scanSign (text.dropWhile isSpace)).2).isSome

instance (text : Bytes) : Decidable (SpellsNan text) :=
  inferInstanceAs (Decidable (_ = true))

/-! ## NaN spellings -/

/-- Nothing but a NaN spelling begins like one. -/
theorem dropWord_of_spellsNan
    {text : Bytes} (spells : (dropWord (ascii "nan") text).isSome) :
    dropWord (ascii "inf") text = none := by
  cases text with
  | nil => rfl
  | cons byte rest =>
      by_cases letter : toLower byte = 105
      · have absent : dropWord (ascii "nan") (byte :: rest) = none := by
          rw [show ascii "nan" = 110 :: ascii "an" from rfl, dropWord, letter]
          rfl
        rw [absent] at spells
        cases spells
      · rw [show ascii "inf" = 105 :: ascii "nf" from rfl, dropWord,
          if_neg letter]

/-- A NaN spelling reads as a NaN, and sets no error. -/
theorem strtod_of_spellsNan
    {text : Bytes} (spells : SpellsNan text) :
    ∃ rest, strtod text =
      some { value := .nan, rest := rest, erange := false } := by
  rcases Option.isSome_iff_exists.mp spells with ⟨rest, found⟩
  refine ⟨dropNanTag rest, ?_⟩
  simp only [strtod, scanInfinity, dropWord_of_spellsNan spells, scanNan, found,
    Option.map_some]
  rfl

theorem scanFinite_ne_nan
    {radix exponentBase : Nat} {marker : UInt8} {negative : Bool}
    {text : Bytes} {conversion : Conversion Double}
    (scanned :
      scanFinite radix exponentBase marker negative text = some conversion) :
    conversion.value ≠ .nan := by
  rw [scanFinite] at scanned
  cases mantissa : scanMantissa radix text with
  | none => simp [mantissa] at scanned
  | some parts =>
      simp only [mantissa, Option.some.injEq] at scanned
      rw [← scanned, convertFinite]
      split_ifs <;> simp

/-- Only a NaN spelling reads as a NaN. -/
theorem spellsNan_of_strtod
    {text : Bytes} {conversion : Conversion Double}
    (read : strtod text = some conversion)
    (isNan : conversion.value = .nan) : SpellsNan text := by
  by_contra otherwise
  have noWord :
      dropWord (ascii "nan") (scanSign (text.dropWhile isSpace)).2 = none := by
    simpa [SpellsNan] using otherwise
  simp only [strtod, scanNan, noWord, Option.map_none, Option.orElse_eq_orElse,
    Option.orElse_eq_or, Option.none_or, Option.or_eq_some_iff] at read
  rcases read with infinite | ⟨_, hexadecimal | ⟨_, decimal⟩⟩
  · rw [scanInfinity] at infinite
    cases word :
        dropWord (ascii "inf") (scanSign (text.dropWhile isSpace)).2 with
    | none => simp [word] at infinite
    | some rest =>
        simp only [word, Option.some.injEq] at infinite
        simp [← infinite] at isNan
  · rcases Option.bind_eq_some_iff.mp hexadecimal with ⟨digits, _, scanned⟩
    exact scanFinite_ne_nan scanned isNan
  · exact scanFinite_ne_nan decimal isNan

/-- `atof` gives a NaN for these spellings and for no others. -/
theorem atof_eq_nan_iff {text : Bytes} : atof text = .nan ↔ SpellsNan text := by
  constructor
  · intro isNan
    cases read : strtod text with
    | none =>
        rw [atof, read] at isNan
        cases isNan
    | some conversion =>
        rw [atof, read] at isNan
        exact spellsNan_of_strtod read isNan
  · intro spells
    rcases strtod_of_spellsNan spells with ⟨rest, read⟩
    rw [atof, read]

/-! ## Printing with six decimals -/

/-- The nearest integer, halves to even. -/
def roundHalfEven (q : ℚ≥0) : Nat :=
  let whole := q.num / q.den
  let part := q.num % q.den
  if 2 * part < q.den then whole
  else if q.den < 2 * part then whole + 1
  else if whole % 2 = 0 then whole
  else whole + 1

@[simp]
theorem roundHalfEven_natCast (n : Nat) : roundHalfEven (n : ℚ≥0) = n := by
  simp [roundHalfEven, Nat.mod_one]

/-- A minus sign, where there is one. -/
def signBytes (negative : Bool) : Bytes :=
  if negative then [45] else []

/-- A number of millionths with its six decimals. -/
def fixed6 (millionths : Nat) : Bytes :=
  decimal (millionths / 10 ^ 6) ++
    46 :: (lastDigits 6 millionths).map digitByte

/-- A magnitude in whole millionths. -/
def toMillionths (magnitude : ℚ≥0) : Nat :=
  roundHalfEven (magnitude * 10 ^ 6)

/-- `%.6f`, and `operator<<` with `fixed` and `setprecision(6)`. -/
def formatFixed6 : Double → Bytes
  | .finite negative magnitude =>
      signBytes negative ++ fixed6 (toMillionths magnitude)
  | .infinite negative => signBytes negative ++ ascii "inf"
  | .nan => ascii "nan"

/-- The number that the six-decimal numeral of a number stands for. -/
def sixDecimals : Double → Double
  | .finite negative magnitude =>
      .finite negative ((toMillionths magnitude : ℚ≥0) / 10 ^ 6)
  | .infinite negative => .infinite negative
  | .nan => .nan

/-- The bytes of printed numbers: digits, the minus sign and the point. -/
def isPrintedByte (byte : UInt8) : Bool :=
  (48 ≤ byte && byte ≤ 57) || byte == 45 || byte == 46

theorem isPrintedByte_of_mem_digits
    {digits : List Nat} (small : ∀ digit ∈ digits, digit < 10)
    {byte : UInt8} (member : byte ∈ digits.map digitByte) :
    isPrintedByte byte = true := by
  have table : ∀ digit < 10, isPrintedByte (digitByte digit) = true := by
    decide
  rcases List.mem_map.mp member with ⟨digit, digitMember, rfl⟩
  exact table digit (small digit digitMember)

theorem isPrintedByte_of_mem_decimal
    {n : Nat} {byte : UInt8} (member : byte ∈ decimal n) :
    isPrintedByte byte = true :=
  isPrintedByte_of_mem_digits (digits_small n) member

/-- A finite number is printed in numeral bytes. -/
theorem isPrintedByte_of_mem_formatFixed6
    {number : Double} (finite : number.IsFinite)
    {byte : UInt8} (member : byte ∈ formatFixed6 number) :
    isPrintedByte byte = true := by
  rcases finite with ⟨negative, magnitude, rfl⟩
  simp only [formatFixed6, fixed6, List.mem_append, List.mem_cons] at member
  rcases member with sign | whole | rfl | fraction
  · cases negative with
    | false => simp [signBytes] at sign
    | true =>
        simp only [signBytes, if_true, List.mem_singleton] at sign
        rw [sign]
        rfl
  · exact isPrintedByte_of_mem_decimal whole
  · rfl
  · exact isPrintedByte_of_mem_digits (lastDigits_small 6 _) fraction

/-- The largest finite double. -/
def largestDouble : Nat := 2 ^ 971 * (2 ^ 53 - 1)

/-- Rounding to an integer does not go past an integer. -/
theorem roundHalfEven_le {q : ℚ≥0} {n : Nat} (bounded : q ≤ n) :
    roundHalfEven q ≤ n := by
  have denPositive : 0 < q.den := q.den_pos
  have numBound : q.num ≤ n * q.den := by
    rw [NNRat.le_def] at bounded
    simpa using bounded
  have split := Nat.div_add_mod q.num q.den
  rw [roundHalfEven]
  by_cases below : q.num / q.den < n
  · split_ifs <;> omega
  · have reached : n * q.den ≤ q.num :=
      (Nat.le_div_iff_mul_le denPositive).mp (Nat.not_lt.mp below)
    have exact : q.num = n * q.den := Nat.le_antisymm numBound reached
    have whole : q.num / q.den = n := by
      rw [exact, Nat.mul_div_cancel _ denPositive]
    have part : q.num % q.den = 0 := by
      rw [exact, Nat.mul_mod_left]
    simp only [part, Nat.mul_zero, if_pos denPositive, whole, Nat.le_refl]

/-- No double rounds to a six-decimal number that overflows. -/
theorem lt_overflowBound_of_le_largestDouble
    {magnitude : ℚ≥0} (representable : magnitude ≤ (largestDouble : ℚ≥0)) :
    (toMillionths magnitude : ℚ≥0) / 10 ^ 6 < overflowBound := by
  have scaled :
      magnitude * 10 ^ 6 ≤ ((largestDouble * 10 ^ 6 : Nat) : ℚ≥0) := by
    rw [Nat.cast_mul, Nat.cast_pow, Nat.cast_ofNat]
    exact mul_le_mul_left representable _
  have bounded :
      (toMillionths magnitude : ℚ≥0) ≤ (largestDouble : ℚ≥0) * 10 ^ 6 := by
    have rounded :
        (toMillionths magnitude : ℚ≥0) ≤
          ((largestDouble * 10 ^ 6 : Nat) : ℚ≥0) :=
      Nat.cast_le.mpr (roundHalfEven_le scaled)
    rwa [Nat.cast_mul, Nat.cast_pow, Nat.cast_ofNat] at rounded
  have largest : largestDouble < 2 ^ 970 * (2 ^ 54 - 1) := by
    decide +kernel
  calc
    (toMillionths magnitude : ℚ≥0) / 10 ^ 6 ≤ (largestDouble : ℚ≥0) :=
      (div_le_iff₀ (by positivity)).mpr bounded
    _ < overflowBound := Nat.cast_lt.mpr largest

@[simp]
theorem toMillionths_div (millionths : Nat) :
    toMillionths ((millionths : ℚ≥0) / 10 ^ 6) = millionths := by
  rw [toMillionths, div_mul_cancel₀ _ (by norm_num), roundHalfEven_natCast]

/-- Six-decimal numerals are what the numbers they stand for print as. -/
@[simp]
theorem formatFixed6_sixDecimals (number : Double) :
    formatFixed6 (sixDecimals number) = formatFixed6 number := by
  cases number <;> simp [sixDecimals, formatFixed6]

/-! ## Reading what was printed -/

/-- A digit is no blank, no sign and no letter. -/
theorem digitByte_plain :
    ∀ digit < 10,
      isSpace (digitByte digit) = false ∧ digitByte digit ≠ 43 ∧
        digitByte digit ≠ 45 ∧ toLower (digitByte digit) ≠ 105 ∧
        toLower (digitByte digit) ≠ 110 ∧
        toLower (digitByte digit) ≠ 120 := by
  decide

/-- The first digit of a numeral. -/
theorem exists_digits_eq_cons (n : Nat) :
    ∃ first < 10, ∃ more, digits n = first :: more ∧
      ∀ digit ∈ more, digit < 10 := by
  have small := digits_small n
  cases printed : digits n with
  | nil => exact absurd printed (digits_ne_nil n)
  | cons first more =>
      rw [printed] at small
      rcases List.forall_mem_cons.mp small with ⟨smallFirst, smallMore⟩
      exact ⟨first, smallFirst, more, rfl, smallMore⟩

theorem scanSign_decimal (n : Nat) (rest : Bytes) :
    scanSign (decimal n ++ rest) = (false, decimal n ++ rest) := by
  rcases exists_digits_eq_cons n with ⟨first, small, more, printed, _⟩
  rcases digitByte_plain first small with ⟨_, notPlus, notMinus, _⟩
  simp [decimal, printed, scanSign, notPlus, notMinus]

theorem dropSpace_decimal (n : Nat) (rest : Bytes) :
    (decimal n ++ rest).dropWhile isSpace = decimal n ++ rest := by
  rcases exists_digits_eq_cons n with ⟨first, small, more, printed, _⟩
  simp [decimal, printed, (digitByte_plain first small).1]

/-- A 64-bit number is read back, as long as no digit follows. -/
theorem strtoull_decimal
    {n : Nat} (fits : n < 2 ^ 64) {rest : Bytes} (ends : Ends 10 rest) :
    strtoull (decimal n ++ rest) =
      some { value := UInt64.ofNat n, rest := rest, erange := false } := by
  have scanned : scan 10 (decimal n ++ rest) = (digits n, rest) :=
    scan_digits (digits_small n) ends
  simp only [strtoull, dropSpace_decimal, scanSign_decimal, scanned,
    digits_ne_nil, if_false, positional_digits, if_pos fits,
    Bool.false_eq_true]

/-- A text that ends a decimal numeral: neither a digit nor an exponent. -/
structure EndsNumeral (rest : Bytes) : Prop where
  noDigit : Ends 10 rest
  noExponent : scanExponent 101 rest = (0, rest)

/-- Digits are no word of `strtod`. -/
theorem dropWord_decimal (n : Nat) (rest : Bytes) :
    dropWord (ascii "inf") (decimal n ++ rest) = none ∧
      dropWord (ascii "nan") (decimal n ++ rest) = none := by
  rcases exists_digits_eq_cons n with ⟨first, small, more, printed, _⟩
  rcases digitByte_plain first small with ⟨_, _, _, notI, notN, _⟩
  rw [decimal, printed]
  constructor
  · rw [show ascii "inf" = 105 :: ascii "nf" from rfl, List.map_cons,
      List.cons_append, dropWord, if_neg notI]
  · rw [show ascii "nan" = 110 :: ascii "an" from rfl, List.map_cons,
      List.cons_append, dropWord, if_neg notN]

/-- A numeral with a point is not hexadecimal. -/
theorem dropWord_hexadecimal (n : Nat) (rest : Bytes) :
    dropWord (ascii "0x") (decimal n ++ 46 :: rest) = none := by
  have pointIsNoX : toLower 46 ≠ 120 := by decide
  rcases exists_digits_eq_cons n with ⟨first, small, more, printed, others⟩
  rw [decimal, printed, show ascii "0x" = [48, 120] from rfl, List.map_cons,
    List.cons_append, dropWord]
  split_ifs with zero
  · cases more with
    | nil => rw [List.map_nil, List.nil_append, dropWord, if_neg pointIsNoX]
    | cons second more =>
        have plain := digitByte_plain second (others second (by simp))
        rw [List.map_cons, List.cons_append, dropWord,
          if_neg plain.2.2.2.2.2]
  · rfl

/-- The mantissa of a six-decimal numeral, in millionths. -/
theorem scanMantissa_fixed6
    (millionths : Nat) {rest : Bytes} (ends : Ends 10 rest) :
    scanMantissa 10 (fixed6 millionths ++ rest) =
      some (digits (millionths / 10 ^ 6), lastDigits 6 millionths, rest) := by
  have point :
      Ends 10 (46 :: ((lastDigits 6 millionths).map digitByte ++ rest)) :=
    ends_cons (by decide)
  have whole :
      scan 10 (fixed6 millionths ++ rest) =
        (digits (millionths / 10 ^ 6),
          46 :: ((lastDigits 6 millionths).map digitByte ++ rest)) := by
    rw [fixed6, decimal, List.append_assoc, List.cons_append]
    exact scan_digits (digits_small _) point
  have fraction :=
    scan_digits (lastDigits_small 6 millionths) ends
  simp only [scanMantissa, whole, fraction, digits_ne_nil, false_and, if_false]

/-- The value of the mantissa's digits. -/
theorem positional_fixed6 (millionths : Nat) :
    positional 10
        (digits (millionths / 10 ^ 6) ++ lastDigits 6 millionths) =
      millionths := by
  rw [positional_append, positional_digits, positional_lastDigits,
    lastDigits_length]
  exact Nat.div_add_mod' millionths (10 ^ 6)

theorem scale_zero (base : Nat) (magnitude : ℚ≥0) :
    scale base magnitude 0 = magnitude := by
  change magnitude * (base : ℚ≥0) ^ 0 = magnitude
  rw [pow_zero, mul_one]

/-- Numbers of up to three hundred digits do not overflow. -/
theorem lt_overflowBound_of_short
    {millionths : Nat}
    (short : (digits (millionths / 10 ^ 6)).length ≤ 300) :
    (millionths : ℚ≥0) / 10 ^ 6 < overflowBound := by
  have wholeBound : millionths / 10 ^ 6 < 10 ^ 300 :=
    lt_of_length_digits_le (by decide) short
  have bound : millionths < 2 ^ 970 * (2 ^ 54 - 1) := by
    calc
      millionths < 10 ^ 300 * 10 ^ 6 :=
        (Nat.div_lt_iff_lt_mul (by decide)).mp wholeBound
      _ ≤ 2 ^ 970 * (2 ^ 54 - 1) := by decide +kernel
  calc
    (millionths : ℚ≥0) / 10 ^ 6 ≤ millionths :=
      div_le_self zero_le (by norm_num)
    _ < overflowBound := Nat.cast_lt.mpr bound

/-- Six-decimal numbers do not underflow. -/
theorem convertFinite_millionths
    (negative : Bool) {millionths : Nat}
    (below : (millionths : ℚ≥0) / 10 ^ 6 < overflowBound) (rest : Bytes) :
    convertFinite negative ((millionths : ℚ≥0) / 10 ^ 6) rest =
      { value := .finite negative ((millionths : ℚ≥0) / 10 ^ 6)
        rest := rest
        erange := false } := by
  have exact : ¬ Underflows ((millionths : ℚ≥0) / 10 ^ 6) := by
    rintro ⟨tiny, inexact⟩
    have counted : 1 ≤ millionths := by
      by_contra none
      obtain rfl : millionths = 0 := by omega
      rw [Nat.cast_zero, zero_div, zero_mul] at inexact
      exact inexact rfl
    have powers :
        (((2 ^ 54 - 1) * 10 ^ 6 : Nat) : ℚ≥0) ≤ ((2 ^ 1076 : Nat) : ℚ≥0) :=
      Nat.cast_le.mpr (by decide +kernel)
    refine absurd tiny (not_lt.mpr ?_)
    calc
      tinyBound ≤ 1 / ((10 ^ 6 : Nat) : ℚ≥0) := by
        rw [tinyBound, div_le_div_iff₀ (by positivity) (by positivity),
          one_mul, ← Nat.cast_mul]
        exact powers
      _ = 1 / 10 ^ 6 := by norm_num
      _ ≤ (millionths : ℚ≥0) / 10 ^ 6 := by
        gcongr
        exact_mod_cast counted
  rw [convertFinite, if_neg (not_le.mpr below)]
  simp only [exact, decide_false]

/-- The six-decimal numeral of a number reads as its six-decimal value. -/
theorem strtod_formatFixed6
    (negative : Bool) (magnitude : ℚ≥0)
    (below : (toMillionths magnitude : ℚ≥0) / 10 ^ 6 < overflowBound)
    {rest : Bytes} (ends : EndsNumeral rest) :
    strtod (formatFixed6 (.finite negative magnitude) ++ rest) =
      some
        { value := sixDecimals (.finite negative magnitude)
          rest := rest
          erange := false } := by
  set millionths := toMillionths magnitude
  have body :
      fixed6 millionths ++ rest =
        decimal (millionths / 10 ^ 6) ++
          46 :: ((lastDigits 6 millionths).map digitByte ++ rest) := by
    rw [fixed6, List.append_assoc, List.cons_append]
  have signed :
      scanSign
          ((formatFixed6 (.finite negative magnitude) ++ rest).dropWhile
            isSpace) =
        (negative, fixed6 millionths ++ rest) := by
    rw [formatFixed6, List.append_assoc]
    cases negative with
    | false =>
        simp only [signBytes, Bool.false_eq_true, if_false, List.nil_append]
        rw [body, dropSpace_decimal, scanSign_decimal]
    | true => rfl
  have scanned :
      scanDecimal negative (fixed6 millionths ++ rest) =
        some
          { value := .finite negative ((millionths : ℚ≥0) / 10 ^ 6)
            rest := rest
            erange := false } := by
    simp only [scanDecimal, scanFinite, scanMantissa_fixed6 _ ends.noDigit,
      ends.noExponent, positional_fixed6, lastDigits_length, Option.some.injEq]
    rw [show ((10 : Nat) : ℚ≥0) = 10 from rfl, scale_zero]
    exact convertFinite_millionths negative below rest
  simp only [strtod, signed, scanInfinity, scanNan, scanHexadecimal]
  rw [body, (dropWord_decimal _ _).1, (dropWord_decimal _ _).2,
    dropWord_hexadecimal, ← body, scanned]
  rfl

/-! ## Rounding to doubles -/

/-- The exponent of the leading binary digit of a positive magnitude. -/
def leadingExponent (magnitude : ℚ≥0) : Int :=
  let guess : Int := (magnitude.num.log2 : Int) - magnitude.den.log2
  if magnitude < scale 2 1 guess then guess - 1 else guess

/-- The distance between the doubles around a magnitude; below the smallest
normal number it does not shrink any further. -/
def spacing (magnitude : ℚ≥0) : ℚ≥0 :=
  scale 2 1 (max (leadingExponent magnitude) (-1022) - 52)

/-- The nearest double, halves to even. -/
def nearest : Double → Double
  | .finite negative magnitude =>
      .finite negative
        (roundHalfEven (magnitude / spacing magnitude) * spacing magnitude)
  | .infinite negative => .infinite negative
  | .nan => .nan

/-- `atof`, with the value of the numeral rounded to a double. -/
def atofNearest (text : Bytes) : Double :=
  nearest (atof text)

/-- Rounding makes no NaN. -/
theorem atofNearest_eq_nan_iff {text : Bytes} :
    atofNearest text = .nan ↔ SpellsNan text := by
  rw [← atof_eq_nan_iff, atofNearest]
  cases atof text <;> simp [nearest]

end AccelObserver.Library.CNumber
