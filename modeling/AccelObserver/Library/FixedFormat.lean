import AccelObserver.Library.JsonFields
import AccelObserver.Library.Rounding
import Mathlib.Tactic.FieldSimp

/-!
# Numbers with a fixed number of decimals

`%.nf` for every `n`, and `%u`, as the numbers of a JSON text.  A finite number
is printed as a numeral of JSON with the rounded value; an infinity and a NaN
are printed as words that JSON does not have.
-/

namespace AccelObserver.Library.FixedFormat

open AccelObserver.Library.CNumber
open AccelObserver.Library.Decimal
open AccelObserver.Library.Rounding (abs_roundHalfEven_sub_le)
open AccelObserver.Library.Json (IsNumeral IsWord IsField isMemberByte)

/-- A magnitude in units of the last decimal. -/
def toUnits (places : Nat) (magnitude : ℚ≥0) : Nat :=
  roundHalfEven (magnitude * 10 ^ places)

/-- `%.nf` -/
def formatFixed (places : Nat) : Double → Bytes
  | .finite negative magnitude =>
      signBytes negative ++ decimal (toUnits places magnitude / 10 ^ places) ++
        46 :: (lastDigits places (toUnits places magnitude)).map digitByte
  | .infinite negative => signBytes negative ++ ascii "inf"
  | .nan => ascii "nan"

/-- An exact value as a number. -/
def ofRat (value : ℚ) : Double :=
  .finite (value < 0) (value.nnabs)

/-! ## As numbers of JSON -/

/-- What a finite number is read as. -/
def fixedNumber (places : Nat) (negative : Bool) (magnitude : ℚ≥0) :
    JsonNumber where
  negative := negative
  whole := digits (toUnits places magnitude / 10 ^ places)
  fraction := lastDigits places (toUnits places magnitude)
  exponent := 0

/-- What an integer is read as. -/
def wholeNumber (n : Nat) : JsonNumber where
  negative := false
  whole := digits n
  fraction := []
  exponent := 0

/-- What ends a number is no part of one. -/
theorem endsNumber_plain :
    ∀ byte : UInt8, byte = 44 ∨ byte = 125 →
      digitValue 10 byte = none ∧ toLower byte ≠ 101 ∧ byte ≠ 46 := by
  rintro byte (rfl | rfl)
  · exact ⟨rfl, by decide, by decide⟩
  · exact ⟨rfl, by decide, by decide⟩

theorem isNumeral_formatFixed
    {places : Nat} (positive : 0 < places) (negative : Bool)
    (magnitude : ℚ≥0) :
    IsNumeral (formatFixed places (.finite negative magnitude))
      (fixedNumber places negative magnitude) := by
  rintro rest ⟨byte, later, rfl, ends⟩
  rcases endsNumber_plain byte ends with ⟨noDigit, noExponent, _⟩
  have nonempty :
      lastDigits places (toUnits places magnitude) ≠ [] := by
    apply List.ne_nil_of_length_pos
    rwa [lastDigits_length]
  exact JsonNumber.scanNumber_decimals negative _ nonempty
    (lastDigits_small _ _) noDigit noExponent later

theorem isNumeral_decimal (n : Nat) :
    IsNumeral (decimal n) (wholeNumber n) := by
  rintro rest ⟨byte, later, rfl, ends⟩
  rcases endsNumber_plain byte ends with ⟨noDigit, noExponent, noPoint⟩
  have sign :
      scanSign (decimal n ++ byte :: later) =
        (false, decimal n ++ byte :: later) := scanSign_decimal n _
  have run :
      JsonNumber.digitRun (decimal n ++ byte :: later) =
        (digits n, byte :: later) := by
    rw [JsonNumber.digitRun, sign]
    exact scan_digits (digits_small n) (ends_cons noDigit)
  have noPlus : (decimal n ++ byte :: later).head? ≠ some 43 := by
    rcases exists_digits_eq_cons n with ⟨first, smallFirst, more, printed, _⟩
    have notPlus := (digitByte_plain first smallFirst).2.1
    simp [decimal, printed, notPlus]
  have fraction :
      JsonNumber.scanFraction (byte :: later) = ([], byte :: later) := by
    rw [JsonNumber.scanFraction]
    intro other same
    exact noPoint (List.cons.inj same).1
  rw [JsonNumber.scanNumber_of_whole noPlus run (digits_ne_nil n)
    (JsonNumber.digits_canonical n), sign, fraction]
  simp only [scanExponent, if_neg noExponent]
  rfl

/-- An infinity and a NaN are no numbers of JSON. -/
theorem isWord_formatFixed (places : Nat) {number : Double}
    (notFinite : ¬ number.IsFinite) : IsWord (formatFixed places number) := by
  cases number with
  | finite negative magnitude =>
      exact absurd ⟨negative, magnitude, rfl⟩ notFinite
  | nan =>
      rintro (_ | steps) rest
      · rw [Json.parseValue]
      · rfl
  | infinite negative =>
      cases negative with
      | false =>
          rintro (_ | steps) rest
          · rw [Json.parseValue]
          · rfl
      | true =>
          rintro (_ | steps) rest
          · rw [Json.parseValue]
          · rfl

/-- What the numeral of a finite number stands for. -/
theorem value_fixedNumber
    (places : Nat) (negative : Bool) (magnitude : ℚ≥0) :
    (fixedNumber places negative magnitude).value =
      Double.signed negative
        ((toUnits places magnitude : ℚ≥0) / 10 ^ places) := by
  have value :
      (fixedNumber places negative magnitude).magnitude =
        (toUnits places magnitude : ℚ≥0) / 10 ^ places := by
    rw [JsonNumber.magnitude]
    change scale 10 _ 0 = _
    rw [scale_zero, fixedNumber, positional_append, positional_digits,
      positional_lastDigits, lastDigits_length, Nat.div_add_mod']
    rfl
  rw [JsonNumber.value, value]
  cases negative <;> rfl

theorem value_wholeNumber (n : Nat) : (wholeNumber n).value = n := by
  have value : (wholeNumber n).magnitude = (n : ℚ≥0) := by
    rw [JsonNumber.magnitude]
    change scale 10 _ 0 = _
    rw [scale_zero, wholeNumber, List.append_nil, positional_digits,
      List.length_nil, pow_zero, div_one]
  rw [JsonNumber.value, value]
  rfl

/-! ## As members -/

theorem isMemberByte_of_isPrintedByte :
    ∀ byte, isPrintedByte byte = true → isMemberByte byte = true :=
  forall_byte (by decide +kernel)

theorem all_digits
    {digits : List Nat} (small : ∀ digit ∈ digits, digit < 10) :
    (digits.map digitByte).all isMemberByte = true :=
  List.all_eq_true.mpr fun byte member =>
    isMemberByte_of_isPrintedByte byte
      (isPrintedByte_of_mem_digits small member)

theorem all_decimal (n : Nat) : (decimal n).all isMemberByte = true :=
  all_digits (digits_small n)

theorem all_formatFixed (places : Nat) (number : Double) :
    (formatFixed places number).all isMemberByte = true := by
  have sign (negative : Bool) :
      (signBytes negative).all isMemberByte = true := by
    cases negative <;> decide +kernel
  cases number with
  | finite negative magnitude =>
      simp only [formatFixed, List.all_append, List.all_cons, sign,
        all_decimal, all_digits (lastDigits_small _ _), Bool.and_true]
      decide
  | infinite negative =>
      rw [formatFixed, List.all_append, sign, Bool.true_and]
      decide +kernel
  | nan =>
      rw [formatFixed]
      decide +kernel

/-- An integer under a plain name. -/
theorem isField_decimal
    {name : Bytes} (plain : name.all Json.isPlain = true)
    (small : name.all isMemberByte = true) (n : Nat) :
    IsField (name, decimal n) where
  plain := plain
  name := small
  text := all_decimal n
  kind := Or.inl ⟨_, isNumeral_decimal n⟩

/-- A number under a plain name. -/
theorem isField_formatFixed
    {name : Bytes} (plain : name.all Json.isPlain = true)
    (small : name.all isMemberByte = true) {places : Nat}
    (positive : 0 < places) (number : Double) :
    IsField (name, formatFixed places number) where
  plain := plain
  name := small
  text := all_formatFixed places number
  kind := by
    by_cases finite : number.IsFinite
    · rcases finite with ⟨negative, magnitude, rfl⟩
      exact Or.inl ⟨_, isNumeral_formatFixed positive negative magnitude⟩
    · exact Or.inr (isWord_formatFixed places finite)

/-! ## The length -/

/-- A magnitude that is below a power of ten is printed with so many digits. -/
theorem length_formatFixed_le
    (places : Nat) {negative : Bool} {magnitude : ℚ≥0} {width bound : Nat}
    (positive : 0 < width) (bounded : magnitude ≤ bound)
    (below : bound < 10 ^ width) :
    (formatFixed places (.finite negative magnitude)).length ≤
      width + places + 2 := by
  have scaled :
      magnitude * 10 ^ places ≤ ((bound * 10 ^ places : Nat) : ℚ≥0) := by
    rw [Nat.cast_mul, Nat.cast_pow, Nat.cast_ofNat]
    exact mul_le_mul_left bounded _
  have units : toUnits places magnitude / 10 ^ places ≤ bound :=
    Nat.div_le_of_le_mul (by
      rw [Nat.mul_comm]
      exact roundHalfEven_le scaled)
  have whole :=
    length_decimal_le positive (Nat.lt_of_le_of_lt units below)
  have sign : (signBytes negative).length ≤ 1 := by
    cases negative <;> decide
  simp only [formatFixed, List.length_append, List.length_cons,
    List.length_map, lastDigits_length]
  omega

/-! ## What is read -/

/-- A printed number is off by half of its last decimal at most. -/
theorem abs_value_fixedNumber_sub_le
    (places : Nat) (negative : Bool) (magnitude : ℚ≥0) :
    |(fixedNumber places negative magnitude).value -
        Double.signed negative magnitude| ≤ 1 / 2 / 10 ^ places := by
  have power : (0 : ℚ) < 10 ^ places := by positivity
  have near := abs_roundHalfEven_sub_le (magnitude * 10 ^ places)
  have distance :
      |((toUnits places magnitude : ℚ≥0) / 10 ^ places : ℚ≥0) -
          (magnitude : ℚ)| ≤ 1 / 2 / 10 ^ places := by
    rw [le_div_iff₀ power]
    calc
      _ = |(((toUnits places magnitude : ℚ≥0) / 10 ^ places : ℚ≥0) -
            (magnitude : ℚ)) * 10 ^ places| := by
        rw [abs_mul, abs_of_pos power]
      _ = |(roundHalfEven (magnitude * 10 ^ places) : ℚ) -
            ((magnitude * 10 ^ places : ℚ≥0) : ℚ)| := by
        push_cast [toUnits]
        congr 1
        field_simp
      _ ≤ 1 / 2 := near
  rw [value_fixedNumber, Double.signed, Double.signed]
  cases negative with
  | false => exact distance
  | true =>
      simp only [if_true, neg_sub_neg]
      rw [abs_sub_comm]
      exact distance

/-! ## Objects of numbers -/

/-- A member with an integer, or with a number of so many decimals. -/
inductive Member
  | whole (name : Bytes) (n : Nat)
  | fixed (name : Bytes) (places : Nat) (number : Double)

namespace Member

/-- The name and the printed number. -/
def field : Member → Bytes × Bytes
  | whole name n => (name, decimal n)
  | fixed name places number => (name, formatFixed places number)

def hasDecimals : Member → Bool
  | whole _ _ => true
  | fixed _ places _ => 0 < places

/-- The member can be told from what follows. -/
def proper (member : Member) : Bool :=
  member.field.1.all Json.isPlain && member.field.1.all isMemberByte &&
    member.hasDecimals

theorem proper_iff (member : Member) :
    member.proper = true ↔
      member.field.1.all Json.isPlain = true ∧
        member.field.1.all isMemberByte = true ∧
          member.hasDecimals = true := by
  rw [proper, Bool.and_eq_true, Bool.and_eq_true, and_assoc]

/-- JSON can spell the number. -/
def IsNumber : Member → Prop
  | whole _ _ => True
  | fixed _ _ number => number.IsFinite

/-- The number that was read is the one that was printed, up to half of the
last decimal. -/
def ReadAs : Member → JsonNumber → Prop
  | whole _ n, read => read.value = n
  | fixed _ places number, read =>
      ∃ negative magnitude,
        number = .finite negative magnitude ∧
          |read.value - Double.signed negative magnitude| ≤
            1 / 2 / 10 ^ places

theorem isField_field {member : Member} (isProper : member.proper = true) :
    IsField member.field := by
  rcases (proper_iff member).mp isProper with ⟨plain, small, decimals⟩
  cases member with
  | whole name n => exact isField_decimal plain small n
  | fixed name places number =>
      exact isField_formatFixed plain small (of_decide_eq_true decimals) number

theorem exists_readAs
    {member : Member} (isProper : member.proper = true)
    (isNumber : member.IsNumber) :
    ∃ read, IsNumeral member.field.2 read ∧ member.ReadAs read := by
  rcases (proper_iff member).mp isProper with ⟨_, _, decimals⟩
  cases member with
  | whole name n => exact ⟨_, isNumeral_decimal n, value_wholeNumber n⟩
  | fixed name places number =>
      rcases isNumber with ⟨negative, magnitude, rfl⟩
      exact ⟨_,
        isNumeral_formatFixed (of_decide_eq_true decimals) negative magnitude,
        _, _, rfl, abs_value_fixedNumber_sub_le places negative magnitude⟩

theorem isNumber_of_isNumeral
    {member : Member} {read : JsonNumber}
    (numeral : IsNumeral member.field.2 read) : member.IsNumber := by
  cases member with
  | whole name n => trivial
  | fixed name places number =>
      by_contra notFinite
      exact (isWord_formatFixed places notFinite).not_isNumeral read numeral

end Member

/-- The text is an object with these members, each with its number. -/
def ReadsAs (text kind : Bytes) (members : List Member) : Prop :=
  ∃ numbers,
    Json.IsText text
        (Json.typedObject kind (members.map fun member => member.field.1)
          numbers) ∧
      List.Forall₂ Member.ReadAs members numbers

theorem exists_allRead
    {members : List Member} (allProper : members.all Member.proper = true)
    (isNumber : ∀ member ∈ members, member.IsNumber) :
    ∃ numbers,
      List.Forall₂ (fun field number => IsNumeral field.2 number)
          (members.map Member.field) numbers ∧
        List.Forall₂ Member.ReadAs members numbers := by
  induction members with
  | nil => exact ⟨[], .nil, .nil⟩
  | cons member more induction =>
      rw [List.all_cons, Bool.and_eq_true] at allProper
      rcases List.forall_mem_cons.mp isNumber with ⟨here, later⟩
      rcases Member.exists_readAs allProper.1 here with ⟨number, numeral, read⟩
      rcases induction allProper.2 later with ⟨numbers, numerals, allRead⟩
      exact ⟨number :: numbers, .cons numeral numerals, .cons read allRead⟩

/-- An object that fits into its buffer with numbers only is read as what it
was printed from. -/
theorem readsAs_take
    {kind : Bytes} (kindPlain : kind.all Json.isPlain = true)
    (kindSmall : kind.all isMemberByte = true) {members : List Member}
    (nonempty : members ≠ []) (allProper : members.all Member.proper = true)
    (isNumber : ∀ member ∈ members, member.IsNumber) {room : Nat}
    (fits : (Json.typedText kind (members.map Member.field)).length ≤ room) :
    ReadsAs ((Json.typedText kind (members.map Member.field)).take room) kind
      members := by
  have isField : ∀ field ∈ members.map Member.field, IsField field :=
    List.forall_mem_map.mpr fun member inMembers =>
      Member.isField_field (List.all_eq_true.mp allProper member inMembers)
  rcases exists_allRead allProper isNumber with ⟨numbers, numerals, allRead⟩
  have text :=
    Json.isText_typedText kindPlain numerals
      (fun field member => (isField field member).plain)
      (by simpa using nonempty) (Json.typedText_small kindSmall isField)
  rw [List.map_map] at text
  rw [List.take_of_length_le fits]
  exact ⟨numbers, text, allRead⟩

/-- Otherwise it is no text of JSON. -/
theorem isText_take_members_iff
    {kind : Bytes} (kindPlain : kind.all Json.isPlain = true)
    (kindSmall : kind.all isMemberByte = true) {members : List Member}
    (nonempty : members ≠ []) (allProper : members.all Member.proper = true)
    {room : Nat} (positive : 0 < room) :
    (∃ value,
      Json.IsText ((Json.typedText kind (members.map Member.field)).take room)
        value) ↔
      (Json.typedText kind (members.map Member.field)).length ≤ room ∧
        ∀ member ∈ members, member.IsNumber := by
  constructor
  · intro isText
    rw [Json.isText_take_iff kindPlain kindSmall (by simpa using nonempty)
      (List.forall_mem_map.mpr fun member inMembers =>
        Member.isField_field (List.all_eq_true.mp allProper member inMembers))
      positive] at isText
    refine ⟨isText.1, fun member inMembers => ?_⟩
    rcases isText.2 _ (List.mem_map_of_mem inMembers) with ⟨read, numeral⟩
    exact Member.isNumber_of_isNumeral numeral
  · rintro ⟨fits, isNumber⟩
    rcases readsAs_take kindPlain kindSmall nonempty allProper isNumber
      fits with ⟨numbers, text, _⟩
    exact ⟨_, text⟩

end AccelObserver.Library.FixedFormat
