import AccelObserver.Library.IntegerTexts
import AccelObserver.Server.CliArgs
import AccelObserver.Shared.ConfReaders

/-!
# Numbers that are exact or ignored

A number in a document or on the command line should be used as it is written,
or not at all.  The readers convert to 64 bits and cut what they get to their
own width, and only `conf_get_uint16` looks at the result; the document is
also read with base 0, where a leading zero means an octal numeral.
-/

namespace AccelObserver.Server.NumberReaders

open AccelObserver.Library
open AccelObserver.Library.CNumber (Conversion)
open AccelObserver.Library.Decimal
open AccelObserver.Library.IntegerText
open AccelObserver.Shared.ConfParser
open AccelObserver.Shared.ConfReaders
open AccelObserver.Server.CliArgs

/-! ## What is meant -/

/-- The number has an unsigned representation of that width. -/
def Fits (width : Nat) (n : ℤ) : Prop :=
  0 ≤ n ∧ n < 2 ^ width

instance (width : Nat) (n : ℤ) : Decidable (Fits width n) :=
  inferInstanceAs (Decidable (_ ∧ _))

/-- A reader gives the number where it fits, and the fallback elsewhere. -/
def Exact {Value : Type} (width : Nat) (ofNat : Nat → Value) (n : ℤ)
    (read : Value → Value) : Prop :=
  ∀ fallback, read fallback = if Fits width n then ofNat n.toNat else fallback

/-- The value of the key is the text of the number. -/
def Spelled (conf : ConfResult) (sectionName key : Bytes)
    (numeral : IntegerText) : Prop :=
  ∃ e, findEntry conf sectionName key = some e ∧ e.value = numeral.text

/-- `parse_size` gives the number, or the 0 that means to ignore it. -/
def ParseSizeExact (numeral : IntegerText) : Prop :=
  parseSize numeral.text =
    if 1 ≤ numeral.number ∧ numeral.number < 2 ^ 64 then
      UInt64.ofNat numeral.number.toNat
    else 0

/-- The low 32 bits of a `long` are not a number of 16 bits. -/
def Noticed (n : ℤ) : Prop :=
  2 ^ 16 ≤ saturated n % 2 ^ 32

instance (n : ℤ) : Decidable (Noticed n) :=
  inferInstanceAs (Decidable (_ ≤ _))

/-! ## Readers that do not look at the result -/

/-- A constant is exact only where it is the number. -/
theorem exact_const_iff
    {Value : Type} {zero one : Value} (distinct : zero ≠ one)
    {width : Nat} {ofNat : Nat → Value} {n : ℤ} {value : Value} :
    Exact width ofNat n (fun _ => value) ↔
      Fits width n ∧ value = ofNat n.toNat := by
  constructor
  · intro exact
    by_cases fits : Fits width n
    · have here := exact value
      rw [if_pos fits] at here
      exact ⟨fits, here⟩
    · have same (fallback : Value) : value = fallback := by
        have here := exact fallback
        rwa [if_neg fits] at here
      exact absurd ((same zero).symm.trans (same one)) distinct
  · rintro ⟨fits, same⟩ fallback
    rw [if_pos fits, same]

section Readers

variable {conf : ConfResult} {sectionName key : Bytes}
  {numeral : IntegerText}

theorem readValue_of_spelled
    (spelled : Spelled conf sectionName key numeral) {Value : Type}
    (convert : Bytes → Option (Conversion Value)) :
    readValue convert conf sectionName key =
      (convert numeral.text).map Conversion.value := by
  rcases spelled with ⟨e, found, value⟩
  simp only [readValue, found, value, if_neg numeral.text_ne_nil]
  cases convert numeral.text <;> rfl

/-- What fits is read with the base-0 value of its digits. -/
theorem unsignedLong_of_fits
    {width : Nat} (narrow : width ≤ 64) (fits : Fits width numeral.number) :
    unsignedLong numeral.negative (prefixedValue numeral.digits) =
        UInt64.ofNat (prefixedValue numeral.digits) ∧
      prefixedValue numeral.digits ≤ positional 10 numeral.digits ∧
      positional 10 numeral.digits < 2 ^ width := by
  have lower := prefixedValue_le numeral.digits
  have bounded : positional 10 numeral.digits < 2 ^ width := by
    have value := Int.toNat_of_nonneg fits.1
    rw [toNat_number fits.1] at value
    have below := fits.2
    rw [← value] at below
    exact_mod_cast below
  have wide : 2 ^ width ≤ 2 ^ 64 := Nat.pow_le_pow_right (by decide) narrow
  exact
    ⟨unsignedLong_of_nonneg fits.1 lower
        (lower.trans_lt (bounded.trans_le wide)),
      lower, bounded⟩

theorem confGetUint32_exact_iff
    (spelled : Spelled conf sectionName key numeral) :
    Exact 32 UInt32.ofNat numeral.number
        (confGetUint32 conf sectionName key) ↔
      Fits 32 numeral.number ∧ numeral.Plain := by
  have constant :
      confGetUint32 conf sectionName key =
        fun _ =>
          (unsignedLong numeral.negative
            (prefixedValue numeral.digits)).toUInt32 := by
    funext fallback
    rw [confGetUint32, readValue_of_spelled spelled, numeral.strtoul_text]
  have distinct : (0 : UInt32) ≠ 1 := by decide
  rw [constant, exact_const_iff distinct]
  refine and_congr_right fun fits => ?_
  rcases unsignedLong_of_fits (by decide) fits with ⟨read, lower, bounded⟩
  have below : prefixedValue numeral.digits < 2 ^ 32 :=
    lower.trans_lt bounded
  have belowLong : prefixedValue numeral.digits < 2 ^ 64 :=
    below.trans (by decide)
  rw [read, toNat_number fits.1, ← numeral.prefixedValue_eq_iff,
    ← UInt32.toNat_inj, UInt64.toNat_toUInt32,
    UInt64.toNat_ofNat_of_lt' belowLong,
    UInt32.toNat_ofNat_of_lt' bounded, Nat.mod_eq_of_lt below]

theorem confGetSize_exact_iff
    (spelled : Spelled conf sectionName key numeral) :
    Exact 64 UInt64.ofNat numeral.number (confGetSize conf sectionName key) ↔
      Fits 64 numeral.number ∧ numeral.Plain := by
  have constant :
      confGetSize conf sectionName key =
        fun _ =>
          unsignedLong numeral.negative (prefixedValue numeral.digits) := by
    funext fallback
    rw [confGetSize, readValue_of_spelled spelled]
    have read := numeral.strtoul_text
    rw [← CInteger.strtoull] at read
    rw [read]
  have distinct : (0 : UInt64) ≠ 1 := by decide
  rw [constant, exact_const_iff distinct]
  refine and_congr_right fun fits => ?_
  rcases unsignedLong_of_fits (by decide) fits with ⟨read, lower, bounded⟩
  rw [read, toNat_number fits.1, ← numeral.prefixedValue_eq_iff,
    ← UInt64.toNat_inj, UInt64.toNat_ofNat_of_lt' (lower.trans_lt bounded),
    UInt64.toNat_ofNat_of_lt' bounded]

/-! ## The reader that looks at 32 bits -/

/-- The check of the `int` sees the low 32 bits. -/
theorem bmod_outside_iff (n : ℤ) :
    n.bmod (2 ^ 32) < 0 ∨ 65535 < n.bmod (2 ^ 32) ↔ 2 ^ 16 ≤ n % 2 ^ 32 := by
  have lower := Int.emod_nonneg n (by decide : (2 ^ 32 : ℤ) ≠ 0)
  have upper := Int.emod_lt_of_pos n (by decide : (0 : ℤ) < 2 ^ 32)
  rw [Int.bmod_def]
  split_ifs with half
  · omega
  · omega

theorem confGetUint16_eq
    (spelled : Spelled conf sectionName key numeral) (fallback : UInt16) :
    confGetUint16 conf sectionName key fallback =
      if Noticed numeral.prefixedNumber then fallback
      else
        UInt16.ofNat
          ((saturated numeral.prefixedNumber).bmod (2 ^ 32)).toNat := by
  have int :
      confGetInt conf sectionName key fallback.toNat =
        (saturated numeral.prefixedNumber).bmod (2 ^ 32) := by
    rw [confGetInt, readValue_of_spelled spelled, numeral.strtol_text]
  simp only [confGetUint16, int, bmod_outside_iff]
  rfl

/-- A number that fits is not noticed. -/
theorem bmod_of_fits (fits : Fits 16 numeral.number) :
    (saturated numeral.prefixedNumber).bmod (2 ^ 32) =
        prefixedValue numeral.digits ∧
      ¬ Noticed numeral.prefixedNumber := by
  rcases unsignedLong_of_fits (by decide) fits with ⟨_, lower, bounded⟩
  rw [numeral.prefixedNumber_of_nonneg fits.1]
  have unchanged :
      saturated (prefixedValue numeral.digits) =
        prefixedValue numeral.digits := by
    rw [saturated, if_neg (by omega), if_neg (by omega)]
  rw [Noticed, unchanged]
  have remainder :
      (prefixedValue numeral.digits : ℤ) % 2 ^ 32 =
        prefixedValue numeral.digits :=
    Int.emod_eq_of_lt (by omega) (by omega)
  constructor
  · rw [Int.bmod_def]
    split_ifs <;> omega
  · omega

theorem confGetUint16_exact_iff
    (spelled : Spelled conf sectionName key numeral) :
    Exact 16 UInt16.ofNat numeral.number
        (confGetUint16 conf sectionName key) ↔
      (Fits 16 numeral.number ∧ numeral.Plain) ∨
        (¬ Fits 16 numeral.number ∧ Noticed numeral.prefixedNumber) := by
  have distinct : (0 : UInt16) ≠ 1 := by decide
  have read := funext (confGetUint16_eq spelled)
  by_cases noticed : Noticed numeral.prefixedNumber
  · have tooLarge : ¬ Fits 16 numeral.number := fun fits =>
      (bmod_of_fits fits).2 noticed
    simp [read, Exact, tooLarge, noticed]
  · simp only [if_neg noticed] at read
    rw [read, exact_const_iff distinct, or_iff_left fun other =>
      noticed other.2]
    refine and_congr_right fun fits => ?_
    rcases unsignedLong_of_fits (by decide) fits with ⟨_, lower, bounded⟩
    rw [(bmod_of_fits fits).1, Int.toNat_natCast, toNat_number fits.1,
      ← numeral.prefixedValue_eq_iff, ← UInt16.toNat_inj,
      UInt16.toNat_ofNat_of_lt' (lower.trans_lt bounded),
      UInt16.toNat_ofNat_of_lt' bounded]

end Readers

/-! ## The command line -/

theorem parseSize_text (numeral : IntegerText) :
    parseSize numeral.text =
      unsignedLong numeral.negative (positional 10 numeral.digits) := by
  rcases numeral.strtoull_text with ⟨erange, read⟩
  rw [parseSize, if_neg numeral.text_ne_nil, read]
  simp only [ne_eq, not_true_eq_false, false_or]
  split_ifs with zero
  · exact zero.symm
  · rfl

theorem parseSize_exact_iff (numeral : IntegerText) :
    ParseSizeExact numeral ↔ Fits 64 numeral.number := by
  rw [ParseSizeExact, parseSize_text, Fits]
  rcases lt_or_ge numeral.number 0 with below | nonnegative
  · rw [if_neg (by omega)]
    have nonzero := unsignedLong_ne_zero below
    constructor
    · intro zero
      exact absurd zero nonzero
    · rintro ⟨nonnegative, _⟩
      omega
  · have value := toNat_number nonnegative
    by_cases bounded : numeral.number < 2 ^ 64
    · rw [unsignedLong_of_nonneg nonnegative le_rfl (by omega)]
      simp only [nonnegative, bounded, and_true, iff_true]
      split_ifs with positive
      · rw [value]
      · rw [show positional 10 numeral.digits = 0 by omega]
        rfl
    · rw [if_neg (by omega), unsignedLong, if_neg (by omega)]
      constructor
      · intro zero
        exact absurd zero (by decide)
      · rintro ⟨_, below⟩
        exact absurd below bounded

/-! ## All readers -/

/--
When each reader gives the number that is written, or ignores it.  Nothing but
`conf_get_uint16` ever ignores one, and it does where it sees low bits that
are out of range.
-/
theorem readers_exact_iff
    (numeral : IntegerText) {conf : ConfResult} {sectionName key : Bytes}
    (spelled : Spelled conf sectionName key numeral) :
    (Exact 16 UInt16.ofNat numeral.number
          (confGetUint16 conf sectionName key) ↔
        (Fits 16 numeral.number ∧ numeral.Plain) ∨
          (¬ Fits 16 numeral.number ∧ Noticed numeral.prefixedNumber)) ∧
      (Exact 32 UInt32.ofNat numeral.number
          (confGetUint32 conf sectionName key) ↔
        Fits 32 numeral.number ∧ numeral.Plain) ∧
      (Exact 64 UInt64.ofNat numeral.number
          (confGetSize conf sectionName key) ↔
        Fits 64 numeral.number ∧ numeral.Plain) ∧
      (ParseSizeExact numeral ↔ Fits 64 numeral.number) :=
  ⟨confGetUint16_exact_iff spelled, confGetUint32_exact_iff spelled,
    confGetSize_exact_iff spelled, parseSize_exact_iff numeral⟩

/-- The text `4294967376`, which is 80 more than `2 ^ 32`. -/
def wideText : IntegerText where
  blanks := []
  sign := none
  digits := [4, 2, 9, 4, 9, 6, 7, 3, 7, 6]
  blank := by simp
  nonempty := by decide
  small := by decide

/-- A document with this number as the port. -/
def widePort : ConfResult :=
  { confAlloc with
    entries :=
      [{ sectionName := ascii "connection", key := ascii "port"
         value := wideText.text, lineN := 2 }]
    filled_le := by decide }

/-- The number is too large for two of the readers. -/
theorem readers_exact_iff_widePort :
    (Exact 16 UInt16.ofNat wideText.number
          (confGetUint16 widePort (ascii "connection") (ascii "port")) ↔
        (Fits 16 wideText.number ∧ wideText.Plain) ∨
          (¬ Fits 16 wideText.number ∧ Noticed wideText.prefixedNumber)) ∧
      (Exact 32 UInt32.ofNat wideText.number
          (confGetUint32 widePort (ascii "connection") (ascii "port")) ↔
        Fits 32 wideText.number ∧ wideText.Plain) ∧
      (Exact 64 UInt64.ofNat wideText.number
          (confGetSize widePort (ascii "connection") (ascii "port")) ↔
        Fits 64 wideText.number ∧ wideText.Plain) ∧
      (ParseSizeExact wideText ↔ Fits 64 wideText.number) :=
  readers_exact_iff wideText ⟨_, rfl, rfl⟩

/-- It is taken for port 80 where it should be ignored. -/
theorem widePort_not_exact :
    ¬ ∀ (numeral : IntegerText) (conf : ConfResult)
        (sectionName key : Bytes), Spelled conf sectionName key numeral →
        Exact 16 UInt16.ofNat numeral.number
            (confGetUint16 conf sectionName key) ∧
          Exact 32 UInt32.ofNat numeral.number
            (confGetUint32 conf sectionName key) ∧
          Exact 64 UInt64.ofNat numeral.number
            (confGetSize conf sectionName key) ∧
          ParseSizeExact numeral := by
  intro always
  have spelled :
      Spelled widePort (ascii "connection") (ascii "port") wideText :=
    ⟨_, rfl, rfl⟩
  have port := (always _ _ _ _ spelled).1 1883
  have read :
      confGetUint16 widePort (ascii "connection") (ascii "port") 1883 =
        80 := by
    decide +kernel
  have ignored : ¬ Fits 16 wideText.number := by decide +kernel
  rw [read, if_neg ignored] at port
  exact absurd port (by decide)

end AccelObserver.Server.NumberReaders
