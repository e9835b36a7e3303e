import AccelObserver.Library.CInteger
import AccelObserver.Shared.ConfParser

/-!
# Reading typed values

The readers `conf_get_int` to `conf_get_size` of `confparser.h`.  They look
an entry up, convert its value, and give the fallback where there is no entry,
its value is empty, or nothing can be converted.
-/

namespace AccelObserver.Shared.ConfReaders

open AccelObserver.Library
open AccelObserver.Library.CString
open AccelObserver.Library.CInteger (SpellsInteger)
open AccelObserver.Library.CNumber (Conversion)
open AccelObserver.Shared.ConfParser

/-! ## Numbers -/

/-- The number that a value holds, if there is one. -/
def readValue {Value : Type} (convert : Bytes → Option (Conversion Value))
    (conf : ConfResult) (sectionName key : Bytes) : Option Value :=
  match findEntry conf sectionName key with
  | none => none
  | some e =>
      if e.value = [] then none
      else
        match convert e.value with
        | none => none
        | some conversion => some conversion.value

/-- `conf_get_int`; a `long` is cut to the 32 bits of an `int`. -/
def confGetInt
    (conf : ConfResult) (sectionName key : Bytes) (fallback : ℤ) : ℤ :=
  match readValue CInteger.strtol conf sectionName key with
  | none => fallback
  | some v => v.bmod (2 ^ 32)

/-- `conf_get_double` -/
def confGetDouble
    (conf : ConfResult) (sectionName key : Bytes) (fallback : Double) :
    Double :=
  match readValue CNumber.strtod conf sectionName key with
  | none => fallback
  | some v => v

/-- `conf_get_uint16` -/
def confGetUint16
    (conf : ConfResult) (sectionName key : Bytes) (fallback : UInt16) :
    UInt16 :=
  let v := confGetInt conf sectionName key fallback.toNat
  if v < 0 ∨ 65535 < v then fallback else UInt16.ofNat v.toNat

/-- `conf_get_uint32` -/
def confGetUint32
    (conf : ConfResult) (sectionName key : Bytes) (fallback : UInt32) :
    UInt32 :=
  match readValue CInteger.strtoul conf sectionName key with
  | none => fallback
  | some v => v.toUInt32

/-- `conf_get_size` -/
def confGetSize
    (conf : ConfResult) (sectionName key : Bytes) (fallback : UInt64) :
    UInt64 :=
  match readValue CInteger.strtoull conf sectionName key with
  | none => fallback
  | some v => v

/-! ## Words -/

/-- The words for true. -/
def trueWords : List Bytes :=
  [ascii "true", ascii "yes", ascii "on", ascii "1"]

/-- The words for false. -/
def falseWords : List Bytes :=
  [ascii "false", ascii "no", ascii "off", ascii "0"]

/-- `conf_get_bool` -/
def confGetBool
    (conf : ConfResult) (sectionName key : Bytes) (fallback : Bool) : Bool :=
  match findEntry conf sectionName key with
  | none => fallback
  | some e =>
      if e.value = [] then fallback
      else
        let v := lower (copyInto 16 e.value)
        if v ∈ trueWords then true
        else if v ∈ falseWords then false
        else fallback

/-! ## What cannot be read gives the fallback -/

/-- A word for true or for false, in any case. -/
def SpellsBool (text : Bytes) : Prop :=
  lower text ∈ trueWords ++ falseWords

instance (text : Bytes) : Decidable (SpellsBool text) :=
  inferInstanceAs (Decidable (_ ∈ _))

/-- A text that begins with a floating-point numeral. -/
def SpellsNumber (text : Bytes) : Prop :=
  (CNumber.strtod text).isSome

instance (text : Bytes) : Decidable (SpellsNumber text) :=
  inferInstanceAs (Decidable (_ = true))

/-- No entry for the key, or one whose value is not of the kind. -/
def Unread (spells : Bytes → Prop) (conf : ConfResult)
    (sectionName key : Bytes) : Prop :=
  ∀ e ∈ findEntry conf sectionName key, ¬ spells e.value

section Unread

variable {conf : ConfResult} {sectionName key : Bytes}

theorem readValue_of_unread
    {Value : Type} {convert : Bytes → Option (Conversion Value)}
    {spells : Bytes → Prop}
    (converts : ∀ text, ¬ spells text → convert text = none)
    (unread : Unread spells conf sectionName key) :
    readValue convert conf sectionName key = none := by
  rw [readValue]
  cases found : findEntry conf sectionName key with
  | none => rfl
  | some e =>
      simp only [converts e.value (unread e found), ite_self]

theorem confGetInt_of_unread
    (unread : Unread SpellsInteger conf sectionName key) (fallback : ℤ) :
    confGetInt conf sectionName key fallback = fallback := by
  rw [confGetInt,
    readValue_of_unread (fun _ => CInteger.strtol_of_not_spells) unread]

theorem confGetDouble_of_unread
    (unread : Unread SpellsNumber conf sectionName key) (fallback : Double) :
    confGetDouble conf sectionName key fallback = fallback := by
  rw [confGetDouble,
    readValue_of_unread (fun _ => Option.not_isSome_iff_eq_none.mp) unread]

theorem confGetUint16_of_unread
    (unread : Unread SpellsInteger conf sectionName key) (fallback : UInt16) :
    confGetUint16 conf sectionName key fallback = fallback := by
  rw [confGetUint16, confGetInt_of_unread unread]
  simp

theorem confGetUint32_of_unread
    (unread : Unread SpellsInteger conf sectionName key) (fallback : UInt32) :
    confGetUint32 conf sectionName key fallback = fallback := by
  rw [confGetUint32,
    readValue_of_unread (fun _ => CInteger.strtoul_of_not_spells) unread]

theorem confGetSize_of_unread
    (unread : Unread SpellsInteger conf sectionName key) (fallback : UInt64) :
    confGetSize conf sectionName key fallback = fallback := by
  rw [confGetSize,
    readValue_of_unread (fun _ => CInteger.strtoull_of_not_spells) unread]

/-- The 15 bytes that are compared hold every word. -/
theorem spellsBool_of_copy
    {text : Bytes}
    (word : lower (copyInto 16 text) ∈ trueWords ++ falseWords) :
    SpellsBool text := by
  have short : ∀ word ∈ trueWords ++ falseWords, word.length ≤ 5 := by decide
  have length := short _ word
  rw [lower, List.length_map, copyInto, List.length_take] at length
  have whole : copyInto 16 text = text :=
    List.take_of_length_le (by omega)
  rw [whole] at word
  exact word

theorem confGetBool_of_unread
    (unread : Unread SpellsBool conf sectionName key) (fallback : Bool) :
    confGetBool conf sectionName key fallback = fallback := by
  rw [confGetBool]
  cases found : findEntry conf sectionName key with
  | none => rfl
  | some e =>
      have noWord : lower (copyInto 16 e.value) ∉ trueWords ++ falseWords :=
        fun word => unread e found (spellsBool_of_copy word)
      rw [List.mem_append, not_or] at noWord
      simp only [if_neg noWord.1, if_neg noWord.2, ite_self]

end Unread

end AccelObserver.Shared.ConfReaders
