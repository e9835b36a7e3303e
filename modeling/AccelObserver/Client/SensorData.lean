import AccelObserver.Library.CNumber
import AccelObserver.Library.FlatObject

/-!
# Sensor packets as JSON

`sensor_to_json` prints a packet into a buffer of the caller.  The text is that
of a flat object with five members.
-/

namespace AccelObserver.Client.SensorData

open AccelObserver.Library
open AccelObserver.Library.CNumber
open AccelObserver.Library.Decimal

structure SensorPacket where
  timestampMs : UInt64
  sequenceId : UInt32
  accX : Double
  accY : Double
  accZ : Double

/-- What `snprintf` makes of the format of `sensor_to_json`. -/
def jsonText (pkt : SensorPacket) : Bytes :=
  ascii "\x7b\"ts\":" ++ decimal pkt.timestampMs.toNat ++
    ascii ",\"seq\":" ++ decimal pkt.sequenceId.toNat ++
    ascii ",\"ax\":" ++ formatFixed6 pkt.accX ++
    ascii ",\"ay\":" ++ formatFixed6 pkt.accY ++
    ascii ",\"az\":" ++ formatFixed6 pkt.accZ ++ ascii "\x7d"

/-- `sensor_to_json`: the text and its terminator have to fit the buffer. -/
def sensorToJson (pkt : SensorPacket) (bufSize : Nat) : Option Bytes :=
  if bufSize = 0 then none
  else if bufSize ≤ (jsonText pkt).length then none
  else some (jsonText pkt)

theorem sensorToJson_eq_some
    {pkt : SensorPacket} {bufSize : Nat}
    (fits : (jsonText pkt).length < bufSize) :
    sensorToJson pkt bufSize = some (jsonText pkt) := by
  have positive : bufSize ≠ 0 := by omega
  rw [sensorToJson, if_neg positive, if_neg (Nat.not_le.mpr fits)]

/-- The members of the object. -/
def members (pkt : SensorPacket) : List (Bytes × Bytes) :=
  [(ascii "ts", decimal pkt.timestampMs.toNat),
    (ascii "seq", decimal pkt.sequenceId.toNat),
    (ascii "ax", formatFixed6 pkt.accX),
    (ascii "ay", formatFixed6 pkt.accY),
    (ascii "az", formatFixed6 pkt.accZ)]

theorem jsonText_eq (pkt : SensorPacket) :
    jsonText pkt = FlatObject.text (members pkt) := by
  simp [jsonText, members, FlatObject.text, FlatObject.textFrom,
    FlatObject.member, ascii]

/-- Printed integers hold no quotation mark. -/
theorem unquoted_decimal (n : Nat) : FlatObject.Unquoted (decimal n) :=
  not_mem_digits (by decide) (digits_small n)

/-- Nor do printed axes. -/
theorem unquoted_formatFixed6 (number : Double) :
    FlatObject.Unquoted (formatFixed6 number) := by
  have noSign (negative : Bool) : (34 : UInt8) ∉ signBytes negative := by
    cases negative <;> decide
  cases number with
  | finite negative magnitude =>
      have whole := unquoted_decimal (toMillionths magnitude / 10 ^ 6)
      have fraction : (34 : UInt8) ∉
          (lastDigits 6 (toMillionths magnitude)).map digitByte :=
        not_mem_digits (by decide) (lastDigits_small _ _)
      simp only [FlatObject.Unquoted, formatFixed6, fixed6, List.mem_append,
        List.mem_cons, not_or]
      exact ⟨noSign negative, whole, by decide, fraction⟩
  | infinite negative =>
      simp only [FlatObject.Unquoted, formatFixed6, List.mem_append, not_or]
      exact ⟨noSign negative, by decide⟩
  | nan => decide

/-- Every member of the object is unquoted. -/
theorem members_unquoted (pkt : SensorPacket) :
    ∀ entry ∈ members pkt,
      FlatObject.Unquoted entry.1 ∧ FlatObject.Unquoted entry.2 := by
  simp only [members, List.forall_mem_cons, List.not_mem_nil, false_implies,
    implies_true, and_true]
  refine ⟨⟨?_, unquoted_decimal _⟩, ⟨?_, unquoted_decimal _⟩,
    ⟨?_, unquoted_formatFixed6 _⟩, ⟨?_, unquoted_formatFixed6 _⟩,
    ⟨?_, unquoted_formatFixed6 _⟩⟩
  all_goals decide

/-- What stands behind a printed number ends it. -/
theorem endsNumeral_textFrom (entries : List (Bytes × Bytes)) :
    EndsNumeral (FlatObject.textFrom 44 entries) := by
  cases entries with
  | nil => exact ⟨ends_cons (by decide), rfl⟩
  | cons entry more =>
      exact ⟨ends_cons (by decide), by simp [FlatObject.textFrom,
        scanExponent, toLower]⟩

end AccelObserver.Client.SensorData
