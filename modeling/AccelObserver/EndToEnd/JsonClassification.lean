import AccelObserver.EndToEnd.JsonRecords

/-!
# Every packet, encoded and parsed

What the validator makes of the text of any packet with finite axes, for any
buffer and any finite limit: which of the three verdicts it gives, and the
record that comes with the third.
-/

namespace AccelObserver.EndToEnd.JsonClassification

open AccelObserver.Library
open AccelObserver.Library.CNumber
open AccelObserver.Client.SensorData
open AccelObserver.Server
open AccelObserver.Server.PacketValidator
open AccelObserver.EndToEnd.JsonRecords

/-- A finite value of the type `double`. -/
def FiniteDouble (axis : Double) : Prop :=
  ∃ negative magnitude, axis = .finite negative magnitude ∧
    magnitude ≤ (largestDouble : ℚ≥0)

theorem FiniteDouble.readable {axis : Double} (finite : FiniteDouble axis) :
    Readable axis := by
  rcases finite with ⟨negative, magnitude, isFinite, representable⟩
  exact ⟨negative, magnitude, isFinite,
    lt_overflowBound_of_le_largestDouble representable⟩

theorem sixDecimals_ne_nan {axis : Double} (finite : FiniteDouble axis) :
    sixDecimals axis ≠ .nan := by
  rcases finite with ⟨negative, magnitude, rfl, _⟩
  simp [sixDecimals]

/-- No timestamp to be had: the packet has none and the server adds none. -/
def Unstamped (cfg : ValidatorConfig) (pkt : SensorPacket) : Prop :=
  pkt.timestampMs = 0 ∧ cfg.timesource = .external

/-- Some axis, with six decimals, is not within the limit. -/
def OutOfRange (cfg : ValidatorConfig) (pkt : SensorPacket) : Prop :=
  ∃ axis ∈ [pkt.accX, pkt.accY, pkt.accZ],
    ¬ Double.Within cfg.maxAccMs2 (sixDecimals axis)

instance (cfg : ValidatorConfig) (pkt : SensorPacket) :
    Decidable (Unstamped cfg pkt) :=
  inferInstanceAs (Decidable (_ ∧ _))

instance (cfg : ValidatorConfig) (pkt : SensorPacket) :
    Decidable (OutOfRange cfg pkt) :=
  inferInstanceAs (Decidable (∃ axis ∈ _, _))

/-- The record of an accepted packet; the clock stands in for a timestamp. -/
def acceptedRecord (clock : UInt64) (pkt : SensorPacket) : DataPacket :=
  { recordOf pkt with
    timestampMs := if pkt.timestampMs = 0 then clock else pkt.timestampMs }

/-- The verdict on the text of a packet. -/
def Classified (cfg : ValidatorConfig) (clock : UInt64) (pkt : SensorPacket)
    (parsed : ParsedPacket) : Prop :=
  if Unstamped cfg pkt then parsed.result = .missingFields
  else if OutOfRange cfg pkt then parsed.result = .outOfRange
  else parsed = { packet := acceptedRecord clock pkt, result := .ok }

/-- The timestamp that the parser takes. -/
theorem timestamp_jsonText
    {pkt : SensorPacket} (fields : ReadsBack pkt)
    (cfg : ValidatorConfig) (clock : UInt64) :
    timestamp cfg clock (jsonText pkt) =
      if Unstamped cfg pkt then none
      else
        some (if pkt.timestampMs = 0 then clock else pkt.timestampMs) := by
  simp only [timestamp, fields.ts]
  by_cases zero : pkt.timestampMs = 0
  · cases source : cfg.timesource <;> simp [Unstamped, zero, source]
  · simp [Unstamped, zero]

/-- A packet with a timestamp, or with the clock's, comes to the range check. -/
theorem parse_stamped
    {pkt : SensorPacket} (fields : ReadsBack pkt)
    {cfg : ValidatorConfig} (stamped : ¬ Unstamped cfg pkt)
    (clock : UInt64) (counter : UInt32) :
    parse cfg clock counter (jsonText pkt) =
      (checked cfg (acceptedRecord clock pkt), counter) := by
  simp only [parse, detectAndroidFormat_jsonText, Bool.false_eq_true,
    if_false, parseNative, timestamp_jsonText fields, if_neg stamped,
    sequenceNumber, fields.seq, fields.x, fields.y, fields.z]
  rfl

theorem parse_unstamped
    {pkt : SensorPacket} (fields : ReadsBack pkt)
    {cfg : ValidatorConfig} (unstamped : Unstamped cfg pkt)
    (clock : UInt64) (counter : UInt32) :
    (parse cfg clock counter (jsonText pkt)).1.result = .missingFields ∧
      (parse cfg clock counter (jsonText pkt)).2 = counter := by
  simp [parse, detectAndroidFormat_jsonText, parseNative,
    timestamp_jsonText fields, unstamped]

/-- The range check finds what is out of range. -/
theorem checked_classified
    {cfg : ValidatorConfig} (limitFinite : cfg.maxAccMs2.IsFinite)
    {pkt : SensorPacket}
    (finite : ∀ axis ∈ [pkt.accX, pkt.accY, pkt.accZ], FiniteDouble axis)
    (stamped : ¬ Unstamped cfg pkt) (clock : UInt64) :
    Classified cfg clock pkt (checked cfg (acceptedRecord clock pkt)) := by
  rcases limitFinite with ⟨negative, magnitude, limit⟩
  have limitNumber : cfg.maxAccMs2 ≠ .nan := by simp [limit]
  have valid :
      validateRange cfg (acceptedRecord clock pkt) = true ↔
        ¬ OutOfRange cfg pkt := by
    rw [RangeGate.validateRange_iff limitNumber]
    simp only [OutOfRange, not_exists, not_and, not_not]
    simp only [RangeGate.axes, acceptedRecord, recordOf,
      List.forall_mem_cons] at finite ⊢
    simp [sixDecimals_ne_nan finite.1, sixDecimals_ne_nan finite.2.1,
      sixDecimals_ne_nan finite.2.2.1]
  rw [Classified, if_neg stamped]
  split_ifs with out
  · have invalid :
        validateRange cfg (acceptedRecord clock pkt) ≠ true := fun passed =>
      valid.mp passed out
    rw [checked, if_neg invalid]
  · rw [checked, if_pos (valid.mpr out)]

/--
`sensor_to_json` fails exactly when the text and its terminator do not fit;
otherwise the parser classifies the packet, on the native path.
-/
theorem parse_classifies
    {pkt : SensorPacket}
    (finite : ∀ axis ∈ [pkt.accX, pkt.accY, pkt.accZ], FiniteDouble axis)
    {cfg : ValidatorConfig} (limitFinite : cfg.maxAccMs2.IsFinite)
    (bufSize : Nat) (clock : UInt64) (counter : UInt32) :
    (sensorToJson pkt bufSize = none ↔ bufSize < (jsonText pkt).length + 1) ∧
      ∀ text, sensorToJson pkt bufSize = some text →
        detectAndroidFormat text = false ∧
          Classified cfg clock pkt (parse cfg clock counter text).1 ∧
          (parse cfg clock counter text).2 = counter := by
  constructor
  · rw [sensorToJson]
    split_ifs <;> simp <;> omega
  · intro text printed
    obtain rfl : jsonText pkt = text := by
      rw [sensorToJson] at printed
      split_ifs at printed
      exact Option.some.inj printed
    have native := detectAndroidFormat_jsonText pkt
    have fields : ReadsBack pkt :=
      readsBack (finite _ (by simp)).readable (finite _ (by simp)).readable
        (finite _ (by simp)).readable
    by_cases unstamped : Unstamped cfg pkt
    · rcases parse_unstamped fields unstamped clock counter
        with ⟨missing, kept⟩
      have classified :
          Classified cfg clock pkt
            (parse cfg clock counter (jsonText pkt)).1 := by
        rw [Classified, if_pos unstamped]
        exact missing
      exact ⟨native, classified, kept⟩
    · rw [parse_stamped fields unstamped]
      exact ⟨native, checked_classified limitFinite finite unstamped clock,
        rfl⟩

/-- Without a timestamp, and with an axis of the largest magnitude. -/
def extremePacket : SensorPacket :=
  { timestampMs := 0
    sequenceId := 0xFFFFFFFF
    accX := .finite true 0
    accY := .finite false (largestDouble : ℚ≥0)
    accZ := .finite false (49 / 5) }

theorem parse_classifies_extremePacket :
    (sensorToJson extremePacket 1024 = none ↔
        1024 < (jsonText extremePacket).length + 1) ∧
      ∀ text, sensorToJson extremePacket 1024 = some text →
        detectAndroidFormat text = false ∧
          Classified .default 5 extremePacket
            (parse .default 5 7 text).1 ∧
          (parse .default 5 7 text).2 = 7 := by
  have finite :
      ∀ axis ∈ [extremePacket.accX, extremePacket.accY, extremePacket.accZ],
        FiniteDouble axis := by
    simp only [List.forall_mem_cons, List.not_mem_nil, false_implies,
      implies_true, and_true]
    have small : (49 / 5 : ℚ≥0) ≤ (largestDouble : ℚ≥0) := by
      calc
        (49 / 5 : ℚ≥0) ≤ ((10 : Nat) : ℚ≥0) :=
          (div_le_iff₀ (by norm_num)).mpr (by norm_num)
        _ ≤ (largestDouble : ℚ≥0) := Nat.cast_le.mpr (by decide +kernel)
    exact ⟨⟨true, 0, rfl, zero_le⟩, ⟨false, _, rfl, le_refl _⟩,
      ⟨false, _, rfl, small⟩⟩
  exact parse_classifies finite ⟨false, _, rfl⟩ 1024 5 7

end AccelObserver.EndToEnd.JsonClassification
