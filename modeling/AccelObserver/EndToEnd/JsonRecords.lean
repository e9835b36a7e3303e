import AccelObserver.Client.SensorData
import AccelObserver.Server.RangeGate

/-!
# What the validator reads in a client's text

The client prints a packet as a flat object; the validator looks its keys up
by searching.  The text ends every value, and no value can be mistaken for a
key, so the fields are read back: the integers as they are, the axes rounded
to six decimals.
-/

namespace AccelObserver.EndToEnd.JsonRecords

open AccelObserver.Library
open AccelObserver.Library.CNumber
open AccelObserver.Library.Decimal
open AccelObserver.Library.FlatObject
open AccelObserver.Client.SensorData
open AccelObserver.Server
open AccelObserver.Server.PacketValidator

/-! ## Looking a key up -/

/-- A value that does not begin with a separator. -/
def Starts (value : Bytes) : Prop :=
  ∃ byte more, value = byte :: more ∧ isSeparator byte = false

/-- The members before a key do not hide it. -/
theorem fieldText_textFrom
    {key : Bytes} (unquotedKey : Unquoted key) (noColon : key.head? ≠ some 58)
    {before : List (Bytes × Bytes)} (others : ∀ other ∈ before, Other key other)
    {value : Bytes} (starts : Starts value) (after : List (Bytes × Bytes)) :
    fieldText (text (before ++ (key, value) :: after)) key =
      some (value ++ textFrom 44 after) := by
  have found :=
    findAfter_textFrom unquotedKey noColon others value after
      (show (123 : UInt8) ≠ 34 by decide)
  rcases starts with ⟨byte, more, rfl, noSeparator⟩
  rw [quoted] at found
  rw [fieldText, text, found]
  have colon : isSeparator 58 = true := by decide
  simp [colon, noSeparator]

theorem digitByte_noSeparator :
    ∀ digit < 10, isSeparator (digitByte digit) = false := by
  decide

theorem starts_decimal (n : Nat) (rest : Bytes) :
    Starts (decimal n ++ rest) := by
  rcases exists_digits_eq_cons n with ⟨first, small, more, printed, _⟩
  refine ⟨digitByte first, more.map digitByte ++ rest, ?_,
    digitByte_noSeparator first small⟩
  rw [decimal, printed, List.map_cons, List.cons_append]

theorem starts_formatFixed6 (negative : Bool) (magnitude : ℚ≥0) :
    Starts (formatFixed6 (.finite negative magnitude)) := by
  cases negative with
  | false => exact starts_decimal _ _
  | true => exact ⟨45, _, rfl, by decide⟩

/-- The same for the text of a packet. -/
theorem fieldText_jsonText
    {pkt : SensorPacket} {key value : Bytes}
    {before after : List (Bytes × Bytes)}
    (split : members pkt = before ++ (key, value) :: after)
    (noColon : key.head? ≠ some 58)
    (distinct : key ∉ before.map Prod.fst) (starts : Starts value) :
    fieldText (jsonText pkt) key = some (value ++ textFrom 44 after) := by
  have unquoted := members_unquoted pkt
  rw [split] at unquoted
  have others : ∀ other ∈ before, Other key other := by
    intro other member
    rcases unquoted other (List.mem_append_left _ member)
      with ⟨unquotedKey, unquotedValue⟩
    refine ⟨?_, unquotedKey, unquotedValue⟩
    rintro rfl
    exact distinct (List.mem_map_of_mem member)
  rw [jsonText_eq, split]
  exact fieldText_textFrom (unquoted (key, value) (by simp)).1 noColon others
    starts after

/-! ## The fields -/

/-- An integer field is read as it was printed. -/
theorem extractUint64_jsonText
    {pkt : SensorPacket} {key : Bytes} {n : Nat}
    (before : List (Bytes × Bytes)) {after : List (Bytes × Bytes)}
    (split : members pkt = before ++ (key, decimal n) :: after)
    (noColon : key.head? ≠ some 58)
    (distinct : key ∉ before.map Prod.fst) (fits : n < 2 ^ 64) :
    extractUint64 (jsonText pkt) key = some (UInt64.ofNat n) := by
  have starts : Starts (decimal n) := by
    simpa using starts_decimal n []
  have field := fieldText_jsonText split noColon distinct starts
  have read := strtoull_decimal fits (endsNumeral_textFrom after).noDigit
  have someText : decimal n ++ textFrom 44 after ≠ [] := by
    simp [decimal, digits_ne_nil]
  simp [extractUint64, field, someText, read, accepted]

/-- A finite number whose six-decimal numeral does not overflow. -/
def Readable (axis : Double) : Prop :=
  ∃ negative magnitude, axis = .finite negative magnitude ∧
    (toMillionths magnitude : ℚ≥0) / 10 ^ 6 < overflowBound

/-- An axis is read with its six decimals. -/
theorem extractDouble_jsonText
    {pkt : SensorPacket} {key : Bytes} {axis : Double}
    (readable : Readable axis)
    (before : List (Bytes × Bytes)) {after : List (Bytes × Bytes)}
    (split : members pkt = before ++ (key, formatFixed6 axis) :: after)
    (noColon : key.head? ≠ some 58)
    (distinct : key ∉ before.map Prod.fst) :
    extractDouble (jsonText pkt) key = some (sixDecimals axis) := by
  rcases readable with ⟨negative, magnitude, rfl, below⟩
  have starts := starts_formatFixed6 negative magnitude
  have field := fieldText_jsonText split noColon distinct starts
  have read :=
    strtod_formatFixed6 negative magnitude below (endsNumeral_textFrom after)
  have someText :
      formatFixed6 (.finite negative magnitude) ++ textFrom 44 after ≠ [] := by
    rcases starts with ⟨byte, more, equal, _⟩
    simp [equal]
  simp [extractDouble, field, someText, read, accepted]

/-- The keys of every packet. -/
def keys : List Bytes :=
  [ascii "ts", ascii "seq", ascii "ax", ascii "ay", ascii "az"]

/-- The text has none of the marks of the Android format. -/
theorem detectAndroidFormat_jsonText (pkt : SensorPacket) :
    detectAndroidFormat (jsonText pkt) = false := by
  have unquoted := members_unquoted pkt
  have others : ∀ other ∈ members pkt, Other (ascii "type") other := by
    intro other member
    rcases unquoted other member with ⟨unquotedKey, unquotedValue⟩
    refine ⟨?_, unquotedKey, unquotedValue⟩
    intro equal
    have listed : ascii "type" ∈ (members pkt).map Prod.fst :=
      equal ▸ List.mem_map_of_mem member
    exact absurd listed (show ascii "type" ∉ keys by decide)
  have absent :=
    findAfter_textFrom_none
      (show Unquoted (ascii "type") by decide) (by decide) others
      (show (123 : UInt8) ≠ 34 by decide)
  have noType :
      Text.occurs (ascii "\"type\"") (jsonText pkt) = false := by
    rw [jsonText_eq, Text.occurs, text,
      show ascii "\"type\"" = quoted (ascii "type") from rfl, absent]
    rfl
  simp [detectAndroidFormat, noType]

/-- All five fields are read back. -/
structure ReadsBack (pkt : SensorPacket) : Prop where
  ts : extractUint64 (jsonText pkt) (ascii "ts") = some pkt.timestampMs
  seq : extractUint32 (jsonText pkt) (ascii "seq") = some pkt.sequenceId
  x : extractDouble (jsonText pkt) (ascii "ax") = some (sixDecimals pkt.accX)
  y : extractDouble (jsonText pkt) (ascii "ay") = some (sixDecimals pkt.accY)
  z : extractDouble (jsonText pkt) (ascii "az") = some (sixDecimals pkt.accZ)

theorem readsBack
    {pkt : SensorPacket} (readableX : Readable pkt.accX)
    (readableY : Readable pkt.accY) (readableZ : Readable pkt.accZ) :
    ReadsBack pkt where
  ts := by
    rw [extractUint64_jsonText [] rfl (by decide) (by simp)
      pkt.timestampMs.toNat_lt, UInt64.ofNat_toNat]
  seq := by
    have seq64 : extractUint64 (jsonText pkt) (ascii "seq") =
        some (UInt64.ofNat pkt.sequenceId.toNat) :=
      extractUint64_jsonText ((members pkt).take 1) rfl (by decide)
        (show _ ∉ keys.take 1 by decide)
        (pkt.sequenceId.toNat_lt.trans (by decide))
    have small : ¬ 0xFFFFFFFF < UInt64.ofNat pkt.sequenceId.toNat := by
      have bound := pkt.sequenceId.toNat_lt
      rw [UInt64.lt_iff_toNat_lt, UInt64.toNat_ofNat']
      simp
      omega
    rw [extractUint32, seq64]
    simp only [if_neg small]
    simp
  x :=
    extractDouble_jsonText readableX ((members pkt).take 2) rfl (by decide)
      (show _ ∉ keys.take 2 by decide)
  y :=
    extractDouble_jsonText readableY ((members pkt).take 3) rfl (by decide)
      (show _ ∉ keys.take 3 by decide)
  z :=
    extractDouble_jsonText readableZ ((members pkt).take 4) rfl (by decide)
      (show _ ∉ keys.take 4 by decide)

/-! ## The whole packet -/

/--
A packet that the client can send and the server should take: it has a
timestamp, its axes are finite and, with six decimals, within the limit, and
its text fits the client's buffer.
-/
structure Sendable (cfg : ValidatorConfig) (pkt : SensorPacket) : Prop where
  stamped : pkt.timestampMs ≠ 0
  finite : pkt.accX.IsFinite ∧ pkt.accY.IsFinite ∧ pkt.accZ.IsFinite
  within :
    Double.Within cfg.maxAccMs2 (sixDecimals pkt.accX) ∧
      Double.Within cfg.maxAccMs2 (sixDecimals pkt.accY) ∧
      Double.Within cfg.maxAccMs2 (sixDecimals pkt.accZ)
  fits : (jsonText pkt).length < 256

/-- The record of a packet: its axes with six decimals. -/
def recordOf (pkt : SensorPacket) : DataPacket :=
  { timestampMs := pkt.timestampMs
    sequenceId := pkt.sequenceId
    accX := sixDecimals pkt.accX
    accY := sixDecimals pkt.accY
    accZ := sixDecimals pkt.accZ }

/-- A text that fits the buffer has no axis that would overflow. -/
theorem readable_of_fits
    {pkt : SensorPacket} (fits : (jsonText pkt).length < 256)
    {axis : Double} (finite : axis.IsFinite)
    (isAxis : axis = pkt.accX ∨ axis = pkt.accY ∨ axis = pkt.accZ) :
    Readable axis := by
  rcases finite with ⟨negative, magnitude, isFinite⟩
  have inNumeral :
      (digits (toMillionths magnitude / 10 ^ 6)).length ≤
        (formatFixed6 axis).length := by
    simp only [isFinite, formatFixed6, fixed6, decimal, List.length_append,
      List.length_map]
    omega
  have inText : (formatFixed6 axis).length ≤ (jsonText pkt).length := by
    simp only [jsonText, List.length_append]
    rcases isAxis with same | same | same <;> rw [same] <;> omega
  exact ⟨negative, magnitude, isFinite,
    lt_overflowBound_of_short (by omega)⟩

/-- Such a record passes the range check. -/
theorem validateRange_recordOf
    {cfg : ValidatorConfig} {pkt : SensorPacket}
    (sendable : Sendable cfg pkt) (ts : UInt64) (seq : UInt32) :
    validateRange cfg
        { timestampMs := ts
          sequenceId := seq
          accX := sixDecimals pkt.accX
          accY := sixDecimals pkt.accY
          accZ := sixDecimals pkt.accZ } = true := by
  rcases sendable.within with ⟨withinX, withinY, withinZ⟩
  have limitNumber : cfg.maxAccMs2 ≠ .nan := by
    intro equal
    rw [equal] at withinX
    exact Double.not_within_nan_limit _ withinX
  apply (RangeGate.validateRange_iff limitNumber _).mpr
  simp [RangeGate.axes, withinX, withinY, withinZ]

/-- The server reads back what the client printed. -/
theorem parse_jsonText
    {cfg : ValidatorConfig} {pkt : SensorPacket} (sendable : Sendable cfg pkt)
    (clock : UInt64) (counter : UInt32) :
    parse cfg clock counter (jsonText pkt) =
      ({ packet := recordOf pkt, result := .ok }, counter) := by
  rcases sendable.finite with ⟨finiteX, finiteY, finiteZ⟩
  have fits := sendable.fits
  have fields : ReadsBack pkt :=
    readsBack
      (readable_of_fits fits finiteX (Or.inl rfl))
      (readable_of_fits fits finiteY (Or.inr (Or.inl rfl)))
      (readable_of_fits fits finiteZ (Or.inr (Or.inr rfl)))
  simp only [parse, detectAndroidFormat_jsonText, Bool.false_eq_true,
    if_false, parseNative, timestamp, fields.ts, if_neg sendable.stamped,
    sequenceNumber, fields.seq, fields.x, fields.y, fields.z, checked,
    validateRange_recordOf sendable, if_true]
  rfl

end AccelObserver.EndToEnd.JsonRecords
