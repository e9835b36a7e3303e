import AccelObserver.Server.FieldLookup

/-!
# Field order and unrelated fields

An object with the five fields of a native packet, in any order and among
others.  The parser gives their values as long as nothing else mentions their
names first and the marks of the Android format are not all there.  A string
value that is spelled like a key counts as a mention: the extractors do not
tell it from the key.
-/

namespace AccelObserver.Server.FieldOrder

open AccelObserver.Library
open AccelObserver.Library.CNumber
open AccelObserver.Library.FlatFields
open AccelObserver.Library.Numerals
open AccelObserver.Server.FieldLookup
open AccelObserver.Server.PacketValidator
open AccelObserver.Server.RangeGate (readNumber)

/-! ## When the five values are found -/

/-- The value of the only field with this key. -/
def HasOnce (name : Bytes) (fields : List Field) (numeral : Bytes) : Prop :=
  (fields.filter fun field => field.key = name).map Field.value =
    [.number numeral]

/--
The object has each of the five keys once, with a plain value that belongs
to the record, and neither of the two Android keys.
-/
structure Spells (cfg : ValidatorConfig) (fields : List Field)
    (pkt : DataPacket) : Prop where
  ts :
    ∃ numeral : PlainNatural, HasOnce (ascii "ts") fields numeral.text ∧
      numeral.value = pkt.timestampMs.toNat ∧ pkt.timestampMs ≠ 0
  seq :
    ∃ numeral : PlainNatural, HasOnce (ascii "seq") fields numeral.text ∧
      numeral.value = pkt.sequenceId.toNat
  x :
    ∃ numeral : PlainDecimal, HasOnce (ascii "ax") fields numeral.text ∧
      numeral.value = pkt.accX
  y :
    ∃ numeral : PlainDecimal, HasOnce (ascii "ay") fields numeral.text ∧
      numeral.value = pkt.accY
  z :
    ∃ numeral : PlainDecimal, HasOnce (ascii "az") fields numeral.text ∧
      numeral.value = pkt.accZ
  noAndroidKey :
    ∀ field ∈ fields, field.key ≠ ascii "type" ∧ field.key ≠ ascii "values"
  within : ∀ axis ∈ RangeGate.axes pkt, Double.Within cfg.maxAccMs2 axis

/-- The first mention of each name has the number of the record, or the
server's substitute for it is the same. -/
structure Found (cfg : ValidatorConfig) (clock : UInt64)
    (fields : List Field) (pkt : DataPacket) : Prop where
  native : ¬ AndroidMarked fields
  ts :
    firstNumber readUint64 (ascii "ts") fields = some pkt.timestampMs ∨
      (∀ n ∈ firstNumber readUint64 (ascii "ts") fields, n = 0) ∧
        cfg.timesource = .host ∧ clock = pkt.timestampMs
  seq :
    firstNumber readUint64 (ascii "seq") fields =
        some pkt.sequenceId.toUInt64 ∨
      (∀ n ∈ firstNumber readUint64 (ascii "seq") fields, 0xFFFFFFFF < n) ∧
        cfg.seqOptional = true ∧ pkt.sequenceId = 0
  x : firstNumber readNumber (ascii "ax") fields = some pkt.accX
  y : firstNumber readNumber (ascii "ay") fields = some pkt.accY
  z : firstNumber readNumber (ascii "az") fields = some pkt.accZ

theorem timestamp_eq_iff
    {cfg : ValidatorConfig} {clock ts : UInt64} (stamped : ts ≠ 0)
    {payload : Bytes} :
    timestamp cfg clock payload = some ts ↔
      extractUint64 payload (ascii "ts") = some ts ∨
        (∀ n ∈ extractUint64 payload (ascii "ts"), n = 0) ∧
          cfg.timesource = .host ∧ clock = ts := by
  rw [timestamp]
  cases extractUint64 payload (ascii "ts") with
  | none => cases cfg.timesource <;> simp
  | some n =>
      by_cases zero : n = 0
      · have different : ¬ 0 = ts := fun equal => stamped equal.symm
        cases cfg.timesource <;> simp [zero, different]
      · simp [zero]

/-- A number of at most 32 bits is the widened form of its low bits. -/
theorem toUInt32_eq_iff
    {n : UInt64} (small : ¬ 0xFFFFFFFF < n) (seq : UInt32) :
    n.toUInt32 = seq ↔ n = seq.toUInt64 := by
  have bound : n.toNat < 2 ^ 32 := by
    rw [UInt64.lt_iff_toNat_lt] at small
    have limit : (0xFFFFFFFF : UInt64).toNat = 2 ^ 32 - 1 := rfl
    omega
  rw [← UInt32.toNat_inj, ← UInt64.toNat_inj, UInt64.toNat_toUInt32,
    UInt32.toNat_toUInt64, Nat.mod_eq_of_lt bound]

theorem not_lt_toUInt64 (seq : UInt32) : ¬ 0xFFFFFFFF < seq.toUInt64 := by
  rw [UInt64.lt_iff_toNat_lt, UInt32.toNat_toUInt64]
  have limit : (0xFFFFFFFF : UInt64).toNat = 2 ^ 32 - 1 := rfl
  have bound := seq.toNat_lt
  omega

theorem sequenceNumber_eq_iff
    {cfg : ValidatorConfig} {seq : UInt32} {payload : Bytes} :
    sequenceNumber cfg payload = some seq ↔
      extractUint64 payload (ascii "seq") = some seq.toUInt64 ∨
        (∀ n ∈ extractUint64 payload (ascii "seq"), 0xFFFFFFFF < n) ∧
          cfg.seqOptional = true ∧ seq = 0 := by
  rw [sequenceNumber, extractUint32]
  cases extractUint64 payload (ascii "seq") with
  | none => cases cfg.seqOptional <;> simp [eq_comm]
  | some n =>
      by_cases large : 0xFFFFFFFF < n
      · have different : n ≠ seq.toUInt64 := by
          rintro rfl
          exact not_lt_toUInt64 seq large
        cases cfg.seqOptional <;> simp [large, different, eq_comm]
      · simp [large, toUInt32_eq_iff large]

theorem checked_eq_ok_iff
    {cfg : ValidatorConfig} {pkt other : DataPacket} :
    checked cfg other = { packet := pkt, result := .ok } ↔
      other = pkt ∧ validateRange cfg pkt = true := by
  rw [checked]
  split_ifs with valid
  · constructor
    · intro equal
      obtain rfl : other = pkt := congrArg ParsedPacket.packet equal
      exact ⟨rfl, valid⟩
    · rintro ⟨rfl, _⟩
      rfl
  · constructor
    · intro equal
      cases congrArg ParsedPacket.result equal
    · rintro ⟨rfl, passed⟩
      exact absurd passed valid

/-- The parser accepts a record exactly if it finds its fields, in range. -/
theorem parseNative_eq_ok_iff
    {cfg : ValidatorConfig} {clock : UInt64} {payload : Bytes}
    {pkt : DataPacket} :
    parseNative cfg clock payload = { packet := pkt, result := .ok } ↔
      timestamp cfg clock payload = some pkt.timestampMs ∧
        sequenceNumber cfg payload = some pkt.sequenceId ∧
        extractDouble payload (ascii "ax") = some pkt.accX ∧
        extractDouble payload (ascii "ay") = some pkt.accY ∧
        extractDouble payload (ascii "az") = some pkt.accZ ∧
        validateRange cfg pkt = true := by
  have missing (partialPkt : DataPacket) :
      ({ packet := partialPkt, result := .missingFields } : ParsedPacket) ≠
        { packet := pkt, result := .ok } := fun equal => by
    cases congrArg ParsedPacket.result equal
  rw [parseNative]
  cases timestamp cfg clock payload with
  | none => simp [missing]
  | some ts =>
  cases sequenceNumber cfg payload with
  | none => simp [missing]
  | some seq =>
  cases extractDouble payload (ascii "ax") with
  | none => simp [missing]
  | some x =>
  cases extractDouble payload (ascii "ay") with
  | none => simp [missing]
  | some y =>
  cases extractDouble payload (ascii "az") with
  | none => simp [missing]
  | some z =>
  simp only [checked_eq_ok_iff, Option.some.injEq]
  constructor
  · rintro ⟨rfl, valid⟩
    exact ⟨rfl, rfl, rfl, rfl, rfl, valid⟩
  · rintro ⟨rfl, rfl, rfl, rfl, rfl, valid⟩
    exact ⟨rfl, valid⟩

/-- On an unmarked object, the first mention of each name decides. -/
theorem parse_eq_ok_iff_of_native
    {cfg : ValidatorConfig} {fields : List Field} {pkt : DataPacket}
    (spells : Spells cfg fields pkt) (native : ¬ AndroidMarked fields)
    (clock : UInt64) (counter : UInt32) :
    (parse cfg clock counter (objectText fields)).1 =
        { packet := pkt, result := .ok } ↔
      Found cfg clock fields pkt := by
  have limitNumber : cfg.maxAccMs2 ≠ .nan := by
    intro equal
    have within := spells.within pkt.accX (by simp [RangeGate.axes])
    rw [equal] at within
    exact Double.not_within_nan_limit _ within
  have valid : validateRange cfg pkt = true :=
    (RangeGate.validateRange_iff limitNumber pkt).mpr fun axis member =>
      Or.inr (spells.within axis member)
  rcases spells.ts with ⟨_, _, _, stamped⟩
  have detected : detectAndroidFormat (objectText fields) = false := by
    rw [← Bool.not_eq_true, detectAndroidFormat_objectText]
    exact native
  rw [parse, detected]
  simp only [Bool.false_eq_true, if_false]
  rw [parseNative_eq_ok_iff, timestamp_eq_iff stamped,
    sequenceNumber_eq_iff, extractUint64_objectText (by decide),
    extractUint64_objectText (by decide),
    extractDouble_objectText (by decide),
    extractDouble_objectText (by decide),
    extractDouble_objectText (by decide)]
  constructor
  · rintro ⟨ts, seq, x, y, z, _⟩
    exact ⟨native, ts, seq, x, y, z⟩
  · rintro ⟨_, ts, seq, x, y, z⟩
    exact ⟨ts, seq, x, y, z, valid⟩

/--
The parser gives the five values of an object if and only if the object is
not marked as an Android packet and the first mention of each name has its
value.
-/
theorem parse_eq_ok_iff
    {cfg : ValidatorConfig} {fields : List Field} {pkt : DataPacket}
    (spells : Spells cfg fields pkt) (clock : UInt64) (counter : UInt32) :
    (parse cfg clock counter (objectText fields)).1 =
        { packet := pkt, result := .ok } ↔
      Found cfg clock fields pkt := by
  by_cases marked : AndroidMarked fields
  · constructor
    · intro ok
      have missing := parse_androidMarked marked cfg clock counter
      rw [ok] at missing
      cases missing
    · intro found
      exact absurd marked found.native
  · exact parse_eq_ok_iff_of_native spells marked clock counter

/-! ## Names that nothing else mentions -/

/-- Only the field with this key mentions it. -/
def Alone (name : Bytes) (fields : List Field) : Prop :=
  ∀ field ∈ fields, field.key ≠ name → field.mentions name = none

theorem lastPieceFrom_of_unquoted
    {key : Bytes} (unquoted : FlatObject.Unquoted key) (piece : Bytes) :
    lastPieceFrom piece key = piece ++ key := by
  induction key generalizing piece with
  | nil => rw [lastPieceFrom, List.append_nil]
  | cons byte key induction =>
      simp only [FlatObject.Unquoted, List.mem_cons, not_or] at unquoted
      rw [lastPieceFrom, if_neg (Ne.symm unquoted.1), induction unquoted.2,
        List.append_assoc]
      rfl

/-- Then the field with this key is the first mention. -/
theorem firstMention_of_alone
    {name : Bytes} (searchable : Searchable name) {fields : List Field}
    (alone : Alone name fields) {numeral : Bytes}
    (once : HasOnce name fields numeral) :
    firstMention name fields = some (.key (.number numeral)) := by
  have own (field : Field) (isKey : field.key = name) :
      field.mentions name = some (.key field.value) := by
    have last : lastPiece field.key = name := by
      rw [lastPiece, isKey, lastPieceFrom_of_unquoted searchable.unquoted,
        List.nil_append]
    rw [Field.mentions, if_pos last]
  induction fields with
  | nil => cases once
  | cons field more induction =>
      rcases List.forall_mem_cons.mp alone with ⟨here, later⟩
      rw [firstMention, List.findSome?_cons]
      by_cases isKey : field.key = name
      · rw [HasOnce, List.filter_cons_of_pos (by simp [isKey]),
          List.map_cons, List.cons.injEq] at once
        rw [own field isKey, once.1]
      · rw [HasOnce, List.filter_cons_of_neg (by simp [isKey])] at once
        rw [here isKey]
        exact induction later once

theorem readUint64_plainNatural
    {numeral : PlainNatural} (fits : numeral.value < 2 ^ 64) :
    readUint64 numeral.text = some (UInt64.ofNat numeral.value) := by
  rw [readUint64, strtoull_plainNatural numeral fits]
  rfl

/-- A number that `strtod` takes without an error: neither too large for a
double nor too small for it. -/
def Readable (number : Double) : Prop :=
  ∃ negative magnitude, number = .finite negative magnitude ∧
    magnitude < overflowBound ∧ ¬ Underflows magnitude

theorem readNumber_plainDecimal
    {numeral : PlainDecimal} (readable : Readable numeral.value) :
    readNumber numeral.text = some numeral.value := by
  rcases readable with ⟨negative, magnitude, isFinite, below, noUnderflow⟩
  rw [PlainDecimal.value, Double.finite.injEq] at isFinite
  rcases isFinite with ⟨-, rfl⟩
  rw [readNumber, strtod_plainDecimal, convertFinite,
    if_neg (not_le.mpr below)]
  simp [accepted, noUnderflow, PlainDecimal.value]

/-- The keys of a native packet. -/
def nativeNames : List Bytes :=
  names.take 5

/--
When no other member mentions one of the five names and the marks of the
Android format are not all there, the five values are found.
-/
theorem parse_of_alone
    {cfg : ValidatorConfig} {fields : List Field} {pkt : DataPacket}
    (spells : Spells cfg fields pkt)
    (alone : ∀ name ∈ nativeNames, Alone name fields)
    (native : ¬ AndroidMarked fields)
    (readable : ∀ axis ∈ RangeGate.axes pkt, Readable axis)
    (clock : UInt64) (counter : UInt32) :
    (parse cfg clock counter (objectText fields)).1 =
      { packet := pkt, result := .ok } := by
  have mention {name numeral : Bytes} (native : name ∈ nativeNames)
      (once : HasOnce name fields numeral) :
      firstMention name fields = some (.key (.number numeral)) :=
    firstMention_of_alone
      (searchable_of_mem (List.mem_of_mem_take native)) (alone name native)
      once
  have axis {name : Bytes} {number : Double} (native : name ∈ nativeNames)
      (isAxis : number ∈ RangeGate.axes pkt)
      (spelled :
        ∃ numeral : PlainDecimal, HasOnce name fields numeral.text ∧
          numeral.value = number) :
      firstNumber readNumber name fields = some number := by
    rcases spelled with ⟨numeral, once, rfl⟩
    rw [firstNumber, mention native once]
    exact readNumber_plainDecimal (readable _ isAxis)
  rw [parse_eq_ok_iff_of_native spells native]
  refine
    { native := native
      ts := Or.inl ?_
      seq := Or.inl ?_
      x := axis (by decide) (by simp [RangeGate.axes]) spells.x
      y := axis (by decide) (by simp [RangeGate.axes]) spells.y
      z := axis (by decide) (by simp [RangeGate.axes]) spells.z }
  · rcases spells.ts with ⟨numeral, once, value, _⟩
    have fits : numeral.value < 2 ^ 64 := value ▸ pkt.timestampMs.toNat_lt
    rw [firstNumber, mention (by decide) once]
    simp only [Option.bind_some, numberOf]
    rw [readUint64_plainNatural fits, value, UInt64.ofNat_toNat]
  · rcases spells.seq with ⟨numeral, once, value⟩
    have fits : numeral.value < 2 ^ 64 :=
      value ▸ pkt.sequenceId.toNat_lt.trans (by decide)
    rw [firstNumber, mention (by decide) once]
    simp only [Option.bind_some, numberOf]
    rw [readUint64_plainNatural fits, value, Option.some.injEq,
      ← UInt64.toNat_inj, UInt64.toNat_ofNat', UInt32.toNat_toUInt64]
    exact Nat.mod_eq_of_lt (value ▸ fits)

/-! ## A name in a string -/

/-- A member without blanks. -/
def plainField (key : Bytes) (value : Value)
    (keyEscaped : escapedFrom [] key = true)
    (valuePlain : value.plain = true) : Field :=
  { key := key
    blanks := []
    value := value
    keyEscaped := keyEscaped
    blanksBlank := rfl
    valuePlain := valuePlain }

/-- The numeral 9. -/
def nine : PlainNatural :=
  { digits := [9]
    some := by decide
    small := by decide }

def nineDecimal : PlainDecimal :=
  { negative := false
    whole := nine
    fraction := []
    fractionSmall := by decide }

/-- A note that reads `ts` comes before the timestamp. -/
def noteFields : List Field :=
  [plainField (ascii "note") (.string (ascii "ts")) (by decide) (by decide),
    plainField (ascii "ts") (.number nine.text) (by decide) (by decide),
    plainField (ascii "seq") (.number nine.text) (by decide) (by decide),
    plainField (ascii "ax") (.number nine.text) (by decide) (by decide),
    plainField (ascii "ay") (.number nine.text) (by decide) (by decide),
    plainField (ascii "az") (.number nine.text) (by decide) (by decide)]

def notePacket : DataPacket :=
  { timestampMs := 9
    sequenceId := 9
    accX := nineDecimal.value
    accY := nineDecimal.value
    accZ := nineDecimal.value }

theorem noteFields_spells : Spells .default noteFields notePacket where
  ts := ⟨nine, by unfold HasOnce; decide, rfl, by decide⟩
  seq := ⟨nine, by unfold HasOnce; decide, rfl⟩
  x := ⟨nineDecimal, by unfold HasOnce; decide, rfl⟩
  y := ⟨nineDecimal, by unfold HasOnce; decide, rfl⟩
  z := ⟨nineDecimal, by unfold HasOnce; decide, rfl⟩
  noAndroidKey := by decide
  within := by decide +kernel

/-- The timestamp is not found. -/
theorem noteFields_missing :
    ¬ (∀ cfg fields pkt, Spells cfg fields pkt → ∀ clock counter,
      (parse cfg clock counter (objectText fields)).1 =
        { packet := pkt, result := .ok }) := by
  intro always
  have ok := always _ _ _ noteFields_spells 0 0
  have missing :
      (parse .default 0 0 (objectText noteFields)).1.result =
        .missingFields := by
    decide +kernel
  rw [ok] at missing
  cases missing

theorem parse_eq_ok_iff_noteFields :
    (parse .default 0 0 (objectText noteFields)).1 =
        { packet := notePacket, result := .ok } ↔
      Found .default 0 noteFields notePacket :=
  parse_eq_ok_iff noteFields_spells 0 0

end AccelObserver.Server.FieldOrder
