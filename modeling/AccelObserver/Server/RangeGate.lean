import AccelObserver.Server.PacketValidator

/-!
# The range gate

`validate_range` is meant to keep every accepted axis within the configured
limit.  It does so for all numbers; but `strtod` also reads NaN spellings, and
both comparisons of a NaN are false.  What gets through is described by the
texts at which the parser reads the axes.
-/

namespace AccelObserver.Server.RangeGate

open AccelObserver.Library
open AccelObserver.Library.CNumber
open AccelObserver.Server.PacketValidator

/-! ## One axis -/

/-- The number that an axis text gives, if the extractors take it. -/
def readNumber (text : Bytes) : Option Double :=
  (accepted (strtod text)).map Prod.fst

@[simp]
theorem readNumber_nil : readNumber [] = none := rfl

theorem readNumber_of_spellsNan
    {text : Bytes} (spells : SpellsNan text) :
    readNumber text = some .nan := by
  rcases strtod_of_spellsNan spells with ⟨rest, read⟩
  simp [readNumber, read, accepted]

theorem spellsNan_of_readNumber
    {text : Bytes} (read : readNumber text = some .nan) :
    SpellsNan text := by
  rw [readNumber] at read
  cases converted : strtod text with
  | none => simp [converted, accepted] at read
  | some conversion =>
      apply spellsNan_of_strtod converted
      by_cases range : conversion.erange = true
      · simp [converted, accepted, range] at read
      · simpa [converted, accepted, range] using read

/-- What the comparisons let through: the numbers in range, and NaN. -/
theorem outside_eq_false_iff
    {limit : Double} (limitNumber : limit ≠ .nan) (axis : Double) :
    outside limit axis = false ↔ axis = .nan ∨ Double.Within limit axis := by
  by_cases isNan : axis = .nan
  · subst isNan
    simp [outside]
  · rw [Double.within_iff limitNumber isNan]
    simp [outside, isNan]

/-! ## Where the axes are read -/

/-- The texts at which the element loop reads a value. -/
def arrayTexts : Nat → Bytes → List Bytes
  | 0, _ => []
  | room + 1, text =>
      match text.dropWhile isArraySeparator with
      | [] => []
      | byte :: rest =>
          if byte = 93 then
            []
          else
            match accepted (strtod (byte :: rest)) with
            | none => []
            | some (_, after) => (byte :: rest) :: arrayTexts room after

/-- The texts at which `parse` reads the axes; an absent field is empty. -/
def axisTexts (payload : Bytes) : List Bytes :=
  if detectAndroidFormat payload then
    arrayTexts 3 ((arrayText payload (ascii "values")).getD [])
  else
    [ascii "ax", ascii "ay", ascii "az"].map fun key =>
      (fieldText payload key).getD []

theorem arrayLoop_eq (room : Nat) (text : Bytes) :
    (arrayLoop room text).map some = (arrayTexts room text).map readNumber := by
  induction room generalizing text with
  | zero => rfl
  | succ room induction =>
      simp only [arrayLoop, arrayTexts]
      cases text.dropWhile isArraySeparator with
      | nil => rfl
      | cons byte rest =>
          by_cases closing : byte = 93
          · simp [closing]
          · cases read : accepted (strtod (byte :: rest)) with
            | none => simp [closing, read]
            | some value => simp [closing, read, readNumber, induction]

theorem extractArrayDoubles_eq
    (payload key : Bytes) (maxCount : Nat) :
    (extractArrayDoubles payload key maxCount).map some =
      (arrayTexts maxCount ((arrayText payload key).getD [])).map
        readNumber := by
  rw [extractArrayDoubles, ← arrayLoop_eq]
  cases arrayText payload key with
  | none => cases maxCount <;> rfl
  | some text => rfl

theorem extractDouble_eq (payload key : Bytes) :
    extractDouble payload key =
      readNumber ((fieldText payload key).getD []) := by
  rw [extractDouble]
  cases fieldText payload key with
  | none => rfl
  | some text =>
      by_cases empty : text = []
      · simp [empty]
      · simp [empty, readNumber]

/-! ## When the parser accepts -/

/-- A timestamp other than zero, or the server's clock in its place. -/
def HasTimestamp (cfg : ValidatorConfig) (payload : Bytes) : Prop :=
  (∃ ts, extractUint64 payload (ascii "ts") = some ts ∧ ts ≠ 0) ∨
    cfg.timesource = .host

def HasSequence (cfg : ValidatorConfig) (payload : Bytes) : Prop :=
  (extractUint32 payload (ascii "seq")).isSome ∨ cfg.seqOptional = true

/-- Everything but the axes is there. -/
def Complete (cfg : ValidatorConfig) (payload : Bytes) : Prop :=
  detectAndroidFormat payload = true ∨
    HasTimestamp cfg payload ∧ HasSequence cfg payload

theorem timestamp_isSome_iff
    (cfg : ValidatorConfig) (clock : UInt64) (payload : Bytes) :
    (timestamp cfg clock payload).isSome ↔ HasTimestamp cfg payload := by
  rw [timestamp, HasTimestamp]
  cases extractUint64 payload (ascii "ts") with
  | none => cases cfg.timesource <;> simp
  | some ts =>
      by_cases zero : ts = 0
      · cases cfg.timesource <;> simp [zero]
      · simp [zero]

theorem sequenceNumber_isSome_iff
    (cfg : ValidatorConfig) (payload : Bytes) :
    (sequenceNumber cfg payload).isSome ↔ HasSequence cfg payload := by
  rw [sequenceNumber, HasSequence]
  cases extractUint32 payload (ascii "seq") with
  | none => cases cfg.seqOptional <;> simp
  | some seq => simp

/-- The axes of a packet, in order. -/
def axes (pkt : DataPacket) : List Double :=
  [pkt.accX, pkt.accY, pkt.accZ]

/-- A complete payload with three readable axes comes to the range check. -/
theorem parse_eq_checked
    {cfg : ValidatorConfig} {payload : Bytes}
    (complete : Complete cfg payload) {x y z : Double}
    (read :
      (axisTexts payload).map readNumber = [some x, some y, some z])
    (clock : UInt64) (counter : UInt32) :
    ∃ pkt, (parse cfg clock counter payload).1 = checked cfg pkt ∧
      axes pkt = [x, y, z] := by
  by_cases android : detectAndroidFormat payload = true
  · have values :
        extractArrayDoubles payload (ascii "values") 3 = [x, y, z] := by
      rw [axisTexts, if_pos android, ← extractArrayDoubles_eq] at read
      exact List.map_injective_iff.mpr (Option.some_injective _) read
    simp only [parse, android, if_true, parseAndroid, values]
    exact ⟨_, rfl, rfl⟩
  · rw [axisTexts, if_neg android] at read
    simp only [List.map_cons, List.map_nil, ← extractDouble_eq,
      List.cons.injEq, and_true] at read
    rcases read with ⟨readX, readY, readZ⟩
    rcases complete with isAndroid | ⟨hasTimestamp, hasSequence⟩
    · exact absurd isAndroid android
    · rcases Option.isSome_iff_exists.mp
        ((timestamp_isSome_iff cfg clock payload).mpr hasTimestamp)
        with ⟨ts, tsRead⟩
      rcases Option.isSome_iff_exists.mp
        ((sequenceNumber_isSome_iff cfg payload).mpr hasSequence)
        with ⟨seq, seqRead⟩
      simp only [parse, android, parseNative, tsRead, seqRead, readX, readY,
        readZ]
      exact ⟨_, rfl, rfl⟩

/-- Only such payloads are accepted. -/
theorem complete_of_ok
    {cfg : ValidatorConfig} {clock : UInt64} {counter : UInt32}
    {payload : Bytes}
    (ok : (parse cfg clock counter payload).1.result = .ok) :
    Complete cfg payload ∧
      ∃ x y z, (axisTexts payload).map readNumber =
        [some x, some y, some z] := by
  by_cases android : detectAndroidFormat payload = true
  · refine ⟨Or.inl android, ?_⟩
    simp only [parse, android, if_true, parseAndroid] at ok
    split at ok
    · next x y z values =>
        refine ⟨x, y, z, ?_⟩
        rw [axisTexts, if_pos android, ← extractArrayDoubles_eq, values]
        rfl
    · cases ok
  · simp only [parse, android, parseNative] at ok
    cases tsRead : timestamp cfg clock payload with
    | none => simp [tsRead] at ok
    | some ts =>
    cases seqRead : sequenceNumber cfg payload with
    | none => simp [tsRead, seqRead] at ok
    | some seq =>
    cases readX : extractDouble payload (ascii "ax") with
    | none => simp [tsRead, seqRead, readX] at ok
    | some x =>
    cases readY : extractDouble payload (ascii "ay") with
    | none => simp [tsRead, seqRead, readX, readY] at ok
    | some y =>
    cases readZ : extractDouble payload (ascii "az") with
    | none => simp [tsRead, seqRead, readX, readY, readZ] at ok
    | some z =>
    refine ⟨Or.inr ⟨?_, ?_⟩, x, y, z, ?_⟩
    · apply (timestamp_isSome_iff cfg clock payload).mp
      simp [tsRead]
    · apply (sequenceNumber_isSome_iff cfg payload).mp
      simp [seqRead]
    · rw [axisTexts, if_neg android]
      simp [← extractDouble_eq, readX, readY, readZ]

/-! ## The gate -/

/-- What the gate is for: every axis is a number within the limit. -/
def InRange (cfg : ValidatorConfig) (pkt : DataPacket) : Prop :=
  ∀ axis ∈ axes pkt, axis ≠ .nan ∧ Double.Within cfg.maxAccMs2 axis

/-- An axis text that reads as a number within the limit. -/
def SpellsWithin (limit : Double) (text : Bytes) : Prop :=
  ∃ number, readNumber text = some number ∧ Double.Within limit number

/-- A payload in which NaN spellings stand for axes and all else is in order. -/
structure NanAmongAxes (cfg : ValidatorConfig) (payload : Bytes) : Prop where
  complete : Complete cfg payload
  three : (axisTexts payload).length = 3
  others :
    ∀ text ∈ axisTexts payload,
      SpellsNan text ∨ SpellsWithin cfg.maxAccMs2 text
  spelled : ∃ text ∈ axisTexts payload, SpellsNan text

/-- The range check looks at every axis. -/
theorem validateRange_eq_true_iff (cfg : ValidatorConfig) (pkt : DataPacket) :
    validateRange cfg pkt = true ↔
      outside cfg.maxAccMs2 pkt.accX = false ∧
        outside cfg.maxAccMs2 pkt.accY = false ∧
          outside cfg.maxAccMs2 pkt.accZ = false := by
  rw [validateRange]
  cases outside cfg.maxAccMs2 pkt.accX <;>
    cases outside cfg.maxAccMs2 pkt.accY <;>
      cases outside cfg.maxAccMs2 pkt.accZ <;> simp

theorem validateRange_iff
    {cfg : ValidatorConfig} (limitNumber : cfg.maxAccMs2 ≠ .nan)
    (pkt : DataPacket) :
    validateRange cfg pkt = true ↔
      ∀ axis ∈ axes pkt,
        axis = .nan ∨ Double.Within cfg.maxAccMs2 axis := by
  have perAxis := outside_eq_false_iff limitNumber
  simp only [axes, List.forall_mem_cons, List.not_mem_nil, false_implies,
    implies_true, and_true, ← perAxis]
  exact validateRange_eq_true_iff cfg pkt

theorem checked_packet (cfg : ValidatorConfig) (pkt : DataPacket) :
    (checked cfg pkt).packet = pkt := by
  rw [checked]
  split_ifs <;> rfl

theorem checked_ok_iff (cfg : ValidatorConfig) (pkt : DataPacket) :
    (checked cfg pkt).result = .ok ↔ validateRange cfg pkt = true := by
  rw [checked]
  split_ifs with valid <;> simp [valid]

/-- A text that spells a NaN or a number in range has a value that passes. -/
theorem exists_of_others
    {limit : Double} {text : Bytes}
    (other : SpellsNan text ∨ SpellsWithin limit text) :
    ∃ number, readNumber text = some number ∧
      (number = .nan ∨ Double.Within limit number) := by
  rcases other with spells | ⟨number, read, within⟩
  · exact ⟨.nan, readNumber_of_spellsNan spells, Or.inl rfl⟩
  · exact ⟨number, read, Or.inr within⟩

/-- A payload with a NaN among its axes is accepted, the NaN with it. -/
theorem accepts_nan
    {cfg : ValidatorConfig} (limitNumber : cfg.maxAccMs2 ≠ .nan)
    {payload : Bytes} (nanAmong : NanAmongAxes cfg payload)
    (clock : UInt64) (counter : UInt32) :
    (parse cfg clock counter payload).1.result = .ok ∧
      .nan ∈ axes (parse cfg clock counter payload).1.packet := by
  rcases List.length_eq_three.mp nanAmong.three with ⟨a, b, c, texts⟩
  have others := nanAmong.others
  rcases nanAmong.spelled with ⟨text, member, spells⟩
  rw [texts] at others member
  rcases exists_of_others (others a (by simp)) with ⟨x, readX, passX⟩
  rcases exists_of_others (others b (by simp)) with ⟨y, readY, passY⟩
  rcases exists_of_others (others c (by simp)) with ⟨z, readZ, passZ⟩
  have read :
      (axisTexts payload).map readNumber = [some x, some y, some z] := by
    rw [texts]
    simp [readX, readY, readZ]
  rcases parse_eq_checked nanAmong.complete read clock counter
    with ⟨pkt, parsed, pktAxes⟩
  rw [parsed, checked_packet, checked_ok_iff, validateRange_iff limitNumber,
    pktAxes]
  refine ⟨by simp [passX, passY, passZ], ?_⟩
  have valued : some Double.nan ∈ [some x, some y, some z] := by
    rw [← read, texts, ← readNumber_of_spellsNan spells]
    exact List.mem_map_of_mem member
  simpa using valued

/-- An accepted payload without a NaN among its axes is in range. -/
theorem inRange_of_ok
    {cfg : ValidatorConfig} (limitNumber : cfg.maxAccMs2 ≠ .nan)
    {payload : Bytes} (noNan : ¬ NanAmongAxes cfg payload)
    {clock : UInt64} {counter : UInt32}
    (ok : (parse cfg clock counter payload).1.result = .ok) :
    InRange cfg (parse cfg clock counter payload).1.packet := by
  rcases complete_of_ok ok with ⟨complete, x, y, z, read⟩
  rcases parse_eq_checked complete read clock counter
    with ⟨pkt, parsed, pktAxes⟩
  rw [parsed, checked_ok_iff, validateRange_iff limitNumber] at ok
  rw [parsed, checked_packet]
  have valueOf :
      ∀ text ∈ axisTexts payload,
        ∃ axis ∈ axes pkt, readNumber text = some axis := by
    intro text member
    have valued : readNumber text ∈ [some x, some y, some z] := by
      rw [← read]
      exact List.mem_map_of_mem member
    rw [pktAxes]
    simpa using valued
  have textOf :
      ∀ axis ∈ axes pkt,
        ∃ text ∈ axisTexts payload, readNumber text = some axis := by
    intro axis member
    have listed : some axis ∈ (axisTexts payload).map readNumber := by
      rw [read]
      simpa [pktAxes] using member
    exact List.mem_map.mp listed
  have noneNan : ∀ axis ∈ axes pkt, axis ≠ .nan := by
    rintro axis member rfl
    rcases textOf .nan member with ⟨text, textMember, textRead⟩
    apply noNan
    constructor
    · exact complete
    · simpa using congrArg List.length read
    · intro other otherMember
      rcases valueOf other otherMember with ⟨value, valueMember, valueRead⟩
      rcases ok value valueMember with rfl | within
      · exact Or.inl (spellsNan_of_readNumber valueRead)
      · exact Or.inr ⟨value, valueRead, within⟩
    · exact ⟨text, textMember, spellsNan_of_readNumber textRead⟩
  intro axis member
  have isNumber := noneNan axis member
  exact ⟨isNumber, (ok axis member).resolve_left isNumber⟩

/--
The gate holds exactly where no NaN spelling stands among axes that are
otherwise in order.
-/
theorem gate_iff
    (cfg : ValidatorConfig) (finite : cfg.maxAccMs2.IsFinite)
    (clock : UInt64) (counter : UInt32) (payload : Bytes) :
    ((parse cfg clock counter payload).1.result = .ok →
        InRange cfg (parse cfg clock counter payload).1.packet) ↔
      ¬ NanAmongAxes cfg payload := by
  have limitNumber : cfg.maxAccMs2 ≠ .nan := by
    rcases finite with ⟨negative, magnitude, equal⟩
    simp [equal]
  constructor
  · intro gate nanAmong
    rcases accepts_nan limitNumber nanAmong clock counter with ⟨ok, member⟩
    exact (gate ok .nan member).1 rfl
  · intro noNan ok
    exact inRange_of_ok limitNumber noNan ok

/-- A native packet that gives its first axis as `nan`. -/
def nanPayload : Bytes :=
  ascii "\x7b\"ts\":1,\"seq\":1,\"ax\":nan,\"ay\":0,\"az\":0\x7d"

/-- The packet is accepted, and its first axis is no number. -/
theorem nanPayload_passes :
    ¬ ((parse .default 0 0 nanPayload).1.result = .ok →
        InRange .default (parse .default 0 0 nanPayload).1.packet) := by
  intro gate
  have ok : (parse .default 0 0 nanPayload).1.result = .ok := by
    decide +kernel
  have isNan : (parse .default 0 0 nanPayload).1.packet.accX = .nan := by
    decide +kernel
  exact (gate ok _ List.mem_cons_self).1 isNan

theorem gate_iff_nanPayload :
    ((parse .default 0 0 nanPayload).1.result = .ok →
        InRange .default (parse .default 0 0 nanPayload).1.packet) ↔
      ¬ NanAmongAxes .default nanPayload :=
  gate_iff .default ⟨false, _, rfl⟩ 0 0 nanPayload

end AccelObserver.Server.RangeGate
