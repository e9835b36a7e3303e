import AccelObserver.Library.JsonNumber
import AccelObserver.Server.FieldOrder

/-!
# Integers as they are written

The validator reads `ts` and `seq` with `strtoull`, which takes a sign, negates
modulo `2 ^ 64` and stops at the first byte that is no digit.  So an accepted
packet can have a number that its payload does not.
-/

namespace AccelObserver.Server.WrittenIntegers

open AccelObserver.Library
open AccelObserver.Library.CNumber
open AccelObserver.Library.Decimal
open AccelObserver.Library.JsonNumber
open AccelObserver.Library.Text (findAfter)
open AccelObserver.Server.FieldOrder (parseNative_eq_ok_iff)
open AccelObserver.Server.PacketValidator

/-! ## The number behind a key -/

/-- What stands between a key and its value: blanks and the colon. -/
def isBlank (byte : UInt8) : Bool :=
  isSpace byte || byte == 58

/-- The text where the number of the first such key is. -/
def numberText (payload key : Bytes) : Option Bytes :=
  (findAfter (34 :: (key ++ [34])) payload).map fun text =>
    text.dropWhile isBlank

/-- The number behind the first such key is this one. -/
def Written (payload key : Bytes) (n : Nat) : Prop :=
  ∃ text, numberText payload key = some text ∧ Denotes text n

/-- The number behind the first such key is written plainly. -/
def PlainlyWritten (payload key : Bytes) : Prop :=
  ∃ text, numberText payload key = some text ∧ Plain text

/-- The timestamp is the packet's own. -/
def TakesTs (payload : Bytes) : Prop :=
  ∃ value, extractUint64 payload (ascii "ts") = some value ∧ value ≠ 0

/-- The sequence number is the packet's own. -/
def TakesSeq (payload : Bytes) : Prop :=
  (extractUint32 payload (ascii "seq")).isSome

/-- What is taken from a payload is what is written there. -/
structure AsWritten (payload : Bytes) (pkt : DataPacket) : Prop where
  ts : TakesTs payload → Written payload (ascii "ts") pkt.timestampMs.toNat
  seq : TakesSeq payload → Written payload (ascii "seq") pkt.sequenceId.toNat

/-! ## Where the extractors read -/

/-- Skipping some of the bytes first changes nothing. -/
theorem dropWhile_dropWhile
    {some all : UInt8 → Bool} (weaker : ∀ byte, some byte → all byte)
    (text : Bytes) :
    (text.dropWhile some).dropWhile all = text.dropWhile all := by
  induction text with
  | nil => rfl
  | cons byte rest induction =>
      rw [List.dropWhile_cons]
      split_ifs with skipped
      · rw [induction, List.dropWhile_cons, if_pos (weaker byte skipped)]
      · rfl

theorem isBlank_of_isSeparator (byte : UInt8) (separator : isSeparator byte) :
    isBlank byte := by
  rw [isSeparator, Bool.or_eq_true, Bool.or_eq_true, beq_iff_eq, beq_iff_eq,
    beq_iff_eq] at separator
  rcases separator with (rfl | rfl) | rfl <;> rfl

theorem isBlank_of_isSpace (byte : UInt8) (space : isSpace byte) :
    isBlank byte := by
  rw [isBlank, space]
  rfl

/-- A sign or a digit is no blank. -/
theorem dropWhile_isBlank
    {text : Bytes} (read : (digitRun text).1 ≠ []) :
    text.dropWhile isBlank = text := by
  cases text with
  | nil => rfl
  | cons byte rest =>
      have noBlank : isBlank byte = false := by
        rw [digitRun, scanSign] at read
        split_ifs at read with plus minus
        · rw [plus]
          rfl
        · rw [minus]
          rfl
        · cases run : scan 10 (byte :: rest) with
          | mk digits after =>
          rw [run] at read
          cases digits with
          | nil => exact absurd rfl read
          | cons digit digits =>
              rcases scan_eq_cons run with ⟨_, same, small, _⟩
              rw [(List.cons.inj same).1]
              have digitsPlain :
                  ∀ digit < 10, isBlank (digitByte digit) = false := by
                decide
              exact digitsPlain digit small
      rw [List.dropWhile_cons, noBlank]
      rfl

/-- What `strtoull` makes of the digits behind the blanks. -/
theorem digitRun_of_accepted
    {text : Bytes} {value : UInt64}
    (read : (accepted (strtoull text)).map Prod.fst = some value) :
    (digitRun (text.dropWhile isSpace)).1 ≠ [] ∧
      positional 10 (digitRun (text.dropWhile isSpace)).1 < 2 ^ 64 ∧
      value =
        if (scanSign (text.dropWhile isSpace)).1 then
          -UInt64.ofNat (positional 10 (digitRun (text.dropWhile isSpace)).1)
        else
          UInt64.ofNat
            (positional 10 (digitRun (text.dropWhile isSpace)).1) := by
  simp only [strtoull] at read
  split_ifs at read with none bounded minus
  · cases read
  · cases read
    exact ⟨none, bounded, (if_pos minus).symm⟩
  · cases read
    exact ⟨none, bounded, (if_neg minus).symm⟩
  · cases read

/-- Where there are digits, the extractor looks at the text of the number. -/
theorem numberText_of_extract
    {payload key : Bytes} {value : UInt64}
    (extracted : extractUint64 payload key = some value) :
    ∃ text, numberText payload key = some text ∧
      (digitRun text).1 ≠ [] ∧
      positional 10 (digitRun text).1 < 2 ^ 64 ∧
      value =
        if (scanSign text).1 then
          -UInt64.ofNat (positional 10 (digitRun text).1)
        else UInt64.ofNat (positional 10 (digitRun text).1) := by
  rw [extractUint64, fieldText] at extracted
  rw [numberText]
  cases found : findAfter (34 :: (key ++ [34])) payload with
  | none =>
      rw [found] at extracted
      cases extracted
  | some behind =>
      simp only [found, Option.map_some] at extracted
      split_ifs at extracted
      have run := digitRun_of_accepted extracted
      refine ⟨behind.dropWhile isBlank, rfl, ?_⟩
      rw [← dropWhile_dropWhile isBlank_of_isSeparator behind,
        ← dropWhile_dropWhile isBlank_of_isSpace,
        dropWhile_isBlank run.1]
      exact run

/-! ## Accepted packets -/

theorem neg_eq_zero_iff {value : UInt64} : -value = 0 ↔ value = 0 :=
  not_iff_not.mp UInt64.neg_ne_zero

/-- An extracted number is the written one exactly if that is plain. -/
theorem written_iff
    {payload key : Bytes} {value : UInt64}
    (extracted : extractUint64 payload key = some value) :
    Written payload key value.toNat ↔ PlainlyWritten payload key := by
  rcases numberText_of_extract extracted with
    ⟨text, found, read, bounded, same⟩
  have denotes : Denotes text value.toNat ↔ Plain text := by
    apply denotes_iff_plain read
    · intro noMinus
      rw [same, if_neg (mt (scanSign_fst_iff text).mp noMinus),
        UInt64.toNat_ofNat_of_lt' bounded]
    · intro minus
      rw [same, if_pos ((scanSign_fst_iff text).mpr minus),
        ← UInt64.toNat_zero, UInt64.toNat_inj, neg_eq_zero_iff,
        ← UInt64.toNat_inj, UInt64.toNat_ofNat_of_lt' bounded,
        UInt64.toNat_zero]
  simp only [Written, PlainlyWritten, found, Option.some.injEq,
    exists_eq_left', denotes]

/-- What the verdict says about the first two fields. -/
theorem fields_of_ok
    {cfg : ValidatorConfig} {clock : UInt64} {counter : UInt32}
    {payload : Bytes} (native : detectAndroidFormat payload = false)
    (ok : (parse cfg clock counter payload).1.result = .ok) :
    timestamp cfg clock payload =
        some (parse cfg clock counter payload).1.packet.timestampMs ∧
      sequenceNumber cfg payload =
        some (parse cfg clock counter payload).1.packet.sequenceId := by
  have parsed :
      (parse cfg clock counter payload).1 = parseNative cfg clock payload := by
    rw [parse, native]
    rfl
  rw [parsed] at ok ⊢
  have whole :
      parseNative cfg clock payload =
        { packet := (parseNative cfg clock payload).packet, result := .ok } := by
    rw [← ok]
  rcases parseNative_eq_ok_iff.mp whole with ⟨ts, seq, _⟩
  exact ⟨ts, seq⟩

/-- The timestamp that is taken, and where it is from. -/
theorem timestampMs_of_takesTs
    {cfg : ValidatorConfig} {clock ts : UInt64} {payload : Bytes}
    (read : timestamp cfg clock payload = some ts) (takes : TakesTs payload) :
    extractUint64 payload (ascii "ts") = some ts := by
  rcases takes with ⟨value, extracted, nonzero⟩
  simp only [timestamp, extracted, if_neg nonzero] at read
  rw [extracted, read]

theorem sequenceId_of_takesSeq
    {cfg : ValidatorConfig} {seq : UInt32} {payload : Bytes}
    (read : sequenceNumber cfg payload = some seq)
    (takes : TakesSeq payload) :
    ∃ value, extractUint64 payload (ascii "seq") = some value ∧
      value.toNat = seq.toNat := by
  rcases Option.isSome_iff_exists.mp takes with ⟨taken, found⟩
  rw [sequenceNumber, found] at read
  cases read
  rw [extractUint32] at found
  cases extracted : extractUint64 payload (ascii "seq") with
  | none =>
      rw [extracted] at found
      cases found
  | some value =>
      simp only [extracted] at found
      split_ifs at found with large
      cases found
      refine ⟨value, rfl, ?_⟩
      rw [UInt64.not_lt, UInt64.le_iff_toNat_le] at large
      rw [UInt64.toNat_toUInt32]
      exact (Nat.mod_eq_of_lt (Nat.lt_succ_of_le large)).symm

/--
The integers of an accepted native packet are the ones written, exactly if
those that are taken are written plainly.
-/
theorem asWritten_iff
    {cfg : ValidatorConfig} {clock : UInt64} {counter : UInt32}
    {payload : Bytes} (native : detectAndroidFormat payload = false)
    (ok : (parse cfg clock counter payload).1.result = .ok) :
    AsWritten payload (parse cfg clock counter payload).1.packet ↔
      (TakesTs payload → PlainlyWritten payload (ascii "ts")) ∧
        (TakesSeq payload → PlainlyWritten payload (ascii "seq")) := by
  rcases fields_of_ok native ok with ⟨ts, seq⟩
  have tsIff (takes : TakesTs payload) :=
    written_iff (timestampMs_of_takesTs ts takes)
  have seqIff (takes : TakesSeq payload) :
      Written payload (ascii "seq")
          (parse cfg clock counter payload).1.packet.sequenceId.toNat ↔
        PlainlyWritten payload (ascii "seq") := by
    rcases sequenceId_of_takesSeq seq takes with ⟨value, extracted, same⟩
    rw [← same]
    exact written_iff extracted
  constructor
  · rintro ⟨tsWritten, seqWritten⟩
    exact ⟨fun takes => (tsIff takes).mp (tsWritten takes),
      fun takes => (seqIff takes).mp (seqWritten takes)⟩
  · rintro ⟨tsPlain, seqPlain⟩
    exact ⟨fun takes => (tsIff takes).mpr (tsPlain takes),
      fun takes => (seqIff takes).mpr (seqPlain takes)⟩

/-- A packet with a timestamp of -5. -/
def minusPayload : Bytes :=
  ascii "\x7b\"ts\":-5,\"seq\":1,\"ax\":0,\"ay\":0,\"az\":0\x7d"

theorem asWritten_iff_minusPayload :
    AsWritten minusPayload (parse .default 0 0 minusPayload).1.packet ↔
      (TakesTs minusPayload → PlainlyWritten minusPayload (ascii "ts")) ∧
        (TakesSeq minusPayload →
          PlainlyWritten minusPayload (ascii "seq")) :=
  asWritten_iff (by decide +kernel) (by decide +kernel)

/-- It is accepted with a timestamp of `2 ^ 64 - 5`. -/
theorem minusPayload_not_asWritten :
    ¬ ∀ (cfg : ValidatorConfig) (clock : UInt64) (counter : UInt32)
        (payload : Bytes), detectAndroidFormat payload = false →
        (parse cfg clock counter payload).1.result = .ok →
        AsWritten payload (parse cfg clock counter payload).1.packet := by
  intro always
  have extracted :
      extractUint64 minusPayload (ascii "ts") =
        some (UInt64.ofNat (2 ^ 64 - 5)) := by
    decide +kernel
  have ts :
      (parse .default 0 0 minusPayload).1.packet.timestampMs =
        UInt64.ofNat (2 ^ 64 - 5) := by
    decide +kernel
  have written :=
    (always .default 0 0 minusPayload (by decide +kernel)
      (by decide +kernel)).ts ⟨_, extracted, by decide⟩
  rw [ts, written_iff extracted] at written
  rcases written with ⟨text, found, plain⟩
  have place :
      numberText minusPayload (ascii "ts") =
        some (ascii "-5,\"seq\":1,\"ax\":0,\"ay\":0,\"az\":0\x7d") := by
    decide +kernel
  rw [place] at found
  cases found
  exact absurd (plain.minus rfl) (by decide +kernel)

end AccelObserver.Server.WrittenIntegers
