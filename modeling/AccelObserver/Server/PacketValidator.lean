import AccelObserver.Library.CNumber
import AccelObserver.Library.Text
import AccelObserver.Server.ServerTypes

/-!
# The packet validator

`PacketValidator::parse` reads two JSON formats by searching for keys: the
native one with three keyed axes, and that of the Android app with a bracketed
array.  The clock is an argument, and the counter that numbers Android packets
is passed in and handed on.

The range check is made of negated comparisons, so a NaN passes it.
-/

namespace AccelObserver.Server.PacketValidator

open AccelObserver.Library
open AccelObserver.Library.CNumber
open AccelObserver.Library.Text (findAfter occurs)

inductive TimeSource
  | external
  | host
  deriving DecidableEq

structure ValidatorConfig where
  maxAccMs2 : Double
  timesource : TimeSource
  seqOptional : Bool

/-- `ValidatorConfig{}` -/
def ValidatorConfig.default : ValidatorConfig :=
  { maxAccMs2 := .finite false (1569064 / 10000)
    timesource := .external
    seqOptional := false }

/-! ## Field extractors -/

/-- What may stand between a key and its value: blanks, colons and tabs. -/
def isSeparator (byte : UInt8) : Bool :=
  byte == 32 || byte == 58 || byte == 9

/-- The text where the value of a key begins. -/
def fieldText (json key : Bytes) : Option Bytes :=
  (findAfter (34 :: (key ++ [34])) json).map fun text =>
    text.dropWhile isSeparator

/-- A conversion that found a numeral and did not report `ERANGE`. -/
def accepted {Value : Type} :
    Option (Conversion Value) → Option (Value × Bytes)
  | none => none
  | some conversion =>
      if conversion.erange then none
      else some (conversion.value, conversion.rest)

/-- `extract_uint64` -/
def extractUint64 (json key : Bytes) : Option UInt64 :=
  match fieldText json key with
  | none => none
  | some text =>
      if text = [] then none
      else (accepted (strtoull text)).map Prod.fst

/-- `extract_uint32` -/
def extractUint32 (json key : Bytes) : Option UInt32 :=
  match extractUint64 json key with
  | none => none
  | some value => if 0xFFFFFFFF < value then none else some value.toUInt32

/-- `extract_double` -/
def extractDouble (json key : Bytes) : Option Double :=
  match fieldText json key with
  | none => none
  | some text =>
      if text = [] then none
      else (accepted (strtod text)).map Prod.fst

/-- What may stand between array elements: blanks, commas and tabs. -/
def isArraySeparator (byte : UInt8) : Bool :=
  byte == 32 || byte == 44 || byte == 9

/-- The element loop of `extract_array_doubles`, with room for so many. -/
def arrayLoop : Nat → Bytes → List Double
  | 0, _ => []
  | room + 1, text =>
      match text.dropWhile isArraySeparator with
      | [] => []
      | byte :: rest =>
          if byte = 93 then
            []
          else
            match accepted (strtod (byte :: rest)) with
            | none => []
            | some (value, after) => value :: arrayLoop room after

/-- The text behind the opening bracket of an array field. -/
def arrayText (json key : Bytes) : Option Bytes :=
  match fieldText json key with
  | some (91 :: text) => some text
  | _ => none

/-- `extract_array_doubles` -/
def extractArrayDoubles (json key : Bytes) (maxCount : Nat) : List Double :=
  match arrayText json key with
  | none => []
  | some text => arrayLoop maxCount text

/-- `detect_android_format` -/
def detectAndroidFormat (json : Bytes) : Bool :=
  occurs (ascii "\"type\"") json && occurs (ascii "android.sensor.") json &&
    occurs (ascii "\"values\"") json

/-! ## The two parsers -/

/-- The comparison pair of `validate_range` on one axis. -/
def outside (limit axis : Double) : Bool :=
  axis.lt limit.neg || limit.lt axis

/-- `validate_range` -/
def validateRange (cfg : ValidatorConfig) (pkt : DataPacket) : Bool :=
  if outside cfg.maxAccMs2 pkt.accX then false
  else if outside cfg.maxAccMs2 pkt.accY then false
  else if outside cfg.maxAccMs2 pkt.accZ then false
  else true

/-- The verdict once all fields are there. -/
def checked (cfg : ValidatorConfig) (pkt : DataPacket) : ParsedPacket :=
  if validateRange cfg pkt then { packet := pkt, result := .ok }
  else { packet := pkt, result := .outOfRange }

/-- `parse_android`: the counter goes up whatever the verdict. -/
def parseAndroid (cfg : ValidatorConfig) (clock : UInt64) (counter : UInt32)
    (payload : Bytes) : ParsedPacket × UInt32 :=
  let pkt :=
    { DataPacket.zero with timestampMs := clock, sequenceId := counter }
  match extractArrayDoubles payload (ascii "values") 3 with
  | [x, y, z] =>
      (checked cfg { pkt with accX := x, accY := y, accZ := z }, counter + 1)
  | _ => ({ packet := pkt, result := .missingFields }, counter + 1)

/-- The timestamp of a native packet: zero counts as absent. -/
def timestamp (cfg : ValidatorConfig) (clock : UInt64) (payload : Bytes) :
    Option UInt64 :=
  let absent :=
    match cfg.timesource with
    | .external => none
    | .host => some clock
  match extractUint64 payload (ascii "ts") with
  | none => absent
  | some value => if value = 0 then absent else some value

/-- The sequence number of a native packet. -/
def sequenceNumber (cfg : ValidatorConfig) (payload : Bytes) :
    Option UInt32 :=
  match extractUint32 payload (ascii "seq") with
  | none => if cfg.seqOptional then some 0 else none
  | some value => some value

/-- The native branch of `parse`, field after field. -/
def parseNative (cfg : ValidatorConfig) (clock : UInt64) (payload : Bytes) :
    ParsedPacket :=
  let pkt := DataPacket.zero
  match timestamp cfg clock payload with
  | none => { packet := pkt, result := .missingFields }
  | some ts =>
  let pkt := { pkt with timestampMs := ts }
  match sequenceNumber cfg payload with
  | none => { packet := pkt, result := .missingFields }
  | some seq =>
  let pkt := { pkt with sequenceId := seq }
  match extractDouble payload (ascii "ax") with
  | none => { packet := pkt, result := .missingFields }
  | some x =>
  let pkt := { pkt with accX := x }
  match extractDouble payload (ascii "ay") with
  | none => { packet := pkt, result := .missingFields }
  | some y =>
  let pkt := { pkt with accY := y }
  match extractDouble payload (ascii "az") with
  | none => { packet := pkt, result := .missingFields }
  | some z => checked cfg { pkt with accZ := z }

/-- `PacketValidator::parse`, and the counter behind it. -/
def parse (cfg : ValidatorConfig) (clock : UInt64) (counter : UInt32)
    (payload : Bytes) : ParsedPacket × UInt32 :=
  if detectAndroidFormat payload then
    parseAndroid cfg clock counter payload
  else
    (parseNative cfg clock payload, counter)

end AccelObserver.Server.PacketValidator
