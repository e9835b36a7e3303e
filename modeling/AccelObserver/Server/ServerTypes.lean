import AccelObserver.Library.Single

/-!
# Core data types of the server

The record that every part of the server handles, the verdict of the packet
validator on one payload, and the configuration.
-/

namespace AccelObserver.Server

open AccelObserver.Library

structure DataPacket where
  timestampMs : UInt64
  sequenceId : UInt32
  accX : Double
  accY : Double
  accZ : Double
  deriving DecidableEq

/-- `ParsedPacket result{}` sets every field to zero. -/
def DataPacket.zero : DataPacket :=
  { timestampMs := 0
    sequenceId := 0
    accX := Double.zero
    accY := Double.zero
    accZ := Double.zero }

instance : Inhabited DataPacket := ⟨.zero⟩

inductive ParseResult
  | ok
  | invalidFormat
  | missingFields
  | outOfRange
  deriving DecidableEq

structure ParsedPacket where
  packet : DataPacket
  result : ParseResult
  deriving DecidableEq

/-! ## The configuration -/

inductive TransportType
  | mqtt
  | webSocket
  deriving DecidableEq

/-- `Config`, where a `size_t` has 64 bits. -/
structure Config where
  transport : TransportType
  host : Bytes
  port : UInt16
  mqttTopic : Bytes
  mqttClientId : Bytes
  mqttUsername : Bytes
  mqttPassword : Bytes
  mqttQos : ℤ
  mqttKeepalive : ℤ
  mqttWillTopic : Bytes
  mqttWillPayload : Bytes
  mqttWillQos : ℤ
  mqttWillRetain : Bool
  outputFile : Bytes
  storePath : Bytes
  bufferCapacity : UInt64
  flushIntervalMs : UInt64
  autoBuffer : Bool
  csvSeparator : Bytes
  logFile : Bytes
  logAlsoStderr : Bool
  logLevel : Bytes
  webEnabled : Bool
  webHost : Bytes
  webPort : UInt16
  webStatsIntervalMs : UInt32
  deviceModel : Bytes
  deviceRangeG : Single
  timesource : Bytes
  maxAccMs2 : Double
  seqOptional : Bool
  deriving DecidableEq

/-- `Config{}` -/
def Config.default : Config where
  transport := .mqtt
  host := ascii "localhost"
  port := 1883
  mqttTopic := ascii "sensors/accel"
  mqttClientId := ascii "data-subscriber"
  mqttUsername := []
  mqttPassword := []
  mqttQos := 0
  mqttKeepalive := 60
  mqttWillTopic := []
  mqttWillPayload := ascii "\x7b\"status\":\"offline\"\x7d"
  mqttWillQos := 0
  mqttWillRetain := false
  outputFile := []
  storePath := []
  bufferCapacity := 4096
  flushIntervalMs := 500
  autoBuffer := true
  csvSeparator := ascii ";"
  logFile := ascii "stderr"
  logAlsoStderr := true
  logLevel := ascii "INFO"
  webEnabled := true
  webHost := ascii "0.0.0.0"
  webPort := 8088
  webStatsIntervalMs := 1000
  deviceModel := ascii "generic"
  deviceRangeG := Single.ofDouble (.finite false 16)
  timesource := ascii "external"
  maxAccMs2 := Double.zero
  seqOptional := false

end AccelObserver.Server
