import AccelObserver.Server.ServerTypes
import AccelObserver.Shared.ConfReaders

/-!
# Applying a configuration

`apply_conf` of `confloader.cpp`, section by section.  A guarded assignment of
the source is here the assignment of a value that is the old one where the
guard fails.  The warnings that are logged are left out.

A `std::string` made of a null pointer throws; nothing on the way to `main`
catches that.
-/

namespace AccelObserver.Server.ConfLoader

open AccelObserver.Library
open AccelObserver.Library.CString
open AccelObserver.Shared.ConfParser
open AccelObserver.Shared.ConfReaders

/-! ## The idioms of the assignments -/

/-- `if (s && s[0]) field = s` -/
def nonemptyStr (conf : ConfResult) (sectionName key current : Bytes) :
    Bytes :=
  match confGetStr conf sectionName key none with
  | none => current
  | some s => if s = [] then current else s

/-- `if (s) field = s`, also where it is written with `conf_has_key`. -/
def anyStr (conf : ConfResult) (sectionName key current : Bytes) : Bytes :=
  match confGetStr conf sectionName key none with
  | none => current
  | some s => s

/-- `if (conf_has_key(…)) field = value` -/
def whenPresent {Value : Type} (conf : ConfResult) (sectionName key : Bytes)
    (value current : Value) : Value :=
  if confHasKey conf sectionName key then value else current

/-- `safe_port` -/
def safePort (conf : ConfResult) (sectionName key : Bytes)
    (fallback : UInt16) : UInt16 :=
  let v := confGetUint16 conf sectionName key 0
  if v = 0 then fallback else v

/-- A quality of service outside of 0 to 2 becomes 0. -/
def qosOrZero (qos : ℤ) : ℤ :=
  if qos < 0 ∨ 2 < qos then 0 else qos

/-! ## The sections -/

/-- The transport that a protocol names. -/
def protocolTransport (mode : Bytes) (current : TransportType) :
    TransportType :=
  let m := lower mode
  if m = ascii "mqtt" then .mqtt
  else if m = ascii "ws" ∨ m = ascii "websocket" then .webSocket
  else current

/-- The transport that is configured. -/
def readTransport (conf : ConfResult) (current : TransportType) :
    TransportType :=
  match confGetStr conf (ascii "transport") (ascii "protocol") none with
  | none => current
  | some mode =>
      if mode = [] then current else protocolTransport mode current

/-- `[transport]` -/
def applyTransport (conf : ConfResult) (cfg : Config) : Config :=
  { cfg with
    transport := readTransport conf cfg.transport
    webEnabled :=
      whenPresent conf (ascii "transport") (ascii "webinterface")
        (confGetBool conf (ascii "transport") (ascii "webinterface") false)
        cfg.webEnabled }

/-- `[connection]`, with the host that is there. -/
def applyConnection (conf : ConfResult) (h : Bytes) (cfg : Config) : Config :=
  { cfg with
    host := if h = [] then cfg.host else h
    port := safePort conf (ascii "connection") (ascii "port") cfg.port }

/-- `[mqtt]` -/
def applyMqtt (conf : ConfResult) (cfg : Config) : Config :=
  { cfg with
    mqttTopic := nonemptyStr conf (ascii "mqtt") (ascii "topic") cfg.mqttTopic
    mqttClientId :=
      anyStr conf (ascii "mqtt") (ascii "client_id") cfg.mqttClientId
    mqttUsername :=
      anyStr conf (ascii "mqtt") (ascii "username") cfg.mqttUsername
    mqttPassword :=
      anyStr conf (ascii "mqtt") (ascii "password") cfg.mqttPassword
    mqttQos :=
      qosOrZero (confGetInt conf (ascii "mqtt") (ascii "qos") cfg.mqttQos)
    mqttKeepalive :=
      confGetInt conf (ascii "mqtt") (ascii "keepalive") cfg.mqttKeepalive
    mqttWillTopic :=
      nonemptyStr conf (ascii "mqtt") (ascii "will_topic") cfg.mqttWillTopic
    mqttWillPayload :=
      nonemptyStr conf (ascii "mqtt") (ascii "will_payload")
        cfg.mqttWillPayload
    mqttWillQos :=
      whenPresent conf (ascii "mqtt") (ascii "will_qos")
        (qosOrZero
          (confGetInt conf (ascii "mqtt") (ascii "will_qos") cfg.mqttWillQos))
        cfg.mqttWillQos
    mqttWillRetain :=
      whenPresent conf (ascii "mqtt") (ascii "will_retain")
        (confGetBool conf (ascii "mqtt") (ascii "will_retain")
          cfg.mqttWillRetain)
        cfg.mqttWillRetain }

/-- The capacity that is set explicitly; 0 where there is none. -/
def explicitCapacity (conf : ConfResult) : UInt64 :=
  whenPresent conf (ascii "storage") (ascii "buffer_capacity")
    (confGetSize conf (ascii "storage") (ascii "buffer_capacity") 0) 0

/-- `[storage]` -/
def applyStorage (conf : ConfResult) (cfg : Config) : Config :=
  let cap := explicitCapacity conf
  let fi :=
    confGetSize conf (ascii "storage") (ascii "flush_interval_ms")
      cfg.flushIntervalMs
  { cfg with
    outputFile :=
      nonemptyStr conf (ascii "storage") (ascii "output") cfg.outputFile
    storePath :=
      nonemptyStr conf (ascii "storage") (ascii "store_path") cfg.storePath
    bufferCapacity := if cap = 0 then cfg.bufferCapacity else cap
    autoBuffer := if cap = 0 then cfg.autoBuffer else false
    flushIntervalMs := if fi = 0 then cfg.flushIntervalMs else fi
    csvSeparator :=
      nonemptyStr conf (ascii "storage") (ascii "csv_separator")
        cfg.csvSeparator }

/-- `[logging]` -/
def applyLogging (conf : ConfResult) (cfg : Config) : Config :=
  { cfg with
    logFile := nonemptyStr conf (ascii "logging") (ascii "file") cfg.logFile
    logAlsoStderr :=
      confGetBool conf (ascii "logging") (ascii "also_stderr")
        cfg.logAlsoStderr
    logLevel :=
      nonemptyStr conf (ascii "logging") (ascii "level") cfg.logLevel }

/-- `[web]` -/
def applyWeb (conf : ConfResult) (cfg : Config) : Config :=
  { cfg with
    webEnabled :=
      whenPresent conf (ascii "web") (ascii "enabled")
        (confGetBool conf (ascii "web") (ascii "enabled") cfg.webEnabled)
        cfg.webEnabled
    webHost := nonemptyStr conf (ascii "web") (ascii "host") cfg.webHost
    webPort := safePort conf (ascii "web") (ascii "port") cfg.webPort
    webStatsIntervalMs :=
      confGetUint32 conf (ascii "web") (ascii "stats_interval_ms")
        cfg.webStatsIntervalMs }

/-- `[device]` -/
def applyDevice (conf : ConfResult) (cfg : Config) : Config :=
  { cfg with
    deviceModel :=
      nonemptyStr conf (ascii "device") (ascii "model") cfg.deviceModel
    deviceRangeG :=
      whenPresent conf (ascii "device") (ascii "range_g")
        (Single.ofDouble
          (confGetDouble conf (ascii "device") (ascii "range_g")
            cfg.deviceRangeG.number))
        cfg.deviceRangeG }

/-- `[validator]` -/
def applyValidator (conf : ConfResult) (cfg : Config) : Config :=
  { cfg with
    timesource :=
      nonemptyStr conf (ascii "validator") (ascii "timesource") cfg.timesource
    maxAccMs2 :=
      whenPresent conf (ascii "validator") (ascii "max_acc_ms2")
        (confGetDouble conf (ascii "validator") (ascii "max_acc_ms2")
          cfg.maxAccMs2)
        cfg.maxAccMs2
    seqOptional :=
      whenPresent conf (ascii "validator") (ascii "seq_optional")
        (confGetBool conf (ascii "validator") (ascii "seq_optional")
          cfg.seqOptional)
        cfg.seqOptional }

/-- `apply_conf`; `error` is an exception, with what was assigned before. -/
def applyConf (conf : ConfResult) (cfg : Config) : Except Config Config :=
  let cfg := applyTransport conf cfg
  match confGetStr conf (ascii "connection") (ascii "host") none with
  | none => .error cfg
  | some h =>
      .ok
        (applyValidator conf
          (applyDevice conf
            (applyWeb conf
              (applyLogging conf
                (applyStorage conf
                  (applyMqtt conf (applyConnection conf h cfg)))))))

end AccelObserver.Server.ConfLoader
