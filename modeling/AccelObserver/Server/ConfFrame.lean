import AccelObserver.Server.ConfLoader

/-!
# What applying a configuration leaves alone

A field is meant to keep its value when no key of it is in the document, or
when the value of the key cannot be read.  Most assignments have the old value
as their fallback.  Three statements do not: the host is made of the pointer
that the search gives, an unreadable `webinterface` counts as false, and the
quality of service of the will is checked even when it is the old one.
`applyConf_framed_iff` says when this makes no difference.
-/

namespace AccelObserver.Server.ConfFrame

open AccelObserver.Library
open AccelObserver.Library.CString
open AccelObserver.Library.CInteger (SpellsInteger)
open AccelObserver.Shared.ConfParser
open AccelObserver.Shared.ConfReaders
open AccelObserver.Server.ConfLoader

/-! ## The fields and their keys -/

/-- The fields of `Config`. -/
inductive Field
  | transport
  | host
  | port
  | mqttTopic
  | mqttClientId
  | mqttUsername
  | mqttPassword
  | mqttQos
  | mqttKeepalive
  | mqttWillTopic
  | mqttWillPayload
  | mqttWillQos
  | mqttWillRetain
  | outputFile
  | storePath
  | bufferCapacity
  | flushIntervalMs
  | autoBuffer
  | csvSeparator
  | logFile
  | logAlsoStderr
  | logLevel
  | webEnabled
  | webHost
  | webPort
  | webStatsIntervalMs
  | deviceModel
  | deviceRangeG
  | timesource
  | maxAccMs2
  | seqOptional
  deriving DecidableEq

/-- The sections and keys that can set a field. -/
def Field.keys : Field → List (Bytes × Bytes)
  | .transport => [(ascii "transport", ascii "protocol")]
  | .host => [(ascii "connection", ascii "host")]
  | .port => [(ascii "connection", ascii "port")]
  | .mqttTopic => [(ascii "mqtt", ascii "topic")]
  | .mqttClientId => [(ascii "mqtt", ascii "client_id")]
  | .mqttUsername => [(ascii "mqtt", ascii "username")]
  | .mqttPassword => [(ascii "mqtt", ascii "password")]
  | .mqttQos => [(ascii "mqtt", ascii "qos")]
  | .mqttKeepalive => [(ascii "mqtt", ascii "keepalive")]
  | .mqttWillTopic => [(ascii "mqtt", ascii "will_topic")]
  | .mqttWillPayload => [(ascii "mqtt", ascii "will_payload")]
  | .mqttWillQos => [(ascii "mqtt", ascii "will_qos")]
  | .mqttWillRetain => [(ascii "mqtt", ascii "will_retain")]
  | .outputFile => [(ascii "storage", ascii "output")]
  | .storePath => [(ascii "storage", ascii "store_path")]
  | .bufferCapacity => [(ascii "storage", ascii "buffer_capacity")]
  | .flushIntervalMs => [(ascii "storage", ascii "flush_interval_ms")]
  | .autoBuffer => [(ascii "storage", ascii "buffer_capacity")]
  | .csvSeparator => [(ascii "storage", ascii "csv_separator")]
  | .logFile => [(ascii "logging", ascii "file")]
  | .logAlsoStderr => [(ascii "logging", ascii "also_stderr")]
  | .logLevel => [(ascii "logging", ascii "level")]
  | .webEnabled =>
      [(ascii "transport", ascii "webinterface"),
        (ascii "web", ascii "enabled")]
  | .webHost => [(ascii "web", ascii "host")]
  | .webPort => [(ascii "web", ascii "port")]
  | .webStatsIntervalMs => [(ascii "web", ascii "stats_interval_ms")]
  | .deviceModel => [(ascii "device", ascii "model")]
  | .deviceRangeG => [(ascii "device", ascii "range_g")]
  | .timesource => [(ascii "validator", ascii "timesource")]
  | .maxAccMs2 => [(ascii "validator", ascii "max_acc_ms2")]
  | .seqOptional => [(ascii "validator", ascii "seq_optional")]

/-- A known protocol, in any case. -/
def SpellsProtocol (text : Bytes) : Prop :=
  lower text ∈ [ascii "mqtt", ascii "ws", ascii "websocket"]

/-- The values that can be read as the type of the field. -/
def Field.spells : Field → Bytes → Prop
  | .transport => SpellsProtocol
  | .mqttWillRetain | .logAlsoStderr | .webEnabled | .seqOptional => SpellsBool
  | .port | .mqttQos | .mqttKeepalive | .mqttWillQos | .bufferCapacity
  | .flushIntervalMs | .autoBuffer | .webPort | .webStatsIntervalMs =>
      SpellsInteger
  | .deviceRangeG | .maxAccMs2 => SpellsNumber
  | _ => fun _ => True

/-- The field has the value that it had before. -/
def Field.Same (before after : Config) : Field → Prop
  | .transport => after.transport = before.transport
  | .host => after.host = before.host
  | .port => after.port = before.port
  | .mqttTopic => after.mqttTopic = before.mqttTopic
  | .mqttClientId => after.mqttClientId = before.mqttClientId
  | .mqttUsername => after.mqttUsername = before.mqttUsername
  | .mqttPassword => after.mqttPassword = before.mqttPassword
  | .mqttQos => after.mqttQos = before.mqttQos
  | .mqttKeepalive => after.mqttKeepalive = before.mqttKeepalive
  | .mqttWillTopic => after.mqttWillTopic = before.mqttWillTopic
  | .mqttWillPayload => after.mqttWillPayload = before.mqttWillPayload
  | .mqttWillQos => after.mqttWillQos = before.mqttWillQos
  | .mqttWillRetain => after.mqttWillRetain = before.mqttWillRetain
  | .outputFile => after.outputFile = before.outputFile
  | .storePath => after.storePath = before.storePath
  | .bufferCapacity => after.bufferCapacity = before.bufferCapacity
  | .flushIntervalMs => after.flushIntervalMs = before.flushIntervalMs
  | .autoBuffer => after.autoBuffer = before.autoBuffer
  | .csvSeparator => after.csvSeparator = before.csvSeparator
  | .logFile => after.logFile = before.logFile
  | .logAlsoStderr => after.logAlsoStderr = before.logAlsoStderr
  | .logLevel => after.logLevel = before.logLevel
  | .webEnabled => after.webEnabled = before.webEnabled
  | .webHost => after.webHost = before.webHost
  | .webPort => after.webPort = before.webPort
  | .webStatsIntervalMs => after.webStatsIntervalMs = before.webStatsIntervalMs
  | .deviceModel => after.deviceModel = before.deviceModel
  | .deviceRangeG => after.deviceRangeG = before.deviceRangeG
  | .timesource => after.timesource = before.timesource
  | .maxAccMs2 => after.maxAccMs2 = before.maxAccMs2
  | .seqOptional => after.seqOptional = before.seqOptional

/-- No key of the field has a value that can be read. -/
def Field.NotRead (conf : ConfResult) (field : Field) : Prop :=
  ∀ key ∈ field.keys, Unread field.spells conf key.1 key.2

/-! ## The idioms -/

section Idioms

variable {conf : ConfResult} {sectionName key : Bytes}

theorem confGetStr_of_unread
    (unread : Unread (fun _ => True) conf sectionName key)
    (fallback : Option Bytes) :
    confGetStr conf sectionName key fallback = fallback := by
  rw [confGetStr]
  cases found : findEntry conf sectionName key with
  | none => rfl
  | some e => exact absurd trivial (unread e found)

theorem nonemptyStr_of_unread
    (unread : Unread (fun _ => True) conf sectionName key) (current : Bytes) :
    nonemptyStr conf sectionName key current = current := by
  rw [nonemptyStr, confGetStr_of_unread unread]

theorem anyStr_of_unread
    (unread : Unread (fun _ => True) conf sectionName key) (current : Bytes) :
    anyStr conf sectionName key current = current := by
  rw [anyStr, confGetStr_of_unread unread]

theorem whenPresent_of_eq
    {Value : Type} {value current : Value} (same : value = current) :
    whenPresent conf sectionName key value current = current := by
  rw [whenPresent, same, ite_self]

theorem whenPresent_of_absent
    (absent : findEntry conf sectionName key = none)
    {Value : Type} (value current : Value) :
    whenPresent conf sectionName key value current = current := by
  rw [whenPresent, confHasKey, absent]
  rfl

theorem whenPresent_of_found
    {e : ConfEntry} (found : findEntry conf sectionName key = some e)
    {Value : Type} (value current : Value) :
    whenPresent conf sectionName key value current = value := by
  rw [whenPresent, confHasKey, found]
  rfl

theorem safePort_of_unread
    (unread : Unread SpellsInteger conf sectionName key) (fallback : UInt16) :
    safePort conf sectionName key fallback = fallback := by
  rw [safePort, confGetUint16_of_unread unread]
  rfl

theorem qosOrZero_of_mem {qos : ℤ} (range : 0 ≤ qos ∧ qos ≤ 2) :
    qosOrZero qos = qos := by
  rw [qosOrZero, if_neg]
  omega

theorem qosOrZero_ne {qos : ℤ} (outside : ¬ (0 ≤ qos ∧ qos ≤ 2)) :
    qosOrZero qos ≠ qos := by
  rw [qosOrZero, if_pos]
  · omega
  · omega

theorem readTransport_of_unread
    (unread :
      Unread SpellsProtocol conf (ascii "transport") (ascii "protocol"))
    (current : TransportType) :
    readTransport conf current = current := by
  rw [readTransport, confGetStr]
  cases found :
      findEntry conf (ascii "transport") (ascii "protocol") with
  | none => rfl
  | some e =>
      have unknown := unread e found
      simp only [SpellsProtocol, List.mem_cons, List.not_mem_nil, or_false,
        not_or] at unknown
      simp only [protocolTransport, if_neg unknown.1,
        if_neg (not_or.mpr unknown.2), ite_self]

end Idioms

/-! ## The frame -/

/-- The configuration after every section, with the host that is there. -/
def applied (conf : ConfResult) (h : Bytes) (cfg : Config) : Config :=
  applyValidator conf
    (applyDevice conf
      (applyWeb conf
        (applyLogging conf
          (applyStorage conf
            (applyMqtt conf
              (applyConnection conf h (applyTransport conf cfg)))))))

theorem Field.NotRead.single
    {conf : ConfResult} {field : Field} (notRead : field.NotRead conf)
    {key : Bytes × Bytes} (keys : field.keys = [key]) :
    Unread field.spells conf key.1 key.2 := by
  apply notRead
  rw [keys]
  exact List.mem_singleton_self key

theorem explicitCapacity_of_unread
    {conf : ConfResult}
    (unread :
      Unread SpellsInteger conf (ascii "storage") (ascii "buffer_capacity")) :
    explicitCapacity conf = 0 :=
  whenPresent_of_eq (confGetSize_of_unread unread 0)

/-- Where the three statements find what they need. -/
structure Applicable (conf : ConfResult) (cfg : Config) : Prop where
  /-- The document has a host. -/
  host : confHasKey conf (ascii "connection") (ascii "host") = true
  /-- A word that is not known does not switch the web interface off. -/
  webinterface :
    cfg.webEnabled = true →
    Unread SpellsBool conf (ascii "web") (ascii "enabled") →
    ∀ e ∈ findEntry conf (ascii "transport") (ascii "webinterface"),
      SpellsBool e.value
  /-- The quality of service of the will is in range where it is kept. -/
  willQos :
    ∀ e ∈ findEntry conf (ascii "mqtt") (ascii "will_qos"),
      ¬ SpellsInteger e.value →
      0 ≤ cfg.mqttWillQos ∧ cfg.mqttWillQos ≤ 2

/-- An unknown word for `webinterface` counts as false. -/
theorem webEnabled_of_unread
    {conf : ConfResult} {e : ConfEntry}
    (found :
      findEntry conf (ascii "transport") (ascii "webinterface") = some e)
    (unreadAlias :
      Unread SpellsBool conf (ascii "transport") (ascii "webinterface"))
    (unreadWeb : Unread SpellsBool conf (ascii "web") (ascii "enabled"))
    {h : Bytes} {cfg : Config} :
    (applied conf h cfg).webEnabled = false := by
  refine (whenPresent_of_eq (confGetBool_of_unread unreadWeb _)).trans ?_
  refine (whenPresent_of_found found _ _).trans ?_
  exact confGetBool_of_unread unreadAlias false

/-- The check of the quality of service also sees the old value. -/
theorem mqttWillQos_of_unread
    {conf : ConfResult} {e : ConfEntry}
    (found : findEntry conf (ascii "mqtt") (ascii "will_qos") = some e)
    (unread : Unread SpellsInteger conf (ascii "mqtt") (ascii "will_qos"))
    {h : Bytes} {cfg : Config} :
    (applied conf h cfg).mqttWillQos = qosOrZero cfg.mqttWillQos := by
  refine (whenPresent_of_found found _ _).trans ?_
  exact congrArg qosOrZero (confGetInt_of_unread unread _)

/-- Two keys are read for the web interface, one after the other. -/
theorem webEnabled_of_applicable
    {conf : ConfResult} {cfg : Config} {h : Bytes}
    (applicable : Applicable conf cfg)
    (unreadWeb : Unread SpellsBool conf (ascii "web") (ascii "enabled"))
    (unreadAlias :
      Unread SpellsBool conf (ascii "transport") (ascii "webinterface")) :
    (applied conf h cfg).webEnabled = cfg.webEnabled := by
  cases found :
      findEntry conf (ascii "transport") (ascii "webinterface") with
  | none =>
      refine (whenPresent_of_eq (confGetBool_of_unread unreadWeb _)).trans ?_
      exact whenPresent_of_absent found _ _
  | some e =>
      have off : cfg.webEnabled = false := by
        rw [← Bool.not_eq_true]
        intro on
        exact unreadAlias e found
          (applicable.webinterface on unreadWeb e found)
      rw [webEnabled_of_unread found unreadAlias unreadWeb, off]

theorem mqttWillQos_of_applicable
    {conf : ConfResult} {cfg : Config} {h : Bytes}
    (applicable : Applicable conf cfg)
    (unread : Unread SpellsInteger conf (ascii "mqtt") (ascii "will_qos")) :
    (applied conf h cfg).mqttWillQos = cfg.mqttWillQos := by
  cases found : findEntry conf (ascii "mqtt") (ascii "will_qos") with
  | none => exact whenPresent_of_absent found _ _
  | some e =>
      have range := applicable.willQos e found (unread e found)
      rw [mqttWillQos_of_unread found unread, qosOrZero_of_mem range]

/-- Then no field changes that is not read. -/
theorem same_of_applicable
    {conf : ConfResult} {cfg : Config} {h : Bytes}
    (qos : 0 ≤ cfg.mqttQos ∧ cfg.mqttQos ≤ 2)
    (applicable : Applicable conf cfg)
    (field : Field) (notRead : field.NotRead conf) :
    field.Same cfg (applied conf h cfg) := by
  cases field with
  | transport => exact readTransport_of_unread (notRead.single rfl) _
  | host =>
      have found := applicable.host
      rw [confHasKey] at found
      rcases Option.isSome_iff_exists.mp found with ⟨e, isEntry⟩
      exact absurd trivial (notRead.single rfl e isEntry)
  | port => exact safePort_of_unread (notRead.single rfl) _
  | mqttTopic => exact nonemptyStr_of_unread (notRead.single rfl) _
  | mqttClientId => exact anyStr_of_unread (notRead.single rfl) _
  | mqttUsername => exact anyStr_of_unread (notRead.single rfl) _
  | mqttPassword => exact anyStr_of_unread (notRead.single rfl) _
  | mqttQos =>
      have kept := confGetInt_of_unread (notRead.single rfl) cfg.mqttQos
      exact (congrArg qosOrZero kept).trans (qosOrZero_of_mem qos)
  | mqttKeepalive => exact confGetInt_of_unread (notRead.single rfl) _
  | mqttWillTopic => exact nonemptyStr_of_unread (notRead.single rfl) _
  | mqttWillPayload => exact nonemptyStr_of_unread (notRead.single rfl) _
  | mqttWillQos =>
      exact mqttWillQos_of_applicable applicable (notRead.single rfl)
  | mqttWillRetain =>
      exact whenPresent_of_eq (confGetBool_of_unread (notRead.single rfl) _)
  | outputFile => exact nonemptyStr_of_unread (notRead.single rfl) _
  | storePath => exact nonemptyStr_of_unread (notRead.single rfl) _
  | bufferCapacity =>
      exact if_pos (explicitCapacity_of_unread (notRead.single rfl))
  | flushIntervalMs =>
      have kept :=
        confGetSize_of_unread (notRead.single rfl) cfg.flushIntervalMs
      exact (congrArg (fun fi => if fi = 0 then cfg.flushIntervalMs else fi)
        kept).trans (ite_self _)
  | autoBuffer =>
      exact if_pos (explicitCapacity_of_unread (notRead.single rfl))
  | csvSeparator => exact nonemptyStr_of_unread (notRead.single rfl) _
  | logFile => exact nonemptyStr_of_unread (notRead.single rfl) _
  | logAlsoStderr => exact confGetBool_of_unread (notRead.single rfl) _
  | logLevel => exact nonemptyStr_of_unread (notRead.single rfl) _
  | webEnabled =>
      have unreadWeb := notRead (ascii "web", ascii "enabled") (by decide)
      have unreadAlias :=
        notRead (ascii "transport", ascii "webinterface") (by decide)
      exact webEnabled_of_applicable applicable unreadWeb unreadAlias
  | webHost => exact nonemptyStr_of_unread (notRead.single rfl) _
  | webPort => exact safePort_of_unread (notRead.single rfl) _
  | webStatsIntervalMs => exact confGetUint32_of_unread (notRead.single rfl) _
  | deviceModel => exact nonemptyStr_of_unread (notRead.single rfl) _
  | deviceRangeG =>
      have kept :=
        confGetDouble_of_unread (notRead.single rfl) cfg.deviceRangeG.number
      exact whenPresent_of_eq
        ((congrArg Single.ofDouble kept).trans (Single.ofDouble_number _))
  | timesource => exact nonemptyStr_of_unread (notRead.single rfl) _
  | maxAccMs2 =>
      exact whenPresent_of_eq (confGetDouble_of_unread (notRead.single rfl) _)
  | seqOptional =>
      exact whenPresent_of_eq (confGetBool_of_unread (notRead.single rfl) _)

/-- Without a host nothing is returned, and with one every section is. -/
theorem applyConf_eq_ok_iff
    {conf : ConfResult} {cfg after : Config} :
    applyConf conf cfg = .ok after ↔
      ∃ h,
        confGetStr conf (ascii "connection") (ascii "host") none = some h ∧
          after = applied conf h cfg := by
  rw [applyConf]
  cases confGetStr conf (ascii "connection") (ascii "host") none with
  | none => simp
  | some h =>
      constructor
      · intro returned
        cases returned
        exact ⟨h, rfl, rfl⟩
      · rintro ⟨found, same, rfl⟩
        cases same
        rfl

theorem confHasKey_iff
    {conf : ConfResult} {sectionName key : Bytes} :
    confHasKey conf sectionName key = true ↔
      ∃ h, confGetStr conf sectionName key none = some h := by
  rw [confHasKey, confGetStr]
  cases findEntry conf sectionName key with
  | none => simp
  | some e => simp

theorem unread_of_found
    {conf : ConfResult} {sectionName key : Bytes} {spells : Bytes → Prop}
    {e : ConfEntry} (found : findEntry conf sectionName key = some e)
    (unreadable : ¬ spells e.value) :
    Unread spells conf sectionName key := by
  intro other same
  rw [found] at same
  cases same
  exact unreadable

/-- `apply_conf` returns and keeps what it does not read, exactly then. -/
theorem applyConf_framed_iff
    (conf : ConfResult) {cfg : Config}
    (qos : 0 ≤ cfg.mqttQos ∧ cfg.mqttQos ≤ 2) :
    (∃ after, applyConf conf cfg = .ok after ∧
        ∀ field : Field, field.NotRead conf → field.Same cfg after) ↔
      Applicable conf cfg := by
  constructor
  · rintro ⟨after, returned, framed⟩
    rcases applyConf_eq_ok_iff.mp returned with ⟨h, hasHost, rfl⟩
    constructor
    · exact confHasKey_iff.mpr ⟨h, hasHost⟩
    · intro on unreadWeb e found
      by_contra unknown
      have unreadAlias := unread_of_found found unknown
      have notRead : Field.NotRead conf .webEnabled := by
        intro key member
        simp only [Field.keys, List.mem_cons, List.not_mem_nil, or_false]
          at member
        rcases member with rfl | rfl
        · exact unreadAlias
        · exact unreadWeb
      have kept := framed .webEnabled notRead
      rw [Field.Same, webEnabled_of_unread found unreadAlias unreadWeb, on]
        at kept
      cases kept
    · intro e found unreadable
      by_contra outside
      have unread := unread_of_found found unreadable
      have notRead : Field.NotRead conf .mqttWillQos := by
        intro key member
        rw [List.mem_singleton.mp member]
        exact unread
      have kept := framed .mqttWillQos notRead
      rw [Field.Same, mqttWillQos_of_unread found unread] at kept
      exact qosOrZero_ne outside kept
  · intro applicable
    rcases confHasKey_iff.mp applicable.host with ⟨h, hasHost⟩
    exact ⟨applied conf h cfg, applyConf_eq_ok_iff.mpr ⟨h, hasHost, rfl⟩,
      fun field notRead => same_of_applicable qos applicable field notRead⟩

/-- With the empty document and the defaults it throws. -/
theorem applyConf_framed_iff_empty :
    (∃ after, applyConf confAlloc Config.default = .ok after ∧
        ∀ field : Field,
          field.NotRead confAlloc → field.Same Config.default after) ↔
      Applicable confAlloc Config.default :=
  applyConf_framed_iff confAlloc (by decide)

/-- So it is not total where the quality of service is valid. -/
theorem applyConf_not_framed :
    ¬ ∀ (conf : ConfResult) (cfg : Config),
        0 ≤ cfg.mqttQos ∧ cfg.mqttQos ≤ 2 →
        ∃ after, applyConf conf cfg = .ok after ∧
          ∀ field : Field, field.NotRead conf → field.Same cfg after := by
  intro total
  rcases total confAlloc Config.default (by decide) with ⟨after, returned, _⟩
  rcases applyConf_eq_ok_iff.mp returned with ⟨h, hasHost, _⟩
  cases hasHost

end AccelObserver.Server.ConfFrame
