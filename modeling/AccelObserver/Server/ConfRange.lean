import AccelObserver.Server.CliArgs
import AccelObserver.Server.ConfFrame

/-!
# The configuration stays in range

The numbers that the rest of the server relies on have a range, and every
assignment that can change one of them checks it: the readers give 0 for what
they cannot use, and 0 is never stored.
-/

namespace AccelObserver.Server.ConfRange

open AccelObserver.Library
open AccelObserver.Shared.ConfParser
open AccelObserver.Shared.ConfReaders
open AccelObserver.Server.CliArgs
open AccelObserver.Server.ConfFrame
open AccelObserver.Server.ConfLoader

/-- A TCP port that can be connected to. -/
def IsPort (port : UInt16) : Prop :=
  1 ≤ port.toNat ∧ port.toNat ≤ 65535

/-- A quality of service of MQTT. -/
def IsQos (qos : ℤ) : Prop :=
  0 ≤ qos ∧ qos ≤ 2

/-- The numbers of a configuration that began with a buffer capacity. -/
structure InRange (initial : UInt64) (cfg : Config) : Prop where
  port : IsPort cfg.port
  webPort : IsPort cfg.webPort
  mqttQos : IsQos cfg.mqttQos
  mqttWillQos : IsQos cfg.mqttWillQos
  bufferCapacity : 1 ≤ cfg.bufferCapacity
  flushIntervalMs : 1 ≤ cfg.flushIntervalMs
  /-- A capacity that was set is not tuned any more. -/
  autoBuffer : cfg.bufferCapacity ≠ initial → cfg.autoBuffer = false

theorem inRange_default : InRange 4096 Config.default where
  port := ⟨by decide, by decide⟩
  webPort := ⟨by decide, by decide⟩
  mqttQos := ⟨by decide, by decide⟩
  mqttWillQos := ⟨by decide, by decide⟩
  bufferCapacity := by decide
  flushIntervalMs := by decide
  autoBuffer := fun differs => absurd rfl differs

/-! ## The guards -/

theorem isPort_guarded
    {port current : UInt16} (range : IsPort current) :
    IsPort (if port = 0 then current else port) := by
  split_ifs with zero
  · exact range
  · have limit := port.toNat_lt
    have positive : port.toNat ≠ 0 := fun same =>
      zero (UInt16.toNat_inj.mp same)
    exact ⟨by omega, by omega⟩

theorem isQos_qosOrZero (qos : ℤ) : IsQos (qosOrZero qos) := by
  rw [qosOrZero, IsQos]
  split_ifs <;> omega

theorem one_le_of_ne_zero {size : UInt64} (nonzero : size ≠ 0) : 1 ≤ size := by
  rw [UInt64.le_iff_toNat_le, UInt64.toNat_one]
  exact Nat.one_le_iff_ne_zero.mpr fun same =>
    nonzero (UInt64.toNat_inj.mp same)

theorem one_le_guarded
    {size current : UInt64} (range : 1 ≤ current) :
    1 ≤ (if size = 0 then current else size) := by
  split_ifs with zero
  · exact range
  · exact one_le_of_ne_zero zero

theorem autoBuffer_guarded
    {initial size current : UInt64} {auto : Bool}
    (range : current ≠ initial → auto = false) :
    (if size = 0 then current else size) ≠ initial →
      (if size = 0 then auto else false) = false := by
  split_ifs with zero
  · exact range
  · exact fun _ => rfl

theorem whenPresent_of_both
    {Value : Type} {Property : Value → Prop} {conf : ConfResult}
    {sectionName key : Bytes} {value current : Value}
    (here : Property value) (there : Property current) :
    Property (whenPresent conf sectionName key value current) := by
  rw [whenPresent]
  split_ifs
  · exact here
  · exact there

/-! ## The document -/

section Document

variable {initial : UInt64} {cfg : Config} (conf : ConfResult)

theorem applyTransport_inRange (inRange : InRange initial cfg) :
    InRange initial (applyTransport conf cfg) :=
  { inRange with }

theorem applyConnection_inRange (inRange : InRange initial cfg) (h : Bytes) :
    InRange initial (applyConnection conf h cfg) :=
  { inRange with port := isPort_guarded inRange.port }

theorem applyMqtt_inRange (inRange : InRange initial cfg) :
    InRange initial (applyMqtt conf cfg) :=
  { inRange with
    mqttQos := isQos_qosOrZero _
    mqttWillQos := whenPresent_of_both (isQos_qosOrZero _) inRange.mqttWillQos }

theorem applyStorage_inRange (inRange : InRange initial cfg) :
    InRange initial (applyStorage conf cfg) :=
  { inRange with
    bufferCapacity := one_le_guarded inRange.bufferCapacity
    flushIntervalMs := one_le_guarded inRange.flushIntervalMs
    autoBuffer := autoBuffer_guarded inRange.autoBuffer }

theorem applyLogging_inRange (inRange : InRange initial cfg) :
    InRange initial (applyLogging conf cfg) :=
  { inRange with }

theorem applyWeb_inRange (inRange : InRange initial cfg) :
    InRange initial (applyWeb conf cfg) :=
  { inRange with webPort := isPort_guarded inRange.webPort }

theorem applyDevice_inRange (inRange : InRange initial cfg) :
    InRange initial (applyDevice conf cfg) :=
  { inRange with }

theorem applyValidator_inRange (inRange : InRange initial cfg) :
    InRange initial (applyValidator conf cfg) :=
  { inRange with }

/-- No section of the document leads out of range. -/
theorem applied_inRange (inRange : InRange initial cfg) (h : Bytes) :
    InRange initial (applied conf h cfg) := by
  have transport := applyTransport_inRange conf inRange
  have connection := applyConnection_inRange conf transport h
  have mqtt := applyMqtt_inRange conf connection
  have storage := applyStorage_inRange conf mqtt
  have logging := applyLogging_inRange conf storage
  have web := applyWeb_inRange conf logging
  have device := applyDevice_inRange conf web
  exact applyValidator_inRange conf device

end Document

/-! ## The command line -/

section CommandLine

variable {initial : UInt64}

/-- No option leads out of range, whatever value comes with it. -/
theorem applyFlag_inRange
    {cfg : Config} (inRange : InRange initial cfg)
    (next : Bytes) (rest : List Bytes) (flag : Flag) :
    InRange initial (applyFlag cfg next rest flag) := by
  cases flag with
  | port => exact { inRange with port := isPort_guarded inRange.port }
  | webport =>
      exact { inRange with webPort := isPort_guarded inRange.webPort }
  | mqttQos => exact { inRange with mqttQos := isQos_qosOrZero _ }
  | mqttWillQos => exact { inRange with mqttWillQos := isQos_qosOrZero _ }
  | flushMs =>
      exact
        { inRange with
          flushIntervalMs := one_le_guarded inRange.flushIntervalMs }
  | buf =>
      simp only [applyFlag]
      by_cases ignored : parseSize next = 0
      · rw [if_pos ignored]
        exact inRange
      · rw [if_neg ignored]
        exact
          { inRange with
            bufferCapacity := one_le_of_ne_zero ignored
            autoBuffer := fun _ => rfl }
  | _ => exact { inRange with }

theorem parseArgs_inRange
    {cfg resolved : Config} {args : List Bytes} (inRange : InRange initial cfg)
    (returned : parseArgs cfg args = some resolved) :
    InRange initial resolved := by
  refine @parseArgs_invariant (InRange initial) ?_ _ _ _ inRange returned
  intro cfg next rest flag kept
  exact applyFlag_inRange kept next rest flag

end CommandLine

/-! ## Both -/

/--
Whatever is in the document and on the command line: a configuration in range
is resolved to one in range.
-/
theorem resolved_inRange
    {initial : UInt64} {cfg after : Config} (inRange : InRange initial cfg)
    {conf : ConfResult} (applies : applyConf conf cfg = .ok after)
    (args : List Bytes) :
    (∀ resolved, parseArgs after args = some resolved →
        InRange initial resolved) ∧
      (ascii "--help" ∉ args → ascii "-h" ∉ args →
        (parseArgs after args).isSome = true) := by
  rcases applyConf_eq_ok_iff.mp applies with ⟨h, _, rfl⟩
  constructor
  · intro resolved returned
    exact parseArgs_inRange (applied_inRange conf inRange h) returned
  · intro noHelp noShortHelp
    apply parseArgs_isSome
    intro a member help
    rcases flagOf_eq_help_iff.mp help with rfl | rfl
    · exact noHelp member
    · exact noShortHelp member

/-- A document whose numbers are all out of range. -/
def strayConf : ConfResult :=
  { confAlloc with
    entries :=
      [{ sectionName := ascii "connection", key := ascii "host"
         value := ascii "broker", lineN := 2 },
        { sectionName := ascii "connection", key := ascii "port"
          value := ascii "70000", lineN := 3 },
        { sectionName := ascii "mqtt", key := ascii "qos"
          value := ascii "-1", lineN := 5 },
        { sectionName := ascii "storage", key := ascii "flush_interval_ms"
          value := ascii "0", lineN := 7 }]
    filled_le := by decide }

/-- It is applied to the defaults, with a command line that is no better. -/
theorem resolved_inRange_strayConf :
    (∀ resolved,
        parseArgs (applied strayConf (ascii "broker") Config.default)
            [ascii "--buf", ascii "0", ascii "--port"] = some resolved →
          InRange 4096 resolved) ∧
      (ascii "--help" ∉ [ascii "--buf", ascii "0", ascii "--port"] →
        ascii "-h" ∉ [ascii "--buf", ascii "0", ascii "--port"] →
        (parseArgs (applied strayConf (ascii "broker") Config.default)
          [ascii "--buf", ascii "0", ascii "--port"]).isSome = true) :=
  resolved_inRange inRange_default
    (applyConf_eq_ok_iff.mpr ⟨ascii "broker", by decide, rfl⟩) _

end AccelObserver.Server.ConfRange
