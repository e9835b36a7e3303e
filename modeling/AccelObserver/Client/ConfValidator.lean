import AccelObserver.Client.ConfArgparse
import AccelObserver.Library.IntegerTexts

/-!
# What the client validates

`validate_config` of `conf_validator.c` on the result of `parse_args`.  Its
test of the protocol compares a negated pointer with the address of a literal,
which it never equals, and its tests of the numbers are negated comparisons,
which a NaN passes.  The port has been cut to 16 bits before it is tested.
-/

namespace AccelObserver.Client.ConfValidator

open AccelObserver.Library
open AccelObserver.Library.CInteger (atoi scanDecimalInteger)
open AccelObserver.Library.CNumber (atofNearest SpellsNan)
open AccelObserver.Client.ConfArgparse

/-! ## The validator -/

/-- The address of a string literal. -/
structure Address where
  value : Nat
  notNull : value ≠ 0

/-- `!cfg->protocol == literal`, for a pointer that is not null: its negation
is 0. -/
def negationEquals (literal : Address) : Bool :=
  0 == literal.value

/-- `10000.0` -/
def rateLimit : Double :=
  atofNearest (ascii "10000.0")

/-- `validate_config`, with the addresses of its two literals. -/
def validateConfig (mqtt ws : Address) (cfg : AppConfig) : Bool :=
  let ok := true
  let ok := if negationEquals mqtt || negationEquals ws then false else ok
  let ok := if cfg.port = 0 then false else ok
  let ok := if cfg.qos < 0 ∨ 2 < cfg.qos then false else ok
  let ok := if cfg.willQos < 0 ∨ 2 < cfg.willQos then false else ok
  let ok :=
    if cfg.rateHz.le Double.zero || rateLimit.lt cfg.rateHz then false else ok
  let ok := if cfg.durationSec.le Double.zero then false else ok
  if cfg.keepaliveSec < 0 then false else ok

/-- The transport loops of `main`. -/
inductive Transport
  | mqtt
  | ws
  deriving DecidableEq

/-- The loop that `main` enters; without one it ends at once. -/
def transportLoop (build : Build) (protocol : Bytes) : Option Transport :=
  if build.haveMqtt ∧ protocol = ascii "mqtt" then some .mqtt
  else if build.haveWebsocket ∧ protocol = ascii "ws" then some .ws
  else none

/-! ## What is expected of a validated configuration -/

/-- The integer that a text begins with. -/
def writtenInteger (text : Bytes) : Option ℤ :=
  (scanDecimalInteger text).map fun numeral =>
    if numeral.1 then -(numeral.2.1 : ℤ) else numeral.2.1

/-- The integer behind the last `--port`, or the default. -/
def writtenPort (written : List (Flag × Bytes)) : Option ℤ :=
  match lastValue .port written with
  | none => some 1883
  | some text => writtenInteger text

/-- The configuration can be worked with. -/
structure Usable
    (build : Build) (written : List (Flag × Bytes)) (cfg : AppConfig) :
    Prop where
  protocol : cfg.protocol = ascii "mqtt" ∨ cfg.protocol = ascii "ws"
  loop :
    build.haveMqtt = true → build.haveWebsocket = true →
      (transportLoop build cfg.protocol).isSome = true
  port : writtenPort written = some (cfg.port.toNat : ℤ)
  portRange : 1 ≤ cfg.port.toNat ∧ cfg.port.toNat ≤ 65535
  qos : 0 ≤ cfg.qos ∧ cfg.qos ≤ 2
  willQos : 0 ≤ cfg.willQos ∧ cfg.willQos ≤ 2
  rateNumber : cfg.rateHz ≠ .nan
  rateRange :
    Double.zero.lt cfg.rateHz = true ∧ cfg.rateHz.le rateLimit = true
  durationNumber : cfg.durationSec ≠ .nan
  durationRange : Double.zero.lt cfg.durationSec = true
  keepalive : 0 ≤ cfg.keepaliveSec

/-- If the validator accepts what `parse_args` returns, it is usable. -/
def ValidatedIsUsable
    (mqtt ws : Address) (build : Build) (args : List Bytes) : Prop :=
  ∃ cfg, parseArgs build args = some cfg ∧
    (validateConfig mqtt ws cfg = true →
      Usable build (options build args) cfg)

/-! ## What is written decides -/

/-- The last value of an option, if it is written, is like this. -/
def LastValue (flag : Flag) (holds : Bytes → Prop)
    (written : List (Flag × Bytes)) : Prop :=
  ∃ text, lastValue flag written = some text ∧ holds text

/-- The last values that the tests of the validator do not let pass. -/
def Rejected (written : List (Flag × Bytes)) : Prop :=
  LastValue .port (fun text => 65536 ∣ atoi text) written ∨
    LastValue .qos (fun text => atoi text < 0 ∨ 2 < atoi text) written ∨
    LastValue .willQos (fun text => atoi text < 0 ∨ 2 < atoi text) written ∨
    LastValue .rate
      (fun text =>
        (atofNearest text).le Double.zero = true ∨
          rateLimit.lt (atofNearest text) = true)
      written ∨
    LastValue .duration (fun text => (atofNearest text).le Double.zero = true)
      written ∨
    LastValue .keepalive (fun text => atoi text < 0) written

/-- A known protocol, a port in its range, and numbers that are no NaN,
wherever they are written. -/
structure WellWritten (written : List (Flag × Bytes)) : Prop where
  protocol :
    ∀ text, lastValue .protocol written = some text →
      text = ascii "mqtt" ∨ text = ascii "ws"
  port :
    ∀ text, lastValue .port written = some text →
      ∃ n, writtenInteger text = some n ∧ 1 ≤ n ∧ n ≤ 65535
  rate : ∀ text, lastValue .rate written = some text → ¬ SpellsNan text
  duration :
    ∀ text, lastValue .duration written = some text → ¬ SpellsNan text

/-! ## The tests on the last values -/

/-- A test that the default passes is about the value that is written. -/
theorem getD_map_iff
    {Value : Type} (fails : Value → Prop) {last : Option Bytes}
    {convert : Bytes → Value} {default : Value} (passes : ¬ fails default) :
    fails ((last.map convert).getD default) ↔
      ∃ text, last = some text ∧ fails (convert text) := by
  cases last with
  | none => simp [passes]
  | some text => simp

/-- The negated pointer equals no address. -/
theorem negationEquals_eq_false (literal : Address) :
    negationEquals literal = false := by
  rw [negationEquals, beq_eq_false_iff_ne]
  exact literal.notNull.symm

/-- The port is zero exactly for the multiples of 65536. -/
theorem ofInt_eq_zero_iff (n : ℤ) : UInt16.ofInt n = 0 ↔ 65536 ∣ n := by
  rw [← UInt16.toNat_inj, UInt16.ofInt, UInt16.toNat_ofNat']
  simp only [UInt16.reduceToNat]
  omega

/-- One test behind the others. -/
theorem test_eq_false_iff (fails : Prop) [Decidable fails] (ok : Bool) :
    (if fails then false else ok) = false ↔ fails ∨ ok = false := by
  split_ifs with failed <;> simp [failed]

/-- The tests that can fail. -/
theorem validateConfig_eq_false_iff
    (mqtt ws : Address) (cfg : AppConfig) :
    validateConfig mqtt ws cfg = false ↔
      cfg.port = 0 ∨ (cfg.qos < 0 ∨ 2 < cfg.qos) ∨
        (cfg.willQos < 0 ∨ 2 < cfg.willQos) ∨
        (cfg.rateHz.le Double.zero = true ∨ rateLimit.lt cfg.rateHz = true) ∨
        cfg.durationSec.le Double.zero = true ∨ cfg.keepaliveSec < 0 := by
  simp only [validateConfig, test_eq_false_iff, negationEquals_eq_false,
    Bool.or_eq_true, Bool.false_eq_true, Bool.true_eq_false, or_false]
  tauto

/-- The defaults pass their own tests. -/
theorem defaults_rate :
    ¬ (defaults.rateHz.le Double.zero = true ∨
      rateLimit.lt defaults.rateHz = true) := by
  decide +kernel

theorem defaults_duration :
    ¬ defaults.durationSec.le Double.zero = true := by
  decide +kernel

theorem defaults_rate_ne_nan : defaults.rateHz ≠ .nan := by
  decide +kernel

theorem defaults_duration_ne_nan : defaults.durationSec ≠ .nan := by
  decide +kernel

theorem rateLimit_ne_nan : rateLimit ≠ .nan := by
  decide +kernel

/-- The validator rejects exactly by the last values. -/
theorem validateConfig_iff_rejected
    (mqtt ws : Address) {written : List (Flag × Bytes)} {cfg : AppConfig}
    (read : ReadFrom written cfg) :
    validateConfig mqtt ws cfg = false ↔ Rejected written := by
  rw [validateConfig_eq_false_iff, read.port, read.qos, read.willQos,
    read.rateHz, read.durationSec, read.keepaliveSec,
    getD_map_iff (· = 0) (by decide),
    getD_map_iff (fun qos => qos < 0 ∨ 2 < qos) (by decide),
    getD_map_iff (fun qos => qos < 0 ∨ 2 < qos) (by decide),
    getD_map_iff
      (fun rate : Double =>
        rate.le Double.zero = true ∨ rateLimit.lt rate = true)
      defaults_rate,
    getD_map_iff (fun duration : Double => duration.le Double.zero = true)
      defaults_duration,
    getD_map_iff (· < 0) (by decide)]
  simp only [ofInt_eq_zero_iff]
  rfl

/-! ## Usable configurations -/

/-- A port that is written in its range is read as it is written. -/
theorem atoi_of_writtenInteger
    {text : Bytes} {n : ℤ} (written : writtenInteger text = some n)
    (range : 1 ≤ n ∧ n ≤ 65535) : atoi text = n := by
  rcases Option.map_eq_some_iff.mp written
    with ⟨⟨negative, magnitude, rest⟩, scanned, number⟩
  simp only at number
  have notBelow : ¬ n < -2 ^ 63 := by omega
  have notAbove : ¬ 2 ^ 63 ≤ n := by omega
  rw [atoi, CInteger.strtolDecimal, scanned]
  simp only [number, if_neg notBelow, if_neg notAbove]
  rw [Int.bmod_def]
  omega

theorem toNat_ofInt {n : ℤ} (range : 1 ≤ n ∧ n ≤ 65535) :
    ((UInt16.ofInt n).toNat : ℤ) = n := by
  rw [UInt16.ofInt, UInt16.toNat_ofNat']
  omega

/-- Above zero, for a number that is not at most zero. -/
theorem zero_lt_of_not_le
    {number : Double} (isNumber : number ≠ .nan)
    (positive : ¬ number.le Double.zero = true) :
    Double.zero.lt number = true := by
  rw [← Double.lt_eq_false_iff (by simp [Double.zero]) isNumber] at positive
  exact Bool.eq_true_of_not_eq_false positive

/-- With both transports compiled in, a known protocol has its loop. -/
theorem transportLoop_isSome
    {build : Build} (mqttBuilt : build.haveMqtt = true)
    (wsBuilt : build.haveWebsocket = true) {protocol : Bytes}
    (known : protocol = ascii "mqtt" ∨ protocol = ascii "ws") :
    (transportLoop build protocol).isSome = true := by
  rcases known with rfl | rfl
  · rw [transportLoop, if_pos ⟨mqttBuilt, rfl⟩]
    rfl
  · have different : ascii "ws" ≠ ascii "mqtt" := by decide
    rw [transportLoop, if_neg fun both => different both.2,
      if_pos ⟨wsBuilt, rfl⟩]
    rfl

/-- A usable configuration is read from a well written command line. -/
theorem wellWritten_of_usable
    {build : Build} {written : List (Flag × Bytes)} {cfg : AppConfig}
    (read : ReadFrom written cfg) (usable : Usable build written cfg) :
    WellWritten written := by
  constructor
  · intro text last
    have here := read.protocol
    rw [last, Option.getD_some] at here
    exact here ▸ usable.protocol
  · intro text last
    have here := usable.port
    rw [writtenPort, last] at here
    have range := usable.portRange
    exact ⟨_, here, by omega, by omega⟩
  · intro text last
    have here := read.rateHz
    rw [last, Option.map_some, Option.getD_some] at here
    rw [← CNumber.atofNearest_eq_nan_iff, ← here]
    exact usable.rateNumber
  · intro text last
    have here := read.durationSec
    rw [last, Option.map_some, Option.getD_some] at here
    rw [← CNumber.atofNearest_eq_nan_iff, ← here]
    exact usable.durationNumber

/-- A known protocol, also where the default stands. -/
theorem protocol_of_wellWritten
    {written : List (Flag × Bytes)} {cfg : AppConfig}
    (read : ReadFrom written cfg) (well : WellWritten written) :
    cfg.protocol = ascii "mqtt" ∨ cfg.protocol = ascii "ws" := by
  rw [read.protocol]
  cases last : lastValue .protocol written with
  | none => exact Or.inr rfl
  | some text => exact well.protocol text last

/-- The port that is written is the one that is read. -/
theorem port_of_wellWritten
    {written : List (Flag × Bytes)} {cfg : AppConfig}
    (read : ReadFrom written cfg) (well : WellWritten written) :
    writtenPort written = some (cfg.port.toNat : ℤ) ∧
      1 ≤ cfg.port.toNat ∧ cfg.port.toNat ≤ 65535 := by
  rw [read.port, writtenPort]
  cases last : lastValue .port written with
  | none => decide
  | some text =>
      rcases well.port text last with ⟨n, integer, range⟩
      have cut := toNat_ofInt range
      simp only [Option.map_some, Option.getD_some, integer,
        atoi_of_writtenInteger integer range, cut]
      exact ⟨trivial, by omega⟩

/-- A conversion is a number where no NaN is written. -/
theorem getD_map_atofNearest_ne_nan
    {last : Option Bytes} {default : Double} (isNumber : default ≠ .nan)
    (plain : ∀ text, last = some text → ¬ SpellsNan text) :
    (last.map atofNearest).getD default ≠ .nan := by
  cases last with
  | none => exact isNumber
  | some text => exact mt CNumber.atofNearest_eq_nan_iff.mp (plain text rfl)

/-- An accepted configuration is usable exactly if it is well written. -/
theorem usable_iff_wellWritten
    {mqtt ws : Address} {written : List (Flag × Bytes)} {cfg : AppConfig}
    (build : Build) (read : ReadFrom written cfg)
    (accepted : validateConfig mqtt ws cfg = true) :
    Usable build written cfg ↔ WellWritten written := by
  have tests :
      ¬ (cfg.port = 0 ∨ (cfg.qos < 0 ∨ 2 < cfg.qos) ∨
        (cfg.willQos < 0 ∨ 2 < cfg.willQos) ∨
        (cfg.rateHz.le Double.zero = true ∨ rateLimit.lt cfg.rateHz = true) ∨
        cfg.durationSec.le Double.zero = true ∨ cfg.keepaliveSec < 0) := by
    rw [← validateConfig_eq_false_iff mqtt ws, accepted]
    decide
  simp only [not_or, Int.not_lt] at tests
  rcases tests with ⟨_, qos, willQos, rate, duration, keepalive⟩
  refine ⟨wellWritten_of_usable read, fun well => ?_⟩
  have known := protocol_of_wellWritten read well
  have port := port_of_wellWritten read well
  have rateNumber : cfg.rateHz ≠ .nan :=
    read.rateHz ▸ getD_map_atofNearest_ne_nan defaults_rate_ne_nan well.rate
  have durationNumber : cfg.durationSec ≠ .nan :=
    read.durationSec ▸
      getD_map_atofNearest_ne_nan defaults_duration_ne_nan well.duration
  have rateBelow : cfg.rateHz.le rateLimit = true := by
    rw [← Double.lt_eq_false_iff rateLimit_ne_nan rateNumber]
    exact Bool.eq_false_of_not_eq_true rate.2
  exact
    { protocol := known
      loop := fun mqttBuilt wsBuilt =>
        transportLoop_isSome mqttBuilt wsBuilt known
      port := port.1
      portRange := port.2
      qos := qos
      willQos := willQos
      rateNumber := rateNumber
      rateRange := ⟨zero_lt_of_not_le rateNumber rate.1, rateBelow⟩
      durationNumber := durationNumber
      durationRange := zero_lt_of_not_le durationNumber duration
      keepalive := keepalive }

/-- Validation gives a usable configuration exactly if the validator rejects
what is written or it is well written.  The texts for the standard error
stream ask for a known protocol and for numbers in their ranges. -/
theorem validatedIsUsable_iff
    (mqtt ws : Address) (build : Build) {args : List Bytes}
    (noHelp : ∀ a ∈ args, flagOf build a ≠ .help) :
    ValidatedIsUsable mqtt ws build args ↔
      Rejected (options build args) ∨ WellWritten (options build args) := by
  rcases exists_parseArgs noHelp with ⟨cfg, parsed, read⟩
  have returns :
      ValidatedIsUsable mqtt ws build args ↔
        (validateConfig mqtt ws cfg = true →
          Usable build (options build args) cfg) := by
    rw [ValidatedIsUsable, parsed]
    simp
  rw [returns, ← validateConfig_iff_rejected mqtt ws read]
  constructor
  · intro usable
    cases accepted : validateConfig mqtt ws cfg with
    | false => exact Or.inl rfl
    | true =>
        exact Or.inr
          ((usable_iff_wellWritten build read accepted).mp (usable accepted))
  · rintro (rejected | well) accepted
    · rw [rejected] at accepted
      cases accepted
    · exact (usable_iff_wellWritten build read accepted).mpr well

/-- A command line for the other transport. -/
theorem validatedIsUsable_iff_sample :
    ValidatedIsUsable ⟨1, by decide⟩ ⟨2, by decide⟩ ⟨true, true⟩
      [ascii "--protocol", ascii "mqtt", ascii "--port", ascii "8883"] := by
  have written :
      options ⟨true, true⟩
          [ascii "--protocol", ascii "mqtt", ascii "--port", ascii "8883"] =
        [(.protocol, ascii "mqtt"), (.port, ascii "8883")] := by
    decide +kernel
  apply
    (validatedIsUsable_iff ⟨1, by decide⟩ ⟨2, by decide⟩ ⟨true, true⟩
      (by decide +kernel)).mpr
  rw [written]
  refine Or.inr ⟨?_, ?_, ?_, ?_⟩
  · rintro text ⟨⟩
    exact Or.inl rfl
  · rintro text ⟨⟩
    exact ⟨8883, by decide +kernel, by decide, by decide⟩
  · rintro text ⟨⟩
  · rintro text ⟨⟩

/-- A command line is a failing one if a field of its configuration, which is
accepted, has a value that no usable configuration has there. -/
theorem not_validatedIsUsable_of_field
    {mqtt ws : Address} {build : Build} {args : List Bytes}
    {Value : Type} (field : AppConfig → Value) (value : Value)
    (accepted :
      (parseArgs build args).map
          (fun cfg => (validateConfig mqtt ws cfg, field cfg)) =
        some (true, value))
    (unusable : ∀ cfg, Usable build (options build args) cfg →
      field cfg ≠ value) :
    ¬ ValidatedIsUsable mqtt ws build args := by
  rintro ⟨cfg, parsed, usable⟩
  rw [parsed, Option.map_some, Option.some.injEq, Prod.mk.injEq] at accepted
  exact unusable cfg (usable accepted.1) accepted.2

/-- An unknown protocol, a port above the range and a rate that is no number
are all accepted. -/
theorem not_validatedIsUsable :
    ¬ ValidatedIsUsable ⟨1, by decide⟩ ⟨2, by decide⟩ ⟨true, true⟩
        [ascii "--protocol", ascii "foo"] ∧
      ¬ ValidatedIsUsable ⟨1, by decide⟩ ⟨2, by decide⟩ ⟨true, true⟩
        [ascii "--port", ascii "65537"] ∧
      ¬ ValidatedIsUsable ⟨1, by decide⟩ ⟨2, by decide⟩ ⟨true, true⟩
        [ascii "--rate", ascii "nan"] := by
  refine ⟨?_, ?_, ?_⟩
  · apply not_validatedIsUsable_of_field AppConfig.protocol (ascii "foo")
    · decide +kernel
    · intro cfg usable foo
      have known := usable.protocol
      rw [foo] at known
      revert known
      decide
  · apply not_validatedIsUsable_of_field AppConfig.port 1
    · decide +kernel
    · intro cfg usable one
      have port := usable.port
      rw [one] at port
      revert port
      decide +kernel
  · apply not_validatedIsUsable_of_field AppConfig.rateHz .nan
    · decide +kernel
    · exact fun cfg usable => usable.rateNumber

end AccelObserver.Client.ConfValidator
