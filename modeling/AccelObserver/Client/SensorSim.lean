import AccelObserver.Client.Generator
import AccelObserver.Client.SensorData

/-!
# The simulated sensor of the client

`sensor_init` and `sensor_read` of `sensor_data_sim.c`, with the copy of the
generator that supplies the noise.  The arithmetic on doubles is a parameter:
which number the generator reaches does not depend on it.
-/

namespace AccelObserver.Client.SensorSim

open AccelObserver.Library
open AccelObserver.Library.CNumber (atof)
open AccelObserver.Client.SensorData (SensorPacket)

/-- The operations on doubles that the samples are computed with. -/
structure Arithmetic where
  add : Double → Double → Double
  sub : Double → Double → Double
  mul : Double → Double → Double
  div : Double → Double → Double
  sin : Double → Double
  cos : Double → Double

/-- The fields of a `SensorConfig` that are used. -/
structure SensorConfig where
  noiseAmplitude : Double
  gravityZ : Double

/-- `SENSOR_CONFIG_DEFAULT` -/
def sensorConfigDefault : SensorConfig where
  noiseAmplitude := atof (ascii "0.05")
  gravityZ := atof (ascii "9.81")

/-- `struct SensorCtx` -/
structure SensorCtx where
  config : SensorConfig
  sequence : UInt32
  phase : Double
  rngState : UInt32

/-- `prng_next`, the xorshift32 of the transport once more. -/
def prngNext (state : UInt32) : UInt32 :=
  WsTransport.prngNext state

/-- A word as a double. -/
def ofWord (v : UInt32) : Double :=
  .finite false v.toNat

/-- `prng_f64` -/
def prngF64 (arithmetic : Arithmetic) (state : UInt32) : Double × UInt32 :=
  let v := prngNext state
  (arithmetic.sub
      (arithmetic.div (ofWord (v >>> 1))
        (ofWord ((0xFFFFFFFF : UInt32) >>> 1)))
      (atof (ascii "1.0")),
    v)

/-- The seed of `sensor_init`, from `time(NULL)` and the process id. -/
def sensorSeed (time pid : ℤ) : UInt32 :=
  let seed := UInt32.ofInt time ^^^ UInt32.ofInt pid
  if seed = 0 then 1 else seed

/-- `sensor_init`, where the memory for the context is there. -/
def sensorInit (cfg : Option SensorConfig) (time pid : ℤ) : SensorCtx where
  config := cfg.getD sensorConfigDefault
  sequence := 0
  phase := Double.zero
  rngState := sensorSeed time pid

/-- `sensor_read` -/
def sensorRead
    (arithmetic : Arithmetic) (timestampMs : UInt64) (ctx : SensorCtx) :
    SensorPacket × SensorCtx :=
  let (x, rngState) := prngF64 arithmetic ctx.rngState
  let noiseX := arithmetic.mul x ctx.config.noiseAmplitude
  let (y, rngState) := prngF64 arithmetic rngState
  let noiseY := arithmetic.mul y ctx.config.noiseAmplitude
  let (z, rngState) := prngF64 arithmetic rngState
  let noiseZ := arithmetic.mul z ctx.config.noiseAmplitude
  let phase := arithmetic.add ctx.phase (atof (ascii "0.1"))
  ({ timestampMs := timestampMs
     sequenceId := ctx.sequence
     accX :=
      arithmetic.add
        (arithmetic.mul (atof (ascii "0.3")) (arithmetic.sin ctx.phase)) noiseX
     accY :=
      arithmetic.add
        (arithmetic.mul (atof (ascii "0.3"))
          (arithmetic.cos (arithmetic.mul ctx.phase (atof (ascii "0.7")))))
        noiseY
     accZ := arithmetic.add ctx.config.gravityZ noiseZ },
    { config := ctx.config
      sequence := ctx.sequence + 1
      phase :=
        if (atof (ascii "6.283185307")).lt phase then
          arithmetic.sub phase (atof (ascii "6.283185307"))
        else phase
      rngState := rngState })

/-- The context behind one reading after another. -/
def sensorReads
    (arithmetic : Arithmetic) (timestamps : List UInt64) (ctx : SensorCtx) :
    SensorCtx :=
  timestamps.foldl
    (fun ctx timestampMs => (sensorRead arithmetic timestampMs ctx).2) ctx

/-! ## The numbers that are drawn -/

theorem sensorSeed_ne_zero (time pid : ℤ) : sensorSeed time pid ≠ 0 := by
  simp only [sensorSeed]
  split
  · decide
  · assumption

/-- A reading draws three numbers. -/
theorem sensorRead_rngState
    (arithmetic : Arithmetic) (timestampMs : UInt64) (ctx : SensorCtx) :
    (sensorRead arithmetic timestampMs ctx).2.rngState =
      prngNext^[3] ctx.rngState :=
  rfl

/-- The state behind a run of readings. -/
theorem sensorReads_rngState
    (arithmetic : Arithmetic) (timestamps : List UInt64) (ctx : SensorCtx) :
    (sensorReads arithmetic timestamps ctx).rngState =
      prngNext^[3 * timestamps.length] ctx.rngState := by
  induction timestamps generalizing ctx with
  | nil => rfl
  | cons timestampMs rest induction =>
      have counted :
          3 * (timestampMs :: rest).length = 3 * rest.length + 3 := by
        rw [List.length_cons]
        ring
      rw [counted, Function.iterate_add_apply,
        ← sensorRead_rngState arithmetic timestampMs ctx]
      exact induction _

/-- The generator of the sensor never gets to zero. -/
theorem iterate_sensorSeed_ne_zero (time pid : ℤ) (count : Nat) :
    prngNext^[count] (sensorSeed time pid) ≠ 0 :=
  Generator.iterate_prngNext_ne_zero (sensorSeed_ne_zero time pid) count

end AccelObserver.Client.SensorSim
