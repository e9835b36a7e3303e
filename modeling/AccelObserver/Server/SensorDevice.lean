import AccelObserver.Library.HalfAway
import Mathlib.Data.Rat.Floor
import Mathlib.Tactic.NormNum

/-!
# The emulated accelerometer

`sensor_device_read`, in the version of `sensor_device.c` and in that of the
single header.  The arithmetic is exact, on rational numbers; the logarithm,
the root and the cosine of the noise are a parameter, which may be any
function.

A sample is clamped to the range of the device and rounded to its resolution
after that, so a range that is rounded up to the grid is left again.
-/

namespace AccelObserver.Server.SensorDevice

open AccelObserver.Library.HalfAway

/-! ## The device -/

/-- The fields of a `DeviceDescriptor` that a sample depends on. -/
structure DeviceDescriptor where
  rangeG : ℚ
  rangeMs2 : ℚ
  resolutionMs2 : ℚ
  applyQuantization : Bool
  zeroOffsetX : ℚ
  zeroOffsetY : ℚ
  zeroOffsetZ : ℚ
  noiseSigma : ℚ
  rngState : UInt64

/-- `GRAVITY_MS2` -/
def gravityMs2 : ℚ := 980665 / 100000

/-- `sensor_device_default`; it clears the fields that it does not set. -/
def sensorDeviceDefault : DeviceDescriptor where
  rangeG := 16
  rangeMs2 := 0
  resolutionMs2 := 4790957 / 1000000000
  applyQuantization := true
  zeroOffsetX := 0
  zeroOffsetY := 0
  zeroOffsetZ := 0
  noiseSigma := 0
  rngState := 0

/-- What `sensor_device_init` sets; the noise and the seed depend on the
bandwidth and on the time. -/
def sensorDeviceInit
    (dev : DeviceDescriptor) (noiseSigma : ℚ) (seed : UInt64) :
    DeviceDescriptor :=
  { dev with
    rangeMs2 := dev.rangeG * gravityMs2
    noiseSigma := noiseSigma
    rngState := seed ||| 1 }

/-! ## Noise -/

/-- `xorshift64`: the number is the new state. -/
def xorshift64 (x : UInt64) : UInt64 :=
  let x := x ^^^ (x <<< 13)
  let x := x ^^^ (x >>> 7)
  x ^^^ (x <<< 17)

/-- The low 24 bits of a number, from 0 to 1. -/
def uniform (x : UInt64) : ℚ :=
  (x &&& 0xFFFFFF).toNat / 16777216

/-- The noise of a standard deviation and two numbers between 0 and 1. -/
abbrev BoxMuller := ℚ → ℚ → ℚ → ℚ

/-- `gauss_noise`; the first number is made positive, so its loop ends at
once. -/
def gaussNoise (boxMuller : BoxMuller) (state : UInt64) (sigma : ℚ) :
    ℚ × UInt64 :=
  let state := xorshift64 state
  let u1 := uniform state
  let state := xorshift64 state
  let u2 := uniform state
  let u1 := if 0 < u1 then u1 else 1 / 10000000
  (boxMuller sigma u1 u2, state)

/-! ## Samples -/

/-- The three axes of a sample. -/
structure Sample where
  ax : ℚ
  ay : ℚ
  az : ℚ

/-- The two comparisons with the limit. -/
def clamp (limit v : ℚ) : ℚ :=
  let v := if limit < v then limit else v
  if v < -limit then -limit else v

/-- `quantize`; `roundf` rounds half away from zero. -/
def quantize (v resolution : ℚ) : ℚ :=
  if resolution ≤ 0 then v
  else roundHalfAway (v / resolution) * resolution

/-- An axis from the value that was measured. -/
def axis (dev : DeviceDescriptor) (v : ℚ) : ℚ :=
  let v := clamp dev.rangeMs2 v
  if dev.applyQuantization ∧ 0 < dev.resolutionMs2 then
    quantize v dev.resolutionMs2
  else v

/-- The state that a call begins with. -/
def seeded (dev : DeviceDescriptor) (seq : UInt32) : UInt64 :=
  let state := dev.rngState ^^^ (seq.toUInt64 * 0x9E3779B97F4A7C15)
  if state = 0 then 1 else state

/-- `sensor_device_read` of `sensor_device.c` -/
def sensorDeviceRead
    (boxMuller : BoxMuller) (dev : DeviceDescriptor) (gravityZ : ℚ)
    (seq : UInt32) : Sample × DeviceDescriptor :=
  let (noiseX, state) :=
    gaussNoise boxMuller (seeded dev seq) dev.noiseSigma
  let (noiseY, state) := gaussNoise boxMuller state dev.noiseSigma
  let (noiseZ, state) := gaussNoise boxMuller state dev.noiseSigma
  ({ ax := axis dev (0 + dev.zeroOffsetX + noiseX)
     ay := axis dev (0 + dev.zeroOffsetY + noiseY)
     az := axis dev (gravityZ + dev.zeroOffsetZ + noiseZ) },
    { dev with rngState := state })

/-- `sensor_device_read` of the single header -/
def headerSensorDeviceRead
    (boxMuller : BoxMuller) (dev : DeviceDescriptor) (gravityZ : ℚ)
    (seq : UInt32) : Sample × DeviceDescriptor :=
  let (nx, state) := gaussNoise boxMuller (seeded dev seq) dev.noiseSigma
  let (ny, state) := gaussNoise boxMuller state dev.noiseSigma
  let (nz, state) := gaussNoise boxMuller state dev.noiseSigma
  ({ ax := axis dev (dev.zeroOffsetX + nx)
     ay := axis dev (dev.zeroOffsetY + ny)
     az := axis dev (gravityZ + dev.zeroOffsetZ + nz) },
    { dev with rngState := state })

/-- The two versions agree. -/
theorem headerSensorDeviceRead_eq :
    headerSensorDeviceRead = sensorDeviceRead := by
  funext boxMuller dev gravityZ seq
  rw [headerSensorDeviceRead, sensorDeviceRead, zero_add, zero_add]

/-- `validate_range` of the server, on exact values. -/
def validateRange (maxAccMs2 : ℚ) (sample : Sample) : Bool :=
  if sample.ax < -maxAccMs2 ∨ maxAccMs2 < sample.ax then false
  else if sample.ay < -maxAccMs2 ∨ maxAccMs2 < sample.ay then false
  else if sample.az < -maxAccMs2 ∨ maxAccMs2 < sample.az then false
  else true

/-! ## The range -/

/-- A value within the range. -/
def Within (limit v : ℚ) : Prop :=
  -limit ≤ v ∧ v ≤ limit

/-- Every axis is within the range. -/
structure InRange (limit : ℚ) (sample : Sample) : Prop where
  ax : Within limit sample.ax
  ay : Within limit sample.ay
  az : Within limit sample.az

/-- The validator passes what is in the range. -/
theorem validateRange_iff (limit : ℚ) (sample : Sample) :
    validateRange limit sample = true ↔ InRange limit sample := by
  have passes (v : ℚ) : ¬ (v < -limit ∨ limit < v) ↔ Within limit v := by
    rw [not_or, not_lt, not_lt, Within]
  rw [validateRange]
  split_ifs with ax ay az
  · exact iff_of_false (by simp) fun within => (passes _).mpr within.ax ax
  · exact iff_of_false (by simp) fun within => (passes _).mpr within.ay ay
  · exact iff_of_false (by simp) fun within => (passes _).mpr within.az az
  · exact iff_of_true rfl
      ⟨(passes _).mp ax, (passes _).mp ay, (passes _).mp az⟩

theorem within_iff_abs (limit v : ℚ) : Within limit v ↔ |v| ≤ limit :=
  abs_le.symm

/-! ## One axis -/

/--
An axis is not rounded out of the range: there is no grid, or the measured
value is less than half a step above the last point of the grid that is within
the range, as far as the clamp leaves it.
-/
def RoundsInside (dev : DeviceDescriptor) (v : ℚ) : Prop :=
  dev.applyQuantization = false ∨ dev.resolutionMs2 ≤ 0 ∨
    min |v| dev.rangeMs2 <
      (⌊dev.rangeMs2 / dev.resolutionMs2⌋ + 1 / 2) * dev.resolutionMs2

/-- The range itself is not rounded up. -/
def RangeRoundsDown (dev : DeviceDescriptor) : Prop :=
  dev.applyQuantization = false ∨ dev.resolutionMs2 ≤ 0 ∨
    Int.fract (dev.rangeMs2 / dev.resolutionMs2) < 1 / 2

section Axis

variable {dev : DeviceDescriptor}

/-- The clamp cuts the size of a value off at the limit. -/
theorem abs_clamp {limit : ℚ} (nonneg : 0 ≤ limit) (v : ℚ) :
    |clamp limit v| = min |v| limit := by
  simp only [clamp]
  split_ifs with above below below
  · linarith
  · rw [abs_of_nonneg nonneg, abs_of_pos (nonneg.trans_lt above),
      min_eq_right above.le]
  · rw [abs_neg, abs_of_nonneg nonneg, abs_of_neg (by linarith),
      min_eq_right (by linarith)]
  · rw [min_eq_left (abs_le.mpr ⟨not_lt.mp below, not_lt.mp above⟩)]

theorem axis_of_plain
    (plain : dev.applyQuantization = false ∨ dev.resolutionMs2 ≤ 0) (v : ℚ) :
    axis dev v = clamp dev.rangeMs2 v := by
  refine if_neg ?_
  rintro ⟨quantized, positive⟩
  rcases plain with off | noStep
  · rw [off] at quantized
    cases quantized
  · exact absurd positive (not_lt.mpr noStep)

theorem axis_of_grid
    (quantized : dev.applyQuantization = true)
    (positive : 0 < dev.resolutionMs2) (v : ℚ) :
    axis dev v = toGrid dev.resolutionMs2 (clamp dev.rangeMs2 v) := by
  rw [axis, if_pos ⟨quantized, positive⟩, quantize,
    if_neg (not_le.mpr positive), toGrid]

theorem axis_within_iff (nonneg : 0 ≤ dev.rangeMs2) (v : ℚ) :
    Within dev.rangeMs2 (axis dev v) ↔ RoundsInside dev v := by
  by_cases plain : dev.applyQuantization = false ∨ dev.resolutionMs2 ≤ 0
  · refine iff_of_true ?_ (or_assoc.mp (Or.inl plain))
    rw [axis_of_plain plain, within_iff_abs, abs_clamp nonneg]
    exact min_le_right _ _
  · have grid := not_or.mp plain
    have quantized : dev.applyQuantization = true := by simpa using grid.1
    have positive : 0 < dev.resolutionMs2 := not_le.mp grid.2
    rw [RoundsInside, or_iff_right grid.1, or_iff_right grid.2,
      axis_of_grid quantized positive, within_iff_abs,
      abs_toGrid_le_iff positive, abs_clamp nonneg]

/-- Every value is rounded into the range exactly when the range is. -/
theorem forall_roundsInside_iff (nonneg : 0 ≤ dev.rangeMs2) :
    (∀ v, RoundsInside dev v) ↔ RangeRoundsDown dev := by
  by_cases plain : dev.applyQuantization = false ∨ dev.resolutionMs2 ≤ 0
  · exact iff_of_true (fun v => or_assoc.mp (Or.inl plain))
      (or_assoc.mp (Or.inl plain))
  · have grid := not_or.mp plain
    have positive : 0 < dev.resolutionMs2 := not_le.mp grid.2
    have down :
        Int.fract (dev.rangeMs2 / dev.resolutionMs2) < 1 / 2 ↔
          dev.rangeMs2 <
            (⌊dev.rangeMs2 / dev.resolutionMs2⌋ + 1 / 2) *
              dev.resolutionMs2 := by
      rw [← div_lt_iff₀ positive, Int.fract, sub_lt_iff_lt_add']
    simp only [RoundsInside, RangeRoundsDown, or_iff_right grid.1,
      or_iff_right grid.2, down]
    constructor
    · intro inside
      have atRange := inside dev.rangeMs2
      rwa [abs_of_nonneg nonneg, min_self] at atRange
    · intro inside v
      exact (min_le_right _ _).trans_lt inside

end Axis

/-! ## A call -/

/-- What a call measures: the gravity, the offsets and the noise that it draws,
as they are before the clamp. -/
def measured
    (boxMuller : BoxMuller) (dev : DeviceDescriptor) (gravityZ : ℚ)
    (seq : UInt32) : Sample :=
  let (noiseX, state) :=
    gaussNoise boxMuller (seeded dev seq) dev.noiseSigma
  let (noiseY, state) := gaussNoise boxMuller state dev.noiseSigma
  let (noiseZ, _) := gaussNoise boxMuller state dev.noiseSigma
  { ax := dev.zeroOffsetX + noiseX
    ay := dev.zeroOffsetY + noiseY
    az := gravityZ + dev.zeroOffsetZ + noiseZ }

/-- No axis is rounded out of the range. -/
structure SampleRoundsInside (dev : DeviceDescriptor) (sample : Sample) :
    Prop where
  ax : RoundsInside dev sample.ax
  ay : RoundsInside dev sample.ay
  az : RoundsInside dev sample.az

theorem sample_in_range_iff
    {dev : DeviceDescriptor} (nonneg : 0 ≤ dev.rangeMs2)
    (boxMuller : BoxMuller) (gravityZ : ℚ) (seq : UInt32) :
    InRange dev.rangeMs2
        (headerSensorDeviceRead boxMuller dev gravityZ seq).1 ↔
      SampleRoundsInside dev (measured boxMuller dev gravityZ seq) := by
  constructor
  · intro inRange
    exact
      { ax := (axis_within_iff nonneg _).mp inRange.ax
        ay := (axis_within_iff nonneg _).mp inRange.ay
        az := (axis_within_iff nonneg _).mp inRange.az }
  · intro inside
    exact
      { ax := (axis_within_iff nonneg _).mpr inside.ax
        ay := (axis_within_iff nonneg _).mpr inside.ay
        az := (axis_within_iff nonneg _).mpr inside.az }

/--
A sample is within the range of its device, and passes a validator with that
range, exactly when none of the measured values is rounded out of it.  This is
so for both versions.
-/
theorem samples_in_range_iff
    (dev : DeviceDescriptor) (nonneg : 0 ≤ dev.rangeMs2)
    (boxMuller : BoxMuller) (gravityZ : ℚ) (seq : UInt32) :
    (InRange dev.rangeMs2
          (sensorDeviceRead boxMuller dev gravityZ seq).1 ↔
        SampleRoundsInside dev (measured boxMuller dev gravityZ seq)) ∧
      (InRange dev.rangeMs2
          (headerSensorDeviceRead boxMuller dev gravityZ seq).1 ↔
        SampleRoundsInside dev (measured boxMuller dev gravityZ seq)) ∧
      (validateRange dev.rangeMs2
          (sensorDeviceRead boxMuller dev gravityZ seq).1 = true ↔
        SampleRoundsInside dev (measured boxMuller dev gravityZ seq)) := by
  rw [validateRange_iff, ← headerSensorDeviceRead_eq]
  have inRange := sample_in_range_iff nonneg boxMuller gravityZ seq
  exact ⟨inRange, inRange, inRange⟩

/-- A device keeps to its range in every call, exactly when the range is not
rounded up. -/
theorem always_in_range_iff
    {dev : DeviceDescriptor} (nonneg : 0 ≤ dev.rangeMs2) :
    (∀ boxMuller gravityZ seq,
        InRange dev.rangeMs2
          (sensorDeviceRead boxMuller dev gravityZ seq).1) ↔
      RangeRoundsDown dev := by
  rw [← forall_roundsInside_iff nonneg, ← headerSensorDeviceRead_eq]
  simp only [sample_in_range_iff nonneg]
  constructor
  · intro inside v
    have first := (inside (fun _ _ _ => v - dev.zeroOffsetX) 0 0).ax
    have value : dev.zeroOffsetX + (v - dev.zeroOffsetX) = v := by ring
    rw [← value]
    exact first
  · intro inside boxMuller gravityZ seq
    exact ⟨inside _, inside _, inside _⟩

/-- The default device, with its range derived. -/
def genericDevice : DeviceDescriptor :=
  sensorDeviceInit sensorDeviceDefault 0 0

/-- At rest and without noise it is far from the edge. -/
theorem genericDevice_at_rest :
    InRange genericDevice.rangeMs2
      (sensorDeviceRead (fun _ _ _ => 0) genericDevice gravityMs2 1).1 :=
  (samples_in_range_iff genericDevice (by decide +kernel) (fun _ _ _ => 0)
      gravityMs2 1).1.mpr
    { ax := Or.inr (Or.inr (by decide +kernel))
      ay := Or.inr (Or.inr (by decide +kernel))
      az := Or.inr (Or.inr (by decide +kernel)) }

/-- At the edge of its range its samples are out of the range. -/
theorem genericDevice_leaves_range :
    let sample := (sensorDeviceRead (fun _ _ _ => 200) genericDevice 0 1).1
    genericDevice.rangeMs2 < sample.ax ∧
      validateRange genericDevice.rangeMs2 sample = false := by
  decide +kernel

end AccelObserver.Server.SensorDevice
