import AccelObserver.Client.SendLoop
import AccelObserver.Client.SensorRange
import AccelObserver.EndToEnd.JsonRecords
import AccelObserver.Library.FixedFormat

/-!
# The simulated samples at the server

The samples of the client stay within their reach, so a server whose limit is
a little wider accepts every packet of every run, and none is too long for the
client's buffer.
-/

namespace AccelObserver.EndToEnd.SensorAccepted

open AccelObserver.Library
open AccelObserver.Library.Binary64
open AccelObserver.Library.CNumber
open AccelObserver.Library.Decimal
open AccelObserver.Library.FixedFormat
open AccelObserver.Client.SendLoop
open AccelObserver.Client.SensorData
open AccelObserver.Client.SensorRange
open AccelObserver.Client.SensorSim
open AccelObserver.EndToEnd.JsonRecords
open AccelObserver.Server
open AccelObserver.Server.PacketValidator

/-! ## An axis -/

theorem isFinite_of_between
    {number : Double} {low high : ℚ} (between : Between number low high) :
    number.IsFinite := by
  rcases between with ⟨-, ⟨negative, magnitude, rfl, -⟩, -, -⟩
  exact ⟨negative, magnitude, rfl⟩

/-- Six decimals move a number by half a millionth at most. -/
theorem between_sixDecimals
    {number : Double} {most : ℚ} (between : Between number (-most) most) :
    ∃ value, HasValue (sixDecimals number) value ∧
      |value| ≤ most + 1 / 10 ^ 6 := by
  rcases between with ⟨-, ⟨negative, magnitude, rfl, rfl⟩, above, below⟩
  have near := abs_value_fixedNumber_sub_le 6 negative magnitude
  rw [value_fixedNumber] at near
  refine ⟨_, ⟨negative, _, rfl, rfl⟩, ?_⟩
  have bounded := abs_le.mpr ⟨above, below⟩
  have triangle :=
    abs_sub_abs_le_abs_sub
      (Double.signed negative ((toUnits 6 magnitude : ℚ≥0) / 10 ^ 6))
      (Double.signed negative magnitude)
  have half : (1 / 2 / 10 ^ 6 : ℚ) ≤ 1 / 10 ^ 6 := by norm_num
  exact (show |Double.signed negative
      ((toUnits 6 magnitude : ℚ≥0) / 10 ^ 6)| ≤ most + 1 / 10 ^ 6 by linarith)

/-- The text of a bounded number is short. -/
theorem length_formatFixed6_le
    {number : Double} {most : ℚ} (between : Between number (-most) most)
    (small : most ≤ 2 ^ 100) : (formatFixed6 number).length ≤ 39 := by
  rcases between with ⟨-, ⟨negative, magnitude, rfl, rfl⟩, above, below⟩
  have value : (magnitude : ℚ) ≤ 2 ^ 100 := by
    refine le_trans ?_ small
    cases negative with
    | false => exact below
    | true => exact neg_le_neg_iff.mp above
  have bounded : magnitude ≤ ((2 ^ 100 : ℕ) : ℚ≥0) := by
    rw [← NNRat.coe_le_coe]
    exact_mod_cast value
  have same :
      formatFixed6 (.finite negative magnitude) =
        formatFixed 6 (.finite negative magnitude) := by
    rw [formatFixed, List.append_assoc]
    rfl
  rw [same]
  exact length_formatFixed_le 6 (show 0 < 31 by decide) bounded (by norm_num)

/-! ## A packet -/

/-- The text of a packet with short axes fits the buffer. -/
theorem length_jsonText_lt
    {pkt : SensorPacket} (x : (formatFixed6 pkt.accX).length ≤ 39)
    (y : (formatFixed6 pkt.accY).length ≤ 39)
    (z : (formatFixed6 pkt.accZ).length ≤ 39) :
    (jsonText pkt).length < 256 := by
  have ts : (decimal pkt.timestampMs.toNat).length ≤ 20 :=
    length_decimal_le (by decide)
      (pkt.timestampMs.toNat_lt.trans (by decide))
  have seq : (decimal pkt.sequenceId.toNat).length ≤ 10 :=
    length_decimal_le (by decide)
      (pkt.sequenceId.toNat_lt.trans (by decide))
  have first : (ascii "\x7b\"ts\":").length = 6 := by decide
  have second : (ascii ",\"seq\":").length = 7 := by decide
  have third : (ascii ",\"ax\":").length = 6 := by decide
  have fourth : (ascii ",\"ay\":").length = 6 := by decide
  have fifth : (ascii ",\"az\":").length = 6 := by decide
  have last : (ascii "\x7d").length = 1 := by decide
  simp only [jsonText, List.length_append, first, second, third, fourth,
    fifth, last]
  omega

/-- A sample in its range can be sent, if the limit lets its reach through. -/
theorem sendable_of_inRange
    {cfg : ValidatorConfig} {pkt : SensorPacket} {amplitude gravity most : ℚ}
    (inRange : InRange amplitude gravity pkt) (nonneg : 0 ≤ amplitude)
    (small : reach amplitude gravity ≤ 2 ^ 100)
    (stamped : pkt.timestampMs ≠ 0)
    (isMost : HasValue cfg.maxAccMs2 most)
    (wide : toNearest (reach amplitude gravity) + 1 / 10 ^ 6 ≤ most) :
    Sendable cfg pkt := by
  rcases inRange.between_reach nonneg with ⟨x, y, z⟩
  have short : toNearest (reach amplitude gravity) ≤ 2 ^ 100 := by
    rw [← toNearest_two_pow]
    exact toNearest_mono small
  have within {number : Double}
      (between :
        Between number (-toNearest (reach amplitude gravity))
          (toNearest (reach amplitude gravity))) :
      Double.Within cfg.maxAccMs2 (sixDecimals number) := by
    rcases between_sixDecimals between with ⟨value, isValue, bounded⟩
    exact (isMost.within_iff isValue).mpr (bounded.trans wide)
  exact
    { stamped := stamped
      finite :=
        ⟨isFinite_of_between x, isFinite_of_between y, isFinite_of_between z⟩
      within := ⟨within x, within y, within z⟩
      fits :=
        length_jsonText_lt (length_formatFixed6_le x short)
          (length_formatFixed6_le y short) (length_formatFixed6_le z short) }

/-! ## A run -/

section Loop

variable {Conn Env : Type}

/-- What one reading after the other finds, and what it makes of it. -/
theorem loop_packets
    (Finds : SensorCtx → Prop) (Makes : SensorPacket → Prop)
    {transport : Transport Conn Env} {settings : Settings} {startMs : UInt64}
    {state : LoopState Conn} {ticks : List (Tick Env)}
    (reads :
      ∀ tick ∈ ticks, ∀ ctx, Finds ctx →
        Finds (sensorRead settings.arithmetic tick.readMs ctx).2 ∧
          Makes (sensorRead settings.arithmetic tick.readMs ctx).1)
    (finds : Finds state.sensor) :
    ∀ reading ∈ (loop transport settings startMs state ticks).readings,
      Makes reading.packet := by
  induction ticks generalizing state with
  | nil => simp [loop]
  | cons tick more induction =>
      rcases List.forall_mem_cons.mp reads with ⟨here, later⟩
      rcases turn_cases transport settings startMs state tick
        with idle | ⟨packet, sensor, conn, answer, rfl, rfl, -, -, turned, -⟩
      · rw [loop, idle]
        simp
      · rcases here state.sensor finds with ⟨ready, made⟩
        rw [loop, turned]
        cases answer with
        | breaks => simpa [answered] using made
        | sent | continues | pauses =>
            simp only [answered, Bool.false_eq_true, if_false]
            refine List.forall_mem_append.mpr ⟨by simpa using made, ?_⟩
            exact induction later ready

/-- Every packet of a run is in range and can be sent. -/
theorem loop_sendable
    (transport : Transport Conn Env) {settings : Settings}
    (isBinary64 : IsBinary64 settings.arithmetic)
    (sensor : Option SensorConfig) {amplitude gravity : ℚ}
    (configures :
      Configures (sensor.getD sensorConfigDefault) amplitude gravity)
    (time pid : ℤ) (startMs : UInt64) (conn : Conn) {ticks : List (Tick Env)}
    (clock : ∀ tick ∈ ticks, tick.readMs ≠ 0)
    {cfg : ValidatorConfig} {most : ℚ} (isMost : HasValue cfg.maxAccMs2 most)
    (wide : toNearest (reach amplitude gravity) + 1 / 10 ^ 6 ≤ most) :
    ∀ reading ∈
        (loop transport settings startMs (.new (sensorInit sensor time pid)
          conn) ticks).readings,
      InRange amplitude gravity reading.packet ∧
        Sendable cfg reading.packet := by
  refine loop_packets (Ready (sensor.getD sensorConfigDefault))
    (fun pkt => InRange amplitude gravity pkt ∧ Sendable cfg pkt)
    (fun tick member ctx ready => ⟨ready.sensorRead isBinary64 _, ?_⟩)
    (ready_sensorInit sensor time pid)
  have inRange := sensorRead_inRange isBinary64 configures ready tick.readMs
  exact ⟨inRange, sendable_of_inRange inRange configures.nonneg
    configures.small (clock tick member) isMost wide⟩

/-- The packet fits the buffer, and the server takes it as it was printed. -/
def AcceptedBy (cfg : ValidatorConfig) (pkt : SensorPacket) : Prop :=
  ∃ text, sensorToJson pkt 256 = some text ∧
    ∀ clockMs counter,
      parse cfg clockMs counter text =
        ({ packet := recordOf pkt, result := .ok }, counter)

/--
Whatever the transport does, every packet of a run of the client is in range,
its noise never positive, none is too long to be sent, and a server whose
limit is wider than their reach accepts each as it was printed.
-/
theorem samples_accepted
    (transport : Transport Conn Env) (settings : Settings)
    (isBinary64 : IsBinary64 settings.arithmetic)
    (sensor : Option SensorConfig) (amplitude gravity : ℚ)
    (configures :
      Configures (sensor.getD sensorConfigDefault) amplitude gravity)
    (time pid : ℤ) (startMs : UInt64) (conn : Conn) (ticks : List (Tick Env))
    (clock : ∀ tick ∈ ticks, tick.readMs ≠ 0)
    (cfg : ValidatorConfig) (most : ℚ) (isMost : HasValue cfg.maxAccMs2 most)
    (wide : toNearest (reach amplitude gravity) + 1 / 10 ^ 6 ≤ most) :
    ∀ reading ∈
        (loop transport settings startMs (.new (sensorInit sensor time pid)
          conn) ticks).readings,
      InRange amplitude gravity reading.packet ∧
        AcceptedBy cfg reading.packet := by
  intro reading member
  rcases loop_sendable transport isBinary64 sensor configures time pid startMs
      conn clock isMost wide reading member with ⟨inRange, sendable⟩
  exact ⟨inRange, _, sensorToJson_eq_some sendable.fits,
    fun clockMs counter => parse_jsonText sendable clockMs counter⟩

end Loop

/-- Rounded arithmetic, with the sines and cosines of two packets. -/
def roundedSettings : Settings :=
  { sampleSettings with
    arithmetic := doubles sampleArithmetic.sin sampleArithmetic.cos }

theorem isBinary64_roundedSettings :
    IsBinary64 roundedSettings.arithmetic := by
  refine isBinary64_doubles (fun argument a _ => ?_) fun argument a _ => ?_
  · change Between (if argument = Double.zero then _ else _) (-1) 1
    split_ifs
    · exact ⟨0, ⟨false, 0, rfl, rfl⟩, by norm_num, by norm_num⟩
    · refine ⟨998334166468282 / 10 ^ 16, ⟨false,
        ⟨998334166468282 / 10 ^ 16, by norm_num⟩, by decide +kernel, rfl⟩,
        by norm_num, by norm_num⟩
  · change Between (if argument = Double.zero then _ else _) (-1) 1
    split_ifs
    · exact ⟨1, ⟨false, ⟨1, by norm_num⟩, by decide +kernel, rfl⟩,
        by norm_num, by norm_num⟩
    · refine ⟨99755100025328 / 10 ^ 14, ⟨false,
        ⟨99755100025328 / 10 ^ 14, by norm_num⟩, by decide +kernel, rfl⟩,
        by norm_num, by norm_num⟩

/-- The noise and the weight that a client is set to by default. -/
theorem configures_default :
    Configures sensorConfigDefault (5 / 100) (981 / 100) ∧
      toNearest (reach (5 / 100) (981 / 100)) ≤ 12 := by
  have swing := toNearest_mono (show (3 / 10 : ℚ) ≤ 1 by norm_num)
  have noise := toNearest_mono (show (5 / 100 : ℚ) ≤ 1 by norm_num)
  have ten : toNearest 10 = 10 := by
    exact_mod_cast toNearest_natCast 10 (by decide)
  have twelve : toNearest 12 = 12 := by
    exact_mod_cast toNearest_natCast 12 (by decide)
  have weight := toNearest_mono (show (981 / 100 : ℚ) ≤ 10 by norm_num)
  rw [toNearest_one] at swing noise
  rw [ten] at weight
  have positive : 0 ≤ toNearest (981 / 100) :=
    toNearest_nonneg (by norm_num)
  have bounded : reach (5 / 100) (981 / 100) ≤ 12 := by
    have most :
        max (toNearest (3 / 10)) |toNearest (981 / 100)| ≤ 10 := by
      rw [abs_of_nonneg positive]
      exact max_le (swing.trans (by norm_num)) weight
    rw [reach]
    linarith
  refine ⟨?_, twelve ▸ toNearest_mono bounded⟩
  exact
    { isAmplitude :=
        ⟨false, ⟨5 / 100, by norm_num⟩, by decide +kernel, rfl⟩
      nonneg := by norm_num
      isGravity :=
        ⟨false, ⟨981 / 100, by norm_num⟩, by decide +kernel, rfl⟩
      small := bounded.trans (by norm_num) }

/-- A server for a device with a range of two g. -/
def twoG : ValidatorConfig :=
  { ValidatorConfig.default with maxAccMs2 := atof (ascii "19.6133") }

theorem hasValue_twoG : HasValue twoG.maxAccMs2 (196133 / 10 ^ 4) :=
  ⟨false, ⟨196133 / 10 ^ 4, by norm_num⟩, by decide +kernel, rfl⟩

theorem readMs_sampleTicks : ∀ tick ∈ sampleTicks, tick.readMs ≠ 0 :=
  List.forall_mem_cons.mpr ⟨by decide, List.forall_mem_cons.mpr
    ⟨by decide, List.forall_mem_singleton.mpr (by decide)⟩⟩

theorem reach_twoG :
    toNearest (reach (5 / 100) (981 / 100)) + 1 / 10 ^ 6 ≤
      196133 / 10 ^ 4 :=
  (add_le_add_left configures_default.2 _).trans (by norm_num)

theorem samples_accepted_sample :
    let run :=
      loop (mqtt (some (ascii "accel")) 1) roundedSettings 5000
        (.new (sensorInit none 0 1) ⟨0, 0⟩) sampleTicks
    run.readings.length = 2 ∧
      ∀ reading ∈ run.readings,
        InRange (5 / 100) (981 / 100) reading.packet ∧
          AcceptedBy twoG reading.packet := by
  intro run
  refine ⟨by decide +kernel, ?_⟩
  exact samples_accepted (mqtt (some (ascii "accel")) 1) roundedSettings
    isBinary64_roundedSettings none (5 / 100) (981 / 100)
    configures_default.1 0 1 5000 ⟨0, 0⟩ sampleTicks readMs_sampleTicks twoG
    (196133 / 10 ^ 4) hasValue_twoG reach_twoG

end AccelObserver.EndToEnd.SensorAccepted
