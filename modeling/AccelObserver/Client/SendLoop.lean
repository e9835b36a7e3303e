import AccelObserver.Client.SensorSim
import AccelObserver.Client.WsTransport

/-!
# The sending loops of the client

The two loops of `main`, one for each transport: read the sensor, print the
packet, send it, and sleep until the next packet is due.  What a transport
does with a text, and whether it is there at all, is a parameter of the loop;
so is the arithmetic on doubles, as it is for the sensor.

The clock, the flag of the signal handlers and the answers of the network come
in turn by turn.  The progress lines are left out.
-/

namespace AccelObserver.Client.SendLoop

open AccelObserver.Library
open AccelObserver.Library.CNumber (atof)
open AccelObserver.Client.SensorData
open AccelObserver.Client.SensorSim
open AccelObserver.Client.WsTransport (WsClient wsSendText)

/-! ## The schedule -/

/-- The conversions between doubles and integers. -/
structure Conversions where
  ofUint64 : UInt64 → Double
  ofLong : Nat → Double
  toUint64 : Double → UInt64
  toUint32 : Double → UInt32

/-- What the loop is set up with. -/
structure Settings where
  arithmetic : Arithmetic
  conversions : Conversions
  rateHz : Double
  durationSec : Double

/-- `interval_ms` -/
def Settings.intervalMs (settings : Settings) : Double :=
  settings.arithmetic.div (atof (ascii "1000.0")) settings.rateHz

/-- `(uint64_t)((double)sent * interval_ms)` -/
def Settings.dueMs (settings : Settings) (sent : Nat) : UInt64 :=
  settings.conversions.toUint64
    (settings.arithmetic.mul (settings.conversions.ofLong sent)
      settings.intervalMs)

/-- `(double)elapsed_ms >= cfg.duration_sec * 1000.0` -/
def Settings.over (settings : Settings) (elapsedMs : UInt64) : Bool :=
  (settings.arithmetic.mul settings.durationSec (atof (ascii "1000.0"))).le
    (settings.conversions.ofUint64 elapsedMs)

/-! ## A turn of the loop -/

/-- What the loop does with the answer of a transport. -/
inductive Answer
  | sent
  | continues
  | pauses
  | breaks
  deriving DecidableEq

/-- What the loop needs of a connection; `Env` is what comes from outside. -/
structure Transport (Conn Env : Type) where
  /-- The connection is there, or comes back in time. -/
  ready : Env → Bool
  send : Env → Conn → Bytes → Answer × Conn

/-- `g_running`, the readings of the clock, and what the network does. -/
structure Tick (Env : Type) where
  running : Bool
  nowMs : UInt64
  readMs : UInt64
  pacedMs : UInt64
  env : Env

structure LoopState (Conn : Type) where
  sensor : SensorCtx
  conn : Conn
  sent : Nat
  errors : Nat

/-- A packet that was read, when its turn began, and what became of it. -/
structure Reading where
  turnMs : UInt64
  packet : SensorPacket
  sent : Bool

/-- What a turn leads to: `clockMs` is its last reading of the clock. -/
structure Turn (Conn : Type) where
  state : LoopState Conn
  reading : Option Reading
  clockMs : UInt64
  sleepMs : UInt32
  leaves : Bool

/-- The sleep behind a packet that was sent, 0 for none. -/
def pacing (settings : Settings) (startMs : UInt64) (sent : Nat)
    (nowMs : UInt64) : UInt32 :=
  let nextTickMs := startMs + settings.dueMs sent
  if nextTickMs > nowMs then (nextTickMs - nowMs).toUInt32 else 0

section Loop

variable {Conn Env : Type}

/-- What follows from the answer of the transport. -/
def answered (settings : Settings) (startMs : UInt64) (tick : Tick Env)
    (packet : SensorPacket) (state : LoopState Conn) : Answer → Turn Conn
  | .sent =>
      { state := { state with sent := state.sent + 1 }
        reading := some ⟨tick.nowMs, packet, true⟩
        clockMs := tick.pacedMs
        sleepMs := pacing settings startMs (state.sent + 1) tick.pacedMs
        leaves := false }
  | .continues =>
      { state := { state with errors := state.errors + 1 }
        reading := some ⟨tick.nowMs, packet, false⟩
        clockMs := tick.readMs
        sleepMs := 0
        leaves := false }
  | .pauses =>
      { state := { state with errors := state.errors + 1 }
        reading := some ⟨tick.nowMs, packet, false⟩
        clockMs := tick.readMs
        sleepMs := settings.conversions.toUint32 settings.intervalMs
        leaves := false }
  | .breaks =>
      { state := { state with errors := state.errors + 1 }
        reading := some ⟨tick.nowMs, packet, false⟩
        clockMs := tick.readMs
        sleepMs := 0
        leaves := true }

/-- Printing and sending a packet that was read. -/
def attempt (transport : Transport Conn Env) (settings : Settings)
    (startMs : UInt64) (state : LoopState Conn) (tick : Tick Env)
    (packet : SensorPacket) : Turn Conn :=
  match sensorToJson packet 256 with
  | none => answered settings startMs tick packet state .continues
  | some text =>
      let (answer, conn) := transport.send tick.env state.conn text
      answered settings startMs tick packet { state with conn := conn } answer

/-- The loop is left before anything is read. -/
def ends (transport : Transport Conn Env) (settings : Settings)
    (startMs : UInt64) (tick : Tick Env) : Bool :=
  !tick.running || settings.over (tick.nowMs - startMs) ||
    !transport.ready tick.env

/-- The body of the `while`, with its condition. -/
def turn (transport : Transport Conn Env) (settings : Settings)
    (startMs : UInt64) (state : LoopState Conn) (tick : Tick Env) :
    Turn Conn :=
  if ends transport settings startMs tick then
    { state := state
      reading := none
      clockMs := tick.nowMs
      sleepMs := 0
      leaves := true }
  else
    let read := sensorRead settings.arithmetic tick.readMs state.sensor
    attempt transport settings startMs { state with sensor := read.2 } tick
      read.1

/-- What the loop has done when it is left, or when the turns end. -/
structure Run (Conn : Type) where
  state : LoopState Conn
  readings : List Reading

def loop (transport : Transport Conn Env) (settings : Settings)
    (startMs : UInt64) : LoopState Conn → List (Tick Env) → Run Conn
  | state, [] => { state := state, readings := [] }
  | state, tick :: more =>
      let turn := turn transport settings startMs state tick
      if turn.leaves then
        { state := turn.state, readings := turn.reading.toList }
      else
        let rest := loop transport settings startMs turn.state more
        { state := rest.state
          readings := turn.reading.toList ++ rest.readings }

/-- Before the first turn. -/
def LoopState.new (sensor : SensorCtx) (conn : Conn) : LoopState Conn where
  sensor := sensor
  conn := conn
  sent := 0
  errors := 0

@[simp]
theorem LoopState.new_sent (sensor : SensorCtx) (conn : Conn) :
    (LoopState.new sensor conn).sent = 0 := rfl

@[simp]
theorem LoopState.new_errors (sensor : SensorCtx) (conn : Conn) :
    (LoopState.new sensor conn).errors = 0 := rfl

/-- `(errors > 0) ? 2 : 0` -/
def exitCode (state : LoopState Conn) : Nat :=
  if state.errors > 0 then 2 else 0

end Loop

/-! ## Over the WebSocket -/

/-- A frame that does not get out ends the loop. -/
def ws : Transport WsClient Unit where
  ready _ := true
  send _ client text :=
    match wsSendText client text with
    | (.wsOk, client) => (.sent, client)
    | (.wsErrNet, client) => (.breaks, client)
    | (.wsErrParam, client) => (.continues, client)

/-! ## Over the broker -/

/-- What the loop sees while it waits for the broker. -/
structure Poll where
  connected : Bool
  running : Bool
  nowMs : UInt64

/-- The inner loop: up to ten seconds, in steps of 200 ms.  Where the polls
end, the run does. -/
def waitReconnect (waitStartMs : UInt64) : List Poll → Bool
  | [] => false
  | poll :: more =>
      if poll.connected ∨ ¬ poll.running then true
      else if poll.nowMs - waitStartMs > 10000 then false
      else waitReconnect waitStartMs more

/-- What `mosquitto_publish` answers. -/
inductive MosqError
  | success
  | noConn
  | connLost
  | other
  deriving DecidableEq

/-- What the loop meets in one turn: the connection at its top, the wait, and
`mqtt_publish` with what it reads of the connection and of the library. -/
structure Broker where
  connected : Bool
  waitStartMs : UInt64
  polls : List Poll
  connectedAtPublish : Bool
  rc : MosqError

/-- The two counters of `mqtt_publish`. -/
structure MqttStats where
  published : Nat
  errors : Nat

/-- The members of `mqtt_error_code_t` that `mqtt_publish` can return. -/
inductive PublishCode
  | mqttOk
  | mqttErrParam
  | mqttErrDisconnected
  | mqttErrPublish
  deriving DecidableEq

/-- `mqtt_publish`, for a client and a payload that are there. -/
def mqttPublish (topic : Option Bytes) (qos : ℤ) (broker : Broker)
    (stats : MqttStats) : PublishCode × MqttStats :=
  if topic = none then (.mqttErrParam, stats)
  else if qos < 0 ∨ 2 < qos then (.mqttErrParam, stats)
  else if ¬ broker.connectedAtPublish then (.mqttErrDisconnected, stats)
  else
    match broker.rc with
    | .success =>
        (.mqttOk, { stats with published := stats.published + 1 })
    | .noConn | .connLost =>
        (.mqttErrDisconnected, { stats with errors := stats.errors + 1 })
    | .other => (.mqttErrPublish, { stats with errors := stats.errors + 1 })

/-- While the broker is away the loop pauses; any other failure ends it. -/
def answerOf : PublishCode → Answer
  | .mqttOk => .sent
  | .mqttErrDisconnected => .pauses
  | .mqttErrParam | .mqttErrPublish => .breaks

def mqtt (topic : Option Bytes) (qos : ℤ) : Transport MqttStats Broker where
  ready broker :=
    broker.connected || waitReconnect broker.waitStartMs broker.polls
  send broker stats _ :=
    let (code, stats) := mqttPublish topic qos broker stats
    (answerOf code, stats)

section Loop

variable {Conn Env : Type}

/-! ## What a turn can do -/

/-- A packet is printed and sent, or counted as an error. -/
theorem attempt_cases
    (transport : Transport Conn Env) (settings : Settings) (startMs : UInt64)
    (state : LoopState Conn) (tick : Tick Env) (packet : SensorPacket) :
    ∃ conn answer,
      attempt transport settings startMs state tick packet =
          answered settings startMs tick packet { state with conn := conn }
            answer ∧
        ((sensorToJson packet 256 = none ∧ answer = .continues ∧
            conn = state.conn) ∨
          ∃ text, sensorToJson packet 256 = some text ∧
            transport.send tick.env state.conn text = (answer, conn)) := by
  cases printed : sensorToJson packet 256 with
  | none =>
      refine ⟨state.conn, .continues, ?_, Or.inl ⟨rfl, rfl, rfl⟩⟩
      rw [attempt, printed]
  | some text =>
      rcases sending : transport.send tick.env state.conn text
        with ⟨answer, conn⟩
      refine ⟨conn, answer, ?_, Or.inr ⟨text, rfl, sending⟩⟩
      rw [attempt, printed]
      simp only [sending]

/-- A turn that reads no packet is the last one and changes nothing; any other
reads the next packet in time and counts it. -/
theorem turn_cases
    (transport : Transport Conn Env) (settings : Settings) (startMs : UInt64)
    (state : LoopState Conn) (tick : Tick Env) :
    turn transport settings startMs state tick =
        { state := state
          reading := none
          clockMs := tick.nowMs
          sleepMs := 0
          leaves := true } ∨
      ∃ packet sensor conn answer,
        packet = (sensorRead settings.arithmetic tick.readMs state.sensor).1 ∧
          sensor =
            (sensorRead settings.arithmetic tick.readMs state.sensor).2 ∧
          tick.running = true ∧
          settings.over (tick.nowMs - startMs) = false ∧
          turn transport settings startMs state tick =
            answered settings startMs tick packet
              { state with sensor := sensor, conn := conn } answer ∧
          ((sensorToJson packet 256 = none ∧ answer = .continues ∧
              conn = state.conn) ∨
            ∃ text, sensorToJson packet 256 = some text ∧
              transport.send tick.env state.conn text = (answer, conn)) := by
  cases ending : ends transport settings startMs tick with
  | true =>
      left
      rw [turn, if_pos ending]
  | false =>
      right
      rcases attempt_cases transport settings startMs
          { state with
            sensor :=
              (sensorRead settings.arithmetic tick.readMs state.sensor).2 }
          tick (sensorRead settings.arithmetic tick.readMs state.sensor).1
        with ⟨conn, answer, attempted, sending⟩
      have reads :
          ¬ ends transport settings startMs tick = true := by
        rw [ending]
        decide
      simp only [ends, Bool.or_eq_false_iff, Bool.not_eq_false'] at ending
      refine ⟨_, _, conn, answer, rfl, rfl, ending.1.1, ending.1.2, ?_,
        sending⟩
      rw [turn, if_neg reads]
      exact attempted

/-! ## The books of the loop -/

/-- Every packet is counted once, as sent or as an error, and the numbers are
given out one by one. -/
structure Books (settings : Settings) (startMs : UInt64)
    (before after : LoopState Conn) (readings : List Reading) : Prop where
  sent : after.sent = before.sent + readings.countP (·.sent)
  errors : after.errors = before.errors + readings.countP (!·.sent)
  sequence :
    after.sensor.sequence =
      before.sensor.sequence + UInt32.ofNat readings.length
  numbers :
    ∀ index reading, readings[index]? = some reading →
      reading.packet.sequenceId =
        before.sensor.sequence + UInt32.ofNat index
  inTime :
    ∀ reading ∈ readings, settings.over (reading.turnMs - startMs) = false

theorem Books.refl
    (settings : Settings) (startMs : UInt64) (state : LoopState Conn) :
    Books settings startMs state state [] where
  sent := rfl
  errors := rfl
  sequence := by simp
  numbers := by simp
  inTime := by simp

theorem Books.trans
    {settings : Settings} {startMs : UInt64}
    {before middle after : LoopState Conn} {first second : List Reading}
    (start : Books settings startMs before middle first)
    (rest : Books settings startMs middle after second) :
    Books settings startMs before after (first ++ second) where
  sent := by
    rw [rest.sent, start.sent, List.countP_append, Nat.add_assoc]
  errors := by
    rw [rest.errors, start.errors, List.countP_append, Nat.add_assoc]
  sequence := by
    rw [rest.sequence, start.sequence, List.length_append, UInt32.ofNat_add,
      UInt32.add_assoc]
  numbers := by
    intro index reading isReading
    by_cases early : index < first.length
    · rw [List.getElem?_append_left early] at isReading
      exact start.numbers index reading isReading
    · have late := Nat.not_lt.mp early
      rw [List.getElem?_append_right late] at isReading
      rw [rest.numbers _ reading isReading, start.sequence, UInt32.add_assoc,
        ← UInt32.ofNat_add, Nat.add_sub_cancel' late]
  inTime :=
    List.forall_mem_append.mpr ⟨start.inTime, rest.inTime⟩

/-- One turn keeps the books. -/
theorem turn_books
    (transport : Transport Conn Env) (settings : Settings) (startMs : UInt64)
    (state : LoopState Conn) (tick : Tick Env) :
    Books settings startMs state
      (turn transport settings startMs state tick).state
      (turn transport settings startMs state tick).reading.toList := by
  rcases turn_cases transport settings startMs state tick
    with idle | ⟨packet, sensor, conn, answer, rfl, rfl, -, inTime, reads, -⟩
  · rw [idle]
    exact .refl settings startMs state
  · have one (sent : Bool) :
        ∀ index reading,
          [Reading.mk tick.nowMs
              (sensorRead settings.arithmetic tick.readMs state.sensor).1
              sent][index]? = some reading →
            reading.packet.sequenceId =
              state.sensor.sequence + UInt32.ofNat index := by
      rintro (_ | index) reading isReading
      · rw [List.getElem?_cons_zero, Option.some.injEq] at isReading
        rw [← isReading]
        exact (UInt32.add_zero _).symm
      · simp at isReading
    rw [reads]
    cases answer with
    | sent =>
        exact ⟨rfl, rfl, rfl, one true, List.forall_mem_singleton.mpr inTime⟩
    | continues | pauses | breaks =>
        exact ⟨rfl, rfl, rfl, one false, List.forall_mem_singleton.mpr inTime⟩

/-- So does a run. -/
theorem loop_books
    (transport : Transport Conn Env) (settings : Settings) (startMs : UInt64)
    (state : LoopState Conn) (ticks : List (Tick Env)) :
    Books settings startMs state
      (loop transport settings startMs state ticks).state
      (loop transport settings startMs state ticks).readings := by
  induction ticks generalizing state with
  | nil => exact .refl settings startMs state
  | cons tick more induction =>
      have here := turn_books transport settings startMs state tick
      rw [loop]
      by_cases leaves :
          (turn transport settings startMs state tick).leaves = true
      · simp only [if_pos leaves]
        exact here
      · simp only [if_neg leaves]
        exact here.trans (induction _)

/-! ## The pace of the loop -/

/-- The clock does not go back, and a sleep is not cut short, as long as the
loop is to run. -/
def honest (transport : Transport Conn Env) (settings : Settings)
    (startMs : UInt64) : Nat → LoopState Conn → List (Tick Env) → Bool
  | _, _, [] => true
  | afterMs, state, tick :: more =>
      let turn := turn transport settings startMs state tick
      !tick.running ||
        (decide (afterMs ≤ tick.nowMs.toNat) &&
          decide (tick.nowMs ≤ tick.readMs) &&
          decide (tick.readMs ≤ tick.pacedMs) &&
          (turn.leaves ||
            honest transport settings startMs
              (turn.clockMs.toNat + turn.sleepMs.toNat) turn.state more))

/-- The schedule begins at the start, fits the clock, and no two packets of it
are so far apart that the argument of `net_sleep_ms` is cut. -/
structure Gentle (settings : Settings) (startMs : UInt64) (most : Nat) :
    Prop where
  first : settings.dueMs 0 = 0
  apart :
    ∀ sent < most,
      (settings.dueMs (sent + 1)).toNat <
        (settings.dueMs sent).toNat + 2 ^ 32
  inRange :
    ∀ sent ≤ most, startMs.toNat + (settings.dueMs sent).toNat < 2 ^ 64

theorem Gentle.mono
    {settings : Settings} {startMs : UInt64} {few most : Nat}
    (gentle : Gentle settings startMs most) (fewer : few ≤ most) :
    Gentle settings startMs few where
  first := gentle.first
  apart := fun sent below => gentle.apart sent (below.trans_le fewer)
  inRange := fun sent below => gentle.inRange sent (below.trans fewer)

/-- The sleep lasts until the next packet is due. -/
theorem le_add_pacing
    {settings : Settings} {startMs nowMs : UInt64} {sent : Nat}
    (inRange : startMs.toNat + (settings.dueMs sent).toNat < 2 ^ 64)
    (near :
      startMs.toNat + (settings.dueMs sent).toNat < nowMs.toNat + 2 ^ 32) :
    startMs.toNat + (settings.dueMs sent).toNat ≤
      nowMs.toNat + (pacing settings startMs sent nowMs).toNat := by
  have nextTick :
      (startMs + settings.dueMs sent).toNat =
        startMs.toNat + (settings.dueMs sent).toNat := by
    rw [UInt64.toNat_add, Nat.mod_eq_of_lt inRange]
  simp only [pacing]
  split_ifs with ahead
  · have below := UInt64.lt_iff_toNat_lt.mp ahead
    rw [UInt64.toNat_toUInt32,
      UInt64.toNat_sub_of_le _ _ (UInt64.le_of_lt ahead), nextTick,
      Nat.mod_eq_of_lt (by omega)]
    omega
  · rw [UInt32.toNat_zero, ← nextTick]
    exact UInt64.le_iff_toNat_le.mp (UInt64.not_lt.mp ahead)

/-- A packet is sent when it is due, or later. -/
theorem loop_paced
    {transport : Transport Conn Env} {settings : Settings} {startMs : UInt64}
    {state : LoopState Conn} {ticks : List (Tick Env)}
    (gentle : Gentle settings startMs (state.sent + ticks.length))
    {afterMs : Nat}
    (inStep : honest transport settings startMs afterMs state ticks = true)
    (due : startMs.toNat + (settings.dueMs state.sent).toNat ≤ afterMs) :
    ∀ index reading,
      ((loop transport settings startMs state ticks).readings.filter
          (·.sent))[index]? = some reading →
        startMs.toNat + (settings.dueMs (state.sent + index)).toNat ≤
          reading.turnMs.toNat := by
  induction ticks generalizing state afterMs with
  | nil => simp [loop]
  | cons tick more induction =>
      rcases turn_cases transport settings startMs state tick
        with idle | ⟨packet, sensor, conn, answer, -, -, running, -, reads, -⟩
      · rw [loop, idle]
        simp
      · rw [List.length_cons] at gentle
        rw [honest, reads] at inStep
        simp only [running, Bool.not_true, Bool.false_or, Bool.and_eq_true,
          decide_eq_true_eq] at inStep
        rcases inStep with ⟨⟨⟨after, read⟩, paced⟩, later⟩
        rw [UInt64.le_iff_toNat_le] at read paced
        rw [loop, reads]
        cases answer with
        | breaks => simp [answered]
        | continues | pauses =>
            simp only [answered, Bool.false_or] at later
            simp only [answered, Bool.false_eq_true, if_false,
              Option.toList_some, List.singleton_append, List.filter_cons]
            refine induction (gentle.mono ?_) later ?_
            · exact Nat.add_le_add_left (Nat.le_succ _) _
            · exact due.trans (by omega)
        | sent =>
            simp only [answered, Bool.false_or] at later
            simp only [answered, Bool.false_eq_true, if_false, if_true,
              Option.toList_some, List.singleton_append, List.filter_cons]
            have inRange := gentle.inRange (state.sent + 1) (by omega)
            have apart := gentle.apart state.sent (by omega)
            have slept :
                startMs.toNat + (settings.dueMs (state.sent + 1)).toNat ≤
                  tick.pacedMs.toNat +
                    (pacing settings startMs (state.sent + 1)
                      tick.pacedMs).toNat :=
              le_add_pacing inRange (by omega)
            rintro (_ | index) reading isReading
            · rw [List.getElem?_cons_zero, Option.some.injEq] at isReading
              rw [← isReading, Nat.add_zero]
              exact due.trans after
            · rw [List.getElem?_cons_succ] at isReading
              have next :
                  startMs.toNat +
                      (settings.dueMs (state.sent + 1 + index)).toNat ≤
                    reading.turnMs.toNat := by
                refine induction (gentle.mono ?_) later slept index reading
                  isReading
                rw [Nat.add_right_comm, Nat.add_assoc]
              rwa [Nat.add_right_comm, Nat.add_assoc] at next

/-- What each turn keeps, a run keeps. -/
theorem loop_invariant
    {transport : Transport Conn Env} {settings : Settings} {startMs : UInt64}
    {Holds : LoopState Conn → Prop}
    (step :
      ∀ state tick, Holds state →
        Holds (turn transport settings startMs state tick).state)
    {state : LoopState Conn} (start : Holds state)
    (ticks : List (Tick Env)) :
    Holds (loop transport settings startMs state ticks).state := by
  induction ticks generalizing state with
  | nil => exact start
  | cons tick more induction =>
      have here := step state tick start
      rw [loop]
      by_cases leaves :
          (turn transport settings startMs state tick).leaves = true
      · simp only [if_pos leaves]
        exact here
      · simp only [if_neg leaves]
        exact induction here

/-- Nothing that was read goes uncounted. -/
theorem Books.sent_add_errors
    {settings : Settings} {startMs : UInt64} {sensor : SensorCtx}
    {conn : Conn} {after : LoopState Conn} {readings : List Reading}
    (books : Books settings startMs (.new sensor conn) after readings) :
    after.sent + after.errors = readings.length := by
  rw [books.sent, books.errors, LoopState.new_sent, LoopState.new_errors,
    Nat.zero_add, Nat.zero_add, List.length_eq_countP_add_countP (·.sent)]
  congr 2
  funext reading
  simp

/-- The process succeeds if everything that was read was sent. -/
theorem exitCode_eq_zero_iff
    {settings : Settings} {startMs : UInt64} {sensor : SensorCtx}
    {conn : Conn} {after : LoopState Conn} {readings : List Reading}
    (books : Books settings startMs (.new sensor conn) after readings) :
    exitCode after = 0 ↔ readings.filter (·.sent) = readings := by
  have errors := books.errors
  rw [LoopState.new_errors, Nat.zero_add] at errors
  rw [exitCode, errors, List.filter_eq_self]
  split_ifs with some
  · rcases List.countP_pos_iff.mp some with ⟨reading, member, unsent⟩
    refine iff_of_false (by decide) fun all => ?_
    rw [all reading member] at unsent
    cases unsent
  · refine iff_of_true rfl fun reading member => ?_
    by_contra unsent
    exact some
      (List.countP_pos_iff.mpr ⟨reading, member, by simpa using unsent⟩)

/--
A run of the sending loop, whatever the transport does with the packets.  They
are numbered one by one as they are read, and each of them is counted once, as
sent or as an error.  No packet is sent before it is due, and no turn that
reads one begins when the duration is over, though it may wait for its broker
from there; so no more are sent than are due in it.
-/
theorem loop_keeps_schedule
    (transport : Transport Conn Env) (settings : Settings) (startMs : UInt64)
    (sensor : SensorCtx) (conn : Conn) (ticks : List (Tick Env))
    (gentle : Gentle settings startMs ticks.length)
    (inStep :
      honest transport settings startMs startMs.toNat (.new sensor conn)
        ticks = true) :
    let run := loop transport settings startMs (.new sensor conn) ticks
    let sent := run.readings.filter (·.sent)
    (run.state.sent = sent.length ∧
        run.state.sent + run.state.errors = run.readings.length ∧
        (exitCode run.state = 0 ↔ sent = run.readings)) ∧
      (∀ index reading, run.readings[index]? = some reading →
        reading.packet.sequenceId =
          sensor.sequence + UInt32.ofNat index) ∧
      (∀ index reading, sent[index]? = some reading →
        startMs.toNat + (settings.dueMs index).toNat ≤
          reading.turnMs.toNat) ∧
      (∀ reading ∈ run.readings,
        settings.over (reading.turnMs - startMs) = false) ∧
      ∀ limit,
        (∀ elapsedMs, settings.dueMs limit ≤ elapsedMs →
          settings.over elapsedMs = true) →
        run.state.sent ≤ limit := by
  intro run sent
  have books :=
    loop_books transport settings startMs (.new sensor conn) ticks
  have counted : run.state.sent = sent.length := by
    rw [books.sent, LoopState.new_sent, Nat.zero_add,
      List.countP_eq_length_filter]
  have paced :
      ∀ index reading, sent[index]? = some reading →
        startMs.toNat + (settings.dueMs index).toNat ≤
          reading.turnMs.toNat := by
    intro index reading isReading
    have gentle' :
        Gentle settings startMs
          ((LoopState.new sensor conn).sent + ticks.length) :=
      gentle.mono (by rw [LoopState.new_sent, Nat.zero_add])
    have due :
        startMs.toNat +
            (settings.dueMs (LoopState.new sensor conn).sent).toNat ≤
          startMs.toNat := by
      rw [LoopState.new_sent, gentle.first]
      exact Nat.le_refl _
    have onTime := loop_paced gentle' inStep due index reading isReading
    rwa [LoopState.new_sent, Nat.zero_add] at onTime
  refine ⟨⟨counted, books.sent_add_errors, exitCode_eq_zero_iff books⟩,
    books.numbers, paced, books.inTime, fun limit ends => ?_⟩
  by_contra more
  have beyond : limit < sent.length := by omega
  have onTime := paced limit _ (List.getElem?_eq_getElem beyond)
  have inTime :=
    books.inTime _ (List.mem_of_mem_filter (List.getElem_mem beyond))
  rw [ends] at inTime
  · cases inTime
  · rw [UInt64.le_iff_toNat_le,
      UInt64.toNat_sub_of_le _ _ (UInt64.le_iff_toNat_le.mpr (by omega))]
    omega

end Loop

/-- The results of one operation on two finite numbers. -/
def lifted (op : ℚ → ℚ → ℚ) : Double → Double → Double
  | .finite negative magnitude, .finite negative' magnitude' =>
      let exact :=
        op (Double.signed negative magnitude)
          (Double.signed negative' magnitude')
      CNumber.nearest (.finite (exact < 0) exact.nnabs)
  | _, _ => .nan

/-- Rounded arithmetic, with the sines and cosines of two packets. -/
def sampleArithmetic : Arithmetic where
  add := lifted (· + ·)
  sub := lifted (· - ·)
  mul := lifted (· * ·)
  div := lifted (· / ·)
  sin x :=
    if x = Double.zero then Double.zero else atof (ascii "0.0998334166468282")
  cos x :=
    if x = Double.zero then atof (ascii "1") else
      atof (ascii "0.99755100025328")

def truncated : Double → Nat
  | .finite false magnitude => magnitude.num / magnitude.den
  | _ => 0

/-- Ten packets a second, for 0.15 s. -/
def sampleSettings : Settings where
  arithmetic := sampleArithmetic
  conversions :=
    { ofUint64 := fun value => CNumber.nearest (.finite false value.toNat)
      ofLong := fun value => CNumber.nearest (.finite false value)
      toUint64 := fun value => UInt64.ofNat (truncated value)
      toUint32 := fun value => UInt32.ofNat (truncated value) }
  rateHz := atof (ascii "10")
  durationSec := atof (ascii "0.15")

/-- A broker that takes everything. -/
def sampleBroker : Broker where
  connected := true
  waitStartMs := 0
  polls := []
  connectedAtPublish := true
  rc := .success

/-- Two packets, and the turn that ends the loop. -/
def sampleTicks : List (Tick Broker) :=
  [⟨true, 5000, 5000, 5001, sampleBroker⟩,
    ⟨true, 5100, 5100, 5101, sampleBroker⟩,
    ⟨true, 5200, 5200, 5200, sampleBroker⟩]

theorem sampleSettings_gentle : Gentle sampleSettings 5000 3 where
  first := by decide +kernel
  apart := by
    rintro (_ | _ | _ | sent) below
    · decide +kernel
    · decide +kernel
    · decide +kernel
    · omega
  inRange := by
    rintro (_ | _ | _ | _ | sent) below
    · decide +kernel
    · decide +kernel
    · decide +kernel
    · decide +kernel
    · omega

theorem loop_keeps_schedule_sample :
    let run :=
      loop (mqtt (some (ascii "accel")) 1) sampleSettings 5000
        (.new (sensorInit none 0 1) ⟨0, 0⟩) sampleTicks
    run.state.sent = 2 ∧
      ∀ index reading,
        (run.readings.filter (·.sent))[index]? = some reading →
          5000 + (sampleSettings.dueMs index).toNat ≤
            reading.turnMs.toNat := by
  intro run
  refine ⟨by decide +kernel, ?_⟩
  exact (loop_keeps_schedule (mqtt (some (ascii "accel")) 1) sampleSettings
    5000 (sensorInit none 0 1) ⟨0, 0⟩ sampleTicks sampleSettings_gentle
    (by decide +kernel)).2.2.1

/-! ## The counters of the broker's client -/

/-- A publication that succeeds is counted by both, any other by the loop at
least. -/
theorem mqttPublish_cases
    (topic : Option Bytes) (qos : ℤ) (broker : Broker) (stats : MqttStats) :
    (answerOf (mqttPublish topic qos broker stats).1 = .sent ∧
        (mqttPublish topic qos broker stats).2 =
          { stats with published := stats.published + 1 }) ∨
      (answerOf (mqttPublish topic qos broker stats).1 ≠ .sent ∧
        (mqttPublish topic qos broker stats).2.published = stats.published ∧
        (mqttPublish topic qos broker stats).2.errors ≤ stats.errors + 1) := by
  have breaks : Answer.breaks ≠ .sent := by decide
  have pauses : Answer.pauses ≠ .sent := by decide
  rw [mqttPublish]
  split_ifs with noTopic badQos connected
  · exact Or.inr ⟨breaks, rfl, Nat.le_succ _⟩
  · exact Or.inr ⟨breaks, rfl, Nat.le_succ _⟩
  · cases broker.rc with
    | success => exact Or.inl ⟨rfl, rfl⟩
    | noConn | connLost => exact Or.inr ⟨pauses, rfl, Nat.le_refl _⟩
    | other => exact Or.inr ⟨breaks, rfl, Nat.le_refl _⟩
  · exact Or.inr ⟨pauses, rfl, Nat.le_succ _⟩

/-- The counters of the client go with those of the loop. -/
structure Tally (state : LoopState MqttStats) : Prop where
  published : state.conn.published = state.sent
  errors : state.conn.errors ≤ state.errors

theorem turn_tally
    (topic : Option Bytes) (qos : ℤ) (settings : Settings)
    (startMs : UInt64) (state : LoopState MqttStats) (tick : Tick Broker)
    (tally : Tally state) :
    Tally (turn (mqtt topic qos) settings startMs state tick).state := by
  rcases turn_cases (mqtt topic qos) settings startMs state tick
    with idle | ⟨packet, sensor, conn, answer, -, -, -, -, reads, sending⟩
  · rw [idle]
    exact tally
  · rw [reads]
    rcases sending with ⟨-, rfl, rfl⟩ | ⟨text, -, sent⟩
    · exact ⟨tally.published, tally.errors.trans (Nat.le_succ _)⟩
    · rcases mqttPublish_cases topic qos tick.env state.conn
        with ⟨isSent, counted⟩ | ⟨notSent, published, errors⟩
      · obtain rfl : answer = .sent :=
          (congrArg Prod.fst sent).symm.trans isSent
        obtain rfl : conn = _ := (congrArg Prod.snd sent).symm.trans counted
        exact ⟨congrArg Nat.succ tally.published, tally.errors⟩
      · obtain rfl :
            answer =
              answerOf (mqttPublish topic qos tick.env state.conn).1 :=
          (congrArg Prod.fst sent).symm
        obtain rfl :
            conn = (mqttPublish topic qos tick.env state.conn).2 :=
          (congrArg Prod.snd sent).symm
        have counted := errors.trans (Nat.succ_le_succ tally.errors)
        cases answered :
            answerOf (mqttPublish topic qos tick.env state.conn).1 with
        | sent => exact absurd answered notSent
        | continues | pauses | breaks =>
            exact ⟨published.trans tally.published, counted⟩

/--
A run over the broker, however its connection comes and goes.  The client
counts as published what the loop counts as sent, and the process succeeds
exactly if every packet that was read was published; what the library refuses
is among the errors of the loop.
-/
theorem mqtt_loop_accounts
    (topic : Option Bytes) (qos : ℤ) (settings : Settings)
    (startMs : UInt64) (sensor : SensorCtx) (ticks : List (Tick Broker)) :
    let run :=
      loop (mqtt topic qos) settings startMs (.new sensor ⟨0, 0⟩) ticks
    run.state.conn.published = (run.readings.filter (·.sent)).length ∧
      run.state.conn.published + run.state.errors = run.readings.length ∧
      run.state.conn.errors ≤ run.state.errors ∧
      (exitCode run.state = 0 ↔
        run.state.conn.published = run.readings.length) := by
  intro run
  have books :=
    loop_books (mqtt topic qos) settings startMs (.new sensor ⟨0, 0⟩) ticks
  have tally : Tally run.state :=
    loop_invariant
      (fun state tick => turn_tally topic qos settings startMs state tick)
      ⟨rfl, Nat.le_refl 0⟩ ticks
  have counted :
      run.state.conn.published = (run.readings.filter (·.sent)).length := by
    rw [tally.published, books.sent, LoopState.new_sent, Nat.zero_add,
      List.countP_eq_length_filter]
  refine ⟨counted, ?_, tally.errors, ?_⟩
  · rw [tally.published]
    exact books.sent_add_errors
  · rw [exitCode_eq_zero_iff books, counted]
    exact ⟨congrArg List.length,
      fun all => List.filter_sublist.eq_of_length all⟩

end AccelObserver.Client.SendLoop
