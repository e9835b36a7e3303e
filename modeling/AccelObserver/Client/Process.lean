import AccelObserver.Client.ConfValidator
import AccelObserver.Client.SendLoop
import AccelObserver.Client.WsSession
import AccelObserver.Library.Ledger

/-!
# The process of the client

`main` with the calls that it makes, and what they do with the resources of
the process: the network, the sensor, libmosquitto, the client with its handle
and its thread, the addresses of a host and the socket.

What the system and the library answer is an input.  A `send` on a connection
that the peer has closed raises a signal, which ends the process where it
stands: the client ignores none, and libmosquitto raises none.  The lines that
are printed are left out, and with them `print_config`.
-/

namespace AccelObserver.Client.Process

open AccelObserver.Library
open AccelObserver.Library.Ledger
open AccelObserver.Client.ConfArgparse (AppConfig Build)
open AccelObserver.Client.ConfValidator
open AccelObserver.Client.Generator (prngSeed)
open AccelObserver.Client.SendLoop
open AccelObserver.Client.SensorData
open AccelObserver.Client.SensorSim
open AccelObserver.Client.WsSession
open AccelObserver.Client.WsTransport

/-! ## The resources -/

/-- What is set up and torn down. -/
inductive Resource
  | network
  | sensor
  | library
  | client
  | handle
  | thread
  | addresses
  | socket
  deriving DecidableEq

/-- What a resource rests on: the callbacks of a handle get the client, and
the thread works on both. -/
def needs : Resource → List Resource
  | .network | .sensor | .library | .client => []
  | .handle => [.library, .client]
  | .thread => [.library, .client, .handle]
  | .addresses | .socket => [.network]

abbrev Events : Type := List (Ledger.Event Resource)

/-! ## The client of the broker -/

/-- The members of `mqtt_error_code_t` that `mqtt_connect` can report. -/
inductive MqttConnectError
  | mqttErrParam
  | mqttErrAlloc
  | mqttErrAuth
  | mqttErrTls
  | mqttErrConnect
  | mqttErrLib
  | mqttErrTimeout
  | mqttErrConnack
  deriving DecidableEq

/-- The fields of `mqtt_config_t` that decide what is called. -/
structure MqttConfig where
  host : Option Bytes
  port : UInt16
  username : Option Bytes
  tls : Bool
  tlsInsecure : Bool
  willTopic : Option Bytes

/-- A look at `connack_received`, and at the clock behind it. -/
structure ConnackPoll where
  received : Bool
  nowMs : UInt64

/-- What the library answers to `mqtt_connect`; 0 is `MOSQ_ERR_SUCCESS`. -/
structure MqttAnswers where
  allocated : Bool
  created : Bool
  usernamePwSet : ℤ
  tlsSet : ℤ
  tlsOptsSet : ℤ
  tlsInsecureSet : ℤ
  willSet : ℤ
  connect : ℤ
  loopStart : ℤ
  deadlineMs : UInt64
  polls : List ConnackPoll
  connackRc : ℤ

/-- A call on the handle: whether it is made, what it answers, and what a
failure is reported as, if it is not only printed. -/
structure Stage where
  made : Bool
  rc : ℤ
  failure : Option MqttConnectError

/-- One call after the other, up to the first failure that counts. -/
def runStages : List Stage → Events × Option MqttConnectError
  | [] => ([], none)
  | stage :: more =>
      if ¬ stage.made then runStages more
      else if stage.rc ≠ 0 ∧ stage.failure.isSome then
        ([.use .handle], stage.failure)
      else
        let (events, failure) := runStages more
        (.use .handle :: events, failure)

/-- `name && name[0] != '\0'` -/
def given (name : Option Bytes) : Bool :=
  (name.getD []) ≠ []

/-- The calls between `mosquitto_new` and the wait for the CONNACK. -/
def connectStages (cfg : MqttConfig) (answers : MqttAnswers) : List Stage :=
  -- the five callbacks
  List.replicate 5 ⟨true, 0, none⟩ ++
    [⟨given cfg.username, answers.usernamePwSet, some .mqttErrAuth⟩,
      ⟨cfg.tls, answers.tlsSet, some .mqttErrTls⟩,
      ⟨cfg.tls, answers.tlsOptsSet, some .mqttErrTls⟩,
      ⟨cfg.tls && cfg.tlsInsecure, answers.tlsInsecureSet, none⟩,
      ⟨given cfg.willTopic, answers.willSet, none⟩,
      -- reconnect_delay_set
      ⟨true, 0, none⟩,
      ⟨true, answers.connect, some .mqttErrConnect⟩,
      ⟨true, answers.loopStart, some .mqttErrLib⟩]

/-- The wait for the CONNACK; where the polls end, it goes on. -/
def waitConnack (deadlineMs : UInt64) : List ConnackPoll → Option Bool
  | [] => none
  | poll :: more =>
      if poll.received then some true
      else if deadlineMs ≤ poll.nowMs then some false
      else waitConnack deadlineMs more

/-- What a refused connection is reported as. -/
def connackError (rc : ℤ) : MqttConnectError :=
  if rc = 4 ∨ rc = 5 then .mqttErrAuth else .mqttErrConnack

/-- `mqtt_connect`, with a result once the wait is over. -/
def mqttConnect (cfg : MqttConfig) (answers : MqttAnswers) :
    Events × Option (Except MqttConnectError Unit) :=
  if cfg.host = none ∨ cfg.port = 0 then ([], some (.error .mqttErrParam))
  else if ¬ answers.allocated then ([], some (.error .mqttErrAlloc))
  else if ¬ answers.created then
    ([.acquire .client, .release .client], some (.error .mqttErrAlloc))
  else
    let (calls, failure) := runStages (connectStages cfg answers)
    let opened := .acquire .client :: .acquire .handle :: calls
    let failDestroy := [.release .handle, .release .client]
    match failure with
    | some error => (opened ++ failDestroy, some (.error error))
    | none =>
        let started := opened ++ [.acquire .thread]
        match waitConnack answers.deadlineMs answers.polls with
        | none => (started, none)
        | some false =>
            (started ++ .release .thread :: failDestroy,
              some (.error .mqttErrTimeout))
        | some true =>
            if answers.connackRc ≠ 0 then
              (started ++ .release .thread :: failDestroy,
                some (.error (connackError answers.connackRc)))
            else (started, some (.ok ()))

/-- `mqtt_disconnect` -/
def mqttDisconnect : Events :=
  [.use .client, .use .handle, .release .thread, .release .handle,
    .release .client]

/-- The looks at `connected` while the loop waits for the broker. -/
def waitEvents (waitStartMs : UInt64) : List Poll → Events
  | [] => []
  | poll :: more =>
      .use .client ::
        if poll.connected ∨ ¬ poll.running then []
        else if poll.nowMs - waitStartMs > 10000 then []
        else waitEvents waitStartMs more

/-- `mqtt_publish` -/
def publishEvents (topic : Option Bytes) (qos : ℤ) (broker : Broker) :
    Events :=
  if topic = none then []
  else if qos < 0 ∨ 2 < qos then []
  else if ¬ broker.connectedAtPublish then [.use .client]
  else [.use .client, .use .handle, .use .client]

/-- Reading a packet, and sending it where it has a text. -/
def readingEvents (sending : Events) : Option Reading → Events
  | none => []
  | some reading =>
      .use .sensor ::
        if (sensorToJson reading.packet 256).isSome then sending else []

/-- A turn of the loop over the broker. -/
def mqttTurnEvents (topic : Option Bytes) (qos : ℤ) (settings : Settings)
    (startMs : UInt64) (tick : Tick Broker) (turn : Turn MqttStats) :
    Events :=
  if !tick.running || settings.over (tick.nowMs - startMs) then []
  else
    .use .client ::
      ((if tick.env.connected then []
        else waitEvents tick.env.waitStartMs tick.env.polls) ++
      readingEvents (publishEvents topic qos tick.env) turn.reading)

/-- A turn of the loop over the WebSocket. -/
def wsTurnEvents (turn : Turn WsClient) : Events :=
  readingEvents
    (.use .client :: if turn.state.conn.sock.isSome then [.use .socket] else [])
    turn.reading

/-- One turn after the other, and whether a signal ends the process in one of
them: `dies` tells it from the connection before and behind the turn. -/
def loopEvents {Conn Env : Type} (transport : Transport Conn Env)
    (settings : Settings) (startMs : UInt64)
    (turnEvents : Tick Env → Turn Conn → Events) (dies : Conn → Conn → Bool) :
    LoopState Conn → List (Tick Env) → Events × Bool
  | _, [] => ([], false)
  | state, tick :: more =>
      let turn := turn transport settings startMs state tick
      if dies state.conn turn.state.conn then (turnEvents tick turn, true)
      else if turn.leaves then (turnEvents tick turn, false)
      else
        let (events, died) :=
          loopEvents transport settings startMs turnEvents dies turn.state more
        (turnEvents tick turn ++ events, died)

/-! ## The client of the WebSocket -/

/-- What becomes of an address of the host. -/
inductive Attempt
  | noSocket
  | refused
  | connected
  deriving DecidableEq

/-- The loop over the addresses. -/
def tryAddresses : List Attempt → Events × Bool
  | [] => ([], false)
  | .noSocket :: more => tryAddresses more
  | .refused :: more =>
      let (events, connected) := tryAddresses more
      (.acquire .socket :: .release .socket :: events, connected)
  | .connected :: _ => ([.acquire .socket], true)

/-- `net_connect_tcp`; `none` is a host without addresses. -/
def netConnectTcp : Option (List Attempt) → Events × Bool
  | none => ([], false)
  | some attempts =>
      let (events, connected) := tryAddresses attempts
      (.acquire .addresses :: events ++ [.release .addresses], connected)

/-- What the system answers to `ws_connect`; `brokenPipe` says of a `send` that
fails whether it does so because the peer has closed the connection. -/
structure WsAnswers where
  allocated : Bool
  time : ℤ
  pid : ℤ
  attempts : Option (List Attempt)
  sock : Socket
  brokenPipe : Nat → Bool

def WsAnswers.environment (answers : WsAnswers) : ConnectEnvironment where
  allocated := answers.allocated
  time := answers.time
  pid := answers.pid
  connected :=
    if (netConnectTcp answers.attempts).2 then some answers.sock else none

/-- Among the calls of `send` between two states of a socket there is one that
raises SIGPIPE. -/
def raises (brokenPipe : Nat → Bool) (before after : Option Socket) : Bool :=
  match before, after with
  | some before, some after =>
      (List.range' before.sendCalls (after.sendCalls - before.sendCalls)).any
        fun call => before.sendSize call == 0 && brokenPipe call
  | _, _ => false

/-- The socket behind `do_handshake`. -/
def shakenSock (cfg : WsConfig) (host : Bytes) (answers : WsAnswers) :
    Option Socket :=
  (WsHandshake.doHandshake answers.sock (prngSeed answers.time answers.pid)
    host cfg.port (pathOf cfg)).2.sock

/-- The calls of `ws_connect`, with its result unless a signal ends the
process; one use stands for those of `do_handshake`. -/
def wsConnectEvents (cfg : WsConfig) (answers : WsAnswers) :
    Events × Option (Except ConnectError WsClient) :=
  let result := wsConnect (some cfg) answers.environment
  match cfg.host with
  | none => ([], some result)
  | some host =>
      if ¬ answers.allocated then ([], some result)
      else
        let (events, connected) := netConnectTcp answers.attempts
        let opened := .acquire .client :: events
        if ¬ connected then (opened ++ [.release .client], some result)
        else
          let shaken := opened ++ [.use .socket, .use .socket]
          if raises answers.brokenPipe (some answers.sock)
              (shakenSock cfg host answers) then
            (shaken, none)
          else
            match result with
            | .error _ =>
                (shaken ++ [.release .socket, .release .client], some result)
            | .ok _ => (shaken ++ [.use .socket], some result)

/-- `ws_close`, and whether a signal ends the process in it. -/
def wsCloseEvents (brokenPipe : Nat → Bool) (ws : WsClient) : Events × Bool :=
  if ws.sock.isSome then
    if raises brokenPipe ws.sock (wsClose ws) then
      ([.use .client, .use .socket], true)
    else
      ([.use .client, .use .socket, .release .socket, .release .client],
        false)
  else ([.release .client], false)

/-! ## `main` -/

/-- How the process ends, if it does. -/
inductive Ending
  | exits (code : Nat)
  | waits
  | signalled
  deriving DecidableEq

/-- What the system and the libraries answer to `main`. -/
structure Answers where
  netInit : Bool
  sensorAllocated : Bool
  time : ℤ
  pid : ℤ
  arithmetic : Arithmetic
  conversions : Conversions
  startMs : UInt64
  mqtt : MqttAnswers
  brokerTicks : List (Tick Broker)
  ws : WsAnswers
  wsTicks : List (Tick Unit)

section Main

variable (build : Build) (literals : Address × Address) (cfg : AppConfig)
  (answers : Answers)

/-- `scfg` -/
def sensorConfig : SensorConfig where
  noiseAmplitude := cfg.noiseAmplitude
  gravityZ := cfg.gravityZ

/-- The fields of `mcfg` that decide what is called; there is no TLS. -/
def mqttConfig : MqttConfig where
  host := some cfg.host
  port := cfg.port
  username := cfg.username
  tls := false
  tlsInsecure := false
  willTopic := cfg.willTopic

/-- `wcfg`; no option sets the path. -/
def wsConfig : WsConfig where
  host := some cfg.host
  port := cfg.port
  path := none

def loopSettings : Settings where
  arithmetic := answers.arithmetic
  conversions := answers.conversions
  rateHz := cfg.rateHz
  durationSec := cfg.durationSec

/-- `sensor` -/
def sensorCtx : SensorCtx :=
  sensorInit (some (sensorConfig cfg)) answers.time answers.pid

/-- The branch of the broker, behind `sensor_init`. -/
def mqttMain : Events × Ending :=
  let (connecting, result) := mqttConnect (mqttConfig cfg) answers.mqtt
  match result with
  | none => (.acquire .library :: connecting, .waits)
  | some (.error _) =>
      (.acquire .library :: connecting ++
          [.release .sensor, .release .library, .release .network],
        .exits 1)
  | some (.ok ()) =>
      let state := LoopState.new (sensorCtx cfg answers) ⟨0, 0⟩
      let transport := mqtt (some cfg.topic) cfg.qos
      let settings := loopSettings cfg answers
      let run :=
        loop transport settings answers.startMs state answers.brokerTicks
      let (sending, _) :=
        loopEvents transport settings answers.startMs
          (mqttTurnEvents (some cfg.topic) cfg.qos settings answers.startMs)
          (fun _ _ => false) state answers.brokerTicks
      (.acquire .library :: connecting ++ sending ++
          -- mqtt_get_stats
          .use .client :: mqttDisconnect ++
          [.release .sensor, .release .library, .release .network],
        .exits (exitCode run.state))

/-- The branch of the WebSocket, behind `sensor_init`. -/
def wsMain : Events × Ending :=
  let brokenPipe := answers.ws.brokenPipe
  let (connecting, result) := wsConnectEvents (wsConfig cfg) answers.ws
  match result with
  | none => (connecting, .signalled)
  | some (.error _) =>
      (connecting ++ [.release .sensor, .release .network], .exits 1)
  | some (.ok client) =>
      let state := LoopState.new (sensorCtx cfg answers) client
      let settings := loopSettings cfg answers
      let run := loop ws settings answers.startMs state answers.wsTicks
      let (sending, died) :=
        loopEvents ws settings answers.startMs (fun _ => wsTurnEvents)
          (fun before after => raises brokenPipe before.sock after.sock)
          state answers.wsTicks
      if died then (connecting ++ sending, .signalled)
      else
        let (closing, died) := wsCloseEvents brokenPipe run.state.conn
        if died then (connecting ++ sending ++ closing, .signalled)
        else
          (connecting ++ sending ++ closing ++
              [.release .sensor, .release .network],
            .exits (exitCode run.state))

/-- `main`, with the configuration that `parse_args` returns: what it does,
and how it ends. -/
def main : Events × Ending :=
  if ¬ validateConfig literals.1 literals.2 cfg then ([], .exits 1)
  else if ¬ answers.netInit then ([], .exits 1)
  else if ¬ answers.sensorAllocated then
    (.acquire .network ::
        (if build.haveMqtt then [.release .library] else []) ++
        [.release .network],
      .exits 1)
  else
    let opened := [.acquire .network, .acquire .sensor]
    match transportLoop build cfg.protocol with
    | none => (opened, .exits 0)
    | some .mqtt =>
        let (events, ending) := mqttMain cfg answers
        (opened ++ events, ending)
    | some .ws =>
        let (events, ending) := wsMain cfg answers
        (opened ++ events, ending)

end Main

/-! ## Settling -/

/-- The calls on a handle leave it as it is. -/
theorem settle_runStages
    (live : List Resource) (held : .handle ∈ live) (stages : List Stage) :
    settle needs live (runStages stages).1 = some live := by
  apply settle_of_uses
  induction stages with
  | nil => simp [runStages]
  | cons stage more induction =>
      rw [runStages]
      by_cases made : stage.made = true
      · rw [if_neg (not_not.mpr made)]
        split_ifs
        · exact List.forall_mem_singleton.mpr ⟨_, held, rfl⟩
        · exact List.forall_mem_cons.mpr ⟨⟨_, held, rfl⟩, induction⟩
      · rw [if_pos made]
        exact induction

/-- Behind the calls of `mqtt_connect`, the rest goes on with the handle. -/
theorem settle_opened
    {calls : Events}
    (settled :
      settle needs [.handle, .client, .library, .sensor, .network] calls =
        some [.handle, .client, .library, .sensor, .network])
    (rest : Events) :
    settle needs [.library, .sensor, .network]
        (.acquire .client :: .acquire .handle :: calls ++ rest) =
      settle needs [.handle, .client, .library, .sensor, .network] rest := by
  rw [← settle_append_of_some settled rest]
  rfl

/-- What is held when `mqtt_connect` returns, or still waits. -/
def heldByMqtt : Option (Except MqttConnectError Unit) → List Resource
  | some (.error _) => [.library, .sensor, .network]
  | _ => [.thread, .handle, .client, .library, .sensor, .network]

theorem settle_mqttConnect (cfg : MqttConfig) (answers : MqttAnswers) :
    settle needs [.library, .sensor, .network] (mqttConnect cfg answers).1 =
      some (heldByMqtt (mqttConnect cfg answers).2) := by
  have settled :=
    settle_runStages [.handle, .client, .library, .sensor, .network]
      List.mem_cons_self (connectStages cfg answers)
  have opened := settle_opened settled
  rw [mqttConnect]
  by_cases bad : cfg.host = none ∨ cfg.port = 0
  · rw [if_pos bad]
    rfl
  rw [if_neg bad]
  by_cases allocated : answers.allocated = true
  swap
  · rw [if_pos allocated]
    rfl
  rw [if_neg (not_not.mpr allocated)]
  by_cases created : answers.created = true
  swap
  · rw [if_pos created]
    rfl
  rw [if_neg (not_not.mpr created)]
  rcases called : runStages (connectStages cfg answers)
    with ⟨calls, failure⟩
  rw [called] at opened
  cases failure with
  | some error => exact opened _
  | none =>
      dsimp only
      cases waitConnack answers.deadlineMs answers.polls with
      | none => exact opened _
      | some received =>
          cases received with
          | false =>
              dsimp only
              rw [List.append_assoc]
              exact opened _
          | true =>
              dsimp only
              by_cases refused : answers.connackRc ≠ 0
              · rw [if_pos refused, List.append_assoc]
                exact opened _
              · rw [if_neg refused]
                exact opened _

/-- Turns that only use what is held leave it as it is. -/
theorem settle_loopEvents
    {Conn Env : Type} (transport : Transport Conn Env) (settings : Settings)
    (startMs : UInt64) {turnEvents : Tick Env → Turn Conn → Events}
    (dies : Conn → Conn → Bool) {live : List Resource}
    (uses :
      ∀ tick turn, ∀ event ∈ turnEvents tick turn,
        ∃ resource ∈ live, event = .use resource)
    (state : LoopState Conn) (ticks : List (Tick Env)) :
    settle needs live
        (loopEvents transport settings startMs turnEvents dies state
          ticks).1 =
      some live := by
  apply settle_of_uses
  induction ticks generalizing state with
  | nil => simp [loopEvents]
  | cons tick more induction =>
      rw [loopEvents]
      dsimp only
      split_ifs
      · exact uses tick _
      · exact uses tick _
      · exact List.forall_mem_append.mpr ⟨uses tick _, induction _⟩

theorem uses_of_waitEvents (waitStartMs : UInt64) (polls : List Poll) :
    ∀ event ∈ waitEvents waitStartMs polls, event = .use .client := by
  induction polls with
  | nil => simp [waitEvents]
  | cons poll more induction =>
      rw [waitEvents]
      refine List.forall_mem_cons.mpr ⟨rfl, ?_⟩
      split_ifs
      · simp
      · simp
      · exact induction

theorem uses_of_publishEvents
    (topic : Option Bytes) (qos : ℤ) (broker : Broker) :
    ∀ event ∈ publishEvents topic qos broker,
      event = .use .client ∨ event = .use .handle := by
  rw [publishEvents]
  split_ifs <;> simp

/-- A turn over the broker uses the sensor, the client and its handle. -/
theorem uses_of_mqttTurnEvents
    (topic : Option Bytes) (qos : ℤ) (settings : Settings) (startMs : UInt64)
    (tick : Tick Broker) (turn : Turn MqttStats) :
    ∀ event ∈ mqttTurnEvents topic qos settings startMs tick turn,
      ∃ resource ∈
          [Resource.thread, .handle, .client, .library, .sensor, .network],
        event = .use resource := by
  have reading :
      ∀ event ∈ readingEvents (publishEvents topic qos tick.env)
          turn.reading,
        event = .use .sensor ∨ event = .use .client ∨
          event = .use .handle := by
    cases turn.reading with
    | none => simp [readingEvents]
    | some reading =>
        rw [readingEvents]
        refine List.forall_mem_cons.mpr ⟨Or.inl rfl, ?_⟩
        split_ifs
        · exact fun event member =>
            Or.inr (uses_of_publishEvents topic qos tick.env event member)
        · simp
  have waiting :
      ∀ event ∈ (if tick.env.connected then []
          else waitEvents tick.env.waitStartMs tick.env.polls),
        event = .use .client := by
    split_ifs
    · simp
    · exact uses_of_waitEvents _ _
  rw [mqttTurnEvents]
  by_cases ended :
      (!tick.running || settings.over (tick.nowMs - startMs)) = true
  · rw [if_pos ended]
    simp
  · rw [if_neg ended]
    refine List.forall_mem_cons.mpr ⟨⟨.client, by simp, rfl⟩, ?_⟩
    refine List.forall_mem_append.mpr
      ⟨fun event member => ⟨.client, by simp, waiting event member⟩,
        fun event member => ?_⟩
    rcases reading event member with isUse | isUse | isUse
    · exact ⟨.sensor, by simp, isUse⟩
    · exact ⟨.client, by simp, isUse⟩
    · exact ⟨.handle, by simp, isUse⟩

/-! ## The socket -/

/-- Every socket that is not connected is closed again. -/
theorem settle_tryAddresses (attempts : List Attempt) :
    settle needs [.addresses, .client, .sensor, .network]
        (tryAddresses attempts).1 =
      some
        (if (tryAddresses attempts).2 then
          [.socket, .addresses, .client, .sensor, .network]
        else [.addresses, .client, .sensor, .network]) := by
  induction attempts with
  | nil => rfl
  | cons attempt more induction =>
      cases attempt with
      | noSocket => exact induction
      | refused => exact induction
      | connected => rfl

theorem settle_netConnectTcp (attempts : Option (List Attempt)) :
    settle needs [.client, .sensor, .network] (netConnectTcp attempts).1 =
      some
        (if (netConnectTcp attempts).2 then
          [.socket, .client, .sensor, .network]
        else [.client, .sensor, .network]) := by
  cases attempts with
  | none => rfl
  | some attempts =>
      have tried := settle_tryAddresses attempts
      rw [netConnectTcp]
      rcases called : tryAddresses attempts with ⟨events, connected⟩
      rw [called] at tried
      have opened (rest : Events) :=
        settle_append_of_some tried rest
      cases connected with
      | true => exact opened [.release .addresses]
      | false => exact opened [.release .addresses]

/-- What is held when `ws_connect` returns, or a signal ends the process. -/
def heldByWs : Option (Except ConnectError WsClient) → List Resource
  | some (.error _) => [.sensor, .network]
  | _ => [.socket, .client, .sensor, .network]

theorem settle_wsConnectEvents (cfg : WsConfig) (answers : WsAnswers) :
    settle needs [.sensor, .network] (wsConnectEvents cfg answers).1 =
      some (heldByWs (wsConnectEvents cfg answers).2) := by
  have tried := settle_netConnectTcp answers.attempts
  have opened (rest : Events) :
      settle needs [.sensor, .network]
          (.acquire .client :: (netConnectTcp answers.attempts).1 ++ rest) =
        (settle needs [.client, .sensor, .network]
          (netConnectTcp answers.attempts).1).bind (settle needs · rest) :=
    settle_append _ _ _
  rw [wsConnectEvents]
  cases isHost : cfg.host with
  | none =>
      simp only [wsConnect, isHost]
      rfl
  | some host =>
      by_cases allocated : answers.allocated = true
      swap
      · have none :
            wsConnect (some cfg) answers.environment = .error .wsErrAlloc := by
          simp only [wsConnect, isHost, WsAnswers.environment]
          exact if_pos allocated
        simp only [allocated, none]
        rfl
      rw [tried] at opened
      rcases called : netConnectTcp answers.attempts with ⟨events, connected⟩
      rw [called] at opened
      dsimp only
      rw [if_neg (not_not.mpr allocated)]
      cases connected with
      | false =>
          have unconnected :
              wsConnect (some cfg) answers.environment =
                .error .wsErrNet := by
            simp only [wsConnect, isHost, WsAnswers.environment, called,
              allocated]
            rfl
          rw [unconnected]
          exact opened [.release .client]
      | true =>
          rw [if_neg (by simp)]
          split_ifs with raised
          · exact opened _
          · cases wsConnect (some cfg) answers.environment with
            | error error =>
                dsimp only
                rw [List.append_assoc]
                exact opened _
            | ok client =>
                dsimp only
                rw [List.append_assoc]
                exact opened _

/-- What `ws_connect` returns, if it does. -/
theorem wsConnect_of_events
    {cfg : WsConfig} {answers : WsAnswers}
    {result : Except ConnectError WsClient}
    (returns : (wsConnectEvents cfg answers).2 = some result) :
    wsConnect (some cfg) answers.environment = result := by
  rw [wsConnectEvents] at returns
  cases connects : wsConnect (some cfg) answers.environment with
  | error error =>
      rw [connects] at returns
      dsimp only at returns
      split at returns
      · exact Option.some.inj returns
      · split_ifs at returns <;> exact Option.some.inj returns
  | ok client =>
      rw [connects] at returns
      dsimp only at returns
      split at returns
      · exact Option.some.inj returns
      · split_ifs at returns <;> exact Option.some.inj returns

theorem isSome_doHandshake
    (sock : Socket) (rngState : UInt32) (host : Bytes) (port : UInt16)
    (path : Bytes) :
    (WsHandshake.doHandshake sock rngState host port path).2.sock.isSome =
      true := by
  rw [WsHandshake.doHandshake]
  dsimp only
  split_ifs
  · rfl
  · rcases netSendExact sock _ with ⟨_ | _, after⟩ <;> rfl

/-- A client that `ws_connect` returns has a socket. -/
theorem isSome_of_wsConnect
    {cfg : WsConfig} {environment : ConnectEnvironment} {client : WsClient}
    (connects : wsConnect (some cfg) environment = .ok client) :
    client.sock.isSome = true := by
  cases isHost : cfg.host with
  | none => simp [wsConnect, isHost] at connects
  | some host =>
      by_cases allocated : environment.allocated = true
      swap
      · simp [wsConnect, isHost, allocated] at connects
      cases connected : environment.connected with
      | none => simp [wsConnect, isHost, allocated, connected] at connects
      | some sock =>
          have shaken :=
            isSome_doHandshake sock
              (prngSeed environment.time environment.pid) host cfg.port
              (pathOf cfg)
          simp only [wsConnect, isHost, allocated, connected, not_true,
            if_false] at connects
          split at connects
          · cases connects
          · obtain rfl := Except.ok.inj connects
            exact shaken

/-- The Close frame ends the process, or the socket and the client are
released. -/
theorem wsCloseEvents_cases
    (brokenPipe : Nat → Bool) {client : WsClient}
    (connected : client.sock.isSome = true) :
    wsCloseEvents brokenPipe client =
        ([.use .client, .use .socket], true) ∨
      wsCloseEvents brokenPipe client =
        ([.use .client, .use .socket, .release .socket, .release .client],
          false) := by
  rw [wsCloseEvents, if_pos connected]
  split_ifs
  · exact Or.inl rfl
  · exact Or.inr rfl

theorem isSome_wsSendText (client : WsClient) (text : Bytes) :
    (wsSendText client text).2.sock.isSome = client.sock.isSome := by
  rcases client with ⟨_ | sock, rngState⟩
  · rfl
  · rw [wsSendText]
    dsimp only
    rcases netSendExact sock _ with ⟨_ | _, after⟩
    · rfl
    · dsimp only
      rcases sendChunks _ text text.length 0 after with ⟨_ | _, last⟩ <;> rfl

/-- A turn keeps the socket. -/
theorem isSome_turn_ws
    (settings : Settings) (startMs : UInt64) (state : LoopState WsClient)
    (tick : Tick Unit) (connected : state.conn.sock.isSome = true) :
    (turn ws settings startMs state tick).state.conn.sock.isSome = true := by
  rcases turn_cases ws settings startMs state tick
    with idle | ⟨packet, sensor, conn, answer, -, -, -, -, reads, sending⟩
  · rw [idle]
    exact connected
  · have kept : conn.sock.isSome = true := by
      rcases sending with ⟨-, -, rfl⟩ | ⟨text, -, sent⟩
      · exact connected
      · have after := isSome_wsSendText state.conn text
        rw [connected] at after
        simp only [ws] at sent
        split at sent <;>
          (rename_i wrote
           rw [wrote] at after
           exact (Prod.mk.inj sent).2 ▸ after)
    rw [reads]
    cases answer <;> exact kept

/-- A turn over the WebSocket uses the sensor, the client and the socket. -/
theorem uses_of_wsTurnEvents (turn : Turn WsClient) :
    ∀ event ∈ wsTurnEvents turn,
      ∃ resource ∈ [Resource.socket, .client, .sensor, .network],
        event = .use resource := by
  rw [wsTurnEvents]
  cases turn.reading with
  | none => simp [readingEvents]
  | some reading =>
      rw [readingEvents]
      refine List.forall_mem_cons.mpr ⟨⟨.sensor, by simp, rfl⟩, ?_⟩
      split_ifs <;> simp

/-! ## The whole process -/

/-- What is held when the process ends so, on its way through a loop. -/
def heldAt : Ending → List Resource
  | .exits _ => []
  | .waits => [.thread, .handle, .client, .library, .sensor, .network]
  | .signalled => [.socket, .client, .sensor, .network]

/-- The branch of the broker gives everything back, or still waits for it. -/
theorem settle_mqttMain (cfg : AppConfig) (answers : Answers) :
    settle needs [.sensor, .network] (mqttMain cfg answers).1 =
      some (heldAt (mqttMain cfg answers).2) := by
  have connecting := settle_mqttConnect (mqttConfig cfg) answers.mqtt
  have opened (events rest : Events) :
      settle needs [.sensor, .network] (.acquire .library :: events ++ rest) =
        (settle needs [.library, .sensor, .network] events).bind
          (settle needs · rest) :=
    settle_append _ _ _
  rw [mqttMain]
  rcases called : mqttConnect (mqttConfig cfg) answers.mqtt
    with ⟨events, result⟩
  rw [called] at connecting
  rcases result with _ | error | _
  · have waits := opened events []
    rw [List.append_nil, connecting] at waits
    exact waits
  · have failed :=
      opened events [.release .sensor, .release .library, .release .network]
    rw [connecting] at failed
    exact failed
  · have sending :=
      settle_loopEvents (mqtt (some cfg.topic) cfg.qos)
        (loopSettings cfg answers) answers.startMs (fun _ _ => false)
        (uses_of_mqttTurnEvents (some cfg.topic) cfg.qos
          (loopSettings cfg answers) answers.startMs)
        (LoopState.new (sensorCtx cfg answers) ⟨0, 0⟩) answers.brokerTicks
    dsimp only
    rw [List.append_assoc, List.append_assoc, opened, connecting, heldByMqtt,
      Option.bind_some, settle_append_of_some sending]
    · rfl
    · exact nofun

/-- The branch of the WebSocket gives everything back unless a signal ends
the process. -/
theorem settle_wsMain (cfg : AppConfig) (answers : Answers) :
    settle needs [.sensor, .network] (wsMain cfg answers).1 =
      some (heldAt (wsMain cfg answers).2) := by
  have connecting := settle_wsConnectEvents (wsConfig cfg) answers.ws
  rw [wsMain]
  rcases called : wsConnectEvents (wsConfig cfg) answers.ws
    with ⟨events, result⟩
  rw [called] at connecting
  dsimp only at connecting ⊢
  rcases result with _ | error | client
  · exact connecting
  · exact settle_append_of_some connecting _
  · have connects :
        wsConnect (some (wsConfig cfg)) answers.ws.environment = .ok client :=
      wsConnect_of_events (congrArg Prod.snd called)
    have sending :=
      settle_loopEvents ws (loopSettings cfg answers) answers.startMs
        (fun before after =>
          raises answers.ws.brokenPipe before.sock after.sock)
        (fun _ => uses_of_wsTurnEvents)
        (LoopState.new (sensorCtx cfg answers) client) answers.wsTicks
    have kept :
        (loop ws (loopSettings cfg answers) answers.startMs
            (.new (sensorCtx cfg answers) client)
            answers.wsTicks).state.conn.sock.isSome = true :=
      loop_invariant
        (fun state tick => isSome_turn_ws _ _ state tick)
        (isSome_of_wsConnect connects) answers.wsTicks
    rcases looped : loopEvents ws (loopSettings cfg answers) answers.startMs
        (fun _ => wsTurnEvents)
        (fun before after =>
          raises answers.ws.brokenPipe before.sock after.sock)
        (LoopState.new (sensorCtx cfg answers) client) answers.wsTicks
      with ⟨sends, died⟩
    rw [looped] at sending
    have behind (rest : Events) :
        settle needs [.sensor, .network] (events ++ sends ++ rest) =
          settle needs [.socket, .client, .sensor, .network] rest := by
      rw [List.append_assoc, settle_append_of_some connecting]
      exact settle_append_of_some sending rest
    simp only [looped]
    cases died with
    | true =>
        rw [if_pos rfl, ← List.append_nil (events ++ sends)]
        exact behind []
    | false =>
        rcases wsCloseEvents_cases answers.ws.brokenPipe kept
          with signalled | closed
        · simp only [signalled, if_true]
          exact behind _
        · simp only [closed]
          rw [if_neg (by decide), if_neg (by decide), List.append_assoc]
          exact behind _

/-- The process can give back all that it has taken. -/
def CanSettle (build : Build) (cfg : AppConfig) (answers : Answers) : Prop :=
  if answers.sensorAllocated then
    (transportLoop build cfg.protocol).isSome = true
  else build.haveMqtt = false

/-- A process that gets its sensor, with a loop for its protocol, holds nothing
any more when it exits. -/
theorem settle_main
    {build : Build} {literals : Address × Address} {cfg : AppConfig}
    {answers : Answers}
    (valid : validateConfig literals.1 literals.2 cfg = true)
    (network : answers.netInit = true)
    (sensor : answers.sensorAllocated = true)
    (isLoop : (transportLoop build cfg.protocol).isSome = true) :
    settle needs [] (main build literals cfg answers).1 =
      some (heldAt (main build literals cfg answers).2) := by
  rw [main, if_neg (not_not.mpr valid), if_neg (not_not.mpr network),
    if_neg (not_not.mpr sensor)]
  have opened (events : Events) :
      settle needs []
          ([.acquire .network, .acquire .sensor] ++ events) =
        settle needs [.sensor, .network] events := rfl
  rcases loops : transportLoop build cfg.protocol with _ | _ | _
  · rw [loops] at isLoop
    cases isLoop
  · exact (opened _).trans (settle_mqttMain cfg answers)
  · exact (opened _).trans (settle_wsMain cfg answers)

/--
Whatever the system and the libraries answer, a process that exits has released
everything exactly once, nothing before what rests on it and nothing used
behind its release: if and only if it stops before the network is set up, or
the build has a loop for the protocol, with a sensor, or no MQTT, without.  A
process that a signal ends still holds the socket and all that is below it,
and has released nothing that it should not have.
-/
theorem main_balanced_iff
    (build : Build) (literals : Address × Address) (cfg : AppConfig)
    (answers : Answers) :
    let process := main build literals cfg answers
    (∀ code, process.2 = .exits code →
        (Balanced needs process.1 ↔
          (validateConfig literals.1 literals.2 cfg = true →
            answers.netInit = true → CanSettle build cfg answers))) ∧
      (process.2 = .signalled →
        settle needs [] process.1 =
          some [.socket, .client, .sensor, .network]) := by
  intro process
  by_cases valid : validateConfig literals.1 literals.2 cfg = true
  swap
  · simp only [process, main, if_pos valid]
    exact ⟨fun _ _ => iff_of_true rfl fun isValid => absurd isValid valid,
      fun signalled => by cases signalled⟩
  by_cases network : answers.netInit = true
  swap
  · simp only [process, main, if_neg (not_not.mpr valid), if_pos network]
    exact ⟨fun _ _ => iff_of_true rfl fun _ isUp => absurd isUp network,
      fun signalled => by cases signalled⟩
  by_cases sensor : answers.sensorAllocated = true
  swap
  · simp only [process, main, if_neg (not_not.mpr valid),
      if_neg (not_not.mpr network), if_pos sensor, CanSettle, if_neg sensor]
    refine ⟨fun _ _ => ?_, fun signalled => by cases signalled⟩
    cases build.haveMqtt with
    | true =>
        exact iff_of_false (by decide) fun all =>
          absurd (all valid network) (by decide)
    | false => exact iff_of_true (by decide) fun _ _ => rfl
  by_cases isLoop : (transportLoop build cfg.protocol).isSome = true
  · have settled := settle_main valid network sensor isLoop
    refine ⟨fun code exits => ?_, fun signalled => ?_⟩
    · rw [exits] at settled
      refine iff_of_true settled fun _ _ => ?_
      rw [CanSettle, if_pos sensor]
      exact isLoop
    · rw [signalled] at settled
      exact settled
  · rw [Option.not_isSome_iff_eq_none] at isLoop
    simp only [process, main, if_neg (not_not.mpr valid),
      if_neg (not_not.mpr network), if_neg (not_not.mpr sensor), isLoop,
      CanSettle, if_pos sensor]
    have kept : ¬ Balanced needs [.acquire .network, .acquire .sensor] := by
      decide
    exact ⟨fun _ _ => iff_of_false kept fun all =>
        absurd (all valid network) (by decide),
      fun signalled => by cases signalled⟩

/-- A broker that accepts the connection at the second look, two packets, and
the end of the loop. -/
def sampleAnswers : Answers where
  netInit := true
  sensorAllocated := true
  time := 0
  pid := 1
  arithmetic := sampleArithmetic
  conversions := sampleSettings.conversions
  startMs := 5000
  mqtt :=
    { allocated := true
      created := true
      usernamePwSet := 0
      tlsSet := 0
      tlsOptsSet := 0
      tlsInsecureSet := 0
      willSet := 0
      connect := 0
      loopStart := 0
      deadlineMs := 15000
      polls := [⟨false, 5000⟩, ⟨true, 5020⟩]
      connackRc := 0 }
  brokerTicks := sampleTicks
  ws :=
    { allocated := true
      time := 0
      pid := 1
      attempts := none
      sock := Channel.Sock.receiving [] Channel.Segmentation.single
      brokenPipe := fun _ => false }
  wsTicks := []

/-- The second address of the host accepts the connection and closes it before
the request is sent. -/
def closedAnswers : Answers :=
  { sampleAnswers with
    ws :=
      { allocated := true
        time := 0
        pid := 1
        attempts := some [.refused, .connected]
        sock :=
          { Channel.Sock.receiving [] Channel.Segmentation.single with
            sendSize := fun _ => 0 }
        brokenPipe := fun _ => true } }

theorem main_balanced_iff_sampleAnswers :
    Balanced needs
        (main ⟨true, true⟩ (⟨1, by decide⟩, ⟨2, by decide⟩)
          { ConfArgparse.defaults with protocol := ascii "mqtt" }
          sampleAnswers).1 ∧
      settle needs []
          (main ⟨true, true⟩ (⟨1, by decide⟩, ⟨2, by decide⟩)
            { ConfArgparse.defaults with protocol := ascii "ws" }
            closedAnswers).1 =
        some [.socket, .client, .sensor, .network] :=
  ⟨((main_balanced_iff ⟨true, true⟩ (⟨1, by decide⟩, ⟨2, by decide⟩)
      { ConfArgparse.defaults with protocol := ascii "mqtt" }
      sampleAnswers).1 0 (by decide +kernel)).mpr fun _ _ => rfl,
    (main_balanced_iff ⟨true, true⟩ (⟨1, by decide⟩, ⟨2, by decide⟩)
      { ConfArgparse.defaults with protocol := ascii "ws" }
      closedAnswers).2 (by decide +kernel)⟩

end AccelObserver.Client.Process
