import AccelObserver.Client.SensorSim
import AccelObserver.Client.WsHandshake
import AccelObserver.Library.Machine

/-!
# The WebSocket client: connections and their masks

`ws_connect` seeds the generator and draws the nonce; every text frame and the
Close frame take one more word for their mask.  A run is any sequence of these
calls, whether they succeed or not, and its words are collected in the order
in which they are drawn.
-/

namespace AccelObserver.Client.WsSession

open AccelObserver.Library
open AccelObserver.Client.WsTransport
open AccelObserver.Client.WsHandshake
open AccelObserver.Client.Generator

/-! ## Connecting -/

/-- The fields of `ws_config_t` that decide what is sent; a null pointer is
`none`. -/
structure WsConfig where
  host : Option Bytes
  port : UInt16
  path : Option Bytes

/-- The members of `ws_error_code_t` that `ws_connect` can report. -/
inductive ConnectError
  | wsErrParam
  | wsErrAlloc
  | wsErrNet
  | wsErrHandshake
  deriving DecidableEq, Repr

/-- What the system answers to `ws_connect`. -/
structure ConnectEnvironment where
  allocated : Bool
  time : ℤ
  pid : ℤ
  connected : Option Socket

/-- How `ws_connect` reports the end of the handshake. -/
def handshakeError : HandshakeCode → Option ConnectError
  | .wsOk => none
  | .wsErrParam => some .wsErrParam
  | .wsErrNet => some .wsErrNet
  | .wsErrHandshake => some .wsErrHandshake

/-- `(cfg->path && cfg->path[0]) ? cfg->path : "/"` -/
def pathOf (cfg : WsConfig) : Bytes :=
  match cfg.path with
  | none => ascii "/"
  | some path => if path = [] then ascii "/" else path

/-- `ws_connect` -/
def wsConnect (cfg : Option WsConfig) (environment : ConnectEnvironment) :
    Except ConnectError WsClient :=
  match cfg with
  | none => .error .wsErrParam
  | some cfg =>
      match cfg.host with
      | none => .error .wsErrParam
      | some host =>
          if ¬ environment.allocated then .error .wsErrAlloc
          else
            let rngState := prngSeed environment.time environment.pid
            match environment.connected with
            | none => .error .wsErrNet
            | some sock =>
                let (code, ws) :=
                  doHandshake sock rngState host cfg.port (pathOf cfg)
                match handshakeError code with
                | some error => .error error
                | none => .ok ws

/-! ## The words that are drawn -/

/-- The words that the bytes of the nonce are cut from. -/
def nonceWords : Nat → UInt32 → List UInt32
  | 0, _ => []
  | count + 1, rngState =>
      prngNext rngState :: nonceWords count (prngNext rngState)

/-- The words that `ws_connect` draws, if it gets to the handshake. -/
def connectWords (cfg : Option WsConfig) (environment : ConnectEnvironment) :
    List UInt32 :=
  if (cfg.bind WsConfig.host).isSome ∧ environment.allocated ∧
      environment.connected.isSome then
    nonceWords 16 (prngSeed environment.time environment.pid)
  else []

/-- `mask32` of the next frame; no frame is sent without a socket. -/
def maskWords (ws : WsClient) : List UInt32 :=
  match ws.sock with
  | none => []
  | some _ => [prngNext ws.rngState]

/-- A call of the program on its connection. -/
inductive Call
  | connect (cfg : Option WsConfig) (environment : ConnectEnvironment)
  | sendText (data : Bytes)
  | close
  | destroy

/-- The connection, if there is one, and every word drawn so far. -/
structure Session where
  client : Option WsClient
  drawn : List UInt32

/-- What a call does; only `ws_connect` can be called without a connection. -/
def Session.step (session : Session) (call : Call) : Option Session :=
  match session.client, call with
  | none, .connect cfg environment =>
      some
        { client := (wsConnect cfg environment).toOption
          drawn := session.drawn ++ connectWords cfg environment }
  | some ws, .sendText data =>
      some
        { client := some (wsSendText ws data).2
          drawn := session.drawn ++ maskWords ws }
  | some ws, .close =>
      some { client := none, drawn := session.drawn ++ maskWords ws }
  | some _, .destroy => some { session with client := none }
  | _, _ => none

/-- The calls of a program that starts without a connection. -/
def sessions : Machine Session Call where
  initial := { client := none, drawn := [] }
  step := Session.step

/-! ## What a call does to the generator -/

/-- The bytes of the nonce are the low bytes of the words. -/
theorem nonceRaw_eq (count : Nat) (rngState : UInt32) :
    nonceRaw count rngState =
      ((nonceWords count rngState).map fun word => (word &&& 0xFF).toUInt8,
        prngNext^[count] rngState) := by
  induction count generalizing rngState with
  | zero => rfl
  | succ count induction => simp [nonceRaw, nonceWords, induction]

/-- The handshake draws the nonce and no more, however it ends. -/
theorem doHandshake_rngState
    (sock : Socket) (rngState : UInt32) (host : Bytes) (port : UInt16)
    (path : Bytes) :
    (doHandshake sock rngState host port path).2.rngState =
      prngNext^[16] rngState := by
  have drawn :
      (nonceRaw 16 rngState).2 = prngNext^[16] rngState := by
    rw [nonceRaw_eq]
  simp only [doHandshake, drawn]
  split
  · rfl
  · split <;> rfl

/-- A connection is made by a handshake that ends well, on a generator that
starts from the seed. -/
theorem exists_handshake_of_wsConnect
    {cfg : Option WsConfig} {environment : ConnectEnvironment} {ws : WsClient}
    (made : wsConnect cfg environment = .ok ws) :
    ∃ sock host port path,
      doHandshake sock (prngSeed environment.time environment.pid) host port
        path = (.wsOk, ws) := by
  rcases cfg with _ | cfg
  · simp [wsConnect] at made
  · rcases named : cfg.host with _ | host
    · simp [wsConnect, named] at made
    · by_cases allocated : environment.allocated = true
      · rcases connected : environment.connected with _ | sock
        · simp [wsConnect, named, allocated, connected] at made
        · refine ⟨sock, host, cfg.port, pathOf cfg, ?_⟩
          rcases run :
              doHandshake sock (prngSeed environment.time environment.pid)
                host cfg.port (pathOf cfg)
            with ⟨code, client⟩
          simp only [wsConnect, named, allocated, connected, run,
            not_true_eq_false, if_false] at made
          cases code with
          | wsOk => rw [Except.ok.inj made]
          | wsErrParam | wsErrNet | wsErrHandshake => cases made
      · simp [wsConnect, named, allocated] at made

/-- A connection that was made has drawn its nonce from the seed. -/
theorem wsConnect_rngState
    {cfg : Option WsConfig} {environment : ConnectEnvironment} {ws : WsClient}
    (made : wsConnect cfg environment = .ok ws) :
    ws.rngState =
      prngNext^[16] (prngSeed environment.time environment.pid) := by
  rcases exists_handshake_of_wsConnect made with ⟨sock, host, port, path, run⟩
  have after :=
    doHandshake_rngState sock (prngSeed environment.time environment.pid)
      host port path
  rwa [run] at after

/-- A text frame takes its mask from the next word, whether or not it gets
out. -/
theorem wsSendText_rngState
    {ws : WsClient} {sock : Socket} (connected : ws.sock = some sock)
    (data : Bytes) :
    (wsSendText ws data).2.rngState = prngNext ws.rngState := by
  simp only [wsSendText, connected]
  split
  · rfl
  · split <;> rfl

/-! ## No word is zero -/

/-- Neither the state nor any word drawn so far is zero. -/
structure NeverZero (session : Session) : Prop where
  state : ∀ ws, session.client = some ws → ws.rngState ≠ 0
  words : ∀ word ∈ session.drawn, word ≠ 0

theorem nonceWords_ne_zero
    {rngState : UInt32} (nonzero : rngState ≠ 0) (count : Nat) :
    ∀ word ∈ nonceWords count rngState, word ≠ 0 := by
  induction count generalizing rngState with
  | zero => exact fun _ member => absurd member List.not_mem_nil
  | succ count induction =>
      have next : prngNext rngState ≠ 0 :=
        prngNext_eq_zero_iff.not.mpr nonzero
      exact List.forall_mem_cons.mpr ⟨next, induction next⟩

theorem connectWords_ne_zero
    (cfg : Option WsConfig) (environment : ConnectEnvironment) :
    ∀ word ∈ connectWords cfg environment, word ≠ 0 := by
  unfold connectWords
  split
  · exact nonceWords_ne_zero (prngSeed_ne_zero _ _) 16
  · exact fun _ member => absurd member List.not_mem_nil

theorem maskWords_ne_zero {ws : WsClient} (nonzero : ws.rngState ≠ 0) :
    ∀ word ∈ maskWords ws, word ≠ 0 := by
  unfold maskWords
  split
  · exact fun _ member => absurd member List.not_mem_nil
  · exact List.forall_mem_singleton.mpr
      (prngNext_eq_zero_iff.not.mpr nonzero)

theorem wsSendText_ne_zero
    {ws : WsClient} (nonzero : ws.rngState ≠ 0) (data : Bytes) :
    (wsSendText ws data).2.rngState ≠ 0 := by
  rcases connected : ws.sock with _ | sock
  · simpa [wsSendText, connected] using nonzero
  · rw [wsSendText_rngState connected]
    exact prngNext_eq_zero_iff.not.mpr nonzero

/-- A call keeps the state and the words away from zero. -/
theorem neverZero_step
    {session next : Session} {call : Call} (holds : NeverZero session)
    (stepped : session.step call = some next) : NeverZero next := by
  have collected {words : List UInt32} (fresh : ∀ word ∈ words, word ≠ 0) :
      ∀ word ∈ session.drawn ++ words, word ≠ 0 :=
    List.forall_mem_append.mpr ⟨holds.words, fresh⟩
  rcases client : session.client with _ | ws
  · cases call with
    | connect cfg environment =>
        simp only [Session.step, client, Option.some.injEq] at stepped
        subst stepped
        refine ⟨fun ws same => ?_,
          collected (connectWords_ne_zero cfg environment)⟩
        rcases made : wsConnect cfg environment with error | made'
        · simp [made, Except.toOption] at same
        · simp only [made, Except.toOption, Option.some.injEq] at same
          rw [← same, wsConnect_rngState made]
          exact iterate_prngNext_ne_zero (prngSeed_ne_zero _ _) 16
    | sendText | close | destroy => simp [Session.step, client] at stepped
  · have nonzero := holds.state ws client
    cases call with
    | connect => simp [Session.step, client] at stepped
    | sendText data =>
        simp only [Session.step, client, Option.some.injEq] at stepped
        subst stepped
        refine ⟨fun ws' same => ?_, collected (maskWords_ne_zero nonzero)⟩
        rw [← Option.some.inj same]
        exact wsSendText_ne_zero nonzero data
    | close =>
        simp only [Session.step, client, Option.some.injEq] at stepped
        subst stepped
        exact ⟨by simp, collected (maskWords_ne_zero nonzero)⟩
    | destroy =>
        simp only [Session.step, client, Option.some.injEq] at stepped
        subst stepped
        exact ⟨by simp, holds.words⟩

/-- In no run is the state or a word zero. -/
theorem neverZero_of_run
    {calls : List Call} {session : Session}
    (ran : sessions.run calls = some session) : NeverZero session :=
  sessions.run_invariant
    ⟨by simp [sessions], by simp [sessions]⟩
    (fun _ _ _ holds stepped => neverZero_step holds stepped) ran

/-- Every text frame that a run sends is masked with some byte. -/
theorem sent_masked
    {calls : List Call} {session : Session}
    (ran : sessions.run calls = some session) {ws : WsClient}
    (client : session.client = some ws) {sock : Socket}
    (connected : ws.sock = some sock) (complete : sock.SendsComplete)
    {data : Bytes} (small : data.length < 2 ^ 63) :
    ∃ mask, (∃ place, mask place ≠ 0) ∧
      (wsSendText ws data).2.sock.map Channel.Sock.outgoing =
        some (sock.outgoing ++ (textFrame mask data small).encode) := by
  have nonzero := (neverZero_of_run ran).state ws client
  refine ⟨maskOf (prngNext ws.rngState), ?_, ?_⟩
  · rw [← not_forall_not]
    intro zeros
    exact nonzero (prngNext_eq_zero_iff.mp
      (maskOf_eq_zero_iff.mp fun place => not_not.mp (zeros place)))
  · rcases wsSendText_eq connected complete small with ⟨_, sent⟩
    rw [sent, Option.map_some]

/--
Neither generator of the client degenerates: the seed is not zero, the step is
a bijection that keeps zero apart, and so no state and no word of a run is
zero, whatever is called in it.
-/
theorem generators_never_zero :
    (∀ time pid, prngSeed time pid ≠ 0) ∧
      Function.Bijective prngNext ∧
      (∀ state, prngNext state = 0 ↔ state = 0) ∧
      (∀ calls session, sessions.run calls = some session →
        NeverZero session ∧
          ∀ word ∈ session.drawn, ∃ place, maskOf word place ≠ 0) ∧
      (∀ time pid count,
        SensorSim.prngNext^[count] (SensorSim.sensorSeed time pid) ≠ 0) ∧
      ∀ arithmetic cfg time pid timestamps,
        (SensorSim.sensorReads arithmetic timestamps
          (SensorSim.sensorInit cfg time pid)).rngState ≠ 0 := by
  refine ⟨prngSeed_ne_zero, prngNext_bijective,
    fun _ => prngNext_eq_zero_iff, fun calls session ran => ?_,
    SensorSim.iterate_sensorSeed_ne_zero,
    fun arithmetic cfg time pid timestamps => ?_⟩
  · have holds := neverZero_of_run ran
    refine ⟨holds, fun word member => ?_⟩
    have nonzero := holds.words word member
    rwa [Ne, ← maskOf_eq_zero_iff, not_forall] at nonzero
  · rw [SensorSim.sensorReads_rngState]
    exact SensorSim.iterate_sensorSeed_ne_zero time pid _

/-- A server that accepts the nonce of the connection made at time zero. -/
def acceptingServer : Socket :=
  Channel.Sock.receiving
    (ascii "HTTP/1.1 101 Switching Protocols\r\n" ++
      ascii "Upgrade: websocket\r\nConnection: Upgrade\r\n" ++
      ascii "Sec-WebSocket-Accept: 3IILDcG2Lq5gE0ebfoxx/XPNi54=\r\n\r\n")
    ⟨fun _ => 65536, fun _ => by decide⟩

/-- A refused connection, then one that is made, two frames and the close. -/
def sampleCalls : List Call :=
  [.connect (some { host := some (ascii "h"), port := 80, path := none })
      { allocated := true, time := 0, pid := 1, connected := none },
    .connect (some { host := some (ascii "h"), port := 80, path := none })
      { allocated := true, time := 0, pid := 1,
        connected := some acceptingServer },
    .sendText (ascii "a"), .sendText [], .close]

theorem generators_never_zero_sample :
    ∃ session, sessions.run sampleCalls = some session ∧
      session.drawn.length = 19 ∧ NeverZero session := by
  have counted :
      (sessions.run sampleCalls).map (fun session => session.drawn.length) =
        some 19 := by
    decide +kernel
  rcases Option.map_eq_some_iff.mp counted with ⟨session, ran, drawn⟩
  exact ⟨session, ran, drawn,
    (generators_never_zero.2.2.2.1 sampleCalls session ran).1⟩

end AccelObserver.Client.WsSession
