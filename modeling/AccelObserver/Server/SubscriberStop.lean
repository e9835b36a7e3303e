import AccelObserver.Library.Machine

/-!
# Stopping a subscriber

Both subscribers keep a flag `running_`: `run()` sets it and loops, and
`stop()`, called from the main thread, clears it.  Nothing orders the two
stores.  When `run()` has set the flag first, stopping is final; a `stop()`
that comes before the first statement of `run()` is undone by it.

The calls of libmosquitto change nothing here; its loop returns at any time.
What happened so far is recorded in the last fields of each state, and no
step depends on it.
-/

namespace AccelObserver.Server.SubscriberStop

open AccelObserver.Library

/-- Where the thread that calls `stop()` is. -/
inductive StopCall
  | idle
  | called
  | stored
  | disconnected
  deriving DecidableEq

inductive StopAction
  | calls
  | stores
  | disconnects
  | returns
  deriving DecidableEq

/-! ## The WebSocket subscriber -/

/-- Where the thread that executes `WsSubscriber::run` is. -/
inductive WsRun
  | notStarted
  | testing
  | selecting
  | accepting
  | handshaking
  | testingFrames
  | reading
  | closing
  | finished
  deriving DecidableEq

/-- A step of `run()`, with what the network does. -/
inductive WsRunAction
  | starts
  | tests
  | selects (ready : Bool)
  | accepts (client : Bool)
  | handshakes (ok : Bool)
  | testsFrames
  | reads (ok : Bool)
  | closes
  deriving DecidableEq

inductive WsAction
  | run (action : WsRunAction)
  | stop (action : StopAction)
  deriving DecidableEq

structure WsState where
  running : Bool
  run : WsRun
  stop : StopCall
  iteration : Nat
  acceptedIn : List Nat
  stopStored : Bool
  stoppedIn : Option Nat

/-- `WsSubscriber::run`, statement by statement. -/
def wsRunStep (state : WsState) :
    WsRunAction → WsRun → Option WsState
  | .starts, .notStarted =>
      some { state with running := true, run := .testing }
  | .tests, .testing =>
      if state.running then
        some
          { state with
            run := .selecting
            iteration := state.iteration + 1 }
      else
        some { state with run := .finished }
  | .selects ready, .selecting =>
      some { state with run := if ready then .accepting else .testing }
  | .accepts client, .accepting =>
      if client then
        some
          { state with
            run := .handshaking
            acceptedIn := state.acceptedIn ++ [state.iteration] }
      else
        some { state with run := .testing }
  | .handshakes ok, .handshaking =>
      some { state with run := if ok then .testingFrames else .closing }
  | .testsFrames, .testingFrames =>
      some
        { state with run := if state.running then .reading else .closing }
  | .reads ok, .reading =>
      some { state with run := if ok then .testingFrames else .closing }
  | .closes, .closing => some { state with run := .testing }
  | _, _ => none

/-- `WsSubscriber::stop`; the iteration in which it returns is recorded. -/
def wsStopStep (state : WsState) :
    StopAction → StopCall → Option WsState
  | .calls, .idle => some { state with stop := .called }
  | .stores, .called =>
      some
        { state with running := false, stop := .stored, stopStored := true }
  | .returns, .stored =>
      some
        { state with
          stop := .idle
          stoppedIn := state.stoppedIn.or (some state.iteration) }
  | _, _ => none

def wsMachine : Machine WsState WsAction where
  initial :=
    { running := false
      run := .notStarted
      stop := .idle
      iteration := 0
      acceptedIn := []
      stopStored := false
      stoppedIn := none }
  step state
    | .run action => wsRunStep state action state.run
    | .stop action => wsStopStep state action state.stop

/-- The first statement of `run()` comes before the store of any `stop()`. -/
def WsStartsFirst (state : WsState) (action : WsAction) : Prop :=
  action = .run .starts → state.stopStored = false

instance (state : WsState) (action : WsAction) :
    Decidable (WsStartsFirst state action) :=
  inferInstanceAs (Decidable (_ → _))

/--
Since a `stop()` has returned the flag is false, and no client has been
accepted in a later iteration than the one it returned in.
-/
def WsStopIsFinal (state : WsState) : Prop :=
  ∀ iteration ∈ state.stoppedIn,
    state.running = false ∧ ∀ accepted ∈ state.acceptedIn,
      accepted ≤ iteration

/-- What holds in every state when `run()` starts before any stop. -/
structure WsInvariant (state : WsState) : Prop where
  cleared : state.stopStored = true → state.running = false
  storedBefore : state.stop = .stored → state.stopStored = true
  returned :
    ∀ iteration ∈ state.stoppedIn,
      state.stopStored = true ∧ state.iteration = iteration
  acceptedBefore :
    ∀ accepted ∈ state.acceptedIn, accepted ≤ state.iteration

theorem WsInvariant.final {state : WsState} (invariant : WsInvariant state) :
    WsStopIsFinal state := by
  intro iteration stopped
  rcases invariant.returned iteration stopped with ⟨stored, rfl⟩
  exact ⟨invariant.cleared stored, invariant.acceptedBefore⟩

/-- A statement of `run()` keeps the invariant. -/
theorem wsRunStep_invariant
    {state next : WsState} {action : WsRunAction}
    (invariant : WsInvariant state)
    (first : WsStartsFirst state (.run action))
    (stepped : wsRunStep state action state.run = some next) :
    WsInvariant next := by
  rcases invariant with ⟨cleared, storedBefore, returned, acceptedBefore⟩
  unfold wsRunStep at stepped
  split at stepped
  case h_1 =>
    cases stepped
    have unstopped : state.stopStored = false := first rfl
    exact
      { cleared := fun stored => by simp [unstopped] at stored
        storedBefore := storedBefore
        returned := returned
        acceptedBefore := acceptedBefore }
  case h_2 =>
    split_ifs at stepped with isRunning
    · cases stepped
      have unstopped : state.stopStored ≠ true := fun stored => by
        simp [cleared stored] at isRunning
      exact
        { cleared := cleared
          storedBefore := storedBefore
          returned := fun iteration stopped =>
            absurd (returned iteration stopped).1 unstopped
          acceptedBefore := fun accepted member =>
            Nat.le_succ_of_le (acceptedBefore accepted member) }
    · cases stepped
      exact ⟨cleared, storedBefore, returned, acceptedBefore⟩
  case h_4 =>
    split_ifs at stepped
    · cases stepped
      exact
        { cleared := cleared
          storedBefore := storedBefore
          returned := returned
          acceptedBefore := by
            intro accepted member
            rcases List.mem_append.mp member with earlier | now
            · exact acceptedBefore accepted earlier
            · exact Nat.le_of_eq (List.mem_singleton.mp now) }
    · cases stepped
      exact ⟨cleared, storedBefore, returned, acceptedBefore⟩
  case h_9 => cases stepped
  all_goals
    cases stepped
    exact ⟨cleared, storedBefore, returned, acceptedBefore⟩

/-- A step of `stop()` keeps the invariant. -/
theorem wsStopStep_invariant
    {state next : WsState} {action : StopAction}
    (invariant : WsInvariant state)
    (stepped : wsStopStep state action state.stop = some next) :
    WsInvariant next := by
  rcases invariant with ⟨cleared, storedBefore, returned, acceptedBefore⟩
  unfold wsStopStep at stepped
  split at stepped
  case h_1 =>
    cases stepped
    exact ⟨cleared, nofun, returned, acceptedBefore⟩
  case h_2 =>
    cases stepped
    exact
      { cleared := fun _ => rfl
        storedBefore := fun _ => rfl
        returned := fun iteration stopped =>
          ⟨rfl, (returned iteration stopped).2⟩
        acceptedBefore := acceptedBefore }
  case h_3 stored =>
    cases stepped
    exact
      { cleared := cleared
        storedBefore := nofun
        returned := by
          intro iteration stopped
          refine ⟨storedBefore stored, ?_⟩
          cases earlier : state.stoppedIn with
          | none => simpa [earlier] using stopped
          | some before =>
              simp only [earlier, Option.some_or, Option.mem_def,
                Option.some.injEq] at stopped
              exact stopped ▸ (returned before earlier).2
        acceptedBefore := acceptedBefore }
  case h_4 => cases stepped

theorem wsStep_invariant
    (state : WsState) (action : WsAction) (next : WsState)
    (invariant : WsInvariant state)
    (first : WsStartsFirst state action)
    (stepped : wsMachine.step state action = some next) :
    WsInvariant next := by
  cases action with
  | run action => exact wsRunStep_invariant invariant first stepped
  | stop action => exact wsStopStep_invariant invariant stepped

theorem wsInvariant_initial : WsInvariant wsMachine.initial where
  cleared := nofun
  storedBefore := nofun
  returned := nofun
  acceptedBefore := nofun

/-! ## The MQTT subscriber -/

/-- Where the thread that executes `MqttSubscriber::run` is. -/
inductive MqttRun
  | notStarted
  | looping
  | reporting
  | ending
  | finished
  deriving DecidableEq

/-- A step of `run()`; `loop_forever` returns when it likes. -/
inductive MqttRunAction
  | starts
  | leavesLoop (failed : Bool)
  | reports
  | ends
  deriving DecidableEq

inductive MqttAction
  | run (action : MqttRunAction)
  | stop (action : StopAction)
  deriving DecidableEq

structure MqttState where
  running : Bool
  run : MqttRun
  stop : StopCall
  reported : Bool
  stopStored : Bool
  stopped : Bool

/-- `MqttSubscriber::run`, statement by statement. -/
def mqttRunStep (state : MqttState) :
    MqttRunAction → MqttRun → Option MqttState
  | .starts, .notStarted =>
      some { state with running := true, run := .looping }
  | .leavesLoop failed, .looping =>
      some { state with run := if failed then .reporting else .ending }
  | .reports, .reporting =>
      some { state with run := .ending, reported := state.running }
  | .ends, .ending => some { state with running := false, run := .finished }
  | _, _ => none

/-- `MqttSubscriber::stop` -/
def mqttStopStep (state : MqttState) :
    StopAction → StopCall → Option MqttState
  | .calls, .idle => some { state with stop := .called }
  | .stores, .called =>
      some
        { state with running := false, stop := .stored, stopStored := true }
  | .disconnects, .stored => some { state with stop := .disconnected }
  | .returns, .disconnected =>
      some { state with stop := .idle, stopped := true }
  | _, _ => none

def mqttMachine : Machine MqttState MqttAction where
  initial :=
    { running := false
      run := .notStarted
      stop := .idle
      reported := false
      stopStored := false
      stopped := false }
  step state
    | .run action => mqttRunStep state action state.run
    | .stop action => mqttStopStep state action state.stop

/-- The first statement of `run()` comes before the store of any `stop()`. -/
def MqttStartsFirst (state : MqttState) (action : MqttAction) : Prop :=
  action = .run .starts → state.stopStored = false

instance (state : MqttState) (action : MqttAction) :
    Decidable (MqttStartsFirst state action) :=
  inferInstanceAs (Decidable (_ → _))

/-- Since a `stop()` has returned the flag is false. -/
def MqttStopIsFinal (state : MqttState) : Prop :=
  state.stopped = true → state.running = false

/-- What holds in every state when `run()` starts before any stop. -/
structure MqttInvariant (state : MqttState) : Prop where
  cleared : state.stopStored = true → state.running = false
  storedBefore :
    state.stop = .stored ∨ state.stop = .disconnected ∨
      state.stopped = true → state.stopStored = true

theorem MqttInvariant.final
    {state : MqttState} (invariant : MqttInvariant state) :
    MqttStopIsFinal state := fun stopped =>
  invariant.cleared (invariant.storedBefore (Or.inr (Or.inr stopped)))

theorem mqttRunStep_invariant
    {state next : MqttState} {action : MqttRunAction}
    (invariant : MqttInvariant state)
    (first : MqttStartsFirst state (.run action))
    (stepped : mqttRunStep state action state.run = some next) :
    MqttInvariant next := by
  rcases invariant with ⟨cleared, storedBefore⟩
  unfold mqttRunStep at stepped
  split at stepped
  case h_1 =>
    cases stepped
    have unstopped : state.stopStored = false := first rfl
    exact
      { cleared := fun stored => by simp [unstopped] at stored
        storedBefore := storedBefore }
  case h_4 =>
    cases stepped
    exact ⟨fun _ => rfl, storedBefore⟩
  case h_5 => cases stepped
  all_goals
    cases stepped
    exact ⟨cleared, storedBefore⟩

theorem mqttStopStep_invariant
    {state next : MqttState} {action : StopAction}
    (invariant : MqttInvariant state)
    (stepped : mqttStopStep state action state.stop = some next) :
    MqttInvariant next := by
  rcases invariant with ⟨cleared, storedBefore⟩
  unfold mqttStopStep at stepped
  split at stepped
  case h_1 =>
    cases stepped
    exact ⟨cleared, fun reached =>
      storedBefore (Or.inr (Or.inr (by simpa using reached)))⟩
  case h_2 =>
    cases stepped
    exact ⟨fun _ => rfl, fun _ => rfl⟩
  case h_3 stored =>
    cases stepped
    exact ⟨cleared, fun _ => storedBefore (Or.inl stored)⟩
  case h_4 disconnected =>
    cases stepped
    exact ⟨cleared, fun _ => storedBefore (Or.inr (Or.inl disconnected))⟩
  case h_5 => cases stepped

theorem mqttStep_invariant
    (state : MqttState) (action : MqttAction) (next : MqttState)
    (invariant : MqttInvariant state)
    (first : MqttStartsFirst state action)
    (stepped : mqttMachine.step state action = some next) :
    MqttInvariant next := by
  cases action with
  | run action => exact mqttRunStep_invariant invariant first stepped
  | stop action => exact mqttStopStep_invariant invariant stepped

theorem mqttInvariant_initial : MqttInvariant mqttMachine.initial where
  cleared := nofun
  storedBefore := by simp [mqttMachine]

/-! ## Both subscribers -/

/--
In every run in which `run()` sets the flag before any `stop()` clears it,
stopping is final in every state reached.
-/
theorem stop_is_final
    (wsActions : List WsAction) (mqttActions : List MqttAction) :
    (∀ state,
      wsMachine.Along WsStartsFirst wsMachine.initial wsActions →
        wsMachine.run wsActions = some state → WsStopIsFinal state) ∧
    ∀ state,
      mqttMachine.Along MqttStartsFirst mqttMachine.initial mqttActions →
        mqttMachine.run mqttActions = some state →
          MqttStopIsFinal state := by
  constructor
  · intro state along ran
    exact (wsMachine.runFrom_invariant wsStep_invariant
      wsInvariant_initial along ran).final
  · intro state along ran
    exact (mqttMachine.runFrom_invariant mqttStep_invariant
      mqttInvariant_initial along ran).final

/-- `stop()` is called while a client sends, and the loop is left. -/
def politeWsRun : List WsAction :=
  [.run .starts, .run .tests, .run (.selects true), .run (.accepts true),
    .run (.handshakes true), .run .testsFrames, .stop .calls, .stop .stores,
    .stop .returns, .run (.reads true), .run .testsFrames, .run .closes,
    .run .tests]

def politeMqttRun : List MqttAction :=
  [.run .starts, .stop .calls, .stop .stores, .stop .disconnects,
    .stop .returns, .run (.leavesLoop false), .run .ends]

theorem stop_is_final_polite :
    WsStopIsFinal ((wsMachine.run politeWsRun).get rfl) ∧
      MqttStopIsFinal ((mqttMachine.run politeMqttRun).get rfl) :=
  have final := stop_is_final politeWsRun politeMqttRun
  ⟨final.1 _ (by decide) (Option.some_get rfl).symm,
    final.2 _ (by decide) (Option.some_get rfl).symm⟩

/-- The signal arrives before the new thread has executed anything. -/
def earlyWsStop : List WsAction :=
  [.stop .calls, .stop .stores, .stop .returns, .run .starts, .run .tests,
    .run (.selects true), .run (.accepts true)]

def earlyMqttStop : List MqttAction :=
  [.stop .calls, .stop .stores, .stop .disconnects, .stop .returns,
    .run .starts]

/-- The flag is set again, and a client is accepted. -/
theorem earlyStop_not_final :
    (¬ ∀ actions state,
      wsMachine.run actions = some state → WsStopIsFinal state) ∧
    ¬ ∀ actions state,
      mqttMachine.run actions = some state → MqttStopIsFinal state := by
  constructor
  · intro always
    have final := always earlyWsStop _ rfl 0 rfl
    exact absurd final.1 (by decide)
  · intro always
    have final := always earlyMqttStop _ rfl rfl
    exact absurd final (by decide)

end AccelObserver.Server.SubscriberStop
