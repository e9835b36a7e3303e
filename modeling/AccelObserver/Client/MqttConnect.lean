import AccelObserver.Library.Machine
import Mathlib.Data.Int.Notation
import Mathlib.Tactic.Common

/-!
# Connecting to the broker

`mqtt_connect` starts the thread of libmosquitto and then polls
`connack_received`, which the callback `on_connect` stores on that thread.
The callbacks store the members of the client one at a time, and every store
and every load is a step.  `on_connect` stores `connected` last, after the
store that ends the polling: in between, `mqtt_connect` can return a client
that does not count as connected yet.

The library calls `on_connect` and `on_disconnect` by turns.  The last two
fields of the state record what has happened, and no step depends on them.
-/

namespace AccelObserver.Client.MqttConnect

open AccelObserver.Library

/-- Where the thread of `mqtt_connect` and of the later calls is. -/
inductive Waiter
  | polling
  | loadingRc
  | returnedNull
  | returned
  | disconnecting
  deriving DecidableEq

/-- The next store or load of the thread of libmosquitto. -/
inductive Callback
  | idle
  | storingRc (rc : ℤ)
  | storingReceived (rc : ℤ)
  | storingConnected (rc : ℤ)
  | clearingConnected (rc : ℤ)
  | loadingDisconnecting
  | countingReconnect
  | clearingReceived
  deriving DecidableEq

/-- `struct mqtt_client_t`, and where the two threads are. -/
structure State where
  connected : Bool
  connackRc : ℤ
  connackReceived : Bool
  disconnecting : Bool
  statReconnects : Nat
  waiter : Waiter
  callback : Callback
  linkUp : Bool
  disconnectRan : Bool
  publishRefused : Bool

/-- A step of the thread that uses the client. -/
inductive UserAction
  | polls (timeout : Bool)
  | loadsRc
  | publishes
  | disconnects
  deriving DecidableEq

/-- A step of the thread of libmosquitto. -/
inductive LibraryAction
  | callsOnConnect (rc : ℤ)
  | callsOnDisconnect (rc : ℤ)
  | continues
  deriving DecidableEq

inductive Action
  | user (action : UserAction)
  | library (action : LibraryAction)
  deriving DecidableEq

/--
The wait for the CONNACK in `mqtt_connect`, the check of `mqtt_publish`, and
the first statement of `mqtt_disconnect`.
-/
def userStep (state : State) : UserAction → Waiter → Option State
  | .polls timeout, .polling =>
      if state.connackReceived then some { state with waiter := .loadingRc }
      else if timeout then some { state with waiter := .returnedNull }
      else some state
  | .loadsRc, .loadingRc =>
      if state.connackRc ≠ 0 then some { state with waiter := .returnedNull }
      else some { state with waiter := .returned }
  | .publishes, .returned =>
      some
        { state with
          publishRefused := state.publishRefused || !state.connected }
  | .disconnects, .returned =>
      some { state with disconnecting := true, waiter := .disconnecting }
  | _, _ => none

/-- `on_connect` and `on_disconnect`, store by store. -/
def callbackStep (state : State) : Callback → Option State
  | .idle => none
  | .storingRc rc =>
      some { state with connackRc := rc, callback := .storingReceived rc }
  | .storingReceived rc =>
      some
        { state with
          connackReceived := true
          callback := .storingConnected rc }
  | .storingConnected rc =>
      some { state with connected := decide (rc = 0), callback := .idle }
  | .clearingConnected rc =>
      some
        { state with
          connected := false
          callback := if rc ≠ 0 then .loadingDisconnecting else .idle }
  | .loadingDisconnecting =>
      some
        { state with
          callback := if state.disconnecting then .idle
            else .countingReconnect }
  | .countingReconnect =>
      some
        { state with
          statReconnects := state.statReconnects + 1
          callback := .clearingReceived }
  | .clearingReceived =>
      some { state with connackReceived := false, callback := .idle }

/-- The library calls back while the client exists. -/
def libraryStep (state : State) : LibraryAction → Option State
  | .callsOnConnect rc =>
      if state.callback = .idle ∧ state.linkUp = false then
        some { state with linkUp := true, callback := .storingRc rc }
      else none
  | .callsOnDisconnect rc =>
      if state.callback = .idle ∧ state.linkUp = true then
        some
          { state with
            linkUp := false
            callback := .clearingConnected rc
            disconnectRan := true }
      else none
  | .continues => callbackStep state state.callback

/-- Behind `mosquitto_loop_start`; a null return has stopped the library. -/
def machine : Machine State Action where
  initial :=
    { connected := false
      connackRc := 0
      connackReceived := false
      disconnecting := false
      statReconnects := 0
      waiter := .polling
      callback := .idle
      linkUp := false
      disconnectRan := false
      publishRefused := false }
  step state
    | .user action => userStep state action state.waiter
    | .library action =>
        if state.waiter = .returnedNull then none
        else libraryStep state action

/-- `mqtt_is_connected` of a client that is not null. -/
def mqttIsConnected (state : State) : Bool :=
  state.connected

/-! ## A returned client is connected -/

/--
If `mqtt_connect` has returned a client and `on_disconnect` has not run, the
client is connected, and no `mqtt_publish` has found it otherwise.
-/
def ReturnedConnected (state : State) : Prop :=
  state.waiter = .returned → state.disconnectRan = false →
    mqttIsConnected state = true ∧ state.publishRefused = false

/--
The load that makes `mqtt_connect` return a client does not come between the
last two stores of `on_connect`.
-/
def LoadsRcAfterStores (state : State) (action : Action) : Prop :=
  action = .user .loadsRc → state.disconnectRan = false →
    state.callback ≠ .storingConnected 0

instance (state : State) (action : Action) :
    Decidable (LoadsRcAfterStores state action) :=
  inferInstanceAs (Decidable (_ → _ → _))

/-- How far the first CONNACK has come. -/
inductive Connack (state : State) : Prop
  | awaited
      (callback : state.callback = .idle) (down : state.linkUp = false)
      (unset : state.connackReceived = false)
  | delivered (rc : ℤ)
      (callback : state.callback = .storingRc rc) (up : state.linkUp = true)
      (unset : state.connackReceived = false)
  | rcStored
      (callback : state.callback = .storingReceived state.connackRc)
      (up : state.linkUp = true) (unset : state.connackReceived = false)
  | receivedStored
      (callback : state.callback = .storingConnected state.connackRc)
      (up : state.linkUp = true) (received : state.connackReceived = true)
  | done
      (callback : state.callback = .idle) (up : state.linkUp = true)
      (received : state.connackReceived = true)
      (result : state.connected = decide (state.connackRc = 0))

/-- What the thread that waits relies on. -/
inductive Waiting (state : State) : Prop
  | polling (here : state.waiter = .polling)
  | loadingRc
      (here : state.waiter = .loadingRc)
      (received : state.connackReceived = true)
  | failed (here : state.waiter = .returnedNull)
  | connected
      (here : state.waiter = .returned ∨ state.waiter = .disconnecting)
      (callback : state.callback = .idle) (up : state.linkUp = true)
      (connected : state.connected = true)

/-- What holds in every state before `on_disconnect` runs. -/
structure Invariant (state : State) : Prop where
  connack : Connack state
  waiting : Waiting state
  accepted : state.publishRefused = false

/-- The invariant of runs: nothing is said once `on_disconnect` has run. -/
def BeforeDisconnect (state : State) : Prop :=
  state.disconnectRan = false → Invariant state

/-- A thread that has returned is connected. -/
theorem connected_of_returned
    {state : State} (waiting : Waiting state)
    (returned : state.waiter = .returned) :
    state.callback = .idle ∧ state.linkUp = true ∧
      state.connected = true := by
  cases waiting with
  | polling here => simp [returned] at here
  | loadingRc here _ => simp [returned] at here
  | failed here => simp [returned] at here
  | connected _ idle up connected => exact ⟨idle, up, connected⟩

theorem BeforeDisconnect.returnedConnected
    {state : State} (before : BeforeDisconnect state) :
    ReturnedConnected state := by
  intro returned notRan
  rcases before notRan with ⟨_, waiting, accepted⟩
  exact ⟨(connected_of_returned waiting returned).2.2, accepted⟩

/-- Only `on_disconnect` sets the record of it. -/
theorem userStep_disconnectRan
    {state next : State} {action : UserAction}
    (stepped : userStep state action state.waiter = some next) :
    next.disconnectRan = state.disconnectRan := by
  unfold userStep at stepped
  split at stepped
  case h_1 => split_ifs at stepped <;> cases stepped <;> rfl
  case h_2 => split_ifs at stepped <;> cases stepped <;> rfl
  case h_5 => cases stepped
  all_goals
    cases stepped
    rfl

/-- Steps of the user leave what the callbacks store alone. -/
theorem Connack.of_userStep
    {state next : State} {action : UserAction}
    (connack : Connack state)
    (stepped : userStep state action state.waiter = some next) :
    Connack next := by
  have kept :
      next.callback = state.callback ∧ next.linkUp = state.linkUp ∧
        next.connackReceived = state.connackReceived ∧
        next.connackRc = state.connackRc ∧
        next.connected = state.connected := by
    unfold userStep at stepped
    split at stepped
    case h_1 => split_ifs at stepped <;> cases stepped <;> simp
    case h_2 => split_ifs at stepped <;> cases stepped <;> simp
    case h_5 => cases stepped
    all_goals
      cases stepped
      simp
  rcases kept with ⟨callback, linkUp, received, rc, connected⟩
  cases connack with
  | awaited idle down unset =>
      exact .awaited (callback.trans idle) (linkUp.trans down)
        (received.trans unset)
  | delivered value storing up unset =>
      exact .delivered value (callback.trans storing) (linkUp.trans up)
        (received.trans unset)
  | rcStored storing up unset =>
      exact .rcStored (by rw [callback, rc, storing]) (linkUp.trans up)
        (received.trans unset)
  | receivedStored storing up set =>
      exact .receivedStored (by rw [callback, rc, storing])
        (linkUp.trans up) (received.trans set)
  | done idle up set result =>
      exact .done (callback.trans idle) (linkUp.trans up)
        (received.trans set) (by rw [connected, rc, result])

/-- When the code is loaded, the first CONNACK is done with. -/
theorem done_of_loadsRc
    {state : State} (invariant : Invariant state)
    (loading : state.waiter = .loadingRc)
    (success : state.connackRc = 0)
    (stored : state.callback ≠ .storingConnected 0) :
    state.callback = .idle ∧ state.linkUp = true ∧ state.connected = true := by
  have received : state.connackReceived = true := by
    cases invariant.waiting with
    | polling here => simp [loading] at here
    | loadingRc _ received => exact received
    | failed here => simp [loading] at here
    | connected here => simp [loading] at here
  cases invariant.connack with
  | awaited _ _ unset => simp [unset] at received
  | delivered _ _ _ unset => simp [unset] at received
  | rcStored _ _ unset => simp [unset] at received
  | receivedStored storing => exact absurd (success ▸ storing) stored
  | done idle up _ result => exact ⟨idle, up, by simp [result, success]⟩

/-- A step of the user keeps the invariant. -/
theorem userStep_invariant
    {state next : State} {action : UserAction}
    (invariant : Invariant state)
    (stored : action = .loadsRc → state.callback ≠ .storingConnected 0)
    (stepped : userStep state action state.waiter = some next) :
    Invariant next := by
  have connack := invariant.connack.of_userStep stepped
  unfold userStep at stepped
  split at stepped
  case h_1 polls =>
    split_ifs at stepped with received timeout
    · cases stepped
      exact ⟨connack, .loadingRc rfl received, invariant.accepted⟩
    · cases stepped
      exact ⟨connack, .failed rfl, invariant.accepted⟩
    · cases stepped
      exact invariant
  case h_2 loading =>
    split_ifs at stepped with refused
    · cases stepped
      exact ⟨connack, .failed rfl, invariant.accepted⟩
    · cases stepped
      rw [ne_eq, Decidable.not_not] at refused
      rcases done_of_loadsRc invariant loading refused (stored rfl)
        with ⟨idle, up, connected⟩
      exact ⟨connack, .connected (.inl rfl) idle up connected,
        invariant.accepted⟩
  case h_3 returned =>
    cases stepped
    rcases connected_of_returned invariant.waiting returned with
      ⟨idle, up, connected⟩
    exact ⟨connack, .connected (.inl returned) idle up connected, by
      simp [invariant.accepted, connected]⟩
  case h_4 returned =>
    cases stepped
    rcases connected_of_returned invariant.waiting returned with
      ⟨idle, up, connected⟩
    exact ⟨connack, .connected (.inr rfl) idle up connected,
      invariant.accepted⟩
  case h_5 => cases stepped

/-- What a waiting thread relies on is not undone by `on_connect`. -/
theorem Waiting.of_onConnect
    {state next : State} (waiting : Waiting state)
    (waiter : next.waiter = state.waiter)
    (received :
      state.connackReceived = true → next.connackReceived = true)
    (busy : state.callback = .idle → state.linkUp = false) :
    Waiting next := by
  cases waiting with
  | polling here => exact .polling (waiter.trans here)
  | loadingRc here set => exact .loadingRc (waiter.trans here) (received set)
  | failed here => exact .failed (waiter.trans here)
  | connected _ idle up => simp [busy idle] at up

/-- A store of `on_connect` keeps the invariant. -/
theorem callbackStep_invariant
    {state next : State} (invariant : Invariant state)
    (stepped : callbackStep state state.callback = some next) :
    Invariant next := by
  rcases invariant with ⟨connack, waiting, accepted⟩
  cases connack with
  | awaited idle => simp [idle, callbackStep] at stepped
  | delivered rc storing up unset =>
      rw [storing] at stepped
      cases stepped
      exact
        { connack := .rcStored rfl up unset
          waiting := waiting.of_onConnect rfl id (by simp [storing])
          accepted := accepted }
  | rcStored storing up =>
      rw [storing] at stepped
      cases stepped
      exact
        { connack := .receivedStored rfl up rfl
          waiting := waiting.of_onConnect rfl (fun _ => rfl) (by simp [storing])
          accepted := accepted }
  | receivedStored storing up received =>
      rw [storing] at stepped
      cases stepped
      exact
        { connack := .done rfl up received rfl
          waiting := waiting.of_onConnect rfl id (by simp [storing])
          accepted := accepted }
  | done idle => simp [idle, callbackStep] at stepped

/-- A step of the library keeps the invariant until `on_disconnect` runs. -/
theorem libraryStep_invariant
    {state next : State} {action : LibraryAction}
    (before : BeforeDisconnect state)
    (stepped : libraryStep state action = some next) :
    BeforeDisconnect next := by
  intro notRan
  cases action with
  | callsOnConnect rc =>
      simp only [libraryStep] at stepped
      split_ifs at stepped with enabled
      cases stepped
      rcases before notRan with ⟨connack, waiting, accepted⟩
      have unset : state.connackReceived = false := by
        cases connack with
        | awaited _ _ unset => exact unset
        | delivered _ _ _ unset => exact unset
        | rcStored _ _ unset => exact unset
        | receivedStored _ up => simp [enabled.2] at up
        | done _ up => simp [enabled.2] at up
      exact
        { connack := .delivered rc rfl rfl unset
          waiting := waiting.of_onConnect rfl id fun _ => enabled.2
          accepted := accepted }
  | callsOnDisconnect rc =>
      simp only [libraryStep] at stepped
      split_ifs at stepped
      cases stepped
      cases notRan
  | continues =>
      have kept : state.disconnectRan = false := by
        simp only [libraryStep] at stepped
        unfold callbackStep at stepped
        split at stepped <;> cases stepped <;> exact notRan
      exact callbackStep_invariant (before kept) stepped

theorem step_invariant
    (state : State) (action : Action) (next : State)
    (before : BeforeDisconnect state)
    (stored : LoadsRcAfterStores state action)
    (stepped : machine.step state action = some next) :
    BeforeDisconnect next := by
  cases action with
  | user action =>
      intro notRan
      rw [userStep_disconnectRan stepped] at notRan
      exact userStep_invariant (before notRan)
        (fun loads => stored (congrArg Action.user loads) notRan) stepped
  | library action =>
      simp only [machine] at stepped
      split_ifs at stepped
      exact libraryStep_invariant before stepped

/--
In every run in which `mqtt_connect` does not load a successful return code
between the last two stores of `on_connect`, a returned client is connected in
every state reached.
-/
theorem returned_connected
    {actions : List Action} {state : State}
    (along : machine.Along LoadsRcAfterStores machine.initial actions)
    (ran : machine.run actions = some state) :
    ReturnedConnected state := by
  have initially : BeforeDisconnect machine.initial := fun _ =>
    { connack := .awaited rfl rfl rfl
      waiting := .polling rfl
      accepted := rfl }
  have final : BeforeDisconnect state :=
    machine.runFrom_invariant step_invariant initially along ran
  exact final.returnedConnected

/-- The callback is over when the next poll comes. -/
def patientRun : List Action :=
  [.user (.polls false), .library (.callsOnConnect 0), .library .continues,
    .library .continues, .library .continues, .user (.polls false),
    .user .loadsRc, .user .publishes]

theorem returned_connected_patientRun :
    ReturnedConnected ((machine.run patientRun).get rfl) :=
  returned_connected (by decide) (Option.some_get rfl).symm

/-- The poll comes right behind the store that it waits for. -/
def hastyRun : List Action :=
  [.library (.callsOnConnect 0), .library .continues, .library .continues,
    .user (.polls false), .user .loadsRc, .user .publishes]

/-- A client is returned that is not connected, and its publish fails. -/
theorem hastyRun_not_connected :
    ¬ ∀ actions state,
      machine.run actions = some state → ReturnedConnected state := by
  intro always
  have connected := always hastyRun _ rfl rfl rfl
  exact absurd connected.1 (by decide)

end AccelObserver.Client.MqttConnect
