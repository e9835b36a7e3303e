import AccelObserver.Server.WebStream
import Mathlib.Logic.Function.Basic

/-!
# The clients of the web interface

`accept_loop` hands every connection to a thread of its own, which runs
`handle_client`; `ws_broadcast` sends to the registered descriptors and `stop`
shuts the interface down.  A run is any interleaving of these threads.  The
operating system gives a new connection any descriptor number that is not in
use, so the number of a closed connection may come back.

`clients_mutex_` is held over one step, except by `ws_broadcast` while it
removes dead connections, where closing and accepting go on in between.  A
connection is named by the thread that handles it.

`closings`, `sends`, `erasures` and `shutdowns` record the history of the run,
and so do the connections in a `Target`; no step depends on them.
-/

namespace AccelObserver.Server.WebClients

open AccelObserver.Library
open AccelObserver.Server.WebStream (wsEncodeFrame)

/-! ## States -/

/-- Where a thread stands in `handle_client`. -/
inductive HandlerPc
  | unborn
  | reading
  | responding
  | upgrading
  | upgraded
  | looping
  | leaving
  | closing
  | finished
  deriving DecidableEq

/-- A thread of `handle_client` and the descriptor it was started with. -/
structure Handler where
  fd : Nat
  pc : HandlerPc
  sent101 : Bool

inductive AcceptorPc
  | test
  | accepting
  | exited
  deriving DecidableEq

/-- Where the thread that stops the interface stands inside `stop`. -/
inductive StopPc
  | idle
  | closeListener
  | join
  | clear
  | wait
  | returned
  deriving DecidableEq

/-- A descriptor of a broadcast, and the connection that is meant by it: in
the snapshot the one that had the number then, in the dead list the one on
which the send failed. -/
structure Target where
  fd : Nat
  connection : Option Nat
  deriving DecidableEq

/-- Where a thread stands inside `ws_broadcast`. -/
inductive BroadcastPc
  | idle
  | sending (todo : List Target) (left : Nat) (dead : List Target)
  | lock (dead : List Target)
  | erase (dead : List Target)
  | shut (target : Target) (dead : List Target)

/-- A thread that broadcasts, with the size of its frame and its snapshot. -/
structure Broadcaster where
  size : Nat
  snapshot : List Target
  pc : BroadcastPc

/-- One `CLOSE_SOCKET`: the connection that it closed, the thread that called
it, and whether the descriptor was in `client_fds_`. -/
structure Closing where
  connection : Option Nat
  thread : Nat
  listed : Bool
  deriving DecidableEq

/-- Bytes that a broadcast sent: to which connection, by which snapshot, and
whether the connection had been closed. -/
structure Sent where
  connection : Nat
  snapshot : List Target
  closed : Bool

/-- What a broadcast removed or shut down for a failed send. -/
structure Removal where
  connection : Option Nat
  failed : Option Nat

structure State where
  running : Bool
  acceptor : AcceptorPc
  stopper : StopPc
  /-- The descriptor table of the operating system. -/
  owner : Nat → Option Nat
  accepted : Nat
  handlers : Nat → Handler
  clientFds : List Nat
  /-- The broadcaster that holds `clients_mutex_`. -/
  holder : Option Nat
  broadcasters : Nat → Broadcaster
  closings : List Closing
  sends : List Sent
  erasures : List Removal
  shutdowns : List Removal

/-- What `read_request` gives and the Upgrade test makes of it. -/
inductive Request
  | empty
  | plain
  | upgrade

inductive Action
  | acceptTest
  | accept (fd : Nat)
  | acceptFail
  | request (thread : Nat) (request : Request)
  | respond (thread : Nat)
  | upgrade (thread : Nat) (good : Bool)
  | register (thread : Nat)
  | leave (thread : Nat)
  | unregister (thread : Nat)
  | close (thread : Nat)
  | broadcast (caller : Nat) (json : Bytes)
  | send (caller : Nat) (count : Nat)
  | remove (caller : Nat)
  | stop
  | stopper

/-! ## Steps of the acceptor and of `handle_client` -/

/-- Move a thread of `handle_client`. -/
def State.move (state : State) (thread : Nat) (handler : Handler) : State :=
  { state with handlers := Function.update state.handlers thread handler }

/-- `accept` returns a descriptor number that is not in use. -/
def acceptStep (fd : Nat) (state : State) : Option State :=
  match state.acceptor, state.owner fd with
  | .accepting, none =>
      some
        { state with
          acceptor := .test
          owner := Function.update state.owner fd (some state.accepted)
          accepted := state.accepted + 1
          handlers :=
            Function.update state.handlers state.accepted
              { fd := fd, pc := .reading, sent101 := false } }
  | _, _ => none

/-- `read_request`, and which way `handle_client` goes. -/
def requestStep (thread : Nat) (request : Request) (state : State) :
    Option State :=
  let handler := state.handlers thread
  match handler.pc with
  | .reading =>
      match request with
      | .empty => some (state.move thread { handler with pc := .closing })
      | .plain => some (state.move thread { handler with pc := .responding })
      | .upgrade => some (state.move thread { handler with pc := .upgrading })
  | _ => none

/-- `do_http_response` -/
def respondStep (thread : Nat) (state : State) : Option State :=
  let handler := state.handlers thread
  match handler.pc with
  | .responding => some (state.move thread { handler with pc := .closing })
  | _ => none

/-- `do_ws_upgrade`, and the device frame behind it. -/
def upgradeStep (thread : Nat) (good : Bool) (state : State) :
    Option State :=
  let handler := state.handlers thread
  match handler.pc with
  | .upgrading =>
      if good then
        some
          (state.move thread { handler with pc := .upgraded, sent101 := true })
      else
        some (state.move thread { handler with pc := .closing })
  | _ => none

/-- `client_fds_.push_back(fd)` under the mutex. -/
def registerStep (thread : Nat) (state : State) : Option State :=
  let handler := state.handlers thread
  match handler.pc, state.holder with
  | .upgraded, none =>
      some
        { state.move thread { handler with pc := .looping } with
          clientFds := state.clientFds ++ [handler.fd] }
  | _, _ => none

/-- The read loop ends: a Close frame, an error, or `running_` is false. -/
def leaveStep (thread : Nat) (state : State) : Option State :=
  let handler := state.handlers thread
  match handler.pc with
  | .looping => some (state.move thread { handler with pc := .leaving })
  | _ => none

/-- Remove every occurrence of a descriptor. -/
def eraseFd (fd : Nat) (fds : List Nat) : List Nat :=
  fds.filter (· ≠ fd)

/-- The thread erases its descriptor under the mutex. -/
def unregisterStep (thread : Nat) (state : State) : Option State :=
  let handler := state.handlers thread
  match handler.pc, state.holder with
  | .leaving, none =>
      some
        { state.move thread { handler with pc := .closing } with
          clientFds := eraseFd handler.fd state.clientFds }
  | _, _ => none

/-- `CLOSE_SOCKET(fd)` on any of the exit paths. -/
def closeStep (thread : Nat) (state : State) : Option State :=
  let handler := state.handlers thread
  match handler.pc with
  | .closing =>
      some
        { state.move thread { handler with pc := .finished } with
          owner := Function.update state.owner handler.fd none
          closings :=
            state.closings ++
              [{ connection := state.owner handler.fd
                 thread := thread
                 listed := decide (handler.fd ∈ state.clientFds) }] }
  | _ => none

/-! ## Steps of `ws_broadcast` -/

/-- Move a broadcasting thread. -/
def State.moveBroadcaster (state : State) (caller : Nat) (pc : BroadcastPc) :
    State :=
  { state with
    broadcasters :=
      Function.update state.broadcasters caller
        { state.broadcasters caller with pc := pc } }

/-- The frame is encoded and the list copied under the mutex. -/
def broadcastStep (caller : Nat) (json : Bytes) (state : State) :
    Option State :=
  match (state.broadcasters caller).pc, state.holder with
  | .idle, none =>
      let size := (wsEncodeFrame json).length
      let snapshot :=
        state.clientFds.map fun fd =>
          { fd := fd, connection := state.owner fd : Target }
      some
        { state with
          broadcasters :=
            Function.update state.broadcasters caller
              { size := size
                snapshot := snapshot
                pc := .sending snapshot size [] } }
  | _, _ => none

/--
One `send` of `send_raw`, of which `count` bytes go out; with none, or on a
number that is not open, the descriptor is dead.
-/
def sendStep (caller count : Nat) (state : State) : Option State :=
  let broadcaster := state.broadcasters caller
  match broadcaster.pc with
  | .sending [] _ [] => some (state.moveBroadcaster caller .idle)
  | .sending [] _ dead => some (state.moveBroadcaster caller (.lock dead))
  | .sending (target :: todo) left dead =>
      match state.owner target.fd with
      | none =>
          some
            (state.moveBroadcaster caller
              (.sending todo broadcaster.size
                (dead ++ [{ fd := target.fd, connection := none }])))
      | some connection =>
          if count = 0 then
            some
              (state.moveBroadcaster caller
                (.sending todo broadcaster.size
                  (dead ++
                    [{ fd := target.fd, connection := some connection }])))
          else if left < count then
            none
          else
            let pc :=
              if left = count then
                BroadcastPc.sending todo broadcaster.size dead
              else
                BroadcastPc.sending (target :: todo) (left - count) dead
            some
              { state.moveBroadcaster caller pc with
                sends :=
                  state.sends ++
                    [{ connection := connection
                       snapshot := broadcaster.snapshot
                       closed :=
                         decide
                           (some connection ∈
                             state.closings.map Closing.connection) }] }
  | _ => none

/-- One step of the removal of dead descriptors. -/
def removeStep (caller : Nat) (state : State) : Option State :=
  match (state.broadcasters caller).pc with
  | .lock dead =>
      match state.holder with
      | none =>
          some
            { state.moveBroadcaster caller (.erase dead) with
              holder := some caller }
      | some _ => none
  | .erase [] =>
      some { state.moveBroadcaster caller .idle with holder := none }
  | .erase (target :: dead) =>
      some
        { state.moveBroadcaster caller (.shut target dead) with
          clientFds := eraseFd target.fd state.clientFds
          erasures :=
            state.erasures ++
              [{ connection :=
                   if target.fd ∈ state.clientFds then state.owner target.fd
                   else none
                 failed := target.connection }] }
  | .shut target dead =>
      some
        { state.moveBroadcaster caller (.erase dead) with
          shutdowns :=
            state.shutdowns ++
              [{ connection := state.owner target.fd
                 failed := target.connection }] }
  | _ => none

/-! ## Steps of `stop` -/

/-- The exchange at the head of `stop`: only the first caller goes on. -/
def stopStep (state : State) : Option State :=
  if state.running then
    some { state with running := false, stopper := .closeListener }
  else
    some state

/-- One later step of `stop`.  The wait may end with threads still alive. -/
def stopperStep (state : State) : Option State :=
  match state.stopper with
  | .idle => none
  | .closeListener => some { state with stopper := .join }
  | .join =>
      if state.acceptor = .exited then some { state with stopper := .clear }
      else none
  | .clear =>
      match state.holder with
      | none => some { state with stopper := .wait, clientFds := [] }
      | some _ => none
  | .wait => some { state with stopper := .returned }
  | .returned => none

/-! ## The machine -/

def step (state : State) : Action → Option State
  | .acceptTest =>
      match state.acceptor with
      | .test =>
          some
            { state with
              acceptor := if state.running then .accepting else .exited }
      | _ => none
  | .accept fd => acceptStep fd state
  | .acceptFail =>
      match state.acceptor with
      | .accepting => some { state with acceptor := .exited }
      | _ => none
  | .request thread request => requestStep thread request state
  | .respond thread => respondStep thread state
  | .upgrade thread good => upgradeStep thread good state
  | .register thread => registerStep thread state
  | .leave thread => leaveStep thread state
  | .unregister thread => unregisterStep thread state
  | .close thread => closeStep thread state
  | .broadcast caller json => broadcastStep caller json state
  | .send caller count => sendStep caller count state
  | .remove caller => removeStep caller state
  | .stop => stopStep state
  | .stopper => stopperStep state

/-- The interface behind `start`. -/
def machine : Machine State Action :=
  { initial :=
      { running := true
        acceptor := .test
        stopper := .idle
        owner := fun _ => none
        accepted := 0
        handlers := fun _ => { fd := 0, pc := .unborn, sent101 := false }
        clientFds := []
        holder := none
        broadcasters := fun _ => { size := 0, snapshot := [], pc := .idle }
        closings := []
        sends := []
        erasures := []
        shutdowns := [] }
    step := step }

end AccelObserver.Server.WebClients
