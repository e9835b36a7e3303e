import AccelObserver.Server.PacketCallback
import AccelObserver.Server.StorageRuns

/-!
# The server program

`main`, the transport thread and the writer thread, from the first payload to
the last line of the log.  The transport thread runs the callback, whose push
is a step of the storage manager; on a signal `main` stops the subscriber,
joins its thread, stops the storage manager and reads the statistics.

A run is any interleaving of these threads.  Since the join comes before the
stop, no push comes late; so the counters that are logged at the end add up,
and where they leave nothing over they vouch for the file.
-/

namespace AccelObserver.Server.ServerProgram

open AccelObserver.Library
open AccelObserver.Server.PacketCallback
open AccelObserver.Server.StorageManager (Formatter)

/-! ## States -/

/-- Where the transport thread stands. -/
inductive TransportPc
  | idle
  | pushing (pkt : DataPacket)
  | dropping
  | exited

/-- Where `main` stands; what it reads at the end is logged. -/
inductive MainPc
  | running
  | joining
  | stopping
  | finished (snap : StatsSnapshot)

structure State (File : Type) where
  callback : PacketCallback.State
  transport : TransportPc
  main : MainPc
  storage : StorageManager.State DataPacket File
  /-- The payloads that the callback has been given. -/
  arrivals : List Arrival

inductive Action (Outcome : Type)
  | arrival (arrival : Arrival)
  | push
  | countDrop
  | transportExit
  | signal
  | join
  | writer (outcome : Outcome)
  | stopper (outcome : Outcome)
  | finish

/-- How the I/O of a step goes, where it may have any. -/
def Action.outcome? {Outcome : Type} : Action Outcome → Option Outcome
  | .writer outcome => some outcome
  | .stopper outcome => some outcome
  | .arrival _ | .push | .countDrop | .transportExit | .signal | .join
  | .finish => none

variable {File Outcome : Type}

/-! ## Steps -/

/-- Take a step of the storage manager. -/
def storageStep (formatter : Formatter DataPacket File Outcome)
    (action : StorageManager.Action DataPacket Outcome) (state : State File) :
    Option (State File) :=
  (StorageManager.step formatter state.storage action).map fun storage =>
    { state with storage := storage }

/-- The callback, up to its push. -/
def arrivalStep (settings : Settings) (arrival : Arrival)
    (state : State File) : Option (State File) :=
  match state.transport with
  | .idle =>
      let (callback, outcome) := onPayload settings state.callback arrival
      some
        { state with
          callback := callback
          transport := outcome.push.elim .idle .pushing
          arrivals := state.arrivals ++ [arrival] }
  | _ => none

/-- `storage.push`, up to the counting of a drop.  The transport thread is the
only one that pushes. -/
def pushStep (formatter : Formatter DataPacket File Outcome)
    (state : State File) : Option (State File) :=
  match state.transport with
  | .pushing pkt =>
      (storageStep formatter (.push 0 pkt) state).map fun after =>
        { after with
          transport :=
            if 0 ∈ after.storage.rejected then .dropping else .idle }
  | _ => none

/-- The end of a push that found no room. -/
def countDropStep (formatter : Formatter DataPacket File Outcome)
    (state : State File) : Option (State File) :=
  match state.transport with
  | .dropping =>
      (storageStep formatter (.countDrop 0) state).map fun after =>
        { after with transport := .idle }
  | _ => none

/-- `run` of the subscriber returns when the subscriber has been stopped. -/
def transportExitStep (state : State File) : Option (State File) :=
  match state.transport, state.main with
  | .idle, .joining => some { state with transport := .exited }
  | _, _ => none

/-- The loop of `main` ends, and the subscriber is stopped. -/
def signalStep (state : State File) : Option (State File) :=
  match state.main with
  | .running => some { state with main := .joining }
  | _ => none

/-- The transport thread is joined, and `storage.stop()` begins. -/
def joinStep (formatter : Formatter DataPacket File Outcome)
    (state : State File) : Option (State File) :=
  match state.main, state.transport with
  | .joining, .exited =>
      (storageStep formatter .stop state).map fun after =>
        { after with main := .stopping }
  | _, _ => none

/-- `storage.stop()` goes on. -/
def stopperStep (formatter : Formatter DataPacket File Outcome)
    (outcome : Outcome) (state : State File) : Option (State File) :=
  match state.main with
  | .stopping => storageStep formatter (.stopper outcome) state
  | _ => none

/-- `storage.stop()` has returned, and the last line is logged. -/
def finishStep (state : State File) : Option (State File) :=
  match state.main, state.storage.stopper with
  | .stopping, .returned =>
      some { state with main := .finished state.callback.stats.snapshot }
  | _, _ => none

def step (settings : Settings) (formatter : Formatter DataPacket File Outcome)
    (state : State File) : Action Outcome → Option (State File)
  | .arrival arrival => arrivalStep settings arrival state
  | .push => pushStep formatter state
  | .countDrop => countDropStep formatter state
  | .transportExit => transportExitStep state
  | .signal => signalStep state
  | .join => joinStep formatter state
  | .writer outcome => storageStep formatter (.writer outcome) state
  | .stopper outcome => stopperStep formatter outcome state
  | .finish => finishStep state

/-- The program once its threads have started. -/
def start (settings : Settings)
    (formatter : Formatter DataPacket File Outcome) (startMs : UInt64)
    (capacity : Nat) (file : File) (outcome : Outcome) : State File where
  callback := .new settings startMs
  transport := .idle
  main := .running
  storage := StorageManager.start formatter capacity file outcome
  arrivals := []

def machine (settings : Settings)
    (formatter : Formatter DataPacket File Outcome) (startMs : UInt64)
    (capacity : Nat) (file : File) (outcome : Outcome) :
    Machine (State File) (Action Outcome) where
  initial := start settings formatter startMs capacity file outcome
  step := step settings formatter

/-! ## Kinds of steps -/

/-- What a step does: the callback, a step of the storage manager, or a move of
`main` or of the transport thread. -/
inductive StepCase (settings : Settings)
    (formatter : Formatter DataPacket File Outcome) (state : State File) :
    Action Outcome → State File → Prop
  | arrival {arrival : Arrival} (idle : state.transport = .idle) :
      StepCase settings formatter state (.arrival arrival)
        { state with
          callback := (onPayload settings state.callback arrival).1
          transport :=
            (onPayload settings state.callback arrival).2.push.elim .idle
              .pushing
          arrivals := state.arrivals ++ [arrival] }
  | push {pkt : DataPacket} {storage : StorageManager.State DataPacket File}
      (pushing : state.transport = .pushing pkt)
      (stepped :
        StorageManager.step formatter state.storage (.push 0 pkt) =
          some storage) :
      StepCase settings formatter state .push
        { state with
          storage := storage
          transport :=
            if 0 ∈ storage.rejected then .dropping else .idle }
  | countDrop {storage : StorageManager.State DataPacket File}
      (dropping : state.transport = .dropping)
      (stepped :
        StorageManager.step formatter state.storage (.countDrop 0) =
          some storage) :
      StepCase settings formatter state .countDrop
        { state with storage := storage, transport := .idle }
  | transportExit (idle : state.transport = .idle)
      (joining : state.main = .joining) :
      StepCase settings formatter state .transportExit
        { state with transport := .exited }
  | signal (running : state.main = .running) :
      StepCase settings formatter state .signal
        { state with main := .joining }
  | join {storage : StorageManager.State DataPacket File}
      (joining : state.main = .joining) (exited : state.transport = .exited)
      (stepped :
        StorageManager.step formatter state.storage .stop = some storage) :
      StepCase settings formatter state .join
        { state with storage := storage, main := .stopping }
  | writer {outcome : Outcome}
      {storage : StorageManager.State DataPacket File}
      (stepped :
        StorageManager.step formatter state.storage (.writer outcome) =
          some storage) :
      StepCase settings formatter state (.writer outcome)
        { state with storage := storage }
  | stopper {outcome : Outcome}
      {storage : StorageManager.State DataPacket File}
      (stopping : state.main = .stopping)
      (stepped :
        StorageManager.step formatter state.storage (.stopper outcome) =
          some storage) :
      StepCase settings formatter state (.stopper outcome)
        { state with storage := storage }
  | finish (stopping : state.main = .stopping)
      (returned : state.storage.stopper = .returned) :
      StepCase settings formatter state .finish
        { state with main := .finished state.callback.stats.snapshot }

theorem storageStep_eq_some
    {formatter : Formatter DataPacket File Outcome}
    {action : StorageManager.Action DataPacket Outcome}
    {state next : State File}
    (stepped : storageStep formatter action state = some next) :
    ∃ storage,
      StorageManager.step formatter state.storage action = some storage ∧
        next = { state with storage := storage } := by
  rcases Option.map_eq_some_iff.mp stepped with ⟨storage, took, rfl⟩
  exact ⟨storage, took, rfl⟩

/-- Every step is of one of these kinds. -/
theorem step_cases
    {settings : Settings} {formatter : Formatter DataPacket File Outcome}
    {state next : State File} {action : Action Outcome}
    (stepped : step settings formatter state action = some next) :
    StepCase settings formatter state action next := by
  cases action with
  | arrival arrival =>
      simp only [step, arrivalStep] at stepped
      split at stepped
      · next idle =>
          rw [← Option.some.inj stepped]
          exact .arrival idle
      · cases stepped
  | push =>
      simp only [step, pushStep] at stepped
      split at stepped
      · next pkt pushing =>
          rcases Option.map_eq_some_iff.mp stepped with ⟨after, took, rfl⟩
          rcases storageStep_eq_some took with ⟨storage, stored, rfl⟩
          exact .push pushing stored
      · cases stepped
  | countDrop =>
      simp only [step, countDropStep] at stepped
      split at stepped
      · next dropping =>
          rcases Option.map_eq_some_iff.mp stepped with ⟨after, took, rfl⟩
          rcases storageStep_eq_some took with ⟨storage, stored, rfl⟩
          exact .countDrop dropping stored
      · cases stepped
  | transportExit =>
      simp only [step, transportExitStep] at stepped
      split at stepped
      · next idle joining =>
          rw [← Option.some.inj stepped]
          exact .transportExit idle joining
      · cases stepped
  | signal =>
      simp only [step, signalStep] at stepped
      split at stepped
      · next running =>
          rw [← Option.some.inj stepped]
          exact .signal running
      · cases stepped
  | join =>
      simp only [step, joinStep] at stepped
      split at stepped
      · next joining exited =>
          rcases Option.map_eq_some_iff.mp stepped with ⟨after, took, rfl⟩
          rcases storageStep_eq_some took with ⟨storage, stored, rfl⟩
          exact .join joining exited stored
      · cases stepped
  | writer outcome =>
      rcases storageStep_eq_some stepped with ⟨storage, took, rfl⟩
      exact .writer took
  | stopper outcome =>
      simp only [step, stopperStep] at stepped
      split at stepped
      · next stopping =>
          rcases storageStep_eq_some stepped with ⟨storage, took, rfl⟩
          exact .stopper stopping took
      · cases stepped
  | finish =>
      simp only [step, finishStep] at stepped
      split at stepped
      · next stopping returned =>
          rw [← Option.some.inj stepped]
          exact .finish stopping returned
      · cases stepped

end AccelObserver.Server.ServerProgram
