import AccelObserver.Library.Machine
import AccelObserver.Server.RingBuffer

/-!
# The storage manager

Producers push packets into the ring buffer; the writer thread drains it into
the output file from time to time, and `stop()` ends that thread and drains the
rest itself.  A run is any interleaving of these threads: a push takes the
buffer's lock in one step, and a flush drains, writes and counts in three.

`accepted`, `returnedFalse` and `lost` record the history of the run; no step
depends on them.
-/

namespace AccelObserver.Server.StorageManager

open AccelObserver.Library

/--
`IFormatter`: what its functions do to the output file and what they return,
given how the I/O goes.  The formatter's own members belong to the file.
-/
structure Formatter (Item File Outcome : Type) where
  writeHeader : File → Outcome → File × Bool
  writePackets : File → List Item → Outcome → File × Bool

/-- A call of this outcome that reports success has appended its packets to
the file. -/
def Formatter.AppendsOn {Item File Outcome : Type}
    (formatter : Formatter Item File Outcome)
    (Holds : File → List Item → Prop) (outcome : Outcome) : Prop :=
  ∀ file stored packets, Holds file stored →
    (formatter.writePackets file packets outcome).2 = true →
      Holds (formatter.writePackets file packets outcome).1
        (stored ++ packets)

/-- A call that reports success has appended its packets to the file. -/
def Formatter.Appends {Item File Outcome : Type}
    (formatter : Formatter Item File Outcome)
    (Holds : File → List Item → Prop) : Prop :=
  ∀ file stored packets outcome, Holds file stored →
    (formatter.writePackets file packets outcome).2 = true →
      Holds (formatter.writePackets file packets outcome).1
        (stored ++ packets)

theorem Formatter.Appends.on {Item File Outcome : Type}
    {formatter : Formatter Item File Outcome}
    {Holds : File → List Item → Prop} (appends : formatter.Appends Holds)
    (outcome : Outcome) : formatter.AppendsOn Holds outcome :=
  fun file stored packets => appends file stored packets outcome

/-! ## States -/

/-- Where a thread stands inside `flush_now`. -/
inductive FlushPc (Item : Type)
  | drain
  | write (packets : List Item) (nonempty : packets ≠ [])
  | count (size : Nat)

/-- Where the writer thread stands inside `flush_loop`. -/
inductive WriterPc (Item : Type)
  | test
  | wait
  | flush (pc : FlushPc Item)
  | exited

/-- Where the thread that stops the manager stands inside `stop`. -/
inductive StopPc (Item : Type)
  | idle
  | notify
  | join
  | flush (pc : FlushPc Item)
  | returned

structure State (Item File : Type) where
  buffer : RingBuffer Item
  file : File
  running : Bool
  dropped : Nat
  written : Nat
  writer : WriterPc Item
  stopper : StopPc Item
  /-- The threads whose push found the buffer full and has yet to count it. -/
  rejected : List Nat
  accepted : List Item
  returnedFalse : Nat
  lost : Nat

inductive Action (Item Outcome : Type)
  | push (thread : Nat) (packet : Item)
  | countDrop (thread : Nat)
  | writer (outcome : Outcome)
  | stop
  | stopper (outcome : Outcome)

/-- How the I/O of a step goes, where it may have any. -/
def Action.outcome? {Item Outcome : Type} : Action Item Outcome → Option Outcome
  | .writer outcome => some outcome
  | .stopper outcome => some outcome
  | .push _ _ => none
  | .countDrop _ => none
  | .stop => none

variable {Item File Outcome : Type} [Inhabited Item]

/-! ## Steps -/

/-- One step of `flush_now`, and where the thread goes on if not back. -/
def flushStep (formatter : Formatter Item File Outcome) (outcome : Outcome) :
    FlushPc Item → State Item File → State Item File × Option (FlushPc Item)
  | .drain, state =>
      let (packets, buffer) := state.buffer.drainNowait
      ({ state with buffer := buffer },
        if empty : packets = [] then none else some (.write packets empty))
  | .write packets _, state =>
      let (file, good) := formatter.writePackets state.file packets outcome
      if good then
        ({ state with file := file }, some (.count packets.length))
      else
        -- The batch has left the buffer, and no counter takes note of it.
        ({ state with file := file, lost := state.lost + packets.length },
          none)
  | .count size, state =>
      ({ state with written := state.written + size }, none)

/-- One step of `push`: `try_push` under the buffer's lock. -/
def pushStep (thread : Nat) (packet : Item) (state : State Item File) :
    Option (State Item File) :=
  if thread ∈ state.rejected then
    none
  else
    let (buffer, taken) := state.buffer.tryPush packet
    if taken then
      some
        { state with
          buffer := buffer
          accepted := state.accepted ++ [packet] }
    else
      some { state with rejected := thread :: state.rejected }

/-- The rest of a rejected push: `++dropped_packets_`, and the return. -/
def countDropStep (thread : Nat) (state : State Item File) :
    Option (State Item File) :=
  if thread ∈ state.rejected then
    some
      { state with
        dropped := state.dropped + 1
        rejected := state.rejected.erase thread
        returnedFalse := state.returnedFalse + 1 }
  else
    none

/-- One step of `flush_loop`.  The wait may end at any moment. -/
def writerStep (formatter : Formatter Item File Outcome) (outcome : Outcome)
    (state : State Item File) : Option (State Item File) :=
  match state.writer with
  | .test =>
      some { state with writer := if state.running then .wait else .exited }
  | .wait => some { state with writer := .flush .drain }
  | .flush pc =>
      let (after, more) := flushStep formatter outcome pc state
      match more with
      | some pc => some { after with writer := .flush pc }
      | none => some { after with writer := .test }
  | .exited => none

/-- The exchange at the head of `stop`: only the first caller goes on. -/
def stopStep (state : State Item File) : Option (State Item File) :=
  if state.running then
    some { state with running := false, stopper := .notify }
  else
    some state

/-- One later step of `stop`. -/
def stopperStep (formatter : Formatter Item File Outcome) (outcome : Outcome)
    (state : State Item File) : Option (State Item File) :=
  match state.stopper with
  | .idle => none
  | .notify => some { state with stopper := .join }
  | .join =>
      match state.writer with
      | .exited => some { state with stopper := .flush .drain }
      | _ => none
  | .flush pc =>
      let (after, more) := flushStep formatter outcome pc state
      match more with
      | some pc => some { after with stopper := .flush pc }
      | none => some { after with stopper := .returned }
  | .returned => none

def step (formatter : Formatter Item File Outcome) (state : State Item File) :
    Action Item Outcome → Option (State Item File)
  | .push thread packet => pushStep thread packet state
  | .countDrop thread => countDropStep thread state
  | .writer outcome => writerStep formatter outcome state
  | .stop => stopStep state
  | .stopper outcome => stopperStep formatter outcome state

/-- The state in which `start` leaves a new manager. -/
def start (formatter : Formatter Item File Outcome) (capacity : Nat)
    (file : File) (outcome : Outcome) : State Item File :=
  { buffer := RingBuffer.new capacity
    file := (formatter.writeHeader file outcome).1
    running := true
    dropped := 0
    written := 0
    writer := .test
    stopper := .idle
    rejected := []
    accepted := []
    returnedFalse := 0
    lost := 0 }

def machine (formatter : Formatter Item File Outcome) (capacity : Nat)
    (file : File) (outcome : Outcome) :
    Machine (State Item File) (Action Item Outcome) :=
  { initial := start formatter capacity file outcome
    step := step formatter }

end AccelObserver.Server.StorageManager
