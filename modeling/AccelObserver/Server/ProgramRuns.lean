import AccelObserver.Server.LossCounting
import AccelObserver.Server.ServerProgram

/-!
# Runs of the server program

What holds in every state that the threads can reach.  The callback has
counted what the validator accepts of the payloads so far; every accepted
packet has been handed to the storage manager, but for the one at hand; and
the storage manager keeps its own books.  At the end the three agree.
-/

namespace AccelObserver.Server.ServerProgram

open AccelObserver.Library
open AccelObserver.Server.LossCounting (countedGaps lostAlong_uint32Max)
open AccelObserver.Server.PacketCallback
open AccelObserver.Server.StorageManager (Formatter Exclusive Accounted Drops)
open AccelObserver.Server.StorageManager (Emptied Ordered)

variable {File Outcome : Type}

/-! ## The callback -/

/-- What the validator has accepted so far. -/
def accepted (settings : Settings) (arrivals : List Arrival) : List Accepted :=
  acceptedOf settings.validator 0 arrivals

/-- The callback has counted what was accepted. -/
structure Counted (settings : Settings) (state : State File) : Prop where
  counter : state.callback.counter = counterAfter settings 0 state.arrivals
  stats :
    state.callback.stats =
      (StatsAnalyzer.new 200 settings.webStatsIntervalMs.toUInt64).recordAll
        ((accepted settings state.arrivals).map Accepted.reception)

/-- A payload is counted if it is accepted. -/
theorem counted_arrival
    {settings : Settings} {state : State File}
    (counted : Counted settings state) (arrival : Arrival)
    (transport : TransportPc) :
    Counted settings
      { state with
        callback := (onPayload settings state.callback arrival).1
        transport := transport
        arrivals := state.arrivals ++ [arrival] } := by
  have split := acceptedOf_concat settings 0 state.arrivals arrival
  rw [← counted.counter] at split
  have next :
      counterAfter settings 0 (state.arrivals ++ [arrival]) =
        (accept settings.validator state.callback.counter arrival).2 := by
    rw [counted.counter, counterAfter, List.foldl_append]
    rfl
  cases verdict :
      (accept settings.validator state.callback.counter arrival).1 with
  | none =>
      rcases onPayload_of_rejected verdict with ⟨line, rejected⟩
      rw [verdict, Option.toList_none, List.append_nil] at split
      rw [rejected]
      exact ⟨next.symm, by rw [accepted, split]; exact counted.stats⟩
  | some taken =>
      rw [onPayload_of_accepted verdict]
      refine ⟨next.symm, ?_⟩
      rw [verdict, Option.toList_some] at split
      rw [accepted, split, List.map_append, StatsAnalyzer.recordAll,
        List.foldl_append]
      exact congrArg
        (fun stats : StatsAnalyzer =>
          stats.record taken.recvMs taken.packet.timestampMs
            taken.packet.sequenceId)
        counted.stats

/-! ## Packets on their way to the buffer -/

/-- The packet at hand. -/
def TransportPc.pending : TransportPc → List DataPacket
  | .pushing pkt => [pkt]
  | .idle | .dropping | .exited => []

/-- The thread of a push that has found no room and has yet to count that. -/
def TransportPc.rejected : TransportPc → List Nat
  | .dropping => [0]
  | .idle | .pushing _ | .exited => []

/-- Every accepted packet was handed over, but for the one at hand; some of
them the buffer took, and the others were dropped. -/
structure Handed (settings : Settings) (state : State File) : Prop where
  rejected : state.storage.rejected = state.transport.rejected
  taken :
    ∃ handed,
      (accepted settings state.arrivals).map Accepted.packet =
          handed ++ state.transport.pending ∧
        state.storage.accepted.Sublist handed ∧
        handed.length =
          state.storage.accepted.length + state.storage.returnedFalse +
            state.storage.rejected.length

/-! ## The storage manager -/

/-- What the storage manager keeps to, whatever the files do. -/
structure Kept (state : StorageManager.State DataPacket File) : Prop where
  exclusive : Exclusive state
  accounted : Accounted state
  drops : Drops state
  emptied : Emptied state

/-- The storage manager is stopped by `main` alone, behind the join. -/
structure Shutdown (state : State File) : Prop where
  stopped : state.storage.stopper ≠ .idle → state.transport = .exited
  finished :
    ∀ snap, state.main = .finished snap →
      state.transport = .exited ∧ state.storage.stopper = .returned ∧
        snap = state.callback.stats.snapshot

/-- A step of the storage manager keeps its books; behind its last drain the
transport thread has exited, so no push comes. -/
theorem kept_step
    {formatter : Formatter DataPacket File Outcome}
    {state next : StorageManager.State DataPacket File}
    {action : StorageManager.Action DataPacket Outcome} (kept : Kept state)
    (punctual : StorageManager.NoLatePush state action)
    (stepped : StorageManager.step formatter state action = some next) :
    Kept next where
  exclusive := StorageManager.exclusive_step kept.exclusive stepped
  accounted :=
    (StorageManager.accounted_step kept.exclusive kept.accounted stepped).1
  drops := StorageManager.drops_step kept.drops stepped
  emptied :=
    StorageManager.emptied_step kept.exclusive kept.emptied punctual stepped

theorem kept_start
    (formatter : Formatter DataPacket File Outcome) (capacity : Nat)
    (file : File) (outcome : Outcome) :
    Kept (StorageManager.start formatter capacity file outcome) where
  exclusive := StorageManager.exclusive_start formatter capacity file outcome
  accounted := rfl
  drops := rfl
  emptied := nofun

/-! ## Steps of the storage manager -/

/-- A push that finds room hands its packet over. -/
theorem push_cases
    {formatter : Formatter DataPacket File Outcome}
    {state next : StorageManager.State DataPacket File} {pkt : DataPacket}
    (stepped :
      StorageManager.step formatter state (.push 0 pkt) = some next) :
    next.stopper = state.stopper ∧ next.returnedFalse = state.returnedFalse ∧
      (next.rejected = state.rejected ∧
          next.accepted = state.accepted ++ [pkt] ∨
        next.rejected = 0 :: state.rejected ∧
          next.accepted = state.accepted) := by
  cases StorageManager.step_cases stepped with
  | accept _ => exact ⟨rfl, rfl, Or.inl ⟨rfl, rfl⟩⟩
  | reject _ => exact ⟨rfl, rfl, Or.inr ⟨rfl, rfl⟩⟩

/-- The other threads leave what concerns pushes alone. -/
theorem writer_cases
    {formatter : Formatter DataPacket File Outcome} {outcome : Outcome}
    {state next : StorageManager.State DataPacket File}
    (stepped :
      StorageManager.step formatter state (.writer outcome) = some next) :
    next.stopper = state.stopper ∧
      (next.rejected, next.accepted, next.returnedFalse) =
        (state.rejected, state.accepted, state.returnedFalse) := by
  cases StorageManager.step_cases stepped with
  | writerMove _ _ _ => exact ⟨rfl, rfl⟩
  | writerFlush _ => simp

theorem stopper_cases
    {formatter : Formatter DataPacket File Outcome} {outcome : Outcome}
    {state next : StorageManager.State DataPacket File}
    (stepped :
      StorageManager.step formatter state (.stopper outcome) = some next) :
    (state.stopper ≠ .idle ∧ state.stopper ≠ .returned) ∧
      (next.rejected, next.accepted, next.returnedFalse) =
        (state.rejected, state.accepted, state.returnedFalse) := by
  cases StorageManager.step_cases stepped with
  | notify position => simp [position]
  | join position _ => simp [position]
  | stopperFlush position => simp [position]

theorem stop_cases
    {formatter : Formatter DataPacket File Outcome}
    {state next : StorageManager.State DataPacket File}
    (stepped : StorageManager.step formatter state .stop = some next) :
    (next.rejected, next.accepted, next.returnedFalse) =
      (state.rejected, state.accepted, state.returnedFalse) := by
  cases StorageManager.step_cases stepped with
  | stop _ | stopAgain _ => rfl

/-! ## What holds in every state -/

/-- The books of the callback, of the transport thread and of the storage
manager; and unless a batch was lost, the file holds what was stored. -/
structure Sound (settings : Settings) (Holds : File → List DataPacket → Prop)
    (state : State File) : Prop where
  counted : Counted settings state
  handed : Handed settings state
  kept : Kept state.storage
  shutdown : Shutdown state
  ordered : state.storage.lost = 0 → Ordered Holds state.storage

/-- While no batch has been lost, every write has succeeded. -/
theorem ordered_of_lost_eq_zero
    {formatter : Formatter DataPacket File Outcome}
    {Holds : File → List DataPacket → Prop}
    {state next : StorageManager.State DataPacket File}
    {action : StorageManager.Action DataPacket Outcome}
    (appends : StorageManager.AppendsIn formatter Holds action)
    (kept : Kept state)
    (ordered : state.lost = 0 → Ordered Holds state)
    (stepped : StorageManager.step formatter state action = some next)
    (none : next.lost = 0) : Ordered Holds next := by
  rcases StorageManager.accounted_step kept.exclusive kept.accounted stepped
    with ⟨-, grows, sameIff⟩
  have before : state.lost = 0 := Nat.le_zero.mp (none ▸ grows)
  exact StorageManager.ordered_step appends (ordered before)
    (sameIff.mp (none.trans before.symm)) stepped

/-- A step of the storage manager that has nothing to do with pushes. -/
theorem sound_of_storage
    {settings : Settings} {formatter : Formatter DataPacket File Outcome}
    {Holds : File → List DataPacket → Prop} {state : State File}
    {action : StorageManager.Action DataPacket Outcome}
    {storage : StorageManager.State DataPacket File} {main : MainPc}
    (appends : StorageManager.AppendsIn formatter Holds action)
    (sound : Sound settings Holds state)
    (stepped :
      StorageManager.step formatter state.storage action = some storage)
    (noPush : ∀ thread pkt, action ≠ .push thread pkt)
    (same :
      (storage.rejected, storage.accepted, storage.returnedFalse) =
        (state.storage.rejected, state.storage.accepted,
          state.storage.returnedFalse))
    (shutdown :
      Shutdown { state with storage := storage, main := main }) :
    Sound settings Holds { state with storage := storage, main := main } := by
  simp only [Prod.mk.injEq] at same
  rcases same with ⟨rejected, accepted, returnedFalse⟩
  exact
    { counted := ⟨sound.counted.counter, sound.counted.stats⟩
      handed :=
        { rejected := rejected.trans sound.handed.rejected
          taken := by
            rw [rejected, accepted, returnedFalse]
            exact sound.handed.taken }
      kept :=
        kept_step sound.kept
          (fun thread pkt isPush => absurd isPush (noPush thread pkt)) stepped
      shutdown := shutdown
      ordered :=
        ordered_of_lost_eq_zero appends sound.kept sound.ordered stepped }

theorem sound_start
    {formatter : Formatter DataPacket File Outcome}
    {Holds : File → List DataPacket → Prop} (settings : Settings)
    (startMs : UInt64) (capacity : Nat) {file : File} {outcome : Outcome}
    (opened : Holds (formatter.writeHeader file outcome).1 []) :
    Sound settings Holds
      (start settings formatter startMs capacity file outcome) where
  counted := ⟨rfl, rfl⟩
  handed := ⟨rfl, [], rfl, List.Sublist.refl [], rfl⟩
  kept := kept_start formatter capacity file outcome
  shutdown := ⟨fun stopped => absurd rfl stopped, by simp [start]⟩
  ordered _ := StorageManager.ordered_start capacity opened

/-- While the transport thread is there, the storage manager is not stopped,
and `main` has not finished. -/
theorem Sound.of_transport
    {settings : Settings} {Holds : File → List DataPacket → Prop}
    {state : State File} (sound : Sound settings Holds state)
    (there : state.transport ≠ .exited) :
    state.storage.stopper = .idle ∧
      ∀ snap, state.main ≠ .finished snap := by
  constructor
  · by_contra stopped
    exact there (sound.shutdown.stopped stopped)
  · intro snap finished
    exact there (sound.shutdown.finished snap finished).1

theorem sound_arrival
    {settings : Settings} {Holds : File → List DataPacket → Prop}
    {state : State File} (sound : Sound settings Holds state)
    (idle : state.transport = .idle) (arrival : Arrival) :
    Sound settings Holds
      { state with
        callback := (onPayload settings state.callback arrival).1
        transport :=
          (onPayload settings state.callback arrival).2.push.elim .idle
            .pushing
        arrivals := state.arrivals ++ [arrival] } := by
  rcases sound.of_transport (by rw [idle]; nofun) with ⟨stopper, unfinished⟩
  rcases sound.handed.taken with ⟨handed, split, sublist, length⟩
  have more := acceptedOf_concat settings 0 state.arrivals arrival
  rw [← sound.counted.counter] at more
  have rejected := sound.handed.rejected
  rw [idle, TransportPc.pending, List.append_nil] at split
  rw [idle] at rejected
  refine ⟨counted_arrival sound.counted arrival _, ?_, sound.kept,
    ⟨fun stopped => absurd stopper stopped,
      fun snap finished => absurd finished (unfinished snap)⟩, sound.ordered⟩
  cases verdict :
      (accept settings.validator state.callback.counter arrival).1 with
  | none =>
      rcases onPayload_of_rejected verdict with ⟨line, same⟩
      rw [verdict, Option.toList_none, List.append_nil] at more
      refine ⟨?_, handed, ?_, sublist, length⟩
      · rw [same]
        exact rejected
      · rw [same, accepted, more]
        exact split.trans (List.append_nil _).symm
  | some taken =>
      rw [verdict, Option.toList_some] at more
      refine ⟨?_, handed, ?_, sublist, length⟩
      · rw [onPayload_of_accepted verdict]
        exact rejected
      · rw [onPayload_of_accepted verdict, accepted, more, List.map_append]
        exact congrArg (· ++ [taken.packet]) split

theorem sound_push
    {settings : Settings} {formatter : Formatter DataPacket File Outcome}
    {Holds : File → List DataPacket → Prop}
    {state : State File}
    {storage : StorageManager.State DataPacket File} {pkt : DataPacket}
    (sound : Sound settings Holds state)
    (pushing : state.transport = .pushing pkt)
    (stepped :
      StorageManager.step formatter state.storage (.push 0 pkt) =
        some storage) :
    Sound settings Holds
      { state with
        storage := storage
        transport := if 0 ∈ storage.rejected then .dropping else .idle } := by
  rcases sound.of_transport (by rw [pushing]; nofun)
    with ⟨stopper, unfinished⟩
  rcases sound.handed.taken with ⟨handed, split, sublist, length⟩
  rcases push_cases stepped with ⟨sameStopper, returnedFalse, outcome⟩
  have rejected := sound.handed.rejected
  rw [pushing] at split rejected
  rw [rejected] at length outcome
  refine ⟨⟨sound.counted.counter, sound.counted.stats⟩, ?_,
    kept_step sound.kept ?_ stepped,
    ⟨fun stopped => absurd (sameStopper.trans stopper) stopped,
      fun snap finished => absurd finished (unfinished snap)⟩,
    ordered_of_lost_eq_zero (StorageManager.appendsIn_of_none rfl) sound.kept
      sound.ordered stepped⟩
  · rcases outcome with ⟨room, taken⟩ | ⟨full, refused⟩
    · refine ⟨by simp [room, TransportPc.rejected], handed ++ [pkt], ?_, ?_,
        ?_⟩
      · simpa [room, TransportPc.rejected, TransportPc.pending] using split
      · rw [taken]
        exact sublist.append (List.Sublist.refl _)
      · simp only [taken, returnedFalse, room, List.length_append,
          TransportPc.rejected, List.length_nil] at length ⊢
        simp only [List.length_singleton]
        omega
    · refine ⟨by simp [full, TransportPc.rejected], handed ++ [pkt], ?_, ?_,
        ?_⟩
      · simpa [full, TransportPc.pending] using split
      · rw [refused]
        exact sublist.trans (List.sublist_append_left _ _)
      · simp only [refused, returnedFalse, full, List.length_append,
          TransportPc.rejected, List.length_nil] at length ⊢
        simp only [List.length_cons, List.length_nil]
        omega
  · intro thread other _ drained
    rw [stopper] at drained
    exact drained

theorem sound_countDrop
    {settings : Settings} {formatter : Formatter DataPacket File Outcome}
    {Holds : File → List DataPacket → Prop}
    {state : State File}
    {storage : StorageManager.State DataPacket File}
    (sound : Sound settings Holds state)
    (dropping : state.transport = .dropping)
    (stepped :
      StorageManager.step formatter state.storage (.countDrop 0) =
        some storage) :
    Sound settings Holds
      { state with storage := storage, transport := .idle } := by
  rcases sound.of_transport (by rw [dropping]; nofun)
    with ⟨stopper, unfinished⟩
  rcases sound.handed.taken with ⟨handed, split, sublist, length⟩
  have rejected := sound.handed.rejected
  rw [dropping] at split rejected
  rw [TransportPc.rejected] at rejected
  have kept :=
    kept_step sound.kept (fun _ _ isPush => absurd isPush (by simp)) stepped
  have ordered :=
    ordered_of_lost_eq_zero (StorageManager.appendsIn_of_none rfl) sound.kept
      sound.ordered stepped
  cases StorageManager.step_cases stepped with
  | countDrop =>
      refine ⟨⟨sound.counted.counter, sound.counted.stats⟩,
        ⟨by simp [rejected, TransportPc.rejected], handed, split, sublist, ?_⟩,
        kept,
        ⟨fun stopped => absurd stopper stopped,
          fun snap finished => absurd finished (unfinished snap)⟩, ordered⟩
      rw [length, rejected, List.erase_cons_head]
      simp only [List.length_cons, List.length_nil]
      omega

theorem sound_step
    {settings : Settings} {formatter : Formatter DataPacket File Outcome}
    {Holds : File → List DataPacket → Prop} {state next : State File}
    {action : Action Outcome}
    (appends :
      ∀ outcome ∈ action.outcome?, formatter.AppendsOn Holds outcome)
    (sound : Sound settings Holds state)
    (stepped : step settings formatter state action = some next) :
    Sound settings Holds next := by
  cases step_cases stepped with
  | arrival idle => exact sound_arrival sound idle _
  | push pushing took => exact sound_push sound pushing took
  | countDrop dropping took =>
      exact sound_countDrop sound dropping took
  | transportExit idle joining =>
      have handed := sound.handed
      refine ⟨⟨sound.counted.counter, sound.counted.stats⟩, ⟨?_, ?_⟩,
        sound.kept, ⟨fun _ => rfl, ?_⟩, sound.ordered⟩
      · rw [handed.rejected, idle]
        rfl
      · simpa [idle, TransportPc.pending] using handed.taken
      · simp [joining]
  | signal running =>
      exact
        ⟨⟨sound.counted.counter, sound.counted.stats⟩,
          ⟨sound.handed.rejected, sound.handed.taken⟩, sound.kept,
          ⟨sound.shutdown.stopped, by simp⟩, sound.ordered⟩
  | join joining exited took =>
      exact sound_of_storage (StorageManager.appendsIn_of_none rfl) sound took
        (fun _ _ => nofun) (stop_cases took) ⟨fun _ => exited, by simp⟩
  | @writer outcome _ took =>
      have appendsHere :
          StorageManager.AppendsIn formatter Holds (.writer outcome) := appends
      rcases writer_cases took with ⟨stopper, same⟩
      refine sound_of_storage appendsHere sound took (fun _ _ => nofun) same
        ⟨fun stopped => sound.shutdown.stopped (stopper ▸ stopped), ?_⟩
      intro snap finished
      rcases sound.shutdown.finished snap finished
        with ⟨exited, returned, read⟩
      exact ⟨exited, stopper.trans returned, read⟩
  | @stopper outcome _ stopping took =>
      have appendsHere :
          StorageManager.AppendsIn formatter Holds (.stopper outcome) := appends
      rcases stopper_cases took with ⟨⟨stopped, -⟩, same⟩
      refine sound_of_storage appendsHere sound took (fun _ _ => nofun) same
        ⟨fun _ => sound.shutdown.stopped stopped, ?_⟩
      simp [stopping]
  | finish stopping returned =>
      have stopped : state.storage.stopper ≠ .idle := by
        rw [returned]
        nofun
      refine
        ⟨⟨sound.counted.counter, sound.counted.stats⟩,
          ⟨sound.handed.rejected, sound.handed.taken⟩, sound.kept,
          ⟨sound.shutdown.stopped, fun snap finished => ?_⟩, sound.ordered⟩
      exact ⟨sound.shutdown.stopped stopped, returned,
        (MainPc.finished.inj finished).symm⟩

/-- Every state of every run. -/
theorem sound_run
    {settings : Settings} {formatter : Formatter DataPacket File Outcome}
    {Holds : File → List DataPacket → Prop}
    {startMs : UInt64} {capacity : Nat} {file : File} {outcome : Outcome}
    (opened : Holds (formatter.writeHeader file outcome).1 [])
    {actions : List (Action Outcome)} {final : State File}
    (appends :
      ∀ action ∈ actions, ∀ outcome ∈ action.outcome?,
        formatter.AppendsOn Holds outcome)
    (ran :
      (machine settings formatter startMs capacity file outcome).run actions =
        some final) :
    Sound settings Holds final :=
  (machine settings formatter startMs capacity file outcome).runFrom_invariant
    (fun _ _ _ sound appends stepped => sound_step appends sound stepped)
    (sound_start settings startMs capacity opened)
    (Machine.along_of_forall_mem _ _ fun action member _ =>
      appends action member)
    ran

/-! ## The end of a run -/

/-- With nothing at hand, every accepted packet is taken or dropped. -/
theorem Sound.accepted_length
    {settings : Settings} {Holds : File → List DataPacket → Prop}
    {state : State File} (sound : Sound settings Holds state) :
    (accepted settings state.arrivals).length =
      state.storage.accepted.length + state.storage.dropped +
        state.transport.rejected.length + state.transport.pending.length := by
  rcases sound.handed.taken with ⟨handed, split, -, length⟩
  have lengths := congrArg List.length split
  rw [List.length_map, List.length_append, length, sound.handed.rejected,
    ← show _ = _ from sound.kept.drops] at lengths
  exact lengths

/-- What is true of the storage manager behind `stop`. -/
structure Settled (state : StorageManager.State DataPacket File) : Prop where
  empty : state.buffer.contents = []
  counted : state.accepted.length = state.written + state.lost

theorem settled_of_returned
    {state : StorageManager.State DataPacket File} (kept : Kept state)
    (returned : state.stopper = .returned) : Settled state := by
  have exited : state.writer = .exited := by
    apply kept.exclusive.joined
    rw [returned]
    trivial
  have quiet : state.flush? = none := by
    rw [StorageManager.State.flush?, exited, returned]
    rfl
  have empty : state.buffer.contents = [] := by
    apply kept.emptied
    rw [returned]
    trivial
  rcases StorageManager.batch_of_flush? quiet with ⟨batch, uncounted⟩
  have accounted := kept.accounted
  rw [Accounted, batch, uncounted, empty] at accounted
  exact ⟨empty, by simpa using accounted⟩

/-- What the statistics and the storage manager say at the end. -/
structure Books (settings : Settings) (state : State File)
    (snap : StatsSnapshot) : Prop where
  received : snap.packetsReceived = (accepted settings state.arrivals).length
  balance :
    snap.packetsReceived =
      state.storage.written + state.storage.dropped + state.storage.lost
  gaps :
    snap.packetsLost =
      countedGaps
        ((accepted settings state.arrivals).map fun taken =>
          taken.packet.sequenceId)
  empty : state.storage.buffer.contents = []

theorem Sound.books
    {settings : Settings} {Holds : File → List DataPacket → Prop}
    {state : State File} (sound : Sound settings Holds state)
    {snap : StatsSnapshot} (finished : state.main = .finished snap) :
    Books settings state snap := by
  rcases sound.shutdown.finished snap finished with ⟨exited, returned, rfl⟩
  have settled := settled_of_returned sound.kept returned
  have lengths := sound.accepted_length
  rw [exited, TransportPc.rejected, TransportPc.pending, List.length_nil,
    Nat.add_zero, List.length_nil, Nat.add_zero, settled.counted] at lengths
  have received :
      state.callback.stats.snapshot.packetsReceived =
        (accepted settings state.arrivals).length := by
    simp only [StatsAnalyzer.snapshot, sound.counted.stats,
      StatsAnalyzer.recordAll_packetsReceived, List.length_map]
    exact Nat.zero_add _
  refine ⟨received, ?_, ?_, settled.empty⟩
  · rw [received, lengths]
    omega
  · simp only [StatsAnalyzer.snapshot, sound.counted.stats,
      StatsAnalyzer.recordAll_packetsLost, List.map_map]
    exact (Nat.zero_add _).trans (lostAlong_uint32Max _)

/--
The counters at the end account for every payload, however the threads were
interleaved and whatever the files did.  What the validator accepts is what
the statistics count as received; it is counted as written, or dropped at a
full buffer, or was in a batch whose write failed.  What is counted as lost are
the numbers left out between the packets, up to 10000 of them at a time.
-/
theorem received_accounted
    (settings : Settings) (formatter : Formatter DataPacket File Outcome)
    (startMs : UInt64) (capacity : Nat) (file : File) (outcome : Outcome)
    (actions : List (Action Outcome)) (final : State File)
    (ran :
      (machine settings formatter startMs capacity file outcome).run actions =
        some final)
    (snap : StatsSnapshot) (finished : final.main = .finished snap) :
    Books settings final snap := by
  have sound : Sound settings (fun _ _ => True) final :=
    sound_run trivial (fun _ _ _ _ _ _ _ _ _ => trivial) ran
  exact sound.books finished

section Csv

open AccelObserver.Server.CsvFormatter

/-- Unless a batch was lost, the file has a row for each packet that the
buffer took. -/
theorem Sound.inFile
    {settings : Settings} {separator : Bytes} {state : State CsvFile}
    (sound : Sound settings (Holds separator) state) {snap : StatsSnapshot}
    (finished : state.main = .finished snap)
    (nothingLost : state.storage.lost = 0) :
    ∃ stored,
      state.storage.file.content =
          some (makeHeader separator ++ [10] ++ rows separator stored) ∧
        stored.length = state.storage.written ∧
        stored.Sublist
          ((accepted settings state.arrivals).map Accepted.packet) ∧
        (state.storage.dropped = 0 →
          stored =
            (accepted settings state.arrivals).map Accepted.packet) := by
  have books := sound.books finished
  rcases sound.shutdown.finished snap finished with ⟨exited, returned, -⟩
  rcases StorageManager.stored_of_returned (sound.ordered nothingLost)
      returned books.empty
    with ⟨inFile, written⟩
  rcases sound.handed.taken with ⟨handed, split, sublist, -⟩
  rw [exited, TransportPc.pending, List.append_nil] at split
  rw [split]
  refine ⟨_, inFile.2, written.symm, sublist, fun noDrop => ?_⟩
  apply sublist.eq_of_length
  have balance := books.balance
  rw [books.received, nothingLost, noDrop, written, Nat.add_zero] at balance
  rw [← balance, ← split, List.length_map]

/--
The counters vouch for the file that a run begins, as long as the disk takes
what a stream keeps until it is closed.  If the written and the dropped packets
add up to those received, the file is the header and a row for each packet
written, in the order in which they came; and with no drop it has every packet
that the validator accepted.
-/
theorem counters_certify_file
    (settings : Settings) (separator : Bytes) (startMs : UInt64)
    (capacity : Nat) (io : Io) (headerWhole : io.ClosesWhole)
    (opened : (writeHeader separator .fresh io).2 = true)
    (actions : List (Action Io))
    (batchesWhole :
      ∀ action ∈ actions, ∀ outcome ∈ action.outcome?, outcome.ClosesWhole)
    (final : State CsvFile)
    (ran :
      (machine settings (csvFormatter separator) startMs capacity .fresh
        io).run actions = some final)
    (snap : StatsSnapshot) (finished : final.main = .finished snap)
    (balanced :
      final.storage.written + final.storage.dropped = snap.packetsReceived) :
    ∃ stored,
      final.storage.file.content =
          some (makeHeader separator ++ [10] ++ rows separator stored) ∧
        stored.length = final.storage.written ∧
        stored.Sublist
          ((accepted settings final.arrivals).map Accepted.packet) ∧
        (final.storage.dropped = 0 →
          stored =
            (accepted settings final.arrivals).map Accepted.packet) := by
  have sound : Sound settings (Holds separator) final :=
    sound_run (writeHeader_fresh headerWhole opened)
      (fun action member outcome isOutcome =>
        csvFormatter_appendsOn separator
          (batchesWhole action member outcome isOutcome))
      ran
  have balance := (sound.books finished).balance
  exact sound.inFile finished (by omega)

/-! ### A short run -/

/-- The default validator, and no dashboard. -/
def plainSettings : Settings where
  validator := .default
  webif := false
  webStatsIntervalMs := 1000

/-- Two packets meet a buffer for one, with something else between them. -/
def crowdedRun : List (Action Io) :=
  [.arrival ⟨restPayload (ascii "1"), 2, 2⟩, .push,
    .arrival ⟨ascii "hello", 3, 3⟩,
    .arrival ⟨restPayload (ascii "2"), 4, 4⟩, .push, .signal, .countDrop,
    .transportExit, .join, .stopper .good, .writer .good, .stopper .good,
    .stopper .good, .stopper .good, .stopper .good, .finish]

theorem crowdedRun_whole :
    ∀ action ∈ crowdedRun, ∀ outcome ∈ action.outcome?,
      outcome.ClosesWhole := by
  simp [crowdedRun, Action.outcome?, Io.good_closesWhole]

/-- What is known of the end of a run. -/
def State.summary (state : State CsvFile) : Option (Nat × Nat × Nat) :=
  match state.main with
  | .finished snap =>
      some (snap.packetsReceived, state.storage.written, state.storage.dropped)
  | _ => none

theorem crowdedRun_summary :
    ((machine plainSettings (csvFormatter (ascii ";")) 0 1 .fresh .good).run
        crowdedRun).bind State.summary = some (2, 1, 1) := by
  decide +kernel

/-- A row that is cut when the stream is closed is counted as written. -/
example :
    ((machine plainSettings (csvFormatter (ascii ";")) 0 1 .fresh .good).run
        [.arrival ⟨restPayload (ascii "1"), 2, 2⟩, .push, .signal,
          .transportExit, .join, .stopper .good, .writer .good,
          .stopper .good, .stopper .good,
          .stopper { Io.good with appendCut := some 3 }, .stopper .good,
          .finish]).map
        (fun state =>
          (state.summary,
            state.storage.file.content == some
              (makeHeader (ascii ";") ++ [10] ++ ascii "1;1"))) =
      some (some (1, 1, 0), true) := by
  decide +kernel

theorem exists_of_summary
    {ran : Option (State CsvFile)} {received written dropped : Nat}
    (summary :
      ran.bind State.summary = some (received, written, dropped)) :
    ∃ final snap, ran = some final ∧ final.main = .finished snap ∧
      snap.packetsReceived = received ∧ final.storage.written = written ∧
      final.storage.dropped = dropped := by
  rcases Option.bind_eq_some_iff.mp summary with ⟨final, ran, here⟩
  unfold State.summary at here
  split at here
  · next snap finished =>
      simp only [Option.some.injEq, Prod.mk.injEq] at here
      exact ⟨final, snap, ran, finished, here⟩
  · cases here

theorem received_accounted_crowdedRun :
    ∃ final snap,
      (machine plainSettings (csvFormatter (ascii ";")) 0 1 .fresh .good).run
          crowdedRun = some final ∧
        Books plainSettings final snap := by
  rcases exists_of_summary crowdedRun_summary
    with ⟨final, snap, ran, finished, -⟩
  exact ⟨final, snap, ran,
    received_accounted plainSettings (csvFormatter (ascii ";")) 0 1 .fresh
      .good crowdedRun final ran snap finished⟩

theorem counters_certify_file_crowdedRun :
    ∃ final stored,
      (machine plainSettings (csvFormatter (ascii ";")) 0 1 .fresh .good).run
          crowdedRun = some final ∧
        final.storage.file.content =
          some
            (makeHeader (ascii ";") ++ [10] ++
              rows (ascii ";") stored) ∧
        stored.length = 1 := by
  rcases exists_of_summary crowdedRun_summary
    with ⟨final, snap, ran, finished, received, written, dropped⟩
  rcases counters_certify_file plainSettings (ascii ";") 0 1 .good
      Io.good_closesWhole (by rw [writeHeader_good]; rfl) crowdedRun
      crowdedRun_whole final ran snap finished
      (by rw [received, written, dropped])
    with ⟨stored, content, length, -⟩
  exact ⟨final, stored, ran, content, length.trans written⟩

end Csv

end AccelObserver.Server.ServerProgram
