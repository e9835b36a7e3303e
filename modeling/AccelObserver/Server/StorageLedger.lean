import AccelObserver.Server.StorageManager

/-!
# Where the packets are

A packet that was accepted is in the file, in the batch that is being written
or in the ring buffer, in the order of acceptance, as long as no write fails.
The counters follow: what `written_packets()` shows is what the file holds, up
to a batch that is written and not yet counted.

A batch whose write fails is in none of these places, and the counters then
stay short of the pushes for good.
-/

namespace AccelObserver.Server.StorageManager

open AccelObserver.Library

variable {Item File Outcome : Type}

/-! ## The flush in progress -/

/-- The batch that a flush has drained and not yet written. -/
def FlushPc.batch : FlushPc Item → List Item
  | .write packets _ => packets
  | _ => []

/-- The number of packets that a flush has written and not yet counted. -/
def FlushPc.uncounted : FlushPc Item → Nat
  | .count size => size
  | _ => 0

/-- The batch that a step of a flush writes, and how that goes. -/
def FlushPc.writing (outcome : Outcome) :
    FlushPc Item → Option (List Item × Outcome)
  | .write packets _ => some (packets, outcome)
  | _ => none

def WriterPc.flush? : WriterPc Item → Option (FlushPc Item)
  | .flush pc => some pc
  | _ => none

def StopPc.flush? : StopPc Item → Option (FlushPc Item)
  | .flush pc => some pc
  | _ => none

/-- Behind the join. -/
def StopPc.Joined : StopPc Item → Prop
  | .flush _ => True
  | .returned => True
  | _ => False

/-- The flush in progress, of either thread. -/
def State.flush? (state : State Item File) : Option (FlushPc Item) :=
  state.writer.flush? <|> state.stopper.flush?

/-- The batch that is being written. -/
def State.batch (state : State Item File) : List Item :=
  state.flush?.elim [] FlushPc.batch

def State.uncounted (state : State Item File) : Nat :=
  state.flush?.elim 0 FlushPc.uncounted

/-- Where the writer goes on behind a step of its flush. -/
def WriterPc.resume : Option (FlushPc Item) → WriterPc Item
  | some pc => .flush pc
  | none => .test

/-- Where `stop` goes on behind a step of its flush. -/
def StopPc.resume : Option (FlushPc Item) → StopPc Item
  | some pc => .flush pc
  | none => .returned

@[simp]
theorem WriterPc.flush?_resume (more : Option (FlushPc Item)) :
    (WriterPc.resume more).flush? = more := by
  cases more <;> rfl

@[simp]
theorem StopPc.flush?_resume (more : Option (FlushPc Item)) :
    (StopPc.resume more).flush? = more := by
  cases more <;> rfl

variable [Inhabited Item]

/-! ## What a step can do -/

/-- The kinds of steps and the states that they lead to. -/
inductive StepCase (formatter : Formatter Item File Outcome)
    (state : State Item File) :
    Action Item Outcome → State Item File → Prop
  | accept {thread : Nat} {packet : Item}
      (room : state.buffer.count ≠ state.buffer.capacity) :
      StepCase formatter state (.push thread packet)
        { state with
          buffer := (state.buffer.tryPush packet).1
          accepted := state.accepted ++ [packet] }
  | reject {thread : Nat} {packet : Item}
      (full : state.buffer.count = state.buffer.capacity) :
      StepCase formatter state (.push thread packet)
        { state with rejected := thread :: state.rejected }
  | countDrop {thread : Nat} :
      StepCase formatter state (.countDrop thread)
        { state with
          dropped := state.dropped + 1
          rejected := state.rejected.erase thread
          returnedFalse := state.returnedFalse + 1 }
  | writerMove {outcome : Outcome} {pc : WriterPc Item}
      (idle : state.writer.flush? = none)
      (live : state.writer ≠ .exited)
      (harmless : pc.flush?.elim True (· = .drain)) :
      StepCase formatter state (.writer outcome) { state with writer := pc }
  | writerFlush {outcome : Outcome} {pc : FlushPc Item}
      (flushing : state.writer = .flush pc) :
      StepCase formatter state (.writer outcome)
        { (flushStep formatter outcome pc state).1 with
          writer := .resume (flushStep formatter outcome pc state).2 }
  | stop (running : state.running = true) :
      StepCase formatter state .stop
        { state with running := false, stopper := .notify }
  | stopAgain (stopped : state.running = false) :
      StepCase formatter state .stop state
  | notify {outcome : Outcome} (notifying : state.stopper = .notify) :
      StepCase formatter state (.stopper outcome)
        { state with stopper := .join }
  | join {outcome : Outcome} (joining : state.stopper = .join)
      (exited : state.writer = .exited) :
      StepCase formatter state (.stopper outcome)
        { state with stopper := .flush .drain }
  | stopperFlush {outcome : Outcome} {pc : FlushPc Item}
      (flushing : state.stopper = .flush pc) :
      StepCase formatter state (.stopper outcome)
        { (flushStep formatter outcome pc state).1 with
          stopper := .resume (flushStep formatter outcome pc state).2 }

/-- Every step is of one of these kinds. -/
theorem step_cases
    {formatter : Formatter Item File Outcome} {state next : State Item File}
    {action : Action Item Outcome}
    (stepped : step formatter state action = some next) :
    StepCase formatter state action next := by
  cases action with
  | push thread packet =>
      simp only [step, pushStep] at stepped
      split_ifs at stepped with waiting taken
      · simp only [Option.some.injEq] at stepped
        subst stepped
        apply StepCase.accept
        intro full
        simp [RingBuffer.tryPush_full full] at taken
      · simp only [Option.some.injEq] at stepped
        subst stepped
        apply StepCase.reject
        by_contra room
        exact taken (RingBuffer.tryPush_room room packet).1
  | countDrop thread =>
      simp only [step, countDropStep] at stepped
      split_ifs at stepped with waiting
      simp only [Option.some.injEq] at stepped
      subst stepped
      exact .countDrop
  | writer outcome =>
      simp only [step, writerStep] at stepped
      cases position : state.writer with
      | test =>
          simp only [position, Option.some.injEq] at stepped
          subst stepped
          apply StepCase.writerMove
          · rw [position]; rfl
          · simp [position]
          · cases state.running <;> trivial
      | wait =>
          simp only [position, Option.some.injEq] at stepped
          subst stepped
          apply StepCase.writerMove
          · rw [position]; rfl
          · simp [position]
          · exact rfl
      | flush pc =>
          have kind : StepCase formatter state (.writer outcome) _ :=
            .writerFlush position
          simp only [position] at stepped
          split at stepped
          all_goals
            next more =>
              simp only [Option.some.injEq] at stepped
              rw [more] at kind
              exact stepped ▸ kind
      | exited => simp [position] at stepped
  | stop =>
      simp only [step, stopStep] at stepped
      split_ifs at stepped with running
      · simp only [Option.some.injEq] at stepped
        subst stepped
        exact .stop running
      · simp only [Option.some.injEq] at stepped
        subst stepped
        exact .stopAgain (by simpa using running)
  | stopper outcome =>
      simp only [step, stopperStep] at stepped
      cases position : state.stopper with
      | idle => simp [position] at stepped
      | notify =>
          simp only [position, Option.some.injEq] at stepped
          subst stepped
          exact .notify position
      | join =>
          simp only [position] at stepped
          split at stepped
          · next exited =>
              simp only [Option.some.injEq] at stepped
              subst stepped
              exact .join position exited
          · cases stepped
      | flush pc =>
          have kind : StepCase formatter state (.stopper outcome) _ :=
            .stopperFlush position
          simp only [position] at stepped
          split at stepped
          all_goals
            next more =>
              simp only [Option.some.injEq] at stepped
              rw [more] at kind
              exact stepped ▸ kind
      | returned => simp [position] at stepped

/-! ## What a flush leaves alone -/

section Flush

variable (formatter : Formatter Item File Outcome) (outcome : Outcome)
  (pc : FlushPc Item) (state : State Item File)

@[simp]
theorem flushStep_running :
    (flushStep formatter outcome pc state).1.running = state.running := by
  cases pc <;> simp only [flushStep]
  split_ifs <;> rfl

@[simp]
theorem flushStep_writer :
    (flushStep formatter outcome pc state).1.writer = state.writer := by
  cases pc <;> simp only [flushStep]
  split_ifs <;> rfl

@[simp]
theorem flushStep_stopper :
    (flushStep formatter outcome pc state).1.stopper = state.stopper := by
  cases pc <;> simp only [flushStep]
  split_ifs <;> rfl

@[simp]
theorem flushStep_accepted :
    (flushStep formatter outcome pc state).1.accepted = state.accepted := by
  cases pc <;> simp only [flushStep]
  split_ifs <;> rfl

@[simp]
theorem flushStep_dropped :
    (flushStep formatter outcome pc state).1.dropped = state.dropped := by
  cases pc <;> simp only [flushStep]
  split_ifs <;> rfl

@[simp]
theorem flushStep_returnedFalse :
    (flushStep formatter outcome pc state).1.returnedFalse =
      state.returnedFalse := by
  cases pc <;> simp only [flushStep]
  split_ifs <;> rfl

@[simp]
theorem flushStep_rejected :
    (flushStep formatter outcome pc state).1.rejected = state.rejected := by
  cases pc <;> simp only [flushStep]
  split_ifs <;> rfl

variable {formatter outcome state}

theorem flushStep_write_good
    {packets : List Item} {nonempty : packets ≠ []}
    (good : (formatter.writePackets state.file packets outcome).2 = true) :
    flushStep formatter outcome (.write packets nonempty) state =
      ({ state with
          file := (formatter.writePackets state.file packets outcome).1 },
        some (.count packets.length)) := by
  simp [flushStep, good]

theorem flushStep_write_bad
    {packets : List Item} {nonempty : packets ≠ []}
    (bad : (formatter.writePackets state.file packets outcome).2 = false) :
    flushStep formatter outcome (.write packets nonempty) state =
      ({ state with
          file := (formatter.writePackets state.file packets outcome).1
          lost := state.lost + packets.length },
        none) := by
  simp [flushStep, bad]

end Flush

/-! ## One flush at a time -/

/--
The writer thread is gone once `stop` has joined it, and `stop` has not begun
while the manager runs.
-/
structure Exclusive (state : State Item File) : Prop where
  joined : state.stopper.Joined → state.writer = .exited
  unstopped : state.running = true → state.stopper = .idle

theorem exclusive_step
    {formatter : Formatter Item File Outcome} {state next : State Item File}
    {action : Action Item Outcome} (exclusive : Exclusive state)
    (stepped : step formatter state action = some next) :
    Exclusive next := by
  rcases exclusive with ⟨joined, unstopped⟩
  cases step_cases stepped with
  | accept _ | reject _ | countDrop | stopAgain _ => exact ⟨joined, unstopped⟩
  | writerMove _ live _ =>
      exact ⟨fun behind => absurd (joined behind) live, unstopped⟩
  | writerFlush flushing =>
      simp only [flushStep_stopper, flushStep_running] at *
      refine ⟨fun behind => ?_, unstopped⟩
      rw [joined behind] at flushing
      cases flushing
  | stop _ => exact ⟨nofun, nofun⟩
  | notify notifying =>
      refine ⟨nofun, fun running => ?_⟩
      rw [unstopped running] at notifying
      cases notifying
  | join joining exited =>
      refine ⟨fun _ => exited, fun running => ?_⟩
      rw [unstopped running] at joining
      cases joining
  | stopperFlush flushing =>
      simp only [flushStep_writer, flushStep_running]
      constructor
      · intro _
        apply joined
        rw [flushing]
        trivial
      · intro running
        rw [unstopped running] at flushing
        cases flushing

omit [Inhabited Item] in
/-- While the writer is alive, `stop` is not in a flush. -/
theorem Exclusive.stopper_flush?
    {state : State Item File} (exclusive : Exclusive state)
    (live : state.writer ≠ .exited) : state.stopper.flush? = none := by
  cases position : state.stopper with
  | flush pc =>
      refine absurd (exclusive.joined ?_) live
      rw [position]
      trivial
  | idle | notify | join | returned => rfl

omit [Inhabited Item] in
/-- A flush of the writer is the flush in progress. -/
theorem Exclusive.flush?_of_writer
    {state : State Item File} {pc : FlushPc Item}
    (flushing : state.writer = .flush pc) : state.flush? = some pc := by
  rw [State.flush?, flushing]
  rfl

omit [Inhabited Item] in
/-- So is one of the stopping thread. -/
theorem Exclusive.flush?_of_stopper
    {state : State Item File} (exclusive : Exclusive state)
    {pc : FlushPc Item} (flushing : state.stopper = .flush pc) :
    state.flush? = some pc := by
  have exited : state.writer = .exited := by
    apply exclusive.joined
    rw [flushing]
    trivial
  rw [State.flush?, exited, flushing]
  rfl

/-! ## The ledger -/

/-- The batch that a step of a run writes, and how that goes. -/
def State.writing (state : State Item File) :
    Action Item Outcome → Option (List Item × Outcome)
  | .writer outcome => state.writer.flush?.bind (FlushPc.writing outcome)
  | .stopper outcome => state.stopper.flush?.bind (FlushPc.writing outcome)
  | _ => none

/-- What a run keeps books about, the flush in progress included. -/
structure Ledger (Item File : Type) where
  buffer : RingBuffer Item
  file : File
  written : Nat
  accepted : List Item
  lost : Nat

def State.ledger (state : State Item File) : Ledger Item File :=
  { buffer := state.buffer
    file := state.file
    written := state.written
    accepted := state.accepted
    lost := state.lost }

/-- What a step can do to the ledger. -/
inductive LedgerCase (formatter : Formatter Item File Outcome)
    (state : State Item File) (action : Action Item Outcome)
    (next : State Item File) : Prop
  | accept (packet : Item)
      (room : state.buffer.count ≠ state.buffer.capacity)
      (entry : next.ledger =
        { state.ledger with
          buffer := (state.buffer.tryPush packet).1
          accepted := state.accepted ++ [packet] })
      (batch : next.batch = state.batch)
      (uncounted : next.uncounted = state.uncounted)
      (writes : state.writing action = none)
  | keep (entry : next.ledger = state.ledger)
      (batch : next.batch = state.batch)
      (uncounted : next.uncounted = state.uncounted)
      (writes : state.writing action = none)
  | flush (outcome : Outcome) (pc : FlushPc Item)
      (flushing : state.flush? = some pc)
      (entry :
        next.ledger = (flushStep formatter outcome pc state).1.ledger)
      (more : next.flush? = (flushStep formatter outcome pc state).2)
      (writes : state.writing action = pc.writing outcome)

theorem ledger_cases
    {formatter : Formatter Item File Outcome} {state next : State Item File}
    {action : Action Item Outcome} (exclusive : Exclusive state)
    (stepped : step formatter state action = some next) :
    LedgerCase formatter state action next := by
  cases step_cases stepped with
  | accept room => exact .accept _ room rfl rfl rfl rfl
  | reject _ => exact .keep rfl rfl rfl rfl
  | countDrop => exact .keep rfl rfl rfl rfl
  | stopAgain _ => exact .keep rfl rfl rfl rfl
  | @writerMove outcome pc idle live harmless =>
      have stopperIdle := exclusive.stopper_flush? live
      have silent : state.writing (Action.writer outcome) = none := by
        rw [State.writing, idle]
        rfl
      cases flushes : pc.flush? with
      | none =>
          refine .keep rfl ?_ ?_ silent
          · simp [State.batch, State.flush?, flushes, idle]
          · simp [State.uncounted, State.flush?, flushes, idle]
      | some inner =>
          rw [flushes] at harmless
          cases harmless
          refine .keep rfl ?_ ?_ silent
          · simp [State.batch, State.flush?, flushes, idle, stopperIdle,
              FlushPc.batch]
          · simp [State.uncounted, State.flush?, flushes, idle, stopperIdle,
              FlushPc.uncounted]
  | @writerFlush outcome pc flushing =>
      have live : state.writer ≠ .exited := by simp [flushing]
      apply LedgerCase.flush outcome pc
      · exact Exclusive.flush?_of_writer flushing
      · rfl
      · simp [State.flush?, exclusive.stopper_flush? live]
      · rw [State.writing, flushing]
        rfl
  | stop running =>
      have idle := exclusive.unstopped running
      refine .keep rfl ?_ ?_ rfl
      · simp [State.batch, State.flush?, idle, StopPc.flush?]
      · simp [State.uncounted, State.flush?, idle, StopPc.flush?]
  | notify notifying =>
      refine .keep rfl ?_ ?_ ?_
      · simp [State.batch, State.flush?, notifying, StopPc.flush?]
      · simp [State.uncounted, State.flush?, notifying, StopPc.flush?]
      · rw [State.writing, notifying]
        rfl
  | join joining exited =>
      refine .keep rfl ?_ ?_ ?_
      · simp [State.batch, State.flush?, joining, exited, StopPc.flush?,
          WriterPc.flush?, FlushPc.batch]
      · simp [State.uncounted, State.flush?, joining, exited, StopPc.flush?,
          WriterPc.flush?, FlushPc.uncounted]
      · rw [State.writing, joining]
        rfl
  | @stopperFlush outcome pc flushing =>
      have exited : state.writer = .exited := by
        apply exclusive.joined
        rw [flushing]
        trivial
      apply LedgerCase.flush outcome pc
      · exact exclusive.flush?_of_stopper flushing
      · rfl
      · simp [State.flush?, exited, WriterPc.flush?]
      · rw [State.writing, flushing]
        rfl

end AccelObserver.Server.StorageManager
