import AccelObserver.Library.Backlog
import AccelObserver.Server.ProgramRuns

/-!
# A steady stream of packets

The buffer is sized for a stream that keeps a rate and for a writer thread that
keeps an interval.  `lossless_iff` is the condition on the three under which
nothing can be dropped, however the threads are interleaved; and
`steady_stream_is_stored` is what the program then leaves in the file.
-/

namespace AccelObserver.Server.StorageManager

open AccelObserver.Library

variable {Item File Outcome : Type} [Inhabited Item]

/-! ## The buffer as a backlog -/

/-- A push adds to the buffer, and the first step of a flush clears it. -/
def bufferEvent (state : State Item File) :
    Action Item Outcome → BacklogEvent
  | .push _ _ => .add
  | .writer _ =>
      match state.writer with
      | .flush .drain => .clear
      | _ => .other
  | .stopper _ =>
      match state.stopper with
      | .flush .drain => .clear
      | _ => .other
  | .countDrop _ | .stop => .other

omit [Inhabited Item] in
theorem tryPush_count_le (ring : RingBuffer Item) (packet : Item) :
    (ring.tryPush packet).1.count ≤ ring.count + 1 := by
  rw [RingBuffer.tryPush]
  split_ifs
  · exact Nat.le_succ _
  · exact Nat.le_refl _

omit [Inhabited Item] in
@[simp]
theorem tryPush_capacity (ring : RingBuffer Item) (packet : Item) :
    (ring.tryPush packet).1.capacity = ring.capacity := by
  rw [RingBuffer.tryPush]
  split_ifs
  · rfl
  · exact List.length_set

section Flush

variable (formatter : Formatter Item File Outcome) (outcome : Outcome)

@[simp]
theorem flushStep_capacity (pc : FlushPc Item) (state : State Item File) :
    (flushStep formatter outcome pc state).1.buffer.capacity =
      state.buffer.capacity := by
  cases pc with
  | drain => rfl
  | write packets nonempty =>
      simp only [flushStep]
      split_ifs <;> rfl
  | count size => rfl

theorem flushStep_count_le (pc : FlushPc Item) (state : State Item File) :
    (flushStep formatter outcome pc state).1.buffer.count ≤
      state.buffer.count := by
  cases pc with
  | drain => exact Nat.zero_le _
  | write packets nonempty =>
      simp only [flushStep]
      split_ifs <;> exact Nat.le_refl _
  | count size => exact Nat.le_refl _

end Flush

omit [Inhabited Item] in
/-- What clears the buffer is the drain of a flush. -/
theorem drain_of_clear
    {state : State Item File} {action : Action Item Outcome}
    (kind : bufferEvent state action = .clear) :
    (∃ outcome, action = .writer outcome) ∧ state.writer = .flush .drain ∨
      (∃ outcome, action = .stopper outcome) ∧
        state.stopper = .flush .drain := by
  cases action with
  | push thread packet => cases kind
  | countDrop thread => cases kind
  | stop => cases kind
  | writer outcome =>
      simp only [bufferEvent] at kind
      split at kind
      · next draining => exact Or.inl ⟨⟨outcome, rfl⟩, draining⟩
      · cases kind
  | stopper outcome =>
      simp only [bufferEvent] at kind
      split at kind
      · next draining => exact Or.inr ⟨⟨outcome, rfl⟩, draining⟩
      · cases kind

/-- The steps change the number of buffered packets accordingly. -/
theorem buffer_levels
    (formatter : Formatter Item File Outcome) (capacity : Nat) (file : File)
    (outcome : Outcome) :
    (machine formatter capacity file outcome).Levels bufferEvent
      (fun state => state.buffer.count) where
  add := by
    intro state action next stepped kind
    cases step_cases stepped with
    | accept _ => exact tryPush_count_le _ _
    | reject _ => exact Nat.le_succ _
    | writerFlush flushing =>
        exact (flushStep_count_le _ _ _ _).trans (Nat.le_succ _)
    | stopperFlush flushing =>
        exact (flushStep_count_le _ _ _ _).trans (Nat.le_succ _)
    | countDrop | writerMove _ _ _ | stop _ | stopAgain _ | notify _
    | join _ _ => exact Nat.le_succ _
  clear := by
    intro state action next stepped kind
    rcases drain_of_clear kind
      with ⟨⟨outcome, rfl⟩, draining⟩ | ⟨⟨outcome, rfl⟩, draining⟩
    · change step formatter state (.writer _) = some next at stepped
      cases step_cases stepped with
      | writerMove idle _ _ =>
          rw [draining] at idle
          cases idle
      | writerFlush flushing =>
          rw [draining] at flushing
          cases flushing
          rfl
    · change step formatter state (.stopper _) = some next at stepped
      cases step_cases stepped with
      | notify notifying =>
          rw [draining] at notifying
          cases notifying
      | join joining _ =>
          rw [draining] at joining
          cases joining
      | stopperFlush flushing =>
          rw [draining] at flushing
          cases flushing
          rfl
  other := by
    intro state action next stepped kind
    cases step_cases stepped with
    | accept _ | reject _ => cases kind
    | writerFlush flushing => exact flushStep_count_le _ _ _ _
    | stopperFlush flushing => exact flushStep_count_le _ _ _ _
    | countDrop | writerMove _ _ _ | stop _ | stopAgain _ | notify _
    | join _ _ => exact Nat.le_refl _

/-- The buffer keeps its size. -/
theorem step_capacity
    {formatter : Formatter Item File Outcome} {state next : State Item File}
    {action : Action Item Outcome}
    (stepped : step formatter state action = some next) :
    next.buffer.capacity = state.buffer.capacity := by
  cases step_cases stepped with
  | accept _ => exact tryPush_capacity _ _
  | writerFlush _ => exact flushStep_capacity _ _ _ _
  | stopperFlush _ => exact flushStep_capacity _ _ _ _
  | reject _ | countDrop | writerMove _ _ _ | stop _ | stopAgain _ | notify _
  | join _ _ => rfl

theorem start_capacity
    (formatter : Formatter Item File Outcome) (capacity : Nat) (file : File)
    (outcome : Outcome) :
    (start formatter capacity file outcome).buffer.capacity = capacity :=
  List.length_replicate

/-- While every push finds room, nothing is rejected. -/
def Quiet (state : State Item File) : Prop :=
  state.rejected = [] ∧ state.dropped = 0

theorem quiet_step
    {formatter : Formatter Item File Outcome} {state next : State Item File}
    {action : Action Item Outcome} (quiet : Quiet state)
    (room : RoomForPush state action)
    (stepped : step formatter state action = some next) : Quiet next := by
  cases step_cases stepped with
  | reject full => exact absurd full (room _ _ rfl)
  | countDrop => simp [step, countDropStep, quiet.1] at stepped
  | writerFlush _ | stopperFlush _ =>
      exact
        ⟨(flushStep_rejected _ _ _ _).trans quiet.1,
          (flushStep_dropped _ _ _ _).trans quiet.2⟩
  | accept _ | writerMove _ _ _ | stop _ | stopAgain _ | notify _
  | join _ _ => exact quiet

/-! ## Runs on time -/

section Timed

variable {formatter : Formatter Item File Outcome} {capacity : Nat}
  {file : File} {outcome : Outcome} {spacing gap : Nat}

/-- On time, every push finds room. -/
theorem roomForPush_of_onTime
    (tight : gap < spacing * capacity)
    {run : List (Nat × Action Item Outcome)}
    (onTime :
      ((machine formatter capacity file outcome).clocked bufferEvent).Along
        (Machine.OnTime bufferEvent spacing gap)
        { state := start formatter capacity file outcome, clock := .start }
        run) :
    (machine formatter capacity file outcome).Along RoomForPush
      (start formatter capacity file outcome) (run.map Prod.snd) := by
  have room :=
    Machine.along_of_clocked _
      (fun state action =>
        bufferEvent state action = .add → state.buffer.count < capacity)
      ((buffer_levels formatter capacity file outcome).room tight
        (Clock.spread_start spacing) onTime)
  refine Machine.along_of_invariant _
    (fun state => state.buffer.capacity = capacity)
    (fun state action next same stepped => (step_capacity stepped).trans same)
    ?_ (start_capacity formatter capacity file outcome) room
  rintro state action sized below thread packet rfl
  rw [sized]
  exact Nat.ne_of_lt (below rfl)

/-- A burst of packets at a distance. -/
def burst (spacing : Nat) : Nat → Nat → List (Nat × Action Item Outcome)
  | _, 0 => []
  | time, count + 1 =>
      (time, .push 0 default) :: burst spacing (time + spacing) count

theorem length_pushes_burst (spacing time count : Nat) :
    (pushes ((burst spacing time count : List (Nat × Action Item Outcome)).map
      Prod.snd)).length = count := by
  induction count generalizing time with
  | zero => rfl
  | succ count induction =>
      exact congrArg Nat.succ (induction (time + spacing))

section Push

variable {state : State Item File} (quiet : state.rejected = [])
  (packet : Item)
include quiet

theorem step_push_of_room
    (formatter : Formatter Item File Outcome)
    (room : state.buffer.count ≠ state.buffer.capacity) :
    step formatter state (.push 0 packet) =
      some
        { state with
          buffer := (state.buffer.tryPush packet).1
          accepted := state.accepted ++ [packet] } := by
  simp [step, pushStep, quiet, (RingBuffer.tryPush_room room packet).1]

theorem step_push_of_full
    (formatter : Formatter Item File Outcome)
    (full : state.buffer.count = state.buffer.capacity) :
    step formatter state (.push 0 packet) =
      some { state with rejected := [0] } := by
  simp [step, pushStep, quiet, RingBuffer.tryPush_full full packet]

end Push

/-- A burst that is soon over is on time, and the buffer takes what it can. -/
theorem burst_runs
    {count time : Nat} {timed : Clocked (State Item File)}
    (later : timed.clock.now ≤ time)
    (spaced : ∀ last ∈ timed.clock.addedAt, last + spacing ≤ time)
    (soon : time + count * spacing ≤ timed.clock.clearedAt + gap + spacing)
    (quiet : timed.state.rejected = [])
    (fits :
      timed.state.buffer.count + count ≤ timed.state.buffer.capacity + 1)
    (kept : timed.state.accepted.length = timed.state.buffer.count) :
    ∃ final,
      ((machine formatter capacity file outcome).clocked bufferEvent).runFrom
            timed (burst spacing time count) = some final ∧
        ((machine formatter capacity file outcome).clocked bufferEvent).Along
            (Machine.OnTime bufferEvent spacing gap) timed
            (burst spacing time count) ∧
        final.state.accepted.length ≤ timed.state.buffer.capacity := by
  induction count generalizing timed time with
  | zero =>
      refine ⟨timed, rfl, trivial, ?_⟩
      rw [kept]
      exact timed.state.buffer.count_le
  | succ count induction =>
      rw [Nat.succ_mul] at soon
      have onTime : timed.clock.now ≤ time ∧
          (BacklogEvent.add = .add → timed.clock.Punctual spacing gap time) :=
        ⟨later, fun _ => ⟨spaced, by omega⟩⟩
      by_cases full : timed.state.buffer.count = timed.state.buffer.capacity
      · obtain rfl : count = 0 := by omega
        have stepped :
            ((machine formatter capacity file outcome).clocked
                bufferEvent).step timed (time, .push 0 default) = _ :=
          congrArg (Option.map _)
            (step_push_of_full quiet default formatter full)
        refine ⟨_, (Machine.runFrom_cons_eq_some _).mpr ⟨_, stepped, rfl⟩,
          Machine.along_cons _ stepped onTime trivial, ?_⟩
        rw [← full]
        exact kept.le
      · have stepped :
            ((machine formatter capacity file outcome).clocked
                bufferEvent).step timed (time, .push 0 default) = _ :=
          congrArg (Option.map _)
            (step_push_of_room quiet default formatter full)
        have added :=
          (RingBuffer.tryPush_room full (default : Item)).2
        have grown := congrArg List.length added
        rw [List.length_append, RingBuffer.contents_length,
          RingBuffer.contents_length, List.length_singleton] at grown
        have onward :=
          @induction (time + spacing)
            { state :=
                { timed.state with
                  buffer := (timed.state.buffer.tryPush default).1
                  accepted := timed.state.accepted ++ [default] }
              clock := timed.clock.after .add time }
            (Nat.le_add_right time spacing) (by simp [Clock.after])
            (by simp only [Clock.after]; omega) quiet
            (by rw [tryPush_capacity, grown]; omega)
            (by rw [grown, List.length_append, kept]; rfl)
        rcases onward with ⟨final, ran, later, few⟩
        refine ⟨final, (Machine.runFrom_cons_eq_some _).mpr ⟨_, stepped, ran⟩,
          Machine.along_cons _ stepped onTime later, ?_⟩
        rwa [tryPush_capacity] at few

/-- From the start, a burst of one packet too many. -/
theorem burst_of_start
    (formatter : Formatter Item File Outcome) (file : File)
    (outcome : Outcome)
    (soon : 0 + (capacity + 1) * spacing ≤ 0 + gap + spacing) :
    ∃ final,
      ((machine formatter capacity file outcome).clocked bufferEvent).run
            (burst spacing 0 (capacity + 1)) = some final ∧
        ((machine formatter capacity file outcome).clocked bufferEvent).Along
            (Machine.OnTime bufferEvent spacing gap)
            { state := start formatter capacity file outcome
              clock := .start }
            (burst spacing 0 (capacity + 1)) ∧
        final.state.accepted.length ≤ capacity := by
  have sized := start_capacity formatter capacity file outcome
  have fits :
      (start formatter capacity file outcome).buffer.count + (capacity + 1) ≤
        (start formatter capacity file outcome).buffer.capacity + 1 := by
    rw [sized]
    exact (Nat.zero_add _).le
  have runs :=
    @burst_runs _ _ _ _ formatter capacity file outcome spacing gap
      (capacity + 1) 0
      { state := start formatter capacity file outcome, clock := .start }
      (Nat.le_refl 0) (by simp [Clock.start]) soon rfl fits rfl
  rwa [sized] at runs

/--
The condition under which a steady stream loses nothing.  Whatever the threads
do, every packet is taken if the packets keep their distance and each comes
soon enough behind the last drain; and no weaker condition on the distance, the
gap and the capacity will do.
-/
theorem lossless_iff
    (formatter : Formatter Item File Outcome) (capacity : Nat) (file : File)
    (outcome : Outcome) (spacing gap : Nat) :
    (∀ run final,
        let timed :=
          (machine formatter capacity file outcome).clocked bufferEvent
        timed.Along (Machine.OnTime bufferEvent spacing gap) timed.initial
            run →
          timed.run run = some final →
          final.state.accepted = pushes (run.map Prod.snd)) ↔
      gap < spacing * capacity := by
  constructor
  · intro lossless
    by_contra wide
    have long : 0 + (capacity + 1) * spacing ≤ 0 + gap + spacing := by
      rw [Nat.succ_mul, Nat.mul_comm capacity spacing]
      omega
    rcases burst_of_start formatter file outcome long
      with ⟨final, ran, onTime, few⟩
    have taken := congrArg List.length (lossless _ final onTime ran)
    rw [length_pushes_burst] at taken
    omega
  · intro tight run final timed onTime ran
    have taken :=
      accepted_run (roomForPush_of_onTime tight onTime)
        (Machine.runFrom_of_clocked _ ran)
    simpa [start] using taken

end Timed

end AccelObserver.Server.StorageManager

namespace AccelObserver.Server.ServerProgram

open AccelObserver.Library
open AccelObserver.Server.CsvFormatter
open AccelObserver.Server.PacketCallback
open AccelObserver.Server.StorageManager (Formatter bufferEvent buffer_levels)

variable {File Outcome : Type}

/-! ## The program as a backlog -/

/-- The step of the storage manager that a step of the program takes. -/
def storageAction (state : State File) :
    Action Outcome → Option (StorageManager.Action DataPacket Outcome)
  | .push =>
      match state.transport with
      | .pushing pkt => some (.push 0 pkt)
      | _ => none
  | .countDrop => some (.countDrop 0)
  | .join => some .stop
  | .writer outcome => some (.writer outcome)
  | .stopper outcome => some (.stopper outcome)
  | .arrival _ | .transportExit | .signal | .finish => none

theorem outcome?_of_storageAction
    {state : State File} {action : Action Outcome}
    {storageStep : StorageManager.Action DataPacket Outcome}
    (isStep : storageAction state action = some storageStep) :
    action.outcome? = storageStep.outcome? := by
  cases action with
  | push =>
      simp only [storageAction] at isStep
      split at isStep <;> cases isStep
      rfl
  | _ => cases isStep <;> rfl

theorem step_storage
    {settings : Settings} {formatter : Formatter DataPacket File Outcome}
    {state next : State File} {action : Action Outcome}
    (stepped : step settings formatter state action = some next) :
    (∃ storageStep,
        storageAction state action = some storageStep ∧
          StorageManager.step formatter state.storage storageStep =
            some next.storage) ∨
      storageAction state action = none ∧ next.storage = state.storage := by
  cases action with
  | arrival arrival =>
      simp only [step, arrivalStep] at stepped
      split at stepped
      · rw [← Option.some.inj stepped]
        exact Or.inr ⟨rfl, rfl⟩
      · cases stepped
  | push =>
      simp only [step, pushStep] at stepped
      split at stepped
      · next pkt pushing =>
          rcases Option.map_eq_some_iff.mp stepped with ⟨after, took, rfl⟩
          rcases storageStep_eq_some took with ⟨storage, stored, rfl⟩
          exact Or.inl ⟨_, by simp only [storageAction, pushing], stored⟩
      · cases stepped
  | countDrop =>
      simp only [step, countDropStep] at stepped
      split at stepped
      · rcases Option.map_eq_some_iff.mp stepped with ⟨after, took, rfl⟩
        rcases storageStep_eq_some took with ⟨storage, stored, rfl⟩
        exact Or.inl ⟨_, rfl, stored⟩
      · cases stepped
  | transportExit =>
      simp only [step, transportExitStep] at stepped
      split at stepped
      · rw [← Option.some.inj stepped]
        exact Or.inr ⟨rfl, rfl⟩
      · cases stepped
  | signal =>
      simp only [step, signalStep] at stepped
      split at stepped
      · rw [← Option.some.inj stepped]
        exact Or.inr ⟨rfl, rfl⟩
      · cases stepped
  | join =>
      simp only [step, joinStep] at stepped
      split at stepped
      · rcases Option.map_eq_some_iff.mp stepped with ⟨after, took, rfl⟩
        rcases storageStep_eq_some took with ⟨storage, stored, rfl⟩
        exact Or.inl ⟨_, rfl, stored⟩
      · cases stepped
  | writer outcome =>
      rcases storageStep_eq_some stepped with ⟨storage, took, rfl⟩
      exact Or.inl ⟨_, rfl, took⟩
  | stopper outcome =>
      simp only [step, stopperStep] at stepped
      split at stepped
      · rcases storageStep_eq_some stepped with ⟨storage, took, rfl⟩
        exact Or.inl ⟨_, rfl, took⟩
      · cases stepped
  | finish =>
      simp only [step, finishStep] at stepped
      split at stepped
      · rw [← Option.some.inj stepped]
        exact Or.inr ⟨rfl, rfl⟩
      · cases stepped

/-- What a step of the program does to the buffer. -/
def programEvent (state : State File) (action : Action Outcome) :
    BacklogEvent :=
  match storageAction state action with
  | some storageStep => bufferEvent state.storage storageStep
  | none => .other

section Program

variable {settings : Settings}
  {formatter : Formatter DataPacket File Outcome} {startMs : UInt64}
  {capacity : Nat} {file : File} {outcome : Outcome}

theorem program_levels :
    (machine settings formatter startMs capacity file outcome).Levels
      programEvent (fun state => state.storage.buffer.count) := by
  have levels := buffer_levels formatter capacity file outcome
  constructor
  · intro state action next stepped kind
    rcases step_storage stepped with ⟨storageStep, isStep, took⟩ | ⟨_, same⟩
    · rw [programEvent, isStep] at kind
      exact levels.add _ _ _ took kind
    · rw [same]
      exact Nat.le_succ _
  · intro state action next stepped kind
    rcases step_storage stepped with ⟨storageStep, isStep, took⟩ | ⟨none, _⟩
    · rw [programEvent, isStep] at kind
      exact levels.clear _ _ _ took kind
    · rw [programEvent, none] at kind
      cases kind
  · intro state action next stepped kind
    rcases step_storage stepped with ⟨storageStep, isStep, took⟩ | ⟨_, same⟩
    · rw [programEvent, isStep] at kind
      exact levels.other _ _ _ took kind
    · rw [same]

/-- Nothing was dropped, and the buffer has its size. -/
structure Roomy (capacity : Nat) (state : State File) : Prop where
  quiet : StorageManager.Quiet state.storage
  sized : state.storage.buffer.capacity = capacity

theorem roomy_step
    {state next : State File} {action : Action Outcome}
    (roomy : Roomy capacity state)
    (below :
      programEvent state action = .add →
        state.storage.buffer.count < capacity)
    (stepped : step settings formatter state action = some next) :
    Roomy capacity next := by
  rcases step_storage stepped with ⟨storageStep, isStep, took⟩ | ⟨_, same⟩
  · refine ⟨StorageManager.quiet_step roomy.quiet ?_ took,
      (StorageManager.step_capacity took).trans roomy.sized⟩
    rintro thread packet rfl
    rw [roomy.sized]
    apply Nat.ne_of_lt
    apply below
    rw [programEvent, isStep]
    rfl
  · exact ⟨same ▸ roomy.quiet, same ▸ roomy.sized⟩

theorem roomy_run
    {state final : State File} {actions : List (Action Outcome)}
    (roomy : Roomy capacity state)
    (room :
      (machine settings formatter startMs capacity file outcome).Along
        (fun state action =>
          programEvent state action = .add →
            state.storage.buffer.count < capacity)
        state actions)
    (ran :
      (machine settings formatter startMs capacity file outcome).runFrom state
        actions = some final) : Roomy capacity final := by
  refine Machine.runFrom_invariant _ ?_ roomy room ran
  exact fun _ _ _ roomy below stepped => roomy_step roomy below stepped

/-- On time, the program drops nothing. -/
theorem quiet_of_onTime
    {spacing gap : Nat} (tight : gap < spacing * capacity)
    {run : List (Nat × Action Outcome)} {final : Clocked (State File)}
    (onTime :
      ((machine settings formatter startMs capacity file outcome).clocked
        programEvent).Along
        (Machine.OnTime programEvent spacing gap)
        { state := start settings formatter startMs capacity file outcome
          clock := .start }
        run)
    (ran :
      ((machine settings formatter startMs capacity file outcome).clocked
        programEvent).run run = some final) :
    StorageManager.Quiet final.state.storage := by
  have levels :
      (machine settings formatter startMs capacity file outcome).Levels
        programEvent (fun state => state.storage.buffer.count) :=
    program_levels
  have room :=
    Machine.along_of_clocked _
      (fun (state : State File) (action : Action Outcome) =>
        programEvent state action = .add →
          state.storage.buffer.count < capacity)
      (levels.room tight (Clock.spread_start spacing) onTime)
  have sized :=
    StorageManager.start_capacity formatter capacity file outcome
  exact
    (roomy_run ⟨⟨rfl, rfl⟩, sized⟩ room
      (Machine.runFrom_of_clocked _ ran)).quiet

end Program

/-! ## What is in the file -/

section Csv

variable {settings : Settings} {separator : Bytes}

/-- The streams of the writer thread and of `main` do not fail. -/
def StreamsGood (action : Action Io) : Prop :=
  ∀ outcome, action = .writer outcome ∨ action = .stopper outcome →
    outcome = .good

theorem StreamsGood.outcome?
    {action : Action Io} (good : StreamsGood action) :
    ∀ outcome ∈ action.outcome?, outcome = .good := by
  intro outcome isOutcome
  apply good
  cases action with
  | writer given => exact Or.inl (congrArg _ (Option.some.inj isOutcome))
  | stopper given => exact Or.inr (congrArg _ (Option.some.inj isOutcome))
  | _ => cases isOutcome

theorem writesSucceed_of_good
    {state : State CsvFile} {action : Action Io} (good : StreamsGood action)
    {storageStep : StorageManager.Action DataPacket Io}
    (isStep : storageAction state action = some storageStep) :
    StorageManager.WritesSucceed (csvFormatter separator) state.storage
      storageStep := by
  intro packets outcome writes
  have isOutcome : action.outcome? = some outcome := by
    rw [← StorageManager.outcome?_of_writing writes]
    exact outcome?_of_storageAction isStep
  rw [good.outcome? outcome isOutcome]
  exact writePackets_good _ _ _

/-- Then no batch is lost. -/
theorem lost_step
    {state next : State CsvFile} {action : Action Io}
    (sound : Sound settings (Holds separator) state)
    (good : StreamsGood action)
    (stepped :
      step settings (csvFormatter separator) state action = some next) :
    next.storage.lost = state.storage.lost := by
  rcases step_storage stepped with ⟨storageStep, isStep, took⟩ | ⟨_, same⟩
  · have kept := sound.kept
    exact
      (StorageManager.accounted_step kept.exclusive kept.accounted
        took).2.2.mpr (writesSucceed_of_good good isStep)
  · rw [same]

/-- The books are right, and no batch was lost. -/
structure Intact (settings : Settings) (separator : Bytes)
    (state : State CsvFile) : Prop where
  sound : Sound settings (Holds separator) state
  nothingLost : state.storage.lost = 0

theorem intact_run
    {startMs : UInt64} {capacity : Nat} {actions : List (Action Io)}
    {final : State CsvFile} (good : ∀ action ∈ actions, StreamsGood action)
    (ran :
      (machine settings (csvFormatter separator) startMs capacity .fresh
        .good).run actions = some final) :
    Intact settings separator final := by
  have opened : (writeHeader separator .fresh .good).2 = true := by
    rw [writeHeader_good]
    rfl
  have initially :
      Intact settings separator
        (start settings (csvFormatter separator) startMs capacity .fresh
          .good) :=
    ⟨sound_start settings startMs capacity
        (writeHeader_fresh Io.good_closesWhole opened), rfl⟩
  refine
    Machine.runFrom_invariant _ ?_ initially
      (Machine.along_of_forall_mem _ _ fun action member _ =>
        good action member)
      ran
  intro state action next intact goodStep stepped
  have appends :
      ∀ outcome ∈ action.outcome?,
        (csvFormatter separator).AppendsOn (Holds separator) outcome := by
    intro outcome isOutcome
    rw [goodStep.outcome? outcome isOutcome]
    exact csvFormatter_appendsOn separator Io.good_closesWhole
  exact
    ⟨sound_step appends intact.sound stepped,
      (lost_step intact.sound goodStep stepped).trans intact.nothingLost⟩

/--
What a steady stream leaves behind.  If the stream and the writer thread are on
time and the streams do not fail, the file has a row for each packet that the
validator accepted, in order, whatever the capacity that suffices.
-/
theorem stored_of_onTime
    {startMs : UInt64} {capacity spacing gap : Nat}
    (tight : gap < spacing * capacity) {run : List (Nat × Action Io)}
    {final : Clocked (State CsvFile)}
    (onTime :
      ((machine settings (csvFormatter separator) startMs capacity .fresh
        .good).clocked programEvent).Along
        (Machine.OnTime programEvent spacing gap)
        { state :=
            start settings (csvFormatter separator) startMs capacity .fresh
              .good
          clock := .start }
        run)
    (good : ∀ action ∈ run, StreamsGood action.2)
    (ran :
      ((machine settings (csvFormatter separator) startMs capacity .fresh
        .good).clocked programEvent).run run = some final)
    {snap : StatsSnapshot} (finished : final.state.main = .finished snap) :
    final.state.storage.file.content =
        some
          (makeHeader separator ++ [10] ++
            rows separator
              ((accepted settings final.state.arrivals).map
                Accepted.packet)) ∧
      final.state.storage.written = snap.packetsReceived ∧
      final.state.storage.dropped = 0 := by
  have quiet := quiet_of_onTime tight onTime ran
  have intact : Intact settings separator final.state :=
    intact_run (List.forall_mem_map.mpr good)
      (Machine.runFrom_of_clocked _ ran)
  rcases intact.sound.inFile finished intact.nothingLost
    with ⟨stored, content, _, _, whole⟩
  have balance := (intact.sound.books finished).balance
  rw [intact.nothingLost, quiet.2, Nat.add_zero] at balance
  rw [whole quiet.2] at content
  exact ⟨content, balance.symm, quiet.2⟩

end Csv

end AccelObserver.Server.ServerProgram
