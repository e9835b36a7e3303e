import AccelObserver.Server.CsvFormatter
import AccelObserver.Server.StorageLedger

/-!
# Runs of the storage manager

Two invariants hold along every run.  If the writes succeed, the packets in
the file, in the batch and in the buffer are the accepted ones, in order.
Whatever the writes do, the counters and the packets lost in failed batches
add up to the pushes.  So the books balance exactly in the runs in which no
write fails.
-/

namespace AccelObserver.Server.StorageManager

open AccelObserver.Library

variable {Item File Outcome : Type} [Inhabited Item]

/-! ## Packets stored in order -/

/-- If the action writes a batch, the write succeeds. -/
def WritesSucceed (formatter : Formatter Item File Outcome)
    (state : State Item File) (action : Action Item Outcome) : Prop :=
  ∀ packets outcome, state.writing action = some (packets, outcome) →
    (formatter.writePackets state.file packets outcome).2 = true

omit [Inhabited Item] in
theorem outcome?_of_writing
    {state : State Item File} {action : Action Item Outcome}
    {packets : List Item} {outcome : Outcome}
    (writes : state.writing action = some (packets, outcome)) :
    action.outcome? = some outcome := by
  have outcomeOf {flush : Option (FlushPc Item)} {given : Outcome}
      (found :
        flush.bind (FlushPc.writing given) = some (packets, outcome)) :
      given = outcome := by
    rcases Option.bind_eq_some_iff.mp found with ⟨pc, _, wrote⟩
    cases pc <;> simp_all [FlushPc.writing]
  cases action with
  | writer given => exact congrArg _ (outcomeOf writes)
  | stopper given => exact congrArg _ (outcomeOf writes)
  | push _ _ | countDrop _ | stop => cases writes

/-- What the action writes with success is appended to the file. -/
def AppendsIn (formatter : Formatter Item File Outcome)
    (Holds : File → List Item → Prop) (action : Action Item Outcome) : Prop :=
  ∀ outcome ∈ action.outcome?, formatter.AppendsOn Holds outcome

omit [Inhabited Item] in
theorem appendsIn_of_none
    {formatter : Formatter Item File Outcome}
    {Holds : File → List Item → Prop} {action : Action Item Outcome}
    (none : action.outcome? = none) : AppendsIn formatter Holds action := by
  intro outcome isOutcome
  rw [none] at isOutcome
  cases isOutcome

/-- File, batch and buffer hold the accepted packets, in order. -/
def Stored (Holds : File → List Item → Prop) (state : State Item File) :
    Prop :=
  ∃ stored, Holds state.file stored ∧
    stored ++ state.batch ++ state.buffer.contents = state.accepted ∧
    state.written + state.uncounted = stored.length

omit [Inhabited Item] in
theorem batch_of_flush?
    {state : State Item File} {pc : Option (FlushPc Item)}
    (flushing : state.flush? = pc) :
    state.batch = pc.elim [] FlushPc.batch ∧
      state.uncounted = pc.elim 0 FlushPc.uncounted := by
  simp [State.batch, State.uncounted, flushing]

omit [Inhabited Item] in
theorem ledger_fields
    {state next : State Item File} (entry : next.ledger = state.ledger) :
    next.buffer = state.buffer ∧ next.file = state.file ∧
      next.written = state.written ∧ next.accepted = state.accepted ∧
      next.lost = state.lost := by
  simpa [State.ledger] using entry

theorem stored_step
    {formatter : Formatter Item File Outcome}
    {Holds : File → List Item → Prop}
    {state next : State Item File} {action : Action Item Outcome}
    (appends : AppendsIn formatter Holds action)
    (exclusive : Exclusive state) (holds : Stored Holds state)
    (succeed : WritesSucceed formatter state action)
    (stepped : step formatter state action = some next) :
    Stored Holds next := by
  rcases holds with ⟨stored, inFile, inOrder, counted⟩
  cases ledger_cases exclusive stepped with
  | accept packet room entry batch uncounted _ =>
      simp only [State.ledger, Ledger.mk.injEq] at entry
      rcases entry with ⟨buffer, file, written, accepted, _⟩
      refine ⟨stored, file ▸ inFile, ?_, by rw [written, uncounted, counted]⟩
      rw [batch, buffer, accepted, (RingBuffer.tryPush_room room packet).2,
        ← inOrder, ← List.append_assoc]
  | keep entry batch uncounted _ =>
      rcases ledger_fields entry with ⟨buffer, file, written, accepted, _⟩
      refine ⟨stored, file ▸ inFile, ?_, by rw [written, uncounted, counted]⟩
      rw [batch, buffer, accepted, inOrder]
  | flush outcome pc flushing entry more writes =>
      rcases batch_of_flush? flushing with ⟨batch, uncounted⟩
      rcases batch_of_flush? more with ⟨nextBatch, nextUncounted⟩
      rcases ledger_fields entry with ⟨buffer, file, written, accepted, _⟩
      rw [batch] at inOrder
      rw [uncounted] at counted
      rw [Stored, buffer, file, written, accepted, nextBatch, nextUncounted]
      cases pc with
      | drain =>
          refine ⟨stored, inFile, ?_, ?_⟩
          · simp only [flushStep]
            split_ifs with empty
            · rw [RingBuffer.drainNowait_items] at empty
              simpa [FlushPc.batch, empty] using inOrder
            · simpa [FlushPc.batch, RingBuffer.drainNowait_items]
                using inOrder
          · simp only [flushStep]
            split_ifs <;> simpa [FlushPc.uncounted] using counted
      | write packets nonempty =>
          have good := succeed packets outcome writes
          have appended :=
            appends outcome (outcome?_of_writing writes) state.file stored
              packets inFile good
          refine ⟨stored ++ packets, ?_, ?_, ?_⟩
          · rw [flushStep_write_good good]
            exact appended
          · rw [flushStep_write_good good]
            simpa [FlushPc.batch] using inOrder
          · rw [flushStep_write_good good]
            simpa [FlushPc.uncounted] using counted
      | count size =>
          refine ⟨stored, inFile, ?_, ?_⟩
          · simpa [flushStep, FlushPc.batch] using inOrder
          · simpa [flushStep, FlushPc.uncounted] using counted

/-! ## Rejected pushes -/

/-- `dropped_packets()` is the number of pushes that returned false. -/
def Drops (state : State Item File) : Prop :=
  state.dropped = state.returnedFalse

theorem drops_step
    {formatter : Formatter Item File Outcome} {state next : State Item File}
    {action : Action Item Outcome} (drops : Drops state)
    (stepped : step formatter state action = some next) : Drops next := by
  cases step_cases stepped with
  | countDrop => exact congrArg (· + 1) drops
  | writerFlush _ | stopperFlush _ => simpa [Drops] using drops
  | accept _ | reject _ | writerMove _ _ _ | stop _ | stopAgain _
  | notify _ | join _ _ => exact drops

/-! ## The end of `stop` -/

/-- Behind the final drain. -/
def StopPc.Drained : StopPc Item → Prop
  | .flush .drain => False
  | .flush _ => True
  | .returned => True
  | _ => False

/--
No push takes the buffer's lock once `stop` has drained it.  A push behind the
call of `stop` that comes before this drain does no harm.
-/
def NoLatePush (state : State Item File) (action : Action Item Outcome) :
    Prop :=
  ∀ thread packet, action = .push thread packet → ¬ state.stopper.Drained

/-- The buffer stays empty behind the final drain. -/
def Emptied (state : State Item File) : Prop :=
  state.stopper.Drained → state.buffer.contents = []

theorem flushStep_contents
    (formatter : Formatter Item File Outcome) (outcome : Outcome)
    {pc : FlushPc Item} {state : State Item File}
    (emptied : pc ≠ .drain → state.buffer.contents = []) :
    (flushStep formatter outcome pc state).1.buffer.contents = [] := by
  cases pc with
  | drain => exact RingBuffer.drainNowait_contents state.buffer
  | write packets nonempty =>
      have empty : state.buffer.contents = [] := by
        apply emptied
        rintro ⟨⟩
      simp only [flushStep]
      split_ifs <;> exact empty
  | count size =>
      apply emptied
      rintro ⟨⟩

theorem emptied_step
    {formatter : Formatter Item File Outcome} {state next : State Item File}
    {action : Action Item Outcome} (exclusive : Exclusive state)
    (emptied : Emptied state) (punctual : NoLatePush state action)
    (stepped : step formatter state action = some next) : Emptied next := by
  cases step_cases stepped with
  | accept _ =>
      intro drained
      exact absurd drained (punctual _ _ rfl)
  | reject _ | countDrop | writerMove _ _ _ | stopAgain _ => exact emptied
  | writerFlush flushing =>
      intro drained
      rw [flushStep_stopper] at drained
      have exited : state.writer = .exited := by
        apply exclusive.joined
        cases position : state.stopper <;> simp_all [StopPc.Drained] <;> trivial
      rw [exited] at flushing
      cases flushing
  | stop _ | notify _ | join _ _ => rintro ⟨⟩
  | @stopperFlush outcome pc flushing =>
      intro _
      apply flushStep_contents
      intro later
      apply emptied
      rw [flushing]
      cases pc with
      | drain => exact absurd rfl later
      | write _ _ | count _ => trivial

/-! ## What a run pushes -/

/-- The packets that a run pushes, in order. -/
def pushes (actions : List (Action Item Outcome)) : List Item :=
  actions.filterMap fun action =>
    match action with
    | .push _ packet => some packet
    | _ => none

/-- A push finds the buffer with room. -/
def RoomForPush (state : State Item File) (action : Action Item Outcome) :
    Prop :=
  ∀ thread packet, action = .push thread packet →
    state.buffer.count ≠ state.buffer.capacity

/-- With room for every push, the pushed packets are the accepted ones. -/
theorem accepted_run
    {formatter : Formatter Item File Outcome} {capacity : Nat} {file : File}
    {outcome : Outcome} {state final : State Item File}
    {actions : List (Action Item Outcome)}
    (room :
      (machine formatter capacity file outcome).Along RoomForPush state
        actions)
    (ran :
      (machine formatter capacity file outcome).runFrom state actions =
        some final) :
    final.accepted = state.accepted ++ pushes actions := by
  induction actions generalizing state with
  | nil =>
      obtain rfl : state = final := by simpa using ran
      simp [pushes]
  | cons action rest induction =>
      rcases (Machine.runFrom_cons_eq_some _).mp ran
        with ⟨next, stepped, ranOn⟩
      rcases room with ⟨roomHere, roomLater⟩
      rw [induction (roomLater next stepped) ranOn]
      cases step_cases stepped with
      | accept _ => simp [pushes]
      | reject full => exact absurd full (roomHere _ _ rfl)
      | countDrop | writerMove _ _ _ | writerFlush _ | stop _ | stopAgain _
      | notify _ | join _ _ | stopperFlush _ => simp [pushes]

/-- A condition on pushes alone constrains no run without pushes. -/
theorem along_of_no_pushes
    {formatter : Formatter Item File Outcome} {capacity : Nat} {file : File}
    {outcome : Outcome}
    {condition : State Item File → Action Item Outcome → Prop}
    (others :
      ∀ state action, (∀ thread packet, action ≠ .push thread packet) →
        condition state action)
    {state : State Item File} {actions : List (Action Item Outcome)}
    (none : pushes actions = []) :
    (machine formatter capacity file outcome).Along condition state
      actions := by
  apply Machine.along_of_forall_mem
  intro action member state
  apply others
  rintro thread packet rfl
  exact List.filterMap_eq_nil_iff.mp none _ member |> Option.some_ne_none _

/-! ## Runs without a failure -/

section Csv

open AccelObserver.Server.CsvFormatter

/-- A system without a failure lets every write succeed. -/
theorem along_writesSucceed_good
    {separator : Bytes} {capacity : Nat} {file : CsvFile} {io : Io}
    {state : State DataPacket CsvFile} {actions : List (Action DataPacket Io)}
    (good :
      ∀ action ∈ actions, ∀ outcome ∈ action.outcome?, outcome = .good) :
    (machine (csvFormatter separator) capacity file io).Along
      (WritesSucceed (csvFormatter separator)) state actions := by
  apply Machine.along_of_forall_mem
  intro action member state packets outcome writes
  rw [good action member outcome (outcome?_of_writing writes)]
  exact writePackets_good _ _ _

/-- The formatter on a system without a failure. -/
def faultless (separator : Bytes) : Formatter DataPacket CsvFile Unit where
  writeHeader file _ := writeHeader separator file .good
  writePackets file packets _ := writePackets separator file packets .good

theorem faultless_appends (separator : Bytes) :
    (faultless separator).Appends (Holds separator) :=
  fun _ _ _ _ holds good =>
    writePackets_holds Io.good_closesWhole holds good

theorem along_writesSucceed_faultless
    (separator : Bytes) (capacity : Nat) (file : CsvFile)
    (state : State DataPacket CsvFile)
    (actions : List (Action DataPacket Unit)) :
    (machine (faultless separator) capacity file ()).Along
      (WritesSucceed (faultless separator)) state actions :=
  Machine.along_of_forall_mem _ _ fun _ _ state packets _ _ =>
    writePackets_good separator state.file packets

end Csv

/-! ## Exactly once, in order -/

/-- What holds in every state of a run whose writes succeed. -/
structure Ordered (Holds : File → List Item → Prop)
    (state : State Item File) : Prop where
  exclusive : Exclusive state
  stored : Stored Holds state
  drops : Drops state

theorem exclusive_start
    (formatter : Formatter Item File Outcome) (capacity : Nat)
    (file : File) (outcome : Outcome) :
    Exclusive (start formatter capacity file outcome) :=
  ⟨nofun, fun _ => rfl⟩

theorem ordered_start
    {formatter : Formatter Item File Outcome}
    {Holds : File → List Item → Prop} (capacity : Nat)
    {file : File} {outcome : Outcome}
    (opened : Holds (formatter.writeHeader file outcome).1 []) :
    Ordered Holds (start formatter capacity file outcome) :=
  { exclusive := exclusive_start formatter capacity file outcome
    stored := ⟨[], opened, rfl, rfl⟩
    drops := rfl }

theorem ordered_step
    {formatter : Formatter Item File Outcome}
    {Holds : File → List Item → Prop}
    {state next : State Item File} {action : Action Item Outcome}
    (appends : AppendsIn formatter Holds action) (ordered : Ordered Holds state)
    (succeed : WritesSucceed formatter state action)
    (stepped : step formatter state action = some next) :
    Ordered Holds next :=
  { exclusive := exclusive_step ordered.exclusive stepped
    stored :=
      stored_step appends ordered.exclusive ordered.stored succeed stepped
    drops := drops_step ordered.drops stepped }

/-- With `stop` behind it and its buffer empty, everything is in the file. -/
theorem stored_of_returned
    {Holds : File → List Item → Prop} {state : State Item File}
    (ordered : Ordered Holds state) (returned : state.stopper = .returned)
    (empty : state.buffer.contents = []) :
    Holds state.file state.accepted ∧
      state.written = state.accepted.length := by
  have exited : state.writer = .exited := by
    apply ordered.exclusive.joined
    rw [returned]
    trivial
  have quiet : state.flush? = none := by
    rw [State.flush?, exited, returned]
    rfl
  rcases batch_of_flush? quiet with ⟨batch, uncounted⟩
  rcases ordered.stored with ⟨stored, inFile, inOrder, counted⟩
  simp only [batch, empty, Option.elim_none, List.append_nil] at inOrder
  simp only [uncounted, Option.elim_none, Nat.add_zero] at counted
  exact ⟨inOrder ▸ inFile, inOrder ▸ counted⟩

/-- The invariant along a run whose writes succeed. -/
theorem ordered_run
    {formatter : Formatter Item File Outcome}
    {Holds : File → List Item → Prop}
    {capacity : Nat} {file : File} {outcome : Outcome}
    (opened : Holds (formatter.writeHeader file outcome).1 [])
    {actions : List (Action Item Outcome)} {final : State Item File}
    (ran : (machine formatter capacity file outcome).run actions = some final)
    (appends : ∀ action ∈ actions, AppendsIn formatter Holds action)
    (succeed :
      (machine formatter capacity file outcome).Along
        (WritesSucceed formatter)
        (start formatter capacity file outcome) actions) :
    Ordered Holds final :=
  (machine formatter capacity file outcome).runFrom_invariant
    (fun _ _ _ ordered (good : _ ∧ _) stepped =>
      ordered_step good.1 ordered good.2 stepped)
    (ordered_start capacity opened)
    (Machine.along_and _
      (Machine.along_of_forall_mem _ _ fun action member _ =>
        appends action member)
      succeed)
    ran

/-- The buffer is empty behind a `stop` that no late push follows. -/
theorem emptied_run
    {formatter : Formatter Item File Outcome}
    {capacity : Nat} {file : File} {outcome : Outcome}
    {actions : List (Action Item Outcome)} {final : State Item File}
    (ran : (machine formatter capacity file outcome).run actions = some final)
    (punctual :
      (machine formatter capacity file outcome).Along NoLatePush
        (start formatter capacity file outcome) actions) :
    Emptied final := by
  have preserved :
      ∀ (state : State Item File) (action : Action Item Outcome) next,
        Exclusive state ∧ Emptied state → NoLatePush state action →
          step formatter state action = some next →
            Exclusive next ∧ Emptied next := by
    rintro state action next ⟨exclusive, emptied⟩ inTime stepped
    exact ⟨exclusive_step exclusive stepped,
      emptied_step exclusive emptied inTime stepped⟩
  have initially :
      Exclusive (start formatter capacity file outcome) ∧
        Emptied (start formatter capacity file outcome) :=
    ⟨exclusive_start formatter capacity file outcome, nofun⟩
  exact ((machine formatter capacity file outcome).runFrom_invariant
    preserved initially punctual ran).2

/--
Along every run whose writes succeed, the file, the batch and the buffer hold
the accepted packets in order, and the drop counter counts the rejected
pushes; and `stop` leaves nothing in the buffer and everything counted.
-/
theorem exactly_once
    (formatter : Formatter Item File Outcome)
    (Holds : File → List Item → Prop) (appends : formatter.Appends Holds)
    (capacity : Nat) (file : File) (outcome : Outcome)
    (opened : Holds (formatter.writeHeader file outcome).1 [])
    (actions : List (Action Item Outcome)) (final : State Item File)
    (ran : (machine formatter capacity file outcome).run actions = some final)
    (succeed :
      (machine formatter capacity file outcome).Along
        (WritesSucceed formatter)
        (start formatter capacity file outcome) actions) :
    (∃ stored, Holds final.file stored ∧
        stored ++ final.batch ++ final.buffer.contents = final.accepted) ∧
      final.dropped = final.returnedFalse ∧
      ((machine formatter capacity file outcome).Along NoLatePush
          (start formatter capacity file outcome) actions →
        final.stopper = .returned →
          final.buffer.contents = [] ∧
            final.written = final.accepted.length) := by
  have ordered :=
    ordered_run opened ran (fun _ _ outcome _ => appends.on outcome) succeed
  rcases ordered.stored with ⟨stored, inFile, inOrder, _⟩
  refine ⟨⟨stored, inFile, inOrder⟩, ordered.drops, ?_⟩
  intro punctual returned
  have empty : final.buffer.contents = [] := by
    apply emptied_run ran punctual
    rw [returned]
    trivial
  exact ⟨empty, (stored_of_returned ordered returned empty).2⟩

section Csv

open AccelObserver.Server.CsvFormatter

/-- One of two pushes finds the buffer full; the writer stores the other on
its way out. -/
def shortRun : List (Action DataPacket Unit) :=
  [.push 0 .zero, .push 1 .zero, .writer (), .countDrop 1, .stop,
    .stopper (), .writer (), .writer (), .writer (),
    .writer (), .writer (), .stopper (), .stopper ()]

theorem shortRun_punctual :
    (machine (faultless (ascii ";")) 1 .fresh ()).Along NoLatePush
      (start (faultless (ascii ";")) 1 .fresh ()) shortRun := by
  refine ⟨fun _ _ _ => id, fun next stepped => ⟨fun _ _ _ => ?_, ?_⟩⟩
  · rw [← Option.some.inj stepped]
    exact id
  · intro next _
    exact along_of_no_pushes
      (fun _ _ other _ _ equal => absurd equal (other _ _)) rfl

/-- `stop` has returned. -/
def State.hasStopped {Item File : Type} (state : State Item File) : Bool :=
  match state.stopper with
  | .returned => true
  | .idle | .notify | .join | .flush _ => false

theorem exists_of_hasStopped
    {ran : Option (State DataPacket CsvFile)}
    (ended : ran.any State.hasStopped = true) :
    ∃ final, ran = some final ∧ final.stopper = .returned := by
  rcases Option.any_eq_true_iff_get .. |>.mp ended with ⟨isSome, stopped⟩
  refine ⟨ran.get isSome, (Option.some_get isSome).symm, ?_⟩
  unfold State.hasStopped at stopped
  split at stopped
  · next returned => exact returned
  all_goals cases stopped

theorem shortRun_stops :
    ((machine (faultless (ascii ";")) 1 .fresh ()).run shortRun).any
      State.hasStopped = true := by
  decide +kernel

theorem exactly_once_shortRun :
    ∃ final,
      (machine (faultless (ascii ";")) 1 .fresh ()).run shortRun =
          some final ∧
        final.buffer.contents = [] ∧
        final.written = final.accepted.length := by
  rcases exists_of_hasStopped shortRun_stops with ⟨final, ran, returned⟩
  have opened :=
    @writeHeader_fresh (ascii ";") _ Io.good_closesWhole
      (by rw [writeHeader_good]; rfl)
  exact ⟨final, ran,
    (exactly_once (faultless (ascii ";")) (Holds (ascii ";"))
      (faultless_appends _) 1 .fresh () opened shortRun final ran
      (along_writesSucceed_faultless _ _ _ _ _)).2.2 shortRun_punctual
      returned⟩

end Csv

/-! ## The books -/

/-- Every accepted packet is written, lost, on its way or in the buffer. -/
def Accounted (state : State Item File) : Prop :=
  state.accepted.length =
    state.written + state.uncounted + state.lost + state.batch.length +
      state.buffer.contents.length

/-- A failed write is the only step that loses packets. -/
theorem accounted_step
    {formatter : Formatter Item File Outcome} {state next : State Item File}
    {action : Action Item Outcome} (exclusive : Exclusive state)
    (accounted : Accounted state)
    (stepped : step formatter state action = some next) :
    Accounted next ∧ state.lost ≤ next.lost ∧
      (next.lost = state.lost ↔ WritesSucceed formatter state action) := by
  cases ledger_cases exclusive stepped with
  | accept packet room entry batch uncounted writes =>
      simp only [State.ledger, Ledger.mk.injEq] at entry
      rcases entry with ⟨buffer, _, written, accepted, lost⟩
      refine ⟨?_, lost.ge, ?_⟩
      · rw [Accounted] at accounted ⊢
        rw [buffer, written, accepted, lost, batch, uncounted,
          (RingBuffer.tryPush_room room packet).2, List.length_append,
          List.length_append, accounted, Nat.add_assoc]
      · simp [lost, WritesSucceed, writes]
  | keep entry batch uncounted writes =>
      rcases ledger_fields entry with ⟨buffer, _, written, accepted, lost⟩
      refine ⟨?_, lost.ge, ?_⟩
      · rw [Accounted, buffer, written, accepted, lost, batch, uncounted]
        exact accounted
      · simp [lost, WritesSucceed, writes]
  | flush outcome pc flushing entry more writes =>
      rcases batch_of_flush? flushing with ⟨batch, uncounted⟩
      rcases batch_of_flush? more with ⟨nextBatch, nextUncounted⟩
      rcases ledger_fields entry with ⟨buffer, _, written, accepted, lost⟩
      rw [Accounted, batch, uncounted] at accounted
      rw [Accounted, buffer, written, accepted, lost, nextBatch,
        nextUncounted, flushStep_accepted, WritesSucceed, writes]
      cases pc with
      | drain =>
          refine ⟨?_, Nat.le_refl _, by simp [flushStep, FlushPc.writing]⟩
          simp only [flushStep]
          split_ifs with empty
          · rw [RingBuffer.drainNowait_items] at empty
            simpa [FlushPc.batch, FlushPc.uncounted, empty] using accounted
          · simpa [FlushPc.batch, FlushPc.uncounted,
              RingBuffer.drainNowait_items] using accounted
      | write packets nonempty =>
          simp only [FlushPc.writing, Option.some.injEq, Prod.mk.injEq,
            and_imp, forall_eq', forall_apply_eq_imp_iff]
          simp only [Option.elim_some, FlushPc.batch, FlushPc.uncounted]
            at accounted
          cases good :
              (formatter.writePackets state.file packets outcome).2 with
          | true =>
              rw [flushStep_write_good good]
              refine ⟨?_, Nat.le_refl _, by simp⟩
              simp only [Option.elim_some, FlushPc.batch, FlushPc.uncounted,
                List.length_nil]
              omega
          | false =>
              rw [flushStep_write_bad good]
              refine ⟨?_, Nat.le_add_right _ _, by simp [nonempty]⟩
              simp only [Option.elim_none, List.length_nil]
              omega
      | count size =>
          refine ⟨?_, Nat.le_refl _, by simp [flushStep, FlushPc.writing]⟩
          simpa [flushStep, FlushPc.batch, FlushPc.uncounted] using accounted

/-- From any state on, nothing is lost exactly while every write succeeds. -/
theorem accounted_run
    {formatter : Formatter Item File Outcome} {capacity : Nat} {file : File}
    {outcome : Outcome} {state final : State Item File}
    {actions : List (Action Item Outcome)} (exclusive : Exclusive state)
    (accounted : Accounted state)
    (ran :
      (machine formatter capacity file outcome).runFrom state actions =
        some final) :
    Accounted final ∧ state.lost ≤ final.lost ∧
      (final.lost = state.lost ↔
        (machine formatter capacity file outcome).Along
          (WritesSucceed formatter) state actions) := by
  induction actions generalizing state with
  | nil =>
      obtain rfl : state = final := by simpa using ran
      exact ⟨accounted, Nat.le_refl _, iff_of_true rfl trivial⟩
  | cons action rest induction =>
      rcases (Machine.runFrom_cons_eq_some _).mp ran
        with ⟨next, stepped, ranOn⟩
      rcases accounted_step exclusive accounted stepped
        with ⟨nextAccounted, here, hereIff⟩
      rcases induction (exclusive_step exclusive stepped) nextAccounted ranOn
        with ⟨finalAccounted, later, laterIff⟩
      refine ⟨finalAccounted, here.trans later, ?_⟩
      constructor
      · intro none
        have keptHere : next.lost = state.lost :=
          Nat.le_antisymm (none ▸ later) here
        have keptLater : final.lost = next.lost := none.trans keptHere.symm
        refine ⟨hereIff.mp keptHere, fun other steppedOther => ?_⟩
        obtain rfl : next = other :=
          Option.some.inj (stepped.symm.trans steppedOther)
        exact laterIff.mp keptLater
      · rintro ⟨succeedsHere, succeedsLater⟩
        rw [laterIff.mpr (succeedsLater next stepped),
          hereIff.mpr succeedsHere]

/-- The calls of `push` that have returned. -/
def State.pushCalls (state : State Item File) : Nat :=
  state.accepted.length + state.returnedFalse

/-- The counters and the buffer account for every call of `push`. -/
def Balanced (state : State Item File) : Prop :=
  state.pushCalls = state.dropped + state.written + state.buffer.count

theorem drops_run
    {formatter : Formatter Item File Outcome} {capacity : Nat} {file : File}
    {outcome : Outcome} {actions : List (Action Item Outcome)}
    {final : State Item File}
    (ran :
      (machine formatter capacity file outcome).run actions = some final) :
    Drops final := by
  have preserved :
      ∀ (state : State Item File) (action : Action Item Outcome) next,
        Drops state → step formatter state action = some next →
          Drops next := by
    intro state action next drops stepped
    exact drops_step drops stepped
  have initially : Drops (start formatter capacity file outcome) := rfl
  exact (machine formatter capacity file outcome).run_invariant initially
    preserved ran

/--
Between flushes the books balance exactly in the runs in which no write has
failed.
-/
theorem balanced_iff
    (formatter : Formatter Item File Outcome) (capacity : Nat) (file : File)
    (outcome : Outcome) (actions : List (Action Item Outcome))
    (final : State Item File)
    (ran : (machine formatter capacity file outcome).run actions = some final)
    (quiet : final.flush? = none) :
    Balanced final ↔
      (machine formatter capacity file outcome).Along
        (WritesSucceed formatter)
        (start formatter capacity file outcome) actions := by
  have exclusive := exclusive_start formatter capacity file outcome
  have accounted : Accounted (start formatter capacity file outcome) := rfl
  rcases accounted_run exclusive accounted ran with ⟨atEnd, _, lostIff⟩
  have drops : final.dropped = final.returnedFalse := drops_run ran
  rcases batch_of_flush? quiet with ⟨batch, uncounted⟩
  rw [Accounted, batch, uncounted, RingBuffer.contents_length] at atEnd
  simp only [Option.elim_none, List.length_nil] at atEnd
  rw [← lostIff, Balanced, State.pushCalls, drops]
  change _ ↔ final.lost = 0
  omega

section Csv

open AccelObserver.Server.CsvFormatter

/-- The file does not open for the only batch. -/
def failingRun : List (Action DataPacket Io) :=
  [.push 0 .zero, .writer .good, .writer .good, .writer .good,
    .writer { Io.good with appendOpens := false }]

/-- Between flushes, with books that do not balance. -/
def State.isUnbalanced {Item File : Type} (state : State Item File) : Bool :=
  state.flush?.isNone &&
    state.pushCalls != state.dropped + state.written + state.buffer.count

theorem exists_of_isUnbalanced
    {ran : Option (State DataPacket CsvFile)}
    (ended : ran.any State.isUnbalanced = true) :
    ∃ final, ran = some final ∧ final.flush? = none ∧ ¬ Balanced final := by
  rcases Option.any_eq_true_iff_get .. |>.mp ended with ⟨isSome, unbalanced⟩
  rw [State.isUnbalanced, Bool.and_eq_true, Option.isNone_iff_eq_none,
    bne_iff_ne] at unbalanced
  exact ⟨ran.get isSome, (Option.some_get isSome).symm, unbalanced⟩

theorem failingRun_ends :
    ((machine (csvFormatter (ascii ";")) 4 .fresh .good).run failingRun).any
      State.isUnbalanced = true := by
  decide +kernel

/-- The packet of the failed batch is in no counter and not in the buffer. -/
theorem failingRun_unbalanced :
    ∃ final,
      (machine (csvFormatter (ascii ";")) 4 .fresh .good).run failingRun =
          some final ∧
        final.flush? = none ∧ ¬ Balanced final :=
  exists_of_isUnbalanced failingRun_ends

theorem balanced_iff_failingRun :
    ∃ final,
      (machine (csvFormatter (ascii ";")) 4 .fresh .good).run failingRun =
          some final ∧
        (Balanced final ↔
          (machine (csvFormatter (ascii ";")) 4 .fresh .good).Along
            (WritesSucceed (csvFormatter (ascii ";")))
            (start (csvFormatter (ascii ";")) 4 .fresh .good) failingRun) := by
  rcases exists_of_isUnbalanced failingRun_ends with ⟨final, ran, quiet, -⟩
  exact ⟨final, ran,
    balanced_iff (csvFormatter (ascii ";")) 4 .fresh .good failingRun final
      ran quiet⟩

end Csv

end AccelObserver.Server.StorageManager
