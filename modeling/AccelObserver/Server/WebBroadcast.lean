import AccelObserver.Server.WebClientList

/-!
# The targets of a broadcast

`ws_broadcast` works on a copy of the client list outside the mutex.  The copy
holds descriptor numbers, and a number means another connection once its owner
has closed it and a later `accept` has been given it.  As long as `accept`
returns no number that a broadcast has still to send to or to remove, the bytes
go to the connections of the copy and a removal hits the connection on which
the send failed.  Nothing in the interface sees to that: `reusedRun` is a run
in which the bytes go to a connection that has not even been read from.
-/

namespace AccelObserver.Server.WebClients

open AccelObserver.Library

/-! ## The contract -/

/-- A removal hits nobody, or the connection on which the send failed. -/
def Removal.Own (removal : Removal) : Prop :=
  removal.connection = none ∨ removal.connection = removal.failed

/-- Broadcasts touch only the open connections of their snapshots. -/
structure TouchesOwn (state : State) : Prop where
  sends : ∀ sent ∈ state.sends,
    some sent.connection ∈ sent.snapshot.map Target.connection ∧
      sent.closed = false
  erasures : ∀ removal ∈ state.erasures, removal.Own
  shutdowns : ∀ removal ∈ state.shutdowns, removal.Own

/-- What a broadcast has still to send to. -/
def BroadcastPc.todo : BroadcastPc → List Target
  | .sending todo _ _ => todo
  | _ => []

/-- What a broadcast has found dead and has still to remove or shut down. -/
def BroadcastPc.dead : BroadcastPc → List Target
  | .idle => []
  | .sending _ _ dead | .lock dead | .erase dead => dead
  | .shut target dead => target :: dead

/-- What a broadcast has still to send to, to remove or to shut down. -/
def BroadcastPc.pending (pc : BroadcastPc) : List Target :=
  pc.todo ++ pc.dead

/-- `accept` is not given a number that a broadcast still has pending. -/
def FreshDescriptor (state : State) (action : Action) : Prop :=
  ∀ fd, action = .accept fd → ∀ caller,
    ∀ target ∈ (state.broadcasters caller).pc.pending, target.fd ≠ fd

/-! ## Targets that still mean what they meant -/

/-- The number of a target is free, or still that of its connection. -/
def Target.Current (owner : Nat → Option Nat) (target : Target) : Prop :=
  owner target.fd = none ∨ owner target.fd = target.connection

/-- A broadcast that no reuse has reached. -/
structure Broadcaster.Steady
    (owner : Nat → Option Nat) (broadcaster : Broadcaster) : Prop where
  current : ∀ target ∈ broadcaster.pc.pending, target.Current owner
  todo : ∀ target ∈ broadcaster.pc.todo, target ∈ broadcaster.snapshot

structure Steady (state : State) : Prop where
  broadcasters : ∀ caller, (state.broadcasters caller).Steady state.owner
  touches : TouchesOwn state

/-- A step frees descriptors, or opens the one that `accept` returned. -/
theorem RegistryCase.owner
    {action : Action} {before after : Registry}
    (change : RegistryCase action before after) {fd : Nat}
    (other : action ≠ .accept fd) :
    after.owner fd = before.owner fd ∨ after.owner fd = none := by
  cases change with
  | keep same => exact .inl (same ▸ rfl)
  | accept taken named _ entry =>
      have apart : fd ≠ taken := by
        rintro rfl
        exact other named
      subst entry
      exact .inl (Function.update_of_ne apart _ _)
  | move _ _ _ entry | register _ _ entry | unregister _ _ entry
  | shrink _ _ entry => exact .inl (entry ▸ rfl)
  | close thread _ entry =>
      subst entry
      by_cases here : fd = (before.handlers thread).fd
      · exact .inr (by simp [here])
      · exact .inl (Function.update_of_ne here _ _)

/-- A broadcast stays steady while the other threads move. -/
theorem Broadcaster.Steady.step
    {state next : State} {action : Action}
    (fresh : FreshDescriptor state action)
    (stepped : step state action = some next) {caller : Nat}
    (steady : (state.broadcasters caller).Steady state.owner) :
    (state.broadcasters caller).Steady next.owner := by
  refine ⟨?_, steady.todo⟩
  intro target member
  have other : action ≠ .accept target.fd := by
    intro named
    exact fresh target.fd named caller target member rfl
  have change : next.owner target.fd = state.owner target.fd ∨
      next.owner target.fd = none :=
    (registry_cases stepped).owner other
  rcases change with same | free
  · rw [Target.Current, same]
    exact steady.current target member
  · exact .inl free

/-! ## Steps of the other threads -/

/-- The part of a state that broadcasts keep, with their history. -/
structure Broadcasts where
  broadcasters : Nat → Broadcaster
  sends : List Sent
  erasures : List Removal
  shutdowns : List Removal

def State.broadcasts (state : State) : Broadcasts :=
  { broadcasters := state.broadcasters
    sends := state.sends
    erasures := state.erasures
    shutdowns := state.shutdowns }

/-- The thread whose broadcast takes the step, if one does. -/
def Action.caller : Action → Option Nat
  | .broadcast caller _ | .send caller _ | .remove caller => some caller
  | _ => none

theorem broadcasts_frame
    {state next : State} {action : Action} (quiet : action.caller = none)
    (stepped : step state action = some next) :
    next.broadcasts = state.broadcasts := by
  cases action with
  | acceptTest | acceptFail | stop | accept | respond | register | leave
  | unregister | close =>
      simp only [step, acceptStep, respondStep, registerStep, leaveStep,
        unregisterStep, closeStep, stopStep] at stepped
      split at stepped <;> cases stepped <;> rfl
  | request thread request =>
      simp only [step, requestStep] at stepped
      split at stepped
      · cases request <;> cases stepped <;> rfl
      · cases stepped
  | upgrade thread good =>
      simp only [step, upgradeStep] at stepped
      split at stepped
      · cases good <;> cases stepped <;> rfl
      · cases stepped
  | stopper =>
      simp only [step, stopperStep] at stepped
      split at stepped
      · cases stepped
      · cases stepped
        rfl
      · split at stepped <;> cases stepped
        rfl
      · split at stepped <;> cases stepped
        rfl
      · cases stepped
        rfl
      · cases stepped
  | broadcast | send | remove => cases quiet

theorem Steady.quiet
    {state next : State} {action : Action} (steady : Steady state)
    (fresh : FreshDescriptor state action) (quiet : action.caller = none)
    (stepped : step state action = some next) :
    Steady next := by
  have frame := broadcasts_frame quiet stepped
  simp only [State.broadcasts, Broadcasts.mk.injEq] at frame
  rcases frame with ⟨broadcasters, sends, erasures, shutdowns⟩
  constructor
  · intro caller
    rw [broadcasters]
    exact (steady.broadcasters caller).step fresh stepped
  · exact
      { sends := sends ▸ steady.touches.sends
        erasures := erasures ▸ steady.touches.erasures
        shutdowns := shutdowns ▸ steady.touches.shutdowns }

/-! ## Steps of a broadcast -/

/-- A broadcasting thread moves, and the others stay where they are. -/
theorem Steady.moveBroadcaster
    {state : State} (steady : Steady state) {caller : Nat} {pc : BroadcastPc}
    (current : ∀ target ∈ pc.pending, target.Current state.owner)
    (todo : ∀ target ∈ pc.todo,
      target ∈ (state.broadcasters caller).snapshot) :
    Steady (state.moveBroadcaster caller pc) := by
  refine ⟨?_, steady.touches.sends, steady.touches.erasures,
    steady.touches.shutdowns⟩
  intro other
  by_cases same : other = caller
  · subst same
    simpa [State.moveBroadcaster] using
      (⟨current, todo⟩ :
        Broadcaster.Steady state.owner
          { state.broadcasters other with pc := pc })
  · simpa [State.moveBroadcaster, same] using steady.broadcasters other

/-- Every member of a snapshot is current when the snapshot is taken. -/
theorem broadcastStep_steady
    {caller : Nat} {json : Bytes} {state next : State} (steady : Steady state)
    (stepped : broadcastStep caller json state = some next) :
    Steady next := by
  unfold broadcastStep at stepped
  split at stepped
  · cases stepped
    refine ⟨?_, steady.touches.sends, steady.touches.erasures,
      steady.touches.shutdowns⟩
    intro other
    by_cases same : other = caller
    · subst same
      constructor
      · intro target member
        simp only [Function.update_self, BroadcastPc.pending, BroadcastPc.todo,
          BroadcastPc.dead, List.append_nil, List.mem_map] at member
        rcases member with ⟨fd, _, rfl⟩
        exact .inr rfl
      · intro target member
        simpa [BroadcastPc.todo] using member
    · simpa [same] using steady.broadcasters other
  · cases stepped

/-- An open connection has not been closed. -/
theorem Owned.not_closed
    {registry : Registry} (owned : Owned registry) {fd thread : Nat}
    (owner : registry.owner fd = some thread) :
    some thread ∉ registry.closings.map Closing.connection := by
  intro member
  rcases List.mem_map.mp member with ⟨closing, past, connection⟩
  have live := ((owned.owns fd thread).mp owner).1
  have none := owned.closed_connection thread
  rw [if_neg live.2, List.filter_eq_nil_iff] at none
  exact none closing past (decide_eq_true connection)

/-- The connection that has the number of a pending target is the one meant. -/
theorem Target.Current.meant
    {owner : Nat → Option Nat} {target : Target} {connection : Nat}
    (current : target.Current owner)
    (owned : owner target.fd = some connection) :
    target.connection = some connection := by
  rcases current with free | same
  · rw [owned] at free
    cases free
  · rw [← same, owned]

/-- The first target is found dead, on the connection that it has now. -/
theorem Steady.markDead
    {state : State} (steady : Steady state) {caller left : Nat}
    {target : Target} {todo dead : List Target}
    (sending :
      (state.broadcasters caller).pc = .sending (target :: todo) left dead)
    {connection : Option Nat} (owner : state.owner target.fd = connection)
    (size : Nat) :
    Steady
      (state.moveBroadcaster caller
        (.sending todo size
          (dead ++ [{ fd := target.fd, connection := connection }]))) := by
  rcases steady.broadcasters caller with ⟨current, members⟩
  rw [sending] at current members
  apply steady.moveBroadcaster
  · intro other member
    rw [BroadcastPc.pending, BroadcastPc.todo, BroadcastPc.dead,
      ← List.append_assoc] at member
    rcases List.mem_append.mp member with before | here
    · exact current other (.tail _ before)
    · rw [List.mem_singleton] at here
      subst here
      exact .inr owner
  · intro other member
    exact members other (.tail _ member)

/-- Bytes go to the first target, and it may stay the first. -/
theorem Steady.sendTo
    {state : State} (steady : Steady state) {caller left : Nat}
    {target : Target} {todo dead : List Target}
    (sending :
      (state.broadcasters caller).pc = .sending (target :: todo) left dead)
    {pc : BroadcastPc}
    (goesOn :
      (∃ size, pc = .sending todo size dead) ∨
        ∃ more, pc = .sending (target :: todo) more dead)
    {sent : Sent} (meant : target.connection = some sent.connection)
    (snapshot : sent.snapshot = (state.broadcasters caller).snapshot)
    (stillOpen : sent.closed = false) :
    Steady
      { state.moveBroadcaster caller pc with
        sends := state.sends ++ [sent] } := by
  rcases steady.broadcasters caller with ⟨current, members⟩
  rw [sending] at current members
  have moved : Steady (state.moveBroadcaster caller pc) := by
    rcases goesOn with ⟨size, rfl⟩ | ⟨more, rfl⟩
    · exact steady.moveBroadcaster
        (fun other member => current other (.tail _ member))
        (fun other member => members other (.tail _ member))
    · exact steady.moveBroadcaster current members
  refine ⟨moved.broadcasters, ?_, moved.touches.erasures,
    moved.touches.shutdowns⟩
  intro other member
  rcases List.mem_append.mp member with before | here
  · exact steady.touches.sends other before
  · rw [List.mem_singleton] at here
    subst here
    rw [snapshot]
    exact ⟨List.mem_map.mpr ⟨target, members target (.head _), meant⟩,
      stillOpen⟩

theorem sendStep_steady
    {caller count : Nat} {state next : State} (steady : Steady state)
    (owned : Owned state.registry)
    (stepped : sendStep caller count state = some next) :
    Steady next := by
  have current := (steady.broadcasters caller).current
  unfold sendStep at stepped
  dsimp only at stepped
  split at stepped
  · cases stepped
    exact steady.moveBroadcaster nofun nofun
  · rename_i dead _ atEnd
    cases stepped
    rw [atEnd] at current
    exact steady.moveBroadcaster current nofun
  · rename_i target todo left dead sending
    rw [sending] at current
    split at stepped
    · rename_i closed
      cases stepped
      exact steady.markDead sending closed _
    · rename_i connection owner
      split at stepped
      · cases stepped
        exact steady.markDead sending owner _
      · split at stepped
        · cases stepped
        · cases stepped
          refine steady.sendTo sending ?_
            ((current target (.head _)).meant owner) rfl
            (decide_eq_false (owned.not_closed owner))
          split
          · exact .inl ⟨_, rfl⟩
          · exact .inr ⟨_, rfl⟩
  · cases stepped

/-- What is pending stays pending until it has been shut down. -/
theorem removeStep_steady
    {caller : Nat} {state next : State} (steady : Steady state)
    (stepped : removeStep caller state = some next) :
    Steady next := by
  have current := (steady.broadcasters caller).current
  unfold removeStep at stepped
  split at stepped
  · rename_i dead locking
    rw [locking] at current
    split at stepped <;> cases stepped
    have moved : Steady (state.moveBroadcaster caller (.erase dead)) :=
      steady.moveBroadcaster current nofun
    exact ⟨moved.broadcasters, moved.touches.sends, moved.touches.erasures,
      moved.touches.shutdowns⟩
  · cases stepped
    have moved : Steady (state.moveBroadcaster caller .idle) :=
      steady.moveBroadcaster nofun nofun
    exact ⟨moved.broadcasters, moved.touches.sends, moved.touches.erasures,
      moved.touches.shutdowns⟩
  · rename_i target dead erasing
    rw [erasing] at current
    cases stepped
    have moved : Steady (state.moveBroadcaster caller (.shut target dead)) :=
      steady.moveBroadcaster current nofun
    refine ⟨moved.broadcasters, moved.touches.sends, ?_,
      moved.touches.shutdowns⟩
    intro removal member
    rcases List.mem_append.mp member with before | here
    · exact steady.touches.erasures removal before
    · rw [List.mem_singleton] at here
      subst here
      by_cases listed : target.fd ∈ state.clientFds
      · simpa [Removal.Own, listed, Target.Current] using
          current target (.head _)
      · exact .inl (if_neg listed)
  · rename_i target dead shutting
    rw [shutting] at current
    cases stepped
    have moved : Steady (state.moveBroadcaster caller (.erase dead)) :=
      steady.moveBroadcaster
        (fun other member => current other (.tail _ member)) nofun
    refine ⟨moved.broadcasters, moved.touches.sends, moved.touches.erasures,
      ?_⟩
    intro removal member
    rcases List.mem_append.mp member with before | here
    · exact steady.touches.shutdowns removal before
    · rw [List.mem_singleton] at here
      subst here
      exact current target (.head _)
  · cases stepped

/-! ## Runs -/

theorem Steady.step
    {state next : State} {action : Action} (steady : Steady state)
    (owned : Owned state.registry) (fresh : FreshDescriptor state action)
    (stepped : step state action = some next) :
    Steady next := by
  cases quiet : action.caller with
  | none => exact steady.quiet fresh quiet stepped
  | some caller =>
      cases action with
      | broadcast => exact broadcastStep_steady steady stepped
      | send => exact sendStep_steady steady owned stepped
      | remove => exact removeStep_steady steady stepped
      | _ => cases quiet

theorem steady_initial : Steady machine.initial where
  broadcasters _ := ⟨nofun, nofun⟩
  touches := ⟨nofun, nofun, nofun⟩

/--
As long as `accept` is given no number that a broadcast has still pending,
every byte of a broadcast goes to a connection of its snapshot that has not
been closed, and every removal hits the connection on which the send failed.
-/
theorem touchesOwn_run
    (actions : List Action) (state : State)
    (fresh : machine.Along FreshDescriptor machine.initial actions)
    (ran : machine.run actions = some state) :
    TouchesOwn state := by
  have preserved :
      ∀ (state : State) (action : Action) (next : State),
        (Owned state.registry ∧ Steady state) →
          FreshDescriptor state action →
            machine.step state action = some next →
              Owned next.registry ∧ Steady next := by
    rintro state action next ⟨owned, steady⟩ fresh stepped
    exact ⟨owned.step (registry_cases stepped),
      steady.step owned fresh stepped⟩
  have final :=
    machine.runFrom_invariant preserved ⟨owned_initial, steady_initial⟩
      fresh ran
  exact final.2.touches

/-- A client is reached by one broadcast and found dead by the next; its
number is given out again behind the removal. -/
def orderlyRun : List Action :=
  [.acceptTest, .accept 5, .request 0 .upgrade, .upgrade 0 true, .register 0,
    .broadcast 0 (ascii "a"), .send 0 3, .send 0 0,
    .broadcast 0 (ascii "a"), .send 0 0, .send 0 0,
    .remove 0, .remove 0, .remove 0, .remove 0, .leave 0, .unregister 0,
    .close 0, .acceptTest, .accept 5]

/-- Nothing is pending at either `accept`. -/
theorem orderlyRun_fresh :
    machine.Along FreshDescriptor machine.initial orderlyRun := by
  refine machine.along_cons rfl (by rintro fd ⟨⟩) ?_
  refine machine.along_cons rfl (by rintro fd ⟨⟩ caller target ⟨⟩) ?_
  iterate 17 refine machine.along_cons rfl (by rintro fd ⟨⟩) ?_
  refine ⟨?_, fun _ _ => trivial⟩
  rintro fd ⟨⟩ caller target member
  by_cases first : caller = 0
  · subst first
    cases member
  · simp [machine, first, BroadcastPc.pending, BroadcastPc.todo,
      BroadcastPc.dead, State.moveBroadcaster, State.move] at member

theorem touchesOwn_run_orderlyRun :
    ∃ state, machine.run orderlyRun = some state ∧ TouchesOwn state :=
  ⟨_, rfl, touchesOwn_run orderlyRun _ orderlyRun_fresh rfl⟩

/-- The client leaves and its number is given out again between the snapshot
and the `send` of a broadcast. -/
def reusedRun : List Action :=
  [.acceptTest, .accept 5, .request 0 .upgrade, .upgrade 0 true, .register 0,
    .acceptTest, .broadcast 0 (ascii "a"), .leave 0, .unregister 0, .close 0,
    .accept 5, .send 0 3]

/-- The bytes go to the new connection. -/
theorem reusedRun_not_touchesOwn :
    ∃ state, machine.run reusedRun = some state ∧ ¬ TouchesOwn state := by
  refine ⟨_, rfl, ?_⟩
  rintro ⟨sends, _, _⟩
  rcases List.mem_map.mp (sends _ (.head _)).1 with ⟨target, member, meant⟩
  rw [List.mem_singleton.mp member] at meant
  cases meant

/-- The number is given out again between a failed `send` and the removal, and
the new connection is dropped from the list and shut down. -/
example :
    (machine.run
      [.acceptTest, .accept 5, .request 0 .upgrade, .upgrade 0 true,
        .register 0, .acceptTest, .broadcast 0 (ascii "a"), .send 0 0, .send 0 0,
        .leave 0, .unregister 0, .close 0, .accept 5, .request 1 .upgrade,
        .upgrade 1 true, .register 1, .remove 0, .remove 0, .remove 0]).map
        (fun state => (state.clientFds, state.erasures, state.shutdowns)) =
      some
        ([], [{ connection := some 1, failed := some 0 }],
          [{ connection := some 1, failed := some 0 }]) := rfl

end AccelObserver.Server.WebClients
