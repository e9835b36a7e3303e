import AccelObserver.Server.WebClients
import Mathlib.Tactic.Simps.Basic

/-!
# The client list

Every descriptor in `client_fds_` is that of an open connection whose thread
has sent the 101 response and has not yet left; every connection is closed by
its own thread, once, and after its descriptor has left the list.  This holds
whatever the broadcasts and `stop` take out of the list, and also when a
descriptor number comes back.
-/

namespace AccelObserver.Server.WebClients

open AccelObserver.Library

/-! ## Threads and what they own -/

/-- A thread that has been started and has not closed its descriptor. -/
def HandlerPc.Live (pc : HandlerPc) : Prop :=
  pc ≠ .unborn ∧ pc ≠ .finished

/-- Between the registration and the erasure. -/
def HandlerPc.Registered (pc : HandlerPc) : Prop :=
  pc = .looping ∨ pc = .leaving

/-- Behind the 101 response, up to the erasure. -/
def HandlerPc.Upgraded (pc : HandlerPc) : Prop :=
  pc = .upgraded ∨ pc.Registered

/-- The part of a state that threads and the operating system keep about
descriptors. -/
structure Registry where
  owner : Nat → Option Nat
  accepted : Nat
  handlers : Nat → Handler
  clientFds : List Nat
  closings : List Closing

def State.registry (state : State) : Registry :=
  { owner := state.owner
    accepted := state.accepted
    handlers := state.handlers
    clientFds := state.clientFds
    closings := state.closings }

/-- A thread moves. -/
@[simps]
def Registry.move (registry : Registry) (thread : Nat) (handler : Handler) :
    Registry :=
  { registry with
    handlers := Function.update registry.handlers thread handler }

/-- `accept` opens a descriptor, and a thread starts on it. -/
@[simps]
def Registry.accept (registry : Registry) (fd : Nat) : Registry :=
  { registry with
    owner := Function.update registry.owner fd (some registry.accepted)
    accepted := registry.accepted + 1
    handlers :=
      Function.update registry.handlers registry.accepted
        { fd := fd, pc := .reading, sent101 := false } }

/-- A thread enters its descriptor. -/
@[simps]
def Registry.register (registry : Registry) (thread : Nat) : Registry :=
  { registry.move thread { registry.handlers thread with pc := .looping } with
    clientFds := registry.clientFds ++ [(registry.handlers thread).fd] }

/-- A thread erases its descriptor. -/
@[simps]
def Registry.unregister (registry : Registry) (thread : Nat) : Registry :=
  { registry.move thread { registry.handlers thread with pc := .closing } with
    clientFds := eraseFd (registry.handlers thread).fd registry.clientFds }

/-- A thread closes its descriptor. -/
@[simps]
def Registry.close (registry : Registry) (thread : Nat) : Registry :=
  { registry.move thread { registry.handlers thread with pc := .finished } with
    owner := Function.update registry.owner (registry.handlers thread).fd none
    closings :=
      registry.closings ++
        [{ connection := registry.owner (registry.handlers thread).fd
           thread := thread
           listed :=
             decide ((registry.handlers thread).fd ∈ registry.clientFds) }] }

/-- How a thread may move without touching the list or its descriptor. -/
structure GoesOn (before after : Handler) : Prop where
  fd : after.fd = before.fd
  live : before.pc.Live ∧ after.pc.Live
  registered : before.pc.Registered → after.pc.Registered
  upgraded :
    (before.pc.Upgraded → before.sent101 = true) →
      after.pc.Upgraded → after.sent101 = true

/-- What a step can do to the registry; only `accept` opens a descriptor. -/
inductive RegistryCase (action : Action) (before after : Registry) : Prop
  | keep (same : after = before)
  | accept (fd : Nat) (taken : action = .accept fd)
      (free : before.owner fd = none) (entry : after = before.accept fd)
  | move (thread : Nat) (handler : Handler)
      (goesOn : GoesOn (before.handlers thread) handler)
      (entry : after = before.move thread handler)
  | register (thread : Nat)
      (upgraded : (before.handlers thread).pc = .upgraded)
      (entry : after = before.register thread)
  | unregister (thread : Nat)
      (leaving : (before.handlers thread).pc = .leaving)
      (entry : after = before.unregister thread)
  | shrink (fds : List Nat) (sublist : fds.Sublist before.clientFds)
      (entry : after = { before with clientFds := fds })
  | close (thread : Nat)
      (closing : (before.handlers thread).pc = .closing)
      (entry : after = before.close thread)

/-! ## What each kind of step does to the registry -/

/-- Before the 101 response a thread goes on without conditions. -/
theorem moveEarly_registry
    {action : Action} {state : State} {thread : Nat} {pc : HandlerPc}
    (live : (state.handlers thread).pc.Live ∧ pc.Live)
    (earlyBefore : ¬ (state.handlers thread).pc.Registered)
    (earlyAfter : ¬ pc.Upgraded) :
    RegistryCase action state.registry
      (state.move thread { state.handlers thread with pc := pc }).registry :=
  .move thread { state.handlers thread with pc := pc }
    { fd := rfl
      live := live
      registered := fun registered => absurd registered earlyBefore
      upgraded := fun _ upgraded => absurd upgraded earlyAfter }
    rfl

theorem acceptStep_registry
    {fd : Nat} {state next : State}
    (stepped : acceptStep fd state = some next) :
    RegistryCase (.accept fd) state.registry next.registry := by
  unfold acceptStep at stepped
  split at stepped
  · rename_i free
    cases stepped
    exact .accept fd rfl free rfl
  · cases stepped

theorem requestStep_registry
    {action : Action} {thread : Nat} {request : Request} {state next : State}
    (stepped : requestStep thread request state = some next) :
    RegistryCase action state.registry next.registry := by
  unfold requestStep at stepped
  dsimp only at stepped
  split at stepped
  · rename_i reading
    cases request <;> cases stepped <;>
      exact moveEarly_registry (by simp [HandlerPc.Live, reading])
        (by simp [HandlerPc.Registered, reading])
        (by simp [HandlerPc.Upgraded, HandlerPc.Registered])
  · cases stepped

theorem respondStep_registry
    {action : Action} {thread : Nat} {state next : State}
    (stepped : respondStep thread state = some next) :
    RegistryCase action state.registry next.registry := by
  unfold respondStep at stepped
  dsimp only at stepped
  split at stepped
  · rename_i responding
    cases stepped
    exact moveEarly_registry (by simp [HandlerPc.Live, responding])
      (by simp [HandlerPc.Registered, responding])
      (by simp [HandlerPc.Upgraded, HandlerPc.Registered])
  · cases stepped

theorem upgradeStep_registry
    {action : Action} {thread : Nat} {good : Bool} {state next : State}
    (stepped : upgradeStep thread good state = some next) :
    RegistryCase action state.registry next.registry := by
  unfold upgradeStep at stepped
  dsimp only at stepped
  split at stepped
  · rename_i upgrading
    split at stepped
    · cases stepped
      exact .move thread
        { state.handlers thread with pc := .upgraded, sent101 := true }
        { fd := rfl
          live := by simp [HandlerPc.Live, upgrading, State.registry]
          registered := by
            simp [HandlerPc.Registered, upgrading, State.registry]
          upgraded := fun _ _ => rfl } rfl
    · cases stepped
      exact moveEarly_registry (by simp [HandlerPc.Live, upgrading])
        (by simp [HandlerPc.Registered, upgrading])
        (by simp [HandlerPc.Upgraded, HandlerPc.Registered])
  · cases stepped

theorem registerStep_registry
    {action : Action} {thread : Nat} {state next : State}
    (stepped : registerStep thread state = some next) :
    RegistryCase action state.registry next.registry := by
  unfold registerStep at stepped
  dsimp only at stepped
  split at stepped
  · rename_i upgraded _
    cases stepped
    exact .register thread upgraded rfl
  · cases stepped

theorem leaveStep_registry
    {action : Action} {thread : Nat} {state next : State}
    (stepped : leaveStep thread state = some next) :
    RegistryCase action state.registry next.registry := by
  unfold leaveStep at stepped
  dsimp only at stepped
  split at stepped
  · rename_i looping
    cases stepped
    exact .move thread { state.handlers thread with pc := .leaving }
      { fd := rfl
        live := by simp [HandlerPc.Live, looping, State.registry]
        registered := fun _ => .inr rfl
        upgraded := fun sent _ => sent (.inr (.inl looping)) } rfl
  · cases stepped

theorem unregisterStep_registry
    {action : Action} {thread : Nat} {state next : State}
    (stepped : unregisterStep thread state = some next) :
    RegistryCase action state.registry next.registry := by
  unfold unregisterStep at stepped
  dsimp only at stepped
  split at stepped
  · rename_i leaving _
    cases stepped
    exact .unregister thread leaving rfl
  · cases stepped

theorem closeStep_registry
    {action : Action} {thread : Nat} {state next : State}
    (stepped : closeStep thread state = some next) :
    RegistryCase action state.registry next.registry := by
  unfold closeStep at stepped
  dsimp only at stepped
  split at stepped
  · rename_i closing
    cases stepped
    exact .close thread closing rfl
  · cases stepped

/-- The sends of a broadcast leave the registry alone. -/
theorem sendStep_registry
    {caller count : Nat} {state next : State}
    (stepped : sendStep caller count state = some next) :
    next.registry = state.registry := by
  unfold sendStep at stepped
  dsimp only at stepped
  split at stepped
  · cases stepped
    rfl
  · cases stepped
    rfl
  · split at stepped
    · cases stepped
      rfl
    · split at stepped
      · cases stepped
        rfl
      · split at stepped
        · cases stepped
        · cases stepped
          rfl
  · cases stepped

theorem removeStep_registry
    {action : Action} {caller : Nat} {state next : State}
    (stepped : removeStep caller state = some next) :
    RegistryCase action state.registry next.registry := by
  unfold removeStep at stepped
  split at stepped
  · split at stepped <;> cases stepped
    exact .keep rfl
  · cases stepped
    exact .keep rfl
  · rename_i target dead _
    cases stepped
    exact .shrink (eraseFd target.fd state.clientFds) List.filter_sublist rfl
  · cases stepped
    exact .keep rfl
  · cases stepped

theorem stopperStep_registry
    {action : Action} {state next : State}
    (stepped : stopperStep state = some next) :
    RegistryCase action state.registry next.registry := by
  unfold stopperStep at stepped
  split at stepped
  · cases stepped
  · cases stepped
    exact .keep rfl
  · split at stepped <;> cases stepped
    exact .keep rfl
  · split at stepped <;> cases stepped
    exact .shrink [] (List.nil_sublist _) rfl
  · cases stepped
    exact .keep rfl
  · cases stepped

theorem registry_cases
    {state next : State} {action : Action}
    (stepped : step state action = some next) :
    RegistryCase action state.registry next.registry := by
  cases action with
  | acceptTest | acceptFail =>
      simp only [step] at stepped
      split at stepped <;> cases stepped
      exact .keep rfl
  | accept fd => exact acceptStep_registry stepped
  | request thread request => exact requestStep_registry stepped
  | respond thread => exact respondStep_registry stepped
  | upgrade thread good => exact upgradeStep_registry stepped
  | register thread => exact registerStep_registry stepped
  | leave thread => exact leaveStep_registry stepped
  | unregister thread => exact unregisterStep_registry stepped
  | close thread => exact closeStep_registry stepped
  | broadcast caller json =>
      simp only [step, broadcastStep] at stepped
      split at stepped <;> cases stepped
      exact .keep rfl
  | send caller count => exact .keep (sendStep_registry stepped)
  | remove caller => exact removeStep_registry stepped
  | stop =>
      simp only [step, stopStep] at stepped
      split at stepped <;> cases stepped <;> exact .keep rfl
  | stopper => exact stopperStep_registry stepped

/-! ## The invariant -/

/-- The one entry that a thread leaves in the history when it closes. -/
def ownClosing (thread : Nat) : Closing :=
  { connection := some thread, thread := thread, listed := false }

/-- Descriptors, threads and the list fit together. -/
structure Owned (registry : Registry) : Prop where
  unborn : ∀ thread,
    (registry.handlers thread).pc = .unborn ↔ registry.accepted ≤ thread
  owns : ∀ fd thread,
    registry.owner fd = some thread ↔
      (registry.handlers thread).pc.Live ∧
        (registry.handlers thread).fd = fd
  listed : ∀ fd ∈ registry.clientFds, ∃ thread,
    registry.owner fd = some thread ∧
      (registry.handlers thread).pc.Registered
  nodup : registry.clientFds.Nodup
  answered : ∀ thread,
    (registry.handlers thread).pc.Upgraded →
      (registry.handlers thread).sent101 = true
  closed : ∀ thread,
    registry.closings.filter (fun closing => closing.thread = thread) =
      if (registry.handlers thread).pc = .finished then [ownClosing thread]
      else []

/-- A thread past its start owns its descriptor until it has closed it. -/
theorem Owned.owner_fd
    {registry : Registry} (owned : Owned registry) {thread : Nat}
    (live : (registry.handlers thread).pc.Live) :
    registry.owner (registry.handlers thread).fd = some thread :=
  (owned.owns _ _).mpr ⟨live, rfl⟩

/-- Only a registered thread has its descriptor in the list. -/
theorem Owned.not_listed
    {registry : Registry} (owned : Owned registry) {thread : Nat}
    (live : (registry.handlers thread).pc.Live)
    (outside : ¬ (registry.handlers thread).pc.Registered) :
    (registry.handlers thread).fd ∉ registry.clientFds := by
  intro member
  rcases owned.listed _ member with ⟨holder, owner, registered⟩
  rw [owned.owner_fd live, Option.some.injEq] at owner
  exact outside (owner ▸ registered)

theorem Owned.shrink
    {registry : Registry} (owned : Owned registry)
    {fds : List Nat} (sublist : fds.Sublist registry.clientFds) :
    Owned { registry with clientFds := fds } :=
  { unborn := owned.unborn
    owns := owned.owns
    listed := fun fd member => owned.listed fd (sublist.subset member)
    nodup := owned.nodup.sublist sublist
    answered := owned.answered
    closed := owned.closed }

/-- A live thread may go on if it stays registered while it is listed. -/
theorem Owned.move
    {registry : Registry} (owned : Owned registry)
    {thread : Nat} {handler : Handler}
    (sameFd : handler.fd = (registry.handlers thread).fd)
    (before : (registry.handlers thread).pc.Live) (after : handler.pc.Live)
    (stays : handler.fd ∈ registry.clientFds → handler.pc.Registered)
    (answers : handler.pc.Upgraded → handler.sent101 = true) :
    Owned (registry.move thread handler) where
  unborn := by
    intro other
    by_cases same : other = thread
    · subst same
      have born := mt (owned.unborn other).mpr before.1
      simp [after.1, Nat.not_le.mp born]
    · simpa [same] using owned.unborn other
  owns := by
    intro fd other
    by_cases same : other = thread
    · subst same
      have here := owned.owns fd other
      simp only [before, true_and] at here
      simpa [after, sameFd] using here
    · simpa [same] using owned.owns fd other
  listed := by
    intro fd member
    rcases owned.listed fd member with ⟨holder, owner, registered⟩
    refine ⟨holder, owner, ?_⟩
    by_cases same : holder = thread
    · subst same
      have number := ((owned.owns fd holder).mp owner).2
      rw [← number, ← sameFd] at member
      simpa using stays member
    · simpa [same] using registered
  nodup := owned.nodup
  answered := by
    intro other
    by_cases same : other = thread
    · subst same
      simpa using answers
    · simpa [same] using owned.answered other
  closed := by
    intro other
    by_cases same : other = thread
    · subst same
      have here := owned.closed other
      simp only [before.2, if_false] at here
      simpa [after.2] using here
    · simpa [same] using owned.closed other

theorem Owned.goesOn
    {registry : Registry} (owned : Owned registry)
    {thread : Nat} {handler : Handler}
    (goesOn : GoesOn (registry.handlers thread) handler) :
    Owned (registry.move thread handler) := by
  refine owned.move goesOn.fd goesOn.live.1 goesOn.live.2 ?_
    (goesOn.upgraded (owned.answered thread))
  intro member
  by_cases registered : (registry.handlers thread).pc.Registered
  · exact goesOn.registered registered
  · rw [goesOn.fd] at member
    exact absurd member (owned.not_listed goesOn.live.1 registered)

theorem Owned.accept
    {registry : Registry} (owned : Owned registry)
    {fd : Nat} (free : registry.owner fd = none) :
    Owned (registry.accept fd) := by
  have unborn := (owned.unborn registry.accepted).mpr (Nat.le_refl _)
  constructor
  case unborn =>
    intro thread
    by_cases same : thread = registry.accepted
    · simp [same]
    · simp only [Registry.accept_handlers, Registry.accept_accepted,
        Function.update_of_ne same, owned.unborn thread]
      omega
  case owns =>
    intro number thread
    have before := owned.owns number thread
    by_cases same : thread = registry.accepted
    · subst same
      simp only [HandlerPc.Live, unborn, ne_eq, not_true_eq_false,
        false_and, iff_false] at before
      by_cases here : number = fd
      · simp [here, HandlerPc.Live]
      · simp [here, before, Ne.symm here]
    · by_cases here : number = fd
      · subst here
        simp only [free, reduceCtorEq, false_iff] at before
        simp [same, before, Ne.symm same]
      · simpa [same, here] using before
  case listed =>
    intro number member
    rcases owned.listed number member with ⟨thread, owner, registered⟩
    have other : number ≠ fd := by
      rintro rfl
      simp [free] at owner
    have born : thread ≠ registry.accepted := by
      rintro rfl
      simp [HandlerPc.Registered, unborn] at registered
    exact ⟨thread, by simpa [other] using owner,
      by simpa [born] using registered⟩
  case nodup => exact owned.nodup
  case answered =>
    intro thread
    by_cases same : thread = registry.accepted
    · simp [same, HandlerPc.Upgraded, HandlerPc.Registered]
    · simpa [same] using owned.answered thread
  case closed =>
    intro thread
    have before := owned.closed thread
    by_cases same : thread = registry.accepted
    · subst same
      simpa [unborn] using before
    · simpa [same] using before

/-- The thread that has sent its 101 response enters the list. -/
theorem Owned.register
    {registry : Registry} (owned : Owned registry) {thread : Nat}
    (upgraded : (registry.handlers thread).pc = .upgraded) :
    Owned (registry.register thread) := by
  have live : (registry.handlers thread).pc.Live := by
    simp [HandlerPc.Live, upgraded]
  have fresh :=
    owned.not_listed live (by simp [HandlerPc.Registered, upgraded])
  have moved :
      Owned
        (registry.move thread
          { registry.handlers thread with pc := .looping }) :=
    owned.move rfl live (by simp [HandlerPc.Live])
      (fun member => absurd member fresh)
      (fun _ => owned.answered thread (.inl upgraded))
  refine
    { unborn := moved.unborn
      owns := moved.owns
      listed := ?_
      nodup := ?_
      answered := moved.answered
      closed := moved.closed }
  · intro fd member
    rcases List.mem_append.mp member with before | here
    · exact moved.listed fd before
    · rw [List.mem_singleton] at here
      subst here
      exact ⟨thread, owned.owner_fd live, by simp [HandlerPc.Registered]⟩
  · refine List.nodup_append.mpr ⟨owned.nodup, by simp, ?_⟩
    rintro fd member other here rfl
    exact fresh (List.mem_singleton.mp here ▸ member)

theorem Owned.unregister
    {registry : Registry} (owned : Owned registry) {thread : Nat}
    (leaving : (registry.handlers thread).pc = .leaving) :
    Owned (registry.unregister thread) := by
  have shrunk :
      Owned
        { registry with
          clientFds :=
            eraseFd (registry.handlers thread).fd registry.clientFds } :=
    owned.shrink List.filter_sublist
  exact shrunk.move rfl (by simp [HandlerPc.Live, leaving])
    (by simp [HandlerPc.Live]) (by simp [eraseFd])
    (by simp [HandlerPc.Upgraded, HandlerPc.Registered])

/-- The thread owns what it closes, and it is not in the list. -/
theorem Owned.close_closings
    {registry : Registry} (owned : Owned registry) {thread : Nat}
    (closing : (registry.handlers thread).pc = .closing) :
    (registry.close thread).closings =
      registry.closings ++ [ownClosing thread] := by
  have live : (registry.handlers thread).pc.Live := by
    simp [HandlerPc.Live, closing]
  have outside :=
    owned.not_listed live (by simp [HandlerPc.Registered, closing])
  simp [ownClosing, owned.owner_fd live, outside]

theorem Owned.close
    {registry : Registry} (owned : Owned registry) {thread : Nat}
    (closing : (registry.handlers thread).pc = .closing) :
    Owned (registry.close thread) := by
  have live : (registry.handlers thread).pc.Live := by
    simp [HandlerPc.Live, closing]
  have mine := owned.owner_fd live
  have outside :=
    owned.not_listed live (by simp [HandlerPc.Registered, closing])
  constructor
  case unborn =>
    intro other
    by_cases same : other = thread
    · subst same
      have born := mt (owned.unborn other).mpr live.1
      simp [Nat.not_le.mp born]
    · simpa [same] using owned.unborn other
  case owns =>
    intro fd other
    have before := owned.owns fd other
    by_cases same : other = thread
    · subst same
      by_cases here : fd = (registry.handlers other).fd
      · simp [here, HandlerPc.Live]
      · simp only [live, true_and, Ne.symm here, iff_false] at before
        simp [here, before, HandlerPc.Live]
    · by_cases here : fd = (registry.handlers thread).fd
      · subst here
        simp only [mine, Option.some.injEq, Ne.symm same, false_iff] at before
        simp [same, before]
      · simpa [here, same] using before
  case listed =>
    intro fd member
    rcases owned.listed fd member with ⟨holder, owner, registered⟩
    have other : fd ≠ (registry.handlers thread).fd := by
      rintro rfl
      exact outside member
    have apart : holder ≠ thread := by
      rintro rfl
      simp [HandlerPc.Registered, closing] at registered
    exact ⟨holder, by simpa [other] using owner,
      by simpa [apart] using registered⟩
  case nodup => exact owned.nodup
  case answered =>
    intro other
    by_cases same : other = thread
    · subst same
      simp [HandlerPc.Upgraded, HandlerPc.Registered]
    · simpa [same] using owned.answered other
  case closed =>
    intro other
    rw [owned.close_closings closing, List.filter_append, owned.closed other]
    by_cases same : other = thread
    · subst same
      simp [closing, ownClosing]
    · simp [same, Ne.symm same, ownClosing]

/-- One step, by what it does to the registry. -/
theorem Owned.step
    {action : Action} {before after : Registry} (owned : Owned before)
    (change : RegistryCase action before after) :
    Owned after := by
  cases change with
  | keep same => exact same ▸ owned
  | accept fd _ free entry => exact entry ▸ owned.accept free
  | move thread handler goesOn entry => exact entry ▸ owned.goesOn goesOn
  | register thread upgraded entry => exact entry ▸ owned.register upgraded
  | unregister thread leaving entry => exact entry ▸ owned.unregister leaving
  | shrink fds sublist entry => exact entry ▸ owned.shrink sublist
  | close thread closing entry => exact entry ▸ owned.close closing

theorem owned_initial : Owned machine.initial.registry where
  unborn := by simp [machine, State.registry]
  owns := by simp [machine, State.registry, HandlerPc.Live]
  listed := by simp [machine, State.registry]
  nodup := List.nodup_nil
  answered := by
    simp [machine, State.registry, HandlerPc.Upgraded, HandlerPc.Registered]
  closed := by simp [machine, State.registry]

theorem owned_run
    {actions : List Action} {state : State}
    (ran : machine.run actions = some state) :
    Owned state.registry := by
  have preserved :
      ∀ (state : State) (action : Action) (next : State),
        Owned state.registry → machine.step state action = some next →
          Owned next.registry := by
    intro state action next owned stepped
    exact owned.step (registry_cases stepped)
  exact machine.run_invariant owned_initial preserved ran

/-- What the history says about a closing is that of its own thread. -/
theorem Owned.closing_eq
    {registry : Registry} (owned : Owned registry) {closing : Closing}
    (member : closing ∈ registry.closings) :
    closing = ownClosing closing.thread := by
  have kept :
      closing ∈
        registry.closings.filter
          (fun other => other.thread = closing.thread) := by
    simp [member]
  rw [owned.closed closing.thread] at kept
  split at kept
  · exact List.mem_singleton.mp kept
  · cases kept

/-- The closings of a connection are those that its thread made. -/
theorem Owned.closed_connection
    {registry : Registry} (owned : Owned registry) (thread : Nat) :
    registry.closings.filter
        (fun closing => closing.connection = some thread) =
      if (registry.handlers thread).pc = .finished then [ownClosing thread]
      else [] := by
  rw [← owned.closed thread]
  apply List.filter_congr
  intro closing member
  rw [owned.closing_eq member]
  apply decide_eq_decide.mpr
  simp [ownClosing]

/--
In every reachable state the list has no duplicates, and a listed descriptor
is open, has been answered with the 101 response and belongs to exactly one
thread that is still to close it.  A connection has been closed once if its
thread has finished, by that thread and with its descriptor out of the list,
and otherwise not at all.
-/
theorem client_list_invariant
    (actions : List Action) (state : State)
    (ran : machine.run actions = some state) :
    state.clientFds.Nodup ∧
      (∀ fd ∈ state.clientFds, ∃ thread,
        state.owner fd = some thread ∧
          (state.handlers thread).sent101 = true ∧
          ∀ other,
            ((state.handlers other).pc.Live ∧
                (state.handlers other).fd = fd) ↔
              other = thread) ∧
      (∀ thread,
        state.closings.filter
            (fun closing => closing.connection = some thread) =
          if (state.handlers thread).pc = .finished then
            [{ connection := some thread, thread := thread, listed := false }]
          else []) ∧
      ∀ closing ∈ state.closings, closing.connection = some closing.thread := by
  have owned := owned_run ran
  refine ⟨owned.nodup, ?_, owned.closed_connection, ?_⟩
  · intro fd member
    rcases owned.listed fd member with ⟨thread, owner, registered⟩
    refine ⟨thread, owner, owned.answered thread (.inr registered), ?_⟩
    intro other
    refine (owned.owns fd other).symm.trans ?_
    rw [owner, Option.some.injEq]
    exact eq_comm
  · intro closing member
    rw [owned.closing_eq member]
    rfl

/-- A page is served, a client registers under the same number, a broadcast
fails on it, and it leaves. -/
def servedRun : List Action :=
  [.acceptTest, .accept 5, .request 0 .plain, .respond 0, .close 0,
    .acceptTest, .accept 5, .request 1 .upgrade, .upgrade 1 true, .register 1,
    .acceptTest, .accept 6, .request 2 .upgrade, .upgrade 2 true, .register 2,
    .broadcast 0 (ascii "a"), .send 0 3, .send 0 0, .send 0 0, .remove 0,
    .remove 0, .remove 0, .remove 0, .leave 2, .unregister 2, .close 2]

theorem client_list_invariant_servedRun :
    ∃ state, machine.run servedRun = some state ∧
      state.clientFds = [5] ∧ state.clientFds.Nodup ∧
      state.closings.length = 2 :=
  ⟨_, rfl, rfl, (client_list_invariant servedRun _ rfl).1, rfl⟩

end AccelObserver.Server.WebClients
