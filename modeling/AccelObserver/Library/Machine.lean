import Mathlib.Data.List.Basic
import Mathlib.Tactic.Basic

/-!
# Machines and their runs

A machine is a state and a partial step function.  An action names both the
thread that moves and every choice of the environment, so that a run is a
list of actions and two interleavings are two lists.

A property of every reachable state is an invariant of the step function.  A
property that holds only while the environment keeps to some rule is an
invariant of the steps that meet the rule; `Along` says that every step of a
run meets it.
-/

namespace AccelObserver.Library

/-- A state machine: where it starts and what each action does, if enabled. -/
structure Machine (State Action : Type*) where
  initial : State
  step : State → Action → Option State

namespace Machine

variable {State Action : Type*} (machine : Machine State Action)

/-- Take the actions one after another; a disabled action ends in `none`. -/
def runFrom : State → List Action → Option State
  | state, [] => some state
  | state, action :: rest =>
      (machine.step state action).bind fun next => runFrom next rest

/-- A run from the initial state. -/
def run (actions : List Action) : Option State :=
  machine.runFrom machine.initial actions

@[simp]
theorem runFrom_nil (state : State) :
    machine.runFrom state [] = some state := rfl

/-- The first step of a run, and the run that follows it. -/
theorem runFrom_cons_eq_some
    {state final : State} {action : Action} {rest : List Action} :
    machine.runFrom state (action :: rest) = some final ↔
      ∃ next, machine.step state action = some next ∧
        machine.runFrom next rest = some final := by
  simp [runFrom, Option.bind_eq_some_iff]

/-- Every step along the run meets the condition, in the state it leaves. -/
def Along (condition : State → Action → Prop) :
    State → List Action → Prop
  | _, [] => True
  | state, action :: rest =>
      condition state action ∧
        ∀ next, machine.step state action = some next →
          Along condition next rest

/-- A run meets a condition if its first step does and the rest does. -/
theorem along_cons
    {condition : State → Action → Prop}
    {state next : State} {action : Action} {rest : List Action}
    (stepped : machine.step state action = some next)
    (here : condition state action)
    (later : machine.Along condition next rest) :
    machine.Along condition state (action :: rest) := by
  refine ⟨here, fun other same => ?_⟩
  rw [stepped, Option.some.injEq] at same
  exact same ▸ later

/-- Whether the steps of a run meet a decidable condition can be computed. -/
instance decidableAlong
    (condition : State → Action → Prop)
    [∀ state action, Decidable (condition state action)]
    (state : State) (actions : List Action) :
    Decidable (machine.Along condition state actions) :=
  match actions with
  | [] => .isTrue trivial
  | action :: rest =>
      match stepped : machine.step state action with
      | none =>
          decidable_of_iff (condition state action) (by simp [Along, stepped])
      | some next =>
          have := decidableAlong condition next rest
          decidable_of_iff
            (condition state action ∧ machine.Along condition next rest)
            (by simp [Along, stepped])

/-- A condition can be exchanged for one that it implies where an invariant
holds. -/
theorem along_of_invariant
    (Invariant : State → Prop)
    (preserved :
      ∀ state action next, Invariant state →
        machine.step state action = some next → Invariant next)
    {condition other : State → Action → Prop}
    (implies :
      ∀ state action, Invariant state → condition state action →
        other state action)
    {state : State} {actions : List Action} (holds : Invariant state)
    (along : machine.Along condition state actions) :
    machine.Along other state actions := by
  induction actions generalizing state with
  | nil => trivial
  | cons action rest induction =>
      refine ⟨implies state action holds along.1, fun next stepped => ?_⟩
      exact induction (preserved state action next holds stepped)
        (along.2 next stepped)

/-- A condition that the actions of a run meet in every state. -/
theorem along_of_forall_mem
    {condition : State → Action → Prop}
    (state : State) {actions : List Action}
    (always : ∀ action ∈ actions, ∀ state, condition state action) :
    machine.Along condition state actions := by
  induction actions generalizing state with
  | nil => trivial
  | cons action rest induction =>
      rcases List.forall_mem_cons.mp always with ⟨here, later⟩
      exact ⟨here state, fun next _ => induction next later⟩

/-- Two conditions that a run meets, as one. -/
theorem along_and
    {condition other : State → Action → Prop} {state : State}
    {actions : List Action} (along : machine.Along condition state actions)
    (alsoAlong : machine.Along other state actions) :
    machine.Along
      (fun state action => condition state action ∧ other state action) state
      actions := by
  induction actions generalizing state with
  | nil => trivial
  | cons action rest induction =>
      exact ⟨⟨along.1, alsoAlong.1⟩, fun next stepped =>
        induction (along.2 next stepped) (alsoAlong.2 next stepped)⟩

/--
The induction over runs: an invariant kept by every step that meets the
condition holds at the end of every run whose steps meet it.
-/
theorem runFrom_invariant
    {condition : State → Action → Prop}
    {Invariant : State → Prop}
    (preserved :
      ∀ state action next, Invariant state → condition state action →
        machine.step state action = some next → Invariant next)
    {state final : State} {actions : List Action}
    (holds : Invariant state)
    (along : machine.Along condition state actions)
    (ran : machine.runFrom state actions = some final) :
    Invariant final := by
  induction actions generalizing state with
  | nil =>
      simp only [runFrom_nil, Option.some.injEq] at ran
      exact ran ▸ holds
  | cons action rest induction =>
      rcases machine.runFrom_cons_eq_some.mp ran with ⟨next, stepped, ran⟩
      exact induction
        (preserved state action next holds along.1 stepped)
        (along.2 next stepped) ran

/-- The same rule for runs whose steps meet no condition. -/
theorem run_invariant
    {Invariant : State → Prop}
    (initially : Invariant machine.initial)
    (preserved :
      ∀ state action next, Invariant state →
        machine.step state action = some next → Invariant next)
    {final : State} {actions : List Action}
    (ran : machine.run actions = some final) :
    Invariant final :=
  machine.runFrom_invariant
    (fun state action next holds (_ : True) stepped =>
      preserved state action next holds stepped)
    initially (machine.along_of_forall_mem _ fun _ _ _ => trivial) ran

end Machine

end AccelObserver.Library
