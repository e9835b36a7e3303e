import AccelObserver.Library.Machine

/-!
# Backlogs

A machine keeps a backlog: some of its steps add to it, and some clear it as a
whole.  A clock notes when they happen.  If what is added keeps a distance, and
nothing is added too long behind the last time that the backlog was cleared,
the backlog stays below a bound that depends on these two alone.
-/

namespace AccelObserver.Library

/-- What a step does to the backlog. -/
inductive BacklogEvent
  | add
  | clear
  | other
  deriving DecidableEq

/-- What the clock has noted. -/
structure Clock where
  now : Nat
  clearedAt : Nat
  addedAt : Option Nat
  deriving DecidableEq

namespace Clock

/-- The backlog is empty when the clock starts. -/
def start : Clock where
  now := 0
  clearedAt := 0
  addedAt := none

def after (clock : Clock) (event : BacklogEvent) (time : Nat) : Clock :=
  match event with
  | .add => { clock with now := time, addedAt := some time }
  | .clear => { clock with now := time, clearedAt := time }
  | .other => { clock with now := time }

/-- What is added keeps the distance, and comes soon enough. -/
structure Punctual (spacing gap : Nat) (clock : Clock) (time : Nat) :
    Prop where
  spaced : ∀ last ∈ clock.addedAt, last + spacing ≤ time
  prompt : time ≤ clock.clearedAt + gap

instance (spacing gap : Nat) (clock : Clock) (time : Nat) :
    Decidable (Punctual spacing gap clock time) :=
  decidable_of_iff
    ((∀ last ∈ clock.addedAt, last + spacing ≤ time) ∧
      time ≤ clock.clearedAt + gap)
    ⟨fun both => ⟨both.1, both.2⟩, fun both => ⟨both.spaced, both.prompt⟩⟩

/-- The backlog has had the time to grow as far as it has. -/
structure Spread (spacing : Nat) (clock : Clock) (level : Nat) : Prop where
  cleared : clock.clearedAt ≤ clock.now
  apart :
    ∀ earlier, level = earlier + 1 →
      ∃ last ∈ clock.addedAt, clock.clearedAt + earlier * spacing ≤ last

section Spread

variable {spacing gap level time : Nat} {clock : Clock}

theorem spread_start (spacing : Nat) : Spread spacing start 0 where
  cleared := Nat.le_refl 0
  apart := nofun

/-- Before something punctual is added, there is room. -/
theorem Spread.room
    (spread : Spread spacing clock level)
    (punctual : Punctual spacing gap clock time) {capacity : Nat}
    (tight : gap < spacing * capacity) : level < capacity := by
  cases level with
  | zero =>
      apply Nat.pos_of_ne_zero
      rintro rfl
      simp at tight
  | succ earlier =>
      rcases spread.apart earlier rfl with ⟨last, noted, grown⟩
      have spaced := punctual.spaced last noted
      have prompt := punctual.prompt
      have product : (earlier + 1) * spacing = earlier * spacing + spacing :=
        Nat.succ_mul earlier spacing
      have below : spacing * (earlier + 1) < spacing * capacity := by
        rw [Nat.mul_comm spacing (earlier + 1)]
        omega
      exact Nat.lt_of_mul_lt_mul_left below

theorem Spread.add
    (spread : Spread spacing clock level)
    (punctual : Punctual spacing gap clock time) (later : clock.now ≤ time) :
    Spread spacing (clock.after .add time) (level + 1) where
  cleared := Nat.le_trans spread.cleared later
  apart := by
    rintro earlier same
    obtain rfl : level = earlier := Nat.succ.inj same
    refine ⟨time, rfl, ?_⟩
    cases level with
    | zero =>
        have cleared := Nat.le_trans spread.cleared later
        simpa [after] using cleared
    | succ earlier =>
        rcases spread.apart earlier rfl with ⟨last, noted, grown⟩
        have spaced := punctual.spaced last noted
        rw [Nat.succ_mul]
        simp only [after]
        omega

theorem spread_clear (time : Nat) :
    Spread spacing (clock.after .clear time) 0 where
  cleared := Nat.le_refl time
  apart := nofun

theorem Spread.other
    (spread : Spread spacing clock level) (later : clock.now ≤ time) :
    Spread spacing (clock.after .other time) level where
  cleared := Nat.le_trans spread.cleared later
  apart := spread.apart

/-- A smaller backlog needs less time. -/
theorem Spread.mono
    {smaller : Nat} (spread : Spread spacing clock level)
    (less : smaller ≤ level) : Spread spacing clock smaller where
  cleared := spread.cleared
  apart := by
    rintro earlier rfl
    obtain ⟨before, rfl⟩ : ∃ before, level = before + 1 :=
      Nat.exists_eq_succ_of_ne_zero (by omega)
    rcases spread.apart before rfl with ⟨last, noted, grown⟩
    have product : earlier * spacing ≤ before * spacing :=
      Nat.mul_le_mul_right spacing (by omega)
    exact ⟨last, noted, by omega⟩

end Spread

end Clock

/-! ## A machine with a clock -/

/-- The state of a machine, and what the clock has noted. -/
structure Clocked (State : Type*) where
  state : State
  clock : Clock

namespace Machine

variable {State Action : Type*} (machine : Machine State Action)
  (event : State → Action → BacklogEvent)

/-- The machine, with the time of each of its steps. -/
def clocked : Machine (Clocked State) (Nat × Action) where
  initial := { state := machine.initial, clock := .start }
  step timed action :=
    (machine.step timed.state action.2).map fun next =>
      { state := next
        clock := timed.clock.after (event timed.state action.2) action.1 }

/-- The clock does not go back, and what is added is punctual. -/
def OnTime (spacing gap : Nat) (timed : Clocked State)
    (action : Nat × Action) : Prop :=
  timed.clock.now ≤ action.1 ∧
    (event timed.state action.2 = .add →
      timed.clock.Punctual spacing gap action.1)

instance (spacing gap : Nat) (timed : Clocked State)
    (action : Nat × Action) :
    Decidable (OnTime event spacing gap timed action) :=
  inferInstanceAs (Decidable (_ ∧ _))

variable {event}

/-- Without its times, a run is a run of the machine. -/
theorem runFrom_of_clocked
    {timed final : Clocked State} {run : List (Nat × Action)}
    (ran : (machine.clocked event).runFrom timed run = some final) :
    machine.runFrom timed.state (run.map Prod.snd) = some final.state := by
  induction run generalizing timed with
  | nil =>
      obtain rfl : timed = final := by simpa using ran
      rfl
  | cons action run induction =>
      rcases (runFrom_cons_eq_some _).mp ran with ⟨next, stepped, ranOn⟩
      rcases Option.map_eq_some_iff.mp stepped with ⟨after, took, rfl⟩
      rw [List.map_cons, runFrom_cons_eq_some]
      exact ⟨after, took, induction ranOn⟩

/-- What is required of the steps alone needs no clock. -/
theorem along_of_clocked
    (condition : State → Action → Prop) {timed : Clocked State}
    {run : List (Nat × Action)}
    (along :
      (machine.clocked event).Along
        (fun timed action => condition timed.state action.2) timed run) :
    machine.Along condition timed.state (run.map Prod.snd) := by
  induction run generalizing timed with
  | nil => trivial
  | cons action run induction =>
      refine ⟨along.1, fun next stepped => ?_⟩
      have took :
          (machine.clocked event).step timed action =
            some
              { state := next
                clock :=
                  timed.clock.after (event timed.state action.2)
                    action.1 } := by
        simp [clocked, stepped]
      exact induction (along.2 _ took)

/-- How the steps of a machine change the size of its backlog. -/
structure Levels (event : State → Action → BacklogEvent)
    (level : State → Nat) :
    Prop where
  add :
    ∀ state action next, machine.step state action = some next →
      event state action = .add → level next ≤ level state + 1
  clear :
    ∀ state action next, machine.step state action = some next →
      event state action = .clear → level next = 0
  other :
    ∀ state action next, machine.step state action = some next →
      event state action = .other → level next ≤ level state

variable {machine} {level : State → Nat} {spacing gap : Nat}

/-- A step that is on time keeps the backlog spread. -/
theorem Levels.spread
    (levels : machine.Levels event level) {timed next : Clocked State}
    {action : Nat × Action}
    (spread : timed.clock.Spread spacing (level timed.state))
    (onTime : OnTime event spacing gap timed action)
    (stepped : (machine.clocked event).step timed action = some next) :
    next.clock.Spread spacing (level next.state) := by
  rcases Option.map_eq_some_iff.mp stepped with ⟨after, took, rfl⟩
  cases kind : event timed.state action.2 with
  | add =>
      exact (spread.add (onTime.2 kind) onTime.1).mono
        (levels.add _ _ _ took kind)
  | clear =>
      simp only [levels.clear _ _ _ took kind]
      exact Clock.spread_clear action.1
  | other =>
      exact (spread.other onTime.1).mono (levels.other _ _ _ took kind)

/--
On time, the backlog is below the capacity whenever something is added, as long
as the gap is shorter than the time that it takes to fill it.
-/
theorem Levels.room
    (levels : machine.Levels event level) {capacity : Nat}
    (tight : gap < spacing * capacity) {timed : Clocked State}
    {run : List (Nat × Action)}
    (spread : timed.clock.Spread spacing (level timed.state))
    (onTime :
      (machine.clocked event).Along (OnTime event spacing gap) timed run) :
    (machine.clocked event).Along
      (fun timed action =>
        event timed.state action.2 = .add → level timed.state < capacity)
      timed run := by
  induction run generalizing timed with
  | nil => trivial
  | cons action run induction =>
      refine ⟨fun kind => spread.room (onTime.1.2 kind) tight, ?_⟩
      intro next stepped
      exact induction (levels.spread spread onTime.1 stepped)
        (onTime.2 next stepped)

end Machine

end AccelObserver.Library
