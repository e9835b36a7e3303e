import Mathlib.Tactic.Common

/-!
# Ledgers of resources

A resource is acquired once, used while it is held, and released before what
it rests on is.  A list of events is settled against the resources that are
held: it fails at the first event that may not happen.
-/

namespace AccelObserver.Library.Ledger

/-- What happens to a resource. -/
inductive Event (Resource : Type)
  | acquire (resource : Resource)
  | use (resource : Resource)
  | release (resource : Resource)
  deriving DecidableEq

section Settle

variable {Resource : Type} [DecidableEq Resource]
  (needs : Resource → List Resource)

/-- One event, with the resources that are held. -/
def enter (live : List Resource) : Event Resource → Option (List Resource)
  | .acquire resource =>
      if live.contains resource then none
      else if (needs resource).all live.contains then some (resource :: live)
      else none
  | .use resource => if live.contains resource then some live else none
  | .release resource =>
      if !live.contains resource then none
      else if live.any fun other => (needs other).contains resource then none
      else some (live.erase resource)

/-- One event after the other. -/
def settle : List Resource → List (Event Resource) → Option (List Resource)
  | live, [] => some live
  | live, event :: more => (enter needs live event).bind (settle · more)

/-- Nothing is left over, and nothing went wrong. -/
def Balanced (events : List (Event Resource)) : Prop :=
  settle needs [] events = some []

instance (events : List (Event Resource)) : Decidable (Balanced needs events) :=
  inferInstanceAs (Decidable (_ = _))

variable {needs}

theorem settle_append
    (live : List Resource) (first second : List (Event Resource)) :
    settle needs live (first ++ second) =
      (settle needs live first).bind (settle needs · second) := by
  induction first generalizing live with
  | nil => rfl
  | cons event more induction =>
      rw [List.cons_append, settle, settle]
      cases enter needs live event with
      | none => rfl
      | some next => exact induction next

theorem settle_append_of_some
    {live next : List Resource} {first : List (Event Resource)}
    (settled : settle needs live first = some next)
    (second : List (Event Resource)) :
    settle needs live (first ++ second) = settle needs next second := by
  rw [settle_append, settled, Option.bind_some]

/-- Using what is held changes nothing. -/
theorem settle_of_uses
    {live : List Resource} {events : List (Event Resource)}
    (uses : ∀ event ∈ events, ∃ resource ∈ live, event = .use resource) :
    settle needs live events = some live := by
  induction events with
  | nil => rfl
  | cons event more induction =>
      rcases List.forall_mem_cons.mp uses
        with ⟨⟨resource, member, rfl⟩, later⟩
      have held : live.contains resource = true :=
        List.contains_iff_mem.mpr member
      rw [settle, enter, if_pos held]
      exact induction later

end Settle

end AccelObserver.Library.Ledger
