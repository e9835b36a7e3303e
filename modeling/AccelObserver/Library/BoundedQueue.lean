import Mathlib.Data.List.Basic

/-!
# Bounded queues

A queue with room for a fixed number of items, which is emptied all at once.
Waiting for items is a call that is blocked, and changes nothing, as long as
the queue is empty and nobody has stopped it.
-/

namespace AccelObserver.Library

/-- A first-in first-out queue that keeps within its capacity. -/
@[ext]
structure BoundedQueue (Item : Type) where
  capacity : Nat
  items : List Item
  stopped : Bool
  within : items.length ≤ capacity

namespace BoundedQueue

variable {Item : Type}

inductive Op (Item : Type)
  | tryPush (item : Item)
  | drain
  | drainNowait
  | stop
  | size
  | empty

inductive Reply (Item : Type)
  | pushed (accepted : Bool)
  | drained (items : List Item)
  | blocked
  | stopped
  | size (n : Nat)
  | empty (isEmpty : Bool)
  deriving DecidableEq

/-- A queue without items. -/
def new (capacity : Nat) : BoundedQueue Item :=
  { capacity := capacity
    items := []
    stopped := false
    within := Nat.zero_le _ }

/-- An item goes behind the others, where there is room. -/
def tryPush (queue : BoundedQueue Item) (item : Item) :
    BoundedQueue Item × Bool :=
  if full : queue.items.length = queue.capacity then
    (queue, false)
  else
    ({ queue with
        items := queue.items ++ [item]
        within := by
          rw [List.length_append]
          exact Nat.lt_of_le_of_ne queue.within full },
      true)

/-- The queue without its items. -/
def emptied (queue : BoundedQueue Item) : BoundedQueue Item :=
  { queue with
    items := []
    within := Nat.zero_le _ }

/-- One call. -/
def perform (queue : BoundedQueue Item) :
    Op Item → BoundedQueue Item × Reply Item
  | .tryPush item =>
      ((queue.tryPush item).1, .pushed (queue.tryPush item).2)
  | .drain =>
      if queue.items = [] ∧ queue.stopped = false then (queue, .blocked)
      else (queue.emptied, .drained queue.items)
  | .drainNowait => (queue.emptied, .drained queue.items)
  | .stop => ({ queue with stopped := true }, .stopped)
  | .size => (queue, .size queue.items.length)
  | .empty => (queue, .empty queue.items.isEmpty)

/-- One call after the other. -/
def run (queue : BoundedQueue Item) :
    List (Op Item) → BoundedQueue Item × List (Reply Item)
  | [] => (queue, [])
  | op :: ops =>
      let (next, reply) := queue.perform op
      let (final, replies) := next.run ops
      (final, reply :: replies)

@[simp]
theorem perform_capacity (queue : BoundedQueue Item) (op : Op Item) :
    (queue.perform op).1.capacity = queue.capacity := by
  cases op with
  | tryPush item =>
      simp only [perform, tryPush]
      split_ifs <;> rfl
  | drain =>
      simp only [perform]
      split_ifs <;> rfl
  | _ => rfl

@[simp]
theorem run_capacity (queue : BoundedQueue Item) (ops : List (Op Item)) :
    (queue.run ops).1.capacity = queue.capacity := by
  induction ops generalizing queue with
  | nil => rfl
  | cons op ops induction =>
      rw [run]
      exact (induction _).trans (queue.perform_capacity op)

/-! ## What the replies say -/

/-- The items that wait behind a call, from those that did before it. -/
def pending (items : List Item) : Op Item × Reply Item → List Item
  | (.tryPush item, .pushed true) => items ++ [item]
  | (_, .drained _) => []
  | _ => items

/-- The items accepted since the last drain of a history. -/
def acceptedSince (history : List (Op Item × Reply Item)) : List Item :=
  history.foldl pending []

theorem perform_pending (queue : BoundedQueue Item) (op : Op Item) :
    (queue.perform op).1.items =
      pending queue.items (op, (queue.perform op).2) := by
  cases op with
  | tryPush item =>
      simp only [perform, tryPush]
      split_ifs <;> rfl
  | drain =>
      simp only [perform]
      split_ifs <;> rfl
  | _ => rfl

theorem perform_drained
    {queue : BoundedQueue Item} {op : Op Item} {items : List Item}
    (drained : (queue.perform op).2 = .drained items) :
    items = queue.items := by
  cases op with
  | drain =>
      simp only [perform] at drained
      split_ifs at drained
      cases drained
      rfl
  | drainNowait =>
      cases drained
      rfl
  | _ => cases drained

/-- Every drain gives what was accepted since the drain before it. -/
theorem run_drained
    (queue : BoundedQueue Item) (ops : List (Op Item))
    {before after : List (Op Item × Reply Item)}
    {op : Op Item} {items : List Item}
    (history :
      ops.zip (queue.run ops).2 = before ++ (op, .drained items) :: after) :
    items = before.foldl pending queue.items := by
  induction ops generalizing queue before with
  | nil => simp at history
  | cons first ops induction =>
      rw [run, List.zip_cons_cons] at history
      cases before with
      | nil =>
          simp only [List.nil_append, List.cons.injEq, Prod.mk.injEq]
            at history
          exact perform_drained history.1.2
      | cons call before =>
          rw [List.cons_append, List.cons.injEq] at history
          rw [List.foldl_cons, ← history.1, ← perform_pending]
          exact induction _ history.2

end BoundedQueue

end AccelObserver.Library
