import Mathlib.Tactic.Common

/-!
# Loops with checked reads

A read outside its list ends a loop in `none`.  A loop whose reads are all
inside is the loop without the checks.
-/

namespace AccelObserver.Library.CheckedLoops

/-- A read inside the list. -/
theorem getElem?_eq_getD
    {Item : Type} {items : List Item} {i : Nat} (inside : i < items.length)
    (other : Item) : items[i]? = some (items.getD i other) := by
  rw [List.getD_eq_getElem?_getD, List.getElem?_eq_getElem inside,
    Option.getD_some]

/-- A loop whose steps all succeed is the loop without the checks. -/
theorem foldlM_eq_some
    {State Item : Type} {checked : State → Item → Option State}
    {plain : State → Item → State} (Good : State → Prop) {items : List Item}
    (step : ∀ state item, Good state → item ∈ items →
      checked state item = some (plain state item) ∧ Good (plain state item))
    {state : State} (good : Good state) :
    items.foldlM checked state = some (items.foldl plain state) := by
  induction items generalizing state with
  | nil => rfl
  | cons item rest induction =>
      rcases step state item good List.mem_cons_self with ⟨here, next⟩
      rw [List.foldlM_cons, here, List.foldl_cons, Option.bind_eq_bind,
        Option.bind_some]
      exact induction
        (fun state item good member =>
          step state item good (List.mem_cons_of_mem _ member))
        next

/-- A loop over the numbers below a bound, by its state before each of them. -/
theorem foldl_range {State : Type} {body : State → Nat → State}
    (states : Nat → State) {bound : Nat}
    (step : ∀ i < bound, body (states i) i = states (i + 1)) :
    (List.range bound).foldl body (states 0) = states bound := by
  induction bound with
  | zero => rfl
  | succ bound induction =>
      rw [List.range_succ, List.foldl_append,
        induction fun i small => step i (Nat.lt_succ_of_lt small),
        List.foldl_cons, List.foldl_nil, step bound (Nat.lt_succ_self bound)]

/-- A checked loop that succeeds in every state the unchecked one is in. -/
theorem foldlM_range {State : Type} {checked : State → Nat → Option State}
    (plain : State → Nat → State) {state : State} {bound : Nat}
    (step : ∀ i < bound,
      checked ((List.range i).foldl plain state) i =
        some (plain ((List.range i).foldl plain state) i)) :
    (List.range bound).foldlM checked state =
      some ((List.range bound).foldl plain state) := by
  induction bound with
  | zero => rfl
  | succ bound induction =>
      rw [List.range_succ, List.foldlM_append,
        induction fun i small => step i (Nat.lt_succ_of_lt small),
        List.foldl_append, Option.bind_eq_bind, Option.bind_some,
        List.foldlM_cons, step bound (Nat.lt_succ_self bound)]
      rfl

end AccelObserver.Library.CheckedLoops
