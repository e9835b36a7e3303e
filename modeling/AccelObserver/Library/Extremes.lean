import Mathlib.Algebra.Order.BigOperators.Group.List
import Mathlib.Order.Bounds.Basic

/-!
# Running extremes

A running minimum starts from some value and takes the smaller of itself and
each value that comes.  It is the least of the values and of where it started;
so it is the least value only if it did not start below all of them.
-/

namespace AccelObserver.Library.Extremes

variable {α : Type*} [LinearOrder α]

/-- The running minimum is the least of the start and the values. -/
theorem isLeast_foldl_min (start : α) (values : List α) :
    IsLeast {value | value = start ∨ value ∈ values}
      (values.foldl min start) := by
  induction values generalizing start with
  | nil =>
      refine ⟨.inl rfl, ?_⟩
      rintro value (rfl | member)
      · exact le_rfl
      · exact absurd member List.not_mem_nil
  | cons first values induction =>
      rcases induction (min start first) with ⟨reached, lower⟩
      rw [List.foldl_cons]
      constructor
      · rcases reached with reached | member
        · rw [reached]
          rcases min_choice start first with same | same
          · exact .inl same
          · rw [same]
            exact .inr List.mem_cons_self
        · exact .inr (List.mem_cons_of_mem _ member)
      · have start_le := lower (.inl rfl)
        rintro value (rfl | member)
        · exact start_le.trans (min_le_left _ _)
        · rcases List.mem_cons.mp member with rfl | later
          · exact start_le.trans (min_le_right _ _)
          · exact lower (.inr later)

/-- The running maximum is the greatest of the start and the values. -/
theorem isGreatest_foldl_max (start : α) (values : List α) :
    IsGreatest {value | value = start ∨ value ∈ values}
      (values.foldl max start) :=
  @isLeast_foldl_min αᵒᵈ _ start values

/-- A start above some value is not what the minimum comes to. -/
theorem isLeast_of_lt
    {start bound : α} (above : bound ≤ start) {values : List α}
    (below : ∃ value ∈ values, value < bound) :
    IsLeast {value | value ∈ values} (values.foldl min start) ∧
      values.foldl min start < bound := by
  rcases isLeast_foldl_min start values with ⟨reached, lower⟩
  rcases below with ⟨value, member, less⟩
  have low : values.foldl min start < bound :=
    (lower (.inr member)).trans_lt less
  refine ⟨⟨?_, fun other otherMember => lower (.inr otherMember)⟩, low⟩
  exact reached.resolve_left (low.trans_le above).ne

/-- A start that some value reaches is no greater than the maximum. -/
theorem isGreatest_of_le
    {start : α} {values : List α} (reaches : ∃ value ∈ values, start ≤ value) :
    IsGreatest {value | value ∈ values} (values.foldl max start) := by
  rcases isGreatest_foldl_max start values with ⟨reached, upper⟩
  refine ⟨?_, fun other otherMember => upper (.inr otherMember)⟩
  rcases reached with isStart | member
  · rcases reaches with ⟨value, member, greater⟩
    have same : value = values.foldl max start :=
      le_antisymm (upper (.inr member)) (isStart.le.trans greater)
    exact same ▸ member
  · exact member

end AccelObserver.Library.Extremes
