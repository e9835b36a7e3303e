import Mathlib.Algebra.BigOperators.Group.Finset.Basic
import Mathlib.Algebra.BigOperators.Group.Finset.Piecewise
import Mathlib.Algebra.Order.BigOperators.Group.Finset
import Mathlib.Order.Interval.Finset.Nat

/-!
# Sequences that jump over numbers

A sequence of numbers that goes up from one element to the next passes over
the numbers in between.  Summing what is skipped along the sequence, or
counting for each number how often it is passed over, gives the same total.
-/

namespace AccelObserver.Library.Jumps

/-- What is skipped along the sequence; going down skips nothing. -/
def skipped : List Nat → Nat
  | previous :: next :: rest =>
      (next - previous - 1) + skipped (next :: rest)
  | _ => 0

/-- How often the sequence passes upwards over a number. -/
def passes (number : Nat) : List Nat → Nat
  | previous :: next :: rest =>
      (if previous < number ∧ number < next then 1 else 0) +
        passes number (next :: rest)
  | _ => 0

/-- Both ways of counting agree over any interval around the sequence. -/
theorem skipped_eq_sum_passes
    {numbers : List Nat} {low high : Nat}
    (inside : ∀ number ∈ numbers, number ∈ Finset.Icc low high) :
    skipped numbers =
      ∑ number ∈ Finset.Icc low high, passes number numbers := by
  induction numbers with
  | nil => simp [skipped, passes]
  | cons previous rest induction =>
      cases rest with
      | nil => simp [skipped, passes]
      | cons next rest =>
          rcases List.forall_mem_cons.mp inside with ⟨here, later⟩
          have between :
              (Finset.Icc low high).filter
                  (fun number => previous < number ∧ number < next) =
                Finset.Ioo previous next := by
            have lower := (Finset.mem_Icc.mp here).1
            have upper :=
              (Finset.mem_Icc.mp (later next List.mem_cons_self)).2
            ext number
            simp only [Finset.mem_filter, Finset.mem_Icc, Finset.mem_Ioo]
            omega
          simp only [skipped, passes, Finset.sum_add_distrib]
          rw [induction later, ← Finset.card_filter, between,
            Nat.card_Ioo]

/-- A sequence that starts below a number and gets above it passes it. -/
theorem passes_pos_of_start_lt
    {first number : Nat} {rest : List Nat}
    (below : first < number)
    (absent : number ∉ rest)
    (above : ∃ later ∈ rest, number < later) :
    0 < passes number (first :: rest) := by
  induction rest generalizing first with
  | nil => simp at above
  | cons next rest induction =>
      simp only [List.mem_cons, not_or] at absent
      rcases absent with ⟨different, absentLater⟩
      rw [passes]
      by_cases passed : number < next
      · rw [if_pos ⟨below, passed⟩]
        exact Nat.add_pos_left Nat.one_pos _
      · have nextBelow : next < number := by omega
        rcases above with ⟨later, member, above⟩
        rcases List.mem_cons.mp member with same | member
        · exact absurd (same ▸ above) passed
        · exact Nat.add_pos_right _
            (induction nextBelow absentLater ⟨later, member, above⟩)

/-- Between the ends of an ascending sequence, every number is skipped or
comes. -/
theorem skipped_add_card
    {first last : Nat} {rest : List Nat}
    (ascending : (first :: rest).Pairwise (· ≤ ·))
    (isLast : (first :: rest).getLast? = some last) :
    skipped (first :: rest) + (first :: rest).toFinset.card =
      last - first + 1 := by
  induction rest generalizing first with
  | nil =>
      obtain rfl : first = last := by simpa using isLast
      simp [skipped]
  | cons next rest induction =>
      rcases List.pairwise_cons.mp ascending with ⟨least, later⟩
      have step : first ≤ next := least next List.mem_cons_self
      rw [List.getLast?_cons_cons] at isLast
      have toLast : next ≤ last := by
        rcases List.mem_cons.mp (List.mem_of_getLast? isLast) with rfl | member
        · exact Nat.le_refl _
        · exact (List.pairwise_cons.mp later).1 last member
      have behind := induction later isLast
      rw [skipped, List.toFinset_cons]
      by_cases again : first = next
      · have old : first ∈ (next :: rest).toFinset := by simp [again]
        rw [Finset.insert_eq_of_mem old]
        omega
      · have new : first ∉ (next :: rest).toFinset := by
          rw [List.mem_toFinset]
          intro member
          rcases List.mem_cons.mp member with rfl | member
          · exact again rfl
          · have := (List.pairwise_cons.mp later).1 first member
            omega
        rw [Finset.card_insert_of_notMem new]
        omega

/-! ## Comparing a total with a count -/

/--
A total of weights is at most the number of marked elements exactly if what
exceeds one at a marked element, and all that falls on an unmarked one, is
made up for by marked elements of weight zero.
-/
theorem sum_le_card_iff
    (elements : Finset Nat) (marked : Nat → Prop) [DecidablePred marked]
    (weight : Nat → Nat) :
    (∑ element ∈ elements, weight element) ≤
        (elements.filter marked).card ↔
      (∑ element ∈ elements,
          if marked element then weight element - 1 else weight element) ≤
        (elements.filter
          fun element => marked element ∧ weight element = 0).card := by
  have balance :
      (∑ element ∈ elements, weight element) +
          (elements.filter
            fun element => marked element ∧ weight element = 0).card =
        (∑ element ∈ elements,
            if marked element then weight element - 1 else weight element) +
          (elements.filter marked).card := by
    rw [Finset.card_filter, Finset.card_filter, ← Finset.sum_add_distrib,
      ← Finset.sum_add_distrib]
    refine Finset.sum_congr rfl fun element _ => ?_
    by_cases isMarked : marked element <;>
      by_cases empty : weight element = 0 <;> simp [isMarked, empty]
    omega
  omega

end AccelObserver.Library.Jumps
