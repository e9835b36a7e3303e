import Mathlib.Data.List.Chain
import Mathlib.Tactic.Common

/-!
# Throttles

A throttle lets the first event through that is due, measures from there, and
so on.  When an event is due is any relation between the last one that passed
and the present one; where it keeps the times of a clock a fixed distance
apart, a run lets through no more than its length allows.
-/

namespace AccelObserver.Library.Throttle

variable {Time : Type*} (due : Time → Time → Bool)

/-- The events that pass, behind one that passed at `last`. -/
def passes : Time → List Time → List Time
  | _, [] => []
  | last, now :: more =>
      if due last now then now :: passes now more else passes last more

variable {due}

theorem passes_cons_of_due
    {last now : Time} (isDue : due last now = true) (more : List Time) :
    passes due last (now :: more) = now :: passes due now more := by
  rw [passes, if_pos isDue]

theorem passes_cons_of_not_due
    {last now : Time} (notDue : ¬ due last now = true) (more : List Time) :
    passes due last (now :: more) = passes due last more := by
  rw [passes, if_neg notDue]

/-- Every event that passes is due from the one that passed before it, and
related to it as the events themselves are. -/
theorem isChain_passes
    {Before : Time → Time → Prop} {last : Time} {times : List Time}
    (ordered : (last :: times).Pairwise Before) :
    (last :: passes due last times).IsChain fun before after =>
      Before before after ∧ due before after = true := by
  induction times generalizing last with
  | nil => exact List.IsChain.singleton last
  | cons now more induction =>
      rcases List.pairwise_cons.mp ordered with ⟨fromLast, later⟩
      by_cases isDue : due last now = true
      · rw [passes_cons_of_due isDue]
        exact List.IsChain.cons_cons ⟨fromLast now (by simp), isDue⟩
          (induction later)
      · rw [passes_cons_of_not_due isDue]
        rw [List.pairwise_cons] at later
        exact induction
          (List.pairwise_cons.mpr
            ⟨fun time member => fromLast time (by simp [member]), later.2⟩)

/-- Where events that are due are so far apart, few pass in a given time. -/
theorem length_passes_le
    {clock : Time → Nat} {interval : Nat}
    (apart :
      ∀ before after, clock before ≤ clock after →
        due before after = true → clock before + interval ≤ clock after)
    (last : Time) {times : List Time}
    (forward :
      (last :: times).Pairwise fun before after =>
        clock before ≤ clock after)
    {final : Nat} (inTime : ∀ time ∈ last :: times, clock time ≤ final) :
    clock last + interval * (passes due last times).length ≤ final := by
  induction times generalizing last with
  | nil => simpa [passes] using inTime last (by simp)
  | cons now more induction =>
      rcases List.pairwise_cons.mp forward with ⟨fromLast, later⟩
      rcases List.forall_mem_cons.mp inTime with ⟨lastInTime, laterInTime⟩
      by_cases isDue : due last now = true
      · have here := apart last now (fromLast now (by simp)) isDue
        have rest := induction now later laterInTime
        rw [passes_cons_of_due isDue, List.length_cons, Nat.mul_succ]
        omega
      · rw [passes_cons_of_not_due isDue]
        apply induction last
        · rw [List.pairwise_cons] at later ⊢
          exact ⟨fun time member => fromLast time (by simp [member]), later.2⟩
        · rw [List.forall_mem_cons] at laterInTime ⊢
          exact ⟨lastInTime, laterInTime.2⟩

end AccelObserver.Library.Throttle
