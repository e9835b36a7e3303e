import Mathlib.Data.List.FinRange
import Mathlib.Data.List.Sort
import Mathlib.Tactic.Common

/-!
# Steps of several families

Every item belongs to a family, and steps for items of different families can
be exchanged.  Then only the order within each family matters: a list that
keeps it leads to the same state.
-/

namespace AccelObserver.Library.Families

variable {State Item Family : Type} {step : State → Item → State}

/-- Steps of different families can be exchanged. -/
def Exchange (step : State → Item → State) (family : Item → Family) : Prop :=
  ∀ state left right, family left ≠ family right →
    step (step state left) right = step (step state right) left

/-- A permutation of the first list that keeps the order of any two items of
one family. -/
def KeepsOrder (family : Item → Family) (left right : List Item) : Prop :=
  ∃ place : Fin left.length ≃ Fin right.length,
    (∀ i, right.get (place i) = left.get i) ∧
      ∀ i j, i < j → family (left.get i) = family (left.get j) →
        place i < place j

/-- A step moves past the items of other families. -/
theorem foldl_past
    {family : Item → Family} (exchange : Exchange step family)
    {item : Item} {before : List Item}
    (others : ∀ other ∈ before, family other ≠ family item) (state : State) :
    before.foldl step (step state item) =
      step (before.foldl step state) item := by
  induction before generalizing state with
  | nil => rfl
  | cons other rest induction =>
      rcases List.forall_mem_cons.mp others with ⟨here, later⟩
      rw [List.foldl_cons, List.foldl_cons,
        exchange state item other (Ne.symm here), induction later]

/-- Two items of different families may be exchanged. -/
theorem keepsOrder_swap
    {family : Item → Family} {left right : Item}
    (different : family left ≠ family right) (rest : List Item) :
    KeepsOrder family (left :: right :: rest) (right :: left :: rest) := by
  have zero : 0 < (left :: right :: rest).length := by simp
  have one : 1 < (left :: right :: rest).length := by simp
  have later (i : Nat) (bound : i + 2 < (left :: right :: rest).length) :
      Equiv.swap (⟨0, zero⟩ : Fin (left :: right :: rest).length) ⟨1, one⟩
          ⟨i + 2, bound⟩ =
        ⟨i + 2, bound⟩ := by
    apply Equiv.swap_apply_of_ne_of_ne <;> simp [Fin.ext_iff]
  refine ⟨Equiv.swap ⟨0, zero⟩ ⟨1, one⟩, ?_, ?_⟩
  · rintro ⟨_ | _ | i, bound⟩
    · rw [Equiv.swap_apply_left]
      rfl
    · rw [Equiv.swap_apply_right]
      rfl
    · rw [later i bound]
      rfl
  · rintro ⟨_ | _ | i, iBound⟩ ⟨_ | _ | j, jBound⟩ less same
    · exact absurd less (Nat.lt_irrefl 0)
    · exact absurd same different
    · rw [Equiv.swap_apply_left, later j jBound]
      exact Nat.succ_lt_succ (Nat.zero_lt_succ j)
    · exact absurd less (Nat.not_lt_zero 1)
    · exact absurd less (Nat.lt_irrefl 1)
    · rw [Equiv.swap_apply_right, later j jBound]
      exact Nat.zero_lt_succ (j + 1)
    · exact absurd less (Nat.not_lt_zero (i + 2))
    · exact absurd (Nat.lt_of_succ_lt_succ less) (Nat.not_lt_zero (i + 1))
    · rw [later i iBound, later j jBound]
      exact less

variable [DecidableEq Family] (family : Item → Family)

/-- The items of one family, in their order. -/
def only (name : Family) (items : List Item) : List Item :=
  items.filter fun item => family item = name

theorem only_cons_self (item : Item) (rest : List Item) :
    only family (family item) (item :: rest) =
      item :: only family (family item) rest := by
  simp [only]

theorem only_cons_other
    {name : Family} {item : Item} (other : family item ≠ name)
    (rest : List Item) :
    only family name (item :: rest) = only family name rest := by
  simp [only, other]

theorem only_append (name : Family) (left right : List Item) :
    only family name (left ++ right) =
      only family name left ++ only family name right :=
  List.filter_append ..

/-- The places of the items of one family, in ascending order. -/
def places (name : Family) (items : List Item) : List (Fin items.length) :=
  (List.finRange items.length).filter fun i => family (items.get i) = name

theorem only_eq_map_places (name : Family) (items : List Item) :
    only family name items = (places family name items).map items.get := by
  rw [only]
  conv_lhs => rw [← List.map_get_finRange items]
  rw [List.filter_map]
  rfl

theorem places_ascending (name : Family) (items : List Item) :
    (places family name items).Pairwise (· < ·) :=
  (List.pairwise_lt_finRange _).filter _

theorem mem_places
    {name : Family} {items : List Item} {i : Fin items.length} :
    i ∈ places family name items ↔ family (items.get i) = name := by
  simp [places]

/-- Such a permutation gives every family its items in their order. -/
theorem only_eq_of_keepsOrder
    {left right : List Item} (kept : KeepsOrder family left right)
    (name : Family) : only family name left = only family name right := by
  rcases kept with ⟨place, same, ordered⟩
  have ascending :
      ((places family name left).map place).Pairwise (· < ·) := by
    rw [List.pairwise_map]
    apply (places_ascending family name left).imp_of_mem
    intro i j iMember jMember less
    rw [mem_places] at iMember jMember
    exact ordered i j less (iMember.trans jMember.symm)
  have moved :
      (places family name left).map place = places family name right := by
    apply ascending.eq_of_mem_iff (places_ascending family name right)
    intro j
    rw [List.mem_map, mem_places]
    constructor
    · rintro ⟨i, member, rfl⟩
      rw [same]
      exact (mem_places family).mp member
    · intro here
      refine ⟨place.symm j, ?_, place.apply_symm_apply j⟩
      rw [mem_places, ← same, place.apply_symm_apply]
      exact here
  rw [only_eq_map_places, only_eq_map_places, ← moved, List.map_map]
  exact List.map_congr_left fun i _ => (same i).symm

variable {family}

/-- Lists that agree in every family lead to the same state. -/
theorem foldl_eq_of_only_eq
    (exchange : Exchange step family) {left right : List Item}
    (same : ∀ name, only family name left = only family name right)
    (state : State) : left.foldl step state = right.foldl step state := by
  induction left generalizing right state with
  | nil =>
      cases right with
      | nil => rfl
      | cons item rest =>
          have absent := same (family item)
          rw [only_cons_self] at absent
          cases absent
  | cons item rest induction =>
      have here := same (family item)
      rw [only_cons_self] at here
      rcases List.filter_eq_cons_iff.mp here.symm
        with ⟨before, after, rfl, others, _, _⟩
      have otherFamilies :
          ∀ other ∈ before, family other ≠ family item := by
        simpa using others
      have remaining (name : Family) :
          only family name rest = only family name (before ++ after) := by
        have all := same name
        by_cases own : family item = name
        · subst own
          have none : only family (family item) before = [] :=
            List.filter_eq_nil_iff.mpr others
          rw [only_append, none, only_cons_self, only_cons_self,
            List.nil_append, List.cons.injEq] at all
          rw [only_append, none, List.nil_append]
          exact all.2
        · rw [only_append, only_cons_other family own,
            only_cons_other family own] at all
          rw [only_append]
          exact all
      rw [List.foldl_cons, induction remaining, List.foldl_append,
        List.foldl_append, List.foldl_cons, foldl_past exchange otherFamilies]

/-- Only the order within the families matters. -/
theorem foldl_eq_of_keepsOrder
    (exchange : Exchange step family) {left right : List Item}
    (kept : KeepsOrder family left right) (state : State) :
    left.foldl step state = right.foldl step state :=
  foldl_eq_of_only_eq exchange (only_eq_of_keepsOrder family kept) state

end AccelObserver.Library.Families
