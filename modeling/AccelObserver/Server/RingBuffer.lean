import Mathlib.Data.List.Basic
import Mathlib.Data.Nat.ModEq
import Mathlib.Tactic.Common

/-!
# The ring buffer

`RingBuffer` keeps its items in a vector of fixed size, from `head_` on and
wrapping around its end.  Every member function holds the mutex throughout, so
each is one step.  `contents` is the queue that the buffer stands for.
-/

namespace AccelObserver.Server

/-- The members of a ring buffer and what they keep to. -/
structure RingBuffer (Item : Type) where
  slots : List Item
  head : Nat
  tail : Nat
  count : Nat
  stopped : Bool
  count_le : count ≤ slots.length
  head_wrapped : head % slots.length = head
  tail_eq : tail = (head + count) % slots.length

namespace RingBuffer

variable {Item : Type}

def capacity (ring : RingBuffer Item) : Nat :=
  ring.slots.length

variable [Inhabited Item]

/-- `RingBuffer(capacity)` -/
def new (capacity : Nat) : RingBuffer Item :=
  { slots := List.replicate capacity default
    head := 0
    tail := 0
    count := 0
    stopped := false
    count_le := Nat.zero_le _
    head_wrapped := Nat.zero_mod _
    tail_eq := (Nat.zero_mod _).symm }

/-- The queued items, oldest first. -/
def contents (ring : RingBuffer Item) : List Item :=
  (List.range ring.count).map fun index =>
    ring.slots.getD ((ring.head + index) % ring.slots.length) default

@[simp]
theorem contents_length (ring : RingBuffer Item) :
    ring.contents.length = ring.count := by
  simp [contents]

/-! ## Pushing -/

/-- `try_push` -/
def tryPush (ring : RingBuffer Item) (item : Item) :
    RingBuffer Item × Bool :=
  if full : ring.count = ring.capacity then
    (ring, false)
  else
    ({ ring with
        slots := ring.slots.set ring.tail item
        tail := (ring.tail + 1) % ring.slots.length
        count := ring.count + 1
        count_le := by
          rw [List.length_set]
          exact Nat.lt_of_le_of_ne ring.count_le full
        head_wrapped := by
          rw [List.length_set]
          exact ring.head_wrapped
        tail_eq := by
          rw [List.length_set, ring.tail_eq, Nat.mod_add_mod, Nat.add_assoc] },
      true)

omit [Inhabited Item] in
/-- A full buffer rejects the item and does not change. -/
theorem tryPush_full
    {ring : RingBuffer Item} (full : ring.count = ring.capacity)
    (item : Item) : ring.tryPush item = (ring, false) := by
  rw [tryPush, dif_pos full]

omit [Inhabited Item] in
/-- The slots in use are not the one that is written next. -/
theorem wrapped_ne_tail
    (ring : RingBuffer Item) (room : ring.count < ring.slots.length)
    {index : Nat} (used : index < ring.count) :
    (ring.head + index) % ring.slots.length ≠ ring.tail := by
  rw [ring.tail_eq]
  intro equal
  have congruent : index ≡ ring.count [MOD ring.slots.length] :=
    Nat.ModEq.add_left_cancel' ring.head equal
  have same : index = ring.count := by
    rw [Nat.ModEq, Nat.mod_eq_of_lt (used.trans room),
      Nat.mod_eq_of_lt room] at congruent
    exact congruent
  omega

/-- Otherwise the item is queued behind the others. -/
theorem tryPush_room
    {ring : RingBuffer Item} (room : ring.count ≠ ring.capacity)
    (item : Item) :
    (ring.tryPush item).2 = true ∧
      (ring.tryPush item).1.contents = ring.contents ++ [item] := by
  have below : ring.count < ring.slots.length :=
    Nat.lt_of_le_of_ne ring.count_le room
  have tailBelow : ring.tail < ring.slots.length := by
    rw [ring.tail_eq]
    exact Nat.mod_lt _ (Nat.zero_lt_of_lt below)
  rw [tryPush, dif_neg room]
  refine ⟨rfl, ?_⟩
  simp only [contents, List.range_succ, List.map_append, List.map_cons,
    List.map_nil, List.length_set]
  congr 1
  · apply List.map_congr_left
    intro index member
    have different :=
      wrapped_ne_tail ring below (List.mem_range.mp member)
    rw [List.getD_eq_getElem?_getD, List.getElem?_set_ne (Ne.symm different),
      List.getD_eq_getElem?_getD]
  · rw [← ring.tail_eq, List.getD_eq_getElem?_getD,
      List.getElem?_set_self tailBelow]
    rfl

/-! ## Draining -/

/-- The loop of `drain_nowait`: the items read and where `head_` ends. -/
def drainLoop (slots : List Item) : Nat → Nat → List Item × Nat
  | 0, head => ([], head)
  | count + 1, head =>
      let (items, final) := drainLoop slots count ((head + 1) % slots.length)
      (slots.getD head default :: items, final)

theorem drainLoop_head
    (slots : List Item) (count head : Nat)
    (wrapped : head % slots.length = head) :
    (drainLoop slots count head).2 = (head + count) % slots.length := by
  induction count generalizing head with
  | zero => exact wrapped.symm
  | succ count induction =>
      rw [drainLoop, induction _ (Nat.mod_mod _ _), Nat.mod_add_mod]
      congr 1
      omega

theorem drainLoop_items
    (slots : List Item) (count head : Nat)
    (wrapped : head % slots.length = head) :
    (drainLoop slots count head).1 =
      (List.range count).map fun index =>
        slots.getD ((head + index) % slots.length) default := by
  induction count generalizing head with
  | zero => rfl
  | succ count induction =>
      rw [drainLoop, List.range_succ_eq_map, List.map_cons, List.map_map]
      simp only [induction _ (Nat.mod_mod _ _)]
      congr 1
      · simp [wrapped]
      · apply List.map_congr_left
        intro index _
        simp only [Function.comp_apply, Nat.succ_eq_add_one]
        rw [Nat.mod_add_mod]
        congr 2
        omega

/-- `drain_nowait` -/
def drainNowait (ring : RingBuffer Item) : List Item × RingBuffer Item :=
  ((drainLoop ring.slots ring.count ring.head).1,
    { ring with
      head := (drainLoop ring.slots ring.count ring.head).2
      count := 0
      count_le := Nat.zero_le _
      head_wrapped := by
        rw [drainLoop_head _ _ _ ring.head_wrapped, Nat.mod_mod]
      tail_eq := by
        rw [drainLoop_head _ _ _ ring.head_wrapped, Nat.add_zero,
          Nat.mod_mod]
        exact ring.tail_eq })

/-- Draining takes the whole queue, in order. -/
theorem drainNowait_items (ring : RingBuffer Item) :
    ring.drainNowait.1 = ring.contents :=
  drainLoop_items _ _ _ ring.head_wrapped

@[simp]
theorem drainNowait_contents (ring : RingBuffer Item) :
    ring.drainNowait.2.contents = [] := rfl

end RingBuffer

end AccelObserver.Server
