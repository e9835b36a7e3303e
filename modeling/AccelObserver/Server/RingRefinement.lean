import AccelObserver.Library.BoundedQueue
import AccelObserver.Server.RingBuffer

/-!
# The ring buffer is a bounded queue

The member functions of `RingBuffer` once more, on the members as they are
declared: sizes have 64 bits, and nothing is promised about them.  A remainder
by zero and an access outside of the vector end in `none`.  Neither happens
from the constructor on, and the replies are those of a bounded queue.

Every function holds the mutex throughout, so a run is a list of calls.
-/

namespace AccelObserver.Server.RingRefinement

open AccelObserver.Library
open AccelObserver.Library.BoundedQueue (Op Reply acceptedSince)

/-! ## The code -/

/-- The members of `RingBuffer`. -/
structure Members (Item : Type) where
  buffer : List Item
  capacity : UInt64
  head : UInt64
  tail : UInt64
  count : UInt64
  stopped : Bool

/-- `a % b`, which is undefined for a divisor of zero. -/
def remainder (a b : UInt64) : Option UInt64 :=
  if b = 0 then none else some (a % b)

section Code

variable {Item : Type}

/-- `RingBuffer(capacity)` -/
def new [Inhabited Item] (capacity : UInt64) : Members Item :=
  { buffer := List.replicate capacity.toNat default
    capacity := capacity
    head := 0
    tail := 0
    count := 0
    stopped := false }

/-- `try_push` -/
def tryPush (ring : Members Item) (item : Item) :
    Option (Members Item × Bool) :=
  if ring.count = ring.capacity then
    some (ring, false)
  else if ring.tail.toNat < ring.buffer.length then do
    let tail ← remainder (ring.tail + 1) ring.capacity
    some
      ({ ring with
          buffer := ring.buffer.set ring.tail.toNat item
          tail := tail
          count := ring.count + 1 },
        true)
  else none

/-- The loop of the drains, which goes round `count_` times. -/
def drainLoop : Nat → Members Item → Option (List Item × Members Item)
  | 0, ring => some ([], ring)
  | rounds + 1, ring => do
      let item ← ring.buffer[ring.head.toNat]?
      let head ← remainder (ring.head + 1) ring.capacity
      let (items, final) ←
        drainLoop rounds { ring with head := head, count := ring.count - 1 }
      some (item :: items, final)

/-- `drain_nowait` -/
def drainNowait (ring : Members Item) : Option (List Item × Members Item) :=
  drainLoop ring.count.toNat ring

/-- `stop` -/
def stop (ring : Members Item) : Members Item :=
  { ring with stopped := true }

/-- One call.  A `drain` whose condition does not hold yet goes on waiting. -/
def perform (ring : Members Item) :
    Op Item → Option (Members Item × Reply Item)
  | .tryPush item => do
      let (next, accepted) ← tryPush ring item
      some (next, .pushed accepted)
  | .drain =>
      if 0 < ring.count ∨ ring.stopped = true then do
        let (items, next) ← drainNowait ring
        some (next, .drained items)
      else some (ring, .blocked)
  | .drainNowait => do
      let (items, next) ← drainNowait ring
      some (next, .drained items)
  | .stop => some (stop ring, .stopped)
  | .size => some (ring, .size ring.count.toNat)
  | .empty => some (ring, .empty (ring.count == 0))

/-- One call after the other. -/
def run (ring : Members Item) :
    List (Op Item) → Option (Members Item × List (Reply Item))
  | [] => some (ring, [])
  | op :: ops => do
      let (next, reply) ← perform ring op
      let (final, replies) ← run next ops
      some (final, reply :: replies)

end Code

/-! ## The members keep to their rules -/

/-- The queue that a ring buffer stands for. -/
def queueOf {Item : Type} [Inhabited Item] (ring : RingBuffer Item) :
    BoundedQueue Item :=
  { capacity := ring.capacity
    items := ring.contents
    stopped := ring.stopped
    within := by
      rw [RingBuffer.contents_length]
      exact ring.count_le }

/-- The members have the values of a ring buffer that keeps to its rules. -/
structure Represents {Item : Type} (members : Members Item)
    (ring : RingBuffer Item) : Prop where
  buffer : members.buffer = ring.slots
  capacity : members.capacity.toNat = ring.slots.length
  head : members.head.toNat = ring.head
  tail : members.tail.toNat = ring.tail
  count : members.count.toNat = ring.count
  stopped : members.stopped = ring.stopped

/-- The members stand for a queue. -/
def StandsFor {Item : Type} [Inhabited Item] (members : Members Item)
    (queue : BoundedQueue Item) : Prop :=
  ∃ ring, Represents members ring ∧ queue = queueOf ring

section Arithmetic

theorem remainder_eq_some
    {a b : UInt64} (positive : 0 < b.toNat) :
    remainder a b = some (a % b) := by
  refine if_neg ?_
  rintro rfl
  exact Nat.lt_irrefl 0 positive

/-- One more than a position does not go past the largest number. -/
theorem toNat_add_one
    {position bound : UInt64} (below : position.toNat < bound.toNat) :
    (position + 1).toNat = position.toNat + 1 := by
  have limit := bound.toNat_lt
  rw [UInt64.toNat_add, UInt64.toNat_one]
  exact Nat.mod_eq_of_lt (by omega)

theorem toNat_next
    {position bound : UInt64} (below : position.toNat < bound.toNat) :
    ((position + 1) % bound).toNat = (position.toNat + 1) % bound.toNat := by
  rw [UInt64.toNat_mod, toNat_add_one below]

end Arithmetic

section Steps

variable {Item : Type} [Inhabited Item] {members : Members Item}
  {ring : RingBuffer Item}

omit [Inhabited Item] in
theorem count_eq_capacity_iff (represents : Represents members ring) :
    members.count = members.capacity ↔ ring.count = ring.capacity := by
  rw [← UInt64.toNat_inj, represents.count, represents.capacity]
  rfl

theorem represents_new (capacity : UInt64) :
    Represents (new capacity : Members Item)
      (RingBuffer.new capacity.toNat) where
  buffer := rfl
  capacity := List.length_replicate.symm
  head := rfl
  tail := rfl
  count := rfl
  stopped := rfl

omit [Inhabited Item] in
/-- Pushing reads and computes nothing that is undefined. -/
theorem tryPush_represents
    (represents : Represents members ring) (item : Item) :
    ∃ next,
      tryPush members item = some (next, (ring.tryPush item).2) ∧
        Represents next (ring.tryPush item).1 := by
  by_cases full : ring.count = ring.capacity
  · refine ⟨members, ?_, ?_⟩
    · rw [tryPush, if_pos ((count_eq_capacity_iff represents).mpr full),
        RingBuffer.tryPush_full full]
    · rw [RingBuffer.tryPush_full full]
      exact represents
  · have room : ring.count < ring.slots.length :=
      Nat.lt_of_le_of_ne ring.count_le full
    have positive : 0 < members.capacity.toNat := by
      rw [represents.capacity]
      exact Nat.zero_lt_of_lt room
    have tailBelow : members.tail.toNat < members.capacity.toNat := by
      rw [represents.tail, ring.tail_eq, ← represents.capacity]
      exact Nat.mod_lt _ positive
    have inside : members.tail.toNat < members.buffer.length := by
      rw [represents.buffer, ← represents.capacity]
      exact tailBelow
    have countBelow : members.count.toNat < members.capacity.toNat := by
      rw [represents.count, represents.capacity]
      exact room
    rw [tryPush, if_neg (mt (count_eq_capacity_iff represents).mp full),
      if_pos inside, remainder_eq_some positive, RingBuffer.tryPush,
      dif_neg full]
    refine ⟨_, rfl, ?_⟩
    constructor
    · simp only [represents.buffer, represents.tail]
    · simp only [represents.capacity, List.length_set]
    · exact represents.head
    · simp only [toNat_next tailBelow, represents.tail, represents.capacity]
    · simp only [toNat_add_one countBelow, represents.count]
    · exact represents.stopped

/-- The loop takes what the queue holds and leaves nothing. -/
theorem drainLoop_eq
    {rounds : Nat} (counted : members.count.toNat = rounds)
    (sized : members.buffer.length = members.capacity.toNat)
    (within : rounds ≤ members.capacity.toNat)
    (headBelow : 0 < rounds → members.head.toNat < members.capacity.toNat) :
    ∃ head,
      drainLoop rounds members =
          some
            ((RingBuffer.drainLoop members.buffer rounds
                members.head.toNat).1,
              { members with head := head, count := 0 }) ∧
        head.toNat =
          (RingBuffer.drainLoop members.buffer rounds members.head.toNat).2 := by
  induction rounds generalizing members with
  | zero =>
      have none : members.count = 0 := UInt64.toNat_inj.mp counted
      refine ⟨members.head, ?_, rfl⟩
      rw [drainLoop, RingBuffer.drainLoop, ← none]
  | succ rounds induction =>
      have below := headBelow rounds.succ_pos
      have positive : 0 < members.capacity.toNat := Nat.zero_lt_of_lt below
      have inside : members.head.toNat < members.buffer.length := by
        rw [sized]
        exact below
      have nextHead :
          ((members.head + 1) % members.capacity).toNat =
            (members.head.toNat + 1) % members.buffer.length := by
        rw [toNat_next below, sized]
      have nextCount : (members.count - 1).toNat = rounds := by
        have one : 1 ≤ members.count := by
          rw [UInt64.le_iff_toNat_le, counted]
          exact Nat.succ_le_succ (Nat.zero_le _)
        rw [UInt64.toNat_sub_of_le _ _ one, counted]
        rfl
      have nextBelow :
          ((members.head + 1) % members.capacity).toNat <
            members.capacity.toNat := by
        rw [nextHead, sized]
        exact Nat.mod_lt _ positive
      rcases @induction
          { members with
            head := (members.head + 1) % members.capacity
            count := members.count - 1 }
          nextCount sized (Nat.le_of_succ_le within) (fun _ => nextBelow) with
        ⟨head, drained, headEq⟩
      rw [nextHead] at drained headEq
      refine ⟨head, ?_, headEq⟩
      rw [drainLoop, List.getElem?_eq_getElem inside,
        remainder_eq_some positive]
      simp only [Option.bind_eq_bind, Option.bind_some, drained,
        RingBuffer.drainLoop, List.getD_eq_getElem?_getD,
        List.getElem?_eq_getElem inside, Option.getD_some]

theorem drainNowait_represents (represents : Represents members ring) :
    ∃ next,
      drainNowait members = some (ring.contents, next) ∧
        Represents next ring.drainNowait.2 := by
  have sized : members.buffer.length = members.capacity.toNat := by
    rw [represents.buffer, represents.capacity]
  have within : ring.count ≤ members.capacity.toNat := by
    rw [represents.capacity]
    exact ring.count_le
  have headBelow (some : 0 < ring.count) :
      members.head.toNat < members.capacity.toNat := by
    rw [represents.head, represents.capacity, ← ring.head_wrapped]
    exact Nat.mod_lt _ (some.trans_le ring.count_le)
  rcases drainLoop_eq represents.count sized within headBelow with
    ⟨head, drained, headEq⟩
  refine ⟨{ members with head := head, count := 0 }, ?_, ?_⟩
  · rw [drainNowait, represents.count, drained, represents.buffer,
      represents.head, ← RingBuffer.drainNowait_items]
    rfl
  · rw [represents.buffer, represents.head] at headEq
    exact
      { buffer := represents.buffer
        capacity := represents.capacity
        head := headEq
        tail := represents.tail
        count := rfl
        stopped := represents.stopped }

/-! ## One call -/

theorem full_iff (ring : RingBuffer Item) :
    (queueOf ring).items.length = (queueOf ring).capacity ↔
      ring.count = ring.capacity := by
  rw [queueOf, RingBuffer.contents_length]

theorem queueOf_tryPush (ring : RingBuffer Item) (item : Item) :
    (queueOf ring).tryPush item =
      (queueOf (ring.tryPush item).1, (ring.tryPush item).2) := by
  by_cases full : ring.count = ring.capacity
  · rw [BoundedQueue.tryPush, dif_pos ((full_iff ring).mpr full),
      RingBuffer.tryPush_full full]
  · rw [BoundedQueue.tryPush, dif_neg (mt (full_iff ring).mp full)]
    rcases RingBuffer.tryPush_room full item with ⟨accepted, contents⟩
    have kept :
        (ring.tryPush item).1.capacity = ring.capacity ∧
          (ring.tryPush item).1.stopped = ring.stopped := by
      rw [RingBuffer.tryPush, dif_neg full]
      exact ⟨List.length_set, rfl⟩
    refine Prod.ext (BoundedQueue.ext ?_ ?_ ?_) accepted.symm
    · exact kept.1.symm
    · exact contents.symm
    · exact kept.2.symm

/-- There is something to wait for exactly if the queue is not blocked. -/
theorem blocked_iff (represents : Represents members ring) :
    ¬ (0 < members.count ∨ members.stopped = true) ↔
      (queueOf ring).items = [] ∧ (queueOf ring).stopped = false := by
  have empty : (queueOf ring).items = [] ↔ ring.count = 0 := by
    rw [queueOf, ← List.length_eq_zero_iff, RingBuffer.contents_length]
  rw [empty, not_or, Bool.not_eq_true, UInt64.lt_iff_toNat_lt,
    represents.count, represents.stopped, UInt64.toNat_zero, Nat.not_lt,
    Nat.le_zero]
  rfl

/-- A call is defined, and replies as the queue does. -/
theorem perform_standsFor
    {queue : BoundedQueue Item} (stands : StandsFor members queue)
    (op : Op Item) :
    ∃ next,
      perform members op = some (next, (queue.perform op).2) ∧
        StandsFor next (queue.perform op).1 := by
  rcases stands with ⟨ring, represents, rfl⟩
  rcases drainNowait_represents represents with
    ⟨emptied, drained, emptiedRepresents⟩
  cases op with
  | tryPush item =>
      rcases tryPush_represents represents item with
        ⟨next, pushed, nextRepresents⟩
      refine ⟨next, ?_, _, nextRepresents, ?_⟩
      · simp only [perform, pushed, BoundedQueue.perform, queueOf_tryPush]
        rfl
      · exact congrArg Prod.fst (queueOf_tryPush ring item)
  | drain =>
      by_cases waits : 0 < members.count ∨ members.stopped = true
      · have ready := mt (blocked_iff represents).mpr (not_not.mpr waits)
        simp only [perform, if_pos waits, BoundedQueue.perform, if_neg ready,
          drained]
        exact ⟨emptied, rfl, _, emptiedRepresents, rfl⟩
      · have blocked := (blocked_iff represents).mp waits
        simp only [perform, if_neg waits, BoundedQueue.perform,
          if_pos blocked]
        exact ⟨members, rfl, ring, represents, rfl⟩
  | drainNowait =>
      refine ⟨emptied, ?_, _, emptiedRepresents, rfl⟩
      simp only [perform, drained]
      rfl
  | stop =>
      refine ⟨_, rfl, { ring with stopped := true }, ?_, rfl⟩
      exact { represents with stopped := rfl }
  | size =>
      refine ⟨members, ?_, ring, represents, rfl⟩
      simp only [perform, represents.count, BoundedQueue.perform, queueOf,
        RingBuffer.contents_length]
  | empty =>
      refine ⟨members, ?_, ring, represents, rfl⟩
      have isEmpty : (members.count == 0) = ring.contents.isEmpty := by
        rw [Bool.eq_iff_iff, beq_iff_eq, List.isEmpty_iff_length_eq_zero,
          RingBuffer.contents_length, ← represents.count,
          ← UInt64.toNat_inj]
        rfl
      simp only [perform, isEmpty, BoundedQueue.perform, queueOf]

end Steps

/-! ## Runs -/

section Runs

variable {Item : Type} [Inhabited Item]

theorem run_standsFor
    (ops : List (Op Item)) {members : Members Item}
    {queue : BoundedQueue Item} (stands : StandsFor members queue) :
    ∃ final,
      run members ops = some (final, (queue.run ops).2) ∧
        StandsFor final (queue.run ops).1 := by
  induction ops generalizing members queue with
  | nil => exact ⟨members, rfl, stands⟩
  | cons op ops induction =>
      rcases perform_standsFor stands op with ⟨next, performed, nextStands⟩
      rcases induction nextStands with ⟨final, ran, finalStands⟩
      refine ⟨final, ?_, finalStands⟩
      simp only [run, performed, Option.bind_eq_bind, Option.bind_some, ran,
        BoundedQueue.run]

/-- What a caller and the members can rely on behind some calls. -/
structure Refines (capacity : UInt64) (ops : List (Op Item))
    (ring : Members Item) (replies : List (Reply Item)) : Prop where
  /-- The replies are those of a bounded queue. -/
  answered :
    replies = ((BoundedQueue.new capacity.toNat).run ops).2
  /-- Each drain gives what was accepted since the one before it. -/
  drained :
    ∀ before after op items,
      ops.zip replies = before ++ (op, .drained items) :: after →
        items = acceptedSince before
  count_le : ring.count ≤ capacity
  wrapped :
    0 < capacity →
      ring.head < capacity ∧ ring.tail < capacity ∧
        ring.tail.toNat =
          (ring.head.toNat + ring.count.toNat) % capacity.toNat
  /-- Pushing fails exactly if the queue is full, and changes nothing then. -/
  rejected :
    ∀ item, ∃ next accepted,
      tryPush ring item = some (next, accepted) ∧
        (accepted = false ↔
          ((BoundedQueue.new capacity.toNat).run ops).1.items.length =
            capacity.toNat) ∧
        (accepted = false → next = ring)

theorem standsFor_new (capacity : UInt64) :
    StandsFor (new capacity : Members Item)
      (BoundedQueue.new capacity.toNat) := by
  refine ⟨_, represents_new capacity, ?_⟩
  ext1
  · exact List.length_replicate.symm
  · rfl
  · rfl

section Members

variable {members : Members Item} {ring : RingBuffer Item}

omit [Inhabited Item] in
theorem count_le_of_represents (represents : Represents members ring) :
    members.count ≤ members.capacity := by
  rw [UInt64.le_iff_toNat_le, represents.count, represents.capacity]
  exact ring.count_le

omit [Inhabited Item] in
theorem wrapped_of_represents
    (represents : Represents members ring) (positive : 0 < members.capacity) :
    members.head < members.capacity ∧ members.tail < members.capacity ∧
      members.tail.toNat =
        (members.head.toNat + members.count.toNat) %
          members.capacity.toNat := by
  have sized : 0 < members.capacity.toNat :=
    UInt64.lt_iff_toNat_lt.mp positive
  have tail :
      members.tail.toNat =
        (members.head.toNat + members.count.toNat) %
          members.capacity.toNat := by
    rw [represents.tail, represents.head, represents.count,
      represents.capacity]
    exact ring.tail_eq
  have head :
      members.head.toNat = members.head.toNat % members.capacity.toNat := by
    rw [represents.head, represents.capacity]
    exact ring.head_wrapped.symm
  refine ⟨?_, ?_, tail⟩
  · rw [UInt64.lt_iff_toNat_lt, head]
    exact Nat.mod_lt _ sized
  · rw [UInt64.lt_iff_toNat_lt, tail]
    exact Nat.mod_lt _ sized

theorem rejected_of_represents
    (represents : Represents members ring) (item : Item) :
    ∃ next accepted,
      tryPush members item = some (next, accepted) ∧
        (accepted = false ↔
          (queueOf ring).items.length = (queueOf ring).capacity) ∧
        (accepted = false → next = members) := by
  by_cases full : ring.count = ring.capacity
  · have same := (count_eq_capacity_iff represents).mpr full
    refine ⟨members, false, ?_, ?_, fun _ => rfl⟩
    · rw [tryPush, if_pos same]
    · simp only [full_iff, full]
  · rcases tryPush_represents represents item with ⟨next, pushed, _⟩
    rw [(RingBuffer.tryPush_room full item).1] at pushed
    refine ⟨next, true, pushed, ?_, ?_⟩
    · simp only [full_iff, full, Bool.true_eq_false]
    · intro rejected
      cases rejected

end Members

/--
From its constructor on, whatever its capacity and whatever is called, the
ring buffer computes nothing undefined and is a bounded queue.
-/
theorem run_refines (capacity : UInt64) (ops : List (Op Item)) :
    ∃ ring replies,
      run (new capacity) ops = some (ring, replies) ∧
        Refines capacity ops ring replies := by
  rcases run_standsFor ops (standsFor_new capacity) with
    ⟨final, ran, ring, represents, queue⟩
  have sized : final.capacity = capacity := by
    rw [← UInt64.toNat_inj, represents.capacity]
    have kept :=
      (BoundedQueue.new capacity.toNat : BoundedQueue Item).run_capacity ops
    rwa [queue] at kept
  refine ⟨final, _, ran, ?_⟩
  constructor
  · rfl
  · intro before after op items history
    exact BoundedQueue.run_drained _ ops history
  · rw [← sized]
    exact count_le_of_represents represents
  · rw [← sized]
    exact wrapped_of_represents represents
  · intro item
    rcases rejected_of_represents represents item with
      ⟨next, accepted, pushed, full, kept⟩
    refine ⟨next, accepted, pushed, ?_, kept⟩
    have room : (queueOf ring).capacity = capacity.toNat := by
      rw [← sized]
      exact represents.capacity.symm
    rw [queue, full, room]

/-- Three pushes on two places, two of them around the end of the vector. -/
example :
    (run (new 2 : Members Nat)
        [.tryPush 1, .drain, .tryPush 2, .tryPush 3, .tryPush 4, .size,
          .drain, .drain]).map Prod.snd =
      some
        [.pushed true, .drained [1], .pushed true, .pushed true,
          .pushed false, .size 2, .drained [2, 3], .blocked] := by
  decide

end Runs

end AccelObserver.Server.RingRefinement
