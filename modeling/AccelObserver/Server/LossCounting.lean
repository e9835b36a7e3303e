import AccelObserver.Library.Jumps
import AccelObserver.Server.StatsAnalyzer

/-!
# What the loss count says

The count compares each sequence number with the one before it.  On a stream
in order it is the sum of the gaps, unless a packet carries the number that
marks an analyzer without packets.  In any order it counts how often numbers
are jumped over, which is more than what is missing as soon as late packets
make the stream jump over the same numbers again.
-/

namespace AccelObserver.Server.LossCounting

open AccelObserver.Library.Jumps
open StatsAnalyzer (Reception lost lostAlong)

/-- An analyzer that has just been made or reset. -/
def Fresh (stats : StatsAnalyzer) : Prop :=
  (∃ historySize reportIntervalMs,
    stats = StatsAnalyzer.new historySize reportIntervalMs) ∨
  ∃ used : StatsAnalyzer, stats = used.reset

theorem Fresh.isNew {stats : StatsAnalyzer} (fresh : Fresh stats) :
    ∃ historySize reportIntervalMs,
      stats = StatsAnalyzer.new historySize reportIntervalMs := by
  rcases fresh with new | ⟨used, rfl⟩
  · exact new
  · exact ⟨_, _, used.reset_eq_new⟩

theorem Fresh.counters {stats : StatsAnalyzer} (fresh : Fresh stats) :
    stats.packetsReceived = 0 ∧ stats.packetsLost = 0 ∧
      stats.lastSeq = uint32Max := by
  rcases fresh.isNew with ⟨historySize, reportIntervalMs, rfl⟩
  exact ⟨rfl, rfl, rfl⟩

/-- From a fresh analyzer, the count is what the numbers add to it. -/
theorem Fresh.packetsLost_recordAll
    {stats : StatsAnalyzer} (fresh : Fresh stats)
    (receptions : List Reception) :
    (stats.recordAll receptions).packetsLost =
      lostAlong uint32Max (receptions.map Reception.seq) := by
  rcases fresh.counters with ⟨_, noneLost, notStarted⟩
  rw [StatsAnalyzer.recordAll_packetsLost, noneLost, notStarted,
    Nat.zero_add]

theorem Fresh.packetsReceived_recordAll
    {stats : StatsAnalyzer} (fresh : Fresh stats)
    (receptions : List Reception) :
    (stats.recordAll receptions).packetsReceived = receptions.length := by
  rw [StatsAnalyzer.recordAll_packetsReceived, fresh.counters.1,
    Nat.zero_add]

/-! ## Numbers that are left out -/

/-- How many numbers are left out between two packets, around 2^32. -/
def leftOut (previous seq : UInt32) : Nat :=
  (((seq.toNat : ℤ) - previous.toNat - 1) % 2 ^ 32).toNat

/-- Of these, what is counted: nothing behind the marker, and nothing where
10000 or more are left out. -/
def countedGap (previous seq : UInt32) : Nat :=
  if previous = uint32Max ∨ 10000 ≤ leftOut previous seq then 0
  else leftOut previous seq

/-- The sum over the packets that follow each other. -/
def countedGaps (seqs : List UInt32) : Nat :=
  ((seqs.zip seqs.tail).map fun pair => countedGap pair.1 pair.2).sum

theorem toNat_sub_succ (previous seq : UInt32) :
    (seq - (previous + 1)).toNat = leftOut previous seq := by
  have seqBound := seq.toNat_lt
  have previousBound := previous.toNat_lt
  have one : (1 : UInt32).toNat = 1 := rfl
  rw [leftOut, UInt32.toNat_sub, UInt32.toNat_add, one]
  omega

theorem lost_eq_countedGap (previous seq : UInt32) :
    lost previous seq = countedGap previous seq := by
  by_cases marker : previous = uint32Max
  · rw [marker, StatsAnalyzer.lost_uint32Max, countedGap, if_pos (Or.inl rfl)]
  · have near :
        seq - (previous + 1) < 10000 ↔ leftOut previous seq < 10000 := by
      rw [UInt32.lt_iff_toNat_lt, toNat_sub_succ]
      rfl
    simp only [StatsAnalyzer.lost_eq_of_ne marker, near, toNat_sub_succ,
      countedGap, marker, false_or]
    split_ifs <;> omega

theorem lostAlong_eq_countedGaps (previous : UInt32) (seqs : List UInt32) :
    lostAlong previous seqs = countedGaps (previous :: seqs) := by
  induction seqs generalizing previous with
  | nil => rfl
  | cons seq seqs induction =>
      rw [lostAlong, induction, lost_eq_countedGap]
      simp [countedGaps]

/-- The count of a new analyzer. -/
theorem lostAlong_uint32Max (seqs : List UInt32) :
    lostAlong uint32Max seqs = countedGaps seqs := by
  cases seqs with
  | nil => rfl
  | cons seq seqs =>
      rw [lostAlong, StatsAnalyzer.lost_uint32Max, Nat.zero_add,
        lostAlong_eq_countedGaps]

/-! ## Streams in order -/

/-- Each number is the previous one plus one plus a gap below 10000. -/
def InOrder : List UInt32 → List Nat → Prop
  | [], gaps => gaps = []
  | [_], gaps => gaps = []
  | previous :: seq :: rest, gaps =>
      ∃ gap later, gaps = gap :: later ∧ gap < 10000 ∧
        seq = previous + 1 + UInt32.ofNat gap ∧ InOrder (seq :: rest) later

/-- Both counters are right for a stream with these gaps. -/
def Exact (stats : StatsAnalyzer) (receptions : List Reception)
    (gaps : List Nat) : Prop :=
  (stats.recordAll receptions).packetsLost = gaps.sum ∧
    (stats.recordAll receptions).packetsReceived = receptions.length

/-- No gap follows a packet that carries the marker as its number. -/
def NoGapAfterMarker (seqs : List UInt32) (gaps : List Nat) : Prop :=
  ∀ step ∈ seqs.zip gaps, step.1 = uint32Max → step.2 = 0

/-- The gaps that follow the marker. -/
def gapsAfterMarker (seqs : List UInt32) (gaps : List Nat) : Nat :=
  ((seqs.zip gaps).map fun step =>
    if step.1 = uint32Max then step.2 else 0).sum

theorem gapsAfterMarker_eq_zero_iff (seqs : List UInt32) (gaps : List Nat) :
    gapsAfterMarker seqs gaps = 0 ↔ NoGapAfterMarker seqs gaps := by
  rw [gapsAfterMarker, List.sum_eq_zero_iff_forall_eq_nat, List.forall_mem_map]
  simp only [ite_eq_right_iff, NoGapAfterMarker]

/-- A gap is counted, except after the marker. -/
theorem lost_of_gap
    {previous : UInt32} {gap : Nat} (near : gap < 10000) :
    lost previous (previous + 1 + UInt32.ofNat gap) =
      if previous = uint32Max then 0 else gap := by
  split_ifs with marker
  · rw [marker, StatsAnalyzer.lost_uint32Max]
  · have distance :
        previous + 1 + UInt32.ofNat gap - (previous + 1) =
          UInt32.ofNat gap := by
      rw [UInt32.add_comm, UInt32.add_sub_cancel]
    have value : (UInt32.ofNat gap).toNat = gap :=
      UInt32.toNat_ofNat_of_lt' (by
        rw [UInt32.size]
        omega)
    have small : UInt32.ofNat gap < 10000 := by
      rw [UInt32.lt_iff_toNat_lt, value]
      exact near
    rw [StatsAnalyzer.lost_eq_of_ne marker, distance, if_pos small, value]

/-- The gaps of a stream are counted ones and gaps behind the marker. -/
theorem lostAlong_add_gapsAfterMarker
    {previous : UInt32} {seqs : List UInt32} {gaps : List Nat}
    (inOrder : InOrder (previous :: seqs) gaps) :
    lostAlong previous seqs + gapsAfterMarker (previous :: seqs) gaps =
      gaps.sum := by
  induction seqs generalizing previous gaps with
  | nil =>
      obtain rfl : gaps = [] := inOrder
      rfl
  | cons seq rest induction =>
      rcases inOrder with ⟨gap, later, rfl, near, rfl, inOrder⟩
      have behind := induction inOrder
      have first :
          gapsAfterMarker
              (previous :: (previous + 1 + UInt32.ofNat gap) :: rest)
              (gap :: later) =
            (if previous = uint32Max then gap else 0) +
              gapsAfterMarker
                ((previous + 1 + UInt32.ofNat gap) :: rest) later := by
        simp [gapsAfterMarker]
      rw [lostAlong, lost_of_gap near, first, List.sum_cons, ← behind]
      split_ifs <;> omega

/--
The two counters are right for a stream in order if and only if no gap
follows a packet numbered 2^32 - 1.
-/
theorem exact_iff
    {stats : StatsAnalyzer} (fresh : Fresh stats)
    {receptions : List Reception} {gaps : List Nat}
    (inOrder : InOrder (receptions.map Reception.seq) gaps) :
    Exact stats receptions gaps ↔
      NoGapAfterMarker (receptions.map Reception.seq) gaps := by
  rw [Exact, fresh.packetsLost_recordAll, fresh.packetsReceived_recordAll,
    ← gapsAfterMarker_eq_zero_iff]
  cases receptions with
  | nil =>
      obtain rfl : gaps = [] := inOrder
      simp [lostAlong, gapsAfterMarker]
  | cons reception rest =>
      have total := lostAlong_add_gapsAfterMarker inOrder
      rw [List.map_cons, lostAlong, StatsAnalyzer.lost_uint32Max]
      constructor
      · intro exactly
        omega
      · intro none
        exact ⟨by omega, rfl⟩

/-- The number 2^32 - 1, then 5: the numbers 0 to 4 are lost. -/
def wrapReceptions : List Reception :=
  [⟨1000, 990, 0xFFFFFFFF⟩, ⟨1060, 1050, 5⟩]

theorem wrapReceptions_inOrder :
    InOrder (wrapReceptions.map Reception.seq) [5] :=
  ⟨5, [], rfl, by decide, rfl, rfl⟩

theorem wrapReceptions_not_exact :
    Fresh (StatsAnalyzer.new 200 1000) ∧
      InOrder (wrapReceptions.map Reception.seq) [5] ∧
      ¬ Exact (StatsAnalyzer.new 200 1000) wrapReceptions [5] := by
  refine ⟨.inl ⟨200, 1000, rfl⟩, wrapReceptions_inOrder, ?_⟩
  rintro ⟨counted, _⟩
  rw [StatsAnalyzer.recordAll_packetsLost] at counted
  exact absurd counted (by decide)

theorem exact_iff_wrapReceptions :
    Exact (StatsAnalyzer.new 200 1000) wrapReceptions [5] ↔
      NoGapAfterMarker (wrapReceptions.map Reception.seq) [5] :=
  exact_iff (.inl ⟨200, 1000, rfl⟩) wrapReceptions_inOrder

/-! ## Streams in any order -/

/-- The numbers come from fewer than 10000 consecutive values. -/
def InWindow (seqs : List UInt32) : Prop :=
  ∃ low width, width < 10000 ∧ low + width ≤ 2 ^ 32 ∧
    ∀ seq ∈ seqs, low ≤ seq.toNat ∧ seq.toNat < low + width

/-- The values from the smallest to the largest number. -/
def spanned (numbers : List Nat) : Finset Nat :=
  Finset.Icc (numbers.min?.getD 0) (numbers.max?.getD 0)

/-- The values between the smallest and the largest that never came. -/
def missing (numbers : List Nat) : Finset Nat :=
  (spanned numbers).filter (· ∉ numbers)

/-- No more is reported as lost than is missing. -/
def NotOverReported (stats : StatsAnalyzer) (receptions : List Reception) :
    Prop :=
  (stats.recordAll receptions).packetsLost ≤
    (missing (receptions.map (·.seq.toNat))).card

/--
The passes that nothing missing accounts for: those over numbers that have
come or come later, and those over a missing number after the first.
-/
def superfluousPasses (numbers : List Nat) : Nat :=
  ∑ number ∈ spanned numbers,
    if number ∉ numbers then passes number numbers - 1
    else passes number numbers

/-- The missing numbers that are never passed over upwards. -/
def unpassed (numbers : List Nat) : Finset Nat :=
  (spanned numbers).filter
    fun number => number ∉ numbers ∧ passes number numbers = 0

theorem mem_spanned_iff {numbers : List Nat} (received : numbers ≠ [])
    (number : Nat) :
    number ∈ spanned numbers ↔
      (∃ low ∈ numbers, low ≤ number) ∧ ∃ high ∈ numbers, number ≤ high := by
  rcases Option.isSome_iff_exists.mp
      (List.isSome_min?_of_ne_nil received) with ⟨least, smallest⟩
  rcases Option.isSome_iff_exists.mp
      (List.isSome_max?_of_ne_nil received) with ⟨greatest, largest⟩
  simp only [spanned, Finset.mem_Icc, smallest, largest, Option.getD_some]
  rw [List.min?_eq_some_iff] at smallest
  rw [List.max?_eq_some_iff] at largest
  constructor
  · rintro ⟨lower, upper⟩
    exact ⟨⟨least, smallest.1, lower⟩, greatest, largest.1, upper⟩
  · rintro ⟨⟨low, lowMember, lower⟩, high, highMember, upper⟩
    exact ⟨(smallest.2 low lowMember).trans lower,
      upper.trans (largest.2 high highMember)⟩

theorem mem_spanned {numbers : List Nat} {number : Nat}
    (member : number ∈ numbers) : number ∈ spanned numbers :=
  (mem_spanned_iff (List.ne_nil_of_mem member) number).mpr
    ⟨⟨number, member, Nat.le_refl _⟩, number, member, Nat.le_refl _⟩

/-- A sequence that starts at its smallest number passes all it misses. -/
theorem unpassed_eq_empty {first : Nat} {rest : List Nat}
    (smallest : ∀ later ∈ rest, first ≤ later) :
    unpassed (first :: rest) = ∅ := by
  rw [unpassed, Finset.filter_eq_empty_iff]
  rintro number member ⟨absent, notPassed⟩
  rcases (mem_spanned_iff (List.cons_ne_nil _ _) number).mp member
    with ⟨⟨low, lowMember, lower⟩, high, highMember, upper⟩
  simp only [List.mem_cons, not_or] at absent lowMember highMember
  have below : first < number := by
    rcases lowMember with rfl | lowMember
    · omega
    · have := smallest low lowMember
      omega
  have above : ∃ later ∈ rest, number < later := by
    rcases highMember with rfl | highMember
    · omega
    · have different : high ≠ number := fun same =>
        absent.2 (same ▸ highMember)
      exact ⟨high, highMember, by omega⟩
  exact absurd notPassed
    (passes_pos_of_start_lt below absent.2 above).ne'

/-- Within a window, what is lost is what is skipped going up. -/
theorem lost_of_near
    {previous seq : UInt32}
    (notAhead : seq.toNat < previous.toNat + 10000)
    (notBehind : previous.toNat < seq.toNat + 10000) :
    lost previous seq = seq.toNat - previous.toNat - 1 := by
  by_cases marker : previous = uint32Max
  · have highest : previous.toNat = 2 ^ 32 - 1 := by
      rw [marker]
      rfl
    have bounded := seq.toNat_lt
    rw [marker, StatsAnalyzer.lost_uint32Max, ← marker]
    omega
  · have notLast : previous.toNat + 1 < 2 ^ 32 := by
      have bounded := previous.toNat_lt
      have different : previous.toNat ≠ 2 ^ 32 - 1 := fun highest =>
        marker (UInt32.toNat_inj.mp highest)
      omega
    have expected : (previous + 1).toNat = previous.toNat + 1 := by
      rw [UInt32.toNat_add, UInt32.toNat_one, Nat.mod_eq_of_lt notLast]
    have bounded := seq.toNat_lt
    have limit : (10000 : UInt32).toNat = 10000 := rfl
    simp only [StatsAnalyzer.lost_eq_of_ne marker, UInt32.lt_iff_toNat_lt,
      UInt32.toNat_sub, expected, limit]
    split_ifs <;> omega

theorem InWindow.tail {seq : UInt32} {seqs : List UInt32}
    (window : InWindow (seq :: seqs)) : InWindow seqs := by
  rcases window with ⟨low, width, narrow, noWrap, inside⟩
  exact ⟨low, width, narrow, noWrap, (List.forall_mem_cons.mp inside).2⟩

/-- Along a sequence in a window, what is lost is what is skipped. -/
theorem lostAlong_eq_skipped
    {previous : UInt32} {seqs : List UInt32}
    (window : InWindow (previous :: seqs)) :
    lostAlong previous seqs =
      skipped (previous.toNat :: seqs.map UInt32.toNat) := by
  induction seqs generalizing previous with
  | nil => rfl
  | cons seq rest induction =>
      have step :
          lost previous seq = seq.toNat - previous.toNat - 1 := by
        rcases window with ⟨low, width, narrow, _, inside⟩
        have first := inside previous List.mem_cons_self
        have second :=
          inside seq (List.mem_cons_of_mem _ List.mem_cons_self)
        exact lost_of_near (by omega) (by omega)
      rw [lostAlong, step, induction window.tail, List.map_cons, skipped]

/-- A fresh analyzer reports how often numbers were jumped over. -/
theorem packetsLost_eq_sum_passes
    {stats : StatsAnalyzer} (fresh : Fresh stats)
    {receptions : List Reception}
    (window : InWindow (receptions.map Reception.seq)) :
    (stats.recordAll receptions).packetsLost =
      ∑ number ∈ spanned (receptions.map (·.seq.toNat)),
        passes number (receptions.map (·.seq.toNat)) := by
  rw [fresh.packetsLost_recordAll, spanned, ← skipped_eq_sum_passes
    fun number member => mem_spanned member]
  cases receptions with
  | nil => rfl
  | cons reception rest =>
      rw [List.map_cons, lostAlong, StatsAnalyzer.lost_uint32Max,
        Nat.zero_add, lostAlong_eq_skipped window, List.map_map]
      rfl

/--
No more is reported as lost than is missing if and only if the superfluous
passes number at most as many as the missing numbers without a pass.
-/
theorem notOverReported_iff
    {stats : StatsAnalyzer} (fresh : Fresh stats)
    {receptions : List Reception}
    (window : InWindow (receptions.map Reception.seq)) :
    NotOverReported stats receptions ↔
      superfluousPasses (receptions.map (·.seq.toNat)) ≤
        (unpassed (receptions.map (·.seq.toNat))).card := by
  rw [NotOverReported, packetsLost_eq_sum_passes fresh window]
  exact sum_le_card_iff _ (· ∉ receptions.map (·.seq.toNat)) _

/--
If the smallest number comes first, a single superfluous pass is already too
much.
-/
theorem notOverReported_iff_of_smallest_first
    {stats : StatsAnalyzer} (fresh : Fresh stats)
    {first : Reception} {rest : List Reception}
    (window : InWindow ((first :: rest).map Reception.seq))
    (smallest : ∀ later ∈ rest, first.seq ≤ later.seq) :
    NotOverReported stats (first :: rest) ↔
      superfluousPasses ((first :: rest).map (·.seq.toNat)) = 0 := by
  have allPassed : unpassed ((first :: rest).map (·.seq.toNat)) = ∅ := by
    refine unpassed_eq_empty fun later member => ?_
    rcases List.mem_map.mp member with ⟨reception, received, rfl⟩
    exact UInt32.le_iff_toNat_le.mp (smallest reception received)
  rw [NotOverReported, packetsLost_eq_sum_passes fresh window, missing,
    sum_le_card_iff]
  change superfluousPasses _ ≤ (unpassed _).card ↔ _
  rw [allPassed, Finset.card_empty, Nat.le_zero]

/-- Number 2 comes late, between 1 and 3, and nothing is missing. -/
def lateReceptions : List Reception :=
  [⟨1000, 990, 1⟩, ⟨1020, 1010, 3⟩, ⟨1025, 1000, 2⟩]

theorem lateReceptions_inWindow :
    InWindow (lateReceptions.map Reception.seq) :=
  ⟨1, 3, by decide, by decide, by simp [lateReceptions]⟩

theorem lateReceptions_overReported :
    Fresh (StatsAnalyzer.new 200 1000) ∧
      InWindow (lateReceptions.map Reception.seq) ∧
      ¬ NotOverReported (StatsAnalyzer.new 200 1000) lateReceptions := by
  refine ⟨.inl ⟨200, 1000, rfl⟩, lateReceptions_inWindow, ?_⟩
  rw [NotOverReported, StatsAnalyzer.recordAll_packetsLost]
  decide

theorem notOverReported_iff_lateReceptions :
    NotOverReported (StatsAnalyzer.new 200 1000) lateReceptions ↔
      superfluousPasses (lateReceptions.map (·.seq.toNat)) ≤
        (unpassed (lateReceptions.map (·.seq.toNat))).card :=
  notOverReported_iff (.inl ⟨200, 1000, rfl⟩) lateReceptions_inWindow

end AccelObserver.Server.LossCounting
