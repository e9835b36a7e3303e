import AccelObserver.Library.Extremes
import AccelObserver.Server.LossCounting
import Mathlib.Data.Int.CharZero

/-!
# The reference statistics

What a snapshot should say about the latencies of the packets so far, and the
accumulators that `record` keeps for it.  Those for the minimum and the
maximum start from values that are meant to be neutral: the maximum starts
from 0, which is more than any latency while the clients' clocks are ahead.
-/

namespace AccelObserver.Server.StatsReference

open AccelObserver.Library.Extremes
open AccelObserver.Server.LossCounting (Fresh)
open AccelObserver.Server.StatsAnalyzer (Reception)

/-! ## The reference -/

/-- The exact difference of the two times. -/
def latency (reception : Reception) : ℤ :=
  (reception.serverTimeMs.toNat : ℤ) - reception.packetTsMs.toNat

/-- The variation from each latency to the next. -/
def jittersFrom : ℤ → List ℤ → List ℤ
  | _, [] => []
  | previous, lat :: more => |lat - previous| :: jittersFrom lat more

/-- The variations of some latencies, one fewer than they are. -/
def jitters : List ℤ → List ℤ
  | [] => []
  | first :: more => jittersFrom first more

/-- The arithmetic mean, and 0 of nothing. -/
def mean (values : List ℤ) : ℚ :=
  if values = [] then 0 else values.sum / values.length

/-- The maximum, and 0 of nothing. -/
def IsMaximum (values : List ℤ) (maximum : ℤ) : Prop :=
  (values = [] ∧ maximum = 0) ∨ IsGreatest {value | value ∈ values} maximum

/-- The statistics of some latencies. -/
structure Reference (latencies : List ℤ) (snap : StatsSnapshot) : Prop where
  packetsReceived : snap.packetsReceived = latencies.length
  minLatency :
    ∃ least, IsLeast {lat | lat ∈ latencies} least ∧
      snap.minLatencyMs = least
  meanLatency : snap.avgLatencyMs = mean latencies
  maxLatency :
    ∃ greatest, IsGreatest {lat | lat ∈ latencies} greatest ∧
      snap.maxLatencyMs = greatest
  meanJitter : snap.avgJitterMs = mean (jitters latencies)
  maxJitter :
    ∃ maximum, IsMaximum (jitters latencies) maximum ∧
      snap.maxJitterMs = maximum
  ordered :
    snap.minLatencyMs ≤ snap.avgLatencyMs ∧
      snap.avgLatencyMs ≤ snap.maxLatencyMs

/-! ## The accumulators -/

/-- The members of the analyzer that latencies go into. -/
structure Accumulators where
  firstPacket : Bool
  prevLatencyMs : ℤ
  sumJitter : ℤ
  maxJitter : ℤ
  sumLatency : ℤ
  minLatency : ℤ
  maxLatency : ℤ

def accumulators (stats : StatsAnalyzer) : Accumulators where
  firstPacket := stats.firstPacket
  prevLatencyMs := stats.prevLatencyMs
  sumJitter := stats.sumJitter
  maxJitter := stats.maxJitter
  sumLatency := stats.sumLatency
  minLatency := stats.minLatency
  maxLatency := stats.maxLatency

/-- One more latency. -/
def Accumulators.add (acc : Accumulators) (lat : ℤ) : Accumulators where
  firstPacket := false
  prevLatencyMs := lat
  sumJitter :=
    if acc.firstPacket then acc.sumJitter
    else acc.sumJitter + |lat - acc.prevLatencyMs|
  maxJitter :=
    if acc.firstPacket then acc.maxJitter
    else max acc.maxJitter |lat - acc.prevLatencyMs|
  sumLatency := acc.sumLatency + lat
  minLatency := min acc.minLatency lat
  maxLatency := max acc.maxLatency lat

theorem ite_lt_eq_min (a b : ℤ) : (if b < a then b else a) = min a b := by
  split_ifs with less
  · exact (min_eq_right less.le).symm
  · exact (min_eq_left (not_lt.mp less)).symm

theorem ite_gt_eq_max (a b : ℤ) : (if b > a then b else a) = max a b := by
  split_ifs with greater
  · exact (max_eq_right greater.le).symm
  · exact (max_eq_left (not_lt.mp greater)).symm

theorem accumulators_recordLatency (stats : StatsAnalyzer) (lat : ℤ) :
    accumulators (stats.recordLatency lat) = (accumulators stats).add lat := by
  simp only [StatsAnalyzer.recordLatency, accumulators, Accumulators.add,
    ite_lt_eq_min, ite_gt_eq_max]
  by_cases first : stats.firstPacket = true
  · simp [first]
  · simp [first]

theorem accumulators_recordRate
    (stats : StatsAnalyzer) (serverTimeMs : UInt64) :
    accumulators (stats.recordRate serverTimeMs) = accumulators stats := by
  simp only [StatsAnalyzer.recordRate]
  split_ifs <;> rfl

/-- A step adds the latency, and nothing else. -/
theorem accumulators_record (stats : StatsAnalyzer) (reception : Reception) :
    accumulators
        (stats.record reception.serverTimeMs reception.packetTsMs
          reception.seq) =
      (accumulators stats).add (latency reception) := by
  rw [StatsAnalyzer.record, accumulators_recordRate]
  exact accumulators_recordLatency stats (latency reception)

theorem accumulators_recordAll
    (stats : StatsAnalyzer) (receptions : List Reception) :
    accumulators (stats.recordAll receptions) =
      (receptions.map latency).foldl Accumulators.add (accumulators stats) := by
  induction receptions generalizing stats with
  | nil => rfl
  | cons reception receptions induction =>
      rw [List.map_cons, List.foldl_cons, ← accumulators_record]
      exact induction _

/-- What a run adds up to, behind its first packet. -/
theorem foldl_add
    {acc : Accumulators} (started : acc.firstPacket = false)
    (latencies : List ℤ) :
    latencies.foldl Accumulators.add acc =
      { firstPacket := false
        prevLatencyMs := latencies.getLastD acc.prevLatencyMs
        sumJitter :=
          acc.sumJitter + (jittersFrom acc.prevLatencyMs latencies).sum
        maxJitter :=
          (jittersFrom acc.prevLatencyMs latencies).foldl max acc.maxJitter
        sumLatency := acc.sumLatency + latencies.sum
        minLatency := latencies.foldl min acc.minLatency
        maxLatency := latencies.foldl max acc.maxLatency } := by
  induction latencies generalizing acc with
  | nil =>
      rw [List.foldl_nil, ← started]
      simp [jittersFrom]
  | cons lat latencies induction =>
      rw [List.foldl_cons, induction rfl]
      simp only [Accumulators.add, started, Bool.false_eq_true, if_false,
        jittersFrom, List.sum_cons, List.foldl_cons, Int.add_assoc,
        List.getLastD_cons]

/-- The accumulators of a new analyzer behind some packets. -/
theorem accumulators_fresh
    {stats : StatsAnalyzer} (fresh : Fresh stats) (first : Reception)
    (more : List Reception) :
    accumulators (stats.recordAll (first :: more)) =
      { firstPacket := false
        prevLatencyMs := (more.map latency).getLastD (latency first)
        sumJitter := (jitters ((first :: more).map latency)).sum
        maxJitter := (jitters ((first :: more).map latency)).foldl max 0
        sumLatency := ((first :: more).map latency).sum
        minLatency := ((first :: more).map latency).foldl min (10 ^ 18)
        maxLatency := ((first :: more).map latency).foldl max 0 } := by
  rcases fresh.isNew with ⟨historySize, reportIntervalMs, rfl⟩
  rw [accumulators_recordAll, List.map_cons, List.foldl_cons,
    foldl_add rfl]
  simp [Accumulators.add, accumulators, StatsAnalyzer.new, jitters]

/-! ## The snapshot -/

section Snapshot

variable {latencies : List ℤ}

theorem length_jittersFrom (previous : ℤ) (latencies : List ℤ) :
    (jittersFrom previous latencies).length = latencies.length := by
  induction latencies generalizing previous with
  | nil => rfl
  | cons lat latencies induction =>
      rw [jittersFrom, List.length_cons, induction, List.length_cons]

theorem length_jitters (latencies : List ℤ) :
    (jitters latencies).length = latencies.length - 1 := by
  cases latencies with
  | nil => rfl
  | cons first more => exact length_jittersFrom first more

theorem jittersFrom_nonneg (previous : ℤ) (latencies : List ℤ) :
    ∀ jitter ∈ jittersFrom previous latencies, 0 ≤ jitter := by
  induction latencies generalizing previous with
  | nil => exact fun jitter member => absurd member List.not_mem_nil
  | cons lat latencies induction =>
      exact List.forall_mem_cons.mpr ⟨abs_nonneg _, induction lat⟩

theorem jitters_nonneg (latencies : List ℤ) :
    ∀ jitter ∈ jitters latencies, 0 ≤ jitter := by
  cases latencies with
  | nil => exact fun jitter member => absurd member List.not_mem_nil
  | cons first more => exact jittersFrom_nonneg first more

/-- From 0 on, the greatest variation is the maximum. -/
theorem isMaximum_jitters (latencies : List ℤ) :
    IsMaximum (jitters latencies) ((jitters latencies).foldl max 0) := by
  cases values : jitters latencies with
  | nil => exact .inl ⟨rfl, rfl⟩
  | cons jitter more =>
      have nonnegative := jitters_nonneg latencies
      rw [values] at nonnegative
      exact .inr (isGreatest_of_le
        ⟨jitter, List.mem_cons_self, nonnegative jitter List.mem_cons_self⟩)

/-- The reported minimum is right exactly if some latency is ordinary. -/
theorem minimum_iff :
    (∃ least, IsLeast {lat | lat ∈ latencies} least ∧
        (if latencies.foldl min (10 ^ 18) < 10 ^ 17 then
            latencies.foldl min (10 ^ 18)
          else 0) = least) ↔
      ∃ lat ∈ latencies, lat < 10 ^ 17 := by
  constructor
  · rintro ⟨least, ⟨member, _⟩, same⟩
    by_contra none
    have large : ∀ lat ∈ latencies, (10 ^ 17 : ℤ) ≤ lat := by
      simpa using none
    have reached := (isLeast_foldl_min (10 ^ 18) latencies).1
    rw [if_neg] at same
    · exact absurd (large least member) (by omega)
    · rcases reached with start | found
      · rw [start]
        decide
      · exact not_lt.mpr (large _ found)
  · intro ordinary
    have least := isLeast_of_lt (by decide : (10 ^ 17 : ℤ) ≤ 10 ^ 18) ordinary
    exact ⟨_, least.1, if_pos least.2⟩

/-- The reported maximum is right exactly if some latency is not negative. -/
theorem maximum_iff :
    (∃ greatest, IsGreatest {lat | lat ∈ latencies} greatest ∧
        latencies.foldl max 0 = greatest) ↔
      ∃ lat ∈ latencies, 0 ≤ lat := by
  constructor
  · rintro ⟨greatest, ⟨member, _⟩, rfl⟩
    exact ⟨_, member, (isGreatest_foldl_max 0 latencies).2 (.inl rfl)⟩
  · intro reaches
    exact ⟨_, isGreatest_of_le reaches, rfl⟩

/-- The mean is between the extremes. -/
theorem mean_between
    (nonempty : latencies ≠ []) {least greatest : ℤ}
    (isLeast : IsLeast {lat | lat ∈ latencies} least)
    (isGreatest : IsGreatest {lat | lat ∈ latencies} greatest) :
    (least : ℚ) ≤ mean latencies ∧ mean latencies ≤ greatest := by
  have positive : (0 : ℚ) < latencies.length := by
    exact_mod_cast List.length_pos_of_ne_nil nonempty
  have lower := List.card_nsmul_le_sum latencies least isLeast.2
  have upper := List.sum_le_card_nsmul latencies greatest isGreatest.2
  rw [nsmul_eq_mul, mul_comm] at lower upper
  rw [mean, if_neg nonempty]
  constructor
  · rw [le_div_iff₀ positive]
    exact_mod_cast lower
  · rw [div_le_iff₀ positive]
    exact_mod_cast upper

end Snapshot

/-- One packet has no jitter; otherwise there is one fewer than packets. -/
theorem mean_jitters (first : Reception) (more : List Reception) :
    mean (jitters ((first :: more).map latency)) =
      if (first :: more).length > 1 then
        ((jitters ((first :: more).map latency)).sum : ℚ) /
          ((first :: more).length - 1 : Nat)
      else 0 := by
  have length := length_jitters ((first :: more).map latency)
  rw [List.length_map] at length
  rw [mean, length]
  cases more with
  | nil => rfl
  | cons second more =>
      rw [if_neg, if_pos]
      · simp
      · intro none
        rw [none] at length
        simp at length

/-- The numbers of a snapshot behind some packets. -/
structure Computed (latencies : List ℤ) (snap : StatsSnapshot) : Prop where
  packetsReceived : snap.packetsReceived = latencies.length
  minLatency :
    snap.minLatencyMs =
      ((if latencies.foldl min (10 ^ 18) < 10 ^ 17 then
          latencies.foldl min (10 ^ 18)
        else 0 : ℤ) : ℚ)
  meanLatency : snap.avgLatencyMs = mean latencies
  maxLatency : snap.maxLatencyMs = (latencies.foldl max 0 : ℤ)
  meanJitter : snap.avgJitterMs = mean (jitters latencies)
  maxJitter : snap.maxJitterMs = ((jitters latencies).foldl max 0 : ℤ)

theorem computed_snapshot
    {stats : StatsAnalyzer} (fresh : Fresh stats)
    {receptions : List Reception} (nonempty : receptions ≠ []) :
    Computed (receptions.map latency)
      (stats.recordAll receptions).snapshot := by
  have received := fresh.packetsReceived_recordAll receptions
  cases receptions with
  | nil => exact absurd rfl nonempty
  | cons first more =>
      have computed := accumulators_fresh fresh first more
      simp only [accumulators, Accumulators.mk.injEq] at computed
      rcases computed with
        ⟨_, _, sumJitter, maxJitter, sumLatency, minLatency, maxLatency⟩
      constructor
      · simpa [StatsAnalyzer.snapshot] using received
      · simp only [StatsAnalyzer.snapshot, minLatency]
        split_ifs
        · rfl
        · exact Int.cast_zero.symm
      · simp only [StatsAnalyzer.snapshot, received, sumLatency]
        simp [mean]
      · simp only [StatsAnalyzer.snapshot, maxLatency]
      · simp only [StatsAnalyzer.snapshot, received, sumJitter]
        exact (mean_jitters first more).symm
      · simp only [StatsAnalyzer.snapshot, maxJitter]

/--
The snapshot behind some packets gives the reference statistics exactly if
some latency is not negative, and some is below the sentinel of the minimum.
-/
theorem reference_iff
    {stats : StatsAnalyzer} (fresh : Fresh stats)
    {receptions : List Reception} (nonempty : receptions ≠ []) :
    Reference (receptions.map latency)
        (stats.recordAll receptions).snapshot ↔
      (∃ lat ∈ receptions.map latency, 0 ≤ lat) ∧
        ∃ lat ∈ receptions.map latency, lat < 10 ^ 17 := by
  have computed := computed_snapshot fresh nonempty
  have some : receptions.map latency ≠ [] := by simpa using nonempty
  constructor
  · intro reference
    constructor
    · rcases reference.maxLatency with ⟨greatest, isGreatest, same⟩
      rw [computed.maxLatency, Int.cast_inj] at same
      exact maximum_iff.mp ⟨greatest, isGreatest, same⟩
    · rcases reference.minLatency with ⟨least, isLeast, same⟩
      rw [computed.minLatency, Int.cast_inj] at same
      exact minimum_iff.mp ⟨least, isLeast, same⟩
  · rintro ⟨reaches, ordinary⟩
    rcases maximum_iff.mpr reaches with ⟨greatest, isGreatest, maximum⟩
    rcases minimum_iff.mpr ordinary with ⟨least, isLeast, minimum⟩
    have between := mean_between some isLeast isGreatest
    constructor
    · exact computed.packetsReceived
    · exact ⟨least, isLeast, by rw [computed.minLatency, minimum]⟩
    · exact computed.meanLatency
    · exact ⟨greatest, isGreatest, by rw [computed.maxLatency, maximum]⟩
    · exact computed.meanJitter
    · exact ⟨_, isMaximum_jitters _, computed.maxJitter⟩
    · rw [computed.minLatency, computed.meanLatency, computed.maxLatency,
        minimum, maximum]
      exact between

/-- Two packets of a client whose clock is ahead. -/
def aheadReceptions : List Reception :=
  [{ serverTimeMs := 1000, packetTsMs := 1500, seq := 1 },
    { serverTimeMs := 1010, packetTsMs := 1512, seq := 2 }]

theorem reference_iff_aheadReceptions :
    Reference (aheadReceptions.map latency)
        ((StatsAnalyzer.new 200 1000).recordAll aheadReceptions).snapshot ↔
      (∃ lat ∈ aheadReceptions.map latency, 0 ≤ lat) ∧
        ∃ lat ∈ aheadReceptions.map latency, lat < 10 ^ 17 :=
  reference_iff (.inl ⟨200, 1000, rfl⟩) (by decide)

/-- Their greatest latency is -500, and 0 is reported. -/
theorem aheadReceptions_not_reference :
    ¬ ∀ (stats : StatsAnalyzer) (receptions : List Reception),
        Fresh stats → receptions ≠ [] →
        Reference (receptions.map latency)
          (stats.recordAll receptions).snapshot := by
  intro always
  have reference :=
    always (.new 200 1000) aheadReceptions (.inl ⟨200, 1000, rfl⟩) (by decide)
  rcases reference.maxLatency with ⟨greatest, isGreatest, same⟩
  have reported :
      ((StatsAnalyzer.new 200 1000).recordAll
        aheadReceptions).snapshot.maxLatencyMs = 0 := by
    decide +kernel
  have latencies : aheadReceptions.map latency = [-500, -502] := by
    decide
  rw [reported, eq_comm, Int.cast_eq_zero] at same
  have member := isGreatest.1
  rw [latencies, same] at member
  exact absurd member (by decide)

end AccelObserver.Server.StatsReference
