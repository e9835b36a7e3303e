import AccelObserver.Library.Double
import Mathlib.Algebra.Order.Field.Rat
import Mathlib.Data.NNRat.Lemmas

/-!
# The statistics analyzer

`StatsAnalyzer::record` measures latency and jitter, counts packets, detects
loss by gaps in the sequence numbers and estimates the receive rate.  Every
member function holds the mutex throughout, so each is one step.

Sums of doubles are taken exactly, and the two packet counters do not wrap.
-/

namespace AccelObserver.Server

open AccelObserver.Library

/-- `UINT32_MAX`, also what `last_seq_` is before the first packet. -/
def uint32Max : UInt32 := 0xFFFFFFFF

structure StatsSnapshot where
  packetsReceived : Nat
  packetsLost : Nat
  avgLatencyMs : ℚ
  minLatencyMs : ℚ
  maxLatencyMs : ℚ
  avgJitterMs : ℚ
  maxJitterMs : ℚ
  lossRatePct : ℚ
  rxRateHz : Double
  lastSeq : UInt32

structure StatsAnalyzer where
  historySize : Nat
  reportIntervalMs : UInt64
  latencyHistory : List ℤ
  packetsReceived : Nat
  packetsLost : Nat
  lastSeq : UInt32
  firstPacket : Bool
  prevLatencyMs : ℤ
  sumJitter : ℤ
  maxJitter : ℤ
  sumLatency : ℤ
  minLatency : ℤ
  maxLatency : ℤ
  rateWindowStartMs : UInt64
  rateWindowCount : Nat
  currentRateHz : Double

namespace StatsAnalyzer

/-- `StatsAnalyzer(history_size, report_interval_ms)` -/
def new (historySize : Nat) (reportIntervalMs : UInt64) : StatsAnalyzer where
  historySize := historySize
  reportIntervalMs := reportIntervalMs
  latencyHistory := []
  packetsReceived := 0
  packetsLost := 0
  lastSeq := uint32Max
  firstPacket := true
  prevLatencyMs := 0
  sumJitter := 0
  maxJitter := 0
  sumLatency := 0
  minLatency := 10 ^ 18
  maxLatency := 0
  rateWindowStartMs := 0
  rateWindowCount := 0
  currentRateHz := Double.zero

/-- `reset` -/
def reset (stats : StatsAnalyzer) : StatsAnalyzer :=
  { stats with
    packetsReceived := 0
    packetsLost := 0
    lastSeq := uint32Max
    firstPacket := true
    prevLatencyMs := 0
    sumJitter := 0
    maxJitter := 0
    sumLatency := 0
    minLatency := 10 ^ 18
    maxLatency := 0
    rateWindowStartMs := 0
    rateWindowCount := 0
    currentRateHz := Double.zero
    latencyHistory := [] }

/-! ## Recording a packet -/

/-- The latency and jitter part of `record`. -/
def recordLatency (stats : StatsAnalyzer) (lat : ℤ) : StatsAnalyzer :=
  let jitter := |lat - stats.prevLatencyMs|
  let stats :=
    if stats.firstPacket then stats
    else
      { stats with
        sumJitter := stats.sumJitter + jitter
        maxJitter :=
          if jitter > stats.maxJitter then jitter else stats.maxJitter }
  let history := stats.latencyHistory ++ [lat]
  { stats with
    prevLatencyMs := lat
    firstPacket := false
    sumLatency := stats.sumLatency + lat
    minLatency := if lat < stats.minLatency then lat else stats.minLatency
    maxLatency := if lat > stats.maxLatency then lat else stats.maxLatency
    latencyHistory :=
      if history.length > stats.historySize then history.drop 1
      else history }

/-- `gap`: how far the number is ahead of the expected one. -/
def gap (expected seq : UInt32) : UInt32 :=
  if seq > expected then seq - expected
  else uint32Max - expected + seq + 1

/-- What one packet adds to `packets_lost_`. -/
def lost (lastSeq seq : UInt32) : Nat :=
  if lastSeq ≠ uint32Max then
    let expected := lastSeq + 1
    if seq ≠ expected then
      if gap expected seq < 10000 then (gap expected seq).toNat else 0
    else 0
  else 0

/-- The sequence part of `record`. -/
def recordSequence (stats : StatsAnalyzer) (seq : UInt32) : StatsAnalyzer :=
  { stats with
    packetsReceived := stats.packetsReceived + 1
    packetsLost := stats.packetsLost + lost stats.lastSeq seq
    lastSeq := seq }

/-- A count over milliseconds, in Hertz; dividing by zero is infinite. -/
def rateHz (count : Nat) (elapsedMs : UInt64) : Double :=
  if elapsedMs = 0 then
    if count = 0 then .nan else .infinite false
  else .finite false (count / (elapsedMs.toNat / 1000))

/-- The rate part of `record`. -/
def recordRate (stats : StatsAnalyzer) (serverTimeMs : UInt64) :
    StatsAnalyzer :=
  let stats :=
    if stats.rateWindowStartMs = 0 then
      { stats with rateWindowStartMs := serverTimeMs, rateWindowCount := 0 }
    else stats
  let stats := { stats with rateWindowCount := stats.rateWindowCount + 1 }
  let elapsedMs := serverTimeMs - stats.rateWindowStartMs
  if elapsedMs ≥ stats.reportIntervalMs then
    { stats with
      currentRateHz := rateHz stats.rateWindowCount elapsedMs
      rateWindowStartMs := serverTimeMs
      rateWindowCount := 0 }
  else stats

/-- `record` -/
def record (stats : StatsAnalyzer) (serverTimeMs packetTsMs : UInt64)
    (seq : UInt32) : StatsAnalyzer :=
  let lat : ℤ := (serverTimeMs.toNat : ℤ) - packetTsMs.toNat
  ((stats.recordLatency lat).recordSequence seq).recordRate serverTimeMs

/-- `snapshot` -/
def snapshot (stats : StatsAnalyzer) : StatsSnapshot :=
  let total := stats.packetsReceived + stats.packetsLost
  { packetsReceived := stats.packetsReceived
    packetsLost := stats.packetsLost
    lastSeq := stats.lastSeq
    rxRateHz := stats.currentRateHz
    lossRatePct :=
      if total > 0 then 100 * (stats.packetsLost : ℚ) / total else 0
    avgLatencyMs :=
      if stats.packetsReceived > 0 then
        (stats.sumLatency : ℚ) / stats.packetsReceived
      else 0
    avgJitterMs :=
      if stats.packetsReceived > 1 then
        (stats.sumJitter : ℚ) / (stats.packetsReceived - 1 : Nat)
      else 0
    minLatencyMs :=
      if stats.minLatency < 10 ^ 17 then stats.minLatency else 0
    maxLatencyMs := stats.maxLatency
    maxJitterMs := stats.maxJitter }

/-- A reset analyzer is a new one. -/
theorem reset_eq_new (stats : StatsAnalyzer) :
    stats.reset = new stats.historySize stats.reportIntervalMs := rfl

/-! ## What the parts leave alone -/

section Frame

variable (stats : StatsAnalyzer)

@[simp]
theorem recordLatency_packetsReceived (lat : ℤ) :
    (stats.recordLatency lat).packetsReceived = stats.packetsReceived := by
  simp only [recordLatency]
  split_ifs <;> rfl

@[simp]
theorem recordLatency_packetsLost (lat : ℤ) :
    (stats.recordLatency lat).packetsLost = stats.packetsLost := by
  simp only [recordLatency]
  split_ifs <;> rfl

@[simp]
theorem recordLatency_lastSeq (lat : ℤ) :
    (stats.recordLatency lat).lastSeq = stats.lastSeq := by
  simp only [recordLatency]
  split_ifs <;> rfl

@[simp]
theorem recordRate_packetsReceived (serverTimeMs : UInt64) :
    (stats.recordRate serverTimeMs).packetsReceived =
      stats.packetsReceived := by
  simp only [recordRate]
  split_ifs <;> rfl

@[simp]
theorem recordRate_packetsLost (serverTimeMs : UInt64) :
    (stats.recordRate serverTimeMs).packetsLost = stats.packetsLost := by
  simp only [recordRate]
  split_ifs <;> rfl

@[simp]
theorem recordRate_lastSeq (serverTimeMs : UInt64) :
    (stats.recordRate serverTimeMs).lastSeq = stats.lastSeq := by
  simp only [recordRate]
  split_ifs <;> rfl

variable (serverTimeMs packetTsMs : UInt64) (seq : UInt32)

@[simp]
theorem record_packetsReceived :
    (stats.record serverTimeMs packetTsMs seq).packetsReceived =
      stats.packetsReceived + 1 := by
  simp [record, recordSequence]

@[simp]
theorem record_packetsLost :
    (stats.record serverTimeMs packetTsMs seq).packetsLost =
      stats.packetsLost + lost stats.lastSeq seq := by
  simp [record, recordSequence]

@[simp]
theorem record_lastSeq :
    (stats.record serverTimeMs packetTsMs seq).lastSeq = seq := by
  simp [record, recordSequence]

end Frame

/-! ## Recording a sequence of packets -/

/-- The arguments of one call of `record`. -/
structure Reception where
  serverTimeMs : UInt64
  packetTsMs : UInt64
  seq : UInt32

/-- Record the receptions one after another. -/
def recordAll (stats : StatsAnalyzer) (receptions : List Reception) :
    StatsAnalyzer :=
  receptions.foldl
    (fun stats reception =>
      stats.record reception.serverTimeMs reception.packetTsMs reception.seq)
    stats

/-- What a sequence of numbers adds to `packets_lost_`. -/
def lostAlong : UInt32 → List UInt32 → Nat
  | _, [] => 0
  | lastSeq, seq :: rest => lost lastSeq seq + lostAlong seq rest

theorem recordAll_packetsReceived
    (stats : StatsAnalyzer) (receptions : List Reception) :
    (stats.recordAll receptions).packetsReceived =
      stats.packetsReceived + receptions.length := by
  induction receptions generalizing stats with
  | nil => rfl
  | cons reception rest induction =>
      rw [recordAll, List.foldl_cons, ← recordAll, induction,
        record_packetsReceived, List.length_cons]
      omega

/-- The loss count depends on nothing but the sequence numbers. -/
theorem recordAll_packetsLost
    (stats : StatsAnalyzer) (receptions : List Reception) :
    (stats.recordAll receptions).packetsLost =
      stats.packetsLost +
        lostAlong stats.lastSeq (receptions.map Reception.seq) := by
  induction receptions generalizing stats with
  | nil => rfl
  | cons reception rest induction =>
      rw [recordAll, List.foldl_cons, ← recordAll, induction,
        record_packetsLost, record_lastSeq, List.map_cons, lostAlong,
        Nat.add_assoc]

/-! ## The gap between two numbers -/

/-- Both formulas give the distance modulo 2^32. -/
theorem gap_eq (expected seq : UInt32) : gap expected seq = seq - expected := by
  unfold gap uint32Max
  split_ifs with ahead
  · rfl
  · rw [← UInt32.toBitVec_inj]
    simp only [UInt32.toBitVec_add, UInt32.toBitVec_sub, UInt32.toBitVec_ofNat]
    bv_omega

/-- No number is counted as lost at the marker. -/
@[simp]
theorem lost_uint32Max (seq : UInt32) : lost uint32Max seq = 0 := by
  simp [lost]

/-- Elsewhere the distance from the expected number counts, below 10000. -/
theorem lost_eq_of_ne {lastSeq : UInt32} (started : lastSeq ≠ uint32Max)
    (seq : UInt32) :
    lost lastSeq seq =
      if seq - (lastSeq + 1) < 10000 then (seq - (lastSeq + 1)).toNat
      else 0 := by
  simp only [lost, gap_eq, if_pos started]
  split_ifs with skipped near near
  · rfl
  · rfl
  · rw [ne_eq, Decidable.not_not] at skipped
    simp [skipped]
  · rfl

end StatsAnalyzer

end AccelObserver.Server
