import AccelObserver.Server.StatsReference
import AccelObserver.Server.WebFrames

/-!
# What the dashboard is sent over a run

The statistics of any run are bounded by the range of its clocks, so that no
frame outgrows its buffer; what is left to go wrong is a number that JSON
cannot spell.
-/

namespace AccelObserver.Server.WebFrames

open AccelObserver.Library
open AccelObserver.Library.Decimal (decimal length_decimal_le)
open AccelObserver.Library.Extremes
open AccelObserver.Library.FixedFormat
open AccelObserver.Library.Json (IsText typedText)
open AccelObserver.Server.PacketCallback
open AccelObserver.Server.PacketValidator
open AccelObserver.Server.StatsAnalyzer (Reception)
open AccelObserver.Server.StatsReference (Computed computed_snapshot latency)
open AccelObserver.Server.StatsReference (jitters jittersFrom mean)
open AccelObserver.Server.RateWindow (Window window)

/-! ## Bounded statistics -/

/-- Two times of 64 bits are not further apart than that. -/
theorem abs_latency_le (reception : Reception) :
    |latency reception| ≤ 2 ^ 64 := by
  have server := reception.serverTimeMs.toNat_lt
  have packet := reception.packetTsMs.toNat_lt
  rw [latency, abs_le]
  omega

theorem abs_jittersFrom_le
    {previous bound : ℤ} {latencies : List ℤ} (here : |previous| ≤ bound)
    (bounded : ∀ lat ∈ latencies, |lat| ≤ bound) :
    ∀ jitter ∈ jittersFrom previous latencies, |jitter| ≤ 2 * bound := by
  induction latencies generalizing previous with
  | nil => exact fun jitter member => absurd member List.not_mem_nil
  | cons lat latencies induction =>
      rcases List.forall_mem_cons.mp bounded with ⟨latBound, later⟩
      refine List.forall_mem_cons.mpr ⟨?_, induction latBound later⟩
      rw [abs_abs]
      calc
        |lat - previous| ≤ |lat| + |previous| := abs_sub _ _
        _ ≤ 2 * bound := by omega

theorem abs_jitters_le
    {bound : ℤ} {latencies : List ℤ}
    (bounded : ∀ lat ∈ latencies, |lat| ≤ bound) :
    ∀ jitter ∈ jitters latencies, |jitter| ≤ 2 * bound := by
  cases latencies with
  | nil => exact fun jitter member => absurd member List.not_mem_nil
  | cons first more =>
      rcases List.forall_mem_cons.mp bounded with ⟨here, later⟩
      exact abs_jittersFrom_le here later

/-- A mean is no further from zero than the values are. -/
theorem abs_mean_le
    {values : List ℤ} {bound : ℤ} (nonneg : 0 ≤ bound)
    (bounded : ∀ value ∈ values, |value| ≤ bound) :
    |mean values| ≤ bound := by
  rw [mean]
  split_ifs with empty
  · rw [abs_zero]
    exact_mod_cast nonneg
  · have positive : (0 : ℚ) < values.length := by
      exact_mod_cast List.length_pos_of_ne_nil empty
    have lower := List.card_nsmul_le_sum values (-bound)
      fun value member => (abs_le.mp (bounded value member)).1
    have upper := List.sum_le_card_nsmul values bound
      fun value member => (abs_le.mp (bounded value member)).2
    rw [nsmul_eq_mul, mul_comm] at lower upper
    rw [abs_le, le_div_iff₀ positive, div_le_iff₀ positive]
    constructor
    · exact_mod_cast lower
    · exact_mod_cast upper

/-- A running extreme is no further from zero than what it is taken of. -/
theorem abs_foldl_max_le
    {values : List ℤ} {bound : ℤ} (nonneg : 0 ≤ bound)
    (bounded : ∀ value ∈ values, |value| ≤ bound) :
    |values.foldl max 0| ≤ bound := by
  rcases (isGreatest_foldl_max 0 values).1 with isStart | member
  · rw [isStart, abs_zero]
    exact nonneg
  · exact bounded _ member

/-- What is needed of the statistics for their frame to fit. -/
structure Ordinary (snap : StatsSnapshot) : Prop where
  lossRatePct : |snap.lossRatePct| ≤ 100
  minLatencyMs : |snap.minLatencyMs| ≤ 2 ^ 65
  avgLatencyMs : |snap.avgLatencyMs| ≤ 2 ^ 65
  maxLatencyMs : |snap.maxLatencyMs| ≤ 2 ^ 65
  avgJitterMs : |snap.avgJitterMs| ≤ 2 ^ 65
  maxJitterMs : |snap.maxJitterMs| ≤ 2 ^ 65

theorem ordinary_snapshot
    (interval : UInt64) {receptions : List Reception}
    (nonempty : receptions ≠ []) :
    Ordinary
      ((StatsAnalyzer.new 200 interval).recordAll receptions).snapshot := by
  have fresh : LossCounting.Fresh (StatsAnalyzer.new 200 interval) :=
    Or.inl ⟨_, _, rfl⟩
  have computed := computed_snapshot fresh nonempty
  have latencies : ∀ lat ∈ receptions.map latency, |lat| ≤ 2 ^ 64 := by
    rintro lat member
    rcases List.mem_map.mp member with ⟨reception, _, rfl⟩
    exact abs_latency_le reception
  have variations := abs_jitters_le latencies
  constructor
  · rw [StatsAnalyzer.snapshot]
    simp only
    split_ifs with counted
    · have positive :
          (0 : ℚ) <
            ((((StatsAnalyzer.new 200 interval).recordAll
                  receptions).packetsReceived +
                ((StatsAnalyzer.new 200 interval).recordAll
                  receptions).packetsLost : Nat) : ℚ) := by
        exact_mod_cast counted
      rw [abs_of_nonneg (by positivity), div_le_iff₀ positive]
      refine mul_le_mul_of_nonneg_left ?_ (by norm_num)
      exact_mod_cast Nat.le_add_left _ _
    · norm_num
  · rw [computed.minLatency]
    split_ifs with ordinary
    · rcases (isLeast_foldl_min (10 ^ 18) (receptions.map latency)).1
        with isStart | member
      · rw [isStart] at ordinary
        exact absurd ordinary (by decide)
      · have bound := latencies _ member
        have cast : |(((receptions.map latency).foldl min (10 ^ 18) : ℤ) : ℚ)| ≤
            2 ^ 64 := by
          exact_mod_cast bound
        exact cast.trans (by norm_num)
    · norm_num
  · rw [computed.meanLatency]
    exact (abs_mean_le (by norm_num) latencies).trans (by norm_num)
  · rw [computed.maxLatency]
    have bound := abs_foldl_max_le (by norm_num) latencies
    have cast :
        |(((receptions.map latency).foldl max 0 : ℤ) : ℚ)| ≤ 2 ^ 64 := by
      exact_mod_cast bound
    exact cast.trans (by norm_num)
  · rw [computed.meanJitter]
    exact (abs_mean_le (by norm_num) variations).trans (by norm_num)
  · rw [computed.maxJitter]
    have bound := abs_foldl_max_le (by norm_num) variations
    have cast :
        |(((jitters (receptions.map latency)).foldl max 0 : ℤ) : ℚ)| ≤
          2 * 2 ^ 64 := by
      exact_mod_cast bound
    exact cast.trans (by norm_num)

/-! ## The rate -/

/-- The rate so far is a number, and the window counts what was received. -/
structure RateKnown (window : Window) (received : Nat) : Prop where
  count : window.count ≤ received
  rate :
    ∃ magnitude : ℚ≥0,
      window.rateHz = .finite false magnitude ∧ magnitude ≤ 1000 * received

/-- An interval that is not zero leaves no window without its time. -/
theorem rateKnown_add
    {window : Window} (interval : window.reportIntervalMs ≠ 0)
    {received : Nat} (known : RateKnown window received)
    (serverTimeMs : UInt64) :
    RateKnown (window.add serverTimeMs) (received + 1) := by
  have opened : (window.opened serverTimeMs).count ≤ received := by
    rw [Window.opened]
    split_ifs
    · exact Nat.zero_le _
    · exact known.count
  have sameRate : (window.opened serverTimeMs).rateHz = window.rateHz := by
    rw [Window.opened]
    split_ifs <;> rfl
  rw [Window.add]
  by_cases completes : window.Completes serverTimeMs
  · rw [if_pos completes]
    have elapsed : window.elapsedMs serverTimeMs ≠ 0 := by
      intro zero
      rw [Window.Completes, zero] at completes
      exact interval (UInt64.le_zero_iff.mp completes)
    have oneMs : 1 ≤ (window.elapsedMs serverTimeMs).toNat :=
      Nat.one_le_iff_ne_zero.mpr fun same =>
        elapsed (UInt64.toNat_inj.mp same)
    refine ⟨Nat.zero_le _, _, if_neg elapsed, ?_⟩
    have counted :
        (((window.opened serverTimeMs).count + 1 : Nat) : ℚ≥0) ≤
          (received + 1 : Nat) := by
      exact_mod_cast Nat.succ_le_succ opened
    have time : (1 : ℚ≥0) ≤ (window.elapsedMs serverTimeMs).toNat := by
      exact_mod_cast oneMs
    rw [div_div_eq_mul_div, div_le_iff₀ (by positivity)]
    calc
      (((window.opened serverTimeMs).count + 1 : Nat) : ℚ≥0) * 1000 ≤
          ((received + 1 : Nat) : ℚ≥0) * 1000 :=
        mul_le_mul_left counted _
      _ ≤ 1000 * ((received + 1 : Nat) : ℚ≥0) *
            (window.elapsedMs serverTimeMs).toNat := by
        rw [mul_comm]
        exact le_mul_of_one_le_right (by positivity) time
  · rw [if_neg completes]
    refine ⟨Nat.succ_le_succ opened, ?_⟩
    rcases known.rate with ⟨magnitude, rate, bounded⟩
    refine ⟨magnitude, sameRate.trans rate, bounded.trans ?_⟩
    refine mul_le_mul_right ?_ _
    exact_mod_cast Nat.le_succ received

theorem rateKnown_recordAll
    {interval : UInt64} (positive : interval ≠ 0)
    (receptions : List Reception) :
    RateKnown
      (window ((StatsAnalyzer.new 200 interval).recordAll receptions))
      receptions.length := by
  induction receptions using List.reverseRecOn with
  | nil => exact ⟨Nat.le_refl 0, 0, rfl, by simp⟩
  | append_singleton before reception induction =>
      rw [RateWindow.recordAll_append, List.length_append,
        List.length_singleton]
      refine rateKnown_add ?_ induction _
      rw [RateWindow.reportIntervalMs_recordAll]
      exact positive

/-- With an interval of zero the first packet has no rate. -/
theorem rate_of_zero_interval (reception : Reception) :
    ((StatsAnalyzer.new 200 0).recordAll [reception]).snapshot.rxRateHz =
      .infinite false := by
  have elapsed :
      (window (StatsAnalyzer.new 200 0)).elapsedMs reception.serverTimeMs =
        0 := by
    have opened :
        ((window (StatsAnalyzer.new 200 0)).opened
          reception.serverTimeMs).startMs = reception.serverTimeMs := rfl
    rw [Window.elapsedMs, opened, UInt64.sub_self]
  have completes :
      (window (StatsAnalyzer.new 200 0)).Completes
        reception.serverTimeMs := by
    rw [Window.Completes, elapsed]
    exact UInt64.le_refl 0
  have rate :
      ((StatsAnalyzer.new 200 0).recordAll
          ([] ++ [reception])).currentRateHz = _ :=
    RateWindow.currentRateHz_recordAll completes
  refine rate.trans ?_
  rw [show (StatsAnalyzer.new 200 0).recordAll [] = .new 200 0 from rfl,
    elapsed, StatsAnalyzer.rateHz, if_pos rfl, if_neg (Nat.succ_ne_zero _)]

/-! ## Every frame fits -/

/-- Pieces within their bounds are together within the sum. -/
theorem length_flatten_le
    {pieces : List Bytes} (bounds : List Nat)
    (within :
      List.Forall₂ (fun piece bound => piece.length ≤ bound) pieces bounds) :
    pieces.flatten.length ≤ bounds.sum := by
  induction within with
  | nil => exact Nat.le_refl 0
  | cons here _ induction =>
      rw [List.flatten_cons, List.length_append, List.sum_cons]
      exact Nat.add_le_add here induction

theorem length_ofRat_le
    {value : ℚ} {bound width : Nat} (positive : 0 < width)
    (bounded : |value| ≤ bound) (below : bound < 10 ^ width) (places : Nat) :
    (formatFixed places (ofRat value)).length ≤ width + places + 2 := by
  refine length_formatFixed_le places positive ?_ below
  rw [← NNRat.coe_le_coe, Rat.coe_nnabs]
  exact_mod_cast bounded

/-- An axis that passed the range check is printed in 37 bytes. -/
theorem length_axis_le
    {limit : ℚ≥0} {bound : Nat} (limited : limit ≤ bound)
    (below : bound < 10 ^ 29) {axis : Double}
    (inRange : axis = .nan ∨ Double.Within (.finite false limit) axis) :
    (formatFixed 6 axis).length ≤ 37 := by
  rcases inRange with rfl | ⟨lower, upper⟩
  · decide +kernel
  · cases axis with
    | nan => cases upper
    | infinite negative =>
        cases negative with
        | false => cases upper
        | true => cases lower
    | finite negative magnitude =>
        refine length_formatFixed_le 6 (by decide) ?_ below
        refine le_trans ?_ limited
        rw [← NNRat.coe_le_coe]
        have nonneg : (0 : ℚ) ≤ magnitude := magnitude.coe_nonneg
        simp only [Double.neg, Double.le, Double.signed, Bool.not_false,
          if_true, decide_eq_true_eq, Bool.false_eq_true, if_false]
          at lower upper
        cases negative with
        | false => simpa using upper
        | true => simpa using lower

theorem length_dataText_le
    {pkt : DataPacket} {latencyMs jitterMs : ℚ}
    (axes : ∀ axis ∈ RangeGate.axes pkt, (formatFixed 6 axis).length ≤ 37)
    (latency : |latencyMs| ≤ 2 ^ 65) (jitter : |jitterMs| ≤ 2 ^ 65) :
    (dataText pkt (ofRat latencyMs) (ofRat jitterMs)).length ≤ 255 := by
  simp only [RangeGate.axes, List.forall_mem_cons] at axes
  rcases axes with ⟨x, y, z, -⟩
  have ts : (decimal pkt.timestampMs.toNat).length ≤ 20 :=
    length_decimal_le (by decide)
      (Nat.lt_trans pkt.timestampMs.toNat_lt (by decide))
  have seq : (decimal pkt.sequenceId.toNat).length ≤ 10 :=
    length_decimal_le (by decide)
      (Nat.lt_trans pkt.sequenceId.toNat_lt (by decide))
  have lat :=
    length_ofRat_le (by decide) (by exact_mod_cast latency)
      (show 2 ^ 65 < 10 ^ 20 by decide) 3
  have var :=
    length_ofRat_le (by decide) (by exact_mod_cast jitter)
      (show 2 ^ 65 < 10 ^ 20 by decide) 3
  have names :
      (ascii "\x7b\"type\":\"data\",").length ≤ 15 ∧
        (ascii "\"ts\":").length ≤ 5 ∧ (ascii ",\"seq\":").length ≤ 7 ∧
        (ascii ",\"ax\":").length ≤ 6 ∧ (ascii ",\"ay\":").length ≤ 6 ∧
        (ascii ",\"az\":").length ≤ 6 ∧ (ascii ",\"lat\":").length ≤ 7 ∧
        (ascii ",\"jitter\":").length ≤ 10 ∧ (ascii "\x7d").length ≤ 1 := by
    decide +kernel
  rcases names with
    ⟨nStart, nTs, nSeq, nX, nY, nZ, nLat, nJitter, nBrace⟩
  exact (length_flatten_le
    [15, 5, 20, 7, 10, 6, 37, 6, 37, 6, 37, 7, 25, 10, 25, 1]
    (.cons nStart <| .cons nTs <| .cons ts <| .cons nSeq <| .cons seq <|
      .cons nX <| .cons x <| .cons nY <| .cons y <| .cons nZ <| .cons z <|
      .cons nLat <| .cons lat <| .cons nJitter <| .cons var <|
      .cons nBrace .nil)).trans (by decide)

theorem length_statsText_le
    {snap : StatsSnapshot} (ordinary : Ordinary snap)
    {magnitude : ℚ≥0} (rate : snap.rxRateHz = .finite false magnitude)
    (slow : magnitude ≤ (1000 * 2 ^ 64 : Nat)) :
    (statsText snap).length ≤ 511 := by
  have counter (n : Nat) : (decimal (n % 2 ^ 64)).length ≤ 20 :=
    length_decimal_le (by decide)
      (Nat.lt_trans (Nat.mod_lt n (by decide)) (by decide))
  have lastSeq : (decimal snap.lastSeq.toNat).length ≤ 10 :=
    length_decimal_le (by decide)
      (Nat.lt_trans snap.lastSeq.toNat_lt (by decide))
  have time {value : ℚ} (bounded : |value| ≤ 2 ^ 65) :
      (formatFixed 3 (ofRat value)).length ≤ 25 :=
    length_ofRat_le (by decide) (by exact_mod_cast bounded)
      (show 2 ^ 65 < 10 ^ 20 by decide) 3
  have loss : (formatFixed 3 (ofRat snap.lossRatePct)).length ≤ 8 :=
    length_ofRat_le (by decide) (by exact_mod_cast ordinary.lossRatePct)
      (show 100 < 10 ^ 3 by decide) 3
  have hertz : (formatFixed 2 snap.rxRateHz).length ≤ 27 := by
    rw [rate]
    exact length_formatFixed_le 2 (by decide) slow
      (show 1000 * 2 ^ 64 < 10 ^ 23 by decide)
  have names :
      (ascii "\x7b\"type\":\"stats\"").length ≤ 15 ∧
        (ascii ",\"rx\":").length ≤ 6 ∧ (ascii ",\"lost\":").length ≤ 8 ∧
        (ascii ",\"loss_pct\":").length ≤ 12 ∧
        (ascii ",\"lat_min\":").length ≤ 11 ∧
        (ascii ",\"lat_avg\":").length ≤ 11 ∧
        (ascii ",\"lat_max\":").length ≤ 11 ∧
        (ascii ",\"jitter_avg\":").length ≤ 14 ∧
        (ascii ",\"jitter_max\":").length ≤ 14 ∧
        (ascii ",\"rate_hz\":").length ≤ 11 ∧
        (ascii ",\"last_seq\":").length ≤ 12 ∧ (ascii "\x7d").length ≤ 1 := by
    decide +kernel
  rcases names with
    ⟨nStart, nRx, nLost, nLoss, nMin, nAvg, nMax, nJitter, nJitterMax, nRate,
      nSeq, nBrace⟩
  exact (length_flatten_le
    [15, 6, 20, 8, 20, 12, 8, 11, 25, 11, 25, 11, 25, 14, 25, 14, 25, 11, 27,
      12, 10, 1]
    (.cons nStart <| .cons nRx <| .cons (counter _) <| .cons nLost <|
      .cons (counter _) <| .cons nLoss <| .cons loss <| .cons nMin <|
      .cons (time ordinary.minLatencyMs) <| .cons nAvg <|
      .cons (time ordinary.avgLatencyMs) <| .cons nMax <|
      .cons (time ordinary.maxLatencyMs) <| .cons nJitter <|
      .cons (time ordinary.avgJitterMs) <| .cons nJitterMax <|
      .cons (time ordinary.maxJitterMs) <| .cons nRate <| .cons hertz <|
      .cons nSeq <| .cons lastSeq <| .cons nBrace .nil)).trans (by decide)

/-! ## A whole run -/

/-- The statistics behind some packets. -/
def statsAfter (settings : Settings) (receptions : List Reception) :
    StatsAnalyzer :=
  (StatsAnalyzer.new 200 settings.webStatsIntervalMs.toUInt64).recordAll
    receptions

/-- The frames that up to so many packets lead to. -/
inductive Shown (settings : Settings) (most : Nat) : Broadcast → Prop
  | data {pkt : DataPacket} {receptions : List Reception}
      (valid : validateRange settings.validator pkt = true)
      (counted : receptions ≠ []) (reception : Reception) :
      Shown settings most
        (.data pkt (latency reception)
          (statsAfter settings receptions).snapshot.avgJitterMs)
  | stats {receptions : List Reception} (counted : receptions ≠ [])
      (few : receptions.length ≤ most) :
      Shown settings most (.stats (statsAfter settings receptions).snapshot)

theorem Shown.mono
    {settings : Settings} {few most : Nat} (more : few ≤ most)
    {broadcast : Broadcast} (shown : Shown settings few broadcast) :
    Shown settings most broadcast := by
  cases shown with
  | data valid counted reception => exact .data valid counted reception
  | stats counted bounded => exact .stats counted (bounded.trans more)

/-- An accepted packet has passed the range check. -/
theorem validateRange_of_accept
    {cfg : ValidatorConfig} {counter : UInt32} {arrival : Arrival}
    {accepted : Accepted}
    (isAccepted : (accept cfg counter arrival).1 = some accepted) :
    validateRange cfg accepted.packet = true := by
  simp only [accept, Option.ite_none_right_eq_some, Option.some.injEq]
    at isAccepted
  rcases isAccepted with ⟨ok, rfl⟩
  rcases RangeGate.complete_of_ok ok with ⟨complete, x, y, z, read⟩
  rcases RangeGate.parse_eq_checked complete read arrival.clockMs counter
    with ⟨pkt, parsed, _⟩
  rw [parsed, RangeGate.checked_ok_iff] at ok
  rw [parsed, RangeGate.checked_packet]
  exact ok

/-- What one payload adds to the statistics and shows. -/
theorem shown_of_onPayload
    {settings : Settings} {before : List Reception} {state : State}
    (counted : state.stats = statsAfter settings before)
    (arrival : Arrival) :
    ∃ after,
      (onPayload settings state arrival).1.stats =
          statsAfter settings after ∧
        after.length ≤ before.length + 1 ∧
        ∀ broadcast ∈ (onPayload settings state arrival).2.broadcasts,
          Shown settings (before.length + 1) broadcast := by
  cases verdict : (accept settings.validator state.counter arrival).1 with
  | none =>
      rcases onPayload_of_rejected verdict with ⟨line, rejected⟩
      rw [rejected]
      refine ⟨before, counted, Nat.le_succ _, fun broadcast member => ?_⟩
      exact absurd member List.not_mem_nil
  | some taken =>
      have valid := validateRange_of_accept verdict
      have recorded :
          state.stats.record taken.recvMs taken.packet.timestampMs
              taken.packet.sequenceId =
            statsAfter settings (before ++ [taken.reception]) := by
        rw [counted, statsAfter, statsAfter, StatsAnalyzer.recordAll,
          StatsAnalyzer.recordAll, List.foldl_append]
        rfl
      have nonempty : before ++ [taken.reception] ≠ [] := by simp
      rw [onPayload_of_accepted verdict]
      simp only [onAccepted, recorded]
      refine ⟨_, rfl, by simp, fun broadcast member => ?_⟩
      split_ifs at member with webif due
      · rcases List.mem_cons.mp member with rfl | later
        · exact .data valid nonempty taken.reception
        · rw [List.mem_singleton.mp later]
          exact .stats nonempty (by simp)
      · rw [List.mem_singleton.mp member]
        exact .data valid nonempty taken.reception
      · exact absurd member List.not_mem_nil

theorem shown_of_onPayloads
    {settings : Settings} {before : List Reception} {state : State}
    (counted : state.stats = statsAfter settings before)
    (arrivals : List Arrival) :
    ∀ outcome ∈ (onPayloads settings state arrivals).2,
      ∀ broadcast ∈ outcome.broadcasts,
        Shown settings (before.length + arrivals.length) broadcast := by
  induction arrivals generalizing state before with
  | nil => exact fun outcome member => absurd member List.not_mem_nil
  | cons arrival more induction =>
      rcases shown_of_onPayload counted arrival with
        ⟨after, counted', short, shown⟩
      rw [onPayloads, List.length_cons]
      refine List.forall_mem_cons.mpr ⟨fun broadcast member => ?_, ?_⟩
      · exact (shown broadcast member).mono (by omega)
      · intro outcome member broadcast inOutcome
        exact (induction counted' outcome member broadcast inOutcome).mono
          (by omega)

/-- A frame with statistics can be read. -/
theorem isText_of_stats
    {settings : Settings} (interval : settings.webStatsIntervalMs ≠ 0)
    {receptions : List Reception} (counted : receptions ≠ [])
    (few : receptions.length < 2 ^ 64) :
    ∃ value,
      IsText (frameText (.stats (statsAfter settings receptions).snapshot))
        value := by
  have positive : settings.webStatsIntervalMs.toUInt64 ≠ 0 := by
    intro zero
    apply interval
    rw [← UInt32.toNat_inj, ← UInt32.toNat_toUInt64, zero]
    rfl
  have ordinary :=
    ordinary_snapshot settings.webStatsIntervalMs.toUInt64 counted
  rcases (rateKnown_recordAll positive receptions).rate with
    ⟨magnitude, rate, slow⟩
  refine (toJson_isText_iff _).mpr
    ⟨length_statsText_le ordinary rate (slow.trans ?_), false, magnitude,
      rate⟩
  exact_mod_cast Nat.mul_le_mul_left 1000 few.le

/-- A data frame can be read unless an axis is not a number. -/
theorem isText_data_iff
    {settings : Settings} {limit : ℚ≥0}
    (limited : settings.validator.maxAccMs2 = .finite false limit)
    (small : limit ≤ 10 ^ 28) {pkt : DataPacket}
    (valid : validateRange settings.validator pkt = true)
    {receptions : List Reception} (counted : receptions ≠ [])
    (reception : Reception) :
    (∃ value,
      IsText
        (frameText
          (.data pkt (latency reception)
            (statsAfter settings receptions).snapshot.avgJitterMs))
        value) ↔
      ∀ axis ∈ RangeGate.axes pkt, axis ≠ .nan := by
  have limitNumber : settings.validator.maxAccMs2 ≠ .nan := by
    rw [limited]
    simp
  rw [RangeGate.validateRange_iff limitNumber, limited] at valid
  have fits :
      (dataText pkt (ofRat (latency reception : ℤ))
        (ofRat (statsAfter settings receptions).snapshot.avgJitterMs)).length
        ≤ 255 := by
    refine length_dataText_le (fun axis member => ?_) ?_ ?_
    · have limited : limit ≤ (10 ^ 28 : Nat) := by exact_mod_cast small
      exact length_axis_le limited (by decide) (valid axis member)
    · have bound : |((latency reception : ℤ) : ℚ)| ≤ 2 ^ 64 := by
        exact_mod_cast abs_latency_le reception
      exact bound.trans (by norm_num)
    · exact (ordinary_snapshot _ counted).avgJitterMs
  have axisFinite {axis : Double} (member : axis ∈ RangeGate.axes pkt) :
      axis.IsFinite ↔ axis ≠ .nan := by
    constructor
    · rintro ⟨negative, magnitude, rfl⟩
      simp
    · intro isNumber
      rcases (valid axis member).resolve_left isNumber with ⟨lower, upper⟩
      cases axis with
      | nan => cases upper
      | finite negative magnitude => exact ⟨negative, magnitude, rfl⟩
      | infinite negative =>
          cases negative with
          | false => cases upper
          | true => cases lower
  rw [frameText, dataBuf_isText_iff]
  constructor
  · rintro ⟨_, finite, _⟩ axis member
    exact (axisFinite member).mp (finite axis member)
  · intro numbers
    exact ⟨fits, fun axis member =>
      (axisFinite member).mpr (numbers axis member), ⟨_, _, rfl⟩, _, _, rfl⟩

/-- With an interval of zero, the statistics of the first accepted packet
cannot be read. -/
theorem exists_unreadable_of_zero_interval
    {settings : Settings} (zero : settings.webStatsIntervalMs = 0)
    (webif : settings.webif = true) {state : State}
    (fresh : state.stats = statsAfter settings []) {arrivals : List Arrival}
    (someAccepted :
      acceptedOf settings.validator state.counter arrivals ≠ []) :
    ∃ outcome ∈ (onPayloads settings state arrivals).2,
      ∃ broadcast ∈ outcome.broadcasts,
        ¬ ∃ value, IsText (frameText broadcast) value := by
  induction arrivals generalizing state with
  | nil => exact absurd rfl someAccepted
  | cons arrival more induction =>
      rw [onPayloads]
      cases verdict :
          (accept settings.validator state.counter arrival).1 with
      | none =>
          rcases onPayload_of_rejected verdict with ⟨line, rejected⟩
          rw [acceptedOf, verdict, Option.toList_none, List.nil_append]
            at someAccepted
          have unchanged :
              (onPayload settings state arrival).1 =
                { state with
                  counter :=
                    (accept settings.validator state.counter arrival).2 } := by
            rw [rejected]
          have stillFresh :
              (onPayload settings state arrival).1.stats =
                statsAfter settings [] := by
            rw [unchanged]
            exact fresh
          have stillSome :
              acceptedOf settings.validator
                  (onPayload settings state arrival).1.counter more ≠ [] := by
            rw [unchanged]
            exact someAccepted
          rcases induction stillFresh stillSome
            with ⟨outcome, member, unreadable⟩
          exact ⟨outcome, List.mem_cons_of_mem _ member, unreadable⟩
      | some taken =>
          have always :
              statsDue settings state.lastStatsMs taken.recvMs = true := by
            rw [statsDue, zero]
            exact decide_eq_true (UInt64.le_iff_toNat_le.mpr (Nat.zero_le _))
          have snap :
              (state.stats.record taken.recvMs taken.packet.timestampMs
                  taken.packet.sequenceId).snapshot.rxRateHz =
                .infinite false := by
            have rate := rate_of_zero_interval taken.reception
            rw [fresh, statsAfter, zero]
            exact rate
          rw [onPayload_of_accepted verdict]
          refine ⟨_, List.mem_cons_self,
            .stats (state.stats.record taken.recvMs taken.packet.timestampMs
              taken.packet.sequenceId).snapshot, ?_, fun isText => ?_⟩
          · simp [onAccepted, webif, always]
          · have finite := ((toJson_isText_iff _).mp isText).2
            rw [snap] at finite
            rcases finite with ⟨_, _, impossible⟩
            cases impossible

/-- The axes that a frame shows. -/
def shownAxes : Broadcast → List Double
  | .data pkt _ _ => RangeGate.axes pkt
  | .stats _ => []

/--
What a browser makes of the frames of a connection.  Every frame is an object
with the values it was printed from, up to their decimals, unless it shows an
axis that is not a number: then it is no JSON.  With a report interval of zero
some statistics cannot be read either.
-/
theorem frames_readable
    (settings : Settings) {limit : ℚ≥0}
    (limited : settings.validator.maxAccMs2 = .finite false limit)
    (small : limit ≤ 10 ^ 28) (startMs : UInt64) (arrivals : List Arrival)
    (few : arrivals.length < 2 ^ 64) :
    let outcomes :=
      (onPayloads settings (.new settings startMs) arrivals).2
    (settings.webStatsIntervalMs ≠ 0 →
      ∀ outcome ∈ outcomes, ∀ broadcast ∈ outcome.broadcasts,
        (.nan ∈ shownAxes broadcast →
            ¬ ∃ value, IsText (frameText broadcast) value) ∧
          (.nan ∉ shownAxes broadcast →
            ReadsAs (frameText broadcast) (frameKind broadcast)
              (frameMembers broadcast))) ∧
      (settings.webStatsIntervalMs = 0 → settings.webif = true →
        acceptedOf settings.validator 0 arrivals ≠ [] →
        ∃ outcome ∈ outcomes, ∃ broadcast ∈ outcome.broadcasts,
          ¬ ∃ value, IsText (frameText broadcast) value) := by
  intro outcomes
  refine ⟨fun interval outcome member broadcast inOutcome => ?_,
    fun zero webif someAccepted =>
      exists_unreadable_of_zero_interval zero webif rfl someAccepted⟩
  have shown :=
    shown_of_onPayloads
      (show (State.new settings startMs).stats = statsAfter settings [] from
        rfl) arrivals outcome member broadcast inOutcome
  cases shown with
  | data valid counted reception =>
      have readable := isText_data_iff limited small valid counted reception
      constructor
      · exact fun nan isText => readable.mp isText .nan nan rfl
      · intro noNan
        refine readsAs_of_isText (readable.mpr ?_)
        rintro axis inAxes rfl
        exact noNan inAxes
  | stats counted bounded =>
      have short := Nat.lt_of_le_of_lt bounded (by simpa using few)
      refine ⟨fun nan => absurd nan List.not_mem_nil, fun _ => ?_⟩
      exact readsAs_of_isText (isText_of_stats interval counted short)

theorem frames_readable_shownArrivals :
    ∃ outcome ∈
        (onPayloads shownSettings (.new shownSettings 5000) shownArrivals).2,
      ∃ broadcast ∈ outcome.broadcasts,
        ReadsAs (frameText broadcast) (frameKind broadcast)
          (frameMembers broadcast) := by
  have shown :
      ((onPayloads shownSettings (.new shownSettings 5000)
          shownArrivals).2.any fun outcome =>
        outcome.broadcasts.any fun broadcast =>
          (shownAxes broadcast).all fun axis => !decide (axis = .nan)) =
        true := by
    decide +kernel
  rcases List.any_eq_true.mp shown with ⟨outcome, member, shown⟩
  rcases List.any_eq_true.mp shown with ⟨broadcast, inOutcome, noNan⟩
  refine ⟨outcome, member, broadcast, inOutcome, ?_⟩
  refine (((frames_readable shownSettings rfl
    (NNRat.coe_le_coe.mp (by norm_num)) 5000 shownArrivals (by decide)).1
    (by decide)) outcome member broadcast inOutcome).2 fun nan => ?_
  simpa using List.all_eq_true.mp noNan .nan nan

end AccelObserver.Server.WebFrames
