import AccelObserver.Server.ConfFrame
import AccelObserver.Server.LossCounting
import Mathlib.Tactic.Linarith

/-!
# The rate window

`record` counts packets in a window and computes the rate when the window has
been open for the report interval.  The first window is opened by a packet that
is counted in it, every other one behind a packet that is not; and the time
that a window has been open is an unsigned difference of two times of the wall
clock.
-/

namespace AccelObserver.Server.RateWindow

open AccelObserver.Library
open AccelObserver.Shared.ConfParser
open AccelObserver.Shared.ConfReaders (confGetUint32)
open AccelObserver.Server.ConfLoader (applyConf)
open AccelObserver.Server.ConfFrame (applied applyConf_eq_ok_iff)
open AccelObserver.Server.LossCounting (Fresh)
open AccelObserver.Server.StatsAnalyzer (Reception rateHz)

/-! ## The window -/

/-- The members of the analyzer that make up the window. -/
structure Window where
  reportIntervalMs : UInt64
  startMs : UInt64
  count : Nat
  rateHz : Double

def window (stats : StatsAnalyzer) : Window where
  reportIntervalMs := stats.reportIntervalMs
  startMs := stats.rateWindowStartMs
  count := stats.rateWindowCount
  rateHz := stats.currentRateHz

/-- The window that a packet is counted in: a new one, if none is open. -/
def Window.opened (window : Window) (serverTimeMs : UInt64) : Window :=
  if window.startMs = 0 then
    { window with startMs := serverTimeMs, count := 0 }
  else window

/-- The time that the window has been open, as it is computed. -/
def Window.elapsedMs (window : Window) (serverTimeMs : UInt64) : UInt64 :=
  serverTimeMs - (window.opened serverTimeMs).startMs

/-- The rate is computed, and another window opened. -/
def Window.Completes (window : Window) (serverTimeMs : UInt64) : Prop :=
  window.elapsedMs serverTimeMs ≥ window.reportIntervalMs

instance (window : Window) (serverTimeMs : UInt64) :
    Decidable (window.Completes serverTimeMs) :=
  inferInstanceAs (Decidable (_ ≤ _))

/-- One more packet. -/
def Window.add (window : Window) (serverTimeMs : UInt64) : Window :=
  if window.Completes serverTimeMs then
    { reportIntervalMs := window.reportIntervalMs
      startMs := serverTimeMs
      count := 0
      rateHz :=
        StatsAnalyzer.rateHz ((window.opened serverTimeMs).count + 1)
          (window.elapsedMs serverTimeMs) }
  else
    { window.opened serverTimeMs with
      count := (window.opened serverTimeMs).count + 1 }

theorem window_recordLatency (stats : StatsAnalyzer) (lat : ℤ) :
    window (stats.recordLatency lat) = window stats := by
  simp only [StatsAnalyzer.recordLatency]
  split_ifs <;> rfl

theorem opened_reportIntervalMs (window : Window) (serverTimeMs : UInt64) :
    (window.opened serverTimeMs).reportIntervalMs =
      window.reportIntervalMs := by
  rw [Window.opened]
  split_ifs <;> rfl

theorem window_recordRate (stats : StatsAnalyzer) (serverTimeMs : UInt64) :
    window (stats.recordRate serverTimeMs) =
      (window stats).add serverTimeMs := by
  simp only [StatsAnalyzer.recordRate, Window.add, Window.Completes,
    Window.elapsedMs]
  by_cases none : stats.rateWindowStartMs = 0
  · have opened :
        (window stats).opened serverTimeMs =
          { window stats with startMs := serverTimeMs, count := 0 } :=
      if_pos none
    simp only [if_pos none, opened]
    by_cases completes :
        serverTimeMs - serverTimeMs ≥ stats.reportIntervalMs
    · rw [if_pos completes]
      exact (if_pos completes).symm
    · rw [if_neg completes]
      exact (if_neg completes).symm
  · have opened : (window stats).opened serverTimeMs = window stats :=
      if_neg none
    simp only [if_neg none, opened]
    by_cases completes :
        serverTimeMs - stats.rateWindowStartMs ≥ stats.reportIntervalMs
    · rw [if_pos completes]
      exact (if_pos completes).symm
    · rw [if_neg completes]
      exact (if_neg completes).symm

/-- A step adds its packet to the window, and nothing else. -/
theorem window_record (stats : StatsAnalyzer) (reception : Reception) :
    window
        (stats.record reception.serverTimeMs reception.packetTsMs
          reception.seq) =
      (window stats).add reception.serverTimeMs := by
  rw [StatsAnalyzer.record, window_recordRate]
  exact congrArg (Window.add · _) (window_recordLatency stats _)

/-- A time that is not behind the start of the window is really elapsed. -/
theorem toNat_elapsedMs
    {window : Window} {serverTimeMs : UInt64}
    (ahead : (window.opened serverTimeMs).startMs ≤ serverTimeMs) :
    (window.elapsedMs serverTimeMs).toNat =
      serverTimeMs.toNat - (window.opened serverTimeMs).startMs.toNat :=
  UInt64.toNat_sub_of_le _ _ ahead

/-- A new or reset analyzer has no window open. -/
theorem startMs_of_fresh {stats : StatsAnalyzer} (fresh : Fresh stats) :
    (window stats).startMs = 0 := by
  rcases fresh.isNew with ⟨historySize, reportIntervalMs, rfl⟩
  rfl

/-! ## Steady streams -/

/-- The packets are received at a start time and every so many ms after it. -/
def Steady (t0 p : Nat) (receptions : List Reception) : Prop :=
  ∀ index reception, receptions[index]? = some reception →
    reception.serverTimeMs.toNat = t0 + index * p

/--
The window behind packet `completed + more` of a steady stream, when packet
`completed` has completed the last window, or is the first of all.
-/
structure Counting (t0 p interval completed more : Nat) (window : Window) :
    Prop where
  reportIntervalMs : window.reportIntervalMs.toNat = interval
  startMs : window.startMs.toNat = t0 + completed * p
  pending : more * p < interval
  /-- The first window has the packet that opened it, and no other does. -/
  count :
    (completed = 0 ∧ window.count = more + 1) ∨
      (interval ≤ completed * p ∧ window.count = more)

section Steady

variable {t0 p interval completed more : Nat} {window : Window}
  {serverTimeMs : UInt64}

/-- The window is open, and for as long as packets were counted. -/
theorem elapsedMs_of_counting
    (counting : Counting t0 p interval completed more window)
    (started : 1 ≤ t0)
    (time : serverTimeMs.toNat = t0 + (completed + more + 1) * p) :
    window.opened serverTimeMs = window ∧
      (window.elapsedMs serverTimeMs).toNat = (more + 1) * p := by
  have start := counting.startMs
  have opened : window.opened serverTimeMs = window := by
    refine if_neg fun none => ?_
    rw [none, UInt64.toNat_zero] at start
    omega
  have split :
      (completed + more + 1) * p = completed * p + (more + 1) * p := by
    ring
  have ahead : (window.opened serverTimeMs).startMs ≤ serverTimeMs := by
    rw [opened, UInt64.le_iff_toNat_le]
    omega
  refine ⟨opened, ?_⟩
  rw [toNat_elapsedMs ahead, opened]
  omega

theorem completes_iff_of_counting
    (counting : Counting t0 p interval completed more window)
    (started : 1 ≤ t0)
    (time : serverTimeMs.toNat = t0 + (completed + more + 1) * p) :
    window.Completes serverTimeMs ↔ interval ≤ (more + 1) * p := by
  rw [Window.Completes, ge_iff_le, UInt64.le_iff_toNat_le,
    counting.reportIntervalMs,
    (elapsedMs_of_counting counting started time).2]

/-- The next packet goes into the window, or opens another one. -/
theorem counting_add
    (counting : Counting t0 p interval completed more window)
    (started : 1 ≤ t0) (positive : 1 ≤ interval)
    (time : serverTimeMs.toNat = t0 + (completed + more + 1) * p) :
    ∃ completed' more', completed' + more' = completed + more + 1 ∧
      Counting t0 p interval completed' more' (window.add serverTimeMs) := by
  have opened := (elapsedMs_of_counting counting started time).1
  have completes := completes_iff_of_counting counting started time
  by_cases full : interval ≤ (more + 1) * p
  · refine ⟨completed + more + 1, 0, rfl, ?_⟩
    rw [Window.add, if_pos (completes.mpr full)]
    constructor
    · exact counting.reportIntervalMs
    · exact time
    · omega
    · refine .inr ⟨full.trans ?_, rfl⟩
      exact Nat.mul_le_mul_right p (by omega)
  · refine ⟨completed, more + 1, rfl, ?_⟩
    rw [Window.add, if_neg (mt completes.mp full), opened]
    constructor
    · exact counting.reportIntervalMs
    · exact counting.startMs
    · exact Nat.not_le.mp full
    · rcases counting.count with ⟨first, count⟩ | ⟨later, count⟩
      · exact .inl ⟨first, congrArg (· + 1) count⟩
      · exact .inr ⟨later, congrArg (· + 1) count⟩

/-- The first packet completes no window. -/
theorem not_completes_of_none
    (none : window.startMs = 0)
    (positive : 1 ≤ window.reportIntervalMs.toNat) :
    ¬ window.Completes serverTimeMs := by
  rw [Window.Completes, Window.elapsedMs, Window.opened, if_pos none,
    ge_iff_le, UInt64.le_iff_toNat_le, UInt64.sub_self, UInt64.toNat_zero]
  exact Nat.not_le.mpr positive

/-- It opens the first one. -/
theorem counting_first
    (none : window.startMs = 0)
    (positive : 1 ≤ window.reportIntervalMs.toNat)
    (time : serverTimeMs.toNat = t0) :
    Counting t0 p window.reportIntervalMs.toNat 0 0
      (window.add serverTimeMs) := by
  rw [Window.add, if_neg (not_completes_of_none none positive),
    Window.opened, if_pos none]
  constructor
  · rfl
  · simpa using time
  · omega
  · exact .inl ⟨rfl, rfl⟩

end Steady

theorem recordAll_append
    (stats : StatsAnalyzer) (before : List Reception) (reception : Reception) :
    window (stats.recordAll (before ++ [reception])) =
      (window (stats.recordAll before)).add reception.serverTimeMs := by
  rw [StatsAnalyzer.recordAll, List.foldl_append, ← StatsAnalyzer.recordAll]
  exact window_record _ reception

/-- The rate behind a packet that completes its window. -/
theorem currentRateHz_recordAll
    {stats : StatsAnalyzer} {before : List Reception} {reception : Reception}
    (completes :
      (window (stats.recordAll before)).Completes reception.serverTimeMs) :
    (stats.recordAll (before ++ [reception])).currentRateHz =
      rateHz
        (((window (stats.recordAll before)).opened
          reception.serverTimeMs).count + 1)
        ((window (stats.recordAll before)).elapsedMs
          reception.serverTimeMs) := by
  have added := congrArg Window.rateHz (recordAll_append stats before reception)
  rw [Window.add, if_pos completes] at added
  exact added

theorem Steady.last
    {t0 p : Nat} {before : List Reception} {reception : Reception}
    (steady : Steady t0 p (before ++ [reception])) :
    reception.serverTimeMs.toNat = t0 + before.length * p :=
  steady before.length reception (by simp)

theorem Steady.init
    {t0 p : Nat} {before : List Reception} {reception : Reception}
    (steady : Steady t0 p (before ++ [reception])) : Steady t0 p before := by
  intro index earlier found
  refine steady index earlier ?_
  rw [List.getElem?_append_left]
  · exact found
  · exact (List.getElem?_eq_some_iff.mp found).1

section Run

variable {stats : StatsAnalyzer} (fresh : Fresh stats) {t0 p : Nat}
  (started : 1 ≤ t0) (positive : 1 ≤ stats.reportIntervalMs.toNat)

include fresh started positive

/-- Behind every packet of a steady stream, the window counts. -/
theorem counting_run
    {receptions : List Reception} (steady : Steady t0 p receptions)
    (nonempty : receptions ≠ []) :
    ∃ completed more, completed + more + 1 = receptions.length ∧
      Counting t0 p stats.reportIntervalMs.toNat completed more
        (window (stats.recordAll receptions)) := by
  induction receptions using List.reverseRecOn with
  | nil => exact absurd rfl nonempty
  | append_singleton before reception induction =>
      have time := steady.last
      rw [recordAll_append]
      by_cases first : before = []
      · subst first
        rw [List.length_nil, Nat.zero_mul, Nat.add_zero] at time
        exact ⟨0, 0, rfl,
          counting_first (startMs_of_fresh fresh) positive time⟩
      · rcases induction steady.init first with
          ⟨completed, more, length, counting⟩
        rw [← length] at time
        rcases counting_add counting started positive time with
          ⟨completed', more', sum, next⟩
        refine ⟨completed', more', ?_, next⟩
        rw [List.length_append, List.length_singleton]
        omega

end Run

/-- The rate is that of the stream exactly if it is one packet a period. -/
theorem rateHz_eq_iff
    {count more p : Nat} (period : 1 ≤ p) {elapsedMs : UInt64}
    (elapsed : elapsedMs.toNat = (more + 1) * p) :
    rateHz count elapsedMs = .finite false (1000 / p) ↔ count = more + 1 := by
  have positive : 0 < (more + 1) * p := Nat.mul_pos more.succ_pos period
  have nonzero : elapsedMs ≠ 0 := by
    rintro rfl
    rw [UInt64.toNat_zero] at elapsed
    omega
  have periodCast : (p : ℚ≥0) ≠ 0 := Nat.cast_ne_zero.mpr (by omega)
  have moreCast : ((more : ℚ≥0) + 1) ≠ 0 := by positivity
  rw [rateHz, if_neg nonzero, elapsed, Double.finite.injEq,
    and_iff_right rfl, Nat.cast_mul, Nat.cast_succ, div_div_eq_mul_div,
    div_eq_div_iff (mul_ne_zero moreCast periodCast) periodCast]
  norm_cast
  constructor
  · intro same
    refine Nat.eq_of_mul_eq_mul_right (show 0 < 1000 * p by omega) ?_
    linarith
  · rintro rfl
    ring

/--
The rate behind a packet of a steady stream is the rate of the stream, if it
is computed there, exactly if the packet is not the first to complete a window.
-/
theorem rate_iff
    {stats : StatsAnalyzer} (fresh : Fresh stats)
    (positive : 1 ≤ stats.reportIntervalMs.toNat)
    {t0 p : Nat} (started : 1 ≤ t0) (period : 1 ≤ p)
    {before : List Reception} {reception : Reception}
    (steady : Steady t0 p (before ++ [reception])) :
    ((window (stats.recordAll before)).Completes reception.serverTimeMs →
        (stats.recordAll (before ++ [reception])).currentRateHz =
          .finite false (1000 / p)) ↔
      ¬ (stats.reportIntervalMs.toNat ≤ before.length * p ∧
          (before.length - 1) * p < stats.reportIntervalMs.toNat) := by
  have time := steady.last
  by_cases first : before = []
  · subst first
    rw [List.length_nil, Nat.zero_mul, Nat.add_zero] at time
    have incomplete :
        ¬ (window stats).Completes reception.serverTimeMs :=
      not_completes_of_none (startMs_of_fresh fresh) positive
    constructor
    · rintro _ ⟨full, _⟩
      simp at full
      omega
    · intro _ completes
      exact absurd completes incomplete
  · rcases counting_run fresh started positive steady.init first with
      ⟨completed, more, length, counting⟩
    rw [← length] at time
    have completes := completes_iff_of_counting counting started time
    rcases elapsedMs_of_counting counting started time with
      ⟨opened, elapsed⟩
    have rate
        (completed :
          (window (stats.recordAll before)).Completes
            reception.serverTimeMs) :
        (stats.recordAll (before ++ [reception])).currentRateHz =
          rateHz ((window (stats.recordAll before)).count + 1)
            ((window (stats.recordAll before)).elapsedMs
              reception.serverTimeMs) := by
      rw [currentRateHz_recordAll completed, opened]
    rw [← length, Nat.add_sub_cancel]
    rcases counting.count with ⟨rfl, count⟩ | ⟨later, count⟩
    · have pending := counting.pending
      constructor
      · rintro always ⟨full, _⟩
        rw [Nat.zero_add] at full
        have same := always (completes.mpr full)
        rw [rate (completes.mpr full), rateHz_eq_iff period elapsed,
          count] at same
        omega
      · intro notFirst completed
        refine absurd ⟨?_, ?_⟩ notFirst
        · rw [Nat.zero_add]
          exact completes.mp completed
        · rw [Nat.zero_add]
          exact pending
    · constructor
      · rintro _ ⟨_, notLater⟩
        have more := Nat.mul_le_mul_right p (Nat.le_add_right completed more)
        omega
      · intro _ completed
        rw [rate completed, rateHz_eq_iff period elapsed, count]

/-- A packet every 100 ms. -/
def steadyReceptions : List Reception :=
  [⟨1000, 990, 0⟩, ⟨1100, 1090, 1⟩, ⟨1200, 1190, 2⟩]

theorem steadyReceptions_steady : Steady 1000 100 steadyReceptions := by
  intro index reception found
  rcases index with _ | _ | _ | index
  · cases found
    rfl
  · cases found
    rfl
  · cases found
    rfl
  · cases found

/-- The first window of 200 ms is over, with three packets in it. -/
theorem rate_iff_steadyReceptions :
    ((window ((StatsAnalyzer.new 200 200).recordAll
          [⟨1000, 990, 0⟩, ⟨1100, 1090, 1⟩])).Completes 1200 →
        ((StatsAnalyzer.new 200 200).recordAll
            steadyReceptions).currentRateHz =
          .finite false (1000 / (100 : Nat))) ↔
      ¬ ((StatsAnalyzer.new 200 200).reportIntervalMs.toNat ≤ 2 * 100 ∧
          (2 - 1) * 100 <
            (StatsAnalyzer.new 200 200).reportIntervalMs.toNat) :=
  @rate_iff (StatsAnalyzer.new 200 200) (.inl ⟨200, 200, rfl⟩) (by decide)
    1000 100 (by decide) (by decide)
    [⟨1000, 990, 0⟩, ⟨1100, 1090, 1⟩] ⟨1200, 1190, 2⟩
    steadyReceptions_steady

/-- They are counted as 15 Hz where there are 10. -/
theorem steadyReceptions_rate :
    Fresh (StatsAnalyzer.new 200 200) ∧
      Steady 1000 100 steadyReceptions ∧
      (window ((StatsAnalyzer.new 200 200).recordAll
        [⟨1000, 990, 0⟩, ⟨1100, 1090, 1⟩])).Completes 1200 ∧
      ((StatsAnalyzer.new 200 200).recordAll
          steadyReceptions).currentRateHz ≠
        .finite false (1000 / (100 : Nat)) := by
  refine ⟨.inl ⟨200, 200, rfl⟩, steadyReceptions_steady, by decide, ?_⟩
  have rate :
      ((StatsAnalyzer.new 200 200).recordAll
          steadyReceptions).currentRateHz = rateHz 3 200 := rfl
  have elapsed : (200 : UInt64).toNat = (1 + 1) * 100 := by decide
  rw [rate, Ne, rateHz_eq_iff (by decide) elapsed]
  decide

/-! ## Any clock and any interval -/

/--
If the rate is computed, then over the true time between the start of the
window and the packet, and that is not zero.
-/
def Safe (window : Window) (serverTimeMs : UInt64) : Prop :=
  window.Completes serverTimeMs →
    ((window.elapsedMs serverTimeMs).toNat : ℤ) =
        serverTimeMs.toNat - (window.opened serverTimeMs).startMs.toNat ∧
      0 < (window.elapsedMs serverTimeMs).toNat

/--
The packet is received before the start of its window, and not by so much that
the difference modulo 2^64 is less than the interval.
-/
def Behind (window : Window) (serverTimeMs : UInt64) : Prop :=
  serverTimeMs < (window.opened serverTimeMs).startMs ∧
    (window.opened serverTimeMs).startMs.toNat - serverTimeMs.toNat ≤
      2 ^ 64 - window.reportIntervalMs.toNat

/-- The computation is safe at every packet. -/
def AllSafe (stats : StatsAnalyzer) (receptions : List Reception) : Prop :=
  ∀ before reception after, receptions = before ++ reception :: after →
    Safe (window (stats.recordAll before)) reception.serverTimeMs

def NeverBehind (stats : StatsAnalyzer) (receptions : List Reception) :
    Prop :=
  ∀ before reception after, receptions = before ++ reception :: after →
    ¬ Behind (window (stats.recordAll before)) reception.serverTimeMs

/-- A difference that wraps. -/
theorem toNat_elapsedMs_of_lt
    {window : Window} {serverTimeMs : UInt64}
    (behind : serverTimeMs < (window.opened serverTimeMs).startMs) :
    (window.elapsedMs serverTimeMs).toNat =
      2 ^ 64 -
        ((window.opened serverTimeMs).startMs.toNat - serverTimeMs.toNat) := by
  rw [UInt64.lt_iff_toNat_lt] at behind
  have below := (window.opened serverTimeMs).startMs.toNat_lt
  rw [Window.elapsedMs, UInt64.toNat_sub, Nat.mod_eq_of_lt (by omega)]
  omega

theorem safe_iff
    {window : Window} (positive : 1 ≤ window.reportIntervalMs.toNat)
    (serverTimeMs : UInt64) :
    Safe window serverTimeMs ↔ ¬ Behind window serverTimeMs := by
  have below := window.reportIntervalMs.toNat_lt
  rw [Safe, Behind, Window.Completes, ge_iff_le, UInt64.le_iff_toNat_le]
  by_cases behind : serverTimeMs < (window.opened serverTimeMs).startMs
  · rw [and_iff_right behind, toNat_elapsedMs_of_lt behind]
    rw [UInt64.lt_iff_toNat_lt] at behind
    have startBelow := (window.opened serverTimeMs).startMs.toNat_lt
    constructor
    · intro safe near
      have wrapped := (safe (by omega)).1
      omega
    · intro far completes
      omega
  · rw [UInt64.not_lt] at behind
    rw [toNat_elapsedMs behind]
    rw [UInt64.le_iff_toNat_le] at behind
    constructor
    · rintro _ ⟨before, _⟩
      rw [UInt64.lt_iff_toNat_lt] at before
      omega
    · intro _ completes
      omega

theorem reportIntervalMs_add (window : Window) (serverTimeMs : UInt64) :
    (window.add serverTimeMs).reportIntervalMs = window.reportIntervalMs := by
  rw [Window.add]
  split_ifs
  · rfl
  · exact opened_reportIntervalMs window serverTimeMs

theorem reportIntervalMs_recordAll
    (stats : StatsAnalyzer) (receptions : List Reception) :
    (window (stats.recordAll receptions)).reportIntervalMs =
      stats.reportIntervalMs := by
  induction receptions using List.reverseRecOn with
  | nil => rfl
  | append_singleton before reception induction =>
      rw [recordAll_append, reportIntervalMs_add, induction]

/-- An interval of zero makes the first packet divide by zero. -/
theorem not_safe_of_zero
    {window : Window} (none : window.startMs = 0)
    (zero : window.reportIntervalMs = 0) (serverTimeMs : UInt64) :
    ¬ Safe window serverTimeMs := by
  have elapsed : window.elapsedMs serverTimeMs = 0 := by
    rw [Window.elapsedMs, Window.opened, if_pos none, UInt64.sub_self]
  intro safe
  have completes : window.Completes serverTimeMs := by
    rw [Window.Completes, elapsed, zero]
    exact UInt64.le_refl 0
  have positive := (safe completes).2
  rw [elapsed] at positive
  exact absurd positive (by decide)

/--
The rate is computed safely throughout if and only if the interval is positive
and no packet is behind the window that is open when it is received.
-/
theorem allSafe_iff
    {stats : StatsAnalyzer} (fresh : Fresh stats)
    (receptions : List Reception) :
    AllSafe stats receptions ↔
      receptions = [] ∨
        (stats.reportIntervalMs ≠ 0 ∧ NeverBehind stats receptions) := by
  cases receptions with
  | nil => simp [AllSafe]
  | cons first rest =>
      by_cases zero : stats.reportIntervalMs = 0
      · have unsafeFirst :
            ¬ Safe (window (stats.recordAll [])) first.serverTimeMs :=
          not_safe_of_zero (startMs_of_fresh fresh) zero _
        constructor
        · intro safe
          exact absurd (safe [] first rest rfl) unsafeFirst
        · simp [zero]
      · have positive (before : List Reception) :
            1 ≤ (window
              (stats.recordAll before)).reportIntervalMs.toNat := by
          rw [reportIntervalMs_recordAll]
          exact Nat.one_le_iff_ne_zero.mpr fun same =>
            zero (UInt64.toNat_inj.mp same)
        rw [or_iff_right (List.cons_ne_nil _ _), and_iff_right zero]
        constructor
        · intro safe before reception after split
          exact (safe_iff (positive before) _).mp
            (safe before reception after split)
        · intro never before reception after split
          exact (safe_iff (positive before) _).mpr
            (never before reception after split)

/-! ### Clocks that are not set back -/

/-- The start of the window is that of the packet, or stays. -/
theorem startMs_add (window : Window) (serverTimeMs : UInt64) :
    (window.add serverTimeMs).startMs = serverTimeMs ∨
      (window.add serverTimeMs).startMs = window.startMs := by
  rw [Window.add, Window.opened]
  split_ifs
  · exact .inl rfl
  · exact .inl rfl
  · exact .inl rfl
  · exact .inr rfl

/-- The window has been opened at the time of an earlier packet. -/
theorem startMs_recordAll
    {stats : StatsAnalyzer} (fresh : Fresh stats)
    (receptions : List Reception) :
    (window (stats.recordAll receptions)).startMs = 0 ∨
      ∃ reception ∈ receptions,
        (window (stats.recordAll receptions)).startMs =
          reception.serverTimeMs := by
  induction receptions using List.reverseRecOn with
  | nil => exact .inl (startMs_of_fresh fresh)
  | append_singleton before reception induction =>
      rw [recordAll_append]
      rcases startMs_add (window (stats.recordAll before))
          reception.serverTimeMs with new | old
      · exact .inr ⟨reception, by simp, new⟩
      · rw [old]
        rcases induction with none | ⟨earlier, member, start⟩
        · exact .inl none
        · exact .inr ⟨earlier, List.mem_append_left _ member, start⟩

/-- No packet of a clock that is never set back is behind its window. -/
theorem neverBehind_of_monotone
    {stats : StatsAnalyzer} (fresh : Fresh stats)
    {receptions : List Reception}
    (monotone :
      receptions.Pairwise fun earlier later =>
        earlier.serverTimeMs ≤ later.serverTimeMs) :
    NeverBehind stats receptions := by
  rintro before reception after rfl ⟨behind, _⟩
  rw [List.pairwise_append] at monotone
  rw [Window.opened] at behind
  split_ifs at behind with none
  · exact absurd behind (UInt64.lt_irrefl _)
  · rcases startMs_recordAll fresh before with start | ⟨earlier, member, start⟩
    · exact none start
    · have ahead :=
        monotone.2.2 earlier member reception (List.mem_cons_self ..)
      rw [start] at behind
      exact absurd behind (UInt64.not_lt.mpr ahead)

/-! ### The configured interval -/

/-- The analyzer that `main` builds. -/
def configured (cfg : Config) : StatsAnalyzer :=
  StatsAnalyzer.new 200 cfg.webStatsIntervalMs.toUInt64

/-- The loader lets every interval through, and zero with the others. -/
theorem configured_allSafe_iff
    {conf : ConfResult} {cfg after : Config}
    (applies : applyConf conf cfg = .ok after)
    (receptions : List Reception) :
    AllSafe (configured after) receptions ↔
      receptions = [] ∨
        (confGetUint32 conf (ascii "web") (ascii "stats_interval_ms")
            cfg.webStatsIntervalMs ≠ 0 ∧
          NeverBehind (configured after) receptions) := by
  rcases applyConf_eq_ok_iff.mp applies with ⟨h, _, rfl⟩
  have fresh : Fresh (configured (applied conf h cfg)) := .inl ⟨_, _, rfl⟩
  have interval :
      (configured (applied conf h cfg)).reportIntervalMs =
        (confGetUint32 conf (ascii "web") (ascii "stats_interval_ms")
          cfg.webStatsIntervalMs).toUInt64 := rfl
  rw [allSafe_iff fresh, interval, Ne, Ne, ← UInt64.toNat_inj,
    ← UInt32.toNat_inj, UInt32.toNat_toUInt64]
  rfl

/-- A document whose interval is zero. -/
def zeroInterval : ConfResult :=
  { confAlloc with
    entries :=
      [{ sectionName := ascii "connection", key := ascii "host"
         value := ascii "broker", lineN := 2 },
        { sectionName := ascii "web", key := ascii "stats_interval_ms"
          value := ascii "0", lineN := 5 }]
    filled_le := by decide }

theorem configured_allSafe_iff_zeroInterval :
    AllSafe
        (configured (applied zeroInterval (ascii "broker") Config.default))
        steadyReceptions ↔
      steadyReceptions = [] ∨
        (confGetUint32 zeroInterval (ascii "web")
            (ascii "stats_interval_ms") Config.default.webStatsIntervalMs ≠
              0 ∧
          NeverBehind
            (configured
              (applied zeroInterval (ascii "broker") Config.default))
            steadyReceptions) :=
  configured_allSafe_iff
    (applyConf_eq_ok_iff.mpr ⟨ascii "broker", by decide, rfl⟩) _

/--
The first packet divides by zero with it, and with the default interval one
that is received after the clock has been set back by a second wraps.
-/
theorem zeroInterval_not_safe :
    applyConf zeroInterval Config.default =
        .ok (applied zeroInterval (ascii "broker") Config.default) ∧
      ¬ AllSafe
          (configured (applied zeroInterval (ascii "broker") Config.default))
          [⟨1000, 990, 0⟩] ∧
      ¬ AllSafe (configured Config.default)
          [⟨2000, 1990, 0⟩, ⟨1000, 2090, 1⟩] := by
  refine ⟨applyConf_eq_ok_iff.mpr ⟨ascii "broker", by decide, rfl⟩, ?_, ?_⟩
  · intro safe
    have first := safe [] ⟨1000, 990, 0⟩ [] rfl
    exact absurd (first (by decide)).2 (by decide)
  · intro safe
    have second := safe [⟨2000, 1990, 0⟩] ⟨1000, 2090, 1⟩ [] rfl
    exact absurd (second (by decide)).1 (by decide)

end AccelObserver.Server.RateWindow
