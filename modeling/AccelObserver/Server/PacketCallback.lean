import AccelObserver.Library.CString
import AccelObserver.Library.Throttle
import AccelObserver.Server.PacketValidator
import AccelObserver.Server.StatsAnalyzer

/-!
# The packet callback

What `main` does with each payload that the subscriber hands it: the validator
reads it, the analyzer counts it, the dashboard gets it and now and then the
statistics, and the storage manager gets it last.  A payload that the
validator rejects goes no further.

The clock is read twice, once here and, where a packet has no time of its own,
once in the validator.  The latency of a data frame is taken exactly.
-/

namespace AccelObserver.Server.PacketCallback

open AccelObserver.Library
open AccelObserver.Server.PacketValidator

/-! ## The callback -/

/-- What `main` has set up when it registers the callback. -/
structure Settings where
  validator : ValidatorConfig
  webif : Bool
  webStatsIntervalMs : UInt32

/-- A payload, and what the clock says in `main` and in the validator. -/
structure Arrival where
  payload : Bytes
  recvMs : UInt64
  clockMs : UInt64

/-- What the callback keeps from one payload to the next. -/
structure State where
  /-- The counter of the validator. -/
  counter : UInt32
  stats : StatsAnalyzer
  lastStatsMs : UInt64

/-- `main` before the first payload. -/
def State.new (settings : Settings) (startMs : UInt64) : State where
  counter := 0
  stats := .new 200 settings.webStatsIntervalMs.toUInt64
  lastStatsMs := startMs

/-- A call of the dashboard. -/
inductive Broadcast
  | data (pkt : DataPacket) (latencyMs : ℤ) (avgJitterMs : ℚ)
  | stats (snap : StatsSnapshot)

/-- A line for the log. -/
inductive LogLine
  | rejected (reason payload : Bytes)
  | stats (snap : StatsSnapshot)

/-- What one payload leads to; the packet that is pushed comes last. -/
structure Outcome where
  logs : List LogLine
  broadcasts : List Broadcast
  push : Option DataPacket

/-- The text of the warning. -/
def reason : ParseResult → Bytes
  | .missingFields => ascii "missing fields"
  | .outOfRange => ascii "out of range"
  | .invalidFormat => ascii "invalid format"
  | .ok => ascii "unknown"

/-- `now - last_stats_ms >= cfg.web_stats_interval_ms` -/
def statsDue (settings : Settings) (lastStatsMs now : UInt64) : Bool :=
  now - lastStatsMs ≥ settings.webStatsIntervalMs.toUInt64

/-- The branch for a payload that is rejected: the warning shows 80 bytes. -/
def onRejected (state : State) (counter : UInt32) (result : ParseResult)
    (payload : Bytes) : State × Outcome :=
  ({ state with counter := counter },
    { logs :=
        [.rejected (reason result) ((CString.cText payload).take 80)]
      broadcasts := []
      push := none })

/-- The rest of the callback, for a packet that is accepted. -/
def onAccepted (settings : Settings) (state : State) (counter : UInt32)
    (recvMs : UInt64) (pkt : DataPacket) : State × Outcome :=
  let stats := state.stats.record recvMs pkt.timestampMs pkt.sequenceId
  let snap := stats.snapshot
  let lat : ℤ := (recvMs.toNat : ℤ) - pkt.timestampMs.toNat
  let due := settings.webif && statsDue settings state.lastStatsMs recvMs
  ({ counter := counter
     stats := stats
     lastStatsMs := if due then recvMs else state.lastStatsMs },
    { logs :=
        if pkt.sequenceId > 0 ∧ pkt.sequenceId % 1000 = 0 then [.stats snap]
        else []
      broadcasts :=
        if settings.webif then
          .data pkt lat snap.avgJitterMs :: if due then [.stats snap] else []
        else []
      push := some pkt })

/-- The callback, up to `storage.push`. -/
def onPayload (settings : Settings) (state : State) (arrival : Arrival) :
    State × Outcome :=
  let (parsed, counter) :=
    parse settings.validator arrival.clockMs state.counter arrival.payload
  if parsed.result = .ok then
    onAccepted settings state counter arrival.recvMs parsed.packet
  else
    onRejected state counter parsed.result arrival.payload

/-- The payloads of a connection, one after another. -/
def onPayloads (settings : Settings) :
    State → List Arrival → State × List Outcome
  | state, [] => (state, [])
  | state, arrival :: more =>
      let (after, outcome) := onPayload settings state arrival
      let (final, outcomes) := onPayloads settings after more
      (final, outcome :: outcomes)

/-! ## What is accepted -/

/-- A packet that passed the validator, and when it was received. -/
structure Accepted where
  packet : DataPacket
  recvMs : UInt64

/-- What the validator makes of a payload, and the counter behind it. -/
def accept (cfg : ValidatorConfig) (counter : UInt32) (arrival : Arrival) :
    Option Accepted × UInt32 :=
  let (parsed, counter) := parse cfg arrival.clockMs counter arrival.payload
  (if parsed.result = .ok then
      some { packet := parsed.packet, recvMs := arrival.recvMs }
    else none,
    counter)

/-- The accepted packets of a sequence of payloads: the validator alone decides
on them. -/
def acceptedOf (cfg : ValidatorConfig) : UInt32 → List Arrival → List Accepted
  | _, [] => []
  | counter, arrival :: more =>
      (accept cfg counter arrival).1.toList ++
        acceptedOf cfg (accept cfg counter arrival).2 more

/-- The counter of the validator behind some payloads. -/
def counterAfter (settings : Settings) (counter : UInt32)
    (arrivals : List Arrival) : UInt32 :=
  arrivals.foldl
    (fun counter arrival =>
      (accept settings.validator counter arrival).2)
    counter

theorem acceptedOf_concat
    (settings : Settings) (counter : UInt32) (arrivals : List Arrival)
    (arrival : Arrival) :
    acceptedOf settings.validator counter (arrivals ++ [arrival]) =
      acceptedOf settings.validator counter arrivals ++
        (accept settings.validator (counterAfter settings counter arrivals)
          arrival).1.toList := by
  induction arrivals generalizing counter with
  | nil => simp [acceptedOf, counterAfter]
  | cons first more induction =>
      rw [List.cons_append, acceptedOf, induction, acceptedOf,
        List.append_assoc]
      rfl

/-- The arguments of the call of `record`. -/
def Accepted.reception (accepted : Accepted) : StatsAnalyzer.Reception where
  serverTimeMs := accepted.recvMs
  packetTsMs := accepted.packet.timestampMs
  seq := accepted.packet.sequenceId

/-- A rejected payload reaches the counter of the validator and the log. -/
theorem onPayload_of_rejected
    {settings : Settings} {state : State} {arrival : Arrival}
    (rejected :
      (accept settings.validator state.counter arrival).1 = none) :
    ∃ line,
      onPayload settings state arrival =
        ({ state with
            counter := (accept settings.validator state.counter arrival).2 },
          { logs := [line], broadcasts := [], push := none }) := by
  simp only [accept, ite_eq_right_iff, reduceCtorEq, imp_false] at rejected
  simp only [onPayload, if_neg rejected, onRejected, accept]
  exact ⟨_, rfl⟩

/-- An accepted packet is counted and pushed. -/
theorem onPayload_of_accepted
    {settings : Settings} {state : State} {arrival : Arrival}
    {accepted : Accepted}
    (isAccepted :
      (accept settings.validator state.counter arrival).1 = some accepted) :
    onPayload settings state arrival =
      onAccepted settings state
        (accept settings.validator state.counter arrival).2 accepted.recvMs
        accepted.packet := by
  simp only [accept, Option.ite_none_right_eq_some, Option.some.injEq]
    at isAccepted
  rcases isAccepted with ⟨ok, rfl⟩
  simp only [onPayload, if_pos ok, accept]

/-- The analyzer counts what is accepted and nothing else. -/
theorem stats_onPayloads
    (settings : Settings) (state : State) (arrivals : List Arrival) :
    (onPayloads settings state arrivals).1.stats =
      state.stats.recordAll
        ((acceptedOf settings.validator state.counter arrivals).map
          Accepted.reception) := by
  induction arrivals generalizing state with
  | nil => rfl
  | cons arrival more induction =>
      have rest := induction (onPayload settings state arrival).1
      rw [onPayloads, acceptedOf, List.map_append]
      simp only
      rw [rest]
      cases verdict :
          (accept settings.validator state.counter arrival).1 with
      | none =>
          rcases onPayload_of_rejected verdict with ⟨line, rejected⟩
          rw [rejected]
          rfl
      | some taken =>
          rw [onPayload_of_accepted verdict]
          rfl

theorem counter_onPayload
    (settings : Settings) (state : State) (arrival : Arrival) :
    (onPayload settings state arrival).1.counter =
      (accept settings.validator state.counter arrival).2 := by
  cases verdict : (accept settings.validator state.counter arrival).1 with
  | none =>
      rcases onPayload_of_rejected verdict with ⟨line, rejected⟩
      rw [rejected]
  | some taken =>
      rw [onPayload_of_accepted verdict]
      rfl

theorem counter_onPayloads
    (settings : Settings) (state : State) (arrivals : List Arrival) :
    (onPayloads settings state arrivals).1.counter =
      counterAfter settings state.counter arrivals := by
  induction arrivals generalizing state with
  | nil => rfl
  | cons arrival more induction =>
      rw [onPayloads]
      simp only
      rw [induction, counter_onPayload]
      rfl

theorem onPayloads_concat
    (settings : Settings) (state : State) (arrivals : List Arrival)
    (arrival : Arrival) :
    (onPayloads settings state (arrivals ++ [arrival])).1 =
      (onPayload settings (onPayloads settings state arrivals).1
        arrival).1 := by
  induction arrivals generalizing state with
  | nil => rfl
  | cons first more induction =>
      rw [List.cons_append, onPayloads, onPayloads]
      exact induction _

/-! ## What the dashboard is sent -/

/-- The packet of a data frame. -/
def Broadcast.packet? : Broadcast → Option DataPacket
  | .data pkt _ _ => some pkt
  | .stats _ => none

/-- The statistics of a frame. -/
def Broadcast.snap? : Broadcast → Option StatsSnapshot
  | .data _ _ _ => none
  | .stats snap => some snap

/-- The packets that the dashboard is sent. -/
def dataSent (outcomes : List Outcome) : List DataPacket :=
  outcomes.flatMap fun outcome => outcome.broadcasts.filterMap Broadcast.packet?

/-- The statistics that the dashboard is sent, each with its time. -/
def statsSent (settings : Settings) :
    State → List Arrival → List (UInt64 × StatsSnapshot)
  | _, [] => []
  | state, arrival :: more =>
      let (after, outcome) := onPayload settings state arrival
      ((outcome.broadcasts.filterMap Broadcast.snap?).map fun snap =>
          (arrival.recvMs, snap)) ++
        statsSent settings after more

/-- When the dashboard is sent statistics. -/
def statsTimes (settings : Settings) (state : State)
    (arrivals : List Arrival) : List UInt64 :=
  (statsSent settings state arrivals).map Prod.fst

theorem accept_recvMs
    {cfg : ValidatorConfig} {counter : UInt32} {arrival : Arrival}
    {accepted : Accepted}
    (isAccepted : (accept cfg counter arrival).1 = some accepted) :
    accepted.recvMs = arrival.recvMs := by
  simp only [accept, Option.ite_none_right_eq_some, Option.some.injEq]
    at isAccepted
  rw [← isAccepted.2]

/-- Every accepted packet is shown, whatever becomes of it in the buffer. -/
theorem dataSent_eq
    {settings : Settings} (webif : settings.webif = true) (state : State)
    (arrivals : List Arrival) :
    dataSent (onPayloads settings state arrivals).2 =
      (acceptedOf settings.validator state.counter arrivals).map
        Accepted.packet := by
  induction arrivals generalizing state with
  | nil => rfl
  | cons arrival more induction =>
      have rest := induction (onPayload settings state arrival).1
      rw [onPayloads, acceptedOf, List.map_append]
      simp only [dataSent, List.flatMap_cons] at rest ⊢
      rw [rest]
      cases verdict :
          (accept settings.validator state.counter arrival).1 with
      | none =>
          rcases onPayload_of_rejected verdict with ⟨line, rejected⟩
          rw [rejected]
          rfl
      | some taken =>
          rw [onPayload_of_accepted verdict]
          simp only [onAccepted, webif, if_true, List.filterMap_cons,
            Broadcast.packet?]
          congr 1
          split_ifs <;> rfl

/-- What one payload adds to the statistics that are sent. -/
def statsOf (settings : Settings) (state : State) (arrival : Arrival) :
    List (UInt64 × StatsSnapshot) :=
  if (accept settings.validator state.counter arrival).1.isSome &&
      statsDue settings state.lastStatsMs arrival.recvMs then
    [(arrival.recvMs, (onPayload settings state arrival).1.stats.snapshot)]
  else []

/-- Statistics are sent with an accepted packet for which they are due, and
the next ones are measured from there. -/
theorem statsSent_cons
    {settings : Settings} (webif : settings.webif = true) (state : State)
    (arrival : Arrival) (more : List Arrival) :
    statsSent settings state (arrival :: more) =
        statsOf settings state arrival ++
          statsSent settings (onPayload settings state arrival).1 more ∧
      (onPayload settings state arrival).1.lastStatsMs =
        ((statsOf settings state arrival).map Prod.fst).getLastD
          state.lastStatsMs := by
  rw [statsSent]
  simp only [statsOf]
  cases verdict : (accept settings.validator state.counter arrival).1 with
  | none =>
      rcases onPayload_of_rejected verdict with ⟨line, rejected⟩
      rw [rejected]
      exact ⟨rfl, rfl⟩
  | some taken =>
      rw [onPayload_of_accepted verdict, ← accept_recvMs verdict]
      simp only [onAccepted, webif, Bool.true_and, if_true, Option.isSome_some]
      by_cases due : statsDue settings state.lastStatsMs taken.recvMs = true
      · simp only [due, if_true]
        exact ⟨rfl, rfl⟩
      · simp only [due, Bool.false_eq_true, if_false]
        exact ⟨rfl, rfl⟩

/-- The time that the next statistics are measured from is that of the last
ones sent. -/
theorem lastStatsMs_onPayloads
    {settings : Settings} (webif : settings.webif = true) (state : State)
    (arrivals : List Arrival) :
    (onPayloads settings state arrivals).1.lastStatsMs =
      (statsTimes settings state arrivals).getLastD state.lastStatsMs := by
  induction arrivals generalizing state with
  | nil => rfl
  | cons arrival more induction =>
      rcases statsSent_cons webif state arrival more with ⟨sent, last⟩
      rw [onPayloads, statsTimes, sent, List.map_append]
      simp only
      rw [induction, last, statsTimes]
      simp only [List.getLastD_eq_getLast?, List.getLast?_append,
        Option.getD_or]

/-- One more payload adds what it leads to behind the others. -/
theorem statsSent_concat
    {settings : Settings} (webif : settings.webif = true) (state : State)
    (before : List Arrival) (arrival : Arrival) :
    statsSent settings state (before ++ [arrival]) =
      statsSent settings state before ++
        statsOf settings (onPayloads settings state before).1 arrival := by
  induction before generalizing state with
  | nil =>
      rw [List.nil_append, (statsSent_cons webif state _ _).1]
      exact List.append_nil _
  | cons first more induction =>
      rw [List.cons_append, (statsSent_cons webif state _ _).1, induction,
        (statsSent_cons webif state _ _).1, List.append_assoc]
      rfl

/-- The statistics are throttled on the times of the accepted packets. -/
theorem statsTimes_eq
    {settings : Settings} (webif : settings.webif = true) (state : State)
    (arrivals : List Arrival) :
    statsTimes settings state arrivals =
      Throttle.passes (statsDue settings) state.lastStatsMs
        ((acceptedOf settings.validator state.counter arrivals).map
          Accepted.recvMs) := by
  induction arrivals generalizing state with
  | nil => rfl
  | cons arrival more induction =>
      rcases statsSent_cons webif state arrival more with ⟨sent, last⟩
      rw [statsTimes, sent, List.map_append, acceptedOf, List.map_append]
      have rest := induction (onPayload settings state arrival).1
      rw [statsTimes] at rest
      rw [rest, last]
      cases verdict :
          (accept settings.validator state.counter arrival).1 with
      | none =>
          rcases onPayload_of_rejected verdict with ⟨line, rejected⟩
          simp only [statsOf, verdict, rejected]
          rfl
      | some taken =>
          rw [onPayload_of_accepted verdict]
          simp only [statsOf, verdict, Option.isSome_some, Bool.true_and,
            ← accept_recvMs verdict, onAccepted, Option.toList_some,
            List.map_cons, List.map_nil, List.singleton_append]
          by_cases due :
              statsDue settings state.lastStatsMs taken.recvMs = true
          · rw [Throttle.passes_cons_of_due due, if_pos due]
            rfl
          · rw [Throttle.passes_cons_of_not_due due, if_neg due]
            rfl

/-- The distance that the interval is compared with goes round at 2^64: a clock
that was set back is due. -/
theorem statsDue_iff (settings : Settings) (last now : UInt64) :
    statsDue settings last now = true ↔
      if last ≤ now then
        last.toNat + settings.webStatsIntervalMs.toNat ≤ now.toNat
      else
        last.toNat + settings.webStatsIntervalMs.toNat ≤
          now.toNat + 2 ^ 64 := by
  have lastSmall := last.toNat_lt
  have nowSmall := now.toNat_lt
  simp only [statsDue, ge_iff_le, decide_eq_true_eq, UInt64.le_iff_toNat_le,
    UInt64.toNat_sub, UInt32.toNat_toUInt64]
  split_ifs <;> omega

/-- Between times in order, what is due is an interval behind. -/
theorem apart_of_due
    {settings : Settings} {last now : UInt64} (ordered : last ≤ now)
    (due : statsDue settings last now = true) :
    last.toNat + settings.webStatsIntervalMs.toNat ≤ now.toNat := by
  rwa [statsDue_iff, if_pos ordered] at due

/-- With a payload statistics are sent if it is accepted and they are due; they
are those of all that has been accepted. -/
theorem statsSent_behind
    {settings : Settings} (webif : settings.webif = true) (state : State)
    (before : List Arrival) (arrival : Arrival) :
    let acceptedUpTo (arrivals : List Arrival) :=
      acceptedOf settings.validator state.counter arrivals
    statsSent settings state (before ++ [arrival]) =
      statsSent settings state before ++
        if (acceptedUpTo before).length <
              (acceptedUpTo (before ++ [arrival])).length ∧
            statsDue settings
              ((statsTimes settings state before).getLastD state.lastStatsMs)
              arrival.recvMs = true then
          [(arrival.recvMs,
            (state.stats.recordAll
              ((acceptedUpTo (before ++ [arrival])).map
                Accepted.reception)).snapshot)]
        else [] := by
  intro acceptedUpTo
  have stats := stats_onPayloads settings state (before ++ [arrival])
  rw [onPayloads_concat] at stats
  rw [statsSent_concat webif, statsOf, stats, counter_onPayloads,
    lastStatsMs_onPayloads webif]
  simp only [acceptedUpTo, acceptedOf_concat, List.length_append]
  congr 1
  cases (accept settings.validator
      (counterAfter settings state.counter before) arrival).1 with
  | none => simp
  | some taken => simp

/--
The dashboard over a connection.  Every accepted packet is sent, in order.
Statistics are sent with a payload exactly when it is accepted and the
interval since the last ones sent is over, and they are those of the packets
accepted so far; so while the clock does not go back, two of them are the
interval apart, and no more are sent than fit in the time.
-/
theorem dashboard_throttled
    (settings : Settings) (webif : settings.webif = true) (state : State)
    (arrivals : List Arrival) :
    let acceptedUpTo (arrivals : List Arrival) :=
      acceptedOf settings.validator state.counter arrivals
    let received := (acceptedUpTo arrivals).map Accepted.recvMs
    let sent := statsTimes settings state arrivals
    dataSent (onPayloads settings state arrivals).2 =
        (acceptedUpTo arrivals).map Accepted.packet ∧
      (∀ before arrival after, arrivals = before ++ arrival :: after →
        let last :=
          (statsTimes settings state before).getLastD state.lastStatsMs
        let snap :=
          (state.stats.recordAll
            ((acceptedUpTo (before ++ [arrival])).map
              Accepted.reception)).snapshot
        statsSent settings state (before ++ [arrival]) =
          statsSent settings state before ++
            if (acceptedUpTo before).length <
                  (acceptedUpTo (before ++ [arrival])).length ∧
                statsDue settings last arrival.recvMs = true then
              [(arrival.recvMs, snap)]
            else []) ∧
      ((state.lastStatsMs :: received).Pairwise (· ≤ ·) →
        (state.lastStatsMs :: sent).IsChain (fun before after =>
            before.toNat + settings.webStatsIntervalMs.toNat ≤
              after.toNat) ∧
          ∀ final : UInt64, (∀ time ∈ state.lastStatsMs :: received,
              time ≤ final) →
            state.lastStatsMs.toNat +
                settings.webStatsIntervalMs.toNat * sent.length ≤
              final.toNat) := by
  intro acceptedUpTo received sent
  have times : sent = Throttle.passes (statsDue settings)
      state.lastStatsMs received := statsTimes_eq webif state arrivals
  refine ⟨dataSent_eq webif state arrivals, ?_, fun forward => ?_⟩
  · intro before arrival after _ last snap
    exact statsSent_behind webif state before arrival
  · rw [times]
    refine ⟨(Throttle.isChain_passes forward).imp ?_, fun final inTime => ?_⟩
    · rintro before after ⟨ordered, due⟩
      exact apart_of_due ordered due
    · exact Throttle.length_passes_le (fun _ _ => apart_of_due) _ forward
        inTime

/-- A packet at rest. -/
def restPayload (seq : Bytes) : Bytes :=
  ascii "\x7b\"ts\":1,\"seq\":" ++ seq ++
    ascii ",\"ax\":0,\"ay\":0,\"az\":9\x7d"

/-- A dashboard that gets statistics every second. -/
def shownSettings : Settings where
  validator := .default
  webif := true
  webStatsIntervalMs := 1000

/-- Packets before and behind the end of the first second. -/
def shownArrivals : List Arrival :=
  [⟨restPayload (ascii "1"), 5500, 5500⟩,
    ⟨restPayload (ascii "2"), 6100, 6100⟩]

theorem dashboard_throttled_shownArrivals :
    dataSent
        (onPayloads shownSettings (.new shownSettings 5000) shownArrivals).2 =
      (acceptedOf .default 0 shownArrivals).map Accepted.packet :=
  (dashboard_throttled shownSettings rfl (.new shownSettings 5000)
    shownArrivals).1

end AccelObserver.Server.PacketCallback
