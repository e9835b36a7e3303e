import AccelObserver.EndToEnd.ClientRun
import AccelObserver.EndToEnd.SensorAccepted
import AccelObserver.Server.MqttSubscriber

/-!
# A run of the client over a broker in the statistics of the server

The broker is not part of the program.  It may lose packets, at a QoS of 0 or
while the server is away, and it may deliver one twice, at a QoS of 1 or as a
retained message, but none overtakes another.  The connections of both sides
come and go as they like.
-/

namespace AccelObserver.EndToEnd.BrokerRun

open AccelObserver.Library
open AccelObserver.Library.Jumps
open AccelObserver.Client.SendLoop
open AccelObserver.Client.SensorData
open AccelObserver.Client.SensorSim
open AccelObserver.EndToEnd.ClientRun
open AccelObserver.EndToEnd.JsonRecords
open AccelObserver.EndToEnd.SensorAccepted
open AccelObserver.Server
open AccelObserver.Server.MqttSubscriber
open AccelObserver.Server.PacketCallback
open AccelObserver.Server.PacketValidator
open StatsAnalyzer (lost lostAlong)

/-! ## What is published -/

/-- The main loop over the broker, with a sensor that was just opened. -/
def brokerRun (settings : Client.SendLoop.Settings) (startMs : UInt64)
    (sensor : Option SensorConfig) (time pid : ℤ) (topic : Option Bytes)
    (qos : ℤ) (ticks : List (Tick Broker)) : Run MqttStats :=
  loop (mqtt topic qos) settings startMs
    (.new (sensorInit sensor time pid) ⟨0, 0⟩) ticks

/-- A reading that was sent had a text to send. -/
theorem printed_of_sent
    {Conn Env : Type} (transport : Transport Conn Env)
    (settings : Client.SendLoop.Settings) (startMs : UInt64)
    (state : LoopState Conn) (ticks : List (Tick Env)) :
    ∀ reading ∈ (loop transport settings startMs state ticks).readings,
      reading.sent = true →
        sensorToJson reading.packet 256 = some (jsonText reading.packet) := by
  induction ticks generalizing state with
  | nil => simp [loop]
  | cons tick more induction =>
      have here :
          ∀ reading ∈
              (turn transport settings startMs state
                tick).reading.toList,
            reading.sent = true →
              sensorToJson reading.packet 256 =
                some (jsonText reading.packet) := by
        rcases turn_cases transport settings startMs state tick
          with idle | ⟨packet, sensor, conn, answer, -, -, -, -, reads, sending⟩
        · rw [idle]
          simp
        · rw [reads]
          rcases sending with ⟨-, rfl, -⟩ | ⟨text, printed, -⟩
          · simp [answered]
          · have whole := printed
            rw [(text_of_sensorToJson printed).1] at whole
            cases answer <;> simp [answered, whole]
      rw [loop]
      by_cases leaves :
          (turn transport settings startMs state tick).leaves = true
      · simp only [if_pos leaves]
        exact here
      · simp only [if_neg leaves]
        exact List.forall_mem_append.mpr ⟨here, induction _⟩

/-- The message that a reading is published as. -/
def messageOf (readings : List Reading) (number : Nat) : Option Bytes :=
  (readings[number]?).bind fun reading =>
    if reading.sent then sensorToJson reading.packet 256 else none

/-- Packets by their numbers, as a broker may hand them on: some never come,
some come twice, none overtakes another. -/
structure Delivers (readings : List Reading) (deliveries : List Nat) :
    Prop where
  ascending : deliveries.Pairwise (· ≤ ·)
  published :
    ∀ number ∈ deliveries, (messageOf readings number).isSome = true

/-- The packets that are delivered. -/
def deliveredPackets (readings : List Reading) (deliveries : List Nat) :
    List SensorPacket :=
  deliveries.filterMap fun number =>
    (readings[number]?).map Reading.packet

section Delivered

variable {readings : List Reading} {deliveries : List Nat}

/-- A packet that is delivered has been read, printed and sent. -/
theorem Delivers.reading
    (delivers : Delivers readings deliveries) {number : Nat}
    (member : number ∈ deliveries) :
    ∃ reading, readings[number]? = some reading ∧ reading.sent = true := by
  have some := delivers.published number member
  rw [messageOf] at some
  cases isReading : readings[number]? with
  | none => simp [isReading] at some
  | some reading =>
      refine ⟨reading, rfl, ?_⟩
      by_contra unsent
      simp [isReading, unsent] at some

theorem Delivers.tail
    {number : Nat} {more : List Nat}
    (delivers : Delivers readings (number :: more)) :
    Delivers readings more where
  ascending := (List.pairwise_cons.mp delivers.ascending).2
  published := (List.forall_mem_cons.mp delivers.published).2

/-- The messages are the texts of the packets. -/
theorem Delivers.texts
    (delivers : Delivers readings deliveries)
    (printed :
      ∀ reading ∈ readings, reading.sent = true →
        sensorToJson reading.packet 256 = some (jsonText reading.packet)) :
    deliveries.map (messageOf readings) =
      ((deliveredPackets readings deliveries).map jsonText).map some := by
  induction deliveries with
  | nil => rfl
  | cons number more induction =>
      rcases delivers.reading List.mem_cons_self with ⟨reading, isReading, sent⟩
      have text := printed reading (List.mem_of_getElem? isReading) sent
      have rest := induction delivers.tail
      rw [deliveredPackets] at rest ⊢
      rw [List.map_cons, rest, List.filterMap_cons, isReading, Option.map_some,
        List.map_cons, List.map_cons, messageOf, isReading, Option.bind_some,
        if_pos sent, text]

/-- Every number is delivered as one packet. -/
theorem Delivers.length
    (delivers : Delivers readings deliveries) :
    (deliveredPackets readings deliveries).length = deliveries.length := by
  induction deliveries with
  | nil => rfl
  | cons number more induction =>
      rcases delivers.reading List.mem_cons_self with ⟨reading, isReading, -⟩
      have rest := induction delivers.tail
      rw [deliveredPackets] at rest ⊢
      rw [List.filterMap_cons, isReading, Option.map_some, List.length_cons,
        rest, List.length_cons]

/-- The packets carry their numbers. -/
theorem Delivers.sequenceIds
    (delivers : Delivers readings deliveries)
    (numbered : NumberedFrom 0 readings) :
    (deliveredPackets readings deliveries).map SensorPacket.sequenceId =
      deliveries.map UInt32.ofNat := by
  induction deliveries with
  | nil => rfl
  | cons number more induction =>
      rcases delivers.reading List.mem_cons_self with ⟨reading, isReading, -⟩
      have id := numbered number reading isReading
      rw [Nat.zero_add] at id
      have rest := induction delivers.tail
      rw [deliveredPackets] at rest ⊢
      rw [List.filterMap_cons, isReading, Option.map_some, List.map_cons,
        rest, id, List.map_cons]

/-- They are among the packets that the client counts as sent. -/
theorem Delivers.mem_sentPackets
    (delivers : Delivers readings deliveries) {packet : SensorPacket}
    (member : packet ∈ deliveredPackets readings deliveries) :
    packet ∈ sentPackets readings := by
  rcases List.mem_filterMap.mp member with ⟨number, isNumber, isPacket⟩
  rcases delivers.reading isNumber with ⟨reading, isReading, sent⟩
  rw [isReading, Option.map_some, Option.some.injEq] at isPacket
  rw [← isPacket, sentPackets]
  exact List.mem_map_of_mem
    (List.mem_filter.mpr ⟨List.mem_of_getElem? isReading, sent⟩)

end Delivered

/-! ## What is counted as lost -/

/-- Between two deliveries fewer than 10000 packets are missing. -/
def NoSilence (deliveries : List Nat) : Prop :=
  deliveries.IsChain fun previous next => next ≤ previous + 10000

/-- What is skipped from one delivery to the next is lost, if it is little. -/
theorem lost_ofNat
    {previous next : Nat} (ascending : previous ≤ next)
    (small : next < 2 ^ 32) :
    lost (UInt32.ofNat previous) (UInt32.ofNat next) =
      if next ≤ previous + 10000 then next - previous - 1 else 0 := by
  have value {number : Nat} (below : number < 2 ^ 32) :
      (UInt32.ofNat number).toNat = number := by
    rw [UInt32.toNat_ofNat', Nat.mod_eq_of_lt below]
  have limit : (10000 : UInt32).toNat = 10000 := rfl
  by_cases marker : UInt32.ofNat previous = uint32Max
  · have highest := congrArg UInt32.toNat marker
    rw [value (by omega)] at highest
    have last : previous = 2 ^ 32 - 1 := highest
    rw [marker, StatsAnalyzer.lost_uint32Max]
    split_ifs <;> omega
  · have notLast : previous + 1 < 2 ^ 32 := by
      by_contra last
      obtain rfl : previous = 2 ^ 32 - 1 := by omega
      exact marker rfl
    have expected : UInt32.ofNat previous + 1 = UInt32.ofNat (previous + 1) :=
      (UInt32.ofNat_add previous 1).symm
    simp only [StatsAnalyzer.lost_eq_of_ne marker, UInt32.lt_iff_toNat_lt,
      UInt32.toNat_sub, expected, limit, value small, value notLast]
    split_ifs <;> omega

section Counted

variable {first : Nat} {rest : List Nat}

theorem lostAlong_le_skipped
    (ascending : (first :: rest).Pairwise (· ≤ ·))
    (small : ∀ number ∈ first :: rest, number < 2 ^ 32) :
    lostAlong (UInt32.ofNat first) (rest.map UInt32.ofNat) ≤
      skipped (first :: rest) := by
  induction rest generalizing first with
  | nil => exact Nat.le_refl _
  | cons next rest induction =>
      rcases List.pairwise_cons.mp ascending with ⟨least, later⟩
      rcases List.forall_mem_cons.mp small with ⟨-, smaller⟩
      have behind := induction later smaller
      rw [List.map_cons, lostAlong, skipped,
        lost_ofNat (least next List.mem_cons_self)
          (smaller next List.mem_cons_self)]
      split_ifs <;> omega

/-- Only a long silence goes uncounted. -/
theorem lostAlong_eq_skipped_iff
    (ascending : (first :: rest).Pairwise (· ≤ ·))
    (small : ∀ number ∈ first :: rest, number < 2 ^ 32) :
    lostAlong (UInt32.ofNat first) (rest.map UInt32.ofNat) =
        skipped (first :: rest) ↔
      NoSilence (first :: rest) := by
  induction rest generalizing first with
  | nil => exact iff_of_true rfl (List.isChain_singleton first)
  | cons next rest induction =>
      rcases List.pairwise_cons.mp ascending with ⟨least, later⟩
      rcases List.forall_mem_cons.mp small with ⟨-, smaller⟩
      have behind := lostAlong_le_skipped later smaller
      have equal := induction later smaller
      rw [NoSilence] at equal
      rw [List.map_cons, lostAlong, skipped, NoSilence, List.isChain_cons_cons,
        ← equal, lost_ofNat (least next List.mem_cons_self)
          (smaller next List.mem_cons_self)]
      split_ifs with near
      · simp only [near, true_and]
        omega
      · simp only [near, false_and, iff_false]
        omega

/-- The numbers between the first and the last delivery that never come. -/
def missed (deliveries : List Nat) : Finset Nat :=
  (Finset.Ico (deliveries.head?.getD 0) (deliveries.getLast?.getD 0)).filter
    (· ∉ deliveries)

/-- From the first to the last delivery, a number comes or is missed. -/
theorem card_missed_add_card
    {last : Nat} (ascending : (first :: rest).Pairwise (· ≤ ·))
    (isLast : (first :: rest).getLast? = some last) :
    (missed (first :: rest)).card + (first :: rest).toFinset.card =
      last - first + 1 := by
  rcases List.pairwise_cons.mp ascending with ⟨least, -⟩
  have lowest : ∀ number ∈ first :: rest, first ≤ number :=
    List.forall_mem_cons.mpr ⟨Nat.le_refl _, least⟩
  have highest : ∀ number ∈ first :: rest, number ≤ last := by
    rcases List.getLast?_eq_some_iff.mp isLast with ⟨before, split⟩
    rw [split] at ascending ⊢
    exact List.forall_mem_append.mpr
      ⟨fun number member =>
          (List.pairwise_append.mp ascending).2.2 number member last
            (List.mem_singleton_self last),
        List.forall_mem_singleton.mpr (Nat.le_refl _)⟩
  have lastMember : last ∈ first :: rest := List.mem_of_getLast? isLast
  have inside : (first :: rest).toFinset ⊆ Finset.Icc first last := by
    intro number member
    rw [List.mem_toFinset] at member
    exact Finset.mem_Icc.mpr ⟨lowest number member, highest number member⟩
  have others :
      missed (first :: rest) =
        Finset.Icc first last \ (first :: rest).toFinset := by
    ext number
    rw [missed, isLast, List.head?_cons, Option.getD_some, Option.getD_some,
      Finset.mem_filter, Finset.mem_sdiff, List.mem_toFinset, Finset.mem_Ico,
      Finset.mem_Icc]
    constructor
    · rintro ⟨⟨lower, upper⟩, absent⟩
      exact ⟨⟨lower, upper.le⟩, absent⟩
    · rintro ⟨⟨lower, upper⟩, absent⟩
      refine ⟨⟨lower, Nat.lt_of_le_of_ne upper fun same => ?_⟩, absent⟩
      exact absent (same ▸ lastMember)
  rw [others, Finset.card_sdiff_add_card_eq_card inside, Nat.card_Icc]
  have := lowest last lastMember
  omega

end Counted

/-- What the analyzer loses is what is missed, up to a silence. -/
theorem lostAlong_deliveries
    {deliveries : List Nat} (ascending : deliveries.Pairwise (· ≤ ·))
    (small : ∀ number ∈ deliveries, number < 2 ^ 32) :
    lostAlong uint32Max (deliveries.map UInt32.ofNat) ≤
        (missed deliveries).card ∧
      (lostAlong uint32Max (deliveries.map UInt32.ofNat) =
          (missed deliveries).card ↔
        NoSilence deliveries) := by
  cases deliveries with
  | nil => exact ⟨Nat.zero_le _, iff_of_true rfl List.isChain_nil⟩
  | cons first rest =>
      rcases List.getLast?_isSome.mpr (List.cons_ne_nil first rest)
        |> Option.isSome_iff_exists.mp with ⟨last, isLast⟩
      have skips := skipped_add_card ascending isLast
      have misses := card_missed_add_card ascending isLast
      have same : skipped (first :: rest) = (missed (first :: rest)).card := by
        omega
      rw [List.map_cons, lostAlong, StatsAnalyzer.lost_uint32Max,
        Nat.zero_add, ← same]
      exact ⟨lostAlong_le_skipped ascending small,
        lostAlong_eq_skipped_iff ascending small⟩

/-- What is missed and what comes has been read. -/
theorem card_missed_add_card_le
    {deliveries : List Nat} {count : Nat}
    (ascending : deliveries.Pairwise (· ≤ ·))
    (below : ∀ number ∈ deliveries, number < count) :
    (missed deliveries).card + deliveries.toFinset.card ≤ count := by
  cases deliveries with
  | nil => exact Nat.zero_le _
  | cons first rest =>
      rcases List.getLast?_isSome.mpr (List.cons_ne_nil first rest)
        |> Option.isSome_iff_exists.mp with ⟨last, isLast⟩
      have misses := card_missed_add_card ascending isLast
      have := below last (List.mem_of_getLast? isLast)
      omega

/-! ## The whole way -/

/--
A run of the client as the server sees it over a broker that may lose packets
and deliver some twice, but keeps their order, wherever the connections break.
The server subscribes on each connection, accepts the packets that are
delivered, in order, and reports at most those as lost that are missed between
the first and the last: exactly those, if never 10000 in a row are missed.
With the packets delivered, no more than the client has read.
-/
theorem broker_reaches_statistics
    (settings : Client.SendLoop.Settings) (startMs : UInt64)
    (sensor : Option SensorConfig) (time pid : ℤ) (topic : Option Bytes)
    (qos : ℤ) (ticks : List (Tick Broker))
    (few :
      (brokerRun settings startMs sensor time pid topic qos
        ticks).readings.length ≤ 2 ^ 32)
    (server : PacketCallback.Settings)
    (sendable :
      ∀ pkt ∈ sentPackets
          (brokerRun settings startMs sensor time pid topic qos
            ticks).readings,
        Sendable server.validator pkt)
    (deliveries : List Nat)
    (delivers :
      Delivers
        (brokerRun settings startMs sensor time pid topic qos ticks).readings
        deliveries)
    (filter : Bytes) (subscribedQos : ℤ) (events : List MqttSubscriber.Event)
    (messages :
      events.filterMap MqttSubscriber.Event.payload =
        deliveries.map
          (messageOf
            (brokerRun settings startMs sensor time pid topic qos
              ticks).readings))
    (startedMs : UInt64) (arrivals : List Arrival)
    (payloads :
      arrivals.map Arrival.payload =
        (handleAll events (.new filter subscribedQos)).2.filterMap Call.text) :
    let run := brokerRun settings startMs sensor time pid topic qos ticks
    let calls := (handleAll events (.new filter subscribedQos)).2
    let snap :=
      (onPayloads server (.new server startedMs) arrivals).1.stats.snapshot
    calls.filterMap Call.request =
        List.replicate (events.count (.connack 0))
          (filter, validateQos subscribedQos) ∧
      (acceptedOf server.validator 0 arrivals).map Accepted.packet =
        (deliveredPackets run.readings deliveries).map recordOf ∧
      snap.packetsReceived = deliveries.length ∧
      snap.packetsLost ≤ (missed deliveries).card ∧
      (snap.packetsLost = (missed deliveries).card ↔ NoSilence deliveries) ∧
      snap.packetsLost + deliveries.toFinset.card ≤
        run.state.sent + run.state.errors := by
  intro run calls snap
  have books :=
    loop_books (mqtt topic qos) settings startMs
      (.new (sensorInit sensor time pid) ⟨0, 0⟩) ticks
  have printed :=
    printed_of_sent (mqtt topic qos) settings startMs
      (.new (sensorInit sensor time pid) ⟨0, 0⟩) ticks
  have numbered : NumberedFrom 0 run.readings := by
    intro index reading isReading
    rw [books.numbers index reading isReading, Nat.zero_add]
    exact UInt32.zero_add _
  have read : ∀ number ∈ deliveries, number < run.readings.length := by
    intro number member
    rcases delivers.reading member with ⟨reading, isReading, -⟩
    exact (List.getElem?_eq_some_iff.mp isReading).1
  have small : ∀ number ∈ deliveries, number < 2 ^ 32 :=
    fun number member => (read number member).trans_le few
  have arrived :
      arrivals.map Arrival.payload =
        (deliveredPackets run.readings deliveries).map jsonText := by
    have whole :
        (textOf ∘ some) ∘ jsonText =
          (some ∘ jsonText : SensorPacket → Option Bytes) := rfl
    rw [payloads, handleAll_text, messages, delivers.texts printed,
      List.filterMap_map, List.filterMap_map, whole, List.filterMap_eq_map]
  have accepted :=
    acceptedOf_jsonTexts
      (fun pkt member => sendable pkt (delivers.mem_sentPackets member)) 0
      arrived
  rcases snapshot_of_accepted accepted startedMs with ⟨received, counted⟩
  have lost :
      snap.packetsLost =
        lostAlong uint32Max (deliveries.map UInt32.ofNat) := by
    rw [← delivers.sequenceIds numbered]
    exact counted
  rcases lostAlong_deliveries delivers.ascending small with ⟨most, exactly⟩
  have total := card_missed_add_card_le delivers.ascending read
  have readings := Books.sent_add_errors books
  refine ⟨handleAll_request events _, accepted,
    received.trans delivers.length, ?_, ?_, ?_⟩
  · exact lost.le.trans most
  · rw [lost]
    exact exactly
  · exact (Nat.add_le_add_right (lost.le.trans most) _).trans
      (total.trans readings.ge)

/-- The readings of two packets that a broker takes. -/
def sampleReadings : List Reading :=
  (brokerRun roundedSettings 5000 none 0 1 (some (ascii "accel")) 1
    sampleTicks).readings

/-- The first packet comes twice, the second over another connection. -/
def sampleEvents : List MqttSubscriber.Event :=
  [.connack 0, .message (messageOf sampleReadings 0),
    .message (messageOf sampleReadings 0), .disconnected 7, .connack 3,
    .connack 0, .message (messageOf sampleReadings 1)]

theorem delivers_sample : Delivers sampleReadings [0, 0, 1] where
  ascending := by decide
  published := by
    have all :
        ([0, 0, 1].all fun number =>
          (messageOf sampleReadings number).isSome) = true := by
      decide +kernel
    exact List.all_eq_true.mp all

theorem broker_reaches_statistics_sample :
    let snap :=
      (onPayloads { shownSettings with validator := twoG }
        (.new { shownSettings with validator := twoG } 5000)
        (arrivingAt 5200
          ((handleAll sampleEvents (.new (ascii "accel") 1)).2.filterMap
            Call.text))).1.stats.snapshot
    snap.packetsReceived = 3 ∧ snap.packetsLost = 0 := by
  intro snap
  have sendable :
      ∀ pkt ∈ sentPackets sampleReadings, Sendable twoG pkt := by
    intro pkt member
    rcases List.mem_map.mp member with ⟨reading, isReading, rfl⟩
    exact (loop_sendable (mqtt (some (ascii "accel")) 1)
      isBinary64_roundedSettings none configures_default.1 0 1 5000 ⟨0, 0⟩
      readMs_sampleTicks hasValue_twoG reach_twoG reading
      (List.mem_of_mem_filter isReading)).2
  rcases broker_reaches_statistics roundedSettings 5000 none 0 1
      (some (ascii "accel")) 1 sampleTicks (by decide +kernel)
      { shownSettings with validator := twoG } sendable [0, 0, 1]
      delivers_sample (ascii "accel") 1 sampleEvents rfl 5000 _
      (payloads_arrivingAt _ _)
    with ⟨-, -, received, -, -, total⟩
  have read :
      (brokerRun roundedSettings 5000 none 0 1 (some (ascii "accel")) 1
          sampleTicks).state.sent +
        (brokerRun roundedSettings 5000 none 0 1 (some (ascii "accel")) 1
          sampleTicks).state.errors = 2 := by
    decide +kernel
  have distinct : [0, 0, 1].toFinset.card = 2 := by decide
  rw [read, distinct] at total
  exact ⟨received, Nat.le_zero.mp (Nat.le_of_add_le_add_right total)⟩

end AccelObserver.EndToEnd.BrokerRun
