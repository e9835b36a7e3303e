import AccelObserver.Client.SendLoop
import AccelObserver.EndToEnd.Records
import AccelObserver.EndToEnd.Session
import AccelObserver.Server.LossCounting
import AccelObserver.Server.PacketCallback

/-!
# A run of the client in the statistics of the server

The sending loop over a WebSocket, from the first reading to the Close frame,
and what the callback of the server makes of it: the packets that were sent
are accepted in order, and what the analyzer counts as lost are packets that
the client itself did not print.
-/

namespace AccelObserver.EndToEnd.ClientRun

open AccelObserver.Library
open AccelObserver.Library.Channel
open AccelObserver.Client.SendLoop
open AccelObserver.Client.SensorData
open AccelObserver.Client.SensorSim
open AccelObserver.Client.WsTransport
open AccelObserver.EndToEnd.JsonRecords
open AccelObserver.EndToEnd.Records
open AccelObserver.EndToEnd.Session
open AccelObserver.EndToEnd.WsStream
open AccelObserver.Server
open AccelObserver.Server.PacketCallback
open AccelObserver.Server.PacketValidator
open AccelObserver.Server.WsServer (serve)
open StatsAnalyzer (lost lostAlong)

/-! ## What the loop puts on the wire -/

/-- A packet is sent if its text fits the buffer. -/
def Fits (reading : Reading) : Prop :=
  reading.sent = (sensorToJson reading.packet 256).isSome

theorem text_of_sensorToJson
    {pkt : SensorPacket} {bufSize : Nat} {text : Bytes}
    (printed : sensorToJson pkt bufSize = some text) :
    text = jsonText pkt ∧ text.length < bufSize := by
  by_cases fits : (jsonText pkt).length < bufSize
  · rw [sensorToJson_eq_some fits, Option.some.injEq] at printed
    exact ⟨printed.symm, printed ▸ fits⟩
  · rw [sensorToJson, if_pos (Nat.not_lt.mp fits), ite_self] at printed
    cases printed

/-- A turn on a connection whose `send` does not fail. -/
theorem turn_ws
    (settings : Client.SendLoop.Settings) (startMs : UInt64)
    {state : LoopState WsClient} {sock : Client.WsTransport.Socket}
    (connected : state.conn.sock = some sock)
    (complete : sock.SendsComplete) (tick : Tick Unit) :
    ∃ after : Client.WsTransport.Socket,
      (turn ws settings startMs state tick).state.conn.sock = some after ∧
        after.SendsComplete ∧
        (turn ws settings startMs state tick).state.conn =
          sendAllTexts state.conn
            (clientTexts
              ((turn ws settings startMs state tick).reading.toList.map
                Reading.packet)) ∧
        ∀ reading ∈ (turn ws settings startMs state tick).reading.toList,
          Fits reading := by
  rcases turn_cases ws settings startMs state tick
    with idle | ⟨packet, sensor, conn, answer, -, -, -, -, reads, sending⟩
  · rw [idle]
    exact ⟨sock, connected, complete, rfl, by simp⟩
  · rw [reads]
    rcases sending with ⟨unprinted, rfl, rfl⟩ | ⟨text, printed, sent⟩
    · refine ⟨sock, connected, complete, ?_, ?_⟩
      · simp [answered, clientTexts, unprinted, sendAllTexts]
      · simp [answered, Fits, unprinted]
    · have short : text.length < 2 ^ 63 :=
        (text_of_sensorToJson printed).2.trans (by decide)
      rcases wsSendText_eq connected complete short with ⟨sendCalls, written⟩
      have taken :
          ws.send tick.env state.conn text =
            (.sent, (wsSendText state.conn text).2) := by
        simp only [ws, written]
      rw [taken, Prod.mk.injEq] at sent
      rcases sent with ⟨rfl, rfl⟩
      refine ⟨_, congrArg (fun result => result.2.sock) written, ?_, ?_, ?_⟩
      · exact complete
      · simp [answered, clientTexts, printed, sendAllTexts]
      · simp [answered, Fits, printed]

/-- A run sends the texts of the packets that it reads, where they fit. -/
theorem loop_ws
    (settings : Client.SendLoop.Settings) (startMs : UInt64)
    {state : LoopState WsClient} {sock : Client.WsTransport.Socket}
    (connected : state.conn.sock = some sock)
    (complete : sock.SendsComplete) (ticks : List (Tick Unit)) :
    (loop ws settings startMs state ticks).state.conn =
        sendAllTexts state.conn
          (clientTexts
            ((loop ws settings startMs state ticks).readings.map
              Reading.packet)) ∧
      ∀ reading ∈ (loop ws settings startMs state ticks).readings,
        Fits reading := by
  induction ticks generalizing state sock with
  | nil => exact ⟨rfl, by simp [loop]⟩
  | cons tick more induction =>
      rcases turn_ws settings startMs connected complete tick
        with ⟨after, connected', complete', written, fits⟩
      rw [loop]
      by_cases leaves : (turn ws settings startMs state tick).leaves = true
      · simp only [if_pos leaves]
        exact ⟨written, fits⟩
      · simp only [if_neg leaves]
        rcases induction connected' complete' with ⟨later, laterFits⟩
        refine ⟨?_, List.forall_mem_append.mpr ⟨fits, laterFits⟩⟩
        rw [later, written, List.map_append, clientTexts, clientTexts,
          clientTexts, List.filterMap_append, sendAllTexts, sendAllTexts,
          sendAllTexts, List.foldl_append]

/-- The packets of the readings that were sent. -/
def sentPackets (readings : List Reading) : List SensorPacket :=
  (readings.filter (·.sent)).map Reading.packet

theorem sentPackets_cons_of_sent
    {reading : Reading} (sent : reading.sent = true) (more : List Reading) :
    sentPackets (reading :: more) = reading.packet :: sentPackets more := by
  rw [sentPackets, List.filter_cons_of_pos sent, List.map_cons, sentPackets]

theorem sentPackets_cons_of_unsent
    {reading : Reading} (unsent : reading.sent = false)
    (more : List Reading) :
    sentPackets (reading :: more) = sentPackets more := by
  rw [sentPackets, List.filter_cons_of_neg (by simp [unsent]), sentPackets]

/-- The texts of a run are those of the packets that it counts as sent. -/
theorem clientTexts_eq_sent
    {readings : List Reading} (fits : ∀ reading ∈ readings, Fits reading) :
    clientTexts (readings.map Reading.packet) =
      (sentPackets readings).map jsonText := by
  induction readings with
  | nil => rfl
  | cons reading more induction =>
      rcases List.forall_mem_cons.mp fits with ⟨here, later⟩
      have rest := induction later
      rw [clientTexts] at rest
      rw [clientTexts, List.map_cons, List.filterMap_cons]
      rw [Fits] at here
      cases printed : sensorToJson reading.packet 256 with
      | none =>
          rw [printed, Option.isSome_none] at here
          rw [sentPackets_cons_of_unsent here]
          exact rest
      | some text =>
          rw [printed, Option.isSome_some] at here
          rw [sentPackets_cons_of_sent here, List.map_cons,
            (text_of_sensorToJson printed).1]
          exact congrArg _ rest

/-! ## What is counted as lost -/

/-- Between two numbers without an overflow no more is lost than lies between
them. -/
theorem lost_ofNat_le
    {previous next : Nat} (before : previous < next) (small : next < 2 ^ 32) :
    lost (UInt32.ofNat previous) (UInt32.ofNat next) ≤
      next - previous - 1 := by
  have distance :
      (UInt32.ofNat next - (UInt32.ofNat previous + 1)).toNat =
        next - previous - 1 := by
    have ahead : UInt32.ofNat previous + 1 ≤ UInt32.ofNat next := by
      rw [UInt32.le_iff_toNat_le, UInt32.toNat_add, UInt32.toNat_ofNat',
        UInt32.toNat_ofNat', UInt32.toNat_one]
      omega
    rw [UInt32.toNat_sub_of_le _ _ ahead, UInt32.toNat_add,
      UInt32.toNat_ofNat', UInt32.toNat_ofNat', UInt32.toNat_one]
    omega
  simp only [lost, StatsAnalyzer.gap_eq]
  split_ifs
  · exact distance.le
  all_goals exact Nat.zero_le _

theorem lostAlong_take_le
    (previous : UInt32) (seqs : List UInt32) (count : Nat) :
    lostAlong previous (seqs.take count) ≤ lostAlong previous seqs := by
  induction seqs generalizing previous count with
  | nil => rw [List.take_nil]
  | cons seq rest induction =>
      cases count with
      | zero => exact Nat.zero_le _
      | succ count => exact Nat.add_le_add_left (induction seq count) _

/-- Readings that are numbered from `start` on. -/
def NumberedFrom (start : Nat) (readings : List Reading) : Prop :=
  ∀ index reading, readings[index]? = some reading →
    reading.packet.sequenceId = UInt32.ofNat (start + index)

theorem NumberedFrom.cons
    {start : Nat} {reading : Reading} {more : List Reading}
    (numbered : NumberedFrom start (reading :: more)) :
    reading.packet.sequenceId = UInt32.ofNat start ∧
      NumberedFrom (start + 1) more := by
  refine ⟨numbered 0 reading rfl, fun index other isOther => ?_⟩
  rw [Nat.add_right_comm, Nat.add_assoc]
  exact numbered (index + 1) other isOther

/-- Behind a number that was sent, what is lost are the readings between that
were not. -/
theorem lostAlong_sent_le
    {readings : List Reading} {start previous : Nat}
    (numbered : NumberedFrom start readings) (before : previous < start)
    (small : start + readings.length ≤ 2 ^ 32) :
    lostAlong (UInt32.ofNat previous)
        ((sentPackets readings).map SensorPacket.sequenceId) ≤
      start - previous - 1 + readings.countP (!·.sent) := by
  induction readings generalizing start previous with
  | nil => exact Nat.zero_le _
  | cons reading more induction =>
      rcases numbered.cons with ⟨here, later⟩
      rw [List.length_cons] at small
      cases isSent : reading.sent with
      | true =>
          have gap := lost_ofNat_le before (by omega)
          have rest := induction later (Nat.lt_succ_self start) (by omega)
          rw [sentPackets_cons_of_sent isSent, List.map_cons, here, lostAlong,
            List.countP_cons_of_neg (by simp [isSent])]
          omega
      | false =>
          have rest := induction later (Nat.lt_succ_of_lt before) (by omega)
          rw [sentPackets_cons_of_unsent isSent,
            List.countP_cons_of_pos (by simp [isSent])]
          omega

/-- From the start no more is lost than was not sent. -/
theorem lostAlong_uint32Max_le
    {readings : List Reading} {start : Nat}
    (numbered : NumberedFrom start readings)
    (small : start + readings.length ≤ 2 ^ 32) :
    lostAlong uint32Max
        ((sentPackets readings).map SensorPacket.sequenceId) ≤
      readings.countP (!·.sent) := by
  induction readings generalizing start with
  | nil => exact Nat.zero_le _
  | cons reading more induction =>
      rcases numbered.cons with ⟨here, later⟩
      rw [List.length_cons] at small
      cases isSent : reading.sent with
      | true =>
          have rest :=
            lostAlong_sent_le later (Nat.lt_succ_self start) (by omega)
          rw [sentPackets_cons_of_sent isSent, List.map_cons, here, lostAlong,
            StatsAnalyzer.lost_uint32Max,
            List.countP_cons_of_neg (by simp [isSent])]
          omega
      | false =>
          have rest := induction later (by omega)
          rw [sentPackets_cons_of_unsent isSent,
            List.countP_cons_of_pos (by simp [isSent])]
          omega

/-! ## What is accepted -/

/-- The validator accepts the packets that are sendable, whenever they
arrive. -/
theorem acceptedOf_jsonTexts
    {cfg : ValidatorConfig} {packets : List SensorPacket}
    (sendable : ∀ pkt ∈ packets, Sendable cfg pkt) (counter : UInt32)
    {arrivals : List Arrival}
    (payloads : arrivals.map Arrival.payload = packets.map jsonText) :
    (acceptedOf cfg counter arrivals).map Accepted.packet =
      packets.map recordOf := by
  induction arrivals generalizing packets with
  | nil =>
      obtain rfl : packets = [] := by simpa using payloads.symm
      rfl
  | cons arrival more induction =>
      cases packets with
      | nil => simp at payloads
      | cons pkt rest =>
          rcases List.forall_mem_cons.mp sendable with ⟨here, later⟩
          rw [List.map_cons, List.map_cons, List.cons.injEq] at payloads
          rcases payloads with ⟨payload, payloads⟩
          have parsed := parse_jsonText here arrival.clockMs counter
          rw [← payload] at parsed
          simp only [acceptedOf, accept, parsed, if_true, Option.toList_some,
            List.singleton_append, List.map_cons, List.cons.injEq, true_and]
          exact induction later payloads

/-! ## From the sensor to the statistics -/

/-- The main loop over a connection, with a sensor that was just opened. -/
def clientRun (settings : Client.SendLoop.Settings) (startMs : UInt64)
    (sensor : Option SensorConfig) (time pid : ℤ) (client : WsClient)
    (ticks : List (Tick Unit)) : Run WsClient :=
  loop ws settings startMs (.new (sensorInit sensor time pid) client) ticks

/-- What the client has written when `ws_close` returns. -/
def written (run : Run WsClient) : Bytes :=
  ((wsClose run.state.conn).map Sock.outgoing).getD []

theorem numberedFrom_clientRun
    (settings : Client.SendLoop.Settings) (startMs : UInt64)
    (sensor : Option SensorConfig) (time pid : ℤ) (client : WsClient)
    (ticks : List (Tick Unit)) :
    NumberedFrom 0
      (clientRun settings startMs sensor time pid client ticks).readings := by
  intro index reading isReading
  have numbers :=
    (loop_books ws settings startMs
      (.new (sensorInit sensor time pid) client) ticks).numbers index reading
      isReading
  rw [numbers, Nat.zero_add]
  exact UInt32.zero_add _

/-- A connected client has a socket that does not fail. -/
theorem sock_of_connects
    {visit : Visit} (proper : visit.Proper) {client : WsClient}
    (connects : visit.Connects client) :
    ∃ sock : Client.WsTransport.Socket,
      client.sock = some sock ∧ sock.SendsComplete := by
  rcases connects with ⟨sock, complete, fresh, incoming, made⟩
  rcases connect_of_response proper complete fresh incoming
    with ⟨recvCalls, sendCalls, connected⟩
  refine ⟨_,
    congrArg WsClient.sock (Except.ok.inj (made.symm.trans connected)), ?_⟩
  exact complete

/-- Where the whole stream arrives, every text does. -/
theorem length_le_wholeTexts
    {visit : Visit} (proper : visit.Proper) {client : WsClient}
    (connects : visit.Connects client) {count : Nat}
    (everything : (clientStream client visit.texts).length ≤ count) :
    visit.texts.length ≤ wholeTexts visit client count := by
  rcases clientStream_of_connects proper connects
    with ⟨frames, closing, -, -, payloads, writes, stream⟩
  have all :
      (sessionWrites client visit.texts).take visit.texts.length =
        frames.map Frame.encode := by
    rw [writes, ← payloads, List.length_map, List.take_of_length_le]
    rw [List.length_map]
  rw [le_wholeTexts_iff proper connects count (Nat.le_refl _), all]
  rw [stream, List.length_append, List.length_append] at everything
  have frameBytes :
      (frames.map Frame.encode).flatten = WsFrameLoop.encodeAll frames := rfl
  rw [frameBytes]
  omega

/-- What the statistics say once packets of a client have been accepted. -/
theorem snapshot_of_accepted
    {server : PacketCallback.Settings} {arrivals : List Arrival}
    {packets : List SensorPacket}
    (accepted :
      (acceptedOf server.validator 0 arrivals).map Accepted.packet =
        packets.map recordOf)
    (startedMs : UInt64) :
    (onPayloads server (.new server startedMs)
          arrivals).1.stats.snapshot.packetsReceived = packets.length ∧
      (onPayloads server (.new server startedMs)
          arrivals).1.stats.snapshot.packetsLost =
        lostAlong uint32Max (packets.map SensorPacket.sequenceId) := by
  simp only [StatsAnalyzer.snapshot, stats_onPayloads]
  constructor
  · have lengths := congrArg List.length accepted
    rw [List.length_map, List.length_map] at lengths
    refine (LossCounting.Fresh.packetsReceived_recordAll
      (Or.inl ⟨_, _, rfl⟩) _).trans ?_
    rw [List.length_map]
    exact lengths
  · have ids := congrArg (List.map DataPacket.sequenceId) accepted
    rw [List.map_map, List.map_map] at ids
    have seqs :
        ((acceptedOf server.validator 0 arrivals).map
            Accepted.reception).map StatsAnalyzer.Reception.seq =
          packets.map SensorPacket.sequenceId := by
      rw [List.map_map]
      exact ids
    rw [← seqs]
    exact LossCounting.Fresh.packetsLost_recordAll (Or.inl ⟨_, _, rfl⟩) _

/-- Payloads that arrive at once. -/
def arrivingAt (recvMs : UInt64) (payloads : List Bytes) : List Arrival :=
  payloads.map fun payload => { payload, recvMs, clockMs := recvMs }

theorem payloads_arrivingAt (recvMs : UInt64) (payloads : List Bytes) :
    (arrivingAt recvMs payloads).map Arrival.payload = payloads := by
  rw [arrivingAt, List.map_map]
  exact List.map_id'' (fun _ => rfl) _

/-- One packet, and the signal to stop. -/
def sampleTurns : List (Tick Unit) :=
  [⟨true, 5000, 5000, 5001, ()⟩, ⟨false, 5100, 5100, 5100, ()⟩]

/-- The packet that is read in the first turn. -/
def firstPacket : SensorPacket :=
  (sensorRead sampleArithmetic 5000 (sensorInit none 0 1)).1

theorem firstPacket_sendable : Sendable .default firstPacket := by
  have isFinite {number : Double}
      (other : number ≠ .nan ∧ ∀ negative, number ≠ .infinite negative) :
      number.IsFinite := by
    cases number with
    | finite negative magnitude => exact ⟨negative, magnitude, rfl⟩
    | infinite negative => exact absurd rfl (other.2 negative)
    | nan => exact absurd rfl other.1
  constructor
  · decide +kernel
  · exact ⟨isFinite (by decide +kernel), isFinite (by decide +kernel),
      isFinite (by decide +kernel)⟩
  · decide +kernel
  · decide +kernel

theorem readings_sampleTurns
    {client : WsClient} {sock : Client.WsTransport.Socket}
    (connected : client.sock = some sock) (complete : sock.SendsComplete) :
    (clientRun sampleSettings 5000 none 0 1 client sampleTurns).readings =
      [⟨5000, firstPacket, true⟩] := by
  have printed := sensorToJson_eq_some firstPacket_sendable.fits
  rcases wsSendText_eq connected complete
      (firstPacket_sendable.fits.trans (by decide))
    with ⟨sendCalls, sent⟩
  have sends :
      ws.send () client (jsonText firstPacket) =
        (.sent, (wsSendText client (jsonText firstPacket)).2) := by
    simp only [ws, sent]
  have first :
      turn ws sampleSettings 5000 (.new (sensorInit none 0 1) client)
          ⟨true, 5000, 5000, 5001, ()⟩ =
        attempt ws sampleSettings 5000
          { LoopState.new (sensorInit none 0 1) client with
            sensor :=
              (sensorRead sampleArithmetic 5000 (sensorInit none 0 1)).2 }
          ⟨true, 5000, 5000, 5001, ()⟩ firstPacket :=
    if_neg (by decide +kernel)
  have stops (state : LoopState WsClient) :
      turn ws sampleSettings 5000 state ⟨false, 5100, 5100, 5100, ()⟩ =
        { state := state
          reading := none
          clockMs := 5100
          sleepMs := 0
          leaves := true } := if_pos rfl
  simp only [attempt, printed, LoopState.new, sends, answered] at first
  simp only [clientRun, sampleTurns, loop, stops, LoopState.new, first,
    Bool.false_eq_true, if_false, if_true, Option.toList_some,
    Option.toList_none, List.append_nil]

theorem exitCode_sampleTurns
    {client : WsClient} {sock : Client.WsTransport.Socket}
    (connected : client.sock = some sock) (complete : sock.SendsComplete) :
    exitCode
        (clientRun sampleSettings 5000 none 0 1 client sampleTurns).state =
      0 := by
  have readings := readings_sampleTurns connected complete
  rw [clientRun] at readings ⊢
  rw [exitCode_eq_zero_iff (loop_books ws sampleSettings 5000
      (.new (sensorInit none 0 1) client) sampleTurns), readings]
  rfl

/-- The connection with the text of the packet. -/
def runVisit : Visit :=
  { sampleVisit with texts := [jsonText firstPacket] }

theorem runVisit_proper : runVisit.Proper where
  hostLine := sampleVisit_proper.hostLine
  pathLine := sampleVisit_proper.pathLine
  short := sampleVisit_proper.short
  bounded :=
    List.forall_mem_singleton.mpr
      (firstPacket_sendable.fits.trans (by decide))

end AccelObserver.EndToEnd.ClientRun
