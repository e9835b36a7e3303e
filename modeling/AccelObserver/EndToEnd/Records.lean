import AccelObserver.EndToEnd.JsonRecords
import AccelObserver.EndToEnd.WsStream
import AccelObserver.Server.StorageRuns

/-!
# Records from the sensor to the file

The client prints each packet and sends it as a text; the server parses what
it receives, pushes what it accepts, and its storage manager writes the file.
Put together they copy the records: one line for each packet, in the order of
sending, with the same numbers.
-/

namespace AccelObserver.EndToEnd.Records

open AccelObserver.Library
open AccelObserver.Library.Channel
open AccelObserver.Library.CNumber
open AccelObserver.Library.Decimal
open AccelObserver.Client.SensorData
open AccelObserver.Client.WsTransport
open AccelObserver.EndToEnd.JsonRecords
open AccelObserver.EndToEnd.WsStream
open AccelObserver.Server
open AccelObserver.Server.PacketValidator
open AccelObserver.Server.StorageManager
open AccelObserver.Server.CsvFormatter

/-- The texts that the client's main loop sends: a packet that does not fit
the buffer is left out. -/
def clientTexts (packets : List SensorPacket) : List Bytes :=
  packets.filterMap fun pkt => sensorToJson pkt 256

/-- The packets that the server's callback pushes: those that the validator
accepts.  `clock` is read for one payload after the other. -/
def accepts (cfg : ValidatorConfig) (clock : Nat → UInt64) :
    Nat → UInt32 → List Bytes → List DataPacket
  | _, _, [] => []
  | index, counter, payload :: more =>
      let (parsed, counter) := parse cfg (clock index) counter payload
      if parsed.result = .ok then
        parsed.packet :: accepts cfg clock (index + 1) counter more
      else
        accepts cfg clock (index + 1) counter more

/-- The line of a packet, as the client's numbers print. -/
def recordRow (separator : Bytes) (pkt : SensorPacket) : Bytes :=
  decimal pkt.timestampMs.toNat ++ separator ++
    decimal pkt.sequenceId.toNat ++ separator ++
    formatFixed6 pkt.accX ++ separator ++
    formatFixed6 pkt.accY ++ separator ++
    formatFixed6 pkt.accZ ++ [10]

/-- The server's line is the same. -/
theorem row_recordOf (separator : Bytes) (pkt : SensorPacket) :
    row separator (recordOf pkt) = recordRow separator pkt := by
  simp [row, recordOf, recordRow]

section Sent

variable {cfg : ValidatorConfig} {packets : List SensorPacket}

/-- Every packet fits the buffer. -/
theorem clientTexts_eq (sendable : ∀ pkt ∈ packets, Sendable cfg pkt) :
    clientTexts packets = packets.map jsonText := by
  induction packets with
  | nil => rfl
  | cons pkt more induction =>
      rcases List.forall_mem_cons.mp sendable with ⟨here, later⟩
      rw [clientTexts, List.filterMap_cons, sensorToJson_eq_some here.fits,
        List.map_cons]
      exact congrArg _ (induction later)

/-- The validator accepts all of them and keeps their order. -/
theorem accepts_jsonTexts
    (sendable : ∀ pkt ∈ packets, Sendable cfg pkt) (clock : Nat → UInt64)
    (index : Nat) (counter : UInt32) :
    accepts cfg clock index counter (packets.map jsonText) =
      packets.map recordOf := by
  induction packets generalizing index with
  | nil => rfl
  | cons pkt more induction =>
      rcases List.forall_mem_cons.mp sendable with ⟨here, later⟩
      rw [List.map_cons, accepts, parse_jsonText here]
      simp only [if_true, List.map_cons]
      rw [induction later]

/-- No text is empty. -/
theorem nonempty_jsonTexts (packets : List SensorPacket) :
    nonempty (packets.map jsonText) = packets.map jsonText := by
  apply List.filter_eq_self.mpr
  intro text member
  rcases List.mem_map.mp member with ⟨pkt, -, rfl⟩
  rfl

/-- What the server pushes are the records of what the client read. -/
theorem accepts_session
    (sendable : ∀ pkt ∈ packets, Sendable cfg pkt)
    {ws : WsClient} {sock : Socket} (connected : ws.sock = some sock)
    (fresh : sock.outgoing = []) (complete : sock.SendsComplete)
    (segmentation : Segmentation) {loads : Nat}
    (enough : packets.length < loads) (clock : Nat → UInt64)
    (counter : UInt32) :
    accepts cfg clock 0 counter
        (WsSubscriber.frameLoop loads
          (Sock.receiving (clientStream ws (clientTexts packets))
            segmentation)).callbacks =
      packets.map recordOf := by
  rw [clientTexts_eq sendable]
  have bounded : ∀ text ∈ packets.map jsonText, text.length < 2 ^ 63 := by
    intro text member
    rcases List.mem_map.mp member with ⟨pkt, packetMember, rfl⟩
    exact (sendable pkt packetMember).fits.trans (by decide)
  rw [clientStream_callbacks bounded connected fresh complete segmentation
      (by simpa using enough),
    nonempty_jsonTexts, accepts_jsonTexts sendable]

end Sent

/--
End-to-end fidelity of the records.  The texts of the packets go over the
wire in one session; the storage manager's threads interleave in any way, as
long as every push finds room, no write fails and no push comes behind the
final drain.  (A write does not fail if the formatter reports no error and
nothing is lost when a stream is closed.)  When `stop` has returned, the file
is the header line and one line for each packet.
-/
theorem record_fidelity
    (cfg : ValidatorConfig) (separator : Bytes)
    (packets : List SensorPacket)
    (sendable : ∀ pkt ∈ packets, Sendable cfg pkt)
    (ws : WsClient) (sock : Socket) (connected : ws.sock = some sock)
    (fresh : sock.outgoing = []) (complete : sock.SendsComplete)
    (segmentation : Segmentation) (loads : Nat)
    (enough : packets.length < loads)
    (clock : Nat → UInt64) (counter : UInt32)
    (capacity : Nat) (io : Io) (headerWhole : io.ClosesWhole)
    (opened : (writeHeader separator .fresh io).2 = true)
    (actions : List (Action DataPacket Io))
    (batchesWhole :
      ∀ action ∈ actions, ∀ outcome ∈ action.outcome?, outcome.ClosesWhole)
    (final : State DataPacket CsvFile)
    (ran :
      (machine (csvFormatter separator) capacity .fresh io).run actions =
        some final)
    (pushed :
      pushes actions =
        accepts cfg clock 0 counter
          (WsSubscriber.frameLoop loads
            (Sock.receiving (clientStream ws (clientTexts packets))
              segmentation)).callbacks)
    (room :
      (machine (csvFormatter separator) capacity .fresh io).Along RoomForPush
        (start (csvFormatter separator) capacity .fresh io) actions)
    (succeed :
      (machine (csvFormatter separator) capacity .fresh io).Along
        (WritesSucceed (csvFormatter separator))
        (start (csvFormatter separator) capacity .fresh io) actions)
    (punctual :
      (machine (csvFormatter separator) capacity .fresh io).Along NoLatePush
        (start (csvFormatter separator) capacity .fresh io) actions)
    (returned : final.stopper = .returned) :
    final.file.content =
      some
        (makeHeader separator ++ [10] ++
          (packets.map (recordRow separator)).flatten) := by
  have appends :
      ∀ action ∈ actions,
        AppendsIn (csvFormatter separator) (Holds separator) action :=
    fun action member outcome isOutcome =>
      csvFormatter_appendsOn separator
        (batchesWhole action member outcome isOutcome)
  have ordered :=
    ordered_run (writeHeader_fresh headerWhole opened) ran appends succeed
  have empty : final.buffer.contents = [] := by
    apply emptied_run ran punctual
    rw [returned]
    trivial
  have stored := (stored_of_returned ordered returned empty).1.2
  have accepted : final.accepted = packets.map recordOf := by
    have all := accepted_run room ran
    rw [pushed,
      accepts_session sendable connected fresh complete segmentation enough]
      at all
    exact all
  have lines :
      rows separator (packets.map recordOf) =
        (packets.map (recordRow separator)).flatten := by
    rw [rows, List.map_map]
    congr 2
    funext pkt
    exact row_recordOf separator pkt
  rw [stored, accepted, lines]

/-- A sensor at rest: its third axis is a minus zero. -/
def restingPacket : SensorPacket :=
  { timestampMs := 1700000000000
    sequenceId := 42
    accX := .finite false (12 / 100)
    accY := .finite true (981 / 100)
    accZ := .finite true 0 }

theorem restingPacket_sendable : Sendable .default restingPacket := by
  constructor
  · decide
  · exact ⟨⟨_, _, rfl⟩, ⟨_, _, rfl⟩, ⟨_, _, rfl⟩⟩
  · decide +kernel
  · decide +kernel

/-- The packet is pushed, and the final drain writes it. -/
def restingRun : List (Action DataPacket Io) :=
  [.push 0 (recordOf restingPacket), .stop, .stopper .good, .writer .good,
    .stopper .good, .stopper .good, .stopper .good, .stopper .good]

theorem restingRun_good :
    ∀ action ∈ restingRun, ∀ outcome ∈ action.outcome?, outcome = .good := by
  simp [restingRun, Action.outcome?]

theorem restingRun_stops :
    ((machine (csvFormatter (ascii ";")) 4 .fresh .good).run restingRun).any
      State.hasStopped = true := by
  decide +kernel

theorem record_fidelity_restingPacket :
    ∃ final,
      (machine (csvFormatter (ascii ";")) 4 .fresh .good).run restingRun =
          some final ∧
        final.file.content =
          some
            (makeHeader (ascii ";") ++ [10] ++
              ([restingPacket].map (recordRow (ascii ";"))).flatten) := by
  have sendable : ∀ pkt ∈ [restingPacket], Sendable .default pkt := by
    simpa using restingPacket_sendable
  have whole :
      ∀ action ∈ restingRun, ∀ outcome ∈ action.outcome?,
        outcome.ClosesWhole := by
    intro action member outcome isOutcome
    rw [restingRun_good action member outcome isOutcome]
    exact Io.good_closesWhole
  rcases exists_of_hasStopped restingRun_stops with ⟨final, ran, returned⟩
  refine ⟨final, ran, ?_⟩
  exact record_fidelity .default (ascii ";") [restingPacket] sendable
    { sock := some (Sock.receiving [] Segmentation.single), rngState := 1 }
    (Sock.receiving [] Segmentation.single) rfl rfl
    (Sock.receiving_sendsComplete _ _) Segmentation.single 2 (by decide)
    (fun _ => 0) 0 4 .good Io.good_closesWhole
    (by rw [writeHeader_good]; rfl) restingRun whole final ran
    (accepts_session sendable rfl rfl (Sock.receiving_sendsComplete _ _)
      Segmentation.single (by decide) (fun _ => 0) 0).symm
    ⟨fun _ _ _ => by decide, fun _ _ =>
      along_of_no_pushes (fun _ _ other _ _ equal => absurd equal (other _ _))
        rfl⟩
    (along_writesSucceed_good restingRun_good)
    ⟨fun _ _ _ => id, fun _ _ =>
      along_of_no_pushes (fun _ _ other _ _ equal => absurd equal (other _ _))
        rfl⟩
    returned

end AccelObserver.EndToEnd.Records
