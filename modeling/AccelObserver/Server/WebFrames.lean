import AccelObserver.Library.FixedFormat
import AccelObserver.Server.PacketCallback
import AccelObserver.Server.RangeGate
import AccelObserver.Server.RateWindow

/-!
# The frames of the dashboard

`broadcast_data` and `StatsAnalyzer::to_json` print their frames into buffers
of 256 and 512 bytes.  What the callback gives them fits, and is JSON that the
browser can read, with two exceptions: an axis that is not a number passes the
range check and is printed as `nan`, and with a report interval of zero the
rate of the first packet is infinite.

The numbers are printed from their exact values.
-/

namespace AccelObserver.Server.WebFrames

open AccelObserver.Library
open AccelObserver.Library.Decimal (decimal)
open AccelObserver.Library.FixedFormat
open AccelObserver.Library.Json (IsText typedText)
open AccelObserver.Server.PacketCallback

/-! ## The texts -/

/-- What `snprintf` makes of the format of `broadcast_data`. -/
def dataText (pkt : DataPacket) (latencyMs jitterMs : Double) : Bytes :=
  [ascii "\x7b\"type\":\"data\",",
    ascii "\"ts\":", decimal pkt.timestampMs.toNat,
    ascii ",\"seq\":", decimal pkt.sequenceId.toNat,
    ascii ",\"ax\":", formatFixed 6 pkt.accX,
    ascii ",\"ay\":", formatFixed 6 pkt.accY,
    ascii ",\"az\":", formatFixed 6 pkt.accZ,
    ascii ",\"lat\":", formatFixed 3 latencyMs,
    ascii ",\"jitter\":", formatFixed 3 jitterMs, ascii "\x7d"].flatten

/-- `buf` of `broadcast_data` keeps 255 bytes of it. -/
def dataBuf (pkt : DataPacket) (latencyMs jitterMs : Double) : Bytes :=
  (dataText pkt latencyMs jitterMs).take 255

/-- What `snprintf` makes of the format of `to_json`; the counters are printed
as they are modulo 2^64. -/
def statsText (snap : StatsSnapshot) : Bytes :=
  [ascii "\x7b\"type\":\"stats\"",
    ascii ",\"rx\":", decimal (snap.packetsReceived % 2 ^ 64),
    ascii ",\"lost\":", decimal (snap.packetsLost % 2 ^ 64),
    ascii ",\"loss_pct\":", formatFixed 3 (ofRat snap.lossRatePct),
    ascii ",\"lat_min\":", formatFixed 3 (ofRat snap.minLatencyMs),
    ascii ",\"lat_avg\":", formatFixed 3 (ofRat snap.avgLatencyMs),
    ascii ",\"lat_max\":", formatFixed 3 (ofRat snap.maxLatencyMs),
    ascii ",\"jitter_avg\":", formatFixed 3 (ofRat snap.avgJitterMs),
    ascii ",\"jitter_max\":", formatFixed 3 (ofRat snap.maxJitterMs),
    ascii ",\"rate_hz\":", formatFixed 2 snap.rxRateHz,
    ascii ",\"last_seq\":", decimal snap.lastSeq.toNat, ascii "\x7d"].flatten

/-- `to_json` -/
def toJson (snap : StatsSnapshot) : Bytes :=
  (statsText snap).take 511

/-- The text of a frame. -/
def frameText : Broadcast → Bytes
  | .data pkt latencyMs avgJitterMs =>
      dataBuf pkt (ofRat latencyMs) (ofRat avgJitterMs)
  | .stats snap => toJson snap

/-! ## The members -/

def dataMembers (pkt : DataPacket) (latencyMs jitterMs : Double) :
    List Member :=
  [.whole (ascii "ts") pkt.timestampMs.toNat,
    .whole (ascii "seq") pkt.sequenceId.toNat,
    .fixed (ascii "ax") 6 pkt.accX,
    .fixed (ascii "ay") 6 pkt.accY,
    .fixed (ascii "az") 6 pkt.accZ,
    .fixed (ascii "lat") 3 latencyMs,
    .fixed (ascii "jitter") 3 jitterMs]

def statsMembers (snap : StatsSnapshot) : List Member :=
  [.whole (ascii "rx") (snap.packetsReceived % 2 ^ 64),
    .whole (ascii "lost") (snap.packetsLost % 2 ^ 64),
    .fixed (ascii "loss_pct") 3 (ofRat snap.lossRatePct),
    .fixed (ascii "lat_min") 3 (ofRat snap.minLatencyMs),
    .fixed (ascii "lat_avg") 3 (ofRat snap.avgLatencyMs),
    .fixed (ascii "lat_max") 3 (ofRat snap.maxLatencyMs),
    .fixed (ascii "jitter_avg") 3 (ofRat snap.avgJitterMs),
    .fixed (ascii "jitter_max") 3 (ofRat snap.maxJitterMs),
    .fixed (ascii "rate_hz") 2 snap.rxRateHz,
    .whole (ascii "last_seq") snap.lastSeq.toNat]

/-- What a frame is to be read as. -/
def frameKind : Broadcast → Bytes
  | .data _ _ _ => ascii "data"
  | .stats _ => ascii "stats"

def frameMembers : Broadcast → List Member
  | .data pkt latencyMs avgJitterMs =>
      dataMembers pkt (ofRat latencyMs) (ofRat avgJitterMs)
  | .stats snap => statsMembers snap

theorem dataText_eq (pkt : DataPacket) (latencyMs jitterMs : Double) :
    dataText pkt latencyMs jitterMs =
      typedText (ascii "data")
        ((dataMembers pkt latencyMs jitterMs).map Member.field) := by
  have start :
      ascii "\x7b\"type\":\"data\"," =
        123 :: 34 :: (ascii "type" ++ 34 :: 58 :: 34 ::
          (ascii "data" ++ [34, 44])) := by
    decide +kernel
  have ts : ascii "\"ts\":" = 34 :: (ascii "ts" ++ [34, 58]) := by
    decide +kernel
  have seq :
      ascii ",\"seq\":" = 44 :: 34 :: (ascii "seq" ++ [34, 58]) := by
    decide +kernel
  have ax :
      ascii ",\"ax\":" = 44 :: 34 :: (ascii "ax" ++ [34, 58]) := by
    decide +kernel
  have ay :
      ascii ",\"ay\":" = 44 :: 34 :: (ascii "ay" ++ [34, 58]) := by
    decide +kernel
  have az :
      ascii ",\"az\":" = 44 :: 34 :: (ascii "az" ++ [34, 58]) := by
    decide +kernel
  have lat :
      ascii ",\"lat\":" = 44 :: 34 :: (ascii "lat" ++ [34, 58]) := by
    decide +kernel
  have jitter :
      ascii ",\"jitter\":" = 44 :: 34 :: (ascii "jitter" ++ [34, 58]) := by
    decide +kernel
  have brace : ascii "\x7d" = [125] := by
    decide +kernel
  simp only [dataText, start, ts, seq, ax, ay, az, lat, jitter, brace,
    typedText, dataMembers, List.map_cons, List.map_nil, Member.field,
    Json.fieldsText, List.flatten_cons,
    List.flatten_nil, List.append_assoc, List.cons_append, List.nil_append]

theorem statsText_eq (snap : StatsSnapshot) :
    statsText snap =
      typedText (ascii "stats") ((statsMembers snap).map Member.field) := by
  have start :
      ascii "\x7b\"type\":\"stats\"" =
        123 :: 34 :: (ascii "type" ++ 34 :: 58 :: 34 ::
          (ascii "stats" ++ [34])) := by
    decide +kernel
  have rx :
      ascii ",\"rx\":" = 44 :: 34 :: (ascii "rx" ++ [34, 58]) := by
    decide +kernel
  have lost :
      ascii ",\"lost\":" = 44 :: 34 :: (ascii "lost" ++ [34, 58]) := by
    decide +kernel
  have lossPct :
      ascii ",\"loss_pct\":" = 44 :: 34 :: (ascii "loss_pct" ++ [34, 58]) := by
    decide +kernel
  have latMin :
      ascii ",\"lat_min\":" = 44 :: 34 :: (ascii "lat_min" ++ [34, 58]) := by
    decide +kernel
  have latAvg :
      ascii ",\"lat_avg\":" = 44 :: 34 :: (ascii "lat_avg" ++ [34, 58]) := by
    decide +kernel
  have latMax :
      ascii ",\"lat_max\":" = 44 :: 34 :: (ascii "lat_max" ++ [34, 58]) := by
    decide +kernel
  have jitterAvg :
      ascii ",\"jitter_avg\":" =
        44 :: 34 :: (ascii "jitter_avg" ++ [34, 58]) := by
    decide +kernel
  have jitterMax :
      ascii ",\"jitter_max\":" =
        44 :: 34 :: (ascii "jitter_max" ++ [34, 58]) := by
    decide +kernel
  have rateHz :
      ascii ",\"rate_hz\":" = 44 :: 34 :: (ascii "rate_hz" ++ [34, 58]) := by
    decide +kernel
  have lastSeq :
      ascii ",\"last_seq\":" = 44 :: 34 :: (ascii "last_seq" ++ [34, 58]) := by
    decide +kernel
  have brace : ascii "\x7d" = [125] := by
    decide +kernel
  simp only [statsText, start, rx, lost, lossPct, latMin, latAvg, latMax,
    jitterAvg, jitterMax, rateHz, lastSeq, brace, typedText, statsMembers,
    List.map_cons, List.map_nil, Member.field, Json.fieldsText,
    List.flatten_cons, List.flatten_nil, List.append_assoc, List.cons_append,
    List.nil_append]

/-! ## When a frame is JSON -/

/-- A data frame is JSON if all of it fits and every number is one. -/
theorem dataBuf_isText_iff
    (pkt : DataPacket) (latencyMs jitterMs : Double) :
    (∃ value, IsText (dataBuf pkt latencyMs jitterMs) value) ↔
      (dataText pkt latencyMs jitterMs).length ≤ 255 ∧
        (∀ axis ∈ RangeGate.axes pkt, axis.IsFinite) ∧
        latencyMs.IsFinite ∧ jitterMs.IsFinite := by
  rw [dataBuf, dataText_eq,
    isText_take_members_iff (by decide) (by decide) (by simp [dataMembers]) rfl
      (by decide)]
  simp only [dataMembers, List.forall_mem_cons, RangeGate.axes,
    Member.IsNumber, List.not_mem_nil, false_implies, implies_true, and_true,
    true_and, and_assoc]

/-- A statistics frame is JSON if all of it fits and the rate is a number. -/
theorem toJson_isText_iff (snap : StatsSnapshot) :
    (∃ value, IsText (toJson snap) value) ↔
      (statsText snap).length ≤ 511 ∧ snap.rxRateHz.IsFinite := by
  have exact (value : ℚ) : (ofRat value).IsFinite := ⟨_, _, rfl⟩
  rw [toJson, statsText_eq,
    isText_take_members_iff (by decide) (by decide) (by simp [statsMembers])
      rfl (by decide)]
  simp only [statsMembers, List.forall_mem_cons, Member.IsNumber, exact,
    List.not_mem_nil, false_implies, implies_true, and_true, true_and]

/-- A frame that is JSON is read as what it was printed from. -/
theorem readsAs_of_isText
    {broadcast : Broadcast}
    (isText : ∃ value, IsText (frameText broadcast) value) :
    ReadsAs (frameText broadcast) (frameKind broadcast)
      (frameMembers broadcast) := by
  cases broadcast with
  | data pkt latencyMs avgJitterMs =>
      rw [frameText, dataBuf, dataText_eq] at isText ⊢
      rw [isText_take_members_iff (by decide) (by decide)
        (by simp [dataMembers]) rfl (by decide)] at isText
      exact readsAs_take (by decide) (by decide) (by simp [dataMembers]) rfl
        isText.2 isText.1
  | stats snap =>
      rw [frameText, toJson, statsText_eq] at isText ⊢
      rw [isText_take_members_iff (by decide) (by decide)
        (by simp [statsMembers]) rfl (by decide)] at isText
      exact readsAs_take (by decide) (by decide) (by simp [statsMembers]) rfl
        isText.2 isText.1

end AccelObserver.Server.WebFrames
