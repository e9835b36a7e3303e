import AccelObserver.Library.FrameDecoder
import AccelObserver.Server.WebStream
import AccelObserver.Server.WsSubscriber

/-!
# The frames of a broadcast are read back

`ws_encode_frame` writes text frames in the shortest form, so a stream of them
is cut into the frames again, by the frame grammar and by the `read_frame` of
the subscriber, and no other frames have the same bytes.
-/

namespace AccelObserver.Server.BroadcastDecoding

open AccelObserver.Library
open AccelObserver.Server.WebStream (wsEncodeFrame wsEncodeFrame_eq serverFrame)
open AccelObserver.Server.WsSubscriber
  (Socket FrameResult readFrame readFrame_data recvExact_eq_of_lt)

/-- The bytes of broadcasts, one after the other. -/
def broadcasts (payloads : List Bytes) : Bytes :=
  payloads.flatMap wsEncodeFrame

/-- An unmasked text frame that is not a fragment, in the shortest form. -/
structure IsBroadcast (frame : Frame) : Prop where
  fin : frame.fin = true
  rsv : frame.rsv = 0
  opcode : frame.opcode = Frame.text
  unmasked : frame.maskKey = none
  shortest :
    frame.lengthForm = Frame.LengthForm.shortest frame.payload.length

/-- The payloads that so many calls of `read_frame` give, up to the first
call that fails. -/
def readFrames : Nat → Socket → List Bytes × Socket
  | 0, sock => ([], sock)
  | calls + 1, sock =>
      match readFrame sock with
      | (.received payload, sock) =>
          let later := readFrames calls sock
          (payload :: later.1, later.2)
      | (_, sock) => ([], sock)

/-- Broadcasts are frames of the grammar. -/
theorem exists_frames
    {payloads : List Bytes}
    (small : ∀ payload ∈ payloads, payload.length < 2 ^ 63) :
    ∃ frames : List Frame,
      broadcasts payloads = frames.flatMap Frame.encode ∧
        frames.map Frame.payload = payloads ∧
        ∀ frame ∈ frames, IsBroadcast frame := by
  induction payloads with
  | nil => exact ⟨[], rfl, rfl, by simp⟩
  | cons payload more induction =>
      rcases List.forall_mem_cons.mp small with ⟨first, others⟩
      rcases induction others with ⟨frames, bytes, payloads, areBroadcasts⟩
      refine
        ⟨serverFrame Frame.text payload first :: frames, ?_, ?_,
          List.forall_mem_cons.mpr ⟨⟨rfl, rfl, rfl, rfl, rfl⟩, areBroadcasts⟩⟩
      · rw [broadcasts, List.flatMap_cons, wsEncodeFrame_eq payload first,
          List.flatMap_cons, ← bytes]
        rfl
      · rw [List.map_cons, payloads]
        rfl

/-- At the end of a stream nothing is read. -/
theorem readFrames_of_nil
    (calls : Nat) {sock : Socket} (empty : sock.incoming = []) :
    ∃ recvCalls,
      readFrames calls sock =
        ([], { sock with incoming := [], recvCalls := recvCalls }) := by
  cases calls with
  | zero =>
      refine ⟨sock.recvCalls, ?_⟩
      rw [readFrames, ← empty]
  | succ calls =>
      rcases recvExact_eq_of_lt sock 2 (by rw [empty]; decide)
        with ⟨recvCalls, failed⟩
      refine ⟨recvCalls, ?_⟩
      rw [readFrames, readFrame, failed]

/-- `read_frame` gives the payloads of text frames one after the other. -/
theorem readFrames_eq
    {frames : List Frame} (isText : ∀ frame ∈ frames, frame.opcode = Frame.text)
    {calls : Nat} (enough : frames.length ≤ calls) (sock : Socket)
    (incoming : sock.incoming = frames.flatMap Frame.encode) :
    ∃ recvCalls,
      readFrames calls sock =
        (frames.map Frame.payload,
          { sock with incoming := [], recvCalls := recvCalls }) := by
  induction frames generalizing calls sock with
  | nil => exact readFrames_of_nil calls incoming
  | cons frame more induction =>
      rcases List.forall_mem_cons.mp isText with ⟨first, others⟩
      cases calls with
      | zero => exact absurd enough (by simp)
      | succ calls =>
          have notClose : frame.opcode ≠ Frame.close := by
            rw [first]
            decide
          have notPing : frame.opcode ≠ Frame.ping := by
            rw [first]
            decide
          have notPong : frame.opcode ≠ Frame.pong := by
            rw [first]
            decide
          rw [List.flatMap_cons] at incoming
          rcases readFrame_data notClose notPing notPong incoming
            with ⟨firstCalls, read⟩
          rcases induction others (Nat.le_of_succ_le_succ enough)
              { sock with
                incoming := more.flatMap Frame.encode
                recvCalls := firstCalls }
              rfl
            with ⟨recvCalls, later⟩
          refine ⟨recvCalls, ?_⟩
          rw [readFrames, read]
          simp only [later, List.map_cons]

/--
Broadcasts are read back.  The decoder of the grammar and `read_frame` give
the payloads again and leave nothing; the frames are text frames in the
shortest form, no other frames have these bytes, and no frame with one of the
payloads is shorter.
-/
theorem broadcasts_are_decoded
    (payloads : List Bytes)
    (small : ∀ payload ∈ payloads, payload.length < 2 ^ 63) :
    (∃ frames : List Frame,
      Frame.decodeAll (broadcasts payloads).length (broadcasts payloads) =
          (frames, []) ∧
        frames.map Frame.payload = payloads ∧
        (∀ frame ∈ frames, IsBroadcast frame) ∧
        ∀ others : List Frame,
          others.flatMap Frame.encode = broadcasts payloads →
          others = frames) ∧
      (∀ (sock : Socket) (calls : Nat),
        sock.incoming = broadcasts payloads → payloads.length ≤ calls →
        ∃ recvCalls,
          readFrames calls sock =
            (payloads,
              { sock with incoming := [], recvCalls := recvCalls })) ∧
      ∀ payload ∈ payloads, ∀ frame : Frame, frame.payload = payload →
        (wsEncodeFrame payload).length ≤ frame.encode.length := by
  rcases exists_frames small with ⟨frames, bytes, payloadsEq, areBroadcasts⟩
  refine ⟨⟨frames, ?_, payloadsEq, areBroadcasts, ?_⟩, ?_, ?_⟩
  · rw [bytes]
    exact Frame.decodeAll_encode frames (Frame.length_le_flatMap_encode frames)
  · intro others same
    rw [bytes] at same
    exact Frame.flatMap_encode_injective same
  · intro sock calls incoming enough
    rw [← payloadsEq, List.length_map] at enough
    rw [bytes] at incoming
    rw [← payloadsEq]
    exact
      readFrames_eq (fun frame member => (areBroadcasts frame member).opcode)
        enough sock incoming
  · intro payload member frame samePayload
    rw [wsEncodeFrame_eq payload (small payload member)]
    exact Frame.encode_length_le samePayload rfl rfl

/-- Two payloads, one with a length of two bytes. -/
def twoPayloads : List Bytes :=
  [ascii "\x7b\x7d", List.replicate 300 97]

theorem twoPayloads_are_decoded :
    ∃ frames : List Frame,
      Frame.decodeAll (broadcasts twoPayloads).length
          (broadcasts twoPayloads) =
        (frames, []) ∧
        frames.map Frame.payload = twoPayloads := by
  have small : ∀ payload ∈ twoPayloads, payload.length < 2 ^ 63 := by
    decide +kernel
  rcases (broadcasts_are_decoded twoPayloads small).1
    with ⟨frames, decoded, payloads, _⟩
  exact ⟨frames, decoded, payloads⟩

end AccelObserver.Server.BroadcastDecoding
