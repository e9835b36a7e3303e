import AccelObserver.Client.WsTransport
import AccelObserver.Server.WsFrameLoop

/-!
# The text stream from client to server

The client's `ws_send_text` and `ws_close` write frames of the grammar, and
the server's frame loop reads frames of the grammar; put together they carry
every text across unchanged.  A connection that breaks cuts the stream at
some byte, and the loop then delivers the texts whose frames arrived whole.
-/

namespace AccelObserver.EndToEnd.WsStream

open AccelObserver.Library
open AccelObserver.Library.Channel
open AccelObserver.Client.WsTransport
open AccelObserver.Server
open AccelObserver.Server.WsFrameLoop (encodeAll)

/-! ## Streams that are cut -/

/-- How many pieces of a stream lie within its first `count` bytes, given the
lengths of the pieces. -/
def arrived : Nat → List Nat → Nat
  | _, [] => 0
  | count, length :: more =>
      if length ≤ count then arrived (count - length) more + 1 else 0

/-- The first `index` pieces have arrived when their total length has. -/
theorem le_arrived_iff
    (count : Nat) (lengths : List Nat) {index : Nat}
    (bounded : index ≤ lengths.length) :
    index ≤ arrived count lengths ↔ (lengths.take index).sum ≤ count := by
  induction lengths generalizing count index with
  | nil =>
      obtain rfl : index = 0 := by simpa using bounded
      simp
  | cons length more induction =>
      cases index with
      | zero => simp
      | succ index =>
          simp only [List.length_cons, Nat.add_le_add_iff_right] at bounded
          simp only [arrived, List.take_succ_cons, List.sum_cons]
          split_ifs with fits
          · have rest := induction (count - length) bounded
            omega
          · omega

/-- A text frame of the client: a frame that the loop delivers. -/
def IsText (frame : Frame) : Prop :=
  frame.opcode = Frame.text

/-- A reading that fails ends the loop. -/
theorem frameLoop_of_disconnected
    {sock : WsSubscriber.Socket} (loads : Nat)
    (failed : (WsSubscriber.readFrame sock).1 = .disconnected) :
    (WsSubscriber.frameLoop (loads + 1) sock).callbacks = [] ∧
      (WsSubscriber.frameLoop (loads + 1) sock).ending = .disconnected := by
  rw [WsSubscriber.frameLoop]
  split
  · exact ⟨rfl, rfl⟩
  · next result => simp [result] at failed
  · next result => simp [result] at failed

/-- A Close frame ends the reading, whole or cut. -/
theorem readFrame_of_close_cut
    {closing : Frame} (isClose : closing.opcode = Frame.close)
    {count : Nat} {sock : WsSubscriber.Socket}
    (incoming : sock.incoming = closing.encode.take count) :
    (WsSubscriber.readFrame sock).1 = .disconnected := by
  have notPong : closing.opcode ≠ Frame.pong := by
    rw [isClose]
    decide
  by_cases cut : count < closing.encode.length
  · exact WsSubscriber.readFrame_of_cut notPong cut incoming
  · have whole : sock.incoming = closing.header ++ closing.wirePayload := by
      rw [incoming]
      exact List.take_of_length_le (Nat.not_lt.mp cut)
    rcases WsSubscriber.readFrame_close isClose whole
      with ⟨recvCalls, closed⟩
    rw [closed]

/--
The loop over text frames and a Close frame of which only the first `count`
bytes arrive.
-/
theorem frameLoop_cut
    (frames : List Frame) (texts : ∀ frame ∈ frames, IsText frame)
    {closing : Frame} (isClose : closing.opcode = Frame.close)
    (count loads : Nat) (enough : frames.length < loads)
    (sock : WsSubscriber.Socket) (complete : sock.SendsComplete)
    (incoming :
      sock.incoming = (encodeAll frames ++ closing.encode).take count) :
    (WsSubscriber.frameLoop loads sock).callbacks =
        nonempty
          ((frames.take
            (arrived count
              (frames.map fun frame => frame.encode.length))).map
            Frame.payload) ∧
      (WsSubscriber.frameLoop loads sock).ending = .disconnected := by
  induction frames generalizing sock count loads with
  | nil =>
      rcases Nat.exists_eq_add_of_lt enough with ⟨spare, rfl⟩
      exact frameLoop_of_disconnected _
        (readFrame_of_close_cut isClose incoming)
  | cons frame more induction =>
      rcases Nat.exists_eq_add_of_lt enough with ⟨spare, rfl⟩
      have isText : frame.opcode = Frame.text := texts frame (by simp)
      have stream :
          encodeAll (frame :: more) ++ closing.encode =
            frame.encode ++ (encodeAll more ++ closing.encode) := by
        simp [encodeAll]
      rw [stream] at incoming
      by_cases here : frame.encode.length ≤ count
      · rcases Nat.exists_eq_add_of_le here with ⟨left, rfl⟩
        rw [List.take_length_add_append] at incoming
        rcases WsSubscriber.readFrame_eq
            (show frame.opcode ≠ Frame.close by rw [isText]; decide)
            complete incoming
          with ⟨recvCalls, sendCalls, read⟩
        have delivers : WsSubscriber.delivered frame = frame.payload := by
          simp [WsSubscriber.delivered, isText, Frame.text, Frame.ping,
            Frame.pong]
        rcases
            induction (fun other member => texts other (by simp [member])) left
              (more.length + 1 + spare) (by omega)
              { sock with
                incoming := (encodeAll more ++ closing.encode).take left
                recvCalls := recvCalls
                outgoing := sock.outgoing ++ WsSubscriber.reply frame
                sendCalls := sendCalls }
              complete rfl
          with ⟨callbacks, ending⟩
        rw [List.length_cons, WsSubscriber.frameLoop, read, delivers]
        simp only [List.map_cons, arrived, here, if_true,
          Nat.add_sub_cancel_left, List.take_succ_cons, nonempty_cons]
        split_ifs
        · exact ⟨callbacks, ending⟩
        · exact ⟨by simp [callbacks], ending⟩
      · have cut : count < frame.encode.length := Nat.not_le.mp here
        have partly : sock.incoming = frame.encode.take count := by
          rw [incoming, List.take_append_of_le_length (Nat.le_of_lt cut)]
        have failed :=
          WsSubscriber.readFrame_of_cut
            (show frame.opcode ≠ Frame.pong by rw [isText]; decide)
            cut partly
        simp only [List.map_cons, arrived, here, if_false, List.take_zero,
          List.map_nil, nonempty_nil]
        exact frameLoop_of_disconnected _ failed

/-! ## A session of the client -/

/-- The client after it has sent the texts in turn. -/
def sendAllTexts (ws : WsClient) (texts : List Bytes) : WsClient :=
  texts.foldl (fun ws text => (wsSendText ws text).2) ws

/-- What the client has put on the wire so far. -/
def output (ws : WsClient) : Bytes :=
  (ws.sock.map Sock.outgoing).getD []

/-- What each call of `ws_send_text` puts on the wire. -/
def sessionWrites : WsClient → List Bytes → List Bytes
  | _, [] => []
  | ws, text :: more =>
      let after := (wsSendText ws text).2
      (output after).drop (output ws).length :: sessionWrites after more

/-- A session writes one text frame per text, in order. -/
theorem session_frames
    (texts : List Bytes) (bounded : ∀ text ∈ texts, text.length < 2 ^ 63)
    {ws : WsClient} {sock : Socket} (connected : ws.sock = some sock)
    (complete : sock.SendsComplete) :
    ∃ (frames : List Frame) (after : Socket),
      (∀ frame ∈ frames, IsText frame) ∧
        frames.map Frame.payload = texts ∧
        sessionWrites ws texts = frames.map Frame.encode ∧
        (sendAllTexts ws texts).sock = some after ∧
        after.SendsComplete ∧
        after.outgoing = sock.outgoing ++ encodeAll frames := by
  induction texts generalizing ws sock with
  | nil =>
      exact ⟨[], sock, by simp, rfl, rfl, connected, complete,
        by simp [encodeAll]⟩
  | cons text more induction =>
      have small := bounded text (by simp)
      rcases wsSendText_eq connected complete small with ⟨sendCalls, sent⟩
      set frame := textFrame (maskOf (prngNext ws.rngState)) text small with
        frameEq
      rcases induction (fun other member => bounded other (by simp [member]))
          (show (wsSendText ws text).2.sock =
              some
                { sock with
                  outgoing := sock.outgoing ++ frame.encode
                  sendCalls := sendCalls } by
            rw [sent])
          complete
        with ⟨frames, after, texts, payloads, writes, ended, stillComplete,
          written⟩
      refine ⟨frame :: frames, after, ?_, ?_, ?_, ?_, stillComplete, ?_⟩
      · intro other member
        rcases List.mem_cons.mp member with rfl | tail
        · rfl
        · exact texts other tail
      · rw [List.map_cons, payloads]
        rfl
      · rw [sessionWrites, List.map_cons, ← writes]
        simp [output, connected, sent]
      · exact ended
      · simp [written, encodeAll]

/-- All that the client writes on a connection that it opens and closes. -/
def clientStream (ws : WsClient) (texts : List Bytes) : Bytes :=
  ((wsClose (sendAllTexts ws texts)).map Sock.outgoing).getD []

/-- The stream of a session is its text frames and a Close frame. -/
theorem clientStream_eq
    {texts : List Bytes} (bounded : ∀ text ∈ texts, text.length < 2 ^ 63)
    {ws : WsClient} {sock : Socket} (connected : ws.sock = some sock)
    (fresh : sock.outgoing = []) (complete : sock.SendsComplete) :
    ∃ (frames : List Frame) (closing : Frame),
      (∀ frame ∈ frames, IsText frame) ∧ closing.opcode = Frame.close ∧
        frames.map Frame.payload = texts ∧
        clientStream ws texts = encodeAll frames ++ closing.encode := by
  rcases session_frames texts bounded connected complete with
    ⟨frames, after, areTexts, payloads, -, ended, stillComplete, written⟩
  have closed := wsClose_outgoing ended stillComplete
  rw [written, fresh, List.nil_append] at closed
  refine ⟨frames,
    closeFrame (maskOf (prngNext (sendAllTexts ws texts).rngState)),
    areTexts, rfl, payloads, ?_⟩
  rw [clientStream, closed]
  rfl

/-- The server calls back with the non-empty texts of a whole session. -/
theorem clientStream_callbacks
    {texts : List Bytes} (bounded : ∀ text ∈ texts, text.length < 2 ^ 63)
    {ws : WsClient} {sock : Socket} (connected : ws.sock = some sock)
    (fresh : sock.outgoing = []) (complete : sock.SendsComplete)
    (segmentation : Segmentation) {loads : Nat}
    (enough : texts.length < loads) :
    (WsSubscriber.frameLoop loads
        (Sock.receiving (clientStream ws texts) segmentation)).callbacks =
      nonempty texts := by
  rcases clientStream_eq bounded connected fresh complete with
    ⟨frames, closing, areTexts, isClose, rfl, stream⟩
  rw [List.length_map] at enough
  have whole :
      (encodeAll frames ++ closing.encode).take
          (encodeAll frames ++ closing.encode).length =
        encodeAll frames ++ closing.encode :=
    List.take_length
  have everything :
      (frames.map fun frame => frame.encode.length).length ≤
        arrived (encodeAll frames ++ closing.encode).length
          (frames.map fun frame => frame.encode.length) := by
    rw [le_arrived_iff _ _ (Nat.le_refl _), List.take_length]
    simp [encodeAll, List.length_flatMap]
  rw [stream]
  rw [(frameLoop_cut frames areTexts isClose
    (encodeAll frames ++ closing.encode).length loads enough
    (Sock.receiving (encodeAll frames ++ closing.encode) segmentation)
    (Sock.receiving_sendsComplete _ _) whole.symm).1]
  rw [List.take_of_length_le (by simpa using everything)]

/--
Client-to-server stream fidelity.  Whatever the texts, the masks, the pieces
in which the operating system sends and receives, and the byte at which the
stream is cut, the server calls back with the non-empty texts whose frames
arrived whole, in order and unchanged; on the complete stream it stops behind
the header of the client's Close frame.
-/
theorem text_stream_fidelity
    (ws : WsClient) (sock : Socket) (connected : ws.sock = some sock)
    (fresh : sock.outgoing = []) (complete : sock.SendsComplete)
    (texts : List Bytes) (bounded : ∀ text ∈ texts, text.length ≤ 2 ^ 31)
    (segmentation : Segmentation) (count : Nat)
    (loads : Nat) (enough : texts.length < loads) :
    let closing :=
      closeFrameBytes
        (maskOf (prngNext (sendAllTexts ws texts).rngState))
    let stream := (sessionWrites ws texts).flatten ++ closing
    (wsClose (sendAllTexts ws texts)).map Sock.outgoing = some stream ∧
      ∃ whole : Nat,
        (∀ index ≤ texts.length,
          index ≤ whole ↔
            ((sessionWrites ws texts).take index).flatten.length ≤ count) ∧
        let result :=
          WsSubscriber.frameLoop loads
            (Sock.receiving (stream.take count) segmentation)
        result.callbacks = nonempty (texts.take whole) ∧
          result.ending = .disconnected ∧
          (stream.length ≤ count →
            result.sock.incoming = closing.drop 6) := by
  rcases session_frames texts
      (fun text member => Nat.lt_of_le_of_lt (bounded text member) (by decide))
      connected complete
    with ⟨frames, after, areTexts, payloads, writes, ended, stillComplete,
      written⟩
  rw [fresh, List.nil_append] at written
  have flattened : (frames.map Frame.encode).flatten = encodeAll frames :=
    (List.flatMap_def ..).symm
  set mask := maskOf (prngNext (sendAllTexts ws texts).rngState) with maskEq
  have isClose : (closeFrame mask).opcode = Frame.close := rfl
  have lengthEq : frames.length = texts.length := by
    rw [← payloads, List.length_map]
  have closed := wsClose_outgoing ended stillComplete
  rw [written, ← maskEq] at closed
  simp only [closeFrameBytes_eq, writes, flattened]
  refine ⟨closed,
    arrived count (frames.map fun frame => frame.encode.length), ?_, ?_⟩
  · intro index indexBound
    rw [le_arrived_iff count _ (by simpa [lengthEq] using indexBound),
      List.length_flatten, ← List.map_take, ← List.map_take, List.map_map]
    rfl
  · rcases frameLoop_cut frames areTexts isClose count loads
        (by rw [lengthEq]; exact enough)
        (Sock.receiving
          ((encodeAll frames ++ (closeFrame mask).encode).take count)
          segmentation)
        (Sock.receiving_sendsComplete _ _) rfl
      with ⟨callbacks, ending⟩
    refine ⟨by rw [callbacks, List.map_take, payloads], ending, ?_⟩
    intro everything
    rw [List.take_of_length_le everything]
    rcases WsFrameLoop.frameLoop_frames_close frames
        (fun frame member => by rw [areTexts frame member]; decide)
        isClose (by rw [lengthEq]; exact enough)
        (Sock.receiving (encodeAll frames ++ (closeFrame mask).encode)
          segmentation)
        (Sock.receiving_sendsComplete _ _)
        (by rw [List.append_nil]; rfl)
      with ⟨recvCalls, sendCalls, looped⟩
    rw [looped]
    rfl

/-- Two texts and an empty one, cut inside the frame of the last text. -/
theorem text_stream_fidelity_cut :
    let ws : WsClient :=
      { sock := some (Sock.receiving [] Segmentation.single), rngState := 1 }
    let texts := [ascii "one", [], ascii "two"]
    let stream := (sessionWrites ws texts).flatten
    ∃ whole : Nat,
      (3 ≤ whole ↔
        ((sessionWrites ws texts).take 3).flatten.length ≤ 20) ∧
      (WsSubscriber.frameLoop 4
        (Sock.receiving
          ((stream ++
            closeFrameBytes
              (maskOf (prngNext (sendAllTexts ws texts).rngState))).take 20)
          Segmentation.single)).callbacks =
        nonempty (texts.take whole) := by
  rcases text_stream_fidelity
      { sock := some (Sock.receiving [] Segmentation.single), rngState := 1 }
      (Sock.receiving [] Segmentation.single) rfl rfl
      (Sock.receiving_sendsComplete _ _)
      [ascii "one", [], ascii "two"] (by decide) Segmentation.single 20 4
      (by decide)
    with ⟨-, whole, counted, callbacks, -⟩
  exact ⟨whole, counted 3 (by decide), callbacks⟩

end AccelObserver.EndToEnd.WsStream
