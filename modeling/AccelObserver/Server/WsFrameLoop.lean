import AccelObserver.Server.WsSubscriber

/-!
# The frame loop against the frame grammar

`WsSubscriber::run` on a stream of well-formed frames.  `frameLoop_frames` is
the induction over the frames; the rest reads results off it.

The loop agrees with the grammar on unfragmented frames
(`frameLoop_unfragmented`).  It keeps no state between frames and does not
look at FIN, so a fragmented message reaches the callback piece by piece, and
the payload of a reserved opcode reaches it too; `reassembles_iff` says on
which streams this makes no difference.
-/

namespace AccelObserver.Server.WsFrameLoop

open AccelObserver.Library
open AccelObserver.Library.Channel
open AccelObserver.Server.WsSubscriber

/-- The bytes of a list of frames. -/
def encodeAll (frames : List Frame) : Bytes :=
  frames.flatMap Frame.encode

/-- A stream of frames can be split behind any number of them. -/
theorem encodeAll_take_drop (count : Nat) (frames : List Frame) :
    encodeAll frames =
      encodeAll (frames.take count) ++ encodeAll (frames.drop count) := by
  rw [encodeAll, encodeAll, encodeAll, ← List.flatMap_append,
    List.take_append_drop]

/--
The loop over frames that do not close the connection: it delivers their
payloads, writes their answers, consumes their bytes and goes on.
-/
theorem frameLoop_frames
    (frames : List Frame)
    (noClose : ∀ frame ∈ frames, frame.opcode ≠ Frame.close)
    (loads : Nat) (sock : Socket) (complete : sock.SendsComplete)
    {rest : Bytes} (incoming : sock.incoming = encodeAll frames ++ rest) :
    ∃ recvCalls sendCalls,
      frameLoop (frames.length + loads) sock =
        let after :=
          frameLoop loads
            { sock with
              incoming := rest
              recvCalls := recvCalls
              outgoing := sock.outgoing ++ frames.flatMap reply
              sendCalls := sendCalls }
        { after with
          callbacks := nonempty (frames.map delivered) ++ after.callbacks } := by
  induction frames generalizing sock with
  | nil =>
      refine ⟨sock.recvCalls, sock.sendCalls, ?_⟩
      simp only [encodeAll, List.flatMap_nil, List.nil_append] at incoming
      simp [← incoming]
  | cons frame more induction =>
      simp only [encodeAll, List.flatMap_cons, List.append_assoc] at incoming
      rcases readFrame_eq (noClose frame (by simp)) complete incoming
        with ⟨headRecv, headSend, head⟩
      rcases induction
          (fun other member => noClose other (by simp [member]))
          { sock with
            incoming := more.flatMap Frame.encode ++ rest
            recvCalls := headRecv
            outgoing := sock.outgoing ++ reply frame
            sendCalls := headSend }
          complete rfl
        with ⟨recvCalls, sendCalls, tail⟩
      refine ⟨recvCalls, sendCalls, ?_⟩
      have count :
          (frame :: more).length + loads = (more.length + loads) + 1 := by
        simp only [List.length_cons]
        omega
      rw [count, frameLoop, head]
      simp only [tail, List.map_cons, nonempty_cons, List.flatMap_cons,
        List.append_assoc]
      split_ifs <;> rfl

/-- The loop stops at a Close frame, with its payload unread. -/
theorem frameLoop_close
    {frame : Frame} (isClose : frame.opcode = Frame.close)
    (loads : Nat) (sock : Socket) {rest : Bytes}
    (incoming : sock.incoming = frame.encode ++ rest) :
    ∃ recvCalls,
      frameLoop (loads + 1) sock =
        { callbacks := []
          ending := .disconnected
          sock :=
            { sock with
              incoming := frame.wirePayload ++ rest
              recvCalls := recvCalls } } := by
  rw [Frame.encode, List.append_assoc] at incoming
  rcases readFrame_close isClose incoming with ⟨recvCalls, closed⟩
  exact ⟨recvCalls, by rw [frameLoop, closed]⟩

/-- Frames up to a Close frame, with the flag true for long enough. -/
theorem frameLoop_frames_close
    (frames : List Frame)
    (noClose : ∀ frame ∈ frames, frame.opcode ≠ Frame.close)
    {closing : Frame} (isClose : closing.opcode = Frame.close)
    {loads : Nat} (enough : frames.length < loads)
    (sock : Socket) (complete : sock.SendsComplete) {rest : Bytes}
    (incoming :
      sock.incoming = encodeAll frames ++ (closing.encode ++ rest)) :
    ∃ recvCalls sendCalls,
      frameLoop loads sock =
        { callbacks := nonempty (frames.map delivered)
          ending := .disconnected
          sock :=
            { sock with
              incoming := closing.wirePayload ++ rest
              recvCalls := recvCalls
              outgoing := sock.outgoing ++ frames.flatMap reply
              sendCalls := sendCalls } } := by
  rcases Nat.exists_eq_add_of_lt enough with ⟨spare, rfl⟩
  rcases frameLoop_frames frames noClose (spare + 1) sock complete incoming
    with ⟨recvCalls, sendCalls, looped⟩
  rcases frameLoop_close isClose spare
      { sock with
        incoming := closing.encode ++ rest
        recvCalls := recvCalls
        outgoing := sock.outgoing ++ frames.flatMap reply
        sendCalls := sendCalls }
      rfl
    with ⟨closeCalls, closed⟩
  exact ⟨closeCalls, sendCalls,
    by rw [Nat.add_assoc, looped, closed]; simp⟩

/-! ## Unfragmented frames -/

/-- A frame of the grammar that the subscriber is written for. -/
structure Unfragmented (frame : Frame) : Prop where
  fin : frame.fin = true
  kind :
    frame.opcode = Frame.text ∨ frame.opcode = Frame.binary ∨
      (frame.opcode = Frame.ping ∧ frame.payload.length ≤ 125) ∨
      frame.opcode = Frame.pong
  small : frame.payload.length < 2 ^ 31

/-- The payloads of the text and binary frames. -/
def dataPayloads (frames : List Frame) : List Bytes :=
  (frames.filter fun frame =>
    frame.opcode = Frame.text ∨ frame.opcode = Frame.binary).map Frame.payload

/-- The payloads of the Ping frames. -/
def pingPayloads (frames : List Frame) : List Bytes :=
  (frames.filter fun frame => frame.opcode = Frame.ping).map Frame.payload

/-- A complete unmasked Pong frame. -/
structure IsPong (frame : Frame) : Prop where
  fin : frame.fin = true
  rsv : frame.rsv = 0
  opcode : frame.opcode = Frame.pong
  unmasked : frame.maskKey = none

/-- The Pong frame with a given payload. -/
def pongFrame (payload : Bytes) (short : payload.length ≤ 125) : Frame where
  fin := true
  rsv := 0
  opcode := Frame.pong
  maskKey := none
  lengthForm := .short
  payload := payload
  fits := Nat.lt_succ_of_le short

theorem pongFrame_isPong
    (payload : Bytes) (short : payload.length ≤ 125) :
    IsPong (pongFrame payload short) :=
  ⟨rfl, rfl, rfl, rfl⟩

/-- `send_pong` writes exactly the bytes of a Pong frame. -/
theorem pongBytes_eq_encode
    {payload : Bytes} (short : payload.length ≤ 125) :
    pongBytes payload = (pongFrame payload short).encode := by
  rw [pongBytes, if_neg (Nat.not_lt.mpr short), Frame.encode_short _ rfl rfl]
  rfl

theorem Unfragmented.not_close
    {frame : Frame} (plain : Unfragmented frame) :
    frame.opcode ≠ Frame.close := by
  rcases plain.kind with kind | kind | ⟨kind, -⟩ | kind <;>
    rw [kind] <;> decide

/-- What is delivered are the text and binary payloads. -/
theorem nonempty_delivered_eq
    {frames : List Frame} (plain : ∀ frame ∈ frames, Unfragmented frame) :
    nonempty (frames.map delivered) = nonempty (dataPayloads frames) := by
  induction frames with
  | nil => rfl
  | cons frame more induction =>
      have tail := induction fun other member => plain other (by simp [member])
      have head := (plain frame (by simp)).kind
      rw [List.map_cons, nonempty_cons, tail]
      simp only [dataPayloads, List.filter_cons]
      rcases head with kind | kind | ⟨kind, -⟩ | kind <;>
        simp [delivered, kind, Frame.text, Frame.binary, Frame.ping,
          Frame.pong, nonempty_cons]

/-- The answers are one Pong frame for each Ping, in order. -/
theorem flatMap_reply_eq
    {frames : List Frame} (plain : ∀ frame ∈ frames, Unfragmented frame) :
    ∃ pongs : List Frame,
      frames.flatMap reply = encodeAll pongs ∧
        (∀ frame ∈ pongs, IsPong frame) ∧
        pongs.map Frame.payload = pingPayloads frames := by
  induction frames with
  | nil => exact ⟨[], rfl, by simp, rfl⟩
  | cons frame more induction =>
      rcases induction fun other member => plain other (by simp [member])
        with ⟨pongs, written, arePongs, payloads⟩
      simp only [List.flatMap_cons, written, pingPayloads, List.filter_cons]
      rcases (plain frame (by simp)).kind with
        kind | kind | ⟨kind, short⟩ | kind
      · exact ⟨pongs, by simp [reply, kind, Frame.text, Frame.ping], arePongs,
          by simpa [kind, Frame.text, Frame.ping, pingPayloads] using payloads⟩
      · exact ⟨pongs, by simp [reply, kind, Frame.binary, Frame.ping],
          arePongs,
          by simpa [kind, Frame.binary, Frame.ping, pingPayloads] using
            payloads⟩
      · refine ⟨pongFrame frame.payload short :: pongs, ?_, ?_, ?_⟩
        · simp [reply, kind, pongBytes_eq_encode short, encodeAll]
        · intro pong member
          rcases List.mem_cons.mp member with rfl | tail
          · exact pongFrame_isPong _ short
          · exact arePongs pong tail
        · simpa [kind, pongFrame, pingPayloads] using payloads
      · exact ⟨pongs, by simp [reply, kind, Frame.pong, Frame.ping], arePongs,
          by simpa [kind, Frame.pong, Frame.ping, pingPayloads] using payloads⟩

/--
The loop agrees with the frame grammar.  On unfragmented frames followed by a
Close frame it calls back with the non-empty text and binary payloads, writes
one Pong per Ping and ends at the Close frame; and if `running_` turns false
after `count` frames, exactly the bytes of those frames are consumed.
-/
theorem frameLoop_unfragmented
    (frames : List Frame) (plain : ∀ frame ∈ frames, Unfragmented frame)
    (closing : Frame) (isClose : closing.opcode = Frame.close)
    (sock : Socket) (complete : sock.SendsComplete) (rest : Bytes)
    (incoming :
      sock.incoming = encodeAll frames ++ (closing.encode ++ rest)) :
    (∀ loads, frames.length < loads →
      let result := frameLoop loads sock
      result.callbacks = nonempty (dataPayloads frames) ∧
        (∃ pongs : List Frame,
          result.sock.outgoing = sock.outgoing ++ encodeAll pongs ∧
            (∀ frame ∈ pongs, IsPong frame) ∧
            pongs.map Frame.payload = pingPayloads frames) ∧
        result.ending = .disconnected ∧
        result.sock.incoming = closing.wirePayload ++ rest) ∧
      ∀ count ≤ frames.length,
        let result := frameLoop count sock
        result.callbacks = nonempty (dataPayloads (frames.take count)) ∧
          result.ending = .stopped ∧
          result.sock.incoming =
            encodeAll (frames.drop count) ++ (closing.encode ++ rest) := by
  constructor
  · intro loads enough
    rcases frameLoop_frames_close frames
        (fun frame member => (plain frame member).not_close)
        isClose enough sock complete incoming
      with ⟨recvCalls, sendCalls, looped⟩
    rcases flatMap_reply_eq plain with ⟨pongs, written, arePongs, payloads⟩
    simp only [looped]
    exact ⟨nonempty_delivered_eq plain,
      ⟨pongs, by rw [written], arePongs, payloads⟩, trivial, trivial⟩
  · intro count bounded
    have plainTake : ∀ frame ∈ frames.take count, Unfragmented frame :=
      fun frame member => plain frame (List.mem_of_mem_take member)
    have split :
        sock.incoming =
          encodeAll (frames.take count) ++
            (encodeAll (frames.drop count) ++ (closing.encode ++ rest)) := by
      rw [incoming, encodeAll_take_drop count frames, List.append_assoc]
    rcases frameLoop_frames (frames.take count)
        (fun frame member => (plainTake frame member).not_close)
        0 sock complete split
      with ⟨recvCalls, sendCalls, looped⟩
    rw [Nat.add_zero, List.length_take, Nat.min_eq_left bounded] at looped
    simp only [looped, frameLoop, List.append_nil]
    exact ⟨nonempty_delivered_eq plainTake, trivial, trivial⟩

/-- A masked text frame. -/
def textFrame (payload : Bytes) (short : payload.length < 126) : Frame where
  fin := true
  rsv := 0
  opcode := Frame.text
  maskKey := some fun index => UInt8.ofNat (17 * (index + 1))
  lengthForm := .short
  payload := payload
  fits := short

/-- A Ping whose length is written in the 64-bit form. -/
def pingFrame (payload : Bytes) (short : payload.length < 126) : Frame where
  fin := true
  rsv := 0
  opcode := Frame.ping
  maskKey := none
  lengthForm := .long
  payload := payload
  fits := Nat.lt_trans short (by decide)

/-- An empty Close frame. -/
def closeFrame : Frame where
  fin := true
  rsv := 0
  opcode := Frame.close
  maskKey := none
  lengthForm := .short
  payload := []
  fits := by decide

theorem frameLoop_unfragmented_ping_text :
    let frames := [pingFrame (ascii "p") (by decide),
      textFrame (ascii "hi") (by decide)]
    let result :=
      frameLoop 3
        (Sock.receiving
          (encodeAll frames ++ (closeFrame.encode ++ []))
          Segmentation.single)
    result.callbacks = [ascii "hi"] ∧
      ∃ pongs : List Frame,
        result.sock.outgoing = encodeAll pongs ∧
          pongs.map Frame.payload = [ascii "p"] := by
  have plain :
      ∀ frame ∈ [pingFrame (ascii "p") (by decide),
        textFrame (ascii "hi") (by decide)], Unfragmented frame := by
    intro frame member
    simp only [List.mem_cons, List.not_mem_nil, or_false] at member
    rcases member with rfl | rfl
    · exact ⟨rfl, by decide, by decide⟩
    · exact ⟨rfl, by decide, by decide⟩
  rcases (frameLoop_unfragmented _ plain closeFrame rfl
      (Sock.receiving _ Segmentation.single)
      (Sock.receiving_sendsComplete _ _) [] rfl).1 3 (by decide)
    with ⟨callbacks, ⟨pongs, written, -, payloads⟩, -⟩
  exact ⟨callbacks, pongs, written, payloads⟩

/-! ## Fragmented messages -/

/--
A frame that a peer can send before or inside a fragmented message: a control
frame, or a frame with an opcode that RFC 6455 does not define.
-/
def Interjection (frame : Frame) : Prop :=
  frame.opcode = Frame.ping ∨ frame.opcode = Frame.pong ∨
    Frame.Reserved frame.opcode

/-- Messages, each with the frames that are sent before it. -/
abbrev Conversation := List (List Frame × Message)

/-- The frames of a conversation in the order they are sent. -/
def conversationFrames (conversation : Conversation) : List Frame :=
  conversation.flatMap fun part => part.1 ++ part.2.frames

/-- The interjected frames of one part. -/
def interjected (part : List Frame × Message) : List Frame :=
  part.1 ++ part.2.between

/-- The contents of the messages that have one. -/
def contents (conversation : Conversation) : List Bytes :=
  nonempty (conversation.map fun part => part.2.content)

/-- No frame with a reserved opcode has a payload. -/
def Silent (frames : List Frame) : Prop :=
  ∀ frame ∈ frames, Frame.Reserved frame.opcode → frame.payload = []

/-- What makes a part come through whole without any reassembly. -/
structure Whole (part : List Frame × Message) : Prop where
  silent : Silent (interjected part)
  oneFragment : (nonempty part.2.fragments).length ≤ 1

/-- What interjected frames add to the callbacks. -/
def noise (frames : List Frame) : List Bytes :=
  nonempty (frames.map delivered)

theorem noise_eq_nil_iff
    {frames : List Frame}
    (interjections : ∀ frame ∈ frames, Interjection frame) :
    noise frames = [] ↔ Silent frames := by
  have delivers {frame : Frame} (interjection : Interjection frame) :
      delivered frame = [] ↔
        (Frame.Reserved frame.opcode → frame.payload = []) := by
    rcases interjection with isPing | isPong | reserved
    · simp [delivered, isPing, Frame.Reserved, Frame.ping]
    · simp [delivered, isPong, Frame.Reserved, Frame.pong]
    · have notPing : frame.opcode ≠ Frame.ping := by
        intro equal
        simp [equal, Frame.Reserved, Frame.ping] at reserved
      have notPong : frame.opcode ≠ Frame.pong := by
        intro equal
        simp [equal, Frame.Reserved, Frame.pong] at reserved
      simp [delivered, notPing, notPong, reserved]
  simp only [noise, nonempty, List.filter_eq_nil_iff, List.mem_map,
    forall_exists_index, and_imp, forall_apply_eq_imp_iff₂, Silent,
    Bool.not_eq_true, Bool.not_eq_false', List.isEmpty_iff]
  exact forall₂_congr fun frame member => delivers (interjections frame member)

/-- A fragment reaches the callback as it is, whatever its place. -/
theorem delivered_fragment
    (fragment : Fragment) (fin : Bool) {opcode : Fin 16}
    (data :
      opcode = Frame.continuation ∨ opcode = Frame.text ∨
        opcode = Frame.binary) :
    delivered (fragment.frame fin opcode) = fragment.payload := by
  rcases data with rfl | rfl | rfl <;> rfl

/-- The callbacks of a message, counted: its fragments and the noise. -/
theorem callbacks_length (message : Message) :
    (nonempty (message.frames.map delivered)).length =
      (nonempty message.fragments).length + (noise message.between).length := by
  have continuations (rest : List (List Frame × Fragment)) :
      (nonempty
          ((Message.continuationFrames rest).map delivered)).length =
        (nonempty (rest.map fun part => part.2.payload)).length +
          (noise (rest.flatMap Prod.fst)).length := by
    induction rest with
    | nil => rfl
    | cons part more induction =>
        simp only [Message.continuationFrames, List.map_append, List.map_cons,
          nonempty_append, nonempty_cons, List.length_append, induction,
          delivered_fragment part.2 more.isEmpty (Or.inl rfl), noise,
          List.flatMap_cons]
        omega
  simp only [Message.frames, Message.fragments, Message.between,
    List.map_cons, nonempty_cons, List.length_append, continuations,
    delivered_fragment message.first message.rest.isEmpty
      (Or.inr message.isData)]
  omega

/-- Without noise, a message calls back with its non-empty fragments. -/
theorem callbacks_eq_of_noise
    {message : Message} (quiet : noise message.between = []) :
    nonempty (message.frames.map delivered) = nonempty message.fragments := by
  have continuations (rest : List (List Frame × Fragment))
      (quiet : noise (rest.flatMap Prod.fst) = []) :
      nonempty ((Message.continuationFrames rest).map delivered) =
        nonempty (rest.map fun part => part.2.payload) := by
    induction rest with
    | nil => rfl
    | cons part more induction =>
        simp only [noise, List.flatMap_cons, List.map_append, nonempty_append,
          List.append_eq_nil_iff] at quiet
        simp only [Message.continuationFrames, List.map_append, List.map_cons,
          nonempty_append, nonempty_cons, induction quiet.2, quiet.1,
          delivered_fragment part.2 more.isEmpty (Or.inl rfl),
          List.nil_append]
  simp only [Message.frames, Message.fragments, List.map_cons, nonempty_cons,
    continuations message.rest quiet,
    delivered_fragment message.first message.rest.isEmpty
      (Or.inr message.isData)]

/-- The callbacks of one part of a conversation. -/
def partCallbacks (part : List Frame × Message) : List Bytes :=
  noise part.1 ++ nonempty (part.2.frames.map delivered)

theorem partCallbacks_eq
    {part : List Frame × Message}
    (interjections : ∀ frame ∈ interjected part, Interjection frame)
    (whole : Whole part) :
    partCallbacks part = nonempty [part.2.content] := by
  have quiet := (noise_eq_nil_iff interjections).mpr whole.silent
  simp only [noise, interjected, List.map_append, nonempty_append,
    List.append_eq_nil_iff] at quiet
  rw [partCallbacks, noise, quiet.1, callbacks_eq_of_noise quiet.2,
    Message.content, nonempty_flatten_eq whole.oneFragment, List.nil_append]

/-- A part never calls back less often than it should. -/
theorem content_length_le (part : List Frame × Message) :
    (nonempty [part.2.content]).length ≤ (partCallbacks part).length := by
  rw [partCallbacks, List.length_append, callbacks_length, Message.content]
  have := nonempty_flatten_length_le part.2.fragments
  omega

/-- Only whole parts call back as often as they should. -/
theorem whole_of_length_le
    {part : List Frame × Message}
    (interjections : ∀ frame ∈ interjected part, Interjection frame)
    (length :
      (partCallbacks part).length ≤ (nonempty [part.2.content]).length) :
    Whole part := by
  rw [partCallbacks, List.length_append, callbacks_length,
    Message.content] at length
  have joined := nonempty_flatten_length_le part.2.fragments
  have quiet : noise (interjected part) = [] := by
    apply List.length_eq_zero_iff.mp
    simp only [noise, interjected, List.map_append, nonempty_append,
      List.length_append] at length ⊢
    omega
  refine ⟨(noise_eq_nil_iff interjections).mp quiet, ?_⟩
  apply (nonempty_flatten_length_eq_iff part.2.fragments).mp
  omega

theorem Interjection.not_close
    {frame : Frame} (interjection : Interjection frame) :
    frame.opcode ≠ Frame.close := by
  intro isClose
  rcases interjection with isPing | isPong | reserved
  · exact absurd (isPing.symm.trans isClose) (by decide)
  · exact absurd (isPong.symm.trans isClose) (by decide)
  · simp [isClose, Frame.Reserved, Frame.close] at reserved

theorem continuationFrames_not_close
    {rest : List (List Frame × Fragment)}
    (interjections : ∀ frame ∈ rest.flatMap Prod.fst, Interjection frame) :
    ∀ frame ∈ Message.continuationFrames rest,
      frame.opcode ≠ Frame.close := by
  induction rest with
  | nil => simp [Message.continuationFrames]
  | cons first more induction =>
      simp only [List.flatMap_cons, List.mem_append] at interjections
      intro frame member
      simp only [Message.continuationFrames, List.mem_append,
        List.mem_cons] at member
      rcases member with between | rfl | tail
      · exact (interjections frame (Or.inl between)).not_close
      · simp [Fragment.frame, Frame.continuation, Frame.close]
      · exact induction
          (fun other member => interjections other (Or.inr member))
          frame tail

/-- No frame of a part is a Close frame. -/
theorem part_not_close
    {part : List Frame × Message}
    (interjections : ∀ frame ∈ interjected part, Interjection frame)
    {frame : Frame} (member : frame ∈ part.1 ++ part.2.frames) :
    frame.opcode ≠ Frame.close := by
  simp only [interjected, List.mem_append] at interjections
  rcases List.mem_append.mp member with before | inside
  · exact (interjections frame (Or.inl before)).not_close
  · rcases List.mem_cons.mp inside with rfl | tail
    · rcases part.2.isData with kind | kind <;>
        simp [Fragment.frame, kind, Frame.text, Frame.binary, Frame.close]
    · exact continuationFrames_not_close
        (fun other member => interjections other (Or.inr member)) frame tail

theorem contents_cons
    (part : List Frame × Message) (more : Conversation) :
    contents (part :: more) = nonempty [part.2.content] ++ contents more := by
  simp [contents, nonempty_cons]

/-- The callbacks of a conversation, part after part. -/
theorem conversation_callbacks (conversation : Conversation) :
    nonempty ((conversationFrames conversation).map delivered) =
      conversation.flatMap partCallbacks := by
  induction conversation with
  | nil => rfl
  | cons part more induction =>
      rw [conversationFrames, List.flatMap_cons, List.map_append,
        nonempty_append, List.map_append, nonempty_append,
        List.flatMap_cons, ← induction]
      rfl

/-- A conversation never calls back less often than it should. -/
theorem contents_length_le (conversation : Conversation) :
    (contents conversation).length ≤
      (conversation.flatMap partCallbacks).length := by
  induction conversation with
  | nil => simp [contents]
  | cons part more induction =>
      rw [contents_cons, List.flatMap_cons, List.length_append,
        List.length_append]
      exact Nat.add_le_add (content_length_le part) induction

/-- No part calls back too rarely, so where the sum is right none calls back
too often. -/
theorem whole_of_counted
    {conversation : Conversation}
    (interjections :
      ∀ part ∈ conversation, ∀ frame ∈ interjected part, Interjection frame)
    (length :
      (conversation.flatMap partCallbacks).length ≤
        (contents conversation).length) :
    ∀ part ∈ conversation, Whole part := by
  induction conversation with
  | nil => simp
  | cons part more induction =>
      rw [contents_cons, List.flatMap_cons, List.length_append,
        List.length_append] at length
      have headLeast := content_length_le part
      have tailLeast := contents_length_le more
      intro other member
      rcases List.mem_cons.mp member with rfl | tail
      · exact whole_of_length_le (interjections other (by simp)) (by omega)
      · exact induction
          (fun part member => interjections part (by simp [member]))
          (by omega) other tail

/-- Whole parts call back with their contents, one after the other. -/
theorem callbacks_of_whole
    {conversation : Conversation}
    (interjections :
      ∀ part ∈ conversation, ∀ frame ∈ interjected part, Interjection frame)
    (whole : ∀ part ∈ conversation, Whole part) :
    conversation.flatMap partCallbacks = contents conversation := by
  induction conversation with
  | nil => rfl
  | cons part more induction =>
      rw [contents_cons, List.flatMap_cons,
        partCallbacks_eq (interjections part (by simp)) (whole part (by simp)),
        induction
          (fun part member => interjections part (by simp [member]))
          (fun part member => whole part (by simp [member]))]

/-- The callbacks of a conversation are the contents of its messages exactly
when every part is whole. -/
theorem conversation_callbacks_eq_iff
    (conversation : Conversation) (trailing : List Frame)
    (interjections :
      ∀ part ∈ conversation, ∀ frame ∈ interjected part, Interjection frame)
    (trailingInterjections : ∀ frame ∈ trailing, Interjection frame) :
    nonempty
        ((conversationFrames conversation ++ trailing).map delivered) =
        contents conversation ↔
      (∀ part ∈ conversation, Whole part) ∧ Silent trailing := by
  rw [List.map_append, nonempty_append, conversation_callbacks,
    ← noise_eq_nil_iff trailingInterjections]
  constructor
  · intro equal
    have length := congrArg List.length equal
    have least := contents_length_le conversation
    rw [List.length_append] at length
    constructor
    · exact whole_of_counted interjections (by omega)
    · apply List.length_eq_zero_iff.mp
      rw [noise]
      omega
  · rintro ⟨whole, quiet⟩
    rw [noise] at quiet
    rw [quiet, List.append_nil, callbacks_of_whole interjections whole]

/--
The loop does not reassemble: it calls back once per message with the whole
content, and with nothing else, exactly on the streams on which every message
has at most one non-empty fragment and every frame with a reserved opcode is
empty.
-/
theorem reassembles_iff
    (conversation : Conversation) (trailing : List Frame)
    (interjections :
      ∀ part ∈ conversation, ∀ frame ∈ interjected part, Interjection frame)
    (trailingInterjections : ∀ frame ∈ trailing, Interjection frame)
    (closing : Frame) (isClose : closing.opcode = Frame.close)
    (sock : Socket) (complete : sock.SendsComplete) (rest : Bytes)
    (incoming :
      sock.incoming =
        encodeAll (conversationFrames conversation ++ trailing) ++
          (closing.encode ++ rest))
    (loads : Nat)
    (enough :
      (conversationFrames conversation ++ trailing).length < loads) :
    (frameLoop loads sock).callbacks = contents conversation ↔
      (∀ part ∈ conversation, Whole part) ∧ Silent trailing := by
  have noClose :
      ∀ frame ∈ conversationFrames conversation ++ trailing,
        frame.opcode ≠ Frame.close := by
    intro frame member
    rcases List.mem_append.mp member with inside | outside
    · rcases List.mem_flatMap.mp inside with ⟨part, partMember, frameMember⟩
      exact part_not_close (interjections part partMember) frameMember
    · exact (trailingInterjections frame outside).not_close
  rcases frameLoop_frames_close _ noClose isClose enough sock complete incoming
    with ⟨recvCalls, sendCalls, looped⟩
  rw [looped]
  exact conversation_callbacks_eq_iff conversation trailing interjections
    trailingInterjections

/-- The text message `ab`, sent as the fragments `a` and `b`. -/
def splitMessage : Message where
  kind := Frame.text
  isData := Or.inl rfl
  first := ⟨none, .short, ascii "a", by decide⟩
  rest := [([], ⟨none, .short, ascii "b", by decide⟩)]

/-- A frame with the reserved opcode 3. -/
def reservedFrame : Frame where
  fin := true
  rsv := 0
  opcode := 3
  maskKey := none
  lengthForm := .short
  payload := ascii "x"
  fits := by decide

/-- The stream of a split message, a reserved frame and a Close frame. -/
def splitSock : Socket :=
  Sock.receiving
    (encodeAll (conversationFrames [([], splitMessage)] ++ [reservedFrame]) ++
      (closeFrame.encode ++ []))
    Segmentation.single

theorem splitMessage_not_reassembled :
    (frameLoop 4 splitSock).callbacks =
        [ascii "a", ascii "b", reservedFrame.payload] ∧
      contents [([], splitMessage)] = [ascii "ab"] ∧
      (frameLoop 4 splitSock).callbacks ≠ contents [([], splitMessage)] := by
  decide +kernel

theorem reassembles_iff_splitMessage :
    (frameLoop 4 splitSock).callbacks = contents [([], splitMessage)] ↔
      (∀ part ∈ [(([] : List Frame), splitMessage)], Whole part) ∧
        Silent [reservedFrame] := by
  have reserved : Interjection reservedFrame :=
    Or.inr (Or.inr (by decide))
  exact reassembles_iff [([], splitMessage)] [reservedFrame]
    (by
      intro part member
      obtain rfl := List.mem_singleton.mp member
      simp [interjected, Message.between, splitMessage])
    (by
      intro frame member
      obtain rfl := List.mem_singleton.mp member
      exact reserved)
    closeFrame rfl splitSock (Sock.receiving_sendsComplete _ _) [] rfl 4
    (by decide)

end AccelObserver.Server.WsFrameLoop
