import AccelObserver.Client.WsSession
import AccelObserver.EndToEnd.Handshake
import AccelObserver.EndToEnd.WsStream
import AccelObserver.Server.BufferReaders
import AccelObserver.Server.WsServer

/-!
# Whole connections from the client to the callback

`ws_connect`, the texts and `ws_close` on one side, `do_handshake` and the
frame loop on the other, joined by a stream that may break at any byte.  What
the server answers is what lets the client get to its texts; what breaks off
is lost from the broken text on, and nothing of it reaches the next
connection.
-/

namespace AccelObserver.EndToEnd.Session

open AccelObserver.Library
open AccelObserver.Library.Channel
open AccelObserver.Crypto
open AccelObserver.Client.WsHandshake (nonceB64 nonceRaw requestText)
open AccelObserver.Client.WsHandshake (expectedAccept)
open AccelObserver.Client.WsSession
open AccelObserver.Client.WsTransport (WsClient prngNext maskOf closeFrame)
open AccelObserver.Client.WsTransport (wsClose_outgoing)
open AccelObserver.Server.BufferSizes (TooLongBehind)
open AccelObserver.Server.BufferReaders (frameLoop_throws_iff_tooLong)
open AccelObserver.Server.WsHandshake (responseText)
open AccelObserver.Server.WsFrameLoop (encodeAll)
open AccelObserver.Server.WsServer
open AccelObserver.EndToEnd.Handshake
open AccelObserver.EndToEnd.WsStream

/-! ## What the two sides say -/

/-- A connection of the client: where it goes to, when it is made, and what is
sent on it. -/
structure Visit where
  host : Bytes
  port : UInt16
  path : Option Bytes
  time : ℤ
  pid : ℤ
  texts : List Bytes

def Visit.config (visit : Visit) : WsConfig :=
  { host := some visit.host, port := visit.port, path := visit.path }

/-- The state of the generator when the nonce is drawn. -/
def Visit.rngState (visit : Visit) : UInt32 :=
  Client.Generator.prngSeed visit.time visit.pid

def Visit.request (visit : Visit) : Bytes :=
  requestText (pathOf visit.config) visit.host visit.port
    (nonceB64 visit.rngState)

/-- What the server answers, if all of the request arrives. -/
def Visit.response (visit : Visit) : Bytes :=
  responseText (expectedAccept (nonceB64 visit.rngState))

/-- The request fits its buffer and ends no line early; no text is too long. -/
structure Visit.Proper (visit : Visit) : Prop where
  hostLine : 10 ∉ visit.host
  pathLine : 10 ∉ pathOf visit.config
  short : visit.request.length < 1024
  bounded : ∀ text ∈ visit.texts, text.length < 2 ^ 63

/-- `ws_connect` on a socket of which this much can be read. -/
def Visit.connect (visit : Visit) (sock : Client.WsTransport.Socket) :
    Except ConnectError WsClient :=
  wsConnect (some visit.config)
    { allocated := true
      time := visit.time
      pid := visit.pid
      connected := some sock }

/-! ## The client's side -/

/-- The client whose handshake ends well is connected. -/
theorem connect_of_accepted
    {visit : Visit} {sock : Client.WsTransport.Socket} {ws : WsClient}
    (accepted :
      Client.WsHandshake.doHandshake sock visit.rngState visit.host visit.port
        (pathOf visit.config) = (.wsOk, ws)) :
    visit.connect sock = .ok ws := by
  simp only [Visit.config, Visit.rngState] at accepted
  simp only [Visit.connect, Visit.config, wsConnect, not_true_eq_false,
    if_false, accepted, handshakeError]

/-- A socket that the response can be read from becomes a connection, on which
the request has been sent. -/
theorem connect_of_response
    {visit : Visit} (proper : visit.Proper)
    {sock : Client.WsTransport.Socket} (complete : sock.SendsComplete)
    (fresh : sock.outgoing = []) (incoming : sock.incoming = visit.response) :
    ∃ recvCalls sendCalls,
      visit.connect sock =
        .ok
          { sock :=
              some
                { sock with
                  incoming := []
                  recvCalls := recvCalls
                  outgoing := visit.request
                  sendCalls := sendCalls }
            rngState := (nonceRaw 16 visit.rngState).2 } := by
  rcases Client.WsHandshake.doHandshake_of_short complete proper.short
    with ⟨sendCalls, handshake⟩
  rcases readReply_response
      { sock with
        outgoing := sock.outgoing ++ visit.request
        sendCalls := sendCalls }
      (incoming.trans (List.append_nil _).symm)
    with ⟨recvCalls, accepted⟩
  refine ⟨recvCalls, sendCalls, connect_of_accepted ?_⟩
  refine handshake.trans ?_
  rw [Visit.request] at accepted
  rw [accepted, fresh]
  rfl

/-! ## The server's side -/

/-- The server answers the request with the response, and goes on behind
it. -/
theorem doHandshake_of_request
    {visit : Visit} (proper : visit.Proper)
    {client : Server.WsSubscriber.Socket} (complete : client.SendsComplete)
    {later : Bytes} (incoming : client.incoming = visit.request ++ later) :
    ∃ recvCalls sendCalls,
      Server.WsHandshake.doHandshake client =
        (true,
          { client with
            incoming := later
            recvCalls := recvCalls
            outgoing := client.outgoing ++ visit.response
            sendCalls := sendCalls }) := by
  have nonceLength := nonceB64_length visit.rngState
  have nonceLine : 10 ∉ nonceB64 visit.rngState := base64_not_mem (by decide) _
  have key :
      (requestHeaders visit.host visit.port (nonceB64 visit.rngState)).foldl
          Server.WsHandshake.readHeader [] =
        nonceB64 visit.rngState :=
    foldl_readHeader visit.host visit.port fun byte member =>
      base64_not_trimmed member
  have sameAccept :=
    expectedAccept_eq
      (by rw [nonceLength]; decide)
  rw [Visit.request, requestText_eq, List.append_assoc,
    List.append_assoc (List.flatMap ..)] at incoming
  have answered :=
    Server.WsHandshake.doHandshake_of_lines complete
      (requestLine_oneLine proper.pathLine)
      (requestHeaders_oneLine proper.hostLine visit.port nonceLine)
      (requestHeaders_ne_nil visit.host visit.port _)
      (by
        rw [key]
        exact List.ne_nil_of_length_pos (by rw [nonceLength]; decide))
      incoming
  rw [key, ← sameAccept] at answered
  exact answered

/-- A request that breaks off leaves nothing for the frame loop. -/
theorem doHandshake_of_request_cut
    {visit : Visit} (proper : visit.Proper)
    {client : Server.WsSubscriber.Socket} (complete : client.SendsComplete)
    {count : Nat} (cut : count < visit.request.length)
    (incoming : client.incoming = visit.request.take count) :
    (Server.WsHandshake.doHandshake client).2.incoming = [] := by
  have nonceLine : 10 ∉ nonceB64 visit.rngState := base64_not_mem (by decide) _
  rw [Visit.request, requestText_eq] at cut incoming
  exact doHandshake_of_cut (requestLine_oneLine proper.pathLine)
    (requestHeaders_oneLine proper.hostLine visit.port nonceLine)
    (requestHeaders_ne_nil visit.host visit.port _) cut complete incoming

/-- When nothing has arrived, no frame has. -/
theorem arrived_zero (frames : List Frame) :
    arrived 0 (frames.map fun frame => frame.encode.length) = 0 := by
  cases frames with
  | nil => rfl
  | cons frame frames =>
      have positive : ¬ frame.encode.length ≤ 0 := by
        simp [Frame.encode, Frame.header]
      rw [List.map_cons, arrived, if_neg positive]

/-- Text frames are not answered. -/
theorem flatMap_reply_of_texts
    {frames : List Frame} (texts : ∀ frame ∈ frames, IsText frame) :
    frames.flatMap Server.WsSubscriber.reply = [] := by
  rw [List.flatMap_eq_nil_iff]
  intro frame member
  rw [Server.WsSubscriber.reply, texts frame member]
  rfl

/-- The server on a connection of which only the first bytes arrive. -/
theorem serve_of_stream
    {visit : Visit} (proper : visit.Proper)
    {frames : List Frame} (texts : ∀ frame ∈ frames, IsText frame)
    {closing : Frame} (isClose : closing.opcode = Frame.close)
    {count loads : Nat} (enough : frames.length < loads)
    {client : Server.WsSubscriber.Socket} (complete : client.SendsComplete)
    (incoming :
      client.incoming =
        (visit.request ++ (encodeAll frames ++ closing.encode)).take count) :
    (serve loads client).callbacks =
        nonempty
          ((frames.take
            (arrived (count - visit.request.length)
              (frames.map fun frame => frame.encode.length))).map
            Frame.payload) ∧
      (serve loads client).EndsItself := by
  by_cases cut : count < visit.request.length
  · rw [List.take_append_of_le_length (Nat.le_of_lt cut)] at incoming
    rw [Nat.sub_eq_zero_of_le (Nat.le_of_lt cut), arrived_zero]
    exact serve_of_nothing_left
      (doHandshake_of_request_cut proper complete cut incoming)
      (Nat.zero_lt_of_lt enough)
  · rcases Nat.exists_eq_add_of_le (Nat.not_lt.mp cut) with ⟨left, rfl⟩
    rw [List.take_length_add_append] at incoming
    rcases doHandshake_of_request proper complete incoming
      with ⟨recvCalls, sendCalls, answered⟩
    rcases frameLoop_cut frames texts isClose left loads enough
        { client with
          incoming := (encodeAll frames ++ closing.encode).take left
          recvCalls := recvCalls
          outgoing := client.outgoing ++ visit.response
          sendCalls := sendCalls }
        complete rfl
      with ⟨callbacks, ending⟩
    rw [Nat.add_sub_cancel_left]
    simp only [serve, answered]
    exact ⟨callbacks, Or.inr (congrArg some ending)⟩

/-- On a connection that does not break, the server says no more than the
response. -/
theorem serve_outgoing
    {visit : Visit} (proper : visit.Proper)
    {frames : List Frame} (texts : ∀ frame ∈ frames, IsText frame)
    {closing : Frame} (isClose : closing.opcode = Frame.close)
    {loads : Nat} (enough : frames.length < loads)
    {client : Server.WsSubscriber.Socket} (complete : client.SendsComplete)
    (fresh : client.outgoing = [])
    (incoming :
      client.incoming =
        visit.request ++ (encodeAll frames ++ closing.encode)) :
    (serve loads client).sock.outgoing = visit.response := by
  rcases doHandshake_of_request proper complete incoming
    with ⟨recvCalls, sendCalls, answered⟩
  rcases Server.WsFrameLoop.frameLoop_frames_close frames
      (fun frame member => by rw [texts frame member]; decide) isClose enough
      { client with
        incoming := encodeAll frames ++ closing.encode
        recvCalls := recvCalls
        outgoing := client.outgoing ++ visit.response
        sendCalls := sendCalls }
      complete (by rw [List.append_nil])
    with ⟨loopRecv, loopSend, looped⟩
  simp only [serve, answered]
  rw [looped]
  simp only [flatMap_reply_of_texts texts, fresh, List.nil_append,
    List.append_nil]

/-! ## One connection -/

/-- The client of a visit, once it is connected: the server has answered its
request and nothing else. -/
def Visit.Connects (visit : Visit) (ws : WsClient) : Prop :=
  ∃ sock : Client.WsTransport.Socket,
    sock.SendsComplete ∧ sock.outgoing = [] ∧
      sock.incoming = visit.response ∧ visit.connect sock = .ok ws

/-- What the client of a visit puts on the wire: the request, a frame for each
text, and a Close frame. -/
theorem clientStream_of_connects
    {visit : Visit} (proper : visit.Proper) {ws : WsClient}
    (connects : visit.Connects ws) :
    ∃ (frames : List Frame) (closing : Frame),
      (∀ frame ∈ frames, IsText frame) ∧ closing.opcode = Frame.close ∧
        frames.map Frame.payload = visit.texts ∧
        sessionWrites ws visit.texts = frames.map Frame.encode ∧
        clientStream ws visit.texts =
          visit.request ++ (encodeAll frames ++ closing.encode) := by
  rcases connects with ⟨sock, complete, fresh, incoming, made⟩
  rcases connect_of_response proper complete fresh incoming
    with ⟨recvCalls, sendCalls, connected⟩
  have atEnd :=
    congrArg WsClient.sock (Except.ok.inj (made.symm.trans connected))
  rcases session_frames visit.texts proper.bounded atEnd complete with
    ⟨frames, after, areTexts, payloads, writes, ended, stillComplete, written⟩
  refine ⟨frames,
    closeFrame (maskOf (prngNext (sendAllTexts ws visit.texts).rngState)),
    areTexts, rfl, payloads, writes, ?_⟩
  rw [clientStream, wsClose_outgoing ended stillComplete, written,
    Option.getD_some, List.append_assoc]

/-- How many of the texts arrive whole when only the first `count` bytes of the
stream do. -/
def wholeTexts (visit : Visit) (ws : WsClient) (count : Nat) : Nat :=
  arrived (count - visit.request.length)
    ((sessionWrites ws visit.texts).map List.length)

/-- A text arrives when its frame and all that is before it do. -/
theorem le_wholeTexts_iff
    {visit : Visit} (proper : visit.Proper) {ws : WsClient}
    (connects : visit.Connects ws) (count : Nat) {index : Nat}
    (bounded : index ≤ visit.texts.length) :
    index ≤ wholeTexts visit ws count ↔
      ((sessionWrites ws visit.texts).take index).flatten.length ≤
        count - visit.request.length := by
  rcases clientStream_of_connects proper connects
    with ⟨frames, closing, areTexts, isClose, payloads, writes, stream⟩
  have frames_length : frames.length = visit.texts.length := by
    rw [← payloads, List.length_map]
  rw [wholeTexts, writes,
    le_arrived_iff _ _ (by simpa [frames_length] using bounded),
    List.length_flatten, List.map_take]

/-- What the server makes of the stream of a visit. -/
theorem serve_of_connects
    {visit : Visit} (proper : visit.Proper) {ws : WsClient}
    (connects : visit.Connects ws) (segmentation : Segmentation) (count : Nat)
    {loads : Nat} (enough : visit.texts.length < loads) :
    let stream := clientStream ws visit.texts
    let served :=
      serve loads (Sock.receiving (stream.take count) segmentation)
    served.callbacks =
        nonempty (visit.texts.take (wholeTexts visit ws count)) ∧
      served.EndsItself ∧
      (stream.length ≤ count → served.sock.outgoing = visit.response) := by
  rcases clientStream_of_connects proper connects
    with ⟨frames, closing, areTexts, isClose, payloads, writes, stream⟩
  have frames_length : frames.length = visit.texts.length := by
    rw [← payloads, List.length_map]
  rw [← frames_length] at enough
  rcases serve_of_stream proper areTexts isClose enough
      (Sock.receiving_sendsComplete _ segmentation)
      (congrArg (List.take count) stream)
    with ⟨callbacks, ending⟩
  refine ⟨callbacks.trans ?_, ending, fun everything => ?_⟩
  · rw [wholeTexts, writes, List.map_map, ← payloads, ← List.map_take]
    rfl
  · rw [List.take_of_length_le everything]
    exact serve_outgoing proper areTexts isClose enough
      (Sock.receiving_sendsComplete _ segmentation) rfl stream

/-- Two texts and an empty one, sent by a client on the first second. -/
def sampleVisit : Visit where
  host := ascii "h"
  port := 80
  path := none
  time := 0
  pid := 1
  texts := [ascii "one", [], ascii "two"]

theorem sampleVisit_proper : sampleVisit.Proper where
  hostLine := by decide
  pathLine := by decide
  short := by decide +kernel
  bounded := by decide

/-- What the client of the sample reads. -/
def sampleAnswer : Client.WsTransport.Socket :=
  Sock.receiving sampleVisit.response Segmentation.single

/-- Who the server takes a connection from: a client of this program, whose
stream breaks somewhere, or anyone else. -/
inductive Peer
  | client (visit : Visit) (ws : WsClient) (segmentation : Segmentation)
      (count loads : Nat)
  | other (sock : Server.WsSubscriber.Socket) (loads : Nat)

/-- The connection as the server sees it. -/
def Peer.connection : Peer → Server.WsSubscriber.Socket × Nat
  | .client visit ws segmentation count loads =>
      (Sock.receiving ((clientStream ws visit.texts).take count) segmentation,
        loads)
  | .other sock loads => (sock, loads)

/-- A client is connected, and `stop` comes after its texts.  To anyone else no
`send` fails: one on a broken connection would raise a signal. -/
def Peer.Proper : Peer → Prop
  | .client visit ws _ _ loads =>
      visit.Proper ∧ visit.Connects ws ∧ visit.texts.length < loads
  | .other sock _ => sock.SendsComplete

/-- What the server hands on from this peer. -/
def Peer.delivers : Peer → List Bytes
  | .client visit ws _ count _ =>
      nonempty (visit.texts.take (wholeTexts visit ws count))
  | .other sock loads => (serve loads sock).callbacks

/-- Behind its request, the peer announces a length of 2^63 bytes or more. -/
def Peer.TooLong : Peer → Prop
  | .client .. => False
  | .other sock loads =>
      (Server.WsHandshake.doHandshake sock).1 = true ∧
        TooLongBehind loads (Server.WsHandshake.doHandshake sock).2.incoming

/-- The peers that the server gets to: all of them, or those up to the first
stranger whose connection ends by `stop` or by an exception. -/
def servedPeers : List Peer → List Peer
  | [] => []
  | .client visit ws segmentation count loads :: more =>
      .client visit ws segmentation count loads :: servedPeers more
  | .other sock loads :: more =>
      if (serve loads sock).EndsItself then
        .other sock loads :: servedPeers more
      else [.other sock loads]

/-- A client's connection ends by itself wherever it breaks, and delivers what
is whole. -/
theorem serve_of_client
    {visit : Visit} {ws : WsClient} {segmentation : Segmentation}
    {count loads : Nat}
    (proper : (Peer.client visit ws segmentation count loads).Proper) :
    let peer := Peer.client visit ws segmentation count loads
    (serve peer.connection.2 peer.connection.1).callbacks = peer.delivers ∧
      (serve peer.connection.2 peer.connection.1).EndsItself := by
  rcases proper with ⟨visitProper, connects, enough⟩
  rcases serve_of_connects visitProper connects segmentation count enough
    with ⟨callbacks, ending, -⟩
  exact ⟨callbacks, ending⟩

/-- What is handed on from a peer. -/
theorem callbacks_of_proper {peer : Peer} (proper : peer.Proper) :
    (serve peer.connection.2 peer.connection.1).callbacks = peer.delivers := by
  cases peer with
  | client => exact (serve_of_client proper).1
  | other => rfl

/-- The exception is a matter of what the peer announces. -/
theorem throws_iff_tooLong {peer : Peer} (proper : peer.Proper) :
    (serve peer.connection.2 peer.connection.1).ending = some .lengthError ↔
      peer.TooLong := by
  cases peer with
  | client =>
      refine iff_of_false ?_ id
      rcases (serve_of_client proper).2 with failed | disconnected
      · simp [failed]
      · simp [disconnected]
  | other sock loads =>
      rw [Peer.TooLong, ← frameLoop_throws_iff_tooLong]
      simp only [Peer.connection, serve]
      rcases Server.WsHandshake.doHandshake sock with ⟨ok, after⟩
      cases ok with
      | false => simp
      | true => simp

theorem reached_eq_servedPeers
    {peers : List Peer} (proper : ∀ peer ∈ peers, peer.Proper) :
    reached Peer.connection peers = servedPeers peers := by
  induction peers with
  | nil => rfl
  | cons peer more induction =>
      rcases List.forall_mem_cons.mp proper with ⟨here, later⟩
      cases peer with
      | client =>
          rw [reached, if_pos (serve_of_client here).2, induction later,
            servedPeers]
      | other => rw [reached, induction later, servedPeers]; rfl

/-- A stranger who announces 2^63 bytes behind its request. -/
def hugeStranger : Server.WsSubscriber.Socket :=
  Sock.receiving
    (sampleVisit.request ++ Server.BufferReaders.hugeHeader)
    Segmentation.single

/-- A client whose stream breaks in its texts, someone who says no more than
the start of a request, and the stranger with 2^63 bytes. -/
def samplePeers (ws : WsClient) : List Peer :=
  [.client sampleVisit ws Segmentation.single 180 4,
    .other (Sock.receiving (ascii "GET") Segmentation.single) 1,
    .other hugeStranger 1]

theorem samplePeers_proper
    {ws : WsClient} (connects : sampleVisit.Connects ws) :
    ∀ peer ∈ samplePeers ws, peer.Proper := by
  simp only [samplePeers, List.forall_mem_cons, List.not_mem_nil,
    IsEmpty.forall_iff, implies_true, and_true]
  exact ⟨⟨sampleVisit_proper, connects, by decide⟩,
    Sock.receiving_sendsComplete _ _, Sock.receiving_sendsComplete _ _⟩

/-- The server gets to all of them. -/
theorem servedPeers_samplePeers (ws : WsClient) :
    servedPeers (samplePeers ws) = samplePeers ws := by
  have endsItself :
      (serve 1
        (Sock.receiving (ascii "GET") Segmentation.single)).EndsItself :=
    Or.inl rfl
  rw [samplePeers, servedPeers, servedPeers, if_pos endsItself, servedPeers,
    servedPeers, ite_self]

theorem hugeStranger_tooLong : (Peer.other hugeStranger 1).TooLong := by
  rcases doHandshake_of_request sampleVisit_proper
      (Sock.receiving_sendsComplete _ _)
      (show hugeStranger.incoming =
        sampleVisit.request ++ Server.BufferReaders.hugeHeader from rfl)
    with ⟨recvCalls, sendCalls, answered⟩
  rw [Peer.TooLong, hugeStranger, answered]
  refine ⟨rfl, [], _, rfl, Nat.one_pos, fun _ member => ?_, ?_⟩
  · exact absurd member List.not_mem_nil
  · exact ⟨_, _, _, rfl, by decide, by decide⟩

end AccelObserver.EndToEnd.Session
