import AccelObserver.Client.WsHandshake
import AccelObserver.Server.WsHandshake

/-!
# The opening handshake, end to end

The client's `do_handshake` against that of `WsSubscriber`.  The client writes
its request before it reads, so the bytes of either party are determined by
the other's: the request by the generator and the address, the answer by the
request.

The server looks for the text of a header anywhere in a line, and a host can
contain it; but the line with the key comes later, and the last one counts.
-/

namespace AccelObserver.EndToEnd.Handshake

open AccelObserver.Library
open AccelObserver.Library.Channel
open AccelObserver.Library.Lines
open AccelObserver.Library.Text
open AccelObserver.Crypto
open AccelObserver.Client.WsHandshake hiding doHandshake wsGuid
open AccelObserver.Server.WsHandshake hiding doHandshake wsGuid

/-! ## The bytes of an encoded text -/

theorem base64_not_mem
    {byte : UInt8} (other : Base64.isBase64Byte byte = false) (data : Bytes) :
    byte ∉ Base64.base64Encode data := by
  intro member
  rw [Base64.isBase64Byte_of_mem member] at other
  cases other

/-- No byte of an encoded text is trimmed. -/
theorem base64_not_trimmed
    {byte : UInt8} {data : Bytes} (member : byte ∈ Base64.base64Encode data) :
    isWsChar byte = false := by
  rw [← Bool.not_eq_true]
  intro trimmed
  simp only [isWsChar, Bool.or_eq_true, beq_iff_eq] at trimmed
  rcases trimmed with ((rfl | rfl) | rfl) | rfl
  · exact base64_not_mem (by decide) data member
  · exact base64_not_mem (by decide) data member
  · exact base64_not_mem (by decide) data member
  · exact base64_not_mem (by decide) data member

/-! ## The accept value -/

theorem nonceB64_length (rngState : UInt32) :
    (nonceB64 rngState).length = 24 := by
  have count (count : Nat) : ∀ rngState,
      (nonceRaw count rngState).1.length = count := by
    induction count with
    | zero => exact fun _ => rfl
    | succ count induction =>
        intro rngState
        simp [nonceRaw, induction]
  rw [nonceB64, Base64.base64Encode_length, count]
  rfl

/-- The buffer of the client is large enough for the key and the GUID. -/
theorem expectedAccept_whole {nonce : Bytes} (short : nonce.length ≤ 91) :
    expectedAccept nonce =
      Base64.base64Encode
        (Sha1.sha1Compute (nonce ++ Client.WsHandshake.wsGuid)) := by
  have fits : (nonce ++ Client.WsHandshake.wsGuid).length ≤ 127 := by
    have guidLength : Client.WsHandshake.wsGuid.length = 36 := by decide
    rw [List.length_append, guidLength]
    exact Nat.add_le_add_right short 36
  rw [expectedAccept, List.take_of_length_le fits]

theorem expectedAccept_eq
    {nonce : Bytes} (short : nonce.length ≤ 91) :
    expectedAccept nonce = computeAcceptKey nonce := by
  rw [expectedAccept_whole short, computeAcceptKey,
    Base64.base64EncodeImpl_eq, Sha1.sha1ComputeLocal_eq]
  rfl

theorem wsAcceptKey_eq (key : Bytes) :
    wsAcceptKey key = computeAcceptKey key := rfl

theorem expectedAccept_length (nonce : Bytes) :
    (expectedAccept nonce).length = 28 := by
  rw [expectedAccept, Base64.base64Encode_length, Sha1.sha1Compute_length]
  rfl

theorem base64_not_blank
    {byte : UInt8} {data : Bytes} (member : byte ∈ Base64.base64Encode data) :
    isBlank byte = false := by
  have kept := base64_not_trimmed member
  simp only [isWsChar, Bool.or_eq_false_iff] at kept
  simp only [isBlank, kept, Bool.or_self]

/-! ## The client's request -/

/-- The headers of the request. -/
def requestHeaders (host : Bytes) (port : UInt16) (nonce : Bytes) :
    List Bytes :=
  [ascii "Host: " ++ host ++ ascii ":" ++ Decimal.decimal port.toNat,
    ascii "Upgrade: websocket", ascii "Connection: Upgrade",
    ascii "Sec-WebSocket-Key: " ++ nonce, ascii "Sec-WebSocket-Version: 13"]

/-- The request is made of lines. -/
theorem requestText_eq
    (path host : Bytes) (port : UInt16) (nonce : Bytes) :
    requestText path host port nonce =
      crlf (ascii "GET " ++ path ++ ascii " HTTP/1.1") ++
        ((requestHeaders host port nonce).flatMap crlf ++ crlf []) := by
  simp [requestText, requestHeaders, crlf, ascii]

/-! ## The server's answer -/

/-- The last line with the name of the key decides, and it is the client's. -/
theorem foldl_readHeader
    (host : Bytes) (port : UInt16) {nonce : Bytes}
    (notTrimmed : ∀ byte ∈ nonce, isWsChar byte = false) :
    (requestHeaders host port nonce).foldl readHeader [] = nonce := by
  have version (wsKey : Bytes) :
      readHeader wsKey (ascii "Sec-WebSocket-Version: 13") = wsKey := by
    have noKey :
        (occurs (ascii "Sec-WebSocket-Key:")
          (ascii "Sec-WebSocket-Version: 13") ||
          occurs (ascii "Sec-Websocket-Key:")
            (ascii "Sec-WebSocket-Version: 13")) = false := by
      decide +kernel
    simp only [readHeader, noKey, Bool.false_eq_true, if_false]
  simp only [requestHeaders, List.foldl_cons, List.foldl_nil,
    readHeader_key notTrimmed, version]

theorem requestLine_oneLine {path : Bytes} (pathLine : 10 ∉ path) :
    10 ∉ ascii "GET " ++ path ++ ascii " HTTP/1.1" := by
  simp only [List.mem_append, not_or]
  exact ⟨⟨by decide, pathLine⟩, by decide⟩

/-- No header of the request holds a line feed. -/
theorem requestHeaders_oneLine
    {host : Bytes} (hostLine : 10 ∉ host) (port : UInt16)
    {nonce : Bytes} (nonceLine : 10 ∉ nonce) :
    ∀ line ∈ requestHeaders host port nonce, 10 ∉ line := by
  have portLine : 10 ∉ Decimal.decimal port.toNat :=
    Decimal.not_mem_digits (by decide) (Decimal.digits_small _)
  have fixed (text : String) (noFeed : (ascii text).contains 10 = false) :
      10 ∉ ascii text := by
    simpa using noFeed
  intro line member
  simp only [requestHeaders, List.mem_cons, List.not_mem_nil, or_false]
    at member
  rcases member with rfl | rfl | rfl | rfl | rfl
  · simp only [List.mem_append, not_or]
    exact ⟨⟨⟨fixed _ (by decide), hostLine⟩, fixed _ (by decide)⟩, portLine⟩
  · exact fixed _ (by decide)
  · exact fixed _ (by decide)
  · simp only [List.mem_append, not_or]
    exact ⟨fixed _ (by decide), nonceLine⟩
  · exact fixed _ (by decide)

theorem requestHeaders_ne_nil
    (host : Bytes) (port : UInt16) (nonce : Bytes) :
    ∀ line ∈ requestHeaders host port nonce, line ≠ [] := by
  intro line member
  simp only [requestHeaders, List.mem_cons, List.not_mem_nil, or_false]
    at member
  rcases member with rfl | rfl | rfl | rfl | rfl <;> simp [ascii]

/-! ## The client's check -/

/-- The headers of the answer. -/
def responseHeaders (accept : Bytes) : List Bytes :=
  [ascii "Upgrade: websocket", ascii "Connection: Upgrade",
    ascii "Sec-WebSocket-Accept: " ++ accept]

/-- The answer is made of lines. -/
theorem responseText_eq (accept : Bytes) :
    responseText accept =
      crlf (ascii "HTTP/1.1 101 Switching Protocols") ++
        ((responseHeaders accept).flatMap crlf ++ crlf []) := by
  simp [responseText, responseHeaders, crlf, ascii]

/-- What holds of the three headers holds of every one. -/
theorem forall_responseHeaders
    {holds : Bytes → Prop} {accept : Bytes}
    (upgrade : holds (ascii "Upgrade: websocket"))
    (connection : holds (ascii "Connection: Upgrade"))
    (value : holds (ascii "Sec-WebSocket-Accept: " ++ accept)) :
    ∀ line ∈ responseHeaders accept, holds line := by
  intro line member
  simp only [responseHeaders, List.mem_cons, List.not_mem_nil, or_false]
    at member
  rcases member with rfl | rfl | rfl
  · exact upgrade
  · exact connection
  · exact value

/-- The client reads every header of an answer whole. -/
theorem responseHeaders_readable
    {accept : Bytes} (acceptLine : 10 ∉ accept)
    (short : accept.length < 64) :
    ∀ line ∈ responseHeaders accept,
      line ≠ [] ∧ Reads netRecvLine line := by
  apply forall_responseHeaders
  · exact ⟨by decide, reads_netRecvLine (by decide) (by decide)⟩
  · exact ⟨by decide, reads_netRecvLine (by decide) (by decide)⟩
  · constructor
    · simp [ascii]
    · apply reads_netRecvLine
      · simp only [List.mem_append, not_or]
        exact ⟨by decide, acceptLine⟩
      · have name : (ascii "Sec-WebSocket-Accept: ").length = 22 := by decide
        rw [List.length_append, name]
        omega

/-- The answer with the expected value passes every check. -/
theorem checkReply_responseHeaders (nonce : Bytes) :
    checkReply
      ((responseHeaders (expectedAccept nonce)).foldl readReplyHeader
        { gotUpgrade := false, gotConnection := false, serverAccept := [] })
      nonce = .wsOk := by
  have upgrade (headers : ReplyHeaders) :
      (readReplyHeader headers
        (ascii "Upgrade: websocket")).gotUpgrade = true := by
    have named :
        (istrContains (ascii "Upgrade: websocket") (ascii "upgrade:") &&
          istrContains (ascii "Upgrade: websocket") (ascii "websocket")) =
          true := by
      decide +kernel
    simp only [readReplyHeader, named, Bool.true_or]
  have connection (headers : ReplyHeaders) :
      (readReplyHeader headers
        (ascii "Connection: Upgrade")).gotConnection = true := by
    have named :
        (istrContains (ascii "Connection: Upgrade") (ascii "connection:") &&
          istrContains (ascii "Connection: Upgrade") (ascii "upgrade")) =
          true := by
      decide +kernel
    simp only [readReplyHeader, named, Bool.true_or]
  have accept (headers : ReplyHeaders) :
      (readReplyHeader headers
        (ascii "Sec-WebSocket-Accept: " ++
          expectedAccept nonce)).serverAccept = expectedAccept nonce := by
    apply readReplyHeader_accept
    · exact base64_not_mem (by decide) _
    · exact fun byte member => base64_not_blank member
    · exact fun byte member => base64_not_trimmed member
    · rw [expectedAccept_length]
      decide
  simp only [responseHeaders, List.foldl_cons, List.foldl_nil]
  apply checkReply_of_complete
  · apply readReplyHeader_gotUpgrade
    apply readReplyHeader_gotUpgrade
    apply upgrade
  · apply readReplyHeader_gotConnection
    apply connection
  · rw [accept]
    exact List.ne_nil_of_length_pos (by rw [expectedAccept_length]; decide)
  · apply accept

/-- The client takes the answer, and accepts it. -/
theorem readReply_response
    {nonce : Bytes} (sock : Sock UInt8) {later : Bytes}
    (incoming :
      sock.incoming = responseText (expectedAccept nonce) ++ later) :
    ∃ recvCalls,
      readReply nonce sock =
        (.wsOk, { sock with incoming := later, recvCalls := recvCalls }) := by
  have short : (expectedAccept nonce).length < 64 := by
    rw [expectedAccept_length]
    decide
  have acceptLine : 10 ∉ expectedAccept nonce := base64_not_mem (by decide) _
  have readable := responseHeaders_readable acceptLine short
  rw [responseText_eq, List.append_assoc, List.append_assoc (List.flatMap ..)]
    at incoming
  have status :
      Reads netRecvLine (ascii "HTTP/1.1 101 Switching Protocols") :=
    reads_netRecvLine (by decide) (by decide)
  exact readReply_of_lines status
    (fun line member => (readable line member).2)
    (fun line member => (readable line member).1)
    (by decide +kernel) (checkReply_responseHeaders nonce) incoming

/-! ## Both together -/

/-- What the two programs do with each other's bytes, in any pieces. -/
structure Agreement
    (rngState : UInt32) (host : Bytes) (port : UInt16) (path : Bytes)
    (request response : Bytes) : Prop where
  /-- The client writes the request before it reads, whatever it reads. -/
  clientWrites :
    ∀ sock : Sock UInt8, sock.SendsComplete →
      (Client.WsHandshake.doHandshake sock rngState host port path).2.sock.map
          Sock.outgoing =
        some (sock.outgoing ++ request)
  /-- The server returns true, with the request read and answered. -/
  serverAnswers :
    ∀ (client : Sock UInt8) (later : Bytes), client.SendsComplete →
      client.incoming = request ++ later →
      ∃ recvCalls sendCalls,
        Server.WsHandshake.doHandshake client =
          (true,
            { client with
              incoming := later
              recvCalls := recvCalls
              outgoing := client.outgoing ++ response
              sendCalls := sendCalls })
  /-- The client returns `WS_OK`, with the response read. -/
  clientAccepts :
    ∀ (sock : Sock UInt8) (later : Bytes), sock.SendsComplete →
      sock.incoming = response ++ later →
      ∃ recvCalls sendCalls,
        Client.WsHandshake.doHandshake sock rngState host port path =
          (.wsOk,
            { sock :=
                some
                  { sock with
                    incoming := later
                    recvCalls := recvCalls
                    outgoing := sock.outgoing ++ request
                    sendCalls := sendCalls }
              rngState := (nonceRaw 16 rngState).2 })
  /-- The three accept values are one. -/
  acceptValues :
    expectedAccept (nonceB64 rngState) =
        computeAcceptKey (nonceB64 rngState) ∧
      computeAcceptKey (nonceB64 rngState) = wsAcceptKey (nonceB64 rngState)

/--
The opening handshake succeeds on both sides.  A host or a path with a line
feed would end its line early; every other byte is harmless.
-/
theorem handshake_agrees
    (rngState : UInt32) (port : UInt16) {host path : Bytes}
    (hostLine : 10 ∉ host) (pathLine : 10 ∉ path)
    (short :
      (requestText path host port (nonceB64 rngState)).length < 1024) :
    ∃ request response, Agreement rngState host port path request response := by
  have nonceLength := nonceB64_length rngState
  have nonceLine : 10 ∉ nonceB64 rngState := base64_not_mem (by decide) _
  have key :
      (requestHeaders host port (nonceB64 rngState)).foldl readHeader [] =
        nonceB64 rngState :=
    foldl_readHeader host port fun byte member => base64_not_trimmed member
  have hasKey :
      (requestHeaders host port (nonceB64 rngState)).foldl readHeader [] ≠
        [] := by
    rw [key]
    exact List.ne_nil_of_length_pos (by rw [nonceLength]; decide)
  have sameAccept :
      expectedAccept (nonceB64 rngState) =
        computeAcceptKey (nonceB64 rngState) :=
    expectedAccept_eq (by rw [nonceLength]; decide)
  refine
    ⟨requestText path host port (nonceB64 rngState),
      responseText (expectedAccept (nonceB64 rngState)), ?_⟩
  constructor
  · intro sock complete
    rcases doHandshake_of_short complete short with ⟨sendCalls, handshake⟩
    rw [handshake, Option.map_some, readReply_outgoing]
  · intro client later complete incoming
    rw [requestText_eq, List.append_assoc, List.append_assoc (List.flatMap ..)]
      at incoming
    have answered :=
      doHandshake_of_lines complete (requestLine_oneLine pathLine)
        (requestHeaders_oneLine hostLine port nonceLine)
        (requestHeaders_ne_nil host port _) hasKey incoming
    rw [key, ← sameAccept] at answered
    exact answered
  · intro sock later complete incoming
    rcases doHandshake_of_short complete short with ⟨sendCalls, handshake⟩
    rcases readReply_response
        { sock with
          outgoing :=
            sock.outgoing ++ requestText path host port (nonceB64 rngState)
          sendCalls := sendCalls }
        incoming
      with ⟨recvCalls, accepted⟩
    exact ⟨recvCalls, sendCalls, by rw [handshake, accepted]⟩
  · exact ⟨sameAccept, (wsAcceptKey_eq _).symm⟩

/-- A host that looks like the header with the key. -/
theorem handshake_agrees_headerLike :
    ∃ request response,
      Agreement 1 (ascii "Sec-WebSocket-Key: none") 8080 (ascii "/ws")
        request response :=
  handshake_agrees 1 8080 (by decide) (by decide) (by decide +kernel)

end AccelObserver.EndToEnd.Handshake
