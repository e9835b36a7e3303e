import AccelObserver.Client.WsTransport
import AccelObserver.Crypto.Base64
import AccelObserver.Crypto.Sha1
import AccelObserver.Library.CString
import AccelObserver.Library.Lines
import AccelObserver.Library.Text
import Mathlib.Data.List.DropRight

/-!
# The WebSocket client: the opening handshake

`do_handshake` of `ws_client.c` with its helpers.  The request goes out before
anything is read; the answer is read line by line into a buffer of 2048 bytes.

A line that was read can hold a NUL, and the functions that search it stop
there.
-/

namespace AccelObserver.Client.WsHandshake

open AccelObserver.Library
open AccelObserver.Library.CNumber (toLower)
open AccelObserver.Library.CString (cText cText_of_not_mem)
open AccelObserver.Library.Text
open AccelObserver.Client.WsTransport
open AccelObserver.Crypto.Base64 (base64Encode)
open AccelObserver.Crypto.Sha1 (sha1Compute)

/-- The members of `ws_error_code_t` that `do_handshake` can return. -/
inductive HandshakeCode
  | wsOk
  | wsErrParam
  | wsErrNet
  | wsErrHandshake
  deriving DecidableEq, Repr

/-! ## Texts -/

/-- `istr_contains` -/
def istrContains (haystack needle : Bytes) : Bool :=
  occurs (needle.map toLower) ((cText haystack).map toLower)

/-- A blank or a tab. -/
def isBlank (byte : UInt8) : Bool :=
  byte == 32 || byte == 9

/-- What is trimmed behind a header value. -/
def isTrailing (byte : UInt8) : Bool :=
  byte == 32 || byte == 9 || byte == 13 || byte == 10

/-- `extract_header_value`; `none` is false, which leaves `out` as it was. -/
def extractHeaderValue (line name : Bytes) (outSize : Nat) : Option Bytes :=
  if istrContains line name then
    match findAfter (ascii ":") (cText line) with
    | none => none
    | some colon =>
        let value := (colon.dropWhile isBlank).rdropWhile isTrailing
        if outSize ≤ value.length then none else some value
  else none

/-! ## The request -/

/-- `count` bytes of the nonce, and the state of the generator behind them. -/
def nonceRaw : Nat → UInt32 → Bytes × UInt32
  | 0, rngState => ([], rngState)
  | count + 1, rngState =>
      let rngState := prngNext rngState
      let (more, last) := nonceRaw count rngState
      ((rngState &&& 0xFF).toUInt8 :: more, last)

/-- `nonce_b64` -/
def nonceB64 (rngState : UInt32) : Bytes :=
  base64Encode (nonceRaw 16 rngState).1

/-- `request`, before it is cut to the size of its buffer. -/
def requestText (path host : Bytes) (port : UInt16) (nonce : Bytes) : Bytes :=
  ascii "GET " ++ path ++ ascii " HTTP/1.1\r\n" ++
    (ascii "Host: " ++ host ++ ascii ":" ++ Decimal.decimal port.toNat ++
      ascii "\r\n") ++
    ascii "Upgrade: websocket\r\n" ++
    ascii "Connection: Upgrade\r\n" ++
    (ascii "Sec-WebSocket-Key: " ++ nonce ++ ascii "\r\n") ++
    ascii "Sec-WebSocket-Version: 13\r\n" ++
    ascii "\r\n"

/-- `WS_GUID` -/
def wsGuid : Bytes :=
  ascii "258EAFA5-E914-47DA-95CA-C5AB0DC85B11"

/-- `expected_accept`; `snprintf` keeps 127 bytes of its input. -/
def expectedAccept (nonce : Bytes) : Bytes :=
  base64Encode (sha1Compute ((nonce ++ wsGuid).take 127))

/-! ## The answer -/

/-- `net_recv_line` with a buffer of `HTTP_LINE_MAX` bytes. -/
def netRecvLine (sock : Socket) : Option Bytes × Socket :=
  Lines.recvLine some 2047 [] sock

/-- What the loop over the headers remembers. -/
structure ReplyHeaders where
  gotUpgrade : Bool
  gotConnection : Bool
  serverAccept : Bytes

/-- The body of the loop over the headers. -/
def readReplyHeader (headers : ReplyHeaders) (line : Bytes) : ReplyHeaders where
  gotUpgrade :=
    (istrContains line (ascii "upgrade:") &&
      istrContains line (ascii "websocket")) || headers.gotUpgrade
  gotConnection :=
    (istrContains line (ascii "connection:") &&
      istrContains line (ascii "upgrade")) || headers.gotConnection
  serverAccept :=
    if istrContains line (ascii "sec-websocket-accept:") then
      (extractHeaderValue line (ascii "sec-websocket-accept:") 64).getD
        headers.serverAccept
    else headers.serverAccept

/-- The checks behind the loop. -/
def checkReply (headers : ReplyHeaders) (nonce : Bytes) : HandshakeCode :=
  if ¬ headers.gotUpgrade then .wsErrHandshake
  else if ¬ headers.gotConnection then .wsErrHandshake
  else if headers.serverAccept = [] then .wsErrHandshake
  else if headers.serverAccept ≠ expectedAccept nonce then .wsErrHandshake
  else .wsOk

/--
From the status line on.  A round of the loop takes a byte off the stream, so
the bytes that are left bound the rounds.
-/
def readReply (nonce : Bytes) (sock : Socket) : HandshakeCode × Socket :=
  match netRecvLine sock with
  | (none, sock) => (.wsErrNet, sock)
  | (some line, sock) =>
      if istrContains line (ascii "101") then
        match
          Lines.foldLines netRecvLine readReplyHeader
            (sock.incoming.length + 1)
            { gotUpgrade := false, gotConnection := false, serverAccept := [] }
            sock with
        | (false, _, sock) => (.wsErrNet, sock)
        | (true, headers, sock) => (checkReply headers nonce, sock)
      else (.wsErrHandshake, sock)

/-- `do_handshake`, on the socket and the generator of a client. -/
def doHandshake
    (sock : Socket) (rngState : UInt32) (host : Bytes) (port : UInt16)
    (path : Bytes) : HandshakeCode × WsClient :=
  let after := (nonceRaw 16 rngState).2
  let nonce := nonceB64 rngState
  let request := requestText path host port nonce
  if 1024 ≤ request.length then
    (.wsErrParam, { sock := some sock, rngState := after })
  else
    match netSendExact sock request with
    | (false, sock) => (.wsErrNet, { sock := some sock, rngState := after })
    | (true, sock) =>
        let (code, sock) := readReply nonce sock
        (code, { sock := some sock, rngState := after })

/-! ## Reading the answer -/

/-- A line that leaves room for its end is read whole. -/
theorem reads_netRecvLine
    {line : Bytes} (oneLine : 10 ∉ line) (short : line.length + 1 < 2047) :
    Lines.Reads netRecvLine line :=
  Lines.reads_of_not_mem oneLine some (fun _ => 2047) fun _ _ _ => short

/-- Nothing is written while the answer is read. -/
theorem readReply_outgoing (nonce : Bytes) (sock : Socket) :
    (readReply nonce sock).2.outgoing = sock.outgoing := by
  have quiet (sock : Socket) :
      (netRecvLine sock).2.outgoing = sock.outgoing :=
    Lines.recvLine_outgoing some 2047 [] sock
  have unchanged := quiet sock
  rw [readReply]
  cases read : netRecvLine sock with
  | mk answer after =>
      rw [read] at unchanged
      cases answer with
      | none => exact unchanged
      | some line =>
          by_cases status : istrContains line (ascii "101") = true
          · have folded :=
              Lines.foldLines_outgoing quiet readReplyHeader
                (after.incoming.length + 1)
                { gotUpgrade := false
                  gotConnection := false
                  serverAccept := [] }
                after
            simp only [if_pos status]
            split
            · rename_i result
              rw [result] at folded
              exact folded.trans unchanged
            · rename_i result
              rw [result] at folded
              exact folded.trans unchanged
          · simp only [if_neg status]
            exact unchanged

/-- Where all the answers are there, the handshake has succeeded. -/
theorem checkReply_of_complete
    {headers : ReplyHeaders} {nonce : Bytes}
    (upgrade : headers.gotUpgrade = true)
    (connection : headers.gotConnection = true)
    (nonempty : headers.serverAccept ≠ [])
    (accept : headers.serverAccept = expectedAccept nonce) :
    checkReply headers nonce = .wsOk := by
  rw [checkReply, if_neg (not_not.mpr upgrade),
    if_neg (not_not.mpr connection), if_neg nonempty,
    if_neg (not_not.mpr accept)]

/-- No later line takes back what an earlier one has said. -/
theorem readReplyHeader_gotUpgrade
    {headers : ReplyHeaders} (upgrade : headers.gotUpgrade = true)
    (line : Bytes) : (readReplyHeader headers line).gotUpgrade = true := by
  simp only [readReplyHeader, upgrade, Bool.or_true]

theorem readReplyHeader_gotConnection
    {headers : ReplyHeaders} (connection : headers.gotConnection = true)
    (line : Bytes) : (readReplyHeader headers line).gotConnection = true := by
  simp only [readReplyHeader, connection, Bool.or_true]

/-- A short value without bytes to trim is stored as it is. -/
theorem readReplyHeader_accept
    {value : Bytes} (noNul : 0 ∉ value)
    (notBlank : ∀ byte ∈ value, isBlank byte = false)
    (notTrailing : ∀ byte ∈ value, isTrailing byte = false)
    (short : value.length < 64) (headers : ReplyHeaders) :
    (readReplyHeader headers
      (ascii "Sec-WebSocket-Accept: " ++ value)).serverAccept = value := by
  have whole :
      cText (ascii "Sec-WebSocket-Accept: " ++ value) =
        ascii "Sec-WebSocket-Accept: " ++ value := by
    have nameNoNul : 0 ∉ ascii "Sec-WebSocket-Accept: " := by decide
    apply cText_of_not_mem
    intro member
    rcases List.mem_append.mp member with inName | inValue
    · exact nameNoNul inName
    · exact noNul inValue
  have contained :
      istrContains (ascii "Sec-WebSocket-Accept: " ++ value)
        (ascii "sec-websocket-accept:") = true := by
    rw [istrContains, whole, List.map_append]
    exact occurs_append_self _ _ (32 :: value.map toLower)
  have colon :
      findAfter (ascii ":") (ascii "Sec-WebSocket-Accept: " ++ value) =
        some (32 :: value) := by
    have noColon : 58 ∉ ascii "Sec-WebSocket-Accept" := by decide
    have split :
        ascii "Sec-WebSocket-Accept: " =
          ascii "Sec-WebSocket-Accept" ++ [58, 32] := by decide
    apply findAfter_of_eq_append noColon
    rw [split, List.append_assoc]
    rfl
  have trimmed :
      ((32 :: value).dropWhile isBlank).rdropWhile isTrailing = value :=
    trim_of_forall notBlank notTrailing
  simp only [readReplyHeader, extractHeaderValue, contained, if_true, whole,
    colon, trimmed, if_neg (Nat.not_le_of_lt short), Option.getD_some]

/-- An answer whose lines hold what is checked is read to its end. -/
theorem readReply_of_lines
    {nonce : Bytes} {sock : Socket}
    {status : Bytes} {lines : List Bytes} {later : Bytes}
    (statusReadable : Lines.Reads netRecvLine status)
    (readable : ∀ line ∈ lines, Lines.Reads netRecvLine line)
    (nonempty : ∀ line ∈ lines, line ≠ [])
    (switching : istrContains status (ascii "101") = true)
    (complete :
      checkReply
        (lines.foldl readReplyHeader
          { gotUpgrade := false, gotConnection := false, serverAccept := [] })
        nonce = .wsOk)
    (incoming :
      sock.incoming =
        Lines.crlf status ++
          (lines.flatMap Lines.crlf ++ (Lines.crlf [] ++ later))) :
    ∃ recvCalls,
      readReply nonce sock =
        (.wsOk, { sock with incoming := later, recvCalls := recvCalls }) := by
  rcases statusReadable sock _ incoming with ⟨firstCalls, first⟩
  rcases Lines.foldLines_of_incoming readReplyHeader readable nonempty
      (reads_netRecvLine List.not_mem_nil (by decide))
      { gotUpgrade := false, gotConnection := false, serverAccept := [] }
      { sock with
        incoming := lines.flatMap Lines.crlf ++ (Lines.crlf [] ++ later)
        recvCalls := firstCalls }
      rfl
    with ⟨recvCalls, folded⟩
  refine ⟨recvCalls, ?_⟩
  simp only [readReply, first, if_pos switching, folded, complete]

/-- A request that fits its buffer goes out, and the answer decides. -/
theorem doHandshake_of_short
    {sock : Socket} (complete : sock.SendsComplete)
    {rngState : UInt32} {host path : Bytes} {port : UInt16}
    (short :
      (requestText path host port (nonceB64 rngState)).length < 1024) :
    ∃ sendCalls,
      let sent :=
        { sock with
          outgoing :=
            sock.outgoing ++ requestText path host port (nonceB64 rngState)
          sendCalls := sendCalls }
      doHandshake sock rngState host port path =
        ((readReply (nonceB64 rngState) sent).1,
          { sock := some (readReply (nonceB64 rngState) sent).2
            rngState := (nonceRaw 16 rngState).2 }) := by
  rcases netSendExact_eq sock complete
      (requestText path host port (nonceB64 rngState))
    with ⟨sendCalls, sent⟩
  refine ⟨sendCalls, ?_⟩
  simp only [doHandshake, if_neg (Nat.not_le_of_lt short), sent]

end AccelObserver.Client.WsHandshake
