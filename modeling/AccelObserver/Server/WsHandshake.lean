import AccelObserver.Crypto.Base64
import AccelObserver.Crypto.Sha1
import AccelObserver.Library.Lines
import AccelObserver.Library.Text
import AccelObserver.Server.WsSubscriber
import Mathlib.Data.List.DropRight

/-!
# The server: the opening handshake

`do_handshake` and `compute_accept_key` of `WsSubscriber`, which has a SHA-1
and a Base64 of its own, and `ws_accept_key` of `WebInterface`, which uses
those of the client.

The loop of `do_handshake` also sets two flags that nothing reads; they are
left out.
-/

namespace AccelObserver.Server.WsHandshake

open AccelObserver.Library
open AccelObserver.Library.Text
open AccelObserver.Server.WsSubscriber
open AccelObserver.Crypto.Base64 (base64Encode base64EncodeImpl)
open AccelObserver.Crypto.Sha1 (sha1Compute sha1ComputeLocal)

/-- `GUID` of `compute_accept_key` -/
def guid : Bytes :=
  ascii "258EAFA5-E914-47DA-95CA-C5AB0DC85B11"

/-- `compute_accept_key` -/
def computeAcceptKey (clientKey : Bytes) : Bytes :=
  base64EncodeImpl (sha1ComputeLocal (clientKey ++ guid))

/-- `WS_GUID` of `web_interface.cpp` -/
def wsGuid : Bytes :=
  ascii "258EAFA5-E914-47DA-95CA-C5AB0DC85B11"

/-- `ws_accept_key` -/
def wsAcceptKey (clientKey : Bytes) : Bytes :=
  base64Encode (sha1Compute (clientKey ++ wsGuid))

/-- `recv_line`; a byte of the line is a byte of the stream. -/
def recvLine (sock : Socket) : Option Bytes × Socket :=
  Lines.recvLine (fun _ => none) (sock.incoming.length + 1) [] sock

/-- `ws_chars` -/
def isWsChar (byte : UInt8) : Bool :=
  byte == 32 || byte == 9 || byte == 13 || byte == 10

/-- The text between the first and the last byte that is not trimmed. -/
def trim (text : Bytes) : Bytes :=
  (text.dropWhile isWsChar).rdropWhile isWsChar

/-- The body of the loop over the headers. -/
def readHeader (wsKey line : Bytes) : Bytes :=
  if occurs (ascii "Sec-WebSocket-Key:") line ||
      occurs (ascii "Sec-Websocket-Key:") line then
    match findAfter (ascii ":") line with
    | none => wsKey
    | some value => trim value
  else wsKey

/-- The reply to a key. -/
def responseText (accept : Bytes) : Bytes :=
  ascii "HTTP/1.1 101 Switching Protocols\r\n" ++
    ascii "Upgrade: websocket\r\n" ++
    ascii "Connection: Upgrade\r\n" ++
    (ascii "Sec-WebSocket-Accept: " ++ accept ++ ascii "\r\n") ++
    ascii "\r\n"

/-- `do_handshake`.  The loop also ends when the stream does. -/
def doHandshake (client : Socket) : Bool × Socket :=
  match recvLine client with
  | (none, client) => (false, client)
  | (some _, client) =>
      let (_, wsKey, client) :=
        Lines.foldLines recvLine readHeader (client.incoming.length + 1) []
          client
      if wsKey = [] then (false, client)
      else sendExact client (responseText (computeAcceptKey wsKey))

/-! ## Reading the request -/

/-- Every line is read whole. -/
theorem reads_recvLine {line : Bytes} (oneLine : 10 ∉ line) :
    Lines.Reads recvLine line := by
  apply Lines.reads_of_not_mem oneLine
  intro sock rest incoming
  rw [incoming, Lines.crlf]
  simp only [List.length_append, List.length_cons]
  omega

/-- The value behind the name of the key, where nothing is trimmed. -/
theorem readHeader_key
    {key : Bytes} (notTrimmed : ∀ byte ∈ key, isWsChar byte = false)
    (wsKey : Bytes) :
    readHeader wsKey (ascii "Sec-WebSocket-Key: " ++ key) = key := by
  have contained :
      occurs (ascii "Sec-WebSocket-Key:")
        (ascii "Sec-WebSocket-Key: " ++ key) = true :=
    occurs_append_self _ _ (32 :: key)
  have colon :
      findAfter (ascii ":") (ascii "Sec-WebSocket-Key: " ++ key) =
        some (32 :: key) := by
    have noColon : 58 ∉ ascii "Sec-WebSocket-Key" := by decide
    have split :
        ascii "Sec-WebSocket-Key: " =
          ascii "Sec-WebSocket-Key" ++ [58, 32] := by decide
    apply findAfter_of_eq_append noColon
    rw [split, List.append_assoc]
    rfl
  have trimmed : trim (32 :: key) = key := trim_of_forall notTrimmed notTrimmed
  simp only [readHeader, contained, Bool.true_or, if_true, colon, trimmed]

/-- A request whose lines leave a key is answered, and read to its end. -/
theorem doHandshake_of_lines
    {client : Socket} (complete : client.SendsComplete)
    {requestLine : Bytes} {headers : List Bytes} {later : Bytes}
    (requestLineOne : 10 ∉ requestLine)
    (headersOne : ∀ line ∈ headers, 10 ∉ line)
    (nonempty : ∀ line ∈ headers, line ≠ [])
    (hasKey : headers.foldl readHeader [] ≠ [])
    (incoming :
      client.incoming =
        Lines.crlf requestLine ++
          (headers.flatMap Lines.crlf ++ (Lines.crlf [] ++ later))) :
    ∃ recvCalls sendCalls,
      doHandshake client =
        (true,
          { client with
            incoming := later
            recvCalls := recvCalls
            outgoing :=
              client.outgoing ++
                responseText
                  (computeAcceptKey (headers.foldl readHeader []))
            sendCalls := sendCalls }) := by
  rcases reads_recvLine requestLineOne client _ incoming
    with ⟨firstCalls, first⟩
  rcases Lines.foldLines_of_incoming readHeader
      (fun line member => reads_recvLine (headersOne line member)) nonempty
      (reads_recvLine List.not_mem_nil) []
      { client with
        incoming := headers.flatMap Lines.crlf ++ (Lines.crlf [] ++ later)
        recvCalls := firstCalls }
      rfl
    with ⟨recvCalls, folded⟩
  rcases sendExact_eq
      { client with incoming := later, recvCalls := recvCalls } complete
      (responseText (computeAcceptKey (headers.foldl readHeader [])))
    with ⟨sendCalls, sent⟩
  refine ⟨recvCalls, sendCalls, ?_⟩
  simp only [doHandshake, first, folded, if_neg hasKey, sent]

end AccelObserver.Server.WsHandshake
