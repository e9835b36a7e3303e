import AccelObserver.Library.Channel
import AccelObserver.Library.Frame

/-!
# The WebSocket client: sending text

The sending half of `ws_client.c`: the generator that supplies the masks,
`ws_send_text` and `ws_close`.  The results say which bytes a call puts on
the wire; on a connection whose `send` does not fail they are one frame of
the grammar, whatever pieces the operating system takes.
-/

namespace AccelObserver.Client.WsTransport

open AccelObserver.Library
open AccelObserver.Library.Channel
open AccelObserver.Library.Frame (MaskKey)

abbrev Socket := Sock UInt8

/-! ## The mask generator -/

/-- `prng_next`: xorshift32.  The new state is also the result. -/
def prngNext (state : UInt32) : UInt32 :=
  let x := state ^^^ (state <<< 13)
  let x := x ^^^ (x >>> 17)
  x ^^^ (x <<< 5)

/-- `mask[0]` to `mask[3]`, from the most significant byte on. -/
def maskOf (mask32 : UInt32) : MaskKey
  | 0 => (mask32 >>> 24).toUInt8
  | 1 => (mask32 >>> 16).toUInt8
  | 2 => (mask32 >>> 8).toUInt8
  | 3 => mask32.toUInt8

/-! ## The client -/

/-- `ws_client_t`; the socket is `none` when it is `INVALID_SOCK`. -/
structure WsClient where
  sock : Option Socket
  rngState : UInt32

/-- The members of `ws_error_code_t` that sending can return. -/
inductive WsErrorCode where
  | wsOk
  | wsErrNet
  | wsErrParam
  deriving DecidableEq, Repr

/-- `net_send_exact`. -/
def netSendExact (sock : Socket) (buf : Bytes) : Bool × Socket :=
  sendAll 65536 buf sock

/-- `net_recv_exact`. -/
def netRecvExact (sock : Socket) (len : Nat) : Option Bytes × Socket :=
  recvAll 65536 len sock

/-- The header of a text frame with a masked payload of `len` bytes. -/
def textHeader (len : Nat) (mask : MaskKey) : Bytes :=
  let length :=
    if len < 126 then [0x80 ||| UInt8.ofNat len]
    else if len < 65536 then
      [0x80 ||| 126, UInt8.ofNat (len >>> 8), UInt8.ofNat len]
    else (0x80 ||| 127) :: BigEndian.write 8 len
  0x81 :: (length ++ [mask 0, mask 1, mask 2, mask 3])

/-- The payload loop: mask and send at most 4096 bytes at a time. -/
def sendChunks (mask : MaskKey) (data : Bytes) :
    Nat → Nat → Socket → Bool × Socket
  | 0, sent, sock => (decide (data.length ≤ sent), sock)
  | rounds + 1, sent, sock =>
      if sent < data.length then
        let chunkLen := min (data.length - sent) 4096
        let chunk :=
          ((data.drop sent).take chunkLen).mapIdx fun i byte =>
            byte ^^^ mask (Fin.ofNat 4 ((sent + i) &&& 3))
        match netSendExact sock chunk with
        | (false, sock) => (false, sock)
        | (true, sock) => sendChunks mask data rounds (sent + chunkLen) sock
      else (true, sock)

/-- `ws_send_text`.  A round of the payload loop sends at least one byte, so
`data.length` rounds are enough. -/
def wsSendText (ws : WsClient) (data : Bytes) : WsErrorCode × WsClient :=
  match ws.sock with
  | none => (.wsErrParam, ws)
  | some sock =>
      let rngState := prngNext ws.rngState
      let mask := maskOf rngState
      match netSendExact sock (textHeader data.length mask) with
      | (false, sock) =>
          (.wsErrNet, { sock := some sock, rngState := rngState })
      | (true, sock) =>
          match sendChunks mask data data.length 0 sock with
          | (false, sock) =>
              (.wsErrNet, { sock := some sock, rngState := rngState })
          | (true, sock) =>
              (.wsOk, { sock := some sock, rngState := rngState })

/-- The Close frame with status code 1000. -/
def closeFrameBytes (mask : MaskKey) : Bytes :=
  [0x88, 0x80 ||| 2, mask 0, mask 1, mask 2, mask 3,
    0x03 ^^^ mask 0, 0xE8 ^^^ mask 1]

/-- `ws_close`: the state of the connection when it is closed. -/
def wsClose (ws : WsClient) : Option Socket :=
  ws.sock.map fun sock =>
    let mask := maskOf (prngNext ws.rngState)
    let sock := (netSendExact sock (closeFrameBytes mask)).2
    (netRecvExact sock 2).2

/-! ## The frames that are sent -/

/-- The text frame of one call of `ws_send_text`. -/
def textFrame (mask : MaskKey) (data : Bytes) (small : data.length < 2 ^ 63) :
    Frame where
  fin := true
  rsv := 0
  opcode := Frame.text
  maskKey := some mask
  lengthForm := Frame.LengthForm.shortest data.length
  payload := data
  fits := Frame.LengthForm.shortest_fits small

/-- The Close frame of `ws_close`. -/
def closeFrame (mask : MaskKey) : Frame where
  fin := true
  rsv := 0
  opcode := Frame.close
  maskKey := some mask
  lengthForm := .short
  payload := [0x03, 0xE8]
  fits := by decide

/-- The header that the client writes is the header of the frame. -/
theorem textHeader_eq
    (mask : MaskKey) (data : Bytes) (small : data.length < 2 ^ 63) :
    textHeader data.length mask = (textFrame mask data small).header := by
  have lengthByte : ∀ len : Fin 128,
      (0x80 : UInt8) ||| UInt8.ofNat len = UInt8.ofNat (128 + len) := by
    decide
  have first :
      (textFrame mask data small).firstByte = 0x81 := rfl
  have key :
      (textFrame mask data small).keyBytes =
        [mask 0, mask 1, mask 2, mask 3] := rfl
  have second :
      (textFrame mask data small).secondByte =
        UInt8.ofNat
          (128 + (Frame.LengthForm.shortest data.length).code data.length) :=
    rfl
  rw [Frame.header, first, second, key]
  simp only [textHeader, textFrame, Frame.LengthForm.shortest]
  by_cases short : data.length < 126
  · have byte := lengthByte ⟨data.length, by omega⟩
    simp only at byte
    simp [short, byte, Frame.LengthForm.code, Frame.LengthForm.extension]
  · by_cases medium : data.length < 65536
    · simp [short, medium, Frame.LengthForm.code, Frame.LengthForm.extension,
        BigEndian.write]
      rfl
    · simp [short, medium, Frame.LengthForm.code, Frame.LengthForm.extension]
      rfl

theorem closeFrameBytes_eq (mask : MaskKey) :
    closeFrameBytes mask = (closeFrame mask).encode := by
  have first : (closeFrame mask).firstByte = 0x88 := rfl
  have second : (closeFrame mask).secondByte = 0x80 ||| 2 :=
    show UInt8.ofNat (1 * 128 + 2) = 0x80 ||| 2 by decide
  have wire :
      (closeFrame mask).wirePayload = [0x03 ^^^ mask 0, 0xE8 ^^^ mask 1] :=
    rfl
  rw [Frame.encode, Frame.header, first, second, wire]
  rfl

theorem netSendExact_eq
    (sock : Socket) (complete : sock.SendsComplete) (buf : Bytes) :
    ∃ sendCalls,
      netSendExact sock buf =
        (true,
          { sock with
            outgoing := sock.outgoing ++ buf
            sendCalls := sendCalls }) :=
  sendAll_eq (by decide) buf complete

/-- The payload loop masks as if the payload were one piece. -/
theorem sendChunks_eq
    (mask : MaskKey) (data : Bytes) (rounds : Nat) :
    ∀ (sent : Nat) (sock : Socket), sock.SendsComplete →
      data.length ≤ sent + rounds →
      ∃ sendCalls,
        sendChunks mask data rounds sent sock =
          (true,
            { sock with
              outgoing :=
                sock.outgoing ++ Frame.maskFrom mask sent (data.drop sent)
              sendCalls := sendCalls }) := by
  induction rounds with
  | zero =>
      intro sent sock complete bounded
      refine ⟨sock.sendCalls, ?_⟩
      have all : data.length ≤ sent := by omega
      simp [sendChunks, all, List.drop_eq_nil_of_le all, Frame.maskFrom]
  | succ rounds induction =>
      intro sent sock complete bounded
      by_cases more : sent < data.length
      · set chunkLen := min (data.length - sent) 4096 with chunkLenEq
        have chunk :
            (((data.drop sent).take chunkLen).mapIdx fun i byte =>
                byte ^^^ mask (Fin.ofNat 4 ((sent + i) &&& 3))) =
              Frame.maskFrom mask sent ((data.drop sent).take chunkLen) :=
          Frame.mapIdx_eq_maskFrom mask sent _
        rcases netSendExact_eq sock complete
            (Frame.maskFrom mask sent ((data.drop sent).take chunkLen))
          with ⟨chunkCalls, chunkSent⟩
        rcases induction (sent + chunkLen)
            { sock with
              outgoing :=
                sock.outgoing ++
                  Frame.maskFrom mask sent ((data.drop sent).take chunkLen)
              sendCalls := chunkCalls }
            complete (by omega)
          with ⟨sendCalls, rest⟩
        refine ⟨sendCalls, ?_⟩
        have length : ((data.drop sent).take chunkLen).length = chunkLen := by
          rw [List.length_take, List.length_drop]
          omega
        have joined :
            Frame.maskFrom mask sent (data.drop sent) =
              Frame.maskFrom mask sent ((data.drop sent).take chunkLen) ++
                Frame.maskFrom mask (sent + chunkLen)
                  (data.drop (sent + chunkLen)) := by
          conv_lhs => rw [← List.take_append_drop chunkLen (data.drop sent)]
          rw [Frame.maskFrom_append, length, List.drop_drop]
        simp only [sendChunks, more, if_true, ← chunkLenEq, chunk, chunkSent,
          rest, joined, List.append_assoc]
      · have all : data.length ≤ sent := by omega
        exact ⟨sock.sendCalls,
          by simp [sendChunks, more, List.drop_eq_nil_of_le all,
            Frame.maskFrom]⟩

/-- One call of `ws_send_text` puts one text frame on the wire. -/
theorem wsSendText_eq
    {ws : WsClient} {sock : Socket} (connected : ws.sock = some sock)
    (complete : sock.SendsComplete) {data : Bytes}
    (small : data.length < 2 ^ 63) :
    ∃ sendCalls,
      wsSendText ws data =
        (.wsOk,
          { sock :=
              some
                { sock with
                  outgoing :=
                    sock.outgoing ++
                      (textFrame (maskOf (prngNext ws.rngState)) data
                        small).encode
                  sendCalls := sendCalls }
            rngState := prngNext ws.rngState }) := by
  set mask := maskOf (prngNext ws.rngState) with maskEq
  rcases netSendExact_eq sock complete (textHeader data.length mask)
    with ⟨headerCalls, header⟩
  rcases sendChunks_eq mask data data.length 0
      { sock with
        outgoing := sock.outgoing ++ textHeader data.length mask
        sendCalls := headerCalls }
      complete (by omega)
    with ⟨sendCalls, payload⟩
  refine ⟨sendCalls, ?_⟩
  have wire :
      (textFrame mask data small).wirePayload = Frame.maskFrom mask 0 data :=
    rfl
  simp only [wsSendText, connected, ← maskEq, header, payload,
    List.drop_zero, Frame.encode, ← textHeader_eq, wire, List.append_assoc]

/-- `ws_close` puts one Close frame on the wire. -/
theorem wsClose_outgoing
    {ws : WsClient} {sock : Socket} (connected : ws.sock = some sock)
    (complete : sock.SendsComplete) :
    (wsClose ws).map Sock.outgoing =
      some
        (sock.outgoing ++
          (closeFrame (maskOf (prngNext ws.rngState))).encode) := by
  rcases netSendExact_eq sock complete
      (closeFrameBytes (maskOf (prngNext ws.rngState)))
    with ⟨sendCalls, sent⟩
  simp only [wsClose, connected, Option.map_some, sent,
    ← closeFrameBytes_eq, Option.some.injEq]
  exact recvAll_outgoing 65536 2 _

end AccelObserver.Client.WsTransport
