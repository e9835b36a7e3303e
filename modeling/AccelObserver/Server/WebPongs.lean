import AccelObserver.Library.FrameDecoder
import AccelObserver.Server.WebStream
import AccelObserver.Server.WsFrameLoop

/-!
# The Pongs to a browser

The thread of a browser reads frames, drops their payloads and answers Pings.
The header of an answer has seven bits of the payload's length, and the whole
payload goes behind it.  The statements about the length and the key of a
frame are those of `WsSubscriber::read_frame`.

Every segmentation of the incoming stream and every pattern of refused `send`
calls is covered; the results of `send_raw` are ignored.
-/

namespace AccelObserver.Server.WebPongs

open AccelObserver.Library
open AccelObserver.Library.Channel
open AccelObserver.Library.Frame (MaskKey)
open AccelObserver.Server.WebStream (pongHeader serverFrame stream)
open AccelObserver.Server.WsFrameLoop (pingPayloads)
open AccelObserver.Server.WsSubscriber
  (Socket maxVectorSize readLength readMaskKey unmask keyOrZero)

/-! ## Reading and answering -/

/-- `recv_exact_webif` -/
def recvExactWebif (sock : Socket) (len : Nat) : Option Bytes × Socket :=
  recvAll 65536 len sock

/-- `send_raw`: a `send` is offered all that is left. -/
def sendRaw (sock : Socket) (data : Bytes) : Bool × Socket :=
  sendAll data.length data sock

/-- How a call of `ws_discard_frame` ends. -/
inductive DiscardResult where
  | returned (more : Bool)
  /-- The constructor of the vector throws. -/
  | lengthError
  deriving DecidableEq, Repr

/-- The end of `ws_discard_frame`: a Ping is answered. -/
def answerPing (opcode : UInt8) (data : Bytes) (sock : Socket) : Socket :=
  if opcode = 0x09 then
    let sock := (sendRaw sock (pongHeader data)).2
    if data.isEmpty then sock else (sendRaw sock data).2
  else sock

/-- What `ws_discard_frame` does once it has read a header. -/
def discardPayload (opcode : UInt8) (masked : Bool) (maskKey : MaskKey)
    (payloadLen : UInt64) (sock : Socket) : DiscardResult × Socket :=
  if maxVectorSize < payloadLen.toNat then (.lengthError, sock)
  else if 0 < payloadLen.toNat then
    match recvExactWebif sock payloadLen.toNat with
    | (none, sock) => (.returned false, sock)
    | (some data, sock) =>
        (.returned true,
          answerPing opcode (if masked then unmask maskKey data else data)
            sock)
  else (.returned true, answerPing opcode [] sock)

/-- `ws_discard_frame` -/
def wsDiscardFrame (sock : Socket) : DiscardResult × Socket :=
  match recvExactWebif sock 2 with
  | (none, sock) => (.returned false, sock)
  | (some hdr, sock) =>
      let opcode := hdr.getD 0 0 &&& 0x0F
      let masked := hdr.getD 1 0 &&& 0x80 != 0
      if opcode = 0x08 then (.returned false, sock)
      else
        match readLength (hdr.getD 1 0 &&& 0x7F).toUInt64 sock with
        | (none, sock) => (.returned false, sock)
        | (some payloadLen, sock) =>
            match readMaskKey masked sock with
            | (none, sock) => (.returned false, sock)
            | (some maskKey, sock) =>
                discardPayload opcode masked maskKey payloadLen sock

/-- Why the loop of `handle_client` ended. -/
inductive LoopEnd where
  /-- `running_` was read as false. -/
  | stopped
  /-- `ws_discard_frame` returned false. -/
  | closed
  | lengthError
  deriving DecidableEq, Repr

/--
The loop of `handle_client`.  `running_` is read as true `loads` times and as
false after that.
-/
def discardLoop : Nat → Socket → LoopEnd × Socket
  | 0, sock => (.stopped, sock)
  | loads + 1, sock =>
      match wsDiscardFrame sock with
      | (.returned true, sock) => discardLoop loads sock
      | (.returned false, sock) => (.closed, sock)
      | (.lengthError, sock) => (.lengthError, sock)

/-! ## What is to be answered -/

/-- The frames of a stream that the loop goes through: whole ones, up to a
Close frame. -/
def framesRead : Nat → Bytes → List Frame
  | 0, _ => []
  | loads + 1, incoming =>
      match Frame.decode incoming with
      | none => []
      | some (frame, rest) =>
          if frame.opcode = Frame.close then []
          else frame :: framesRead loads rest

/-- The payloads of the Pings among them. -/
def answeredPings (loads : Nat) (incoming : Bytes) : List Bytes :=
  pingPayloads (framesRead loads incoming)

/-- A Pong frame from a server. -/
structure IsPong (frame : Frame) : Prop where
  fin : frame.fin = true
  rsv : frame.rsv = 0
  opcode : frame.opcode = Frame.pong
  unmasked : frame.maskKey = none

/-- What is written back is Pong frames, for each answered Ping one. -/
def PongsWellFormed (loads : Nat) (sock : Socket) : Prop :=
  ∃ pongs : List Frame, (∀ pong ∈ pongs, IsPong pong) ∧
    pongs.map Frame.payload = answeredPings loads sock.incoming ∧
    (discardLoop loads sock).2.outgoing = sock.outgoing ++ stream pongs

/-- Every `send` that the loop calls takes something. -/
def NoSendFails (loads : Nat) (sock : Socket) : Prop :=
  sock.TakesSends sock.sendCalls (discardLoop loads sock).2.sendCalls

/-! ## Reading as decoding -/

/--
A reader does what a function on the incoming bytes does; when that cuts
nothing off, the stream has ended.
-/
def Decodes {Value : Type} (sock : Socket) (read : Option Value × Socket)
    (cut : Option (Value × Bytes)) : Prop :=
  ∃ recvCalls,
    read =
      (cut.map Prod.fst,
        { sock with
          incoming := cut.elim [] Prod.snd
          recvCalls := recvCalls })

theorem recvAll_decodes (sock : Socket) (len : Nat) :
    Decodes sock (recvAll 65536 len sock) (takeExact len sock.incoming) := by
  by_cases enough : len ≤ sock.incoming.length
  · have cut :
        takeExact len sock.incoming =
          some (sock.incoming.take len, sock.incoming.drop len) :=
      if_pos enough
    rw [cut]
    exact recvAll_eq_of_append (by decide)
      (List.take_append_drop len _).symm (List.length_take_of_le enough)
  · have cut : takeExact len sock.incoming = none := if_neg enough
    rw [cut]
    exact recvAll_eq_of_lt (by decide) (Nat.not_le.mp enough)

theorem readLength_decodes
    {code : Nat} (small : code < 128) (sock : Socket) :
    Decodes sock (readLength (UInt64.ofNat code) sock)
      (Frame.decodeLength code sock.incoming) := by
  have isCode (other : Nat) (below : other < 128) :
      UInt64.ofNat code = UInt64.ofNat other ↔ code = other := by
    rw [← UInt64.toNat_inj, UInt64.toNat_ofNat', UInt64.toNat_ofNat']
    omega
  have medium : UInt64.ofNat code = 126 ↔ code = 126 :=
    isCode 126 (by decide)
  have long : UInt64.ofNat code = 127 ↔ code = 127 := isCode 127 (by decide)
  rw [readLength, Frame.decodeLength, Frame.LengthForm.announced]
  by_cases isMedium : code = 126
  · rcases recvAll_decodes sock 2 with ⟨recvCalls, received⟩
    refine ⟨recvCalls, ?_⟩
    rw [if_pos (medium.mpr isMedium), if_pos isMedium,
      WsSubscriber.recvExact, received]
    cases cut : takeExact 2 sock.incoming with
    | none => rfl
    | some pair =>
        rcases takeExact_eq_some_iff.mp cut with ⟨_, length⟩
        rcases List.length_eq_two.mp length with ⟨high, low, front⟩
        simp [front, BigEndian.read]
  · rw [if_neg (mt medium.mp isMedium), if_neg isMedium]
    by_cases isLong : code = 127
    · rcases recvAll_decodes sock 8 with ⟨recvCalls, received⟩
      refine ⟨recvCalls, ?_⟩
      rw [if_pos (long.mpr isLong), if_pos isLong, WsSubscriber.recvExact,
        received]
      cases takeExact 8 sock.incoming with
      | none => rfl
      | some pair => rfl
    · rw [if_neg (mt long.mp isLong), if_neg isLong]
      exact ⟨sock.recvCalls, rfl⟩

theorem readMaskKey_decodes (masked : Bool) (sock : Socket) :
    Decodes sock (readMaskKey masked sock)
      ((Frame.decodeKey masked sock.incoming).map fun cut =>
        (keyOrZero cut.1, cut.2)) := by
  cases masked with
  | false => exact ⟨sock.recvCalls, rfl⟩
  | true =>
      rcases recvAll_decodes sock 4 with ⟨recvCalls, received⟩
      refine ⟨recvCalls, ?_⟩
      rw [readMaskKey, Frame.decodeKey, if_pos rfl, if_pos rfl,
        WsSubscriber.recvExact, received]
      cases takeExact 4 sock.incoming with
      | none => rfl
      | some pair => rfl

/-! ## One frame -/

/-- The loop ends here, and nothing is written. -/
def Stops (sock : Socket) (after : DiscardResult × Socket) : Prop :=
  after.1 ≠ .returned true ∧
    ∃ incoming recvCalls,
      after.2 = { sock with incoming := incoming, recvCalls := recvCalls }

theorem stops_of_ne
    (sock : Socket) {result : DiscardResult} (ends : result ≠ .returned true)
    (incoming : Bytes) (recvCalls : Nat) :
    Stops sock
      (result, { sock with incoming := incoming, recvCalls := recvCalls }) :=
  ⟨ends, incoming, recvCalls, rfl⟩

/-- A frame is consumed and answered, and the loop goes on. -/
def GoesOn (opcode : UInt8) (frame : Frame) (rest : Bytes) (sock : Socket)
    (after : DiscardResult × Socket) : Prop :=
  ∃ recvCalls,
    after =
      (.returned true,
        answerPing opcode frame.payload
          { sock with incoming := rest, recvCalls := recvCalls })

theorem unmask_eq_maskWith (maskKey : Option MaskKey) (data : Bytes) :
    (if maskKey.isSome then unmask (keyOrZero maskKey) data else data) =
      Frame.maskWith maskKey data := by
  cases maskKey with
  | none => rfl
  | some key => exact WsSubscriber.unmask_eq_mask key data

/-- Behind a header, the rest of a frame is read, or the loop ends. -/
theorem discardPayload_spec
    (opcode first : UInt8) {form : Frame.LengthForm}
    (maskKey : Option MaskKey) {payloadLen : UInt64}
    (fits : payloadLen.toNat < 2 ^ 63 → payloadLen.toNat < form.bound)
    (sock : Socket) :
    let after :=
      discardPayload opcode maskKey.isSome (keyOrZero maskKey) payloadLen sock
    match (takeExact payloadLen.toNat sock.incoming).bind fun data =>
        (Frame.assemble first form maskKey data.1).map fun frame =>
          (frame, data.2) with
    | none => Stops sock after
    | some (frame, rest) => GoesOn opcode frame rest sock after := by
  intro after
  by_cases long : maxVectorSize < payloadLen.toNat
  · have thrown : after = (.lengthError, sock) := if_pos long
    have refused :
        ((takeExact payloadLen.toNat sock.incoming).bind fun data =>
          (Frame.assemble first form maskKey data.1).map fun frame =>
            (frame, data.2)) = none := by
      cases cut : takeExact payloadLen.toNat sock.incoming with
      | none => rfl
      | some pair =>
          have length := (takeExact_eq_some_iff.mp cut).2
          have bound := form.bound_le
          rw [maxVectorSize] at long
          rw [Option.bind_some,
            Frame.assemble_eq_none first maskKey (by omega)]
          rfl
    rw [refused, thrown]
    exact stops_of_ne sock (by decide) sock.incoming sock.recvCalls
  · have bounded : payloadLen.toNat < form.bound := by
      rw [maxVectorSize] at long
      exact fits (by omega)
    by_cases nonempty : 0 < payloadLen.toNat
    · rcases recvAll_decodes sock payloadLen.toNat with
        ⟨recvCalls, received⟩
      have read :
          after =
            match recvExactWebif sock payloadLen.toNat with
            | (none, sock) => (.returned false, sock)
            | (some data, sock) =>
                (.returned true,
                  answerPing opcode
                    (if maskKey.isSome then unmask (keyOrZero maskKey) data
                      else data)
                    sock) :=
        (if_neg long).trans (if_pos nonempty)
      rw [recvExactWebif, received] at read
      cases cut : takeExact payloadLen.toNat sock.incoming with
      | none =>
          rw [cut] at read
          rw [read]
          exact stops_of_ne sock (by decide) [] recvCalls
      | some pair =>
          have length := (takeExact_eq_some_iff.mp cut).2
          rw [← length] at bounded
          rcases Frame.exists_assemble first maskKey bounded with
            ⟨frame, assembled, payload⟩
          rw [cut] at read
          rw [Option.bind_some, assembled, read]
          refine ⟨recvCalls, ?_⟩
          rw [payload, ← unmask_eq_maskWith]
          rfl
    · have zero : payloadLen.toNat = 0 := Nat.eq_zero_of_not_pos nonempty
      have cut :
          takeExact payloadLen.toNat sock.incoming =
            some ([], sock.incoming) :=
        takeExact_eq_some_iff.mpr ⟨rfl, zero.symm⟩
      have read : after = (.returned true, answerPing opcode [] sock) :=
        (if_neg long).trans (if_neg nonempty)
      rw [zero, ← List.length_nil] at bounded
      rcases Frame.exists_assemble first maskKey bounded with
        ⟨frame, assembled, payload⟩
      have empty : frame.payload = [] := by
        rw [payload]
        exact List.length_eq_zero_iff.mp (Frame.maskWith_length maskKey [])
      rw [cut, Option.bind_some, assembled, read]
      refine ⟨sock.recvCalls, ?_⟩
      rw [empty]

/-- The first byte of a frame that is read says what its opcode is. -/
theorem opcode_of_encode
    {first second : UInt8} {bytes rest : Bytes} {frame : Frame}
    (same : first :: second :: bytes = frame.encode ++ rest) :
    first &&& 0x0F = UInt8.ofNat frame.opcode := by
  have firstByte : first = frame.firstByte := by
    rw [Frame.encode, Frame.header] at same
    exact (List.cons.inj same).1
  rw [firstByte, frame.firstByte_and]

/-- The seven low bits of a byte. -/
theorem toUInt64_and (second : UInt8) :
    (second &&& 0x7F).toUInt64 = UInt64.ofNat (second.toNat % 128) := by
  have bits : (second &&& 0x7F).toNat = second.toNat % 128 := by
    rw [UInt8.toNat_and]
    exact Nat.and_two_pow_sub_one_eq_mod second.toNat 7
  rw [← UInt64.toNat_inj, UInt8.toNat_toUInt64, bits, UInt64.toNat_ofNat']
  omega

/-- The top bit of a byte. -/
theorem top_bit (second : UInt8) :
    (second &&& 0x80 != 0) = decide (128 ≤ second.toNat) := by
  have table :
      ∀ byte : UInt8, (byte &&& 0x80 != 0) = decide (128 ≤ byte.toNat) :=
    forall_byte (by decide +kernel)
  exact table second

theorem recvExactWebif_two
    {sock : Socket} {first second : UInt8} {bytes : Bytes}
    (incoming : sock.incoming = first :: second :: bytes) :
    ∃ recvCalls,
      recvExactWebif sock 2 =
        (some [first, second],
          { sock with incoming := bytes, recvCalls := recvCalls }) := by
  have split : sock.incoming = [first, second] ++ bytes := incoming
  exact recvAll_eq_of_append (by decide) split rfl

/-- Behind two bytes that are not of a Close frame, a frame is read. -/
theorem wsDiscardFrame_spec_of_ne
    {sock : Socket} {first second : UInt8} {bytes : Bytes}
    (incoming : sock.incoming = first :: second :: bytes)
    (notClose : first &&& 0x0F ≠ 0x08) :
    match Frame.decode (first :: second :: bytes) with
    | none => Stops sock (wsDiscardFrame sock)
    | some (frame, rest) =>
        GoesOn (first &&& 0x0F) frame rest sock (wsDiscardFrame sock) := by
  rcases recvExactWebif_two incoming with ⟨headCalls, head⟩
  have small : second.toNat % 128 < 128 := Nat.mod_lt _ (by decide)
  rcases readLength_decodes small
      { sock with incoming := bytes, recvCalls := headCalls }
    with ⟨lengthCalls, length⟩
  have read :
      wsDiscardFrame sock =
        match readLength (UInt64.ofNat (second.toNat % 128))
            { sock with incoming := bytes, recvCalls := headCalls } with
        | (none, sock) => (.returned false, sock)
        | (some payloadLen, sock) =>
            match readMaskKey (decide (128 ≤ second.toNat)) sock with
            | (none, sock) => (.returned false, sock)
            | (some maskKey, sock) =>
                discardPayload (first &&& 0x0F) (decide (128 ≤ second.toNat))
                  maskKey payloadLen sock := by
    rw [wsDiscardFrame, head, ← toUInt64_and, ← top_bit]
    exact if_neg notClose
  rw [length] at read
  rw [Frame.decode]
  cases lengthCut : Frame.decodeLength (second.toNat % 128) bytes with
  | none =>
      rw [lengthCut] at read
      rw [read]
      exact stops_of_ne sock (by decide) [] lengthCalls
  | some pair =>
      rcases pair with ⟨payloadLen, behindLength⟩
      rcases readMaskKey_decodes (decide (128 ≤ second.toNat))
          { sock with incoming := behindLength, recvCalls := lengthCalls }
        with ⟨keyCalls, key⟩
      simp only [lengthCut, Option.map_some, Option.elim_some, key] at read
      simp only [Option.bind_some]
      cases keyCut :
          Frame.decodeKey (decide (128 ≤ second.toNat)) behindLength with
      | none =>
          rw [keyCut] at read
          rw [read]
          exact stops_of_ne sock (by decide) [] keyCalls
      | some pair =>
          rcases pair with ⟨maskKey, behindKey⟩
          have masked := (Frame.decodeKey_eq_some keyCut).1
          rw [keyCut, masked] at read
          have payload :=
            discardPayload_spec (first &&& 0x0F) first maskKey
              (Frame.decodeLength_lt_bound small lengthCut)
              { sock with incoming := behindKey, recvCalls := keyCalls }
          simp only [Option.bind_some]
          rw [read]
          exact payload

/-- `ws_discard_frame` reads the frame at the front of the stream. -/
theorem wsDiscardFrame_spec (sock : Socket) :
    match Frame.decode sock.incoming with
    | none => Stops sock (wsDiscardFrame sock)
    | some (frame, rest) =>
        if frame.opcode = Frame.close then Stops sock (wsDiscardFrame sock)
        else
          GoesOn (UInt8.ofNat frame.opcode) frame rest sock
            (wsDiscardFrame sock) := by
  rcases recvAll_decodes sock 2 with ⟨headCalls, head⟩
  match incoming : sock.incoming with
  | [] =>
      rw [wsDiscardFrame, recvExactWebif, head, incoming]
      exact stops_of_ne sock (by decide) [] headCalls
  | [_] =>
      rw [wsDiscardFrame, recvExactWebif, head, incoming]
      exact stops_of_ne sock (by decide) [] headCalls
  | first :: second :: bytes =>
      have opcode (frame : Frame) (rest : Bytes)
          (decoded :
            Frame.decode (first :: second :: bytes) = some (frame, rest)) :
          first &&& 0x0F = UInt8.ofNat frame.opcode :=
        opcode_of_encode (Frame.decode_eq_some_iff.mp decoded)
      have closeTest (frame : Frame) :=
        WsSubscriber.ofNat_opcode_eq_iff frame.opcode Frame.close
      by_cases close : first &&& 0x0F = 0x08
      · rcases recvExactWebif_two incoming with ⟨headCalls, head⟩
        have stopped :
            wsDiscardFrame sock =
              (.returned false,
                { sock with incoming := bytes, recvCalls := headCalls }) := by
          rw [wsDiscardFrame, head]
          exact if_pos close
        rw [stopped]
        cases decoded : Frame.decode (first :: second :: bytes) with
        | none => exact stops_of_ne sock (by decide) bytes headCalls
        | some pair =>
            rcases pair with ⟨frame, rest⟩
            have same := opcode frame rest decoded
            rw [close] at same
            simp only [if_pos ((closeTest frame).mp same.symm)]
            exact stops_of_ne sock (by decide) bytes headCalls
      · have read := wsDiscardFrame_spec_of_ne incoming close
        cases decoded : Frame.decode (first :: second :: bytes) with
        | none =>
            rw [decoded] at read
            exact read
        | some pair =>
            rcases pair with ⟨frame, rest⟩
            rw [decoded] at read
            have same := opcode frame rest decoded
            have notClose : frame.opcode ≠ Frame.close := by
              intro isClose
              exact close (same.trans ((closeTest frame).mpr isClose))
            simp only [if_neg notClose, ← same]
            exact read

/-! ## What is written -/

/-- The bytes that are handed to `send_raw` for a Ping. -/
def pongBytes (data : Bytes) : Bytes :=
  pongHeader data ++ data

/-- The bytes that are handed to `send_raw` for a frame. -/
def reply (frame : Frame) : Bytes :=
  if frame.opcode = Frame.ping then pongBytes frame.payload else []

theorem sendRaw_written (sock : Socket) (data : Bytes) :
    ∃ written sendCalls, sock.sendCalls ≤ sendCalls ∧
      (sendRaw sock data).2 =
        { sock with
          outgoing := sock.outgoing ++ written
          sendCalls := sendCalls } ∧
      Written data written (sock.TakesSends sock.sendCalls sendCalls) := by
  cases data with
  | nil => exact sendAll_written Nat.one_pos [] sock
  | cons first rest => exact sendAll_written (Nat.succ_pos _) _ sock

theorem answerPing_written (frame : Frame) (sock : Socket) :
    ∃ written sendCalls, sock.sendCalls ≤ sendCalls ∧
      answerPing (UInt8.ofNat frame.opcode) frame.payload sock =
        { sock with
          outgoing := sock.outgoing ++ written
          sendCalls := sendCalls } ∧
      Written (reply frame) written
        (sock.TakesSends sock.sendCalls sendCalls) := by
  have pingTest :
      UInt8.ofNat frame.opcode = 0x09 ↔ frame.opcode = Frame.ping :=
    WsSubscriber.ofNat_opcode_eq_iff frame.opcode Frame.ping
  by_cases isPing : frame.opcode = Frame.ping
  · rw [answerPing, if_pos (pingTest.mpr isPing), reply, if_pos isPing,
      pongBytes]
    rcases sendRaw_written sock (pongHeader frame.payload) with
      ⟨headerWritten, headerCalls, headerLe, header, headerWrote⟩
    by_cases empty : frame.payload = []
    · refine ⟨headerWritten, headerCalls, headerLe, ?_, ?_⟩
      · rw [header, empty]
        rfl
      · have noData :
            pongHeader frame.payload ++ frame.payload =
              pongHeader frame.payload := by
          rw [empty, List.append_nil]
        rw [noData]
        exact headerWrote
    · rcases sendRaw_written
          { sock with
            outgoing := sock.outgoing ++ headerWritten
            sendCalls := headerCalls } frame.payload with
        ⟨dataWritten, dataCalls, dataLe, data, dataWrote⟩
      refine ⟨headerWritten ++ dataWritten, dataCalls,
        headerLe.trans dataLe, ?_, ?_⟩
      · have nonempty : frame.payload.isEmpty = false :=
          List.isEmpty_eq_false_iff.mpr empty
        simp only [header, nonempty, Bool.false_eq_true, if_false, data,
          List.append_assoc]
      · rw [sock.takesSends_trans_iff headerLe dataLe]
        exact headerWrote.append dataWrote
  · rw [answerPing, if_neg (mt pingTest.mp isPing), reply, if_neg isPing]
    refine ⟨[], sock.sendCalls, Nat.le_refl _, ?_, ?_⟩
    · rw [List.append_nil]
    · exact sock.written_nil _

theorem discardLoop_of_stops
    {sock : Socket} (stops : Stops sock (wsDiscardFrame sock))
    (loads : Nat) :
    ∃ incoming recvCalls,
      (discardLoop (loads + 1) sock).2 =
        { sock with incoming := incoming, recvCalls := recvCalls } := by
  rcases stops with ⟨ends, incoming, recvCalls, same⟩
  refine ⟨incoming, recvCalls, ?_⟩
  rw [← same, discardLoop]
  rcases frame : wsDiscardFrame sock with ⟨result, after⟩
  rw [frame] at ends
  cases result with
  | lengthError => rfl
  | returned more =>
      cases more with
      | false => rfl
      | true => exact absurd rfl ends

/-- The answers of the frames that are read, unless a `send` fails. -/
theorem discardLoop_written (loads : Nat) (sock : Socket) :
    ∃ written, sock.sendCalls ≤ (discardLoop loads sock).2.sendCalls ∧
      (discardLoop loads sock).2.outgoing = sock.outgoing ++ written ∧
      Written ((framesRead loads sock.incoming).flatMap reply) written
        (NoSendFails loads sock) := by
  induction loads generalizing sock with
  | zero =>
      exact ⟨[], Nat.le_refl _, (List.append_nil _).symm,
        sock.written_nil _⟩
  | succ loads induction =>
      have nothing (stops : Stops sock (wsDiscardFrame sock)) :
          ∃ written,
            sock.sendCalls ≤ (discardLoop (loads + 1) sock).2.sendCalls ∧
              (discardLoop (loads + 1) sock).2.outgoing =
                sock.outgoing ++ written ∧
              Written [] written (NoSendFails (loads + 1) sock) := by
        rcases discardLoop_of_stops stops loads with
          ⟨incoming, recvCalls, same⟩
        rw [NoSendFails, same]
        exact ⟨[], Nat.le_refl _, (List.append_nil _).symm,
          sock.written_nil _⟩
      have step := wsDiscardFrame_spec sock
      rw [framesRead]
      cases decoded : Frame.decode sock.incoming with
      | none =>
          rw [decoded] at step
          exact nothing step
      | some pair =>
          rcases pair with ⟨frame, rest⟩
          rw [decoded] at step
          by_cases close : frame.opcode = Frame.close
          · simp only [if_pos close] at step ⊢
            exact nothing step
          · simp only [if_neg close] at step ⊢
            rcases step with ⟨recvCalls, step⟩
            rcases answerPing_written frame
                { sock with incoming := rest, recvCalls := recvCalls } with
              ⟨answer, sendCalls, answerLe, answered, answerWrote⟩
            rcases induction
                { sock with
                  incoming := rest
                  recvCalls := recvCalls
                  outgoing := sock.outgoing ++ answer
                  sendCalls := sendCalls } with
              ⟨more, moreLe, outgoing, moreWrote⟩
            have goesOn :
                discardLoop (loads + 1) sock =
                  discardLoop loads
                    { sock with
                      incoming := rest
                      recvCalls := recvCalls
                      outgoing := sock.outgoing ++ answer
                      sendCalls := sendCalls } := by
              rw [discardLoop, step, answered]
            rw [NoSendFails, goesOn,
              sock.takesSends_trans_iff answerLe moreLe]
            refine ⟨answer ++ more, answerLe.trans moreLe, ?_, ?_⟩
            · rw [outgoing, List.append_assoc]
            · rw [List.flatMap_cons]
              exact answerWrote.append moreWrote

/-- What the frames are answered with is the answers to the Pings. -/
theorem flatMap_reply (frames : List Frame) :
    frames.flatMap reply = (pingPayloads frames).flatMap pongBytes := by
  induction frames with
  | nil => rfl
  | cons frame frames induction =>
      rw [List.flatMap_cons, induction, reply, pingPayloads, pingPayloads]
      by_cases isPing : frame.opcode = Frame.ping
      · simp [isPing]
      · simp [isPing]

/-! ## When the bytes are Pong frames -/

theorem pongBytes_length (data : Bytes) :
    (pongBytes data).length = 2 + data.length := by
  rw [pongBytes, List.length_append]
  rfl

/-- No frame is shorter, and none with a long payload is as short. -/
theorem pongBytes_length_le (frame : Frame) :
    (pongBytes frame.payload).length ≤ frame.encode.length ∧
      (125 < frame.payload.length →
        (pongBytes frame.payload).length < frame.encode.length) := by
  have length :
      frame.encode.length =
        2 + (frame.lengthForm.extension frame.payload.length).length +
          frame.keyBytes.length + frame.payload.length := by
    rw [Frame.encode, Frame.header, List.length_append, List.length_append,
      List.length_append, Frame.wirePayload_length]
    rfl
  rw [pongBytes_length, length]
  constructor
  · omega
  · intro long
    have fits := frame.fits
    cases form : frame.lengthForm with
    | short =>
        rw [form, Frame.LengthForm.bound] at fits
        omega
    | medium =>
        rw [Frame.LengthForm.extension, BigEndian.write_length]
        omega
    | long =>
        rw [Frame.LengthForm.extension, BigEndian.write_length]
        omega

theorem stream_length_le (frames : List Frame) :
    ((frames.map Frame.payload).flatMap pongBytes).length ≤
        (stream frames).length ∧
      ((∃ frame ∈ frames, 125 < frame.payload.length) →
        ((frames.map Frame.payload).flatMap pongBytes).length <
          (stream frames).length) := by
  induction frames with
  | nil => simp [stream]
  | cons frame frames induction =>
      rcases pongBytes_length_le frame with ⟨le, lt⟩
      rcases induction with ⟨restLe, restLt⟩
      rw [stream] at restLe restLt
      rw [stream, List.map_cons, List.flatMap_cons, List.flatMap_cons,
        List.length_append, List.length_append]
      constructor
      · omega
      · rintro ⟨other, member, long⟩
        rcases List.mem_cons.mp member with rfl | later
        · have less := lt long
          omega
        · have less := restLt ⟨other, later, long⟩
          omega

/-- Short answers are Pong frames. -/
theorem exists_pongs
    {pings : List Bytes} (short : ∀ ping ∈ pings, ping.length ≤ 125) :
    ∃ pongs : List Frame, (∀ pong ∈ pongs, IsPong pong) ∧
      pongs.map Frame.payload = pings ∧
      stream pongs = pings.flatMap pongBytes := by
  induction pings with
  | nil => exact ⟨[], by simp, rfl, rfl⟩
  | cons ping pings induction =>
      rcases induction fun other member =>
          short other (List.mem_cons_of_mem _ member) with
        ⟨pongs, arePongs, payloads, bytes⟩
      have pingShort := short ping List.mem_cons_self
      refine ⟨serverFrame Frame.pong ping
          (Nat.lt_of_le_of_lt pingShort (by decide)) :: pongs, ?_, ?_, ?_⟩
      · intro pong member
        rcases List.mem_cons.mp member with rfl | later
        · exact ⟨rfl, rfl, rfl, rfl⟩
        · exact arePongs pong later
      · rw [List.map_cons, payloads]
        rfl
      · rw [List.flatMap_cons, ← bytes, stream, List.flatMap_cons, pongBytes,
          WebStream.pongHeader_append ping pingShort]
        rfl

/-- Only short answers that are all sent are Pong frames. -/
theorem short_of_pongsWellFormed
    {loads : Nat} {sock : Socket} (wellFormed : PongsWellFormed loads sock) :
    NoSendFails loads sock ∧
      ∀ ping ∈ answeredPings loads sock.incoming, ping.length ≤ 125 := by
  rcases discardLoop_written loads sock with ⟨written, _, outgoing, wrote⟩
  rcases wellFormed with ⟨pongs, _, payloads, same⟩
  rw [outgoing] at same
  have bytes := List.append_cancel_left same
  have lengths := stream_length_le pongs
  rw [payloads, ← bytes] at lengths
  rcases lengths with ⟨le, lt⟩
  rw [flatMap_reply, ← answeredPings] at wrote
  have writtenLe := wrote.length_le
  constructor
  · by_contra fails
    have less := wrote.less fails
    omega
  · intro ping member
    by_contra long
    rw [← payloads] at member
    rcases List.mem_map.mp member with ⟨pong, isPong, rfl⟩
    have less := lt ⟨pong, isPong, by omega⟩
    omega

/--
What is written back is Pong frames, one for each answered Ping, if and only
if no `send` fails and every answered Ping is as short as a Ping has to be.
-/
theorem pongsWellFormed_iff (loads : Nat) (sock : Socket) :
    PongsWellFormed loads sock ↔
      NoSendFails loads sock ∧
        ∀ ping ∈ answeredPings loads sock.incoming, ping.length ≤ 125 := by
  constructor
  · exact short_of_pongsWellFormed
  · rintro ⟨takes, short⟩
    rcases discardLoop_written loads sock with ⟨written, _, outgoing, wrote⟩
    rw [flatMap_reply] at wrote
    rcases exists_pongs short with ⟨pongs, arePongs, payloads, bytes⟩
    refine ⟨pongs, arePongs, payloads, ?_⟩
    rw [outgoing, wrote.all takes, bytes, answeredPings]

/-- A Ping with the shortest payload that is too long. -/
def longPing : Frame where
  fin := true
  rsv := 0
  opcode := Frame.ping
  maskKey := some fun _ => 0
  lengthForm := .medium
  payload := List.replicate 126 0
  fits := by
    rw [List.length_replicate]
    decide

/-- It is answered with the header of a frame with a 16-bit length. -/
theorem longPing_not_wellFormed :
    ¬ PongsWellFormed 1
        (Sock.receiving longPing.encode Segmentation.single) := by
  intro wellFormed
  have short := (short_of_pongsWellFormed wellFormed).2
  have incoming :
      (Sock.receiving longPing.encode Segmentation.single).incoming =
        longPing.encode ++ [] :=
    (List.append_nil _).symm
  have pings :
      answeredPings 1
          (Sock.receiving longPing.encode Segmentation.single).incoming =
        [List.replicate 126 0] := by
    rw [answeredPings, framesRead, incoming, Frame.decode_encode]
    rfl
  rw [pings] at short
  have ping := short _ (List.mem_singleton_self _)
  rw [List.length_replicate] at ping
  omega

end AccelObserver.Server.WebPongs
