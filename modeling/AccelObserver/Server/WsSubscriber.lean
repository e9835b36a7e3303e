import AccelObserver.Library.Channel
import AccelObserver.Library.Frame

/-!
# The WebSocket subscriber: reading frames

The receiving half of `WsSubscriber`: `read_frame` with its helpers, and the
inner loop of `run` that hands payloads to the callback.  The socket is a
`Channel.Sock`, so every segmentation of the incoming stream is covered.

A `std::vector` of more than `2 ^ 63 - 1` bytes throws `length_error`; below
that the allocation is assumed to succeed.
-/

namespace AccelObserver.Server.WsSubscriber

open AccelObserver.Library
open AccelObserver.Library.Channel
open AccelObserver.Library.Frame (MaskKey)

abbrev Socket := Sock UInt8

/-! ## Input and output -/

/-- `recv_exact`: false when the stream ends before `len` bytes. -/
def recvExact (sock : Socket) (len : Nat) : Option Bytes × Socket :=
  recvAll 65536 len sock

/-- `send_exact`: false when a `send` fails. -/
def sendExact (sock : Socket) (buf : Bytes) : Bool × Socket :=
  sendAll 65536 buf sock

/-! ## One frame -/

/-- How a call of `read_frame` ends. -/
inductive FrameResult where
  /-- It returns false. -/
  | disconnected
  /-- It returns true and has set `payload`. -/
  | received (payload : Bytes)
  /-- The constructor of a vector throws. -/
  | lengthError
  deriving DecidableEq, Repr

/-- The largest size that a vector of bytes can have. -/
def maxVectorSize : Nat := 2 ^ 63 - 1

/-- The extended payload length that the second header byte asks for. -/
def readLength (payLen : UInt64) (sock : Socket) : Option UInt64 × Socket :=
  if payLen = 126 then
    match recvExact sock 2 with
    | (none, sock) => (none, sock)
    | (some ext, sock) =>
        (some (((ext.getD 0 0).toUInt64 <<< 8) ||| (ext.getD 1 0).toUInt64),
          sock)
  else if payLen = 127 then
    match recvExact sock 8 with
    | (none, sock) => (none, sock)
    | (some ext, sock) =>
        (some
          (ext.foldl (fun payLen byte => (payLen <<< 8) ||| byte.toUInt64) 0),
          sock)
  else (some payLen, sock)

/-- The masking key, all zero for an unmasked frame. -/
def readMaskKey (masked : Bool) (sock : Socket) : Option MaskKey × Socket :=
  if masked then
    match recvExact sock 4 with
    | (none, sock) => (none, sock)
    | (some bytes, sock) => (some fun index => bytes.getD index 0, sock)
  else (some fun _ => 0, sock)

/-- `data[i] ^= mask_key[i & 3u]` for every byte. -/
def unmask (maskKey : MaskKey) (data : Bytes) : Bytes :=
  data.mapIdx fun index byte => byte ^^^ maskKey (Fin.ofNat 4 (index &&& 3))

/-- `send_pong`: the results of the two writes are ignored. -/
def sendPong (sock : Socket) (pingPayload : Bytes) : Socket :=
  if 125 < pingPayload.length then sock
  else
    let sock :=
      (sendExact sock [0x8A, UInt8.ofNat pingPayload.length]).2
    if 0 < pingPayload.length then (sendExact sock pingPayload).2 else sock

/-- A Ping is answered, and the caller gets an empty payload. -/
def readPing (masked : Bool) (maskKey : MaskKey) (payLen : UInt64)
    (sock : Socket) : FrameResult × Socket :=
  if maxVectorSize < payLen.toNat then (.lengthError, sock)
  else
    match recvExact sock payLen.toNat with
    | (none, sock) => (.disconnected, sock)
    | (some pingData, sock) =>
        let pingData := if masked then unmask maskKey pingData else pingData
        (.received [], sendPong sock pingData)

/-- A Pong is dropped; that its payload may be cut short is not noticed. -/
def readPong (payLen : UInt64) (sock : Socket) : FrameResult × Socket :=
  if maxVectorSize < payLen.toNat then (.lengthError, sock)
  else (.received [], (recvExact sock payLen.toNat).2)

/-- Every other opcode is data, continuation and reserved opcodes included. -/
def readData (masked : Bool) (maskKey : MaskKey) (payLen : UInt64)
    (sock : Socket) : FrameResult × Socket :=
  if 0 < payLen.toNat then
    if maxVectorSize < payLen.toNat then (.lengthError, sock)
    else
      match recvExact sock payLen.toNat with
      | (none, sock) => (.disconnected, sock)
      | (some data, sock) =>
          (.received (if masked then unmask maskKey data else data), sock)
  else (.received [], sock)

/-- What `read_frame` does once it has read the header of a frame. -/
def readBody (opcode : UInt8) (masked : Bool) (maskKey : MaskKey)
    (payLen : UInt64) (sock : Socket) : FrameResult × Socket :=
  if opcode = 0x08 then (.disconnected, sock)
  else if opcode = 0x09 then readPing masked maskKey payLen sock
  else if opcode = 0x0A then readPong payLen sock
  else readData masked maskKey payLen sock

/-- `read_frame`. -/
def readFrame (sock : Socket) : FrameResult × Socket :=
  match recvExact sock 2 with
  | (none, sock) => (.disconnected, sock)
  | (some hdr, sock) =>
      let opcode := hdr.getD 0 0 &&& 0x0F
      let masked := hdr.getD 1 0 &&& 0x80 != 0
      match readLength (hdr.getD 1 0 &&& 0x7F).toUInt64 sock with
      | (none, sock) => (.disconnected, sock)
      | (some payLen, sock) =>
          match readMaskKey masked sock with
          | (none, sock) => (.disconnected, sock)
          | (some maskKey, sock) => readBody opcode masked maskKey payLen sock

/-! ## The frame loop of `run` -/

/-- Why the inner loop of `run` ended. -/
inductive LoopEnd where
  /-- `running_` was read as false. -/
  | stopped
  /-- `read_frame` returned false. -/
  | disconnected
  /-- `length_error` left `read_frame`, and with it the thread. -/
  | lengthError
  deriving DecidableEq, Repr

/-- What the inner loop did: the payloads it passed to the callback, and the
socket it left. -/
structure LoopResult where
  callbacks : List Bytes
  ending : LoopEnd
  sock : Socket

/--
The inner loop of `run`, with the callback set.  `running_` is read as true
`loads` times and as false after that, so `loads` says when `stop` takes
effect.
-/
def frameLoop : Nat → Socket → LoopResult
  | 0, sock => { callbacks := [], ending := .stopped, sock := sock }
  | loads + 1, sock =>
      match readFrame sock with
      | (.disconnected, sock) =>
          { callbacks := [], ending := .disconnected, sock := sock }
      | (.lengthError, sock) =>
          { callbacks := [], ending := .lengthError, sock := sock }
      | (.received payload, sock) =>
          let rest := frameLoop loads sock
          if payload.isEmpty then rest
          else { rest with callbacks := payload :: rest.callbacks }

/-! ## What the helpers do on well-formed input -/

theorem recvExact_eq_of_append
    (sock : Socket) (len : Nat) {data rest : Bytes}
    (incoming : sock.incoming = data ++ rest) (length : data.length = len) :
    ∃ recvCalls,
      recvExact sock len =
        (some data,
          { sock with incoming := rest, recvCalls := recvCalls }) :=
  recvAll_eq_of_append (by decide) incoming length

theorem recvExact_eq_of_lt
    (sock : Socket) (len : Nat) (short : sock.incoming.length < len) :
    ∃ recvCalls,
      recvExact sock len =
        (none, { sock with incoming := [], recvCalls := recvCalls }) :=
  recvAll_eq_of_lt (by decide) short

theorem sendExact_eq
    (sock : Socket) (complete : sock.SendsComplete) (buf : Bytes) :
    ∃ sendCalls,
      sendExact sock buf =
        (true,
          { sock with
            outgoing := sock.outgoing ++ buf
            sendCalls := sendCalls }) :=
  sendAll_eq (by decide) buf complete

/-- The unmasking loop is the masking of the frame grammar. -/
theorem unmask_eq_mask (maskKey : MaskKey) (data : Bytes) :
    unmask maskKey data = Frame.mask maskKey data := by
  simpa [unmask, Frame.mask] using
    Frame.mapIdx_eq_maskFrom maskKey 0 data

theorem toUInt64_ofNat_toNat {n : Nat} (small : n < 256) :
    (UInt8.ofNat n).toUInt64.toNat = n := by
  rw [UInt8.toNat_toUInt64, UInt8.toNat_ofNat', Nat.mod_eq_of_lt small]

/-- The extended length of any form is read back, and nothing more. -/
theorem readLength_eq
    {form : Frame.LengthForm} {length : Nat} (fits : length < form.bound)
    (sock : Socket) {rest : Bytes}
    (incoming : sock.incoming = form.extension length ++ rest) :
    ∃ payLen recvCalls, payLen.toNat = length ∧
      readLength (UInt8.ofNat (form.code length)).toUInt64 sock =
        (some payLen,
          { sock with incoming := rest, recvCalls := recvCalls }) := by
  cases form with
  | short =>
      have code := toUInt64_ofNat_toNat
        (show length < 256 from Nat.lt_trans fits (by decide))
      have notMedium : (UInt8.ofNat length).toUInt64 ≠ 126 := by
        intro equal
        rw [equal] at code
        exact absurd fits (by simp [← code, Frame.LengthForm.bound])
      have notLong : (UInt8.ofNat length).toUInt64 ≠ 127 := by
        intro equal
        rw [equal] at code
        exact absurd fits (by simp [← code, Frame.LengthForm.bound])
      refine ⟨_, sock.recvCalls, code, ?_⟩
      simp only [readLength, Frame.LengthForm.code, notMedium, notLong,
        if_false]
      simp only [Frame.LengthForm.extension, List.nil_append] at incoming
      rw [← incoming]
  | medium =>
      rcases recvExact_eq_of_append sock 2 incoming
          (by simp [Frame.LengthForm.extension])
        with ⟨recvCalls, received⟩
      refine ⟨_, recvCalls,
        BigEndian.read_write_of_lt (show 2 ≤ 8 by decide) fits, ?_⟩
      simp [readLength, Frame.LengthForm.code, received,
        Frame.LengthForm.extension, BigEndian.write, BigEndian.read]
  | long =>
      rcases recvExact_eq_of_append sock 8 incoming
          (by simp [Frame.LengthForm.extension])
        with ⟨recvCalls, received⟩
      refine ⟨_, recvCalls,
        BigEndian.read_write_of_lt (Nat.le_refl 8)
          (Nat.lt_trans fits (by decide)), ?_⟩
      simp [readLength, Frame.LengthForm.code, received,
        Frame.LengthForm.extension, BigEndian.read]

/-- The extended length cannot be read when its bytes are cut short. -/
theorem readLength_eq_of_lt
    (form : Frame.LengthForm) (length : Nat) (sock : Socket)
    (short : sock.incoming.length < (form.extension length).length) :
    (readLength (UInt8.ofNat (form.code length)).toUInt64 sock).1 = none := by
  cases form with
  | short => simp [Frame.LengthForm.extension] at short
  | medium =>
      rcases recvExact_eq_of_lt sock 2
          (by simpa [Frame.LengthForm.extension] using short)
        with ⟨recvCalls, failed⟩
      simp [readLength, Frame.LengthForm.code, failed]
  | long =>
      rcases recvExact_eq_of_lt sock 8
          (by simpa [Frame.LengthForm.extension] using short)
        with ⟨recvCalls, failed⟩
      simp [readLength, Frame.LengthForm.code, failed]

/-- The key that `read_frame` works with. -/
def keyOrZero (maskKey : Option MaskKey) : MaskKey :=
  maskKey.getD fun _ => 0

theorem readMaskKey_eq
    (frame : Frame) (sock : Socket) {rest : Bytes}
    (incoming : sock.incoming = frame.keyBytes ++ rest) :
    ∃ recvCalls,
      readMaskKey frame.maskKey.isSome sock =
        (some (keyOrZero frame.maskKey),
          { sock with incoming := rest, recvCalls := recvCalls }) := by
  unfold Frame.keyBytes at incoming
  cases maskKey : frame.maskKey with
  | none =>
      simp only [maskKey, List.nil_append] at incoming
      refine ⟨sock.recvCalls, ?_⟩
      simp [readMaskKey, keyOrZero, ← incoming]
  | some key =>
      simp only [maskKey] at incoming
      rcases recvExact_eq_of_append sock 4 incoming rfl
        with ⟨recvCalls, received⟩
      refine ⟨recvCalls, ?_⟩
      have same :
          (fun index : Fin 4 =>
            [key 0, key 1, key 2, key 3].getD index 0) = key := by
        funext index
        match index with
        | 0 => rfl
        | 1 => rfl
        | 2 => rfl
        | 3 => rfl
      simp only [readMaskKey, Option.isSome_some, if_true, received, same,
        keyOrZero, Option.getD_some]

theorem readMaskKey_eq_of_lt
    (frame : Frame) (sock : Socket)
    (short : sock.incoming.length < frame.keyBytes.length) :
    (readMaskKey frame.maskKey.isSome sock).1 = none := by
  unfold Frame.keyBytes at short
  cases maskKey : frame.maskKey with
  | none => simp [maskKey] at short
  | some key =>
      simp only [maskKey] at short
      rcases recvExact_eq_of_lt sock 4 short with ⟨recvCalls, failed⟩
      simp [readMaskKey, failed]

/-- The payload bytes are unmasked with the key that was sent. -/
theorem unmask_wirePayload (frame : Frame) :
    (if frame.maskKey.isSome then
        unmask (keyOrZero frame.maskKey) frame.wirePayload
      else frame.wirePayload) =
      frame.payload := by
  unfold Frame.wirePayload
  cases frame.maskKey with
  | none => rfl
  | some key => simp [keyOrZero, unmask_eq_mask]

/-! ## One well-formed frame -/

/-- Reading the header of a frame leaves `read_frame` at the frame's body. -/
theorem readFrame_header
    (frame : Frame) (sock : Socket) {rest : Bytes}
    (incoming : sock.incoming = frame.header ++ rest) :
    ∃ payLen recvCalls, payLen.toNat = frame.payload.length ∧
      readFrame sock =
        readBody (UInt8.ofNat frame.opcode) frame.maskKey.isSome
          (keyOrZero frame.maskKey) payLen
          { sock with incoming := rest, recvCalls := recvCalls } := by
  simp only [Frame.header, List.append_assoc] at incoming
  rcases recvExact_eq_of_append sock 2 incoming rfl with ⟨firstCalls, first⟩
  rcases readLength_eq frame.fits
      { sock with
        incoming :=
          frame.lengthForm.extension frame.payload.length ++
            (frame.keyBytes ++ rest)
        recvCalls := firstCalls } rfl
    with ⟨payLen, lengthCalls, lengthEq, length⟩
  rcases readMaskKey_eq frame
      { sock with
        incoming := frame.keyBytes ++ rest
        recvCalls := lengthCalls } rfl
    with ⟨keyCalls, key⟩
  refine ⟨payLen, keyCalls, lengthEq, ?_⟩
  simp only [readFrame, first, List.getD_cons_zero, List.getD_cons_succ,
    Frame.firstByte_and, Frame.secondByte_and_length,
    Frame.secondByte_and_mask, length, key]

/-- What the caller of `read_frame` gets from a frame other than a Close. -/
def delivered (frame : Frame) : Bytes :=
  if frame.opcode = Frame.ping ∨ frame.opcode = Frame.pong then []
  else frame.payload

/-- What `send_pong` writes for a Ping payload. -/
def pongBytes (pingPayload : Bytes) : Bytes :=
  if 125 < pingPayload.length then []
  else [0x8A, UInt8.ofNat pingPayload.length] ++ pingPayload

/-- What `read_frame` writes back for a frame. -/
def reply (frame : Frame) : Bytes :=
  if frame.opcode = Frame.ping then pongBytes frame.payload else []

theorem sendPong_eq
    (sock : Socket) (complete : sock.SendsComplete) (pingPayload : Bytes) :
    ∃ sendCalls,
      sendPong sock pingPayload =
        { sock with
          outgoing := sock.outgoing ++ pongBytes pingPayload
          sendCalls := sendCalls } := by
  unfold sendPong pongBytes
  by_cases long : 125 < pingPayload.length
  · exact ⟨sock.sendCalls, by simp [long]⟩
  · rcases sendExact_eq sock complete [0x8A, UInt8.ofNat pingPayload.length]
      with ⟨headerCalls, header⟩
    simp only [long, if_false, header]
    by_cases some : 0 < pingPayload.length
    · rcases sendExact_eq
          { sock with
            outgoing :=
              sock.outgoing ++ [0x8A, UInt8.ofNat pingPayload.length]
            sendCalls := headerCalls }
          complete pingPayload
        with ⟨payloadCalls, payload⟩
      exact ⟨payloadCalls, by simp [some, payload]⟩
    · obtain rfl : pingPayload = [] :=
        List.length_eq_zero_iff.mp (Nat.eq_zero_of_not_pos some)
      exact ⟨headerCalls, by simp⟩

theorem payLen_le_maxVectorSize
    {frame : Frame} {payLen : UInt64}
    (length : payLen.toNat = frame.payload.length) :
    ¬ maxVectorSize < payLen.toNat := by
  have bound := frame.payload_length_lt
  simp only [maxVectorSize]
  omega

/-- The opcode tests of `read_frame` see the opcode of the frame. -/
theorem ofNat_opcode_eq_iff (opcode other : Fin 16) :
    UInt8.ofNat opcode = UInt8.ofNat other ↔ opcode = other := by
  revert opcode other
  decide

/-- A Close frame ends the reading with its payload unread. -/
theorem readFrame_close
    {frame : Frame} (isClose : frame.opcode = Frame.close)
    {sock : Socket} {rest : Bytes}
    (incoming : sock.incoming = frame.header ++ rest) :
    ∃ recvCalls,
      readFrame sock =
        (.disconnected,
          { sock with incoming := rest, recvCalls := recvCalls }) := by
  rcases readFrame_header frame sock incoming
    with ⟨payLen, recvCalls, -, header⟩
  have closeTest : UInt8.ofNat frame.opcode = 0x08 :=
    (ofNat_opcode_eq_iff frame.opcode Frame.close).mpr isClose
  refine ⟨recvCalls, header.trans ?_⟩
  simp [readBody, closeTest]

/-- A whole frame has its payload behind the header. -/
theorem readFrame_body
    {frame : Frame} {sock : Socket} {rest : Bytes}
    (incoming : sock.incoming = frame.encode ++ rest) :
    ∃ payLen headerCalls bodyCalls, payLen.toNat = frame.payload.length ∧
      readFrame sock =
        readBody (UInt8.ofNat frame.opcode) frame.maskKey.isSome
          (keyOrZero frame.maskKey) payLen
          { sock with
            incoming := frame.wirePayload ++ rest
            recvCalls := headerCalls } ∧
      recvExact
          { sock with
            incoming := frame.wirePayload ++ rest
            recvCalls := headerCalls }
          payLen.toNat =
        (some frame.wirePayload,
          { sock with incoming := rest, recvCalls := bodyCalls }) := by
  simp only [Frame.encode, List.append_assoc] at incoming
  rcases readFrame_header frame sock incoming
    with ⟨payLen, headerCalls, length, header⟩
  rcases recvExact_eq_of_append
      { sock with
        incoming := frame.wirePayload ++ rest
        recvCalls := headerCalls }
      payLen.toNat rfl (by rw [Frame.wirePayload_length, length])
    with ⟨bodyCalls, body⟩
  exact ⟨payLen, headerCalls, bodyCalls, length, header, body⟩

/-- A frame that is not a control frame: nothing is written. -/
theorem readFrame_data
    {frame : Frame} (notClose : frame.opcode ≠ Frame.close)
    (notPing : frame.opcode ≠ Frame.ping) (notPong : frame.opcode ≠ Frame.pong)
    {sock : Socket} {rest : Bytes}
    (incoming : sock.incoming = frame.encode ++ rest) :
    ∃ recvCalls,
      readFrame sock =
        (.received frame.payload,
          { sock with incoming := rest, recvCalls := recvCalls }) := by
  rcases readFrame_body incoming with
    ⟨payLen, headerCalls, bodyCalls, length, header, body⟩
  have bounded := payLen_le_maxVectorSize length
  have opcodeTest (other : Fin 16) := ofNat_opcode_eq_iff frame.opcode other
  have closeTest : UInt8.ofNat frame.opcode ≠ 0x08 :=
    fun equal => notClose ((opcodeTest Frame.close).mp equal)
  have pingTest : UInt8.ofNat frame.opcode ≠ 0x09 :=
    fun equal => notPing ((opcodeTest Frame.ping).mp equal)
  have pongTest : UInt8.ofNat frame.opcode ≠ 0x0A :=
    fun equal => notPong ((opcodeTest Frame.pong).mp equal)
  rw [header]
  simp only [readBody, closeTest, pingTest, pongTest, if_false, readData,
    bounded, body, unmask_wirePayload]
  by_cases empty : 0 < payLen.toNat
  · exact ⟨bodyCalls, by simp [empty]⟩
  · have noPayload : frame.payload = [] :=
      List.length_eq_zero_iff.mp (by omega)
    have noWirePayload : frame.wirePayload = [] :=
      List.length_eq_zero_iff.mp (by simp [noPayload])
    exact ⟨headerCalls, by simp [empty, noPayload, noWirePayload]⟩

/--
One frame other than a Close: its payload is delivered unmasked, a Ping is
answered, and exactly its bytes are consumed.
-/
theorem readFrame_eq
    {frame : Frame} (notClose : frame.opcode ≠ Frame.close)
    {sock : Socket} (complete : sock.SendsComplete) {rest : Bytes}
    (incoming : sock.incoming = frame.encode ++ rest) :
    ∃ recvCalls sendCalls,
      readFrame sock =
        (.received (delivered frame),
          { sock with
            incoming := rest
            recvCalls := recvCalls
            outgoing := sock.outgoing ++ reply frame
            sendCalls := sendCalls }) := by
  rcases readFrame_body incoming with
    ⟨payLen, headerCalls, bodyCalls, length, header, body⟩
  have bounded := payLen_le_maxVectorSize length
  have opcodeTest (other : Fin 16) := ofNat_opcode_eq_iff frame.opcode other
  have closeTest : UInt8.ofNat frame.opcode ≠ 0x08 :=
    fun equal => notClose ((opcodeTest Frame.close).mp equal)
  rw [header]
  by_cases isPing : frame.opcode = Frame.ping
  · rcases sendPong_eq { sock with incoming := rest, recvCalls := bodyCalls }
        complete frame.payload
      with ⟨sendCalls, pong⟩
    refine ⟨bodyCalls, sendCalls, ?_⟩
    have pingTest : UInt8.ofNat frame.opcode = 0x09 :=
      (opcodeTest Frame.ping).mpr isPing
    have answer : reply frame = pongBytes frame.payload := by
      simp [reply, isPing]
    have nothing : delivered frame = [] := by simp [delivered, isPing]
    rw [answer, nothing]
    simp [readBody, pingTest, readPing, bounded, body, unmask_wirePayload,
      pong]
  · have pingTest : UInt8.ofNat frame.opcode ≠ 0x09 :=
      fun equal => isPing ((opcodeTest Frame.ping).mp equal)
    by_cases isPong : frame.opcode = Frame.pong
    · refine ⟨bodyCalls, sock.sendCalls, ?_⟩
      have pongTest : UInt8.ofNat frame.opcode = 0x0A :=
        (opcodeTest Frame.pong).mpr isPong
      have noAnswer : reply frame = [] := by simp [reply, isPing]
      have nothing : delivered frame = [] := by simp [delivered, isPong]
      rw [noAnswer, nothing]
      simp [readBody, pongTest, readPong, bounded, body]
    · rcases readFrame_data notClose isPing isPong incoming with
        ⟨dataCalls, data⟩
      refine ⟨dataCalls, sock.sendCalls, ?_⟩
      rw [← header, data]
      simp [delivered, reply, isPing, isPong]

/-! ## A frame that is cut short -/

/-- A cut inside the header disconnects. -/
theorem readFrame_of_header_cut
    (frame : Frame) {sock : Socket} {count : Nat}
    (cut : count < frame.header.length)
    (incoming : sock.incoming = frame.header.take count) :
    (readFrame sock).1 = .disconnected := by
  by_cases early : count < 2
  · rcases recvExact_eq_of_lt sock 2 (by simp [incoming]; omega)
      with ⟨recvCalls, failed⟩
    simp [readFrame, failed]
  · set extension := frame.lengthForm.extension frame.payload.length with
      extensionEq
    rcases Nat.exists_eq_add_of_le (Nat.not_lt.mp early) with ⟨more, rfl⟩
    have split :
        sock.incoming =
          [frame.firstByte, frame.secondByte] ++
            (extension ++ frame.keyBytes).take more := by
      rw [incoming, Frame.header, List.append_assoc, Nat.add_comm]
      rfl
    rcases recvExact_eq_of_append sock 2 split rfl with ⟨firstCalls, first⟩
    simp only [Frame.header, List.length_append, List.length_cons,
      List.length_nil, ← extensionEq] at cut
    simp only [readFrame, first, List.getD_cons_zero, List.getD_cons_succ,
      Frame.firstByte_and, Frame.secondByte_and_length,
      Frame.secondByte_and_mask]
    by_cases inLength : more < extension.length
    · have failed :=
        readLength_eq_of_lt frame.lengthForm frame.payload.length
          { sock with
            incoming := (extension ++ frame.keyBytes).take more
            recvCalls := firstCalls }
          (by simp [← extensionEq]; omega)
      split
      · rfl
      · next received => simp [received] at failed
    · rcases Nat.exists_eq_add_of_le (Nat.not_lt.mp inLength) with ⟨rest, rfl⟩
      rcases readLength_eq frame.fits
          { sock with
            incoming :=
              (extension ++ frame.keyBytes).take (extension.length + rest)
            recvCalls := firstCalls }
          (List.take_length_add_append rest)
        with ⟨payLen, lengthCalls, -, length⟩
      have failed :=
        readMaskKey_eq_of_lt frame
          { sock with
            incoming := frame.keyBytes.take rest
            recvCalls := lengthCalls }
          (by simp; omega)
      simp only [length]
      split
      · rfl
      · next received => simp [received] at failed

/-- A cut anywhere disconnects, except inside the payload of a Pong. -/
theorem readFrame_of_cut
    {frame : Frame} (notPong : frame.opcode ≠ Frame.pong)
    {sock : Socket} {count : Nat} (cut : count < frame.encode.length)
    (incoming : sock.incoming = frame.encode.take count) :
    (readFrame sock).1 = .disconnected := by
  by_cases inHeader : count < frame.header.length
  · refine readFrame_of_header_cut frame inHeader ?_
    rw [incoming, Frame.encode,
      List.take_append_of_le_length (Nat.le_of_lt inHeader)]
  · rcases Nat.exists_eq_add_of_le (Nat.not_lt.mp inHeader) with ⟨read, rfl⟩
    have split :
        sock.incoming = frame.header ++ frame.wirePayload.take read := by
      rw [incoming, Frame.encode, List.take_length_add_append]
    rcases readFrame_header frame sock split
      with ⟨payLen, recvCalls, length, header⟩
    have short : read < payLen.toNat := by
      simpa [Frame.encode, length] using cut
    rcases recvExact_eq_of_lt
        { sock with
          incoming := frame.wirePayload.take read
          recvCalls := recvCalls }
        payLen.toNat
        (by simp only [List.length_take]; omega)
      with ⟨bodyCalls, failed⟩
    have bounded := payLen_le_maxVectorSize length
    have pongTest : UInt8.ofNat frame.opcode ≠ 0x0A :=
      fun equal =>
        notPong ((ofNat_opcode_eq_iff frame.opcode Frame.pong).mp equal)
    rw [header]
    simp only [readBody, pongTest, if_false]
    split
    · rfl
    · split
      · simp [readPing, bounded, failed]
      · simp [readData, bounded, failed,
          Nat.lt_of_le_of_lt (Nat.zero_le _) short]

end AccelObserver.Server.WsSubscriber
