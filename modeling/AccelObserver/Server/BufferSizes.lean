import AccelObserver.Server.WebPongs

/-!
# The buffers that a peer asks for

Both readers of frames pass the length that a header announces to the
constructor of a vector before they have seen a byte of the payload.
`subscriberSizes` and `browserSizes` are the sizes that the two loops pass to
it, and `TooLongBehind` says of a stream that it announces a length that is
too great.  `sizes_le_iff` ties the two together, for a reader whose calls go
through the stream as `Call` says.
-/

namespace AccelObserver.Server.BufferSizes

open AccelObserver.Library
open AccelObserver.Server.WsSubscriber
  (Socket maxVectorSize readLength readMaskKey readFrame recvExact)
open AccelObserver.Server.WebPongs (recvExactWebif wsDiscardFrame)
open AccelObserver.Server.WsFrameLoop (encodeAll)

/-! ## The sizes that are asked for -/

/-- The vector that `read_frame` builds behind a header. -/
def bodySize (opcode : UInt8) (payLen : UInt64) : Option Nat :=
  if opcode = 0x08 then none
  else if opcode = 0x09 then some payLen.toNat
  else if opcode = 0x0A then some payLen.toNat
  else if 0 < payLen.toNat then some payLen.toNat
  else none

/-- The size that a call of `read_frame` passes to the constructor. -/
def frameSize (sock : Socket) : Option Nat :=
  match recvExact sock 2 with
  | (none, _) => none
  | (some hdr, sock) =>
      match readLength (hdr.getD 1 0 &&& 0x7F).toUInt64 sock with
      | (none, _) => none
      | (some payLen, sock) =>
          match readMaskKey (hdr.getD 1 0 &&& 0x80 != 0) sock with
          | (none, _) => none
          | (some _, _) => bodySize (hdr.getD 0 0 &&& 0x0F) payLen

/-- The size that a call of `ws_discard_frame` passes to it. -/
def discardSize (sock : Socket) : Option Nat :=
  match recvExactWebif sock 2 with
  | (none, _) => none
  | (some hdr, sock) =>
      if hdr.getD 0 0 &&& 0x0F = 0x08 then none
      else
        match readLength (hdr.getD 1 0 &&& 0x7F).toUInt64 sock with
        | (none, _) => none
        | (some payloadLen, sock) =>
            match readMaskKey (hdr.getD 1 0 &&& 0x80 != 0) sock with
            | (none, _) => none
            | (some _, _) => some payloadLen.toNat

/-- The socket behind a call of `read_frame` that returns true. -/
def afterFrame (sock : Socket) : Option Socket :=
  match readFrame sock with
  | (.received _, sock) => some sock
  | _ => none

/-- The socket behind a call of `ws_discard_frame` that returns true. -/
def afterDiscard (sock : Socket) : Option Socket :=
  match wsDiscardFrame sock with
  | (.returned true, sock) => some sock
  | _ => none

/-- The sizes that a loop of calls asks for. -/
def sizes (size : Socket → Option Nat) (after : Socket → Option Socket) :
    Nat → Socket → List Nat
  | 0, _ => []
  | loads + 1, sock =>
      (size sock).toList ++
        match after sock with
        | none => []
        | some sock => sizes size after loads sock

/-- The sizes in the inner loop of `WsSubscriber::run`. -/
def subscriberSizes : Nat → Socket → List Nat :=
  sizes frameSize afterFrame

/-- The sizes in the loop of `WebInterface::handle_client`. -/
def browserSizes : Nat → Socket → List Nat :=
  sizes discardSize afterDiscard

/-! ## What a peer announces -/

/-- The opcode and the length of a header that has arrived, and what is
behind it. -/
def announced : Bytes → Option (UInt8 × UInt64 × Bytes)
  | first :: second :: bytes =>
      (Frame.decodeLength (second.toNat % 128) bytes).bind fun length =>
        (Frame.decodeKey (decide (128 ≤ second.toNat)) length.2).map
          fun key => (first &&& 0x0F, length.1, key.2)
  | _ => none

/-- A header other than that of a Close frame, with a length of 2^63 bytes or
more. -/
def TooLong (stream : Bytes) : Prop :=
  ∃ opcode length behind,
    announced stream = some (opcode, length, behind) ∧ opcode ≠ 0x08 ∧
      2 ^ 63 ≤ length.toNat

/-- Fewer than `loads` whole frames, none of them a Close, are followed by
such a header. -/
def TooLongBehind (loads : Nat) (stream : Bytes) : Prop :=
  ∃ (frames : List Frame) (rest : Bytes),
    stream = encodeAll frames ++ rest ∧ frames.length < loads ∧
      (∀ frame ∈ frames, frame.opcode ≠ Frame.close) ∧ TooLong rest

/-- A whole frame is behind its header. -/
theorem announced_of_decode
    {stream rest : Bytes} {frame : Frame}
    (decoded : Frame.decode stream = some (frame, rest)) :
    ∃ length behind front,
      announced stream = some (UInt8.ofNat frame.opcode, length, behind) ∧
        length.toNat < 2 ^ 63 ∧
        takeExact length.toNat behind = some (front, rest) := by
  match stream, decoded with
  | first :: second :: bytes, decoded =>
      have opcode :=
        WebPongs.opcode_of_encode (Frame.decode_eq_some_iff.mp decoded)
      rw [Frame.decode] at decoded
      rcases Option.bind_eq_some_iff.mp decoded with
        ⟨⟨length, behindLength⟩, lengthCut, decoded⟩
      rcases Option.bind_eq_some_iff.mp decoded with
        ⟨⟨maskKey, behindKey⟩, keyCut, decoded⟩
      rcases Option.bind_eq_some_iff.mp decoded with
        ⟨⟨data, behindData⟩, dataCut, decoded⟩
      rcases Option.map_eq_some_iff.mp decoded with ⟨_, assembled, same⟩
      cases same
      refine ⟨length, behindKey, data, ?_, ?_, dataCut⟩
      · rw [announced, lengthCut, Option.bind_some, keyCut, Option.map_some,
          opcode]
      · have bound := frame.payload_length_lt
        have wire := (Frame.assemble_eq_some assembled).2.2.2
        have count := (takeExact_eq_some_iff.mp dataCut).2
        rw [← frame.wirePayload_length, wire, count] at bound
        exact bound

/-- Behind a header with a possible length there is a frame, or the stream
ends. -/
theorem takeExact_of_announced
    {stream behind : Bytes} {opcode : UInt8} {length : UInt64}
    (header : announced stream = some (opcode, length, behind))
    (possible : length.toNat < 2 ^ 63)
    (noFrame : Frame.decode stream = none) :
    takeExact length.toNat behind = none := by
  match stream, header, noFrame with
  | first :: second :: bytes, header, noFrame =>
      rw [announced] at header
      rcases Option.bind_eq_some_iff.mp header with
        ⟨⟨register, behindLength⟩, lengthCut, header⟩
      rcases Option.map_eq_some_iff.mp header with
        ⟨⟨maskKey, behindKey⟩, keyCut, same⟩
      cases same
      have small : second.toNat % 128 < 128 := Nat.mod_lt _ (by decide)
      have fits := Frame.decodeLength_lt_bound small lengthCut possible
      rw [Frame.decode] at noFrame
      simp only [lengthCut, Option.bind_some, keyCut] at noFrame
      cases cut : takeExact register.toNat behindKey with
      | none => rfl
      | some pair =>
          have count := (takeExact_eq_some_iff.mp cut).2
          rw [← count] at fits
          rcases Frame.exists_assemble first maskKey fits with
            ⟨frame, assembled, _⟩
          rw [cut, Option.bind_some, assembled] at noFrame
          cases noFrame

theorem decode_of_tooLong
    {stream : Bytes} (tooLong : TooLong stream) :
    Frame.decode stream = none := by
  rcases tooLong with ⟨opcode, length, behind, header, _, long⟩
  cases decoded : Frame.decode stream with
  | none => rfl
  | some pair =>
      rcases announced_of_decode decoded with
        ⟨other, _, _, same, bound, _⟩
      rw [header] at same
      cases same
      exact absurd bound (Nat.not_lt.mpr long)

theorem not_tooLong_nil : ¬ TooLong [] := by
  rintro ⟨_, _, _, header, _⟩
  cases header

section Behind

variable {loads : Nat} {stream rest : Bytes} {frame : Frame}

theorem not_tooLongBehind_zero : ¬ TooLongBehind 0 stream := by
  rintro ⟨frames, _, _, fewer, _⟩
  exact Nat.not_lt_zero _ fewer

/-- Without a whole frame in front the header is the first one. -/
theorem tooLongBehind_of_none
    (noFrame : Frame.decode stream = none) :
    TooLongBehind (loads + 1) stream ↔ TooLong stream := by
  constructor
  · rintro ⟨frames, rest, split, _, _, tooLong⟩
    cases frames with
    | nil => exact split ▸ tooLong
    | cons frame more =>
        rw [encodeAll, List.flatMap_cons, List.append_assoc] at split
        rw [split, Frame.decode_encode] at noFrame
        cases noFrame
  · intro tooLong
    exact ⟨[], stream, rfl, Nat.succ_pos loads, by simp, tooLong⟩

/-- A whole frame in front is one of those that are read. -/
theorem tooLongBehind_of_some
    (decoded : Frame.decode stream = some (frame, rest)) :
    TooLongBehind (loads + 1) stream ↔
      frame.opcode ≠ Frame.close ∧ TooLongBehind loads rest := by
  constructor
  · rintro ⟨frames, behind, split, fewer, noClose, tooLong⟩
    cases frames with
    | nil =>
        have same : stream = behind := split
        rw [← same] at tooLong
        rw [decode_of_tooLong tooLong] at decoded
        cases decoded
    | cons first more =>
        rw [encodeAll, List.flatMap_cons, List.append_assoc] at split
        rw [split, Frame.decode_encode] at decoded
        cases decoded
        rcases List.forall_mem_cons.mp noClose with ⟨here, later⟩
        exact ⟨here, more, behind, rfl, Nat.lt_of_succ_lt_succ fewer, later,
          tooLong⟩
  · rintro ⟨notClose, frames, behind, split, fewer, noClose, tooLong⟩
    refine ⟨frame :: frames, behind, ?_, Nat.succ_lt_succ fewer,
      List.forall_mem_cons.mpr ⟨notClose, noClose⟩, tooLong⟩
    rw [Frame.decode_eq_some_iff.mp decoded, split, encodeAll, encodeAll,
      List.flatMap_cons, List.append_assoc]

theorem not_tooLongBehind_nil : ¬ TooLongBehind loads [] := by
  cases loads with
  | zero => exact not_tooLongBehind_zero
  | succ loads =>
      rw [tooLongBehind_of_none rfl]
      exact not_tooLong_nil

end Behind

/-! ## One call -/

/-- The size, if there is one, is one that a vector can have. -/
def Possible (size : Option Nat) : Prop :=
  ∀ count ∈ size, count ≤ maxVectorSize

/-- What a call of a reader asks for, and where it leaves the stream. -/
inductive Call (stream : Bytes) (size : Option Nat) (next : Option Socket) :
    Prop
  | frame
      (read : Frame) (rest : Bytes) (after : Socket)
      (decoded : Frame.decode stream = some (read, rest))
      (notClose : read.opcode ≠ Frame.close)
      (possible : Possible size)
      (goesOn : next = some after)
      (incoming : after.incoming = rest)
  | closing
      (read : Frame) (rest : Bytes)
      (decoded : Frame.decode stream = some (read, rest))
      (isClose : read.opcode = Frame.close)
      (possible : Possible size)
      (ends : next = none)
  | cut
      (noFrame : Frame.decode stream = none)
      (notTooLong : ¬ TooLong stream)
      (possible : Possible size)
      (atEnd : ∀ after ∈ next, after.incoming = [])
  | throws
      (tooLong : TooLong stream)
      (count : Nat) (asked : size = some count)
      (impossible : maxVectorSize < count)

section Loop

variable {size : Socket → Option Nat} {after : Socket → Option Socket}

theorem sizes_succ_le_iff
    {sock : Socket} {loads : Nat} (possible : Possible (size sock)) :
    (∀ count ∈ sizes size after (loads + 1) sock, count ≤ maxVectorSize) ↔
      ∀ next ∈ after sock,
        ∀ count ∈ sizes size after loads next, count ≤ maxVectorSize := by
  rw [sizes, List.forall_mem_append]
  have first : ∀ count ∈ (size sock).toList, count ≤ maxVectorSize := by
    intro count member
    exact possible count (Option.mem_toList.mp member)
  rw [and_iff_right first]
  cases after sock with
  | none => simp
  | some next => simp

/-- No call of a loop asks for too much, unless a header announces it. -/
theorem sizes_le_iff
    (calls : ∀ sock : Socket, Call sock.incoming (size sock) (after sock))
    (loads : Nat) (sock : Socket) :
    (∀ count ∈ sizes size after loads sock, count ≤ maxVectorSize) ↔
      ¬ TooLongBehind loads sock.incoming := by
  induction loads generalizing sock with
  | zero =>
      rw [sizes]
      exact iff_of_true (by simp) not_tooLongBehind_zero
  | succ loads induction =>
      cases calls sock with
      | frame read rest next decoded notClose possible goesOn incoming =>
          rw [sizes_succ_le_iff possible, tooLongBehind_of_some decoded,
            and_iff_right notClose, goesOn, ← incoming, ← induction next]
          simp
      | closing read rest decoded isClose possible ends =>
          rw [sizes_succ_le_iff possible, tooLongBehind_of_some decoded, ends]
          exact iff_of_true (by simp) fun both => both.1 isClose
      | cut noFrame notTooLong possible atEnd =>
          rw [sizes_succ_le_iff possible, tooLongBehind_of_none noFrame]
          refine iff_of_true ?_ notTooLong
          intro next isNext
          rw [induction next, atEnd next isNext]
          exact not_tooLongBehind_nil
      | throws tooLong count asked impossible =>
          rw [tooLongBehind_of_none (decode_of_tooLong tooLong)]
          refine iff_of_false ?_ (not_not.mpr tooLong)
          intro bounded
          have member : count ∈ sizes size after (loads + 1) sock := by
            rw [sizes, asked]
            simp
          exact absurd (bounded count member) (Nat.not_le.mpr impossible)

end Loop

end AccelObserver.Server.BufferSizes
