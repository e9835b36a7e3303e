import AccelObserver.Server.BufferSizes

/-!
# Impossible buffers

The two readers of frames and the lengths that a peer can announce.  A length
of eight bytes is not checked, so its top bit alone makes the constructor of
the vector throw, and the exception leaves the thread.

Any segmentation of the stream is covered, and any pattern of refused `send`
calls.
-/

namespace AccelObserver.Server.BufferReaders

open AccelObserver.Library
open AccelObserver.Library.Channel
open AccelObserver.Library.Frame (MaskKey)
open AccelObserver.Server.BufferSizes
open AccelObserver.Server.WsSubscriber
  (Socket maxVectorSize readLength readMaskKey readBody readFrame frameLoop
    recvExact keyOrZero)
open AccelObserver.Server.WebPongs
  (recvExactWebif wsDiscardFrame discardPayload discardLoop recvAll_decodes
    readLength_decodes readMaskKey_decodes)

/-! ## The subscriber -/

/-- A size below 2^63 is that of a vector. -/
theorem le_maxVectorSize {size : Nat} (small : size < 2 ^ 63) :
    size ≤ maxVectorSize := by
  rw [maxVectorSize]
  omega

theorem maxVectorSize_lt {size : Nat} (long : ¬ size < 2 ^ 63) :
    maxVectorSize < size := by
  rw [maxVectorSize]
  omega

theorem possible_some {size : Nat} (small : size < 2 ^ 63) :
    Possible (some size) := by
  intro count member
  cases member
  exact le_maxVectorSize small

theorem possible_of_lt
    {opcode : UInt8} {payLen : UInt64} (small : payLen.toNat < 2 ^ 63) :
    Possible (bodySize opcode payLen) := by
  have bound := le_maxVectorSize small
  intro count member
  rw [bodySize] at member
  split_ifs at member
  · cases member
  · cases member
    exact bound
  · cases member
    exact bound
  · cases member
    exact bound
  · cases member

theorem sendPong_incoming (sock : Socket) (pingPayload : Bytes) :
    (WsSubscriber.sendPong sock pingPayload).incoming = sock.incoming := by
  have kept (data : Bytes) (sock : Socket) :
      (WsSubscriber.sendExact sock data).2.incoming = sock.incoming := by
    rcases sendAll_written (by decide : 0 < 65536) data sock
      with ⟨written, sendCalls, _, after, _⟩
    rw [WsSubscriber.sendExact, after]
  rw [WsSubscriber.sendPong]
  split_ifs
  · rfl
  · exact (kept _ _).trans (kept _ _)
  · exact kept _ _

/-- How a call that has read a header leaves the stream: behind the payload,
or at the end when the payload is cut short. -/
def TakesPayload (payLen : UInt64) (sock : Socket)
    (after : WsSubscriber.FrameResult × Socket) : Prop :=
  match takeExact payLen.toNat sock.incoming with
  | none =>
      after.1 = .disconnected ∨
        after.1 = .received [] ∧ after.2.incoming = []
  | some (_, rest) =>
      ∃ payload, after.1 = .received payload ∧ after.2.incoming = rest

theorem takesPayload_ping
    (masked : Bool) (maskKey : MaskKey) {payLen : UInt64}
    (fits : ¬ maxVectorSize < payLen.toNat) (sock : Socket) :
    TakesPayload payLen sock
      (WsSubscriber.readPing masked maskKey payLen sock) := by
  rcases recvAll_decodes sock payLen.toNat with ⟨recvCalls, received⟩
  rw [TakesPayload, WsSubscriber.readPing, if_neg fits, recvExact, received]
  cases takeExact payLen.toNat sock.incoming with
  | none => exact Or.inl rfl
  | some pair => exact ⟨[], rfl, sendPong_incoming _ _⟩

theorem takesPayload_pong
    {payLen : UInt64} (fits : ¬ maxVectorSize < payLen.toNat) (sock : Socket) :
    TakesPayload payLen sock (WsSubscriber.readPong payLen sock) := by
  rcases recvAll_decodes sock payLen.toNat with ⟨recvCalls, received⟩
  rw [TakesPayload, WsSubscriber.readPong, if_neg fits, recvExact, received]
  cases takeExact payLen.toNat sock.incoming with
  | none => exact Or.inr ⟨rfl, rfl⟩
  | some pair => exact ⟨[], rfl, rfl⟩

theorem takesPayload_data
    (masked : Bool) (maskKey : MaskKey) {payLen : UInt64}
    (fits : ¬ maxVectorSize < payLen.toNat) (sock : Socket) :
    TakesPayload payLen sock
      (WsSubscriber.readData masked maskKey payLen sock) := by
  rcases recvAll_decodes sock payLen.toNat with ⟨recvCalls, received⟩
  rw [TakesPayload, WsSubscriber.readData]
  by_cases nonempty : 0 < payLen.toNat
  · rw [if_pos nonempty, if_neg fits, recvExact, received]
    cases takeExact payLen.toNat sock.incoming with
    | none => exact Or.inl rfl
    | some pair => exact ⟨_, rfl, rfl⟩
  · have nothing :
        takeExact payLen.toNat sock.incoming = some ([], sock.incoming) :=
      takeExact_eq_some_iff.mpr
        ⟨rfl, (Nat.eq_zero_of_not_pos nonempty).symm⟩
    rw [if_neg nonempty, nothing]
    exact ⟨[], rfl, rfl⟩

/-- Behind a header with a possible length, `read_frame` takes the payload. -/
theorem takesPayload_readBody
    {opcode : UInt8} (notClose : opcode ≠ 0x08) (masked : Bool)
    (maskKey : MaskKey) {payLen : UInt64} (small : payLen.toNat < 2 ^ 63)
    (sock : Socket) :
    TakesPayload payLen sock (readBody opcode masked maskKey payLen sock) := by
  have fits : ¬ maxVectorSize < payLen.toNat := by
    rw [maxVectorSize]
    omega
  rw [readBody, if_neg notClose]
  split_ifs
  · exact takesPayload_ping masked maskKey fits sock
  · exact takesPayload_pong fits sock
  · exact takesPayload_data masked maskKey fits sock

/-- `read_frame` reads the header that the stream announces. -/
theorem readFrame_announced (sock : Socket) :
    match announced sock.incoming with
    | none => frameSize sock = none ∧ (readFrame sock).1 = .disconnected
    | some (opcode, length, behind) =>
        ∃ masked maskKey recvCalls,
          frameSize sock = bodySize opcode length ∧
            readFrame sock =
              readBody opcode masked maskKey length
                { sock with incoming := behind, recvCalls := recvCalls } := by
  rcases recvAll_decodes sock 2 with ⟨headCalls, head⟩
  rw [frameSize, readFrame, recvExact]
  rcases incoming : sock.incoming with _ | ⟨first, _ | ⟨second, bytes⟩⟩
  · rw [incoming] at head
    rw [head]
    exact ⟨rfl, rfl⟩
  · rw [incoming] at head
    rw [head]
    exact ⟨rfl, rfl⟩
  · have small : second.toNat % 128 < 128 := Nat.mod_lt _ (by decide)
    have taken :
        takeExact 2 (first :: second :: bytes) =
          some ([first, second], bytes) :=
      takeExact_eq_some_iff.mpr ⟨rfl, rfl⟩
    rw [incoming, taken] at head
    rw [head, announced]
    rcases readLength_decodes small
        { sock with incoming := bytes, recvCalls := headCalls }
      with ⟨lengthCalls, length⟩
    simp only [Option.map_some, Option.elim_some, List.getD_cons_zero,
      List.getD_cons_succ, WebPongs.toUInt64_and, WebPongs.top_bit, length]
    cases Frame.decodeLength (second.toNat % 128) bytes with
    | none => exact ⟨rfl, rfl⟩
    | some lengthCut =>
        rcases readMaskKey_decodes (decide (128 ≤ second.toNat))
            { sock with
              incoming := lengthCut.2
              recvCalls := lengthCalls }
          with ⟨keyCalls, key⟩
        simp only [Option.map_some, Option.elim_some, Option.bind_some, key]
        cases Frame.decodeKey (decide (128 ≤ second.toNat)) lengthCut.2 with
        | none => exact ⟨rfl, rfl⟩
        | some keyCut =>
            exact
              ⟨decide (128 ≤ second.toNat), keyOrZero keyCut.1, keyCalls,
                rfl, rfl⟩

/-- What the payload does to the call, when the header is possible. -/
theorem call_of_takesPayload
    {stream : Bytes} {opcode : UInt8} {length : UInt64} {behind : Bytes}
    (header : announced stream = some (opcode, length, behind))
    (notClose : opcode ≠ 0x08) (small : length.toNat < 2 ^ 63)
    {size : Option Nat} (possible : Possible size) {next : Option Socket}
    (reads :
      match takeExact length.toNat behind with
      | none => ∀ after ∈ next, after.incoming = []
      | some (_, rest) => ∃ after, next = some after ∧ after.incoming = rest) :
    Call stream size next := by
  cases decoded : Frame.decode stream with
  | none =>
      rw [takeExact_of_announced header small decoded] at reads
      refine .cut decoded ?_ possible reads
      rintro ⟨_, _, _, same, _, long⟩
      rw [header] at same
      cases same
      exact absurd small (Nat.not_lt.mpr long)
  | some pair =>
      rcases pair with ⟨frame, rest⟩
      rcases announced_of_decode decoded with
        ⟨_, _, front, same, _, taken⟩
      rw [header] at same
      cases same
      rw [taken] at reads
      rcases reads with ⟨after, goesOn, incoming⟩
      refine .frame frame rest after decoded ?_ possible goesOn incoming
      intro isClose
      rw [isClose] at notClose
      exact notClose rfl

/-- Nothing is asked for behind a cut header or the header of a Close. -/
theorem call_of_none
    {stream : Bytes}
    (header :
      announced stream = none ∨
        ∃ length behind, announced stream = some (0x08, length, behind)) :
    Call stream none none := by
  have notTooLong : ¬ TooLong stream := by
    rintro ⟨opcode, length, behind, found, notClose, _⟩
    rcases header with none | ⟨_, _, close⟩
    · rw [none] at found
      cases found
    · rw [close] at found
      cases found
      exact notClose rfl
  have possible : Possible none := by simp [Possible]
  cases decoded : Frame.decode stream with
  | none => exact .cut decoded notTooLong possible (by simp)
  | some pair =>
      rcases pair with ⟨frame, rest⟩
      rcases announced_of_decode decoded with ⟨_, _, _, found, _, _⟩
      have isClose : frame.opcode = Frame.close := by
        rcases header with none | ⟨_, _, close⟩
        · rw [none] at found
          cases found
        · rw [close] at found
          have opcode := (Prod.mk.inj (Option.some.inj found)).1
          exact (WsSubscriber.ofNat_opcode_eq_iff _ Frame.close).mp
            opcode.symm
      exact .closing frame rest decoded isClose possible rfl

/-- An impossible size is what makes the call throw. -/
theorem impossible_bodySize
    {opcode : UInt8} (notClose : opcode ≠ 0x08) {payLen : UInt64}
    (long : ¬ payLen.toNat < 2 ^ 63) :
    bodySize opcode payLen = some payLen.toNat ∧
      maxVectorSize < payLen.toNat := by
  have positive : 0 < payLen.toNat := by omega
  refine ⟨?_, maxVectorSize_lt long⟩
  rw [bodySize, if_neg notClose, if_pos positive]
  split_ifs
  · rfl
  · rfl
  · rfl

theorem call_readFrame (sock : Socket) :
    Call sock.incoming (frameSize sock) (afterFrame sock) := by
  have reads := readFrame_announced sock
  rw [afterFrame]
  cases header : announced sock.incoming with
  | none =>
      rw [header] at reads
      rcases result : readFrame sock with ⟨ending, after⟩
      rw [result] at reads
      rcases reads with ⟨noSize, rfl⟩
      rw [noSize]
      exact call_of_none (Or.inl header)
  | some found =>
      rcases found with ⟨opcode, length, behind⟩
      rw [header] at reads
      rcases reads with ⟨masked, maskKey, recvCalls, size, read⟩
      rw [size, read]
      by_cases close : opcode = 0x08
      · subst close
        exact call_of_none (Or.inr ⟨length, behind, header⟩)
      · by_cases small : length.toNat < 2 ^ 63
        · have takes :=
            takesPayload_readBody close masked maskKey small
              { sock with incoming := behind, recvCalls := recvCalls }
          rw [TakesPayload] at takes
          refine
            call_of_takesPayload header close small (possible_of_lt small) ?_
          rcases result :
              readBody opcode masked maskKey length
                { sock with incoming := behind, recvCalls := recvCalls }
            with ⟨ending, after⟩
          rw [result] at takes
          cases cut : takeExact length.toNat behind with
          | none =>
              rw [cut] at takes
              rcases takes with rfl | ⟨rfl, atEnd⟩
              · simp
              · simpa using atEnd
          | some pair =>
              rw [cut] at takes
              rcases takes with ⟨payload, rfl, incoming⟩
              exact ⟨after, rfl, incoming⟩
        · rcases impossible_bodySize close small with ⟨asked, impossible⟩
          exact .throws ⟨opcode, length, behind, header, close,
            Nat.not_lt.mp small⟩ length.toNat asked impossible

/-- `read_frame` throws when it asks for an impossible size. -/
theorem readFrame_eq_lengthError_iff (sock : Socket) :
    (readFrame sock).1 = .lengthError ↔ ¬ Possible (frameSize sock) := by
  have reads := readFrame_announced sock
  cases header : announced sock.incoming with
  | none =>
      rw [header] at reads
      rw [reads.1, reads.2]
      exact iff_of_false (by simp) (not_not.mpr (by simp [Possible]))
  | some found =>
      rcases found with ⟨opcode, length, behind⟩
      rw [header] at reads
      rcases reads with ⟨masked, maskKey, recvCalls, size, read⟩
      rw [size, read]
      by_cases close : opcode = 0x08
      · subst close
        exact iff_of_false (by simp [readBody])
          (not_not.mpr (by simp [Possible, bodySize]))
      · by_cases small : length.toNat < 2 ^ 63
        · refine iff_of_false ?_ (not_not.mpr (possible_of_lt small))
          have takes :=
            takesPayload_readBody close masked maskKey small
              { sock with incoming := behind, recvCalls := recvCalls }
          rw [TakesPayload] at takes
          intro thrown
          rw [thrown] at takes
          split at takes
          · rcases takes with impossible | ⟨impossible, _⟩
            · cases impossible
            · cases impossible
          · rcases takes with ⟨_, impossible, _⟩
            cases impossible
        · rcases impossible_bodySize close small with ⟨asked, impossible⟩
          refine iff_of_true ?_ ?_
          · have positive : 0 < length.toNat := by omega
            simp only [readBody, if_neg close, WsSubscriber.readPing,
              WsSubscriber.readPong, WsSubscriber.readData,
              if_pos impossible, if_pos positive]
            split_ifs
            · rfl
            · rfl
            · rfl
          · intro possible
            rw [asked] at possible
            exact absurd (possible _ rfl) (Nat.not_le.mpr impossible)

/-! ## The web interface -/

theorem answerPing_incoming (opcode : UInt8) (data : Bytes) (sock : Socket) :
    (WebPongs.answerPing opcode data sock).incoming = sock.incoming := by
  have kept (data : Bytes) (sock : Socket) :
      (WebPongs.sendRaw sock data).2.incoming = sock.incoming := by
    rcases WebPongs.sendRaw_written sock data
      with ⟨written, sendCalls, _, after, _⟩
    rw [after]
  rw [WebPongs.answerPing]
  split_ifs
  · exact kept _ _
  · exact (kept _ _).trans (kept _ _)
  · rfl

/-- Behind a header with a possible length, `ws_discard_frame` takes the
payload, or the loop ends. -/
theorem discardPayload_takes
    (opcode : UInt8) (masked : Bool) (maskKey : MaskKey) {payloadLen : UInt64}
    (small : payloadLen.toNat < 2 ^ 63) (sock : Socket) :
    let after := discardPayload opcode masked maskKey payloadLen sock
    match takeExact payloadLen.toNat sock.incoming with
    | none => after.1 = .returned false
    | some (_, rest) => after.1 = .returned true ∧ after.2.incoming = rest := by
  intro after
  have fits : ¬ maxVectorSize < payloadLen.toNat := by
    rw [maxVectorSize]
    omega
  have read : after = discardPayload opcode masked maskKey payloadLen sock :=
    rfl
  rw [discardPayload, if_neg fits] at read
  rcases recvAll_decodes sock payloadLen.toNat with ⟨recvCalls, received⟩
  by_cases nonempty : 0 < payloadLen.toNat
  · rw [if_pos nonempty, recvExactWebif, received] at read
    rw [read]
    cases takeExact payloadLen.toNat sock.incoming with
    | none => rfl
    | some pair => exact ⟨rfl, answerPing_incoming _ _ _⟩
  · have nothing :
        takeExact payloadLen.toNat sock.incoming = some ([], sock.incoming) :=
      takeExact_eq_some_iff.mpr
        ⟨rfl, (Nat.eq_zero_of_not_pos nonempty).symm⟩
    rw [if_neg nonempty] at read
    rw [read, nothing]
    exact ⟨rfl, answerPing_incoming _ _ _⟩

/-- Nothing is asked for when the loop ends before the length is read. -/
structure NothingAsked (sock : Socket) : Prop where
  noSize : discardSize sock = none
  ends : (wsDiscardFrame sock).1 = .returned false

theorem nothingAsked_of_close
    {sock : Socket} {first second : UInt8} {bytes : Bytes}
    (incoming : sock.incoming = first :: second :: bytes)
    (close : first &&& 0x0F = 0x08) : NothingAsked sock := by
  rcases WebPongs.recvExactWebif_two incoming with ⟨headCalls, head⟩
  constructor
  · rw [discardSize, head]
    exact if_pos close
  · rw [wsDiscardFrame, head]
    simp only [List.getD_cons_zero, if_pos close]

/-- `ws_discard_frame` reads the header that the stream announces. -/
theorem wsDiscardFrame_announced (sock : Socket) :
    match announced sock.incoming with
    | none => NothingAsked sock
    | some (opcode, length, behind) =>
        (opcode = 0x08 → NothingAsked sock) ∧
          (opcode ≠ 0x08 →
            ∃ masked maskKey recvCalls,
              discardSize sock = some length.toNat ∧
                wsDiscardFrame sock =
                  discardPayload opcode masked maskKey length
                    { sock with
                      incoming := behind
                      recvCalls := recvCalls }) := by
  rcases recvAll_decodes sock 2 with ⟨headCalls, head⟩
  rcases incoming : sock.incoming with _ | ⟨first, _ | ⟨second, bytes⟩⟩
  · rw [incoming] at head
    constructor
    · rw [discardSize, recvExactWebif, head]
      rfl
    · rw [wsDiscardFrame, recvExactWebif, head]
      rfl
  · rw [incoming] at head
    constructor
    · rw [discardSize, recvExactWebif, head]
      rfl
    · rw [wsDiscardFrame, recvExactWebif, head]
      rfl
  · have small : second.toNat % 128 < 128 := Nat.mod_lt _ (by decide)
    have closing : first &&& 0x0F = 0x08 → NothingAsked sock :=
      nothingAsked_of_close incoming
    rcases WebPongs.recvExactWebif_two incoming with ⟨headCalls, head⟩
    rcases readLength_decodes small
        { sock with incoming := bytes, recvCalls := headCalls }
      with ⟨lengthCalls, length⟩
    rw [announced]
    cases lengthCut : Frame.decodeLength (second.toNat % 128) bytes with
    | none =>
        rw [lengthCut] at length
        by_cases close : first &&& 0x0F = 0x08
        · exact closing close
        · constructor <;>
            simp only [discardSize, wsDiscardFrame, head, List.getD_cons_zero,
              List.getD_cons_succ, WebPongs.toUInt64_and, if_neg close,
              length, Option.map_none]
    | some cut =>
        rcases cut with ⟨register, behindLength⟩
        rw [lengthCut, Option.map_some, Option.elim_some] at length
        rcases readMaskKey_decodes (decide (128 ≤ second.toNat))
            { sock with incoming := behindLength, recvCalls := lengthCalls }
          with ⟨keyCalls, key⟩
        simp only [Option.bind_some]
        cases keyCut :
            Frame.decodeKey (decide (128 ≤ second.toNat)) behindLength with
        | none =>
            rw [keyCut] at key
            by_cases close : first &&& 0x0F = 0x08
            · exact closing close
            · constructor <;>
                simp only [discardSize, wsDiscardFrame, head,
                  List.getD_cons_zero, List.getD_cons_succ,
                  WebPongs.toUInt64_and, WebPongs.top_bit, if_neg close,
                  length, key, Option.map_none]
        | some pair =>
            rw [keyCut, Option.map_some, Option.map_some, Option.elim_some]
              at key
            refine ⟨closing, fun close => ⟨decide (128 ≤ second.toNat),
              keyOrZero pair.1, keyCalls, ?_⟩⟩
            constructor <;>
              simp only [discardSize, wsDiscardFrame, head,
                List.getD_cons_zero, List.getD_cons_succ,
                WebPongs.toUInt64_and, WebPongs.top_bit, if_neg close,
                length, key]

theorem call_wsDiscardFrame (sock : Socket) :
    Call sock.incoming (discardSize sock) (afterDiscard sock) := by
  have reads := wsDiscardFrame_announced sock
  have ends (nothing : NothingAsked sock) : afterDiscard sock = none := by
    have noMore := nothing.ends
    rcases result : wsDiscardFrame sock with ⟨ending, after⟩
    rw [result] at noMore
    cases noMore
    rw [afterDiscard, result]
  cases header : announced sock.incoming with
  | none =>
      rw [header] at reads
      rw [reads.noSize, ends reads]
      exact call_of_none (Or.inl header)
  | some found =>
      rcases found with ⟨opcode, length, behind⟩
      rw [header] at reads
      by_cases close : opcode = 0x08
      · rw [(reads.1 close).noSize, ends (reads.1 close)]
        subst close
        exact call_of_none (Or.inr ⟨length, behind, header⟩)
      · rcases reads.2 close with ⟨masked, maskKey, recvCalls, size, read⟩
        rw [size]
        by_cases small : length.toNat < 2 ^ 63
        · have takes :=
            discardPayload_takes opcode masked maskKey small
              { sock with incoming := behind, recvCalls := recvCalls }
          refine
            call_of_takesPayload header close small (possible_some small) ?_
          rw [afterDiscard, read]
          rcases result :
              discardPayload opcode masked maskKey length
                { sock with incoming := behind, recvCalls := recvCalls }
            with ⟨ending, after⟩
          rw [result] at takes
          cases cut : takeExact length.toNat behind with
          | none =>
              simp only [cut] at takes
              simp [takes]
          | some pair =>
              simp only [cut] at takes
              rcases takes with ⟨rfl, incoming⟩
              exact ⟨after, rfl, incoming⟩
        · exact .throws ⟨opcode, length, behind, header, close,
            Nat.not_lt.mp small⟩ length.toNat rfl (maxVectorSize_lt small)

/-- `ws_discard_frame` throws when it asks for an impossible size. -/
theorem wsDiscardFrame_eq_lengthError_iff (sock : Socket) :
    (wsDiscardFrame sock).1 = .lengthError ↔ ¬ Possible (discardSize sock) := by
  have reads := wsDiscardFrame_announced sock
  have noSize (nothing : NothingAsked sock) :
      (wsDiscardFrame sock).1 = .lengthError ↔
        ¬ Possible (discardSize sock) := by
    rw [nothing.noSize, nothing.ends]
    exact iff_of_false (by simp) (not_not.mpr (by simp [Possible]))
  cases header : announced sock.incoming with
  | none =>
      rw [header] at reads
      exact noSize reads
  | some found =>
      rcases found with ⟨opcode, length, behind⟩
      rw [header] at reads
      by_cases close : opcode = 0x08
      · exact noSize (reads.1 close)
      · rcases reads.2 close with ⟨masked, maskKey, recvCalls, size, read⟩
        rw [size, read]
        by_cases small : length.toNat < 2 ^ 63
        · have takes :=
            discardPayload_takes opcode masked maskKey small
              { sock with incoming := behind, recvCalls := recvCalls }
          refine iff_of_false ?_ (not_not.mpr (possible_some small))
          intro thrown
          cases cut : takeExact length.toNat behind with
          | none =>
              simp only [cut, thrown] at takes
              cases takes
          | some pair =>
              simp only [cut, thrown] at takes
              cases takes.1
        · have impossible := maxVectorSize_lt small
          refine iff_of_true ?_ ?_
          · rw [discardPayload, if_pos impossible]
          · intro possible
            exact absurd (possible _ rfl) (Nat.not_le.mpr impossible)

/-! ## The loops -/

/-- `length_error` leaves the loop of the subscriber when a size is
impossible. -/
theorem frameLoop_throws_iff (loads : Nat) (sock : Socket) :
    (frameLoop loads sock).ending = .lengthError ↔
      ¬ ∀ count ∈ subscriberSizes loads sock, count ≤ maxVectorSize := by
  induction loads generalizing sock with
  | zero =>
      exact iff_of_false (by simp [frameLoop])
        (by simp [subscriberSizes, sizes])
  | succ loads induction =>
      have throws := readFrame_eq_lengthError_iff sock
      rw [frameLoop]
      rcases result : readFrame sock with ⟨ending, after⟩
      rw [result] at throws
      cases ending with
      | lengthError =>
          refine iff_of_true rfl ?_
          intro bounded
          apply throws.mp rfl
          intro count member
          apply bounded count
          rw [subscriberSizes, sizes]
          exact List.mem_append_left _ (Option.mem_toList.mpr member)
      | disconnected =>
          have possible : Possible (frameSize sock) :=
            not_not.mp (throws.not.mp (by simp))
          rw [subscriberSizes, sizes_succ_le_iff possible, afterFrame, result]
          exact iff_of_false (by simp) (by simp)
      | received payload =>
          have possible : Possible (frameSize sock) :=
            not_not.mp (throws.not.mp (by simp))
          have later := induction after
          rw [subscriberSizes] at later
          rw [subscriberSizes, sizes_succ_le_iff possible, afterFrame, result]
          simp only [Option.mem_some_iff, forall_eq']
          rw [← later]
          split_ifs
          · rfl
          · rfl

/-- On the bytes of the peer: a length of 2^63 or more behind the frames. -/
theorem frameLoop_throws_iff_tooLong (loads : Nat) (sock : Socket) :
    (frameLoop loads sock).ending = .lengthError ↔
      TooLongBehind loads sock.incoming := by
  rw [frameLoop_throws_iff, subscriberSizes,
    sizes_le_iff call_readFrame loads sock, not_not]

/-- So it is for the loop of the web interface. -/
theorem discardLoop_throws_iff (loads : Nat) (sock : Socket) :
    (discardLoop loads sock).1 = .lengthError ↔
      ¬ ∀ count ∈ browserSizes loads sock, count ≤ maxVectorSize := by
  induction loads generalizing sock with
  | zero =>
      exact iff_of_false (by simp [discardLoop])
        (by simp [browserSizes, sizes])
  | succ loads induction =>
      have throws := wsDiscardFrame_eq_lengthError_iff sock
      rw [discardLoop]
      rcases result : wsDiscardFrame sock with ⟨ending, after⟩
      rw [result] at throws
      cases ending with
      | lengthError =>
          refine iff_of_true rfl ?_
          intro bounded
          apply throws.mp rfl
          intro count member
          apply bounded count
          rw [browserSizes, sizes]
          exact List.mem_append_left _ (Option.mem_toList.mpr member)
      | returned more =>
          have possible : Possible (discardSize sock) :=
            not_not.mp (throws.not.mp (by simp))
          have later := induction after
          rw [browserSizes] at later
          rw [browserSizes, sizes_succ_le_iff possible, afterDiscard, result]
          cases more with
          | false => exact iff_of_false (by simp) (by simp)
          | true =>
              simp only [Option.mem_some_iff, forall_eq']
              exact later

/--
Every buffer that a reader asks for is one that a vector can have, and no
exception leaves the reader, exactly when the peer sends no header with a
length of 2^63 bytes or more behind the frames that are read.
-/
theorem buffers_possible_iff (loads : Nat) (sock : Socket) :
    ((∀ size ∈ subscriberSizes loads sock, size ≤ maxVectorSize) ∧
          (frameLoop loads sock).ending ≠ .lengthError ↔
        ¬ TooLongBehind loads sock.incoming) ∧
      ((∀ size ∈ browserSizes loads sock, size ≤ maxVectorSize) ∧
          (discardLoop loads sock).1 ≠ .lengthError ↔
        ¬ TooLongBehind loads sock.incoming) := by
  constructor
  · rw [ne_eq, frameLoop_throws_iff, not_not, and_self, subscriberSizes]
    exact sizes_le_iff call_readFrame loads sock
  · rw [ne_eq, discardLoop_throws_iff, not_not, and_self, browserSizes]
    exact sizes_le_iff call_wsDiscardFrame loads sock

/-- A binary frame with a length of 2^63 bytes, of which none is sent. -/
def hugeHeader : Bytes :=
  [0x82, 0x7F, 0x80, 0, 0, 0, 0, 0, 0, 0]

/-- Ten bytes make both readers ask for 2^63 bytes, and throw. -/
theorem hugeHeader_throws :
    let sock := Sock.receiving hugeHeader .single
    subscriberSizes 1 sock = [2 ^ 63] ∧
      (frameLoop 1 sock).ending = .lengthError ∧
      browserSizes 1 sock = [2 ^ 63] ∧
      (discardLoop 1 sock).1 = .lengthError ∧ ¬ 2 ^ 63 ≤ maxVectorSize := by
  decide +kernel

end AccelObserver.Server.BufferReaders
