import AccelObserver.Library.Frame
import AccelObserver.Library.Machine
import Mathlib.Data.List.Perm.Subperm

/-!
# The stream to a browser

Two threads write on the connection of a browser: the one that reads its
frames and answers Pings, and the one that broadcasts.  Each writes its frame
in one or two calls of `send_raw`, which calls `send` until everything is
gone; nothing keeps the other thread from calling `send` in between.

The bytes of a thread's frame that are already on the stream, and the frames
issued so far, are recorded; no step depends on them.
-/

namespace AccelObserver.Server.WebStream

open AccelObserver.Library

/-! ## The frames of the web interface -/

/-- `ws_encode_frame` -/
def wsEncodeFrame (payload : Bytes) : Bytes :=
  let len := payload.length
  let length :=
    if len < 126 then [UInt8.ofNat len]
    else if len < 65536 then
      [0x7E, UInt8.ofNat (len >>> 8), UInt8.ofNat len]
    else 0x7F :: BigEndian.write 8 len
  0x81 :: (length ++ payload)

/-- The two bytes that `ws_discard_frame` sends before a Ping's payload. -/
def pongHeader (data : Bytes) : Bytes :=
  [0x8A, UInt8.ofNat (data.length &&& 0x7F)]

/-- An unmasked frame with the shortest length. -/
def serverFrame (opcode : Fin 16) (payload : Bytes)
    (small : payload.length < 2 ^ 63) : Frame where
  fin := true
  rsv := 0
  opcode := opcode
  maskKey := none
  lengthForm := Frame.LengthForm.shortest payload.length
  payload := payload
  fits := Frame.LengthForm.shortest_fits small

/-- A broadcast is a text frame. -/
theorem wsEncodeFrame_eq
    (payload : Bytes) (small : payload.length < 2 ^ 63) :
    wsEncodeFrame payload = (serverFrame Frame.text payload small).encode := by
  have first : (serverFrame Frame.text payload small).firstByte = 0x81 := rfl
  rw [Frame.encode, Frame.header, first]
  simp only [wsEncodeFrame, serverFrame, Frame.secondByte, Frame.keyBytes,
    Frame.wirePayload, Frame.LengthForm.shortest]
  by_cases short : payload.length < 126
  · simp [short, Frame.LengthForm.code, Frame.LengthForm.extension]
  · by_cases medium : payload.length < 65536
    · simp [short, medium, Frame.LengthForm.code, Frame.LengthForm.extension,
        BigEndian.write]
    · simp [short, medium, Frame.LengthForm.code, Frame.LengthForm.extension]

/-- A Pong is a Pong frame, up to the length of a Ping. -/
theorem pongHeader_append
    (data : Bytes) (short : data.length ≤ 125) :
    pongHeader data ++ data =
      (serverFrame Frame.pong data
        (Nat.lt_of_le_of_lt short (by decide))).encode := by
  have below : data.length < 126 := by omega
  have masked : data.length &&& 0x7F = data.length := by
    rw [show (0x7F : Nat) = 2 ^ 7 - 1 from rfl, Nat.and_two_pow_sub_one_eq_mod]
    omega
  rw [pongHeader, masked, Frame.encode_short _ rfl (if_pos below)]
  rfl

/-! ## Sending -/

/-- A thread that writes a frame: the rest of this `send_raw` and what the
next one will send. -/
structure Sending where
  left : Bytes
  next : Bytes
  frame : Frame
  sent : Bytes
  whole : sent ++ left ++ next = frame.encode

/-- One `send` of `count` bytes, and where the thread stands behind it. -/
def Sending.advance (sending : Sending) (count : Nat) : Option Sending :=
  if more : sending.left.drop count ≠ [] then
    some
      { sending with
        left := sending.left.drop count
        sent := sending.sent ++ sending.left.take count
        whole := by
          rw [List.append_assoc sending.sent, List.take_append_drop]
          exact sending.whole }
  else if sending.next ≠ [] then
    some
      { sending with
        left := sending.next
        next := []
        sent := sending.sent ++ sending.left.take count
        whole := by
          have split := List.take_append_drop count sending.left
          rw [not_not.mp more, List.append_nil] at split
          rw [split, List.append_nil]
          exact sending.whole }
  else
    none

structure State where
  outgoing : Bytes
  reader : Option Sending
  broadcaster : Option Sending
  issued : List Frame

inductive Action
  | ping (data : Bytes)
  | broadcast (json : Bytes)
  | readerSend (count : Nat)
  | broadcasterSend (count : Nat)

/-- The answer to a Ping: two bytes with one `send_raw`, the payload with
another. -/
def pingStep (data : Bytes) (state : State) : Option State :=
  if short : data.length ≤ 125 then
    match state.reader with
    | some _ => none
    | none =>
        let frame :=
          serverFrame Frame.pong data (Nat.lt_of_le_of_lt short (by decide))
        some
          { state with
            reader :=
              some
                { left := pongHeader data
                  next := data
                  frame := frame
                  sent := []
                  whole := pongHeader_append data short }
            issued := state.issued ++ [frame] }
  else
    none

/-- `ws_broadcast`, as far as this connection is concerned. -/
def broadcastStep (json : Bytes) (state : State) : Option State :=
  if small : json.length < 2 ^ 63 then
    match state.broadcaster with
    | some _ => none
    | none =>
        let frame := serverFrame Frame.text json small
        some
          { state with
            broadcaster :=
              some
                { left := wsEncodeFrame json
                  next := []
                  frame := frame
                  sent := []
                  whole := by
                    rw [List.nil_append, List.append_nil]
                    exact wsEncodeFrame_eq json small }
            issued := state.issued ++ [frame] }
  else
    none

/-- A `send` appends a non-empty prefix of the bytes offered. -/
def step (state : State) : Action → Option State
  | .ping data => pingStep data state
  | .broadcast json => broadcastStep json state
  | .readerSend count =>
      match state.reader with
      | none => none
      | some sending =>
          if 0 < count ∧ count ≤ sending.left.length then
            some
              { state with
                outgoing := state.outgoing ++ sending.left.take count
                reader := sending.advance count }
          else
            none
  | .broadcasterSend count =>
      match state.broadcaster with
      | none => none
      | some sending =>
          if 0 < count ∧ count ≤ sending.left.length then
            some
              { state with
                outgoing := state.outgoing ++ sending.left.take count
                broadcaster := sending.advance count }
          else
            none

/-- A connection behind its 101 response and its device frame. -/
def machine : Machine State Action :=
  { initial :=
      { outgoing := [], reader := none, broadcaster := none, issued := [] }
    step := step }

/-! ## Whole frames -/

/-- The bytes of some frames, one behind the other. -/
def stream (frames : List Frame) : Bytes :=
  frames.flatMap Frame.encode

/-- The bytes of its frame that a thread has sent. -/
def sentBy (thread : Option Sending) : Bytes :=
  thread.elim [] Sending.sent

/-- The frame that a thread is sending. -/
def frameOf (thread : Option Sending) : List Frame :=
  (thread.map Sending.frame).toList

/-- The stream is a prefix of whole frames, each of them issued once. -/
def WholeFrames (state : State) : Prop :=
  ∃ frames, frames.Subperm state.issued ∧
    state.outgoing <+: stream frames

/-- A thread that has sent a part of its frame and not all of it. -/
def PartWay (thread : Option Sending) : Prop :=
  sentBy thread ≠ []

/-- A thread calls `send` only while the other is not part-way. -/
def Undisturbed (state : State) (action : Action) : Prop :=
  match action with
  | .readerSend _ => ¬ PartWay state.broadcaster
  | .broadcasterSend _ => ¬ PartWay state.reader
  | _ => True

instance (state : State) (action : Action) :
    Decidable (Undisturbed state action) :=
  match action with
  | .readerSend _ => inferInstanceAs (Decidable (¬ sentBy _ ≠ []))
  | .broadcasterSend _ => inferInstanceAs (Decidable (¬ sentBy _ ≠ []))
  | .ping _ => .isTrue trivial
  | .broadcast _ => .isTrue trivial

/--
What holds while no thread disturbs the other: the stream is the frames that
are done, and then what the only thread that is part-way has sent.
-/
structure Aligned (state : State) (done : List Frame) : Prop where
  issued :
    (done ++ (frameOf state.reader ++ frameOf state.broadcaster)).Perm
      state.issued
  outgoing :
    state.outgoing =
      stream done ++ sentBy state.reader ++ sentBy state.broadcaster
  single : ¬ PartWay state.reader ∨ ¬ PartWay state.broadcaster

/-- What a thread has sent is a prefix of its frame. -/
theorem prefixOf_sentBy (thread : Option Sending) :
    sentBy thread <+: stream (frameOf thread) := by
  cases thread with
  | none => exact List.prefix_refl []
  | some sending =>
      refine ⟨sending.left ++ sending.next, ?_⟩
      simpa [sentBy, frameOf, stream] using sending.whole

theorem wholeFrames_of_aligned
    {state : State} {done : List Frame} (aligned : Aligned state done) :
    WholeFrames state := by
  rcases aligned with ⟨issued, outgoing, readerIdle | broadcasterIdle⟩
  · refine ⟨done ++ frameOf state.broadcaster, ?_, ?_⟩
    · apply List.Subperm.trans _ issued.subperm
      exact ((List.sublist_append_right _ _).append_left done).subperm
    · rw [outgoing, not_not.mp readerIdle, List.append_nil, stream, stream,
        List.flatMap_append]
      exact (List.prefix_append_right_inj _).mpr (prefixOf_sentBy _)
  · refine ⟨done ++ frameOf state.reader, ?_, ?_⟩
    · apply List.Subperm.trans _ issued.subperm
      exact ((List.sublist_append_left _ _).append_left done).subperm
    · rw [outgoing, not_not.mp broadcasterIdle, List.append_nil, stream,
        stream, List.flatMap_append]
      exact (List.prefix_append_right_inj _).mpr (prefixOf_sentBy _)

/-- A thread behind one `send`: further on in its frame, or done with it. -/
theorem advance_cases (sending : Sending) (count : Nat) :
    (∃ after, sending.advance count = some after ∧
        after.frame = sending.frame ∧
        after.sent = sending.sent ++ sending.left.take count) ∨
      sending.advance count = none ∧
        sending.sent ++ sending.left.take count = sending.frame.encode := by
  rw [Sending.advance]
  split_ifs with more last
  · exact Or.inl ⟨_, rfl, rfl, rfl⟩
  · exact Or.inl ⟨_, rfl, rfl, rfl⟩
  · have whole := sending.whole
    rw [not_not.mp last, List.append_nil] at whole
    have all : sending.left.take count = sending.left :=
      List.take_of_length_le (List.drop_eq_nil_iff.mp (not_not.mp more))
    exact Or.inr ⟨rfl, by rw [all, whole]⟩

/--
One `send` of a thread that continues the stream: the frames done and what it
has sent of its own are the stream again.
-/
theorem advance_aligned
    {sending : Sending} {done others issued : List Frame} {outgoing : Bytes}
    (count : Nat)
    (perm : (done ++ (sending.frame :: others)).Perm issued)
    (written : outgoing = stream done ++ sending.sent) :
    ∃ after : List Frame,
      (after ++ (frameOf (sending.advance count) ++ others)).Perm issued ∧
        outgoing ++ sending.left.take count =
          stream after ++ sentBy (sending.advance count) := by
  rcases advance_cases sending count with
    ⟨next, advanced, sameFrame, sent⟩ | ⟨finished, whole⟩
  · refine ⟨done, ?_, ?_⟩
    · rw [advanced]
      simpa [frameOf, sameFrame] using perm
    · rw [advanced, written, List.append_assoc, ← sent]
      rfl
  · refine ⟨done ++ [sending.frame], ?_, ?_⟩
    · rw [finished]
      simpa [frameOf] using perm
    · rw [finished, written, List.append_assoc, whole]
      simp [stream, sentBy]

/-- A frame that begins is issued last. -/
theorem perm_begin (done others : List Frame) (frame : Frame) :
    (done ++ ([frame] ++ others)).Perm (done ++ others ++ [frame]) := by
  rw [List.append_assoc]
  exact List.perm_append_comm.append_left done

theorem aligned_step
    {state next : State} {action : Action} {done : List Frame}
    (aligned : Aligned state done) (undisturbed : Undisturbed state action)
    (stepped : step state action = some next) :
    ∃ after, Aligned next after := by
  rcases aligned with ⟨issued, outgoing, single⟩
  cases action with
  | ping data =>
      simp only [step, pingStep] at stepped
      split_ifs at stepped with short
      split at stepped
      · cases stepped
      · next idle =>
          simp only [Option.some.injEq] at stepped
          subst stepped
          rw [idle] at issued outgoing
          refine ⟨done, ?_, outgoing, Or.inl (not_not.mpr rfl)⟩
          exact (perm_begin done _ _).trans (issued.append_right _)
  | broadcast json =>
      simp only [step, broadcastStep] at stepped
      split_ifs at stepped with small
      split at stepped
      · cases stepped
      · next idle =>
          simp only [Option.some.injEq] at stepped
          subst stepped
          rw [idle] at issued outgoing
          refine ⟨done, ?_, outgoing, Or.inr (not_not.mpr rfl)⟩
          simpa [frameOf] using issued.append_right _
  | readerSend count =>
      simp only [step] at stepped
      split at stepped
      · cases stepped
      · next sending active =>
          split_ifs at stepped with bounds
          simp only [Option.some.injEq] at stepped
          subst stepped
          have idle : sentBy state.broadcaster = [] := not_not.mp undisturbed
          rw [active] at issued
          rw [active, idle, List.append_nil] at outgoing
          rcases advance_aligned count issued outgoing
            with ⟨after, perm, written⟩
          refine ⟨after, perm, ?_, Or.inr undisturbed⟩
          rw [written, idle, List.append_nil]
  | broadcasterSend count =>
      simp only [step] at stepped
      split at stepped
      · cases stepped
      · next sending active =>
          split_ifs at stepped with bounds
          simp only [Option.some.injEq] at stepped
          subst stepped
          have idle : sentBy state.reader = [] := not_not.mp undisturbed
          rw [active] at issued
          rw [active, idle, List.append_nil] at outgoing
          have swapped := (List.perm_append_comm.append_left done).trans issued
          rcases advance_aligned count swapped outgoing
            with ⟨after, perm, written⟩
          refine ⟨after, ?_, ?_, Or.inl undisturbed⟩
          · exact (List.perm_append_comm.append_left after).trans perm
          · rw [written, idle, List.append_nil]

/--
The bytes that a browser receives are whole frames in every run in which a
thread calls `send` only while the other is not part-way through a frame.
-/
theorem wholeFrames_run
    (actions : List Action) (final : State)
    (undisturbed : machine.Along Undisturbed machine.initial actions)
    (ran : machine.run actions = some final) : WholeFrames final := by
  have preserved :
      ∀ (state : State) (action : Action) (next : State),
        (∃ done, Aligned state done) → Undisturbed state action →
          machine.step state action = some next →
            ∃ done, Aligned next done := by
    rintro state action next ⟨done, aligned⟩ alone stepped
    exact aligned_step aligned alone stepped
  have initially : ∃ done, Aligned machine.initial done :=
    ⟨[], List.Perm.refl _, rfl, Or.inl (not_not.mpr rfl)⟩
  rcases machine.runFrom_invariant preserved initially undisturbed ran
    with ⟨done, aligned⟩
  exact wholeFrames_of_aligned aligned

/-- A Ping is answered between two broadcasts. -/
def politeRun : List Action :=
  [.broadcast (ascii "a"), .broadcasterSend 1, .broadcasterSend 2,
    .ping (ascii "hi"), .readerSend 2, .readerSend 2, .broadcast (ascii "b"),
    .broadcasterSend 2]

theorem wholeFrames_run_politeRun :
    ∃ final, machine.run politeRun = some final ∧ WholeFrames final := by
  exact ⟨_, rfl, wholeFrames_run politeRun _ (by decide) rfl⟩

/-- A broadcast comes between the header and the payload of a Pong. -/
def splicedRun : List Action :=
  [.ping (ascii "hi"), .readerSend 2, .broadcast (ascii "a"),
    .broadcasterSend 3]

/-- The text frame is spliced into the Pong frame. -/
theorem splicedRun_not_wholeFrames :
    ∃ final, machine.run splicedRun = some final ∧ ¬ WholeFrames final := by
  refine ⟨_, rfl, ?_⟩
  rintro ⟨frames, issued, cut⟩
  cases frames with
  | nil => cases List.prefix_nil.mp cut
  | cons frame more =>
      have member := issued.subset List.mem_cons_self
      rcases cut with ⟨rest, equal⟩
      rcases List.mem_pair.mp member with rfl | rfl
      · have third := congrArg (fun bytes => bytes[2]?) equal
        cases third
      · have first := congrArg List.head? equal
        cases first

end AccelObserver.Server.WebStream
