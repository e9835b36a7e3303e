import Mathlib.Data.List.Basic
import Mathlib.Tactic.Common

/-!
# Sockets that cut the stream

One end of a stream connection.  The operating system hands the incoming
bytes over in pieces of its own choosing, and takes outgoing bytes in pieces
of its own choosing; a loop around `recv` or `send` has to hide the pieces.

The two loops of this file transfer an exact number of elements.  What they
do does not depend on the pieces: `recvLoop_eq_of_le` and
`recvLoop_eq_of_lt` say when reading succeeds and what it leaves unread, and
`sendLoop_eq` what a writer leaves on the wire.
-/

namespace AccelObserver.Library.Channel

/--
How a stream is cut: the largest piece that the given call may transfer.

A piece is never empty, since a `recv` that returns nothing means the end of
the stream.
-/
structure Segmentation where
  size : Nat → Nat
  size_pos : ∀ call, 0 < size call

/-- Every call transfers one element. -/
def Segmentation.single : Segmentation where
  size _ := 1
  size_pos _ := Nat.one_pos

/--
One end of a connection.  `incoming` is what the peer has sent (or will send
before it closes) and nobody has read; `sendSize call = 0` is a `send` that
fails.
-/
structure Sock (α : Type) where
  incoming : List α
  segmentation : Segmentation
  recvCalls : Nat
  outgoing : List α
  sendSize : Nat → Nat
  sendCalls : Nat

variable {α : Type}

/-- A fresh connection on which every `send` takes what it is offered. -/
def Sock.receiving
    (incoming : List α) (segmentation : Segmentation) : Sock α where
  incoming := incoming
  segmentation := segmentation
  recvCalls := 0
  outgoing := []
  sendSize := fun _ => 65536
  sendCalls := 0

/-- No `send` on this connection fails. -/
def Sock.SendsComplete (sock : Sock α) : Prop :=
  ∀ call, 0 < sock.sendSize call

@[simp]
theorem Sock.receiving_sendsComplete
    (incoming : List α) (segmentation : Segmentation) :
    (Sock.receiving incoming segmentation).SendsComplete :=
  fun _ => by simp [Sock.receiving]

/-- One `recv`: between one element and what is asked, or nothing at the end. -/
def recv (sock : Sock α) (asked : Nat) : List α × Sock α :=
  let count := min asked (sock.segmentation.size sock.recvCalls)
  (sock.incoming.take count,
    { sock with
      incoming := sock.incoming.drop count
      recvCalls := sock.recvCalls + 1 })

/-- One `send`: how many elements the operating system took. -/
def send (sock : Sock α) (data : List α) : Nat × Sock α :=
  let count := min data.length (sock.sendSize sock.sendCalls)
  (count,
    { sock with
      outgoing := sock.outgoing ++ data.take count
      sendCalls := sock.sendCalls + 1 })

/--
Call `recv` for at most `chunk` elements at a time until `remaining` have
arrived.  The first argument bounds the number of calls; since every piece
has an element, `remaining` calls are enough.
-/
def recvLoop (chunk : Nat) :
    Nat → Nat → Sock α → Option (List α) × Sock α
  | _, 0, sock => (some [], sock)
  | 0, _ + 1, sock => (none, sock)
  | calls + 1, remaining + 1, sock =>
      let received := recv sock (min (remaining + 1) chunk)
      if received.1.isEmpty then (none, received.2)
      else
        let rest :=
          recvLoop chunk calls (remaining + 1 - received.1.length) received.2
        (rest.1.map (received.1 ++ ·), rest.2)

/-- Read exactly `count` elements, or fail at the end of the stream. -/
def recvAll (chunk count : Nat) (sock : Sock α) : Option (List α) × Sock α :=
  recvLoop chunk count count sock

/-- Call `send` until all of `data` is taken or a call fails. -/
def sendLoop (chunk : Nat) : Nat → List α → Sock α → Bool × Sock α
  | _, [], sock => (true, sock)
  | 0, _ :: _, sock => (false, sock)
  | calls + 1, first :: rest, sock =>
      let sent := send sock ((first :: rest).take chunk)
      if sent.1 = 0 then (false, sent.2)
      else sendLoop chunk calls ((first :: rest).drop sent.1) sent.2

/-- Write all of `data`. -/
def sendAll (chunk : Nat) (data : List α) (sock : Sock α) : Bool × Sock α :=
  sendLoop chunk data.length data sock

/-! ## Reading -/

/-- A piece that is asked for and can be had has an element. -/
theorem recv_isEmpty_iff (sock : Sock α) {asked : Nat} (positive : 0 < asked) :
    (recv sock asked).1.isEmpty = sock.incoming.isEmpty := by
  have sizePositive := sock.segmentation.size_pos sock.recvCalls
  cases incoming : sock.incoming with
  | nil => simp [recv, incoming]
  | cons first rest =>
      simp only [recv, incoming, List.isEmpty_cons, List.isEmpty_eq_false_iff]
      intro empty
      have := congrArg List.length empty
      simp only [List.length_take, List.length_cons, List.length_nil] at this
      omega

/-- Reading succeeds when enough has been sent, and takes exactly that. -/
theorem recvLoop_eq_of_le
    {chunk : Nat} (chunkPositive : 0 < chunk) (calls : Nat) :
    ∀ (remaining : Nat) (sock : Sock α), remaining ≤ calls →
      remaining ≤ sock.incoming.length →
      ∃ recvCalls,
        recvLoop chunk calls remaining sock =
          (some (sock.incoming.take remaining),
            { sock with
              incoming := sock.incoming.drop remaining
              recvCalls := recvCalls }) := by
  induction calls with
  | zero =>
      intro remaining sock bounded _
      obtain rfl : remaining = 0 := Nat.le_zero.mp bounded
      exact ⟨sock.recvCalls, by simp [recvLoop]⟩
  | succ calls induction =>
      intro remaining sock bounded enough
      cases remaining with
      | zero => exact ⟨sock.recvCalls, by simp [recvLoop]⟩
      | succ remaining =>
          have asked : 0 < min (remaining + 1) chunk := by omega
          have sizePositive := sock.segmentation.size_pos sock.recvCalls
          have nonempty :
              (recv sock (min (remaining + 1) chunk)).1.isEmpty = false := by
            rw [recv_isEmpty_iff sock asked]
            cases incoming : sock.incoming with
            | nil => simp [incoming] at enough
            | cons => rfl
          set count :=
            min (min (remaining + 1) chunk)
              (sock.segmentation.size sock.recvCalls) with countEq
          have countLe : count ≤ remaining + 1 := by omega
          have length :
              (sock.incoming.take count).length = count := by
            rw [List.length_take]
            omega
          rcases induction (remaining + 1 - count)
              (recv sock (min (remaining + 1) chunk)).2
              (by omega) (by simp only [recv, List.length_drop]; omega)
            with ⟨recvCalls, rest⟩
          refine ⟨recvCalls, ?_⟩
          simp only [recvLoop, nonempty, Bool.false_eq_true, if_false]
          simp only [recv, ← countEq, length] at rest ⊢
          simp only [rest, Option.map_some, List.drop_drop, Prod.mk.injEq,
            Option.some.injEq]
          constructor
          · rw [← List.take_add, Nat.add_sub_cancel' countLe]
          · rw [Nat.add_sub_cancel' countLe]

/-- Reading fails at the end of the stream, with everything consumed. -/
theorem recvLoop_eq_of_lt
    {chunk : Nat} (chunkPositive : 0 < chunk) (calls : Nat) :
    ∀ (remaining : Nat) (sock : Sock α), remaining ≤ calls →
      sock.incoming.length < remaining →
      ∃ recvCalls,
        recvLoop chunk calls remaining sock =
          (none, { sock with incoming := [], recvCalls := recvCalls }) := by
  induction calls with
  | zero =>
      intro remaining sock bounded short
      omega
  | succ calls induction =>
      intro remaining sock bounded short
      cases remaining with
      | zero => omega
      | succ remaining =>
          have asked : 0 < min (remaining + 1) chunk := by omega
          have sizePositive := sock.segmentation.size_pos sock.recvCalls
          simp only [recvLoop, recv_isEmpty_iff sock asked]
          cases incoming : sock.incoming with
          | nil =>
              exact ⟨sock.recvCalls + 1, by simp [recv, incoming]⟩
          | cons first rest =>
              rcases induction
                  (remaining + 1 -
                    (recv sock (min (remaining + 1) chunk)).1.length)
                  (recv sock (min (remaining + 1) chunk)).2
                  (by
                    simp only [recv, incoming, List.length_take,
                      List.length_cons]
                    omega)
                  (by
                    simp only [recv, incoming, List.length_take,
                      List.length_drop, List.length_cons] at short ⊢
                    omega)
                with ⟨recvCalls, failed⟩
              refine ⟨recvCalls, ?_⟩
              simp only [List.isEmpty_cons, Bool.false_eq_true, if_false,
                failed, Option.map_none]
              rfl

theorem recvAll_eq_of_append
    {chunk : Nat} (chunkPositive : 0 < chunk)
    {sock : Sock α} {data rest : List α} {count : Nat}
    (incoming : sock.incoming = data ++ rest)
    (length : data.length = count) :
    ∃ recvCalls,
      recvAll chunk count sock =
        (some data,
          { sock with incoming := rest, recvCalls := recvCalls }) := by
  rcases recvLoop_eq_of_le chunkPositive count count sock (Nat.le_refl _)
      (by simp [incoming, length])
    with ⟨recvCalls, received⟩
  refine ⟨recvCalls, received.trans ?_⟩
  subst count
  simp [incoming]

theorem recvAll_eq_of_lt
    {chunk : Nat} (chunkPositive : 0 < chunk)
    {sock : Sock α} {count : Nat}
    (short : sock.incoming.length < count) :
    ∃ recvCalls,
      recvAll chunk count sock =
        (none, { sock with incoming := [], recvCalls := recvCalls }) :=
  recvLoop_eq_of_lt chunkPositive count count sock (Nat.le_refl _) short

/-- Reading writes nothing. -/
theorem recvLoop_outgoing (chunk calls : Nat) :
    ∀ (remaining : Nat) (sock : Sock α),
      (recvLoop chunk calls remaining sock).2.outgoing = sock.outgoing := by
  induction calls with
  | zero =>
      intro remaining sock
      cases remaining <;> rfl
  | succ calls induction =>
      intro remaining sock
      cases remaining with
      | zero => rfl
      | succ remaining =>
          simp only [recvLoop]
          split_ifs
          · rfl
          · exact induction _ _

theorem recvAll_outgoing (chunk count : Nat) (sock : Sock α) :
    (recvAll chunk count sock).2.outgoing = sock.outgoing :=
  recvLoop_outgoing chunk count count sock

/-! ## Writing -/

/-- When no `send` fails, all the data is on the wire, whatever the pieces. -/
theorem sendLoop_eq
    {chunk : Nat} (chunkPositive : 0 < chunk) (calls : Nat) :
    ∀ (data : List α) (sock : Sock α), data.length ≤ calls →
      sock.SendsComplete →
      ∃ sendCalls,
        sendLoop chunk calls data sock =
          (true,
            { sock with
              outgoing := sock.outgoing ++ data
              sendCalls := sendCalls }) := by
  induction calls with
  | zero =>
      intro data sock bounded _
      obtain rfl := List.length_eq_zero_iff.mp (Nat.le_zero.mp bounded)
      exact ⟨sock.sendCalls, by simp [sendLoop]⟩
  | succ calls induction =>
      intro data sock bounded complete
      cases data with
      | nil => exact ⟨sock.sendCalls, by simp [sendLoop]⟩
      | cons first rest =>
          have positive := complete sock.sendCalls
          set count :=
            min ((first :: rest).take chunk).length
              (sock.sendSize sock.sendCalls) with countEq
          have countBounds : 0 < count ∧ count ≤ chunk := by
            rw [countEq, List.length_take, List.length_cons]
            omega
          rcases induction ((first :: rest).drop count)
              (send sock ((first :: rest).take chunk)).2
              (by simp only [List.length_drop, List.length_cons] at *; omega)
              complete
            with ⟨sendCalls, sent⟩
          refine ⟨sendCalls, ?_⟩
          have notFailed : count ≠ 0 := by omega
          simp only [sendLoop, send, ← countEq, notFailed, if_false] at sent ⊢
          rw [sent]
          simp only [List.take_take, Nat.min_eq_left countBounds.2,
            List.append_assoc, List.take_append_drop]

theorem sendAll_eq
    {chunk : Nat} (chunkPositive : 0 < chunk)
    (data : List α) {sock : Sock α} (complete : sock.SendsComplete) :
    ∃ sendCalls,
      sendAll chunk data sock =
        (true,
          { sock with
            outgoing := sock.outgoing ++ data
            sendCalls := sendCalls }) :=
  sendLoop_eq chunkPositive data.length data sock (Nat.le_refl _) complete

/-! ### When a `send` fails -/

/-- Every one of these calls of `send` takes something. -/
def Sock.TakesSends (sock : Sock α) (first last : Nat) : Prop :=
  ∀ call, first ≤ call → call < last → 0 < sock.sendSize call

theorem Sock.takesSends_trans_iff
    (sock : Sock α) {first middle last : Nat}
    (firstLe : first ≤ middle) (middleLe : middle ≤ last) :
    sock.TakesSends first last ↔
      sock.TakesSends first middle ∧ sock.TakesSends middle last := by
  constructor
  · intro takes
    exact ⟨fun call from_ to_ => takes call from_ (by omega),
      fun call from_ to_ => takes call (by omega) to_⟩
  · rintro ⟨front, back⟩ call from_ to_
    by_cases early : call < middle
    · exact front call from_ early
    · exact back call (by omega) to_

/-- What is written of some data: all of it if it is taken, and else less. -/
structure Written (data written : List α) (taken : Prop) : Prop where
  all : taken → written = data
  less : ¬ taken → written.length < data.length

/-- Without a call, nothing has been written of nothing. -/
theorem Sock.written_nil (sock : Sock α) (call : Nat) :
    Written ([] : List α) [] (sock.TakesSends call call) where
  all _ := rfl
  less fails := absurd (fun _ _ _ => by omega) fails

theorem Written.length_le
    {data written : List α} {taken : Prop}
    (wrote : Written data written taken) : written.length ≤ data.length := by
  by_cases done : taken
  · exact Nat.le_of_eq (congrArg List.length (wrote.all done))
  · exact Nat.le_of_lt (wrote.less done)

theorem Written.append
    {front back frontWritten backWritten : List α} {frontTaken backTaken : Prop}
    (first : Written front frontWritten frontTaken)
    (second : Written back backWritten backTaken) :
    Written (front ++ back) (frontWritten ++ backWritten)
      (frontTaken ∧ backTaken) where
  all := by
    rintro ⟨frontDone, backDone⟩
    rw [first.all frontDone, second.all backDone]
  less := by
    intro failed
    have frontLe := first.length_le
    have backLe := second.length_le
    rw [List.length_append, List.length_append]
    rcases not_and_or.mp failed with frontFailed | backFailed
    · have less := first.less frontFailed
      omega
    · have less := second.less backFailed
      omega

/-- Nothing is written behind a `send` that fails. -/
theorem sendLoop_written
    {chunk : Nat} (chunkPositive : 0 < chunk) (calls : Nat) :
    ∀ (data : List α) (sock : Sock α), data.length ≤ calls →
      ∃ written sendCalls, sock.sendCalls ≤ sendCalls ∧
        (sendLoop chunk calls data sock).2 =
          { sock with
            outgoing := sock.outgoing ++ written
            sendCalls := sendCalls } ∧
        Written data written
          (sock.TakesSends sock.sendCalls sendCalls) := by
  induction calls with
  | zero =>
      intro data sock bounded
      obtain rfl := List.length_eq_zero_iff.mp (Nat.le_zero.mp bounded)
      exact ⟨[], sock.sendCalls, Nat.le_refl _, by simp [sendLoop],
        sock.written_nil _⟩
  | succ calls induction =>
      intro data sock bounded
      cases data with
      | nil =>
          exact ⟨[], sock.sendCalls, Nat.le_refl _, by simp [sendLoop],
            sock.written_nil _⟩
      | cons first rest =>
          set count :=
            min ((first :: rest).take chunk).length
              (sock.sendSize sock.sendCalls) with countEq
          have offered : 0 < ((first :: rest).take chunk).length := by
            rw [List.length_take, List.length_cons]
            omega
          by_cases fails : count = 0
          · refine ⟨[], sock.sendCalls + 1, Nat.le_succ _, ?_, ?_⟩
            · simp only [sendLoop, send, ← countEq, fails, if_true,
                List.take_zero]
            · constructor
              · intro takes
                have taken := takes sock.sendCalls (Nat.le_refl _)
                  (Nat.lt_succ_self _)
                omega
              · intro _
                exact Nat.succ_pos _
          · have countLe : count ≤ chunk := by
              rw [countEq, List.length_take]
              omega
            rcases induction ((first :: rest).drop count)
                (send sock ((first :: rest).take chunk)).2
                (by simp only [List.length_drop, List.length_cons] at *; omega)
              with ⟨written, sendCalls, later, sent, wrote⟩
            have front :
                Written ((first :: rest).take count)
                  ((first :: rest).take count)
                  (sock.TakesSends sock.sendCalls (sock.sendCalls + 1)) := by
              refine ⟨fun _ => rfl, fun refused => absurd ?_ refused⟩
              intro call from_ to_
              obtain rfl : call = sock.sendCalls := by omega
              omega
            have joined := front.append wrote
            rw [List.take_append_drop] at joined
            refine ⟨(first :: rest).take count ++ written, sendCalls,
              Nat.le_of_succ_le later, ?_, ?_⟩
            · simp only [sendLoop, send, ← countEq, fails, if_false] at sent ⊢
              rw [sent]
              simp only [List.take_take, Nat.min_eq_left countLe,
                List.append_assoc]
            · rw [sock.takesSends_trans_iff (Nat.le_succ _) later]
              exact joined

theorem sendAll_written
    {chunk : Nat} (chunkPositive : 0 < chunk) (data : List α)
    (sock : Sock α) :
    ∃ written sendCalls, sock.sendCalls ≤ sendCalls ∧
      (sendAll chunk data sock).2 =
        { sock with
          outgoing := sock.outgoing ++ written
          sendCalls := sendCalls } ∧
      Written data written (sock.TakesSends sock.sendCalls sendCalls) :=
  sendLoop_written chunkPositive data.length data sock (Nat.le_refl _)

end AccelObserver.Library.Channel
