import Mathlib.Data.List.Basic

/-!
# Buffered output streams

A stream keeps what is put into it until its buffer is full, and hands all of
it over to the system then.  What the system does not take is an error of the
stream from there on.  When the stream is closed, what it still keeps is handed
over as well, and nobody sees how that goes.

As long as a stream is good, what it has delivered and what it keeps are
together what was put into it.
-/

namespace AccelObserver.Library

/-- A stream; `limits` says how much the system takes, one time after the
other, and where it ends the system takes everything. -/
structure OutStream (α : Type) where
  delivered : List α
  pending : List α
  good : Bool
  limits : List Nat

namespace OutStream

variable {α : Type}

/-- A stream that has been opened. -/
def opened (limits : List Nat) : OutStream α :=
  { delivered := [], pending := [], good := true, limits := limits }

/-- Hand over what is kept and some more.  On an error it is still kept. -/
def handOver (stream : OutStream α) (text : List α) : OutStream α :=
  let all := stream.pending ++ text
  let taken := all.take (stream.limits.headD all.length)
  { delivered := stream.delivered ++ taken
    pending := if taken.length = all.length then [] else stream.pending
    good := decide (taken.length = all.length)
    limits := stream.limits.tail }

/-- Put a text into a stream whose buffer is full at `size`. -/
def put (size : Nat) (stream : OutStream α) (text : List α) : OutStream α :=
  if !stream.good then stream
  else if stream.pending.length + text.length < size then
    { stream with pending := stream.pending ++ text }
  else stream.handOver text

/-- Put some texts into a stream. -/
def puts (size : Nat) (stream : OutStream α) (texts : List (List α)) :
    OutStream α :=
  texts.foldl (put size) stream

/-- What has been delivered when the stream is closed; `cut` says how much the
system takes of what is kept, if not everything. -/
def closed (stream : OutStream α) (cut : Option Nat) : List α :=
  stream.delivered ++
    stream.pending.take (cut.getD stream.pending.length)

/-- What was put into a good stream. -/
def content (stream : OutStream α) : List α :=
  stream.delivered ++ stream.pending

@[simp]
theorem content_opened (limits : List Nat) :
    (opened limits : OutStream α).content = [] :=
  rfl

@[simp]
theorem closed_none (stream : OutStream α) :
    stream.closed none = stream.content := by
  rw [closed, content, Option.getD_none, List.take_length]

/-! ## Good streams -/

theorem content_handOver
    {stream : OutStream α} {text : List α}
    (good : (stream.handOver text).good = true) :
    (stream.handOver text).content = stream.content ++ text := by
  simp only [handOver, decide_eq_true_eq] at good
  have everything := (List.take_prefix _ _).eq_of_length good
  simp only [handOver, content, everything, if_true, List.append_nil,
    List.append_assoc]

theorem content_put
    {size : Nat} {stream : OutStream α} {text : List α}
    (good : (stream.put size text).good = true) :
    stream.good = true ∧
      (stream.put size text).content = stream.content ++ text := by
  rw [put] at good ⊢
  split_ifs at good ⊢ with bad kept
  · simp [good] at bad
  · exact ⟨good, (List.append_assoc _ _ _).symm⟩
  · exact ⟨by simpa using bad, content_handOver good⟩

/-- A stream that is good behind some texts was good before them, and has all
of them. -/
theorem content_puts
    {size : Nat} {texts : List (List α)} {stream : OutStream α}
    (good : (stream.puts size texts).good = true) :
    stream.good = true ∧
      (stream.puts size texts).content =
        stream.content ++ texts.flatten := by
  induction texts generalizing stream with
  | nil => exact ⟨good, (List.append_nil _).symm⟩
  | cons text texts induction =>
      rcases induction good with ⟨goodHere, later⟩
      rcases content_put goodHere with ⟨goodBefore, here⟩
      refine ⟨goodBefore, later.trans ?_⟩
      rw [here, List.flatten_cons, List.append_assoc]

/-! ## Streams without an error -/

/-- Where the system takes everything, a stream stays good. -/
theorem put_of_unlimited
    (size : Nat) {stream : OutStream α} (good : stream.good = true)
    (unlimited : stream.limits = []) (text : List α) :
    (stream.put size text).good = true ∧
      (stream.put size text).limits = [] := by
  rw [put]
  split_ifs with bad kept
  · exact ⟨good, unlimited⟩
  · exact ⟨good, unlimited⟩
  · simp [handOver, unlimited]

theorem puts_of_unlimited
    (size : Nat) {stream : OutStream α} (good : stream.good = true)
    (unlimited : stream.limits = []) (texts : List (List α)) :
    (stream.puts size texts).good = true ∧
      (stream.puts size texts).limits = [] := by
  induction texts generalizing stream with
  | nil => exact ⟨good, unlimited⟩
  | cons text texts induction =>
      rcases put_of_unlimited size good unlimited text
        with ⟨goodHere, unlimitedHere⟩
      exact induction goodHere unlimitedHere

end OutStream

end AccelObserver.Library
