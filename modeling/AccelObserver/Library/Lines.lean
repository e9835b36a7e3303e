import AccelObserver.Library.Bytes
import AccelObserver.Library.Channel

/-!
# Reading lines from a socket

A line ends with a line feed, and a carriage return before it is dropped.
The readers of this file ask for one byte at a time, so no segmentation of
the stream can be seen, and nothing behind the line feed is taken.
-/

namespace AccelObserver.Library.Lines

open AccelObserver.Library.Channel

/-- A line without its carriage return. -/
def stripCr (line : Bytes) : Bytes :=
  if line.getLast? = some 13 then line.dropLast else line

/--
Read up to a line feed.  `none` means that the stream ends first; after
`room` bytes without a line feed the answer is `atLimit` of the bytes.
-/
def recvLine (atLimit : Bytes → Option Bytes) :
    Nat → Bytes → Sock UInt8 → Option Bytes × Sock UInt8
  | 0, line, sock => (atLimit line, sock)
  | room + 1, line, sock =>
      match recv sock 1 with
      | ([], sock) => (none, sock)
      | (c :: _, sock) =>
          if c = 10 then (some (stripCr line), sock)
          else recvLine atLimit room (line ++ [c]) sock

/--
Read lines until an empty one and take them up one after another.  The
Boolean says whether the empty line came before the stream failed.
-/
def foldLines {β : Type}
    (readLine : Sock UInt8 → Option Bytes × Sock UInt8)
    (take : β → Bytes → β) :
    Nat → β → Sock UInt8 → Bool × β × Sock UInt8
  | 0, value, sock => (false, value, sock)
  | lines + 1, value, sock =>
      match readLine sock with
      | (none, sock) => (false, value, sock)
      | (some [], sock) => (true, value, sock)
      | (some (c :: line), sock) =>
          foldLines readLine take lines (take value (c :: line)) sock

/-- A line as it is sent. -/
def crlf (line : Bytes) : Bytes :=
  line ++ [13, 10]

/-- Where the line is at the front of the stream, this reader takes it. -/
def Reads
    (readLine : Sock UInt8 → Option Bytes × Sock UInt8)
    (line : Bytes) : Prop :=
  ∀ (sock : Sock UInt8) (rest : Bytes), sock.incoming = crlf line ++ rest →
    ∃ recvCalls,
      readLine sock =
        (some line, { sock with incoming := rest, recvCalls := recvCalls })

/-! ## One line -/

/-- A `recv` of one byte gives the next byte. -/
theorem recv_one_of_cons
    {α : Type} {sock : Sock α} {first : α} {rest : List α}
    (incoming : sock.incoming = first :: rest) :
    recv sock 1 =
      ([first],
        { sock with incoming := rest, recvCalls := sock.recvCalls + 1 }) := by
  have one : min 1 (sock.segmentation.size sock.recvCalls) = 1 :=
    Nat.min_eq_left (sock.segmentation.size_pos sock.recvCalls)
  simp only [recv, one, incoming, List.take_succ_cons, List.take_zero,
    List.drop_succ_cons, List.drop_zero]

/-- The bytes up to the line feed are read, and no others. -/
theorem recvLine_of_append
    {text rest : Bytes} (oneLine : 10 ∉ text)
    (atLimit : Bytes → Option Bytes) {room : Nat} (fits : text.length < room)
    (line : Bytes) (sock : Sock UInt8)
    (incoming : sock.incoming = text ++ 10 :: rest) :
    ∃ recvCalls,
      recvLine atLimit room line sock =
        (some (stripCr (line ++ text)),
          { sock with incoming := rest, recvCalls := recvCalls }) := by
  induction text generalizing room line sock with
  | nil =>
      cases room with
      | zero => exact absurd fits (Nat.not_lt_zero _)
      | succ room =>
          refine ⟨sock.recvCalls + 1, ?_⟩
          rw [recvLine, recv_one_of_cons incoming]
          simp
  | cons c text induction =>
      cases room with
      | zero => exact absurd fits (Nat.not_lt_zero _)
      | succ room =>
          simp only [List.mem_cons, not_or] at oneLine
          rcases oneLine with ⟨different, oneLineLater⟩
          rcases induction oneLineLater (Nat.lt_of_succ_lt_succ fits)
              (line ++ [c])
              { sock with
                incoming := text ++ 10 :: rest
                recvCalls := sock.recvCalls + 1 }
              rfl
            with ⟨recvCalls, read⟩
          rw [List.append_assoc, List.singleton_append] at read
          refine ⟨recvCalls, ?_⟩
          rw [List.cons_append] at incoming
          rw [recvLine, recv_one_of_cons incoming]
          simp only [if_neg (Ne.symm different)]
          exact read

/-- The carriage return that was sent is the one that is dropped. -/
theorem reads_of_not_mem
    {line : Bytes} (oneLine : 10 ∉ line)
    (atLimit : Bytes → Option Bytes) (room : Sock UInt8 → Nat)
    (fits :
      ∀ sock rest, sock.incoming = crlf line ++ rest →
        line.length + 1 < room sock) :
    Reads (fun sock => recvLine atLimit (room sock) [] sock) line := by
  intro sock rest incoming
  have noFeed : 10 ∉ line ++ [13] := by simp [oneLine]
  have stripped : stripCr ([] ++ (line ++ [13])) = line := by
    simp [stripCr]
  have split : sock.incoming = (line ++ [13]) ++ 10 :: rest := by
    rw [incoming, crlf]
    simp
  have length : (line ++ [13]).length < room sock := by
    rw [List.length_append]
    exact fits sock rest incoming
  rcases recvLine_of_append noFeed atLimit length [] sock split
    with ⟨recvCalls, read⟩
  rw [stripped] at read
  exact ⟨recvCalls, read⟩

/-! ## A block of lines -/

/-- A block of lines is taken up in order, with the empty line behind it. -/
theorem foldLines_of_append
    {β : Type} {readLine : Sock UInt8 → Option Bytes × Sock UInt8}
    (take : β → Bytes → β)
    {lines : List Bytes} (readable : ∀ line ∈ lines, Reads readLine line)
    (nonempty : ∀ line ∈ lines, line ≠ [])
    (readableEnd : Reads readLine [])
    {bound : Nat} (enough : lines.length < bound)
    (value : β) (sock : Sock UInt8) {rest : Bytes}
    (incoming : sock.incoming = lines.flatMap crlf ++ (crlf [] ++ rest)) :
    ∃ recvCalls,
      foldLines readLine take bound value sock =
        (true, lines.foldl take value,
          { sock with incoming := rest, recvCalls := recvCalls }) := by
  induction lines generalizing bound value sock with
  | nil =>
      cases bound with
      | zero => exact absurd enough (Nat.not_lt_zero _)
      | succ bound =>
          rcases readableEnd sock rest incoming with ⟨recvCalls, read⟩
          refine ⟨recvCalls, ?_⟩
          rw [foldLines, read]
          rfl
  | cons line lines induction =>
      cases bound with
      | zero => exact absurd enough (Nat.not_lt_zero _)
      | succ bound =>
          rw [List.flatMap_cons, List.append_assoc] at incoming
          rcases readable line (List.mem_cons_self ..) sock _ incoming
            with ⟨lineCalls, read⟩
          rcases induction
              (fun other member =>
                readable other (List.mem_cons_of_mem _ member))
              (fun other member =>
                nonempty other (List.mem_cons_of_mem _ member))
              (Nat.lt_of_succ_lt_succ enough) (take value line)
              { sock with
                incoming := lines.flatMap crlf ++ (crlf [] ++ rest)
                recvCalls := lineCalls }
              rfl
            with ⟨recvCalls, folded⟩
          refine ⟨recvCalls, ?_⟩
          rw [foldLines, read]
          cases line with
          | nil => exact absurd rfl (nonempty [] (List.mem_cons_self ..))
          | cons c line => exact folded

theorem length_le_length_flatMap_crlf (lines : List Bytes) :
    lines.length ≤ (lines.flatMap crlf).length := by
  induction lines with
  | nil => exact Nat.le_refl 0
  | cons line lines induction =>
      rw [List.flatMap_cons, List.length_append, List.length_cons, crlf,
        List.length_append, List.length_cons, List.length_singleton]
      omega

/-- As many rounds as there are bytes on the stream are enough. -/
theorem foldLines_of_incoming
    {β : Type} {readLine : Sock UInt8 → Option Bytes × Sock UInt8}
    (take : β → Bytes → β)
    {lines : List Bytes} (readable : ∀ line ∈ lines, Reads readLine line)
    (nonempty : ∀ line ∈ lines, line ≠ [])
    (readableEnd : Reads readLine [])
    (value : β) (sock : Sock UInt8) {rest : Bytes}
    (incoming : sock.incoming = lines.flatMap crlf ++ (crlf [] ++ rest)) :
    ∃ recvCalls,
      foldLines readLine take (sock.incoming.length + 1) value sock =
        (true, lines.foldl take value,
          { sock with incoming := rest, recvCalls := recvCalls }) := by
  have rounds := length_le_length_flatMap_crlf lines
  have enough : lines.length < sock.incoming.length + 1 := by
    rw [incoming, List.length_append]
    exact Nat.lt_succ_of_le (Nat.le_add_right_of_le rounds)
  exact foldLines_of_append take readable nonempty readableEnd enough value
    sock incoming

/-! ## The lines of a stream -/

/-- What `recvLine` takes off a stream: the line and the bytes behind it. -/
def lineOf (atLimit : Bytes → Option Bytes) :
    Nat → Bytes → Bytes → Option (Bytes × Bytes)
  | 0, line, stream => (atLimit line).map fun text => (text, stream)
  | _ + 1, _, [] => none
  | room + 1, line, c :: stream =>
      if c = 10 then some (stripCr line, stream)
      else lineOf atLimit room (line ++ [c]) stream

/-- A line of any length: everything up to the first line feed. -/
def wholeLine (stream : Bytes) : Option (Bytes × Bytes) :=
  if 10 ∈ stream then
    some (stripCr (stream.takeWhile (· != 10)),
      (stream.dropWhile (· != 10)).drop 1)
  else none

/-- The lines up to the first empty one, which ends before `rest`. -/
inductive Block (line : Bytes → Option (Bytes × Bytes)) :
    Bytes → List Bytes → Bytes → Prop
  | done {stream rest : Bytes} :
      line stream = some ([], rest) → Block line stream [] rest
  | more {stream text behind : Bytes} {texts : List Bytes} {rest : Bytes} :
      line stream = some (text, behind) → text ≠ [] →
      Block line behind texts rest → Block line stream (text :: texts) rest

/-- The reader takes the lines off the stream that the function finds. -/
structure Follows
    (readLine : Sock UInt8 → Option Bytes × Sock UInt8)
    (line : Bytes → Option (Bytes × Bytes)) : Prop where
  reads :
    ∀ {sock : Sock UInt8} {text rest : Bytes},
      line sock.incoming = some (text, rest) →
      ∃ recvCalls,
        readLine sock =
          (some text, { sock with incoming := rest, recvCalls := recvCalls })
  fails :
    ∀ {sock : Sock UInt8}, line sock.incoming = none →
      (readLine sock).1 = none

/-- At the end of the stream a `recv` gives nothing. -/
theorem recv_of_nil
    {α : Type} {sock : Sock α} (incoming : sock.incoming = []) (asked : Nat) :
    (recv sock asked).1 = [] := by
  simp only [recv, incoming, List.take_nil]

theorem recvLine_of_lineOf
    (atLimit : Bytes → Option Bytes) (room : Nat) :
    ∀ (line : Bytes) (sock : Sock UInt8) {text rest : Bytes},
      lineOf atLimit room line sock.incoming = some (text, rest) →
      ∃ recvCalls,
        recvLine atLimit room line sock =
          (some text,
            { sock with incoming := rest, recvCalls := recvCalls }) := by
  induction room with
  | zero =>
      intro line sock text rest found
      rw [lineOf, Option.map_eq_some_iff] at found
      rcases found with ⟨last, limit, same⟩
      cases same
      exact ⟨sock.recvCalls, by rw [recvLine, limit]⟩
  | succ room induction =>
      intro line sock text rest found
      cases incoming : sock.incoming with
      | nil =>
          rw [incoming, lineOf] at found
          cases found
      | cons c stream =>
          rw [incoming, lineOf] at found
          rw [recvLine, recv_one_of_cons incoming]
          by_cases feed : c = 10
          · rw [if_pos feed] at found
            cases found
            exact ⟨sock.recvCalls + 1, by simp only [if_pos feed]⟩
          · rw [if_neg feed] at found
            simp only [if_neg feed]
            exact induction (line ++ [c])
              { sock with
                incoming := stream
                recvCalls := sock.recvCalls + 1 }
              found

theorem recvLine_of_lineOf_none
    (atLimit : Bytes → Option Bytes) (room : Nat) :
    ∀ (line : Bytes) (sock : Sock UInt8),
      lineOf atLimit room line sock.incoming = none →
      (recvLine atLimit room line sock).1 = none := by
  induction room with
  | zero =>
      intro line sock missing
      rw [lineOf, Option.map_eq_none_iff] at missing
      exact missing
  | succ room induction =>
      intro line sock missing
      cases incoming : sock.incoming with
      | nil =>
          have nothing := recv_of_nil incoming 1
          rw [recvLine]
          cases received : recv sock 1 with
          | mk bytes after =>
              rw [received] at nothing
              subst nothing
              rfl
      | cons c stream =>
          rw [incoming, lineOf] at missing
          rw [recvLine, recv_one_of_cons incoming]
          by_cases feed : c = 10
          · rw [if_pos feed] at missing
            cases missing
          · rw [if_neg feed] at missing
            simp only [if_neg feed]
            exact induction (line ++ [c])
              { sock with
                incoming := stream
                recvCalls := sock.recvCalls + 1 }
              missing

/-- No segmentation can be seen in what `recvLine` reads. -/
theorem follows_recvLine (atLimit : Bytes → Option Bytes) (room : Nat) :
    Follows (recvLine atLimit room []) (lineOf atLimit room []) where
  reads found := recvLine_of_lineOf atLimit room [] _ found
  fails missing := recvLine_of_lineOf_none atLimit room [] _ missing

/-- A line takes bytes off the stream, so a block has fewer lines than it. -/
theorem Block.length_lt
    {line : Bytes → Option (Bytes × Bytes)}
    (consumes :
      ∀ {stream text rest : Bytes}, line stream = some (text, rest) →
        rest.length < stream.length)
    {stream rest : Bytes} {texts : List Bytes}
    (block : Block line stream texts rest) :
    texts.length < stream.length := by
  induction block with
  | done found => exact Nat.zero_lt_of_lt (consumes found)
  | more found _ _ induction =>
      have shorter := consumes found
      rw [List.length_cons]
      omega

/-- A stream has one block at most. -/
theorem Block.unique
    {line : Bytes → Option (Bytes × Bytes)}
    {stream rest other : Bytes} {texts otherTexts : List Bytes}
    (block : Block line stream texts rest)
    (another : Block line stream otherTexts other) :
    texts = otherTexts ∧ rest = other := by
  induction block generalizing otherTexts with
  | done found =>
      cases another with
      | done otherFound =>
          rw [found] at otherFound
          cases otherFound
          exact ⟨rfl, rfl⟩
      | more otherFound nonempty _ =>
          rw [found] at otherFound
          cases otherFound
          exact absurd rfl nonempty
  | more found nonempty _ induction =>
      cases another with
      | done otherFound =>
          rw [found] at otherFound
          cases otherFound
          exact absurd rfl nonempty
      | more otherFound _ later =>
          rw [found] at otherFound
          cases otherFound
          rcases induction later with ⟨sameTexts, sameRest⟩
          exact ⟨congrArg _ sameTexts, sameRest⟩

/-- The loop over the lines takes up a block to its end. -/
theorem foldLines_of_block
    {β : Type} {readLine : Sock UInt8 → Option Bytes × Sock UInt8}
    {line : Bytes → Option (Bytes × Bytes)}
    (follows : Follows readLine line) (take : β → Bytes → β)
    {stream rest : Bytes} {texts : List Bytes}
    (block : Block line stream texts rest) :
    ∀ {bound : Nat} (value : β) (sock : Sock UInt8),
      texts.length < bound → sock.incoming = stream →
      ∃ recvCalls,
        foldLines readLine take bound value sock =
          (true, texts.foldl take value,
            { sock with incoming := rest, recvCalls := recvCalls }) := by
  induction block with
  | done found =>
      intro bound value sock enough incoming
      rw [← incoming] at found
      rcases follows.reads found with ⟨recvCalls, read⟩
      cases bound with
      | zero => exact absurd enough (Nat.not_lt_zero _)
      | succ bound => exact ⟨recvCalls, by rw [foldLines, read]; rfl⟩
  | @more stream text behind texts rest found nonempty _ induction =>
      intro bound value sock enough incoming
      rw [← incoming] at found
      rcases follows.reads found with ⟨lineCalls, read⟩
      cases bound with
      | zero => exact absurd enough (Nat.not_lt_zero _)
      | succ bound =>
          rcases induction (take value text)
              { sock with incoming := behind, recvCalls := lineCalls }
              (Nat.lt_of_succ_lt_succ enough) rfl
            with ⟨recvCalls, folded⟩
          refine ⟨recvCalls, ?_⟩
          rw [foldLines, read]
          cases text with
          | nil => exact absurd rfl nonempty
          | cons c text => exact folded

/-- Where the loop comes to an empty line, the stream begins with a block. -/
theorem exists_block_of_foldLines
    {β : Type} {readLine : Sock UInt8 → Option Bytes × Sock UInt8}
    {line : Bytes → Option (Bytes × Bytes)}
    (follows : Follows readLine line) (take : β → Bytes → β) (bound : Nat) :
    ∀ (value : β) (sock : Sock UInt8),
      (foldLines readLine take bound value sock).1 = true →
      ∃ texts rest, Block line sock.incoming texts rest := by
  induction bound with
  | zero =>
      intro value sock ended
      cases ended
  | succ bound induction =>
      intro value sock ended
      rw [foldLines] at ended
      cases found : line sock.incoming with
      | none =>
          have failed := follows.fails found
          cases read : readLine sock with
          | mk answer after =>
              rw [read] at failed ended
              subst failed
              cases ended
      | some result =>
          rcases result with ⟨text, behind⟩
          rcases follows.reads found with ⟨recvCalls, read⟩
          rw [read] at ended
          cases text with
          | nil => exact ⟨[], behind, .done found⟩
          | cons c text =>
              rcases induction _ _ ended with ⟨texts, rest, block⟩
              exact ⟨(c :: text) :: texts, rest,
                .more found (List.cons_ne_nil c text) block⟩

/-! ## Lines that are cut at a limit -/

/-- A line with room for its end is whole. -/
theorem lineOf_of_short
    {text : Bytes} (oneLine : 10 ∉ text)
    (atLimit : Bytes → Option Bytes) {room : Nat} (fits : text.length < room)
    (line rest : Bytes) :
    lineOf atLimit room line (text ++ 10 :: rest) =
      some (stripCr (line ++ text), rest) := by
  induction text generalizing room line with
  | nil =>
      cases room with
      | zero => exact absurd fits (Nat.not_lt_zero _)
      | succ room => simp [lineOf]
  | cons c text induction =>
      cases room with
      | zero => exact absurd fits (Nat.not_lt_zero _)
      | succ room =>
          simp only [List.mem_cons, not_or] at oneLine
          rw [List.cons_append, lineOf, if_neg (Ne.symm oneLine.1),
            induction oneLine.2 (Nat.lt_of_succ_lt_succ fits),
            List.append_assoc, List.singleton_append]

/-- A line that fills the room is cut off there. -/
theorem lineOf_of_full
    {text : Bytes} (oneLine : 10 ∉ text)
    (atLimit : Bytes → Option Bytes) (line rest : Bytes) :
    lineOf atLimit text.length line (text ++ rest) =
      (atLimit (line ++ text)).map fun full => (full, rest) := by
  induction text generalizing line with
  | nil => simp [lineOf]
  | cons c text induction =>
      simp only [List.mem_cons, not_or] at oneLine
      rw [List.cons_append, List.length_cons, lineOf,
        if_neg (Ne.symm oneLine.1), induction oneLine.2, List.append_assoc,
        List.singleton_append]

/-- A line with some room takes at least one byte. -/
theorem lineOf_consumes (atLimit : Bytes → Option Bytes) (room : Nat) :
    ∀ (line : Bytes) {stream text rest : Bytes},
      lineOf atLimit room line stream = some (text, rest) →
      rest.length + min room 1 ≤ stream.length := by
  induction room with
  | zero =>
      intro line stream text rest found
      rw [lineOf, Option.map_eq_some_iff] at found
      rcases found with ⟨last, _, same⟩
      cases same
      exact Nat.le_refl _
  | succ room induction =>
      intro line stream text rest found
      cases stream with
      | nil => cases found
      | cons c stream =>
          rw [lineOf] at found
          by_cases feed : c = 10
          · rw [if_pos feed] at found
            cases found
            rw [List.length_cons]
            omega
          · rw [if_neg feed] at found
            have later := induction (line ++ [c]) found
            rw [List.length_cons]
            omega

theorem wholeLine_append
    {text : Bytes} (oneLine : 10 ∉ text) (rest : Bytes) :
    wholeLine (text ++ 10 :: rest) = some (stripCr text, rest) := by
  have kept : ∀ byte ∈ text, (byte != 10) = true := by
    intro byte member
    simpa using ne_of_mem_of_not_mem member oneLine
  have feed : 10 ∈ text ++ 10 :: rest := by simp
  rw [wholeLine, if_pos feed, List.takeWhile_append_of_pos kept,
    List.dropWhile_append_of_pos kept]
  simp

/-- Every whole line is followed by its line feed. -/
theorem exists_of_wholeLine
    {stream line rest : Bytes} (found : wholeLine stream = some (line, rest)) :
    ∃ text, 10 ∉ text ∧ line = stripCr text ∧
      stream = text ++ 10 :: rest := by
  have feed : 10 ∈ stream := by
    by_contra absent
    rw [wholeLine, if_neg absent] at found
    cases found
  rcases List.eq_append_cons_of_mem feed with ⟨text, tail, split, oneLine⟩
  rw [split, wholeLine_append oneLine] at found
  cases found
  exact ⟨text, oneLine, rfl, split⟩

theorem wholeLine_crlf
    {line : Bytes} (oneLine : 10 ∉ line) (rest : Bytes) :
    wholeLine (crlf line ++ rest) = some (line, rest) := by
  have noFeed : 10 ∉ line ++ [13] := by simp [oneLine]
  have split : crlf line ++ rest = (line ++ [13]) ++ 10 :: rest := by
    simp [crlf]
  rw [split, wholeLine_append noFeed]
  simp [stripCr]

/-- Lines that are sent, with an empty one behind them, are a block. -/
theorem block_crlf
    {texts : List Bytes} (oneLine : ∀ text ∈ texts, 10 ∉ text)
    (nonempty : ∀ text ∈ texts, text ≠ []) (rest : Bytes) :
    Block wholeLine (texts.flatMap crlf ++ (crlf [] ++ rest)) texts rest := by
  induction texts with
  | nil => exact .done (wholeLine_crlf List.not_mem_nil rest)
  | cons text texts induction =>
      rw [List.flatMap_cons, List.append_assoc]
      exact .more
        (wholeLine_crlf (oneLine text (List.mem_cons_self ..)) _)
        (nonempty text (List.mem_cons_self ..))
        (induction
          (fun other member => oneLine other (List.mem_cons_of_mem _ member))
          fun other member => nonempty other (List.mem_cons_of_mem _ member))

/-! ## Reading writes nothing -/

theorem recvLine_outgoing (atLimit : Bytes → Option Bytes) (room : Nat) :
    ∀ (line : Bytes) (sock : Sock UInt8),
      (recvLine atLimit room line sock).2.outgoing = sock.outgoing := by
  induction room with
  | zero =>
      intro line sock
      rfl
  | succ room induction =>
      intro line sock
      rw [recvLine]
      cases received : recv sock 1 with
      | mk bytes after =>
          have unchanged : after.outgoing = sock.outgoing :=
            congrArg (fun result => result.2.outgoing) received.symm
          cases bytes with
          | nil => exact unchanged
          | cons c bytes =>
              by_cases feed : c = 10
              · simpa only [feed, if_true] using unchanged
              · simpa only [feed, if_false, unchanged] using
                  induction (line ++ [c]) after

theorem foldLines_outgoing
    {β : Type} {readLine : Sock UInt8 → Option Bytes × Sock UInt8}
    (quiet : ∀ sock, (readLine sock).2.outgoing = sock.outgoing)
    (take : β → Bytes → β) (bound : Nat) :
    ∀ (value : β) (sock : Sock UInt8),
      (foldLines readLine take bound value sock).2.2.outgoing =
        sock.outgoing := by
  induction bound with
  | zero =>
      intro value sock
      rfl
  | succ bound induction =>
      intro value sock
      have unchanged := quiet sock
      rw [foldLines]
      cases read : readLine sock with
      | mk answer after =>
          rw [read] at unchanged
          cases answer with
          | none => exact unchanged
          | some line =>
              cases line with
              | nil => exact unchanged
              | cons c line => exact (induction _ after).trans unchanged

end AccelObserver.Library.Lines
