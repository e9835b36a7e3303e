import AccelObserver.Library.TextLines
import AccelObserver.Server.CsvFormatter

/-!
# The output file over restarts

A server may find the file of an earlier run, in whatever state that run left
it.  `write_header` looks at the first line only and `write_packets` appends,
so what is behind the first line decides whether the new rows are lines of
their own: they are as long as the old file ends with a line feed.

The streams of this module do not fail.
-/

namespace AccelObserver.Server.CsvRestarts

open AccelObserver.Library
open AccelObserver.Library.CNumber
open AccelObserver.Library.TextLines
open AccelObserver.Server.CsvFormatter

/-! ## Sessions -/

/-- A call of the formatter. -/
inductive Call
  | writeHeader
  | writePackets (packets : List DataPacket)
  deriving DecidableEq

/-- The packets that a call is given. -/
def Call.packets : Call → List DataPacket
  | .writeHeader => []
  | .writePackets packets => packets

/-- One call, without a failure. -/
def perform (separator : Bytes) (file : CsvFile) : Call → CsvFile
  | .writeHeader => (writeHeader separator file .good).1
  | .writePackets packets => (writePackets separator file packets .good).1

/-- The calls of one run of the server, from the file that it finds. -/
def session (separator : Bytes) (old : Option Bytes) (calls : List Call) :
    CsvFile :=
  calls.foldl (perform separator) { content := old, initialized := false }

/-- The packets of a session, in order. -/
def written (calls : List Call) : List DataPacket :=
  calls.flatMap Call.packets

/-- No call has anything to write. -/
def Idle (calls : List Call) : Prop :=
  ∀ call ∈ calls, call = .writePackets []

instance (calls : List Call) : Decidable (Idle calls) :=
  inferInstanceAs (Decidable (∀ call ∈ calls, _))

/-- The first line of a file is the header. -/
def BeginsWithHeader (separator : Bytes) (content : Option Bytes) : Prop :=
  ∃ text ∈ content, firstLine text = some (makeHeader separator)

/-- What a session leaves to the readers of the file. -/
structure LineStructured (separator : Bytes) (old : Option Bytes)
    (packets : List DataPacket) (text : Bytes) : Prop where
  /-- The header is the first line. -/
  header : firstLine text = some (makeHeader separator)
  /-- The packets are the last lines. -/
  rows : packets.map (rowLine separator) <:+ lines text
  /-- A file with the header is still there, in front of the packets. -/
  kept :
    ∀ before ∈ old, firstLine before = some (makeHeader separator) →
      ∃ added, text = before ++ added ∧
        lines added = packets.map (rowLine separator)

/-- When a session leaves that. -/
structure Restartable (separator : Bytes) (old : Option Bytes)
    (calls : List Call) : Prop where
  /-- Something is written, or the header is there already. -/
  header : Idle calls → BeginsWithHeader separator old
  /-- Packets are not appended to a file that ends within a line. -/
  ended :
    ∀ before ∈ old, firstLine before = some (makeHeader separator) →
      written calls ≠ [] → ¬ Open before

/-! ## Lines without a line feed -/

theorem not_mem_formatFixed6 (number : Double) :
    10 ∉ formatFixed6 number := by
  cases number with
  | finite negative magnitude =>
      intro member
      have numeral :=
        isPrintedByte_of_mem_formatFixed6 ⟨negative, magnitude, rfl⟩ member
      cases numeral
  | infinite negative => cases negative <;> decide
  | nan => decide

theorem not_mem_decimal (n : Nat) : 10 ∉ Decimal.decimal n := by
  intro member
  have numeral := isPrintedByte_of_mem_decimal member
  cases numeral

section OneLine

variable {separator : Bytes} (oneLine : 10 ∉ separator)

include oneLine

theorem not_mem_rowLine (pkt : DataPacket) : 10 ∉ rowLine separator pkt := by
  simp [rowLine, fieldTexts, List.intercalate, oneLine, not_mem_decimal,
    not_mem_formatFixed6]

theorem not_mem_makeHeader : 10 ∉ makeHeader separator := by
  have names :
      10 ∉ ascii "timestamp" ∧ 10 ∉ ascii "sequence_id" ∧
        10 ∉ ascii "acc_x" ∧ 10 ∉ ascii "acc_y" ∧ 10 ∉ ascii "acc_z" := by
    decide
  rcases names with ⟨timestamp, sequenceId, accX, accY, accZ⟩
  simp [makeHeader, oneLine, timestamp, sequenceId, accX, accY, accZ]

/-- The rows are lines of their own. -/
theorem lines_rows (packets : List DataPacket) :
    lines (rows separator packets) = packets.map (rowLine separator) := by
  induction packets with
  | nil => rfl
  | cons pkt packets induction =>
      rw [rows_cons, lines_append_cons (not_mem_rowLine oneLine pkt),
        induction, List.map_cons]

/-- A file that begins with the header line begins with the header. -/
theorem firstLine_header (rest : Bytes) :
    firstLine (makeHeader separator ++ [10] ++ rest) =
      some (makeHeader separator) := by
  rw [firstLine, if_neg (by simp), List.append_assoc,
    List.takeWhile_append_of_pos]
  · simp
  · intro byte member
    rw [bne_iff_ne]
    rintro rfl
    exact not_mem_makeHeader oneLine member

end OneLine

/-! ## One call -/

theorem not_open_rows (separator : Bytes) (packets : List DataPacket) :
    ¬ Open (rows separator packets) := by
  induction packets with
  | nil => simp [rows, Open]
  | cons pkt packets induction =>
      rw [rows_cons, ← List.singleton_append, ← List.append_assoc]
      exact not_open_append (not_open_feed _) induction

theorem takeWhile_feed (front rest : Bytes) :
    (front ++ 10 :: rest).takeWhile (· != 10) =
      front.takeWhile (· != 10) := by
  induction front with
  | nil => rfl
  | cons byte front induction =>
      rw [List.cons_append, List.takeWhile_cons, induction,
        List.takeWhile_cons]

/-- Behind a line feed, the first line does not change. -/
theorem firstLine_append
    {before line : Bytes} (first : firstLine before = some line)
    (ended : ¬ Open before) (after : Bytes) :
    firstLine (before ++ after) = some line := by
  have nonempty : before ≠ [] := by
    rintro rfl
    simp [firstLine] at first
  have feed : before = before.dropLast ++ [10] := by
    have last : before.getLast nonempty = 10 := by
      by_contra other
      exact ended ⟨_, List.getLast?_eq_some_getLast nonempty, other⟩
    rw [← last, List.dropLast_append_getLast]
  rw [firstLine, if_neg nonempty, feed, takeWhile_feed] at first
  rw [firstLine, if_neg (by simp [nonempty]), feed, List.append_assoc,
    List.singleton_append, takeWhile_feed, first]

theorem hasHeader_good (separator : Bytes) (file : CsvFile) :
    hasHeader separator file .good = true ↔
      BeginsWithHeader separator file.content := by
  rw [hasHeader, BeginsWithHeader]
  cases file.content with
  | none => simp
  | some text => simp [Io.good]

/-- Every call appends its packets to a file that begins with the header. -/
theorem perform_of_header
    {separator : Bytes} {file : CsvFile} {text : Bytes}
    (content : file.content = some text)
    (header : firstLine text = some (makeHeader separator)) (call : Call) :
    (perform separator file call).content =
      some (text ++ rows separator call.packets) := by
  have begins : hasHeader separator file .good = true :=
    (hasHeader_good separator file).mpr ⟨text, content, header⟩
  cases call with
  | writeHeader =>
      rw [perform, writeHeader_good, if_pos begins]
      simpa [Call.packets, rows] using content
  | writePackets packets =>
      rw [perform, writePackets]
      split_ifs with empty initialized
      · simpa [Call.packets, rows, empty] using content
      · simp [appendRows_good, content, Call.packets]
      · simp only [writeHeader_good, begins, if_true]
        simp [appendRows_good, content, Call.packets]

/-- Otherwise the first call that writes begins the file anew. -/
theorem perform_of_no_header
    {separator : Bytes} {file : CsvFile}
    (fresh : file.initialized = false)
    (noHeader : ¬ BeginsWithHeader separator file.content)
    {call : Call} (writes : call ≠ .writePackets []) :
    (perform separator file call).content =
      some (makeHeader separator ++ [10] ++ rows separator call.packets) := by
  have begins : hasHeader separator file .good = false := by
    rw [← Bool.not_eq_true, hasHeader_good]
    exact noHeader
  have created :
      writeHeader separator file .good =
        ({ content := some (makeHeader separator ++ [10])
           initialized := true }, true) := by
    rw [writeHeader_good, begins]
    rfl
  cases call with
  | writeHeader =>
      rw [perform, created]
      simp [Call.packets, rows]
  | writePackets packets =>
      have nonempty : packets ≠ [] := by
        rintro rfl
        exact writes rfl
      rw [perform, writePackets, if_neg nonempty, fresh, created]
      simp only [Bool.false_eq_true, if_false, if_true]
      rw [appendRows_good]
      rfl

/-! ## Whole sessions -/

theorem written_cons (call : Call) (calls : List Call) :
    written (call :: calls) = call.packets ++ written calls :=
  List.flatMap_cons

theorem rows_append
    (separator : Bytes) (before after : List DataPacket) :
    rows separator (before ++ after) =
      rows separator before ++ rows separator after := by
  simp [rows]

/-- The packets are appended to a file with the header that is not open. -/
theorem foldl_of_header
    {separator : Bytes} (calls : List Call) {file : CsvFile} {text : Bytes}
    (content : file.content = some text)
    (header : firstLine text = some (makeHeader separator))
    (ended : written calls ≠ [] → ¬ Open text) :
    (calls.foldl (perform separator) file).content =
      some (text ++ rows separator (written calls)) := by
  induction calls generalizing file text with
  | nil => simpa [written, rows] using content
  | cons call calls induction =>
      have appended := perform_of_header content header call
      rw [written_cons] at ended ⊢
      rw [List.foldl_cons, rows_append, ← List.append_assoc]
      apply induction appended
      · by_cases none : call.packets = []
        · simpa [none, rows] using header
        · exact firstLine_append header (ended (by simp [none])) _
      · intro more
        exact not_open_append (ended (by simp [more])) (not_open_rows _ _)

/-- Without the header, the file is made anew as soon as there is a write. -/
theorem foldl_of_no_header
    {separator : Bytes} (oneLine : 10 ∉ separator) {calls : List Call}
    (writes : ¬ Idle calls) {file : CsvFile}
    (fresh : file.initialized = false)
    (noHeader : ¬ BeginsWithHeader separator file.content) :
    (calls.foldl (perform separator) file).content =
      some
        (makeHeader separator ++ [10] ++ rows separator (written calls)) := by
  induction calls with
  | nil => simp [Idle] at writes
  | cons call calls induction =>
      rw [List.foldl_cons, written_cons]
      by_cases idle : call = .writePackets []
      · have later : ¬ Idle calls := by
          simpa [Idle, idle] using writes
        rw [idle]
        exact induction later
      · have begun := perform_of_no_header fresh noHeader idle
        have ended :
            ¬ Open (makeHeader separator ++ [10] ++
              rows separator call.packets) :=
          not_open_append (not_open_feed _) (not_open_rows _ _)
        rw [foldl_of_header calls begun (firstLine_header oneLine _)
          (fun _ => ended), rows_append, List.append_assoc _ (rows _ _)]

theorem foldl_of_idle
    {separator : Bytes} {calls : List Call} (idle : Idle calls)
    (file : CsvFile) : calls.foldl (perform separator) file = file := by
  induction calls with
  | nil => rfl
  | cons call calls induction =>
      rcases List.forall_mem_cons.mp idle with ⟨idleHere, idleLater⟩
      rw [List.foldl_cons, idleHere]
      exact induction idleLater

theorem session_of_idle
    {separator : Bytes} {calls : List Call} (idle : Idle calls)
    (old : Option Bytes) : (session separator old calls).content = old := by
  rw [session, foldl_of_idle idle]

theorem session_of_header
    {separator before : Bytes} {calls : List Call}
    (header : firstLine before = some (makeHeader separator))
    (ended : written calls ≠ [] → ¬ Open before) :
    (session separator (some before) calls).content =
      some (before ++ rows separator (written calls)) :=
  foldl_of_header calls rfl header ended

theorem session_of_no_header
    {separator : Bytes} (oneLine : 10 ∉ separator) {calls : List Call}
    (writes : ¬ Idle calls) {old : Option Bytes}
    (noHeader : ¬ BeginsWithHeader separator old) :
    (session separator old calls).content =
      some (makeHeader separator ++ [10] ++ rows separator (written calls)) :=
  foldl_of_no_header oneLine writes rfl noHeader

/-! ## The table -/

section Table

variable {separator : Bytes} (oneLine : 10 ∉ separator)

include oneLine

/-- Packets behind a table that is not open. -/
theorem lineStructured_of_header
    {before : Bytes} (header : firstLine before = some (makeHeader separator))
    {packets : List DataPacket} (ended : packets ≠ [] → ¬ Open before) :
    LineStructured separator (some before) packets
      (before ++ rows separator packets) := by
  by_cases none : packets = []
  · subst none
    rw [show rows separator [] = [] from rfl, List.append_nil]
    refine ⟨header, List.nil_suffix, ?_⟩
    intro same found _
    cases found
    exact ⟨[], (List.append_nil _).symm, rfl⟩
  · refine ⟨firstLine_append header (ended none) _, ?_, ?_⟩
    · rw [lines_append_of_not_open (ended none), lines_rows oneLine]
      exact List.suffix_append _ _
    · intro same found _
      cases found
      exact ⟨_, rfl, lines_rows oneLine packets⟩

/-- Packets in a file that is made anew. -/
theorem lineStructured_of_no_header
    {old : Option Bytes} (noHeader : ¬ BeginsWithHeader separator old)
    (packets : List DataPacket) :
    LineStructured separator old packets
      (makeHeader separator ++ [10] ++ rows separator packets) := by
  refine ⟨firstLine_header oneLine _, ?_, ?_⟩
  · rw [lines_append_of_not_open (not_open_feed _), lines_rows oneLine]
    exact List.suffix_append _ _
  · intro before found header
    exact absurd ⟨before, found, header⟩ noHeader

end Table

/-- A file with the header that is still there is not open. -/
theorem not_open_of_lineStructured
    {separator text before : Bytes} {packets : List DataPacket}
    (structured : LineStructured separator (some before) packets text)
    (header : firstLine before = some (makeHeader separator))
    (some : packets ≠ []) : ¬ Open before := by
  intro unended
  rcases structured.kept before rfl header with ⟨added, rfl, lineOfEach⟩
  cases packets with
  | nil => exact some rfl
  | cons pkt packets =>
      rw [List.map_cons] at lineOfEach
      rcases lines_append_of_open unended lineOfEach
        with ⟨whole, part, nonempty, split⟩
      have last := structured.rows
      rw [split, List.map_cons] at last
      -- Both lists are the same number of last lines.
      have same :=
        (List.suffix_of_suffix_length_le last
          (List.suffix_append whole _) (by simp)).eq_of_length (by simp)
      have joined := congrArg List.length (List.cons.inj same).1
      rw [List.length_append] at joined
      have positive := List.length_pos_iff.mpr nonempty
      omega

/--
A session leaves a table with the packets at its end, if and only if it does
not append packets to a file that ends within a line.
-/
theorem session_lineStructured_iff
    {separator : Bytes} (oneLine : 10 ∉ separator)
    (old : Option Bytes) (calls : List Call) :
    (∃ text ∈ (session separator old calls).content,
        LineStructured separator old (written calls) text) ↔
      Restartable separator old calls := by
  constructor
  · rintro ⟨text, content, structured⟩
    constructor
    · intro idle
      rw [session_of_idle idle] at content
      exact ⟨text, content, structured.header⟩
    · rintro before rfl header packets
      exact not_open_of_lineStructured structured header packets
  · intro restartable
    by_cases header : BeginsWithHeader separator old
    · rcases header with ⟨before, rfl, header⟩
      have ended := restartable.ended before rfl header
      exact ⟨_, session_of_header header ended,
        lineStructured_of_header oneLine header ended⟩
    · have writes : ¬ Idle calls := fun idle => header (restartable.header idle)
      exact ⟨_, session_of_no_header oneLine writes header,
        lineStructured_of_no_header oneLine header _⟩

/-- The packet of the sessions below. -/
def restPacket : DataPacket :=
  { DataPacket.zero with timestampMs := 1700000000000, sequenceId := 7 }

/-- The calls of a run with one batch. -/
def oneBatch : List Call :=
  [.writeHeader, .writePackets [restPacket]]

/-- A file whose last row was cut off, as by a full disk. -/
def cutFile : Bytes :=
  makeHeader (ascii ";") ++ [10] ++ ascii "1699999999999;6;0.0"

theorem session_lineStructured_iff_cutFile :
    (∃ text ∈ (session (ascii ";") (some cutFile) oneBatch).content,
        LineStructured (ascii ";") (some cutFile) (written oneBatch) text) ↔
      Restartable (ascii ";") (some cutFile) oneBatch :=
  session_lineStructured_iff (by decide) (some cutFile) oneBatch

/-- The new row continues the one that was cut off. -/
theorem cutFile_not_lineStructured :
    ¬ ∀ (separator : Bytes) (old : Option Bytes) (calls : List Call),
        10 ∉ separator → ¬ Idle calls →
        ∃ text ∈ (session separator old calls).content,
          LineStructured separator old (written calls) text := by
  intro always
  rcases always (ascii ";") (some cutFile) oneBatch (by decide) (by decide)
    with ⟨text, content, structured⟩
  cases content
  exact absurd structured.rows (by decide +kernel)

end AccelObserver.Server.CsvRestarts
