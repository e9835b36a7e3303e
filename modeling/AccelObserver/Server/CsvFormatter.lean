import AccelObserver.Library.CNumber
import AccelObserver.Library.OutStream
import AccelObserver.Server.ServerTypes
import AccelObserver.Server.StorageManager

/-!
# The CSV formatter

`CsvFormatter` writes a header line and one line for each packet.  The state of
the one output file is its content and whether its path is in `initialized_`.
How the system behaves is given from outside: which streams open, and how much
of what they hand over is taken.

An output stream keeps up to some kilobytes back, and `good()` is asked before
they are handed over.  So a disk that is full is seen only behind a long batch;
what a stream still keeps when it is closed can be lost unseen.
-/

namespace AccelObserver.Server.CsvFormatter

open AccelObserver.Library
open AccelObserver.Library.CNumber (formatFixed6)
open AccelObserver.Library.Decimal (decimal)
open AccelObserver.Server.StorageManager (Formatter)

structure CsvFile where
  content : Option Bytes
  initialized : Bool

/-- No file under the path, and a new formatter. -/
def CsvFile.fresh : CsvFile :=
  { content := none, initialized := false }

/-- The bytes that an `ofstream` keeps, one less than `BUFSIZ`. -/
def streamSize : Nat := 8191

/-- How the system behaves during one call. -/
structure Io where
  /-- The stream that checks the header opens, if there is a file. -/
  checkOpens : Bool
  /-- The stream that creates or truncates the file opens. -/
  truncOpens : Bool
  /-- How much is taken of what this stream hands over. -/
  headerLimits : List Nat
  /-- How much is taken when it is closed, if not everything. -/
  headerCut : Option Nat
  /-- The stream that appends opens. -/
  appendOpens : Bool
  /-- How much is taken of what this stream hands over. -/
  appendLimits : List Nat
  /-- How much is taken when it is closed, if not everything. -/
  appendCut : Option Nat

/-- A system without a failure. -/
def Io.good : Io :=
  { checkOpens := true
    truncOpens := true
    headerLimits := []
    headerCut := none
    appendOpens := true
    appendLimits := []
    appendCut := none }

/-- Nothing is lost when a stream is closed.  All other failures are seen. -/
structure Io.ClosesWhole (io : Io) : Prop where
  header : io.headerCut = none
  append : io.appendCut = none

theorem Io.good_closesWhole : Io.good.ClosesWhole :=
  ⟨rfl, rfl⟩

/-! ## Lines -/

/-- `make_header` -/
def makeHeader (separator : Bytes) : Bytes :=
  ascii "timestamp" ++ separator ++ ascii "sequence_id" ++ separator ++
    ascii "acc_x" ++ separator ++ ascii "acc_y" ++ separator ++ ascii "acc_z"

/-- What is put into the stream for one packet. -/
def rowPieces (separator : Bytes) (pkt : DataPacket) : List Bytes :=
  [decimal pkt.timestampMs.toNat, separator,
    decimal pkt.sequenceId.toNat, separator,
    formatFixed6 pkt.accX, separator,
    formatFixed6 pkt.accY, separator,
    formatFixed6 pkt.accZ, [10]]

/-- The line of one packet. -/
def row (separator : Bytes) (pkt : DataPacket) : Bytes :=
  decimal pkt.timestampMs.toNat ++ separator ++
    decimal pkt.sequenceId.toNat ++ separator ++
    formatFixed6 pkt.accX ++ separator ++
    formatFixed6 pkt.accY ++ separator ++
    formatFixed6 pkt.accZ ++ [10]

/-- The texts of the five fields of a packet. -/
def fieldTexts (pkt : DataPacket) : List Bytes :=
  [decimal pkt.timestampMs.toNat, decimal pkt.sequenceId.toNat,
    formatFixed6 pkt.accX, formatFixed6 pkt.accY, formatFixed6 pkt.accZ]

/-- The five fields of a packet with the separator between them. -/
def rowLine (separator : Bytes) (pkt : DataPacket) : Bytes :=
  separator.intercalate (fieldTexts pkt)

theorem row_eq (separator : Bytes) (pkt : DataPacket) :
    row separator pkt = rowLine separator pkt ++ [10] := by
  simp [row, rowLine, fieldTexts, List.intercalate]

theorem flatten_rowPieces (separator : Bytes) (pkt : DataPacket) :
    (rowPieces separator pkt).flatten = row separator pkt := by
  simp [row, rowPieces]

/-- The first line of a text, as `getline` reads it: there is none of an empty
text, and the last line need not end. -/
def firstLine (text : Bytes) : Option Bytes :=
  if text = [] then none else some (text.takeWhile (· != 10))

/-! ## Writing -/

/-- The existing file begins with the header. -/
def hasHeader (separator : Bytes) (file : CsvFile) (io : Io) : Bool :=
  match file.content with
  | none => false
  | some text =>
      io.checkOpens && firstLine text == some (makeHeader separator)

/-- `write_header` -/
def writeHeader (separator : Bytes) (file : CsvFile) (io : Io) :
    CsvFile × Bool :=
  if hasHeader separator file io then
    ({ file with initialized := true }, true)
  else if !io.truncOpens then
    (file, false)
  else
    let stream :=
      (OutStream.opened io.headerLimits).puts streamSize
        [makeHeader separator, [10]]
    let content := some (stream.closed io.headerCut)
    if stream.good then
      ({ content := content, initialized := true }, true)
    else
      ({ file with content := content }, false)

/-- The row loop: the stream behind it and whether all went well. -/
def writeRows (separator : Bytes) :
    OutStream UInt8 → List DataPacket → OutStream UInt8 × Bool
  | stream, [] => (stream, true)
  | stream, pkt :: more =>
      let stream := stream.puts streamSize (rowPieces separator pkt)
      if stream.good then writeRows separator stream more
      else (stream, false)

/-- The part of `write_packets` behind the header. -/
def appendRows (separator : Bytes) (file : CsvFile)
    (packets : List DataPacket) (io : Io) : CsvFile × Bool :=
  if !io.appendOpens then
    (file, false)
  else
    let (stream, good) :=
      writeRows separator (OutStream.opened io.appendLimits) packets
    ({ file with
        content :=
          some (file.content.getD [] ++ stream.closed io.appendCut) },
      good)

/-- `write_packets` -/
def writePackets (separator : Bytes) (file : CsvFile)
    (packets : List DataPacket) (io : Io) : CsvFile × Bool :=
  if packets = [] then
    (file, true)
  else if file.initialized then
    appendRows separator file packets io
  else
    let (file, good) := writeHeader separator file io
    if good then appendRows separator file packets io else (file, false)

/-- The formatter as the storage manager sees it. -/
def csvFormatter (separator : Bytes) : Formatter DataPacket CsvFile Io :=
  { writeHeader := writeHeader separator
    writePackets := writePackets separator }

/-! ## What a file holds -/

/-- The lines of some packets, one behind the other. -/
def rows (separator : Bytes) (packets : List DataPacket) : Bytes :=
  (packets.map (row separator)).flatten

theorem rows_cons
    (separator : Bytes) (pkt : DataPacket) (packets : List DataPacket) :
    rows separator (pkt :: packets) =
      rowLine separator pkt ++ 10 :: rows separator packets := by
  simp [rows, row_eq]

/-- The file is the header line and the lines of these packets. -/
def Holds (separator : Bytes) (file : CsvFile) (stored : List DataPacket) :
    Prop :=
  file.initialized = true ∧
    file.content =
      some (makeHeader separator ++ [10] ++ rows separator stored)

/-- Rows that are all good are delivered, or kept by the stream. -/
theorem content_writeRows
    {separator : Bytes} {packets : List DataPacket}
    {stream : OutStream UInt8}
    (good : (writeRows separator stream packets).2 = true) :
    (writeRows separator stream packets).1.content =
      stream.content ++ rows separator packets := by
  induction packets generalizing stream with
  | nil => exact (List.append_nil _).symm
  | cons pkt more induction =>
      simp only [writeRows] at good ⊢
      split_ifs at good ⊢ with goodHere
      rw [induction good, (OutStream.content_puts goodHere).2,
        flatten_rowPieces, List.append_assoc]
      rfl

/-- A call that reports success has appended its packets, if its stream is
closed without a loss. -/
theorem writePackets_holds
    {separator : Bytes} {file : CsvFile} {stored packets : List DataPacket}
    {io : Io} (closes : io.ClosesWhole) (holds : Holds separator file stored)
    (good : (writePackets separator file packets io).2 = true) :
    Holds separator (writePackets separator file packets io).1
      (stored ++ packets) := by
  rcases holds with ⟨initialized, content⟩
  simp only [writePackets, initialized, if_true] at good ⊢
  by_cases empty : packets = []
  · rw [if_pos empty, empty, List.append_nil]
    exact ⟨initialized, content⟩
  · simp only [if_neg empty, appendRows] at good ⊢
    cases opens : io.appendOpens with
    | false => simp [opens] at good
    | true =>
        simp only [opens, Bool.not_true, Bool.false_eq_true, if_false]
          at good ⊢
        refine ⟨initialized, ?_⟩
        rw [closes.append, OutStream.closed_none, content_writeRows good,
          content]
        simp [rows]

theorem csvFormatter_appendsOn
    (separator : Bytes) {io : Io} (closes : io.ClosesWhole) :
    (csvFormatter separator).AppendsOn (Holds separator) io :=
  fun _ _ _ holds good => writePackets_holds closes holds good

/-- On a path without a file, a header that is written makes an empty table. -/
theorem writeHeader_fresh
    {separator : Bytes} {io : Io} (closes : io.ClosesWhole)
    (good : (writeHeader separator .fresh io).2 = true) :
    Holds separator (writeHeader separator .fresh io).1 [] := by
  simp only [writeHeader, hasHeader, CsvFile.fresh, Bool.false_eq_true,
    if_false] at good ⊢
  cases opens : io.truncOpens with
  | false => simp [opens] at good
  | true =>
      simp only [opens, Bool.not_true, Bool.false_eq_true, if_false]
        at good ⊢
      split_ifs at good ⊢ with goodStream
      refine ⟨rfl, ?_⟩
      rw [closes.header, OutStream.closed_none,
        (OutStream.content_puts goodStream).2]
      simp [rows]

/-! ## A system without a failure -/

theorem writeRows_of_unlimited
    (separator : Bytes) (packets : List DataPacket)
    {stream : OutStream UInt8} (good : stream.good = true)
    (unlimited : stream.limits = []) :
    (writeRows separator stream packets).2 = true := by
  induction packets generalizing stream with
  | nil => rfl
  | cons pkt more induction =>
      rcases OutStream.puts_of_unlimited streamSize good unlimited
          (rowPieces separator pkt)
        with ⟨goodHere, unlimitedHere⟩
      rw [writeRows, if_pos goodHere]
      exact induction goodHere unlimitedHere

theorem appendRows_good
    (separator : Bytes) (file : CsvFile) (packets : List DataPacket) :
    appendRows separator file packets .good =
      ({ file with
          content :=
            some (file.content.getD [] ++ rows separator packets) },
        true) := by
  have all :
      (writeRows separator (OutStream.opened Io.good.appendLimits) packets).2 =
        true :=
    writeRows_of_unlimited separator packets rfl rfl
  have rowsOf := content_writeRows all
  rw [OutStream.content_opened, List.nil_append] at rowsOf
  simp only [appendRows, all]
  rw [show Io.good.appendCut = none from rfl, OutStream.closed_none, rowsOf]
  rfl

theorem writeHeader_good (separator : Bytes) (file : CsvFile) :
    writeHeader separator file .good =
      if hasHeader separator file .good then
        ({ file with initialized := true }, true)
      else
        ({ content := some (makeHeader separator ++ [10])
           initialized := true }, true) := by
  have opened :
      (OutStream.opened Io.good.headerLimits : OutStream UInt8).good = true :=
    rfl
  have good :=
    (OutStream.puts_of_unlimited streamSize opened rfl
      [makeHeader separator, [10]]).1
  have header := (OutStream.content_puts good).2
  rw [OutStream.content_opened, List.nil_append] at header
  simp only [writeHeader, good, if_true]
  rw [show Io.good.headerCut = none from rfl, OutStream.closed_none, header]
  simp [show Io.good.truncOpens = true from rfl]

/-- A system without a failure gives no error. -/
theorem writePackets_good
    (separator : Bytes) (file : CsvFile) (packets : List DataPacket) :
    (writePackets separator file packets .good).2 = true := by
  have header : (writeHeader separator file .good).2 = true := by
    rw [writeHeader_good]
    split_ifs <;> rfl
  rw [writePackets]
  split_ifs with empty initialized
  · rfl
  · rw [appendRows_good]
  · simp only [header, if_true, appendRows_good]

end AccelObserver.Server.CsvFormatter
