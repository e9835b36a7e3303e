import AccelObserver.Library.Split
import AccelObserver.Server.CliArgs
import AccelObserver.Server.CsvRestarts
import AccelObserver.Server.PacketValidator

/-!
# Reading the rows back

A reader of the file takes its lines and splits each at the separator.  The
separator is whatever the configuration says: it may be empty, hold a line
feed, or be made of the bytes that numbers are printed in.
-/

namespace AccelObserver.Server.CsvRows

open AccelObserver.Library
open AccelObserver.Library.CNumber
open AccelObserver.Library.Split
open AccelObserver.Library.TextLines
open AccelObserver.Server.CliArgs
open AccelObserver.Server.ConfLoader
open AccelObserver.Server.CsvFormatter
open AccelObserver.Server.CsvRestarts
open AccelObserver.Server.PacketValidator

/-- The separators that `apply_conf` or `parse_args` can store. -/
def Settable (separator : Bytes) : Prop :=
  (∃ conf after, applyConf conf Config.default = .ok after ∧
      after.csvSeparator = separator) ∨
    ∃ args resolved, parseArgs Config.default args = some resolved ∧
      resolved.csvSeparator = separator

/-- The packets that the validator can accept. -/
def Accepted (pkt : DataPacket) : Prop :=
  ∃ cfg clock counter payload,
    (parse cfg clock counter payload).1 = { packet := pkt, result := .ok }

/-- All axes are numbers. -/
def FiniteAxes (pkt : DataPacket) : Prop :=
  pkt.accX.IsFinite ∧ pkt.accY.IsFinite ∧ pkt.accZ.IsFinite

/-- What the readers of the rows can rely on. -/
structure ReadsBack (separator : Bytes) (packets : List DataPacket) : Prop where
  /-- Each line splits into the five field texts of its packet. -/
  fields :
    (lines (rows separator packets)).map (split separator) =
      packets.map fieldTexts
  /-- Packets with different field texts have different rows. -/
  distinct :
    ∀ pkt ∈ packets, ∀ other ∈ packets, fieldTexts pkt ≠ fieldTexts other →
      rowLine separator pkt ≠ rowLine separator other

/-! ## Separators with a line feed -/

theorem one_le_count_rowLine
    {separator : Bytes} (feed : 10 ∈ separator) (pkt : DataPacket) :
    1 ≤ (rowLine separator pkt).count 10 := by
  refine List.count_pos_iff.mpr ?_
  simp [rowLine, fieldTexts, feed]

/-- The file has two line feeds or more for each packet. -/
theorem two_mul_length_le_count_rows
    {separator : Bytes} (feed : 10 ∈ separator) (packets : List DataPacket) :
    2 * packets.length ≤ (rows separator packets).count 10 := by
  induction packets with
  | nil => exact Nat.zero_le _
  | cons pkt packets induction =>
      have here := one_le_count_rowLine feed pkt
      rw [rows_cons, List.count_append, List.count_cons_self,
        List.length_cons]
      omega

/-- So it has more lines than packets. -/
theorem length_lt_length_lines
    {separator : Bytes} (feed : 10 ∈ separator) {packets : List DataPacket}
    (nonempty : packets ≠ []) :
    packets.length < (lines (rows separator packets)).length := by
  have positive := List.length_pos_of_ne_nil nonempty
  calc
    packets.length < 2 * packets.length := by omega
    _ ≤ (rows separator packets).count 10 :=
      two_mul_length_le_count_rows feed packets
    _ ≤ (lines (rows separator packets)).length := count_le_length_lines _

/-! ## Separators on one line -/

/-- The lines split into the fields exactly if each row does. -/
theorem fields_iff
    {separator : Bytes} (oneLine : 10 ∉ separator)
    (separates : separator ≠ []) (packets : List DataPacket) :
    (lines (rows separator packets)).map (split separator) =
        packets.map fieldTexts ↔
      ∀ pkt ∈ packets, Separable separator (fieldTexts pkt) := by
  rw [lines_rows oneLine, List.map_map, List.map_inj_left]
  refine forall₂_congr fun pkt _ => ?_
  exact split_intercalate_iff separates (fieldTexts pkt)

theorem split_rowLine_nil (pkt : DataPacket) :
    split [] (rowLine [] pkt) ≠ fieldTexts pkt := by
  simp [split, fieldTexts]

theorem readsBack_of_separable
    {separator : Bytes} (separates : separator ≠ []) (oneLine : 10 ∉ separator)
    {packets : List DataPacket}
    (separable :
      ∀ pkt ∈ packets, Separable separator (fieldTexts pkt)) :
    ReadsBack separator packets := by
  refine ⟨(fields_iff oneLine separates packets).mpr separable, ?_⟩
  intro pkt member other otherMember differ sameRow
  have here := (split_intercalate_iff separates _).mpr (separable pkt member)
  have there :=
    (split_intercalate_iff separates _).mpr (separable other otherMember)
  apply differ
  rw [← here, ← there]
  exact congrArg (split separator) sameRow

/--
The rows of the packets can be read back exactly if there are none, or the
separator has a byte, no line feed, and is met in no row before its turn.
-/
theorem readsBack_iff (separator : Bytes) (packets : List DataPacket) :
    ReadsBack separator packets ↔
      packets = [] ∨
        (separator ≠ [] ∧ 10 ∉ separator ∧
          ∀ pkt ∈ packets, Separable separator (fieldTexts pkt)) := by
  constructor
  · rintro ⟨fields, _⟩
    by_cases none : packets = []
    · exact .inl none
    · have oneLine : 10 ∉ separator := by
        intro feed
        have more := length_lt_length_lines feed none
        have same := congrArg List.length fields
        rw [List.length_map, List.length_map] at same
        omega
      have separates : separator ≠ [] := by
        rintro rfl
        rw [lines_rows oneLine, List.map_map, List.map_inj_left] at fields
        rcases List.exists_mem_of_ne_nil packets none with ⟨pkt, member⟩
        exact split_rowLine_nil pkt (fields pkt member)
      exact .inr
        ⟨separates, oneLine, (fields_iff oneLine separates packets).mp fields⟩
  · rintro (rfl | ⟨separates, oneLine, separable⟩)
    · exact ⟨rfl, fun pkt member => absurd member List.not_mem_nil⟩
    · exact readsBack_of_separable separates oneLine separable

/-- A packet in which nothing moves. -/
def stillPacket : DataPacket :=
  { DataPacket.zero with timestampMs := 1, sequenceId := 1 }

/-- With the point as the separator, the decimals are split off as well. -/
theorem point_not_readsBack :
    ¬ ∀ separator packets, Settable separator →
        (∀ pkt ∈ packets, Accepted pkt ∧ FiniteAxes pkt) →
        ReadsBack separator packets := by
  intro always
  have settable : Settable (ascii ".") :=
    .inr ⟨[ascii "--csv-sep", ascii "."],
      { Config.default with csvSeparator := ascii "." },
      by decide +kernel, rfl⟩
  have accepted : Accepted stillPacket :=
    ⟨.default, 0, 0,
      ascii "\x7b\"ts\":1,\"seq\":1,\"ax\":0,\"ay\":0,\"az\":0\x7d",
      by decide +kernel⟩
  have finite : FiniteAxes stillPacket :=
    ⟨⟨_, _, rfl⟩, ⟨_, _, rfl⟩, ⟨_, _, rfl⟩⟩
  have fields := (always (ascii ".") [stillPacket] settable (by
    intro pkt member
    rw [List.mem_singleton.mp member]
    exact ⟨accepted, finite⟩)).fields
  have different :
      (lines (rows (ascii ".") [stillPacket])).map (split (ascii ".")) ≠
        [stillPacket].map fieldTexts := by
    decide +kernel
  exact different fields

/-! ## Separators that no number is printed with -/

theorem isPrintedByte_of_mem_fieldTexts
    {pkt : DataPacket} (finite : FiniteAxes pkt)
    {field : Bytes} (member : field ∈ fieldTexts pkt)
    {byte : UInt8} (inside : byte ∈ field) : isPrintedByte byte = true := by
  rcases finite with ⟨finiteX, finiteY, finiteZ⟩
  simp only [fieldTexts, List.mem_cons, List.not_mem_nil, or_false] at member
  rcases member with rfl | rfl | rfl | rfl | rfl
  · exact isPrintedByte_of_mem_decimal inside
  · exact isPrintedByte_of_mem_decimal inside
  · exact isPrintedByte_of_mem_formatFixed6 finiteX inside
  · exact isPrintedByte_of_mem_formatFixed6 finiteY inside
  · exact isPrintedByte_of_mem_formatFixed6 finiteZ inside

/-- One byte that is no digit, minus or point is enough. -/
theorem readsBack_of_foreign
    {separator : Bytes} (oneLine : 10 ∉ separator)
    {byte : UInt8} (member : byte ∈ separator)
    (foreign : isPrintedByte byte = false)
    {packets : List DataPacket} (finite : ∀ pkt ∈ packets, FiniteAxes pkt) :
    ReadsBack separator packets := by
  refine readsBack_of_separable (List.ne_nil_of_mem member) oneLine ?_
  intro pkt packetMember
  refine separable_of_foreign member (by simp [fieldTexts]) ?_
  intro field fieldMember inside
  have printed :=
    isPrintedByte_of_mem_fieldTexts (finite pkt packetMember) fieldMember
      inside
  rw [foreign] at printed
  cases printed

end AccelObserver.Server.CsvRows
